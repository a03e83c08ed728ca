import GraphQuery.Builder
import GraphQuery.Proofs.Compiled
import GraphQuery.Proofs.Entries
import GraphQuery.Proofs.Rendering

/-!
# Compiling similar queries

Two queries are similar when they differ in their values only, and those are related one by
one. Main statement: when related values are compiled alike, so are similar queries. Both fail,
or both give the same text with slot by slot related values.
-/

namespace GraphQuery

open List (Forall₂)

/-! ## Compilations side by side -/

namespace Compiled

variable {α β γ δ : Type} {R : α → β → Prop} {S : γ → δ → Prop}

/-- Two compilations that both fail, or both succeed with related results. -/
inductive Both (R : α → β → Prop) : Compiled α → Compiled β → Prop where
  | ok {a : α} {b : β} (related : R a b) : Both R (.ok a) (.ok b)
  | error (c d : CompileError) : Both R (.error c) (.error d)

namespace Both

theorem refl {R : α → α → Prop} (self : ∀ a, R a a) (x : Compiled α) : Both R x x := by
  cases x with
  | error c => exact .error c c
  | ok a => exact .ok (self a)

theorem same (x : Compiled α) : Both (· = ·) x x := .refl (fun _ => rfl) x

theorem bind {x : Compiled α} {y : Compiled β} (both : Both R x y) {f : α → Compiled γ} {g : β → Compiled δ}
    (next : ∀ a b, R a b → Both S (f a) (g b)) : Both S (x >>= f) (y >>= g) := by
  cases both with
  | ok related => exact next _ _ related
  | error c d => exact .error c d

theorem isOk_eq {x : Compiled α} {y : Compiled β} (both : Both R x y) : x.isOk = y.isOk := by
  cases both <;> rfl

theorem of_ok {a : α} {b : β} (both : Both R (.ok a) (.ok b)) : R a b := by
  cases both with
  | ok related => exact related

theorem map {x : Compiled α} {y : Compiled β} (both : Both R x y) {f : α → γ} {g : β → δ}
    (next : ∀ a b, R a b → S (f a) (g b)) : Both S (x.map f) (y.map g) := by
  cases both with
  | ok related => exact .ok (next _ _ related)
  | error c d => exact .error c d

theorem mapM {f : α → Compiled γ} {g : β → Compiled δ} {xs : List α} {ys : List β} (pairs : Forall₂ R xs ys)
    (each : ∀ x y, R x y → Both S (f x) (g y)) : Both (Forall₂ S) (xs.mapM f) (ys.mapM g) := by
  induction pairs with
  | nil => exact .ok .nil
  | cons first _ ih =>
    rw [List.mapM_cons, List.mapM_cons]
    exact (each _ _ first).bind fun c d head => ih.bind fun cs ds tail => .ok (.cons head tail)

end Both

end Compiled

open Compiled (Both)

/-! ## Fragments side by side -/

namespace Fragment

variable {S : Value → Value → Prop}

/-- Fragments of one text with slot by slot related values. -/
def Alike (S : Value → Value → Prop) (f g : Fragment) : Prop :=
  Forall₂ (fun s t => s.1 = t.1 ∧ S s.2 t.2) f.slots g.slots ∧ f.tail = g.tail

namespace Alike

theorem refl (self : ∀ v, S v v) (f : Fragment) : Alike S f f := ⟨List.forall₂_same.2 fun s _ => ⟨rfl, self s.2⟩, rfl⟩

theorem text (s : String) : Alike S (.text s) (.text s) := ⟨.nil, rfl⟩

theorem slot {v w : Value} (related : S v w) : Alike S (.slot v) (.slot w) := ⟨.cons ⟨rfl, related⟩ .nil, rfl⟩

theorem append {f f' g g' : Fragment} (first : Alike S f f') (second : Alike S g g') : Alike S (f ++ g) (f' ++ g') := by
  obtain ⟨fs, ft⟩ := f
  obtain ⟨fs', ft'⟩ := f'
  obtain ⟨gs, gt⟩ := g
  obtain ⟨gs', gt'⟩ := g'
  obtain ⟨slots, rfl⟩ := first
  obtain ⟨rest, rfl⟩ := second
  cases rest with
  | nil => exact ⟨slots, rfl⟩
  | cons head rest =>
    obtain ⟨same, related⟩ := head
    exact ⟨List.rel_append slots (.cons ⟨congrArg (ft ++ ·) same, related⟩ rest), rfl⟩

theorem isEmpty {f g : Fragment} (alike : Alike S f g) : f.isEmpty = g.isEmpty := by
  obtain ⟨fs, ft⟩ := f
  obtain ⟨gs, gt⟩ := g
  obtain ⟨slots, rfl⟩ := alike
  cases slots <;> rfl

theorem wrap {f g : Fragment} (alike : Alike S f g) (before after : String) :
    Alike S (f.wrap before after) (g.wrap before after) := by
  unfold Fragment.wrap
  rw [alike.isEmpty]
  split
  · exact alike
  · exact ((text before).append alike).append (text after)

theorem separated {fs gs : List Fragment} (pairs : Forall₂ (Alike S) fs gs) (sep : String) :
    Alike S (.separated sep fs) (.separated sep gs) := by
  induction pairs with
  | nil => exact ⟨.nil, rfl⟩
  | cons first rest ih =>
    cases rest with
    | nil => exact first
    | cons => exact (first.append (text sep)).append ih

theorem join {fs gs : List Fragment} (pairs : Forall₂ (Alike S) fs gs) (sep : String) :
    Alike S (.join sep fs) (.join sep gs) := by
  refine separated (List.rel_filter (fun f g alike => ?_) pairs) sep
  show (!f.isEmpty) = true ↔ (!g.isEmpty) = true
  rw [alike.isEmpty]

theorem args {f g : Fragment} (alike : Alike S f g) : Forall₂ S f.args g.args :=
  List.rel_map (fun _ _ related => related.2) alike.1

/-- What is written in the slots shows no difference, as long as it does not depend on the values. -/
theorem render {f g : Fragment} (alike : Alike S f g) (write : Nat → String) :
    f.render (fun i _ => write i) = g.render fun i _ => write i := by
  obtain ⟨fs, ft⟩ := f
  obtain ⟨gs, gt⟩ := g
  obtain ⟨slots, rfl⟩ := alike
  change Forall₂ _ fs gs at slots
  have texts : ∀ start, renderSlots (fun i _ => write i) start fs = renderSlots (fun i _ => write i) start gs := by
    induction slots with
    | nil => exact fun _ => rfl
    | cons first _ ih =>
      intro start
      rw [renderSlots, renderSlots, ih, first.1]
  exact congrArg (· ++ ft) (texts 0)

end Alike

end Fragment

/-! ## Similar data -/

/-- Maps of the same keys with key by key related values. -/
def KeyMap.Like {α : Type} (R : α → α → Prop) (m n : KeyMap α) : Prop :=
  Forall₂ (fun e d => e.1 = d.1 ∧ R e.2 d.2) m.entries n.entries

namespace KeyMap.Like

variable {α : Type} {R : α → α → Prop} {m n : KeyMap α}

theorem keys_eq (like : m.Like R n) : m.keys = n.keys := by
  unfold KeyMap.Like at like
  unfold keys
  generalize m.entries = es at like
  generalize n.entries = ds at like
  induction like with
  | nil => rfl
  | cons first _ ih => rw [List.map_cons, List.map_cons, first.1, ih]

theorem get? (like : m.Like R n) (k : String) : Option.Rel R (m.get? k) (n.get? k) := lookup_rel R like k

end KeyMap.Like

section Data

variable (V : Value → Value → Prop)

mutual

/-- Expressions that are the same but for their values. -/
inductive Expr.Like : Expr → Expr → Prop where
  | compare (op : Comparison) {fs gs : KeyMap Value} (fields : fs.Like V gs) :
    Expr.Like (.compare op fs) (.compare op gs)
  | fuzzy (distance : Nat) {fs gs : KeyMap Value} (fields : fs.Like V gs) :
    Expr.Like (.fuzzy fs distance) (.fuzzy gs distance)
  | has (predicates : KeyMap Unit) : Expr.Like (.has predicates) (.has predicates)
  | ofType (name : String) : Expr.Like (.ofType name) (.ofType name)
  | between (predicate : String) {v v' w w' : Value} (low : V v v') (high : V w w') :
    Expr.Like (.between predicate v w) (.between predicate v' w')
  | apply (f : Unary) {o p : Operand} (operand : Operand.Like o p) : Expr.Like (.apply f o) (.apply f p)
  | expand (name : String) : Expr.Like (.expand name) (.expand name)
  | raw (text : String) : Expr.Like (.raw text) (.raw text)
  | all {es fs : List Expr} (parts : Expr.LikeAll es fs) : Expr.Like (.all es) (.all fs)
  | any {es fs : List Expr} (parts : Expr.LikeAll es fs) : Expr.Like (.any es) (.any fs)
  | not {e f : Expr} (part : Expr.Like e f) : Expr.Like (.not e) (.not f)

inductive Operand.Like : Operand → Operand → Prop where
  | predicate (name : String) : Operand.Like (.predicate name) (.predicate name)
  | value {v w : Value} (related : V v w) : Operand.Like (.value v) (.value w)
  | nested {e f : Expr} (part : Expr.Like e f) : Operand.Like (.nested e) (.nested f)

inductive Expr.LikeAll : List Expr → List Expr → Prop where
  | nil : Expr.LikeAll [] []
  | cons {e f : Expr} {es fs : List Expr} (head : Expr.Like e f) (tail : Expr.LikeAll es fs) :
    Expr.LikeAll (e :: es) (f :: fs)

end

inductive OrderKey.Like : OrderKey → OrderKey → Prop where
  | predicate (name : String) : OrderKey.Like (.predicate name) (.predicate name)
  | expr {e f : Expr} (like : e.Like V f) : OrderKey.Like (.expr e) (.expr f)

def OrderBy.Like (o p : OrderBy) : Prop := o.direction = p.direction ∧ o.key.Like V p.key

inductive Facet.Like : Facet → Facet → Prop where
  | all : Facet.Like .all .all
  | key (name : String) : Facet.Like (.key name) (.key name)
  | filter {e f : Expr} (like : e.Like V f) : Facet.Like (.filter e) (.filter f)

inductive SelectionItem.Like : SelectionItem → SelectionItem → Prop where
  | predicate (written : String) : SelectionItem.Like (.predicate written) (.predicate written)
  | computed {e f : Expr} (like : e.Like V f) : SelectionItem.Like (.computed e) (.computed f)
  | aliased (name : String) {e f : Expr} (like : e.Like V f) : SelectionItem.Like (.aliased name e) (.aliased name f)
  | bound (var : String) {e f : Expr} (like : e.Like V f) : SelectionItem.Like (.bound var e) (.bound var f)

/-- Blocks that are the same but for the values in their expressions. -/
structure Block.Like (a b : Block) : Prop where
  path : a.path = b.path
  «alias» : a.alias = b.alias
  rootFilter : Option.Rel (Expr.Like V) a.rootFilter b.rootFilter
  filters : Forall₂ (Expr.Like V) a.filters b.filters
  cursor : a.cursor = b.cursor
  orders : Forall₂ (OrderBy.Like V) a.orders b.orders
  groups : a.groups = b.groups
  facets : Forall₂ (Facet.Like V) a.facets b.facets
  cascade : a.cascade = b.cascade
  isRoot : a.isRoot = b.isRoot
  isVariable : a.isVariable = b.isVariable
  selection : Forall₂ (SelectionItem.Like V) a.body.selection.items b.body.selection.items
  key : a.body.key = b.body.key

/-- Registries of similar blocks under the same keys. -/
def Registry.Like : Registry → Registry → Prop := KeyMap.Like (Forall₂ (Block.Like V))

end Data

/-! ## Compiling similar expressions -/

/-- Values that are related are compiled alike, and slots of a cursor are related to themselves. -/
structure Value.Alike (V S : Value → Value → Prop) : Prop where
  compile : ∀ {v w}, V v w → Both (Fragment.Alike S) v.compile w.compile
  cursor : ∀ c : Cursor, Fragment.Alike S c.compile c.compile

section Compile

variable {V S : Value → Value → Prop} (values : Value.Alike V S)

namespace Expr

theorem both_compileHas (predicates : KeyMap Unit) :
    Both (Fragment.Alike S) (compileHas predicates) (compileHas predicates) := by
  have same : Forall₂ (· = ·) predicates.keys predicates.keys := List.forall₂_refl _
  refine (Both.mapM same fun p q eq => ?_).map fun _ _ calls => .join calls conjunction
  subst eq
  exact (Both.same _).map fun written _ eq => eq ▸ .text _

include values

theorem both_compileFields (function rest : String) {fs gs : KeyMap Value} (fields : fs.Like V gs) :
    Both (Fragment.Alike S) (compileFields function rest fs) (compileFields function rest gs) := by
  refine (Both.mapM fields fun e d like => ?_).map fun _ _ calls => .join calls conjunction
  obtain ⟨predicate, v⟩ := e
  obtain ⟨_, w⟩ := d
  obtain ⟨rfl, related⟩ := like
  refine (Both.same _).bind fun written _ same => (values.compile related).bind fun _ _ value => ?_
  subst same
  exact .ok (((Fragment.Alike.text _).append value).append (.text _))

theorem both_compileBetween (predicate : String) {v v' w w' : Value} (low : V v v') (high : V w w') :
    Both (Fragment.Alike S) (compileBetween predicate v w) (compileBetween predicate v' w') := by
  refine (Both.same _).bind fun written _ same => (values.compile low).bind fun _ _ low => ?_
  refine (values.compile high).bind fun _ _ high => ?_
  subst same
  exact .ok (((((Fragment.Alike.text _).append low).append (.text _)).append high).append (.text _))

omit values in
theorem alike_connect (mark : String) {fs gs : List Fragment} (parts : Forall₂ (Fragment.Alike S) fs gs) :
    Fragment.Alike S (connect mark fs) (connect mark gs) :=
  (Fragment.Alike.join parts mark).wrap "(" ")"

omit values

mutual

theorem both_compile (values : Value.Alike V S) {e f : Expr} (like : e.Like V f) :
    Both (Fragment.Alike S) e.compile f.compile := by
  cases like with
  | compare op fields => simpa only [compile] using both_compileFields values _ _ fields
  | fuzzy distance fields => simpa only [compile] using both_compileFields values _ _ fields
  | has predicates => simpa only [compile] using both_compileHas predicates
  | between predicate low high => simpa only [compile] using both_compileBetween values predicate low high
  | apply g operand =>
    rw [compile, compile]
    exact (both_compileOperand values operand).map fun _ _ alike => alike.wrap _ _
  | all parts =>
    rw [compile, compile]
    exact (both_compileAll values parts).map fun _ _ => alike_connect _
  | any parts =>
    rw [compile, compile]
    exact (both_compileAll values parts).map fun _ _ => alike_connect _
  | not part =>
    rw [compile, compile]
    exact (both_compile values part).map fun _ _ alike => alike.wrap _ _
  | ofType name =>
    rw [compile]
    exact .ok (.text _)
  | expand name =>
    rw [compile]
    exact .ok (.text _)
  | raw text =>
    rw [compile]
    exact .ok (.text _)

theorem both_compileOperand (values : Value.Alike V S) {o p : Operand} (like : o.Like V p) :
    Both (Fragment.Alike S) (compileOperand o) (compileOperand p) := by
  cases like with
  | predicate name =>
    rw [compileOperand]
    exact .ok (.text _)
  | value related => simpa only [compileOperand] using values.compile related
  | nested part => simpa only [compileOperand] using both_compile values part

theorem both_compileAll (values : Value.Alike V S) {es fs : List Expr} (like : LikeAll V es fs) :
    Both (Forall₂ (Fragment.Alike S)) (compileAll es) (compileAll fs) := by
  cases like with
  | nil =>
    rw [compileAll]
    exact .ok .nil
  | cons head tail =>
    rw [compileAll, compileAll]
    exact (both_compile values head).bind fun _ _ first =>
      (both_compileAll values tail).bind fun _ _ rest => .ok (.cons first rest)

end

theorem Like.isFilter_eq {e f : Expr} (like : e.Like V f) : e.isFilter = f.isFilter := by
  cases like with
  | apply g _ => cases g <;> rfl
  | _ => rfl

theorem Like.isVal_eq {e f : Expr} (like : e.Like V f) : e.isVal = f.isVal := by
  cases like with
  | apply g _ => cases g <;> rfl
  | _ => rfl

theorem both_compileFilter (values : Value.Alike V S) (clause : String) {e f : Expr} (like : e.Like V f) :
    Both (Fragment.Alike S) (compileFilter clause e) (compileFilter clause f) := by
  unfold compileFilter
  rw [like.isFilter_eq]
  split
  · exact both_compile values like
  · exact .error _ _

end Expr

/-! ## Compiling similar blocks -/

include values

theorem OrderBy.both_compileKey (keyword : String) {k l : OrderKey} (like : k.Like V l) :
    Both (Fragment.Alike S) (compileKey keyword k) (compileKey keyword l) := by
  cases like with
  | predicate name =>
    rw [compileKey]
    exact (Both.same (requirePredicate keyword name)).map fun written _ eq => eq ▸ .text _
  | expr like =>
    rw [compileKey, compileKey]
    rw [like.isVal_eq]
    split
    · exact Expr.both_compile values like
    · exact .error _ _

theorem OrderBy.both_compile {o p : OrderBy} (like : o.Like V p) :
    Both (Fragment.Alike S) o.compile p.compile := by
  unfold OrderBy.compile
  rw [like.1]
  exact (both_compileKey values _ like.2).map fun _ _ alike => Fragment.Alike.wrap alike _ _

theorem SelectionItem.both_compile {i j : SelectionItem} (like : i.Like V j) :
    Both (Fragment.Alike S) i.compile j.compile := by
  cases like with
  | predicate written => exact .ok (.text _)
  | computed like => exact Expr.both_compile values like
  | aliased name like => exact (Expr.both_compile values like).map fun _ _ alike => alike.wrap _ _
  | bound var like => exact (Expr.both_compile values like).map fun _ _ alike => alike.wrap _ _

section Facets

variable {fs gs : List Facet} (like : Forall₂ (Facet.Like V) fs gs)

omit values

include like

theorem Facet.any_isAll_eq : fs.any (·.isAll) = gs.any (·.isAll) := by
  induction like with
  | nil => rfl
  | cons first _ ih =>
    rw [List.any_cons, List.any_cons, ih]
    cases first <;> rfl

theorem Facet.keys_eq : fs.filterMap (·.key?) = gs.filterMap (·.key?) := by
  induction like with
  | nil => rfl
  | cons first _ ih =>
    rw [List.filterMap_cons, List.filterMap_cons, ih]
    cases first <;> rfl

theorem Facet.filters_like : Forall₂ (Expr.Like V) (fs.filterMap (·.filter?)) (gs.filterMap (·.filter?)) := by
  refine List.rel_filterMap (fun f g first => ?_) like
  cases first with
  | filter like => exact .some like
  | _ => exact .none

end Facets

namespace Block

variable {a b : Block} (like : a.Like V b)

include like

omit values in
theorem Like.both_label : Both (Fragment.Alike S) a.label b.label := by
  unfold label blockName Block.name
  rw [like.path, like.alias, like.isVariable]
  refine (Both.same _).bind fun _ _ same => ?_
  subst same
  exact .ok (.text _)

theorem both_rootClause : Both (Forall₂ (Fragment.Alike S)) a.rootClause b.rootClause := by
  have filters := like.rootFilter
  unfold rootClause
  rw [like.path, like.isRoot]
  split
  · generalize a.rootFilter = e at filters
    generalize b.rootFilter = f at filters
    cases filters with
    | none => exact .error _ _
    | some related =>
      exact (Expr.both_compile values related).bind fun _ _ alike => .ok (.cons (alike.wrap _ _) .nil)
  · exact .ok .nil

theorem both_parameters : Both (Fragment.Alike S) a.parameters b.parameters := by
  refine (both_rootClause values like).bind fun _ _ root => ?_
  refine (Both.mapM like.orders fun _ _ => OrderBy.both_compile values).bind fun _ _ orders => .ok ?_
  rw [like.cursor]
  have cursor : Forall₂ (Fragment.Alike S) (if b.cursor.isWanted then [b.cursor.compile] else [])
      (if b.cursor.isWanted then [b.cursor.compile] else []) := by
    split
    · exact .cons (values.cursor _) .nil
    · exact .nil
  exact (Fragment.Alike.join (List.rel_append (List.rel_append root cursor) orders) _).wrap _ _

theorem both_facetsClause : Both (Fragment.Alike S) a.facetsClause b.facetsClause := by
  unfold facetsClause
  rw [Facet.any_isAll_eq like.facets, Facet.keys_eq like.facets]
  refine (Both.mapM (Facet.filters_like like.facets) fun _ _ => Expr.both_compileFilter values _).bind
    fun _ _ filters => .ok (.join (List.rel_append (List.rel_append ?_ ?_) ?_) _)
  · split
    · exact .cons (.text _) .nil
    · exact .nil
  · split
    · exact .nil
    · exact .cons (.text _) .nil
  · exact List.rel_map (fun _ _ alike => alike.wrap _ _) filters

theorem both_filterClause : Both (Fragment.Alike S) a.filterClause b.filterClause :=
  (Both.mapM like.filters fun _ _ => Expr.both_compileFilter values _).bind
    fun _ _ filters => .ok ((Fragment.Alike.join filters _).wrap _ _)

omit values in
theorem Like.alike_groupClause : Fragment.Alike S a.groupClause b.groupClause := by
  unfold groupClause
  rw [like.groups]
  dsimp only
  split
  · exact .text _
  · exact .text _

omit values in
theorem Like.alike_cascadeClause : Fragment.Alike S a.cascadeClause b.cascadeClause := by
  unfold cascadeClause
  rw [like.cascade]
  split <;> exact .text _

theorem both_directives : Both (Fragment.Alike S) a.directives b.directives := by
  refine (both_facetsClause values like).bind fun _ _ facets => ?_
  refine (both_filterClause values like).bind fun _ _ filter => .ok ?_
  have rest : Forall₂ (Fragment.Alike S) [a.groupClause, a.cascadeClause] [b.groupClause, b.cascadeClause] :=
    .cons like.alike_groupClause (.cons like.alike_cascadeClause .nil)
  exact (Fragment.Alike.join (.cons facets (.cons filter rest)) _).wrap _ _

theorem both_head : Both (Fragment.Alike S) a.head b.head := by
  refine (Like.both_label (S := S) like).bind fun _ _ label => ?_
  refine (both_parameters values like).bind fun _ _ parameters => ?_
  exact (both_directives values like).bind fun _ _ directives => .ok ((label.append parameters).append directives)

theorem both_compileWith {f g : String → Compiled (List Fragment)}
    (nested : ∀ key, Both (Forall₂ (Fragment.Alike S)) (f key) (g key)) :
    Both (Fragment.Alike S) (a.compileWith f) (b.compileWith g) := by
  refine (both_head values like).bind fun _ _ head => ?_
  refine (?_ : Both (Fragment.Alike S) _ _).bind fun _ _ body =>
    .ok (((head.append (.text _)).append body).append (.text _))
  unfold Body.compileWith Selection.compile
  rw [like.key]
  refine ((Both.mapM like.selection fun _ _ => SelectionItem.both_compile values).map
    fun _ _ items => Fragment.Alike.join items _).bind fun _ _ selection => ?_
  refine (nested _).bind fun _ _ blocks => .ok ?_
  exact .join (.cons selection (.cons (.join blocks _) .nil)) _

end Block

/-! ## Compiling similar builders -/

namespace Registry

omit values in
theorem Like.blocks {r s : Registry} (like : r.Like V s) (key : String) :
    Forall₂ (Block.Like V) (r.blocks key) (s.blocks key) := by
  have found := KeyMap.Like.get? like key
  unfold Registry.blocks
  generalize r.get? key = as at found
  generalize s.get? key = bs at found
  cases found with
  | none => exact .nil
  | some related => exact related

theorem both_compileTo {r s : Registry} (like : r.Like V s) (depth : Nat) (key : String) :
    Both (Forall₂ (Fragment.Alike S)) (r.compileTo depth key) (s.compileTo depth key) := by
  induction depth generalizing key with
  | zero =>
    -- Where the depth is used up, both fail when there is a block and neither does when there is none.
    have blocks := like.blocks key
    rw [compileTo, compileTo]
    generalize r.blocks key = as at blocks
    generalize s.blocks key = bs at blocks
    cases blocks with
    | nil => exact .ok .nil
    | cons => exact .error _ _
  | succ depth ih =>
    rw [compileTo, compileTo]
    exact Both.mapM (like.blocks key) fun _ _ similar => Block.both_compileWith values similar ih

end Registry

/-- Similar builders compile alike. -/
theorem Builder.both_compile {p q : Builder} (root : p.root.Like V q.root) (children : p.children.Like V q.children) :
    Both (Fragment.Alike S) p.compile q.compile := by
  refine Block.both_compileWith values root fun key => ?_
  unfold Registry.compile
  rw [KeyMap.Like.keys_eq children]
  exact Registry.both_compileTo values children _ key

end Compile

end GraphQuery
