import GraphQuery.Builder
import GraphQuery.Proofs.Similar

/-!
# Values replaced in builders

Every value inside the expressions of a builder is replaced by a function of values. Main
statements: what comes out is similar to the builder, and two builders compare after the
replacement as they did before, when the values do.
-/

namespace GraphQuery

open List (Forall₂)

/-! ## Keeping equality -/

/-- A function under which equal things stay equal and different things stay different. -/
def KeepsEquality {α : Type} [BEq α] (f : α → α) : Prop := ∀ a b, (f a == f b) = (a == b)

namespace KeepsEquality

variable {α : Type} [BEq α] {f : α → α} (keeps : KeepsEquality f)

include keeps

theorem list : KeepsEquality (List.map f) := by
  intro as
  induction as with
  | nil => intro bs; cases bs <;> rfl
  | cons a as ih =>
    intro bs
    cases bs with
    | nil => rfl
    | cons b bs => rw [List.map_cons, List.map_cons, List.cons_beq_cons, List.cons_beq_cons, keeps, ih]

theorem option : KeepsEquality (Option.map f) := by
  intro a b
  cases a <;> cases b <;> first | rfl | exact keeps _ _

end KeepsEquality

/-- The map with every value changed. -/
def KeyMap.map {α : Type} (f : α → α) (m : KeyMap α) : KeyMap α :=
  ⟨m.entries.map fun e => (e.1, f e.2), List.pairwise_map.2 m.ordered⟩

theorem KeepsEquality.keyMap {α : Type} [BEq α] {f : α → α} (keeps : KeepsEquality f) :
    KeepsEquality (KeyMap.map f) := by
  have entry : KeepsEquality fun e : String × α => (e.1, f e.2) := fun e d =>
    congrArg ((e.1 == d.1) && ·) (keeps e.2 d.2)
  exact fun m n => entry.list m.entries n.entries

theorem forall₂_map_self {α : Type} {R : α → α → Prop} {g : α → α} (related : ∀ a, R a (g a)) (as : List α) :
    Forall₂ R as (as.map g) := by
  rw [List.forall₂_map_right_iff]
  exact List.forall₂_same.2 fun a _ => related a

theorem KeyMap.like_map {α : Type} {R : α → α → Prop} {f : α → α} (m : KeyMap α) (related : ∀ a, R a (f a)) :
    m.Like R (m.map f) :=
  forall₂_map_self (fun e => ⟨rfl, related e.2⟩) m.entries

/-! ## Replacing values in builders -/

section Values

variable (f : Value → Value)

mutual

/-- The expression with every value in it replaced. -/
def Expr.mapValues : Expr → Expr
  | .compare op fields => .compare op (fields.map f)
  | .fuzzy fields distance => .fuzzy (fields.map f) distance
  | .has predicates => .has predicates
  | .ofType name => .ofType name
  | .between predicate low high => .between predicate (f low) (f high)
  | .apply g operand => .apply g (Operand.mapValues operand)
  | .expand name => .expand name
  | .raw text => .raw text
  | .all parts => .all (Expr.mapValuesAll parts)
  | .any parts => .any (Expr.mapValuesAll parts)
  | .not part => .not (Expr.mapValues part)

def Operand.mapValues : Operand → Operand
  | .predicate name => .predicate name
  | .value v => .value (f v)
  | .nested e => .nested (Expr.mapValues e)

def Expr.mapValuesAll : List Expr → List Expr
  | [] => []
  | e :: es => Expr.mapValues e :: Expr.mapValuesAll es

end

def OrderKey.mapValues : OrderKey → OrderKey
  | .predicate name => .predicate name
  | .expr e => .expr (e.mapValues f)

def OrderBy.mapValues (o : OrderBy) : OrderBy := ⟨o.direction, o.key.mapValues f⟩

def Facet.mapValues : Facet → Facet
  | .all => .all
  | .key name => .key name
  | .filter e => .filter (e.mapValues f)

def SelectionItem.mapValues : SelectionItem → SelectionItem
  | .predicate written => .predicate written
  | .computed e => .computed (e.mapValues f)
  | .aliased name e => .aliased name (e.mapValues f)
  | .bound var e => .bound var (e.mapValues f)

def Selection.mapValues (s : Selection) : Selection := ⟨s.items.map (SelectionItem.mapValues f)⟩

def Body.mapValues (b : Body) : Body := { b with selection := b.selection.mapValues f }

/-- The block with every value in its expressions replaced; its pagination is none of them. -/
def Block.mapValues (b : Block) : Block :=
  { b with
    rootFilter := b.rootFilter.map (Expr.mapValues f)
    filters := b.filters.map (Expr.mapValues f)
    orders := b.orders.map (OrderBy.mapValues f)
    facets := b.facets.map (Facet.mapValues f)
    body := b.body.mapValues f }

def Registry.mapValues (r : Registry) : Registry := KeyMap.map (List.map (Block.mapValues f)) r

mutual

/-- The builder with every value in its blocks and in its attached builders replaced. -/
def Builder.mapValues : Builder → Builder
  | ⟨root, children, attached⟩ => ⟨root.mapValues f, Registry.mapValues f children, Builder.mapValuesAll attached⟩

def Builder.mapValuesAll : List Builder → List Builder
  | [] => []
  | q :: qs => Builder.mapValues q :: Builder.mapValuesAll qs

end

theorem Builder.mapValuesAll_eq_map (qs : List Builder) : mapValuesAll f qs = qs.map (mapValues f) := by
  induction qs with
  | nil => rfl
  | cons q qs ih => rw [mapValuesAll, List.map_cons, ih]

/-! ## What is replaced is similar -/

section Like

variable {f} {V : Value → Value → Prop}

namespace Expr

mutual

theorem like_mapValues (each : ∀ v, V v (f v)) (e : Expr) : e.Like V (e.mapValues f) := by
  cases e with
  | compare op fields => exact .compare op (fields.like_map each)
  | fuzzy fields distance => exact .fuzzy distance (fields.like_map each)
  | between predicate low high => exact .between predicate (each low) (each high)
  | apply g operand => exact .apply g (like_mapValuesOperand each operand)
  | all parts => exact .all (like_mapValuesAll each parts)
  | any parts => exact .any (like_mapValuesAll each parts)
  | not part => exact .not (like_mapValues each part)
  | has predicates => exact .has predicates
  | ofType name => exact .ofType name
  | expand name => exact .expand name
  | raw text => exact .raw text

theorem like_mapValuesOperand (each : ∀ v, V v (f v)) (o : Operand) : o.Like V (o.mapValues f) := by
  cases o with
  | predicate name => exact .predicate name
  | value v => exact .value (each v)
  | nested e => exact .nested (like_mapValues each e)

theorem like_mapValuesAll (each : ∀ v, V v (f v)) (es : List Expr) : LikeAll V es (mapValuesAll f es) := by
  cases es with
  | nil => exact .nil
  | cons e es => exact .cons (like_mapValues each e) (like_mapValuesAll each es)

end

end Expr

variable (each : ∀ v, V v (f v))

include each

theorem OrderBy.like_mapValues (o : OrderBy) : o.Like V (o.mapValues f) := by
  obtain ⟨direction, key⟩ := o
  refine ⟨rfl, ?_⟩
  cases key with
  | predicate name => exact .predicate name
  | expr e => exact .expr (e.like_mapValues each)

theorem Facet.like_mapValues (t : Facet) : t.Like V (t.mapValues f) := by
  cases t with
  | all => exact .all
  | key name => exact .key name
  | filter e => exact .filter (e.like_mapValues each)

theorem SelectionItem.like_mapValues (i : SelectionItem) : i.Like V (i.mapValues f) := by
  cases i with
  | predicate written => exact .predicate written
  | computed e => exact .computed (e.like_mapValues each)
  | aliased name e => exact .aliased name (e.like_mapValues each)
  | bound var e => exact .bound var (e.like_mapValues each)

theorem Block.like_mapValues (b : Block) : b.Like V (b.mapValues f) where
  path := rfl
  «alias» := rfl
  rootFilter := by
    show Option.Rel (Expr.Like V) b.rootFilter (b.rootFilter.map (Expr.mapValues f))
    cases b.rootFilter with
    | none => exact .none
    | some e => exact .some (e.like_mapValues each)
  filters := forall₂_map_self (Expr.like_mapValues each) _
  cursor := rfl
  orders := forall₂_map_self (OrderBy.like_mapValues each) _
  groups := rfl
  facets := forall₂_map_self (Facet.like_mapValues each) _
  cascade := rfl
  isRoot := rfl
  isVariable := rfl
  selection := forall₂_map_self (SelectionItem.like_mapValues each) _
  key := rfl

theorem Registry.like_mapValues (r : Registry) : r.Like V (Registry.mapValues f r) :=
  KeyMap.like_map r (forall₂_map_self (Block.like_mapValues each))

end Like

/-! ## Replaced builders compare alike -/

section Equality

variable {f} (keeps : KeepsEquality f)

namespace Expr

mutual

theorem same_mapValues (keeps : KeepsEquality f) (e e' : Expr) : (e.mapValues f).same (e'.mapValues f) = e.same e' := by
  cases e with
  | compare op fs =>
    cases e' with
    | compare op' gs => rw [mapValues, mapValues, same, same, keeps.keyMap fs gs]
    | _ => rfl
  | fuzzy fs m =>
    cases e' with
    | fuzzy gs n => rw [mapValues, mapValues, same, same, keeps.keyMap fs gs]
    | _ => rfl
  | between p v w =>
    cases e' with
    | between p' v' w' => rw [mapValues, mapValues, same, same, keeps v v', keeps w w']
    | _ => rfl
  | apply g o =>
    cases e' with
    | apply h o' => rw [mapValues, mapValues, same, same, sameOperand_mapValues keeps o o']
    | _ => rfl
  | all es =>
    cases e' with
    | all fs => exact sameAll_mapValues keeps es fs
    | _ => rfl
  | any es =>
    cases e' with
    | any fs => exact sameAll_mapValues keeps es fs
    | _ => rfl
  | not e =>
    cases e' with
    | not e' => exact same_mapValues keeps e e'
    | _ => rfl
  | _ => cases e' <;> rfl

theorem sameOperand_mapValues (keeps : KeepsEquality f) (o p : Operand) :
    sameOperand (o.mapValues f) (p.mapValues f) = sameOperand o p := by
  cases o with
  | predicate s => cases p <;> rfl
  | value v =>
    cases p with
    | value w => exact keeps v w
    | _ => rfl
  | nested e =>
    cases p with
    | nested e' => exact same_mapValues keeps e e'
    | _ => rfl

theorem sameAll_mapValues (keeps : KeepsEquality f) (es fs : List Expr) :
    sameAll (mapValuesAll f es) (mapValuesAll f fs) = sameAll es fs := by
  cases es with
  | nil => cases fs <;> rfl
  | cons e es =>
    cases fs with
    | nil => rfl
    | cons e' fs =>
      rw [mapValuesAll, mapValuesAll, sameAll, sameAll, same_mapValues keeps e e', sameAll_mapValues keeps es fs]

end

end Expr

namespace KeepsEquality

include keeps

theorem expr : KeepsEquality (Expr.mapValues f) := Expr.same_mapValues keeps

theorem orderKey : KeepsEquality (OrderKey.mapValues f) := by
  intro a b
  cases a <;> cases b <;> first | rfl | exact keeps.expr _ _

theorem orderBy : KeepsEquality (OrderBy.mapValues f) := fun a b =>
  congrArg ((a.direction == b.direction) && ·) (keeps.orderKey a.key b.key)

theorem facet : KeepsEquality (Facet.mapValues f) := by
  intro a b
  cases a <;> cases b <;> first | rfl | exact keeps.expr _ _

theorem selectionItem : KeepsEquality (SelectionItem.mapValues f) := by
  intro a b
  show (a.mapValues f).same (b.mapValues f) = a.same b
  cases a <;> cases b <;>
    first | rfl | exact keeps.expr _ _ | exact congrArg (_ && ·) (keeps.expr _ _)

theorem body : KeepsEquality (Body.mapValues f) := fun a b =>
  congrArg (· && (a.key == b.key)) (keeps.selectionItem.list a.selection.items b.selection.items)

theorem block : KeepsEquality (Block.mapValues f) := by
  intro a b
  show (a.mapValues f).same (b.mapValues f) = a.same b
  simp only [Block.same, Block.mapValues]
  rw [keeps.expr.option a.rootFilter, keeps.expr.list a.filters, keeps.orderBy.list a.orders, keeps.facet.list a.facets,
    keeps.body a.body]

theorem registry : KeepsEquality (Registry.mapValues f) := keeps.block.list.keyMap

end KeepsEquality

namespace Builder

mutual

theorem same_mapValues (keeps : KeepsEquality f) (p q : Builder) :
    (p.mapValues f).same (q.mapValues f) = p.same q := by
  obtain ⟨a, c, vs⟩ := p
  obtain ⟨b, d, ws⟩ := q
  rw [mapValues, mapValues, same, same, keeps.block a b, keeps.registry c d, sameAll_mapValues keeps vs ws]

theorem sameAll_mapValues (keeps : KeepsEquality f) (vs ws : List Builder) :
    sameAll (mapValuesAll f vs) (mapValuesAll f ws) = sameAll vs ws := by
  cases vs with
  | nil => cases ws <;> rfl
  | cons v vs =>
    cases ws with
    | nil => rfl
    | cons w ws =>
      rw [mapValuesAll, mapValuesAll, sameAll, sameAll, same_mapValues keeps v w, sameAll_mapValues keeps vs ws]

end

end Builder

end Equality

end Values

end GraphQuery
