import GraphQuery.Proofs.Escaping
import GraphQuery.Proofs.Parts
import GraphQuery.Proofs.Rendering
import GraphQuery.Proofs.Values

/-!
# Scanning fragments

A scan looks for something in each text and in each slot of a fragment, from left to
right, so it goes through a fragment put together as it goes through its parts. Main
statement: a scan that finds nothing in quiet texts and in the raw texts finds in a
compiled block what it finds in the values that are bound there, in their order, and in
the marks around the bodies of blocks.
-/

namespace GraphQuery

open Predicate (Quiet quiet_append quiet_escape quiet_name quiet_toString quiet_intercalate)

/-- What is looked for in a text and in a slot. A text shows what its parts show. -/
structure Scan (γ : Type) where
  text : String → List γ
  slot : Value → List γ
  text_append : ∀ s t, text (s ++ t) = text s ++ text t

private theorem flatMap_filter {α γ : Type} (p : α → Bool) (g : α → List γ) (xs : List α) :
    (xs.filter p).flatMap g = xs.flatMap fun x => if p x then g x else [] := by
  induction xs with
  | nil => rfl
  | cons x xs ih =>
    by_cases h : p x = true
    · simp [h, ih]
    · simp [h, ih]

namespace Scan

variable {γ : Type} (m : Scan γ)

/-- What is found in a fragment. -/
def run (f : Fragment) : List γ := (f.slots.flatMap fun s => m.text s.1 ++ m.slot s.2) ++ m.text f.tail

/-! ## Fragments -/

theorem text_empty : m.text "" = [] := by
  have doubled := m.text_append "" ""
  rw [String.append_empty] at doubled
  exact List.self_eq_append_left.1 doubled

theorem run_empty : m.run ∅ = [] := m.text_empty

theorem run_text (s : String) : m.run (.text s) = m.text s := rfl

theorem run_slot (v : Value) : m.run (.slot v) = m.slot v := by
  simp [run, Fragment.slot, m.text_empty]

theorem run_append (f g : Fragment) : m.run (f ++ g) = m.run f ++ m.run g := by
  obtain ⟨fs, ft⟩ := f
  obtain ⟨gs, gt⟩ := g
  cases gs with
  | nil => simp [run, Fragment.append_eq, Fragment.append, m.text_append]
  | cons s gs => simp [run, Fragment.append_eq, Fragment.append, m.text_append]

theorem run_of_isEmpty {f : Fragment} (h : f.isEmpty = true) : m.run f = [] := by
  rw [Fragment.eq_empty_of_isEmpty h]
  exact m.run_empty

theorem run_separated {sep : String} (silent : m.text sep = []) (fs : List Fragment) :
    m.run (.separated sep fs) = fs.flatMap m.run := by
  induction fs with
  | nil => exact m.run_empty
  | cons f fs ih =>
    cases fs with
    | nil => simp [Fragment.separated]
    | cons g fs => rw [Fragment.separated, run_append, run_append, run_text, silent, ih]; simp

theorem run_join {sep : String} (silent : m.text sep = []) (fs : List Fragment) :
    m.run (.join sep fs) = fs.flatMap m.run := by
  rw [Fragment.join, run_separated m silent, flatMap_filter]
  congr 1
  funext f
  by_cases empty : f.isEmpty = true
  · simp [empty, m.run_of_isEmpty empty]
  · simp [empty]

theorem run_wrap {before after : String} (opens : m.text before = []) (closes : m.text after = [])
    (f : Fragment) : m.run (f.wrap before after) = m.run f := by
  unfold Fragment.wrap
  split
  · rfl
  · rw [run_append, run_append, run_text, run_text, opens, closes]; simp

/-! ## Values -/

/-- A scan that finds nothing in quiet texts. -/
def Silent : Prop := ∀ s, Quiet s → m.text s = []

section Quiet

variable {m} (silent : m.Silent)

include silent

theorem run_quiet {s : String} (h : Quiet s) : m.run (.text s) = [] := by
  rw [run_text]
  exact silent s h

omit silent in
theorem run_bindable {v : Value} {f : Fragment} (h : v.bindable.map .slot = .ok f) : m.run f = m.slot v := by
  obtain ⟨w, bound, rfl⟩ := Compiled.map_eq_ok.1 h
  rw [run_slot]
  unfold Value.bindable at bound
  split at bound
  · split at bound
    · cases bound; rfl
    · cases bound
  · cases bound; rfl

omit silent in
theorem run_compileItem {v : Value} {f : Fragment} (h : v.compileItem = .ok f)
    (missed : ∀ s ∈ v.rawText?, m.text s = []) : m.run f = if !v.isRaw then m.slot v else [] := by
  unfold Value.compileItem at h
  split at h
  · next s =>
    cases h
    rw [run_text, missed s rfl]
    rfl
  · cases h
  · cases h
  · next notRaw _ _ =>
    have kept : v.isRaw = false := by
      cases v with
      | raw s => exact absurd rfl (notRaw s)
      | _ => rfl
    rw [run_bindable h, kept]
    rfl

theorem run_bracketedItems (fs : List Fragment) : m.run (Value.bracketedItems fs) = fs.flatMap m.run := by
  unfold Value.bracketedItems
  rw [run_append, run_append, run_quiet silent (by decide), run_quiet silent (by decide),
    run_separated m (silent _ (by decide))]
  simp

theorem run_compileValue {v : Value} {f : Fragment} (h : v.compile = .ok f)
    (missed : ∀ s ∈ v.verbatim, m.text s = []) : m.run f = v.scalars.flatMap m.slot := by
  unfold Value.compile at h
  split at h
  · cases h
    exact run_bracketedItems silent []
  · next items =>
    obtain ⟨fs, each, rfl⟩ := Compiled.map_eq_ok.1 h
    rw [run_bracketedItems silent, Value.scalars, flatMap_filter]
    refine Compiled.flatMap_of_mapM each fun v member g compiled => ?_
    refine run_compileItem compiled fun s found => missed s ?_
    exact List.mem_filterMap.2 ⟨v, member, found⟩
  · next s =>
    cases h
    exact missed s (by simp [Value.verbatim])
  · next notNil notList notRaw =>
    have alone : v.scalars = [v] := by
      cases v with
      | nilList => exact absurd rfl notNil
      | list items => exact absurd rfl (notList items)
      | raw s => exact absurd rfl (notRaw s)
      | _ => rfl
    rw [run_bindable h, alone]
    simp

/-! ## Expressions -/

omit silent in
theorem quiet_comparison (op : Comparison) : Quiet op.name := by cases op <;> decide

omit silent in
theorem quiet_unary (f : Unary) : Quiet f.name := by cases f <;> decide

theorem run_compileFields {function rest : String} (hfunction : Quiet function) (hrest : Quiet rest)
    {fields : KeyMap Value} {f : Fragment} (h : Expr.compileFields function rest fields = .ok f)
    (missed : ∀ s ∈ fields.entries.flatMap (·.2.verbatim), m.text s = []) :
    m.run f = (fields.entries.flatMap (·.2.scalars)).flatMap m.slot := by
  obtain ⟨calls, each, rfl⟩ := Expr.compileFields_eq_ok.1 h
  rw [run_join m (silent _ (by decide)), List.flatMap_assoc]
  refine Compiled.flatMap_of_mapM each fun field member g compiled => ?_
  obtain ⟨_, value, bound, rfl⟩ := Expr.compileCall_eq_ok.1 compiled
  have opens : Quiet (function ++ "(" ++ Predicate.escape field.1 ++ ",") :=
    quiet_append (quiet_append (quiet_append hfunction (by decide)) (quiet_escape _)) (by decide)
  rw [run_append, run_append, run_quiet silent opens, run_quiet silent (quiet_append hrest (by decide)),
    run_compileValue silent bound fun s found => missed s (List.mem_flatMap.2 ⟨field, member, found⟩)]
  simp

theorem run_compileHas {predicates : KeyMap Unit} {f : Fragment} (h : Expr.compileHas predicates = .ok f) :
    m.run f = [] := by
  obtain ⟨calls, each, rfl⟩ := Expr.compileHas_eq_ok.1 h
  rw [run_join m (silent _ (by decide)), List.flatMap_eq_nil_iff]
  intro g member
  obtain ⟨predicate, _, compiled⟩ := Compiled.exists_of_mem_mapM each member
  obtain ⟨_, rfl⟩ := Expr.compileHasOne_eq_ok.1 compiled
  exact run_quiet silent (quiet_append (quiet_append (by decide) (quiet_escape _)) (by decide))

theorem run_compileBetween {predicate : String} {low high : Value} {f : Fragment}
    (h : Expr.compileBetween predicate low high = .ok f)
    (missed : ∀ s ∈ low.verbatim ++ high.verbatim, m.text s = []) :
    m.run f = (low.scalars ++ high.scalars).flatMap m.slot := by
  obtain ⟨_, l, u, lowest, highest, rfl⟩ := Expr.compileBetween_eq_ok.1 h
  have opens : Quiet ("between(" ++ Predicate.escape predicate ++ ",") :=
    quiet_append (quiet_append (by decide) (quiet_escape _)) (by decide)
  simp only [run_append]
  rw [run_quiet silent opens, run_quiet silent (by decide), run_quiet silent (by decide),
    run_compileValue silent lowest fun s found => missed s (List.mem_append_left _ found),
    run_compileValue silent highest fun s found => missed s (List.mem_append_right _ found)]
  simp

theorem run_connect {mark : String} (hmark : Quiet mark) (parts : List Fragment) :
    m.run (Expr.connect mark parts) = parts.flatMap m.run := by
  unfold Expr.connect
  rw [run_wrap m (silent _ (by decide)) (silent _ (by decide)), run_join m (silent _ hmark)]

end Quiet

variable {m}

mutual

theorem run_compile (silent : m.Silent) {e : Expr} {f : Fragment} (h : e.compile = .ok f)
    (missed : ∀ s ∈ e.verbatim, m.text s = []) : m.run f = e.values.flatMap m.slot := by
  cases e with
  | compare op fields => exact run_compileFields silent (quiet_comparison op) (by decide) h missed
  | fuzzy fields distance =>
    exact run_compileFields silent (by decide) (quiet_append (by decide) (quiet_toString distance)) h missed
  | has predicates => exact run_compileHas silent h
  | ofType name =>
    cases h
    exact run_quiet silent (quiet_append (quiet_append (by decide) (quiet_name name)) (by decide))
  | between predicate low high => exact run_compileBetween silent h missed
  | apply function operand =>
    obtain ⟨g, compiled, rfl⟩ := Compiled.map_eq_ok.1 h
    rw [run_wrap m (silent _ (quiet_append (quiet_unary function) (by decide))) (silent _ (by decide))]
    exact run_compileOperand silent compiled missed
  | expand name =>
    cases h
    exact run_quiet silent (quiet_append (quiet_append (by decide) (quiet_name name)) (by decide))
  | raw text =>
    cases h
    exact missed text (by simp [Expr.verbatim])
  | all parts =>
    obtain ⟨fs, compiled, rfl⟩ := Compiled.map_eq_ok.1 h
    rw [run_connect silent (by decide)]
    exact run_compileAll silent compiled missed
  | any parts =>
    obtain ⟨fs, compiled, rfl⟩ := Compiled.map_eq_ok.1 h
    rw [run_connect silent (by decide)]
    exact run_compileAll silent compiled missed
  | not part =>
    obtain ⟨g, compiled, rfl⟩ := Compiled.map_eq_ok.1 h
    rw [run_wrap m (silent _ (by decide)) (silent _ (by decide))]
    have inner := run_compile silent compiled missed
    exact inner

theorem run_compileOperand (silent : m.Silent) {operand : Operand} {f : Fragment}
    (h : Expr.compileOperand operand = .ok f) (missed : ∀ s ∈ operand.verbatim, m.text s = []) :
    m.run f = operand.values.flatMap m.slot := by
  cases operand with
  | predicate name =>
    cases h
    exact run_quiet silent (quiet_escape name)
  | value v => exact run_compileValue silent h missed
  | nested e =>
    have inner := run_compile silent h missed
    exact inner

theorem run_compileAll (silent : m.Silent) {es : List Expr} {fs : List Fragment}
    (h : Expr.compileAll es = .ok fs) (missed : ∀ s ∈ Expr.verbatimAll es, m.text s = []) :
    fs.flatMap m.run = (Expr.valuesAll es).flatMap m.slot := by
  cases es with
  | nil =>
    cases h
    rfl
  | cons e es =>
    obtain ⟨f, first, rest⟩ := Compiled.bind_eq_ok.1 h
    obtain ⟨gs, compiled, same⟩ := Compiled.bind_eq_ok.1 rest
    rw [Compiled.pure_eq_ok.1 same, List.flatMap_cons, Expr.valuesAll, List.flatMap_append,
      run_compile silent first fun s found => missed s (List.mem_append_left _ found),
      run_compileAll silent compiled fun s found => missed s (List.mem_append_right _ found)]

end

/-! ## Blocks -/

/-- A scan that finds nothing in the raw texts of an expression. -/
def Misses (m : Scan γ) (e : Expr) : Prop := ∀ s ∈ e.verbatim, m.text s = []

section Blocks

variable (silent : m.Silent)

include silent

theorem run_compileCursor (c : Cursor) : m.run c.compile = c.values.flatMap m.slot := by
  have clause (wanted : Bool) (keyword : String) (v : Value) (quiet : Quiet keyword) :
      (Cursor.clause wanted keyword v).flatMap m.run = if wanted then m.slot v else [] := by
    unfold Cursor.clause
    split
    · rw [List.flatMap_singleton, run_append, run_quiet silent (quiet_append quiet (by decide)), run_slot]
      rfl
    · rfl
  unfold Cursor.compile Cursor.values
  rw [run_join m (silent _ (by decide)), List.flatMap_append, List.flatMap_append,
    clause _ _ _ (by decide), clause _ _ _ (by decide), clause _ _ _ (by decide)]
  by_cases first : c.first = 0 <;> by_cases offset : c.offset = 0 <;> by_cases after : c.after = "" <;>
    simp [first, offset, after]

theorem run_compileOrder {o : OrderBy} {f : Fragment} (h : o.compile = .ok f)
    (missed : ∀ e ∈ o.expr?, m.Misses e) : m.run f = (o.expr?.toList.flatMap (·.values)).flatMap m.slot := by
  obtain ⟨key, compiled, rfl⟩ := OrderBy.compile_eq_ok.1 h
  have keyword : Quiet (o.direction.keyword ++ ": ") := by cases o.direction <;> decide
  rw [run_wrap m (silent _ keyword) (silent _ (by decide))]
  unfold OrderBy.expr? at missed ⊢
  cases by_ : o.key with
  | predicate name =>
    rw [by_, OrderBy.compileKey] at compiled
    obtain ⟨written, named, rfl⟩ := Compiled.map_eq_ok.1 compiled
    obtain ⟨rfl, _⟩ := requirePredicate_eq_ok.1 named
    exact run_quiet silent (quiet_escape name)
  | expr e =>
    rw [by_] at compiled missed
    unfold OrderBy.compileKey at compiled
    dsimp only at compiled
    split at compiled
    · rw [run_compile silent compiled (missed e rfl)]
      simp
    · cases compiled

theorem run_compileFilters {clause : String} {es : List Expr} {fs : List Fragment}
    (h : es.mapM (Expr.compileFilter clause) = .ok fs) (missed : ∀ e ∈ es, m.Misses e) :
    fs.flatMap m.run = (es.flatMap (·.values)).flatMap m.slot := by
  rw [List.flatMap_assoc]
  refine Compiled.flatMap_of_mapM h fun e member f compiled => ?_
  exact run_compile silent (Expr.compileFilter_eq_ok.1 compiled).2 (missed e member)

omit silent in
theorem quiet_facetKey {facet : Facet} {s : String} (h : facet.key? = some s) : Quiet s := by
  cases facet with
  | key name =>
    obtain rfl : Predicate.escape name = s := Option.some.inj h
    exact quiet_escape name
  | _ => cases h

omit silent in
theorem quiet_labelText {b : Block} {name : String} (h : b.blockName = .ok name) : Quiet (b.labelText name) := by
  have named : Quiet name := by
    rw [Block.blockName_eq_ok] at h
    split at h
    · subst h
      decide
    · obtain ⟨rfl, _⟩ := h
      exact quiet_escape b.name
  unfold Block.labelText
  split
  · exact named
  · exact quiet_append (quiet_append (quiet_name b.alias) (by decide)) named

theorem run_label {b : Block} {f : Fragment} (h : b.label = .ok f) : m.run f = [] := by
  obtain ⟨name, named, rfl⟩ := Block.label_eq_ok.1 h
  exact run_quiet silent (quiet_labelText named)

theorem run_rootClause {b : Block} {fs : List Fragment} (h : b.rootClause = .ok fs)
    (missed : ∀ e ∈ b.rootExprs, m.Misses e) :
    fs.flatMap m.run = (b.rootExprs.flatMap (·.values)).flatMap m.slot := by
  unfold Block.rootExprs at missed ⊢
  rcases Block.rootClause_eq_ok.1 h with ⟨nested, rfl⟩ | ⟨top, e, f, start, compiled, rfl⟩
  · simp [nested]
  · simp only [top, start, ↓reduceIte, Option.toList_some, List.mem_singleton, forall_eq] at missed
    simp only [top, start, ↓reduceIte, Option.toList_some, List.flatMap_singleton]
    rw [run_wrap m (silent _ (by decide)) (silent _ (by decide)), run_compile silent compiled missed]

theorem run_parameters {b : Block} {f : Fragment} (h : b.parameters = .ok f)
    (missed : ∀ e ∈ b.rootExprs ++ b.orderExprs, m.Misses e) :
    m.run f = (b.rootExprs.flatMap (·.values) ++ b.cursor.values ++ b.orderExprs.flatMap (·.values)).flatMap
      m.slot := by
  obtain ⟨root, orders, start, ordered, rfl⟩ := Block.parameters_eq_ok.1 h
  have rootFound := run_rootClause silent start fun e member => missed e (List.mem_append_left _ member)
  have ordersFound : orders.flatMap m.run = (b.orderExprs.flatMap (·.values)).flatMap m.slot := by
    have each : ∀ o ∈ b.orders, ∀ f, o.compile = .ok f →
        m.run f = (o.expr?.toList.flatMap (·.values)).flatMap m.slot := by
      intro o member f compiled
      refine run_compileOrder silent compiled fun e found => missed e ?_
      exact List.mem_append_right _ (List.mem_filterMap.2 ⟨o, member, found⟩)
    rw [Compiled.flatMap_of_mapM ordered each, Block.orderExprs, List.filterMap_eq_flatMap_toList]
    simp only [List.flatMap_assoc]
  have cursorFound :
      (if b.cursor.isWanted then [b.cursor.compile] else []).flatMap m.run = b.cursor.values.flatMap m.slot := by
    split
    · rw [List.flatMap_singleton, run_compileCursor silent]
    · next unwanted =>
      rw [Cursor.values_of_not_isWanted (Bool.not_eq_true _ ▸ unwanted)]
      rfl
  rw [run_wrap m (silent _ (by decide)) (silent _ (by decide)), run_join m (silent _ (by decide)),
    List.flatMap_append, List.flatMap_append, rootFound, cursorFound, ordersFound]
  simp

theorem run_facetsClause {b : Block} {f : Fragment} (h : b.facetsClause = .ok f)
    (missed : ∀ e ∈ b.facetExprs, m.Misses e) : m.run f = (b.facetExprs.flatMap (·.values)).flatMap m.slot := by
  obtain ⟨filters, compiled, rfl⟩ := Block.facetsClause_eq_ok.1 h
  have all : b.allFacets.flatMap m.run = [] := by
    unfold Block.allFacets
    split
    · rw [List.flatMap_singleton]
      exact run_quiet silent (by decide)
    · rfl
  have keys : b.keyFacets.flatMap m.run = [] := by
    unfold Block.keyFacets
    split
    · rfl
    · rw [List.flatMap_singleton]
      refine run_quiet silent (quiet_append (quiet_append (by decide) ?_) (by decide))
      refine quiet_intercalate (by decide) fun s member => ?_
      obtain ⟨facet, _, key⟩ := List.mem_filterMap.1 (List.mem_filter.1 member).1
      exact quiet_facetKey key
  have wrapped (g : Fragment) : m.run (g.wrap "@facets(" ")") = m.run g :=
    run_wrap m (silent _ (by decide)) (silent _ (by decide)) g
  rw [run_join m (silent _ (by decide)), List.flatMap_append, List.flatMap_append, all, keys, List.flatMap_map]
  simp only [wrapped]
  rw [run_compileFilters silent compiled missed]
  simp [Block.facetExprs]

theorem run_filterClause {b : Block} {f : Fragment} (h : b.filterClause = .ok f)
    (missed : ∀ e ∈ b.filters, m.Misses e) : m.run f = (b.filters.flatMap (·.values)).flatMap m.slot := by
  obtain ⟨filters, compiled, rfl⟩ := Block.filterClause_eq_ok.1 h
  rw [run_wrap m (silent _ (by decide)) (silent _ (by decide)), run_join m (silent _ (by decide)),
    run_compileFilters silent compiled missed]

theorem run_groupClause (b : Block) : m.run b.groupClause = [] := by
  unfold Block.groupClause
  dsimp only
  split
  · exact m.run_empty
  · refine run_quiet silent (quiet_append (quiet_append (by decide) ?_) (by decide))
    refine quiet_intercalate (by decide) fun s member => ?_
    obtain ⟨name, _, rfl⟩ := List.mem_map.1 (List.mem_filter.1 member).1
    exact quiet_escape name

theorem run_cascadeClause (b : Block) : m.run b.cascadeClause = [] := by
  unfold Block.cascadeClause
  split
  · exact m.run_empty
  · exact run_quiet silent (by decide)
  · refine run_quiet silent (quiet_append (quiet_append (by decide) ?_) (by decide))
    refine quiet_intercalate (by decide) fun s member => ?_
    obtain ⟨name, _, rfl⟩ := List.mem_map.1 member
    exact quiet_escape name

theorem run_directives {b : Block} {f : Fragment} (h : b.directives = .ok f)
    (missed : ∀ e ∈ b.facetExprs ++ b.filters, m.Misses e) :
    m.run f = (b.facetExprs.flatMap (·.values) ++ b.filters.flatMap (·.values)).flatMap m.slot := by
  obtain ⟨facets, filter, asked, filtered, rfl⟩ := Block.directives_eq_ok.1 h
  rw [run_wrap m (silent _ (by decide)) (silent _ (by decide)), run_join m (silent _ (by decide))]
  simp only [List.flatMap_cons, List.flatMap_nil, List.append_nil]
  rw [run_facetsClause silent asked fun e member => missed e (List.mem_append_left _ member),
    run_filterClause silent filtered fun e member => missed e (List.mem_append_right _ member),
    run_groupClause silent, run_cascadeClause silent]
  simp

/-- What a scan finds before the body of a block are the values that are bound there. -/
theorem run_head {b : Block} {f : Fragment} (h : b.head = .ok f) (missed : ∀ e ∈ b.headExprs, m.Misses e) :
    m.run f = b.headValues.flatMap m.slot := by
  obtain ⟨label, parameters, directives, named, asked, directed, rfl⟩ := Block.head_eq_ok.1 h
  have early : ∀ e ∈ b.rootExprs ++ b.orderExprs, m.Misses e := by
    intro e member
    apply missed
    unfold Block.headExprs
    rw [List.append_assoc]
    exact List.mem_append_left _ member
  have late : ∀ e ∈ b.facetExprs ++ b.filters, m.Misses e := by
    intro e member
    apply missed
    unfold Block.headExprs
    rw [List.append_assoc]
    exact List.mem_append_right _ member
  rw [run_append, run_append, run_label silent named, run_parameters silent asked early,
    run_directives silent directed late, Block.headValues]
  simp

theorem run_compileSelection {s : Selection} {f : Fragment} (h : s.compile = .ok f)
    (missed : ∀ e ∈ s.exprs, m.Misses e) (unseen : ∀ written ∈ s.predicates, m.text written = []) :
    m.run f = s.values.flatMap m.slot := by
  obtain ⟨parts, compiled, rfl⟩ := Selection.compile_eq_ok.1 h
  rw [run_join m (silent _ (by decide)), Selection.values, Selection.exprs, List.filterMap_eq_flatMap_toList,
    List.flatMap_assoc, List.flatMap_assoc]
  refine Compiled.flatMap_of_mapM compiled fun item member g found => ?_
  have own : ∀ e ∈ item.expr?, m.Misses e := fun e has => missed e (List.mem_filterMap.2 ⟨item, member, has⟩)
  cases item with
  | predicate written =>
    cases found
    rw [run_text, unseen written (List.mem_filterMap.2 ⟨_, member, rfl⟩)]
    rfl
  | computed e =>
    have inner := run_compile silent found (own e rfl)
    simpa [SelectionItem.expr?] using inner
  | aliased name e =>
    obtain ⟨inner, run, rfl⟩ := Compiled.map_eq_ok.1 found
    rw [run_wrap m (silent _ (quiet_append (quiet_name name) (by decide))) (silent _ (by decide)),
      run_compile silent run (own e rfl)]
    simp [SelectionItem.expr?]
  | bound var e =>
    obtain ⟨inner, run, rfl⟩ := Compiled.map_eq_ok.1 found
    rw [run_wrap m (silent _ (quiet_append (quiet_name var) (by decide))) (silent _ (by decide)),
      run_compile silent run (own e rfl)]
    simp [SelectionItem.expr?]

end Blocks

/-! ## Trees -/

/-- A scan that finds nothing in the raw texts of a block and in the predicates it holds. -/
def MissesBlock (m : Scan γ) (b : Block) : Prop :=
  (∀ e ∈ b.headExprs ++ b.body.selection.exprs, m.Misses e) ∧
    ∀ written ∈ b.body.selection.predicates, m.text written = []

mutual

/-- What a scan finds in a block: the values bound before its body and in its selection, what it
    finds in the nested blocks, and the marks around the body. -/
def inTree (m : Scan γ) : BlockTree → List γ
  | .endless _ => []
  | .block b nested =>
    b.headValues.flatMap m.slot ++ m.text " \x7b " ++ b.body.selection.values.flatMap m.slot ++
      inTrees m nested ++ m.text " \x7d"

def inTrees (m : Scan γ) : List BlockTree → List γ
  | [] => []
  | t :: ts => inTree m t ++ inTrees m ts

end

theorem run_bodyFragment (silent : m.Silent) (selection : Fragment) (nested : List Fragment) :
    m.run (bodyFragment selection nested) = m.run selection ++ nested.flatMap m.run := by
  have blank : m.text " " = [] := silent _ (by decide)
  unfold bodyFragment
  rw [run_join m blank]
  simp [run_join m blank]

mutual

theorem run_compileTree (silent : m.Silent) {t : BlockTree} {f : Fragment} (h : t.compile = .ok f)
    (missed : t.Every m.MissesBlock) : m.run f = m.inTree t := by
  cases t with
  | endless key => cases h
  | block b nested =>
    obtain ⟨head, selection, fs, headed, selected, inner, rfl⟩ := Block.compileWith_eq_ok.1 h
    obtain ⟨⟨exprs, unseen⟩, below⟩ := missed
    simp only [run_append, run_bodyFragment silent, run_text, inTree]
    rw [run_head silent headed fun e member => exprs e (List.mem_append_left _ member),
      run_compileSelection silent selected (fun e member => exprs e (List.mem_append_right _ member)) unseen,
      run_compileTrees silent inner below]
    simp

theorem run_compileTrees (silent : m.Silent) {ts : List BlockTree} {fs : List Fragment}
    (h : BlockTree.compileAll ts = .ok fs) (missed : BlockTree.EveryOf m.MissesBlock ts) :
    fs.flatMap m.run = m.inTrees ts := by
  cases ts with
  | nil =>
    cases h
    rfl
  | cons t ts =>
    obtain ⟨f, first, rest⟩ := Compiled.bind_eq_ok.1 h
    obtain ⟨gs, compiled, same⟩ := Compiled.bind_eq_ok.1 rest
    rw [Compiled.pure_eq_ok.1 same, List.flatMap_cons, inTrees, run_compileTree silent first missed.1,
      run_compileTrees silent compiled missed.2]

end

end Scan

end GraphQuery
