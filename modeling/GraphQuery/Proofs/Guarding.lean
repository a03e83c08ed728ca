import GraphQuery.Proofs.Vanishing

/-!
# Guards of blocks and mutations

The filters of a block and the conditions of a mutation guard it, so none of them may get lost.
A filter is written as a part of its clause, and what it connects as parts of the filter. Main
statement: what is reached from a guard through connectors and has something to write is
written in the clause of the guard.
-/

namespace GraphQuery

open Compiled (map_eq_ok bind_eq_ok pure_eq_ok)

/-! ## Parts of a fragment -/

/-- One fragment is a part of another. -/
def Fragment.PartOf (g f : Fragment) : Prop := ∃ before after, f = before ++ g ++ after

namespace Fragment.PartOf

variable {f g h : Fragment}

theorem refl (f : Fragment) : f.PartOf f := ⟨∅, ∅, by rw [empty_append, append_empty]⟩

theorem trans (inner : f.PartOf g) (outer : g.PartOf h) : f.PartOf h := by
  obtain ⟨before, after, rfl⟩ := inner
  obtain ⟨start, rest, rfl⟩ := outer
  exact ⟨start ++ before, after ++ rest, by simp only [append_assoc]⟩

theorem append_left (inner : f.PartOf h) (g : Fragment) : f.PartOf (g ++ h) := by
  obtain ⟨before, after, rfl⟩ := inner
  exact ⟨g ++ before, after, by simp only [append_assoc]⟩

theorem append_right (inner : f.PartOf g) (h : Fragment) : f.PartOf (g ++ h) := by
  obtain ⟨before, after, rfl⟩ := inner
  exact ⟨before, after ++ h, by simp only [append_assoc]⟩

theorem empty (f : Fragment) : (∅ : Fragment).PartOf f := ⟨∅, f, by rw [append_empty, empty_append]⟩

theorem not_isEmpty (inner : g.PartOf f) (filled : g.isEmpty = false) : f.isEmpty = false := by
  obtain ⟨before, after, rfl⟩ := inner
  rw [isEmpty_append, isEmpty_append, filled, Bool.and_false, Bool.false_and]

theorem wrap (before after : String) (f : Fragment) : f.PartOf (f.wrap before after) := by
  unfold Fragment.wrap
  split
  · exact refl f
  · exact ⟨_, _, rfl⟩

theorem separated {sep : String} {fs : List Fragment} (member : f ∈ fs) : f.PartOf (Fragment.separated sep fs) := by
  induction fs with
  | nil => cases member
  | cons g fs ih =>
    cases fs with
    | nil =>
      rw [List.mem_singleton.1 member]
      exact refl g
    | cons g' fs =>
      rcases List.mem_cons.1 member with rfl | member
      · exact ((refl f).append_right _).append_right _
      · exact (ih member).append_left _

theorem join {sep : String} {fs : List Fragment} (member : f ∈ fs) : f.PartOf (Fragment.join sep fs) := by
  by_cases blank : f.isEmpty = true
  · rw [eq_empty_of_isEmpty blank]
    exact empty _
  · exact separated (List.mem_filter.2 ⟨member, by simpa using blank⟩)

end Fragment.PartOf

/-! ## Through connectors -/

/-- The second expression is the first one, or is reached from it through connectors. -/
inductive Expr.Reaches : Expr → Expr → Prop where
  | self (e : Expr) : Reaches e e
  | all {parts : List Expr} {part d : Expr} (member : part ∈ parts) (rest : Reaches part d) : Reaches (.all parts) d
  | any {parts : List Expr} {part d : Expr} (member : part ∈ parts) (rest : Reaches part d) : Reaches (.any parts) d
  | not {part d : Expr} (rest : Reaches part d) : Reaches (.not part) d

namespace Expr

theorem partOf_connect {mark : String} {fs : List Fragment} {f : Fragment} (member : f ∈ fs) :
    f.PartOf (connect mark fs) := (Fragment.PartOf.join member).trans (.wrap _ _ _)

/-- What connectors reach is compiled, and its fragment is a part of theirs. -/
theorem Reaches.exists_partOf {e d : Expr} (path : e.Reaches d) {f : Fragment} (h : e.compile = .ok f) :
    ∃ g, d.compile = .ok g ∧ g.PartOf f := by
  induction path generalizing f with
  | self e => exact ⟨f, h, .refl f⟩
  | @all parts part d member rest ih =>
    obtain ⟨fs, compiled, rfl⟩ := map_eq_ok.1 h
    rw [compileAll_eq_mapM] at compiled
    obtain ⟨f, inside, run⟩ := Compiled.exists_ok_of_mem compiled member
    obtain ⟨g, found, inner⟩ := ih run
    exact ⟨g, found, inner.trans (partOf_connect inside)⟩
  | @any parts part d member rest ih =>
    obtain ⟨fs, compiled, rfl⟩ := map_eq_ok.1 h
    rw [compileAll_eq_mapM] at compiled
    obtain ⟨f, inside, run⟩ := Compiled.exists_ok_of_mem compiled member
    obtain ⟨g, found, inner⟩ := ih run
    exact ⟨g, found, inner.trans (partOf_connect inside)⟩
  | not rest ih =>
    obtain ⟨f, run, rfl⟩ := map_eq_ok.1 h
    obtain ⟨g, found, inner⟩ := ih run
    exact ⟨g, found, inner.trans (.wrap _ _ _)⟩

/-- Something is left of every name that is the operand of a function. -/
def Named (e : Expr) : Prop := ∀ p ∈ e.operandNames, Predicate.isLost p = false

instance (e : Expr) : Decidable e.Named := inferInstanceAs (Decidable (∀ p ∈ e.operandNames, _))

/-- The expression has nothing to write, whatever its names are. -/
def Vacuous (e : Expr) : Prop := e.isHollow (fun _ => false) = true

instance (e : Expr) : Decidable e.Vacuous := inferInstanceAs (Decidable (_ = true))

theorem isEmpty_iff_vacuous {e : Expr} {f : Fragment} (named : e.Named) (h : e.compile = .ok f) :
    f.isEmpty = true ↔ e.Vacuous := by
  rw [isEmpty_compile h, isHollow_congr e named, Vacuous]

/-- What is reached from one of the filters of a clause, and has something to write, is a part of what
    stands between the brackets of the clause. -/
theorem Reaches.partOf_filters {clause : String} {es : List Expr} {fs : List Fragment}
    (run : es.mapM (compileFilter clause) = .ok fs) {e d : Expr} (member : e ∈ es) (path : e.Reaches d)
    (named : d.Named) (filled : ¬ d.Vacuous) :
    ∃ g, d.compile = .ok g ∧ g.isEmpty = false ∧ g.PartOf (.join conjunction fs) := by
  obtain ⟨f, inside, filters⟩ := Compiled.exists_ok_of_mem run member
  obtain ⟨g, found, inner⟩ := path.exists_partOf (compileFilter_eq_ok.1 filters).2
  have some : g.isEmpty = false := Bool.eq_false_iff.2 (mt (isEmpty_iff_vacuous named found).1 filled)
  exact ⟨g, found, some, inner.trans (.join inside)⟩

end Expr

/-! ## Clauses -/

theorem Fragment.wrap_of_not_isEmpty {f : Fragment} (filled : f.isEmpty = false) (before after : String) :
    f.wrap before after = .text before ++ f ++ .text after := by
  rw [wrap, filled]
  rfl

theorem Block.filterClause_partOf {b : Block} {r : Registry} {f : Fragment} (h : b.compile r = .ok f) :
    ∃ clause, b.filterClause = .ok clause ∧ clause.PartOf f := by
  obtain ⟨head, selection, fs, headed, _, _, rfl⟩ := compileWith_eq_ok.1 h
  obtain ⟨label, parameters, directives, _, _, directed, rfl⟩ := head_eq_ok.1 headed
  obtain ⟨facets, clause, _, filtered, rfl⟩ := directives_eq_ok.1 directed
  have inDirectives : clause.PartOf (Fragment.join " " [facets, clause, b.groupClause, b.cascadeClause]) :=
    .join (by simp)
  have inHead := (inDirectives.trans (.wrap " " "" _)).append_left (label ++ parameters)
  exact ⟨clause, filtered, ((inHead.append_right _).append_right _).append_right _⟩

/-- The clause of a mutation is there unless nothing is written for its conditions. -/
theorem Mutation.condition_of_compile {m : Mutation} {c : CompiledMutation} (h : m.compile = .ok c) :
    ∃ fs, m.conditions.mapM (Expr.compileFilter "@if") = .ok fs ∧
      c.condition = if (Fragment.join Expr.conjunction fs).isEmpty then none
        else some ("@if(" ++ (Fragment.join Expr.conjunction fs).inlined ++ ") ") := by
  obtain ⟨query, _, rest⟩ := bind_eq_ok.1 h
  obtain ⟨condition, guarded, same⟩ := bind_eq_ok.1 rest
  obtain ⟨f, body, rfl⟩ := map_eq_ok.1 guarded
  obtain ⟨fs, run, rfl⟩ := map_eq_ok.1 body
  refine ⟨fs, run, ?_⟩
  rw [pure_eq_ok.1 same]
  by_cases blank : (Fragment.join Expr.conjunction fs).isEmpty
  · simp [blank]
  · simp [blank]

/-- With a name left for each function, nothing is written for an expression exactly if its leaves have
    nothing to write. Any other expression that is a filter of a block or a condition of a mutation, or is
    reached from one through connectors, is written in the clause that guards the block or the mutation. -/
theorem guards_kept :
    (∀ (e : Expr) (f : Fragment), e.Named → e.compile = .ok f → (f.isEmpty = true ↔ e.Vacuous)) ∧
    (∀ (b : Block) (r : Registry) (f : Fragment), b.compile r = .ok f → ∀ e ∈ b.filters, ∀ d, e.Reaches d →
      d.Named → ¬ d.Vacuous → ∃ g inner : Fragment, d.compile = .ok g ∧ g.isEmpty = false ∧ g.PartOf inner ∧
        b.filterClause = .ok (.text "@filter(" ++ inner ++ .text ")") ∧
        (Fragment.text "@filter(" ++ inner ++ .text ")").PartOf f) ∧
    ∀ (m : Mutation) (c : CompiledMutation), m.compile = .ok c → ∀ e ∈ m.conditions, ∀ d, e.Reaches d →
      d.Named → ¬ d.Vacuous → ∃ g inner : Fragment, d.compile = .ok g ∧ g.isEmpty = false ∧ g.PartOf inner ∧
        c.condition = some ("@if(" ++ inner.inlined ++ ") ") := by
  refine ⟨fun e f named => Expr.isEmpty_iff_vacuous named, ?_, ?_⟩
  · intro b r f compiled e member d path named filled
    obtain ⟨clause, filtered, part⟩ := Block.filterClause_partOf compiled
    obtain ⟨fs, run, rfl⟩ := Block.filterClause_eq_ok.1 filtered
    obtain ⟨g, found, some, inner⟩ := path.partOf_filters run member named filled
    rw [Fragment.wrap_of_not_isEmpty (inner.not_isEmpty some)] at filtered part
    exact ⟨g, _, found, some, inner, filtered, part⟩
  · intro m c compiled e member d path named filled
    obtain ⟨fs, run, condition⟩ := Mutation.condition_of_compile compiled
    obtain ⟨g, found, some, inner⟩ := path.partOf_filters run member named filled
    rw [inner.not_isEmpty some] at condition
    exact ⟨g, _, found, some, inner, condition⟩

/-- A filter with a name that needs brackets. -/
def reachable : Expr := .has (KeyMap.ofList [("e-mail", ())])

/-- Filters with parts that have nothing to write, and one part that has, below three connectors. -/
def screening : List Expr :=
  [.any [], .all [.raw "", .not (.any [.has ∅, reachable])], .apply .uid (.nested (.not (.all [])))]

/-- A block that is guarded by `screening`. -/
def screened : Block := { path := "person", filters := screening }

/-- A mutation that is guarded by `screening`. -/
def screenedChange : Mutation := { set := some "[]", conditions := screening }

theorem guards_kept_screening :
    ∃ (f : Fragment) (c : CompiledMutation), screened.compile ∅ = .ok f ∧ screenedChange.compile = .ok c ∧
      f.display = "person @filter((NOT (has(<e-mail>)))) \x7b  \x7d" ∧
      (∃ g inner : Fragment, reachable.compile = .ok g ∧ g.isEmpty = false ∧ g.PartOf inner ∧
        screened.filterClause = .ok (.text "@filter(" ++ inner ++ .text ")") ∧
        (Fragment.text "@filter(" ++ inner ++ .text ")").PartOf f) ∧
      (∃ g inner : Fragment, reachable.compile = .ok g ∧ g.isEmpty = false ∧ g.PartOf inner ∧
        c.condition = some ("@if(" ++ inner.inlined ++ ") ")) ∧
      (Expr.apply .uid (.nested (.not (.all [])))).Vacuous := by
  obtain ⟨vacuous, inBlock, inMutation⟩ := guards_kept
  have builds : (screened.compile ∅).isOk = true := by decide +kernel
  have changes : screenedChange.compile.isOk = true := by decide +kernel
  obtain ⟨f, built⟩ := Compiled.exists_of_isOk builds
  obtain ⟨c, changed⟩ := Compiled.exists_of_isOk changes
  have shown : (screened.compile ∅).toOption.map (·.display) =
      some "person @filter((NOT (has(<e-mail>)))) \x7b  \x7d" := by decide +kernel
  rw [built] at shown
  have member : Expr.all [.raw "", .not (.any [.has ∅, reachable])] ∈ screening := by simp [screening]
  have below : (Expr.any [.has ∅, reachable]).Reaches reachable :=
    .any (List.mem_cons_of_mem _ (List.mem_singleton_self _)) (.self reachable)
  have path : (Expr.all [.raw "", .not (.any [.has ∅, reachable])]).Reaches reachable :=
    .all (List.mem_cons_of_mem _ (List.mem_singleton_self _)) (.not below)
  have named : reachable.Named := by decide
  have filled : ¬ reachable.Vacuous := by decide
  refine ⟨f, c, built, changed, Option.some.inj shown, inBlock _ _ _ built _ member _ path named filled,
    inMutation _ _ changed _ member _ path named filled, ?_⟩
  exact (vacuous _ ∅ (by decide) rfl).1 rfl

mutual

/-- Whether an expression is built from connectors alone. -/
def Expr.isConnective : Expr → Bool
  | .all parts => Expr.areConnective parts
  | .any parts => Expr.areConnective parts
  | .not part => Expr.isConnective part
  | _ => false

def Expr.areConnective : List Expr → Bool
  | [] => true
  | e :: es => Expr.isConnective e && Expr.areConnective es

end

/-- Not only connectors are left out: nothing is written for raw text that is empty and for functions
    without fields either, and a guard made of them guards nothing. -/
theorem leaves_vanish :
    (∀ e ∈ [Expr.raw "", .has ∅, .compare .eq ∅], e.isConnective = false ∧ e.compile = .ok ∅) ∧
      Block.filterClause { filters := [.raw "", .has ∅, .compare .eq ∅] } = .ok ∅ ∧
      Condition.compile [.raw "", .has ∅, .compare .eq ∅] = .ok "" := by
  refine ⟨?_, rfl, rfl⟩
  intro e member
  simp only [List.mem_cons, List.not_mem_nil, or_false] at member
  rcases member with rfl | rfl | rfl <;> exact ⟨rfl, rfl⟩

end GraphQuery
