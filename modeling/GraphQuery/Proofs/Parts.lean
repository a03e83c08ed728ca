import GraphQuery.BlockTree
import GraphQuery.Proofs.Compiled

/-!
# Parts of compiled fragments

What a fragment is made of when it was compiled: for each function that compiles, its
results are exactly the fragments put together in this way from the results of the
functions it calls. Everything that is known of compiled fragments is read off here.
-/

namespace GraphQuery

open Compiled (map_eq_ok bind_eq_ok pure_eq_ok)

/-! ## Operands and calls -/

theorem requirePredicate_eq_ok {context predicate written : String} :
    requirePredicate context predicate = .ok written ↔
      written = Predicate.escape predicate ∧ written ≠ "" := by
  unfold requirePredicate
  dsimp only
  split
  · next empty =>
    constructor
    · intro h
      cases h
    · rintro ⟨rfl, filled⟩
      exact absurd (String.isEmpty_iff.1 empty) filled
  · next filled =>
    constructor
    · intro h
      cases h
      exact ⟨rfl, fun empty => filled (String.isEmpty_iff.2 empty)⟩
    · rintro ⟨rfl, _⟩
      rfl

namespace Expr

theorem compileCall_eq_ok {function rest : String} {field : String × Value} {f : Fragment} :
    compileCall function rest field = .ok f ↔
      Predicate.escape field.1 ≠ "" ∧ ∃ value, field.2.compile = .ok value ∧
        f = .text (function ++ "(" ++ Predicate.escape field.1 ++ ",") ++ value ++ .text (rest ++ ")") := by
  unfold compileCall
  rw [bind_eq_ok]
  constructor
  · rintro ⟨_, named, run⟩
    obtain ⟨rfl, filled⟩ := requirePredicate_eq_ok.1 named
    obtain ⟨value, bound, same⟩ := bind_eq_ok.1 run
    exact ⟨filled, value, bound, pure_eq_ok.1 same⟩
  · rintro ⟨filled, value, bound, rfl⟩
    exact ⟨_, requirePredicate_eq_ok.2 ⟨rfl, filled⟩, bind_eq_ok.2 ⟨value, bound, rfl⟩⟩

theorem compileFields_eq_ok {function rest : String} {fields : KeyMap Value} {f : Fragment} :
    compileFields function rest fields = .ok f ↔
      ∃ calls, fields.entries.mapM (compileCall function rest) = .ok calls ∧ f = .join conjunction calls :=
  map_eq_ok

theorem compileHasOne_eq_ok {predicate : String} {f : Fragment} :
    compileHasOne predicate = .ok f ↔
      Predicate.escape predicate ≠ "" ∧ f = .text ("has(" ++ Predicate.escape predicate ++ ")") := by
  unfold compileHasOne
  rw [map_eq_ok]
  constructor
  · rintro ⟨_, named, rfl⟩
    obtain ⟨rfl, filled⟩ := requirePredicate_eq_ok.1 named
    exact ⟨filled, rfl⟩
  · rintro ⟨filled, rfl⟩
    exact ⟨_, requirePredicate_eq_ok.2 ⟨rfl, filled⟩, rfl⟩

theorem compileHas_eq_ok {predicates : KeyMap Unit} {f : Fragment} :
    compileHas predicates = .ok f ↔
      ∃ calls, predicates.keys.mapM compileHasOne = .ok calls ∧ f = .join conjunction calls :=
  map_eq_ok

theorem compileBetween_eq_ok {predicate : String} {low high : Value} {f : Fragment} :
    compileBetween predicate low high = .ok f ↔
      Predicate.escape predicate ≠ "" ∧ ∃ l h, low.compile = .ok l ∧ high.compile = .ok h ∧
        f = .text ("between(" ++ Predicate.escape predicate ++ ",") ++ l ++ .text "," ++ h ++ .text ")" := by
  unfold compileBetween
  rw [bind_eq_ok]
  constructor
  · rintro ⟨_, named, run⟩
    obtain ⟨rfl, filled⟩ := requirePredicate_eq_ok.1 named
    obtain ⟨l, lowest, run⟩ := bind_eq_ok.1 run
    obtain ⟨h, highest, same⟩ := bind_eq_ok.1 run
    exact ⟨filled, l, h, lowest, highest, pure_eq_ok.1 same⟩
  · rintro ⟨filled, l, h, lowest, highest, rfl⟩
    refine ⟨_, requirePredicate_eq_ok.2 ⟨rfl, filled⟩, ?_⟩
    exact bind_eq_ok.2 ⟨l, lowest, bind_eq_ok.2 ⟨h, highest, rfl⟩⟩

theorem compileFilter_eq_ok {clause : String} {e : Expr} {f : Fragment} :
    compileFilter clause e = .ok f ↔ e.isFilter = true ∧ e.compile = .ok f := by
  unfold compileFilter
  by_cases filters : e.isFilter = true
  · simp [filters]
  · simp [filters]

end Expr

theorem OrderBy.compile_eq_ok {o : OrderBy} {f : Fragment} :
    o.compile = .ok f ↔
      ∃ key, compileKey o.direction.keyword o.key = .ok key ∧ f = key.wrap (o.direction.keyword ++ ": ") "" :=
  map_eq_ok

theorem Selection.compile_eq_ok {s : Selection} {f : Fragment} :
    s.compile = .ok f ↔ ∃ parts, s.items.mapM SelectionItem.compile = .ok parts ∧ f = .join " " parts :=
  map_eq_ok

/-! ## Blocks -/

namespace Block

/-- The name of a block with the variable that it sets. -/
def labelText (b : Block) (name : String) : String :=
  if (Predicate.name b.alias).isEmpty then name else Predicate.name b.alias ++ " as " ++ name

theorem blockName_eq_ok {b : Block} {name : String} :
    b.blockName = .ok name ↔
      if b.isVariable then name = "var" else name = Predicate.escape b.name ∧ name ≠ "" := by
  unfold blockName
  by_cases unnamed : b.isVariable = true
  · simp [unnamed, eq_comm]
  · simp only [unnamed, Bool.false_eq_true, ↓reduceIte]
    by_cases empty : (Predicate.escape b.name).isEmpty = true
    · simp only [empty, ↓reduceIte, reduceCtorEq, false_iff, not_and, not_not]
      rintro rfl
      exact String.isEmpty_iff.1 empty
    · simp only [empty, Bool.false_eq_true, ↓reduceIte, Except.ok.injEq]
      constructor
      · rintro rfl
        exact ⟨rfl, fun same => empty (String.isEmpty_iff.2 same)⟩
      · exact fun h => h.1.symm

theorem label_eq_ok {b : Block} {f : Fragment} :
    b.label = .ok f ↔ ∃ name, b.blockName = .ok name ∧ f = .text (b.labelText name) := by
  unfold label
  simp only [bind_eq_ok, pure_eq_ok]
  rfl

theorem rootClause_eq_ok {b : Block} {fs : List Fragment} :
    b.rootClause = .ok fs ↔
      (b.isRoot = false ∧ fs = []) ∨
      (b.isRoot = true ∧ ∃ e f, b.rootFilter = some e ∧ e.compile = .ok f ∧ fs = [f.wrap "func: " ""]) := by
  unfold rootClause
  cases b.isRoot with
  | false => simp [eq_comm]
  | true =>
    cases b.rootFilter with
    | none => simp
    | some e =>
      simp only [↓reduceIte, bind_eq_ok, pure_eq_ok, Option.some.injEq, Bool.true_eq_false, false_and, true_and,
        false_or]
      constructor
      · rintro ⟨f, run, rfl⟩
        exact ⟨e, f, rfl, run, rfl⟩
      · rintro ⟨_, f, rfl, run, rfl⟩
        exact ⟨f, run, rfl⟩

theorem parameters_eq_ok {b : Block} {f : Fragment} :
    b.parameters = .ok f ↔ ∃ root orders, b.rootClause = .ok root ∧ b.orders.mapM OrderBy.compile = .ok orders ∧
      f = (Fragment.join "," (root ++ (if b.cursor.isWanted then [b.cursor.compile] else []) ++ orders)).wrap
        "(" ")" := by
  unfold parameters
  simp only [bind_eq_ok, pure_eq_ok]
  constructor
  · rintro ⟨root, start, orders, ordered, rfl⟩
    exact ⟨root, orders, start, ordered, rfl⟩
  · rintro ⟨root, orders, start, ordered, rfl⟩
    exact ⟨root, start, orders, ordered, rfl⟩

/-- The clause of all facets. -/
def allFacets (b : Block) : List Fragment := if b.facets.any (·.isAll) then [Fragment.text "@facets"] else []

/-- The written keys of facets. -/
def facetKeys (b : Block) : List String := (b.facets.filterMap (·.key?)).filter (!·.isEmpty)

/-- The clause of single facets. -/
def keyFacets (b : Block) : List Fragment :=
  if b.facetKeys.isEmpty then [] else [Fragment.text ("@facets(" ++ String.intercalate "," b.facetKeys ++ ")")]

theorem facetsClause_eq_ok {b : Block} {f : Fragment} :
    b.facetsClause = .ok f ↔
      ∃ filters, (b.facets.filterMap (·.filter?)).mapM (Expr.compileFilter "@facets") = .ok filters ∧
        f = .join " " (b.allFacets ++ b.keyFacets ++ filters.map (.wrap "@facets(" ")")) := by
  unfold facetsClause
  simp only [bind_eq_ok, pure_eq_ok]
  rfl

theorem filterClause_eq_ok {b : Block} {f : Fragment} :
    b.filterClause = .ok f ↔
      ∃ filters, b.filters.mapM (Expr.compileFilter "@filter") = .ok filters ∧
        f = (Fragment.join Expr.conjunction filters).wrap "@filter(" ")" := by
  unfold filterClause
  simp only [bind_eq_ok, pure_eq_ok]

theorem directives_eq_ok {b : Block} {f : Fragment} :
    b.directives = .ok f ↔ ∃ facets filter, b.facetsClause = .ok facets ∧ b.filterClause = .ok filter ∧
      f = (Fragment.join " " [facets, filter, b.groupClause, b.cascadeClause]).wrap " " "" := by
  unfold directives
  simp only [bind_eq_ok, pure_eq_ok]
  constructor
  · rintro ⟨facets, asked, filter, filtered, rfl⟩
    exact ⟨facets, filter, asked, filtered, rfl⟩
  · rintro ⟨facets, filter, asked, filtered, rfl⟩
    exact ⟨facets, asked, filter, filtered, rfl⟩

theorem head_eq_ok {b : Block} {f : Fragment} :
    b.head = .ok f ↔ ∃ label parameters directives, b.label = .ok label ∧ b.parameters = .ok parameters ∧
      b.directives = .ok directives ∧ f = label ++ parameters ++ directives := by
  unfold head
  simp only [bind_eq_ok, pure_eq_ok]
  constructor
  · rintro ⟨label, named, parameters, asked, directives, directed, rfl⟩
    exact ⟨label, parameters, directives, named, asked, directed, rfl⟩
  · rintro ⟨label, parameters, directives, named, asked, directed, rfl⟩
    exact ⟨label, named, parameters, asked, directives, directed, rfl⟩

/-- A block is its head, and between braces its selection and the blocks nested in it. -/
theorem compileWith_eq_ok {b : Block} {nested : String → Compiled (List Fragment)} {f : Fragment} :
    b.compileWith nested = .ok f ↔ ∃ head selection fs, b.head = .ok head ∧
      b.body.selection.compile = .ok selection ∧ nested b.body.key = .ok fs ∧
      f = head ++ .text " \x7b " ++ bodyFragment selection fs ++ .text " \x7d" := by
  unfold compileWith Body.compileWith
  simp only [bind_eq_ok, pure_eq_ok]
  constructor
  · rintro ⟨head, headed, _, ⟨selection, selected, fs, inner, rfl⟩, rfl⟩
    exact ⟨head, selection, fs, headed, selected, inner, rfl⟩
  · rintro ⟨head, selection, fs, headed, selected, inner, rfl⟩
    exact ⟨head, headed, _, ⟨selection, selected, fs, inner, rfl⟩, rfl⟩

end Block

end GraphQuery
