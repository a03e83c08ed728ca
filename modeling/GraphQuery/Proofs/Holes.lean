import GraphQuery.Proofs.Brackets
import GraphQuery.Proofs.Rows
import GraphQuery.Proofs.Vanishing

/-!
# Holes

A name of which nothing is left after escaping leaves a hole where it is written. Most
names are required, are left out, or take the part that they belong to with them. Main
statement: a compiled block has a hole exactly where such a name is the name of a type, one
of the fields of a cascade, or the name before a selected value.
-/

namespace GraphQuery

open Compiled (map_eq_ok bind_eq_ok pure_eq_ok)
open Predicate (isLost name_eq_empty_iff escape_eq_empty_iff)

/-! ## Rows with holes -/

namespace Row

/-- Something is written for a row, and one of its names is empty. -/
def Holed (r : Row) : Prop := isBlank r = false ∧ "" ∈ names r

theorem names_append (r s : Row) : names (r ++ s) = names r ++ names s := List.filterMap_append

theorem names_separated (sep : String) (rs : List Row) : names (separated sep rs) = rs.flatMap names := by
  induction rs with
  | nil => rfl
  | cons r rs ih =>
    cases rs with
    | nil => simp [separated]
    | cons s rs =>
      have step : names (.fixed sep :: separated sep (s :: rs)) = names (separated sep (s :: rs)) := rfl
      rw [separated, names_append, step, ih]
      rfl

theorem names_listing (opening : String) (written : List String) : names (listing opening written) = written := by
  have last : names [.fixed ")"] = [] := rfl
  have first (r : Row) : names (.fixed opening :: r) = names r := rfl
  have single (s : String) : names [.name s] = [s] := rfl
  rw [listing, List.cons_append, first, names_append, names_separated, last, List.append_nil, List.flatMap_map]
  simp only [single, List.flatMap_singleton']

theorem isBlank_append (r s : Row) : isBlank (r ++ s) = (isBlank r && isBlank s) := by
  rw [isBlank, spell_append, Fragment.isEmpty_append, isBlank, isBlank]

theorem isBlank_cons_fixed {s : String} (filled : s ≠ "") (r : Row) : isBlank (.fixed s :: r) = false := by
  rw [isBlank, spell, Word.fragment_fixed, Fragment.isEmpty_append, Fragment.not_isEmpty_text filled, Bool.false_and]

theorem isBlank_join (sep : String) (rs : List Row) : isBlank (join sep rs) = rs.all isBlank := by
  rw [isBlank, spell_join, Fragment.isEmpty_join, List.all_map]
  rfl

theorem isBlank_wrap (before after r : Row) : isBlank (wrap before after r) = isBlank r := by
  unfold wrap
  cases blank : isBlank r with
  | true => rfl
  | false => rw [if_neg (by simp), isBlank_append, isBlank_append, blank, Bool.and_false, Bool.false_and]

theorem mem_names_join {sep : String} {rs : List Row} {s : String} :
    s ∈ names (join sep rs) ↔ ∃ r ∈ rs, isBlank r = false ∧ s ∈ names r := by
  simp only [join, names_separated, List.mem_flatMap, List.mem_filter, Bool.not_eq_true', and_assoc]

theorem mem_names_wrap {before after r : Row} {s : String} :
    s ∈ names (wrap before after r) ↔
      isBlank r = false ∧ (s ∈ names before ∨ s ∈ names r ∨ s ∈ names after) := by
  unfold wrap
  cases isBlank r with
  | true => simp [names]
  | false => simp only [Bool.false_eq_true, ↓reduceIte, names_append, List.mem_append, or_assoc, true_and]

/-- What stands in a join and is not blank is not left out. -/
theorem empty_mem_join {sep : String} {rs : List Row} : "" ∈ names (join sep rs) ↔ ∃ r ∈ rs, Holed r :=
  mem_names_join

theorem holed_join {sep : String} {rs : List Row} : Holed (join sep rs) ↔ ∃ r ∈ rs, Holed r := by
  rw [Holed, empty_mem_join, isBlank_join, and_iff_right_iff_imp]
  rintro ⟨r, member, filled, _⟩
  exact List.all_eq_false.2 ⟨r, member, by rw [filled]; simp⟩

theorem empty_mem_wrap {before after r : Row} (first : names before = []) (last : names after = []) :
    "" ∈ names (wrap before after r) ↔ Holed r := by
  rw [mem_names_wrap, first, last, Holed]
  simp

theorem holed_wrap {before after r : Row} (first : names before = []) (last : names after = []) :
    Holed (wrap before after r) ↔ Holed r := by
  rw [Holed, isBlank_wrap, empty_mem_wrap first last, Holed, and_iff_right_iff_imp]
  exact fun holed => holed.1

theorem not_holed {r : Row} (named : "" ∉ names r) : ¬ Holed r := fun holed => named holed.2

end Row

open Row (Holed names names_append names_listing isBlank_cons_fixed empty_mem_join holed_join empty_mem_wrap holed_wrap
  not_holed)

/-! ## Expressions -/

mutual

/-- The names of types in an expression, at any depth. -/
def Expr.typeNames : Expr → List String
  | .ofType name => [name]
  | .expand name => [name]
  | .apply _ operand => Operand.typeNames operand
  | .all parts => Expr.typeNamesAll parts
  | .any parts => Expr.typeNamesAll parts
  | .not part => Expr.typeNames part
  | _ => []

def Operand.typeNames : Operand → List String
  | .nested e => Expr.typeNames e
  | _ => []

def Expr.typeNamesAll : List Expr → List String
  | [] => []
  | e :: es => Expr.typeNames e ++ Expr.typeNamesAll es

end

namespace Expr

theorem not_holed_callRow {function rest : String} {field : String × Value} {f : Fragment}
    (h : compileCall function rest field = .ok f) : ¬ Holed (callRow function rest field) := by
  obtain ⟨filled, _⟩ := compileCall_eq_ok.1 h
  have own : names (callRow function rest field) = [Predicate.escape field.1] := rfl
  exact not_holed (by simpa [own] using filled.symm)

theorem not_holed_fieldsRow {function rest : String} {fields : KeyMap Value} {f : Fragment}
    (h : compileFields function rest fields = .ok f) : ¬ Holed (fieldsRow function rest fields) := by
  obtain ⟨calls, run, _⟩ := compileFields_eq_ok.1 h
  rw [fieldsRow, holed_join]
  rintro ⟨r, member, holed⟩
  obtain ⟨field, inside, rfl⟩ := List.mem_map.1 member
  obtain ⟨g, _, compiled⟩ := Compiled.exists_ok_of_mem run inside
  exact not_holed_callRow compiled holed

theorem holed_namedRow (function written : String) : Holed (namedRow function written) ↔ written = "" := by
  have own : names (namedRow function written) = [written] := rfl
  have filled : Row.isBlank (namedRow function written) = false := isBlank_cons_fixed (by simp) _
  rw [Holed, own, filled, List.mem_singleton, eq_comm (a := "")]
  simp

theorem holed_connectRow {mark : String} {parts : List Row} :
    Holed (connectRow mark parts) ↔ ∃ r ∈ parts, Holed r := by
  rw [connectRow, holed_wrap rfl rfl, holed_join]

mutual

/-- An expression that compiles has a hole exactly if nothing is left of the name of a type in it. -/
theorem holed_row {e : Expr} {f : Fragment} (h : e.compile = .ok f) :
    Holed e.row ↔ e.typeNames.any isLost = true := by
  cases e with
  | compare op fields => exact iff_of_false (not_holed_fieldsRow h) (by simp [typeNames])
  | fuzzy fields distance => exact iff_of_false (not_holed_fieldsRow h) (by simp [typeNames])
  | has predicates =>
    refine iff_of_false ?_ (by simp [typeNames])
    obtain ⟨calls, run, _⟩ := compileHas_eq_ok.1 h
    rw [row, holed_join]
    rintro ⟨r, member, holed⟩
    obtain ⟨p, inside, rfl⟩ := List.mem_map.1 member
    obtain ⟨g, _, compiled⟩ := Compiled.exists_ok_of_mem run inside
    exact (compileHasOne_eq_ok.1 compiled).1 ((holed_namedRow _ _).1 holed)
  | ofType name =>
    rw [row, holed_namedRow, name_eq_empty_iff]
    simp [typeNames]
  | between predicate low high =>
    obtain ⟨filled, _⟩ := compileBetween_eq_ok.1 h
    have own : names (between predicate low high).row = [Predicate.escape predicate] := by
      rw [row]
      rfl
    exact iff_of_false (not_holed (by simpa [own] using filled.symm)) (by simp [typeNames])
  | apply function operand =>
    obtain ⟨g, compiled, _⟩ := map_eq_ok.1 h
    rw [row, holed_wrap rfl rfl]
    exact holed_operandRow compiled
  | expand name =>
    rw [row, holed_namedRow, name_eq_empty_iff]
    simp [typeNames]
  | raw text =>
    rw [row]
    exact iff_of_false (not_holed (by simp [names, Word.name?])) (by simp [typeNames])
  | all parts =>
    obtain ⟨fs, compiled, _⟩ := map_eq_ok.1 h
    rw [row, holed_connectRow]
    exact holed_rows compiled
  | any parts =>
    obtain ⟨fs, compiled, _⟩ := map_eq_ok.1 h
    rw [row, holed_connectRow]
    exact holed_rows compiled
  | not part =>
    obtain ⟨g, compiled, _⟩ := map_eq_ok.1 h
    have inner := holed_row compiled
    rw [row, holed_wrap rfl rfl]
    exact inner

theorem holed_operandRow {operand : Operand} {f : Fragment} (h : compileOperand operand = .ok f) :
    Holed operand.row ↔ operand.typeNames.any isLost = true := by
  cases operand with
  | predicate name =>
    -- A name alone is either there or the whole operand is blank.
    refine iff_of_false ?_ (by simp [Operand.typeNames])
    rintro ⟨filled, empty⟩
    rw [Operand.row] at filled empty
    have same : "" = Predicate.escape name := List.mem_singleton.1 empty
    rw [← same] at filled
    cases filled
  | value v =>
    rw [Operand.row]
    exact iff_of_false (not_holed (by simp [names, Word.name?])) (by simp [Operand.typeNames])
  | nested e =>
    have inner := holed_row h
    exact inner

theorem holed_rows {es : List Expr} {fs : List Fragment} (h : compileAll es = .ok fs) :
    (∃ r ∈ rows es, Holed r) ↔ (typeNamesAll es).any isLost = true := by
  cases es with
  | nil => simp [rows, typeNamesAll]
  | cons e es =>
    obtain ⟨f, first, rest⟩ := bind_eq_ok.1 h
    obtain ⟨gs, compiled, _⟩ := bind_eq_ok.1 rest
    rw [rows, typeNamesAll, List.any_append, Bool.or_eq_true, ← holed_row first, ← holed_rows compiled]
    simp

end

theorem exists_holed_iff {es : List Expr} (each : ∀ e ∈ es, ∃ f, e.compile = .ok f) :
    (∃ e ∈ es, Holed e.row) ↔ (es.flatMap typeNames).any isLost = true := by
  rw [List.any_flatMap, List.any_eq_true]
  refine exists_congr fun e => and_congr_right fun member => ?_
  obtain ⟨f, compiled⟩ := each e member
  exact holed_row compiled

theorem exists_holed_wrap {es : List Expr} (each : ∀ e ∈ es, ∃ f, e.compile = .ok f) (before after : Row)
    (first : names before = []) (last : names after = []) :
    (∃ r ∈ es.map fun e => Row.wrap before after e.row, Holed r) ↔ (es.flatMap typeNames).any isLost = true := by
  simp only [List.mem_map, exists_exists_and_eq_and, holed_wrap first last]
  exact exists_holed_iff each

theorem exists_compile_of_filters {clause : String} {es : List Expr} {fs : List Fragment}
    (run : es.mapM (compileFilter clause) = .ok fs) : ∀ e ∈ es, ∃ f, e.compile = .ok f := by
  intro e member
  obtain ⟨f, _, compiled⟩ := Compiled.exists_ok_of_mem run member
  exact ⟨f, (compileFilter_eq_ok.1 compiled).2⟩

end Expr

/-! ## Clauses -/

theorem OrderBy.holed_row {o : OrderBy} {f : Fragment} (h : o.compile = .ok f) :
    Holed o.row ↔ (o.expr?.toList.flatMap (·.typeNames)).any isLost = true := by
  obtain ⟨key, compiled, _⟩ := compile_eq_ok.1 h
  rw [row, holed_wrap rfl rfl, expr?]
  cases by_ : o.key with
  | predicate name =>
    rw [by_, compileKey] at compiled
    obtain ⟨written, required, _⟩ := map_eq_ok.1 compiled
    obtain ⟨rfl, filled⟩ := requirePredicate_eq_ok.1 required
    have own : names (OrderKey.predicate name).row = [Predicate.escape name] := rfl
    exact iff_of_false (not_holed (by simpa [own] using filled.symm)) (by simp)
  | expr e =>
    rw [by_, compileKey] at compiled
    split at compiled
    · simpa [OrderKey.row] using Expr.holed_row compiled
    · cases compiled

theorem Cursor.names_row (c : Cursor) : names c.row = [] := by
  refine List.eq_nil_iff_forall_not_mem.2 fun s member => ?_
  have clause {wanted : Bool} {keyword : String} {v : Value} {r : Row} (inside : r ∈ clauseRow wanted keyword v) :
      names r = [] := by
    cases wanted with
    | false => cases inside
    | true =>
      rw [List.mem_singleton.1 inside]
      rfl
  obtain ⟨r, inside, _, named⟩ := Row.mem_names_join.1 member
  have none : names r = [] := by
    rw [List.mem_append, List.mem_append] at inside
    rcases inside with (first | offset) | after
    · exact clause first
    · exact clause offset
    · exact clause after
  rw [none] at named
  cases named

theorem Row.holed_listing {opening : String} (filled : opening ≠ "") (written : List String) :
    Holed (listing opening written) ↔ "" ∈ written := by
  rw [Holed, names_listing, listing, List.cons_append, isBlank_cons_fixed filled, and_iff_right rfl]

theorem not_holed_fixed (s : String) : ¬ Holed [.fixed s] := not_holed List.not_mem_nil

theorem not_holed_nil : ¬ Holed [] := not_holed List.not_mem_nil

namespace Block

variable {b : Block} {f : Fragment}

theorem names_labelRow (h : b.label = .ok f) : "" ∉ names b.labelRow := by
  obtain ⟨name, named, _⟩ := label_eq_ok.1 h
  have last : "" ∉ names [if b.isVariable then .fixed "var" else .name (Predicate.escape b.name)] := by
    rw [blockName_eq_ok] at named
    cases unnamed : b.isVariable with
    | true => exact List.not_mem_nil
    | false =>
      rw [unnamed] at named
      obtain ⟨rfl, filled⟩ := named
      exact fun empty => filled (List.mem_singleton.1 empty).symm
  rw [labelRow, names_append, List.mem_append, not_or]
  refine ⟨?_, last⟩
  split
  · exact List.not_mem_nil
  · next filled => exact fun empty => filled (String.isEmpty_iff.2 (List.mem_singleton.1 empty).symm)

theorem names_parametersRow (h : b.parameters = .ok f) :
    "" ∈ names b.parametersRow ↔ ((b.rootExprs ++ b.orderExprs).flatMap (·.typeNames)).any isLost = true := by
  obtain ⟨root, orders, started, ordered, _⟩ := parameters_eq_ok.1 h
  have start : ∀ e ∈ b.rootExprs, ∃ f, e.compile = .ok f := by
    intro e member
    rcases rootClause_eq_ok.1 started with ⟨nested, _⟩ | ⟨top, e', g, present, compiled, _⟩
    · simp [rootExprs, nested] at member
    · obtain rfl : e = e' := by simpa [rootExprs, top, present] using member
      exact ⟨g, compiled⟩
  have cursor : ¬ ∃ r ∈ (if b.cursor.isWanted then [b.cursor.row] else []), Holed r := by
    rintro ⟨r, member, _, empty⟩
    split at member
    · rw [List.mem_singleton.1 member, Cursor.names_row] at empty
      cases empty
    · cases member
  have fromOrders : (∃ r ∈ b.orders.map OrderBy.row, Holed r) ↔
      (b.orderExprs.flatMap (·.typeNames)).any isLost = true := by
    rw [orderExprs, List.filterMap_eq_flatMap_toList, List.flatMap_assoc, List.any_flatMap, List.any_eq_true]
    simp only [List.mem_map, exists_exists_and_eq_and]
    refine exists_congr fun o => and_congr_right fun member => ?_
    obtain ⟨g, _, compiled⟩ := Compiled.exists_ok_of_mem ordered member
    exact OrderBy.holed_row compiled
  have fromRoot := Expr.exists_holed_wrap start [.fixed "func: "] [] rfl rfl
  rw [parametersRow, empty_mem_wrap rfl rfl, holed_join, List.flatMap_append, List.any_append, Bool.or_eq_true,
    ← fromRoot, ← fromOrders]
  simp only [List.mem_append, or_and_right, exists_or, cursor, or_false]

theorem holed_facetsRow (h : b.facetsClause = .ok f) :
    Holed b.facetsRow ↔ (b.facetExprs.flatMap (·.typeNames)).any isLost = true := by
  obtain ⟨filters, run, _⟩ := facetsClause_eq_ok.1 h
  have all : ¬ ∃ r ∈ (if b.facets.any (·.isAll) then [[Word.fixed "@facets"]] else []), Holed r := by
    rintro ⟨r, member, holed⟩
    split at member
    · rw [List.mem_singleton.1 member] at holed
      exact not_holed_fixed _ holed
    · cases member
  have keys : ¬ ∃ r ∈ (if b.facetKeys.isEmpty then [] else [Row.listing "@facets(" b.facetKeys]), Holed r := by
    rintro ⟨r, member, holed⟩
    split at member
    · cases member
    · rw [List.mem_singleton.1 member, Row.holed_listing (by decide)] at holed
      simpa using (List.mem_filter.1 holed).2
  have each : ∀ e ∈ b.facetExprs, ∃ f, e.compile = .ok f := Expr.exists_compile_of_filters run
  have fromFilters := Expr.exists_holed_wrap each [.fixed "@facets("] [.fixed ")"] rfl rfl
  rw [facetsRow, holed_join, ← fromFilters]
  simp only [List.mem_append, or_and_right, exists_or, all, keys, false_or]

theorem holed_filterRow (h : b.filterClause = .ok f) :
    Holed b.filterRow ↔ (b.filters.flatMap (·.typeNames)).any isLost = true := by
  obtain ⟨filters, run, _⟩ := filterClause_eq_ok.1 h
  rw [filterRow, holed_wrap rfl rfl, holed_join]
  simp only [List.mem_map, exists_exists_and_eq_and]
  exact Expr.exists_holed_iff (Expr.exists_compile_of_filters run)

theorem not_holed_groupRow (b : Block) : ¬ Holed b.groupRow := by
  unfold groupRow
  split
  · exact not_holed_nil
  · rw [Row.holed_listing (by decide)]
    intro member
    simpa using (List.mem_filter.1 member).2

theorem holed_cascadeRow (b : Block) : Holed b.cascadeRow ↔ (b.cascade.getD []).any isLost = true := by
  unfold cascadeRow
  cases b.cascade with
  | none => exact iff_of_false not_holed_nil (by simp)
  | some fields =>
    cases fields with
    | nil => exact iff_of_false (not_holed_fixed _) (by simp)
    | cons field fields =>
      dsimp only
      rw [Row.holed_listing (by decide), List.mem_map, Option.getD_some, List.any_eq_true]
      simp only [escape_eq_empty_iff]

theorem names_headRow (h : b.head = .ok f) :
    "" ∈ names b.headRow ↔
      (b.headExprs.flatMap (·.typeNames) ++ b.cascade.getD []).any isLost = true := by
  obtain ⟨label, parameters, directives, named, asked, directed, _⟩ := head_eq_ok.1 h
  obtain ⟨facets, filter, chosen, filtered, _⟩ := directives_eq_ok.1 directed
  have late : "" ∈ names b.directivesRow ↔
      ((b.facetExprs ++ b.filters).flatMap (·.typeNames) ++ b.cascade.getD []).any isLost = true := by
    rw [directivesRow, empty_mem_wrap rfl rfl, holed_join]
    simp only [List.mem_cons, List.not_mem_nil, or_false, exists_eq_or_imp, exists_eq_left, holed_facetsRow chosen,
      holed_filterRow filtered, not_holed_groupRow, holed_cascadeRow, false_or, List.flatMap_append, List.any_append,
      Bool.or_eq_true, or_assoc]
  rw [headRow, names_append, names_append, List.mem_append, List.mem_append, late, names_parametersRow asked,
    or_iff_right (names_labelRow named), headExprs]
  simp only [List.flatMap_append, List.any_append, Bool.or_eq_true, or_assoc]

end Block

/-! ## Selections and trees -/

/-- The name before a selected value, if something is written for the value. -/
def SelectionItem.mark? : SelectionItem → Option String
  | .aliased name e => if e.isHollow isLost then none else some name
  | .bound var e => if e.isHollow isLost then none else some var
  | _ => none

namespace SelectionItem

/-- A name before the value of an expression is written whenever the expression is. -/
theorem holed_marked {e : Expr} {f : Fragment} (h : e.compile = .ok f) (name mark : String) :
    Holed (.wrap [.name (Predicate.name name), .fixed mark] [] e.row) ↔
      e.typeNames.any isLost = true ∨ e.isHollow isLost = false ∧ isLost name = true := by
  have blank : Row.isBlank e.row = e.isHollow isLost := by
    rw [Row.isBlank, ← Expr.eq_spell_row h, Expr.isEmpty_compile h]
  have before : names [.name (Predicate.name name), .fixed mark] = [Predicate.name name] := rfl
  have after : names [] = [] := rfl
  rw [← Expr.holed_row h, Holed, Row.isBlank_wrap, Row.mem_names_wrap, before, after, blank, Holed, blank,
    List.mem_singleton, eq_comm (a := ""), name_eq_empty_iff]
  simp only [List.not_mem_nil, or_false]
  tauto

theorem holed_row {item : SelectionItem} {f : Fragment} (h : item.compile = .ok f) :
    Holed item.row ↔ (item.expr?.toList.flatMap (·.typeNames) ++ item.mark?.toList).any isLost = true := by
  have marked {e : Expr} {name : String} : (e.isHollow isLost = false ∧ isLost name = true) ↔
      (if e.isHollow isLost then none else some name).toList.any isLost = true := by
    cases e.isHollow isLost <;> simp
  rw [List.any_append, Bool.or_eq_true]
  cases item with
  | predicate written =>
    -- A predicate alone is either there or the whole item is blank.
    refine iff_of_false ?_ (by simp [expr?, mark?])
    rintro ⟨filled, empty⟩
    have same : "" = written := List.mem_singleton.1 empty
    rw [row, ← same] at filled
    cases filled
  | computed e =>
    rw [row, Expr.holed_row h]
    simp [expr?, mark?]
  | aliased name e =>
    obtain ⟨g, compiled, _⟩ := map_eq_ok.1 h
    rw [row, holed_marked compiled, marked]
    simp [expr?, mark?]
  | bound var e =>
    obtain ⟨g, compiled, _⟩ := map_eq_ok.1 h
    rw [row, holed_marked compiled, marked]
    simp [expr?, mark?]

end SelectionItem

/-- The names before the values of a selection. -/
def Selection.marks (s : Selection) : List String := s.items.filterMap (·.mark?)

theorem Selection.holed_row {s : Selection} {f : Fragment} (h : s.compile = .ok f) :
    Holed s.row ↔ (s.exprs.flatMap (·.typeNames) ++ s.marks).any isLost = true := by
  obtain ⟨parts, run, _⟩ := compile_eq_ok.1 h
  have each : (∃ item ∈ s.items, Holed item.row) ↔
      ∃ item ∈ s.items, (item.expr?.toList.flatMap (·.typeNames) ++ item.mark?.toList).any isLost = true := by
    refine exists_congr fun item => and_congr_right fun member => ?_
    obtain ⟨g, _, compiled⟩ := Compiled.exists_ok_of_mem run member
    exact SelectionItem.holed_row compiled
  rw [row, holed_join, exprs, marks, List.filterMap_eq_flatMap_toList, List.filterMap_eq_flatMap_toList,
    List.flatMap_assoc, List.any_append, List.any_flatMap, List.any_flatMap]
  simp only [List.mem_map, exists_exists_and_eq_and, each, List.any_append, Bool.or_eq_true, List.any_eq_true,
    and_or_left, exists_or]

/-- The names in a block that are written even when nothing is left of them: those of types, the fields of
    the cascade, and those before selected values. -/
def Block.unguarded (b : Block) : List String :=
  b.headExprs.flatMap (·.typeNames) ++ b.cascade.getD [] ++
    (b.body.selection.exprs.flatMap (·.typeNames) ++ b.body.selection.marks)

/-- Something is left of every name in a block that is written in any case. -/
def Block.NamesKept (b : Block) : Prop := b.unguarded.any isLost = false

instance (b : Block) : Decidable b.NamesKept := inferInstanceAs (Decidable (_ = false))

namespace BlockTree

theorem not_isBlank_row (b : Block) (nested : List BlockTree) : Row.isBlank (BlockTree.block b nested).row = false := by
  have brace : Row.isBlank [.fixed " \x7b "] = false := isBlank_cons_fixed (by decide) _
  rw [row, Row.isBlank_append, Row.isBlank_append, Row.isBlank_append, brace, Bool.and_false, Bool.false_and,
    Bool.false_and]

mutual

/-- A block that compiles has no hole exactly if something is left of every name, in it and in the blocks
    nested in it, that is written in any case. -/
theorem empty_not_mem_row {t : BlockTree} {f : Fragment} (h : t.compile = .ok f) :
    "" ∉ names t.row ↔ t.Every Block.NamesKept := by
  cases t with
  | endless key => cases h
  | block b nested =>
    obtain ⟨head, selection, fs, headed, selected, inner, _⟩ := Block.compileWith_eq_ok.1 h
    have brace (s : String) : "" ∉ names [.fixed s] := List.not_mem_nil
    have parts : "" ∈ names (BlockTree.block b nested).row ↔
        ("" ∈ names b.headRow ∨ Holed b.body.selection.row) ∨ ∃ r ∈ rows nested, Holed r := by
      rw [row, names_append, names_append, names_append]
      simp only [List.mem_append, brace, or_false, empty_mem_join, List.mem_cons, List.not_mem_nil, exists_eq_or_imp,
        exists_eq_left, holed_join, or_assoc]
    have own : "" ∈ names b.headRow ∨ Holed b.body.selection.row ↔ ¬ b.NamesKept := by
      rw [Block.names_headRow headed, Selection.holed_row selected, Block.NamesKept, Bool.not_eq_false, Block.unguarded]
      simp only [List.any_append, Bool.or_eq_true]
    rw [parts, own, not_or, not_not, not_holed_rows inner, Every]

theorem not_holed_rows {ts : List BlockTree} {fs : List Fragment} (h : compileAll ts = .ok fs) :
    (¬ ∃ r ∈ rows ts, Holed r) ↔ EveryOf Block.NamesKept ts := by
  cases ts with
  | nil => exact iff_of_true (by simp [rows]) trivial
  | cons t ts =>
    obtain ⟨f, first, rest⟩ := bind_eq_ok.1 h
    obtain ⟨gs, compiled, _⟩ := bind_eq_ok.1 rest
    have filled : Row.isBlank t.row = false := by
      cases t with
      | endless key => cases first
      | block b nested => exact not_isBlank_row b nested
    have whole : Holed t.row ↔ "" ∈ names t.row := and_iff_right filled
    rw [rows, EveryOf, ← empty_not_mem_row first, ← not_holed_rows compiled, List.exists_mem_cons_iff, whole, not_or]

end

end BlockTree

/-! ## Builders -/

/-- The predicates of a selection are written without an empty name before them. -/
def Block.PredicatesMarked (b : Block) : Prop :=
  ∀ written ∈ b.body.selection.predicates, ∃ form : Predicate.Form, written = String.ofList form.chars ∧
    form.mark? ≠ some []

theorem Block.RawFree.predicatesMarked {b : Block} (raw : b.RawFree) : b.PredicatesMarked := by
  intro written member
  obtain ⟨p, rfl⟩ := raw.2 written member
  exact Predicate.exists_form p

namespace Builder

theorem every_predicatesMarked {q : Builder} (raw : q.RawFree) : q.tree.Every Block.PredicatesMarked := by
  obtain ⟨root, children, attached⟩ := q
  refine ⟨raw.1.predicatesMarked, Registry.everyOf_treesTo (fun e entry b inside => ?_) _ _⟩
  exact (raw.2.1 e entry b inside).predicatesMarked

/-- What is written for a builder without raw text are the words of its row. The row has an empty name
    exactly if nothing is left of the name of a type, of a field of a cascade, or of the name before a
    selected value that is written. No predicate of a selection has an empty name before it. -/
theorem holes_iff {q : Builder} (raw : q.RawFree) {f : Fragment} (h : q.compile = .ok f) :
    f = Row.spell q.tree.row ∧ ("" ∈ Row.names q.tree.row ↔ ¬ q.tree.Every Block.NamesKept) ∧
      q.tree.Every Block.PredicatesMarked := by
  rw [compile, Block.compile_eq_compile_tree] at h
  exact ⟨BlockTree.eq_spell_row h, (not_iff_comm.1 (BlockTree.empty_not_mem_row h)).symm, every_predicatesMarked raw⟩

/-- A builder with names of which nothing is left, each left out or taking something with it. -/
def lossy : Builder :=
  let start := Builder.query (.any [.has (KeyMap.ofList [("e-mail", ())]), .apply .uid (.predicate "<>")])
  let directed := (((start.as " \x7b\x7d ").groupBy "^").facet (.key "|")).filter (.not (.apply .uid (.predicate "\\")))
  directed.select ⟨[.aliased "<>" (.apply .count (.predicate ",")), .bound "n" (.apply .count (.predicate "friend")),
    .predicate (Predicate.escape "F as film")]⟩

theorem holes_iff_lossy :
    lossy.RawFree ∧ ∃ f, lossy.compile = .ok f ∧
      f.display = "rootQuery(func: (has(<e-mail>))) \x7b n as count(friend) F as film \x7d" ∧
      f = Row.spell lossy.tree.row ∧ "" ∉ Row.names lossy.tree.row ∧ lossy.tree.Every Block.PredicatesMarked := by
  have raw : lossy.RawFree := by
    refine ⟨⟨by decide +kernel, fun written member => ⟨"F as film", List.mem_singleton.1 member⟩⟩, ?_, trivial⟩
    intro e none
    cases none
  have compiles : lossy.compile.isOk = true := by decide +kernel
  obtain ⟨f, compiled⟩ := Compiled.exists_of_isOk compiles
  have shown : lossy.compile.toOption.map (·.display) =
      some "rootQuery(func: (has(<e-mail>))) \x7b n as count(friend) F as film \x7d" := by decide +kernel
  rw [compiled] at shown
  have kept : lossy.tree.Every Block.NamesKept := ⟨by decide +kernel, trivial⟩
  obtain ⟨spelled, holed, marked⟩ := holes_iff raw compiled
  exact ⟨raw, f, compiled, Option.some.inj shown, spelled, fun empty => holed.1 empty kept, marked⟩

/-- A type of which no name is left is written all the same, and its brackets are empty. -/
theorem type_unnamed :
    (Builder.query (.ofType "<>")).RawFree ∧ "" ∈ Row.names (Builder.query (.ofType "<>")).tree.row ∧
      ∃ f, (Builder.query (.ofType "<>")).compile = .ok f ∧
        f.display = "rootQuery(func: type()) \x7b  \x7d" := by
  refine ⟨⟨⟨by decide +kernel, fun written none => ?_⟩, fun e none => ?_, trivial⟩, by decide +kernel, _, rfl, rfl⟩
  · cases none
  · cases none

end Builder

end GraphQuery
