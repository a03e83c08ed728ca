import GraphQuery.Proofs.Parts
import GraphQuery.Proofs.Rendering
import GraphQuery.Proofs.Values

/-!
# Rows of words

What a compiled block is written with: the words of the query language, the names that a
caller gave, in their written form, and operands. The row of a block is read off the
block, with the parts left out that nothing is written for. Main statement: the fragment of
a block spells its row.
-/

namespace GraphQuery

open Compiled (map_eq_ok bind_eq_ok pure_eq_ok)

/-! ## Words -/

/-- A word of the query language, a name given by a caller in its written form, or an operand. -/
inductive Word where
  | fixed (s : String)
  | name (written : String)
  | operand (v : Value)

namespace Word

/-- The fragment of a word; that of an operand is what the operand compiles to. -/
def fragment : Word → Fragment
  | .fixed s => .text s
  | .name written => .text written
  | .operand v => v.compile.toOption.getD ∅

theorem fragment_fixed (s : String) : (fixed s).fragment = .text s := rfl

theorem fragment_name (written : String) : (name written).fragment = .text written := rfl

theorem fragment_operand {v : Value} {f : Fragment} (h : v.compile = .ok f) : (operand v).fragment = f := by
  rw [fragment, h]
  rfl

def name? : Word → Option String
  | .name written => some written
  | _ => none

end Word

abbrev Row := List Word

namespace Row

/-- The fragment of the words of a row, one after the other. -/
def spell : Row → Fragment
  | [] => ∅
  | w :: ws => w.fragment ++ spell ws

/-- The names in a row. -/
def names (r : Row) : List String := r.filterMap Word.name?

/-- Whether nothing is written for a row. -/
def isBlank (r : Row) : Bool := (spell r).isEmpty

/-- Rows with a word between each two. -/
def separated (sep : String) : List Row → Row
  | [] => []
  | [r] => r
  | r :: s :: rs => r ++ .fixed sep :: separated sep (s :: rs)

/-- The rows that something is written for, with a word between each two. -/
def join (sep : String) (rs : List Row) : Row := separated sep (rs.filter (!isBlank ·))

/-- A row between two others, unless nothing is written for it. -/
def wrap (before after r : Row) : Row := if isBlank r then [] else before ++ r ++ after

/-- A list of names between brackets. -/
def listing (opening : String) (written : List String) : Row :=
  .fixed opening :: separated "," (written.map fun s => [.name s]) ++ [.fixed ")"]

/-! ## Spelling -/

theorem spell_append (r s : Row) : spell (r ++ s) = spell r ++ spell s := by
  induction r with
  | nil => exact (Fragment.empty_append _).symm
  | cons w ws ih => rw [List.cons_append, spell, spell, ih, Fragment.append_assoc]

theorem spell_singleton (w : Word) : spell [w] = w.fragment := Fragment.append_empty _

theorem spell_separated (sep : String) (rs : List Row) :
    spell (separated sep rs) = .separated sep (rs.map spell) := by
  induction rs with
  | nil => rfl
  | cons r rs ih =>
    cases rs with
    | nil => rfl
    | cons s rs =>
      have step : spell (separated sep (r :: s :: rs)) =
          spell r ++ (.text sep ++ .separated sep ((s :: rs).map spell)) := by
        rw [separated, spell_append, spell, ih, Word.fragment_fixed]
      rw [step, ← Fragment.append_assoc]
      rfl

theorem spell_join (sep : String) (rs : List Row) : spell (join sep rs) = .join sep (rs.map spell) := by
  rw [join, spell_separated, Fragment.join, List.filter_map]
  rfl

theorem spell_wrap {before after : Row} {s t : String} (first : spell before = .text s) (last : spell after = .text t)
    (r : Row) : spell (wrap before after r) = (spell r).wrap s t := by
  unfold wrap Fragment.wrap
  by_cases blank : (spell r).isEmpty = true
  · rw [isBlank, if_pos blank, if_pos blank, Fragment.eq_empty_of_isEmpty blank]
    rfl
  · rw [isBlank, if_neg blank, if_neg blank, spell_append, spell_append, first, last]

theorem separated_text (sep : String) (written : List String) :
    Fragment.separated sep (written.map .text) = .text (String.intercalate sep written) := by
  induction written with
  | nil => simp [Fragment.separated, EmptyCollection.emptyCollection, Fragment.empty, Fragment.text]
  | cons s rest ih =>
    cases rest with
    | nil => simp [Fragment.separated]
    | cons t rest =>
      rw [String.intercalate_cons_cons, Fragment.text_append, Fragment.text_append, ← ih]
      rfl

theorem spell_listing (opening : String) (written : List String) :
    spell (listing opening written) = .text (opening ++ String.intercalate "," written ++ ")") := by
  have single : spell ∘ (fun s => [Word.name s]) = .text := funext fun s => spell_singleton _
  rw [listing, List.cons_append, spell, spell_append, spell_separated, List.map_map, single, separated_text,
    spell_singleton, Word.fragment_fixed, Word.fragment_fixed, Fragment.text_append, Fragment.text_append,
    Fragment.append_assoc]

/-- When each item of a list spells its row, the items joined spell the rows joined. -/
theorem map_spell_of_mapM {α : Type} {f : α → Compiled Fragment} {xs : List α} {fs : List Fragment}
    (run : xs.mapM f = .ok fs) {row : α → Row} (each : ∀ x ∈ xs, ∀ g, f x = .ok g → g = spell (row x)) :
    fs = (xs.map row).map spell := by
  have pairs := Compiled.forall₂_of_mapM run each
  clear run each
  induction pairs with
  | nil => rfl
  | cons first _ ih => rw [first, ih, List.map_cons, List.map_cons]

end Row

open Row (spell spell_append spell_singleton spell_join spell_wrap spell_listing map_spell_of_mapM)

/-! ## Expressions -/

namespace Expr

/-- A call with a name alone. -/
def namedRow (function written : String) : Row := [.fixed (function ++ "("), .name written, .fixed ")"]

/-- The row of a call with a field and its value. -/
def callRow (function rest : String) (field : String × Value) : Row :=
  [.fixed (function ++ "("), .name (Predicate.escape field.1), .fixed ",", .operand field.2, .fixed (rest ++ ")")]

def fieldsRow (function rest : String) (fields : KeyMap Value) : Row :=
  .join conjunction (fields.entries.map (callRow function rest))

def connectRow (mark : String) (parts : List Row) : Row := .wrap [.fixed "("] [.fixed ")"] (.join mark parts)

end Expr

mutual

def Expr.row : Expr → Row
  | .compare op fields => Expr.fieldsRow op.name "" fields
  | .fuzzy fields distance => Expr.fieldsRow "match" ("," ++ toString distance) fields
  | .has predicates => .join Expr.conjunction (predicates.keys.map fun p => Expr.namedRow "has" (Predicate.escape p))
  | .ofType name => Expr.namedRow "type" (Predicate.name name)
  | .between predicate low high =>
    [.fixed "between(", .name (Predicate.escape predicate), .fixed ",", .operand low, .fixed ",", .operand high,
      .fixed ")"]
  | .apply f operand => .wrap [.fixed (f.name ++ "(")] [.fixed ")"] (Operand.row operand)
  | .expand name => Expr.namedRow "expand" (Predicate.name name)
  | .raw text => [.fixed text]
  | .all parts => Expr.connectRow Expr.conjunction (Expr.rows parts)
  | .any parts => Expr.connectRow Expr.disjunction (Expr.rows parts)
  | .not part => .wrap [.fixed "NOT "] [] (Expr.row part)

def Operand.row : Operand → Row
  | .predicate name => [.name (Predicate.escape name)]
  | .value v => [.operand v]
  | .nested e => Expr.row e

def Expr.rows : List Expr → List Row
  | [] => []
  | e :: es => Expr.row e :: Expr.rows es

end

namespace Expr

theorem spell_namedRow (function written : String) :
    spell (namedRow function written) = .text (function ++ "(" ++ written ++ ")") := by
  simp only [namedRow, spell, Word.fragment_fixed, Word.fragment_name, Fragment.text_append, Fragment.append_assoc,
    Fragment.append_empty]

theorem eq_spell_callRow {function rest : String} {field : String × Value} {f : Fragment}
    (h : compileCall function rest field = .ok f) : f = spell (callRow function rest field) := by
  obtain ⟨_, value, bound, rfl⟩ := compileCall_eq_ok.1 h
  simp only [callRow, spell, Word.fragment_fixed, Word.fragment_name, Word.fragment_operand bound, Fragment.text_append,
    Fragment.append_assoc, Fragment.append_empty]

theorem eq_spell_fieldsRow {function rest : String} {fields : KeyMap Value} {f : Fragment}
    (h : compileFields function rest fields = .ok f) : f = spell (fieldsRow function rest fields) := by
  obtain ⟨calls, run, rfl⟩ := compileFields_eq_ok.1 h
  rw [fieldsRow, spell_join, map_spell_of_mapM run fun _ _ _ => eq_spell_callRow]

theorem spell_connectRow (mark : String) (parts : List Row) :
    spell (connectRow mark parts) = connect mark (parts.map spell) := by
  rw [connectRow, spell_wrap (spell_singleton _) (spell_singleton _), spell_join, connect]

mutual

theorem eq_spell_row {e : Expr} {f : Fragment} (h : e.compile = .ok f) : f = spell e.row := by
  cases e with
  | compare op fields => exact eq_spell_fieldsRow h
  | fuzzy fields distance => exact eq_spell_fieldsRow h
  | has predicates =>
    obtain ⟨calls, run, rfl⟩ := compileHas_eq_ok.1 h
    rw [row, spell_join, map_spell_of_mapM run fun p _ g compiled => ?_]
    obtain ⟨_, rfl⟩ := compileHasOne_eq_ok.1 compiled
    exact (spell_namedRow "has" _).symm
  | ofType name =>
    cases h
    exact (spell_namedRow "type" _).symm
  | between predicate low high =>
    obtain ⟨_, l, u, lowest, highest, rfl⟩ := compileBetween_eq_ok.1 h
    simp only [row, spell, Word.fragment_fixed, Word.fragment_name, Word.fragment_operand lowest,
      Word.fragment_operand highest, Fragment.text_append, Fragment.append_assoc, Fragment.append_empty]
  | apply function operand =>
    obtain ⟨g, compiled, rfl⟩ := map_eq_ok.1 h
    rw [row, spell_wrap (spell_singleton _) (spell_singleton _), eq_spell_operandRow compiled]
  | expand name =>
    cases h
    exact (spell_namedRow "expand" _).symm
  | raw text =>
    cases h
    rw [row, spell_singleton, Word.fragment_fixed]
  | all parts =>
    obtain ⟨fs, compiled, rfl⟩ := map_eq_ok.1 h
    rw [row, spell_connectRow, eq_spell_rows compiled]
  | any parts =>
    obtain ⟨fs, compiled, rfl⟩ := map_eq_ok.1 h
    rw [row, spell_connectRow, eq_spell_rows compiled]
  | not part =>
    obtain ⟨g, compiled, rfl⟩ := map_eq_ok.1 h
    rw [row, spell_wrap (spell_singleton _) rfl, ← eq_spell_row compiled]

theorem eq_spell_operandRow {operand : Operand} {f : Fragment} (h : compileOperand operand = .ok f) :
    f = spell operand.row := by
  cases operand with
  | predicate name =>
    cases h
    rw [Operand.row, spell_singleton, Word.fragment_name]
  | value v =>
    rw [Operand.row, spell_singleton]
    exact (Word.fragment_operand h).symm
  | nested e =>
    have inner := eq_spell_row h
    exact inner

theorem eq_spell_rows {es : List Expr} {fs : List Fragment} (h : compileAll es = .ok fs) :
    fs = (rows es).map spell := by
  cases es with
  | nil =>
    cases h
    rfl
  | cons e es =>
    obtain ⟨f, first, rest⟩ := bind_eq_ok.1 h
    obtain ⟨gs, compiled, same⟩ := bind_eq_ok.1 rest
    rw [pure_eq_ok.1 same, rows, List.map_cons, ← eq_spell_row first, ← eq_spell_rows compiled]

end

end Expr

/-! ## Blocks -/

theorem spell_filters {clause : String} {es : List Expr} {fs : List Fragment}
    (run : es.mapM (Expr.compileFilter clause) = .ok fs) : fs = (es.map Expr.row).map spell :=
  map_spell_of_mapM run fun _ _ _ compiled => Expr.eq_spell_row (Expr.compileFilter_eq_ok.1 compiled).2

def OrderKey.row : OrderKey → Row
  | .predicate name => [.name (Predicate.escape name)]
  | .expr e => e.row

namespace OrderBy

def row (o : OrderBy) : Row := .wrap [.fixed (o.direction.keyword ++ ": ")] [] o.key.row

theorem eq_spell_row {o : OrderBy} {f : Fragment} (h : o.compile = .ok f) : f = spell o.row := by
  obtain ⟨key, compiled, rfl⟩ := compile_eq_ok.1 h
  have named : key = spell o.key.row := by
    cases by_ : o.key with
    | predicate name =>
      rw [by_, compileKey] at compiled
      obtain ⟨written, required, rfl⟩ := map_eq_ok.1 compiled
      obtain ⟨rfl, _⟩ := requirePredicate_eq_ok.1 required
      rw [OrderKey.row, spell_singleton, Word.fragment_name]
    | expr e =>
      rw [by_, compileKey] at compiled
      split at compiled
      · exact Expr.eq_spell_row compiled
      · cases compiled
  rw [row, spell_wrap (spell_singleton _) rfl, ← named]

end OrderBy

namespace Cursor

def clauseRow (wanted : Bool) (keyword : String) (v : Value) : List Row :=
  if wanted then [[.fixed (keyword ++ ":"), .operand v]] else []

def row (c : Cursor) : Row :=
  .join "," (clauseRow (c.first != 0) "first" (.int c.first) ++
    clauseRow (c.offset != 0) "offset" (.uint c.offset) ++
    clauseRow (!c.after.isEmpty) "after" (.string c.after))

theorem spell_clauseRow (wanted : Bool) (keyword : String) {v : Value} (bound : v.compile = .ok (.slot v)) :
    (clauseRow wanted keyword v).map spell = clause wanted keyword v := by
  cases wanted with
  | false => rfl
  | true => simp [clauseRow, clause, spell, Word.fragment_fixed, Word.fragment_operand bound, Fragment.append_empty]

theorem spell_row (c : Cursor) : spell c.row = c.compile := by
  rw [row, spell_join, List.map_append, List.map_append, spell_clauseRow _ _ rfl, spell_clauseRow _ _ rfl,
    spell_clauseRow _ _ rfl, compile]

end Cursor

namespace Block

def labelRow (b : Block) : Row :=
  (if (Predicate.name b.alias).isEmpty then [] else [.name (Predicate.name b.alias), .fixed " as "]) ++
    [if b.isVariable then .fixed "var" else .name (Predicate.escape b.name)]

def parametersRow (b : Block) : Row :=
  .wrap [.fixed "("] [.fixed ")"] (.join "," (b.rootExprs.map (fun e => .wrap [.fixed "func: "] [] e.row) ++
    (if b.cursor.isWanted then [b.cursor.row] else []) ++ b.orders.map OrderBy.row))

def facetsRow (b : Block) : Row :=
  .join " " ((if b.facets.any (·.isAll) then [[.fixed "@facets"]] else []) ++
    (if b.facetKeys.isEmpty then [] else [Row.listing "@facets(" b.facetKeys]) ++
    b.facetExprs.map fun e => Row.wrap [.fixed "@facets("] [.fixed ")"] e.row)

def filterRow (b : Block) : Row :=
  .wrap [.fixed "@filter("] [.fixed ")"] (.join Expr.conjunction (b.filters.map Expr.row))

/-- The written predicates that answers are grouped by. -/
def groupKeys (b : Block) : List String := (b.groups.map Predicate.escape).filter (!·.isEmpty)

def groupRow (b : Block) : Row := if b.groupKeys.isEmpty then [] else .listing "@groupby(" b.groupKeys

def cascadeRow (b : Block) : Row :=
  match b.cascade with
  | none => []
  | some [] => [.fixed "@cascade"]
  | some fields => .listing "@cascade(" (fields.map Predicate.escape)

def directivesRow (b : Block) : Row :=
  .wrap [.fixed " "] [] (.join " " [b.facetsRow, b.filterRow, b.groupRow, b.cascadeRow])

def headRow (b : Block) : Row := b.labelRow ++ b.parametersRow ++ b.directivesRow

variable {b : Block} {f : Fragment}

theorem eq_spell_labelRow (h : b.label = .ok f) : f = spell b.labelRow := by
  obtain ⟨name, named, rfl⟩ := label_eq_ok.1 h
  have last : spell [if b.isVariable then .fixed "var" else .name (Predicate.escape b.name)] = .text name := by
    rw [blockName_eq_ok] at named
    rw [spell_singleton]
    cases unnamed : b.isVariable with
    | true =>
      rw [unnamed] at named
      exact (congrArg Fragment.text named).symm
    | false =>
      rw [unnamed] at named
      exact (congrArg Fragment.text named.1).symm
  rw [labelRow, spell_append, last, labelText]
  split
  · exact (Fragment.empty_append _).symm
  · simp only [spell, Word.fragment_fixed, Word.fragment_name, Fragment.text_append, Fragment.append_empty]

theorem eq_spell_parametersRow (h : b.parameters = .ok f) : f = spell b.parametersRow := by
  obtain ⟨root, orders, started, ordered, rfl⟩ := parameters_eq_ok.1 h
  have start : root = (b.rootExprs.map fun e => Row.wrap [.fixed "func: "] [] e.row).map spell := by
    rcases rootClause_eq_ok.1 started with ⟨nested, rfl⟩ | ⟨top, e, g, present, compiled, rfl⟩
    · simp [rootExprs, nested]
    · have wrapped : spell (Row.wrap [.fixed "func: "] [] e.row) = g.wrap "func: " "" := by
        rw [spell_wrap (spell_singleton _) rfl, ← Expr.eq_spell_row compiled]
      simp [rootExprs, top, present, wrapped]
  have cursor : (if b.cursor.isWanted then [b.cursor.compile] else []) =
      (if b.cursor.isWanted then [b.cursor.row] else []).map spell := by
    split
    · rw [List.map_singleton, Cursor.spell_row]
    · rfl
  rw [parametersRow, spell_wrap (spell_singleton _) (spell_singleton _), spell_join, List.map_append, List.map_append,
    ← start, ← cursor, ← map_spell_of_mapM ordered fun _ _ _ => OrderBy.eq_spell_row]

theorem eq_spell_facetsRow (h : b.facetsClause = .ok f) : f = spell b.facetsRow := by
  obtain ⟨filters, run, rfl⟩ := facetsClause_eq_ok.1 h
  have all : b.allFacets = (if b.facets.any (·.isAll) then [[Word.fixed "@facets"]] else []).map spell := by
    unfold allFacets
    split <;> rfl
  have keys : b.keyFacets = (if b.facetKeys.isEmpty then [] else [Row.listing "@facets(" b.facetKeys]).map spell := by
    unfold keyFacets
    split
    · rfl
    · rw [List.map_singleton, spell_listing]
  have wrapped : filters.map (.wrap "@facets(" ")") =
      (b.facetExprs.map fun e => Row.wrap [.fixed "@facets("] [.fixed ")"] e.row).map spell := by
    rw [spell_filters run, List.map_map, List.map_map, List.map_map]
    exact List.map_congr_left fun e _ => (spell_wrap (spell_singleton _) (spell_singleton _) e.row).symm
  rw [facetsRow, spell_join, List.map_append, List.map_append, ← all, ← keys, ← wrapped]

theorem eq_spell_filterRow (h : b.filterClause = .ok f) : f = spell b.filterRow := by
  obtain ⟨filters, run, rfl⟩ := filterClause_eq_ok.1 h
  rw [filterRow, spell_wrap (spell_singleton _) (spell_singleton _), spell_join, spell_filters run]

theorem spell_groupRow (b : Block) : spell b.groupRow = b.groupClause := by
  unfold groupRow groupClause
  change spell (if b.groupKeys.isEmpty then _ else _) = if b.groupKeys.isEmpty then _ else _
  split
  · rfl
  · exact spell_listing _ _

theorem spell_cascadeRow (b : Block) : spell b.cascadeRow = b.cascadeClause := by
  unfold cascadeRow cascadeClause
  cases b.cascade with
  | none => rfl
  | some fields =>
    cases fields with
    | nil => exact spell_singleton _
    | cons field fields => exact spell_listing _ _

theorem eq_spell_headRow (h : b.head = .ok f) : f = spell b.headRow := by
  obtain ⟨label, parameters, directives, named, asked, directed, rfl⟩ := head_eq_ok.1 h
  obtain ⟨facets, filter, chosen, filtered, rfl⟩ := directives_eq_ok.1 directed
  rw [headRow, spell_append, spell_append, ← eq_spell_labelRow named, ← eq_spell_parametersRow asked, directivesRow,
    spell_wrap (spell_singleton _) rfl, spell_join]
  simp only [List.map_cons, List.map_nil, ← eq_spell_facetsRow chosen, ← eq_spell_filterRow filtered, spell_groupRow,
    spell_cascadeRow]

end Block

/-! ## Selections and trees -/

def SelectionItem.row : SelectionItem → Row
  | .predicate written => [.name written]
  | .computed e => e.row
  | .aliased name e => .wrap [.name (Predicate.name name), .fixed " : "] [] e.row
  | .bound var e => .wrap [.name (Predicate.name var), .fixed " as "] [] e.row

theorem SelectionItem.eq_spell_row {item : SelectionItem} {f : Fragment} (h : item.compile = .ok f) :
    f = spell item.row := by
  have marked (name mark : String) : spell [.name name, .fixed mark] = .text (name ++ mark) := by
    simp only [spell, Word.fragment_fixed, Word.fragment_name, Fragment.text_append, Fragment.append_empty]
  cases item with
  | predicate written =>
    cases h
    rw [row, spell_singleton, Word.fragment_name]
  | computed e => exact Expr.eq_spell_row h
  | aliased name e =>
    obtain ⟨g, compiled, rfl⟩ := map_eq_ok.1 h
    rw [row, spell_wrap (marked _ _) rfl, ← Expr.eq_spell_row compiled]
  | bound var e =>
    obtain ⟨g, compiled, rfl⟩ := map_eq_ok.1 h
    rw [row, spell_wrap (marked _ _) rfl, ← Expr.eq_spell_row compiled]

namespace Selection

def row (s : Selection) : Row := .join " " (s.items.map SelectionItem.row)

theorem eq_spell_row {s : Selection} {f : Fragment} (h : s.compile = .ok f) : f = spell s.row := by
  obtain ⟨parts, run, rfl⟩ := compile_eq_ok.1 h
  rw [row, spell_join, map_spell_of_mapM run fun _ _ _ => SelectionItem.eq_spell_row]

end Selection

namespace BlockTree

mutual

/-- The row of a block and of the blocks nested in it. -/
def row : BlockTree → Row
  | .endless _ => []
  | .block b nested =>
    b.headRow ++ [.fixed " \x7b "] ++ .join " " [b.body.selection.row, .join " " (rows nested)] ++ [.fixed " \x7d"]

def rows : List BlockTree → List Row
  | [] => []
  | t :: ts => row t :: rows ts

end

mutual

/-- The fragment of a block spells its row. -/
theorem eq_spell_row {t : BlockTree} {f : Fragment} (h : t.compile = .ok f) : f = spell t.row := by
  cases t with
  | endless key => cases h
  | block b nested =>
    obtain ⟨head, selection, fs, headed, selected, inner, rfl⟩ := Block.compileWith_eq_ok.1 h
    rw [row, spell_append, spell_append, spell_append, spell_join, ← Block.eq_spell_headRow headed]
    simp only [List.map_cons, List.map_nil, spell_join, ← Selection.eq_spell_row selected, ← eq_spell_rows inner,
      spell_singleton, Word.fragment_fixed]
    rfl

theorem eq_spell_rows {ts : List BlockTree} {fs : List Fragment} (h : compileAll ts = .ok fs) :
    fs = (rows ts).map spell := by
  cases ts with
  | nil =>
    cases h
    rfl
  | cons t ts =>
    obtain ⟨f, first, rest⟩ := bind_eq_ok.1 h
    obtain ⟨gs, compiled, same⟩ := bind_eq_ok.1 rest
    rw [pure_eq_ok.1 same, rows, List.map_cons, ← eq_spell_row first, ← eq_spell_rows compiled]

end

end BlockTree

end GraphQuery
