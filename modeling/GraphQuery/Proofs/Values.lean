import GraphQuery.BlockTree

/-!
# What is bound and what is written as it is

The values that are bound when an expression or a block is compiled, in the order of
their slots, and the texts that are written into the query without any change. Both are
read off the data, not off the compiled fragment.
-/

namespace GraphQuery

/-! ## Values -/

namespace Value

/-- The values that are bound for a value: a scalar itself, and the items of a list. -/
def scalars : Value → List Value
  | .nilList => []
  | .list items => items.filter (!·.isRaw)
  | .raw _ => []
  | v => [v]

def rawText? : Value → Option String
  | .raw s => some s
  | _ => none

def verbatim : Value → List String
  | .raw s => [s]
  | .list items => items.filterMap rawText?
  | _ => []

end Value

/-! ## Expressions -/

mutual

/-- The values that are bound in an expression. -/
def Expr.values : Expr → List Value
  | .compare _ fields => fields.entries.flatMap (·.2.scalars)
  | .fuzzy fields _ => fields.entries.flatMap (·.2.scalars)
  | .has _ => []
  | .ofType _ => []
  | .between _ low high => low.scalars ++ high.scalars
  | .apply _ operand => Operand.values operand
  | .expand _ => []
  | .raw _ => []
  | .all parts => Expr.valuesAll parts
  | .any parts => Expr.valuesAll parts
  | .not part => Expr.values part

def Operand.values : Operand → List Value
  | .predicate _ => []
  | .value v => v.scalars
  | .nested e => Expr.values e

def Expr.valuesAll : List Expr → List Value
  | [] => []
  | e :: es => Expr.values e ++ Expr.valuesAll es

end

mutual

/-- The raw texts in an expression. -/
def Expr.verbatim : Expr → List String
  | .compare _ fields => fields.entries.flatMap (·.2.verbatim)
  | .fuzzy fields _ => fields.entries.flatMap (·.2.verbatim)
  | .has _ => []
  | .ofType _ => []
  | .between _ low high => low.verbatim ++ high.verbatim
  | .apply _ operand => Operand.verbatim operand
  | .expand _ => []
  | .raw text => [text]
  | .all parts => Expr.verbatimAll parts
  | .any parts => Expr.verbatimAll parts
  | .not part => Expr.verbatim part

def Operand.verbatim : Operand → List String
  | .predicate _ => []
  | .value v => v.verbatim
  | .nested e => Expr.verbatim e

def Expr.verbatimAll : List Expr → List String
  | [] => []
  | e :: es => Expr.verbatim e ++ Expr.verbatimAll es

end

/-! ## Blocks -/

/-- The values of a cursor: those of its fields that ask for something. -/
def Cursor.values (c : Cursor) : List Value :=
  (if c.first = 0 then [] else [.int c.first]) ++
    (if c.offset = 0 then [] else [.uint c.offset]) ++
    (if c.after = "" then [] else [.string c.after])

theorem Cursor.values_of_not_isWanted {c : Cursor} (h : c.isWanted = false) : c.values = [] := by
  simp only [Cursor.isWanted, Bool.or_eq_false_iff, bne_eq_false_iff_eq, Bool.not_eq_false',
    String.isEmpty_iff] at h
  obtain ⟨⟨first, offset⟩, after⟩ := h
  simp [Cursor.values, first, offset, after]

def OrderBy.expr? (o : OrderBy) : Option Expr :=
  match o.key with
  | .predicate _ => none
  | .expr e => some e

namespace SelectionItem

def expr? : SelectionItem → Option Expr
  | .predicate _ => none
  | .computed e => some e
  | .aliased _ e => some e
  | .bound _ e => some e

/-- The text of a predicate, which is held in its written form. -/
def written? : SelectionItem → Option String
  | .predicate written => some written
  | _ => none

end SelectionItem

namespace Selection

def exprs (s : Selection) : List Expr := s.items.filterMap (·.expr?)

/-- The predicates of a selection as they are written. -/
def predicates (s : Selection) : List String := s.items.filterMap (·.written?)

def values (s : Selection) : List Value := s.exprs.flatMap (·.values)

end Selection

namespace Block

/-- The function that a block starts from, if it stands at the top. -/
def rootExprs (b : Block) : List Expr := if b.isRoot then b.rootFilter.toList else []

def orderExprs (b : Block) : List Expr := b.orders.filterMap (·.expr?)

def facetExprs (b : Block) : List Expr := b.facets.filterMap (·.filter?)

/-- The expressions that are written before the body of a block. -/
def headExprs (b : Block) : List Expr := b.rootExprs ++ b.orderExprs ++ b.facetExprs ++ b.filters

/-- The values that are bound before the body of a block: those of the root function, of the
    pagination, of the orders, of the facets and of the filters. -/
def headValues (b : Block) : List Value :=
  b.rootExprs.flatMap (·.values) ++ b.cursor.values ++ b.orderExprs.flatMap (·.values) ++
    b.facetExprs.flatMap (·.values) ++ b.filters.flatMap (·.values)

end Block

/-! ## Trees -/

namespace BlockTree

mutual

/-- The values that are bound in a block and in the blocks nested in it, depth first. -/
def values : BlockTree → List Value
  | .endless _ => []
  | .block b nested => b.headValues ++ b.body.selection.values ++ valuesAll nested

def valuesAll : List BlockTree → List Value
  | [] => []
  | t :: ts => values t ++ valuesAll ts

end

mutual

/-- Whether something holds of every block of a tree. -/
def Every (p : Block → Prop) : BlockTree → Prop
  | .endless _ => True
  | .block b nested => p b ∧ EveryOf p nested

def EveryOf (p : Block → Prop) : List BlockTree → Prop
  | [] => True
  | t :: ts => Every p t ∧ EveryOf p ts

end

theorem valuesAll_eq_flatMap (ts : List BlockTree) : valuesAll ts = ts.flatMap values := by
  induction ts with
  | nil => rfl
  | cons t ts ih => rw [valuesAll, ih, List.flatMap_cons]

theorem everyOf_iff {p : Block → Prop} {ts : List BlockTree} : EveryOf p ts ↔ ∀ t ∈ ts, Every p t := by
  induction ts with
  | nil => simp [EveryOf]
  | cons t ts ih => simp [EveryOf, ih]

mutual

theorem every_of_forall {p : Block → Prop} (h : ∀ b, p b) (t : BlockTree) : t.Every p := by
  cases t with
  | endless key => trivial
  | block b nested => exact ⟨h b, everyOf_of_forall h nested⟩

theorem everyOf_of_forall {p : Block → Prop} (h : ∀ b, p b) (ts : List BlockTree) : EveryOf p ts := by
  cases ts with
  | nil => trivial
  | cons t ts => exact ⟨every_of_forall h t, everyOf_of_forall h ts⟩

end

end BlockTree

end GraphQuery
