import GraphQuery.Request

/-!
# Mutations

Data to set and to delete, held as JSON text, with an optional query that is run first
and a condition on what it finds. The values of a condition are written into it as
literals.
-/

namespace GraphQuery

/-! ## Data -/

/-- The data of a mutation: a JSON value, a record with its fields in order, a list, or data that
    has no JSON text. -/
inductive Payload where
  | value (v : Json)
  | record (fields : List (String × Payload))
  | list (items : List Payload)
  | failing (cause : PayloadError)

namespace Payload

instance : Inhabited Payload := ⟨.value .null⟩

mutual

def text : Payload → Except PayloadError String
  | .value v => .ok v.text
  | .record fields => do return "\x7b" ++ String.intercalate "," (← fieldTexts fields) ++ "\x7d"
  | .list items => do return "[" ++ String.intercalate "," (← itemTexts items) ++ "]"
  | .failing cause => .error cause

def itemTexts : List Payload → Except PayloadError (List String)
  | [] => .ok []
  | p :: ps => do
    let t ← text p
    let ts ← itemTexts ps
    return t :: ts

def fieldTexts : List (String × Payload) → Except PayloadError (List String)
  | [] => .ok []
  | (k, p) :: fs => do
    let t ← text p
    let ts ← fieldTexts fs
    return (Json.quoted k ++ ":" ++ t) :: ts

end

/-- The JSON text of the data of a mutation. -/
def compile (p : Payload) : Compiled String := p.text.mapError .payload

end Payload

/-! ## Conditions -/

namespace Condition

/-- The filters of a condition, which must all hold. -/
def body (filters : List Expr) : Compiled Fragment :=
  (filters.mapM (Expr.compileFilter "@if")).map (.join Expr.conjunction)

/-- The clause of a condition; no filter, or only empty ones, make no clause. -/
def compile (filters : List Expr) : Compiled String :=
  (body filters).map fun f => if f.isEmpty then "" else "@if(" ++ f.inlined ++ ") "

end Condition

/-! ## Mutations -/

/-- A mutation under construction. -/
structure Mutation where
  set : Option String := none
  delete : Option String := none
  conditions : List Expr := []
  query : Option Builder := none
  deriving Inhabited

/-- One thing added to a mutation. -/
inductive Mutation.Step where
  | set (data : Payload)
  | delete (data : Payload)
  | condition (e : Expr)
  | query (q : Builder)
  deriving Inhabited

/-- A mutation ready to be sent. -/
structure CompiledMutation where
  query : Option CompiledQuery
  condition : Option String
  setJson : Option String
  deleteJson : Option String

namespace Mutation

/-- A mutation with one more thing added. Data, and a query, replace what was there. -/
def add (m : Mutation) : Step → Compiled Mutation
  | .set data => data.compile.map ({ m with set := some · })
  | .delete data => data.compile.map ({ m with delete := some · })
  | .condition e => .ok { m with conditions := m.conditions ++ [e] }
  | .query q => .ok { m with query := some q }

/-- The mutation of several things, up to the first data without a JSON text. -/
def ofSteps (steps : List Step) : Compiled Mutation := steps.foldlM add {}

/-- Compiles the query of a mutation and then its condition. -/
def compile (m : Mutation) : Compiled CompiledMutation := do
  let query ← m.query.mapM fun q => Request.compile [q]
  let condition ← Condition.compile m.conditions
  return ⟨query, if condition.isEmpty then none else some condition, m.set, m.delete⟩

end Mutation

/-- A mutation as a JSON object. -/
def CompiledMutation.toJson (m : CompiledMutation) : Json :=
  .object [("query", (m.query.map (·.toJson)).getD .null), ("condition", .ofText? m.condition),
    ("set_json", .ofText? m.setJson), ("delete_json", .ofText? m.deleteJson)]

end GraphQuery
