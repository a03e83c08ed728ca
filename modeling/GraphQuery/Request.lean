import GraphQuery.Builder
import GraphQuery.Json
import GraphQuery.Text.Alphanumeric
import GraphQuery.Text.Case

/-!
# Requests

Several builders compiled into one query with typed variables. Blocks that set
variables and attached blocks come first, each once and after those it depends on; a
block whose name is taken is renamed after its place in the list.
-/

namespace GraphQuery

/-- The text of a query, its variables, and their declarations in the order of the slots. -/
structure CompiledQuery where
  text : String := ""
  «variables» : KeyMap String := ∅
  declarations : List String := []

namespace Request

/-! ## Attached blocks -/

/-- A list of builders with one more at its end, unless it has an equal one. -/
def keep (blocks : List Builder) (q : Builder) : List Builder :=
  if blocks.any (· == q) then blocks else blocks ++ [q]

mutual

/-- The blocks already found, and after them the blocks attached to a builder, those that they
    depend on first. -/
def collect (found : List Builder) : Builder → List Builder
  | ⟨_, _, attached⟩ => collectAll found attached

/-- The blocks already found, and after them attached builders and what they depend on. -/
def collectAll (found : List Builder) : List Builder → List Builder
  | [] => found
  | q :: qs => collectAll (keep (collect found q) q) qs

end

/-- The blocks that come first: all attached blocks, and the builders that only set variables. -/
def leading (builders : List Builder) : List Builder :=
  builders.foldl
    (fun found q =>
      let found := collect found q
      if q.isVariable then keep found q else found)
    []

/-! ## Operations -/

/-- The name of a block whose own name is taken. -/
def freshName (name : String) (index : Nat) : String := name ++ "_" ++ toString index

/-- The builders that are no leading blocks, from a place in the list on, each under a name that
    was not used before. -/
def operationsFrom (leading : List Builder) : (index : Nat) → (used : List String) → List Builder → List Builder
  | _, _, [] => []
  | index, used, q :: qs =>
    if q.isVariable || leading.any (· == q) then operationsFrom leading (index + 1) used qs
    else if used.contains q.blockName then
      let fresh := freshName q.blockName index
      q.name fresh :: operationsFrom leading (index + 1) (fresh :: used) qs
    else q :: operationsFrom leading (index + 1) (q.blockName :: used) qs

/-- The names that leading blocks take. -/
def reserved (leading : List Builder) : List String :=
  (leading.filter (!·.isVariable)).map (·.blockName)

/-- The builders that answer the request. -/
def operations (builders : List Builder) : List Builder :=
  let first := leading builders
  operationsFrom first 0 (reserved first) builders

/-- The blocks of a request in the order they are written. -/
def blocks (builders : List Builder) : List Builder := leading builders ++ operations builders

/-! ## The name of the request -/

/-- A text in lower case made of word characters alone, with capitals at the starts of words. -/
def capitalized : (atStart : Bool) → List Char → List Char
  | _, [] => []
  | atStart, c :: cs =>
    if Text.isWordChar c then (if atStart then Text.uppercase c else [c]) ++ capitalized false cs
    else capitalized true cs

/-- The name of a block as a part of the name of a request. -/
def title (name : String) : String :=
  String.ofList (capitalized true (name.toList.flatMap Text.lowercase))

/-- The name of a request that has no name from its blocks. -/
def defaultName : String := "Query"

/-- The name of a request. -/
def operationName (operations : List Builder) : String :=
  let name := String.intercalate "_" (operations.map (title ·.blockName))
  if name.isEmpty then defaultName else name

/-! ## Variables -/

/-- The name of the query variable of a slot. -/
def variableName (index : Nat) : String := "$" ++ toString index

/-- The declaration of the query variable of a slot. -/
def declaration (index : Nat) (v : Value) : String := variableName index ++ ":" ++ v.dataType.text

/-- The query around a body. -/
def envelope (name : String) (body : Fragment) : CompiledQuery :=
  let declarations := body.args.mapIdx declaration
  { text := "query " ++ name ++ "(" ++ String.intercalate ", " declarations ++ ") \x7b " ++
      body.render (fun index _ => variableName index) ++ " \x7d"
    «variables» := KeyMap.ofList (body.args.mapIdx fun index v => (variableName index, v.format))
    declarations := declarations }

/-- The fragment of all blocks of a request. -/
def body (builders : List Builder) : Compiled Fragment :=
  ((blocks builders).mapM Builder.compile).map (.join " ")

/-- The query of several builders. -/
def compile (builders : List Builder) : Compiled CompiledQuery :=
  (body builders).map (envelope (operationName (operations builders)))

end Request

/-! ## As JSON -/

namespace CompiledQuery

/-- The variables as a JSON object. -/
def variablesJson (values : KeyMap String) : Json :=
  .object (values.entries.map fun e => (e.1, .string e.2))

/-- A query as a JSON object. -/
def toJson (q : CompiledQuery) : Json :=
  .object [("text", .string q.text), ("variables", variablesJson q.variables),
    ("declarations", .array (q.declarations.map .string))]

end CompiledQuery

end GraphQuery
