import GraphQuery.Client.Config
import GraphQuery.Client.Response
import GraphQuery.Mutation

/-!
# Execution

A client compiles builders and mutations, hands the request to an executor, and keeps
what is needed to read the answer. How a request reaches the database is the
executor's business; a request that cannot be compiled is never sent.
-/

namespace GraphQuery.Client

/-! ## Requests -/

/-- A query to be sent. -/
structure QueryRequest where
  query : String
  «variables» : KeyMap String
  options : Options

namespace QueryRequest

/-- The request of a compiled query. -/
def ofCompiled (q : CompiledQuery) (options : Options) : QueryRequest := ⟨q.text, q.variables, options⟩

/-- A request as a JSON object. -/
def toJson (r : QueryRequest) : Json :=
  .object [("query", .string r.query), ("variables", CompiledQuery.variablesJson r.variables),
    ("options", r.options.toJson)]

end QueryRequest

/-- A mutation to be sent. Without a query, or without a condition, that text is empty. -/
structure MutationRequest where
  query : String
  «variables» : KeyMap String
  condition : String
  setJson : Option String
  deleteJson : Option String
  options : Options

namespace MutationRequest

/-- The request of a compiled mutation. -/
def ofCompiled (m : CompiledMutation) (options : Options) : MutationRequest :=
  let query := m.query.getD {}
  ⟨query.text, query.variables, m.condition.getD "", m.setJson, m.deleteJson, options⟩

/-- Whether a query is run before the mutation. -/
def isUpsert (r : MutationRequest) : Bool := !r.query.isEmpty

/-- A request as a JSON object. -/
def toJson (r : MutationRequest) : Json :=
  .object [("query", .string r.query), ("variables", CompiledQuery.variablesJson r.variables),
    ("condition", .string r.condition), ("set_json", .ofText? r.setJson),
    ("delete_json", .ofText? r.deleteJson), ("options", r.options.toJson)]

end MutationRequest

/-! ## Clients -/

/-- What sends requests to the database, in a monad of its own. A request that is not answered
    has reasons, from the outermost in. -/
structure Executor (m : Type → Type) where
  query : QueryRequest → m (Except (List String) RawResponse)
  mutate : MutationRequest → m (Except (List String) RawResponse)

/-- The name of the block that alone was asked for: that of a single builder with data of its own. -/
def singleBlockName : List Builder → Option String
  | [q] => if q.isVariable then none else some q.blockName
  | _ => none

/-- Runs several builders as one query with given options. -/
def executeWith {m : Type → Type} [Monad m] (executor : Executor m) (builders : List Builder)
    (options : Options) : m (Result QueryResponse) := do
  match Request.compile builders with
  | .error cause => return .error (.compile cause)
  | .ok compiled =>
    match ← executor.query (.ofCompiled compiled options) with
    | .error reasons => return .error (.transport reasons)
    | .ok raw => return .ok ⟨singleBlockName builders, raw⟩

/-- Runs several builders as one query with the configured options. -/
def executeAll {m : Type → Type} [Monad m] (executor : Executor m) (config : Config)
    (builders : List Builder) : m (Result QueryResponse) :=
  executeWith executor builders config.queryOptions

/-- Runs one builder with the configured options. -/
def execute {m : Type → Type} [Monad m] (executor : Executor m) (config : Config) (q : Builder) :
    m (Result QueryResponse) :=
  executeAll executor config [q]

/-- Runs a mutation. -/
def mutate {m : Type → Type} [Monad m] (executor : Executor m) (config : Config) (mutation : Mutation) :
    m (Result MutationResponse) := do
  match mutation.compile with
  | .error cause => return .error (.compile cause)
  | .ok compiled =>
    match ← executor.mutate (.ofCompiled compiled config.mutationOptions) with
    | .error reasons => return .error (.transport reasons)
    | .ok raw => return .ok ⟨raw⟩

end GraphQuery.Client
