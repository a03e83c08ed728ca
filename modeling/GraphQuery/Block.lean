import GraphQuery.Order
import GraphQuery.Path
import GraphQuery.Selection

/-!
# Blocks

One block of a query: its name, the function it starts from, its clauses and what it
selects. The blocks nested in it are not held by it: they are found under its key.
-/

namespace GraphQuery

/-! ## Facets -/

/-- A request for facets of an edge: all of them, one key, or a filter on them. -/
inductive Facet where
  | all
  | key (name : String)
  | filter (e : Expr)
  deriving Inhabited

namespace Facet

def same : Facet → Facet → Bool
  | .all, .all => true
  | .key s, .key t => s == t
  | .filter e, .filter f => e == f
  | _, _ => false

instance : BEq Facet := ⟨same⟩

def isAll : Facet → Bool
  | .all => true
  | _ => false

def key? : Facet → Option String
  | .key name => some (Predicate.escape name)
  | _ => none

def filter? : Facet → Option Expr
  | .filter e => some e
  | _ => none

end Facet

/-! ## The block -/

/-- What a block asks for, and the key of the blocks nested in it. -/
structure Body where
  selection : Selection := {}
  key : String := ""
  deriving Inhabited

instance : BEq Body := ⟨fun a b => a.selection == b.selection && a.key == b.key⟩

/-- A block. An absent cascade is none, an empty one is over all fields. -/
structure Block where
  path : String := ""
  «alias» : String := ""
  rootFilter : Option Expr := none
  filters : List Expr := []
  cursor : Cursor := {}
  orders : List OrderBy := []
  groups : List String := []
  facets : List Facet := []
  cascade : Option (List String) := none
  isRoot : Bool := false
  isVariable : Bool := false
  body : Body := {}
  deriving Inhabited

namespace Block

def same (a b : Block) : Bool :=
  a.path == b.path && a.alias == b.alias && a.rootFilter == b.rootFilter && a.filters == b.filters &&
    a.cursor == b.cursor && a.orders == b.orders && a.groups == b.groups && a.facets == b.facets &&
    a.cascade == b.cascade && a.isRoot == b.isRoot && a.isVariable == b.isVariable && a.body == b.body

instance : BEq Block := ⟨same⟩

/-- A block at the top of a query. -/
def root (name : String) (e : Expr) : Block := { path := name, rootFilter := some e, isRoot := true }

/-- A nested block, whose own nested blocks are found under its path. -/
def nested (path : String) : Block := { path := path, body := { key := path } }

/-- The name of a block inside the block around it. -/
def name (b : Block) : String := Path.lastName b.path

/-! ## Clauses -/

/-- The name under which a block is written; a block that only sets variables has none of its own. -/
def blockName (b : Block) : Compiled String :=
  if b.isVariable then .ok "var"
  else
    let written := Predicate.escape b.name
    if written.isEmpty then .error (.emptyBlockName b.path) else .ok written

/-- The name of a block, with the variable that it sets before it. -/
def label (b : Block) : Compiled Fragment := do
  let name ← b.blockName
  let var := Predicate.name b.alias
  return .text (if var.isEmpty then name else var ++ " as " ++ name)

/-- The function that a block at the top starts from. -/
def rootClause (b : Block) : Compiled (List Fragment) :=
  if b.isRoot then
    match b.rootFilter with
    | some e => do return [(← e.compile).wrap "func: " ""]
    | none => .error (.noRootFunction b.path)
  else .ok []

/-- The root function, the pagination and the orders between round brackets. -/
def parameters (b : Block) : Compiled Fragment := do
  let root ← b.rootClause
  let orders ← b.orders.mapM OrderBy.compile
  let cursor := if b.cursor.isWanted then [b.cursor.compile] else []
  return (Fragment.join "," (root ++ cursor ++ orders)).wrap "(" ")"

/-- The facets: all of them, the keys together, each filter on its own. -/
def facetsClause (b : Block) : Compiled Fragment := do
  let all := if b.facets.any (·.isAll) then [Fragment.text "@facets"] else []
  let names := (b.facets.filterMap (·.key?)).filter (!·.isEmpty)
  let keys := if names.isEmpty then [] else [Fragment.text ("@facets(" ++ String.intercalate "," names ++ ")")]
  let filters ← (b.facets.filterMap (·.filter?)).mapM (Expr.compileFilter "@facets")
  return .join " " (all ++ keys ++ filters.map (.wrap "@facets(" ")"))

/-- The filters, which must all hold. -/
def filterClause (b : Block) : Compiled Fragment := do
  let filters ← b.filters.mapM (Expr.compileFilter "@filter")
  return (Fragment.join Expr.conjunction filters).wrap "@filter(" ")"

/-- The predicates that answers are grouped by. -/
def groupClause (b : Block) : Fragment :=
  let names := (b.groups.map Predicate.escape).filter (!·.isEmpty)
  if names.isEmpty then ∅ else .text ("@groupby(" ++ String.intercalate "," names ++ ")")

/-- The fields without which a node is left out. -/
def cascadeClause (b : Block) : Fragment :=
  match b.cascade with
  | none => ∅
  | some [] => .text "@cascade"
  | some fields => .text ("@cascade(" ++ String.intercalate "," (fields.map Predicate.escape) ++ ")")

/-- The clauses after the parameters. -/
def directives (b : Block) : Compiled Fragment := do
  let facets ← b.facetsClause
  let filter ← b.filterClause
  return (Fragment.join " " [facets, filter, b.groupClause, b.cascadeClause]).wrap " " ""

/-- All that stands before the body of a block. -/
def head (b : Block) : Compiled Fragment := do
  let label ← b.label
  let parameters ← b.parameters
  let directives ← b.directives
  return label ++ parameters ++ directives

end Block

end GraphQuery
