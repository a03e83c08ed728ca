import GraphQuery.BlockTree

/-!
# Builders

A block at the top of a query under construction: the block itself, a registry of the
blocks nested in it, and other blocks attached to it because they set variables that it
uses. While a nested block is configured it is a builder of its own, whose paths are
relative to it.
-/

namespace GraphQuery

/-- A block under construction with its nested blocks and attached blocks. -/
structure Builder where
  root : Block
  children : Registry
  attached : List Builder

/-- What is applied to a nested block when it is added. -/
inductive Part where
  | fields (selection : Selection)
  | filter (e : Expr)
  | paginate (cursor : Cursor)
  | order (o : OrderBy)
  | facet (f : Facet)
  | groupBy (predicate : String)
  | cascade (fields : List String)
  deriving Inhabited

namespace Builder

/-! ## Starting -/

def ofBlock (b : Block) : Builder := ⟨b, ∅, []⟩

/-- The name of a block that was given none. -/
def defaultName : String := "rootQuery"

/-- A query that starts from a function. -/
def query (e : Expr) : Builder := ofBlock (.root defaultName e)

/-- A query over all nodes of a type. -/
def queryType (name : String) : Builder := query (.ofType name)

/-- A block that only sets variables. -/
def varBlock (e : Expr) : Builder := ofBlock { Block.root "var" e with isVariable := true }

instance : Inhabited Builder := ⟨ofBlock {}⟩

/-! ## The block itself -/

def blockName (q : Builder) : String := q.root.name

def isVariable (q : Builder) : Bool := q.root.isVariable

/-- The path of the block, empty at the top. -/
def base (q : Builder) : String := q.root.body.key

def onRoot (q : Builder) (f : Block → Block) : Builder := { q with root := f q.root }

/-- Renames the block inside the block around it. -/
def name (q : Builder) (n : String) : Builder :=
  let around := Path.parent q.base
  q.onRoot ({ · with path := if around.isEmpty then n else around ++ "->" ++ n })

/-- Binds the nodes of the block to a variable. -/
def as (q : Builder) (var : String) : Builder := q.onRoot ({ · with «alias» := var })

def select (q : Builder) (s : Selection) : Builder :=
  q.onRoot fun b => { b with body := { b.body with selection := s } }

/-- Replaces the selection by the predicates of a text. -/
def fields (q : Builder) (blob : String) : Builder := q.select (.ofBlob blob)

def filter (q : Builder) (e : Expr) : Builder := q.onRoot fun b => { b with filters := b.filters ++ [e] }

def paginate (q : Builder) (c : Cursor) : Builder := q.onRoot ({ · with cursor := c })

/-- Limits the number of answers. -/
def first (q : Builder) (n : Int) : Builder :=
  q.onRoot fun b => { b with cursor := { b.cursor with first := n } }

/-- Leaves answers out at the start. -/
def offset (q : Builder) (n : Nat) : Builder :=
  q.onRoot fun b => { b with cursor := { b.cursor with offset := n } }

/-- Starts the answers after a node. -/
def after (q : Builder) (uid : String) : Builder :=
  q.onRoot fun b => { b with cursor := { b.cursor with after := uid } }

def order (q : Builder) (o : OrderBy) : Builder := q.onRoot fun b => { b with orders := b.orders ++ [o] }

/-- Adds a predicate to group by. -/
def groupBy (q : Builder) (predicate : String) : Builder :=
  q.onRoot fun b => { b with groups := b.groups ++ [predicate] }

def facet (q : Builder) (f : Facet) : Builder := q.onRoot fun b => { b with facets := b.facets ++ [f] }

/-- Leaves out nodes without the given fields, or without any field when none is given. -/
def cascade (q : Builder) (fields : List String) : Builder := q.onRoot ({ · with cascade := some fields })

/-- Attaches a block that sets variables. -/
def attach (q r : Builder) : Builder := { q with attached := q.attached ++ [r] }

/-! ## Nested blocks -/

end Builder

/-- A block with a part applied to it. -/
def Part.apply (b : Block) : Part → Block
  | .fields s => { b with body := { b.body with selection := s } }
  | .filter e => { b with filters := b.filters ++ [e] }
  | .paginate c => { b with cursor := c }
  | .order o => { b with orders := b.orders ++ [o] }
  | .facet f => { b with facets := b.facets ++ [f] }
  | .groupBy p => { b with groups := b.groups ++ [p] }
  | .cascade names => { b with cascade := some names }

namespace Builder

/-- Adds a nested block with parts applied to it. -/
def edgeWith (q : Builder) (path : String) (parts : List Part) : Builder :=
  { q with children := q.children.add (parts.foldl Part.apply (.nested (Path.join q.base path))) }

def edge (q : Builder) (path : String) : Builder := q.edgeWith path []

/-- Takes over the blocks of the builder of a nested block. -/
def merge (q r : Builder) : Builder :=
  ⟨q.root, (q.children.add r.root).merge r.children, q.attached ++ r.attached⟩

/-- The builder of a new nested block. -/
def nestedAt (q : Builder) (path : String) : Builder := ofBlock (.nested (Path.join q.base path))

/-- Adds a nested block configured by a function of its builder. -/
def edgeOf (q : Builder) (path : String) (configure : Builder → Builder) : Builder :=
  q.merge (configure (q.nestedAt path))

/-- A path inside the block at `old`, moved into the block at `full`. -/
def rebase (full old path : String) : String := Path.join full (Path.relativeTo old path)

/-- A block moved along with the block it is nested in. -/
def rebaseBlock (full old : String) (b : Block) : Block :=
  { b with path := rebase full old b.path, body := { b.body with key := rebase full old b.body.key } }

/-- The block of a query as a nested block: its function becomes the first filter. -/
def graftedRoot (full : String) (b : Block) : Block :=
  { b with
    path := full
    body := { b.body with key := full }
    isRoot := false
    isVariable := false
    rootFilter := none
    filters := b.rootFilter.toList ++ b.filters }

/-- A query as the builder of a nested block, with all its nested blocks moved along. -/
def grafted (full : String) (r : Builder) : Builder :=
  ⟨graftedRoot full r.root,
    KeyMap.ofList (r.children.entries.map fun e => (rebase full r.base e.1, e.2.map (rebaseBlock full r.base))),
    r.attached⟩

/-- Adds a query as a nested block. -/
def graft (q : Builder) (path : String) (r : Builder) : Builder :=
  q.merge (r.grafted (Path.join q.base path))

/-! ## Compiling and comparing -/

/-- The fragment of the block and the blocks nested in it. -/
def compile (q : Builder) : Compiled Fragment := q.root.compile q.children

mutual

def same : Builder → Builder → Bool
  | ⟨a, c, vs⟩, ⟨b, d, ws⟩ => a == b && c == d && sameAll vs ws

def sameAll : List Builder → List Builder → Bool
  | [], [] => true
  | v :: vs, w :: ws => same v w && sameAll vs ws
  | _, _ => false

end

instance : BEq Builder := ⟨same⟩

end Builder

end GraphQuery
