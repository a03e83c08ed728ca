import GraphQuery.Expr

/-!
# Selections

What a block asks for of each node: predicates and computed values, in order.
-/

namespace GraphQuery

/-- One thing that is asked for. A predicate is held in its written form. -/
inductive SelectionItem where
  | predicate (written : String)
  | computed (e : Expr)
  | aliased (name : String) (e : Expr)
  | bound (var : String) (e : Expr)
  deriving Inhabited

namespace SelectionItem

/-- The fragment of an item; a computed value may have a name or a variable before it. -/
def compile : SelectionItem → Compiled Fragment
  | .predicate written => .ok (.text written)
  | .computed e => e.compile
  | .aliased name e => e.compile.map (.wrap (Predicate.name name ++ " : ") "")
  | .bound var e => e.compile.map (.wrap (Predicate.name var ++ " as ") "")

def same : SelectionItem → SelectionItem → Bool
  | .predicate s, .predicate t => s == t
  | .computed e, .computed f => e == f
  | .aliased s e, .aliased t f => s == t && e == f
  | .bound s e, .bound t f => s == t && e == f
  | _, _ => false

instance : BEq SelectionItem := ⟨same⟩

end SelectionItem

/-- A list of things to ask for. -/
structure Selection where
  items : List SelectionItem := []
  deriving Inhabited

namespace Selection

instance : BEq Selection := ⟨fun a b => a.items == b.items⟩

/-- A selection with one more item. -/
def push (s : Selection) (item : SelectionItem) : Selection := ⟨s.items ++ [item]⟩

/-- A selection with the predicates of a text after its own items. -/
def fields (s : Selection) (blob : String) : Selection :=
  ⟨s.items ++ (Predicate.ofBlob blob).map .predicate⟩

/-- The selection of the predicates of a text. -/
def ofBlob (blob : String) : Selection := fields {} blob

/-- A selection with one more predicate, unless nothing of it is left to write. -/
def field (s : Selection) (predicate : String) : Selection :=
  let written := Predicate.escape predicate
  if written.isEmpty then s else s.push (.predicate written)

def compile (s : Selection) : Compiled Fragment := (s.items.mapM SelectionItem.compile).map (.join " ")

end Selection

end GraphQuery
