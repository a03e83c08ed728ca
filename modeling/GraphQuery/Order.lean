import GraphQuery.Expr

/-!
# Order and pagination

The part of the answers of a block that is asked for, and the order of the answers.
-/

namespace GraphQuery

/-! ## Pagination -/

/-- How many answers are wanted, how many are left out before them, and the node after which they
    start. Zero and the empty text ask for nothing. -/
structure Cursor where
  first : Int := 0
  offset : Nat := 0
  after : String := ""
  deriving DecidableEq, Inhabited

namespace Cursor

/-- Whether anything is asked for. -/
def isWanted (c : Cursor) : Bool := c.first != 0 || c.offset != 0 || !c.after.isEmpty

/-- A clause with one value, if it is wanted. -/
def clause (wanted : Bool) (keyword : String) (v : Value) : List Fragment :=
  if wanted then [.text (keyword ++ ":") ++ .slot v] else []

def compile (c : Cursor) : Fragment :=
  .join "," (clause (c.first != 0) "first" (.int c.first) ++
    clause (c.offset != 0) "offset" (.uint c.offset) ++
    clause (!c.after.isEmpty) "after" (.string c.after))

end Cursor

/-! ## Order -/

/-- The direction of an order. -/
inductive Direction where
  | ascending
  | descending
  deriving DecidableEq, Repr

def Direction.keyword : Direction → String
  | .ascending => "orderasc"
  | .descending => "orderdesc"

/-- What answers are ordered by: a predicate, or the value of a variable. -/
inductive OrderKey where
  | predicate (name : String)
  | expr (e : Expr)
  deriving Inhabited

namespace OrderKey

def same : OrderKey → OrderKey → Bool
  | .predicate s, .predicate t => s == t
  | .expr e, .expr f => e == f
  | _, _ => false

instance : BEq OrderKey := ⟨same⟩

end OrderKey

/-- An order of the answers of a block. -/
structure OrderBy where
  direction : Direction
  key : OrderKey

namespace OrderBy

instance : Inhabited OrderBy := ⟨⟨.ascending, default⟩⟩

instance : BEq OrderBy := ⟨fun a b => a.direction == b.direction && a.key == b.key⟩

def compileKey (keyword : String) : OrderKey → Compiled Fragment
  | .predicate name => (requirePredicate keyword name).map .text
  | .expr e => if e.isVal then e.compile else .error (.notAnOrderKey keyword e.name)

def compile (o : OrderBy) : Compiled Fragment :=
  (compileKey o.direction.keyword o.key).map (.wrap (o.direction.keyword ++ ": ") "")

end OrderBy

end GraphQuery
