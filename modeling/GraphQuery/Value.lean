import GraphQuery.Binary64.Notation
import GraphQuery.Json.Quoted
import GraphQuery.Timestamp

/-!
# Values

The values that a query is run with. A scalar is bound to a query variable of its
type, a list is bound item by item, and raw text is written into the query as it is.
-/

namespace GraphQuery

/-- The types of query variables. -/
inductive DataType where
  | string
  | int
  | float
  | bool
  | datetime
  deriving DecidableEq, Repr

/-- The name of a type in a declaration. -/
def DataType.text : DataType → String
  | .string => "string"
  | .int => "int"
  | .float => "float"
  | .bool => "bool"
  | .datetime => "datetime"

/-- A value: a scalar, the list that is nil, a list, or raw text. `other` is the text of a thing
    with no type of its own. -/
inductive Value where
  | string (s : String)
  | int (i : Int)
  | uint (n : Nat)
  | float (x : Binary64)
  | bool (b : Bool)
  | datetime (t : Timestamp)
  | other (s : String)
  | nilList
  | list (items : List Value)
  | raw (s : String)

namespace Value

instance : Inhabited Value := ⟨.nilList⟩

/-! ## Kinds and types -/

/-- The name of the kind of a value. -/
def kind : Value → String
  | .string _ => "string"
  | .int _ => "int"
  | .uint _ => "uint"
  | .float _ => "float"
  | .bool _ => "bool"
  | .datetime _ => "datetime"
  | .other _ => "other"
  | .nilList => "list"
  | .list _ => "list"
  | .raw _ => "raw"

/-- Whether the value is a list, the nil list included. -/
def isList : Value → Bool
  | .nilList => true
  | .list _ => true
  | _ => false

def isRaw : Value → Bool
  | .raw _ => true
  | _ => false

/-- The type of a query variable that holds the value. -/
def dataType : Value → DataType
  | .int _ => .int
  | .uint _ => .int
  | .float _ => .float
  | .bool _ => .bool
  | .datetime _ => .datetime
  | _ => .string

/-! ## Texts -/

def boolText (b : Bool) : String := if b then "true" else "false"

mutual

/-- The text of a value in the map of variables. -/
def format : Value → String
  | .string s => s
  | .int i => toString i
  | .uint n => toString n
  | .float x => x.format
  | .bool b => boolText b
  | .datetime t => t.format
  | .other s => s
  | .nilList => "[]"
  | .list items => "[" ++ String.intercalate " " (formats items) ++ "]"
  | .raw s => s

def formats : List Value → List String
  | [] => []
  | v :: vs => format v :: formats vs

end

mutual

/-- The value as it is written inside a query; what is text is quoted. -/
def literal : Value → String
  | .string s => Json.quoted s
  | .other s => Json.quoted s
  | .datetime t => Json.quoted t.format
  | .nilList => "[]"
  | .list items => "[" ++ String.intercalate "," (literals items) ++ "]"
  | v => format v

def literals : List Value → List String
  | [] => []
  | v :: vs => literal v :: literals vs

end

/-! ## Equality -/

mutual

/-- Equality of values of one kind: numbers by value, times by instant, lists item by item. -/
def same : Value → Value → Bool
  | .string s, .string t => s == t
  | .int i, .int j => i == j
  | .uint m, .uint n => m == n
  | .float x, .float y => x == y
  | .bool a, .bool b => a == b
  | .datetime s, .datetime t => s == t
  | .other s, .other t => s == t
  | .nilList, .nilList => true
  | .list vs, .list ws => sameAll vs ws
  | .raw s, .raw t => s == t
  | _, _ => false

def sameAll : List Value → List Value → Bool
  | [], [] => true
  | v :: vs, w :: ws => same v w && sameAll vs ws
  | _, _ => false

end

instance : BEq Value := ⟨same⟩

end Value

end GraphQuery
