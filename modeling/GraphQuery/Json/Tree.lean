import GraphQuery.Json
import GraphQuery.KeyMap

/-!
# Documents

A JSON document as it is written: repeated keys are kept, and a text or a number that
has no value stays in its place. Such a place does no harm to who does not look at it,
so a document can be decoded in part even if it is not a value as a whole.
-/

namespace GraphQuery.Json

/-- A document. A text is absent when it is not Unicode, and a number when it is too large. -/
inductive Tree where
  | null
  | bool (b : Bool)
  | number (n : Option Number)
  | string (s : Option String)
  | array (items : List Tree)
  | object (members : List (Option String × Tree))

namespace Tree

instance : Inhabited Tree := ⟨.null⟩

/-! ## Values of documents -/

mutual

/-- The value of a document whose arrays and objects are nested at most `limit` deep. The members
    of an object come in the order of their keys, and of one key the last counts. -/
def toJson? : (limit : Nat) → Tree → Option Json
  | _, .null => some .null
  | _, .bool b => some (.bool b)
  | _, .number n => n.map .number
  | _, .string s => s.map .string
  | 0, .array _ => none
  | limit + 1, .array items => (itemsToJson? limit items).map .array
  | 0, .object _ => none
  | limit + 1, .object members =>
    (membersToJson? limit members).map fun ms => .object (KeyMap.ofList ms).entries

/-- The values of the items of an array. -/
def itemsToJson? : (limit : Nat) → List Tree → Option (List Json)
  | _, [] => some []
  | limit, t :: ts =>
    match toJson? limit t, itemsToJson? limit ts with
    | some v, some vs => some (v :: vs)
    | _, _ => none

/-- The values of the members of an object. -/
def membersToJson? : (limit : Nat) → List (Option String × Tree) → Option (List (String × Json))
  | _, [] => some []
  | limit, (k, t) :: ms =>
    match k, toJson? limit t, membersToJson? limit ms with
    | some k, some v, some vs => some ((k, v) :: vs)
    | _, _, _ => none

end

/-! ## Documents of values -/

mutual

/-- The document of a value. -/
def ofJson : Json → Tree
  | .null => .null
  | .bool b => .bool b
  | .number n => .number (some n)
  | .string s => .string (some s)
  | .array items => .array (itemsOfJson items)
  | .object members => .object (membersOfJson members)

/-- The documents of the items of an array. -/
def itemsOfJson : List Json → List Tree
  | [] => []
  | v :: vs => ofJson v :: itemsOfJson vs

/-- The documents of the members of an object. -/
def membersOfJson : List (String × Json) → List (Option String × Tree)
  | [] => []
  | (k, v) :: ms => (some k, ofJson v) :: membersOfJson ms

end

end Tree

end GraphQuery.Json
