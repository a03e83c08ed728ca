import GraphQuery.Json.Reader
import GraphQuery.Timestamp.Reader

/-!
# Typed contents

Ways to take typed contents out of a document. What a decoder has no use for may be
anything, so long as the document is well formed. A record is written as an object
with one member for each field or as the array of its fields.
-/

namespace GraphQuery.Json

/-- A way to take a typed content out of a document. -/
abbrev Decoder (α : Type) := Tree → Option α

namespace Decoder

variable {α : Type}

/-! ## General decoders -/

/-- The whole content as a value. -/
def value : Decoder Json := (·.toJson? depthLimit)

/-- A text. -/
def string : Decoder String
  | .string s => s
  | _ => none

/-- An array of contents of one type. -/
def array (item : Decoder α) : Decoder (List α)
  | .array ts => ts.mapM item
  | _ => none

/-- The members of an object, all of whose keys are Unicode text. -/
def members? : Tree → Option (List (String × Tree))
  | .object ms => ms.mapM fun (k, t) => k.map (·, t)
  | _ => none

/-- An object whose members are contents of one type; of one key the last counts. -/
def map (item : Decoder α) : Decoder (KeyMap α) := fun t => do
  let ms ← members? t
  let es ← ms.mapM fun (k, t) => (item t).map (k, ·)
  return KeyMap.ofList es

/-- The only member with a key. -/
def field? (ms : List (String × Tree)) (key : String) : Option Tree :=
  match ms.filter (·.1 == key) with
  | [(_, t)] => some t
  | _ => none

/-- The only member with a key, or nothing when there is none. -/
def optionalField? (ms : List (String × Tree)) (key : String) : Option (Option Tree) :=
  match ms.filter (·.1 == key) with
  | [] => some none
  | [(_, t)] => some (some t)
  | _ => none

/-! ## Records -/

/-- A record of one field. -/
def record (key : String) (item : Decoder α) : Decoder α
  | .array [t] => item t
  | .array _ => none
  | t => do item (← field? (← members? t) key)

/-- A record of two fields. -/
def record2 {β : Type} (key : String) (item : Decoder α) (key' : String) (item' : Decoder β) : Decoder (α × β)
  | .array [t, u] => do return (← item t, ← item' u)
  | .array _ => none
  | t => do
    let ms ← members? t
    return (← item (← field? ms key), ← item' (← field? ms key'))

/-- The name of a thing that has one. -/
def named : Decoder String := record "name" string

/-! ## Scalars -/

/-- A timestamp, written as text. -/
def timestamp : Decoder Timestamp := fun t => do Timestamp.ofText? (← string t).toList

/-- A byte, written as a whole number. -/
def byte : Decoder UInt8
  | .number (some (.integer i)) => if 0 ≤ i ∧ i < 256 then some i.toNat.toUInt8 else none
  | _ => none

end Decoder

end GraphQuery.Json
