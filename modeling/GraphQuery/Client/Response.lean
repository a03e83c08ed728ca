import GraphQuery.CompileError
import GraphQuery.Json.Decoder
import GraphQuery.Text.Shown

/-!
# Responses

What the database answers, and the ways to read it. The answer is a JSON object with
one member for each block that returns data.
-/

namespace GraphQuery.Client

/-! ## Errors -/

/-- Why a request has no answer, or an answer not the content that is looked for. -/
inductive ClientError where
  /-- The request cannot be compiled. -/
  | compile (cause : CompileError)
  /-- The request was not answered; the reasons, from the outermost in. -/
  | transport (reasons : List String)
  /-- The answer does not have the form that is looked for. -/
  | decode
  /-- The answer has no such block. -/
  | missingBlock (name : String)

def ClientError.message : ClientError → String
  | .compile cause => "failed to compile request: " ++ cause.message
  | .transport reasons => "transport error: " ++ String.intercalate ": " reasons
  | .decode => "failed to decode response"
  | .missingBlock name => "response has no block named " ++ Text.shown name

/-- The result of a request, or of reading its answer. -/
abbrev Result (α : Type) := Except ClientError α

/-- A content that was found, or the error that there is none. -/
def decoded {α : Type} : Option α → Result α
  | some a => .ok a
  | none => .error .decode

/-! ## Raw answers -/

open Json

/-- An answer as it came: the bytes of a JSON document, and the identifiers given to new nodes. -/
structure RawResponse where
  json : List UInt8
  uids : KeyMap String := ∅

/-- An answer that is itself written as JSON. -/
def RawResponse.decoder : Decoder RawResponse
  | .array [json] => do return ⟨← Decoder.array Decoder.byte json, ∅⟩
  | .array [json, uids] => do return ⟨← Decoder.array Decoder.byte json, ← Decoder.map Decoder.string uids⟩
  | .array _ => none
  | t => do
    let ms ← Decoder.members? t
    let json ← Decoder.array Decoder.byte (← Decoder.field? ms "json")
    let uids ← (← Decoder.optionalField? ms "uids").mapM (Decoder.map Decoder.string)
    return ⟨json, uids.getD ∅⟩

/-! ## Answers to queries -/

/-- The answer to a query, with the name of the block that was asked for alone. -/
structure QueryResponse where
  blockName : Option String
  raw : RawResponse

namespace QueryResponse

variable {α : Type}

/-- The whole document as a value. -/
def json (r : QueryResponse) : Result Json := decoded (Json.ofBytes? r.raw.json)

/-- The content of one block. -/
def block (r : QueryResponse) (name : String) (decoder : Decoder α) : Result α :=
  match r.json with
  | .error e => .error e
  | .ok (.object members) =>
    match members.lookup name with
    | some v => decoded (decoder (.ofJson v))
    | none => .error (.missingBlock name)
  | .ok _ => .error (.missingBlock name)

/-- The content of the block that was asked for alone, or else of the whole document. -/
def decode (r : QueryResponse) (decoder : Decoder α) : Result α :=
  match r.blockName with
  | some name => r.block name decoder
  | none => decoded ((Tree.ofBytes? r.raw.json).bind decoder)

end QueryResponse

/-! ## Answers to mutations -/

/-- The answer to a mutation. -/
structure MutationResponse where
  raw : RawResponse

namespace MutationResponse

/-- The identifier given to a new node, whose name may have `_:` before it. -/
def uid (r : MutationResponse) (name : String) : Option String :=
  let name := match name.toList with
    | '_' :: ':' :: cs => String.ofList cs
    | _ => name
  r.raw.uids.get? name

/-- The content of a block of the query of a mutation. -/
def block {α : Type} (r : MutationResponse) (name : String) (decoder : Decoder α) : Result α :=
  (QueryResponse.mk none r.raw).block name decoder

end MutationResponse

end GraphQuery.Client
