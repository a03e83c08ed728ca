import GraphQuery.Json.Number
import GraphQuery.Json.Tree
import GraphQuery.Text.Cut

/-!
# Reading documents

The grammar of JSON over bytes. Each byte is read as the character of the same
number, and text is decoded only between quotes. Nothing may follow the document but
space.
-/

namespace GraphQuery.Json

open Text

/-! ## Space and words -/

/-- Space between the pieces of a document. -/
def isSpace (c : Char) : Bool := c == ' ' || c == '\n' || c == '\t' || c == '\r'

/-- The characters after leading space. -/
def skipSpace (cs : List Char) : List Char := cs.dropWhile isSpace

/-! ## Quoted text -/

/-- A piece of a quoted text: a byte of UTF-8, or a unit of UTF-16 from an escape. -/
inductive Piece where
  | octet (b : UInt8)
  | unit (n : Nat)

/-- The value of a hexadecimal digit. -/
def hexDigit? (c : Char) : Option Nat :=
  if c.isDigit then some (c.toNat - '0'.toNat)
  else if 'a' ≤ c ∧ c ≤ 'f' then some (c.toNat - 'a'.toNat + 10)
  else if 'A' ≤ c ∧ c ≤ 'F' then some (c.toNat - 'A'.toNat + 10)
  else none

/-- The value of four hexadecimal digits. -/
def hexUnit? (a b c d : Char) : Option Nat := do
  return (((← hexDigit? a) * 16 + (← hexDigit? b)) * 16 + (← hexDigit? c)) * 16 + (← hexDigit? d)

/-- The byte of an escape with one letter. -/
def escaped? (c : Char) : Option UInt8 :=
  if c = '"' ∨ c = '\\' ∨ c = '/' then some c.toUInt8
  else if c = 'b' then some 8
  else if c = 'f' then some 12
  else if c = 'n' then some 10
  else if c = 'r' then some 13
  else if c = 't' then some 9
  else none

/-- The pieces up to the closing quote, and what follows it. -/
def pieces? : List Char → Option (List Piece × List Char)
  | [] => none
  | c :: cs =>
    if c = '"' then some ([], cs)
    else if c = '\\' then
      match cs with
      | [] => none
      | e :: cs =>
        if e = 'u' then
          match cs with
          | a :: b :: c :: d :: cs =>
            match hexUnit? a b c d, pieces? cs with
            | some n, some (ps, rest) => some (.unit n :: ps, rest)
            | _, _ => none
          | _ => none
        else
          match escaped? e, pieces? cs with
          | some b, some (ps, rest) => some (.octet b :: ps, rest)
          | _, _ => none
    else if c.toNat < 32 then none
    else (pieces? cs).map fun (ps, rest) => (.octet c.toUInt8 :: ps, rest)

/-- Whether a unit is the first one of a pair. -/
def isHighUnit (n : Nat) : Bool := 0xD800 ≤ n && n < 0xDC00

/-- Whether a unit is the second one of a pair. -/
def isLowUnit (n : Nat) : Bool := 0xDC00 ≤ n && n < 0xE000

/-- The UTF-8 bytes of pieces in which all units of pairs stand together. -/
def bytes? : List Piece → Option (List UInt8)
  | [] => some []
  | .octet b :: ps => (bytes? ps).map (b :: ·)
  | .unit n :: ps =>
    if isHighUnit n then
      match ps with
      | .unit m :: ps =>
        if isLowUnit m then
          (bytes? ps).map
            (String.utf8EncodeChar (Char.ofNat (0x10000 + (n - 0xD800) * 0x400 + (m - 0xDC00))) ++ ·)
        else none
      | _ => none
    else if isLowUnit n then none
    else (bytes? ps).map (String.utf8EncodeChar (Char.ofNat n) ++ ·)

/-- The text of the pieces, if they make up Unicode text. -/
def textOf? (ps : List Piece) : Option String :=
  (bytes? ps).bind fun bs => String.fromUTF8? bs.toByteArray

/-! ## Numbers -/

/-- The digits after a point, or none without a point. -/
def fraction? : List Char → Option (List Char × List Char)
  | '.' :: cs =>
    let ds := cs.takeWhile Char.isDigit
    if ds.isEmpty then none else some (ds, cs.dropWhile Char.isDigit)
  | cs => some ([], cs)

/-- The sign and the digits of an exponent, if there is one. -/
def exponent? : List Char → Option (Option (Bool × List Char) × List Char)
  | [] => some (none, [])
  | c :: cs =>
    if c = 'e' ∨ c = 'E' then
      let (negative, cs) := DecimalText.sign cs
      let ds := cs.takeWhile Char.isDigit
      if ds.isEmpty then none else some (some (negative, ds), cs.dropWhile Char.isDigit)
    else some (none, c :: cs)

/-- A number. Only the number zero may start with the digit zero. -/
def number? (cs : List Char) : Option (NumberText × List Char) :=
  let (negative, cs) := match cs with
    | '-' :: cs => (true, cs)
    | cs => (false, cs)
  let whole := cs.takeWhile Char.isDigit
  if whole.isEmpty || (whole.head? == some '0' && 1 < whole.length) then none
  else do
    let (fraction, cs) ← fraction? (cs.dropWhile Char.isDigit)
    let (exponent, cs) ← exponent? cs
    return (⟨negative, whole, fraction, exponent⟩, cs)

/-- One of the three words, or a number. -/
def plain? (cs : List Char) : Option (Tree × List Char) :=
  match after? id "null".toList cs, after? id "true".toList cs, after? id "false".toList cs with
  | some rest, _, _ => some (.null, rest)
  | _, some rest, _ => some (.bool true, rest)
  | _, _, some rest => some (.bool false, rest)
  | _, _, _ => (number? cs).map fun (t, rest) => (.number t.value?, rest)

/-! ## Documents -/

mutual

/-- A document after leading space. -/
def tree? : (fuel : Nat) → List Char → Option (Tree × List Char)
  | 0, _ => none
  | fuel + 1, cs =>
    match skipSpace cs with
    | '"' :: cs => (pieces? cs).map fun (ps, rest) => (.string (textOf? ps), rest)
    | '[' :: cs =>
      match skipSpace cs with
      | ']' :: rest => some (.array [], rest)
      | cs => (items? fuel cs).map fun (ts, rest) => (.array ts, rest)
    | '{' :: cs =>
      match skipSpace cs with
      | '}' :: rest => some (.object [], rest)
      | cs => (members? fuel cs).map fun (ms, rest) => (.object ms, rest)
    | cs => plain? cs

/-- The items of an array and its closing bracket. -/
def items? : (fuel : Nat) → List Char → Option (List Tree × List Char)
  | 0, _ => none
  | fuel + 1, cs =>
    match tree? fuel cs with
    | none => none
    | some (t, rest) =>
      match skipSpace rest with
      | ']' :: rest => some ([t], rest)
      | ',' :: rest => (items? fuel rest).map fun (ts, rest) => (t :: ts, rest)
      | _ => none

/-- The members of an object and its closing brace. -/
def members? : (fuel : Nat) → List Char → Option (List (Option String × Tree) × List Char)
  | 0, _ => none
  | fuel + 1, cs =>
    match member? fuel cs with
    | none => none
    | some (m, rest) =>
      match skipSpace rest with
      | '}' :: rest => some ([m], rest)
      | ',' :: rest => (members? fuel rest).map fun (ms, rest) => (m :: ms, rest)
      | _ => none

/-- A key, a colon and a document. -/
def member? : (fuel : Nat) → List Char → Option ((Option String × Tree) × List Char)
  | 0, _ => none
  | fuel + 1, cs =>
    match skipSpace cs with
    | '"' :: cs =>
      match pieces? cs with
      | none => none
      | some (ps, rest) =>
        match skipSpace rest with
        | ':' :: rest => (tree? fuel rest).map fun (t, rest) => ((textOf? ps, t), rest)
        | _ => none
    | _ => none

end

/-- The document that bytes stand for. -/
def Tree.ofBytes? (bytes : List UInt8) : Option Tree :=
  match tree? (3 * bytes.length + 3) (bytes.map fun b => Char.ofNat b.toNat) with
  | some (t, rest) => if (skipSpace rest).isEmpty then some t else none
  | none => none

/-- The depth to which the arrays and objects of a value may be nested. -/
def depthLimit : Nat := 127

/-- The value that bytes stand for. -/
def ofBytes? (bytes : List UInt8) : Option Json := (Tree.ofBytes? bytes).bind (·.toJson? depthLimit)

end GraphQuery.Json
