import GraphQuery.Binary64.Shortest

/-!
# Positional notation

Numbers written with their shortest digits and never with an exponent, and decimals
read back to the nearest number.
-/

namespace GraphQuery

/-! ## Writing -/

/-- Digits with the decimal point before the last `-exponent` of them, or zeros after them. -/
def positional (digits : List Char) (exponent : Int) : List Char :=
  let places := (-exponent).toNat
  if 0 ≤ exponent then digits ++ List.replicate exponent.toNat '0'
  else if places < digits.length then
    digits.take (digits.length - places) ++ '.' :: digits.drop (digits.length - places)
  else '0' :: '.' :: List.replicate (places - digits.length) '0' ++ digits

namespace Binary64

/-- The sign that stands before a negative number. -/
def signText (negative : Bool) : List Char := if negative then ['-'] else []

/-- The number in positional notation. A whole number has no point, and equally near decimals
    are resolved upwards. -/
def format : Binary64 → String
  | .nan => "NaN"
  | .infinite s => String.ofList (signText s ++ ['i', 'n', 'f'])
  | .finite s m q _ =>
    if m = 0 then String.ofList (signText s ++ ['0'])
    else
      let (digits, exponent) := (Decimal.shortest .up m q).parts
      String.ofList (signText s ++ positional digits exponent)

end Binary64

/-! ## Reading -/

/-- The number that decimal digits stand for. -/
def digitsValue (cs : List Char) : Nat := cs.foldl (fun n c => 10 * n + (c.toNat - '0'.toNat)) 0

/-- A decimal text taken apart: a sign, the digits, and the power of ten of the last one. -/
structure DecimalText where
  negative : Bool
  digits : List Char
  exponent : Int

namespace DecimalText

/-- A sign and what follows it. -/
def sign : List Char → Bool × List Char
  | '-' :: cs => (true, cs)
  | '+' :: cs => (false, cs)
  | cs => (false, cs)

/-- The power of ten after the digits: nothing, or `e` and a whole number. -/
def exponent? : List Char → Option Int
  | [] => some 0
  | c :: cs =>
    if c = 'e' ∨ c = 'E' then
      let (negative, ds) := sign cs
      if ds.isEmpty || !ds.all Char.isDigit then none
      else some (if negative then -(digitsValue ds : Int) else digitsValue ds)
    else none

/-- The parts of an unsigned decimal, with at least one digit before or after the point. -/
def ofUnsigned? (negative : Bool) (cs : List Char) : Option DecimalText :=
  let whole := cs.takeWhile Char.isDigit
  let (part, rest) := match cs.dropWhile Char.isDigit with
    | '.' :: cs => (cs.takeWhile Char.isDigit, cs.dropWhile Char.isDigit)
    | cs => ([], cs)
  if (whole ++ part).isEmpty then none
  else (exponent? rest).map fun e => ⟨negative, whole ++ part, e - part.length⟩

/-- The nearest number by a rounding of quotients. Powers of ten beyond every finite number are
    not multiplied out. -/
def number (t : DecimalText) (ofRatio : Bool → Nat → Nat → Binary64) : Binary64 :=
  let n := digitsValue t.digits
  let size : Int := (Nat.toDigits 10 n).length + t.exponent
  if n = 0 then .zero t.negative
  else if 400 < size then .infinite t.negative
  else if size < -400 then .zero t.negative
  else ofRatio t.negative (n * Nat.pow 10 t.exponent.toNat) (Nat.pow 10 (-t.exponent).toNat)

end DecimalText

/-- The number a text stands for: a decimal, an infinity or the word for what is no number. -/
def Binary64.ofText? (ofRatio : Bool → Nat → Nat → Binary64) (s : String) : Option Binary64 :=
  let (negative, cs) := DecimalText.sign s.toList
  let word := String.ofList (cs.map Char.toLower)
  if word = "nan" then some .nan
  else if word = "inf" ∨ word = "infinity" then some (.infinite negative)
  else (DecimalText.ofUnsigned? negative cs).map (·.number ofRatio)

end GraphQuery
