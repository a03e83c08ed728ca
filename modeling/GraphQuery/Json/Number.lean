import GraphQuery.Json

/-!
# Numbers in JSON text

The grammar of a number, and the value it stands for. A number with a fraction or an
exponent is the rounded product or quotient of its leading digits, as many as make up
less than `2 ^ 64`, and a rounded power of ten; it has no value when that is infinite.
-/

namespace GraphQuery.Json

/-! ## The parts of a number -/

/-- A number taken apart. The fraction is empty when there is no point. -/
structure NumberText where
  negative : Bool
  whole : List Char
  fraction : List Char
  exponent : Option (Bool × List Char)

/-! ## The value -/

/-- The greatest number of the leading digits kept exactly. -/
def significandLimit : Nat := Nat.pow 2 64

/-- Takes digits into a number as long as it stays below the limit; also what is left. -/
def absorb : Nat → List Char → Nat × List Char
  | n, [] => (n, [])
  | n, c :: cs =>
    let m := 10 * n + (c.toNat - '0'.toNat)
    if m < significandLimit then absorb m cs else (n, c :: cs)

/-- The nearest number to a whole number. -/
def ofNat (n : Nat) : Binary64 := .ofRatio false n 1

/-- A number times a power of ten, one rounding at a time: powers of ten above 308 are divided
    by in steps, and there is no value when the product is infinite. -/
def timesPower : (steps : Nat) → Binary64 → Int → Option Binary64
  | 0, _, _ => some (.zero false)
  | n + 1, x, e =>
    if e.natAbs ≤ 308 then
      if 0 ≤ e then
        let y := x.scaleBy (ofNat (Nat.pow 10 e.toNat))
        if y.isFinite then some y else none
      else some (x.shrinkBy (ofNat (Nat.pow 10 (-e).toNat)))
    else if x == .zero false then some x
    else if 0 ≤ e then none
    else timesPower n (x.shrinkBy (ofNat (Nat.pow 10 308))) (e + 308)

/-- A number with a sign before it. -/
def withSign (negative : Bool) : Binary64 → Binary64
  | .nan => .nan
  | .infinite _ => .infinite negative
  | .finite _ m q h => .finite negative m q h

/-- The greatest power of ten that is counted exactly. -/
def exponentLimit : Nat := Nat.pow 2 31 - 1

namespace NumberText

/-- A number that is not an integer. -/
def float? (t : NumberText) : Option Binary64 :=
  let (head, skipped) := absorb 0 t.whole
  let (significand, left) := absorb head t.fraction
  let shift : Int := skipped.length - (t.fraction.length - left.length : Nat)
  let power : Option (Option Int) := match t.exponent with
    | none => some (some shift)
    | some (negative, digits) =>
      let e := digitsValue digits
      if e ≤ exponentLimit then some (some (if negative then shift - e else shift + e))
      else if significand = 0 ∨ negative then some none
      else none
  match power with
  | none => none
  | some none => some (.zero t.negative)
  | some (some e) => (timesPower 4 (ofNat significand) e).map (withSign t.negative)

/-- The number: an integer when it is written as one and fits 64 bits. A negative zero is not an
    integer. -/
def value? (t : NumberText) : Option Number :=
  let n := digitsValue t.whole
  if !t.fraction.isEmpty || t.exponent.isSome || significandLimit ≤ n then t.float?.map .float
  else if !t.negative then some (.integer n)
  else if 0 < n ∧ n ≤ Nat.pow 2 63 then some (.integer (-n))
  else some (.float (.ofRatio true n 1))

end NumberText

end GraphQuery.Json
