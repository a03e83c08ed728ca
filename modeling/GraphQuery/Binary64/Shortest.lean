import GraphQuery.Binary64

/-!
# Shortest decimals

The decimal with the fewest digits among those that round to a given number, and of
those the one nearest to it. It is looked for among the decimals in the interval that
rounds to the number.
-/

namespace GraphQuery

/-- A decimal `digits · 10 ^ exponent`. -/
structure Decimal where
  digits : Nat
  exponent : Int
  deriving DecidableEq, Repr

namespace Decimal

/-- Where a half goes between two equally near decimals. -/
inductive Tie where
  | up
  | even

/-- The interval of reals that round to a number, in multiples of `unit = num / den`. -/
structure Rounding where
  low : Nat
  value : Nat
  high : Nat
  closed : Bool
  num : Nat
  den : Nat

/-- The interval around `m · 2 ^ q`. The gap below a power of two is half as wide, and the ends
    belong to the interval when `m` is even. -/
def Rounding.around (m : Nat) (q : Int) : Rounding :=
  { low := if m = Nat.pow 2 52 ∧ -1074 < q then 4 * m - 1 else 4 * m - 2
    value := 4 * m
    high := 4 * m + 2
    closed := m % 2 = 0
    num := Nat.pow 2 q.toNat
    den := 4 * Nat.pow 2 (-q).toNat }

/-- Numerator and denominator of `10 ^ e`. -/
def power (e : Int) : Nat × Nat := (Nat.pow 10 e.toNat, Nat.pow 10 (-e).toNat)

/-- Whether the decimal lies in the interval. -/
def Rounding.holds (r : Rounding) (d : Decimal) : Bool :=
  let (p, s) := power d.exponent
  let here := d.digits * p * r.den
  let low := r.low * r.num * s
  let high := r.high * r.num * s
  if r.closed then low ≤ here && here ≤ high else low < here && here < high

/-- The greatest `e` with `10 ^ e ≤ num / den`, looked for from a start above it. -/
def magnitude (num den : Nat) : (steps : Nat) → (start : Int) → Int
  | 0, e => e
  | n + 1, e =>
    let (p, s) := power e
    if p * den ≤ num * s then e else magnitude num den n (e - 1)

/-- The decimals with the given exponent on both sides of the value, the nearer one first. -/
def Rounding.neighbours (r : Rounding) (tie : Tie) (e : Int) : List Decimal :=
  let (p, s) := power e
  let num := r.value * r.num * s
  let den := r.den * p
  let below := num / den
  let rest := num % den
  let upFirst : Bool := match tie with
    | .up => den ≤ 2 * rest
    | .even => den < 2 * rest || (den = 2 * rest && below % 2 = 1)
  if upFirst then [⟨below + 1, e⟩, ⟨below, e⟩] else [⟨below, e⟩, ⟨below + 1, e⟩]

/-- The first decimal of the interval on the grids of 1, 2, … 17 digits. -/
def Rounding.shortest? (r : Rounding) (tie : Tie) : Option Decimal :=
  let num := r.value * r.num
  let start : Int := ((num.log2 : Int) - r.den.log2 + 1) * 30103 / 100000 + 1
  let top := magnitude num r.den 4 start
  (List.range 17).findSome? fun (n : Nat) => (r.neighbours tie (top - n)).find? r.holds

/-- The shortest decimal of `m · 2 ^ q`. -/
def shortest (tie : Tie) (m : Nat) (q : Int) : Decimal :=
  ((Rounding.around m q).shortest? tie).getD ⟨m * Nat.pow 2 q.toNat, 0⟩

/-- The digits without the zeros at their end, and the exponent of the last one left. -/
def parts (d : Decimal) : List Char × Int :=
  let all := Nat.toDigits 10 d.digits
  let kept := (all.reverse.dropWhile (· == '0')).reverse
  (kept, d.exponent + (all.length - kept.length : Nat))

end Decimal

end GraphQuery
