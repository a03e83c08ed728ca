/-!
# Floating-point numbers

The numbers of the IEEE 754 double format as a type, and the rounding of an exact
quotient to it. A finite number is `significand · 2 ^ exponent` in the one form that
has the most significant digits.
-/

namespace GraphQuery

/-! ## Rounding -/

/-- The binary digits of a significand and the range of the exponent of its last digit. -/
structure BinaryFormat where
  digits : Nat
  least : Int
  greatest : Int

namespace BinaryFormat

def double : BinaryFormat := ⟨53, -1074, 971⟩

def single : BinaryFormat := ⟨24, -149, 104⟩

/-- The whole number nearest to a quotient, a half going to the even one. -/
def nearest (num den : Nat) : Nat :=
  let whole := num / den
  let rest := num % den
  if 2 * rest < den ∨ (2 * rest = den ∧ whole % 2 = 0) then whole else whole + 1

/-- The quotient `num / den` divided by `2 ^ q`, as a quotient again. -/
def scaled (num den : Nat) (q : Int) : Nat × Nat :=
  (num * Nat.pow 2 (-q).toNat, den * Nat.pow 2 q.toNat)

/-- The exponent under which a quotient has as many digits as the format. -/
def exponentOf (f : BinaryFormat) (num den : Nat) : Int :=
  let q : Int := (num.log2 : Int) - den.log2 - f.digits
  let (n, d) := scaled num den q
  max f.least (if d * Nat.pow 2 f.digits ≤ n then q + 1 else q)

/-- The significand and exponent nearest to a quotient, or nothing when they are too large. -/
def round (f : BinaryFormat) (num den : Nat) : Option (Nat × Int) :=
  if num = 0 then some (0, f.least)
  else
    let q := f.exponentOf num den
    let (n, d) := scaled num den q
    let m := nearest n d
    let (m, q) := if m = Nat.pow 2 f.digits then (Nat.pow 2 (f.digits - 1), q + 1) else (m, q)
    if q ≤ f.greatest then some (m, q) else none

end BinaryFormat

/-! ## The type -/

/-- Whether a significand and an exponent are in the one form that each finite number has. -/
def IsDouble (significand : Nat) (exponent : Int) : Prop :=
  significand < Nat.pow 2 53 ∧ -1074 ≤ exponent ∧ exponent ≤ 971 ∧
    (significand < Nat.pow 2 52 → exponent = -1074)

instance (m : Nat) (q : Int) : Decidable (IsDouble m q) := by unfold IsDouble; infer_instance

/-- A number of the double format: not a number, an infinity, or a finite number. -/
inductive Binary64 where
  | nan
  | infinite (negative : Bool)
  | finite (negative : Bool) (significand : Nat) (exponent : Int) (isDouble : IsDouble significand exponent)
  deriving DecidableEq

namespace Binary64

def zero (negative : Bool) : Binary64 := .finite negative 0 (-1074) (by decide)

instance : Inhabited Binary64 := ⟨zero false⟩

def isFinite : Binary64 → Bool
  | .finite .. => true
  | _ => false

/-- Numerical equality: both zeros are equal, and what is not a number equals nothing. -/
def same : Binary64 → Binary64 → Bool
  | .infinite s, .infinite t => s == t
  | .finite s m q _, .finite t n r _ => (m == 0 && n == 0) || (s == t && m == n && q == r)
  | _, _ => false

instance : BEq Binary64 := ⟨same⟩

theorem isFinite_eq_of_same {x y : Binary64} (h : x.same y = true) : x.isFinite = y.isFinite := by
  cases x <;> cases y <;> simp_all [same, isFinite]

/-- The number nearest to a quotient with a sign. -/
def ofRatio (negative : Bool) (num den : Nat) : Binary64 :=
  match BinaryFormat.double.round num den with
  | some (m, q) => if h : IsDouble m q then .finite negative m q h else .infinite negative
  | none => .infinite negative

/-- The number nearest to `m · 2 ^ q` with a sign. -/
def ofScaled (negative : Bool) (m : Nat) (q : Int) : Binary64 :=
  ofRatio negative (m * Nat.pow 2 q.toNat) (Nat.pow 2 (-q).toNat)

/-- The number nearest to a quotient among those of the single format. -/
def ofRatioSingle (negative : Bool) (num den : Nat) : Binary64 :=
  match BinaryFormat.single.round num den with
  | some (m, q) => ofScaled negative m q
  | none => .infinite negative

/-! ## Products and quotients -/

/-- The rounded product of two finite numbers, with the sign of the first. -/
def scaleBy (x y : Binary64) : Binary64 :=
  match x, y with
  | .finite s m q _, .finite _ n r _ => ofScaled s (m * n) (q + r)
  | x, _ => x

/-- The rounded quotient of two finite numbers, with the sign of the first. -/
def shrinkBy (x y : Binary64) : Binary64 :=
  match x, y with
  | .finite s m q _, .finite _ n r _ => ofRatio s (m * Nat.pow 2 (q - r).toNat) (n * Nat.pow 2 (r - q).toNat)
  | x, _ => x

end Binary64

end GraphQuery
