import Mathlib.Algebra.GroupWithZero.Nat
import Mathlib.Data.List.Forall2

/-!
# Boolean formulas and their reading

Formulas over calls that are told apart by their position, and how a row of tokens is
read as one: a negation binds tighter than a conjunction, a conjunction tighter than a
disjunction, and brackets overrule both. `Reads` is the grammar and `Formula.read` a
reader that goes over the tokens once. Main statement: a row of tokens has at most one
formula, the one that the reader finds (`Reads.read`, `Reads.unique`).
-/

namespace GraphQuery

/-- The tokens of a filter. A call is one token, whatever is inside. -/
inductive Token where
  | call | opening | closing | neg | conj | disj
  deriving DecidableEq, Repr

/-- A boolean formula; its atoms are numbered from left to right. -/
inductive Formula where
  | atom
  | neg (φ : Formula)
  | and (φ ψ : Formula)
  | or (φ ψ : Formula)
  deriving DecidableEq, Repr

/-- A truth value for each position. -/
abbrev Assignment := Nat → Bool

/-- The values of the positions from `k` on. -/
def Assignment.later (σ : Assignment) (k : Nat) : Assignment := fun i => σ (k + i)

namespace Formula

def atoms : Formula → Nat
  | .atom => 1
  | .neg φ => φ.atoms
  | .and φ ψ => φ.atoms + ψ.atoms
  | .or φ ψ => φ.atoms + ψ.atoms

/-- The number of atoms of formulas that follow each other. -/
def size (φs : List Formula) : Nat := (φs.map atoms).sum

/-- The truth value, the atoms of the right side coming after those of the left side. -/
def eval : Formula → Assignment → Bool
  | .atom, σ => σ 0
  | .neg φ, σ => !φ.eval σ
  | .and φ ψ, σ => φ.eval σ && ψ.eval (σ.later φ.atoms)
  | .or φ ψ, σ => φ.eval σ || ψ.eval (σ.later φ.atoms)

def allOf : List Formula → Formula
  | [] => .atom
  | φ :: φs => φs.foldl .and φ

def anyOf : List Formula → Formula
  | [] => .atom
  | φ :: φs => φs.foldl .or φ

end Formula

/-! ## Grammar -/

/-- How tightly a part of a row holds together. -/
inductive Level where
  | unit | conjunction | disjunction

/-- The rows of tokens of each level and the formulas they stand for. -/
inductive Reads : Level → List Token → Formula → Prop where
  | call : Reads .unit [.call] .atom
  | neg {ts φ} (part : Reads .unit ts φ) : Reads .unit (.neg :: ts) (.neg φ)
  | bracket {ts φ} (inner : Reads .disjunction ts φ) : Reads .unit (.opening :: ts ++ [.closing]) φ
  | ofUnit {ts φ} (alone : Reads .unit ts φ) : Reads .conjunction ts φ
  | and {ts us φ ψ} (left : Reads .conjunction ts φ) (right : Reads .unit us ψ) :
      Reads .conjunction (ts ++ .conj :: us) (.and φ ψ)
  | ofConjunction {ts φ} (alone : Reads .conjunction ts φ) : Reads .disjunction ts φ
  | or {ts us φ ψ} (left : Reads .disjunction ts φ) (right : Reads .conjunction us ψ) :
      Reads .disjunction (ts ++ .disj :: us) (.or φ ψ)

theorem Reads.count_call {level : Level} {ts : List Token} {φ : Formula} (h : Reads level ts φ) :
    ts.count .call = φ.atoms := by
  induction h with
  | call => rfl
  | neg _ ih => simpa [Formula.atoms] using ih
  | bracket _ ih => simpa using ih
  | ofUnit _ ih => exact ih
  | and _ _ left right => simp [Formula.atoms, left, right]
  | ofConjunction _ ih => exact ih
  | or _ _ left right => simp [Formula.atoms, left, right]

/-! ## Reader -/

/-- What was read inside a bracket before the unit that comes next. -/
structure Before where
  sum : Option Formula := none
  product : Option Formula := none
  negations : Nat := 0

/-- What was read inside a bracket when a unit has just ended. -/
structure After where
  sum : Option Formula
  product : Formula

namespace Before

def negated (b : Before) : Before := { b with negations := b.negations + 1 }

def negate : Nat → Formula → Formula
  | 0, φ => φ
  | n + 1, φ => negate n (.neg φ)

def take (b : Before) (φ : Formula) : After where
  sum := b.sum
  product := match b.product with
    | none => negate b.negations φ
    | some ψ => .and ψ (negate b.negations φ)

end Before

namespace After

def formula (a : After) : Formula :=
  match a.sum with
  | none => a.product
  | some φ => .or φ a.product

def conj (a : After) : Before := { sum := a.sum, product := some a.product }

def disj (a : After) : Before := { sum := some a.formula }

end After

mutual

/-- Reads on where a unit must come. The brackets that are open are on the stack. -/
def Formula.readUnit : List Token → Before → List Before → Option Formula
  | .call :: ts, b, stack => Formula.readMark ts (b.take .atom) stack
  | .neg :: ts, b, stack => Formula.readUnit ts b.negated stack
  | .opening :: ts, b, stack => Formula.readUnit ts {} (b :: stack)
  | _, _, _ => none

/-- Reads on where a unit has ended. -/
def Formula.readMark : List Token → After → List Before → Option Formula
  | [], a, [] => some a.formula
  | .conj :: ts, a, stack => Formula.readUnit ts a.conj stack
  | .disj :: ts, a, stack => Formula.readUnit ts a.disj stack
  | .closing :: ts, a, b :: stack => Formula.readMark ts (b.take a.formula) stack
  | _, _, _ => none

end

def Formula.read (ts : List Token) : Option Formula := Formula.readUnit ts {} []

/-- What the reader does with a part of a row, whatever follows: it takes a unit in any place,
    a conjunction after a mark of a disjunction, and a disjunction after an opening bracket. -/
def Level.Runs : Level → List Token → Formula → Prop
  | .unit, ts, φ => ∀ rest b stack,
      Formula.readUnit (ts ++ rest) b stack = Formula.readMark rest (b.take φ) stack
  | .conjunction, ts, φ => ∀ rest sum stack,
      Formula.readUnit (ts ++ rest) { sum := sum } stack = Formula.readMark rest ⟨sum, φ⟩ stack
  | .disjunction, ts, φ => ∃ a : After, a.formula = φ ∧ ∀ rest stack,
      Formula.readUnit (ts ++ rest) {} stack = Formula.readMark rest a stack

theorem Reads.runs {level : Level} {ts : List Token} {φ : Formula} (h : Reads level ts φ) :
    level.Runs ts φ := by
  induction h with
  | call =>
    intro rest b stack
    rfl
  | neg _ ih =>
    intro rest b stack
    rw [List.cons_append, Formula.readUnit, ih]
    rfl
  | @bracket ts φ _ ih =>
    intro rest b stack
    obtain ⟨a, same, reads⟩ := ih
    rw [List.cons_append, List.cons_append, List.append_assoc, Formula.readUnit, reads, List.singleton_append,
      Formula.readMark, same]
  | ofUnit _ ih =>
    intro rest sum stack
    exact ih rest _ stack
  | and _ _ left right =>
    intro rest sum stack
    rw [List.append_assoc, left, List.cons_append, Formula.readMark, right]
    rfl
  | @ofConjunction ts φ _ ih => exact ⟨⟨none, φ⟩, rfl, fun rest stack => ih rest none stack⟩
  | @or ts us φ ψ _ _ left right =>
    obtain ⟨a, same, reads⟩ := left
    refine ⟨⟨some φ, ψ⟩, rfl, fun rest stack => ?_⟩
    rw [List.append_assoc, reads, List.cons_append, Formula.readMark, After.disj, same, right]

/-- The reader finds the formula of a row. -/
theorem Reads.read {ts : List Token} {φ : Formula} (h : Reads .disjunction ts φ) :
    Formula.read ts = some φ := by
  obtain ⟨a, same, reads⟩ := h.runs
  have whole := reads [] []
  rw [List.append_nil] at whole
  rw [Formula.read, whole, Formula.readMark, same]

example : Formula.read [.call, .disj, .neg, .call, .conj, .call] =
    some (.or .atom (.and (.neg .atom) .atom)) := by decide

/-- A row of tokens has one formula. -/
theorem Reads.unique {ts : List Token} {φ ψ : Formula} (h : Reads .disjunction ts φ)
    (h' : Reads .disjunction ts ψ) : φ = ψ := by
  have same := h.read.symm.trans h'.read
  exact Option.some.inj same

/-! ## Series -/

/-- Parts of one level with a mark between each two, and their formulas. -/
inductive ReadsSeries (level : Level) (mark : Token) : List Token → List Formula → Prop where
  | one {ts φ} (part : Reads level ts φ) : ReadsSeries level mark ts [φ]
  | more {ts us φs ψ} (front : ReadsSeries level mark ts φs) (last : Reads level us ψ) :
      ReadsSeries level mark (ts ++ mark :: us) (φs ++ [ψ])

theorem Reads.ne_nil {level : Level} {ts : List Token} {φ : Formula} (h : Reads level ts φ) : ts ≠ [] := by
  induction h with
  | ofUnit _ ih => exact ih
  | ofConjunction _ ih => exact ih
  | _ => simp

namespace ReadsSeries

variable {level : Level} {mark : Token} {ts us : List Token} {φs ψs : List Formula}

theorem ne_nil (h : ReadsSeries level mark ts φs) : φs ≠ [] := by
  cases h with
  | one => simp
  | more => simp

theorem row_ne_nil (h : ReadsSeries level mark ts φs) : ts ≠ [] := by
  cases h with
  | one part => exact part.ne_nil
  | more => simp

theorem append (h : ReadsSeries level mark ts φs) (h' : ReadsSeries level mark us ψs) :
    ReadsSeries level mark (ts ++ mark :: us) (φs ++ ψs) := by
  induction h' with
  | one part => exact h.more part
  | more _ last ih =>
    have longer := ih.more last
    simpa using longer

theorem count_call (other : mark ≠ .call) (h : ReadsSeries level mark ts φs) :
    ts.count .call = Formula.size φs := by
  induction h with
  | one part => simp [Formula.size, part.count_call]
  | more _ last ih =>
    rw [List.count_append, List.count_cons_of_ne other, ih, last.count_call]
    simp [Formula.size]

/-- A negation before a row of units stands for the negation of the first unit only. -/
theorem neg {φ : Formula} (h : ReadsSeries .unit mark ts (φ :: φs)) :
    ReadsSeries .unit mark (.neg :: ts) (.neg φ :: φs) := by
  generalize all : φ :: φs = units at h
  induction h generalizing φs with
  | one unit =>
    obtain ⟨rfl, rfl⟩ := List.cons.inj all
    exact .one unit.neg
  | @more ts us front ψ h last ih =>
    cases front with
    | nil => exact absurd rfl h.ne_nil
    | cons χ χs =>
      obtain ⟨rfl, rfl⟩ := List.cons.inj all
      exact (ih rfl).more last

theorem reads_allOf (h : ReadsSeries .unit .conj ts φs) : Reads .conjunction ts (Formula.allOf φs) := by
  induction h with
  | one unit => exact .ofUnit unit
  | @more ts us front ψ h last ih =>
    have snoc : Formula.allOf (front ++ [ψ]) = .and (Formula.allOf front) ψ := by
      cases front with
      | nil => exact absurd rfl h.ne_nil
      | cons χ χs => simp [Formula.allOf]
    rw [snoc]
    exact ih.and last

theorem reads_anyOf (h : ReadsSeries .conjunction .disj ts φs) :
    Reads .disjunction ts (Formula.anyOf φs) := by
  induction h with
  | one part => exact .ofConjunction part
  | @more ts us front ψ h last ih =>
    have snoc : Formula.anyOf (front ++ [ψ]) = .or (Formula.anyOf front) ψ := by
      cases front with
      | nil => exact absurd rfl h.ne_nil
      | cons χ χs => simp [Formula.anyOf]
    rw [snoc]
    exact ih.or last

end ReadsSeries

end GraphQuery
