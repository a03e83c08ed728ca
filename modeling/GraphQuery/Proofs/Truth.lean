import GraphQuery.Proofs.Formula

/-!
# Comparing truth values

Two boolean functions of the first positions of an assignment, side by side: what a
formula says and what it should say. Functions of positions that do not overlap can be
given their values apart, so a conjunction of both sides agrees everywhere only if its
parts do, provided the other part can be made true on both sides at once. Main
statements: `Tracks.and`, `Tracks.or` and `Tracks.flip`.
-/

namespace GraphQuery

namespace Assignment

theorem later_later (σ : Assignment) (k l : Nat) : (σ.later k).later l = σ.later (k + l) := by
  funext i
  simp only [later]
  rw [Nat.add_assoc]

theorem later_zero (σ : Assignment) : σ.later 0 = σ := by
  funext i
  rw [later, Nat.zero_add]

/-- The values of one assignment for the first `k` positions, those of another from there on. -/
def splice (k : Nat) (σ τ : Assignment) : Assignment := fun i => if i < k then σ i else τ (i - k)

theorem later_splice (k : Nat) (σ τ : Assignment) : (splice k σ τ).later k = τ := by
  funext i
  have behind : ¬ k + i < k := by omega
  simp only [later, splice, if_neg behind]
  rw [Nat.add_sub_cancel_left]

end Assignment

open Assignment (splice later_splice)

/-- A function that depends on the first `k` positions only. -/
def Local (k : Nat) (V : Assignment → Bool) : Prop := ∀ σ τ, (∀ i < k, σ i = τ i) → V σ = V τ

namespace Local

variable {k l : Nat} {V W : Assignment → Bool}

theorem splice (h : Local k V) (σ τ : Assignment) : V (splice k σ τ) = V σ := by
  apply h
  intro i below
  simp only [Assignment.splice, if_pos below]

theorem later (h : Local l W) : Local (k + l) fun σ => W (σ.later k) := by
  intro σ τ same
  apply h
  intro i below
  exact same (k + i) (by omega)

theorem mono (h : Local k V) (le : k ≤ l) : Local l V := by
  intro σ τ same
  exact h σ τ fun i below => same i (by omega)

theorem and (h : Local k V) (h' : Local l W) : Local (k + l) fun σ => V σ && W (σ.later k) := by
  intro σ τ same
  have left := h.mono (Nat.le_add_right k l) σ τ same
  have right := h'.later σ τ same
  simp only [left, right]

theorem or (h : Local k V) (h' : Local l W) : Local (k + l) fun σ => V σ || W (σ.later k) := by
  intro σ τ same
  have left := h.mono (Nat.le_add_right k l) σ τ same
  have right := h'.later σ τ same
  simp only [left, right]

end Local

/-! ## Two sides -/

def Meets (b : Bool) (V H : Assignment → Bool) : Prop := ∃ σ, V σ = b ∧ H σ = b

/-- Two sides of the first `k` positions. Both can be given the neutral value at once, and if they
    have a position at all, the other value too; `same` says whether they agree everywhere. -/
structure Tracks (neutral : Bool) (k : Nat) (V H : Assignment → Bool) (same : Bool) : Prop where
  left_local : Local k V
  right_local : Local k H
  meets : Meets neutral V H
  meets_other : 0 < k → Meets (!neutral) V H
  agree_iff : (∀ σ, V σ = H σ) ↔ same = true

namespace Tracks

variable {b s s' : Bool} {k l : Nat} {V V' H H' : Assignment → Bool}

theorem refl (localV : Local k V) (meets : ∃ σ, V σ = b) (other : 0 < k → ∃ σ, V σ = !b) :
    Tracks b k V V true := by
  obtain ⟨σ, value⟩ := meets
  refine ⟨localV, localV, ⟨σ, value, value⟩, fun some => ?_, by simp⟩
  obtain ⟨τ, value⟩ := other some
  exact ⟨τ, value, value⟩

theorem not (h : Tracks b k V H s) : Tracks (!b) k (fun σ => !V σ) (fun σ => !H σ) s := by
  have flipped {c : Bool} (meets : Meets c V H) : Meets (!c) (fun σ => !V σ) (fun σ => !H σ) := by
    obtain ⟨σ, left, right⟩ := meets
    exact ⟨σ, by simp [left], by simp [right]⟩
  refine ⟨?_, ?_, flipped h.meets, fun some => flipped (h.meets_other some), ?_⟩
  · intro σ τ same
    simp only [h.left_local σ τ same]
  · intro σ τ same
    simp only [h.right_local σ τ same]
  · rw [← h.agree_iff]
    simp

/-- Both sides of a conjunction of parts that have no position in common. -/
theorem and (h : Tracks true k V H s) (h' : Tracks true l V' H' s') :
    Tracks true (k + l) (fun σ => V σ && V' (σ.later k)) (fun σ => H σ && H' (σ.later k)) (s && s') := by
  obtain ⟨σ₁, leftTrue, rightTrue⟩ := h.meets
  obtain ⟨σ₂, leftTrue', rightTrue'⟩ := h'.meets
  have left (σ τ : Assignment) :
      (V (splice k σ τ) && V' ((splice k σ τ).later k)) = (V σ && V' τ) := by
    rw [h.left_local.splice, later_splice]
  have right (σ τ : Assignment) :
      (H (splice k σ τ) && H' ((splice k σ τ).later k)) = (H σ && H' τ) := by
    rw [h.right_local.splice, later_splice]
  refine ⟨h.left_local.and h'.left_local, h.right_local.and h'.right_local, ?_, ?_, ?_⟩
  · exact ⟨splice k σ₁ σ₂, by simp [left, leftTrue, leftTrue'], by simp [right, rightTrue, rightTrue']⟩
  · intro some
    by_cases first : 0 < k
    · obtain ⟨τ, leftFalse, rightFalse⟩ := h.meets_other first
      exact ⟨splice k τ σ₂, by simp [left, leftFalse], by simp [right, rightFalse]⟩
    · obtain ⟨τ, leftFalse, rightFalse⟩ := h'.meets_other (by omega)
      exact ⟨splice k σ₁ τ, by simp [left, leftFalse], by simp [right, rightFalse]⟩
  · rw [Bool.and_eq_true, ← h.agree_iff, ← h'.agree_iff]
    constructor
    · -- With the other part true on both sides, a part decides the conjunction.
      intro agree
      constructor
      · intro σ
        have whole := agree (splice k σ σ₂)
        rw [left, right, leftTrue', rightTrue'] at whole
        simpa using whole
      · intro σ
        have whole := agree (splice k σ₁ σ)
        rw [left, right, leftTrue, rightTrue] at whole
        simpa using whole
    · rintro ⟨first, second⟩ σ
      rw [first, second]

theorem or (h : Tracks false k V H s) (h' : Tracks false l V' H' s') :
    Tracks false (k + l) (fun σ => V σ || V' (σ.later k)) (fun σ => H σ || H' (σ.later k)) (s && s') := by
  have negated := (h.not.and h'.not).not
  simpa using negated

/-- Both sides negated or not, with either value as the neutral one. -/
theorem flip (h : Tracks b k V H s) (some : 0 < k) (c d : Bool) :
    Tracks d k (fun σ => V σ ^^ c) (fun σ => H σ ^^ c) s := by
  have all (e : Bool) : Meets e (fun σ => V σ ^^ c) (fun σ => H σ ^^ c) := by
    have either : Meets (e ^^ c) V H := by
      by_cases neutral : (e ^^ c) = b
      · rw [neutral]
        exact h.meets
      · have other : (e ^^ c) = !b := Bool.eq_not_of_ne neutral
        rw [other]
        exact h.meets_other some
    obtain ⟨σ, left, right⟩ := either
    exact ⟨σ, by simp [left], by simp [right]⟩
  refine ⟨?_, ?_, all d, fun _ => all _, ?_⟩
  · intro σ τ same
    simp only [h.left_local σ τ same]
  · intro σ τ same
    simp only [h.right_local σ τ same]
  · rw [← h.agree_iff]
    simp

/-- A negation that reaches the first position only, against one of the whole conjunction. -/
theorem first {R : Assignment → Bool} (localR : Local l R) (top : ∃ σ, R σ = true)
    (bottom : 0 < l → ∃ σ, R σ = false) (odd : Bool) :
    Tracks true (1 + l) (fun σ => (σ 0 ^^ odd) && R (σ.later 1)) (fun σ => (σ 0 && R (σ.later 1)) ^^ odd)
      (!odd || l = 0) := by
  have one (g : Bool → Bool) : Local 1 fun σ : Assignment => g (σ 0) := by
    intro σ τ same
    simp only [same 0 (by omega)]
  have start (c : Bool) (τ : Assignment) : splice 1 (fun _ => c) τ 0 = c := by simp [Assignment.splice]
  obtain ⟨σ, holds⟩ := top
  refine ⟨(one (· ^^ odd)).and localR, ?_, ?_, fun _ => ?_, ?_⟩
  · intro τ υ same
    have plain := ((one id).and localR) τ υ same
    simp only [id] at plain
    simp only [plain]
  · exact ⟨splice 1 (fun _ => !odd) σ, by simp [start, later_splice, holds],
      by simp [start, later_splice, holds]⟩
  · exact ⟨splice 1 (fun _ => odd) σ, by simp [start, later_splice, holds],
      by simp [start, later_splice, holds]⟩
  · cases odd with
    | false => simp
    | true =>
      simp only [Bool.not_true, Bool.false_or, decide_eq_true_eq]
      constructor
      · intro agree
        by_contra some
        obtain ⟨τ, fails⟩ := bottom (by omega)
        have differ := agree (splice 1 (fun _ => false) τ)
        simp [start, later_splice, fails] at differ
      · rintro rfl τ
        have constant : R (τ.later 1) = R σ := localR _ _ (by omega)
        rw [constant, holds]
        simp

/-- Sides without a position agree. -/
theorem same_of_zero (h : Tracks b 0 V H s) : s = true := by
  rw [← h.agree_iff]
  intro σ
  obtain ⟨τ, left, right⟩ := h.meets
  have constant : V σ = V τ := h.left_local σ τ (by omega)
  have constant' : H σ = H τ := h.right_local σ τ (by omega)
  rw [constant, constant', left, right]

end Tracks

/-! ## Lists of formulas -/

namespace Formula

/-- Whether all of the formulas hold, the atoms of each coming after those of the ones before. -/
def evalAll : List Formula → Assignment → Bool
  | [], _ => true
  | φ :: φs, σ => φ.eval σ && evalAll φs (σ.later φ.atoms)

def evalAny : List Formula → Assignment → Bool
  | [], _ => false
  | φ :: φs, σ => φ.eval σ || evalAny φs (σ.later φ.atoms)

theorem atoms_pos (φ : Formula) : 0 < φ.atoms := by
  induction φ with
  | atom => simp [atoms]
  | neg φ ih => exact ih
  | and φ ψ left right => simp only [atoms]; omega
  | or φ ψ left right => simp only [atoms]; omega

theorem size_cons (φ : Formula) (φs : List Formula) : size (φ :: φs) = φ.atoms + size φs := by
  simp [size]

theorem size_append (φs ψs : List Formula) : size (φs ++ ψs) = size φs + size ψs := by
  simp [size]

theorem size_pos {φs : List Formula} (some : φs ≠ []) : 0 < size φs := by
  cases φs with
  | nil => exact absurd rfl some
  | cons φ φs =>
    have := φ.atoms_pos
    rw [size_cons]
    omega

theorem local_eval (φ : Formula) : Local φ.atoms φ.eval := by
  induction φ with
  | atom =>
    intro σ τ same
    exact same 0 (by simp [atoms])
  | neg φ ih =>
    intro σ τ same
    simp only [eval, ih σ τ same]
  | and φ ψ left right => exact left.and right
  | or φ ψ left right => exact left.or right

theorem local_evalAll (φs : List Formula) : Local (size φs) (evalAll φs) := by
  induction φs with
  | nil =>
    intro σ τ same
    rfl
  | cons φ φs ih =>
    rw [size_cons]
    exact φ.local_eval.and ih

theorem evalAll_append (φs ψs : List Formula) (σ : Assignment) :
    evalAll (φs ++ ψs) σ = (evalAll φs σ && evalAll ψs (σ.later (size φs))) := by
  induction φs generalizing σ with
  | nil => simp [evalAll, size, Assignment.later_zero]
  | cons φ φs ih =>
    rw [List.cons_append, evalAll, evalAll, ih, Assignment.later_later, size_cons, Bool.and_assoc]

theorem evalAny_append (φs ψs : List Formula) (σ : Assignment) :
    evalAny (φs ++ ψs) σ = (evalAny φs σ || evalAny ψs (σ.later (size φs))) := by
  induction φs generalizing σ with
  | nil => simp [evalAny, size, Assignment.later_zero]
  | cons φ φs ih =>
    rw [List.cons_append, evalAny, evalAny, ih, Assignment.later_later, size_cons, Bool.or_assoc]

theorem foldl_and (φ : Formula) (φs : List Formula) :
    (φs.foldl .and φ).atoms = size (φ :: φs) ∧ (φs.foldl .and φ).eval = evalAll (φ :: φs) := by
  induction φs generalizing φ with
  | nil =>
    refine ⟨by simp [size], ?_⟩
    funext σ
    simp [evalAll]
  | cons ψ φs ih =>
    obtain ⟨atomsOf, evalOf⟩ := ih (.and φ ψ)
    constructor
    · rw [List.foldl_cons, atomsOf]
      simp only [size_cons, atoms]
      omega
    · rw [List.foldl_cons, evalOf]
      funext σ
      simp only [evalAll, eval, atoms, Assignment.later_later, Bool.and_assoc]

theorem foldl_or (φ : Formula) (φs : List Formula) :
    (φs.foldl .or φ).atoms = size (φ :: φs) ∧ (φs.foldl .or φ).eval = evalAny (φ :: φs) := by
  induction φs generalizing φ with
  | nil =>
    refine ⟨by simp [size], ?_⟩
    funext σ
    simp [evalAny]
  | cons ψ φs ih =>
    obtain ⟨atomsOf, evalOf⟩ := ih (.or φ ψ)
    constructor
    · rw [List.foldl_cons, atomsOf]
      simp only [size_cons, atoms]
      omega
    · rw [List.foldl_cons, evalOf]
      funext σ
      simp only [evalAny, eval, atoms, Assignment.later_later, Bool.or_assoc]

theorem eval_allOf {φs : List Formula} (some : φs ≠ []) : (allOf φs).eval = evalAll φs := by
  cases φs with
  | nil => exact absurd rfl some
  | cons φ φs => exact (foldl_and φ φs).2

theorem eval_anyOf {φs : List Formula} (some : φs ≠ []) : (anyOf φs).eval = evalAny φs := by
  cases φs with
  | nil => exact absurd rfl some
  | cons φ φs => exact (foldl_or φ φs).2

theorem atoms_allOf {φs : List Formula} (some : φs ≠ []) : (allOf φs).atoms = size φs := by
  cases φs with
  | nil => exact absurd rfl some
  | cons φ φs => exact (foldl_and φ φs).1

theorem atoms_anyOf {φs : List Formula} (some : φs ≠ []) : (anyOf φs).atoms = size φs := by
  cases φs with
  | nil => exact absurd rfl some
  | cons φ φs => exact (foldl_or φ φs).1

end Formula

end GraphQuery
