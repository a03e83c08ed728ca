import GraphQuery.Expr
import GraphQuery.Proofs.Escaping
import GraphQuery.Proofs.Formula
import GraphQuery.Proofs.Rendering

/-!
# Tokens of a filter

How the text of a filter is cut into tokens, character by character. A call is its
function and all that stands between the brackets after it; a name between angle
brackets may have any brackets inside. Main statement: the state after two texts is that
after the second, started where the first one ended (`Mode.scan_append`), so a text whose
own brackets match does not change the call that it stands in (`Closed.scan_inside`).
-/

namespace GraphQuery

/-- Where a scan stands: between tokens with the start of one, inside a call, or inside a name
    between angle brackets. -/
inductive Mode where
  | outside (word : List Char)
  | inside (depth : Nat)
  | quoted (depth : Nat)
  deriving DecidableEq

/-- The text of a token other than a call. -/
def Token.text : Token → String
  | .call => ""
  | .opening => "("
  | .closing => ")"
  | .neg => "NOT "
  | .conj => Expr.conjunction
  | .disj => Expr.disjunction

def Token.ofWord? (word : List Char) : Option Token :=
  [Token.neg, .conj, .disj].find? fun t => t.text.toList == word

namespace Mode

/-- The mode after a character, and the tokens that end with it. -/
def step : Mode → Char → Mode × List Token
  | .outside word, c =>
    if c = '(' then
      if word = [] then (.outside [], [.opening]) else (.inside 0, [])
    else if c = ')' then (.outside [], [.closing])
    else match Token.ofWord? (word ++ [c]) with
      | some t => (.outside [], [t])
      | none => (.outside (word ++ [c]), [])
  | .inside depth, c =>
    if c = '<' then (.quoted depth, [])
    else if c = '(' then (.inside (depth + 1), [])
    else if c = ')' then
      match depth with
      | 0 => (.outside [], [.call])
      | depth + 1 => (.inside depth, [])
    else (.inside depth, [])
  | .quoted depth, c => if c = '>' then (.inside depth, []) else (.quoted depth, [])

def scan : Mode → List Char → Mode × List Token
  | m, [] => (m, [])
  | m, c :: cs => (((m.step c).1.scan cs).1, (m.step c).2 ++ ((m.step c).1.scan cs).2)

theorem scan_append {m m' : Mode} {xs : List Char} {ts : List Token} (h : m.scan xs = (m', ts))
    (ys : List Char) : m.scan (xs ++ ys) = ((m'.scan ys).1, ts ++ (m'.scan ys).2) := by
  induction xs generalizing m ts with
  | nil =>
    cases h
    rfl
  | cons c cs ih =>
    simp only [scan, Prod.mk.injEq] at h
    obtain ⟨rfl, rfl⟩ := h
    rw [List.cons_append, scan, ih rfl]
    simp

/-! ## Inside a call -/

def InCall : Mode → Prop
  | .outside _ => False
  | _ => True

/-- The same place with more brackets open around it. -/
def deeper (k : Nat) : Mode → Mode
  | .outside word => .outside word
  | .inside depth => .inside (depth + k)
  | .quoted depth => .quoted (depth + k)

theorem step_deeper {m m' : Mode} {c : Char} (k : Nat) (within : m.InCall) (h : m.step c = (m', [])) :
    m'.InCall ∧ (m.deeper k).step c = (m'.deeper k, []) := by
  cases m with
  | outside word => exact absurd within id
  | quoted depth =>
    simp only [step, deeper] at h ⊢
    split at h <;> cases h <;> simp_all [InCall]
  | inside depth =>
    by_cases angle : c = '<'
    · subst angle
      cases h
      exact ⟨trivial, rfl⟩
    by_cases opens : c = '('
    · subst opens
      cases h
      exact ⟨trivial, by simp [step, deeper, Nat.add_right_comm]⟩
    by_cases closes : c = ')'
    · subst closes
      cases depth with
      | zero => cases h
      | succ depth =>
        cases h
        exact ⟨trivial, by simp [step, deeper, Nat.add_right_comm]⟩
    · simp only [step, deeper, angle, opens, closes, ite_false] at h ⊢
      cases h
      exact ⟨trivial, rfl⟩

theorem scan_deeper {m m' : Mode} {cs : List Char} (k : Nat) (within : m.InCall) (h : m.scan cs = (m', [])) :
    (m.deeper k).scan cs = (m'.deeper k, []) := by
  induction cs generalizing m with
  | nil =>
    cases h
    rfl
  | cons c cs ih =>
    simp only [scan, Prod.mk.injEq, List.append_eq_nil_iff] at h
    obtain ⟨last, none, rest⟩ := h
    have quiet : m.step c = ((m.step c).1, []) := Prod.ext rfl none
    obtain ⟨still, stepped⟩ := step_deeper k within quiet
    rw [scan, stepped, ih still (Prod.ext last rest)]
    rfl

end Mode

/-! ## Closed texts -/

/-- Inside a call, the text closes the brackets that it opens, and no other. -/
def Closed (s : String) : Prop := Mode.scan (.inside 0) s.toList = (.inside 0, [])

instance (s : String) : Decidable (Closed s) :=
  inferInstanceAs (Decidable (Mode.scan (.inside 0) s.toList = (.inside 0, [])))

/-- A closed text does not change the call that it stands in, however deep. -/
theorem Closed.scan_inside {s : String} (h : Closed s) (depth : Nat) :
    Mode.scan (.inside depth) s.toList = (.inside depth, []) := by
  have deep := Mode.scan_deeper depth (m := .inside 0) trivial h
  simpa [Mode.deeper] using deep

theorem closed_append {s t : String} (hs : Closed s) (ht : Closed t) : Closed (s ++ t) := by
  unfold Closed
  rw [String.toList_append, Mode.scan_append hs, ht]
  rfl

theorem closed_brackets {s : String} (h : Closed s) : Closed ("(" ++ s ++ ")") := by
  unfold Closed
  have opened : Mode.scan (.inside 0) "(".toList = (.inside 1, []) := by decide
  rw [String.toList_append, String.toList_append, List.append_assoc, Mode.scan_append opened,
    Mode.scan_append (h.scan_inside 1)]
  decide

def brackets : List Char := ['(', ')', '<']

theorem scan_inside_plain {cs : List Char} (plain : ∀ c ∈ cs, c ∉ brackets) (depth : Nat) :
    Mode.scan (.inside depth) cs = (.inside depth, []) := by
  induction cs with
  | nil => rfl
  | cons c cs ih =>
    have stays : Mode.step (.inside depth) c = (.inside depth, []) := by
      have none := plain c (by simp)
      simp only [brackets, List.mem_cons, List.not_mem_nil, not_or, or_false] at none
      obtain ⟨noOpening, noClosing, noAngle⟩ := none
      simp [Mode.step, noOpening, noClosing, noAngle]
    rw [Mode.scan, stays, ih fun d member => plain d (by simp [member])]
    rfl

theorem scan_quoted {cs : List Char} (plain : ∀ c ∈ cs, c ≠ '>') (depth : Nat) :
    Mode.scan (.quoted depth) cs = (.quoted depth, []) := by
  induction cs with
  | nil => rfl
  | cons c cs ih =>
    have stays : Mode.step (.quoted depth) c = (.quoted depth, []) := by
      simp [Mode.step, plain c (by simp)]
    rw [Mode.scan, stays, ih fun d member => plain d (by simp [member])]
    rfl

theorem closed_plain {s : String} (plain : ∀ c ∈ s.toList, c ∉ brackets) : Closed s :=
  scan_inside_plain plain 0

theorem closed_toString (n : Nat) : Closed (toString n) := by
  apply closed_plain
  intro c member
  have noDigit : ∀ d ∈ brackets, d.isDigit = false := by decide
  exact Predicate.not_mem_of_eq_true noDigit (Predicate.isDigit_of_mem_toString member)

/-! ## Names -/

open Predicate in
theorem not_bracket_of_isBare {cs : List Char} (bare : isBare cs = true) : ∀ c ∈ cs, c ∉ brackets := by
  have starts : ∀ d ∈ brackets, isNameStart d = false := by decide
  have goesOn : ∀ d ∈ brackets, isNamePart d = false := by decide
  have body {d : Char} {ds : List Char} (h : (isNameStart d && ds.all isNamePart) = true) :
      ∀ c ∈ d :: ds, c ∉ brackets := by
    simp only [Bool.and_eq_true, List.all_eq_true] at h
    intro c member
    rcases List.mem_cons.1 member with rfl | member
    · exact not_mem_of_eq_true starts h.1
    · exact not_mem_of_eq_true goesOn (h.2 c member)
  -- A tilde may stand before the identifier.
  cases cs with
  | nil => simp
  | cons c cs =>
    by_cases tilde : c = '~'
    · subst tilde
      intro c member
      rcases List.mem_cons.1 member with rfl | member
      · decide
      · cases cs with
        | nil => simp at member
        | cons d ds => exact body bare c member
    · refine body ?_
      simpa [isBare, tilde] using bare

open Predicate in
/-- Whatever the name, its written form has no bracket that is not matched. -/
theorem closed_name (s : String) : Closed (name s) := by
  have clean : ∀ c ∈ Text.trim (clean s.toList), c ≠ '>' := by
    rintro c member rfl
    exact not_forbidden_of_mem_clean (Text.mem_of_mem_trim member) (by decide)
  unfold Closed
  rw [name, String.toList_ofList, nameChars, bracketed]
  split
  · next plain =>
    rw [Bool.or_eq_true] at plain
    rcases plain with empty | bare
    · rw [List.isEmpty_iff.1 empty]
      rfl
    · exact scan_inside_plain (not_bracket_of_isBare bare) 0
  · have opened : Mode.scan (.inside 0) ['<'] = (.quoted 0, []) := by decide
    rw [List.cons_append, ← List.singleton_append, Mode.scan_append opened, Mode.scan_append (scan_quoted clean 0)]
    decide

/-- A predicate with a call or a directive keeps its brackets, matched or not. -/
example : ¬ Closed (Predicate.escape "count(a)) OR eq((b)") := by decide +kernel

/-! ## Fragments -/

namespace Fragment

theorem display_append (f g : Fragment) : (f ++ g).display = f.display ++ g.display := by
  rw [display, render_append]
  rfl

theorem display_text (s : String) : (text s).display = s := render_text _ s

theorem display_slot (v : Value) : (slot v).display = slotMark := by
  simp [display, render, slot, renderSlots]

/-- The tokens of a fragment, each slot shown by its mark. -/
def tokens? (f : Fragment) : Option (List Token) :=
  match Mode.scan (.outside []) f.display.toList with
  | (.outside [], ts) => some ts
  | _ => none

/-- The formula that a fragment stands for. -/
def formula? (f : Fragment) : Option Formula := f.tokens?.bind Formula.read

theorem closed_separated {sep : String} (hsep : Closed sep) {fs : List Fragment}
    (each : ∀ f ∈ fs, Closed f.display) : Closed (separated sep fs).display := by
  induction fs with
  | nil => exact (by decide : Closed "")
  | cons f fs ih =>
    cases fs with
    | nil => exact each f (by simp)
    | cons g fs =>
      rw [separated, display_append, display_append, display_text]
      exact closed_append (closed_append (each f (by simp)) hsep) (ih fun h member => each h (by simp [member]))

theorem closed_join {sep : String} (hsep : Closed sep) {fs : List Fragment}
    (each : ∀ f ∈ fs, Closed f.display) : Closed (join sep fs).display :=
  closed_separated hsep fun f member => each f (List.mem_filter.1 member).1

end Fragment

end GraphQuery
