import GraphQuery.Predicate

/-!
# Characters of written predicates

Which characters the written form of a predicate may have. Dropped characters stay
away, with angle brackets around names as the only exception, so no predicate opens or
closes a block, starts a text, or escapes what follows it: its written form is quiet.
-/

namespace GraphQuery.Predicate

open Text

/-! ## Written characters -/

-- Without it, a search through all characters there are may be found first.
instance decidableForallMemChars (p : Char → Prop) [DecidablePred p] (cs : List Char) :
    Decidable (∀ c ∈ cs, p c) := List.decidableBAll p cs

/-- A character that a written predicate may have. -/
def Written (c : Char) : Prop := c ∉ forbidden ∨ c = '<' ∨ c = '>'

theorem written_of_clean {cs : List Char} (allowed : ∀ c ∈ cs, c ∉ forbidden) {c : Char} (member : c ∈ cs) :
    Written c := .inl (allowed c member)

theorem written_bodyChars {cs : List Char} (allowed : ∀ c ∈ cs, c ∉ forbidden) {c : Char}
    (member : c ∈ bodyChars cs) : Written c := by
  unfold bodyChars at member
  split at member
  · exact written_of_clean allowed member
  · split at member
    · next name rest cut =>
      -- The directive is a part of the text, so it is as clean as the text.
      have part : ∀ d ∈ trim rest, d ∉ forbidden := by
        intro d inside
        apply allowed
        rw [eq_append_of_cut? cut]
        exact List.mem_append_right _ (mem_of_mem_trim inside)
      dsimp only at member
      split at member
      · have member := mem_of_mem_trimStart member
        rcases List.mem_append.1 member with inName | inRest
        · exact not_forbidden_or_bracket_of_mem_nameChars inName
        · rcases List.mem_cons.1 inRest with rfl | inRest
          · exact .inl (by decide)
          · rcases List.mem_cons.1 inRest with rfl | inRest
            · exact .inl (by decide)
            · exact written_of_clean part inRest
      · rcases List.mem_append.1 member with inName | inRest
        · exact not_forbidden_or_bracket_of_mem_nameChars inName
        · rcases List.mem_cons.1 inRest with rfl | inRest
          · exact .inl (by decide)
          · exact written_of_clean part inRest
    · exact not_forbidden_or_bracket_of_mem_nameChars member

theorem mem_of_binding? {cs var body : List Char} (h : binding? cs = some (var, body)) {c : Char}
    (member : c ∈ body) : c ∈ cs := by
  unfold binding? at h
  split at h
  · next before rest cut =>
    split at h
    · simp at h
    · simp only [Option.some.injEq, Prod.mk.injEq] at h
      obtain ⟨found, same, _⟩ := eq_append_of_cutFolded? cut
      rw [same]
      rw [← h.2] at member
      exact List.mem_append_right _ (mem_of_mem_trim member)
  · simp at h

theorem mem_of_alias? {cs name body : List Char} (h : alias? cs = some (name, body)) {c : Char}
    (member : c ∈ body) : c ∈ cs := by
  unfold alias? at h
  split at h
  · next before rest cut =>
    split at h
    · simp at h
    · simp only [Option.some.injEq, Prod.mk.injEq] at h
      rw [eq_append_of_cut? cut]
      rw [← h.2] at member
      exact List.mem_append_right _ (mem_of_mem_trim member)
  · simp at h

theorem written_formChars {cs : List Char} (allowed : ∀ c ∈ cs, c ∉ forbidden) {c : Char}
    (member : c ∈ (Form.ofChars cs).chars) : Written c := by
  -- A form is a name, a mark and a body, and the body is a part of the text.
  have named {name mark body : List Char} (marked : ∀ d ∈ mark, d ∉ forbidden)
      (part : ∀ d ∈ body, d ∈ cs) (inside : c ∈ nameChars name ++ mark ++ bodyChars body) : Written c := by
    rcases List.mem_append.1 inside with inside | inBody
    · rcases List.mem_append.1 inside with inName | inMark
      · exact not_forbidden_or_bracket_of_mem_nameChars inName
      · exact written_of_clean marked inMark
    · exact written_bodyChars (fun d inPart => allowed d (part d inPart)) inBody
  unfold Form.ofChars at member
  split at member
  · next var body bound => exact named (by decide) (fun d => mem_of_binding? bound) member
  · next name body _ aliased => exact named (by decide) (fun d => mem_of_alias? aliased) member
  · exact written_bodyChars allowed member

/-- What is written for a predicate has no forbidden character but angle brackets. -/
theorem written_of_mem_predicateChars {cs : List Char} {c : Char} (member : c ∈ predicateChars cs) :
    Written c := by
  unfold predicateChars at member
  dsimp only at member
  split at member
  · simp at member
  · exact written_formChars (fun d inside => not_forbidden_of_mem_clean (mem_of_mem_trim inside)) member

/-! ## Quiet texts -/

/-- The characters that open and close blocks and texts, and those that are dropped with them. -/
def loud : List Char := ['{', '}', '"', '\\', '^', '|']

/-- A text without loud characters. -/
def Quiet (s : String) : Prop := ∀ c ∈ s.toList, c ∉ loud

instance (s : String) : Decidable (Quiet s) := inferInstanceAs (Decidable (∀ c ∈ s.toList, c ∉ loud))

theorem Written.not_loud {c : Char} (h : Written c) : c ∉ loud := by
  rcases h with clean | rfl | rfl
  · have sub : ∀ d ∈ loud, d ∈ forbidden := by decide
    exact fun member => clean (sub c member)
  · decide
  · decide

theorem quiet_append {s t : String} (hs : Quiet s) (ht : Quiet t) : Quiet (s ++ t) := by
  intro c member
  rw [String.toList_append] at member
  rcases List.mem_append.1 member with inside | inside
  · exact hs c inside
  · exact ht c inside

theorem quiet_escape (s : String) : Quiet (escape s) := by
  intro c member
  rw [escape, String.toList_ofList] at member
  exact (written_of_mem_predicateChars member).not_loud

theorem quiet_name (s : String) : Quiet (name s) := by
  intro c member
  rw [name, String.toList_ofList] at member
  exact Written.not_loud (not_forbidden_or_bracket_of_mem_nameChars member)

theorem isDigit_of_mem_toString {n : Nat} {c : Char} (member : c ∈ (toString n).toList) : c.isDigit = true := by
  rw [Nat.toString_eq_repr, Nat.toList_repr] at member
  exact Nat.isDigit_of_mem_toDigits (by omega) (by omega) member

theorem not_mem_of_eq_true {p : Char → Bool} {cs : List Char} (none : ∀ d ∈ cs, p d = false) {c : Char}
    (h : p c = true) : c ∉ cs := by
  intro inside
  rw [none c inside] at h
  cases h

theorem quiet_toString (n : Nat) : Quiet (toString n) := by
  intro c member
  have noDigit : ∀ d ∈ loud, d.isDigit = false := by decide
  exact not_mem_of_eq_true noDigit (isDigit_of_mem_toString member)

theorem quiet_intercalate {sep : String} (hsep : Quiet sep) {ss : List String} (each : ∀ s ∈ ss, Quiet s) :
    Quiet (String.intercalate sep ss) := by
  induction ss with
  | nil =>
    intro c member
    simp at member
  | cons s ss ih =>
    cases ss with
    | nil => simpa using each s (by simp)
    | cons t ts =>
      rw [String.intercalate_cons_cons]
      exact quiet_append (quiet_append (each s (by simp)) hsep)
        (ih fun u member => each u (List.mem_cons_of_mem _ member))

/-! ## Underscores -/

/-- The number of underscores of a text. -/
def underscores (cs : List Char) : Nat := cs.count '_'

theorem underscores_append (cs ds : List Char) : underscores (cs ++ ds) = underscores cs + underscores ds :=
  List.count_append

theorem underscores_clean (cs : List Char) : underscores (clean cs) = underscores cs :=
  List.count_filter (by decide)

theorem underscores_trimStart (cs : List Char) : underscores (trimStart cs) = underscores cs :=
  count_trimStart (by decide) cs

theorem underscores_trim (cs : List Char) : underscores (trim cs) = underscores cs :=
  count_trim (by decide) cs

theorem underscores_nameChars (cs : List Char) : underscores (nameChars cs) = underscores cs := by
  have inner : underscores (trim (clean cs)) = underscores cs := by rw [underscores_trim, underscores_clean]
  unfold nameChars
  rcases bracketed_eq_or (trim (clean cs)) with same | same
  · rw [same, inner]
  · rw [same, ← inner]
    simp [underscores]

theorem underscores_of_cut? {mark cs before rest : List Char} (plain : underscores mark = 0)
    (h : cut? mark cs = some (before, rest)) : underscores cs = underscores before + underscores rest := by
  rw [eq_append_of_cut? h, underscores_append, underscores_append, plain]
  rfl

theorem underscores_bodyChars (cs : List Char) : underscores (bodyChars cs) = underscores cs := by
  unfold bodyChars
  split
  · rfl
  · split
    · next name rest cut =>
      have parts := underscores_of_cut? (by decide) cut
      dsimp only
      split
      · rw [underscores_trimStart, underscores_append, underscores_nameChars, parts, ← underscores_trim rest]
        simp [underscores]
      · rw [underscores_append, underscores_nameChars, parts, ← underscores_trim rest]
        simp [underscores]
    · exact underscores_nameChars cs

theorem underscores_of_binding? {cs var body : List Char} (h : binding? cs = some (var, body)) :
    underscores cs = underscores var + underscores body := by
  unfold binding? at h
  split at h
  · next before rest cut =>
    split at h
    · cases h
    · cases h
      obtain ⟨found, same, folded⟩ := eq_append_of_cutFolded? cut
      -- An underscore in the mark would be there in lower case as well.
      have plain : underscores found = 0 := by
        refine List.count_eq_zero.2 fun member => ?_
        have inMark : asciiLower '_' ∈ found.map asciiLower := List.mem_map_of_mem member
        rw [folded] at inMark
        exact absurd inMark (by decide)
      rw [same, underscores_append, underscores_append, plain, underscores_trim, underscores_trim]
      rfl
  · cases h

theorem underscores_of_alias? {cs name body : List Char} (h : alias? cs = some (name, body)) :
    underscores cs = underscores name + underscores body := by
  unfold alias? at h
  split at h
  · next before rest cut =>
    split at h
    · cases h
    · cases h
      rw [underscores_of_cut? (by decide) cut, underscores_trim, underscores_trim]
  · cases h

theorem underscores_formChars (cs : List Char) : underscores (Form.ofChars cs).chars = underscores cs := by
  unfold Form.ofChars
  split
  · next var body bound =>
    rw [underscores_of_binding? bound, Form.chars, underscores_append, underscores_append, underscores_nameChars,
      underscores_bodyChars]
    rfl
  · next name body _ aliased =>
    rw [underscores_of_alias? aliased, Form.chars, underscores_append, underscores_append, underscores_nameChars,
      underscores_bodyChars]
    rfl
  · exact underscores_bodyChars cs

/-- Escaping keeps the underscores of a text. -/
theorem underscores_escape (s : String) : underscores (escape s).toList = underscores s.toList := by
  have cleaned : underscores (trim (clean s.toList)) = underscores s.toList := by
    rw [underscores_trim, underscores_clean]
  rw [escape, String.toList_ofList, predicateChars]
  split
  · next empty =>
    rw [← cleaned, List.isEmpty_iff.1 empty]
  · rw [underscores_formChars, cleaned]

end GraphQuery.Predicate
