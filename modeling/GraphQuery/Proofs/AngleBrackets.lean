import GraphQuery.Proofs.Vanishing

/-!
# Angle brackets of written names

Where angle brackets stand in a written predicate or name. They are dropped from what the
caller gives, so each of them comes from a name that is no identifier. Main statement: they
come in pairs, not nested, around names without dropped characters, and a written name
without them is the name.
-/

namespace GraphQuery.Predicate

open Text

/-! ## Identifiers -/

def IsLetter (c : Char) : Prop := ('A' ≤ c ∧ c ≤ 'Z') ∨ ('a' ≤ c ∧ c ≤ 'z')

/-- An identifier with or without a tilde before it: `~?[A-Za-z_][A-Za-z0-9_.]*`. -/
def IsIdentifier (cs : List Char) : Prop :=
  ∃ tilde first rest, cs = tilde ++ first :: rest ∧ (tilde = [] ∨ tilde = ['~']) ∧ (IsLetter first ∨ first = '_') ∧
    ∀ c ∈ rest, IsLetter c ∨ ('0' ≤ c ∧ c ≤ '9') ∨ c = '_' ∨ c = '.'

theorem isAlpha_iff (c : Char) : c.isAlpha = true ↔ IsLetter c := by
  have upper : c.isUpper = true ↔ 'A' ≤ c ∧ c ≤ 'Z' := decide_eq_true_iff
  have lower : c.isLower = true ↔ 'a' ≤ c ∧ c ≤ 'z' := by
    have bounds : c.isLower = true ↔ decide ('a'.val ≤ c.val) = true ∧ decide (c.val ≤ 'z'.val) = true :=
      Bool.and_eq_true_iff
    rw [bounds, decide_eq_true_iff, decide_eq_true_iff]
    rfl
  have either : c.isAlpha = true ↔ c.isUpper = true ∨ c.isLower = true := Bool.or_eq_true_iff
  rw [either, upper, lower, IsLetter]

theorem isNameStart_iff (c : Char) : isNameStart c = true ↔ IsLetter c ∨ c = '_' := by
  rw [isNameStart, Bool.or_eq_true, isAlpha_iff, beq_iff_eq]

theorem isNamePart_iff (c : Char) : isNamePart c = true ↔ IsLetter c ∨ ('0' ≤ c ∧ c ≤ '9') ∨ c = '_' ∨ c = '.' := by
  have digit : c.isDigit = true ↔ '0' ≤ c ∧ c ≤ '9' := by
    simp only [Char.isDigit, Bool.and_eq_true, decide_eq_true_eq]
    rfl
  simp only [isNamePart, Char.isAlphanum, Bool.or_eq_true, isAlpha_iff, digit, beq_iff_eq, or_assoc]

/-- The names that need no brackets are the identifiers. -/
theorem isBare_iff (cs : List Char) : isBare cs = true ↔ IsIdentifier cs := by
  have body (first : Char) (rest : List Char) : (isNameStart first && rest.all isNamePart) = true ↔
      (IsLetter first ∨ first = '_') ∧ ∀ c ∈ rest, IsLetter c ∨ ('0' ≤ c ∧ c ≤ '9') ∨ c = '_' ∨ c = '.' := by
    simp only [Bool.and_eq_true, List.all_eq_true, isNameStart_iff, isNamePart_iff]
  have starts : ¬ (IsLetter '~' ∨ '~' = '_') := by
    rw [← isNameStart_iff]
    decide
  constructor
  · intro bare
    match cs with
    | [] => cases bare
    | c :: rest =>
      by_cases tilde : c = '~'
      · subst tilde
        match rest with
        | [] => cases bare
        | first :: rest => exact ⟨['~'], first, rest, rfl, .inr rfl, (body first rest).1 bare⟩
      · have whole : (isNameStart c && rest.all isNamePart) = true := by simpa [isBare, tilde] using bare
        exact ⟨[], c, rest, rfl, .inl rfl, (body c rest).1 whole⟩
  · rintro ⟨tilde, first, rest, rfl, rfl | rfl, parts⟩
    · have other : first ≠ '~' := by
        rintro rfl
        exact starts parts.1
      simpa [isBare, other] using (body first rest).2 parts
    · exact (body first rest).2 parts

/-! ## Pairs -/

def angles : List Char := ['<', '>']

/-- A text that is not empty, has no blanks at its ends and none of the dropped characters. -/
structure Enclosable (cs : List Char) : Prop where
  filled : cs ≠ []
  trimmed : trim cs = cs
  allowed : ∀ c ∈ cs, c ∉ forbidden

theorem enclosable_trim {cs : List Char} (filled : trim cs ≠ []) (allowed : ∀ c ∈ cs, c ∉ forbidden) :
    Enclosable (trim cs) := ⟨filled, trim_trim cs, fun c member => allowed c (mem_of_mem_trim member)⟩

/-- A text whose angle brackets come in pairs, not nested, each around an enclosable text. -/
inductive Paired : List Char → Prop where
  | nil : Paired []
  | char {c : Char} {cs : List Char} (plain : c ∉ angles) (rest : Paired cs) : Paired (c :: cs)
  | pair {inner cs : List Char} (held : Enclosable inner) (rest : Paired cs) : Paired ('<' :: inner ++ '>' :: cs)

theorem Paired.append {xs ys : List Char} (hx : Paired xs) (hy : Paired ys) : Paired (xs ++ ys) := by
  induction hx with
  | nil => exact hy
  | char plain rest ih => exact .char plain ih
  | pair held rest ih =>
    rw [List.append_assoc, List.cons_append]
    exact .pair held ih

theorem not_angle_of_allowed {c : Char} (allowed : c ∉ forbidden) : c ∉ angles := by
  intro angle
  have dropped : ∀ d ∈ angles, d ∈ forbidden := by decide
  exact allowed (dropped c angle)

theorem paired_of_allowed {cs : List Char} (allowed : ∀ c ∈ cs, c ∉ forbidden) : Paired cs := by
  induction cs with
  | nil => exact .nil
  | cons c cs ih =>
    rw [List.forall_mem_cons] at allowed
    exact .char (not_angle_of_allowed allowed.1) (ih allowed.2)

/-- A blank at the start is no bracket. -/
theorem Paired.trimStart {cs : List Char} (paired : Paired cs) : Paired (trimStart cs) := by
  induction paired with
  | nil => exact .nil
  | @char c cs plain rest ih =>
    by_cases blank : isBlank c = true
    · rwa [trimStart_cons_of_blank cs blank]
    · rw [trimStart_cons_of_not_blank cs (by simpa using blank)]
      exact .char plain rest
  | @pair inner cs held rest ih =>
    have kept : Text.trimStart ('<' :: inner ++ '>' :: cs) = '<' :: inner ++ '>' :: cs :=
      trimStart_cons_of_not_blank _ (by decide)
    rw [kept]
    exact .pair held rest

/-! ## Written names -/

theorem allowed_trim_clean (cs : List Char) : ∀ c ∈ trim (clean cs), c ∉ forbidden := by
  intro c member
  exact not_forbidden_of_mem_clean (mem_of_mem_trim member)

/-- What is left of a name that is given. -/
theorem enclosable_or_nil (cs : List Char) : trim (clean cs) = [] ∨ Enclosable (trim (clean cs)) := by
  by_cases empty : trim (clean cs) = []
  · exact .inl empty
  · exact .inr ⟨empty, trim_trim _, allowed_trim_clean cs⟩

/-- A written name is nothing, an identifier, or one pair of angle brackets around what is left of the name. -/
theorem nameChars_cases (cs : List Char) :
    (trim (clean cs) = [] ∧ nameChars cs = []) ∨ (IsIdentifier (trim (clean cs)) ∧ nameChars cs = trim (clean cs)) ∨
      (Enclosable (trim (clean cs)) ∧ ¬ IsIdentifier (trim (clean cs)) ∧ nameChars cs = '<' :: trim (clean cs) ++ ['>']) := by
  unfold nameChars
  rcases enclosable_or_nil cs with empty | enclosable
  · left
    rw [empty]
    exact ⟨rfl, rfl⟩
  · right
    have filled : (trim (clean cs)).isEmpty = false := by simpa using enclosable.filled
    by_cases bare : isBare (trim (clean cs)) = true
    · left
      exact ⟨(isBare_iff _).1 bare, by simp [bracketed, bare]⟩
    · right
      exact ⟨enclosable, fun identifier => bare ((isBare_iff _).2 identifier), by simp [bracketed, filled, bare]⟩

theorem paired_nameChars (cs : List Char) : Paired (nameChars cs) := by
  rcases nameChars_cases cs with ⟨_, same⟩ | ⟨_, same⟩ | ⟨held, _, same⟩
  · rw [same]
    exact .nil
  · rw [same]
    exact paired_of_allowed (allowed_trim_clean cs)
  · rw [same]
    exact .pair held .nil

/-- A written name loses nothing with characters that only its brackets are. -/
theorem filter_nameChars {keep : Char → Bool} (drops : ∀ c ∈ angles, keep c = false)
    (keeps : ∀ c, c ∉ forbidden → keep c = true) (cs : List Char) : (nameChars cs).filter keep = trim (clean cs) := by
  have inner : (trim (clean cs)).filter keep = trim (clean cs) :=
    List.filter_eq_self.2 fun c member => keeps c (allowed_trim_clean cs c member)
  have opening : keep '<' = false := drops '<' (by decide)
  have closing : keep '>' = false := drops '>' (by decide)
  rcases nameChars_cases cs with ⟨empty, same⟩ | ⟨_, same⟩ | ⟨_, _, same⟩
  · rw [same, empty]
    rfl
  · rw [same, inner]
  · rw [same, List.cons_append, List.filter_cons_of_neg (by simp [opening]), List.filter_append, inner]
    simp [closing]

/-! ## Written predicates -/

theorem paired_bodyChars {cs : List Char} (allowed : ∀ c ∈ cs, c ∉ forbidden) : Paired (bodyChars cs) := by
  unfold bodyChars
  split
  · exact paired_of_allowed allowed
  · split
    · next name rest cut =>
      have directive : Paired ('@' :: trim rest) := by
        refine .char (by decide) (paired_of_allowed fun c member => ?_)
        refine allowed c ?_
        rw [eq_append_of_cut? cut]
        exact List.mem_append_right _ (mem_of_mem_trim member)
      dsimp only
      split
      · exact ((paired_nameChars name).append (.char (by decide) directive)).trimStart
      · exact (paired_nameChars name).append directive
    · exact paired_nameChars cs

theorem paired_formChars {cs : List Char} (allowed : ∀ c ∈ cs, c ∉ forbidden) : Paired (Form.ofChars cs).chars := by
  -- A name before the body is paired whatever its text, and the body is a part of the text.
  have marked {name mark body : List Char} (plain : ∀ c ∈ mark, c ∉ forbidden) (part : ∀ c ∈ body, c ∈ cs) :
      Paired (nameChars name ++ mark ++ bodyChars body) := by
    have before := (paired_nameChars name).append (paired_of_allowed plain)
    exact before.append (paired_bodyChars fun c member => allowed c (part c member))
  unfold Form.ofChars
  split
  · next var body bound => exact marked (by decide) fun c => mem_of_binding? bound
  · next name body _ aliased => exact marked (by decide) fun c => mem_of_alias? aliased
  · exact paired_bodyChars allowed

theorem paired_predicateChars (cs : List Char) : Paired (predicateChars cs) := by
  unfold predicateChars
  dsimp only
  split
  · exact .nil
  · exact paired_formChars (allowed_trim_clean cs)

/-! ## Confined texts -/

/-- A text that keeps what is written in it to its place: no character of it opens, closes, separates or quotes,
    and its angle brackets come in pairs. -/
structure Confined (cs : List Char) : Prop where
  quiet : ∀ c ∈ cs, c ∉ ['^', '}', '|', '{', '\\', ',', '"']
  paired : Paired cs

theorem Written.quiet {c : Char} (written : Written c) : c ∉ ['^', '}', '|', '{', '\\', ',', '"'] := by
  have dropped : ∀ d ∈ ['^', '}', '|', '{', '\\', ',', '"'], d ∈ forbidden ∧ d ≠ '<' ∧ d ≠ '>' := by decide
  intro member
  obtain ⟨banned, opening, closing⟩ := dropped c member
  rcases written with allowed | rfl | rfl
  · exact allowed banned
  · exact opening rfl
  · exact closing rfl

/-- Written predicates and names are confined. A written name is empty, an identifier, or one pair of angle brackets
    around a name that is no identifier, and without the brackets it is what is left of the given name when dropped
    characters, and then blanks at its ends, are taken away. -/
theorem written_confined (raw : String) :
    Confined (escape raw).toList ∧ Confined (name raw).toList ∧
    (name raw = "" ∨ IsIdentifier (name raw).toList ∨
      ∃ inner, Enclosable inner ∧ ¬ IsIdentifier inner ∧ (name raw).toList = '<' :: inner ++ ['>']) ∧
    (name raw).toList.filter (· ∉ angles) = trim (strip raw).toList := by
  have named : (name raw).toList = nameChars raw.toList := String.toList_ofList
  have stripped : (strip raw).toList = clean raw.toList := String.toList_ofList
  have escaped : (escape raw).toList = predicateChars raw.toList := String.toList_ofList
  rw [named, stripped, escaped]
  refine ⟨⟨fun c member => (written_of_mem_predicateChars member).quiet, paired_predicateChars _⟩,
    ⟨fun c member => ?_, paired_nameChars _⟩, ?_, ?_⟩
  · exact Written.quiet (not_forbidden_or_bracket_of_mem_nameChars member)
  · rcases nameChars_cases raw.toList with ⟨_, same⟩ | ⟨identifier, same⟩ | ⟨held, other, same⟩
    · left
      rw [name, same, String.ofList_nil]
    · right; left
      rwa [same]
    · right; right
      exact ⟨_, held, other, same⟩
  · exact filter_nameChars (by decide) (fun c allowed => by simpa using not_angle_of_allowed allowed) raw.toList

example : escape "x y : <na>me {z} @filter(eq(a, b))" = "<x y> : <name z> @filter(eq(a b))" := by decide +kernel

end GraphQuery.Predicate
