import GraphQuery.Proofs.Cutting

/-!
# Bindings in a text

Where the word `as` stands between two spaces in a text, and which text is therefore read as
the binding of a variable. Main statements: the reader takes the first of these places, and a
text put together at a character binds a variable in one of its parts or where they meet.
-/

namespace GraphQuery.Predicate

open Text

/-! ## The word -/

/-- The word of a binding, in any letter case. -/
def IsAs (word : List Char) : Prop := word.map asciiLower = ['a', 's']

/-- The word stands in the text, between a space after `before` and a space before `rest`. -/
def AsBetween (before rest cs : List Char) : Prop :=
  ∃ word, IsAs word ∧ cs = before ++ ' ' :: (word ++ ' ' :: rest)

/-- The word stands in the text between two spaces, and no bracket is opened before it. -/
def Binds (cs : List Char) : Prop := ∃ before rest, AsBetween before rest cs ∧ '(' ∉ before

/-- The text has the form `variable as predicate`, with something other than blanks on both sides of the word. -/
def BindsVariable (cs : List Char) : Prop :=
  ∃ before rest, AsBetween before rest cs ∧ '(' ∉ before ∧ trim before ≠ [] ∧ trim rest ≠ []

def EndsWithAs (cs : List Char) : Prop := ∃ before word, IsAs word ∧ cs = before ++ ' ' :: word

def StartsWithAs (cs : List Char) : Prop := ∃ word rest, IsAs word ∧ cs = word ++ ' ' :: rest

theorem isAs_lower : IsAs ['a', 's'] := by unfold IsAs; decide

/-- Folding changes capital letters alone. -/
theorem eq_or_of_asciiLower {c d : Char} (h : asciiLower c = d) : c = d ∨ (65 ≤ c.toNat ∧ c.toNat + 32 = d.toNat) := by
  unfold asciiLower at h
  split at h
  · next capital =>
    right
    have low : 65 ≤ c.toNat := capital.1
    have high : c.toNat ≤ 90 := capital.2
    have valid : (c.toNat + 32).isValidChar := .inl (by omega)
    refine ⟨low, ?_⟩
    rw [← h, Char.ofNat, dif_pos valid]
    rfl
  · exact .inl h

theorem IsAs.mem {word : List Char} (h : IsAs word) {c : Char} (member : c ∈ word) : c ∈ ['a', 's', 'A', 'S'] := by
  have folded : asciiLower c ∈ ['a', 's'] := h ▸ List.mem_map_of_mem member
  have capital {d u : Char} (same : asciiLower c = d) (shift : u.toNat + 32 = d.toNat) : c = d ∨ c = u := by
    rcases eq_or_of_asciiLower same with rfl | ⟨_, sum⟩
    · exact .inl rfl
    · right
      rw [← Char.toNat_inj]
      omega
  rcases List.mem_cons.1 folded with a | s
  · rcases capital (u := 'A') a (by decide) with rfl | rfl <;> decide
  · rcases capital (u := 'S') (List.mem_singleton.1 s) (by decide) with rfl | rfl <;> decide

theorem IsAs.not_mem {word : List Char} (h : IsAs word) {c : Char} (other : c ∉ ['a', 's', 'A', 'S']) : c ∉ word :=
  fun member => other (h.mem member)

theorem not_isAs_nil : ¬ IsAs [] := by
  unfold IsAs
  simp

theorem not_endsWithAs_nil : ¬ EndsWithAs [] := by
  rintro ⟨before, word, _, same⟩
  simp at same

theorem map_asciiLower_eq_iff {found : List Char} :
    found.map asciiLower = [' ', 'a', 's', ' '] ↔ ∃ word, IsAs word ∧ found = ' ' :: (word ++ [' ']) := by
  have space {c : Char} (h : asciiLower c = ' ') : c = ' ' := by
    rcases eq_or_of_asciiLower h with same | ⟨low, sum⟩
    · exact same
    · have code : ' '.toNat = 32 := rfl
      omega
  constructor
  · intro folded
    match found with
    | [b, c, d, e] =>
      simp only [List.map_cons, List.map_nil, List.cons.injEq, and_true] at folded
      obtain ⟨first, a, s, last⟩ := folded
      exact ⟨[c, d], by simp [IsAs, a, s], by rw [space first, space last]; rfl⟩
    | [] => simp at folded
    | [_] => simp at folded
    | [_, _] => simp at folded
    | [_, _, _] => simp at folded
    | _ :: _ :: _ :: _ :: _ :: _ => simp at folded
  · rintro ⟨word, as, rfl⟩
    have blank : asciiLower ' ' = ' ' := by decide
    have folded : word.map asciiLower = ['a', 's'] := as
    simp [blank, folded]

theorem AsBetween.length_lt {before rest cs : List Char} (h : AsBetween before rest cs) : before.length < cs.length := by
  obtain ⟨word, _, rfl⟩ := h
  simp

/-! ## Texts put together -/

/-- The word in a text that is put together at a character is in the part before it, meets it at the end of that
    part, or comes after that part. -/
theorem AsBetween.split {d : Char} (other : d ∉ ['a', 's', 'A', 'S']) {xs ys before rest : List Char}
    (h : AsBetween before rest (xs ++ d :: ys)) :
    (∃ more, AsBetween before more xs) ∨ (d = ' ' ∧ ∃ word, IsAs word ∧ xs = before ++ ' ' :: word) ∨
      ∃ more, before = xs ++ more ∧ AsBetween more rest (d :: ys) := by
  obtain ⟨word, as, same⟩ := h
  rcases append_cons_cases same with ⟨gap, first, after⟩ | ⟨rfl, rfl, rfl⟩ | ⟨gap, rfl, after⟩
  · right; right
    exact ⟨d :: gap, first, word, as, by rw [after]; rfl⟩
  · right; right
    exact ⟨[], by simp, word, as, rfl⟩
  · rcases append_cons_cases after with ⟨inner, rfl, _⟩ | ⟨rfl, rfl, _⟩ | ⟨inner, rfl, _⟩
    · left
      exact ⟨inner, word, as, rfl⟩
    · right; left
      exact ⟨rfl, word, as, rfl⟩
    · exact absurd (by simp) (as.not_mem other)

theorem AsBetween.append {before rest cs : List Char} (h : AsBetween before rest cs) (left right : List Char) :
    AsBetween (left ++ before) (rest ++ right) (left ++ cs ++ right) := by
  obtain ⟨word, as, rfl⟩ := h
  exact ⟨word, as, by simp⟩

theorem Binds.append_right {cs : List Char} (h : Binds cs) (right : List Char) : Binds (cs ++ right) := by
  obtain ⟨before, rest, stands, unopened⟩ := h
  exact ⟨before, rest ++ right, stands.append [] right, unopened⟩

theorem Binds.append_left {cs left : List Char} (h : Binds cs) (closed : '(' ∉ left) : Binds (left ++ cs) := by
  obtain ⟨before, rest, stands, unopened⟩ := h
  have grown := stands.append left []
  rw [List.append_nil, List.append_nil] at grown
  exact ⟨left ++ before, rest, grown, by simp [closed, unopened]⟩

/-- A text that is put together at a character binds a variable in the part before it, or, if that part opens no
    bracket, where the part ends or after it. -/
theorem binds_append_cons_iff {d : Char} (other : d ∉ ['a', 's', 'A', 'S']) (xs ys : List Char) :
    Binds (xs ++ d :: ys) ↔ Binds xs ∨ ('(' ∉ xs ∧ (d = ' ' ∧ EndsWithAs xs ∨ Binds (d :: ys))) := by
  constructor
  · rintro ⟨before, rest, stands, unopened⟩
    rcases stands.split other with ⟨more, inside⟩ | ⟨space, word, as, rfl⟩ | ⟨more, rfl, inside⟩
    · exact .inl ⟨before, more, inside, unopened⟩
    · refine .inr ⟨?_, .inl ⟨space, before, word, as, rfl⟩⟩
      simp [unopened, as.not_mem]
    · rw [List.mem_append, not_or] at unopened
      exact .inr ⟨unopened.1, .inr ⟨more, rest, inside, unopened.2⟩⟩
  · rintro (inside | ⟨closed, ⟨rfl, before, word, as, rfl⟩ | later⟩)
    · exact inside.append_right (d :: ys)
    · refine ⟨before, ys, ⟨word, as, by simp⟩, fun opened => closed ?_⟩
      exact List.mem_append_left _ opened
    · exact later.append_left closed

theorem binds_cons_iff {d : Char} (other : d ≠ ' ') (ys : List Char) : Binds (d :: ys) ↔ d ≠ '(' ∧ Binds ys := by
  constructor
  · rintro ⟨before, rest, ⟨word, as, same⟩, unopened⟩
    cases before with
    | nil => exact absurd (List.cons.inj same).1 other
    | cons c before =>
      obtain ⟨rfl, rfl⟩ := List.cons.inj same
      rw [List.mem_cons, not_or] at unopened
      exact ⟨Ne.symm unopened.1, before, rest, ⟨word, as, rfl⟩, unopened.2⟩
  · rintro ⟨closed, later⟩
    have unopened : '(' ∉ [d] := by simpa using Ne.symm closed
    exact later.append_left unopened

theorem binds_space_cons_iff (ys : List Char) : Binds (' ' :: ys) ↔ StartsWithAs ys ∨ Binds ys := by
  constructor
  · rintro ⟨before, rest, ⟨word, as, same⟩, unopened⟩
    cases before with
    | nil => exact .inl ⟨word, rest, as, (List.cons.inj same).2⟩
    | cons c before =>
      obtain ⟨rfl, rfl⟩ := List.cons.inj same
      rw [List.mem_cons, not_or] at unopened
      exact .inr ⟨before, rest, ⟨word, as, rfl⟩, unopened.2⟩
  · rintro (⟨word, rest, as, rfl⟩ | later)
    · exact ⟨[], rest, ⟨word, as, rfl⟩, by simp⟩
    · have unopened : '(' ∉ [' '] := by decide
      exact later.append_left unopened

theorem startsWithAs_append_cons_iff {d : Char} (other : d ∉ ['a', 's', 'A', 'S']) (xs ys : List Char) :
    StartsWithAs (xs ++ d :: ys) ↔ StartsWithAs xs ∨ (d = ' ' ∧ IsAs xs) := by
  constructor
  · rintro ⟨word, rest, as, same⟩
    rcases append_cons_cases same with ⟨more, rfl, _⟩ | ⟨rfl, rfl, _⟩ | ⟨more, rfl, _⟩
    · exact absurd (by simp) (as.not_mem other)
    · exact .inr ⟨rfl, as⟩
    · exact .inl ⟨word, more, as, rfl⟩
  · rintro (⟨word, rest, as, rfl⟩ | ⟨rfl, as⟩)
    · exact ⟨word, rest ++ d :: ys, as, by simp⟩
    · exact ⟨xs, ys, as, rfl⟩

theorem not_startsWithAs_cons {d : Char} (other : d ∉ ['a', 's', 'A', 'S']) (ys : List Char) :
    ¬ StartsWithAs (d :: ys) := by
  rintro ⟨word, rest, as, same⟩
  cases word with
  | nil => exact not_isAs_nil as
  | cons c word =>
    obtain ⟨rfl, _⟩ := List.cons.inj same
    exact other (as.mem (by simp))

/-! ## Reading a binding -/

/-- The word stands in the text between the two parts, and nowhere before. -/
def AsFirst (before rest cs : List Char) : Prop :=
  AsBetween before rest cs ∧ ∀ other more, AsBetween other more cs → before.length ≤ other.length

theorem AsFirst.unique {before rest before' rest' cs : List Char} (h : AsFirst before rest cs)
    (h' : AsFirst before' rest' cs) : before = before' ∧ rest = rest' := by
  have length := Nat.le_antisymm (h.2 _ _ h'.1) (h'.2 _ _ h.1)
  obtain ⟨word, as, same⟩ := h.1
  obtain ⟨word', as', same'⟩ := h'.1
  rw [same] at same'
  obtain ⟨parts, tail⟩ := List.append_inj same' length
  have space : ' ' ∉ ['a', 's', 'A', 'S'] := by decide
  exact ⟨parts, (append_cons_inj (as.not_mem space) (as'.not_mem space) (List.cons.inj tail).2).2⟩

/-- The reader cuts a text at the first place of the word. -/
theorem cutFolded?_eq_some_iff {cs before rest : List Char} :
    cutFolded? asciiLower [' ', 'a', 's', ' '] cs = some (before, rest) ↔ AsFirst before rest cs := by
  have found {before rest : List Char} (stands : AsBetween before rest cs) : ∃ first after,
      cutFolded? asciiLower [' ', 'a', 's', ' '] cs = some (first, after) ∧ first <+: before := by
    obtain ⟨word, as, rfl⟩ := stands
    have cut := exists_cutFolded? before (map_asciiLower_eq_iff.2 ⟨word, as, rfl⟩) rest
    simpa using cut
  have reads {before rest : List Char} (cut : cutFolded? asciiLower [' ', 'a', 's', ' '] cs = some (before, rest)) :
      AsFirst before rest cs := by
    refine ⟨?_, fun other more stands => ?_⟩
    · obtain ⟨mark, same, folded⟩ := eq_append_of_cutFolded? cut
      obtain ⟨word, as, rfl⟩ := map_asciiLower_eq_iff.1 folded
      exact ⟨word, as, by rw [same]; simp⟩
    · obtain ⟨first, after, again, start⟩ := found stands
      rw [cut] at again
      cases again
      exact start.length_le
  constructor
  · exact reads
  · intro first
    obtain ⟨before', rest', cut, _⟩ := found first.1
    obtain ⟨rfl, rfl⟩ := first.unique (reads cut)
    exact cut

theorem cutFolded?_eq_none_iff {cs : List Char} :
    cutFolded? asciiLower [' ', 'a', 's', ' '] cs = none ↔ ∀ before rest, ¬ AsBetween before rest cs := by
  constructor
  · rintro none before rest ⟨word, as, rfl⟩
    obtain ⟨first, after, cut, _⟩ := exists_cutFolded? before (map_asciiLower_eq_iff.2 ⟨word, as, rfl⟩) rest
    rw [List.append_assoc, List.cons_append, List.append_assoc, List.singleton_append, none] at cut
    cases cut
  · intro absent
    cases cut : cutFolded? asciiLower [' ', 'a', 's', ' '] cs with
    | none => rfl
    | some parts => exact absurd (cutFolded?_eq_some_iff.1 cut).1 (absent _ _)

/-- In a trimmed text, the word has something other than blanks on both sides. -/
theorem AsBetween.filled {before rest cs : List Char} (h : AsBetween before rest cs) (trimmed : trim cs = cs) :
    trim before ≠ [] ∧ trim rest ≠ [] := by
  obtain ⟨word, _, same⟩ := h
  have split : cs = (before ++ ' ' :: word) ++ ' ' :: rest := by
    rw [same]
    simp
  exact ⟨trim_before_ne_nil isBlank_space (same ▸ trimmed), trim_after_ne_nil isBlank_space (split ▸ trimmed)⟩

/-- What a binding is read from: the first place of the word, with no bracket opened before it. -/
theorem binding?_eq_some_iff {cs var body : List Char} (trimmed : trim cs = cs) :
    binding? cs = some (var, body) ↔
      ∃ before rest, AsFirst before rest cs ∧ '(' ∉ before ∧ var = trim before ∧ body = trim rest := by
  constructor
  · intro bound
    unfold binding? at bound
    split at bound
    · next before rest cut =>
      split at bound
      · cases bound
      · next given =>
        cases bound
        simp only [Bool.or_eq_true, not_or, List.contains_iff_mem] at given
        exact ⟨before, rest, cutFolded?_eq_some_iff.1 cut, given.2, rfl, rfl⟩
    · cases bound
  · rintro ⟨before, rest, first, unopened, rfl, rfl⟩
    obtain ⟨filled, later⟩ := first.1.filled trimmed
    unfold binding?
    rw [cutFolded?_eq_some_iff.2 first]
    simp [filled, later, unopened]

/-- A trimmed text is read as no binding exactly if the word stands nowhere in it without a bracket opened before. -/
theorem binding?_eq_none_iff {cs : List Char} (trimmed : trim cs = cs) : binding? cs = none ↔ ¬ Binds cs := by
  rw [← not_iff_not, not_not]
  constructor
  · intro some
    obtain ⟨⟨var, body⟩, bound⟩ := Option.ne_none_iff_exists'.1 some
    obtain ⟨before, rest, first, unopened, _⟩ := (binding?_eq_some_iff trimmed).1 bound
    exact ⟨before, rest, first.1, unopened⟩
  · rintro ⟨before, rest, stands, unopened⟩ none
    cases cut : cutFolded? asciiLower [' ', 'a', 's', ' '] cs with
    | none => exact cutFolded?_eq_none_iff.1 cut before rest stands
    | some parts =>
      have first := cutFolded?_eq_some_iff.1 cut
      -- The first place comes before this one, so no bracket is opened before it either.
      have closed : '(' ∉ parts.1 := by
        have length := first.2 _ _ stands
        obtain ⟨word, _, same⟩ := first.1
        obtain ⟨word', _, same'⟩ := stands
        have start : parts.1 <+: before := List.prefix_of_prefix_length_le ⟨_, same.symm⟩ ⟨_, same'.symm⟩ length
        exact fun opened => unopened (start.subset opened)
      rw [(binding?_eq_some_iff trimmed).2 ⟨_, _, first, closed, rfl, rfl⟩] at none
      cases none

/-- Blanks at the ends of a text are no part of a binding in it. -/
theorem binds_trim_iff (cs : List Char) : Binds (trim cs) ↔ BindsVariable cs := by
  constructor
  · rintro ⟨before, rest, stands, unopened⟩
    obtain ⟨left, right, around, blanks, _⟩ := exists_blanks_around cs
    have grown := stands.append left right
    rw [← around] at grown
    have closed : '(' ∉ left := fun member => absurd (blanks _ member) (by decide)
    obtain ⟨filled, later⟩ := stands.filled (trim_trim cs)
    rw [Ne, trim_eq_nil_iff] at filled later
    refine ⟨left ++ before, rest ++ right, grown, by simp [closed, unopened], ?_, ?_⟩
    · rw [Ne, trim_eq_nil_iff]
      exact fun blank => filled fun c member => blank c (List.mem_append_right _ member)
    · rw [Ne, trim_eq_nil_iff]
      exact fun blank => later fun c member => blank c (List.mem_append_left _ member)
  · rintro ⟨before, rest, ⟨word, as, rfl⟩, unopened, filled, later⟩
    have kept : trim (before ++ ' ' :: (word ++ ' ' :: rest)) =
        trimStart before ++ ' ' :: (word ++ ' ' :: trimEnd rest) := by
      have split (start finish : List Char) :
          start ++ ' ' :: (word ++ ' ' :: finish) = (start ++ ' ' :: (word ++ [' '])) ++ finish := by simp
      rw [trim, trimStart_append filled, split, trimEnd_append later, ← split]
    exact ⟨trimStart before, trimEnd rest, ⟨word, as, kept⟩, fun opened => unopened (mem_of_mem_trimStart opened)⟩

theorem binds_of_binds_trim {cs : List Char} (h : Binds (trim cs)) : Binds cs := by
  obtain ⟨before, rest, stands, unopened, _⟩ := (binds_trim_iff cs).1 h
  exact ⟨before, rest, stands, unopened⟩

end GraphQuery.Predicate
