import GraphQuery.Json.Reader

/-!
# Documents are read to their end

The readers of a document call each other with a limit on the number of calls inside each
other. Each leaves an end of the text that it is given. Main statement: the limit that is
set by the length of a document is never reached, so every greater one gives the same value.
-/

namespace GraphQuery.Json

open Text

/-! ## What is left of a text -/

theorem skipSpace_suffix (cs : List Char) : skipSpace cs <:+ cs := List.dropWhile_suffix _

theorem suffix_of_skipSpace {cs rest : List Char} {c : Char} (h : skipSpace cs = c :: rest) : rest <:+ cs :=
  (List.suffix_cons c rest).trans (h ▸ skipSpace_suffix cs)

theorem length_of_skipSpace {cs rest : List Char} {c : Char} (h : skipSpace cs = c :: rest) :
    rest.length < cs.length := by
  have whole := (skipSpace_suffix cs).length_le
  rw [h, List.length_cons] at whole
  omega

/-- A result is made into another one, and what is left over stays the same. -/
theorem exists_of_map {α β : Type} {read : Option (α × List Char)} {make : α × List Char → β × List Char} {b : β}
    {rest : List Char} (h : read.map make = some (b, rest)) (keeps : ∀ x, (make x).2 = x.2) :
    ∃ a, read = some (a, rest) := by
  obtain ⟨⟨a, left⟩, found, same⟩ := Option.map_eq_some_iff.1 h
  obtain rfl : left = rest := (keeps (a, left)).symm.trans (congrArg Prod.snd same)
  exact ⟨a, found⟩

theorem pieces?_suffix {cs rest : List Char} {ps : List Piece} (h : pieces? cs = some (ps, rest)) : rest <:+ cs := by
  fun_induction pieces? cs generalizing ps rest with
  | case1 => cases h
  | case2 cs =>
    cases h
    exact List.suffix_cons _ _
  | case4 a b c d cs n ps rest read _ _ ih =>
    cases h
    exact (ih read).trans ⟨['\\', 'u', a, b, c, d], rfl⟩
  | case7 e cs _ b ps rest read _ _ ih =>
    cases h
    exact (ih read).trans ⟨['\\', e], rfl⟩
  | case10 c cs _ _ _ ih =>
    obtain ⟨ps, read⟩ := exists_of_map h fun _ => rfl
    exact (ih read).trans (List.suffix_cons c cs)
  | _ => cases h

theorem fraction?_suffix {cs ds rest : List Char} (h : fraction? cs = some (ds, rest)) : rest <:+ cs := by
  unfold fraction? at h
  split at h
  · dsimp only at h
    split at h
    · cases h
    · cases h
      exact (List.dropWhile_suffix _).trans (List.suffix_cons _ _)
  · cases h
    exact List.suffix_rfl

theorem sign_suffix (cs : List Char) : (DecimalText.sign cs).2 <:+ cs := by
  unfold DecimalText.sign
  split
  · exact List.suffix_cons _ _
  · exact List.suffix_cons _ _
  · exact List.suffix_rfl

theorem exponent?_suffix {cs rest : List Char} {e : Option (Bool × List Char)} (h : exponent? cs = some (e, rest)) :
    rest <:+ cs := by
  unfold exponent? at h
  split at h
  · cases h
    exact List.suffix_rfl
  · next c cs =>
    split at h
    · dsimp only at h
      split at h
      · cases h
      · cases h
        exact (List.dropWhile_suffix _).trans ((sign_suffix cs).trans (List.suffix_cons c cs))
    · cases h
      exact List.suffix_rfl

theorem number?_suffix {cs rest : List Char} {t : NumberText} (h : number? cs = some (t, rest)) : rest <:+ cs := by
  unfold number? at h
  split at h
  next negative ds signed =>
  have unsigned : ds <:+ cs := by
    split at signed
    · cases signed
      exact List.suffix_cons _ _
    · cases signed
      exact List.suffix_rfl
  dsimp only at h
  split at h
  · cases h
  · obtain ⟨⟨fraction, left⟩, point, h⟩ := Option.bind_eq_some_iff.1 h
    obtain ⟨⟨exponent, last⟩, power, h⟩ := Option.bind_eq_some_iff.1 h
    cases h
    exact (exponent?_suffix power).trans ((fraction?_suffix point).trans ((List.dropWhile_suffix _).trans unsigned))

theorem plain?_suffix {cs rest : List Char} {t : Tree} (h : plain? cs = some (t, rest)) : rest <:+ cs := by
  have word {mark left : List Char} (found : after? id mark cs = some left) : left <:+ cs := by
    obtain ⟨first, rfl, _⟩ := eq_append_of_after? found
    exact List.suffix_append _ _
  unfold plain? at h
  split at h
  · next found =>
    cases h
    exact word found
  · next found _ =>
    cases h
    exact word found
  · next found _ _ =>
    cases h
    exact word found
  · obtain ⟨t, read⟩ := exists_of_map h fun _ => rfl
    exact number?_suffix read

mutual

/-- What is left after a document is an end of the text. -/
theorem tree?_suffix {fuel : Nat} {cs rest : List Char} {t : Tree} (h : tree? fuel cs = some (t, rest)) :
    rest <:+ cs := by
  cases fuel with
  | zero => cases h
  | succ fuel =>
    rw [tree?] at h
    split at h
    · next found =>
      obtain ⟨ps, read⟩ := exists_of_map h fun _ => rfl
      exact (pieces?_suffix read).trans (suffix_of_skipSpace found)
    · next found =>
      split at h
      · next closed =>
        cases h
        exact (suffix_of_skipSpace closed).trans (suffix_of_skipSpace found)
      · obtain ⟨ts, read⟩ := exists_of_map h fun _ => rfl
        exact (items?_suffix read).trans ((skipSpace_suffix _).trans (suffix_of_skipSpace found))
    · next found =>
      split at h
      · next closed =>
        cases h
        exact (suffix_of_skipSpace closed).trans (suffix_of_skipSpace found)
      · obtain ⟨ms, read⟩ := exists_of_map h fun _ => rfl
        exact (members?_suffix read).trans ((skipSpace_suffix _).trans (suffix_of_skipSpace found))
    · exact (plain?_suffix h).trans (skipSpace_suffix cs)

theorem items?_suffix {fuel : Nat} {cs rest : List Char} {ts : List Tree} (h : items? fuel cs = some (ts, rest)) :
    rest <:+ cs := by
  cases fuel with
  | zero => cases h
  | succ fuel =>
    rw [items?] at h
    split at h
    · cases h
    · next read =>
      have inside := tree?_suffix read
      split at h
      · next closed =>
        cases h
        exact (suffix_of_skipSpace closed).trans inside
      · next more =>
        obtain ⟨ts, read⟩ := exists_of_map h fun _ => rfl
        exact (items?_suffix read).trans ((suffix_of_skipSpace more).trans inside)
      · cases h

theorem members?_suffix {fuel : Nat} {cs rest : List Char} {ms : List (Option String × Tree)}
    (h : members? fuel cs = some (ms, rest)) : rest <:+ cs := by
  cases fuel with
  | zero => cases h
  | succ fuel =>
    rw [members?] at h
    split at h
    · cases h
    · next read =>
      have inside := member?_suffix read
      split at h
      · next closed =>
        cases h
        exact (suffix_of_skipSpace closed).trans inside
      · next more =>
        obtain ⟨ms, read⟩ := exists_of_map h fun _ => rfl
        exact (members?_suffix read).trans ((suffix_of_skipSpace more).trans inside)
      · cases h

theorem member?_suffix {fuel : Nat} {cs rest : List Char} {m : Option String × Tree}
    (h : member? fuel cs = some (m, rest)) : rest <:+ cs := by
  cases fuel with
  | zero => cases h
  | succ fuel =>
    rw [member?] at h
    split at h
    · next found =>
      split at h
      · cases h
      · next key =>
        split at h
        · next colon =>
          obtain ⟨t, read⟩ := exists_of_map h fun _ => rfl
          exact (tree?_suffix read).trans ((suffix_of_skipSpace colon).trans
            ((pieces?_suffix key).trans (suffix_of_skipSpace found)))
        · cases h
    · cases h

end

/-! ## Enough calls -/

-- The items and the members of a document start after a bracket, but the first of them has all their characters.
-- So the four readers have bounds of their own, which fall from one to the next by the calls that take no character.
mutual

/-- A limit of more than three calls for each character gives the same as the next one. -/
theorem tree?_succ {fuel : Nat} {cs : List Char} (enough : 3 * cs.length + 1 ≤ fuel) :
    tree? (fuel + 1) cs = tree? fuel cs := by
  cases fuel with
  | zero => omega
  | succ fuel =>
    rw [tree?, tree?]
    split
    · rfl
    · next inner found =>
      have shorter := length_of_skipSpace found
      have rest := (skipSpace_suffix inner).length_le
      split
      · rfl
      · rw [items?_succ (by omega)]
    · next inner found =>
      have shorter := length_of_skipSpace found
      have rest := (skipSpace_suffix inner).length_le
      split
      · rfl
      · rw [members?_succ (by omega)]
    · rfl

theorem items?_succ {fuel : Nat} {cs : List Char} (enough : 3 * cs.length + 2 ≤ fuel) :
    items? (fuel + 1) cs = items? fuel cs := by
  cases fuel with
  | zero => omega
  | succ fuel =>
    rw [items?, items?, tree?_succ (by omega)]
    split
    · rfl
    · next read =>
      have first := (tree?_suffix read).length_le
      split
      · rfl
      · next more =>
        have shorter := length_of_skipSpace more
        rw [items?_succ (by omega)]
      · rfl

theorem members?_succ {fuel : Nat} {cs : List Char} (enough : 3 * cs.length + 3 ≤ fuel) :
    members? (fuel + 1) cs = members? fuel cs := by
  cases fuel with
  | zero => omega
  | succ fuel =>
    rw [members?, members?, member?_succ (by omega)]
    split
    · rfl
    · next read =>
      have first := (member?_suffix read).length_le
      split
      · rfl
      · next more =>
        have shorter := length_of_skipSpace more
        rw [members?_succ (by omega)]
      · rfl

theorem member?_succ {fuel : Nat} {cs : List Char} (enough : 3 * cs.length + 2 ≤ fuel) :
    member? (fuel + 1) cs = member? fuel cs := by
  cases fuel with
  | zero => omega
  | succ fuel =>
    rw [member?, member?]
    split
    · next found =>
      have shorter := length_of_skipSpace found
      split
      · rfl
      · next key =>
        have name := (pieces?_suffix key).length_le
        split
        · next colon =>
          have last := length_of_skipSpace colon
          rw [tree?_succ (by omega)]
        · rfl
    · rfl

end

theorem tree?_eq_of_le {fuel : Nat} {cs : List Char} (enough : 3 * cs.length + 1 ≤ fuel) :
    tree? fuel cs = tree? (3 * cs.length + 1) cs := by
  obtain ⟨more, rfl⟩ := Nat.exists_eq_add_of_le enough
  clear enough
  induction more with
  | zero => rfl
  | succ more ih => rw [← Nat.add_assoc, tree?_succ (by omega), ih]

/-- The number of calls that is set for bytes is enough: with any greater one they are read as the same document. -/
theorem Tree.ofBytes?_eq (bytes : List UInt8) {fuel : Nat} (enough : 3 * bytes.length + 3 ≤ fuel) :
    Tree.ofBytes? bytes = match tree? fuel (bytes.map fun b => Char.ofNat b.toNat) with
      | some (t, rest) => if (skipSpace rest).isEmpty then some t else none
      | none => none := by
  have length : (bytes.map fun b => Char.ofNat b.toNat).length = bytes.length := List.length_map _
  have most : 3 * (bytes.map fun b => Char.ofNat b.toNat).length + 1 ≤ fuel := by omega
  have own : 3 * (bytes.map fun b => Char.ofNat b.toNat).length + 1 ≤ 3 * bytes.length + 3 := by omega
  rw [tree?_eq_of_le most, ← tree?_eq_of_le own]
  rfl

end GraphQuery.Json
