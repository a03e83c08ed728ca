import GraphQuery.Proofs.Directives

/-!
# Written predicates that are read again

What happens to a written predicate that is given as a predicate again. Angle brackets are
dropped, and what they held is read with the spaces that were written around it. Main
statement: the second reading writes the same text, unless a name with the word `as` at its
end or its start has got a space there, so that it is read as a binding.
-/

namespace GraphQuery.Predicate

open Text

/-! ## Enclosed names -/

theorem trim_between {xs ys : List Char} (hx : Enclosable xs) (hy : Enclosable ys) (mark : List Char) :
    trim (xs ++ mark ++ ys) = xs ++ mark ++ ys := by
  have first : trim xs ≠ [] := hx.trimmed.symm ▸ hx.filled
  have last : trim ys ≠ [] := hy.trimmed.symm ▸ hy.filled
  have start : trimStart xs = xs := by rw [← hx.trimmed, trimStart_trim, hx.trimmed]
  have finish : trimEnd ys = ys := trimEnd_eq_self_iff.2 (trim_eq_self_iff.1 hy.trimmed).2
  rw [trim, List.append_assoc, trimStart_append first, start, ← List.append_assoc, trimEnd_append last, finish]

theorem IsIdentifier.not_mem_space {cs : List Char} (h : IsIdentifier cs) : ' ' ∉ cs := by
  have start : ¬ (IsLetter ' ' ∨ ' ' = '_') := by
    rw [← isNameStart_iff]
    decide
  have part : ¬ (IsLetter ' ' ∨ ('0' ≤ ' ' ∧ ' ' ≤ '9') ∨ ' ' = '_' ∨ ' ' = '.') := by
    rw [← isNamePart_iff]
    decide
  obtain ⟨tilde, first, rest, rfl, before, begins, parts⟩ := h
  rw [List.mem_append, List.mem_cons]
  rintro (inTilde | rfl | inRest)
  · rcases before with rfl | rfl <;> simp at inTilde
  · exact start begins
  · exact part (parts _ inRest)

/-- Two names that are written with a space after them are told apart by what is written. -/
theorem eq_of_nameChars_append {v w xs ys : List Char} (hv : Enclosable v) (hw : Enclosable w)
    (h : nameChars v ++ ' ' :: xs = nameChars w ++ ' ' :: ys) : v = w ∧ xs = ys := by
  have written {n : List Char} (hn : Enclosable n) :
      (IsIdentifier n ∧ nameChars n = n) ∨ nameChars n = '<' :: n ++ ['>'] := by
    have settled : trim (clean n) = n := by rw [clean_eq_self hn.allowed, hn.trimmed]
    have cases := nameChars_cases n
    rw [settled] at cases
    rcases cases with ⟨empty, _⟩ | plain | ⟨_, _, same⟩
    · exact absurd empty hn.filled
    · exact .inl plain
    · exact .inr same
  have apart {n more rest : List Char} (hn : Enclosable n) : n ++ more ≠ '<' :: rest := by
    intro same
    match n, hn with
    | [], hn => exact hn.filled rfl
    | c :: _, hn =>
      cases same
      exact hn.allowed '<' (by simp) (by decide)
  have noAngle {n : List Char} (hn : Enclosable n) : '>' ∉ n := fun member => hn.allowed _ member (by decide)
  rcases written hv with ⟨plain, same⟩ | same <;> rcases written hw with ⟨plain', same'⟩ | same'
  · rw [same, same'] at h
    exact append_cons_inj plain.not_mem_space plain'.not_mem_space h
  · rw [same, same'] at h
    exact absurd h (apart hv)
  · rw [same, same'] at h
    exact absurd h.symm (apart hw)
  · rw [same, same'] at h
    simp only [List.cons_append, List.append_assoc, List.nil_append, List.cons.injEq, true_and] at h
    obtain ⟨names, rest⟩ := append_cons_inj (noAngle hv) (noAngle hw) h
    exact ⟨names, (List.cons.inj rest).2⟩

/-! ## The parts of a form -/

theorem length_trim_le (cs : List Char) : (trim cs).length ≤ cs.length := (Path.infix_trim cs).length_le

/-- The parts of a binding, and the first place of the word in the text that it is read from. -/
theorem parts_of_binding? {cs var body : List Char} (enclosable : Enclosable cs) (bound : binding? cs = some (var, body)) :
    Enclosable var ∧ Enclosable body ∧ '(' ∉ var ∧ ∃ before rest, AsFirst before rest cs ∧ var = trim before := by
  obtain ⟨before, rest, first, unopened, rfl, rfl⟩ := (binding?_eq_some_iff enclosable.trimmed).1 bound
  obtain ⟨filled, later⟩ := first.1.filled enclosable.trimmed
  have allowed := enclosable.allowed
  have first' := first
  obtain ⟨⟨word, as, same⟩, _⟩ := first'
  rw [same] at allowed
  refine ⟨enclosable_trim filled fun c member => allowed c (by simp [member]),
    enclosable_trim later fun c member => allowed c (by simp [member]),
    fun member => unopened (mem_of_mem_trim member), before, rest, first, rfl⟩

theorem parts_of_alias? {cs name body : List Char} (enclosable : Enclosable cs) (free : ¬ Binds cs)
    (aliased : alias? cs = some (name, body)) : Enclosable name ∧ Enclosable body ∧
      (':' ∉ name ∧ '@' ∉ name ∧ '(' ∉ name) ∧ ¬ Binds name ∧ ¬ Binds body := by
  obtain ⟨before, rest, same, mark, sign, bracket, filled, later, rfl, rfl⟩ := alias?_eq_some_iff.1 aliased
  have allowed := enclosable.allowed
  rw [same] at allowed
  have outside {c : Char} (none : c ∉ before) : c ∉ trim before := fun member => none (mem_of_mem_trim member)
  rw [same, binds_append_cons_iff (by decide), binds_cons_iff (by decide)] at free
  have freeName : ¬ Binds before := fun inside => free (.inl inside)
  have freeBody : ¬ Binds rest := fun inside => free (.inr ⟨bracket, .inr ⟨by decide, inside⟩⟩)
  exact ⟨enclosable_trim filled fun c member => allowed c (by simp [member]),
    enclosable_trim later fun c member => allowed c (by simp [member]), ⟨outside mark, outside sign, outside bracket⟩,
    mt binds_of_binds_trim freeName, mt binds_of_binds_trim freeBody⟩

/-- A text that binds a variable is read as a binding. -/
theorem Binds.exists_form {cs : List Char} (h : Binds cs) (enclosable : Enclosable cs) :
    ∃ var body, Form.ofChars cs = .bound var body ∧ binding? cs = some (var, body) := by
  cases bound : binding? cs with
  | none => exact absurd h ((binding?_eq_none_iff enclosable.trimmed).1 bound)
  | some parts => exact ⟨parts.1, parts.2, by rw [Form.ofChars, bound], rfl⟩

/-- What is written for a binding has the word after its variable, and nothing else. -/
theorem Binds.chars_ne {cs name : List Char} {d : Char} (h : Binds cs) (enclosable : Enclosable cs)
    (hn : Enclosable name) (other : d ≠ 'a') (tail : List Char) :
    (Form.ofChars cs).chars ≠ nameChars name ++ ' ' :: d :: tail := by
  intro same
  obtain ⟨var, body, form, read⟩ := h.exists_form enclosable
  obtain ⟨hv, _⟩ := parts_of_binding? enclosable read
  rw [form, Form.chars, List.append_assoc] at same
  obtain ⟨_, tails⟩ := eq_of_nameChars_append hv hn same
  exact other (List.cons.inj tails).1.symm

/-! ## Written forms -/

/-- A space is written at the side of a name where the word stands, so that the text is a binding without its
    brackets: after a variable, an alias or a name before a directive with arguments, and on both sides of the body
    of an alias. -/
def Form.Rebinds : Form → Prop
  | .bound var _ => EndsWithAs var
  | .aliased name body => EndsWithAs name ∨ StartsWithAs (ownName body) ∨ ∃ n ∈ spacedName? body, IsAs n ∨ EndsWithAs n
  | .plain body => ∃ n ∈ spacedName? body, EndsWithAs n

/-- What is written for a form, less the angle brackets. -/
def Form.text (f : Form) : List Char := clean f.chars

theorem Form.text_marked {name mark : List Char} (hn : Enclosable name) (plain : ∀ c ∈ mark, c ∉ forbidden)
    (body : List Char) :
    clean (nameChars name ++ mark ++ bodyChars body) = name ++ mark ++ bodyText body := by
  rw [clean_append, clean_append, clean_nameChars, clean_eq_self hn.allowed, hn.trimmed, clean_eq_self plain, bodyText]

theorem enclosable_marked {name mark body : List Char} (hn : Enclosable name) (hb : Enclosable body)
    (plain : ∀ c ∈ mark, c ∉ forbidden) : Enclosable (name ++ mark ++ bodyText body) := by
  have written := enclosable_bodyText hb
  refine ⟨?_, trim_between hn written mark, ?_⟩
  · simp [hn.filled]
  · intro c member
    rw [List.mem_append, List.mem_append] at member
    rcases member with (inName | inMark) | inBody
    · exact hn.allowed c inName
    · exact plain c inMark
    · exact written.allowed c inBody

theorem Form.text_bound {var : List Char} (hv : Enclosable var) (body : List Char) :
    (Form.bound var body).text = var ++ ' ' :: (['a', 's'] ++ ' ' :: bodyText body) := by
  have plain : ∀ c ∈ [' ', 'a', 's', ' '], c ∉ forbidden := by decide
  have marked := Form.text_marked hv plain body
  simpa [Form.text, Form.chars] using marked

theorem Form.text_aliased {name : List Char} (hn : Enclosable name) (body : List Char) :
    (Form.aliased name body).text = name ++ ' ' :: ':' :: ' ' :: bodyText body := by
  have plain : ∀ c ∈ [' ', ':', ' '], c ∉ forbidden := by decide
  have marked := Form.text_marked hn plain body
  simpa [Form.text, Form.chars] using marked

/-- A form is written with parts that make an enclosable text again. -/
theorem Form.enclosable_text {cs : List Char} (enclosable : Enclosable cs) : Enclosable (Form.ofChars cs).text := by
  unfold Form.ofChars
  split
  · next var body bound =>
    obtain ⟨hv, hb, _⟩ := parts_of_binding? enclosable bound
    rw [Form.text, Form.chars, Form.text_marked hv (by decide)]
    exact enclosable_marked hv hb (by decide)
  · next name body free aliased =>
    have unbound := (binding?_eq_none_iff enclosable.trimmed).1 free
    obtain ⟨hn, hb, _⟩ := parts_of_alias? enclosable unbound aliased
    rw [Form.text, Form.chars, Form.text_marked hn (by decide)]
    exact enclosable_marked hn hb (by decide)
  · exact enclosable_bodyText enclosable

/-! ## Forms that are read again -/

/-- The variable of a binding is found again in what is written, unless it ends with the word. -/
theorem asFirst_text {cs var body : List Char} (enclosable : Enclosable cs) (bound : binding? cs = some (var, body))
    (stays : ¬ EndsWithAs var) : AsFirst var (bodyText body) (var ++ ' ' :: (['a', 's'] ++ ' ' :: bodyText body)) := by
  obtain ⟨_, _, _, before, rest, first, same⟩ := parts_of_binding? enclosable bound
  refine ⟨⟨_, isAs_lower, rfl⟩, fun other more stands => ?_⟩
  rcases stands.split (by decide) with ⟨inner, inside⟩ | ⟨_, word, as, cut⟩ | ⟨inner, rfl, _⟩
  · -- The word would stand in the text before its first place.
    obtain ⟨left, right, around, _⟩ := exists_blanks_around before
    rw [← same] at around
    obtain ⟨word, as, split⟩ := first.1
    have grown := inside.append left (right ++ ' ' :: (word ++ ' ' :: rest))
    have again : left ++ var ++ (right ++ ' ' :: (word ++ ' ' :: rest)) = cs := by
      rw [split, around]
      simp
    rw [again] at grown
    have earlier := first.2 _ _ grown
    have inVar := inside.length_lt
    have length := congrArg List.length around
    simp only [List.length_append] at earlier length
    omega
  · exact absurd ⟨other, word, as, cut⟩ stays
  · simp

/-- A variable that ends with the word is read as a shorter one. -/
theorem exists_shorter_of_endsWithAs {var body : List Char} (whole : Enclosable (var ++ ' ' :: (['a', 's'] ++ ' ' :: body)))
    (unopened : '(' ∉ var) (ends : EndsWithAs var) :
    ∃ var' body', Form.ofChars (var ++ ' ' :: (['a', 's'] ++ ' ' :: body)) = .bound var' body' ∧ Enclosable var' ∧
      var'.length < var.length := by
  obtain ⟨start, word, as, cut⟩ := ends
  have earlier : AsBetween start ('a' :: 's' :: ' ' :: body) (var ++ ' ' :: (['a', 's'] ++ ' ' :: body)) :=
    ⟨word, as, by rw [cut]; simp⟩
  have free : '(' ∉ start := fun member => unopened (by rw [cut]; simp [member])
  obtain ⟨var', body', form, read⟩ := Binds.exists_form ⟨_, _, earlier, free⟩ whole
  obtain ⟨hv, _, _, before, rest, first, same⟩ := parts_of_binding? whole read
  refine ⟨var', body', form, hv, ?_⟩
  have shorter := first.2 _ _ earlier
  have trimmed := length_trim_le before
  rw [← same] at trimmed
  rw [cut, List.length_append, List.length_cons]
  omega

/-- A binding is written again unless its variable ends with the word, which then comes first. -/
theorem chars_reread_bound {cs var body : List Char} (enclosable : Enclosable cs) (bound : binding? cs = some (var, body)) :
    (Form.ofChars (Form.bound var body).text).chars = (Form.bound var body).chars ↔ ¬ (Form.bound var body).Rebinds := by
  obtain ⟨hv, hb, unopened, _⟩ := parts_of_binding? enclosable bound
  have text := Form.text_bound hv body
  have whole : Enclosable (Form.bound var body).text := by
    have written := Form.enclosable_text enclosable
    rwa [Form.ofChars, bound] at written
  by_cases ends : EndsWithAs var
  · refine iff_of_false (fun again => ?_) (not_not.2 ends)
    rw [text] at whole again
    obtain ⟨var', body', form, hv', shorter⟩ := exists_shorter_of_endsWithAs whole unopened ends
    rw [form, Form.chars, Form.chars, List.append_assoc, List.append_assoc] at again
    obtain ⟨rfl, _⟩ := eq_of_nameChars_append hv' hv again
    exact Nat.lt_irrefl _ shorter
  · refine iff_of_true ?_ ends
    have read : binding? (Form.bound var body).text = some (var, bodyText body) := by
      have first := asFirst_text enclosable bound ends
      rw [← text] at first
      rw [binding?_eq_some_iff whole.trimmed]
      exact ⟨var, bodyText body, first, unopened, hv.trimmed.symm, (enclosable_bodyText hb).trimmed.symm⟩
    rw [Form.ofChars, read, Form.chars, Form.chars, bodyChars_bodyText hb]

/-- The text of an alias binds a variable if the word meets one of the spaces around its mark, or a new one in the
    body. -/
theorem binds_aliased_iff {name body : List Char} (hb : Enclosable body) (bracket : '(' ∉ name) (freeName : ¬ Binds name)
    (freeBody : ¬ Binds body) :
    Binds (name ++ ' ' :: ':' :: ' ' :: bodyText body) ↔ (Form.aliased name body).Rebinds := by
  have apart := not_startsWithAs_cons (d := ':') (by decide) (' ' :: bodyText body)
  have colon : ':' ≠ '(' := by decide
  have word : (∃ n ∈ spacedName? body, IsAs n ∨ EndsWithAs n) ↔
      (∃ n ∈ spacedName? body, IsAs n) ∨ ∃ n ∈ spacedName? body, EndsWithAs n := by
    simp only [and_or_left, exists_or]
  rw [binds_append_cons_iff (by decide), binds_space_cons_iff, binds_cons_iff (by decide), binds_space_cons_iff,
    startsWithAs_bodyText_iff hb, binds_bodyText_iff hb freeBody, Form.Rebinds, word]
  simp only [freeName, bracket, apart, colon, false_or, ne_eq, not_false_eq_true, true_and, or_assoc]

/-- An alias is written again unless the word meets such a space. -/
theorem chars_reread_aliased {cs name body : List Char} (enclosable : Enclosable cs) (free : binding? cs = none)
    (aliased : alias? cs = some (name, body)) :
    (Form.ofChars (Form.aliased name body).text).chars = (Form.aliased name body).chars ↔
      ¬ (Form.aliased name body).Rebinds := by
  have unbound := (binding?_eq_none_iff enclosable.trimmed).1 free
  obtain ⟨hn, hb, ⟨mark, sign, bracket⟩, freeName, freeBody⟩ := parts_of_alias? enclosable unbound aliased
  have text := Form.text_aliased hn body
  have whole : Enclosable (Form.aliased name body).text := by
    have written := Form.enclosable_text enclosable
    rwa [Form.ofChars, free, aliased] at written
  rw [← binds_aliased_iff hb bracket freeName freeBody, ← text]
  by_cases rebinds : Binds (Form.aliased name body).text
  · refine iff_of_false (fun again => ?_) (not_not.2 rebinds)
    rw [Form.chars, List.append_assoc] at again
    exact rebinds.chars_ne whole hn (d := ':') (by decide) _ again
  · refine iff_of_true ?_ rebinds
    have unread := (binding?_eq_none_iff whole.trimmed).2 rebinds
    have written := enclosable_bodyText hb
    have before : trim (name ++ [' ']) = name := by rw [trim_append_blanks (by decide), hn.trimmed]
    have after : trim (' ' :: bodyText body) = bodyText body := by
      rw [← List.singleton_append, trim_blanks_append (by decide), written.trimmed]
    have read : alias? (Form.aliased name body).text = some (name, bodyText body) := by
      rw [alias?_eq_some_iff]
      refine ⟨name ++ [' '], ' ' :: bodyText body, by rw [text]; simp, by simp [mark], by simp [sign], by simp [bracket],
        ?_, ?_, before.symm, after.symm⟩
      · rw [before]
        exact hn.filled
      · rw [after]
        exact written.filled
    rw [Form.ofChars, unread, read, Form.chars, Form.chars, bodyChars_bodyText hb]

/-- A name that a space is written after stands at the start of what is written. -/
theorem bodyChars_of_mem_spacedName? {cs n : List Char} (enclosable : Enclosable cs) (member : n ∈ spacedName? cs)
    (filled : n ≠ []) : Enclosable n ∧ ∃ tail, bodyChars cs = nameChars n ++ ' ' :: '@' :: tail := by
  rcases bodyText_cases enclosable with ⟨whole, _⟩ | ⟨plain, name, rest, directs, _⟩
  · exact absurd member (not_mem_spacedName? whole n)
  · obtain ⟨arguments, _, rfl⟩ := directs.mem_spacedName?.1 member
    have allowed := enclosable.allowed
    rw [directs.1, List.forall_mem_append] at allowed
    have enclosed := enclosable_trim filled allowed.1
    have same : nameChars (trim name) = nameChars name := by
      rw [nameChars, nameChars, clean_eq_self enclosed.allowed, trim_trim, clean_eq_self allowed.1]
    refine ⟨enclosed, trim rest, ?_⟩
    rw [directs.bodyChars_eq plain allowed.1, gap, if_pos ⟨arguments, filled⟩, same]
    simp

/-- A predicate without alias and binding is written again unless the word meets the space before its directive. -/
theorem chars_reread_plain {cs : List Char} (enclosable : Enclosable cs) (free : binding? cs = none)
    (plain : alias? cs = none) :
    (Form.ofChars (Form.plain cs).text).chars = (Form.plain cs).chars ↔ ¬ (Form.plain cs).Rebinds := by
  have whole : Enclosable (bodyText cs) := enclosable_bodyText enclosable
  have binds := binds_bodyText_iff enclosable ((binding?_eq_none_iff enclosable.trimmed).1 free)
  rw [Form.Rebinds, ← binds]
  show (Form.ofChars (bodyText cs)).chars = bodyChars cs ↔ _
  by_cases rebinds : Binds (bodyText cs)
  · refine iff_of_false (fun again => ?_) (not_not.2 rebinds)
    obtain ⟨n, member, ends⟩ := binds.1 rebinds
    have filled : n ≠ [] := by
      rintro rfl
      exact not_endsWithAs_nil ends
    obtain ⟨hn, tail, written⟩ := bodyChars_of_mem_spacedName? enclosable member filled
    exact rebinds.chars_ne whole hn (d := '@') (by decide) tail (again.trans written)
  · refine iff_of_true ?_ rebinds
    have unread := (binding?_eq_none_iff whole.trimmed).2 rebinds
    rw [Form.ofChars, unread, alias?_bodyText enclosable plain, Form.chars, bodyChars_bodyText enclosable]

/-! ## Escaping twice -/

theorem chars_reread {cs : List Char} (enclosable : Enclosable cs) :
    (Form.ofChars (Form.ofChars cs).text).chars = (Form.ofChars cs).chars ↔ ¬ (Form.ofChars cs).Rebinds := by
  cases bound : binding? cs with
  | some parts =>
    have form : Form.ofChars cs = .bound parts.1 parts.2 := by rw [Form.ofChars, bound]
    rw [form]
    exact chars_reread_bound enclosable bound
  | none =>
    cases aliased : alias? cs with
    | some parts =>
      have form : Form.ofChars cs = .aliased parts.1 parts.2 := by rw [Form.ofChars, bound, aliased]
      rw [form]
      exact chars_reread_aliased enclosable bound aliased
    | none =>
      have form : Form.ofChars cs = .plain cs := by rw [Form.ofChars, bound, aliased]
      rw [form]
      exact chars_reread_plain enclosable bound aliased

/-- Escaping what is escaped changes nothing, unless the word `as` stands at the side of a name where escaping has
    written a space. -/
theorem escape_escape_iff (raw : String) :
    escape (escape raw) = escape raw ↔ ¬ (Form.ofChars (trim (strip raw).toList)).Rebinds := by
  have stripped : (strip raw).toList = clean raw.toList := String.toList_ofList
  rw [stripped, escape, escape, String.toList_ofList, String.ofList_inj]
  rcases enclosable_or_nil raw.toList with empty | enclosable
  · have none : predicateChars raw.toList = [] := by simp [predicateChars, empty]
    rw [none, empty]
    refine iff_of_true rfl ?_
    rintro ⟨n, member, _⟩
    cases member
  · have filled := Form.enclosable_text enclosable
    have once : predicateChars raw.toList = (Form.ofChars (trim (clean raw.toList))).chars := by
      rw [predicateChars, if_neg (by simpa using enclosable.filled)]
    have twice : predicateChars (predicateChars raw.toList) =
        (Form.ofChars (Form.ofChars (trim (clean raw.toList))).text).chars := by
      rw [once, predicateChars, ← Form.text, filled.trimmed, if_neg (by simpa using filled.filled)]
    rw [twice, once]
    exact chars_reread enclosable

/-- The body of an alias starts with the word, and what is written is read as a binding. -/
theorem escape_escape_alias :
    escape "a:as b" = "a : <as b>" ∧ escape "a : <as b>" = "<a :> as b" ∧
      ¬ ∀ raw, escape (escape raw) = escape raw := by
  have once : escape "a:as b" = "a : <as b>" := by decide +kernel
  have twice : escape "a : <as b>" = "<a :> as b" := by decide +kernel
  refine ⟨once, twice, fun all => ?_⟩
  have same := all "a:as b"
  rw [once, twice] at same
  exact absurd same (by decide)

end GraphQuery.Predicate
