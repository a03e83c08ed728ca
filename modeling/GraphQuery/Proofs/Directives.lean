import GraphQuery.Proofs.AngleBrackets
import GraphQuery.Proofs.Bindings

/-!
# Predicates with a directive

What is written for a predicate without alias and binding, and what that text says without its
angle brackets. Main statements: it is written again, it has no alias, and it binds a variable
only where a space is written between a name that ends with the word `as` and its directive.
-/

namespace GraphQuery.Predicate

open Text

/-! ## Directives -/

/-- The text has a directive after the name: what follows its first at sign. -/
def Directs (name rest cs : List Char) : Prop := cs = name ++ '@' :: rest ∧ '@' ∉ name

theorem exists_directs {cs : List Char} (sign : '@' ∈ cs) : ∃ name rest, Directs name rest cs :=
  List.eq_append_cons_of_mem sign

/-- The space between a name and its directive, which is written before a directive with arguments. -/
def gap (name rest : List Char) : List Char := if '(' ∈ rest ∧ trim name ≠ [] then [' '] else []

theorem gap_cases (name rest : List Char) :
    (gap name rest = [' '] ∧ '(' ∈ rest ∧ trim name ≠ []) ∨ (gap name rest = [] ∧ ('(' ∈ rest → trim name = [])) := by
  by_cases spaced : '(' ∈ rest ∧ trim name ≠ []
  · exact .inl ⟨if_pos spaced, spaced⟩
  · exact .inr ⟨if_neg spaced, by simpa using spaced⟩

theorem gap_eq_or (name rest : List Char) : gap name rest = [] ∨ gap name rest = [' '] := by
  rcases gap_cases name rest with ⟨spaced, _⟩ | ⟨empty, _⟩
  · exact .inr spaced
  · exact .inl empty

theorem eq_space_of_mem_gap {name rest : List Char} {c : Char} (member : c ∈ gap name rest) : c = ' ' := by
  rcases gap_eq_or name rest with empty | spaced
  · simp [empty] at member
  · simpa [spaced] using member

/-- Blanks around a directive are not written; the name has none before it, and the directive none after it. -/
theorem Directs.affixes {name rest cs : List Char} (h : Directs name rest cs) (trimmed : trim cs = cs) :
    trim name <+: name ∧ trim rest <:+ rest := by
  obtain ⟨rfl, _⟩ := h
  obtain ⟨start, finish⟩ := trim_eq_self_iff.1 trimmed
  constructor
  · refine isPrefix_trim fun c member => start c ?_
    rw [List.head?_append, Option.mem_def.1 member]
    rfl
  · refine isSuffix_trim fun c member => finish c ?_
    rw [List.getLast?_append, List.getLast?_cons, Option.mem_def.1 member]
    rfl

theorem isPseudoCall_iff (cs : List Char) : isPseudoCall cs = true ↔
    ∃ name args, cs = name ++ '(' :: args ∧ '(' ∉ name ∧ cs.getLast? = some ')' ∧
      (trim name).map asciiLower ∈ pseudoFunctions := by
  unfold isPseudoCall
  constructor
  · intro call
    split at call
    · next name args cut =>
      obtain ⟨same, first⟩ := cut?_eq_some_iff.1 cut
      rw [Bool.and_eq_true, beq_iff_eq, List.contains_iff_mem] at call
      exact ⟨name, args, same, first, call⟩
    · cases call
  · rintro ⟨name, args, same, first, last, known⟩
    rw [cut?_eq_some_iff.2 ⟨same, first⟩]
    simp [last, known]

theorem head_nameChars_not_blank (cs : List Char) : ∀ c ∈ (nameChars cs).head?, isBlank c = false := by
  rcases nameChars_cases cs with ⟨_, same⟩ | ⟨_, same⟩ | ⟨_, _, same⟩
  · simp [same]
  · rw [same]
    exact (trim_eq_self_iff.1 (trim_trim _)).1
  · rw [same]
    intro c member
    cases member
    decide

/-- A directive is written after the name, with a space before it if it has arguments. -/
theorem Directs.bodyChars_eq {name rest cs : List Char} (h : Directs name rest cs) (plain : isPseudoCall cs = false)
    (allowed : ∀ c ∈ name, c ∉ forbidden) : bodyChars cs = nameChars name ++ gap name rest ++ '@' :: trim rest := by
  have empty : nameChars name = [] ↔ trim name = [] := by
    rw [nameChars, bracketed_eq_nil_iff, clean_eq_self allowed]
  have call : (trim rest).contains '(' = true ↔ '(' ∈ rest := by
    rw [List.contains_iff_mem, mem_trim_iff (by decide)]
  unfold bodyChars
  rw [plain, cut?_eq_some_iff.2 h]
  dsimp only
  by_cases arguments : '(' ∈ rest
  · rw [if_neg (by simp), if_pos (call.2 arguments)]
    by_cases nameless : trim name = []
    · rw [empty.2 nameless, gap, if_neg (by simp [nameless])]
      rfl
    · have starts : trimStart (nameChars name ++ ' ' :: '@' :: trim rest) = nameChars name ++ ' ' :: '@' :: trim rest := by
        rw [trimStart_eq_self_iff, List.head?_append_of_ne_nil _ (mt empty.1 nameless)]
        exact head_nameChars_not_blank name
      rw [starts, gap, if_pos ⟨arguments, nameless⟩]
      simp
  · rw [if_neg (by simp), if_neg (mt call.1 arguments), gap, if_neg (by simp [arguments])]
    simp

/-! ## Written bodies without brackets -/

/-- What is written for a predicate without alias and binding, less the angle brackets. -/
def bodyText (cs : List Char) : List Char := clean (bodyChars cs)

theorem clean_nameChars (cs : List Char) : clean (nameChars cs) = trim (clean cs) :=
  filter_nameChars (by decide) (fun c allowed => by simpa using allowed) cs

/-- A mark that stands in a text before the at sign stands in the name. -/
theorem exists_name_of_append {before after name rest tail : List Char} {c : Char} (sign : c ≠ '@') (space : c ≠ ' ')
    (none : '@' ∉ before) (h : before ++ c :: after = name ++ gap name rest ++ '@' :: tail) :
    ∃ more, name = before ++ c :: more := by
  rcases append_cons_cases h with ⟨more, same, _⟩ | ⟨_, same, _⟩ | ⟨more, same, _⟩
  · rcases gap_eq_or name rest with empty | spaced
    · rw [empty, List.append_nil] at same
      exact ⟨more, same⟩
    · rw [spaced] at same
      rcases append_cons_cases same with ⟨inner, _, short⟩ | ⟨_, blank, _⟩ | ⟨inner, inside, _⟩
      · simp at short
      · exact absurd blank.symm space
      · exact ⟨inner, inside⟩
  · exact absurd same sign
  · exact absurd (by simp [same]) none

theorem gap_trim (name rest : List Char) : gap (trim name) rest = gap name rest := by
  rw [gap, gap, trim_trim]

theorem trim_append_gap (name other rest : List Char) : trim (name ++ gap other rest) = trim name := by
  rcases gap_eq_or other rest with empty | spaced
  · rw [empty, List.append_nil]
  · rw [spaced, trim_append_blanks (by decide)]

theorem Directs.bodyText_eq {name rest cs : List Char} (h : Directs name rest cs) (allowed : ∀ c ∈ cs, c ∉ forbidden)
    (plain : isPseudoCall cs = false) : bodyText cs = trim name ++ gap name rest ++ '@' :: trim rest := by
  rw [h.1, List.forall_mem_append, List.forall_mem_cons] at allowed
  obtain ⟨named, sign, directed⟩ := allowed
  have written : clean ('@' :: trim rest) = '@' :: trim rest :=
    clean_eq_self (List.forall_mem_cons.2 ⟨sign, fun c member => directed c (mem_of_mem_trim member)⟩)
  have spaces : clean (gap name rest) = gap name rest := by
    rcases gap_eq_or name rest with same | same <;> rw [same] <;> decide
  rw [bodyText, h.bodyChars_eq plain named, clean_append, clean_append, clean_nameChars, clean_eq_self named, written,
    spaces]

/-- Without a directive, and in a call of a pseudo function, nothing is written but the text itself. -/
theorem bodyText_eq_self {cs : List Char} (enclosable : Enclosable cs) (whole : isPseudoCall cs = true ∨ '@' ∉ cs) :
    bodyText cs = cs := by
  have kept := clean_eq_self enclosable.allowed
  unfold bodyText bodyChars
  by_cases call : isPseudoCall cs = true
  · rw [if_pos call, kept]
  · rw [if_neg call, cut?_eq_none_iff.2 (whole.resolve_left call)]
    dsimp only
    rw [clean_nameChars, kept, enclosable.trimmed]

/-- A text is written as it is, or with other blanks around its directive. -/
theorem bodyText_cases {cs : List Char} (enclosable : Enclosable cs) :
    ((isPseudoCall cs = true ∨ '@' ∉ cs) ∧ bodyText cs = cs) ∨
      (isPseudoCall cs = false ∧ ∃ name rest, Directs name rest cs ∧
        bodyText cs = trim name ++ gap name rest ++ '@' :: trim rest) := by
  by_cases whole : isPseudoCall cs = true ∨ '@' ∉ cs
  · exact .inl ⟨whole, bodyText_eq_self enclosable whole⟩
  · rw [not_or, not_not, Bool.not_eq_true] at whole
    obtain ⟨plain, sign⟩ := whole
    obtain ⟨name, rest, directs⟩ := exists_directs sign
    exact .inr ⟨plain, name, rest, directs, directs.bodyText_eq enclosable.allowed plain⟩

/-- The written text has the same directive after the same name. -/
theorem Directs.written {name rest cs : List Char} (h : Directs name rest cs) :
    Directs (trim name ++ gap name rest) (trim rest) (trim name ++ gap name rest ++ '@' :: trim rest) := by
  refine ⟨rfl, fun member => ?_⟩
  rcases List.mem_append.1 member with inside | inside
  · exact h.2 (mem_of_mem_trim inside)
  · have sign := eq_space_of_mem_gap inside
    cases sign

theorem trim_written (name rest : List Char) :
    trim (trim name ++ gap name rest ++ '@' :: trim rest) = trim name ++ gap name rest ++ '@' :: trim rest := by
  have sign : isBlank '@' = false := by decide
  have first := (trim_eq_self_iff.1 (trim_trim name)).1
  have last := (trim_eq_self_iff.1 (trim_trim rest)).2
  rw [trim_eq_self_iff]
  constructor
  · intro c member
    cases named : trim name with
    | nil =>
      have empty : gap name rest = [] := by simp [gap, named]
      rw [named, empty] at member
      cases member
      exact sign
    | cons d ds =>
      rw [named] at first member
      cases member
      exact first c rfl
  · intro c member
    rw [List.getLast?_append, List.getLast?_cons] at member
    cases directed : (trim rest).getLast? with
    | none =>
      rw [directed] at member
      cases member
      exact sign
    | some d =>
      rw [directed] at member
      cases member
      exact last d directed

theorem enclosable_bodyText {cs : List Char} (enclosable : Enclosable cs) : Enclosable (bodyText cs) := by
  rcases bodyText_cases enclosable with ⟨_, same⟩ | ⟨_, name, rest, _, same⟩
  · rwa [same]
  · refine ⟨by simp [same], by rw [same, trim_written], fun c member => not_forbidden_of_mem_clean member⟩

/-- A call of a pseudo function has no at sign before its bracket. -/
theorem not_mem_of_isPseudoCall {name : List Char} (known : (trim name).map asciiLower ∈ pseudoFunctions) :
    '@' ∉ name := by
  have none : ∀ f ∈ pseudoFunctions, '@' ∉ f := by decide
  have folded : asciiLower '@' = '@' := by decide
  intro member
  refine none _ known (List.mem_map.2 ⟨'@', (mem_trim_iff (by decide) name).2 member, folded⟩)

/-- Other blanks around the directive do not make a call of the text. -/
theorem Directs.isPseudoCall_written {name rest cs : List Char} (h : Directs name rest cs) (trimmed : trim cs = cs)
    (plain : isPseudoCall cs = false) : isPseudoCall (trim name ++ gap name rest ++ '@' :: trim rest) = false := by
  rw [Bool.eq_false_iff]
  intro call
  obtain ⟨function, args, same, first, last, known⟩ := (isPseudoCall_iff _).1 call
  obtain ⟨⟨after, named⟩, before, directed⟩ := h.affixes trimmed
  rw [← gap_trim name rest] at same
  obtain ⟨more, inside⟩ := exists_name_of_append (by decide) (by decide) (not_mem_of_isPseudoCall known) same.symm
  have whole : cs = function ++ '(' :: (more ++ after ++ '@' :: rest) := by
    rw [h.1, ← named, inside]
    simp
  have ending : cs.getLast? = some ')' := by
    rw [List.getLast?_append, List.getLast?_cons] at last
    cases final : (trim rest).getLast? with
    | none =>
      rw [final] at last
      cases last
    | some c =>
      rw [final] at last
      cases last
      rw [h.1, ← directed, List.getLast?_append, List.getLast?_cons, List.getLast?_append, final]
      rfl
  have wasCall : isPseudoCall cs = true := (isPseudoCall_iff cs).2 ⟨function, _, whole, first, ending, known⟩
  rw [plain] at wasCall
  cases wasCall

/-- What is written for a predicate without alias and binding is written again when it is read without brackets. -/
theorem bodyChars_bodyText {cs : List Char} (enclosable : Enclosable cs) : bodyChars (bodyText cs) = bodyChars cs := by
  rcases bodyText_cases enclosable with ⟨_, same⟩ | ⟨plain, name, rest, directs, same⟩
  · rw [same]
  · have allowed := enclosable.allowed
    rw [directs.1, List.forall_mem_append] at allowed
    have kept : ∀ c ∈ trim name ++ gap name rest, c ∉ forbidden := by
      intro c member
      rcases List.mem_append.1 member with inside | space
      · exact allowed.1 c (mem_of_mem_trim inside)
      · rw [eq_space_of_mem_gap space]
        decide
    have name' : nameChars (trim name ++ gap name rest) = nameChars name := by
      rw [nameChars, nameChars, clean_eq_self kept, trim_append_gap, trim_trim, clean_eq_self allowed.1]
    have gap' : gap (trim name ++ gap name rest) (trim rest) = gap name rest := by
      have arguments : '(' ∈ trim rest ↔ '(' ∈ rest := mem_trim_iff (by decide) rest
      rw [gap, trim_append_gap, trim_trim, gap]
      simp only [arguments]
    rw [same, directs.written.bodyChars_eq (directs.isPseudoCall_written enclosable.trimmed plain) kept, name', gap',
      trim_trim, directs.bodyChars_eq plain allowed.1]

/-! ## The word at the ends of names -/

/-- The name of a predicate without alias and binding, which its directive comes after. -/
def ownName (cs : List Char) : List Char :=
  match cut? ['@'] cs with
  | some (name, _) => trim name
  | none => cs

/-- The name that a space is written after: it has a directive with arguments, and no bracket itself. -/
def spacedName? (cs : List Char) : Option (List Char) :=
  match cut? ['@'] cs with
  | some (name, rest) => if '(' ∈ rest ∧ '(' ∉ name then some (trim name) else none
  | none => none

theorem Directs.ownName_eq {name rest cs : List Char} (h : Directs name rest cs) : ownName cs = trim name := by
  rw [ownName, cut?_eq_some_iff.2 h]

theorem Directs.mem_spacedName? {name rest cs n : List Char} (h : Directs name rest cs) :
    n ∈ spacedName? cs ↔ '(' ∈ rest ∧ '(' ∉ name ∧ n = trim name := by
  rw [spacedName?, cut?_eq_some_iff.2 h]
  dsimp only
  split
  · next spaced => simp [spaced, eq_comm]
  · next other => simp [← and_assoc, other]

theorem not_mem_spacedName? {cs : List Char} (whole : isPseudoCall cs = true ∨ '@' ∉ cs) (n : List Char) :
    n ∉ spacedName? cs := by
  intro member
  have sign : '@' ∈ cs := by
    by_contra none
    rw [spacedName?, cut?_eq_none_iff.2 none] at member
    cases member
  obtain ⟨name, rest, directs⟩ := exists_directs sign
  obtain ⟨_, unopened, _⟩ := directs.mem_spacedName?.1 member
  obtain ⟨function, args, call, _, _, known⟩ := (isPseudoCall_iff cs).1 (whole.resolve_right (not_not.2 sign))
  rw [directs.1] at call
  rcases append_cons_cases call with ⟨more, inside, _⟩ | ⟨_, marks, _⟩ | ⟨more, inside, _⟩
  · exact not_mem_of_isPseudoCall known (by simp [inside])
  · cases marks
  · exact unopened (by simp [inside])

/-- No pseudo function has a name that starts with the word. -/
theorem not_startsWithAs_of_isPseudoCall {cs : List Char} (call : isPseudoCall cs = true) : ¬ StartsWithAs cs := by
  rintro ⟨word, rest, as, same⟩
  obtain ⟨name, args, split, _, _, known⟩ := (isPseudoCall_iff cs).1 call
  have others : ∀ f ∈ pseudoFunctions, 3 ≤ f.length ∧ ¬ ['a', 's'] <+: f := by decide
  have letters : ∀ c ∈ ['a', 's', 'A', 'S'], isBlank c = false := by decide
  have two : word.length = 2 := by
    have length := congrArg List.length (show word.map asciiLower = ['a', 's'] from as)
    simpa using length
  rw [same] at split
  rcases append_cons_cases split with ⟨more, rfl, _⟩ | ⟨_, marks, _⟩ | ⟨more, rfl, _⟩
  · have start : ∀ c ∈ (word ++ ' ' :: more).head?, isBlank c = false := by
      intro c member
      match word with
      | d :: _ =>
        cases member
        exact letters c (as.mem (by simp))
    obtain ⟨long, apart⟩ := others _ known
    rw [List.length_map] at long
    have first : word <+: trim (word ++ ' ' :: more) := by
      exact List.prefix_of_prefix_length_le ⟨' ' :: more, rfl⟩ (isPrefix_trim start) (by omega)
    have folded := first.map asciiLower
    rw [show word.map asciiLower = ['a', 's'] from as] at folded
    exact apart folded
  · cases marks
  · exact absurd (by simp) (as.not_mem (c := '(') (by decide))

/-! ## What a body without brackets says -/

/-- The body of an alias is written with the word and a space at its start when its name starts so, or is the word
    and gets a space after it. -/
theorem startsWithAs_bodyText_iff {cs : List Char} (enclosable : Enclosable cs) :
    StartsWithAs (bodyText cs) ↔ StartsWithAs (ownName cs) ∨ ∃ n ∈ spacedName? cs, IsAs n := by
  rcases bodyText_cases enclosable with ⟨whole, same⟩ | ⟨_, name, rest, directs, same⟩
  · have none : ¬ ∃ n ∈ spacedName? cs, IsAs n := fun ⟨n, member, _⟩ => not_mem_spacedName? whole n member
    rw [same, or_iff_left none]
    by_cases sign : '@' ∈ cs
    · have call := whole.resolve_right (not_not.2 sign)
      obtain ⟨name, rest, directs⟩ := exists_directs sign
      obtain ⟨⟨after, named⟩, _⟩ := directs.affixes enclosable.trimmed
      refine iff_of_false (not_startsWithAs_of_isPseudoCall call) fun starts => ?_
      -- The name is the start of the text, which would start with the word as well.
      rw [directs.ownName_eq] at starts
      obtain ⟨word, more, as, begun⟩ := starts
      refine not_startsWithAs_of_isPseudoCall call ⟨word, more ++ after ++ '@' :: rest, as, ?_⟩
      rw [directs.1, ← named, begun]
      simp
    · rw [ownName, cut?_eq_none_iff.2 sign]
  · have mark : '@' ∉ ['a', 's', 'A', 'S'] := by decide
    have space : ' ' ∉ ['a', 's', 'A', 'S'] := by decide
    have letters {n : List Char} (as : IsAs n) : '(' ∉ n := as.not_mem (by decide)
    have unopened : '(' ∈ trim name ↔ '(' ∈ name := mem_trim_iff (by decide) name
    rw [same, directs.ownName_eq]
    simp only [directs.mem_spacedName?]
    rcases gap_cases name rest with ⟨spaced, arguments, _⟩ | ⟨none, nameless⟩
    · rw [spaced, List.append_assoc, List.singleton_append, startsWithAs_append_cons_iff space]
      refine or_congr_right ⟨fun ⟨_, as⟩ => ⟨_, ⟨arguments, mt unopened.2 (letters as), rfl⟩, as⟩, ?_⟩
      rintro ⟨n, ⟨_, _, rfl⟩, as⟩
      exact ⟨rfl, as⟩
    · rw [none, List.append_nil, startsWithAs_append_cons_iff mark]
      refine or_congr_right ⟨fun ⟨marks, _⟩ => absurd marks (by decide), ?_⟩
      rintro ⟨n, ⟨arguments, _, rfl⟩, as⟩
      rw [nameless arguments] at as
      exact absurd as not_isAs_nil

/-- Neither the name nor the directive of a text binds a variable if the text does not. -/
theorem Directs.not_binds {name rest cs : List Char} (h : Directs name rest cs) (free : ¬ Binds cs) :
    ¬ Binds (trim name) ∧ ('(' ∉ trim name → ¬ Binds ('@' :: trim rest)) := by
  have sign : '@' ≠ ' ' := by decide
  rw [h.1, binds_append_cons_iff (by decide), binds_cons_iff sign] at free
  constructor
  · intro inside
    exact free (.inl (binds_of_binds_trim inside))
  · intro closed inside
    rw [mem_trim_iff (by decide)] at closed
    obtain ⟨bracket, later⟩ := (binds_cons_iff sign _).1 inside
    exact free (.inr ⟨closed, .inr ⟨bracket, binds_of_binds_trim later⟩⟩)

/-- Where a predicate binds no variable, it does so without its brackets just when its name ends with the word and
    gets a space after it. -/
theorem binds_bodyText_iff {cs : List Char} (enclosable : Enclosable cs) (free : ¬ Binds cs) :
    Binds (bodyText cs) ↔ ∃ n ∈ spacedName? cs, EndsWithAs n := by
  rcases bodyText_cases enclosable with ⟨whole, same⟩ | ⟨_, name, rest, directs, same⟩
  · rw [same]
    exact iff_of_false free fun ⟨n, member, _⟩ => not_mem_spacedName? whole n member
  · obtain ⟨freeName, freeRest⟩ := directs.not_binds free
    have unopened : '(' ∈ trim name ↔ '(' ∈ name := mem_trim_iff (by decide) name
    rw [same]
    simp only [directs.mem_spacedName?]
    rcases gap_cases name rest with ⟨spaced, arguments, _⟩ | ⟨none, nameless⟩
    · rw [spaced, List.append_assoc, List.singleton_append, binds_append_cons_iff (by decide), binds_space_cons_iff]
      constructor
      · rintro (inside | ⟨closed, ⟨_, ends⟩ | begun | later⟩)
        · exact absurd inside freeName
        · exact ⟨_, ⟨arguments, mt unopened.2 closed, rfl⟩, ends⟩
        · exact absurd begun (not_startsWithAs_cons (by decide) _)
        · exact absurd later (freeRest closed)
      · rintro ⟨n, ⟨_, closed, rfl⟩, ends⟩
        exact .inr ⟨mt unopened.1 closed, .inl ⟨rfl, ends⟩⟩
    · rw [none, List.append_nil, binds_append_cons_iff (by decide)]
      constructor
      · rintro (inside | ⟨closed, ⟨marks, _⟩ | later⟩)
        · exact absurd inside freeName
        · cases marks
        · exact absurd later (freeRest closed)
      · rintro ⟨n, ⟨arguments, _, rfl⟩, ends⟩
        rw [nameless arguments] at ends
        exact absurd ends not_endsWithAs_nil

/-! ## Reading an alias -/

theorem alias?_eq_some_iff {cs name body : List Char} : alias? cs = some (name, body) ↔
    ∃ before rest, cs = before ++ ':' :: rest ∧ ':' ∉ before ∧ '@' ∉ before ∧ '(' ∉ before ∧
      trim before ≠ [] ∧ trim rest ≠ [] ∧ name = trim before ∧ body = trim rest := by
  unfold alias?
  constructor
  · intro aliased
    split at aliased
    · next before rest cut =>
      split at aliased
      · cases aliased
      · next given =>
        cases aliased
        obtain ⟨same, first⟩ := cut?_eq_some_iff.1 cut
        simp only [Bool.or_eq_true, not_or, List.contains_iff_mem, List.isEmpty_iff] at given
        obtain ⟨⟨⟨sign, bracket⟩, filled⟩, later⟩ := given
        exact ⟨before, rest, same, first, sign, bracket, filled, later, rfl, rfl⟩
    · cases aliased
  · rintro ⟨before, rest, same, first, sign, bracket, filled, later, rfl, rfl⟩
    rw [cut?_eq_some_iff.2 ⟨same, first⟩]
    simp [sign, bracket, filled, later]

/-- A text that has no alias has none without its brackets. -/
theorem alias?_bodyText {cs : List Char} (enclosable : Enclosable cs) (plain : alias? cs = none) :
    alias? (bodyText cs) = none := by
  rcases bodyText_cases enclosable with ⟨_, same⟩ | ⟨_, name, rest, directs, same⟩
  · rwa [same]
  · cases aliased : alias? (bodyText cs) with
    | none => rfl
    | some parts =>
      obtain ⟨before, tail, split, first, sign, bracket, filled, _⟩ := alias?_eq_some_iff.1 aliased
      obtain ⟨⟨after, named⟩, _⟩ := directs.affixes enclosable.trimmed
      -- The alias would end in the name, and so in the text as it was.
      rw [same, ← gap_trim name rest] at split
      obtain ⟨more, inside⟩ := exists_name_of_append (by decide) (by decide) sign split.symm
      have whole : cs = before ++ ':' :: (more ++ after ++ '@' :: rest) := by
        rw [directs.1, ← named, inside]
        simp
      have later : trim (more ++ after ++ '@' :: rest) ≠ [] := by
        rw [Ne, trim_eq_nil_iff]
        intro blanks
        exact absurd (blanks '@' (by simp)) (by decide)
      rw [alias?_eq_some_iff.2 ⟨before, _, whole, first, sign, bracket, filled, later, rfl, rfl⟩] at plain
      cases plain

end GraphQuery.Predicate
