import GraphQuery.Proofs.Capitals
import GraphQuery.Proofs.RequestBlocks

/-!
# The name of a request

What the name before the bracket of a request consists of, for blocks of any names. Main
statement: it is never empty and made of letters, digits, underscores and combining marks. Marks
are in it if and only if a word of a block's name starts with a letter whose upper case has a mark,
since the characters of the name are chosen before they are put in upper case.
-/

namespace GraphQuery

namespace Request

/-! ## Starts of words -/

/-- The word characters of a text that no word character stands before, `before` standing before the
    first. -/
def wordStartsAfter (before : Option Char) (cs : List Char) : List Char :=
  ((before :: cs.map some).zip cs).filterMap fun (b, c) =>
    if Text.isWordChar c && b.all (!Text.isWordChar ·) then some c else none

/-- The characters that the words of a name start with, in lower case. -/
def wordStarts (name : String) : List Char := wordStartsAfter none (name.toList.flatMap Text.lowercase)

theorem wordStartsAfter_cons (before : Option Char) (c : Char) (cs : List Char) :
    wordStartsAfter before (c :: cs) =
      (if Text.isWordChar c && before.all (!Text.isWordChar ·) then [c] else []) ++ wordStartsAfter (some c) cs := by
  rw [wordStartsAfter, List.map_cons, List.zip_cons_cons, List.filterMap_cons, wordStartsAfter]
  dsimp only
  cases Text.isWordChar c && before.all (!Text.isWordChar ·) with
  | false => rfl
  | true => rfl

theorem isWordChar_of_mem_wordStarts {name : String} {c : Char} (member : c ∈ wordStarts name) :
    Text.isWordChar c = true := by
  obtain ⟨⟨b, d⟩, -, kept⟩ := List.mem_filterMap.1 member
  dsimp only at kept
  split at kept
  · rename_i start
    exact Option.some.inj kept ▸ (Bool.and_eq_true _ _ |>.mp start).1
  · cases kept

/-! ## Titles -/

section Characters

variable {P : Char → Prop} (words : ∀ c, Text.isWordChar c = true → P c)

include words

/-- Only the upper cases at the starts of words bring in characters that are no word characters. -/
theorem forall_mem_capitalized (before : Option Char) (cs : List Char) :
    (∀ d ∈ capitalized (before.all (!Text.isWordChar ·)) cs, P d) ↔
      ∀ c ∈ wordStartsAfter before cs, ∀ d ∈ Text.uppercase c, P d := by
  induction cs generalizing before with
  | nil => simp [wordStartsAfter, capitalized]
  | cons c cs ih =>
    have rest := ih (some c)
    rw [wordStartsAfter_cons, capitalized]
    cases word : Text.isWordChar c with
    | false =>
      rw [Option.all_some, word, Bool.not_false] at rest
      simpa using rest
    | true =>
      rw [Option.all_some, word, Bool.not_true] at rest
      cases start : before.all (!Text.isWordChar ·) with
      | false => simpa [or_imp, forall_and, words c word] using rest
      | true => simp [or_imp, forall_and, rest]

theorem forall_mem_title (name : String) :
    (∀ d ∈ (title name).toList, P d) ↔ ∀ c ∈ wordStarts name, ∀ d ∈ Text.uppercase c, P d := by
  rw [title, String.toList_ofList]
  exact forall_mem_capitalized words none _

/-! ## Names of requests -/

theorem forall_mem_intercalate (ss : List String) :
    (∀ d ∈ (String.intercalate "_" ss).toList, P d) ↔ ∀ s ∈ ss, ∀ d ∈ s.toList, P d := by
  have separator : P '_' := words '_' (by simp [Text.isWordChar])
  induction ss with
  | nil => simp
  | cons s ss ih =>
    cases ss with
    | nil => simp
    | cons t ts =>
      refine Iff.trans ?_ (List.forall_mem_cons.trans (and_congr_right' ih.symm)).symm
      rw [String.intercalate_cons_cons]
      simp [or_imp, forall_and, separator]

theorem forall_mem_operationName (operations : List Builder) :
    (∀ d ∈ (operationName operations).toList, P d) ↔
      ∀ q ∈ operations, ∀ c ∈ wordStarts q.blockName, ∀ d ∈ Text.uppercase c, P d := by
  have joined := forall_mem_intercalate words (operations.map (title ·.blockName))
  rw [List.forall_mem_map] at joined
  simp only [forall_mem_title words] at joined
  unfold operationName
  dsimp only
  split
  · -- Nothing is left of any name, so nothing is asked of the names.
    rename_i empty
    rw [String.isEmpty_iff.1 empty] at joined
    refine ⟨fun _ => joined.1 (by simp), fun _ d member => words d ?_⟩
    have ofDefault : ∀ d ∈ defaultName.toList, Text.isWordChar d = true := by decide +kernel
    exact ofDefault d member
  · exact joined

end Characters

theorem operationName_ne_empty (operations : List Builder) : operationName operations ≠ "" := by
  unfold operationName
  dsimp only
  split
  · decide
  · rename_i filled
    intro empty
    exact filled (empty ▸ rfl)

/-- For every list of builders that compiles, whatever the names of its blocks, the name of the
    request is not empty and made of letters, digits, underscores and combining marks; it is made of
    letters, digits and underscores alone if and only if no word of the name of a block starts with
    one of the letters whose upper case has a mark. -/
theorem operationName_words_iff {builders : List Builder} {query : CompiledQuery}
    (h : compile builders = .ok query) :
    ∃ name text : String,
      query.text = "query " ++ name ++ "(" ++ String.intercalate ", " query.declarations ++ ") \x7b " ++ text ++
        " \x7d" ∧
      '(' ∉ name.toList ∧ name ≠ "" ∧ (∀ c ∈ name.toList, Text.IsUpperPart c) ∧
      ((∀ c ∈ name.toList, Text.isWordChar c = true) ↔
        ∀ q ∈ operations builders, ∀ c ∈ wordStarts q.blockName, c.toNat ∉ Text.splitLetters) := by
  obtain ⟨f, -, rfl⟩ := compile_eq_ok.1 h
  have parts : ∀ c ∈ (operationName (operations builders)).toList, Text.IsUpperPart c :=
    (forall_mem_operationName (fun _ word => .inl word) _).2 fun q _ c start _ member =>
      Text.isUpperPart_of_mem_uppercase (isWordChar_of_mem_wordStarts start) member
  refine ⟨operationName (operations builders), f.render fun index _ => variableName index, rfl, ?_,
    operationName_ne_empty _, parts, ?_⟩
  · intro inside
    have bracket : ¬ Text.IsUpperPart '(' := by
      unfold Text.IsUpperPart
      decide +kernel
    exact bracket (parts _ inside)
  · rw [forall_mem_operationName (fun _ word => word)]
    refine forall₂_congr fun q _ => forall₂_congr fun c start => ?_
    exact Text.forall_mem_uppercase_iff (isWordChar_of_mem_wordStarts start)


/-- Blocks with names of several words: one starts with a letter whose upper case is two letters, in
    another a letter with a mark to lose stands inside, and a third has no word. -/
def wordy : List Builder :=
  ["ßerlin xὐ", "ﬁlm noir_1", "-"].map (Builder.query (.has (KeyMap.ofList [("name", ())]))).name

theorem operationName_words_wordy :
    ∃ query, compile wordy = .ok query ∧ ∃ name text : String,
      query.text = "query " ++ name ++ "(" ++ String.intercalate ", " query.declarations ++ ") \x7b " ++ text ++
        " \x7d" ∧
      '(' ∉ name.toList ∧ name ≠ "" ∧ ∀ c ∈ name.toList, Text.isWordChar c = true := by
  have succeeds : (compile wordy).isOk = true := by decide +kernel
  obtain ⟨query, compiled⟩ := Compiled.exists_of_isOk succeeds
  obtain ⟨name, text, written, noBracket, filled, -, words⟩ := operationName_words_iff compiled
  have starts : ∀ q ∈ operations wordy, ∀ c ∈ wordStarts q.blockName, c.toNat ∉ Text.splitLetters := by
    decide +kernel
  exact ⟨query, compiled, name, text, written, noBracket, filled, words.2 starts⟩

/-- A block whose name is the letter U+1E96, which is put in upper case as an H and the mark U+0331. -/
def marked : Builder := (Builder.query (.has (KeyMap.ofList [("name", ())]))).name "\u1e96"

/-- The name of a request with the letter is no word: the mark is left in it. -/
theorem operationName_marked :
    (compile [marked]).toOption.map (·.text) =
      some "query H\u0331() \x7b <\u1e96>(func: has(name)) \x7b  \x7d \x7d" ∧
    ¬ ∀ c ∈ "H\u0331".toList, Text.isWordChar c = true :=
  ⟨by decide +kernel, by decide +kernel⟩

end Request

end GraphQuery
