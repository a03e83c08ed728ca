import GraphQuery.Proofs.Arguments
import GraphQuery.Proofs.Brackets
import GraphQuery.Proofs.Quoting
import GraphQuery.Proofs.Scalars

/-!
# Literals of a condition

The values of a condition are written into its text, those that are text as literals between
quotes. A reader of the text leaves a literal at the first quote without a backslash before
it. Main statement: without raw text the reader finds one literal for each text that is
bound, reads that text back from it, and finds the same outside of the literals whatever
the texts are.
-/

namespace GraphQuery

open List (Forall₂)

open Compiled (Both map_eq_ok)

/-! ## Texts with literals -/

/-- Where a scan stands: outside of literals, or in one of which a part was read, maybe after a backslash. -/
inductive Place where
  | outside
  | within (read : List Char)
  | escaped (read : List Char)

/-- What a scan finds: a character outside of literals, or a literal with its quotes. -/
inductive Lexeme where
  | plain (c : Char)
  | literal (cs : List Char)

def Lexeme.char? : Lexeme → Option Char
  | .plain c => some c
  | .literal _ => none

def Lexeme.literal? : Lexeme → Option (List Char)
  | .plain _ => none
  | .literal cs => some cs

theorem Lexeme.filterMap_literal?_plain (cs : List Char) : (cs.map plain).filterMap literal? = [] := by
  rw [List.filterMap_map, List.filterMap_eq_nil_iff]
  exact fun _ _ => rfl

namespace Place

/-- The place after a character, and what ends with it. -/
def step : Place → Char → Place × List Lexeme
  | .outside, c => if c = '"' then (.within [c], []) else (.outside, [.plain c])
  | .within read, c =>
    if c = '"' then (.outside, [.literal (read ++ [c])])
    else if c = '\\' then (.escaped (read ++ [c]), [])
    else (.within (read ++ [c]), [])
  | .escaped read, c => (.within (read ++ [c]), [])

def scan : Place → List Char → Place × List Lexeme
  | p, [] => (p, [])
  | p, c :: cs => (((p.step c).1.scan cs).1, (p.step c).2 ++ ((p.step c).1.scan cs).2)

theorem scan_append {p p' : Place} {xs : List Char} {ls : List Lexeme} (h : p.scan xs = (p', ls))
    (ys : List Char) : p.scan (xs ++ ys) = ((p'.scan ys).1, ls ++ (p'.scan ys).2) := by
  induction xs generalizing p ls with
  | nil =>
    cases h
    rfl
  | cons c cs ih =>
    simp only [scan, Prod.mk.injEq] at h
    obtain ⟨rfl, rfl⟩ := h
    rw [List.cons_append, scan, ih rfl]
    simp

theorem scan_plain {cs : List Char} (noQuote : '"' ∉ cs) : scan .outside cs = (.outside, cs.map .plain) := by
  induction cs with
  | nil => rfl
  | cons c cs ih =>
    have other : c ≠ '"' := fun same => noQuote (by simp [same])
    have stays : step .outside c = (.outside, [.plain c]) := if_neg other
    rw [scan, stays, ih fun inside => noQuote (List.mem_cons_of_mem c inside)]
    rfl

theorem scan_within {cs : List Char} (noQuote : '"' ∉ cs) (noEscape : '\\' ∉ cs) (read : List Char) :
    scan (.within read) cs = (.within (read ++ cs), []) := by
  induction cs generalizing read with
  | nil => simp [scan]
  | cons c cs ih =>
    have noEnd : c ≠ '"' := fun same => noQuote (by simp [same])
    have noSlash : c ≠ '\\' := fun same => noEscape (by simp [same])
    have stays : step (.within read) c = (.within (read ++ [c]), []) := by simp [step, noEnd, noSlash]
    rw [scan, stays, ih (fun inside => noQuote (List.mem_cons_of_mem c inside))
      fun inside => noEscape (List.mem_cons_of_mem c inside)]
    simp

/-- An escaped character does not end the literal that it stands in. -/
theorem scan_escape (c : Char) (read : List Char) :
    scan (.within read) (Json.escape c) = (.within (read ++ Json.escape c), []) := by
  rcases Json.escape_eq_self_or c with ⟨same, noQuote, noEscape⟩ | ⟨d, r, same, noQuote, noEscape⟩
  · rw [same]
    exact scan_within (by simpa using noQuote.symm) (by simpa using noEscape.symm) read
  · have escapes : scan (.within read) ['\\', d] = (.within (read ++ ['\\', d]), []) := by simp [scan, step]
    have chars : '\\' :: d :: r = ['\\', d] ++ r := rfl
    rw [same, chars, scan_append escapes, scan_within noQuote noEscape]
    simp

theorem scan_flatMap_escape (cs read : List Char) :
    scan (.within read) (cs.flatMap Json.escape) = (.within (read ++ cs.flatMap Json.escape), []) := by
  induction cs generalizing read with
  | nil => simp [scan]
  | cons c cs ih =>
    rw [List.flatMap_cons, scan_append (scan_escape c read), ih]
    simp

/-- A quoted text is one literal. -/
theorem scan_quotedChars (cs : List Char) :
    scan .outside (Json.quotedChars cs) = (.outside, [.literal (Json.quotedChars cs)]) := by
  have opened : scan .outside ['"'] = (.within ['"'], []) := rfl
  have chars : Json.quotedChars cs = ['"'] ++ (cs.flatMap Json.escape ++ ['"']) := rfl
  rw [chars, scan_append opened, scan_append (scan_flatMap_escape cs _)]
  simp [scan, step]

end Place

/-! ## Literals of values -/

namespace Value

/-- Whether the value is text, which is written between quotes. -/
def isTextual : Value → Bool
  | .string _ => true
  | .other _ => true
  | .datetime _ => true
  | _ => false

/-- What is written for a scalar. -/
def lexemes : Value → List Lexeme
  | .string s => [.literal (Json.quotedChars s.toList)]
  | .other s => [.literal (Json.quotedChars s.toList)]
  | .datetime t => [.literal (Json.quotedChars t.format.toList)]
  | .nilList => []
  | .list _ => []
  | .raw _ => []
  | v => v.literal.toList.map .plain

end Value

/-! ## Numbers -/

theorem mem_positional {digits : List Char} {e : Int} {c : Char} (member : c ∈ positional digits e) :
    c ∈ digits ∨ c = '0' ∨ c = '.' := by
  unfold positional at member
  dsimp only at member
  split at member
  · rcases List.mem_append.1 member with inside | zero
    · exact .inl inside
    · exact .inr (.inl (List.eq_of_mem_replicate zero))
  · split at member
    · rcases List.mem_append.1 member with whole | rest
      · exact .inl (List.mem_of_mem_take whole)
      · rcases List.mem_cons.1 rest with point | part
        · exact .inr (.inr point)
        · exact .inl (List.mem_of_mem_drop part)
    · simp only [List.cons_append, List.mem_cons, List.mem_append, List.mem_replicate] at member
      tauto

theorem Decimal.isDigit_of_mem_parts {d : Decimal} {c : Char} (member : c ∈ d.parts.1) : c.isDigit = true := by
  unfold parts at member
  have inside : c ∈ Nat.toDigits 10 d.digits :=
    List.mem_reverse.1 ((List.dropWhile_sublist _).subset (List.mem_reverse.1 member))
  exact Nat.isDigit_of_mem_toDigits (by omega) (by omega) inside

theorem Binary64.quote_not_mem_format (x : Binary64) : '"' ∉ x.format.toList := by
  cases x with
  | nan => decide
  | infinite negative => cases negative <;> decide
  | finite negative m q isDouble =>
    have sign : '"' ∉ signText negative := by cases negative <;> decide
    unfold format
    dsimp only
    split
    · rw [String.toList_ofList, List.mem_append, not_or]
      exact ⟨sign, by decide⟩
    · rw [String.toList_ofList, List.mem_append, not_or]
      refine ⟨sign, fun member => ?_⟩
      rcases mem_positional member with digit | zero | point
      · cases Decimal.isDigit_of_mem_parts digit
      · cases zero
      · cases point

theorem quote_not_mem_toString (n : Nat) : '"' ∉ (toString n).toList := by
  intro member
  cases Predicate.isDigit_of_mem_toString member

theorem quote_not_mem_toString_int (i : Int) : '"' ∉ (toString i).toList := by
  cases i with
  | ofNat n => exact quote_not_mem_toString n
  | negSucc n =>
    show '"' ∉ ("-" ++ toString (n + 1)).toList
    rw [String.toList_append, List.mem_append, not_or]
    exact ⟨by decide, quote_not_mem_toString _⟩

namespace Value

/-- A scan of what is written for a scalar ends where it started. -/
theorem scan_literal {v : Value} (bound : v.isBound = true) :
    Place.outside.scan v.literal.toList = (.outside, v.lexemes) := by
  have quoted (s : String) : Place.outside.scan (Json.quoted s).toList =
      (.outside, [.literal (Json.quotedChars s.toList)]) := by
    rw [Json.quoted, String.toList_ofList]
    exact Place.scan_quotedChars _
  cases v with
  | string s => exact quoted s
  | other s => exact quoted s
  | datetime t => exact quoted t.format
  | int i => exact Place.scan_plain (quote_not_mem_toString_int i)
  | uint n => exact Place.scan_plain (quote_not_mem_toString n)
  | float x => exact Place.scan_plain x.quote_not_mem_format
  | bool b => exact Place.scan_plain (by cases b <;> decide)
  | nilList | list | raw => cases bound

/-- The literal of a text stands for the text. -/
theorem map_ofChars?_lexemes (v : Value) : (v.lexemes.filterMap Lexeme.literal?).map Json.ofChars? =
    if v.isTextual then [some (.string v.format)] else [] := by
  have quoted (s : String) : [Json.ofChars? (Json.quotedChars s.toList)] = [some (.string s)] := by
    rw [Json.ofChars?_quotedChars, String.ofList_toList]
  have plain (cs : List Char) : ((cs.map Lexeme.plain).filterMap Lexeme.literal?).map Json.ofChars? = [] := by
    rw [Lexeme.filterMap_literal?_plain, List.map_nil]
  cases v with
  | string s => exact quoted s
  | other s => exact quoted s
  | datetime t => exact quoted t.format
  | nilList | list | raw => rfl
  | _ => exact plain _

theorem map_ofChars?_literals (vs : List Value) :
    (vs.flatMap fun v => v.lexemes.filterMap Lexeme.literal?).map Json.ofChars? =
      (vs.filter (·.isTextual)).map fun v => some (.string v.format) := by
  induction vs with
  | nil => rfl
  | cons v vs ih =>
    rw [List.flatMap_cons, List.map_append, map_ofChars?_lexemes, ih, List.filter_cons]
    split <;> rfl

end Value

/-! ## Scans of fragments -/

namespace Scan

variable {γ δ : Type}

/-- The scan for a part of what a scan finds. -/
def filterMap (m : Scan γ) (g : γ → Option δ) : Scan δ where
  text s := (m.text s).filterMap g
  slot v := (m.slot v).filterMap g
  text_append s t := by rw [m.text_append, List.filterMap_append]

theorem run_filterMap (m : Scan γ) (g : γ → Option δ) (f : Fragment) :
    (m.filterMap g).run f = (m.run f).filterMap g := by
  obtain ⟨slots, tail⟩ := f
  simp [run, filterMap, List.filterMap_flatMap]

/-- A scan that finds nothing in texts finds what is in the slots. -/
theorem run_eq_flatMap_args {m : Scan γ} (textless : ∀ s, m.text s = []) (f : Fragment) :
    m.run f = f.args.flatMap m.slot := by
  obtain ⟨slots, tail⟩ := f
  simp [run, textless, Fragment.args, List.flatMap_map]

/-- A scan finds the same in fragments of one text when it does in related values. -/
theorem run_eq_of_alike {m : Scan γ} {S : Value → Value → Prop} (same : ∀ v w, S v w → m.slot v = m.slot w)
    {f g : Fragment} (alike : Fragment.Alike S f g) : m.run f = m.run g := by
  obtain ⟨fs, ft⟩ := f
  obtain ⟨gs, gt⟩ := g
  obtain ⟨slots, rfl⟩ := alike
  change Forall₂ _ fs gs at slots
  suffices found : (fs.flatMap fun s => m.text s.1 ++ m.slot s.2) = gs.flatMap fun s => m.text s.1 ++ m.slot s.2 by
    exact congrArg (· ++ m.text ft) found
  induction slots with
  | nil => rfl
  | cons first _ ih => rw [List.flatMap_cons, List.flatMap_cons, ih, first.1, same _ _ first.2]

/-- The scan that finds the characters of texts and what is written for the values in slots. -/
def lexing : Scan Lexeme where
  text s := s.toList.map .plain
  slot := Value.lexemes
  text_append s t := by rw [String.toList_append, List.map_append]

theorem text_literals (s : String) : (lexing.filterMap Lexeme.literal?).text s = [] :=
  Lexeme.filterMap_literal?_plain s.toList

theorem quote_not_mem_of_noise {s : String} (quiet : noise.text s = []) : '"' ∉ s.toList := by
  intro member
  have found : '"' ∈ noise.text s := List.mem_filter.2 ⟨member, by decide⟩
  rw [quiet] at found
  cases found

theorem scan_renderSlots {slots : List (String × Value)} (bound : ∀ s ∈ slots, s.2.isBound = true)
    (quiet : ∀ s ∈ slots, noise.text s.1 = []) (start : Nat) :
    Place.outside.scan (Fragment.renderSlots (fun _ v => v.literal) start slots).toList =
      (.outside, slots.flatMap fun s => lexing.text s.1 ++ lexing.slot s.2) := by
  induction slots generalizing start with
  | nil => rfl
  | cons s slots ih =>
    have first := Place.scan_plain (quote_not_mem_of_noise (quiet s (by simp)))
    have second := Value.scan_literal (bound s (by simp))
    have rest := ih (fun t member => bound t (by simp [member])) (fun t member => quiet t (by simp [member])) (start + 1)
    rw [Fragment.renderSlots, String.toList_append, String.toList_append, List.append_assoc, Place.scan_append first,
      Place.scan_append second, rest, List.flatMap_cons, List.append_assoc]
    rfl

/-- Without quotes in its texts, a fragment of scalars is read as they are written. -/
theorem scan_inlined {f : Fragment} (typed : f.WellTyped) (quiet : noise.run f = []) :
    Place.outside.scan f.inlined.toList = (.outside, lexing.run f) := by
  obtain ⟨slots, tail⟩ := f
  obtain ⟨quietSlots, quietTail⟩ := List.append_eq_nil_iff.1 quiet
  have bound : ∀ s ∈ slots, s.2.isBound = true := fun s member =>
    Fragment.WellTyped.iff_isBound.1 typed s.2 (List.mem_map_of_mem member)
  have quietTexts : ∀ s ∈ slots, noise.text s.1 = [] := fun s member =>
    (List.append_eq_nil_iff.1 (List.flatMap_eq_nil_iff.1 quietSlots s member)).1
  rw [Fragment.inlined, Fragment.render, String.toList_append, Place.scan_append (scan_renderSlots bound quietTexts 0),
    Place.scan_plain (quote_not_mem_of_noise quietTail)]
  rfl

end Scan

/-! ## Other texts -/

/-- Values that differ in the texts of strings and of things without a type of their own, item by item in
    lists. -/
inductive Value.Retexted : Value → Value → Prop where
  | string (s t : String) : Retexted (.string s) (.string t)
  | other (s t : String) : Retexted (.other s) (.other t)
  | list {vs ws : List Value} (items : Forall₂ Retexted vs ws) : Retexted (.list vs) (.list ws)
  | same (v : Value) : Retexted v v

namespace Value.Retexted

theorem both_compileItem {v w : Value} (retexted : Retexted v w) :
    Both (Fragment.Alike Retexted) v.compileItem w.compileItem := by
  cases retexted with
  | string s t => exact .ok (.slot (.string s t))
  | other s t => exact .ok (.slot (.other s t))
  | list items => exact .error _ _
  | same => exact .refl (.refl same) _

theorem both_compile {v w : Value} (retexted : Retexted v w) :
    Both (Fragment.Alike Retexted) v.compile w.compile := by
  cases retexted with
  | string s t => exact .ok (.slot (.string s t))
  | other s t => exact .ok (.slot (.other s t))
  | list items =>
    rw [compile, compile]
    refine (Both.mapM items fun _ _ => both_compileItem).map fun _ _ alike => ?_
    exact ((Fragment.Alike.text "[").append (.separated alike ",")).append (.text "]")
  | same => exact .refl (.refl same) _

theorem alike : Value.Alike Retexted Retexted where
  compile := both_compile
  cursor c := .refl same c.compile

/-- What is written outside of literals does not change with texts. -/
theorem plain_lexemes {v w : Value} (retexted : Retexted v w) :
    v.lexemes.filterMap Lexeme.char? = w.lexemes.filterMap Lexeme.char? := by
  cases retexted <;> rfl

end Value.Retexted

/-! ## Conditions -/

namespace Fragment

theorem inlined_append (f g : Fragment) : (f ++ g).inlined = f.inlined ++ g.inlined := by
  rw [inlined, render_append]
  rfl

theorem inlined_text (s : String) : (text s).inlined = s := render_text _ s

end Fragment

namespace Condition

/-- The text of a condition is its filters with the clause around them. -/
theorem compile_eq_ok {filters : List Expr} {text : String} :
    compile filters = .ok text ↔ ∃ f, body filters = .ok f ∧ text = (f.wrap "@if(" ") ").inlined := by
  rw [compile, map_eq_ok]
  refine exists_congr fun f => and_congr_right fun _ => ?_
  unfold Fragment.wrap
  split
  · next empty =>
    rw [Fragment.eq_empty_of_isEmpty empty]
    exact Iff.rfl
  · rw [Fragment.inlined_append, Fragment.inlined_append, Fragment.inlined_text, Fragment.inlined_text]

theorem noise_body {filters : List Expr} (rawFree : ∀ e ∈ filters, e.verbatim = []) {f : Fragment}
    (h : body filters = .ok f) : Scan.noise.run f = [] := by
  obtain ⟨fs, each, rfl⟩ := map_eq_ok.1 h
  rw [Scan.run_join Scan.noise (Scan.silent_noise _ (by decide)), List.flatMap_eq_nil_iff]
  intro f member
  obtain ⟨e, inside, compiled⟩ := Compiled.exists_of_mem_mapM each member
  have free : ∀ s ∈ e.verbatim, Scan.noise.text s = [] := by simp [rawFree e inside]
  rw [Scan.run_compile Scan.silent_noise (Expr.compileFilter_eq_ok.1 compiled).2 free, Scan.flatMap_noise]

theorem args_body {filters : List Expr} {f : Fragment} (h : body filters = .ok f) :
    f.args = filters.flatMap (·.values) := by
  obtain ⟨fs, each, rfl⟩ := map_eq_ok.1 h
  rw [Fragment.args_join]
  exact Compiled.flatMap_of_mapM each fun e _ f compiled => Expr.args_compile (Expr.compileFilter_eq_ok.1 compiled).2

theorem both_body {filters others : List Expr} (like : Forall₂ (Expr.Like Value.Retexted) filters others) :
    Both (Fragment.Alike Value.Retexted) (body filters) (body others) :=
  (Both.mapM like fun _ _ => Expr.both_compileFilter Value.Retexted.alike "@if").map
    fun _ _ alike => .join alike Expr.conjunction

/-- The text of a condition is read as its fragment is written. -/
theorem scan_wrap {f : Fragment} (typed : f.WellTyped) (quiet : Scan.noise.run f = []) :
    Place.outside.scan (f.wrap "@if(" ") ").inlined.toList =
      (.outside, Scan.lexing.run (f.wrap "@if(" ") ")) := by
  refine Scan.scan_inlined (typed.wrap _ _) ?_
  rw [Scan.run_wrap Scan.noise (by decide) (by decide), quiet]

/-- The text of a condition without raw text ends outside of literals. Its literals stand for the texts among
    its bound values, in the order of the slots, and outside of them it is the same whatever these texts are. -/
theorem literals_compile {filters : List Expr} (rawFree : ∀ e ∈ filters, e.verbatim = []) {text : String}
    (h : compile filters = .ok text) :
    ∃ (f : Fragment) (ls : List Lexeme), body filters = .ok f ∧ f.args = filters.flatMap (·.values) ∧
      Place.outside.scan text.toList = (.outside, ls) ∧
      (ls.filterMap Lexeme.literal?).map Json.ofChars? =
        (f.args.filter (·.isTextual)).map (fun v => some (.string v.format)) ∧
      ∀ others, Forall₂ (Expr.Like Value.Retexted) filters others →
        ∃ text' ls', compile others = .ok text' ∧ Place.outside.scan text'.toList = (.outside, ls') ∧
          ls'.filterMap Lexeme.char? = ls.filterMap Lexeme.char? := by
  obtain ⟨f, written, rfl⟩ := compile_eq_ok.1 h
  have typed := wellTyped_body written
  have quiet := noise_body rawFree written
  refine ⟨f, _, written, args_body written, scan_wrap typed quiet, ?_, fun others like => ?_⟩
  · rw [← Scan.run_filterMap, Scan.run_eq_flatMap_args Scan.text_literals, Fragment.args_wrap]
    exact Value.map_ofChars?_literals f.args
  · have both := both_body like
    rw [written] at both
    cases other : body others with
    | error e =>
      rw [other] at both
      cases both
    | ok g =>
      rw [other] at both
      have alike := both.of_ok
      have quiet' : Scan.noise.run g = [] := by
        rw [← Scan.run_eq_of_alike (m := Scan.noise) (fun _ _ _ => rfl) alike, quiet]
      refine ⟨_, _, compile_eq_ok.2 ⟨g, other, rfl⟩, scan_wrap (wellTyped_body other) quiet', ?_⟩
      rw [← Scan.run_filterMap, ← Scan.run_filterMap]
      exact (Scan.run_eq_of_alike (fun _ _ => Value.Retexted.plain_lexemes) (alike.wrap "@if(" ") ")).symm

/-- Filters with two texts among values of all other types. -/
def gate (s t : String) : List Expr :=
  let start : Timestamp := { seconds := 0, nanos := 999, offset := -3600 }
  [.between "na\"me" (.string s) (.other t), .any [.between "at" (.datetime start) (.float (.ofRatio true 1 8))],
    .not (.apply .uid (.value (.list [.other s, .int (-3), .bool true, .uint 3, .string t])))]

theorem retexted_gate (s t s' t' : String) : Forall₂ (Expr.Like Value.Retexted) (gate s t) (gate s' t') := by
  have items : Forall₂ Value.Retexted [.other s, .int (-3), .bool true, .uint 3, .string t]
      [.other s', .int (-3), .bool true, .uint 3, .string t'] :=
    .cons (.other s s') (.cons (.same _) (.cons (.same _) (.cons (.same _) (.cons (.string t t') .nil))))
  have interval := Expr.Like.between (V := Value.Retexted) "na\"me" (.string s s') (.other t t')
  have times (v w : Value) := Expr.Like.between (V := Value.Retexted) "at" (.same v) (.same w)
  exact .cons interval (.cons (.any (.cons (times _ _) .nil)) (.cons (.not (.apply .uid (.value (.list items)))) .nil))

/-- A text that looks like the end of a literal and more conditions after it. -/
def breakout : String := "a\" OR has(b) \\"

/-- A text of characters that have escapes of different kinds. -/
def controls : String := "\n\x01\\u\""

theorem literals_compile_gate :
    ∃ text text' ls ls', compile (gate breakout controls) = .ok text ∧ compile (gate "" "x") = .ok text' ∧
      Place.outside.scan text.toList = (.outside, ls) ∧ Place.outside.scan text'.toList = (.outside, ls') ∧
      (ls.filterMap Lexeme.literal?).map Json.ofChars? =
        [breakout, controls, "1969-12-31T23:00:00-01:00", breakout, controls].map (fun s => some (.string s)) ∧
      ls'.filterMap Lexeme.char? = ls.filterMap Lexeme.char? := by
  have guards : (compile (gate breakout controls)).isOk = true := by decide +kernel
  obtain ⟨text, compiled⟩ := Compiled.exists_of_isOk guards
  have rawFree : ∀ e ∈ gate breakout controls, e.verbatim = [] := by decide +kernel
  obtain ⟨f, ls, _, args, scanned, literals, retexted⟩ := literals_compile rawFree compiled
  obtain ⟨text', ls', compiled', scanned', plain⟩ := retexted _ (retexted_gate _ _ "" "x")
  have formats : (((gate breakout controls).flatMap (·.values)).filter (·.isTextual)).map Value.format =
      [breakout, controls, "1969-12-31T23:00:00-01:00", breakout, controls] := by decide +kernel
  refine ⟨text, text', ls, ls', compiled, compiled', scanned, scanned', ?_, plain⟩
  rw [literals, args, ← formats, List.map_map]
  rfl

end Condition

end GraphQuery
