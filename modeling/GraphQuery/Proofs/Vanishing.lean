import GraphQuery.Mutation
import GraphQuery.Proofs.Regrouping
import GraphQuery.Proofs.Renaming
import GraphQuery.Proofs.Spelling
import Mathlib.Data.List.TakeWhile

/-!
# Expressions that leave no trace

An expression may compile to nothing, and is then left out of the clause around it. So may a
name of which escaping leaves nothing. Main statement: nothing is written for an expression
exactly if it has no parts to write, or only names of which nothing is left
(`Expr.isEmpty_compile`).
-/

namespace GraphQuery

open Compiled (map_eq_ok bind_eq_ok pure_eq_ok)

/-! ## Lost names -/

namespace Predicate

open Text

/-- Whether a name has forbidden characters and blanks alone, so that nothing of it can be written. -/
def isLost (s : String) : Bool := s.toList.all fun c => forbidden.contains c || isBlank c

theorem clean_eq_self {cs : List Char} (allowed : ∀ c ∈ cs, c ∉ forbidden) : clean cs = cs := by
  refine List.filter_eq_self.2 fun c member => ?_
  simpa using allowed c member

theorem trim_eq_nil_iff (cs : List Char) : trim cs = [] ↔ ∀ c ∈ cs, isBlank c = true := by
  have start (ds : List Char) : trimStart ds = [] ↔ ∀ c ∈ ds, isBlank c = true := List.dropWhile_eq_nil_iff
  constructor
  · intro empty
    rcases trimStart_eq_nil_or cs with none | ⟨c, rest, found, filled⟩
    · exact (start cs).1 none
    · -- The first character that is not blank would be in the trimmed text.
      rw [trim, trimEnd, List.reverse_eq_nil_iff, start] at empty
      have blank := empty c (by simp [found])
      rw [filled] at blank
      cases blank
  · intro blanks
    rw [trim, (start cs).2 blanks]
    rfl

theorem trim_clean_eq_nil_iff (s : String) : trim (clean s.toList) = [] ↔ isLost s = true := by
  rw [trim_eq_nil_iff, isLost, List.all_eq_true]
  refine ⟨fun blanks c member => ?_, fun lost c member => ?_⟩
  · by_cases dropped : forbidden.contains c = true
    · rw [dropped, Bool.true_or]
    · rw [blanks c (List.mem_filter.2 ⟨member, by simpa using dropped⟩), Bool.or_true]
  · obtain ⟨inside, kept⟩ := List.mem_filter.1 member
    have allowed : c ∉ forbidden := by simpa using kept
    simpa [allowed] using lost c inside

theorem bracketed_eq_nil_iff (cs : List Char) : bracketed cs = [] ↔ cs = [] := by
  rcases bracketed_eq_or cs with same | same
  · rw [same]
  · rw [same]
    refine iff_of_false (by simp) fun empty => ?_
    subst empty
    cases same

/-- Nothing is written for a name exactly if it has forbidden characters and blanks alone. -/
theorem name_eq_empty_iff (s : String) : name s = "" ↔ isLost s = true := by
  rw [← trim_clean_eq_nil_iff, name, String.ofList_eq_empty_iff, nameChars, bracketed_eq_nil_iff]

theorem bodyChars_ne_nil {cs : List Char} (filled : trim (clean cs) ≠ []) : bodyChars cs ≠ [] := by
  unfold bodyChars
  split
  · rintro rfl
    exact filled rfl
  · cases cut? ['@'] cs with
    | none => exact mt (bracketed_eq_nil_iff _).1 filled
    | some parts =>
      dsimp only
      split
      · -- The at sign is no blank, so it stays.
        intro empty
        have blank := List.dropWhile_eq_nil_iff.1 empty '@' (by simp)
        exact absurd blank (by decide)
      · simp

/-- The same for predicates, whatever their form. -/
theorem escape_eq_empty_iff (s : String) : escape s = "" ↔ isLost s = true := by
  rw [← trim_clean_eq_nil_iff, escape, String.ofList_eq_empty_iff, predicateChars]
  refine ⟨fun none => ?_, fun empty => by rw [empty]; rfl⟩
  by_contra filled
  rw [if_neg (by simpa using filled)] at none
  have settled : trim (clean (trim (clean s.toList))) = trim (clean s.toList) := by
    rw [clean_eq_self fun c member => not_forbidden_of_mem_clean (mem_of_mem_trim member), trim_trim]
  cases form : Form.ofChars (trim (clean s.toList)) with
  | bound var body => simp [form, Form.chars] at none
  | aliased name body => simp [form, Form.chars] at none
  | plain body =>
    have whole : body = trim (clean s.toList) := by
      unfold Form.ofChars at form
      split at form <;> cases form
      rfl
    rw [form, whole] at none
    exact bodyChars_ne_nil (settled.symm ▸ filled) none

/-! ## Names before predicates -/

/-- The name before the body of a form, as it is written. -/
def Form.mark? : Form → Option (List Char)
  | .bound var _ => some (nameChars var)
  | .aliased name _ => some (nameChars name)
  | .plain _ => none

theorem exists_of_binding? {cs var body : List Char} (h : binding? cs = some (var, body)) :
    ∃ before, (∀ c ∈ before, c ∈ cs) ∧ trim before ≠ [] ∧ var = trim before := by
  unfold binding? at h
  split at h
  · next before rest cut =>
    split at h
    · cases h
    · next filled =>
      simp only [Option.some.injEq, Prod.mk.injEq] at h
      obtain ⟨found, same, _⟩ := eq_append_of_cutFolded? cut
      refine ⟨before, fun c member => ?_, fun none => filled (by simp [none]), h.1.symm⟩
      rw [same, List.append_assoc]
      exact List.mem_append_left _ member
  · cases h

theorem exists_of_alias? {cs name body : List Char} (h : alias? cs = some (name, body)) :
    ∃ before, (∀ c ∈ before, c ∈ cs) ∧ trim before ≠ [] ∧ name = trim before := by
  unfold alias? at h
  split at h
  · next before rest cut =>
    split at h
    · cases h
    · next filled =>
      simp only [Option.some.injEq, Prod.mk.injEq] at h
      refine ⟨before, fun c member => ?_, fun none => filled (by simp [none]), h.1.symm⟩
      rw [eq_append_of_cut? cut, List.append_assoc]
      exact List.mem_append_left _ member
  · cases h

/-- A name stands before the body of a form only if something is left of it. -/
theorem mark_ne_nil {cs : List Char} (allowed : ∀ c ∈ cs, c ∉ forbidden) : (Form.ofChars cs).mark? ≠ some [] := by
  have kept {before : List Char} (part : ∀ c ∈ before, c ∈ cs) (filled : trim before ≠ []) :
      some (nameChars (trim before)) ≠ some [] := by
    rw [nameChars, clean_eq_self fun c member => allowed c (part c (mem_of_mem_trim member)), trim_trim]
    exact mt Option.some.inj (mt (bracketed_eq_nil_iff _).1 filled)
  unfold Form.ofChars
  split
  · next var body bound =>
    obtain ⟨before, part, filled, rfl⟩ := exists_of_binding? bound
    exact kept part filled
  · next name body _ aliased =>
    obtain ⟨before, part, filled, rfl⟩ := exists_of_alias? aliased
    exact kept part filled
  · simp [Form.mark?]

/-- A predicate is written in some form, without an empty name before the body. -/
theorem exists_form (p : String) : ∃ form : Form, escape p = String.ofList form.chars ∧ form.mark? ≠ some [] := by
  rw [escape]
  unfold predicateChars
  dsimp only
  split
  · exact ⟨.plain [], rfl, by simp [Form.mark?]⟩
  · exact ⟨_, rfl, mark_ne_nil fun c member => not_forbidden_of_mem_clean (mem_of_mem_trim member)⟩

end Predicate

/-! ## Hollow expressions -/

/-- Whether nothing is written for a value, which is so for raw text that is empty. -/
def Value.isHollow : Value → Bool
  | .raw s => s.isEmpty
  | _ => false

mutual

/-- Whether an expression has nothing to write, `lost` being the names of which nothing is left: functions
    without fields, raw texts that are empty, and connectors and functions around nothing else. -/
def Expr.isHollow (lost : String → Bool) : Expr → Bool
  | .compare _ fields => fields.entries.isEmpty
  | .fuzzy fields _ => fields.entries.isEmpty
  | .has predicates => predicates.keys.isEmpty
  | .ofType _ => false
  | .between .. => false
  | .apply _ operand => Operand.isHollow lost operand
  | .expand _ => false
  | .raw text => text.isEmpty
  | .all parts => Expr.areHollow lost parts
  | .any parts => Expr.areHollow lost parts
  | .not part => Expr.isHollow lost part

def Operand.isHollow (lost : String → Bool) : Operand → Bool
  | .predicate name => lost name
  | .value v => v.isHollow
  | .nested e => Expr.isHollow lost e

def Expr.areHollow (lost : String → Bool) : List Expr → Bool
  | [] => true
  | e :: es => Expr.isHollow lost e && Expr.areHollow lost es

end

mutual

/-- The names that are the operand of a function, at any depth. -/
def Expr.operandNames : Expr → List String
  | .apply _ operand => Operand.names operand
  | .all parts => Expr.operandNamesAll parts
  | .any parts => Expr.operandNamesAll parts
  | .not part => Expr.operandNames part
  | _ => []

def Operand.names : Operand → List String
  | .predicate name => [name]
  | .value _ => []
  | .nested e => Expr.operandNames e

def Expr.operandNamesAll : List Expr → List String
  | [] => []
  | e :: es => Expr.operandNames e ++ Expr.operandNamesAll es

end

mutual

theorem Expr.isHollow_congr {lost lost' : String → Bool} (e : Expr)
    (same : ∀ p ∈ e.operandNames, lost p = lost' p) : e.isHollow lost = e.isHollow lost' := by
  cases e with
  | apply f operand => exact Operand.isHollow_congr operand same
  | all parts => exact Expr.areHollow_congr parts same
  | any parts => exact Expr.areHollow_congr parts same
  | not part =>
    have inner := Expr.isHollow_congr part same
    exact inner
  | _ => rfl

theorem Operand.isHollow_congr {lost lost' : String → Bool} (operand : Operand)
    (same : ∀ p ∈ operand.names, lost p = lost' p) : operand.isHollow lost = operand.isHollow lost' := by
  cases operand with
  | predicate name => exact same name (by simp [Operand.names])
  | value v => rfl
  | nested e =>
    have inner := Expr.isHollow_congr e same
    exact inner

theorem Expr.areHollow_congr {lost lost' : String → Bool} (es : List Expr)
    (same : ∀ p ∈ Expr.operandNamesAll es, lost p = lost' p) : Expr.areHollow lost es = Expr.areHollow lost' es := by
  cases es with
  | nil => rfl
  | cons e es =>
    rw [Expr.areHollow, Expr.areHollow, Expr.isHollow_congr e fun p member => same p (List.mem_append_left _ member),
      Expr.areHollow_congr es fun p member => same p (List.mem_append_right _ member)]

end

/-! ## Empty fragments -/

namespace Fragment

theorem not_isEmpty_text {s : String} (filled : s ≠ "") : (text s).isEmpty = false := by
  simpa [isEmpty, text] using filled

theorem isEmpty_wrap (before after : String) (f : Fragment) : (f.wrap before after).isEmpty = f.isEmpty := by
  unfold wrap
  split
  · rfl
  · next filled =>
    rw [isEmpty_append, isEmpty_append, Bool.eq_false_iff.2 filled]
    simp

end Fragment

theorem Value.isEmpty_compile {v : Value} {f : Fragment} (h : v.compile = .ok f) : f.isEmpty = v.isHollow := by
  cases v with
  | raw s =>
    cases h
    rfl
  | nilList => exact not_isEmpty_compileValue h rfl
  | list items =>
    obtain ⟨fs, _, rfl⟩ := map_eq_ok.1 h
    exact isEmpty_enclosed (by decide) _
  | _ => exact not_isEmpty_compileValue h rfl

namespace Expr

/-- Calls of which each leaves a trace leave one together, unless there are none. -/
theorem isEmpty_calls {α : Type} {f : α → Compiled Fragment} {xs : List α} {fs : List Fragment}
    (run : xs.mapM f = .ok fs) (each : ∀ x g, f x = .ok g → g.isEmpty = false) :
    (Fragment.join conjunction fs).isEmpty = xs.isEmpty := by
  rw [Fragment.isEmpty_join]
  rw [Compiled.mapM_eq_ok] at run
  cases run with
  | nil => rfl
  | cons first rest => simp [each _ _ first]

theorem not_isEmpty_compileCall {function rest : String} {field : String × Value} {f : Fragment}
    (h : compileCall function rest field = .ok f) : f.isEmpty = false := by
  obtain ⟨_, value, _, rfl⟩ := compileCall_eq_ok.1 h
  exact isEmpty_enclosed (by simp) _

theorem isEmpty_compileFields {function rest : String} {fields : KeyMap Value} {f : Fragment}
    (h : compileFields function rest fields = .ok f) : f.isEmpty = fields.entries.isEmpty := by
  obtain ⟨calls, run, rfl⟩ := compileFields_eq_ok.1 h
  exact isEmpty_calls run fun _ _ => not_isEmpty_compileCall

mutual

/-- Nothing is written for an expression exactly if it has nothing to write. -/
theorem isEmpty_compile {e : Expr} {f : Fragment} (h : e.compile = .ok f) :
    f.isEmpty = e.isHollow Predicate.isLost := by
  cases e with
  | compare op fields => exact isEmpty_compileFields h
  | fuzzy fields distance => exact isEmpty_compileFields h
  | has predicates =>
    obtain ⟨calls, run, rfl⟩ := compileHas_eq_ok.1 h
    refine isEmpty_calls run fun predicate g compiled => ?_
    obtain ⟨_, rfl⟩ := compileHasOne_eq_ok.1 compiled
    exact Fragment.not_isEmpty_text (by simp)
  | ofType name =>
    cases h
    exact Fragment.not_isEmpty_text (by simp)
  | between predicate low high =>
    obtain ⟨_, l, u, _, _, rfl⟩ := compileBetween_eq_ok.1 h
    rw [Fragment.isEmpty_append, Fragment.not_isEmpty_text (by decide), Bool.and_false]
    rfl
  | apply function operand =>
    obtain ⟨g, compiled, rfl⟩ := map_eq_ok.1 h
    rw [Fragment.isEmpty_wrap]
    exact isEmpty_compileOperand compiled
  | expand name =>
    cases h
    exact Fragment.not_isEmpty_text (by simp)
  | raw text =>
    cases h
    rfl
  | all parts =>
    obtain ⟨fs, compiled, rfl⟩ := map_eq_ok.1 h
    rw [connect, Fragment.isEmpty_wrap, Fragment.isEmpty_join]
    exact isEmpty_compileAll compiled
  | any parts =>
    obtain ⟨fs, compiled, rfl⟩ := map_eq_ok.1 h
    rw [connect, Fragment.isEmpty_wrap, Fragment.isEmpty_join]
    exact isEmpty_compileAll compiled
  | not part =>
    obtain ⟨g, compiled, rfl⟩ := map_eq_ok.1 h
    have inner := isEmpty_compile compiled
    rw [Fragment.isEmpty_wrap]
    exact inner

theorem isEmpty_compileOperand {operand : Operand} {f : Fragment} (h : compileOperand operand = .ok f) :
    f.isEmpty = operand.isHollow Predicate.isLost := by
  cases operand with
  | predicate name =>
    cases h
    rw [Bool.eq_iff_iff, Operand.isHollow, ← Predicate.escape_eq_empty_iff]
    simp [Fragment.isEmpty, Fragment.text]
  | value v => exact Value.isEmpty_compile h
  | nested e =>
    have inner := isEmpty_compile h
    exact inner

theorem isEmpty_compileAll {es : List Expr} {fs : List Fragment} (h : compileAll es = .ok fs) :
    fs.all (·.isEmpty) = areHollow Predicate.isLost es := by
  cases es with
  | nil =>
    cases h
    rfl
  | cons e es =>
    obtain ⟨f, first, rest⟩ := bind_eq_ok.1 h
    obtain ⟨gs, compiled, same⟩ := bind_eq_ok.1 rest
    rw [pure_eq_ok.1 same, List.all_cons, areHollow, isEmpty_compile first, isEmpty_compileAll compiled]

end

end Expr

end GraphQuery
