import GraphQuery.Proofs.Lexing
import GraphQuery.Proofs.Parts
import GraphQuery.Proofs.Values

/-!
# Tokens of compiled expressions

Which tokens the fragment of an expression is made of. The tokens are read off the
expression; that they spell the compiled fragment is shown for any names, and that the
scan of its text finds them for names whose written forms close their brackets. Main
statement: `Expr.spells_compile`.
-/

namespace GraphQuery

open Compiled (map_eq_ok bind_eq_ok pure_eq_ok)

/-! ## Spelled fragments -/

/-- The functions of the query language that filters call. -/
def Expr.functions : List String :=
  ["eq", "le", "lt", "ge", "gt", "allofterms", "anyofterms", "regexp", "alloftext", "anyoftext", "exact", "term",
    "fulltext", "uid_in", "match", "has", "type", "between", "expand", "uid", "val", "count", "sum", "avg", "min",
    "max"]

/-- A call of a function. Where it matters, what is inside closes its brackets. -/
def IsCall (strict : Prop) (f : Fragment) : Prop :=
  ∃ function ∈ Expr.functions, ∃ inner : Fragment,
    f = .text (function ++ "(") ++ inner ++ .text ")" ∧ (strict → Closed inner.display)

/-- A fragment is its tokens one after the other. -/
inductive Spells (strict : Prop) : List Token → Fragment → Prop where
  | nil : Spells strict [] ∅
  | call {f g ts} (call : IsCall strict f) (rest : Spells strict ts g) : Spells strict (.call :: ts) (f ++ g)
  | mark {t g ts} (mark : t ≠ .call) (rest : Spells strict ts g) :
      Spells strict (t :: ts) (.text t.text ++ g)

theorem closed_call {function : String} (named : Closed function) {inner : Fragment} (h : Closed inner.display) :
    Closed (.text (function ++ "(") ++ inner ++ .text ")" : Fragment).display := by
  rw [Fragment.display_append, Fragment.display_append, Fragment.display_text, Fragment.display_text]
  have regrouped : function ++ "(" ++ inner.display ++ ")" = function ++ ("(" ++ inner.display ++ ")") := by
    simp only [String.append_assoc]
  rw [regrouped]
  exact closed_append named (closed_brackets h)

theorem isEmpty_enclosed {s t : String} (filled : s ≠ "") (f : Fragment) :
    (.text s ++ f ++ .text t : Fragment).isEmpty = false := by
  have first : (Fragment.text s).isEmpty = false := by simpa [Fragment.isEmpty, Fragment.text] using filled
  rw [Fragment.isEmpty_append, Fragment.isEmpty_append, first]
  rfl

theorem IsCall.not_isEmpty {strict : Prop} {f : Fragment} (h : IsCall strict f) : f.isEmpty = false := by
  obtain ⟨function, known, inner, rfl, _⟩ := h
  have written : ∀ s ∈ Expr.functions, s ++ "(" ≠ "" := by decide
  exact isEmpty_enclosed (written function known) inner

theorem IsCall.closed {f : Fragment} (h : IsCall True f) : Closed f.display := by
  obtain ⟨function, known, inner, rfl, closed⟩ := h
  have named : ∀ s ∈ Expr.functions, Closed s := by decide
  exact closed_call (named function known) (closed trivial)

theorem IsCall.scan {f : Fragment} (h : IsCall True f) :
    Mode.scan (.outside []) f.display.toList = (.outside [], [.call]) := by
  obtain ⟨function, known, inner, rfl, closed⟩ := h
  have enters : ∀ s ∈ Expr.functions, Mode.scan (.outside []) (s ++ "(").toList = (.inside 0, []) := by decide
  have leaves : Mode.scan (.inside 0) ")".toList = (.outside [], [.call]) := by decide
  rw [Fragment.display_append, Fragment.display_append, Fragment.display_text, Fragment.display_text,
    String.toList_append (t := ")"), String.toList_append (s := function ++ "("), List.append_assoc,
    Mode.scan_append (enters function known), Mode.scan_append (closed trivial), leaves]
  rfl

namespace Spells

variable {strict : Prop} {ts us : List Token} {f g : Fragment}

theorem append (h : Spells strict ts f) (h' : Spells strict us g) : Spells strict (ts ++ us) (f ++ g) := by
  induction h with
  | nil =>
    rw [Fragment.empty_append]
    exact h'
  | call call _ ih =>
    rw [Fragment.append_assoc]
    exact .call call ih
  | mark mark _ ih =>
    rw [Fragment.append_assoc]
    exact .mark mark ih

theorem oneCall (h : IsCall strict f) : Spells strict [.call] f := by
  have spelled := Spells.call h .nil
  rw [Fragment.append_empty] at spelled
  exact spelled

theorem oneMark {t : Token} (mark : t ≠ .call) : Spells strict [t] (.text t.text) := by
  have spelled : Spells strict [t] (.text t.text ++ ∅) := .mark mark .nil
  rw [Fragment.append_empty] at spelled
  exact spelled

theorem isEmpty (h : Spells strict ts f) : f.isEmpty = ts.isEmpty := by
  cases h with
  | nil => rfl
  | call call _ =>
    rw [Fragment.isEmpty_append, call.not_isEmpty]
    rfl
  | @mark t g ts mark _ =>
    have written : (Fragment.text t.text).isEmpty = false := by
      cases t with
      | call => exact absurd rfl mark
      | _ => decide
    rw [Fragment.isEmpty_append, written]
    rfl

theorem scan (h : Spells True ts f) : Mode.scan (.outside []) f.display.toList = (.outside [], ts) := by
  induction h with
  | nil => decide
  | call call _ ih =>
    rw [Fragment.display_append, String.toList_append, Mode.scan_append call.scan, ih]
    rfl
  | @mark t g ts mark _ ih =>
    have found : Mode.scan (.outside []) t.text.toList = (.outside [], [t]) := by
      cases t with
      | call => exact absurd rfl mark
      | _ => decide
    rw [Fragment.display_append, Fragment.display_text, String.toList_append, Mode.scan_append found, ih]
    rfl

end Spells

/-! ## Rows with marks -/

/-- The rows that are not empty, with a token between each two. -/
def Token.joined (t : Token) (rows : List (List Token)) : List Token := [t].intercalate (rows.filter (!·.isEmpty))

/-- A row between tokens; an empty row stays empty. -/
def Token.wrapped (before after row : List Token) : List Token :=
  if row.isEmpty then [] else before ++ row ++ after

theorem spells_separated {strict : Prop} {t : Token} (mark : t ≠ .call) {rows : List (List Token)}
    {fs : List Fragment} (each : List.Forall₂ (Spells strict) rows fs) :
    Spells strict ([t].intercalate rows) (.separated t.text fs) := by
  induction each with
  | nil => exact .nil
  | cons first rest ih =>
    cases rest with
    | nil => simpa [Fragment.separated] using first
    | cons second rest =>
      rw [List.intercalate_cons_cons, Fragment.separated]
      exact (first.append (.oneMark mark)).append ih

/-- What is known of the fragment of an expression: its tokens, and that it may stand in a call. -/
structure Spelled (strict : Prop) (ts : List Token) (f : Fragment) : Prop where
  spells : Spells strict ts f
  closed : strict → Closed f.display

namespace Spelled

variable {strict : Prop}

theorem oneCall {f : Fragment} (h : IsCall strict f) : Spelled strict [.call] f := by
  refine ⟨.oneCall h, fun strictly => ?_⟩
  obtain ⟨function, known, inner, same, closed⟩ := h
  exact IsCall.closed ⟨function, known, inner, same, fun _ => closed strictly⟩

theorem joined {t : Token} (mark : t ≠ .call) (plain : Closed t.text) {rows : List (List Token)}
    {fs : List Fragment} (each : List.Forall₂ (Spelled strict) rows fs) :
    Spelled strict (t.joined rows) (.join t.text fs) := by
  constructor
  · refine spells_separated mark ?_
    induction each with
    | nil => exact .nil
    | @cons row f rows fs first rest ih =>
      have alike := first.spells.isEmpty
      by_cases empty : row.isEmpty
      · rw [empty] at alike
        simpa [empty, alike] using ih
      · simp only [empty] at alike
        simpa [empty, alike] using ⟨first.spells, ih⟩
  · intro strictly
    refine Fragment.closed_join plain ?_
    induction each with
    | nil => simp
    | cons first _ ih => exact List.forall_mem_cons.2 ⟨first.closed strictly, ih⟩

theorem wrapped {before after row : List Token} {s t : String} {f : Fragment}
    (opens : Spells strict before (.text s)) (closes : Spells strict after (.text t))
    (matched : ∀ u, Closed u → Closed (s ++ u ++ t)) (h : Spelled strict row f) :
    Spelled strict (Token.wrapped before after row) (f.wrap s t) := by
  have alike := h.spells.isEmpty
  unfold Token.wrapped Fragment.wrap
  by_cases empty : row.isEmpty
  · have none := List.isEmpty_iff.1 empty
    subst none
    simpa [alike] using h
  · simp only [empty] at alike
    simp only [empty, alike]
    refine ⟨(opens.append h.spells).append closes, fun strictly => ?_⟩
    simp only [Bool.false_eq_true, ite_false, Fragment.display_append, Fragment.display_text]
    exact matched _ (h.closed strictly)

end Spelled

/-! ## Tokens of expressions -/

mutual

/-- The tokens that an expression is written with. -/
def Expr.tokens : Expr → List Token
  | .compare _ fields => Token.joined .conj (fields.entries.map fun _ => [.call])
  | .fuzzy fields _ => Token.joined .conj (fields.entries.map fun _ => [.call])
  | .has predicates => Token.joined .conj (predicates.keys.map fun _ => [.call])
  | .ofType _ => [.call]
  | .between .. => [.call]
  | .apply _ operand => if Operand.isBlank operand then [] else [.call]
  | .expand _ => [.call]
  | .raw _ => []
  | .all parts => Token.wrapped [.opening] [.closing] (Token.joined .conj (Expr.tokensAll parts))
  | .any parts => Token.wrapped [.opening] [.closing] (Token.joined .disj (Expr.tokensAll parts))
  | .not part => Token.wrapped [.neg] [] (Expr.tokens part)

/-- Whether nothing is written for an operand. -/
def Operand.isBlank : Operand → Bool
  | .predicate name => (Predicate.escape name).isEmpty
  | .value _ => false
  | .nested e => (Expr.tokens e).isEmpty

def Expr.tokensAll : List Expr → List (List Token)
  | [] => []
  | e :: es => Expr.tokens e :: Expr.tokensAll es

end

mutual

/-- The predicates in an expression, as they are given. -/
def Expr.predicates : Expr → List String
  | .compare _ fields => fields.keys
  | .fuzzy fields _ => fields.keys
  | .has predicates => predicates.keys
  | .ofType _ => []
  | .between predicate _ _ => [predicate]
  | .apply _ operand => Operand.predicates operand
  | .expand _ => []
  | .raw _ => []
  | .all parts => Expr.predicatesAll parts
  | .any parts => Expr.predicatesAll parts
  | .not part => Expr.predicates part

def Operand.predicates : Operand → List String
  | .predicate name => [name]
  | .value _ => []
  | .nested e => Expr.predicates e

def Expr.predicatesAll : List Expr → List String
  | [] => []
  | e :: es => Expr.predicates e ++ Expr.predicatesAll es

end

/-- The written form of every predicate closes the brackets that it opens, and no other. -/
def Expr.Contained (e : Expr) : Prop := ∀ p ∈ e.predicates, Closed (Predicate.escape p)

instance (e : Expr) : Decidable e.Contained :=
  inferInstanceAs (Decidable (∀ p ∈ e.predicates, Closed (Predicate.escape p)))

/-! ## Values -/

theorem display_bindable {v : Value} {f : Fragment} (h : v.bindable.map .slot = .ok f) :
    f.display = Fragment.slotMark := by
  obtain ⟨w, _, rfl⟩ := map_eq_ok.1 h
  exact Fragment.display_slot w

theorem closed_compileItem {v : Value} {f : Fragment} (h : v.compileItem = .ok f) (rawFree : v.rawText? = none) :
    Closed f.display := by
  unfold Value.compileItem at h
  split at h
  · cases rawFree
  · cases h
  · cases h
  · rw [display_bindable h]
    decide

theorem closed_compileValue {v : Value} {f : Fragment} (h : v.compile = .ok f) (rawFree : v.verbatim = []) :
    Closed f.display := by
  have bracketed (fs : List Fragment) (each : ∀ g ∈ fs, Closed g.display) :
      Closed (Value.bracketedItems fs).display := by
    unfold Value.bracketedItems
    rw [Fragment.display_append, Fragment.display_append, Fragment.display_text, Fragment.display_text]
    exact closed_append (closed_append (by decide) (Fragment.closed_separated (by decide) each)) (by decide)
  unfold Value.compile at h
  split at h
  · cases h
    exact bracketed [] (by simp)
  · next items =>
    obtain ⟨fs, run, rfl⟩ := map_eq_ok.1 h
    refine bracketed fs fun g member => ?_
    obtain ⟨v, inside, compiled⟩ := Compiled.exists_of_mem_mapM run member
    exact closed_compileItem compiled (List.filterMap_eq_nil_iff.1 rawFree v inside)
  · cases rawFree
  · rw [display_bindable h]
    decide

theorem not_isEmpty_compileValue {v : Value} {f : Fragment} (h : v.compile = .ok f) (rawFree : v.verbatim = []) :
    f.isEmpty = false := by
  unfold Value.compile at h
  split at h
  · cases h
    exact isEmpty_enclosed (by decide) _
  · obtain ⟨fs, _, rfl⟩ := map_eq_ok.1 h
    exact isEmpty_enclosed (by decide) _
  · cases rawFree
  · obtain ⟨w, _, rfl⟩ := map_eq_ok.1 h
    rfl

/-! ## Calls -/

namespace Expr

theorem name_mem_functions (op : Comparison) : op.name ∈ functions := by cases op <;> decide

theorem unary_mem_functions (f : Unary) : f.name ∈ functions := by cases f <;> decide

variable {strict : Prop}

theorem isCall_compileCall {function rest : String} (known : function ∈ functions) (closes : Closed rest)
    {field : String × Value} {f : Fragment} (h : compileCall function rest field = .ok f)
    (rawFree : field.2.verbatim = []) (contained : strict → Closed (Predicate.escape field.1)) :
    IsCall strict f := by
  obtain ⟨_, value, bound, rfl⟩ := compileCall_eq_ok.1 h
  refine ⟨function, known, .text (Predicate.escape field.1 ++ ",") ++ value ++ .text rest, ?_, ?_⟩
  · simp only [Fragment.text_append, Fragment.append_assoc]
  · intro strictly
    simp only [Fragment.display_append, Fragment.display_text]
    have predicate : Closed (Predicate.escape field.1 ++ ",") := closed_append (contained strictly) (by decide)
    exact closed_append (closed_append predicate (closed_compileValue bound rawFree)) closes

theorem isCall_compileHasOne {predicate : String} {f : Fragment} (h : compileHasOne predicate = .ok f)
    (contained : strict → Closed (Predicate.escape predicate)) : IsCall strict f := by
  obtain ⟨_, rfl⟩ := compileHasOne_eq_ok.1 h
  refine ⟨"has", by decide, .text (Predicate.escape predicate), rfl, ?_⟩
  intro strictly
  rw [Fragment.display_text]
  exact contained strictly

theorem isCall_compileBetween {predicate : String} {low high : Value} {f : Fragment}
    (h : compileBetween predicate low high = .ok f) (rawFree : low.verbatim ++ high.verbatim = [])
    (contained : strict → Closed (Predicate.escape predicate)) : IsCall strict f := by
  obtain ⟨_, l, u, lowest, highest, rfl⟩ := compileBetween_eq_ok.1 h
  obtain ⟨lowFree, highFree⟩ := List.append_eq_nil_iff.1 rawFree
  refine ⟨"between", by decide, .text (Predicate.escape predicate ++ ",") ++ l ++ .text "," ++ u, ?_, ?_⟩
  · have opens : "between(" = "between" ++ "(" := by decide
    simp only [opens, Fragment.text_append, Fragment.append_assoc]
  · intro strictly
    simp only [Fragment.display_append, Fragment.display_text]
    have predicate : Closed (Predicate.escape predicate ++ ",") := closed_append (contained strictly) (by decide)
    have toLow := closed_append predicate (closed_compileValue lowest lowFree)
    exact closed_append (closed_append toLow (by decide)) (closed_compileValue highest highFree)

theorem isCall_named {function : String} (known : function ∈ functions) (name : String) :
    IsCall strict (.text (function ++ "(" ++ Predicate.name name ++ ")")) := by
  refine ⟨function, known, .text (Predicate.name name), rfl, ?_⟩
  intro _
  rw [Fragment.display_text]
  exact closed_name name

theorem spelled_calls {α : Type} {f : α → Compiled Fragment} {xs : List α} {fs : List Fragment}
    (run : xs.mapM f = .ok fs) (each : ∀ x ∈ xs, ∀ g, f x = .ok g → IsCall strict g) :
    Spelled strict (Token.joined .conj (xs.map fun _ => [.call])) (.join conjunction fs) := by
  refine Spelled.joined (t := .conj) (by decide) (by decide) ?_
  rw [List.forall₂_map_left_iff]
  exact Compiled.forall₂_of_mapM run fun x member g compiled => .oneCall (each x member g compiled)

theorem spelled_compileFields {function rest : String} (known : function ∈ functions) (closes : Closed rest)
    {fields : KeyMap Value} {f : Fragment} (h : compileFields function rest fields = .ok f)
    (rawFree : fields.entries.flatMap (·.2.verbatim) = [])
    (contained : strict → ∀ p ∈ fields.keys, Closed (Predicate.escape p)) :
    Spelled strict (Token.joined .conj (fields.entries.map fun _ => [.call])) f := by
  obtain ⟨calls, run, rfl⟩ := compileFields_eq_ok.1 h
  refine spelled_calls run fun field member g compiled => ?_
  refine isCall_compileCall known closes compiled (List.flatMap_eq_nil_iff.1 rawFree field member) ?_
  intro strictly
  exact contained strictly field.1 (List.mem_map_of_mem member)

theorem spelled_compileHas {predicates : KeyMap Unit} {f : Fragment} (h : compileHas predicates = .ok f)
    (contained : strict → ∀ p ∈ predicates.keys, Closed (Predicate.escape p)) :
    Spelled strict (Token.joined .conj (predicates.keys.map fun _ => [.call])) f := by
  obtain ⟨calls, run, rfl⟩ := compileHas_eq_ok.1 h
  refine spelled_calls run fun predicate member g compiled => ?_
  exact isCall_compileHasOne compiled fun strictly => contained strictly predicate member

theorem spelled_connect {t : Token} (mark : t ≠ .call) (plain : Closed t.text) {rows : List (List Token)}
    {fs : List Fragment} (each : List.Forall₂ (Spelled strict) rows fs) :
    Spelled strict (Token.wrapped [.opening] [.closing] (t.joined rows)) (connect t.text fs) :=
  Spelled.wrapped (s := "(") (t := ")") (.oneMark (t := .opening) (by decide)) (.oneMark (t := .closing) (by decide))
    (fun _ => closed_brackets) (.joined mark plain each)

theorem spelled_not {row : List Token} {f : Fragment} (h : Spelled strict row f) :
    Spelled strict (Token.wrapped [.neg] [] row) (f.wrap "NOT " "") := by
  refine Spelled.wrapped (.oneMark (t := .neg) (by decide)) .nil (fun s closed => ?_) h
  rw [String.append_empty]
  exact closed_append (by decide) closed

/-! ## Expressions -/

mutual

theorem spelled_compile {e : Expr} {f : Fragment} (h : e.compile = .ok f) (rawFree : e.verbatim = [])
    (contained : strict → ∀ p ∈ e.predicates, Closed (Predicate.escape p)) : Spelled strict e.tokens f := by
  cases e with
  | compare op fields => exact spelled_compileFields (name_mem_functions op) (by decide) h rawFree contained
  | fuzzy fields distance =>
    have closes : Closed ("," ++ toString distance) := closed_append (by decide) (closed_toString distance)
    exact spelled_compileFields (by decide) closes h rawFree contained
  | has predicates => exact spelled_compileHas h contained
  | ofType name =>
    cases h
    have known : "type" ∈ functions := by decide
    exact .oneCall (isCall_named known name)
  | between predicate low high =>
    refine .oneCall (isCall_compileBetween h rawFree fun strictly => ?_)
    exact contained strictly predicate (by simp [Expr.predicates])
  | apply function operand =>
    obtain ⟨g, compiled, rfl⟩ := map_eq_ok.1 h
    obtain ⟨blank, closed⟩ := spelled_compileOperand compiled rawFree contained
    rw [Expr.tokens, ← blank]
    unfold Fragment.wrap
    by_cases empty : g.isEmpty
    · rw [if_pos empty, if_pos empty]
      have none := Fragment.eq_empty_of_isEmpty empty
      subst none
      exact ⟨.nil, closed⟩
    · rw [if_neg empty, if_neg empty]
      exact .oneCall ⟨function.name, unary_mem_functions function, g, rfl, closed⟩
  | expand name =>
    cases h
    have known : "expand" ∈ functions := by decide
    exact .oneCall (isCall_named known name)
  | raw text => simp [Expr.verbatim] at rawFree
  | all parts =>
    obtain ⟨fs, compiled, rfl⟩ := map_eq_ok.1 h
    exact spelled_connect (t := .conj) (by decide) (by decide) (spelled_compileAll compiled rawFree contained)
  | any parts =>
    obtain ⟨fs, compiled, rfl⟩ := map_eq_ok.1 h
    exact spelled_connect (t := .disj) (by decide) (by decide) (spelled_compileAll compiled rawFree contained)
  | not part =>
    obtain ⟨g, compiled, rfl⟩ := map_eq_ok.1 h
    have inner := spelled_compile compiled rawFree contained
    exact spelled_not inner

theorem spelled_compileOperand {operand : Operand} {f : Fragment} (h : compileOperand operand = .ok f)
    (rawFree : operand.verbatim = [])
    (contained : strict → ∀ p ∈ operand.predicates, Closed (Predicate.escape p)) :
    f.isEmpty = operand.isBlank ∧ (strict → Closed f.display) := by
  cases operand with
  | predicate name =>
    cases h
    refine ⟨by simp [Operand.isBlank, Fragment.isEmpty, Fragment.text], fun strictly => ?_⟩
    rw [Fragment.display_text]
    exact contained strictly name (by simp [Operand.predicates])
  | value v => exact ⟨not_isEmpty_compileValue h rawFree, fun _ => closed_compileValue h rawFree⟩
  | nested e =>
    have inner := spelled_compile h rawFree contained
    exact ⟨inner.spells.isEmpty, inner.closed⟩

theorem spelled_compileAll {es : List Expr} {fs : List Fragment} (h : compileAll es = .ok fs)
    (rawFree : verbatimAll es = [])
    (contained : strict → ∀ p ∈ predicatesAll es, Closed (Predicate.escape p)) :
    List.Forall₂ (Spelled strict) (tokensAll es) fs := by
  cases es with
  | nil =>
    cases h
    exact .nil
  | cons e es =>
    obtain ⟨f, first, rest⟩ := bind_eq_ok.1 h
    obtain ⟨gs, compiled, same⟩ := bind_eq_ok.1 rest
    rw [pure_eq_ok.1 same]
    obtain ⟨firstFree, restFree⟩ := List.append_eq_nil_iff.1 rawFree
    refine .cons (spelled_compile first firstFree fun strictly p member => ?_)
      (spelled_compileAll compiled restFree fun strictly p member => ?_)
    · exact contained strictly p (List.mem_append_left _ member)
    · exact contained strictly p (List.mem_append_right _ member)

end

end Expr

end GraphQuery
