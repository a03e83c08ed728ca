import GraphQuery.Proofs.Spelling
import GraphQuery.Proofs.Truth

/-!
# The meaning of compiled expressions

What an expression says of the truth values of its calls, and what the compiled fragment
says when it is read as a formula. A connector stands between brackets, so it is read as
a whole wherever it is nested. A function of several fields is not: a negation before it
reaches its first call only. Main statement: both say the same exactly if no function of
several fields is under an odd number of negations (`Expr.eval_eq_holds_iff_faithful`).
-/

namespace GraphQuery

/-! ## What an expression says -/

def Expr.calls (e : Expr) : Nat := e.tokens.count .call

mutual

/-- Whether an expression holds, its calls having these truth values in the order in which they are
    written. Parts that leave no trace are left out. -/
def Expr.holds : Expr → Assignment → Bool
  | .compare _ fields, σ => (List.range fields.entries.length).all σ
  | .fuzzy fields _, σ => (List.range fields.entries.length).all σ
  | .has predicates, σ => (List.range predicates.keys.length).all σ
  | .ofType _, σ => σ 0
  | .between .., σ => σ 0
  | .apply .., σ => σ 0
  | .expand _, σ => σ 0
  | .raw _, _ => true
  | .all parts, σ => Expr.holdsAll parts σ
  | .any parts, σ => Expr.holdsAny parts σ
  | .not part, σ => !Expr.holds part σ

/-- Whether every expression that leaves a trace holds. -/
def Expr.holdsAll : List Expr → Assignment → Bool
  | [], _ => true
  | e :: es, σ => (e.tokens.isEmpty || Expr.holds e σ) && Expr.holdsAll es (σ.later e.calls)

def Expr.holdsAny : List Expr → Assignment → Bool
  | [], _ => false
  | e :: es, σ => (!e.tokens.isEmpty && Expr.holds e σ) || Expr.holdsAny es (σ.later e.calls)

end

mutual

/-- Under an odd number of negations since the last bracket, a function may have one field at most. -/
def Expr.guarded : Expr → (odd : Bool) → Bool
  | .compare _ fields, odd => !odd || fields.entries.length ≤ 1
  | .fuzzy fields _, odd => !odd || fields.entries.length ≤ 1
  | .has predicates, odd => !odd || predicates.keys.length ≤ 1
  | .ofType _, _ => true
  | .between .., _ => true
  | .apply .., _ => true
  | .expand _, _ => true
  | .raw _, _ => true
  | .all parts, _ => Expr.guardedAll parts
  | .any parts, _ => Expr.guardedAll parts
  | .not part, odd => Expr.guarded part (!odd)

def Expr.guardedAll : List Expr → Bool
  | [] => true
  | e :: es => Expr.guarded e false && Expr.guardedAll es

end

/-- No function of several fields is under an odd number of negations without brackets between. -/
def Expr.Faithful (e : Expr) : Prop := e.guarded false = true

instance (e : Expr) : Decidable e.Faithful := inferInstanceAs (Decidable (e.guarded false = true))

/-! ## What is read -/

namespace Formula

/-- One unit for formulas between brackets, none for no formulas. -/
def single (build : List Formula → Formula) (φs : List Formula) : List Formula :=
  if φs.isEmpty then [] else [build φs]

/-- A negation before a row reaches the first unit. -/
def negateFirst : List Formula → List Formula
  | [] => []
  | φ :: φs => .neg φ :: φs

/-- Whether all of the formulas hold, with the first one negated or not. -/
def evalLed (negated : Bool) : List Formula → Assignment → Bool
  | [], _ => true
  | φ :: φs, σ => (φ.eval σ ^^ negated) && evalAll φs (σ.later φ.atoms)

end Formula

open Formula (single negateFirst allOf anyOf evalAll evalAny evalLed size)

mutual

/-- The units of the row that an expression is written as. -/
def Expr.units : Expr → List Formula
  | .compare _ fields => List.replicate fields.entries.length .atom
  | .fuzzy fields _ => List.replicate fields.entries.length .atom
  | .has predicates => List.replicate predicates.keys.length .atom
  | .ofType _ => [.atom]
  | .between .. => [.atom]
  | .apply _ operand => if operand.isBlank then [] else [.atom]
  | .expand _ => [.atom]
  | .raw _ => []
  | .all parts => single allOf (Expr.unitsAll parts).flatten
  | .any parts => single anyOf ((Expr.unitsAll parts).flatMap (single allOf))
  | .not part => negateFirst (Expr.units part)

def Expr.unitsAll : List Expr → List (List Formula)
  | [] => []
  | e :: es => Expr.units e :: Expr.unitsAll es

end

/-! ## Rows -/

/-- A row is read as a series of these formulas, or there is neither. -/
def ReadsRow (level : Level) (mark : Token) (ts : List Token) (φs : List Formula) : Prop :=
  ts = [] ∧ φs = [] ∨ ReadsSeries level mark ts φs

theorem Token.joined_cons_nil (t : Token) (rows : List (List Token)) : t.joined ([] :: rows) = t.joined rows := by
  simp [joined]

theorem Token.joined_cons {t : Token} {row : List Token} (filled : row ≠ []) (rows : List (List Token)) :
    t.joined (row :: rows) = if t.joined rows = [] then row else row ++ t :: t.joined rows := by
  have kept : (row :: rows).filter (!·.isEmpty) = row :: rows.filter (!·.isEmpty) :=
    List.filter_cons_of_pos (by simpa using filled)
  unfold joined
  rw [kept]
  cases rest : rows.filter (!·.isEmpty) with
  | nil => simp
  | cons next others =>
    have nextFilled : next ≠ [] := by
      have member : next ∈ rows.filter (!·.isEmpty) := by simp [rest]
      simpa using (List.mem_filter.1 member).2
    have some : [t].intercalate (next :: others) ≠ [] := by
      cases others with
      | nil => simpa using nextFilled
      | cons => simp [List.intercalate_cons_cons, nextFilled]
    rw [if_neg some, List.intercalate_cons_cons]
    simp

namespace ReadsRow

variable {level : Level} {mark : Token} {ts : List Token} {φs : List Formula}

theorem isEmpty (h : ReadsRow level mark ts φs) : ts.isEmpty = φs.isEmpty := by
  rcases h with ⟨rfl, rfl⟩ | series
  · rfl
  · rw [List.isEmpty_eq_false_iff.2 series.row_ne_nil, List.isEmpty_eq_false_iff.2 series.ne_nil]

theorem joined {rows : List (List Token)} {φss : List (List Formula)}
    (each : List.Forall₂ (ReadsRow level mark) rows φss) : ReadsRow level mark (mark.joined rows) φss.flatten := by
  induction each with
  | nil => exact .inl ⟨rfl, rfl⟩
  | @cons row φs rows φss first rest ih =>
    rcases first with ⟨rfl, rfl⟩ | series
    · rw [Token.joined_cons_nil]
      simpa using ih
    · rw [Token.joined_cons series.row_ne_nil, List.flatten_cons]
      rcases ih with ⟨none, nothing⟩ | others
      · rw [if_pos none, nothing, List.append_nil]
        exact .inr series
      · rw [if_neg others.row_ne_nil]
        exact .inr (series.append others)

theorem ofCalls {α : Type} (xs : List α) :
    ReadsRow .unit .conj (Token.joined .conj (xs.map fun _ => [.call])) (List.replicate xs.length .atom) := by
  have each : List.Forall₂ (ReadsRow .unit .conj) (xs.map fun _ => [.call]) (xs.map fun _ => [.atom]) := by
    rw [List.forall₂_map_left_iff, List.forall₂_map_right_iff, List.forall₂_same]
    exact fun _ _ => .inr (.one .call)
  have whole := joined each
  have flat : (xs.map fun _ => [Formula.atom]).flatten = List.replicate xs.length .atom := by simp
  rwa [flat] at whole

theorem one (h : Reads level ts φ) : ReadsRow level mark ts [φ] := .inr (.one h)

theorem neg (h : ReadsRow .unit mark ts φs) :
    ReadsRow .unit mark (Token.wrapped [.neg] [] ts) (negateFirst φs) := by
  rcases h with ⟨rfl, rfl⟩ | series
  · exact .inl ⟨rfl, rfl⟩
  · have filled : ts.isEmpty = false := List.isEmpty_eq_false_iff.2 series.row_ne_nil
    cases φs with
    | nil => exact absurd rfl series.ne_nil
    | cons φ φs =>
      refine .inr ?_
      have negated := series.neg
      simpa [Token.wrapped, filled, negateFirst] using negated

theorem single {other : Level} {sep : Token} {build : List Formula → Formula} (h : ReadsRow level mark ts φs)
    (reads : ReadsSeries level mark ts φs → Reads other ts (build φs)) :
    ReadsRow other sep ts (Formula.single build φs) := by
  rcases h with ⟨rfl, rfl⟩ | series
  · exact .inl ⟨rfl, rfl⟩
  · have filled : φs.isEmpty = false := List.isEmpty_eq_false_iff.2 series.ne_nil
    refine .inr ?_
    simpa [Formula.single, filled] using .one (reads series)

theorem enclosed {build : List Formula → Formula} (h : ReadsRow level mark ts φs)
    (reads : ReadsSeries level mark ts φs → Reads .disjunction ts (build φs)) :
    ReadsRow .unit .conj (Token.wrapped [.opening] [.closing] ts) (Formula.single build φs) := by
  rcases h with ⟨rfl, rfl⟩ | series
  · exact .inl ⟨rfl, rfl⟩
  · have filled : φs.isEmpty = false := List.isEmpty_eq_false_iff.2 series.ne_nil
    have written : ts.isEmpty = false := List.isEmpty_eq_false_iff.2 series.row_ne_nil
    refine .inr ?_
    simpa [Formula.single, filled, Token.wrapped, written] using .one (.bracket (reads series))

end ReadsRow

namespace Expr

mutual

/-- The tokens of an expression are read as its units. -/
theorem readsRow_units (e : Expr) : ReadsRow .unit .conj e.tokens e.units := by
  cases e with
  | compare op fields => exact .ofCalls fields.entries
  | fuzzy fields distance => exact .ofCalls fields.entries
  | has predicates => exact .ofCalls predicates.keys
  | ofType name => exact .one .call
  | between predicate low high => exact .one .call
  | apply function operand =>
    rw [tokens, units]
    by_cases blank : operand.isBlank
    · rw [if_pos blank, if_pos blank]
      exact .inl ⟨rfl, rfl⟩
    · rw [if_neg blank, if_neg blank]
      exact .one .call
  | expand name => exact .one .call
  | raw text => exact .inl ⟨rfl, rfl⟩
  | all parts =>
    have inner := ReadsRow.joined (readsRow_unitsAll parts)
    exact inner.enclosed fun series => .ofConjunction series.reads_allOf
  | any parts =>
    have terms : List.Forall₂ (ReadsRow .conjunction .disj) (tokensAll parts)
        ((unitsAll parts).map (single allOf)) := by
      rw [List.forall₂_map_right_iff]
      exact (readsRow_unitsAll parts).imp fun ts φs row => row.single fun series => series.reads_allOf
    have inner := ReadsRow.joined terms
    exact inner.enclosed fun series => series.reads_anyOf
  | not part => exact (readsRow_units part).neg

theorem readsRow_unitsAll (es : List Expr) :
    List.Forall₂ (ReadsRow .unit .conj) (tokensAll es) (unitsAll es) := by
  cases es with
  | nil => exact .nil
  | cons e es => exact .cons (readsRow_units e) (readsRow_unitsAll es)

end

theorem size_units (e : Expr) : size e.units = e.calls := by
  rcases readsRow_units e with ⟨none, nothing⟩ | series
  · rw [calls, none, nothing]
    rfl
  · exact (series.count_call (by decide)).symm

theorem isEmpty_units (e : Expr) : e.units.isEmpty = e.tokens.isEmpty := (readsRow_units e).isEmpty.symm

theorem isEmpty_iff_calls (e : Expr) : e.tokens.isEmpty = true ↔ e.calls = 0 := by
  rw [← isEmpty_units, ← size_units]
  constructor
  · intro empty
    rw [List.isEmpty_iff.1 empty]
    rfl
  · intro zero
    by_contra filled
    have positive := Formula.size_pos fun none => filled (List.isEmpty_iff.2 none)
    omega

/-! ## What is read against what is said -/

/-- Under negations that are odd in number or not, what is read and what the expression says. -/
abbrev Tracked (e : Expr) (odd : Bool) : Prop :=
  Tracks true e.calls (evalLed odd e.units) (fun σ => e.tokens.isEmpty || (e.holds σ ^^ odd)) (e.guarded odd)

theorem evalAll_atoms (n : Nat) (σ : Assignment) :
    evalAll (List.replicate n .atom) σ = (List.range n).all σ := by
  induction n generalizing σ with
  | zero => rfl
  | succ n ih =>
    rw [List.replicate_succ, Formula.evalAll, ih, List.range_succ_eq_map, List.all_cons, List.all_map]
    have shifted : σ.later 1 = σ ∘ Nat.succ := by
      funext i
      simp [Assignment.later, Nat.add_comm]
    rw [Formula.atoms, shifted]
    rfl

theorem tracked_blank {e : Expr} {odd : Bool} (none : e.units = []) (guard : e.guarded odd = true) :
    Tracked e odd := by
  have blank : e.tokens.isEmpty = true := by rw [← isEmpty_units, none]; rfl
  have nothing : e.calls = 0 := (isEmpty_iff_calls e).1 blank
  have trivially : Tracks true 0 (fun _ => true) (fun _ => true) true :=
    .refl (fun _ _ _ => rfl) ⟨fun _ => true, rfl⟩ fun some => absurd some (by omega)
  unfold Tracked
  simp only [nothing, none, blank, guard, Bool.true_or]
  exact trivially

/-- A function of several fields: the negations before it reach its first call only. -/
theorem tracked_fields {e : Expr} {odd : Bool} (n : Nat) (units : e.units = List.replicate n .atom)
    (meaning : ∀ σ, e.holds σ = (List.range n).all σ) (guard : e.guarded odd = (!odd || n ≤ 1)) :
    Tracked e odd := by
  cases n with
  | zero => exact tracked_blank units (by simp [guard])
  | succ n =>
    have filled : e.tokens.isEmpty = false := by rw [← isEmpty_units, units]; rfl
    have length : size (List.replicate n .atom) = n := by simp [size, Formula.atoms]
    have number : e.calls = 1 + n := by
      rw [← size_units, units, List.replicate_succ, Formula.size_cons, Formula.atoms, length]
    have whole (σ : Assignment) : e.holds σ = (σ 0 && evalAll (List.replicate n .atom) (σ.later 1)) := by
      rw [meaning, ← evalAll_atoms, List.replicate_succ, Formula.evalAll, Formula.eval, Formula.atoms]
    have others : Local n (evalAll (List.replicate n .atom)) := by
      have localAll := Formula.local_evalAll (List.replicate n .atom)
      rwa [length] at localAll
    have top : evalAll (List.replicate n .atom) (fun _ => true) = true := by simp [evalAll_atoms, -List.all_replicate]
    have bottom (some : 0 < n) : evalAll (List.replicate n .atom) (fun _ => false) = false := by
      rw [evalAll_atoms, List.all_eq_false]
      exact ⟨0, List.mem_range.2 some, by simp⟩
    have tracks := Tracks.first others ⟨_, top⟩ (fun some => ⟨_, bottom some⟩) odd
    have alike : (!odd || n + 1 ≤ 1) = (!odd || decide (n = 0)) := by simp
    unfold Tracked
    rw [units, number, guard, alike]
    simp only [filled, whole, Bool.false_or]
    exact tracks

/-- A connector is read as a whole, so a negation before it reaches all of it. -/
theorem tracked_connector {e : Expr} {b : Bool} {build : List Formula → Formula} {φs : List Formula}
    {V : Assignment → Bool} (units : e.units = single build φs) (number : φs ≠ [] → (build φs).atoms = size φs)
    (value : φs ≠ [] → (build φs).eval = V) (tracks : Tracks b (size φs) V e.holds (e.guarded false))
    (guard : ∀ odd, e.guarded odd = e.guarded false) (odd : Bool) : Tracked e odd := by
  by_cases none : φs = []
  · subst none
    exact tracked_blank units (by rw [guard]; exact tracks.same_of_zero)
  · have single : e.units = [build φs] := by simp [units, Formula.single, none]
    have filled : e.tokens.isEmpty = false := by rw [← isEmpty_units, single]; rfl
    have calls : e.calls = size φs := by
      rw [← size_units, single, ← number none]
      simp [size]
    have read : evalLed odd [build φs] = fun σ => V σ ^^ odd := by
      funext σ
      simp [Formula.evalLed, evalAll, value none]
    have flipped := tracks.flip (Formula.size_pos none) odd true
    unfold Tracked
    rw [single, calls, guard odd, read]
    simp only [filled, Bool.false_or]
    exact flipped

theorem evalLed_false (φs : List Formula) : evalLed false φs = evalAll φs := by
  funext σ
  cases φs with
  | nil => rfl
  | cons φ φs => simp [Formula.evalLed, evalAll]

theorem evalLed_negateFirst (odd : Bool) (φs : List Formula) :
    evalLed odd (negateFirst φs) = evalLed (!odd) φs := by
  funext σ
  cases φs with
  | nil => rfl
  | cons φ φs => simp [Formula.evalLed, negateFirst, Formula.eval, Formula.atoms]

theorem size_single (φs : List Formula) : size (single allOf φs) = size φs := by
  unfold Formula.single
  split
  · next none =>
    rw [List.isEmpty_iff.1 none]
  · next some =>
    have atoms := Formula.atoms_allOf (mt List.isEmpty_iff.2 some)
    simpa [size] using atoms

/-- A part of a disjunction is left out if it leaves no trace. -/
theorem tracked_term {e : Expr} (h : Tracked e false) :
    Tracks false e.calls (evalAny (single allOf e.units)) (fun σ => !e.tokens.isEmpty && e.holds σ)
      (e.guarded false) := by
  unfold Tracked at h
  by_cases blank : e.tokens.isEmpty
  · have none : e.units = [] := by
      rw [← isEmpty_units] at blank
      exact List.isEmpty_iff.1 blank
    rw [(isEmpty_iff_calls e).1 blank] at h ⊢
    rw [none, blank, h.same_of_zero]
    exact .refl (fun _ _ _ => rfl) ⟨fun _ => true, rfl⟩ fun some => absurd some (by decide)
  · have some : e.units ≠ [] := by
      rw [← isEmpty_units] at blank
      exact mt List.isEmpty_iff.2 blank
    have read : evalAny (single allOf e.units) = evalLed false e.units := by
      funext σ
      simp [Formula.single, some, evalAny, Formula.eval_allOf some, evalLed_false]
    have positive : 0 < e.calls := by
      rw [← size_units]
      exact Formula.size_pos some
    have flipped := h.flip positive false false
    rw [read]
    simpa [blank] using flipped

mutual

theorem tracked (e : Expr) (odd : Bool) : Tracked e odd := by
  cases e with
  | compare op fields => exact tracked_fields fields.entries.length rfl (fun _ => rfl) rfl
  | fuzzy fields distance => exact tracked_fields fields.entries.length rfl (fun _ => rfl) rfl
  | has predicates => exact tracked_fields predicates.keys.length rfl (fun _ => rfl) rfl
  | ofType name => exact tracked_fields 1 rfl (fun σ => by simp [holds]) (by simp [guarded])
  | between predicate low high => exact tracked_fields 1 rfl (fun σ => by simp [holds]) (by simp [guarded])
  | apply function operand =>
    by_cases blank : operand.isBlank
    · exact tracked_blank (by simp [units, blank]) rfl
    · exact tracked_fields 1 (by simp [units, blank]) (fun σ => by simp [holds]) (by simp [guarded])
  | expand name => exact tracked_fields 1 rfl (fun σ => by simp [holds]) (by simp [guarded])
  | raw text => exact tracked_blank rfl rfl
  | all parts =>
    exact tracked_connector (b := true) rfl Formula.atoms_allOf Formula.eval_allOf (tracks_all parts) (fun _ => rfl) odd
  | any parts =>
    exact tracked_connector (b := false) rfl Formula.atoms_anyOf Formula.eval_anyOf (tracks_any parts) (fun _ => rfl) odd
  | not part =>
    have inner := tracked part (!odd)
    have blank : (Expr.not part).tokens.isEmpty = part.tokens.isEmpty := by
      rw [← isEmpty_units, ← isEmpty_units, units]
      cases part.units <;> rfl
    have number : (Expr.not part).calls = part.calls := by
      rw [← size_units, ← size_units, units]
      cases part.units <;> rfl
    unfold Tracked at inner ⊢
    rw [units, evalLed_negateFirst, number, guarded]
    simpa [blank, holds] using inner

theorem tracks_all (es : List Expr) :
    Tracks true (size (unitsAll es).flatten) (evalAll (unitsAll es).flatten) (holdsAll es) (guardedAll es) := by
  cases es with
  | nil => exact .refl (fun _ _ _ => rfl) ⟨fun _ => true, rfl⟩ fun some => absurd some (by decide)
  | cons e es =>
    have head := tracked e false
    unfold Tracked at head
    simp only [evalLed_false, Bool.xor_false] at head
    have both := head.and (tracks_all es)
    have read : evalAll (unitsAll (e :: es)).flatten =
        fun σ => evalAll e.units σ && evalAll (unitsAll es).flatten (σ.later e.calls) := by
      funext σ
      rw [unitsAll, List.flatten_cons, Formula.evalAll_append, size_units]
    rw [read, unitsAll, List.flatten_cons, Formula.size_append, guardedAll, size_units]
    exact both

theorem tracks_any (es : List Expr) :
    Tracks false (size ((unitsAll es).flatMap (single allOf))) (evalAny ((unitsAll es).flatMap (single allOf)))
      (holdsAny es) (guardedAll es) := by
  cases es with
  | nil => exact .refl (fun _ _ _ => rfl) ⟨fun _ => true, rfl⟩ fun some => absurd some (by decide)
  | cons e es =>
    have head := tracked_term (tracked e false)
    have both := head.or (tracks_any es)
    have read : evalAny ((unitsAll (e :: es)).flatMap (single allOf)) = fun σ =>
        evalAny (single allOf e.units) σ || evalAny ((unitsAll es).flatMap (single allOf)) (σ.later e.calls) := by
      funext σ
      rw [unitsAll, List.flatMap_cons, Formula.evalAny_append, size_single, size_units]
    rw [read, unitsAll, List.flatMap_cons, Formula.size_append, guardedAll, size_single, size_units]
    exact both

end

/-! ## Compiled fragments -/

theorem tokens?_compile {e : Expr} {f : Fragment} (h : e.compile = .ok f) (rawFree : e.verbatim = [])
    (contained : e.Contained) : f.tokens? = some e.tokens := by
  have spelled : Spelled True e.tokens f := spelled_compile h rawFree fun _ => contained
  rw [Fragment.tokens?, spelled.spells.scan]

/-- The fragment of an expression is a row of tokens with one formula, the one that is found in its
    text if the predicates in it close their brackets. It says what the expression says, for all
    truth values of the calls, exactly if no function of several fields is under an odd number of
    negations without brackets between. -/
theorem eval_eq_holds_iff_faithful {e : Expr} {f : Fragment} (rawFree : e.verbatim = [])
    (h : e.compile = .ok f) :
    Spells e.Contained e.tokens f ∧ (e.Contained → f.tokens? = some e.tokens) ∧
      (f.isEmpty = true ↔ e.calls = 0) ∧
      (f.isEmpty = false → ∃ φ, (∀ ψ, Reads .disjunction e.tokens ψ ↔ ψ = φ) ∧
        (e.Contained → f.formula? = some φ) ∧ φ.atoms = e.calls ∧
        ((∀ σ, φ.eval σ = e.holds σ) ↔ e.Faithful)) := by
  have spelled : Spelled e.Contained e.tokens f := spelled_compile h rawFree id
  have blank := spelled.spells.isEmpty
  refine ⟨spelled.spells, tokens?_compile h rawFree, ?_, fun some => ?_⟩
  · rw [blank, isEmpty_iff_calls]
  · rw [blank] at some
    rcases readsRow_units e with ⟨none, _⟩ | series
    · rw [none] at some
      cases some
    · have reads : Reads .disjunction e.tokens (allOf e.units) := .ofConjunction series.reads_allOf
      refine ⟨allOf e.units, fun ψ => ⟨fun other => other.unique reads, ?_⟩, fun contained => ?_, ?_, ?_⟩
      · rintro rfl
        exact reads
      · rw [Fragment.formula?, tokens?_compile h rawFree contained]
        exact reads.read
      · rw [Formula.atoms_allOf series.ne_nil, size_units]
      · have agree : _ ↔ e.Faithful := (tracked e false).agree_iff
        rw [evalLed_false, ← Formula.eval_allOf series.ne_nil] at agree
        simpa only [some, Bool.false_or, Bool.xor_false] using agree

/-- Films that are new and have a title and a director, or are not of a series: functions of several
    fields, connectors under negations and a part that leaves no trace. -/
def newFilms : Expr :=
  let recent := Expr.all [.compare .ge (KeyMap.ofList [("year", .int 2000), ("count(award)", .int 1)]),
    .has (KeyMap.ofList [("title", ()), ("directed by", ())])]
  let episode := Expr.not (.not (.has (KeyMap.ofList [("season", ()), ("episode", ())])))
  .any [recent, .not (.any []), .not (.all [.ofType "Series", episode])]

theorem eval_eq_holds_newFilms :
    newFilms.verbatim = [] ∧ newFilms.Contained ∧ newFilms.Faithful ∧
      ∃ f φ, newFilms.compile = .ok f ∧ f.isEmpty = false ∧ f.formula? = some φ ∧
        φ = .or (.and (.and (.and .atom .atom) .atom) .atom) (.neg (.and (.and .atom (.neg (.neg .atom))) .atom)) ∧
        ∀ σ, φ.eval σ = newFilms.holds σ := by
  have rawFree : newFilms.verbatim = [] := by decide +kernel
  have contained : newFilms.Contained := by decide +kernel
  have faithful : newFilms.Faithful := by decide +kernel
  refine ⟨rawFree, contained, faithful, ?_⟩
  cases compiled : newFilms.compile with
  | error e =>
    have succeeds : newFilms.compile.isOk = true := by decide +kernel
    rw [compiled] at succeeds
    cases succeeds
  | ok f =>
    obtain ⟨_, tokens, blank, reading⟩ := eval_eq_holds_iff_faithful rawFree compiled
    have some : f.isEmpty = false := by
      have calls : newFilms.calls ≠ 0 := by decide +kernel
      exact Bool.eq_false_iff.2 (mt blank.1 calls)
    obtain ⟨φ, reads, found, _, agree⟩ := reading some
    refine ⟨f, φ, rfl, some, found contained, ?_, agree.2 faithful⟩
    have read : Formula.read newFilms.tokens = .some (.or (.and (.and (.and .atom .atom) .atom) .atom)
        (.neg (.and (.and .atom (.neg (.neg .atom))) .atom))) := by decide +kernel
    have same := found contained
    rw [Fragment.formula?, tokens contained, Option.bind_some, read] at same
    exact (Option.some.inj same).symm

/-- A negation of a function of two fields is read as the negation of its first call. -/
def notBoth : Expr := .not (.compare .eq (KeyMap.ofList [("a", .int 1), ("b", .int 2)]))

theorem eval_ne_holds_notBoth :
    notBoth.verbatim = [] ∧ ∃ f φ, notBoth.compile = .ok f ∧ f.display = "NOT eq(a,??) AND eq(b,??)" ∧
      f.formula? = some φ ∧ φ.eval (fun _ => false) ≠ notBoth.holds fun _ => false := by
  refine ⟨by decide +kernel, _, .and (.neg .atom) .atom, rfl, ?_, ?_, ?_⟩
  · decide +kernel
  · decide +kernel
  · decide +kernel

end Expr

end GraphQuery
