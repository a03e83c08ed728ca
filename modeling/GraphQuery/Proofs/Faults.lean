import GraphQuery.Proofs.Vanishing

/-!
# Faults of expressions

What is wrong with an expression is read off its tree, in the order in which the expression is
written, each fault with the error that it leads to. Main statement: an expression fails exactly
if there is a fault somewhere in its tree, whatever stands around it, and it fails with the
first one.
-/

namespace GraphQuery

/-! ## Compilations with faults -/

/-- A compilation that fails exactly if there are faults, and then with the first of them. -/
def Compiled.Reports {α : Type} (x : Compiled α) (faults : List CompileError) : Prop :=
  ∀ err, x = .error err ↔ faults.head? = some err

namespace Compiled.Reports

variable {α β : Type} {x : Compiled α} {es ds : List CompileError}

theorem ok (a : α) : Reports (.ok a) [] := by
  intro err
  simp

theorem error (err : CompileError) : Reports (.error err : Compiled α) [err] := by
  intro err'
  simp

theorem eq_nil_of_ok {a : α} (reports : Reports (.ok a) es) : es = [] := by
  cases es with
  | nil => rfl
  | cons err es => cases (reports err).2 rfl

theorem map (reports : Reports x es) (f : α → β) : Reports (x.map f) es := by
  intro err
  rw [← reports err]
  cases x with
  | error c => simp [Except.map]
  | ok a => simp [Except.map]

/-- What comes second is looked at when the first part has no fault. -/
theorem bind (first : Reports x es) {f : α → Compiled β} (next : ∀ a, Reports (f a) ds) :
    Reports (x >>= f) (es ++ ds) := by
  cases x with
  | ok a =>
    rw [first.eq_nil_of_ok]
    exact next a
  | error c =>
    have head : es.head? = some c := (first c).1 rfl
    intro err
    rw [List.head?_append, head]
    show Except.error c = Except.error err ↔ _
    simp

theorem mapM {f : α → Compiled β} {faults : α → List CompileError} (each : ∀ a, Reports (f a) (faults a))
    (as : List α) : Reports (as.mapM f) (as.flatMap faults) := by
  induction as with
  | nil => exact ok []
  | cons a as ih =>
    rw [List.mapM_cons, List.flatMap_cons]
    refine (each a).bind fun b => ?_
    rw [← List.append_nil (as.flatMap faults)]
    exact ih.bind fun bs => ok (b :: bs)

theorem fails_iff (reports : Reports x es) : (∃ err, x = .error err) ↔ ∃ err, err ∈ es := by
  simp only [reports _]
  cases es with
  | nil => simp
  | cons err es => exact ⟨fun _ => ⟨err, by simp⟩, fun _ => ⟨err, rfl⟩⟩

end Compiled.Reports

open Compiled (Reports)

/-! ## Faults of operands -/

namespace Value

/-- The faults of an item of a list. -/
def itemFaults : Value → List CompileError
  | .float x => if x.isFinite then [] else [.notFinite x]
  | .nilList => [.nestedList]
  | .list _ => [.nestedList]
  | _ => []

/-- The faults of a value, item by item in a list. -/
def faults : Value → List CompileError
  | .nilList => []
  | .list items => items.flatMap itemFaults
  | v => v.itemFaults

/-- A value that cannot be bound: a number that is not finite, or a list with such a number or another
    list in it. -/
inductive Unbindable : Value → Prop where
  | number {x : Binary64} (notFinite : x.isFinite = false) : Unbindable (.float x)
  | item {items : List Value} {x : Binary64} (member : .float x ∈ items) (notFinite : x.isFinite = false) :
    Unbindable (.list items)
  | nested {items : List Value} {v : Value} (member : v ∈ items) (inner : v.isList = true) : Unbindable (.list items)

theorem reports_bindable (x : Binary64) : Reports (bindable (.float x)) (itemFaults (.float x)) := by
  unfold bindable itemFaults
  dsimp only
  split
  · exact .ok _
  · exact .error _

theorem reports_compileItem (v : Value) : Reports v.compileItem v.itemFaults := by
  cases v with
  | float x => exact (reports_bindable x).map Fragment.slot
  | nilList | list => exact .error _
  | _ => exact .ok _

theorem reports_compile (v : Value) : Reports v.compile v.faults := by
  cases v with
  | float x => exact (reports_bindable x).map Fragment.slot
  | list items => exact (Reports.mapM reports_compileItem items).map bracketedItems
  | _ => exact .ok _

theorem exists_itemFault_iff (v : Value) :
    (∃ err, err ∈ v.itemFaults) ↔ v.isList = true ∨ ∃ x, v = .float x ∧ x.isFinite = false := by
  cases v with
  | float x => cases finite : x.isFinite <;> simp [itemFaults, isList, finite]
  | _ => simp [itemFaults, isList]

theorem exists_fault_iff (v : Value) : (∃ err, err ∈ v.faults) ↔ v.Unbindable := by
  constructor
  · rintro ⟨err, fault⟩
    cases v with
    | list items =>
      obtain ⟨v, member, fault⟩ := List.mem_flatMap.1 fault
      rcases (exists_itemFault_iff v).1 ⟨err, fault⟩ with inner | ⟨x, rfl, notFinite⟩
      · exact .nested member inner
      · exact .item member notFinite
    | float x =>
      obtain ⟨_, same, notFinite⟩ := ((exists_itemFault_iff (.float x)).1 ⟨err, fault⟩).resolve_left (nomatch ·)
      cases same
      exact .number notFinite
    | _ => cases fault
  · intro unbindable
    have ofItem {items : List Value} {v : Value} (member : v ∈ items)
        (bad : v.isList = true ∨ ∃ x, v = .float x ∧ x.isFinite = false) : ∃ err, err ∈ (list items).faults := by
      obtain ⟨err, fault⟩ := (exists_itemFault_iff v).2 bad
      exact ⟨err, List.mem_flatMap.2 ⟨v, member, fault⟩⟩
    cases unbindable with
    | number notFinite => exact (exists_itemFault_iff _).2 (.inr ⟨_, rfl, notFinite⟩)
    | item member notFinite => exact ofItem member (.inr ⟨_, rfl, notFinite⟩)
    | nested member inner => exact ofItem member (.inl inner)

end Value

/-- The fault of a predicate that a function cannot do without. -/
def nameFaults (function predicate : String) : List CompileError :=
  if Predicate.isLost predicate then [.emptyPredicate function] else []

/-- The faults of a field and of the value that it is compared with. -/
def fieldFaults (function : String) (field : String × Value) : List CompileError :=
  nameFaults function field.1 ++ field.2.faults

theorem reports_requirePredicate (function predicate : String) :
    Reports (requirePredicate function predicate) (nameFaults function predicate) := by
  have empty : (Predicate.escape predicate).isEmpty = Predicate.isLost predicate := by
    rw [Bool.eq_iff_iff, String.isEmpty_iff, Predicate.escape_eq_empty_iff]
  unfold requirePredicate nameFaults
  dsimp only
  rw [empty]
  split
  · exact .error _
  · exact .ok _

theorem exists_nameFault_iff (function predicate : String) :
    (∃ err, err ∈ nameFaults function predicate) ↔ Predicate.isLost predicate = true := by
  cases lost : Predicate.isLost predicate <;> simp [nameFaults, lost]

theorem exists_fieldFault_iff (function : String) (field : String × Value) :
    (∃ err, err ∈ fieldFaults function field) ↔ Predicate.isLost field.1 = true ∨ field.2.Unbindable := by
  simp only [fieldFaults, List.mem_append, exists_or, exists_nameFault_iff, Value.exists_fault_iff]

/-! ## Faults of expressions -/

mutual

/-- The faults of an expression, in the order in which it is written. -/
def Expr.faults : Expr → List CompileError
  | .compare op fields => fields.entries.flatMap (fieldFaults op.name)
  | .fuzzy fields _ => fields.entries.flatMap (fieldFaults "match")
  | .has predicates => predicates.keys.flatMap (nameFaults "has")
  | .between predicate low high => nameFaults "between" predicate ++ (low.faults ++ high.faults)
  | .apply _ operand => Operand.faults operand
  | .all parts => Expr.faultsAll parts
  | .any parts => Expr.faultsAll parts
  | .not part => Expr.faults part
  | .ofType _ => []
  | .expand _ => []
  | .raw _ => []

def Operand.faults : Operand → List CompileError
  | .predicate _ => []
  | .value v => v.faults
  | .nested e => Expr.faults e

def Expr.faultsAll : List Expr → List CompileError
  | [] => []
  | e :: es => Expr.faults e ++ Expr.faultsAll es

end

namespace Expr

theorem reports_compileCall (function rest : String) (field : String × Value) :
    Reports (compileCall function rest field) (fieldFaults function field) := by
  refine (reports_requirePredicate function field.1).bind fun predicate => ?_
  rw [← List.append_nil field.2.faults]
  exact (Value.reports_compile field.2).bind fun value => .ok _

theorem reports_compileFields (function rest : String) (fields : KeyMap Value) :
    Reports (compileFields function rest fields) (fields.entries.flatMap (fieldFaults function)) :=
  (Reports.mapM (reports_compileCall function rest) _).map _

theorem reports_compileHas (predicates : KeyMap Unit) :
    Reports (compileHas predicates) (predicates.keys.flatMap (nameFaults "has")) :=
  (Reports.mapM (fun predicate => (reports_requirePredicate "has" predicate).map _) _).map _

theorem reports_compileBetween (predicate : String) (low high : Value) :
    Reports (compileBetween predicate low high) (nameFaults "between" predicate ++ (low.faults ++ high.faults)) := by
  refine (reports_requirePredicate "between" predicate).bind fun written => ?_
  refine (Value.reports_compile low).bind fun least => ?_
  rw [← List.append_nil high.faults]
  exact (Value.reports_compile high).bind fun greatest => .ok _

mutual

theorem reports_compile (e : Expr) : Reports e.compile e.faults := by
  cases e with
  | compare op fields => exact reports_compileFields op.name "" fields
  | fuzzy fields distance => exact reports_compileFields "match" ("," ++ toString distance) fields
  | has predicates => exact reports_compileHas predicates
  | between predicate low high => exact reports_compileBetween predicate low high
  | apply f operand => exact (reports_compileOperand operand).map _
  | all parts => exact (reports_compileAll parts).map _
  | any parts => exact (reports_compileAll parts).map _
  | not part => exact (reports_compile part).map _
  | ofType | expand | raw => exact .ok _

theorem reports_compileOperand (operand : Operand) : Reports (compileOperand operand) operand.faults := by
  cases operand with
  | predicate name => exact .ok _
  | value v => exact v.reports_compile
  | nested e => exact reports_compile e

theorem reports_compileAll (es : List Expr) : Reports (compileAll es) (faultsAll es) := by
  cases es with
  | nil => exact .ok _
  | cons e es =>
    rw [compileAll, faultsAll]
    refine (reports_compile e).bind fun f => ?_
    rw [← List.append_nil (faultsAll es)]
    exact (reports_compileAll es).bind fun fs => .ok (f :: fs)

end

theorem faultsAll_eq_flatMap (es : List Expr) : faultsAll es = es.flatMap faults := by
  induction es with
  | nil => rfl
  | cons e es ih => rw [faultsAll, ih, List.flatMap_cons]

/-! ## Where the faults are -/

/-- The second expression is the first one or stands in its tree, below connectors and functions of
    an expression. -/
inductive Contains : Expr → Expr → Prop where
  | self (e : Expr) : Contains e e
  | all {parts : List Expr} {part d : Expr} (member : part ∈ parts) (rest : Contains part d) : Contains (.all parts) d
  | any {parts : List Expr} {part d : Expr} (member : part ∈ parts) (rest : Contains part d) : Contains (.any parts) d
  | not {part d : Expr} (rest : Contains part d) : Contains (.not part) d
  | apply {f : Unary} {e d : Expr} (rest : Contains e d) : Contains (.apply f (.nested e)) d

/-- An expression that itself has a predicate of which nothing is left or a value that cannot be bound. -/
inductive Malformed : Expr → Prop where
  | compare {op : Comparison} {fields : KeyMap Value} {field : String × Value} (member : field ∈ fields.entries)
    (bad : Predicate.isLost field.1 = true ∨ field.2.Unbindable) : Malformed (.compare op fields)
  | fuzzy {fields : KeyMap Value} {distance : Nat} {field : String × Value} (member : field ∈ fields.entries)
    (bad : Predicate.isLost field.1 = true ∨ field.2.Unbindable) : Malformed (.fuzzy fields distance)
  | has {predicates : KeyMap Unit} {predicate : String} (member : predicate ∈ predicates.keys)
    (lost : Predicate.isLost predicate = true) : Malformed (.has predicates)
  | between {predicate : String} {low high : Value}
    (bad : Predicate.isLost predicate = true ∨ low.Unbindable ∨ high.Unbindable) :
    Malformed (.between predicate low high)
  | operand {f : Unary} {v : Value} (bad : v.Unbindable) : Malformed (.apply f (.value v))

theorem exists_fault_fields_iff (function : String) (fields : KeyMap Value) :
    (∃ err, err ∈ fields.entries.flatMap (fieldFaults function)) ↔
      ∃ field ∈ fields.entries, Predicate.isLost field.1 = true ∨ field.2.Unbindable := by
  simp only [List.mem_flatMap, ← exists_fieldFault_iff function]
  exact ⟨fun ⟨err, field, member, fault⟩ => ⟨field, member, err, fault⟩,
    fun ⟨field, member, err, fault⟩ => ⟨err, field, member, fault⟩⟩

theorem Malformed.exists_fault {e : Expr} (malformed : e.Malformed) : ∃ err, err ∈ e.faults := by
  cases malformed with
  | compare member bad => exact (exists_fault_fields_iff _ _).2 ⟨_, member, bad⟩
  | fuzzy member bad => exact (exists_fault_fields_iff _ _).2 ⟨_, member, bad⟩
  | has member lost =>
    obtain ⟨err, fault⟩ := (exists_nameFault_iff "has" _).2 lost
    exact ⟨err, List.mem_flatMap.2 ⟨_, member, fault⟩⟩
  | between bad =>
    simp only [faults, List.mem_append, exists_or, exists_nameFault_iff, Value.exists_fault_iff]
    exact bad
  | operand bad => exact (Value.exists_fault_iff _).2 bad

/-- A fault of an expression is a fault of every expression around it. -/
theorem Contains.faults_subset {e d : Expr} (inside : e.Contains d) : d.faults ⊆ e.faults := by
  induction inside with
  | self e => exact List.Subset.refl _
  | @all parts part d member rest ih =>
    rw [faults, faultsAll_eq_flatMap]
    exact fun err fault => List.mem_flatMap.2 ⟨part, member, ih fault⟩
  | @any parts part d member rest ih =>
    rw [faults, faultsAll_eq_flatMap]
    exact fun err fault => List.mem_flatMap.2 ⟨part, member, ih fault⟩
  | not rest ih => exact ih
  | apply rest ih => exact ih

mutual

theorem exists_malformed_of_fault {e : Expr} {err : CompileError} (fault : err ∈ e.faults) :
    ∃ d, e.Contains d ∧ d.Malformed := by
  cases e with
  | compare op fields =>
    obtain ⟨field, member, bad⟩ := (exists_fault_fields_iff _ _).1 ⟨err, fault⟩
    exact ⟨_, .self _, .compare member bad⟩
  | fuzzy fields distance =>
    obtain ⟨field, member, bad⟩ := (exists_fault_fields_iff _ _).1 ⟨err, fault⟩
    exact ⟨_, .self _, .fuzzy member bad⟩
  | has predicates =>
    obtain ⟨predicate, member, fault⟩ := List.mem_flatMap.1 fault
    exact ⟨_, .self _, .has member ((exists_nameFault_iff "has" _).1 ⟨err, fault⟩)⟩
  | between predicate low high =>
    refine ⟨_, .self _, .between ?_⟩
    rw [← exists_nameFault_iff "between", ← Value.exists_fault_iff, ← Value.exists_fault_iff, ← exists_or, ← exists_or]
    exact ⟨err, by simpa [faults] using fault⟩
  | apply f operand =>
    cases operand with
    | predicate name => cases fault
    | value v => exact ⟨_, .self _, .operand ((Value.exists_fault_iff v).1 ⟨err, fault⟩)⟩
    | nested e =>
      obtain ⟨d, inside, malformed⟩ := exists_malformed_of_fault (e := e) fault
      exact ⟨d, .apply inside, malformed⟩
  | all parts =>
    obtain ⟨part, member, d, inside, malformed⟩ := exists_malformed_of_faultAll fault
    exact ⟨d, .all member inside, malformed⟩
  | any parts =>
    obtain ⟨part, member, d, inside, malformed⟩ := exists_malformed_of_faultAll fault
    exact ⟨d, .any member inside, malformed⟩
  | not part =>
    obtain ⟨d, inside, malformed⟩ := exists_malformed_of_fault (e := part) fault
    exact ⟨d, .not inside, malformed⟩
  | ofType | expand | raw => cases fault

theorem exists_malformed_of_faultAll {es : List Expr} {err : CompileError} (fault : err ∈ faultsAll es) :
    ∃ e ∈ es, ∃ d, e.Contains d ∧ d.Malformed := by
  cases es with
  | nil => cases fault
  | cons e es =>
    rcases List.mem_append.1 fault with first | later
    · exact ⟨e, by simp, exists_malformed_of_fault first⟩
    · obtain ⟨part, member, found⟩ := exists_malformed_of_faultAll later
      exact ⟨part, List.mem_cons_of_mem _ member, found⟩

end

/-- An expression fails exactly if something in its tree is malformed, at any depth and also where nothing
    would be written, and then with the error of its first fault. -/
theorem fails_iff_malformed (e : Expr) :
    ((∃ err, e.compile = .error err) ↔ ∃ d, e.Contains d ∧ d.Malformed) ∧
      ∀ err, e.compile = .error err ↔ e.faults.head? = some err := by
  refine ⟨?_, e.reports_compile⟩
  rw [e.reports_compile.fails_iff]
  constructor
  · rintro ⟨err, fault⟩
    exact exists_malformed_of_fault fault
  · rintro ⟨d, inside, malformed⟩
    obtain ⟨err, fault⟩ := malformed.exists_fault
    exact ⟨err, inside.faults_subset fault⟩

/-- A fault counts where everything around it is left out. -/
example : (all [any [], not (has (KeyMap.ofList [("^ ", ())]))]).compile.isOk = false := by decide

end Expr

end GraphQuery
