import GraphQuery.Proofs.ByteOrder
import GraphQuery.Proofs.LastValues
import GraphQuery.Proofs.Vanishing

/-!
# Filters of maps

An expression of a map of fields has one call for each of them. Main statement: what it
compiles to is given by the last value of every field, whatever the order in which the
fields were put in, and the calls stand in the order of the UTF-8 bytes of the fields as
they were given, not as they are written.
-/

namespace GraphQuery

open Text (utf8 utf8_lt_iff)

/-! ## Keys in the order of their bytes -/

namespace KeyMap

variable {α : Type}

theorem pairwise_utf8_entries (m : KeyMap α) : m.entries.Pairwise fun d e => utf8 d.1 < utf8 e.1 :=
  m.ordered.imp utf8_lt_iff.2

theorem pairwise_utf8_keys (m : KeyMap α) : m.keys.Pairwise fun j k => utf8 j < utf8 k := by
  rw [keys, List.pairwise_map]
  exact m.pairwise_utf8_entries

end KeyMap

/-! ## Functions of fields -/

namespace Expr

/-- The functions with one call for each field of a map. -/
inductive FieldFunction where
  | compare (op : Comparison)
  | fuzzy (distance : Nat)

namespace FieldFunction

/-- The expression of the function and its fields. -/
def expr : FieldFunction → KeyMap Value → Expr
  | compare op, fields => .compare op fields
  | fuzzy distance, fields => .fuzzy fields distance

def name : FieldFunction → String
  | compare op => op.name
  | fuzzy _ => "match"

/-- The text between the value and the closing bracket of a call. -/
def rest : FieldFunction → String
  | compare _ => ""
  | fuzzy distance => "," ++ toString distance

/-- Whether a fragment is the call for a field and its value. -/
def IsCall (g : FieldFunction) (field : String × Value) (call : Fragment) : Prop :=
  ∃ value, field.2.compile = .ok value ∧
    call = .text (g.name ++ "(" ++ Predicate.escape field.1 ++ ",") ++ value ++ .text (g.rest ++ ")")

theorem compile_expr (g : FieldFunction) (fields : KeyMap Value) :
    (g.expr fields).compile = compileFields g.name g.rest fields := by
  cases g <;> rfl

end FieldFunction

theorem exists_calls_of_compileFields {g : FieldFunction} {fields : KeyMap Value} {f : Fragment}
    (h : compileFields g.name g.rest fields = .ok f) :
    ∃ calls, List.Forall₂ g.IsCall fields.entries calls ∧ f = .separated " AND " calls := by
  obtain ⟨calls, run, rfl⟩ := compileFields_eq_ok.1 h
  refine ⟨calls, Compiled.forall₂_of_mapM run fun field _ call compiled => ?_, ?_⟩
  · exact (compileCall_eq_ok.1 compiled).2
  · refine Fragment.join_eq_separated fun call member => ?_
    obtain ⟨field, _, compiled⟩ := Compiled.exists_of_mem_mapM run member
    exact not_isEmpty_compileCall compiled

theorem eq_separated_of_compileHas {predicates : KeyMap Unit} {f : Fragment} (h : compileHas predicates = .ok f) :
    f = .separated " AND " (predicates.keys.map fun p => .text ("has(" ++ Predicate.escape p ++ ")")) := by
  obtain ⟨calls, run, rfl⟩ := compileHas_eq_ok.1 h
  have written : predicates.keys.map (fun p => Fragment.text ("has(" ++ Predicate.escape p ++ ")")) = calls := by
    rw [← List.forall₂_eq_eq_eq, List.forall₂_map_left_iff]
    exact Compiled.forall₂_of_mapM run fun p _ call compiled => (compileHasOne_eq_ok.1 compiled).2.symm
  rw [written]
  refine Fragment.join_eq_separated fun call member => ?_
  obtain ⟨p, _, compiled⟩ := Compiled.exists_of_mem_mapM run member
  obtain ⟨_, rfl⟩ := compileHasOne_eq_ok.1 compiled
  exact Fragment.not_isEmpty_text (by simp)

/-- Fields with the same last values make expressions that compile to the same result. In it, there is one call for
    each field and its last value, in the order of the bytes of the fields. The same holds for the predicates
    that a node must have. -/
theorem compile_inserted :
    (∀ (g : FieldFunction) (fs gs : List (String × Value)),
      (∀ k, KeyMap.lastValue? fs k = KeyMap.lastValue? gs k) →
      (g.expr (.inserted fs)).compile = (g.expr (.inserted gs)).compile ∧
      ∀ f, (g.expr (.inserted fs)).compile = .ok f →
        ∃ (es : List (String × Value)) (calls : List Fragment),
          es.Pairwise (fun d e => utf8 d.1 < utf8 e.1) ∧
          (∀ k v, (k, v) ∈ es ↔ KeyMap.lastValue? fs k = some v) ∧
          List.Forall₂ g.IsCall es calls ∧ f = .separated " AND " calls) ∧
    (∀ ps qs : List String, (∀ p, p ∈ ps ↔ p ∈ qs) →
      (Expr.has (.insertedKeys ps)).compile = (Expr.has (.insertedKeys qs)).compile ∧
      ∀ f, (Expr.has (.insertedKeys ps)).compile = .ok f →
        ∃ ks : List String, ks.Pairwise (fun j k => utf8 j < utf8 k) ∧ (∀ p, p ∈ ks ↔ p ∈ ps) ∧
          f = .separated " AND " (ks.map fun p => .text ("has(" ++ Predicate.escape p ++ ")"))) := by
  constructor
  · intro g fs gs same
    refine ⟨by rw [KeyMap.inserted_congr same], fun f compiled => ?_⟩
    rw [g.compile_expr] at compiled
    obtain ⟨calls, each, rfl⟩ := exists_calls_of_compileFields compiled
    refine ⟨(KeyMap.inserted fs).entries, calls, KeyMap.pairwise_utf8_entries _, fun k v => ?_, each, rfl⟩
    rw [KeyMap.mem_entries_iff, KeyMap.get?_inserted]
  · intro ps qs same
    refine ⟨by rw [KeyMap.insertedKeys_congr same], fun f compiled => ?_⟩
    exact ⟨_, KeyMap.pairwise_utf8_keys _, fun p => KeyMap.mem_keys_insertedKeys,
      eq_separated_of_compileHas compiled⟩

/-- Fields of which one is given twice. Written between angle brackets, `a b` would come before `a`; as
    UTF-16, the last one would come before the one before it. -/
def scrambled : List (String × Value) :=
  [("𐀀", .int 5), ("a b", .int 1), ("name", .string "x"), ("a", .int 2), ("｡", .int 4), ("name", .string "y")]

/-- The same fields in another order, with another value given for one and then replaced. -/
def rescrambled : List (String × Value) :=
  [("a", .raw "?"), ("name", .string "y"), ("｡", .int 4), ("a b", .int 1), ("a", .int 2), ("𐀀", .int 5)]

theorem lastValue?_scrambled (k : String) :
    KeyMap.lastValue? scrambled k = KeyMap.lastValue? rescrambled k := by
  rw [KeyMap.lastValue?_eq_lookup, KeyMap.lastValue?_eq_lookup]
  by_cases known : k = "𐀀" ∨ k = "a b" ∨ k = "name" ∨ k = "a" ∨ k = "｡"
  · rcases known with rfl | rfl | rfl | rfl | rfl <;> rfl
  · simp only [not_or] at known
    simp [scrambled, rescrambled, List.lookup_cons, beq_eq_false_iff_ne.2, known]

theorem compile_inserted_scrambled :
    (Expr.fuzzy (.ofList scrambled) 3).compile = (Expr.fuzzy (.ofList rescrambled) 3).compile ∧
      (Expr.fuzzy (.ofList scrambled) 3).display =
        "match(a,??,3) AND match(<a b>,??,3) AND match(name,??,3) AND match(<｡>,??,3) AND match(<𐀀>,??,3)" ∧
      (Expr.has (.insertedKeys ["b", "a", "b"])).compile = (Expr.has (.insertedKeys ["a", "b"])).compile := by
  refine ⟨?_, by decide +kernel, ?_⟩
  · rw [← KeyMap.inserted_eq_ofList, ← KeyMap.inserted_eq_ofList]
    exact (compile_inserted.1 (.fuzzy 3) scrambled rescrambled lastValue?_scrambled).1
  · exact (compile_inserted.2 ["b", "a", "b"] ["a", "b"] (by simp)).1

end Expr

end GraphQuery
