import GraphQuery.KeyMap
import Mathlib.Data.List.Forall2
import Mathlib.Data.List.Nodup

/-!
# Entries of maps

What the entries of a map are to looking up its keys. Main statement: a map has each of its entries
under a key of its own, so that it is the map of its entries, and what is looked up in it is one of
them.
-/

namespace GraphQuery.KeyMap

variable {α β : Type}

/-! ## Distinct keys -/

theorem mem_keys_iff {m : KeyMap α} {k : String} : k ∈ m.keys ↔ ∃ a, m.get? k = some a := by
  rw [← Option.isSome_iff_exists, get?, List.lookup_isSome_iff, keys, List.mem_map]
  refine exists_congr fun e => and_congr_right fun _ => ?_
  rw [beq_iff_eq]
  exact eq_comm

theorem nodup_keys (m : KeyMap α) : m.keys.Nodup := by
  rw [keys, List.nodup_iff_pairwise_ne, List.pairwise_map]
  refine m.ordered.imp fun lt same => ?_
  rw [same] at lt
  exact String.lt_irrefl _ lt

theorem lookup_of_mem {es : List (String × α)} (distinct : (es.map (·.1)).Nodup) {k : String} {a : α}
    (member : (k, a) ∈ es) : es.lookup k = some a := by
  induction es with
  | nil => cases member
  | cons e es ih =>
    obtain ⟨j, b⟩ := e
    obtain ⟨fresh, rest⟩ := List.nodup_cons.1 distinct
    rcases List.mem_cons.1 member with same | later
    · cases same
      exact List.lookup_cons_self
    · have other : k ≠ j := by
        rintro rfl
        exact fresh (List.mem_map.2 ⟨_, later, rfl⟩)
      rw [List.lookup_cons, beq_eq_false_iff_ne.2 other]
      exact ih rest later

/-- A list of entries with distinct keys is the map of all of them. -/
theorem get?_ofList_eq_some_iff {es : List (String × α)} (distinct : (es.map (·.1)).Nodup) {k : String} {a : α} :
    (ofList es).get? k = some a ↔ (k, a) ∈ es := by
  rw [get?_ofList]
  have reversed : (es.reverse.map (·.1)).Nodup := by
    rw [List.map_reverse, List.nodup_reverse]
    exact distinct
  constructor
  · intro found
    obtain ⟨before, after, same, _⟩ := List.lookup_eq_some_iff.1 found
    rw [← List.mem_reverse, same]
    simp
  · intro member
    exact lookup_of_mem reversed (List.mem_reverse.2 member)

theorem mem_entries_iff {m : KeyMap α} {k : String} {a : α} : (k, a) ∈ m.entries ↔ m.get? k = some a := by
  constructor
  · exact lookup_of_mem (nodup_keys m)
  · intro found
    obtain ⟨before, after, split, _⟩ := List.lookup_eq_some_iff.1 found
    rw [split]
    simp

theorem ofList_entries (m : KeyMap α) : ofList m.entries = m :=
  ext_get? fun k => Option.ext fun a => by
    rw [get?_ofList_eq_some_iff (nodup_keys m), mem_entries_iff]

/-! ## Related entries -/

/-- Lists of the same keys with related values have related values under each key. -/
theorem lookup_rel (R : α → β → Prop) {es : List (String × α)} {fs : List (String × β)}
    (pairs : List.Forall₂ (fun e f => e.1 = f.1 ∧ R e.2 f.2) es fs) (k : String) :
    Option.Rel R (es.lookup k) (fs.lookup k) := by
  induction pairs with
  | nil => exact .none
  | @cons e f _ _ first _ ih =>
    obtain ⟨i, a⟩ := e
    obtain ⟨j, b⟩ := f
    obtain ⟨rfl, related⟩ := first
    by_cases same : k = i
    · subst same
      rw [List.lookup_cons_self, List.lookup_cons_self]
      exact .some related
    · rw [List.lookup_cons, List.lookup_cons, beq_eq_false_iff_ne.2 same]
      exact ih

end GraphQuery.KeyMap
