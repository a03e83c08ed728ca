import GraphQuery.Proofs.Entries
import Mathlib.Data.List.Induction

/-!
# Maps made entry by entry

A map that entries are put into has the last value of each key, and nothing else of the
order in which they came. Main statements: maps made of entries with the same last
values are equal, and the map of a list is the one made by putting its entries in.
-/

namespace GraphQuery.KeyMap

variable {α β : Type}

/-! ## Last values -/

/-- The value of the last entry with a key. -/
def lastValue? (es : List (String × α)) (k : String) : Option α :=
  (es.filter (·.1 == k)).getLast?.map (·.2)

theorem lastValue?_concat (es : List (String × α)) (e : String × α) (k : String) :
    lastValue? (es ++ [e]) k = if k = e.1 then some e.2 else lastValue? es k := by
  unfold lastValue?
  by_cases same : k = e.1
  · simp [same]
  · have other : (e.1 == k) = false := beq_eq_false_iff_ne.2 (Ne.symm same)
    simp [same, other]

theorem lastValue?_eq_lookup (es : List (String × α)) (k : String) : lastValue? es k = es.reverse.lookup k := by
  induction es using List.reverseRecOn with
  | nil => rfl
  | append_singleton es e ih =>
    rw [lastValue?_concat, List.reverse_append, ih]
    obtain ⟨j, a⟩ := e
    by_cases same : k = j
    · simp [same]
    · simp [same, List.lookup_cons, beq_eq_false_iff_ne.2 same]

theorem get?_ofList_eq_lastValue? (es : List (String × α)) (k : String) : (ofList es).get? k = lastValue? es k := by
  rw [get?_ofList, lastValue?_eq_lookup]

theorem lastValue?_entries (m : KeyMap α) (k : String) : lastValue? m.entries k = m.get? k := by
  rw [← get?_ofList_eq_lastValue?, ofList_entries]

theorem lastValue?_map (f : α → β) (es : List (String × α)) (k : String) :
    lastValue? (es.map fun e => (e.1, f e.2)) k = (lastValue? es k).map f := by
  simp [lastValue?, List.filter_map, Function.comp_def]

theorem length_filter_entries_le (m : KeyMap α) (k : String) : (m.entries.filter (·.1 == k)).length ≤ 1 := by
  have once := List.nodup_iff_count_le_one.1 (nodup_keys m) k
  rwa [keys, List.count, List.countP_map, List.countP_eq_length_filter] at once

theorem lastValue?_eq_none_iff {es : List (String × α)} {k : String} :
    lastValue? es k = none ↔ k ∉ es.map (·.1) := by
  rw [lastValue?, Option.map_eq_none_iff, List.getLast?_eq_none_iff, List.filter_eq_nil_iff, List.mem_map]
  simp only [beq_iff_eq]
  exact ⟨fun none ⟨e, member, same⟩ => none e member same, fun none e member same => none ⟨e, member, same⟩⟩

/-- An entry counts unless a later one has its key. -/
theorem lastValue?_cons (e : String × α) (es : List (String × α)) (k : String) :
    lastValue? (e :: es) k = (lastValue? es k).or (if k = e.1 then some e.2 else none) := by
  rw [lastValue?_eq_lookup, lastValue?_eq_lookup, List.reverse_cons, List.lookup_append]
  obtain ⟨j, a⟩ := e
  by_cases same : k = j
  · simp [same]
  · simp [same, List.lookup_cons, beq_eq_false_iff_ne.2 same]

/-- Related lists of entries have related last values. -/
theorem lastValue?_rel (R : α → β → Prop) {es : List (String × α)} {fs : List (String × β)}
    (pairs : List.Forall₂ (fun e f => e.1 = f.1 ∧ R e.2 f.2) es fs) (k : String) :
    Option.Rel R (lastValue? es k) (lastValue? fs k) := by
  rw [lastValue?_eq_lookup, lastValue?_eq_lookup]
  exact lookup_rel R (List.forall₂_reverse_iff.2 pairs) k

/-! ## Putting entries in -/

/-- The map of entries put in one after the other. -/
def inserted (es : List (String × α)) : KeyMap α := es.foldl (fun m e => m.insert e.1 e.2) ∅

theorem get?_inserted (es : List (String × α)) (k : String) : (inserted es).get? k = lastValue? es k := by
  induction es using List.reverseRecOn with
  | nil => rfl
  | append_singleton es e ih =>
    rw [inserted, List.foldl_concat, get?_insert, lastValue?_concat]
    rw [inserted] at ih
    rw [ih]

theorem inserted_eq_ofList (es : List (String × α)) : inserted es = ofList es :=
  ext_get? fun k => by rw [get?_inserted, get?_ofList_eq_lastValue?]

theorem inserted_congr {es fs : List (String × α)} (same : ∀ k, lastValue? es k = lastValue? fs k) :
    inserted es = inserted fs :=
  ext_get? fun k => by rw [get?_inserted, get?_inserted, same]

/-! ## Putting keys in -/

/-- The map of keys put in one after the other. -/
def insertedKeys (ks : List String) : KeyMap Unit := inserted (ks.map (·, ()))

theorem lastValue?_units_eq_some_iff {ks : List String} {k : String} :
    lastValue? (ks.map (·, ())) k = some () ↔ k ∈ ks := by
  induction ks using List.reverseRecOn with
  | nil => simp [lastValue?]
  | append_singleton ks j ih =>
    rw [List.map_append, List.map_singleton, lastValue?_concat, List.mem_append, List.mem_singleton, ← ih]
    by_cases same : k = j
    · simp [same]
    · simp [same]

theorem mem_keys_insertedKeys {ks : List String} {k : String} : k ∈ (insertedKeys ks).keys ↔ k ∈ ks := by
  rw [mem_keys_iff, insertedKeys]
  simp only [get?_inserted]
  rw [← lastValue?_units_eq_some_iff]
  exact ⟨fun ⟨_, found⟩ => found, fun found => ⟨(), found⟩⟩

theorem insertedKeys_congr {js ks : List String} (same : ∀ k, k ∈ js ↔ k ∈ ks) :
    insertedKeys js = insertedKeys ks := by
  refine inserted_congr fun k => ?_
  rw [Option.ext_iff]
  rintro ⟨⟩
  rw [lastValue?_units_eq_some_iff, lastValue?_units_eq_some_iff, same]

end GraphQuery.KeyMap
