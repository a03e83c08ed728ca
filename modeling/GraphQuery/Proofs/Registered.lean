import GraphQuery.Builder
import GraphQuery.Proofs.Entries
import GraphQuery.Proofs.Nesting

/-!
# Registered blocks

Nested blocks, each with the path that it is registered for, and what a registry holds of
them. Main statement: a registry holds the blocks that a query brings along when it is
grafted under the moved paths, if those stay distinct.
-/

namespace GraphQuery

/-- A nested block with the path of the block that it is registered for. -/
structure Registration where
  around : String
  block : Block

namespace Registration

/-- The blocks that are registered for a path, in the order in which they were registered. -/
def under (key : String) (es : List Registration) : List Block :=
  (es.filter (·.around == key)).map (·.block)

theorem under_append (key : String) (es ds : List Registration) : under key (es ++ ds) = under key es ++ under key ds := by
  rw [under, List.filter_append, List.map_append]
  rfl

theorem under_cons (key : String) (e : Registration) (es : List Registration) :
    under key (e :: es) = under key [e] ++ under key es :=
  under_append key [e] es

theorem mem_under_iff {key : String} {es : List Registration} {b : Block} : b ∈ under key es ↔ ⟨key, b⟩ ∈ es := by
  unfold under
  rw [List.mem_map]
  constructor
  · rintro ⟨⟨around, block⟩, member, rfl⟩
    obtain ⟨inside, same⟩ := List.mem_filter.1 member
    rw [← eq_of_beq same]
    exact inside
  · exact fun member => ⟨_, List.mem_filter.2 ⟨member, by simp⟩, rfl⟩

/-- The registration of a block under the path of the block around it. -/
def ofBlock (b : Block) : Registration := ⟨Path.parent b.path, b⟩

/-- A registration moved along with the block that it is inside of. -/
def rebase (full old : String) (e : Registration) : Registration :=
  ⟨Builder.rebase full old e.around, Builder.rebaseBlock full old e.block⟩

end Registration

open Registration (under under_append under_cons mem_under_iff)

/-! ## Registries -/

namespace Registry

theorem blocks_add (r : Registry) (b : Block) (key : String) :
    (r.add b).blocks key = r.blocks key ++ under key [.ofBlock b] := by
  rw [add, blocks_extend]
  by_cases same : key = Path.parent b.path
  · rw [if_pos same, same]
    simp [under, Registration.ofBlock]
  · rw [if_neg same]
    simp [under, Registration.ofBlock, beq_eq_false_iff_ne.2 (Ne.symm same)]

theorem blocks_merge (r s : Registry) (key : String) : (r.merge s).blocks key = r.blocks key ++ s.blocks key := by
  unfold blocks merge
  rw [KeyMap.get?_mergeWith]
  cases r.get? key <;> cases s.get? key <;> simp

/-- What a registry holds, as registrations. -/
def registrations (r : Registry) : List Registration := r.entries.flatMap fun e => e.2.map (⟨e.1, ·⟩)

theorem under_registrations (r : Registry) (key : String) : under key r.registrations = r.blocks key := by
  have distinct : (r.entries.map (·.1)).Nodup := KeyMap.nodup_keys r
  unfold registrations blocks KeyMap.get?
  generalize r.entries = es at distinct ⊢
  induction es with
  | nil => rfl
  | cons e es ih =>
    obtain ⟨k, bs⟩ := e
    obtain ⟨fresh, distinct⟩ := List.nodup_cons.1 distinct
    rw [List.flatMap_cons, under_append, ih distinct]
    by_cases same : key = k
    · subst same
      have none : es.lookup key = none := by
        refine List.lookup_eq_none_iff.2 fun e member => ?_
        rw [bne_iff_ne]
        rintro rfl
        exact fresh (List.mem_map.2 ⟨e, member, rfl⟩)
      rw [none, List.lookup_cons_self, under, List.filter_map]
      simp [Function.comp_def]
    · rw [List.lookup_cons, beq_eq_false_iff_ne.2 same, under, List.filter_map]
      simp [Function.comp_def, beq_eq_false_iff_ne.2 (Ne.symm same)]

/-- A registry with its keys and its blocks moved. -/
def moved (r : Registry) (move : String → String) (change : Block → Block) : Registry :=
  KeyMap.ofList (r.entries.map fun e => (move e.1, e.2.map change))

section Moved

variable {r : Registry} {move : String → String} {change : Block → Block}

theorem get?_moved_eq_some_iff (distinct : (r.keys.map move).Nodup) {key : String} {bs : List Block} :
    (r.moved move change).get? key = some bs ↔ ∃ e ∈ r.entries, move e.1 = key ∧ e.2.map change = bs := by
  have apart : ((r.entries.map fun e => (move e.1, e.2.map change)).map (·.1)).Nodup := by
    rw [KeyMap.keys, List.map_map] at distinct
    rw [List.map_map]
    exact distinct
  rw [moved, KeyMap.get?_ofList_eq_some_iff apart, List.mem_map]
  simp only [Prod.mk.injEq]

/-- Blocks that are moved together with their key are found under the moved key. -/
theorem blocks_moved (distinct : (r.keys.map move).Nodup) {key : String} (member : key ∈ r.keys) :
    (r.moved move change).blocks (move key) = (r.blocks key).map change := by
  obtain ⟨bs, found⟩ := KeyMap.mem_keys_iff.1 member
  have entry : (key, bs) ∈ r.entries := by
    obtain ⟨before, after, split, _⟩ := List.lookup_eq_some_iff.1 found
    rw [split]
    simp
  have placed : (r.moved move change).get? (move key) = some (bs.map change) :=
    (get?_moved_eq_some_iff distinct).2 ⟨_, entry, rfl, rfl⟩
  rw [blocks, blocks, placed, found]
  rfl

theorem blocks_moved_of_not_mem (distinct : (r.keys.map move).Nodup) {key : String}
    (free : ¬ ∃ k ∈ r.keys, move k = key) : (r.moved move change).blocks key = [] := by
  unfold blocks
  cases found : (r.moved move change).get? key with
  | none => rfl
  | some bs =>
    obtain ⟨e, member, same, _⟩ := (get?_moved_eq_some_iff distinct).1 found
    exact absurd ⟨e.1, List.mem_map_of_mem member, same⟩ free

end Moved

end Registry

/-! ## Builders -/

/-- Different paths stay different inside a block. -/
theorem Path.join_injective {base path other : String} (same : join base path = join base other) : path = other := by
  have longer {path : String} : base ++ "->" ++ path ≠ base := by
    intro same
    have lengths := congrArg String.length same
    simp only [String.length_append] at lengths
    have arrow : "->".length = 2 := by decide
    omega
  unfold join at same
  split at same
  · exact same
  · split at same
    · next empty =>
      split at same
      · next empty' => rw [String.isEmpty_iff.1 empty, String.isEmpty_iff.1 empty']
      · exact absurd same.symm longer
    · split at same
      · exact absurd same longer
      · exact String.append_right_inj _ |>.1 same

namespace Builder

/-- A builder takes over the block of a nested builder, and then the blocks registered there. -/
theorem blocks_merge {q r : Builder} {es : List Registration} {key : String}
    (held : r.children.blocks key = under key es) :
    (q.merge r).children.blocks key = q.children.blocks key ++ under key (.ofBlock r.root :: es) := by
  rw [merge, Registry.blocks_merge, Registry.blocks_add, held, under_cons _ _ es, List.append_assoc]

/-- The paths of a builder that stands for no nested block stay distinct wherever they are moved. -/
theorem nodup_rebase {r : Builder} (top : r.base = "") (full : String) :
    (r.children.keys.map (rebase full r.base)).Nodup := by
  refine (KeyMap.nodup_keys r.children).map fun k j same => ?_
  rw [top] at same
  exact Path.join_injective same

/-- Where moved keys stay distinct, a grafted query holds the moved blocks under the moved keys. -/
theorem blocks_grafted {r : Builder} {full : String} (distinct : (r.children.keys.map (rebase full r.base)).Nodup)
    {es : List Registration} (held : ∀ key, r.children.blocks key = under key es) (key : String) :
    (r.grafted full).children.blocks key = under key (es.map (·.rebase full r.base)) := by
  have known {e : Registration} (member : e ∈ es) : e.around ∈ r.children.keys := by
    refine Registry.mem_keys_of_mem_blocks (b := e.block) ?_
    rw [held, mem_under_iff]
    exact member
  have gathered : under key (es.map (·.rebase full r.base)) =
      (es.filter (rebase full r.base ·.around == key)).map fun e => rebaseBlock full r.base e.block := by
    rw [under, List.filter_map, List.map_map]
    rfl
  have children : (r.grafted full).children = r.children.moved (rebase full r.base) (rebaseBlock full r.base) := rfl
  rw [gathered, children]
  by_cases here : ∃ k ∈ r.children.keys, rebase full r.base k = key
  · obtain ⟨k, member, rfl⟩ := here
    have same : es.filter (rebase full r.base ·.around == rebase full r.base k) = es.filter (·.around == k) := by
      refine List.filter_congr fun e inside => ?_
      rw [Bool.eq_iff_iff, beq_iff_eq, beq_iff_eq]
      exact ⟨List.inj_on_of_nodup_map distinct (known inside) member, congrArg _⟩
    rw [same, Registry.blocks_moved distinct member, held, under, List.map_map]
    rfl
  · have free : es.filter (rebase full r.base ·.around == key) = [] := by
      refine List.filter_eq_nil_iff.2 fun e inside same => ?_
      exact here ⟨e.around, known inside, eq_of_beq same⟩
    rw [free, Registry.blocks_moved_of_not_mem distinct here]
    rfl

end Builder

/-- A query over all nodes with a name. -/
def Plan.anything : Builder := .query (.has (KeyMap.ofList [("name", ())]))

end GraphQuery
