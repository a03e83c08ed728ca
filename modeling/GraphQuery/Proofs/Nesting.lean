import GraphQuery.Proofs.Values
import Mathlib.Data.List.Perm.Subperm
import Mathlib.Logic.Relation

/-!
# Registries without cycles

In a registry in which no block is nested in itself, a branch of nested blocks never
comes back to a key, so it is no longer than there are keys. Main statement: the tree of
a block is the block with the trees of the blocks under its key, however deep they are.
-/

namespace GraphQuery

open Relation (TransGen)

namespace Registry

variable {r : Registry}

/-- A block under the first key holds the blocks under the second. -/
def Nests (r : Registry) (key inner : String) : Prop := ∃ b ∈ r.blocks key, b.body.key = inner

/-- A registry in which no key leads back to itself. -/
def Acyclic (r : Registry) : Prop := ∀ key, ¬ TransGen r.Nests key key

theorem exists_entry_of_mem_blocks {key : String} {b : Block} (h : b ∈ r.blocks key) :
    ∃ bs, (key, bs) ∈ r.entries ∧ b ∈ bs := by
  unfold blocks at h
  cases found : r.get? key with
  | none =>
    rw [found] at h
    cases h
  | some bs =>
    rw [found] at h
    obtain ⟨before, after, same, _⟩ := List.lookup_eq_some_iff.1 found
    refine ⟨bs, ?_, h⟩
    rw [same]
    simp

/-- Keys that get longer from the outside in never come back. -/
theorem acyclic_of_longer (longer : ∀ e ∈ r.entries, ∀ b ∈ e.2, e.1.length < b.body.key.length) : r.Acyclic := by
  have step {key inner : String} (nests : r.Nests key inner) : key.length < inner.length := by
    obtain ⟨b, member, rfl⟩ := nests
    obtain ⟨bs, entry, inside⟩ := exists_entry_of_mem_blocks member
    exact longer _ entry b inside
  have grows {key inner : String} (path : TransGen r.Nests key inner) : key.length < inner.length := by
    induction path with
    | single nests => exact step nests
    | tail _ nests ih => exact Nat.lt_trans ih (step nests)
  intro key cycle
  exact Nat.lt_irrefl _ (grows cycle)

theorem mem_keys_of_mem_blocks {key : String} {b : Block} (h : b ∈ r.blocks key) : key ∈ r.keys := by
  obtain ⟨bs, entry, _⟩ := exists_entry_of_mem_blocks h
  exact List.mem_map_of_mem entry

/-- A depth that the keys not yet passed leave room for is deep enough. -/
theorem treesTo_stable (acyclic : r.Acyclic) {depth : Nat} {key : String} {passed : List String}
    (distinct : passed.Nodup) (known : passed ⊆ r.keys) (above : ∀ k ∈ passed, TransGen r.Nests k key)
    (room : r.keys.length ≤ depth + passed.length) : r.treesTo depth key = r.treesTo (depth + 1) key := by
  induction depth generalizing key passed with
  | zero =>
    have last : r.blocks key = [] := by
      by_contra filled
      obtain ⟨b, member⟩ := List.exists_mem_of_ne_nil _ filled
      have fresh : key ∉ passed := fun inside => acyclic key (above key inside)
      have all : key :: passed ⊆ r.keys := List.cons_subset.2 ⟨mem_keys_of_mem_blocks member, known⟩
      have bound := ((List.nodup_cons.2 ⟨fresh, distinct⟩).subperm all).length_le
      simp only [List.length_cons] at bound
      omega
    simp [treesTo, last]
  | succ depth ih =>
    rw [treesTo, treesTo]
    refine List.map_congr_left fun b member => ?_
    have step : r.Nests key b.body.key := ⟨b, member, rfl⟩
    have fresh : key ∉ passed := fun inside => acyclic key (above key inside)
    rw [ih (List.nodup_cons.2 ⟨fresh, distinct⟩) (List.cons_subset.2 ⟨mem_keys_of_mem_blocks member, known⟩)]
    · intro k inside
      rcases List.mem_cons.1 inside with rfl | inside
      · exact .single step
      · exact (above k inside).tail step
    · simp only [List.length_cons]
      omega

theorem trees_eq_map (acyclic : r.Acyclic) (key : String) : r.trees key = (r.blocks key).map (·.tree r) := by
  rw [trees, treesTo]
  refine List.map_congr_left fun b _ => ?_
  have stable : r.treesTo r.keys.length b.body.key = r.treesTo (r.keys.length + 1) b.body.key :=
    treesTo_stable acyclic List.nodup_nil (by simp) (by simp) (by simp)
  rw [stable]
  rfl

theorem everyOf_treesTo {p : Block → Prop} (all : ∀ e ∈ r.entries, ∀ b ∈ e.2, p b) (depth : Nat)
    (key : String) : BlockTree.EveryOf p (r.treesTo depth key) := by
  induction depth generalizing key with
  | zero =>
    unfold treesTo
    split
    · trivial
    · exact ⟨trivial, trivial⟩
  | succ depth ih =>
    rw [treesTo, BlockTree.everyOf_iff]
    intro t member
    obtain ⟨b, inside, rfl⟩ := List.mem_map.1 member
    obtain ⟨bs, entry, listed⟩ := exists_entry_of_mem_blocks inside
    exact ⟨all _ entry b listed, ih b.body.key⟩

end Registry

/-- The tree of a block is the block with the trees of the blocks under its key. -/
theorem Block.tree_eq {r : Registry} (acyclic : r.Acyclic) (b : Block) :
    b.tree r = .block b ((r.blocks b.body.key).map (·.tree r)) := by
  rw [Block.tree, r.trees_eq_map acyclic]

end GraphQuery
