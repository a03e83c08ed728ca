import GraphQuery.Proofs.Joining
import GraphQuery.Proofs.Registered
import Mathlib.Data.List.Flatten
import Mathlib.Data.List.Pairwise

/-!
# Blocks that a graft keeps

A graft moves the keys under which the blocks inside a query are held, and keys that are apart in
the query may fall together inside another block. Main statement: of keys that fall together
only the last keeps its blocks, so a graft keeps all blocks if and only if no blocks are
held under the others.
-/

namespace GraphQuery

/-! ## Maps of lists with repeated keys -/

section Repeated

variable {α : Type} {k : String} {es : List (String × α)}

/-- A new key gets a place among the entries that are there. -/
theorem alterEntries_perm {f : Option α → α} (fresh : ∀ e ∈ es, k ≠ e.1) :
    (alterEntries k f es).Perm ((k, f none) :: es) := by
  induction es with
  | nil => exact .refl _
  | cons e es ih =>
    obtain ⟨other, rest⟩ := List.forall_mem_cons.1 fresh
    simp only [alterEntries, if_neg other]
    split
    · exact .refl _
    · exact ((ih rest).cons e).trans (.swap _ _ _)

/-- A key that is there keeps its value. -/
theorem alterEntries_getD {a : α} (ordered : es.Pairwise (·.1 < ·.1)) (present : ∃ e ∈ es, k = e.1) :
    alterEntries k (·.getD a) es = es := by
  induction es with
  | nil =>
    obtain ⟨_, member, _⟩ := present
    cases member
  | cons e es ih =>
    obtain ⟨below, ordered⟩ := List.pairwise_cons.1 ordered
    by_cases same : k = e.1
    · simp [alterEntries, same]
    · obtain ⟨d, member, found⟩ := present
      have inside : d ∈ es := (List.mem_cons.1 member).resolve_left fun here => same (found.trans (by rw [here]))
      have later : ¬ k < e.1 := fun before => String.lt_irrefl _ (String.lt_trans before (found ▸ below d inside))
      simp only [alterEntries, if_neg later, if_neg same, ih ordered ⟨d, inside, found⟩]

/-- The map of a list has those of its entries of which no later entry has the key. -/
theorem KeyMap.entries_ofList_perm (es : List (String × α)) :
    (KeyMap.ofList es).entries.Perm (es.pwFilter fun e d => e.1 ≠ d.1) := by
  induction es with
  | nil => exact .refl _
  | cons e es ih =>
    by_cases fresh : ∀ d ∈ es.pwFilter fun e d => e.1 ≠ d.1, e.1 ≠ d.1
    · rw [List.pwFilter_cons_of_pos fresh]
      have unused : ∀ d ∈ (KeyMap.ofList es).entries, e.1 ≠ d.1 := fun d member => fresh d (ih.mem_iff.1 member)
      exact (alterEntries_perm unused).trans (ih.cons e)
    · rw [List.pwFilter_cons_of_neg fresh]
      push Not at fresh
      obtain ⟨d, member, same⟩ := fresh
      have kept : (KeyMap.ofList (e :: es)).entries = (KeyMap.ofList es).entries :=
        alterEntries_getD (KeyMap.ofList es).ordered ⟨d, ih.mem_iff.2 member, same⟩
      rw [kept]
      exact ih

end Repeated

/-! ## Registrations -/

namespace Registration

/-- The registrations that the entries of a registry stand for. -/
def ofEntries (es : List (String × List Block)) : List Registration := es.flatMap fun e => e.2.map (⟨e.1, ·⟩)

theorem countP_under [DecidableEq Registration] [DecidableEq Block] (es : List Registration) (e : Registration) :
    (under e.around es).countP (· = e.block) = es.count e := by
  unfold under List.count
  rw [List.countP_map, List.countP_filter]
  refine List.countP_congr fun d _ => ?_
  obtain ⟨around, block⟩ := d
  obtain ⟨around', block'⟩ := e
  simp [and_comm]

/-- Registrations are the same up to their order when they are the same for each path. -/
theorem perm_of_under {es ds : List Registration} (same : ∀ key, under key es = under key ds) : es.Perm ds := by
  classical
  rw [List.perm_iff_count]
  intro e
  rw [← countP_under, same, countP_under]

/-- Moved entries stand for the moved registrations. -/
theorem map_rebase_ofEntries (full old : String) (es : List (String × List Block)) :
    (ofEntries es).map (·.rebase full old) =
      ofEntries (es.map fun e => (Builder.rebase full old e.1, e.2.map (Builder.rebaseBlock full old))) := by
  unfold ofEntries
  rw [List.map_flatMap, List.flatMap_map]
  simp only [List.map_map]
  rfl

theorem length_ofEntries_cons (e : String × List Block) (es : List (String × List Block)) :
    (ofEntries (e :: es)).length = e.2.length + (ofEntries es).length := by
  simp [ofEntries]

/-! ## Keys that fall together -/

/-- The entries of which no later key is moved to the same place. -/
def lasting (move : String → String) (es : List (String × List Block)) : List (String × List Block) :=
  es.pwFilter fun e d => move e.1 ≠ move d.1

/-- Of the keys that are moved to one place, only the last has blocks. -/
def KeepsApart (move : String → String) (es : List (String × List Block)) : Prop :=
  es.Pairwise fun e d => move e.1 = move d.1 → e.2 = []

instance (move : String → String) (es : List (String × List Block)) : Decidable (KeepsApart move es) :=
  inferInstanceAs (Decidable (es.Pairwise _))

section Lasting

variable {move : String → String} {e : String × List Block} {es : List (String × List Block)}

theorem forall_mem_lasting : (∀ d ∈ lasting move es, move e.1 ≠ move d.1) ↔ ∀ d ∈ es, move e.1 ≠ move d.1 := by
  refine List.forall_mem_pwFilter (R := fun e d => move e.1 ≠ move d.1) (fun {x y z} apart => ?_) e es
  by_cases same : move x.1 = move y.1
  · exact .inr (same ▸ apart)
  · exact .inl same

theorem lasting_cons_of_apart (apart : ∀ d ∈ es, move e.1 ≠ move d.1) :
    lasting move (e :: es) = e :: lasting move es :=
  List.pwFilter_cons_of_pos (forall_mem_lasting.2 apart)

theorem lasting_cons_of_taken (taken : ¬ ∀ d ∈ es, move e.1 ≠ move d.1) : lasting move (e :: es) = lasting move es :=
  List.pwFilter_cons_of_neg (forall_mem_lasting.not.2 taken)

theorem ofEntries_lasting_sublist (move : String → String) (es : List (String × List Block)) :
    (ofEntries (lasting move es)).Sublist (ofEntries es) :=
  (List.pwFilter_sublist _).flatMap _

/-- No registration is left out just when the keys are kept apart. -/
theorem length_lasting_iff : (ofEntries (lasting move es)).length = (ofEntries es).length ↔ KeepsApart move es := by
  induction es with
  | nil => simp [lasting, KeepsApart]
  | cons e es ih =>
    have fewer := (ofEntries_lasting_sublist move es).length_le
    by_cases apart : ∀ d ∈ es, move e.1 ≠ move d.1
    · have first : ∀ d ∈ es, move e.1 = move d.1 → e.2 = [] := fun d member same => absurd same (apart d member)
      rw [lasting_cons_of_apart apart, length_ofEntries_cons, length_ofEntries_cons, Nat.add_left_cancel_iff, ih]
      exact ⟨.cons first, List.Pairwise.of_cons⟩
    · rw [lasting_cons_of_taken apart, length_ofEntries_cons]
      push Not at apart
      obtain ⟨d, member, same⟩ := apart
      constructor
      · intro lengths
        have none : e.2 = [] := List.eq_nil_of_length_eq_zero (by omega)
        exact .cons (fun _ _ _ => none) (ih.1 (by omega))
      · intro kept
        obtain ⟨first, rest⟩ := List.pairwise_cons.1 kept
        rw [first d member same, ih.2 rest]
        exact (Nat.zero_add _).symm

end Lasting

end Registration

open Registration (ofEntries lasting KeepsApart)

/-! ## Grafts -/

/-- Paths of a block and below it stay different when they are seen from the block. -/
theorem Path.relativeTo_injective {base path other : String} (here : path = base ∨ Below base path)
    (there : other = base ∨ Below base other) (same : relativeTo base path = relativeTo base other) : path = other := by
  by_cases top : base = ""
  · simpa [relativeTo, top] using same
  have seen {path : String} (here : path = base ∨ Below base path) :
      path = base ∧ relativeTo base path = "" ∨
        ∃ rest, rest ≠ "" ∧ path = base ++ "->" ++ rest ∧ relativeTo base path = rest := by
    rcases here with rfl | below
    · exact .inl ⟨rfl, by simp [relativeTo, top]⟩
    · obtain ⟨rest, filled, rfl⟩ := below.resolve_left top
      exact .inr ⟨rest, filled, rfl, relativeTo_append_arrow top rest⟩
  rcases seen here with ⟨rfl, first⟩ | ⟨rest, filled, rfl, first⟩
  · rcases seen there with ⟨rfl, _⟩ | ⟨rest, filled, _, second⟩
    · rfl
    · exact absurd (second.symm.trans (same.symm.trans first)) filled
  · rcases seen there with ⟨_, second⟩ | ⟨rest', _, rfl, second⟩
    · exact absurd (first.symm.trans (same.trans second)) filled
    · rw [first.symm.trans (same.trans second)]

namespace Builder

/-- Keys of a block and below it stay apart wherever they are moved. -/
theorem keepsApart_of_below {r : Builder} (full : String)
    (inside : ∀ key ∈ r.children.keys, key = r.base ∨ Path.Below r.base key) :
    KeepsApart (rebase full r.base) r.children.entries := by
  refine r.children.ordered.imp_of_mem fun {e d} first second less same => ?_
  have equal : e.1 = d.1 := Path.relativeTo_injective (inside _ (List.mem_map_of_mem first))
    (inside _ (List.mem_map_of_mem second)) (Path.join_injective same)
  exact absurd (equal ▸ less) (String.lt_irrefl _)

/-- A grafted query holds the blocks of the last keys, moved along. -/
theorem registrations_grafted (r : Builder) (full : String) :
    (r.grafted full).children.registrations.Perm
      ((ofEntries (lasting (rebase full r.base) r.children.entries)).map (·.rebase full r.base)) := by
  have entries := KeyMap.entries_ofList_perm
    (r.children.entries.map fun e => (rebase full r.base e.1, e.2.map (rebaseBlock full r.base)))
  rw [List.pwFilter_map] at entries
  rw [Registration.map_rebase_ofEntries]
  exact entries.flatMap_right _

/-- A builder takes over the registrations of a builder, and the block of that one. -/
theorem registrations_merge (q r : Builder) :
    (q.merge r).children.registrations.Perm
      (q.children.registrations ++ .ofBlock r.root :: r.children.registrations) := by
  refine Registration.perm_of_under fun key => ?_
  rw [Registration.under_append, Registry.under_registrations, Registry.under_registrations]
  exact blocks_merge (Registry.under_registrations r.children key).symm

/-- A graft adds the block of the query and the blocks held under its last keys, moved along, to what is
    there already. So it keeps all blocks if and only if the keys are kept apart, as they are when the
    paths of the query are those of its own block and below it. -/
theorem graft_keeps_iff (q r : Builder) (path : String) :
    let full := Path.join q.base path
    let move := rebase full r.base
    let held (es : List Registration) :=
      q.children.registrations ++ .ofBlock (graftedRoot full r.root) :: es.map (·.rebase full r.base)
    let found := (q.graft path r).children.registrations
    found.Perm (held (ofEntries (lasting move r.children.entries))) ∧
    (found.Perm (held r.children.registrations) ↔ KeepsApart move r.children.entries) ∧
    (found.length = q.children.registrations.length + 1 + r.children.registrations.length ↔
      KeepsApart move r.children.entries) ∧
    ((∀ key ∈ r.children.keys, key = r.base ∨ Path.Below r.base key) → KeepsApart move r.children.entries) := by
  intro full move held found
  have length_held (es : List Registration) : (held es).length = q.children.registrations.length + 1 + es.length := by
    simp only [held, List.length_append, List.length_cons, List.length_map]
    omega
  have kept : found.Perm (held (ofEntries (lasting move r.children.entries))) :=
    (registrations_merge q (r.grafted full)).trans (((registrations_grafted r full).cons _).append_left _)
  have counted : found.length = (held r.children.registrations).length ↔ KeepsApart move r.children.entries := by
    rw [kept.length_eq, length_held, length_held, Nat.add_left_cancel_iff]
    exact Registration.length_lasting_iff
  refine ⟨kept, ⟨fun all => counted.1 all.length_eq, fun apart => ?_⟩, ?_, keepsApart_of_below full⟩
  · have all : ofEntries (lasting move r.children.entries) = r.children.registrations :=
      (Registration.ofEntries_lasting_sublist _ _).eq_of_length (Registration.length_lasting_iff.2 apart)
    rw [← all]
    exact kept
  · rw [← length_held]
    exact counted

/-- A copy of a nested block is put inside that block, with a block on the way, and all five blocks are held. -/
theorem graft_keeps_branch :
    let r := ((Plan.anything.nestedAt "a").edge "b").edge "b->c"
    let found := (r.graft "x->y" r).children.registrations
    found.Perm (r.children.registrations ++ .ofBlock (graftedRoot "a->x->y" r.root) ::
      r.children.registrations.map (·.rebase "a->x->y" "a")) ∧ found.length = 5 := by
  intro r found
  have inside : ∀ key ∈ r.children.keys, key = r.base ∨ Path.Below r.base key := by
    have keys : r.children.keys = ["a", "a->b"] := by decide +kernel
    rw [keys]
    simp only [List.forall_mem_cons]
    exact ⟨.inl rfl, .inr (.inr ⟨"b", by decide, rfl⟩), fun _ none => absurd none (List.not_mem_nil)⟩
  obtain ⟨_, all, total, apart⟩ := graft_keeps_iff r r "x->y"
  exact ⟨all.2 (apart inside), (total.2 (apart inside)).trans (by decide +kernel)⟩

/-- A nested block with two blocks inside it, the path of one of them with an arrow in front. -/
def pointed : Builder := ((Plan.anything.nestedAt "a").edge "->c").edge "b"

/-- A copy of a nested block is put inside that block, and of the two blocks inside the copy one is left. -/
theorem graft_loses_pointed :
    let found := (pointed.graft "x" pointed).children.registrations
    let whole := Plan.anything.edgeOf "a" fun b => ((b.edge "->c").edge "b").graft "x" ((b.edge "->c").edge "b")
    pointed.children.registrations.map (fun e => (e.around, e.block.path)) = [("a", "a->b"), ("a->", "a->->c")] ∧
    found.map (fun e => (e.around, e.block.path)) =
      [("a", "a->b"), ("a", "a->x"), ("a->", "a->->c"), ("a->x", "a->x->->c")] ∧
    ¬ KeepsApart (rebase "a->x" "a") pointed.children.entries ∧
    found.length ≠ pointed.children.registrations.length + 1 + pointed.children.registrations.length ∧
    ¬ found.Perm (pointed.children.registrations ++ .ofBlock (graftedRoot "a->x" pointed.root) ::
      pointed.children.registrations.map (·.rebase "a->x" "a")) ∧
    (Request.compile [whole]).toOption.map (·.text) = some
      "query Rootquery() \x7b rootQuery(func: has(name)) \x7b a \x7b b \x7b  \x7d x \x7b c \x7b  \x7d \x7d \x7d \x7d \x7d" := by
  refine ⟨by decide +kernel, by decide +kernel, by decide +kernel, by decide +kernel, fun all => ?_, by decide +kernel⟩
  exact absurd all.length_eq (by decide +kernel)

end Builder

end GraphQuery
