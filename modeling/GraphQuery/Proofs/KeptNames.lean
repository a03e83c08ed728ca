import GraphQuery.Proofs.BlockNames

/-!
# Names that are kept

When a builder is written under its own name. A name is taken when an attached block has it
or an earlier builder is written under it, and fresh names are taken as well. Main statement:
a builder whose name no other builder and no attached block has loses it to an earlier
builder that was renamed to it, and to nothing else.
-/

namespace GraphQuery

namespace Request

/-! ## Taken names -/

/-- A builder as it is written when some names are taken. -/
def writtenUnder (used : List String) (e : Builder × Nat) : Builder :=
  if e.1.blockName ∈ used then e.1.name (freshName e.1.blockName e.2) else e.1

/-- The names that are taken after some builders were written. -/
def takenAfter (used : List String) (written : List Builder) : List String :=
  (written.map (·.blockName)).reverse ++ used

theorem takenAfter_cons (used : List String) (q : Builder) (written : List Builder) :
    takenAfter used (q :: written) = takenAfter (q.blockName :: used) written := by
  simp [takenAfter]

theorem operationsFrom_cons {first : List Builder} {index : Nat} {used : List String} {q : Builder}
    {qs : List Builder} (follows : (q.isVariable || first.any (· == q)) = false) :
    operationsFrom first index used (q :: qs) = writtenUnder used (q, index) ::
      operationsFrom first (index + 1) ((writtenUnder used (q, index)).blockName :: used) qs := by
  rw [operationsFrom, follows, writtenUnder]
  simp only [Bool.false_eq_true, ↓reduceIte, List.contains_iff_mem]
  split
  · rw [Builder.blockName_freshName]
  · rfl

theorem getElem?_operationsFrom (first : List Builder) (index : Nat) (used : List String) (qs : List Builder)
    (k : Nat) :
    (operationsFrom first index used qs)[k]? =
      ((qs.zipIdx index).filter fun e => !(e.1.isVariable || first.any (· == e.1)))[k]?.map
        (writtenUnder (takenAfter used ((operationsFrom first index used qs).take k))) := by
  induction qs generalizing index used k with
  | nil => rfl
  | cons q qs ih =>
    rw [List.zipIdx_cons]
    by_cases follows : (q.isVariable || first.any (· == q)) = false
    · rw [operationsFrom_cons follows, List.filter_cons_of_pos (by rw [follows]; rfl)]
      cases k with
      | zero => rfl
      | succ k =>
        rw [List.getElem?_cons_succ, List.getElem?_cons_succ, List.take_succ_cons, takenAfter_cons]
        exact ih _ _ _
    · rw [Bool.not_eq_false] at follows
      rw [operationsFrom, if_pos follows, List.filter_cons_of_neg (by rw [follows]; simp)]
      exact ih _ _ _

/-- The names that are taken when the builder at a place among the answering ones is written. -/
def takenBefore (builders : List Builder) (k : Nat) : List String :=
  takenAfter (reserved (leading builders)) ((operations builders).take k)

theorem getElem?_operations (builders : List Builder) (k : Nat) :
    (operations builders)[k]? = (answering builders)[k]?.map (writtenUnder (takenBefore builders k)) :=
  getElem?_operationsFrom _ _ _ _ _

/-! ## Names that are lost -/

/-- A builder before a place among the answering ones is renamed to a name. -/
def RenamedBefore (builders : List Builder) (k : Nat) (name : String) : Prop :=
  ∃ j < k, ∃ d, (answering builders)[j]? = some d ∧ freshName d.1.blockName d.2 = name ∧
    (operations builders)[j]? = some (d.1.name name)

theorem mem_takenBefore_iff {builders : List Builder} {k : Nat} {name : String} :
    name ∈ takenBefore builders k ↔
      (∃ j < k, ∃ p, (operations builders)[j]? = some p ∧ p.blockName = name) ∨
        ∃ a, Leads builders a ∧ a.isVariable = false ∧ a.blockName = name := by
  rw [takenBefore, takenAfter, List.mem_append, List.mem_reverse, List.mem_map, mem_reserved_iff]
  refine or_congr_left ⟨?_, ?_⟩
  · rintro ⟨p, member, same⟩
    obtain ⟨j, inside, rfl⟩ := List.mem_take_iff_getElem.1 member
    exact ⟨j, by omega, _, List.getElem?_eq_getElem _, same⟩
  · rintro ⟨j, before, p, found, same⟩
    refine ⟨p, List.mem_of_getElem? (i := j) ?_, same⟩
    rw [List.getElem?_take_of_lt before, found]

theorem place_ne_of_lt {builders : List Builder} {j k : Nat} {d e : Builder × Nat} (before : j < k)
    (there : (answering builders)[j]? = some d) (here : (answering builders)[k]? = some e) : d.2 ≠ e.2 := by
  obtain ⟨_, rfl⟩ := List.getElem?_eq_some_iff.1 there
  obtain ⟨_, rfl⟩ := List.getElem?_eq_some_iff.1 here
  exact List.pairwise_iff_getElem.1 (pairwise_answering builders) j k _ _ before

section Unique

variable {builders : List Builder} {k : Nat} {e : Builder × Nat} (here : (answering builders)[k]? = some e)
  (unique : ∀ d ∈ builders.zipIdx, d.2 ≠ e.2 → d.1.blockName ≠ e.1.blockName)
  (apart : ∀ q ∈ builders, ∀ a : Builder, a.AttachedTo q → a.isVariable = false → a.blockName ≠ e.1.blockName)

include here unique apart

/-- A name that no other builder and no attached block has can only be taken by a fresh name. -/
theorem mem_takenBefore_iff_renamedBefore :
    e.1.blockName ∈ takenBefore builders k ↔ RenamedBefore builders k e.1.blockName := by
  rw [mem_takenBefore_iff]
  constructor
  · rintro (⟨j, before, p, found, same⟩ | ⟨a, ⟨q, member, attached | ⟨rfl, sets⟩⟩, data, same⟩)
    · obtain ⟨d, there, rfl⟩ := Option.map_eq_some_iff.1 ((getElem?_operations builders j).symm.trans found)
      unfold writtenUnder at found same
      split at same
      · next taken =>
        rw [Builder.blockName_freshName] at same
        rw [if_pos taken, same] at found
        exact ⟨j, before, d, there, same, found⟩
      · have listed := (List.mem_filter.1 (List.mem_of_getElem? there)).1
        exact absurd same (unique d listed (place_ne_of_lt before there here))
    · exact absurd same (apart q member a attached data)
    · rw [data] at sets
      cases sets
  · rintro ⟨j, before, d, there, same, found⟩
    refine .inl ⟨j, before, _, found, ?_⟩
    rw [← same, Builder.blockName_freshName]

end Unique

/-- A builder that answers the request and whose name is that of no other builder and of no attached block is
    written at its place, as it is and under its name, unless a builder before it was renamed to that name.
    Then it is renamed itself, after its place in the list. -/
theorem operation_of_unique {builders : List Builder} {query : CompiledQuery} (h : compile builders = .ok query)
    {k : Nat} {e : Builder × Nat} (here : (answering builders)[k]? = some e)
    (unique : ∀ d ∈ builders.zipIdx, d.2 ≠ e.2 → d.1.blockName ≠ e.1.blockName)
    (apart : ∀ q ∈ builders, ∀ a : Builder, a.AttachedTo q → a.isVariable = false → a.blockName ≠ e.1.blockName) :
    ∃ own rest first fs, (operations builders)[k]? = some own ∧
      own.compile = .ok (.text (own.root.labelText (Predicate.escape own.blockName)) ++ rest) ∧
      (leading builders).mapM Builder.compile = .ok first ∧ (operations builders).mapM Builder.compile = .ok fs ∧
      fs[k]? = some (.text (own.root.labelText (Predicate.escape own.blockName)) ++ rest) ∧
      query.text = textOf builders query.declarations (first ++ fs) ∧
      (¬ RenamedBefore builders k e.1.blockName → own = e.1) ∧
      (RenamedBefore builders k e.1.blockName →
        own = e.1.name (freshName e.1.blockName e.2) ∧ own.blockName = freshName e.1.blockName e.2) := by
  have written : (operations builders)[k]? = some (writtenUnder (takenBefore builders k) e) := by
    rw [getElem?_operations, here]
    rfl
  have named : writtenUnder (takenBefore builders k) e ∈ namedBlocks builders := by
    rw [namedBlocks_eq]
    exact List.mem_append_right _ (List.mem_of_getElem? written)
  obtain ⟨_, rest, compiled⟩ := exists_rest_of_mem_namedBlocks h named
  obtain ⟨first, fs, leads, answers, _, text⟩ := exists_fragments h
  obtain ⟨f, placed, same⟩ := Compiled.getElem?_of_mapM answers written
  obtain rfl : f = _ := Except.ok.inj (same.symm.trans compiled)
  have taken := mem_takenBefore_iff_renamedBefore here unique apart
  refine ⟨_, rest, first, fs, written, compiled, leads, answers, placed, text, fun free => if_neg (free ∘ taken.1),
    fun lost => ?_⟩
  have renamed : writtenUnder (takenBefore builders k) e = e.1.name (freshName e.1.blockName e.2) :=
    if_pos (taken.2 lost)
  rw [renamed]
  exact ⟨rfl, e.1.blockName_freshName e.2⟩

/-- Blocks named `a`, `a`, `b` and `a_1`, with one named `side` attached to the first. -/
def crossing : List Builder :=
  [(named "a").attach ((named "side").as "x"), named "a", named "b", named "a_1"]

/-- The block named `b` keeps its name. The one named `a_1` does not: the second block was renamed to it. -/
theorem operation_of_unique_crossing :
    ∃ query, compile crossing = .ok query ∧
      (∃ rest, (operations crossing)[2]? = some (named "b") ∧
        (named "b").compile = .ok (.text ((named "b").root.labelText (Predicate.escape "b")) ++ rest)) ∧
      ∃ own, (operations crossing)[3]? = some own ∧ own.blockName = "a_1_3" := by
  have succeeds : (compile crossing).isOk = true := by decide +kernel
  obtain ⟨query, compiled⟩ := Compiled.exists_of_isOk succeeds
  have attached : reserved (leading crossing) = ["side"] := by decide +kernel
  have apart {n : String} (other : n ≠ "side") : ∀ q ∈ crossing, ∀ a : Builder, a.AttachedTo q →
      a.isVariable = false → a.blockName ≠ n := by
    intro q member a path data same
    have inside := mem_reserved_iff.2 ⟨a, ⟨q, member, .inl path⟩, data, same⟩
    rw [attached, List.mem_singleton] at inside
    exact other inside
  have kept : ¬ RenamedBefore crossing 2 "b" := by
    rintro ⟨j, before, d, there, same, _⟩
    have names : ∀ d ∈ answering crossing, freshName d.1.blockName d.2 ≠ "b" := by decide +kernel
    exact names d (List.mem_of_getElem? there) same
  have lost : RenamedBefore crossing 3 "a_1" := ⟨1, by decide, (named "a", 1), rfl, by decide, rfl⟩
  obtain ⟨_, rest, _, _, second, written, _, _, _, _, same, _⟩ :=
    operation_of_unique compiled (k := 2) (e := (named "b", 2)) rfl (by decide +kernel) (apart (by decide +kernel))
  obtain ⟨own, _, _, _, third, _, _, _, _, _, _, renamed⟩ :=
    operation_of_unique compiled (k := 3) (e := (named "a_1", 3)) rfl (by decide +kernel) (apart (by decide +kernel))
  obtain rfl := same kept
  exact ⟨query, compiled, ⟨rest, second, written⟩, own, third, (renamed lost).2⟩

/-- Two blocks of one name before a block with the name that the second of them is given. -/
def overtaken : List Builder := [named "a", named "a", named "a_1"]

/-- No other block has the name of the last one and none is attached, and it is written under another name. -/
theorem overtaken_renamed :
    (compile overtaken).toOption.map (·.text) = some
      "query A_A_1_A_1_2() \x7b a(func: has(name)) \x7b  \x7d a_1(func: has(name)) \x7b  \x7d a_1_2(func: has(name)) \x7b  \x7d \x7d" ∧
    (answering overtaken)[2]? = some (named "a_1", 2) ∧ (named "a_1").blockName = "a_1" ∧
    (∀ d ∈ overtaken.zipIdx, d.2 ≠ 2 → d.1.blockName ≠ "a_1") ∧ (∀ q ∈ overtaken, q.attached = []) ∧
    (operations overtaken)[2]?.map (·.blockName) = some "a_1_2" := by
  refine ⟨by decide +kernel, rfl, by decide +kernel, by decide +kernel, ?_, by decide +kernel⟩
  intro q member
  simp only [overtaken, List.mem_cons, List.not_mem_nil, or_false] at member
  rcases member with rfl | rfl | rfl <;> rfl

end Request

end GraphQuery
