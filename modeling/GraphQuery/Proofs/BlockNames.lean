import GraphQuery.Proofs.Collecting
import GraphQuery.Proofs.Renaming

/-!
# Names of the blocks of a request

Under which names the named blocks of a request are written. A builder whose name is
taken gets a fresh name, and it is not asked whether that one is taken too. Main
statement: no two blocks are written under one name exactly when the names of attached
blocks are distinct, no fresh name is that of an attached block or of a builder before,
and different names have different written forms.
-/

namespace GraphQuery

/-! ## Labels in the text -/

/-- What is written for a block starts with its label. -/
theorem Block.exists_rest_of_compileWith {b : Block} {nested : String → Compiled (List Fragment)} {f : Fragment}
    (h : b.compileWith nested = .ok f) :
    ∃ name rest, b.blockName = .ok name ∧ f = .text (b.labelText name) ++ rest := by
  obtain ⟨head, selection, fs, headed, _, _, rfl⟩ := compileWith_eq_ok.1 h
  obtain ⟨label, parameters, directives, labelled, _, _, rfl⟩ := head_eq_ok.1 headed
  obtain ⟨name, named, rfl⟩ := label_eq_ok.1 labelled
  refine ⟨name, parameters ++ directives ++ .text " \x7b " ++ bodyFragment selection fs ++ .text " \x7d", named, ?_⟩
  simp only [Fragment.append_assoc]

namespace Builder

/-- What is written for a named block starts with the written form of its name, after the variable
    that it sets. -/
theorem exists_rest_of_compile {q : Builder} (named : q.isVariable = false) {f : Fragment}
    (h : q.compile = .ok f) :
    q.root.blockName = .ok (Predicate.escape q.blockName) ∧
      ∃ rest, f = .text (q.root.labelText (Predicate.escape q.blockName)) ++ rest := by
  obtain ⟨name, rest, found, rfl⟩ := Block.exists_rest_of_compileWith h
  have spelled := Block.blockName_eq_ok.1 found
  rw [if_neg (by rw [show q.root.isVariable = false from named]; simp)] at spelled
  obtain ⟨rfl, _⟩ := spelled
  exact ⟨found, rest, rfl⟩

end Builder

namespace Request

/-! ## Names in order -/

/-- The blocks of a request that have names of their own. -/
def namedBlocks (builders : List Builder) : List Builder := (blocks builders).filter (!·.isVariable)

/-- The names of the named blocks, fresh ones among them. -/
def names (builders : List Builder) : List String := (namedBlocks builders).map (·.blockName)

/-- The names of the named blocks as they are written. -/
def labels (builders : List Builder) : List String :=
  (namedBlocks builders).map fun q => Predicate.escape q.blockName

/-- The names under which builders are written, when some names are used. -/
def namesFrom (used : List String) : List (Builder × Nat) → List String
  | [] => []
  | (q, index) :: rest =>
    let name := if used.contains q.blockName then freshName q.blockName index else q.blockName
    name :: namesFrom (name :: used) rest

theorem map_blockName_operationsFrom (first : List Builder) (index : Nat) (used : List String) (qs : List Builder) :
    (operationsFrom first index used qs).map (·.blockName) =
      namesFrom used ((qs.zipIdx index).filter fun e => !(e.1.isVariable || first.any (· == e.1))) := by
  induction qs generalizing index used with
  | nil => rfl
  | cons q qs ih =>
    rw [List.zipIdx_cons, operationsFrom]
    by_cases leads : (q.isVariable || first.any (· == q)) = true
    · rw [if_pos leads, List.filter_cons_of_neg (by rw [leads]; simp)]
      exact ih _ _
    · rw [if_neg leads, List.filter_cons_of_pos (by rw [Bool.eq_false_iff.2 leads]; rfl), namesFrom]
      dsimp only
      split
      · rw [List.map_cons, Builder.blockName_freshName, ih]
      · rw [List.map_cons, ih]

theorem map_blockName_operations (builders : List Builder) :
    (operations builders).map (·.blockName) = namesFrom (reserved (leading builders)) (answering builders) :=
  map_blockName_operationsFrom _ _ _ _

theorem WrittenAs.isVariable {e : Builder × Nat} {q : Builder} (h : WrittenAs e q) :
    q.isVariable = e.1.isVariable := by
  rcases h with rfl | rfl <;> rfl

theorem isVariable_of_forall₂ {es : List (Builder × Nat)} {qs : List Builder} (pairs : List.Forall₂ WrittenAs es qs)
    (data : ∀ e ∈ es, e.1.isVariable = false) : ∀ q ∈ qs, q.isVariable = false := by
  induction pairs with
  | nil => simp
  | cons written _ ih =>
    intro q member
    rcases List.mem_cons.1 member with rfl | inside
    · rw [written.isVariable]
      exact data _ (by simp)
    · exact ih (fun e later => data e (List.mem_cons_of_mem _ later)) q inside

theorem isVariable_of_mem_operations {builders : List Builder} {q : Builder} (member : q ∈ operations builders) :
    q.isVariable = false := by
  refine isVariable_of_forall₂ (forall₂_operationsFrom _ _ _ _) (fun e inside => ?_) q member
  have kept := (List.mem_filter.1 inside).2
  simp only [Bool.not_eq_true', Bool.or_eq_false_iff] at kept
  exact kept.1

theorem namedBlocks_eq (builders : List Builder) :
    namedBlocks builders = (leading builders).filter (!·.isVariable) ++ operations builders := by
  have data : (operations builders).filter (!·.isVariable) = operations builders := by
    refine List.filter_eq_self.2 fun q member => ?_
    rw [isVariable_of_mem_operations member]
    rfl
  rw [namedBlocks, blocks, List.filter_append, data]

theorem names_eq (builders : List Builder) :
    names builders =
      reserved (leading builders) ++ namesFrom (reserved (leading builders)) (answering builders) := by
  rw [names, namedBlocks_eq, List.map_append, map_blockName_operations, reserved]

/-! ## Names of attached blocks -/

/-- What the names of named leading blocks satisfy is what those of the blocks that lead satisfy: a
    block that is left out has the name of the equal one that is kept. -/
theorem exists_leading_iff {builders : List Builder} {P : String → Prop} :
    (∃ b ∈ leading builders, b.isVariable = false ∧ P b.blockName) ↔
      ∃ a, Leads builders a ∧ a.isVariable = false ∧ P a.blockName := by
  obtain ⟨_, _, holds, only⟩ := walk_leading builders
  constructor
  · rintro ⟨b, member, named, found⟩
    exact ⟨b, (only b member).resolve_left (by simp), named, found⟩
  · rintro ⟨a, leads, named, found⟩
    rcases holds a leads with member | ⟨p, member, equal⟩
    · exact ⟨a, member, named, found⟩
    · obtain ⟨sameName, sameKind⟩ := Builder.named_of_beq equal
      exact ⟨p, member, sameKind.trans named, sameName ▸ found⟩

/-- The reserved names are those of the named blocks that are attached to a builder. -/
theorem mem_reserved_iff {builders : List Builder} {n : String} :
    n ∈ reserved (leading builders) ↔ ∃ a, Leads builders a ∧ a.isVariable = false ∧ a.blockName = n := by
  rw [← exists_leading_iff (P := (· = n))]
  simp [reserved, and_assoc]

/-! ## Fresh names that are taken -/

theorem freshName_ne (name : String) (index : Nat) : freshName name index ≠ name := by
  intro same
  have lengths := congrArg (fun s : String => s.toList.length) same
  simp only [toList_freshName, List.length_append, List.length_cons] at lengths
  omega

theorem pairwise_answering (builders : List Builder) : (answering builders).Pairwise fun d e => d.2 ≠ e.2 := by
  have places : (builders.zipIdx.map (·.2)).Pairwise (· ≠ ·) := by
    rw [List.zipIdx_map_snd]
    exact List.nodup_range'
  exact (List.pairwise_map.1 places).filter _

/-- The name under which a builder is written when some names are used. -/
def nameOf (used : List String) (e : Builder × Nat) : String :=
  if used.contains e.1.blockName then freshName e.1.blockName e.2 else e.1.blockName

theorem namesFrom_cons (used : List String) (e : Builder × Nat) (es : List (Builder × Nat)) :
    namesFrom used (e :: es) = nameOf used e :: namesFrom (nameOf used e :: used) es := rfl

theorem nameOf_not_mem_iff {used : List String} {e : Builder × Nat} :
    nameOf used e ∉ used ↔ (nameOf used e ≠ e.1.blockName → freshName e.1.blockName e.2 ∉ used) := by
  unfold nameOf
  split
  · exact ⟨fun fresh _ => fresh, fun fresh => fresh (freshName_ne _ _)⟩
  · next free =>
    rw [List.contains_iff_mem] at free
    exact ⟨fun _ other => absurd rfl other, fun _ => free⟩

/-- A fresh name is not yet taken when it is not used and not the own name of the builder before:
    the fresh name of that builder ends with another number. -/
theorem freshName_not_mem_cons_iff {used : List String} {d e : Builder × Nat} (apart : d.2 ≠ e.2) :
    freshName e.1.blockName e.2 ∉ nameOf used d :: used ↔
      freshName e.1.blockName e.2 ∉ used ∧ d.1.blockName ≠ freshName e.1.blockName e.2 := by
  rw [List.mem_cons, not_or, and_comm]
  refine and_congr_right fun fresh => ?_
  unfold nameOf
  split
  · next taken =>
    rw [List.contains_iff_mem] at taken
    refine ⟨fun _ same => fresh (same ▸ taken), fun _ same => apart (index_eq_of_freshName same).symm⟩
  · exact ne_comm

theorem nodup_cons_and_fresh_iff {n : String} {ns used : List String} :
    ((n :: ns).Nodup ∧ ∀ m ∈ n :: ns, m ∉ used) ↔ n ∉ used ∧ ns.Nodup ∧ ∀ m ∈ ns, m ∉ n :: used := by
  rw [List.nodup_cons, List.forall_mem_cons]
  constructor
  · rintro ⟨⟨fresh, distinct⟩, own, later⟩
    refine ⟨own, distinct, fun m member inside => ?_⟩
    rcases List.mem_cons.1 inside with rfl | inside
    · exact fresh member
    · exact later m member inside
  · rintro ⟨own, distinct, later⟩
    refine ⟨⟨fun member => later _ member (by simp), distinct⟩, own, fun m member inside => ?_⟩
    exact later m member (List.mem_cons_of_mem _ inside)

/-- Names are distinct and not used before exactly when no fresh name is used before or is the own
    name of an earlier builder. -/
theorem nodup_namesFrom_iff {es : List (Builder × Nat)} (apart : es.Pairwise fun d e => d.2 ≠ e.2)
    (used : List String) :
    ((namesFrom used es).Nodup ∧ ∀ n ∈ namesFrom used es, n ∉ used) ↔
      ∀ k e n, es[k]? = some e → (namesFrom used es)[k]? = some n → n ≠ e.1.blockName →
        freshName e.1.blockName e.2 ∉ used ∧ ∀ d ∈ es.take k, d.1.blockName ≠ freshName e.1.blockName e.2 := by
  induction es generalizing used with
  | nil => simp [namesFrom]
  | cons d es ih =>
    obtain ⟨first, rest⟩ := List.pairwise_cons.1 apart
    rw [namesFrom_cons, nodup_cons_and_fresh_iff, ih rest, nameOf_not_mem_iff]
    constructor
    · rintro ⟨own, later⟩ k e n here named renamed
      cases k with
      | zero =>
        cases here
        cases named
        exact ⟨own renamed, by simp⟩
      | succ k =>
        obtain ⟨fresh, before⟩ := later k e n here named renamed
        rw [freshName_not_mem_cons_iff (first e (List.mem_of_getElem? here))] at fresh
        exact ⟨fresh.1, List.forall_mem_cons.2 ⟨fresh.2, before⟩⟩
    · intro all
      refine ⟨fun renamed => (all 0 d _ rfl rfl renamed).1, fun k e n here named renamed => ?_⟩
      obtain ⟨fresh, before⟩ := all (k + 1) e n here named renamed
      rw [List.take_succ_cons, List.forall_mem_cons] at before
      rw [freshName_not_mem_cons_iff (first e (List.mem_of_getElem? here))]
      exact ⟨⟨fresh, before.1⟩, before.2⟩

/-! ## Labels -/

theorem labels_eq_map (builders : List Builder) : labels builders = (names builders).map Predicate.escape := by
  rw [labels, names, List.map_map]
  rfl

theorem nodup_names_iff (builders : List Builder) :
    (names builders).Nodup ↔
      (reserved (leading builders)).Nodup ∧
      ∀ k e q, (answering builders)[k]? = some e → (operations builders)[k]? = some q →
        q.blockName ≠ e.1.blockName →
        freshName e.1.blockName e.2 ∉ reserved (leading builders) ∧
          ∀ d ∈ (answering builders).take k, d.1.blockName ≠ freshName e.1.blockName e.2 := by
  have apart : (∀ a ∈ reserved (leading builders),
      ∀ b ∈ namesFrom (reserved (leading builders)) (answering builders), a ≠ b) ↔
      ∀ n ∈ namesFrom (reserved (leading builders)) (answering builders), n ∉ reserved (leading builders) :=
    ⟨fun apart n later first => apart n first n later rfl, fun fresh a first b later same => fresh b later (same ▸ first)⟩
  rw [names_eq, List.nodup_append, apart, nodup_namesFrom_iff (pairwise_answering builders),
    ← map_blockName_operations]
  refine and_congr_right fun _ => forall_congr' fun k => forall_congr' fun e => ?_
  rw [List.getElem?_map]
  constructor
  · exact fun each q here found renamed => each _ here (by rw [found]; rfl) renamed
  · intro each n here found renamed
    obtain ⟨q, written, rfl⟩ := Option.map_eq_some_iff.1 found
    exact each q here written renamed

/-- A named block of a request is written under its label. -/
theorem exists_rest_of_mem_namedBlocks {builders : List Builder} {query : CompiledQuery}
    (h : compile builders = .ok query) {q : Builder} (member : q ∈ namedBlocks builders) :
    q.root.blockName = .ok (Predicate.escape q.blockName) ∧
      ∃ rest, q.compile = .ok (.text (q.root.labelText (Predicate.escape q.blockName)) ++ rest) := by
  obtain ⟨inside, named⟩ := List.mem_filter.1 member
  obtain ⟨_, written, _⟩ := compile_eq_ok.1 h
  obtain ⟨fs, each, _⟩ := body_eq_ok.1 written
  obtain ⟨f, _, compiled⟩ := Compiled.exists_ok_of_mem each inside
  obtain ⟨found, rest, rfl⟩ := Builder.exists_rest_of_compile (by simpa using named) compiled
  exact ⟨found, rest, compiled⟩

/-- A request is written as its blocks, each named one under its label. The labels are distinct exactly when
    attached named blocks have distinct names, the fresh name of a renamed builder is neither the name
    of an attached block nor that of a builder before it, and different names are written in
    different ways. -/
theorem nodup_labels_iff {builders : List Builder} {query : CompiledQuery} (h : compile builders = .ok query) :
    (∃ fs, (blocks builders).mapM Builder.compile = .ok fs ∧ query.text = textOf builders query.declarations fs) ∧
    (∀ q ∈ namedBlocks builders, q.root.blockName = .ok (Predicate.escape q.blockName) ∧
      ∃ rest, q.compile = .ok (.text (q.root.labelText (Predicate.escape q.blockName)) ++ rest)) ∧
    ((labels builders).Nodup ↔
      (reserved (leading builders)).Nodup ∧
      (∀ k e q, (answering builders)[k]? = some e → (operations builders)[k]? = some q →
        q.blockName ≠ e.1.blockName →
        freshName e.1.blockName e.2 ∉ reserved (leading builders) ∧
          ∀ d ∈ (answering builders).take k, d.1.blockName ≠ freshName e.1.blockName e.2) ∧
      ∀ s ∈ names builders, ∀ t ∈ names builders, Predicate.escape s = Predicate.escape t → s = t) := by
  obtain ⟨first, rest, _, _, each, text⟩ := exists_fragments h
  refine ⟨⟨first ++ rest, each, text⟩, fun q member => exists_rest_of_mem_namedBlocks h member, ?_⟩
  rw [labels_eq_map, ← and_assoc, ← nodup_names_iff]
  constructor
  · intro distinct
    have namesDistinct := distinct.of_map
    exact ⟨namesDistinct, (List.nodup_map_iff_inj_on namesDistinct).1 distinct⟩
  · rintro ⟨distinct, faithful⟩
    exact (List.nodup_map_iff_inj_on distinct).2 faithful

/-- A query over all nodes with a name. -/
def named (n : String) : Builder := (Builder.query (.has (KeyMap.ofList [("name", ())]))).name n

/-- Three blocks of one name, of which the first is attached to the second. -/
def mains : List Builder := [(named "main").attach ((named "main").as "x"), named "main"]

theorem nodup_labels_mains :
    ∃ query, compile mains = .ok query ∧ labels mains = ["main", "main_0", "main_1"] ∧
      (reserved (leading mains)).Nodup ∧
      (∀ s ∈ names mains, ∀ t ∈ names mains, Predicate.escape s = Predicate.escape t → s = t) ∧
      ∀ q ∈ namedBlocks mains, ∃ rest,
        q.compile = .ok (.text (q.root.labelText (Predicate.escape q.blockName)) ++ rest) := by
  have succeeds : (compile mains).isOk = true := by decide +kernel
  obtain ⟨query, compiled⟩ := Compiled.exists_of_isOk succeeds
  obtain ⟨_, written, distinct⟩ := nodup_labels_iff compiled
  have spelled : labels mains = ["main", "main_0", "main_1"] := by decide +kernel
  obtain ⟨attached, _, faithful⟩ := distinct.1 (by rw [spelled]; decide)
  exact ⟨query, compiled, spelled, attached, faithful, fun q member => (written q member).2⟩

/-- Two blocks of one name after a block with the name that the second of them is given. -/
def colliding : List Builder := [named "a_2", named "a", named "a"]

theorem labels_colliding :
    (compile colliding).toOption.map (·.text) = some
      "query A_2_A_A_2() \x7b a_2(func: has(name)) \x7b  \x7d a(func: has(name)) \x7b  \x7d a_2(func: has(name)) \x7b  \x7d \x7d" ∧
    labels colliding = ["a_2", "a", "a_2"] ∧ ¬ (labels colliding).Nodup := by
  have spelled : labels colliding = ["a_2", "a", "a_2"] := by decide +kernel
  refine ⟨by decide +kernel, spelled, ?_⟩
  rw [spelled]
  decide

end Request

end GraphQuery
