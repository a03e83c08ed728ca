import GraphQuery.Client.Execution
import GraphQuery.Proofs.BlockNames

/-!
# The answer to a single block

A client that runs one block keeps the name of its builder, and reads the answer under
that name. Main statement: this is the label under which the block is written exactly
when no attached block has the name, which would have the block renamed, and the name is
written as it is. Otherwise the block of the answer that is read is an attached one, or
there is none.
-/

namespace GraphQuery

/-! ## Single blocks -/

namespace Request

theorem leads_singleton_iff {q a : Builder} (named : q.isVariable = false) : Leads [q] a ↔ a.AttachedTo q := by
  simp [Leads, named]

theorem attachedTo_of_mem_leading {q a : Builder} (named : q.isVariable = false) (member : a ∈ leading [q]) :
    a.AttachedTo q :=
  (leads_singleton_iff named).1 (((walk_leading [q]).only a member).resolve_left (by simp))

theorem mem_reserved_singleton_iff {q : Builder} (named : q.isVariable = false) {n : String} :
    n ∈ reserved (leading [q]) ↔ ∃ a : Builder, a.AttachedTo q ∧ a.isVariable = false ∧ a.blockName = n := by
  simp only [mem_reserved_iff, leads_singleton_iff named]

/-- A single block follows the blocks attached to it, under a fresh name if one of those has its name. -/
theorem operations_singleton {q : Builder} (named : q.isVariable = false) :
    operations [q] = [if q.blockName ∈ reserved (leading [q]) then q.name (freshName q.blockName 0) else q] := by
  have fresh : (leading [q]).any (· == q) = false := by
    rw [List.any_eq_false]
    intro a member
    rw [Builder.beq_eq_false_of_attachedTo (attachedTo_of_mem_leading named member)]
    simp
  rw [operations]
  rw [operationsFrom, named, fresh, Bool.or_self, if_neg (by simp)]
  simp only [List.contains_iff_mem]
  split <;> rfl

/-- A single block is written under the name of its builder exactly when no attached block has that
    name and it is written as it is: the written form of a fresh name is never the old name. -/
theorem exists_operation {q : Builder} (named : q.isVariable = false) :
    ∃ own, operations [q] = [own] ∧ WrittenAs (q, 0) own ∧
      (Predicate.escape own.blockName = q.blockName ↔
        (∀ a : Builder, a.AttachedTo q → a.isVariable = false → a.blockName ≠ q.blockName) ∧
          Predicate.escape q.blockName = q.blockName) := by
  refine ⟨_, operations_singleton named, ?_⟩
  by_cases taken : q.blockName ∈ reserved (leading [q])
  · obtain ⟨a, attached, data, same⟩ := (mem_reserved_singleton_iff named).1 taken
    rw [if_pos taken, Builder.blockName_freshName]
    exact ⟨.inr rfl, fun same => absurd same (escape_freshName_ne _ _), fun free => absurd same (free.1 a attached data)⟩
  · rw [if_neg taken]
    refine ⟨.inl rfl, fun plain => ⟨fun a attached data same => ?_, plain⟩, fun free => free.2⟩
    exact taken ((mem_reserved_singleton_iff named).2 ⟨a, attached, data, same⟩)

end Request

/-! ## Answers -/

namespace Client

/-- A response that has what was found for each named block of a request, under the label of the
    block. Where blocks share a label, it has what was found for one of them. -/
def Answers (builders : List Builder) (data : Builder → Json) (r : QueryResponse) : Prop :=
  ∃ members, r.json = .ok (.object members) ∧
    (∀ b ∈ Request.namedBlocks builders, ∃ v, members.lookup (Predicate.escape b.blockName) = some v) ∧
    ∀ n v, members.lookup n = some v →
      ∃ b ∈ Request.namedBlocks builders, Predicate.escape b.blockName = n ∧ v = data b

/-- The names of the members of an object. -/
def memberNames : Json → List String
  | .object members => members.map (·.1)
  | _ => []

theorem exists_members {r : Result Json} {k : String} {ks : List String}
    (h : r.toOption.map memberNames = some (k :: ks)) :
    ∃ members, r = .ok (.object members) ∧ memberNames (.object members) = k :: ks := by
  obtain ⟨j, parsed, names⟩ := Option.map_eq_some_iff.1 h
  cases r with
  | error e => cases parsed
  | ok i =>
    cases parsed
    cases j with
    | object members => exact ⟨members, rfl, names⟩
    | _ => cases names

/-- An object with the labels of the named blocks as keys is an answer to the request. -/
theorem answers_of_keys {builders : List Builder} {r : QueryResponse} {members : List (String × Json)}
    (parsed : r.json = .ok (.object members))
    (keys : ∀ n, n ∈ memberNames (.object members) ↔ n ∈ Request.labels builders) :
    Answers builders (fun b => (members.lookup (Predicate.escape b.blockName)).getD .null) r := by
  have found n : n ∈ Request.labels builders ↔ ∃ v, members.lookup n = some v := by
    rw [← keys, ← Option.isSome_iff_exists, List.lookup_isSome_iff]
    simp only [memberNames, List.mem_map, beq_iff_eq, eq_comm (a := n)]
  refine ⟨members, parsed, fun b member => (found _).1 (List.mem_map_of_mem member), fun n v present => ?_⟩
  obtain ⟨b, member, rfl⟩ := List.mem_map.1 ((found n).2 ⟨v, present⟩)
  refine ⟨b, member, rfl, ?_⟩
  dsimp only
  rw [present]
  rfl

/-- A block read from an answer is what was found for some block with that label. -/
theorem Answers.block {builders : List Builder} {data : Builder → Json} {r : QueryResponse}
    (answers : Answers builders data r) (n : String) {α : Type} (decoder : Json.Decoder α) :
    (∃ b ∈ Request.namedBlocks builders, Predicate.escape b.blockName = n ∧
      r.block n decoder = decoded (decoder (.ofJson (data b)))) ∨
    (∀ b ∈ Request.namedBlocks builders, Predicate.escape b.blockName ≠ n) ∧
      r.block n decoder = .error (.missingBlock n) := by
  obtain ⟨members, parsed, has, only⟩ := answers
  rw [QueryResponse.block, parsed]
  dsimp only
  cases found : members.lookup n with
  | none =>
    refine .inr ⟨?_, rfl⟩
    rintro b member rfl
    obtain ⟨v, present⟩ := has b member
    rw [found] at present
    cases present
  | some v =>
    obtain ⟨b, member, label, rfl⟩ := only n v found
    exact .inl ⟨b, member, label, rfl⟩

/-! ## The answer to a single block -/

/-- What a client makes of what comes back for a request. -/
def answered (name : Option String) : Except (List String) RawResponse → Result QueryResponse
  | .error reasons => .error (.transport reasons)
  | .ok raw => .ok ⟨name, raw⟩

theorem executeWith_of_compile {m : Type → Type} [Monad m] [LawfulMonad m] (executor : Executor m)
    {builders : List Builder} {query : CompiledQuery} (h : Request.compile builders = .ok query) (options : Options) :
    executeWith executor builders options =
      answered (singleBlockName builders) <$> executor.query (.ofCompiled query options) := by
  rw [executeWith, h, map_eq_pure_bind]
  refine bind_congr fun r => ?_
  cases r <;> rfl

/-- A client that runs one block looks for the name of its builder in the answer. The block is written last,
    and it has this label exactly when no block attached to it has its name and the name is written as it is. Then
    the data of the block is decoded, unless an attached block is written in the same way; else
    it is the data of an attached block with that label, or there is no such block. -/
theorem execute_single {m : Type → Type} [Monad m] [LawfulMonad m] (executor : Executor m) {q : Builder}
    (named : q.isVariable = false) {query : CompiledQuery} (h : Request.compile [q] = .ok query) :
    (∀ config, execute executor config q =
      answered (some q.blockName) <$> executor.query (.ofCompiled query config.queryOptions)) ∧
    (∀ options, executeWith executor [q] options =
      answered (some q.blockName) <$> executor.query (.ofCompiled query options)) ∧
    ∃ own rest first, Request.blocks [q] = Request.leading [q] ++ [own] ∧ Request.WrittenAs (q, 0) own ∧
      own.compile = .ok (.text (own.root.labelText (Predicate.escape own.blockName)) ++ rest) ∧
      (Request.leading [q]).mapM Builder.compile = .ok first ∧
      query.text = Request.textOf [q] query.declarations
        (first ++ [.text (own.root.labelText (Predicate.escape own.blockName)) ++ rest]) ∧
      (Predicate.escape own.blockName = q.blockName ↔
        (∀ a : Builder, a.AttachedTo q → a.isVariable = false → a.blockName ≠ q.blockName) ∧
          Predicate.escape q.blockName = q.blockName) ∧
      ∀ data raw, Answers [q] data ⟨some q.blockName, raw⟩ → ∀ {α : Type} (decoder : Json.Decoder α),
        (Predicate.escape own.blockName = q.blockName ∧
          (QueryResponse.mk (some q.blockName) raw).decode decoder = decoded (decoder (.ofJson (data own)))) ∨
        (∃ a ∈ Request.leading [q], a.AttachedTo q ∧ a.isVariable = false ∧
          Predicate.escape a.blockName = q.blockName ∧
          (QueryResponse.mk (some q.blockName) raw).decode decoder = decoded (decoder (.ofJson (data a)))) ∨
        (Predicate.escape own.blockName ≠ q.blockName ∧
          (∀ a : Builder, a.AttachedTo q → a.isVariable = false → Predicate.escape a.blockName ≠ q.blockName) ∧
          (QueryResponse.mk (some q.blockName) raw).decode decoder = .error (.missingBlock q.blockName)) := by
  have single : singleBlockName [q] = some q.blockName := by rw [singleBlockName, named]; rfl
  have run options := executeWith_of_compile executor h options
  rw [single] at run
  refine ⟨fun config => run config.queryOptions, run, ?_⟩
  obtain ⟨own, alone, written, label⟩ := Request.exists_operation named
  have last : own ∈ Request.namedBlocks [q] := by
    rw [Request.namedBlocks_eq, alone]
    simp
  obtain ⟨_, rest, compiled⟩ := Request.exists_rest_of_mem_namedBlocks h last
  obtain ⟨first, fs, leads, each, _, text⟩ := Request.exists_fragments h
  rw [alone] at each
  obtain rfl : fs = [.text (own.root.labelText (Predicate.escape own.blockName)) ++ rest] := by
    refine Except.ok.inj (each.symm.trans ?_)
    rw [List.mapM_cons, compiled]
    rfl
  refine ⟨own, rest, first, by rw [Request.blocks, alone], written, compiled, leads, text, label,
    fun data raw answers α decoder => ?_⟩
  rcases answers.block q.blockName decoder with ⟨b, member, labelled, found⟩ | ⟨free, missing⟩
  · rw [Request.namedBlocks_eq, alone, List.mem_append, List.mem_singleton, List.mem_filter] at member
    rcases member with ⟨leading, data⟩ | rfl
    · have attached := Request.attachedTo_of_mem_leading named leading
      exact .inr (.inl ⟨b, leading, attached, by simpa using data, labelled, found⟩)
    · exact .inl ⟨labelled, found⟩
  · refine .inr (.inr ⟨free own last, fun a attached data same => ?_, missing⟩)
    obtain ⟨b, leading, data, labelled⟩ := Request.exists_leading_iff (P := (Predicate.escape · = q.blockName)).2
      ⟨a, (Request.leads_singleton_iff named).2 attached, data, same⟩
    refine free b ?_ labelled
    rw [Request.namedBlocks_eq]
    exact List.mem_append_left _ (List.mem_filter.2 ⟨leading, by rw [data]; rfl⟩)

/-- An executor that gives one document as the answer to everything. -/
def canned (document : String) : Executor Id where
  query _ := .ok ⟨document.toUTF8.toList, ∅⟩
  mutate _ := .ok ⟨document.toUTF8.toList, ∅⟩

/-- A block with one of another name attached. -/
def sided : Builder := (Request.named "main").attach ((Request.named "side").as "x")

/-- An answer to a block with one of another name attached. -/
def sidedAnswer : String := "\x7b\"side\":[\"attached\"],\"main\":[\"own\"]\x7d"

theorem execute_single_sided :
    ∃ query, Request.compile [sided] = .ok query ∧ sided.isVariable = false ∧
      ∃ own rest data r, execute (canned sidedAnswer) .default sided = .ok r ∧ Answers [sided] data r ∧
        Request.blocks [sided] = Request.leading [sided] ++ [own] ∧
        own.compile = .ok (.text (own.root.labelText "main") ++ rest) ∧
        r.decode (.array .string) = decoded (Json.Decoder.array .string (.ofJson (data own))) := by
  have succeeds : (Request.compile [sided]).isOk = true := by decide +kernel
  obtain ⟨query, compiled⟩ := Compiled.exists_of_isOk succeeds
  obtain ⟨run, _, own, rest, _, written, _, spelled, _, _, _, read⟩ := execute_single (canned sidedAnswer) rfl compiled
  obtain ⟨_, alone⟩ := List.append_inj' written rfl
  have operation : (Request.operations [sided]).map (Predicate.escape ·.blockName) = ["main"] := by decide +kernel
  have label : Predicate.escape own.blockName = "main" := by
    rw [alone] at operation
    exact List.singleton_inj.1 operation
  have others : ∀ a ∈ Request.leading [sided], Predicate.escape a.blockName ≠ "main" := by decide +kernel
  have names : (QueryResponse.mk (some "main") ⟨sidedAnswer.toUTF8.toList, ∅⟩).json.toOption.map memberNames =
      some ["main", "side"] := by decide +kernel
  obtain ⟨members, parsed, keys⟩ := exists_members names
  have labels : Request.labels [sided] = ["side", "main"] := by decide +kernel
  have all n : n ∈ memberNames (.object members) ↔ n ∈ Request.labels [sided] := by
    rw [keys, labels, List.mem_pair, List.mem_pair, or_comm]
  have answers := answers_of_keys parsed all
  rw [label] at spelled
  refine ⟨query, compiled, rfl, own, rest, _, _, run .default, answers, written, spelled, ?_⟩
  rcases read _ _ answers (.array .string) with ⟨_, found⟩ | ⟨a, member, _, _, same, _⟩ | ⟨apart, _⟩
  · exact found
  · exact absurd same (others a member)
  · exact absurd label apart

/-- A block with another of its name attached. -/
def doubled : Builder := (Request.named "main").attach ((Request.named "main").as "x")

/-- An answer to a block with another of its name attached. -/
def doubledAnswer : String := "\x7b\"main\":[\"attached\"],\"main_0\":[\"own\"]\x7d"

/-- The block is written under a fresh name, and the data of the other one is decoded. -/
theorem decode_doubled :
    (Request.compile [doubled]).toOption.map (·.text) = some
      "query Main_0() \x7b x as main(func: has(name)) \x7b  \x7d main_0(func: has(name)) \x7b  \x7d \x7d" ∧
    (Request.operations [doubled]).map (Predicate.escape ·.blockName) = ["main_0"] ∧
    singleBlockName [doubled] = some "main" ∧
    ((execute (canned doubledAnswer) .default doubled).run.bind (·.decode (.array .string))).toOption =
      some ["attached"] := by
  refine ⟨by decide +kernel, by decide +kernel, by decide +kernel, by decide +kernel⟩

end Client

end GraphQuery
