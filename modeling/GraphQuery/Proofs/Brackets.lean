import GraphQuery.Proofs.Nesting
import GraphQuery.Proofs.RequestBlocks
import GraphQuery.Proofs.Scan

/-!
# Braces of a request

No name, predicate or value can open or close a block. Main statement: without raw text
the braces in the body of a request spell the nesting of its blocks, whatever the blocks
are called and ask for, and no character that starts a text or escapes another is there.
-/

namespace GraphQuery

open Predicate (Quiet loud quiet_append)

/-! ## Without raw text -/

/-- A block whose expressions have no raw text and whose selection has only predicates in their
    written form. -/
def Block.RawFree (b : Block) : Prop :=
  (∀ e ∈ b.rootFilter.toList ++ b.orderExprs ++ b.facetExprs ++ b.filters ++ b.body.selection.exprs,
    e.verbatim = []) ∧
    ∀ written ∈ b.body.selection.predicates, ∃ p, written = Predicate.escape p

mutual

/-- A builder without raw text: its block, the nested blocks, and the attached builders. -/
def Builder.RawFree : Builder → Prop
  | ⟨root, children, attached⟩ =>
    root.RawFree ∧ (∀ e ∈ children.entries, ∀ b ∈ e.2, b.RawFree) ∧ Builder.AllRawFree attached

def Builder.AllRawFree : List Builder → Prop
  | [] => True
  | q :: qs => Builder.RawFree q ∧ Builder.AllRawFree qs

end

theorem Builder.allRawFree_iff {qs : List Builder} : AllRawFree qs ↔ ∀ q ∈ qs, q.RawFree := by
  induction qs with
  | nil => simp [AllRawFree]
  | cons q qs ih => simp [AllRawFree, ih]

theorem Builder.rawFree_of_mem_attached (q : Builder) (h : q.RawFree) : ∀ a ∈ q.attached, a.RawFree := by
  obtain ⟨root, children, attached⟩ := q
  exact allRawFree_iff.1 h.2.2

theorem Builder.rawFree_name (q : Builder) (n : String) (h : q.RawFree) : (q.name n).RawFree := by
  obtain ⟨root, children, attached⟩ := q
  exact h

/-- Reading fields from a text gives predicates in their written form. -/
theorem Selection.exists_escape_of_mem_ofBlob {blob written : String}
    (h : written ∈ (Selection.ofBlob blob).predicates) : ∃ p, written = Predicate.escape p := by
  obtain ⟨item, inside, held⟩ := List.mem_filterMap.1 h
  rcases List.mem_append.1 inside with none | inside
  · cases none
  · obtain ⟨found, member, rfl⟩ := List.mem_map.1 inside
    cases held
    obtain ⟨chars, listed, rfl⟩ := List.mem_map.1 member
    obtain ⟨piece, _, rfl⟩ := List.mem_map.1 (List.mem_filter.1 listed).1
    exact ⟨String.ofList piece, by rw [Predicate.escape, String.toList_ofList]⟩

/-! ## Bracket words -/

namespace BlockTree

mutual

/-- The bracket word of a block: a pair of braces around the words of the nested blocks. -/
def brackets : BlockTree → List Char
  | .endless _ => []
  | .block _ nested => '{' :: bracketsAll nested ++ ['}']

def bracketsAll : List BlockTree → List Char
  | [] => []
  | t :: ts => brackets t ++ bracketsAll ts

end

theorem bracketsAll_eq_flatMap (ts : List BlockTree) : bracketsAll ts = ts.flatMap brackets := by
  induction ts with
  | nil => rfl
  | cons t ts ih => rw [bracketsAll, ih, List.flatMap_cons]

mutual

theorem mem_brackets {t : BlockTree} {c : Char} (h : c ∈ t.brackets) : c = '{' ∨ c = '}' := by
  cases t with
  | endless key => cases h
  | block b nested =>
    rcases List.mem_cons.1 h with rfl | h
    · exact .inl rfl
    · rcases List.mem_append.1 h with inside | last
      · exact mem_bracketsAll inside
      · exact .inr (List.mem_singleton.1 last)

theorem mem_bracketsAll {ts : List BlockTree} {c : Char} (h : c ∈ bracketsAll ts) : c = '{' ∨ c = '}' := by
  cases ts with
  | nil => cases h
  | cons t ts =>
    rcases List.mem_append.1 h with first | rest
    · exact mem_brackets first
    · exact mem_bracketsAll rest

end

end BlockTree

/-! ## The scan for loud characters -/

namespace Scan

/-- The scan that finds the loud characters of texts and nothing in slots. -/
def noise : Scan Char where
  text s := s.toList.filter (· ∈ loud)
  slot _ := []
  text_append s t := by rw [String.toList_append, List.filter_append]

theorem noise_of_quiet {s : String} (h : Quiet s) : noise.text s = [] := by
  refine List.filter_eq_nil_iff.2 fun c member => ?_
  rw [decide_eq_true_eq]
  exact h c member

theorem silent_noise : noise.Silent := fun _ => noise_of_quiet

theorem flatMap_noise (vs : List Value) : vs.flatMap noise.slot = [] := by
  rw [List.flatMap_eq_nil_iff]
  exact fun _ _ => rfl

mutual

theorem inTree_noise (t : BlockTree) : noise.inTree t = t.brackets := by
  cases t with
  | endless key => rfl
  | block b nested =>
    have opens : noise.text " \x7b " = ['{'] := by decide
    have closes : noise.text " \x7d" = ['}'] := by decide
    rw [inTree, flatMap_noise, flatMap_noise, inTrees_noise nested, opens, closes]
    rfl

theorem inTrees_noise (ts : List BlockTree) : noise.inTrees ts = BlockTree.bracketsAll ts := by
  cases ts with
  | nil => rfl
  | cons t ts => rw [inTrees, inTree_noise t, inTrees_noise ts, BlockTree.bracketsAll]

end

theorem missesBlock_noise {b : Block} (h : b.RawFree) : noise.MissesBlock b := by
  obtain ⟨exprs, written⟩ := h
  constructor
  · intro e member s found
    have part : e ∈ b.rootFilter.toList ++ b.orderExprs ++ b.facetExprs ++ b.filters ++
        b.body.selection.exprs := by
      have root : ∀ e ∈ b.rootExprs, e ∈ b.rootFilter.toList := by
        intro e inside
        unfold Block.rootExprs at inside
        split at inside
        · exact inside
        · cases inside
      simp only [Block.headExprs, List.mem_append] at member ⊢
      rcases member with (((inRoot | h) | h) | h) | h
      · exact .inl (.inl (.inl (.inl (root e inRoot))))
      · exact .inl (.inl (.inl (.inr h)))
      · exact .inl (.inl (.inr h))
      · exact .inl (.inr h)
      · exact .inr h
    rw [exprs e part] at found
    cases found
  · intro w member
    obtain ⟨p, rfl⟩ := written w member
    exact noise_of_quiet (Predicate.quiet_escape p)

/-- Writing quiet texts into the slots of a fragment adds no loud characters. -/
theorem filter_render {write : Nat → Value → String} (quiet : ∀ i v, Quiet (write i v)) (f : Fragment) :
    (f.render write).toList.filter (· ∈ loud) = noise.run f := by
  obtain ⟨slots, tail⟩ := f
  have walk (start : Nat) : (Fragment.renderSlots write start slots).toList.filter (· ∈ loud) =
      slots.flatMap fun s => noise.text s.1 := by
    induction slots generalizing start with
    | nil => rfl
    | cons s slots ih =>
      rw [Fragment.renderSlots, String.toList_append, List.filter_append, ih, List.flatMap_cons,
        String.toList_append, List.filter_append]
      have written : (write start s.2).toList.filter (· ∈ loud) = [] := noise_of_quiet (quiet start s.2)
      rw [written, List.append_nil]
      rfl
  rw [Fragment.render, String.toList_append, List.filter_append, walk]
  simp [run, noise]

end Scan

/-! ## The body of a request -/

def Builder.tree (q : Builder) : BlockTree := q.root.tree q.children

theorem Builder.every_missesBlock {q : Builder} (h : q.RawFree) : q.tree.Every Scan.noise.MissesBlock := by
  obtain ⟨root, children, attached⟩ := q
  refine ⟨Scan.missesBlock_noise h.1, Registry.everyOf_treesTo (fun e entry b inside => ?_) _ _⟩
  exact Scan.missesBlock_noise (h.2.1 e entry b inside)

theorem Builder.noise_compile {q : Builder} (raw : q.RawFree) {f : Fragment} (h : q.compile = .ok f) :
    Scan.noise.run f = q.tree.brackets := by
  rw [Builder.compile, Block.compile_eq_compile_tree] at h
  rw [Scan.run_compileTree Scan.silent_noise h (every_missesBlock raw), Scan.inTree_noise]
  rfl

namespace Request

theorem quiet_variableName (index : Nat) : Quiet (variableName index) :=
  quiet_append (by decide) (Predicate.quiet_toString index)

theorem noise_body {builders : List Builder} (raw : ∀ q ∈ builders, q.RawFree) {f : Fragment}
    (h : body builders = .ok f) : Scan.noise.run f = BlockTree.bracketsAll ((blocks builders).map (·.tree)) := by
  obtain ⟨fs, each, rfl⟩ := body_eq_ok.1 h
  have free := forall_blocks Builder.rawFree_of_mem_attached Builder.rawFree_name raw
  rw [Scan.run_join Scan.noise (Scan.silent_noise _ (by decide)), BlockTree.bracketsAll_eq_flatMap,
    List.flatMap_map]
  exact Compiled.flatMap_of_mapM each fun q member g compiled => Builder.noise_compile (free q member) compiled

/-- The braces in the body of a request without raw text are the bracket word of its blocks, and no
    quote, backslash, caret or bar is in the body. -/
theorem braces_of_body {builders : List Builder} (raw : ∀ q ∈ builders, q.RawFree) {query : CompiledQuery}
    (h : compile builders = .ok query) :
    ∃ text : String,
      query.text = "query " ++ operationName (operations builders) ++ "(" ++
        String.intercalate ", " query.declarations ++ ") \x7b " ++ text ++ " \x7d" ∧
      text.toList.filter (fun c => c = '{' ∨ c = '}') =
        BlockTree.bracketsAll ((blocks builders).map (·.tree)) ∧
      ∀ c ∈ text.toList, c ∉ ['"', '\\', '^', '|'] := by
  obtain ⟨f, written, rfl⟩ := compile_eq_ok.1 h
  have spelled := noise_body raw written
  rw [← Scan.filter_render fun index _ => quiet_variableName index] at spelled
  refine ⟨f.render fun index _ => variableName index, rfl, ?_, ?_⟩
  · -- Braces are loud, and the loud characters of the body are braces already.
    rw [← spelled]
    refine List.filter_congr fun c member => decide_eq_decide.2 ⟨fun brace => ?_, fun isLoud => ?_⟩
    · rcases brace with rfl | rfl <;> decide
    · have inWord : c ∈ BlockTree.bracketsAll ((blocks builders).map (·.tree)) := by
        rw [← spelled]
        exact List.mem_filter.2 ⟨member, decide_eq_true isLoud⟩
      exact BlockTree.mem_bracketsAll inWord
  · intro c member other
    have loudOnes : ∀ d ∈ ['"', '\\', '^', '|'], d ∈ loud ∧ ¬ (d = '{' ∨ d = '}') := by decide
    have inWord : c ∈ BlockTree.bracketsAll ((blocks builders).map (·.tree)) := by
      rw [← spelled]
      exact List.mem_filter.2 ⟨member, decide_eq_true (loudOnes c other).1⟩
    exact (loudOnes c other).2 (BlockTree.mem_bracketsAll inWord)

/-- A builder with braces and quotes in its names, fields and values. -/
def hostile : Builder :=
  let start := Builder.query (.compare .eq (KeyMap.ofList [("na\x7dme", .string "\x7d \x7d"), ("\x7ba", .list [.other "\"\x7b"])]))
  let named := ((start.name "x->f\x7dilms\x7b").as "v\" \x7d \x7b").fields "uid na\x7bme\n\x7d: c \x7d as d"
  let nested := ((named.groupBy "\x7bg").cascade ["a|b", "\x7d"]).edgeWith "act\x7dor" [.facet (.key "si\\nce^")]
  nested.attach (Builder.varBlock (.not (.ofType "T\x7d \x7b")))

theorem rawFree_hostile : hostile.RawFree := by
  refine ⟨⟨by decide +kernel, fun _ => Selection.exists_escape_of_mem_ofBlob⟩, fun e entry b inside => ?_, ?_⟩
  · have plain : ∀ e ∈ hostile.children.entries, ∀ b ∈ e.2, b.body.selection.predicates = [] ∧
        ∀ e ∈ b.rootFilter.toList ++ b.orderExprs ++ b.facetExprs ++ b.filters ++ b.body.selection.exprs,
          e.verbatim = [] := by decide +kernel
    obtain ⟨none, exprs⟩ := plain e entry b inside
    exact ⟨exprs, by rw [none]; simp⟩
  · have variableBlock : (Builder.varBlock (.not (.ofType "T\x7d \x7b"))).RawFree := by
      refine ⟨⟨by decide +kernel, fun _ none => ?_⟩, fun e none => ?_, trivial⟩
      · cases none
      · cases none
    exact ⟨variableBlock, trivial⟩

theorem braces_of_body_hostile :
    (∀ q ∈ [hostile], q.RawFree) ∧ ∃ query, compile [hostile] = .ok query ∧ ∃ text : String,
      query.text = "query " ++ operationName (operations [hostile]) ++ "(" ++
        String.intercalate ", " query.declarations ++ ") \x7b " ++ text ++ " \x7d" ∧
      text.toList.filter (fun c => c = '{' ∨ c = '}') = ['{', '}', '{', '{', '}', '}'] ∧
      ∀ c ∈ text.toList, c ∉ ['"', '\\', '^', '|'] := by
  have raw : ∀ q ∈ [hostile], q.RawFree := by
    intro q member
    rw [List.mem_singleton.1 member]
    exact rawFree_hostile
  refine ⟨raw, ?_⟩
  cases compiled : compile [hostile] with
  | error e =>
    have succeeds : (compile [hostile]).isOk = true := by decide +kernel
    rw [compiled] at succeeds
    cases succeeds
  | ok query =>
    obtain ⟨text, wrapped, spelled, clear⟩ := braces_of_body raw compiled
    have word : BlockTree.bracketsAll ((blocks [hostile]).map (·.tree)) = ['{', '}', '{', '{', '}', '}'] := by decide +kernel
    exact ⟨query, rfl, text, wrapped, spelled.trans word, clear⟩

end Request

end GraphQuery
