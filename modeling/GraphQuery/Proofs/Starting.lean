import GraphQuery.Proofs.Brackets
import GraphQuery.Proofs.Guarding
import GraphQuery.Proofs.Lexing
import GraphQuery.Proofs.Regrouping

/-!
# Where blocks start

A block at the top names the function that it starts from after its label. Main statement:
in a request that compiles every such block has a function, and the function is written
there exactly if it has something to write. Otherwise other parameters, a clause or the
body stand in its place.
-/

namespace GraphQuery

/-! ## First words -/

namespace Fragment

/-- The text of a fragment, with marks for its slots, starts with one of some words. -/
def StartsIn (words : List String) (f : Fragment) : Prop := ∃ w ∈ words, w.toList <+: f.display.toList

variable {words : List String} {f : Fragment}

theorem StartsIn.append (start : f.StartsIn words) (g : Fragment) : (f ++ g).StartsIn words := by
  obtain ⟨w, member, starts⟩ := start
  refine ⟨w, member, starts.trans ?_⟩
  rw [display_append, String.toList_append]
  exact List.prefix_append _ _

theorem startsIn_text {w : String} (member : w ∈ words) : (text w).StartsIn words :=
  ⟨w, member, (display_text w).symm ▸ List.prefix_rfl⟩

/-- With text before it a fragment starts in the longer words. -/
theorem StartsIn.after_text (start : f.StartsIn words) (s : String) :
    (text s ++ f).StartsIn (words.map (s ++ ·)) := by
  obtain ⟨w, member, starts⟩ := start
  refine ⟨s ++ w, List.mem_map_of_mem member, ?_⟩
  rw [display_append, display_text, String.toList_append, String.toList_append]
  exact (List.prefix_append_right_inj _).2 starts

/-- A join starts as the first part that is not empty. -/
theorem join_cons_of_not_isEmpty (sep : String) (filled : f.isEmpty = false) (fs : List Fragment) :
    ∃ rest, join sep (f :: fs) = f ++ rest := by
  rw [join_cons]
  cases others : (join sep fs).isEmpty with
  | true => exact ⟨∅, by rw [between_of_isEmpty_right others, append_empty]⟩
  | false => exact ⟨text sep ++ join sep fs, by rw [between_of_filled filled others, append_assoc]⟩

theorem startsIn_join {sep : String} {fs : List Fragment}
    (each : ∀ f ∈ fs, f.isEmpty = false → f.StartsIn words) (filled : (join sep fs).isEmpty = false) :
    (join sep fs).StartsIn words := by
  induction fs with
  | nil => cases filled
  | cons f fs ih =>
    by_cases blank : f.isEmpty = true
    · rw [join_cons, between_of_isEmpty blank] at filled ⊢
      exact ih (fun g member => each g (List.mem_cons_of_mem _ member)) filled
    · rw [Bool.not_eq_true] at blank
      obtain ⟨rest, same⟩ := join_cons_of_not_isEmpty sep blank fs
      rw [same]
      exact (each f (by simp) blank).append rest

/-- Text that starts in one of some words does not start with a word that differs from all of them. -/
theorem StartsIn.not_text_append (start : f.StartsIn words) {s : String}
    (differs : ∀ w ∈ words, ¬ w.toList <+: s.toList ∧ ¬ s.toList <+: w.toList) (g : Fragment) : f ≠ text s ++ g := by
  rintro rfl
  obtain ⟨w, member, starts⟩ := start
  have other : s.toList <+: (text s ++ g).display.toList := by
    rw [display_append, display_text, String.toList_append]
    exact List.prefix_append _ _
  rcases List.prefix_or_prefix_of_prefix starts other with inside | inside
  · exact (differs w member).1 inside
  · exact (differs w member).2 inside

end Fragment

/-! ## Parameters -/

namespace Block

/-- The keywords of the parameters besides the function. -/
def parameterWords : List String := ["first:", "offset:", "after:", "orderasc: ", "orderdesc: "]

theorem startsIn_clause {wanted : Bool} {keyword : String} {v : Value} {f : Fragment}
    (known : keyword ++ ":" ∈ parameterWords) (member : f ∈ Cursor.clause wanted keyword v) :
    f.StartsIn parameterWords := by
  cases wanted with
  | false => cases member
  | true =>
    rw [List.mem_singleton.1 member]
    exact (Fragment.startsIn_text known).append _

theorem startsIn_cursor {c : Cursor} (filled : c.compile.isEmpty = false) :
    c.compile.StartsIn parameterWords := by
  refine Fragment.startsIn_join (fun f member _ => ?_) filled
  rw [List.mem_append, List.mem_append] at member
  rcases member with (first | offset) | after
  · exact startsIn_clause (by decide) first
  · exact startsIn_clause (by decide) offset
  · exact startsIn_clause (by decide) after

theorem startsIn_order {o : OrderBy} {f : Fragment} (h : o.compile = .ok f) (filled : f.isEmpty = false) :
    f.StartsIn parameterWords := by
  obtain ⟨key, _, rfl⟩ := OrderBy.compile_eq_ok.1 h
  rw [Fragment.isEmpty_wrap] at filled
  have known : o.direction.keyword ++ ": " ∈ parameterWords := by
    cases o.direction <;> decide
  rw [Fragment.wrap_of_not_isEmpty filled]
  exact ((Fragment.startsIn_text known).append _).append _

/-- The parameters of a block besides its function. -/
def cursorAndOrders (b : Block) (orders : List Fragment) : List Fragment :=
  (if b.cursor.isWanted then [b.cursor.compile] else []) ++ orders

theorem startsIn_cursorAndOrders {b : Block} {orders : List Fragment}
    (run : b.orders.mapM OrderBy.compile = .ok orders) :
    ∀ p ∈ b.cursorAndOrders orders, p.isEmpty = false → p.StartsIn parameterWords := by
  intro p member filled
  rcases List.mem_append.1 member with inside | inside
  · split at inside
    · rw [List.mem_singleton.1 inside] at filled ⊢
      exact startsIn_cursor filled
    · cases inside
  · obtain ⟨o, _, compiled⟩ := Compiled.exists_of_mem_mapM run inside
    exact startsIn_order compiled filled

/-- The function of a block is the first of its parameters. -/
theorem parameters_of_filled {f : Fragment} (filled : f.isEmpty = false) (others : List Fragment) :
    ∃ more, (Fragment.join "," (f.wrap "func: " "" :: others)).wrap "(" ")" = .text "(func: " ++ f ++ more := by
  have start : (f.wrap "func: " "").isEmpty = false := by rw [Fragment.isEmpty_wrap, filled]
  obtain ⟨rest, joined⟩ := Fragment.join_cons_of_not_isEmpty "," start others
  have open' : (f.wrap "func: " "" ++ rest).isEmpty = false := by rw [Fragment.isEmpty_append, start, Bool.false_and]
  have bracket : Fragment.text "(func: " = .text "(" ++ .text "func: " := rfl
  refine ⟨.text "" ++ rest ++ .text ")", ?_⟩
  rw [joined, Fragment.wrap_of_not_isEmpty open', Fragment.wrap_of_not_isEmpty filled, bracket]
  simp only [Fragment.append_assoc]

/-- What stands right after the label of a block for which no function is written. -/
def otherWords : List String := " " :: parameterWords.map ("(" ++ ·)

/-- Without a function a block goes on with its other parameters, with a clause, or with its body. -/
theorem startsIn_rest {others : List Fragment} (each : ∀ p ∈ others, p.isEmpty = false → p.StartsIn parameterWords)
    (clauses body : Fragment) :
    ((Fragment.join "," others).wrap "(" ")" ++ (clauses.wrap " " "" ++ (.text " \x7b " ++ body))).StartsIn
      otherWords := by
  by_cases none : (Fragment.join "," others).isEmpty = true
  · rw [Fragment.wrap, if_pos none, Fragment.eq_empty_of_isEmpty none, Fragment.empty_append]
    by_cases bare : clauses.isEmpty = true
    · have brace : Fragment.text " \x7b " = .text " " ++ .text "\x7b " := rfl
      rw [Fragment.wrap, if_pos bare, Fragment.eq_empty_of_isEmpty bare, Fragment.empty_append, brace]
      exact ((Fragment.startsIn_text (List.mem_cons_self ..)).append _).append _
    · rw [Bool.not_eq_true] at bare
      rw [Fragment.wrap_of_not_isEmpty bare]
      exact (((Fragment.startsIn_text (List.mem_cons_self ..)).append _).append _).append _
  · rw [Bool.not_eq_true] at none
    obtain ⟨w, member, starts⟩ := (Fragment.startsIn_join each none).after_text "("
    have start : (Fragment.text "(" ++ .join "," others).StartsIn otherWords :=
      ⟨w, List.mem_cons_of_mem _ member, starts⟩
    rw [Fragment.wrap_of_not_isEmpty none]
    exact (start.append _).append _

/-- The text of a block after its label starts with its function if there is something to write for it,
    and with something else if not. -/
theorem start_of_compileWith {b : Block} {nested : String → Compiled (List Fragment)} {g : Fragment}
    (h : b.compileWith nested = .ok g) (top : b.isRoot = true) :
    ∃ e f label rest, b.rootFilter = some e ∧ e.compile = .ok f ∧ b.label = .ok label ∧ g = label ++ rest ∧
      (f.isEmpty = false → ∃ more, rest = .text "(func: " ++ f ++ more) ∧
      (f.isEmpty = true → rest.StartsIn otherWords) := by
  obtain ⟨head, selection, fs, headed, _, _, rfl⟩ := compileWith_eq_ok.1 h
  obtain ⟨label, parameters, directives, named, asked, directed, rfl⟩ := head_eq_ok.1 headed
  obtain ⟨root, orders, started, ordered, rfl⟩ := parameters_eq_ok.1 asked
  obtain ⟨facets, filter, _, _, rfl⟩ := directives_eq_ok.1 directed
  rcases rootClause_eq_ok.1 started with ⟨nested, _⟩ | ⟨_, e, f, present, compiled, rfl⟩
  · rw [top] at nested
    cases nested
  · rw [List.append_assoc, List.singleton_append, ← cursorAndOrders]
    generalize Fragment.join " " [facets, filter, b.groupClause, b.cascadeClause] = clauses
    generalize bodyFragment selection fs = body
    refine ⟨e, f, label, (Fragment.join "," (f.wrap "func: " "" :: b.cursorAndOrders orders)).wrap "(" ")" ++
      (clauses.wrap " " "" ++ (.text " \x7b " ++ (body ++ .text " \x7d"))), present, compiled, named, ?_, ?_, ?_⟩
    · simp only [Fragment.append_assoc]
    · intro filled
      obtain ⟨more, same⟩ := parameters_of_filled filled (b.cursorAndOrders orders)
      rw [same]
      exact ⟨_, Fragment.append_assoc _ _ _⟩
    · intro blank
      have dropped : (f.wrap "func: " "").isEmpty = true := by rw [Fragment.isEmpty_wrap, blank]
      rw [Fragment.join_cons, Fragment.between_of_isEmpty dropped]
      exact startsIn_rest (startsIn_cursorAndOrders ordered) clauses _

end Block

/-! ## The blocks of a request -/

namespace BlockTree

/-- The first tree is the second one or the tree of a block nested in it, at any depth. -/
inductive Inside : BlockTree → BlockTree → Prop where
  | self (t : BlockTree) : Inside t t
  | nested {t part : BlockTree} {b : Block} {parts : List BlockTree} (member : part ∈ parts) (rest : Inside t part) :
    Inside t (.block b parts)

/-- A tree inside one that is compiled is compiled, and its fragment is a part of the other. -/
theorem Inside.exists_partOf {t u : BlockTree} (inside : t.Inside u) {f : Fragment} (h : u.compile = .ok f) :
    ∃ g, t.compile = .ok g ∧ g.PartOf f := by
  induction inside generalizing f with
  | self => exact ⟨f, h, .refl f⟩
  | nested member rest ih =>
    rw [compile] at h
    obtain ⟨head, selection, fs, _, _, below, rfl⟩ := Block.compileWith_eq_ok.1 h
    rw [compileAll_eq_mapM] at below
    obtain ⟨p, listed, compiled⟩ := Compiled.exists_ok_of_mem below member
    obtain ⟨g, found, inner⟩ := ih compiled
    have inBody : p.PartOf (bodyFragment selection fs) :=
      (Fragment.PartOf.join listed).trans (.join (List.mem_cons_of_mem _ (List.mem_singleton_self _)))
    exact ⟨g, found, ((inner.trans inBody).append_left _).append_right _⟩

end BlockTree

namespace Request

/-- Every block at the top that is written in a request has a function that it starts from. The function
    is written between brackets after the label if it has something to write. Otherwise no function
    stands there. -/
theorem starts_iff {builders : List Builder} {query : CompiledQuery} (h : compile builders = .ok query) :
    ∃ body, query = envelope (operationName (operations builders)) body ∧
      ∀ q ∈ blocks builders, ∀ (b : Block) (nested : List BlockTree), (BlockTree.block b nested).Inside q.tree →
        b.isRoot = true → ∃ e f label rest, b.rootFilter = some e ∧ e.compile = .ok f ∧ b.label = .ok label ∧
          (BlockTree.block b nested).compile = .ok (label ++ rest) ∧ (label ++ rest).PartOf body ∧
          (e.isHollow Predicate.isLost = false → f.isEmpty = false ∧ ∃ more, rest = .text "(func: " ++ f ++ more) ∧
          (e.isHollow Predicate.isLost = true → ∀ more, rest ≠ .text "(func: " ++ more) := by
  obtain ⟨body, written, same⟩ := compile_eq_ok.1 h
  obtain ⟨fs, each, rfl⟩ := body_eq_ok.1 written
  refine ⟨_, same, fun q member b nested inside top => ?_⟩
  obtain ⟨f, listed, compiled⟩ := Compiled.exists_ok_of_mem each member
  rw [Builder.compile, Block.compile_eq_compile_tree] at compiled
  obtain ⟨g, built, part⟩ := inside.exists_partOf compiled
  have headed := built
  rw [BlockTree.compile] at headed
  obtain ⟨e, f, label, rest, present, func, named, rfl, starts, other⟩ := Block.start_of_compileWith headed top
  refine ⟨e, f, label, rest, present, func, named, built, part.trans (.join listed), ?_, ?_⟩
  · intro filled
    rw [← Expr.isEmpty_compile func] at filled
    exact ⟨filled, starts filled⟩
  · intro hollow
    rw [← Expr.isEmpty_compile func] at hollow
    exact (other hollow).not_text_append (by decide)

/-- A query that starts from a function. -/
def anywhere : Builder := (Builder.query (.has (KeyMap.ofList [("e-mail", ())]))).first 2

/-- A query with a function that has nothing to write. -/
def nowhere : Builder :=
  ((Builder.query (.not (.any [.raw "", .apply .uid (.predicate "<>")]))).name "void").first 3

theorem starts_iff_nowhere :
    ∃ query body, compile [anywhere, nowhere] = .ok query ∧
      query.text = "query Rootquery_Void($0:int, $1:int) \x7b rootQuery(func: has(<e-mail>),first:$0) \x7b  \x7d " ++
        "void(first:$1) \x7b  \x7d \x7d" ∧
      query = envelope (operationName (operations [anywhere, nowhere])) body ∧
      (∃ f label more : Fragment, anywhere.root.label = .ok label ∧ f.isEmpty = false ∧
        (label ++ (.text "(func: " ++ f ++ more)).PartOf body) ∧
      ∃ label rest : Fragment, nowhere.root.label = .ok label ∧ (label ++ rest).PartOf body ∧
        ∀ more, rest ≠ .text "(func: " ++ more := by
  have compiles : (compile [anywhere, nowhere]).isOk = true := by decide +kernel
  obtain ⟨query, compiled⟩ := Compiled.exists_of_isOk compiles
  have shown : (compile [anywhere, nowhere]).toOption.map (·.text) =
      some ("query Rootquery_Void($0:int, $1:int) \x7b rootQuery(func: has(<e-mail>),first:$0) \x7b  \x7d " ++
        "void(first:$1) \x7b  \x7d \x7d") := by decide +kernel
  rw [compiled] at shown
  have both : blocks [anywhere, nowhere] = [anywhere, nowhere] := rfl
  obtain ⟨body, same, each⟩ := starts_iff compiled
  rw [both] at each
  obtain ⟨e, f, label, rest, present, _, named, _, part, full, _⟩ :=
    each anywhere (by simp) anywhere.root _ (.self _) rfl
  obtain ⟨e', _, label', rest', present', _, named', _, part', _, bare⟩ :=
    each nowhere (by simp) nowhere.root _ (.self _) rfl
  cases present
  cases present'
  obtain ⟨filled, more, rfl⟩ := full (by decide)
  exact ⟨query, body, compiled, Option.some.inj shown, same, ⟨f, label, more, named, filled, part⟩,
    label', rest', named', part', bare (by decide)⟩

/-- A connector of nothing is a function for a block at the top, which is then written without one. -/
theorem starts_nowhere :
    (Builder.query (.all [])).root.isRoot = true ∧
      ∃ query, compile [Builder.query (.all [])] = .ok query ∧
        query.text = "query Rootquery() \x7b rootQuery \x7b  \x7d \x7d" :=
  ⟨rfl, _, rfl, rfl⟩

end Request

end GraphQuery
