import GraphQuery.Block
import GraphQuery.Proofs.Spelling
import Mathlib.Data.List.Infix
import Mathlib.Data.List.TakeWhile

/-!
# Predicates inside their clauses

Whether a predicate stays between the brackets that the clause around it opens and closes.
Names never get out: they are plain or stand between angle brackets. A call of a pseudo
function and what follows an at sign are copied, their brackets included. Main statement: a
predicate stays inside its clause exactly when the brackets of the part that is copied match.
-/

namespace GraphQuery

/-! ## Matched brackets -/

/-- No beginning of the text closes more brackets than it opens, and the whole text closes all of them. -/
def Matched (cs : List Char) : Prop :=
  (∀ start ∈ cs.inits, start.count ')' ≤ start.count '(') ∧ cs.count '(' = cs.count ')'

instance (cs : List Char) : Decidable (Matched cs) := by unfold Matched; infer_instance

namespace Mode

theorem scan_append_quiet {m m' : Mode} {xs : List Char} (h : m.scan xs = (m', [])) (ys : List Char) :
    m.scan (xs ++ ys) = m'.scan ys := by
  rw [scan_append h]
  rfl

/-- A text without angle brackets leads from one depth inside a call to another when none of its beginnings
    closes more brackets than are open, and its brackets make up the difference. -/
theorem scan_inside_iff {cs : List Char} (noAngle : '<' ∉ cs) (d e : Nat) :
    scan (.inside d) cs = (.inside e, []) ↔
      (∀ start ∈ cs.inits, start.count ')' ≤ start.count '(' + d) ∧ cs.count '(' + d = cs.count ')' + e := by
  induction cs generalizing d with
  | nil => simp [scan]
  | cons c cs ih =>
    have rest : '<' ∉ cs := fun inside => noAngle (List.mem_cons_of_mem c inside)
    rw [List.inits_cons, List.forall_mem_cons, List.forall_mem_map]
    by_cases opens : c = '('
    · subst opens
      have deeper : scan (.inside d) ('(' :: cs) = scan (.inside (d + 1)) cs := rfl
      rw [deeper, ih rest]
      simp [Nat.add_right_comm, Nat.add_assoc]
    by_cases closes : c = ')'
    · subst closes
      cases d with
      | zero =>
        have leaves : scan (.inside 0) (')' :: cs) ≠ (.inside e, []) := by simp [scan, step]
        refine iff_of_false leaves fun matched => ?_
        have first := matched.1.2 [] (by simp)
        simp at first
      | succ d =>
        have shallower : scan (.inside (d + 1)) (')' :: cs) = scan (.inside d) cs := rfl
        rw [shallower, ih rest]
        simp [← Nat.add_assoc, Nat.add_right_comm]
    · have other : ∀ b ∈ [c], b ∉ brackets := by
        have angle : c ≠ '<' := by
          rintro rfl
          exact noAngle (by simp)
        simp [brackets, opens, closes, angle]
      have stays : scan (.inside d) (c :: cs) = scan (.inside d) cs :=
        scan_append_quiet (scan_inside_plain other d) cs
      rw [stays, ih rest]
      simp [opens, closes]

theorem exists_inside_of_step {c : Char} (noAngle : c ≠ '<') {d : Nat} (quiet : (step (.inside d) c).2 = []) :
    ∃ e, (step (.inside d) c).1 = .inside e := by
  simp only [step, noAngle, ite_false] at quiet ⊢
  split
  · exact ⟨_, rfl⟩
  · split
    · cases d with
      | zero => simp_all
      | succ d => exact ⟨d, rfl⟩
    · exact ⟨d, rfl⟩

/-- Inside a call, a text without angle brackets that ends no token stays inside it. -/
theorem exists_inside_of_scan {cs : List Char} (noAngle : '<' ∉ cs) {d : Nat} {m : Mode}
    (h : scan (.inside d) cs = (m, [])) : ∃ e, m = .inside e := by
  induction cs generalizing d with
  | nil =>
    cases h
    exact ⟨d, rfl⟩
  | cons c cs ih =>
    have rest : '<' ∉ cs := fun inside => noAngle (List.mem_cons_of_mem c inside)
    simp only [scan, Prod.mk.injEq, List.append_eq_nil_iff] at h
    obtain ⟨last, none, later⟩ := h
    obtain ⟨e, stays⟩ := exists_inside_of_step (fun angle => noAngle (by simp [angle])) none
    rw [stays] at last later
    exact ih rest (Prod.ext last later)

/-- A text after one that never ends between angle brackets is read inside the call, as long as that one has not
    closed the call. -/
theorem scan_append_iff {xs : List Char} {d : Nat}
    (stays : ∀ m, scan (.inside d) xs = (m, []) → ∃ k, m = .inside k) (ys : List Char) (e : Nat) :
    scan (.inside d) (xs ++ ys) = (.inside e, []) ↔
      ∃ k, scan (.inside d) xs = (.inside k, []) ∧ scan (.inside k) ys = (.inside e, []) := by
  constructor
  · intro both
    cases found : scan (.inside d) xs with
    | mk m ts =>
      rw [scan_append found, Prod.mk.injEq, List.append_eq_nil_iff] at both
      obtain ⟨last, rfl, later⟩ := both
      obtain ⟨k, rfl⟩ := stays m found
      exact ⟨k, rfl, Prod.ext last later⟩
  · rintro ⟨k, first, rest⟩
    rw [scan_append_quiet first, rest]

/-- A bracket closes the call around a text at its end exactly when the text closes what it opens. -/
theorem scan_closing_iff {cs : List Char} :
    scan (.inside 0) (cs ++ [')']) = (.outside [], [.call]) ↔ scan (.inside 0) cs = (.inside 0, []) := by
  constructor
  · intro one
    cases found : scan (.inside 0) cs with
    | mk m ts =>
      rw [scan_append found] at one
      -- The last bracket ends the one call, so no token is found before it.
      match m with
      | .outside word => simp [scan, step, List.append_eq_singleton_iff] at one
      | .quoted d => simp [scan, step] at one
      | .inside 0 => simp_all [scan, step]
      | .inside (d + 1) => simp [scan, step] at one
  · intro closed
    rw [scan_append_quiet closed]
    rfl

end Mode

theorem scan_eq_iff_matched {cs : List Char} (noAngle : '<' ∉ cs) :
    Mode.scan (.inside 0) cs = (.inside 0, []) ↔ Matched cs := Mode.scan_inside_iff noAngle 0 0

/-! ## What is copied -/

namespace Predicate

open Text

/-- The part of a predicate without alias and binding that is copied: a call of a pseudo function, or what
    follows the first at sign. -/
def copiedChars (cs : List Char) : List Char :=
  if isPseudoCall cs then cs
  else match cut? ['@'] cs with
    | some (_, rest) => trim rest
    | none => []

/-- The predicate that an alias or a binding is for. -/
def Form.body : Form → List Char
  | .bound _ body => body
  | .aliased _ body => body
  | .plain body => body

/-- The part of a predicate that is copied without brackets around it. -/
def copied (p : String) : List Char := copiedChars (Form.ofChars (trim (clean p.toList))).body

theorem scan_nameChars (cs : List Char) (d : Nat) : Mode.scan (.inside d) (nameChars cs) = (.inside d, []) := by
  have closed := (closed_name (String.ofList cs)).scan_inside d
  simpa [name] using closed

theorem scan_trimStart (cs : List Char) (d : Nat) : Mode.scan (.inside d) (trimStart cs) = Mode.scan (.inside d) cs := by
  have noBlank : ∀ c ∈ brackets, isBlank c = false := by decide
  have blanks : ∀ c ∈ cs.takeWhile isBlank, c ∉ brackets := fun c member =>
    not_mem_of_eq_true noBlank (List.all_eq_true.1 List.all_takeWhile c member)
  have parts : cs.takeWhile isBlank ++ trimStart cs = cs := List.takeWhile_append_dropWhile
  rw [← Mode.scan_append_quiet (scan_inside_plain blanks d) (trimStart cs), parts]

theorem scan_bodyChars (cs : List Char) (d : Nat) :
    Mode.scan (.inside d) (bodyChars cs) = Mode.scan (.inside d) (copiedChars cs) := by
  unfold bodyChars copiedChars
  split
  · rfl
  · cases cut? ['@'] cs with
    | none => exact scan_nameChars cs d
    | some parts =>
      obtain ⟨name, rest⟩ := parts
      have sign : Mode.scan (.inside d) ['@'] = (.inside d, []) := scan_inside_plain (by decide) d
      have spaced : Mode.scan (.inside d) [' ', '@'] = (.inside d, []) := scan_inside_plain (by decide) d
      dsimp only
      split
      · rw [scan_trimStart, Mode.scan_append_quiet (scan_nameChars name d)]
        exact Mode.scan_append_quiet spaced (trim rest)
      · rw [Mode.scan_append_quiet (scan_nameChars name d)]
        exact Mode.scan_append_quiet sign (trim rest)

theorem scan_formChars (f : Form) (d : Nat) :
    Mode.scan (.inside d) f.chars = Mode.scan (.inside d) (copiedChars f.body) := by
  have named (name mark body : List Char) (plain : ∀ c ∈ mark, c ∉ brackets) :
      Mode.scan (.inside d) (nameChars name ++ mark ++ bodyChars body) = Mode.scan (.inside d) (copiedChars body) := by
    rw [List.append_assoc, Mode.scan_append_quiet (scan_nameChars name d),
      Mode.scan_append_quiet (scan_inside_plain plain d), scan_bodyChars]
  cases f with
  | bound var body => exact named var _ body (by decide)
  | aliased name body => exact named name _ body (by decide)
  | plain body => exact scan_bodyChars body d

/-- Inside a call, a predicate is read as the part of it that is copied. -/
theorem scan_escape (p : String) (d : Nat) :
    Mode.scan (.inside d) (escape p).toList = Mode.scan (.inside d) (copied p) := by
  rw [escape, String.toList_ofList, predicateChars, copied]
  split
  · next empty =>
    rw [List.isEmpty_iff.1 empty]
    rfl
  · exact scan_formChars _ d

theorem noAngle_copied (p : String) : '<' ∉ copied p := by
  have cleaned : ∀ c ∈ trim (clean p.toList), c ≠ '<' := by
    rintro c member rfl
    exact not_forbidden_of_mem_clean (mem_of_mem_trim member) (by decide)
  have body : ∀ c ∈ (Form.ofChars (trim (clean p.toList))).body, c ∈ trim (clean p.toList) := by
    intro c member
    unfold Form.ofChars at member
    split at member
    · next bound => exact mem_of_binding? bound member
    · next aliased => exact mem_of_alias? aliased member
    · exact member
  have part {cs : List Char} {c : Char} (member : c ∈ copiedChars cs) : c ∈ cs := by
    unfold copiedChars at member
    split at member
    · exact member
    · split at member
      · next name rest cut =>
        rw [eq_append_of_cut? cut]
        exact List.mem_append_right _ (mem_of_mem_trim member)
      · cases member
  exact fun member => cleaned _ (body _ (part member)) rfl

/-- A predicate closes its brackets exactly when the part that is copied does. -/
theorem closed_escape_iff (p : String) : Closed (escape p) ↔ Matched (copied p) := by
  unfold Closed
  rw [scan_escape]
  exact scan_eq_iff_matched (noAngle_copied p)

theorem scan_copied_append_iff (p : String) (ys : List Char) (d e : Nat) :
    Mode.scan (.inside d) (copied p ++ ys) = (.inside e, []) ↔
      ∃ k, Mode.scan (.inside d) (copied p) = (.inside k, []) ∧ Mode.scan (.inside k) ys = (.inside e, []) :=
  Mode.scan_append_iff (fun _ => Mode.exists_inside_of_scan (noAngle_copied p)) ys e

theorem scan_escape_append_iff (p : String) (ys : List Char) (d e : Nat) :
    Mode.scan (.inside d) ((escape p).toList ++ ys) = (.inside e, []) ↔
      Mode.scan (.inside d) (copied p ++ ys) = (.inside e, []) := by
  rw [scan_copied_append_iff, ← scan_escape]
  refine Mode.scan_append_iff (fun m found => ?_) ys e
  rw [scan_escape] at found
  exact Mode.exists_inside_of_scan (noAngle_copied p) found

/-- What closes its brackets makes no difference after a predicate. -/
theorem closed_escape_append_iff {p t : String} (ht : Closed t) : Closed (escape p ++ t) ↔ Matched (copied p) := by
  rw [← closed_escape_iff]
  refine ⟨fun both => ?_, fun closed => closed_append closed ht⟩
  unfold Closed at both ⊢
  rw [String.toList_append, scan_escape_append_iff, scan_copied_append_iff] at both
  obtain ⟨k, first, rest⟩ := both
  rw [ht.scan_inside k] at rest
  cases rest
  rwa [scan_escape]

/-- Predicates between commas are read as the parts of them that are copied, one after the other. -/
theorem scan_intercalate_escape_iff (ps : List String) (d e : Nat) :
    Mode.scan (.inside d) (String.intercalate "," (ps.map escape)).toList = (.inside e, []) ↔
      Mode.scan (.inside d) (ps.flatMap copied) = (.inside e, []) := by
  induction ps generalizing d with
  | nil => rfl
  | cons p ps ih =>
    cases ps with
    | nil => simp [scan_escape]
    | cons q ps =>
      have comma (k : Nat) (ys : List Char) : Mode.scan (.inside k) (',' :: ys) = Mode.scan (.inside k) ys := by
        have quiet : Mode.scan (.inside k) [','] = (.inside k, []) := scan_inside_plain (by decide) k
        exact Mode.scan_append_quiet quiet ys
      have chars : (String.intercalate "," ((p :: q :: ps).map escape)).toList =
          (escape p).toList ++ ',' :: (String.intercalate "," ((q :: ps).map escape)).toList := by
        simp
      rw [chars, scan_escape_append_iff, List.flatMap_cons, scan_copied_append_iff, scan_copied_append_iff]
      refine exists_congr fun k => and_congr_right fun _ => ?_
      rw [comma, ih]

/-- Nothing is copied from a predicate that disappears. -/
theorem copied_eq_nil {p : String} (empty : escape p = "") : copied p = [] := by
  have none : predicateChars p.toList = [] := by simpa [escape] using empty
  unfold predicateChars at none
  dsimp only at none
  unfold copied
  split at none
  · next blank =>
    rw [List.isEmpty_iff.1 blank]
    rfl
  · generalize Form.ofChars (trim (clean p.toList)) = form at none
    cases form with
    | bound var body => simp [Form.chars] at none
    | aliased name body => simp [Form.chars] at none
    | plain body =>
      change bodyChars body = [] at none
      show copiedChars body = []
      unfold bodyChars at none
      unfold copiedChars
      split
      · next call =>
        rwa [if_pos call] at none
      · next noCall =>
        rw [if_neg noCall] at none
        cases cut : cut? ['@'] body with
        | none => rfl
        | some parts =>
          -- What is written has the at sign, which is no blank.
          simp only [cut] at none
          split at none
          · have blank := List.dropWhile_eq_nil_iff.1 none '@' (by simp)
            exact absurd blank (by decide)
          · simp at none

/-- Predicates that disappear do not matter. -/
theorem flatMap_copied_filter (ps : List String) :
    (ps.filter ((!·.isEmpty) ∘ escape)).flatMap copied = ps.flatMap copied := by
  induction ps with
  | nil => rfl
  | cons p ps ih =>
    by_cases empty : escape p = ""
    · simp [empty, copied_eq_nil empty, ih]
    · simp [empty, ih]

end Predicate

/-! ## Clauses -/

namespace Fragment

/-- The text is one call: the bracket that it opens first is closed by its last character and by no other. -/
def IsOneCall (f : Fragment) : Prop := Mode.scan (.outside []) f.display.toList = (.outside [], [.call])

theorem isOneCall_iff {opening : String} (enters : Mode.scan (.outside []) opening.toList = (.inside 0, []))
    (inner : Fragment) : (.text opening ++ inner ++ .text ")" : Fragment).IsOneCall ↔ Closed inner.display := by
  rw [IsOneCall, display_append, display_append, display_text, display_text, String.append_assoc,
    String.toList_append, Mode.scan_append_quiet enters, String.toList_append]
  exact Mode.scan_closing_iff

end Fragment

theorem enters_function {function : String} (known : function ∈ Expr.functions) :
    Mode.scan (.outside []) (function ++ "(").toList = (.inside 0, []) := by
  have enters : ∀ s ∈ Expr.functions, Mode.scan (.outside []) (s ++ "(").toList = (.inside 0, []) := by decide
  exact enters function known

/-- The keys of the facets of a block, as they are given. -/
def Block.facetNames (b : Block) : List String :=
  b.facets.filterMap fun
    | .key name => some name
    | _ => none

open Predicate

/-- The clauses that are written around predicates. -/
inductive Clause : List String → Fragment → Prop where
  | call {function rest p : String} {v : Value} {f : Fragment} (known : function ∈ Expr.functions)
    (closes : Closed rest) (rawFree : v.verbatim = []) (h : Expr.compileCall function rest (p, v) = .ok f) :
    Clause [p] f
  | has {p : String} {f : Fragment} (h : Expr.compileHasOne p = .ok f) : Clause [p] f
  | between {p : String} {low high : Value} {f : Fragment} (rawFree : low.verbatim ++ high.verbatim = [])
    (h : Expr.compileBetween p low high = .ok f) : Clause [p] f
  | apply {g : Unary} {p : String} {f : Fragment} (filled : escape p ≠ "")
    (h : (Expr.apply g (.predicate p)).compile = .ok f) : Clause [p] f
  | facets {b : Block} {f : Fragment} (h : f ∈ b.keyFacets) : Clause b.facetNames f
  | groups {b : Block} (filled : b.groupClause.isEmpty = false) : Clause b.groups b.groupClause
  | cascade {b : Block} {fields : List String} (asked : b.cascade = some fields) (filled : fields ≠ []) :
    Clause fields b.cascadeClause

theorem isOneCall_list {opening : String} (enters : Mode.scan (.outside []) opening.toList = (.inside 0, []))
    (ps : List String) : (.text (opening ++ String.intercalate "," (ps.map escape) ++ ")") : Fragment).IsOneCall ↔
      Matched (ps.flatMap copied) := by
  have clause : (.text (opening ++ String.intercalate "," (ps.map escape) ++ ")") : Fragment) =
      .text opening ++ .text (String.intercalate "," (ps.map escape)) ++ .text ")" := rfl
  have noAngle : '<' ∉ ps.flatMap copied := by
    intro member
    obtain ⟨p, _, inside⟩ := List.mem_flatMap.1 member
    exact noAngle_copied p inside
  rw [clause, Fragment.isOneCall_iff enters, Fragment.display_text, Closed, scan_intercalate_escape_iff,
    scan_eq_iff_matched noAngle]

/-- The same where predicates that disappear are left out. -/
theorem isOneCall_filtered {opening : String} (enters : Mode.scan (.outside []) opening.toList = (.inside 0, []))
    (ps : List String) :
    (.text (opening ++ String.intercalate "," ((ps.map escape).filter (!·.isEmpty)) ++ ")") : Fragment).IsOneCall ↔
      Matched (ps.flatMap copied) := by
  rw [List.filter_map, ← flatMap_copied_filter ps]
  exact isOneCall_list enters _

theorem isOneCall_one {function : String} (known : function ∈ Expr.functions) {p : String} {after : Fragment}
    (closes : Closed after.display) :
    (.text (function ++ "(") ++ (.text (escape p) ++ after) ++ .text ")" : Fragment).IsOneCall ↔
      Matched ([p].flatMap copied) := by
  rw [Fragment.isOneCall_iff (enters_function known), Fragment.display_append, Fragment.display_text,
    closed_escape_append_iff closes]
  simp

theorem Clause.isOneCall_iff {ps : List String} {f : Fragment} (clause : Clause ps f) :
    f.IsOneCall ↔ Matched (ps.flatMap copied) := by
  cases clause with
  | @call function rest p v f known closes rawFree h =>
    obtain ⟨_, value, bound, rfl⟩ := Expr.compileCall_eq_ok.1 h
    have after : Closed (.text "," ++ value ++ .text rest : Fragment).display := by
      simp only [Fragment.display_append, Fragment.display_text]
      exact closed_append (closed_append (by decide) (closed_compileValue bound rawFree)) closes
    rw [← isOneCall_one known after]
    simp only [Fragment.text_append, Fragment.append_assoc]
  | @has p f h =>
    obtain ⟨_, rfl⟩ := Expr.compileHasOne_eq_ok.1 h
    have known : "has" ∈ Expr.functions := by decide
    have none : Closed (∅ : Fragment).display := by decide
    rw [← isOneCall_one known none, Fragment.append_empty]
    rfl
  | @between p low high f rawFree h =>
    obtain ⟨_, l, u, lowest, highest, rfl⟩ := Expr.compileBetween_eq_ok.1 h
    obtain ⟨lowFree, highFree⟩ := List.append_eq_nil_iff.1 rawFree
    have after : Closed (.text "," ++ l ++ .text "," ++ u : Fragment).display := by
      simp only [Fragment.display_append, Fragment.display_text]
      have toLow := closed_append (by decide : Closed ",") (closed_compileValue lowest lowFree)
      exact closed_append (closed_append toLow (by decide)) (closed_compileValue highest highFree)
    have known : "between" ∈ Expr.functions := by decide
    have opens : "between(" = "between" ++ "(" := by decide
    rw [← isOneCall_one known after]
    simp only [opens, Fragment.text_append, Fragment.append_assoc]
  | @apply g p f filled h =>
    obtain ⟨operand, compiled, rfl⟩ := Compiled.map_eq_ok.1 h
    rw [Expr.compileOperand] at compiled
    cases compiled
    have none : Closed (∅ : Fragment).display := by decide
    have written : (Fragment.text (escape p)).isEmpty = false := by simpa [Fragment.isEmpty, Fragment.text] using filled
    rw [Fragment.wrap, written, ← isOneCall_one (Expr.unary_mem_functions g) none, Fragment.append_empty]
    rfl
  | @facets b f h =>
    have keys : b.facetKeys = (b.facetNames.map escape).filter (!·.isEmpty) := by
      rw [Block.facetKeys, Block.facetNames, List.map_filterMap]
      congr 2
      funext t
      cases t <;> rfl
    unfold Block.keyFacets at h
    split at h
    · cases h
    · rw [List.mem_singleton.1 h, keys]
      exact isOneCall_filtered (by decide) _
  | @groups b filled =>
    unfold Block.groupClause at filled ⊢
    dsimp only at filled ⊢
    split at filled
    · cases filled
    · next some =>
      rw [if_neg some]
      exact isOneCall_filtered (by decide) _
  | @cascade b fields asked filled =>
    unfold Block.cascadeClause
    rw [asked]
    cases ps with
    | nil => exact absurd rfl filled
    | cons p ps => exact isOneCall_list (by decide) _

/-- An order stands between the brackets of a block with other parameters. -/
theorem OrderBy.closed_compile_iff {o : OrderBy} {p : String} {f : Fragment} (key : o.key = .predicate p)
    (h : o.compile = .ok f) : Closed f.display ↔ Matched (copied p) := by
  obtain ⟨k, keyed, rfl⟩ := OrderBy.compile_eq_ok.1 h
  rw [key, compileKey] at keyed
  obtain ⟨_, required, rfl⟩ := Compiled.map_eq_ok.1 keyed
  obtain ⟨rfl, filled⟩ := requirePredicate_eq_ok.1 required
  have written : (Fragment.text (escape p)).isEmpty = false := by simpa [Fragment.isEmpty, Fragment.text] using filled
  have keyword : Closed (o.direction.keyword ++ ": ") := by cases o.direction <;> decide
  rw [Fragment.wrap, written, ← closed_escape_iff]
  simp only [Bool.false_eq_true, ite_false, Fragment.display_append, Fragment.display_text, String.append_empty]
  unfold Closed
  rw [String.toList_append, Mode.scan_append_quiet keyword]

/-- A predicate closes the brackets that it opens, and no other, exactly when those of the part that is copied
    match, and so does an order by it. A clause around predicates is closed by its last bracket alone
    exactly when those of all copied parts together match. -/
theorem stays_inside_iff (ps : List String) :
    (∀ p ∈ ps, Closed (escape p) ↔ Matched (copied p)) ∧
    (∀ f, Clause ps f → (f.IsOneCall ↔ Matched (ps.flatMap copied))) ∧
    ∀ p ∈ ps, ∀ (o : OrderBy) (f : Fragment), o.key = .predicate p → o.compile = .ok f →
      (Closed f.display ↔ Matched (copied p)) :=
  ⟨fun p _ => closed_escape_iff p, fun _ clause => clause.isOneCall_iff,
    fun _ _ _ _ => OrderBy.closed_compile_iff⟩

/-- A name with brackets inside, a directive with a call, and a call of a pseudo function. -/
def tricky : List String := ["a) OR has(b", "n as na>me @filter(eq(x))", "t : Count (~genre)"]

/-- A block that is grouped by `tricky`. -/
def trickyBlock : Block := { groups := tricky }

theorem stays_inside_tricky :
    (∀ p ∈ tricky, Closed (escape p)) ∧
    (∃ f, Expr.compileHasOne "n as na>me @filter(eq(x))" = .ok f ∧ f.IsOneCall) ∧
    trickyBlock.groupClause.IsOneCall ∧
    trickyBlock.groupClause.display = "@groupby(<a) OR has(b>,n as name @filter(eq(x)),t : Count (~genre))" ∧
    ∃ f, (OrderBy.mk .descending (.predicate "a) OR has(b")).compile = .ok f ∧ Closed f.display := by
  obtain ⟨alone, grouping, orders⟩ := stays_inside_iff tricky
  obtain ⟨_, calls, _⟩ := stays_inside_iff ["n as na>me @filter(eq(x))"]
  have each : ∀ p ∈ tricky, Matched (copied p) := by decide +kernel
  have together : Matched (tricky.flatMap copied) := by decide +kernel
  have single : Matched (["n as na>me @filter(eq(x))"].flatMap copied) := by decide +kernel
  have asks : (Expr.compileHasOne "n as na>me @filter(eq(x))").isOk = true := by decide +kernel
  have sorts : (OrderBy.mk .descending (.predicate "a) OR has(b")).compile.isOk = true := by decide +kernel
  have grouped : trickyBlock.groupClause.isEmpty = false := by decide +kernel
  obtain ⟨has, asked⟩ := Compiled.exists_of_isOk asks
  obtain ⟨order, sorted⟩ := Compiled.exists_of_isOk sorts
  refine ⟨fun p member => (alone p member).2 (each p member), ⟨has, asked, ?_⟩, ?_, by decide +kernel, order, sorted, ?_⟩
  · exact (calls has (.has asked)).2 single
  · exact (grouping _ (.groups grouped)).2 together
  · have first : "a) OR has(b" ∈ tricky := by simp [tricky]
    exact (orders _ first _ order rfl sorted).2 (each _ first)

/-- A call of a pseudo function with one closing bracket too many is copied, and closes the call around it. -/
theorem escape_breaks_out :
    escape "count(x))" = "count(x))" ∧ ¬ Matched "count(x))".toList ∧ ¬ Closed (escape "count(x))") ∧
    (Expr.has (KeyMap.ofList [("count(x))", ())])).display = "has(count(x)))" ∧
    Mode.scan (.outside []) "has(count(x)))".toList = (.outside [], [.call, .closing]) := by
  refine ⟨by decide +kernel, by decide +kernel, by decide +kernel, by decide +kernel, by decide +kernel⟩

end GraphQuery
