import GraphQuery.Proofs.Guarding

/-!
# Where filters are checked

A clause takes expressions that are filters, judged by their outermost function. Main
statement: a clause compiles exactly if the expressions in it are filters and what their
connectors reach can be compiled, and the first expression that is no filter is a type
mismatch. What stands below a connector is not judged again.
-/

namespace GraphQuery

open Compiled (map_eq_ok bind_eq_ok)

/-! ## Clauses -/

/-- A clause that filters stand in: the filters of a block, those on its facets, or the conditions of a
    mutation. -/
inductive FilterClause where
  | filter (b : Block)
  | facets (b : Block)
  | condition (filters : List Expr)

namespace FilterClause

def keyword : FilterClause → String
  | .filter _ => "@filter"
  | .facets _ => "@facets"
  | .condition _ => "@if"

/-- The expressions that stand in a clause. -/
def exprs : FilterClause → List Expr
  | .filter b => b.filters
  | .facets b => b.facetExprs
  | .condition filters => filters

/-- The text of a clause, with marks for its slots or with its values as literals. -/
def compile : FilterClause → Compiled String
  | .filter b => b.filterClause.map Fragment.display
  | .facets b => b.facetsClause.map Fragment.display
  | .condition filters => Condition.compile filters

/-- A clause compiles the expressions in it one after the other, and then nothing can fail. -/
theorem compile_eq (c : FilterClause) :
    ∃ write : List Fragment → String, c.compile = (c.exprs.mapM (Expr.compileFilter c.keyword)).map write := by
  cases c with
  | filter b =>
    refine ⟨fun fs => ((Fragment.join Expr.conjunction fs).wrap "@filter(" ")").display, ?_⟩
    rw [compile, Block.filterClause, exprs, keyword]
    cases b.filters.mapM (Expr.compileFilter "@filter") <;> rfl
  | facets b =>
    refine ⟨fun fs => (Fragment.join " " (b.allFacets ++ b.keyFacets ++ fs.map (.wrap "@facets(" ")"))).display, ?_⟩
    rw [compile, Block.facetsClause, exprs, keyword, Block.facetExprs]
    cases (b.facets.filterMap (·.filter?)).mapM (Expr.compileFilter "@facets") <;> rfl
  | condition filters =>
    refine ⟨fun fs => if (Fragment.join Expr.conjunction fs).isEmpty then ""
      else "@if(" ++ (Fragment.join Expr.conjunction fs).inlined ++ ") ", ?_⟩
    rw [compile, Condition.compile, Condition.body, exprs, keyword]
    cases filters.mapM (Expr.compileFilter "@if") <;> rfl

end FilterClause

/-! ## Lists of filters -/

namespace Compiled

variable {α β : Type}

theorem exists_mapM_iff {f : α → Compiled β} {xs : List α} :
    (∃ ys, xs.mapM f = .ok ys) ↔ ∀ x ∈ xs, ∃ y, f x = .ok y := by
  constructor
  · rintro ⟨ys, run⟩ x member
    obtain ⟨y, _, found⟩ := exists_ok_of_mem run member
    exact ⟨y, found⟩
  · intro each
    induction xs with
    | nil => exact ⟨[], rfl⟩
    | cons x xs ih =>
      obtain ⟨y, first⟩ := each x (by simp)
      obtain ⟨ys, run⟩ := ih fun x member => each x (List.mem_cons_of_mem _ member)
      exact ⟨y :: ys, mapM_eq_ok.2 (.cons first (mapM_eq_ok.1 run))⟩

/-- A list fails as its first item that fails. -/
theorem mapM_eq_error {f : α → Compiled β} {before after : List α} {x : α} {e : CompileError}
    (passed : ∀ y ∈ before, ∃ z, f y = .ok z) (fails : f x = .error e) :
    (before ++ x :: after).mapM f = .error e := by
  induction before with
  | nil =>
    rw [List.nil_append, List.mapM_cons, fails]
    rfl
  | cons y before ih =>
    obtain ⟨z, first⟩ := passed y (by simp)
    rw [List.cons_append, List.mapM_cons, first, ih fun y member => passed y (List.mem_cons_of_mem _ member)]
    rfl

end Compiled

/-! ## Below connectors -/

namespace Expr

/-- Whether an expression connects others. -/
def isConnector : Expr → Bool
  | .all _ => true
  | .any _ => true
  | .not _ => true
  | _ => false

mutual

theorem exists_compile_of_reached (e : Expr)
    (each : ∀ d, e.Reaches d → d.isConnector = false → ∃ f, d.compile = .ok f) : ∃ f, e.compile = .ok f := by
  cases e with
  | all parts =>
    obtain ⟨fs, run⟩ := exists_compileAll_of_reached parts fun part member d path => each d (.all member path)
    exact ⟨_, map_eq_ok.2 ⟨fs, run, rfl⟩⟩
  | any parts =>
    obtain ⟨fs, run⟩ := exists_compileAll_of_reached parts fun part member d path => each d (.any member path)
    exact ⟨_, map_eq_ok.2 ⟨fs, run, rfl⟩⟩
  | not part =>
    obtain ⟨f, run⟩ := exists_compile_of_reached part fun d path => each d (.not path)
    exact ⟨_, map_eq_ok.2 ⟨f, run, rfl⟩⟩
  | _ => exact each _ (.self _) rfl

theorem exists_compileAll_of_reached (es : List Expr)
    (each : ∀ e ∈ es, ∀ d, e.Reaches d → d.isConnector = false → ∃ f, d.compile = .ok f) :
    ∃ fs, compileAll es = .ok fs := by
  cases es with
  | nil => exact ⟨[], rfl⟩
  | cons e es =>
    obtain ⟨f, first⟩ := exists_compile_of_reached e (each e (by simp))
    obtain ⟨fs, run⟩ := exists_compileAll_of_reached es fun e member => each e (List.mem_cons_of_mem _ member)
    exact ⟨f :: fs, bind_eq_ok.2 ⟨f, first, bind_eq_ok.2 ⟨fs, run, rfl⟩⟩⟩

end

/-- An expression compiles exactly if everything else that its connectors reach does. -/
theorem exists_compile_iff (e : Expr) :
    (∃ f, e.compile = .ok f) ↔ ∀ d, e.Reaches d → d.isConnector = false → ∃ f, d.compile = .ok f := by
  refine ⟨?_, exists_compile_of_reached e⟩
  rintro ⟨f, compiled⟩ d path _
  obtain ⟨g, found, _⟩ := path.exists_partOf compiled
  exact ⟨g, found⟩

end Expr

/-- A clause compiles exactly if the expressions in it are filters and everything that their connectors reach
    can be compiled, whether it is a filter or not. The first expression in it that is no filter is a type
    mismatch. -/
theorem FilterClause.accepts_iff (c : FilterClause) :
    ((∃ text, c.compile = .ok text) ↔ ∀ e ∈ c.exprs, e.isFilter = true ∧
      ∀ d, e.Reaches d → d.isConnector = false → ∃ f, d.compile = .ok f) ∧
    ∀ before e after, c.exprs = before ++ e :: after →
      (∀ d ∈ before, d.isFilter = true ∧ ∃ f, d.compile = .ok f) → e.isFilter = false →
      c.compile = .error (.notAFilter c.keyword e.name) ∧
        (CompileError.notAFilter c.keyword e.name).kind = .typeMismatch := by
  obtain ⟨write, same⟩ := c.compile_eq
  rw [same]
  constructor
  · have written : (∃ text, (c.exprs.mapM (Expr.compileFilter c.keyword)).map write = .ok text) ↔
        ∃ fs, c.exprs.mapM (Expr.compileFilter c.keyword) = .ok fs := by
      constructor
      · rintro ⟨text, run⟩
        obtain ⟨fs, run, _⟩ := map_eq_ok.1 run
        exact ⟨fs, run⟩
      · rintro ⟨fs, run⟩
        exact ⟨write fs, map_eq_ok.2 ⟨fs, run, rfl⟩⟩
    rw [written, Compiled.exists_mapM_iff]
    refine forall₂_congr fun e _ => ?_
    rw [← Expr.exists_compile_iff]
    simp only [Expr.compileFilter_eq_ok, exists_and_left]
  · intro before e after place passed refused
    have fails : Expr.compileFilter c.keyword e = .error (.notAFilter c.keyword e.name) := by
      rw [Expr.compileFilter, refused]
      rfl
    refine ⟨?_, rfl⟩
    rw [place, Compiled.mapM_eq_error (fun d member => ?_) fails]
    · rfl
    · obtain ⟨filters, f, compiled⟩ := passed d member
      exact ⟨f, Expr.compileFilter_eq_ok.2 ⟨filters, compiled⟩⟩

/-- A count, which has no truth value. -/
def countFriends : Expr := .apply .count (.predicate "friend")

/-- Filters of which the second connects a count and an expansion. -/
def mixed : List Expr := [.has (KeyMap.ofList [("name", ())]), .all [countFriends, .not (.expand "Film")]]

theorem FilterClause.accepts_iff_mixed :
    (∃ text, (FilterClause.condition mixed).compile = .ok text) ∧
      (FilterClause.condition (mixed ++ [countFriends, .expand "Film"])).compile =
        .error (.notAFilter "@if" "count") := by
  have filters : ∀ e ∈ mixed, e.isFilter = true ∧ e.compile.isOk = true := by decide +kernel
  constructor
  · refine (accepts_iff (.condition mixed)).1.2 fun e member => ?_
    exact ⟨(filters e member).1, (Expr.exists_compile_iff e).1 (Compiled.exists_of_isOk (filters e member).2)⟩
  · have refused := (accepts_iff (.condition (mixed ++ [countFriends, .expand "Film"]))).2 mixed countFriends
      [.expand "Film"] rfl (fun d member => ⟨(filters d member).1, Compiled.exists_of_isOk (filters d member).2⟩) rfl
    exact refused.1

/-- A count below a connector has no truth value either, and all three clauses take it. -/
theorem FilterClause.count_connected :
    (Expr.all [countFriends]).Reaches countFriends ∧ countFriends.isFilter = false ∧
      ∀ c ∈ [FilterClause.filter { filters := [.all [countFriends]] },
          .facets { facets := [.filter (.all [countFriends])] }, .condition [.all [countFriends]]],
        c.exprs = [.all [countFriends]] ∧ ∃ text, c.compile = .ok text := by
  refine ⟨.all (List.mem_singleton_self _) (.self _), rfl, fun c member => ?_⟩
  simp only [List.mem_cons, List.not_mem_nil, or_false] at member
  rcases member with rfl | rfl | rfl <;> exact ⟨rfl, _, rfl⟩

end GraphQuery
