import GraphQuery.CompileError
import Mathlib.Data.List.Forall2

/-!
# Successful compilations

What is known of the parts when a compilation put together from parts succeeds. A list
compiles when each of its items does, and what is collected from the results in order
is what is collected from the items.
-/

namespace GraphQuery.Compiled

variable {α β γ : Type}

theorem map_eq_ok {x : Compiled α} {g : α → β} {b : β} : x.map g = .ok b ↔ ∃ a, x = .ok a ∧ b = g a := by
  cases x with
  | error e => simp [Except.map]
  | ok a => simp [Except.map, eq_comm]

theorem bind_eq_ok {x : Compiled α} {g : α → Compiled β} {b : β} :
    (x >>= g) = .ok b ↔ ∃ a, x = .ok a ∧ g a = .ok b := by
  cases x with
  | error e => simp [bind, Except.bind]
  | ok a => simp [bind, Except.bind]

theorem pure_eq_ok {a b : α} : (pure a : Compiled α) = .ok b ↔ b = a := by
  simp [pure, Except.pure, eq_comm]

/-! ## Lists -/

theorem mapM_eq_ok {f : α → Compiled β} {xs : List α} {ys : List β} :
    xs.mapM f = .ok ys ↔ List.Forall₂ (fun x y => f x = .ok y) xs ys := by
  induction xs generalizing ys with
  | nil => rw [List.mapM_nil, pure_eq_ok, List.forall₂_nil_left_iff]
  | cons x xs ih =>
    rw [List.mapM_cons, bind_eq_ok, List.forall₂_cons_left_iff]
    constructor
    · rintro ⟨y, first, rest⟩
      obtain ⟨ys', run, same⟩ := bind_eq_ok.1 rest
      exact ⟨y, ys', first, ih.1 run, pure_eq_ok.1 same⟩
    · rintro ⟨y, ys', first, rest, rfl⟩
      exact ⟨y, first, bind_eq_ok.2 ⟨ys', ih.2 rest, rfl⟩⟩

/-- The items of two lists compile one after the other. -/
theorem mapM_append_eq_ok {f : α → Compiled β} {xs ys : List α} {zs : List β} :
    (xs ++ ys).mapM f = .ok zs ↔ ∃ as bs, xs.mapM f = .ok as ∧ ys.mapM f = .ok bs ∧ zs = as ++ bs := by
  simp only [List.mapM_append, bind_eq_ok, pure_eq_ok]
  constructor
  · rintro ⟨as, first, bs, second, rfl⟩
    exact ⟨as, bs, first, second, rfl⟩
  · rintro ⟨as, bs, first, second, rfl⟩
    exact ⟨as, first, bs, second, rfl⟩

theorem forall₂_of_mapM {f : α → Compiled β} {xs : List α} {ys : List β} (run : xs.mapM f = .ok ys)
    {R : α → β → Prop} (each : ∀ x ∈ xs, ∀ y, f x = .ok y → R x y) : List.Forall₂ R xs ys := by
  rw [mapM_eq_ok] at run
  induction run with
  | nil => exact .nil
  | cons first _ ih => exact .cons (each _ (by simp) _ first) (ih fun x member => each x (List.mem_cons_of_mem _ member))

theorem flatMap_of_mapM {f : α → Compiled β} {xs : List α} {ys : List β} (run : xs.mapM f = .ok ys)
    {g : β → List γ} {h : α → List γ} (each : ∀ x ∈ xs, ∀ y, f x = .ok y → g y = h x) :
    ys.flatMap g = xs.flatMap h := by
  rw [mapM_eq_ok] at run
  induction run with
  | nil => rfl
  | cons first _ ih =>
    rw [List.flatMap_cons, List.flatMap_cons, each _ (by simp) _ first,
      ih fun x member => each x (List.mem_cons_of_mem _ member)]

theorem exists_of_mem_mapM {f : α → Compiled β} {xs : List α} {ys : List β} (run : xs.mapM f = .ok ys)
    {y : β} (member : y ∈ ys) : ∃ x ∈ xs, f x = .ok y := by
  rw [mapM_eq_ok] at run
  induction run with
  | nil => simp at member
  | cons first _ ih =>
    rcases List.mem_cons.1 member with rfl | member
    · exact ⟨_, by simp, first⟩
    · obtain ⟨x, inside, found⟩ := ih member
      exact ⟨x, List.mem_cons_of_mem _ inside, found⟩

/-- The result for an item stands at the place of the item. -/
theorem getElem?_of_mapM {f : α → Compiled β} {xs : List α} {ys : List β} (run : xs.mapM f = .ok ys) {k : Nat} {x : α}
    (here : xs[k]? = some x) : ∃ y, ys[k]? = some y ∧ f x = .ok y := by
  rw [mapM_eq_ok] at run
  induction run generalizing k with
  | nil => cases here
  | cons first _ ih =>
    cases k with
    | zero =>
      cases here
      exact ⟨_, rfl, first⟩
    | succ k => exact ih here

theorem exists_ok_of_mem {f : α → Compiled β} {xs : List α} {ys : List β} (run : xs.mapM f = .ok ys) {x : α}
    (member : x ∈ xs) : ∃ y ∈ ys, f x = .ok y := by
  rw [mapM_eq_ok] at run
  induction run with
  | nil => simp at member
  | cons first _ ih =>
    rcases List.mem_cons.1 member with rfl | member
    · exact ⟨_, by simp, first⟩
    · obtain ⟨y, inside, found⟩ := ih member
      exact ⟨y, List.mem_cons_of_mem _ inside, found⟩

theorem exists_of_isOk {x : Compiled α} (h : x.isOk = true) : ∃ a, x = .ok a := by
  cases x with
  | error e => cases h
  | ok a => exact ⟨a, rfl⟩

end GraphQuery.Compiled
