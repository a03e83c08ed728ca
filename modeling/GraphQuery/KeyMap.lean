/-!
# Maps with ordered keys

Finite maps from texts to values whose entries stand in the order of their keys, by
code points. Main statements: a map is determined by its look-ups, so the order in which
entries were put in cannot be seen, and each operation has one equation for them.
-/

namespace GraphQuery

/-! ## Ordered entries -/

/-- Entries with a new value for the key `k`, made from its present one. -/
def alterEntries {α : Type} (k : String) (f : Option α → α) : List (String × α) → List (String × α)
  | [] => [(k, f none)]
  | (j, a) :: es =>
    if k < j then (k, f none) :: (j, a) :: es
    else if k = j then (j, f (some a)) :: es
    else (j, a) :: alterEntries k f es

section Entries

variable {α : Type} {k : String} {f : Option α → α}

theorem fst_mem_alterEntries {es : List (String × α)} {e : String × α} (h : e ∈ alterEntries k f es) :
    e.1 = k ∨ ∃ a, (e.1, a) ∈ es := by
  induction es with
  | nil => simp_all [alterEntries]
  | cons p es ih =>
    obtain ⟨j, a⟩ := p
    simp only [alterEntries] at h
    split at h
    · rcases List.mem_cons.1 h with rfl | h
      · exact .inl rfl
      · exact .inr ⟨e.2, h⟩
    · split at h
      · rcases List.mem_cons.1 h with rfl | h
        · exact .inr ⟨a, by simp⟩
        · exact .inr ⟨e.2, by simp [h]⟩
      · rcases List.mem_cons.1 h with rfl | h
        · exact .inr ⟨a, by simp⟩
        · rcases ih h with h | ⟨b, h⟩
          · exact .inl h
          · exact .inr ⟨b, by simp [h]⟩

theorem pairwise_alterEntries {es : List (String × α)} (h : es.Pairwise (·.1 < ·.1)) :
    (alterEntries k f es).Pairwise (·.1 < ·.1) := by
  induction es with
  | nil => simp [alterEntries]
  | cons p es ih =>
    obtain ⟨j, a⟩ := p
    have hj := (List.pairwise_cons.1 h).1
    have hes := (List.pairwise_cons.1 h).2
    simp only [alterEntries]
    split
    · next hk =>
      refine List.pairwise_cons.2 ⟨fun e he => ?_, h⟩
      rcases List.mem_cons.1 he with rfl | he
      · exact hk
      · exact String.lt_trans hk (hj e he)
    · split
      · exact List.pairwise_cons.2 ⟨hj, hes⟩
      · next hk hne =>
        refine List.pairwise_cons.2 ⟨fun e he => ?_, ih hes⟩
        rcases fst_mem_alterEntries he with he | ⟨b, he⟩
        · rcases Std.lt_trichotomy (a := k) (b := j) with h | h | h
          · exact absurd h hk
          · exact absurd h hne
          · simpa [he] using h
        · exact hj (e.1, b) he

/-- Entries below a key stand before its place. -/
theorem alterEntries_eq_append (es : List (String × α)) :
    alterEntries k f es =
      es.takeWhile (·.1 < k) ++ alterEntries k f (es.dropWhile (·.1 < k)) := by
  induction es with
  | nil => rfl
  | cons p es ih =>
    obtain ⟨j, a⟩ := p
    by_cases hj : j < k
    · have hk : ¬ k < j := fun h => String.lt_irrefl _ (String.lt_trans h hj)
      have hne : k ≠ j := fun e => String.lt_irrefl _ (e ▸ hj)
      simp only [hj, List.takeWhile_cons_of_pos, List.dropWhile_cons_of_pos, decide_true,
        List.cons_append, ← ih]
      simp only [alterEntries, hk, hne, if_false]
    · have hf : decide (j < k) = false := decide_eq_false hj
      simp only [List.takeWhile_cons, List.dropWhile_cons, hf, List.nil_append, Bool.false_eq_true, if_false]

end Entries

/-! ## Merging -/

/-- Entries with the entries of a second list added, in one walk when both lists are in order.
    Where both have a key, `f` puts its values together. -/
def mergeEntries {α : Type} (f : α → α → α) (es : List (String × α)) :
    List (String × α) → List (String × α)
  | [] => es
  | (k, b) :: fs =>
    es.takeWhile (·.1 < k) ++
      mergeEntries f (alterEntries k (·.elim b (f · b)) (es.dropWhile (·.1 < k))) fs

section Merging

variable {α : Type} {f : α → α → α}

theorem mergeEntries_append {ds es fs : List (String × α)} (h : ∀ d ∈ ds, ∀ e ∈ fs, d.1 < e.1) :
    mergeEntries f (ds ++ es) fs = ds ++ mergeEntries f es fs := by
  cases fs with
  | nil => rfl
  | cons e fs =>
    have hd : ∀ d ∈ ds, decide (d.1 < e.1) = true := fun d hd => decide_eq_true (h d hd e (by simp))
    simp only [mergeEntries, List.takeWhile_append_of_pos hd, List.dropWhile_append_of_pos hd,
      List.append_assoc]

/-- Merging adds the entries of the second list one after the other. -/
theorem mergeEntries_eq_foldl {es fs : List (String × α)} (h : fs.Pairwise (·.1 < ·.1)) :
    mergeEntries f es fs = fs.foldl (fun es e => alterEntries e.1 (·.elim e.2 (f · e.2)) es) es := by
  induction fs generalizing es with
  | nil => rfl
  | cons e fs ih =>
    obtain ⟨he, hfs⟩ := List.pairwise_cons.1 h
    rw [List.foldl_cons, ← ih hfs, alterEntries_eq_append, mergeEntries_append, mergeEntries]
    intro d hd g hg
    have hd := List.all_eq_true.1 List.all_takeWhile d hd
    exact String.lt_trans (of_decide_eq_true hd) (he g hg)

theorem pairwise_mergeEntries {es fs : List (String × α)} (hes : es.Pairwise (·.1 < ·.1))
    (hfs : fs.Pairwise (·.1 < ·.1)) : (mergeEntries f es fs).Pairwise (·.1 < ·.1) := by
  rw [mergeEntries_eq_foldl hfs]
  clear hfs
  induction fs generalizing es with
  | nil => exact hes
  | cons e fs ih => exact ih (pairwise_alterEntries hes)

end Merging

/-! ## Maps -/

/-- A finite map with its entries in the order of their keys. -/
structure KeyMap (α : Type) where
  entries : List (String × α) := []
  ordered : entries.Pairwise (·.1 < ·.1) := by simp

namespace KeyMap

variable {α : Type}

def empty : KeyMap α := {}

instance : EmptyCollection (KeyMap α) := ⟨empty⟩

instance : Inhabited (KeyMap α) := ⟨empty⟩

instance [BEq α] : BEq (KeyMap α) := ⟨fun m n => m.entries == n.entries⟩

def keys (m : KeyMap α) : List String := m.entries.map (·.1)

def isEmpty (m : KeyMap α) : Bool := m.entries.isEmpty

def get? (m : KeyMap α) (k : String) : Option α := m.entries.lookup k

/-- The map with a new value at a key, made from the present one. -/
def alter (m : KeyMap α) (k : String) (f : Option α → α) : KeyMap α :=
  ⟨alterEntries k f m.entries, pairwise_alterEntries m.ordered⟩

/-- The map with a value at a key; a value already there is replaced. -/
def insert (m : KeyMap α) (k : String) (a : α) : KeyMap α := m.alter k fun _ => a

/-- A map with the entries of another. Where both have a key, `f` puts its values together. -/
def mergeWith (f : α → α → α) (m n : KeyMap α) : KeyMap α :=
  ⟨mergeEntries f m.entries n.entries, pairwise_mergeEntries m.ordered n.ordered⟩

/-- The map of a list of entries, in which a later entry replaces an earlier one of the same key. -/
def ofList (es : List (String × α)) : KeyMap α := es.foldr (fun e m => m.alter e.1 (·.getD e.2)) ∅

theorem ext {m n : KeyMap α} (h : m.entries = n.entries) : m = n := by
  cases m; cases n; simp_all

/-! ## Look-ups -/

theorem get?_empty (k : String) : (∅ : KeyMap α).get? k = none := rfl

theorem lookup_alterEntries {k : String} {f : Option α → α} {es : List (String × α)}
    (h : es.Pairwise (·.1 < ·.1)) (j : String) :
    (alterEntries k f es).lookup j = if j = k then some (f (es.lookup k)) else es.lookup j := by
  induction es with
  | nil =>
    by_cases hj : j = k
    · simp [alterEntries, hj]
    · simp [alterEntries, List.lookup_cons, hj, beq_eq_false_iff_ne.2 hj]
  | cons p es ih =>
    obtain ⟨i, a⟩ := p
    have hi := (List.pairwise_cons.1 h).1
    have hes := (List.pairwise_cons.1 h).2
    simp only [alterEntries]
    split
    · next hk =>
      have hne : k ≠ i := fun e => String.lt_irrefl _ (e ▸ hk)
      have habs : es.lookup k = none := by
        refine List.lookup_eq_none_iff.2 fun e he => ?_
        have := String.lt_trans hk (hi e he)
        simpa using fun e' : k = e.1 => String.lt_irrefl _ (e' ▸ this)
      by_cases hj : j = k
      · subst hj; simp [List.lookup_cons, beq_eq_false_iff_ne.2 hne, habs]
      · simp [List.lookup_cons, hj, beq_eq_false_iff_ne.2 hj]
    · split
      · next hk =>
        subst hk
        by_cases hj : j = k
        · subst hj; simp
        · simp [List.lookup_cons, hj, beq_eq_false_iff_ne.2 hj]
      · next hne =>
        by_cases hji : j = i
        · subst hji
          simp [Ne.symm hne]
        · simp only [List.lookup_cons, beq_eq_false_iff_ne.2 hji, ih hes, beq_eq_false_iff_ne.2 hne]

theorem get?_alter (m : KeyMap α) (k j : String) (f : Option α → α) :
    (m.alter k f).get? j = if j = k then some (f (m.get? k)) else m.get? j :=
  lookup_alterEntries m.ordered j

theorem get?_insert (m : KeyMap α) (k j : String) (a : α) :
    (m.insert k a).get? j = if j = k then some a else m.get? j :=
  get?_alter m k j _

theorem get?_ofList (es : List (String × α)) (k : String) : (ofList es).get? k = es.reverse.lookup k := by
  induction es with
  | nil => rfl
  | cons e es ih =>
    obtain ⟨j, a⟩ := e
    rw [ofList, List.foldr_cons, get?_alter, ← ofList, List.reverse_cons, List.lookup_append]
    by_cases hk : k = j
    · subst hk
      rw [if_pos rfl, ih]
      cases es.reverse.lookup k <;> simp
    · simp [hk, ih, List.lookup_cons, beq_eq_false_iff_ne.2 hk]

theorem lookup_eq_none_of_lt {k : String} {es : List (String × α)} (h : ∀ e ∈ es, k < e.1) :
    es.lookup k = none := by
  refine List.lookup_eq_none_iff.2 fun e he => ?_
  have := h e he
  simpa using fun e' : k = e.1 => String.lt_irrefl _ (e' ▸ this)

/-- A map is determined by its look-ups. -/
theorem eq_of_lookup_eq {es fs : List (String × α)} (hes : es.Pairwise (·.1 < ·.1))
    (hfs : fs.Pairwise (·.1 < ·.1)) (h : ∀ k, es.lookup k = fs.lookup k) : es = fs := by
  induction es generalizing fs with
  | nil =>
    cases fs with
    | nil => rfl
    | cons f fs =>
      obtain ⟨i, b⟩ := f
      have := h i
      simp at this
  | cons e es ih =>
    obtain ⟨j, a⟩ := e
    obtain ⟨hj, hes'⟩ := List.pairwise_cons.1 hes
    cases fs with
    | nil =>
      have := h j
      simp at this
    | cons f fs =>
      obtain ⟨i, b⟩ := f
      obtain ⟨hi, hfs'⟩ := List.pairwise_cons.1 hfs
      have hji : j = i := by
        rcases Std.lt_trichotomy (a := j) (b := i) with hlt | heq | hgt
        · have hne : j ≠ i := fun e => String.lt_irrefl _ (e ▸ hlt)
          have hk := h j
          rw [List.lookup_cons_self, List.lookup_cons, beq_eq_false_iff_ne.2 hne,
            lookup_eq_none_of_lt fun f hf => String.lt_trans hlt (hi f hf)] at hk
          simp at hk
        · exact heq
        · have hne : i ≠ j := fun e => String.lt_irrefl _ (e ▸ hgt)
          have hk := h i
          rw [List.lookup_cons_self, List.lookup_cons, beq_eq_false_iff_ne.2 hne,
            lookup_eq_none_of_lt fun f hf => String.lt_trans hgt (hj f hf)] at hk
          simp at hk
      subst hji
      have hab : a = b := by
        have hk := h j
        rw [List.lookup_cons_self, List.lookup_cons_self] at hk
        exact Option.some.inj hk
      subst hab
      have tail : es = fs := ih hes' hfs' fun k => by
        by_cases hkj : k = j
        · subst hkj
          rw [lookup_eq_none_of_lt hj, lookup_eq_none_of_lt hi]
        · have hk := h k
          simpa only [List.lookup_cons, beq_eq_false_iff_ne.2 hkj] using hk
      rw [tail]

theorem get?_mergeWith (f : α → α → α) (m n : KeyMap α) (k : String) :
    (m.mergeWith f n).get? k = Option.merge f (m.get? k) (n.get? k) := by
  show (mergeEntries f m.entries n.entries).lookup k =
    Option.merge f (m.entries.lookup k) (n.entries.lookup k)
  rw [mergeEntries_eq_foldl n.ordered]
  generalize hfs : n.entries = fs
  have hn : fs.Pairwise (·.1 < ·.1) := hfs ▸ n.ordered
  clear hfs
  have hm := m.ordered
  generalize m.entries = es at hm
  induction fs generalizing es with
  | nil => simp
  | cons e fs ih =>
    obtain ⟨he, hn⟩ := List.pairwise_cons.1 hn
    rw [List.foldl_cons, ih hn _ (pairwise_alterEntries hm), lookup_alterEntries hm]
    by_cases hk : k = e.1
    · subst hk
      rw [if_pos rfl, lookup_eq_none_of_lt he, List.lookup_cons_self]
      cases es.lookup e.1 <;> rfl
    · rw [if_neg hk, List.lookup_cons, beq_eq_false_iff_ne.2 hk]

theorem ext_get? {m n : KeyMap α} (h : ∀ k, m.get? k = n.get? k) : m = n :=
  ext (eq_of_lookup_eq m.ordered n.ordered h)

end KeyMap

end GraphQuery
