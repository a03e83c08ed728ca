import GraphQuery.Json.Decoder
import GraphQuery.Proofs.LastValues

/-!
# Documents and their values

What a decoder finds in a document and in its value. A value has the last member of each
key alone, while a decoder of a record refuses a document with two. Main statement: a list
of names is found in a document exactly when it is found in its value and no item of the
document gives its name twice.
-/

namespace GraphQuery.Json

open List (Forall₂)

theorem mapM_eq_some {α β : Type} {f : α → Option β} {xs : List α} {ys : List β} :
    xs.mapM f = some ys ↔ Forall₂ (fun x y => f x = some y) xs ys := by
  induction xs generalizing ys with
  | nil => simp [List.mapM_nil, eq_comm]
  | cons x xs ih =>
    rw [List.mapM_cons, List.forall₂_cons_left_iff]
    simp only [Option.bind_eq_bind, Option.bind_eq_some_iff, ih, Option.pure_def, Option.some.injEq]
    constructor
    · rintro ⟨y, first, ys', rest, rfl⟩
      exact ⟨y, ys', first, rest, rfl⟩
    · rintro ⟨y, ys', first, rest, rfl⟩
      exact ⟨y, first, ys', rest, rfl⟩

/-! ## Values of documents -/

namespace Tree

theorem itemsToJson?_eq_some {limit : Nat} {ts : List Tree} {vs : List Json} :
    itemsToJson? limit ts = some vs ↔ Forall₂ (fun t v => t.toJson? limit = some v) ts vs := by
  induction ts generalizing vs with
  | nil => simp [itemsToJson?, eq_comm]
  | cons t ts ih =>
    rw [itemsToJson?, List.forall₂_cons_left_iff]
    constructor
    · intro run
      split at run
      · next v vs' first rest =>
        cases run
        exact ⟨v, vs', first, ih.1 rest, rfl⟩
      · cases run
    · rintro ⟨v, vs', first, rest, rfl⟩
      rw [first, ih.2 rest]

/-- The members of a document whose keys are text. -/
def keyed (ts : List (String × Tree)) : List (Option String × Tree) := ts.map fun e => (some e.1, e.2)

theorem membersToJson?_eq_some {limit : Nat} {ms : List (Option String × Tree)} {es : List (String × Json)} :
    membersToJson? limit ms = some es ↔ ∃ ts, ms = keyed ts ∧
      Forall₂ (fun t e => t.1 = e.1 ∧ t.2.toJson? limit = some e.2) ts es := by
  induction ms generalizing es with
  | nil =>
    constructor
    · intro run
      cases run
      exact ⟨[], rfl, .nil⟩
    · rintro ⟨ts, same, each⟩
      cases ts with
      | nil =>
        cases each
        rfl
      | cons t ts => cases same
  | cons m ms ih =>
    obtain ⟨k, t⟩ := m
    unfold membersToJson?
    constructor
    · intro run
      split at run
      · next k v es' first rest =>
        cases run
        obtain ⟨ts, rfl, each⟩ := ih.1 rest
        exact ⟨(k, t) :: ts, rfl, .cons ⟨rfl, first⟩ each⟩
      · cases run
    · rintro ⟨ts, same, each⟩
      cases each with
      | nil => cases same
      | @cons _ e _ _ first rest =>
        obtain ⟨j, v⟩ := e
        cases same
        obtain ⟨rfl, valued⟩ := first
        rw [valued, ih.2 ⟨_, rfl, rest⟩]

/-- A document and its value, opened at the top. The value of an object has the last member of each key. -/
inductive Opened : Tree → Json → Prop where
  | null : Opened .null .null
  | bool (b : Bool) : Opened (.bool b) (.bool b)
  | number (n : Number) : Opened (.number (some n)) (.number n)
  | string (s : String) : Opened (.string (some s)) (.string s)
  | array {limit : Nat} {ts : List Tree} {vs : List Json}
      (each : Forall₂ (fun t v => t.toJson? limit = some v) ts vs) : Opened (.array ts) (.array vs)
  | object {limit : Nat} {ts : List (String × Tree)} {es : List (String × Json)}
      (each : Forall₂ (fun t e => t.1 = e.1 ∧ t.2.toJson? limit = some e.2) ts es) :
      Opened (.object (keyed ts)) (.object (KeyMap.ofList es).entries)

theorem opened {limit : Nat} {t : Tree} {v : Json} (value : t.toJson? limit = some v) : Opened t v := by
  cases t with
  | number n =>
    obtain ⟨n, rfl, rfl⟩ := Option.map_eq_some_iff.1 (by simpa [toJson?] using value)
    exact .number n
  | string s =>
    obtain ⟨s, rfl, rfl⟩ := Option.map_eq_some_iff.1 (by simpa [toJson?] using value)
    exact .string s
  | array ts =>
    cases limit with
    | zero => cases value
    | succ limit =>
      obtain ⟨vs, run, rfl⟩ := Option.map_eq_some_iff.1 (by simpa [toJson?] using value)
      exact .array (itemsToJson?_eq_some.1 run)
  | object ms =>
    cases limit with
    | zero => cases value
    | succ limit =>
      obtain ⟨es, run, rfl⟩ := Option.map_eq_some_iff.1 (by simpa [toJson?] using value)
      obtain ⟨ts, rfl, each⟩ := membersToJson?_eq_some.1 run
      exact .object each
  | _ =>
    cases value
    constructor

theorem itemsOfJson_eq_map (vs : List Json) : itemsOfJson vs = vs.map ofJson := by
  induction vs with
  | nil => rfl
  | cons v vs ih => rw [itemsOfJson, ih, List.map_cons]

theorem membersOfJson_eq_keyed (es : List (String × Json)) :
    membersOfJson es = keyed (es.map fun e => (e.1, ofJson e.2)) := by
  induction es with
  | nil => rfl
  | cons e es ih =>
    obtain ⟨k, v⟩ := e
    rw [membersOfJson, ih]
    rfl

end Tree

/-! ## Fields of records -/

namespace Decoder

open GraphQuery.Json.Tree (keyed)

theorem members?_keyed (ts : List (String × Tree)) : members? (.object (keyed ts)) = some ts := by
  rw [members?, mapM_eq_some, keyed, List.forall₂_map_left_iff]
  exact List.forall₂_same.2 fun t _ => rfl

/-- A field is there when it is given once. -/
theorem field?_eq_some_iff {ts : List (String × Tree)} {key : String} {t : Tree} :
    field? ts key = some t ↔ KeyMap.lastValue? ts key = some t ∧ (ts.filter (·.1 == key)).length ≤ 1 := by
  unfold field? KeyMap.lastValue?
  generalize ts.filter (·.1 == key) = found
  match found with
  | [] => simp
  | [(_, u)] => simp
  | a :: b :: rest => simp

/-- A list of things that have names. -/
def namedList : Decoder (List String) := array named

theorem string_ofJson {limit : Nat} {t : Tree} {v : Json} (value : t.toJson? limit = some v) :
    string (.ofJson v) = string t := by
  cases Tree.opened value <;> rfl

/-- A record of one field as an object gives it once. -/
theorem record_keyed_eq_some_iff {α : Type} {item : Decoder α} {key : String} {ts : List (String × Tree)} {a : α} :
    record key item (.object (keyed ts)) = some a ↔
      (∃ t, KeyMap.lastValue? ts key = some t ∧ item t = some a) ∧ (ts.filter (·.1 == key)).length ≤ 1 := by
  have opened : record key item (.object (keyed ts)) = (field? ts key).bind item := by
    show ((members? (.object (keyed ts))).bind fun ms => (field? ms key).bind item) = _
    rw [members?_keyed]
    rfl
  rw [opened, Option.bind_eq_some_iff]
  simp only [field?_eq_some_iff]
  constructor
  · rintro ⟨t, ⟨last, once⟩, found⟩
    exact ⟨⟨t, last, found⟩, once⟩
  · rintro ⟨⟨t, last, found⟩, once⟩
    exact ⟨t, ⟨last, once⟩, found⟩

end Decoder

/-! ## Names given once -/

namespace Tree

/-- Whether a document gives its name no more than once. -/
def NamesOnce : Tree → Prop
  | .object ms => (ms.filter (·.1 == some "name")).length ≤ 1
  | _ => True

/-- Whether the items of a document give their names no more than once. -/
def ItemsNameOnce : Tree → Prop
  | .array ts => ∀ t ∈ ts, t.NamesOnce
  | _ => True

theorem namesOnce_keyed_iff {ts : List (String × Tree)} :
    (object (keyed ts)).NamesOnce ↔ (ts.filter (·.1 == "name")).length ≤ 1 := by
  simp [NamesOnce, keyed, List.filter_map, Function.comp_def]

end Tree

namespace Decoder

open GraphQuery.Json.Tree (keyed)

/-- A name is found in a document exactly when it is found in its value and is given once. -/
theorem named_eq_some_iff {limit : Nat} {t : Tree} {v : Json} (value : t.toJson? limit = some v) {s : String} :
    named t = some s ↔ named (.ofJson v) = some s ∧ t.NamesOnce := by
  cases Tree.opened value with
  | @object inner ts es each =>
    have last := KeyMap.lastValue?_rel (fun t v => Tree.toJson? inner t = some v) each "name"
    have inValue :
        (((KeyMap.ofList es).entries.map fun e => (e.1, Tree.ofJson e.2)).filter (·.1 == "name")).length ≤ 1 := by
      rw [List.filter_map, List.length_map]
      exact KeyMap.length_filter_entries_le _ _
    rw [Tree.namesOnce_keyed_iff, Tree.ofJson, Tree.membersOfJson_eq_keyed, named, record_keyed_eq_some_iff,
      record_keyed_eq_some_iff, and_iff_left inValue]
    refine and_congr_left fun _ => ?_
    rw [KeyMap.lastValue?_map, KeyMap.lastValue?_entries, KeyMap.get?_ofList_eq_lastValue?]
    generalize KeyMap.lastValue? ts "name" = given, KeyMap.lastValue? es "name" = kept at last
    cases last with
    | none => simp
    | some found => simp [string_ofJson found]
  | array each =>
    refine Iff.trans ?_ (and_iff_left trivial).symm
    rw [Tree.ofJson, Tree.itemsOfJson_eq_map]
    cases each with
    | nil => rfl
    | cons first rest =>
      cases rest with
      | nil =>
        show string _ = _ ↔ string _ = _
        rw [string_ofJson first]
      | cons second rest => simp [named, record]
  | _ => exact (and_iff_left trivial).symm

theorem mapM_named_eq_some_iff {limit : Nat} {ts : List Tree} {vs : List Json}
    (each : Forall₂ (fun t v => t.toJson? limit = some v) ts vs) {names : List String} :
    ts.mapM named = some names ↔ (vs.map Tree.ofJson).mapM named = some names ∧ ∀ t ∈ ts, t.NamesOnce := by
  rw [mapM_eq_some, mapM_eq_some]
  induction each generalizing names with
  | nil => simp
  | cons first rest ih =>
    rw [List.map_cons, List.forall₂_cons_left_iff, List.forall₂_cons_left_iff, List.forall_mem_cons]
    constructor
    · rintro ⟨name, names, found, others, rfl⟩
      obtain ⟨found, once⟩ := (named_eq_some_iff first).1 found
      obtain ⟨others, eachOnce⟩ := ih.1 others
      exact ⟨⟨name, names, found, others, rfl⟩, once, eachOnce⟩
    · rintro ⟨⟨name, names, found, others, rfl⟩, once, eachOnce⟩
      exact ⟨name, names, (named_eq_some_iff first).2 ⟨found, once⟩, ih.2 ⟨others, eachOnce⟩, rfl⟩

/-- A list of names is found in a document exactly when it is found in its value and no item gives its
    name twice. -/
theorem namedList_eq_some_iff {limit : Nat} {t : Tree} {v : Json} (value : t.toJson? limit = some v)
    {names : List String} :
    namedList t = some names ↔ namedList (.ofJson v) = some names ∧ t.ItemsNameOnce := by
  cases Tree.opened value with
  | array each =>
    rw [Tree.ofJson, Tree.itemsOfJson_eq_map]
    exact mapM_named_eq_some_iff each
  | _ => exact (and_iff_left trivial).symm

end Decoder

end GraphQuery.Json
