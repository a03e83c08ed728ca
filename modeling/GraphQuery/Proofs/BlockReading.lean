import GraphQuery.Client.Response
import GraphQuery.Proofs.ByteOrder
import GraphQuery.Proofs.DocumentValues

/-!
# Reading a response as a whole and block by block

A response is decoded as a whole from its document, and a block of it from the value of the
document. Main statement: of a document that has a value, both find the same lists of names,
unless a member that only the document still has is no list of names or an item of a list
gives its name twice.
-/

namespace GraphQuery

open List (Forall₂)

namespace Json

open GraphQuery.Json.Tree (keyed)
open Decoder (namedList)

/-! ## What a document repeats -/

/-- Whether each member that a later one of its key replaces is a list of names as well, and no item of a
    member gives its name twice. -/
def Tree.RepeatHarmlessly : List (Option String × Tree) → Prop
  | [] => True
  | (k, t) :: ms =>
    (k ∈ ms.map (·.1) → ∃ names, namedList t = some names) ∧ t.ItemsNameOnce ∧ RepeatHarmlessly ms

/-- Whether the repetitions in a document do no harm to readers of lists of names. -/
def Tree.RepeatsHarmlessly : Tree → Prop
  | .object ms => RepeatHarmlessly ms
  | _ => True

theorem Tree.mem_map_fst_keyed {ts : List (String × Tree)} {k : String} :
    some k ∈ (keyed ts).map (·.1) ↔ k ∈ ts.map (·.1) := by
  simp [keyed]

/-! ## The whole document -/

theorem Decoder.map_keyed_eq_some_iff {α : Type} {item : Decoder α} {ts : List (String × Tree)} {m : KeyMap α} :
    map item (.object (keyed ts)) = some m ↔
      ∃ es, Forall₂ (fun t e => t.1 = e.1 ∧ item t.2 = some e.2) ts es ∧ m = KeyMap.ofList es := by
  have opened : map item (.object (keyed ts)) =
      (ts.mapM fun t => (item t.2).map (t.1, ·)).bind fun es => some (KeyMap.ofList es) := by
    show ((members? (.object (keyed ts))).bind fun ms =>
      (ms.mapM fun t => (item t.2).map (t.1, ·)).bind fun es => some (KeyMap.ofList es)) = _
    rw [members?_keyed]
    rfl
  have each (t : String × Tree) (e : String × α) :
      (item t.2).map (t.1, ·) = some e ↔ t.1 = e.1 ∧ item t.2 = some e.2 := by
    rw [Option.map_eq_some_iff]
    constructor
    · rintro ⟨a, found, rfl⟩
      exact ⟨rfl, found⟩
    · rintro ⟨same, found⟩
      exact ⟨e.2, found, Prod.ext same rfl⟩
  rw [opened, Option.bind_eq_some_iff]
  refine exists_congr fun es => ?_
  rw [mapM_eq_some, Option.some.injEq, eq_comm]
  simp only [each]

theorem eq_of_rel {α β : Type} {R : α → β → Prop} (unique : ∀ {a b c}, R a b → R a c → b = c) {a : Option α}
    {b c : Option β} (left : Option.Rel R a b) (right : Option.Rel R a c) : b = c := by
  cases left with
  | none =>
    cases right
    rfl
  | some left =>
    cases right with
    | some right => rw [unique left right]

theorem rel_iff {α β : Type} {R : α → β → Prop} {a : Option α} {b : Option β} :
    Option.Rel R a b ↔ ((∃ y, b = some y) ↔ ∃ x, a = some x) ∧ ∀ x, a = some x → ∃ y, R x y ∧ b = some y := by
  cases a <;> cases b <;> simp

section Members

variable {limit : Nat} {ts : List (String × Tree)} {es : List (String × Json)}
  (each : Forall₂ (fun t e => t.1 = e.1 ∧ t.2.toJson? limit = some e.2) ts es)

include each

theorem repeatHarmlessly_of_namedList {fs : List (String × List String)}
    (found : Forall₂ (fun t f => t.1 = f.1 ∧ namedList t.2 = some f.2) ts fs) : Tree.RepeatHarmlessly (keyed ts) := by
  induction each generalizing fs with
  | nil => trivial
  | cons first _ ih =>
    cases found with
    | cons named others =>
      exact ⟨fun _ => ⟨_, named.2⟩, ((Decoder.namedList_eq_some_iff first.2).1 named.2).2, ih others⟩

/-- A member is the last one of its key, or it is replaced. -/
theorem exists_namedList_of_lastValue?
    (last : ∀ n v, KeyMap.lastValue? es n = some v → ∃ names, namedList (.ofJson v) = some names)
    (harmless : Tree.RepeatHarmlessly (keyed ts)) : ∀ t ∈ ts, ∃ names, namedList t.2 = some names := by
  induction each with
  | nil => simp
  | @cons t e ts es first rest ih =>
    obtain ⟨again, once, harmless⟩ := harmless
    refine List.forall_mem_cons.2 ⟨?_, ih (fun n v found => last n v ?_) harmless⟩
    · by_cases later : t.1 ∈ ts.map (·.1)
      · exact again (Tree.mem_map_fst_keyed.2 later)
      · have behind : KeyMap.lastValue? es t.1 = none := by
          have related := KeyMap.lastValue?_rel (fun t v => Tree.toJson? limit t = some v) rest t.1
          rw [KeyMap.lastValue?_eq_none_iff.2 later] at related
          cases found : KeyMap.lastValue? es t.1 with
          | none => rfl
          | some v =>
            rw [found] at related
            cases related
        obtain ⟨names, named⟩ := last t.1 e.2 (by rw [KeyMap.lastValue?_cons, behind, if_pos first.1]; rfl)
        exact ⟨names, (Decoder.namedList_eq_some_iff first.2).2 ⟨named, once⟩⟩
    · rw [KeyMap.lastValue?_cons, found]
      rfl

theorem lastValue?_namedList {fs : List (String × List String)}
    (found : Forall₂ (fun t f => t.1 = f.1 ∧ namedList t.2 = some f.2) ts fs) (n : String) :
    Option.Rel (fun v names => namedList (.ofJson v) = some names) (KeyMap.lastValue? es n) (KeyMap.lastValue? fs n) := by
  have valued := KeyMap.lastValue?_rel (fun t v => Tree.toJson? limit t = some v) each n
  have named := KeyMap.lastValue?_rel (fun t names => namedList t = some names) found n
  generalize KeyMap.lastValue? ts n = a, KeyMap.lastValue? es n = b, KeyMap.lastValue? fs n = c at valued named ⊢
  cases valued with
  | none =>
    cases named
    exact .none
  | some value =>
    cases named with
    | some name => exact .some ((Decoder.namedList_eq_some_iff value).1 name).1

/-- The whole document and its single members give the same lists of names when its repetitions do no harm. -/
theorem map_namedList_eq_some_iff {m : KeyMap (List String)} :
    Decoder.map namedList (.object (keyed ts)) = some m ↔
      (∀ n, Option.Rel (fun v names => namedList (.ofJson v) = some names) (KeyMap.lastValue? es n) (m.get? n)) ∧
        Tree.RepeatHarmlessly (keyed ts) := by
  rw [Decoder.map_keyed_eq_some_iff]
  constructor
  · rintro ⟨fs, found, rfl⟩
    refine ⟨fun n => ?_, repeatHarmlessly_of_namedList each found⟩
    rw [KeyMap.get?_ofList_eq_lastValue?]
    exact lastValue?_namedList each found n
  · rintro ⟨last, harmless⟩
    have decodes : ∀ t ∈ ts, ∃ names, namedList t.2 = some names := by
      refine exists_namedList_of_lastValue? each (fun n v kept => ?_) harmless
      have related := last n
      rw [kept] at related
      generalize m.get? n = names at related
      cases related with
      | some named => exact ⟨_, named⟩
    have found : Forall₂ (fun t f => t.1 = f.1 ∧ namedList t.2 = some f.2) ts
        (ts.map fun t => (t.1, (namedList t.2).getD [])) := by
      refine List.forall₂_map_right_iff.2 (List.forall₂_same.2 fun t member => ⟨rfl, ?_⟩)
      obtain ⟨names, named⟩ := decodes t member
      rw [named]
      rfl
    refine ⟨_, found, KeyMap.ext_get? fun n => ?_⟩
    rw [KeyMap.get?_ofList_eq_lastValue?]
    refine eq_of_rel (fun left right => ?_) (last n) (lastValue?_namedList each found n)
    rw [left] at right
    exact Option.some.inj right

end Members

end Json

/-! ## Responses -/

namespace Client

open Json (Tree)
open Json.Decoder (namedList)

namespace QueryResponse

theorem decoded_eq_ok_iff {α : Type} {found : Option α} {a : α} : decoded found = .ok a ↔ found = some a := by
  cases found with
  | none => simp [decoded]
  | some b => simp [decoded]

theorem block_eq_ok_iff {α : Type} {r : QueryResponse} {members : List (String × Json)} {n : String}
    {decoder : Json.Decoder α} {a : α} (readable : r.json = .ok (.object members)) :
    r.block n decoder = .ok a ↔ ∃ v, members.lookup n = some v ∧ decoder (.ofJson v) = some a := by
  rw [block, readable]
  dsimp only
  cases members.lookup n with
  | none => simp
  | some v => simp [decoded_eq_ok_iff]

/-- A response whose document has a value is decoded as a whole exactly when the value is an object, each of
    its blocks can be read, and the repetitions in the document do no harm. Both readings then give
    the same list of names for each key. -/
theorem decode_eq_ok_iff {raw : RawResponse} {doc : Json} (readable : (QueryResponse.mk none raw).json = .ok doc)
    (m : KeyMap (List String)) :
    (QueryResponse.mk none raw).decode (Json.Decoder.map namedList) = .ok m ↔
      ∃ members, doc = .object members ∧ (∀ n, n ∈ m.keys ↔ n ∈ members.map (·.1)) ∧
        (∀ n ∈ members.map (·.1), ∃ names,
          (QueryResponse.mk none raw).block n namedList = .ok names ∧ m.get? n = some names) ∧
        ∃ t, Tree.ofBytes? raw.json = some t ∧ t.RepeatsHarmlessly := by
  obtain ⟨t, parsed, value⟩ := Option.bind_eq_some_iff.1 (decoded_eq_ok_iff.1 readable)
  have whole : (QueryResponse.mk none raw).decode (Json.Decoder.map namedList) =
      decoded (Json.Decoder.map namedList t) := by
    rw [decode]
    dsimp only
    rw [parsed]
    rfl
  rw [whole, decoded_eq_ok_iff]
  cases Tree.opened value with
  | @object limit ts es each =>
    have kept n : (KeyMap.ofList es).entries.lookup n = KeyMap.lastValue? es n := KeyMap.get?_ofList_eq_lastValue? es n
    have keys n : n ∈ (KeyMap.ofList es).entries.map (·.1) ↔ ∃ v, KeyMap.lastValue? es n = some v := by
      rw [← KeyMap.keys, KeyMap.mem_keys_iff, KeyMap.get?_ofList_eq_lastValue?]
    rw [Json.map_namedList_eq_some_iff each]
    simp only [Json.rel_iff, forall_and]
    constructor
    · rintro ⟨⟨domain, last⟩, harmless⟩
      refine ⟨_, rfl, fun n => ?_, fun n member => ?_, _, parsed, harmless⟩
      · rw [KeyMap.mem_keys_iff, domain, keys]
      · obtain ⟨v, found⟩ := (keys n).1 member
        obtain ⟨names, named, same⟩ := last n v found
        exact ⟨names, (block_eq_ok_iff readable).2 ⟨v, (kept n).trans found, named⟩, same⟩
    · rintro ⟨_, opened, domain, blocks, _, reparsed, harmless⟩
      cases opened
      rw [parsed] at reparsed
      cases reparsed
      refine ⟨⟨fun n => ?_, fun n v found => ?_⟩, harmless⟩
      · rw [← KeyMap.mem_keys_iff, domain, keys]
      · obtain ⟨names, read, same⟩ := blocks n ((keys n).2 ⟨v, found⟩)
        obtain ⟨w, looked, named⟩ := (block_eq_ok_iff readable).1 read
        rw [kept, found] at looked
        cases looked
        exact ⟨names, named, same⟩
  | _ => simp [Json.Decoder.map, Json.Decoder.members?]

end QueryResponse

/-- The answer to several blocks. -/
def reply (document : String) : QueryResponse := ⟨none, { json := Text.utf8 document }⟩

/-- Films, of which an empty list was given first, and people, one of whom is written as an array. -/
def credits : String :=
  "\x7b\"films\":[],\"films\":[\x7b\"year\":1.979e3,\"name\":\"Alien\"\x7d],\"people\":[[\"Ridley\"]]\x7d"

theorem decode_eq_ok_iff_credits :
    ∃ doc m, (reply credits).json = .ok doc ∧ (reply credits).decode (Json.Decoder.map namedList) = .ok m ∧
      m.keys = ["films", "people"] ∧ ∃ films people, (reply credits).block "films" namedList = .ok films ∧
        m.get? "films" = some films ∧ (reply credits).block "people" namedList = .ok people ∧
        m.get? "people" = some people := by
  have parses : (reply credits).json.isOk = true := by decide +kernel
  have found : ((reply credits).decode (Json.Decoder.map namedList)).toOption.map (·.keys) =
      some ["films", "people"] := by decide +kernel
  cases readable : (reply credits).json with
  | error e =>
    rw [readable] at parses
    cases parses
  | ok doc =>
    cases whole : (reply credits).decode (Json.Decoder.map namedList) with
    | error e =>
      rw [whole] at found
      cases found
    | ok m =>
      rw [whole] at found
      have keys : m.keys = ["films", "people"] := Option.some.inj found
      obtain ⟨members, _, domain, blocks, _⟩ := (QueryResponse.decode_eq_ok_iff readable m).1 whole
      obtain ⟨films, read, same⟩ := blocks "films" ((domain _).1 (by simp [keys]))
      obtain ⟨people, read', same'⟩ := blocks "people" ((domain _).1 (by simp [keys]))
      exact ⟨doc, m, rfl, rfl, keys, films, people, read, same, read', same'⟩

/-- A number too large to have a value, where no reader of names looks. -/
def overflowing : String := "\x7b\"films\":[\x7b\"name\":\"Alien\",\"votes\":1e999\x7d]\x7d"

/-- A name that is given twice. -/
def renamed : String := "\x7b\"films\":[\x7b\"name\":\"Alien\",\"name\":\"Aliens\"\x7d]\x7d"

/-- A member that is no list, replaced by one of its key. -/
def replaced : String := "\x7b\"films\":null,\"films\":[\x7b\"name\":\"Alien\"\x7d]\x7d"

/-- The first document is decoded as a whole while no block can be read, and of the others the only block
    can be read while the whole cannot be decoded. -/
theorem readings_differ :
    let whole document := ((reply document).decode (Json.Decoder.map namedList)).toOption.map (·.entries)
    let films document := ((reply document).block "films" namedList).toOption
    (whole overflowing = some [("films", ["Alien"])] ∧ films overflowing = none) ∧
      (whole renamed = none ∧ films renamed = some ["Aliens"]) ∧
      (whole replaced = none ∧ films replaced = some ["Alien"]) := by
  refine ⟨⟨?_, ?_⟩, ⟨?_, ?_⟩, ?_, ?_⟩ <;> decide +kernel

end Client

end GraphQuery
