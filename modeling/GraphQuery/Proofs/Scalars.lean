import GraphQuery.Mutation
import GraphQuery.Proofs.Numbering
import GraphQuery.Proofs.Replacement

/-!
# Types of bound values

A slot holds one scalar of the type that its variable is declared with. Main statement: lists,
raw text and numbers that are not finite are never bound, wherever in a query or in a condition
they stand. A compilation either fails or has bound their items.
-/

namespace GraphQuery

open List (Forall₂)

open Compiled (Both map_eq_ok)

/-! ## Typed scalars -/

/-- A scalar of the type of a query variable. Text of any kind is a string, and both kinds of integers
    are of one type. -/
inductive Value.HasType : Value → DataType → Prop where
  | string (s : String) : HasType (.string s) .string
  | other (s : String) : HasType (.other s) .string
  | int (i : Int) : HasType (.int i) .int
  | uint (n : Nat) : HasType (.uint n) .int
  | float {x : Binary64} (finite : x.isFinite = true) : HasType (.float x) .float
  | bool (b : Bool) : HasType (.bool b) .bool
  | datetime (t : Timestamp) : HasType (.datetime t) .datetime

theorem Value.hasType_iff {v : Value} {T : DataType} : v.HasType T ↔ v.isBound = true ∧ v.dataType = T := by
  constructor
  · intro typed
    cases typed with
    | float finite => exact ⟨finite, rfl⟩
    | _ => exact ⟨rfl, rfl⟩
  · rintro ⟨bound, rfl⟩
    cases v with
    | string s => exact .string s
    | other s => exact .other s
    | int i => exact .int i
    | uint n => exact .uint n
    | float x => exact .float bound
    | bool b => exact .bool b
    | datetime t => exact .datetime t
    | nilList | list | raw => cases bound

theorem DataType.text_injective : Function.Injective DataType.text := by
  intro T U same
  cases T <;> cases U <;> first | rfl | exact absurd same (by decide)

/-! ## Fragments -/

/-- A fragment that binds nothing but typed scalars. -/
def Fragment.WellTyped (f : Fragment) : Prop := ∀ v ∈ f.args, ∃ T, v.HasType T

namespace Fragment.WellTyped

theorem iff_isBound {f : Fragment} : f.WellTyped ↔ ∀ v ∈ f.args, v.isBound = true := by
  refine forall₂_congr fun v _ => ⟨?_, fun bound => ⟨v.dataType, Value.hasType_iff.2 ⟨bound, rfl⟩⟩⟩
  rintro ⟨T, typed⟩
  exact (Value.hasType_iff.1 typed).1

theorem text (s : String) : (Fragment.text s).WellTyped := by simp [WellTyped, args_text]

theorem slot {v : Value} (bound : v.isBound = true) : (Fragment.slot v).WellTyped := by
  simpa [iff_isBound, args_slot] using bound

theorem append {f g : Fragment} (first : f.WellTyped) (second : g.WellTyped) : (f ++ g).WellTyped := by
  unfold WellTyped
  rw [args_append]
  exact List.forall_mem_append.2 ⟨first, second⟩

theorem wrap {f : Fragment} (typed : f.WellTyped) (before after : String) : (f.wrap before after).WellTyped := by
  unfold WellTyped
  rw [args_wrap]
  exact typed

theorem separated {fs : List Fragment} (each : ∀ f ∈ fs, f.WellTyped) (sep : String) :
    (Fragment.separated sep fs).WellTyped := by
  unfold WellTyped
  rw [args_separated]
  exact List.forall_mem_flatMap.2 each

theorem join {fs : List Fragment} (each : ∀ f ∈ fs, f.WellTyped) (sep : String) :
    (Fragment.join sep fs).WellTyped := by
  unfold WellTyped
  rw [args_join]
  exact List.forall_mem_flatMap.2 each

end Fragment.WellTyped

/-! ## Values and pagination -/

namespace Value

theorem wellTyped_compileItem {v : Value} {f : Fragment} (h : v.compileItem = .ok f) : f.WellTyped := by
  by_cases bound : v.isBound = true
  · rw [(compile_of_isBound bound).2] at h
    cases h
    exact .slot bound
  · cases v with
    | raw s =>
      cases h
      exact .text s
    | float x =>
      have infinite : x.isFinite = false := by simpa [isBound] using bound
      simp [compileItem, bindable, infinite, Except.map] at h
    | nilList | list => cases h
    | _ => exact absurd rfl bound

theorem wellTyped_bracketedItems {items : List Fragment} (each : ∀ f ∈ items, f.WellTyped) :
    (bracketedItems items).WellTyped :=
  ((Fragment.WellTyped.text "[").append (.separated each ",")).append (.text "]")

/-- A value other than a list is compiled as it is inside one. -/
theorem compile_eq_compileItem {v : Value} (single : v.isList = false) : v.compile = v.compileItem := by
  cases v with
  | nilList | list => cases single
  | _ => rfl

theorem wellTyped_compile {v : Value} {f : Fragment} (h : v.compile = .ok f) : f.WellTyped := by
  by_cases single : v.isList = false
  · rw [compile_eq_compileItem single] at h
    exact wellTyped_compileItem h
  · cases v with
    | nilList =>
      cases h
      exact wellTyped_bracketedItems (by simp)
    | list vs =>
      obtain ⟨items, run, rfl⟩ := map_eq_ok.1 h
      refine wellTyped_bracketedItems fun f member => ?_
      obtain ⟨v, _, compiled⟩ := Compiled.exists_of_mem_mapM run member
      exact wellTyped_compileItem compiled
    | _ => exact absurd rfl single

end Value

theorem Cursor.wellTyped_compile (c : Cursor) : c.compile.WellTyped := by
  have clause (wanted : Bool) (keyword : String) {v : Value} (bound : v.isBound = true) :
      ∀ f ∈ clause wanted keyword v, f.WellTyped := by
    cases wanted with
    | false => exact fun f member => nomatch member
    | true => exact fun f member => List.mem_singleton.1 member ▸ (Fragment.WellTyped.text _).append (.slot bound)
  refine .join (fun f member => ?_) ","
  rcases List.mem_append.1 member with member | after
  · rcases List.mem_append.1 member with first | offset
    · exact clause _ _ rfl f first
    · exact clause _ _ rfl f offset
  · exact clause _ _ rfl f after

/-! ## Everything that is compiled -/

/-- A slot that holds a typed scalar, whatever the slot beside it. -/
def Value.BoundLeft (v _ : Value) : Prop := v.isBound = true

theorem Fragment.WellTyped.alike {f : Fragment} (typed : f.WellTyped) : Fragment.Alike Value.BoundLeft f f := by
  refine ⟨List.forall₂_same.2 fun s member => ⟨rfl, iff_isBound.1 typed s.2 ?_⟩, rfl⟩
  exact List.mem_map_of_mem member

theorem Fragment.Alike.wellTyped {f g : Fragment} (alike : Fragment.Alike Value.BoundLeft f g) : f.WellTyped := by
  have marked : Forall₂ (fun v _ => v.isBound = true ∧ True) f.args g.args :=
    alike.args.imp fun _ _ bound => ⟨bound, trivial⟩
  exact WellTyped.iff_isBound.2 ((List.forall₂_and_left _ _).1 marked).1

/-- Typed scalars are what compilations side by side have in every slot, so it is enough to compile a query
    beside itself. -/
theorem Value.alike_boundLeft : Value.Alike (id · = ·) Value.BoundLeft where
  compile := by
    rintro v _ rfl
    show Both _ v.compile v.compile
    cases compiled : v.compile with
    | error e => exact .error e e
    | ok f => exact .ok (wellTyped_compile compiled).alike
  cursor c := c.wellTyped_compile.alike

theorem Compiled.Both.wellTyped {x y : Compiled Fragment} (both : Both (Fragment.Alike Value.BoundLeft) x y)
    {f : Fragment} (h : x = .ok f) : f.WellTyped := by
  subst h
  cases both with
  | ok alike => exact alike.wellTyped

theorem Expr.wellTyped_compile {e : Expr} {f : Fragment} (h : e.compile = .ok f) : f.WellTyped :=
  (both_compile Value.alike_boundLeft (e.like_mapValues fun _ => rfl)).wellTyped h

theorem Block.wellTyped_compile {b : Block} {r : Registry} {f : Fragment} (h : b.compile r = .ok f) : f.WellTyped := by
  have both : Both (Fragment.Alike Value.BoundLeft) (Builder.mk b r []).compile
      (Builder.mk (b.mapValues id) (Registry.mapValues id r) []).compile :=
    Builder.both_compile Value.alike_boundLeft (b.like_mapValues fun _ => rfl) (r.like_mapValues fun _ => rfl)
  exact both.wellTyped h

theorem Builder.wellTyped_compile {q : Builder} {f : Fragment} (h : q.compile = .ok f) : f.WellTyped :=
  Block.wellTyped_compile h

theorem Condition.wellTyped_body {filters : List Expr} {f : Fragment} (h : body filters = .ok f) : f.WellTyped := by
  obtain ⟨fs, run, rfl⟩ := map_eq_ok.1 h
  refine .join (fun f member => ?_) _
  obtain ⟨e, _, compiled⟩ := Compiled.exists_of_mem_mapM run member
  exact Expr.wellTyped_compile (Expr.compileFilter_eq_ok.1 compiled).2

theorem Request.wellTyped_body {builders : List Builder} {f : Fragment} (h : body builders = .ok f) : f.WellTyped := by
  obtain ⟨fs, run, rfl⟩ := body_eq_ok.1 h
  refine .join (fun f member => ?_) _
  obtain ⟨q, _, compiled⟩ := Compiled.exists_of_mem_mapM run member
  exact Builder.wellTyped_compile compiled

/-! ## Declarations -/

/-- A typed scalar is declared with its type and with no other. -/
theorem Request.hasType_iff_declared {f : Fragment} (typed : f.WellTyped) {j : Nat} {v : Value} {T : DataType}
    (found : f.args[j]? = some v) :
    v.HasType T ↔ (f.args.mapIdx declaration)[j]? = some ("$" ++ toString j ++ ":" ++ T.text) := by
  obtain ⟨U, own⟩ := typed v (List.mem_of_getElem? found)
  obtain ⟨bound, rfl⟩ := Value.hasType_iff.1 own
  have declared : (f.args.mapIdx declaration)[j]? = some (declaration j v) := by
    rw [List.getElem?_mapIdx, found]
    rfl
  rw [declared, Option.some.injEq, Value.hasType_iff, and_iff_right bound]
  exact ((String.append_right_inj _).trans DataType.text_injective.eq_iff).symm

/-- Only typed scalars are bound: in an expression, in a block of any registry, in a builder, in the condition
    of a mutation and in a request, whose declarations give each value the type that it has. -/
theorem arguments_typed :
    (∀ (e : Expr) (f : Fragment), e.compile = .ok f → f.WellTyped) ∧
    (∀ (b : Block) (r : Registry) (f : Fragment), b.compile r = .ok f → f.WellTyped) ∧
    (∀ (q : Builder) (f : Fragment), q.compile = .ok f → f.WellTyped) ∧
    (∀ (filters : List Expr) (text : String), Condition.compile filters = .ok text →
      ∃ f : Fragment, Condition.body filters = .ok f ∧ f.WellTyped ∧
        text = if f.isEmpty then "" else "@if(" ++ f.inlined ++ ") ") ∧
    ∀ (builders : List Builder) (query : CompiledQuery), Request.compile builders = .ok query →
      ∃ body : Fragment, Request.body builders = .ok body ∧ body.WellTyped ∧
        query.declarations.length = body.args.length ∧
        ∀ (j : Nat) (v : Value) (T : DataType), body.args[j]? = some v →
          (v.HasType T ↔ query.declarations[j]? = some ("$" ++ toString j ++ ":" ++ T.text)) := by
  refine ⟨fun _ _ => Expr.wellTyped_compile, fun _ _ _ => Block.wellTyped_compile,
    fun _ _ => Builder.wellTyped_compile, fun filters text compiled => ?_, fun builders query compiled => ?_⟩
  · obtain ⟨f, written, rfl⟩ := map_eq_ok.1 compiled
    exact ⟨f, written, Condition.wellTyped_body written, rfl⟩
  · obtain ⟨body, written, rfl⟩ := Request.compile_eq_ok.1 compiled
    have typed := Request.wellTyped_body written
    exact ⟨body, written, typed, List.length_mapIdx, fun j v T => Request.hasType_iff_declared typed⟩

/-- A filter with a list of mixed items, an interval and a call of two numbers. -/
def crewed : Expr :=
  let crew : Value := .list [.string "0x1", .raw "val(u)", .other "[1]", .float (.ofRatio true 5 2)]
  let start : Timestamp := { seconds := 0, nanos := 0, offset := 3600 }
  .all [.compare .eq (KeyMap.ofList [("crew", crew)]), .between "at" (.datetime start) (.bool true),
    .not (.apply .uid (.value (.list [.uint 7, .int (-7)])))]

/-- A query over `crewed` with a paginated edge. -/
def rally : Builder :=
  (Builder.query crewed).edgeWith "stop" [.paginate { first := -2, offset := 3, after := "0x9" }]

theorem arguments_typed_rally :
    ∃ (e q c body : Fragment) (query : CompiledQuery), crewed.compile = .ok e ∧ e.WellTyped ∧
      rally.root.compile rally.children = .ok q ∧ rally.compile = .ok q ∧ q.WellTyped ∧
      Condition.body [crewed] = .ok c ∧ c.WellTyped ∧ Request.compile [rally] = .ok query ∧
      Request.body [rally] = .ok body ∧ body.WellTyped ∧
      query.declarations = ["$0:string", "$1:string", "$2:float", "$3:datetime", "$4:bool", "$5:int", "$6:int",
        "$7:int", "$8:int", "$9:string"] := by
  obtain ⟨expr, block, _, condition, request⟩ := arguments_typed
  have filters : crewed.compile.isOk = true := by decide +kernel
  have builds : rally.compile.isOk = true := by decide +kernel
  have guards : (Condition.compile [crewed]).isOk = true := by decide +kernel
  have answers : (Request.compile [rally]).isOk = true := by decide +kernel
  obtain ⟨e, expressed⟩ := Compiled.exists_of_isOk filters
  obtain ⟨q, built⟩ := Compiled.exists_of_isOk builds
  obtain ⟨text, guarded⟩ := Compiled.exists_of_isOk guards
  obtain ⟨query, compiled⟩ := Compiled.exists_of_isOk answers
  obtain ⟨c, joined, ifTyped, _⟩ := condition _ _ guarded
  obtain ⟨body, inside, typed, _, _⟩ := request _ _ compiled
  have declared : (Request.compile [rally]).toOption.map (·.declarations) = some ["$0:string", "$1:string",
      "$2:float", "$3:datetime", "$4:bool", "$5:int", "$6:int", "$7:int", "$8:int", "$9:string"] := by
    decide +kernel
  rw [compiled] at declared
  exact ⟨e, q, c, body, query, expressed, expr _ _ expressed, built, built, block _ _ _ built, joined, ifTyped,
    compiled, inside, typed, Option.some.inj declared⟩

end GraphQuery
