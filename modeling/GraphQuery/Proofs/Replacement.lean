import GraphQuery.Proofs.MapValues
import GraphQuery.Proofs.RequestBlocks

/-!
# Replacing the values of a request

A replacement puts text in place of text and numbers in place of numbers, item by item in
lists, and keeps which values are equal. Main statement: it decides neither whether builders
compile, nor the text of their query, nor the declarations. Only the map of variables differs.
-/

namespace GraphQuery

open List (Forall₂)

open Compiled (Both)

/-! ## Which blocks are written -/

namespace Request

/-- A change of builders that neither names nor comparisons show. -/
structure Unseen (m : Builder → Builder) : Prop where
  keeps : KeepsEquality m
  blockName : ∀ q, (m q).blockName = q.blockName
  isVariable : ∀ q, (m q).isVariable = q.isVariable
  attached : ∀ q, (m q).attached = q.attached.map m
  name : ∀ q n, m (q.name n) = (m q).name n

variable {m : Builder → Builder} (unseen : Unseen m)

namespace Unseen

include unseen

theorem any_beq (qs : List Builder) (q : Builder) : (qs.map m).any (· == m q) = qs.any (· == q) := by
  rw [List.any_map]
  exact congrArg qs.any (funext fun p => unseen.keeps p q)

theorem keep (found : List Builder) (q : Builder) : keep (found.map m) (m q) = (keep found q).map m := by
  unfold Request.keep
  rw [unseen.any_beq]
  split
  · rfl
  · rw [List.map_append, List.map_singleton]

theorem collect_of_attached {found : List Builder} {q : Builder}
    (attached : collectAll (found.map m) (q.attached.map m) = (collectAll found q.attached).map m) :
    collect (found.map m) (m q) = (collect found q).map m := by
  have into (found : List Builder) (p : Builder) : collect found p = collectAll found p.attached := by
    cases p
    rw [collect]
  rw [into, into, unseen.attached, attached]

end Unseen

mutual

theorem collect_map (unseen : Unseen m) (found : List Builder) (q : Builder) :
    collect (found.map m) (m q) = (collect found q).map m := by
  obtain ⟨root, children, attached⟩ := q
  exact unseen.collect_of_attached (collectAll_map unseen found attached)

theorem collectAll_map (unseen : Unseen m) (found qs : List Builder) :
    collectAll (found.map m) (qs.map m) = (collectAll found qs).map m := by
  cases qs with
  | nil =>
    rw [List.map_nil, collectAll, collectAll]
  | cons q qs =>
    rw [List.map_cons, collectAll, collectAll, collect_map unseen found q, unseen.keep, collectAll_map unseen _ qs]

end

namespace Unseen

include unseen

theorem leading (builders : List Builder) : leading (builders.map m) = (leading builders).map m := by
  unfold Request.leading
  rw [List.foldl_map]
  show List.foldl _ (List.map m []) builders = _
  refine List.foldl_hom (List.map m) fun found q => ?_
  dsimp only
  rw [collect_map unseen, unseen.keep, unseen.isVariable]
  split <;> rfl

theorem operationsFrom (first : List Builder) (index : Nat) (used : List String) (qs : List Builder) :
    operationsFrom (first.map m) index used (qs.map m) = (operationsFrom first index used qs).map m := by
  induction qs generalizing index used with
  | nil => rfl
  | cons q qs ih =>
    rw [List.map_cons, Request.operationsFrom, Request.operationsFrom, unseen.any_beq, unseen.isVariable,
      unseen.blockName]
    dsimp only
    split
    · exact ih _ _
    · split
      · rw [List.map_cons, unseen.name, ih]
      · rw [List.map_cons, ih]

theorem reserved (first : List Builder) : reserved (first.map m) = reserved first := by
  unfold Request.reserved
  rw [List.filter_map, List.map_map]
  have named : (Builder.blockName ∘ m) = Builder.blockName := funext unseen.blockName
  have chosen : ((fun q : Builder => !q.isVariable) ∘ m) = fun q => !q.isVariable := by
    funext q
    rw [Function.comp_apply, unseen.isVariable]
  rw [chosen, named]

theorem operations (builders : List Builder) : operations (builders.map m) = (operations builders).map m := by
  unfold Request.operations
  dsimp only
  rw [unseen.leading, unseen.reserved, unseen.operationsFrom]

theorem blocks (builders : List Builder) : blocks (builders.map m) = (blocks builders).map m := by
  unfold Request.blocks
  rw [unseen.leading, unseen.operations, List.map_append]

theorem operationName (qs : List Builder) : operationName (qs.map m) = operationName qs := by
  have titles : ((title ·.blockName) ∘ m) = (title ·.blockName) := by
    funext q
    rw [Function.comp_apply, unseen.blockName]
  unfold Request.operationName
  rw [List.map_map, titles]

end Unseen

end Request

/-! ## Replacements -/

namespace Value

/-- Whether the value is bound to one variable: it is neither a list nor raw text, and finite. -/
def isBound : Value → Bool
  | .float x => x.isFinite
  | .nilList => false
  | .list _ => false
  | .raw _ => false
  | _ => true

/-- A replacement of scalars by scalars of their types, item by item in lists, under which equal values
    stay equal and different values stay different. What is never bound is left as it is. -/
structure Replacement (f : Value → Value) : Prop where
  raw : ∀ s, f (.raw s) = .raw s
  notFinite : ∀ x : Binary64, x.isFinite = false → f (.float x) = .float x
  nilList : f .nilList = .nilList
  list : ∀ vs, f (.list vs) = .list (vs.map f)
  bound : ∀ v, v.isBound = true → (f v).isBound = true ∧ (f v).dataType = v.dataType
  keeps : KeepsEquality f

/-- Two values that are declared with one type. -/
def SameType (v w : Value) : Prop := v.dataType = w.dataType

theorem SameType.refl (v : Value) : SameType v v := rfl

theorem compile_of_isBound {v : Value} (bound : v.isBound = true) :
    v.compile = .ok (.slot v) ∧ v.compileItem = .ok (.slot v) := by
  cases v with
  | float x =>
    have finite : x.isFinite = true := bound
    simp [compile, compileItem, bindable, finite, Except.map]
  | nilList | list | raw => cases bound
  | _ => exact ⟨rfl, rfl⟩

namespace Replacement

variable {f : Value → Value} (replacement : Replacement f)

include replacement

theorem eq_or_list {v : Value} (free : v.isBound = false) :
    f v = v ∨ ∃ vs, v = .list vs ∧ f v = .list (vs.map f) := by
  cases v with
  | float x => exact .inl (replacement.notFinite x free)
  | raw s => exact .inl (replacement.raw s)
  | nilList => exact .inl replacement.nilList
  | list vs => exact .inr ⟨vs, rfl, replacement.list vs⟩
  | _ => cases free

theorem both_compileItem (v : Value) : Both (Fragment.Alike SameType) v.compileItem (f v).compileItem := by
  by_cases bound : v.isBound = true
  · obtain ⟨still, sameType⟩ := replacement.bound v bound
    rw [(compile_of_isBound bound).2, (compile_of_isBound still).2]
    exact .ok (.slot sameType.symm)
  · rcases replacement.eq_or_list (Bool.eq_false_iff.2 bound) with same | ⟨vs, rfl, changed⟩
    · rw [same]
      exact .refl (.refl SameType.refl) _
    · rw [changed]
      exact .error _ _

theorem both_compile (v : Value) : Both (Fragment.Alike SameType) v.compile (f v).compile := by
  by_cases bound : v.isBound = true
  · obtain ⟨still, sameType⟩ := replacement.bound v bound
    rw [(compile_of_isBound bound).1, (compile_of_isBound still).1]
    exact .ok (.slot sameType.symm)
  · rcases replacement.eq_or_list (Bool.eq_false_iff.2 bound) with same | ⟨vs, rfl, changed⟩
    · rw [same]
      exact .refl (.refl SameType.refl) _
    · have items : Both (Forall₂ (Fragment.Alike SameType)) (vs.mapM compileItem) ((vs.map f).mapM compileItem) :=
        Both.mapM (forall₂_map_self (fun _ => rfl) vs) fun v _ same => same ▸ replacement.both_compileItem v
      rw [changed, compile, compile]
      exact items.map fun _ _ alike => ((Fragment.Alike.text "[").append (.separated alike ",")).append (.text "]")

theorem alike : Value.Alike (f · = ·) SameType where
  compile := by
    rintro v _ rfl
    exact replacement.both_compile v
  cursor c := .refl SameType.refl c.compile

end Replacement

end Value

theorem Builder.unseen_mapValues {f : Value → Value} (keeps : KeepsEquality f) :
    Request.Unseen (Builder.mapValues f) where
  keeps := Builder.same_mapValues keeps
  blockName q := by cases q; rfl
  isVariable q := by cases q; rfl
  attached q := by
    cases q
    exact Builder.mapValuesAll_eq_map f _
  name q n := by cases q; rfl

namespace Request

theorem declarations_eq {vs ws : List Value} (types : Forall₂ Value.SameType vs ws) :
    vs.mapIdx declaration = ws.mapIdx declaration := by
  refine List.ext_getElem (by simp [types.length_eq]) fun i first second => ?_
  have sameType := types.get (by simpa using first) (by simpa using second)
  rw [List.getElem_mapIdx, List.getElem_mapIdx, declaration, declaration]
  exact congrArg (variableName i ++ ":" ++ DataType.text ·) sameType

/-- Bodies of one text with slot by slot equal types stand in queries of one text and one list of declarations. -/
theorem envelope_alike (name : String) {f g : Fragment} (alike : Fragment.Alike Value.SameType f g) :
    (envelope name g).text = (envelope name f).text ∧
      (envelope name g).declarations = (envelope name f).declarations := by
  have declared : f.args.mapIdx declaration = g.args.mapIdx declaration := declarations_eq alike.args
  refine ⟨?_, declared.symm⟩
  unfold envelope
  rw [declared, alike.render]

theorem both_compile_mapValues {f : Value → Value} (replacement : Value.Replacement f) (builders : List Builder) :
    Both (fun query query' => query'.text = query.text ∧ query'.declarations = query.declarations)
      (compile builders) (compile (builders.map (Builder.mapValues f))) := by
  have unseen := Builder.unseen_mapValues replacement.keeps
  have each (q : Builder) : Both (Fragment.Alike Value.SameType) q.compile (q.mapValues f).compile := by
    cases q
    exact Builder.both_compile replacement.alike (Block.like_mapValues (fun _ => rfl) _)
      (Registry.like_mapValues (fun _ => rfl) _)
  have fragments : Both (Forall₂ (Fragment.Alike Value.SameType)) ((blocks builders).mapM Builder.compile)
      (((blocks builders).map (Builder.mapValues f)).mapM Builder.compile) :=
    Both.mapM (forall₂_map_self (fun _ => rfl) _) fun q _ same => same ▸ each q
  -- The same blocks are written under the same names, so only their fragments are left to compare.
  unfold compile body
  rw [unseen.blocks, unseen.operations, unseen.operationName]
  exact (fragments.map fun _ _ alike => Fragment.Alike.join alike " ").map fun _ _ => envelope_alike _

/-- A replacement of values changes nothing but the map of variables. -/
theorem compile_mapValues {f : Value → Value} (replacement : Value.Replacement f) (builders : List Builder) :
    (compile (builders.map (Builder.mapValues f))).isOk = (compile builders).isOk ∧
      ∀ query query', compile builders = .ok query → compile (builders.map (Builder.mapValues f)) = .ok query' →
        query'.text = query.text ∧ query'.declarations = query.declarations := by
  have both := both_compile_mapValues replacement builders
  refine ⟨both.isOk_eq.symm, fun query query' compiled compiled' => ?_⟩
  rw [compiled, compiled'] at both
  exact both.of_ok

end Request

/-! ## Marked values -/

namespace Value

mutual

/-- The value with a mark after texts, with numbers counted one up and with truth values turned around. -/
def marked : Value → Value
  | .string s => .string (s ++ "$0")
  | .other s => .other (s ++ "$1")
  | .int i => .int (i + 1)
  | .uint n => .uint (n + 1)
  | .bool b => .bool (!b)
  | .list vs => .list (markedAll vs)
  | v => v

def markedAll : List Value → List Value
  | [] => []
  | v :: vs => marked v :: markedAll vs

end

theorem markedAll_eq_map (vs : List Value) : markedAll vs = vs.map marked := by
  induction vs with
  | nil => rfl
  | cons v vs ih => rw [markedAll, List.map_cons, ih]

theorem beq_append_left (s t mark : String) : (s ++ mark == t ++ mark) = (s == t) := by
  rw [Bool.eq_iff_iff, beq_iff_eq, beq_iff_eq]
  exact String.append_left_inj mark

mutual

theorem same_marked (v w : Value) : v.marked.same w.marked = v.same w := by
  cases v with
  | string s =>
    cases w with
    | string t => exact beq_append_left s t _
    | _ => rfl
  | other s =>
    cases w with
    | other t => exact beq_append_left s t _
    | _ => rfl
  | int i =>
    cases w with
    | int j =>
      show (i + 1 == j + 1) = (i == j)
      rw [Bool.eq_iff_iff, beq_iff_eq, beq_iff_eq]
      omega
    | _ => rfl
  | uint m =>
    cases w with
    | uint n =>
      show (m + 1 == n + 1) = (m == n)
      rw [Bool.eq_iff_iff, beq_iff_eq, beq_iff_eq]
      omega
    | _ => rfl
  | bool a =>
    cases w with
    | bool b => cases a <;> cases b <;> rfl
    | _ => rfl
  | list vs =>
    cases w with
    | list ws => exact sameAll_markedAll vs ws
    | _ => rfl
  | _ => cases w <;> rfl

theorem sameAll_markedAll (vs ws : List Value) : sameAll (markedAll vs) (markedAll ws) = sameAll vs ws := by
  cases vs with
  | nil => cases ws <;> rfl
  | cons v vs =>
    cases ws with
    | nil => rfl
    | cons w ws => rw [markedAll, markedAll, sameAll, sameAll, same_marked v w, sameAll_markedAll vs ws]

end

theorem replacement_marked : Replacement marked where
  raw _ := rfl
  notFinite _ _ := rfl
  nilList := rfl
  list vs := congrArg Value.list (markedAll_eq_map vs)
  bound v bound := by
    cases v with
    | float x => exact ⟨bound, rfl⟩
    | nilList | list | raw => cases bound
    | _ => exact ⟨rfl, rfl⟩
  keeps := same_marked

end Value

namespace Request

/-- Two queries with one attached block, which differs in the type of a number alone. -/
def guests : List Builder :=
  let ids (v : Value) := (Builder.varBlock (.compare .eq (KeyMap.ofList [("age", v)]))).as "ids"
  let start := Builder.query (.all [.compare .eq (KeyMap.ofList [("name", .list [.string "$1", .raw "val(x)"])]),
    .between "age" (.bool true) (.other "$0")])
  [(start.attach (ids (.int 3))).attach (ids (.uint 3)), (start.attach (ids (.int 3))).first 2]

theorem compile_mapValues_marked :
    ∃ query query', compile guests = .ok query ∧ compile (guests.map (Builder.mapValues Value.marked)) = .ok query' ∧
      query'.text = query.text ∧ query'.declarations = query.declarations ∧
      query.variables.get? "$2" = some "$1" ∧ query'.variables.get? "$2" = some "$1$0" := by
  obtain ⟨both, texts⟩ := compile_mapValues Value.replacement_marked guests
  have succeeds : (compile guests).isOk = true := by decide +kernel
  obtain ⟨query, compiled⟩ := Compiled.exists_of_isOk succeeds
  obtain ⟨query', compiled'⟩ := Compiled.exists_of_isOk (both.trans succeeds)
  obtain ⟨text, declarations⟩ := texts query query' compiled compiled'
  have value : (compile guests).toOption.map (·.variables.get? "$2") = some (some "$1") := by decide +kernel
  have value' : (compile (guests.map (Builder.mapValues Value.marked))).toOption.map (·.variables.get? "$2") =
      some (some "$1$0") := by decide +kernel
  rw [compiled] at value
  rw [compiled'] at value'
  exact ⟨query, query', compiled, compiled', text, declarations, Option.some.inj value, Option.some.inj value'⟩

end Request

end GraphQuery
