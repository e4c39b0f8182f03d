import Mathlib.Data.List.Induction
import Mathlib.Data.Set.Function
import HttpRouting.Exchange

/-!
Setting an attribute changes what stands at its place, and nothing at any other place.  So a store of
values of any kinds is a map, and its keys are the names and kinds as long as no two of the names in use
have one hash.
-/

set_option autoImplicit false
set_option relaxedAutoImplicit false

namespace HttpRouting

namespace AttributeStore

open Attributes (slot)

variable {τ ν : Type} [DecidableEq τ] {kindOf : ν → τ}

theorem at?_erase_self (a : AttributeStore kindOf) (name : String) (kind : τ) :
    (a.erase name kind).at? (slot name kind) = none := by
  rw [at?, erase, List.lookup_eq_none_iff]
  intro entry member
  obtain ⟨-, other⟩ := List.mem_filter.mp member
  exact bne_iff_ne.mpr (of_decide_eq_true other).symm

theorem at?_erase (a : AttributeStore kindOf) (name : String) (kind : τ) {place : AttributeSlot τ}
    (other : place ≠ slot name kind) : (a.erase name kind).at? place = a.at? place := by
  obtain ⟨entries⟩ := a
  simp only [at?, erase]
  induction entries with
  | nil => rfl
  | cons entry rest ih =>
    obtain ⟨at_place, value⟩ := entry
    by_cases erased : at_place = slot name kind
    · rw [List.filter_cons_of_neg (by simpa using erased), ih, List.lookup_cons,
        beq_eq_false_iff_ne.mpr (erased ▸ other)]
    · rw [List.filter_cons_of_pos (by simpa using erased), List.lookup_cons, List.lookup_cons, ih]

theorem at?_insert (a : AttributeStore kindOf) (name : String) (value : ν) (place : AttributeSlot τ) :
    (a.insert name value).at? place =
      if place = slot name (kindOf value) then some value else a.at? place := by
  split
  · next own => simp [at?, insert, own]
  · next other =>
    have skipped : (a.insert name value).at? place = (a.erase name (kindOf value)).at? place := by
      rw [at?, insert, List.lookup_cons, beq_eq_false_iff_ne.mpr other]
      rfl
    rw [skipped, at?_erase a name (kindOf value) other]

end AttributeStore

theorem Attributes.text?_insert (a : Attributes) (name value : String) :
    text? (a.insert name (.text value)) name = some value := by
  rw [text?, AttributeStore.get?, AttributeStore.at?_insert, AttributeValue.kind, if_pos rfl]

theorem Work.at?_setAttribute (work : Work) (name : String) (value : AttributeValue)
    (place : AttributeSlot AttributeKind) : (work.setAttribute name value).attributes.at? place =
      if place = Attributes.slot name value.kind then some value else work.attributes.at? place :=
  work.attributes.at?_insert name value place

/-- A way to change values in place, which cannot change their kind. -/
structure AttributeEdit {τ ν : Type} (kindOf : ν → τ) (kind : τ) where
  apply : ν → ν
  kind_apply : ∀ value, kindOf value = kind → kindOf (apply value) = kind

/-- A call on a store.  All but an insertion hand out the value that they find. -/
inductive AttributeCall {τ ν : Type} (kindOf : ν → τ) where
  | insert (name : String) (value : ν)
  | change (name : String) (kind : τ) (edit : AttributeEdit kindOf kind)
  | remove (name : String) (kind : τ)
  | get (name : String) (kind : τ)

namespace AttributeCall

variable {τ ν : Type} {kindOf : ν → τ}

def name : AttributeCall kindOf → String
  | insert name _ | change name _ _ | remove name _ | get name _ => name

def kind : AttributeCall kindOf → τ
  | insert _ value => kindOf value
  | change _ kind _ | remove _ kind | get _ kind => kind

/-- The answer of a call that finds a value, or none. -/
def answer (found : Option ν) : AttributeCall kindOf → Option ν
  | insert _ _ => none
  | change _ _ _ | remove _ _ | get _ _ => found

/-- What a call leaves where it found a value, or none. -/
def left (found : Option ν) : AttributeCall kindOf → Option ν
  | insert _ value => some value
  | change _ _ edit => found.map edit.apply
  | remove _ _ => none
  | get _ _ => found

/-- A store after a call. -/
def after [DecidableEq τ] (a : AttributeStore kindOf) : AttributeCall kindOf → AttributeStore kindOf
  | insert name value => a.insert name value
  | change name kind edit =>
    match a.get? name kind with
    | some value => a.insert name (edit.apply value)
    | none => a
  | remove name kind => a.erase name kind
  | get _ _ => a

end AttributeCall

namespace AttributeStore

open Attributes (slot hashName)

variable {τ ν : Type} [DecidableEq τ] {kindOf : ν → τ}

/-- A store after calls, one after the other. -/
def afterAll (a : AttributeStore kindOf) (calls : List (AttributeCall kindOf)) :
    AttributeStore kindOf :=
  calls.foldl AttributeCall.after a

/-- The answers of calls, one after the other. -/
def answers (a : AttributeStore kindOf) : List (AttributeCall kindOf) → List (Option ν)
  | [] => []
  | call :: calls => call.answer (a.get? call.name call.kind) :: (call.after a).answers calls

omit [DecidableEq τ] in
/-- The answers of a map whose keys are made of names and kinds. -/
def answersByKey {κ : Type} [DecidableEq κ] (key : String → τ → κ) (held : κ → Option ν) :
    List (AttributeCall kindOf) → List (Option ν)
  | [] => []
  | call :: calls =>
    let place := key call.name call.kind
    call.answer (held place) ::
      answersByKey key (Function.update held place (call.left (held place))) calls

/-- Values stand at places of their kind. -/
def Kinded (a : AttributeStore kindOf) : Prop :=
  ∀ place value, a.at? place = some value → kindOf value = place.kind

/-- Under the names, keys tell apart what the places tell apart. -/
def Keyed {κ : Type} (names : Set String) (key : String → τ → κ) : Prop :=
  ∀ name ∈ names, ∀ name' ∈ names, ∀ kind kind',
    key name kind = key name' kind' ↔ slot name kind = slot name' kind'

/-- Under the names, a map holds what a store holds. -/
def HeldBy {κ : Type} (names : Set String) (key : String → τ → κ) (held : κ → Option ν)
    (a : AttributeStore kindOf) : Prop :=
  ∀ name ∈ names, ∀ kind, a.get? name kind = held (key name kind)

section Calls

variable {κ : Type} [DecidableEq κ] {names : Set String} {key : String → τ → κ} {held : κ → Option ν}
  {a : AttributeStore kindOf} {name name' : String} {kind kind' : τ}

omit [DecidableEq τ] in
theorem slot_eq_slot_iff :
    slot name kind = slot name' kind' ↔ hashName name = hashName name' ∧ kind = kind' := by
  rw [slot, slot, AttributeSlot.mk.injEq]

theorem kinded_empty : (empty : AttributeStore kindOf).Kinded := by
  intro place value found
  cases found

/-- A change in place is an insertion of what it makes of the value, if there is one. -/
theorem Kinded.at?_change (kinded : a.Kinded) (edit : AttributeEdit kindOf kind) (place : AttributeSlot τ) :
    (AttributeCall.after a (.change name kind edit)).at? place =
      if place = slot name kind then (a.at? place).map edit.apply else a.at? place := by
  cases found : a.get? name kind with
  | none =>
    have unchanged : AttributeCall.after a (.change name kind edit) = a := by
      simp only [AttributeCall.after, found]
    rw [unchanged]
    split
    · next own =>
      rw [get?, ← own] at found
      rw [found, Option.map_none]
    · rfl
  | some value =>
    have same_kind : kindOf (edit.apply value) = kind :=
      edit.kind_apply value (kinded (slot name kind) value found)
    have inserted : AttributeCall.after a (.change name kind edit) = a.insert name (edit.apply value) := by
      simp only [AttributeCall.after, found]
    rw [inserted, at?_insert, same_kind]
    split
    · next own =>
      rw [get?, ← own] at found
      rw [found, Option.map_some]
    · rfl

/-- A call works on its own place. -/
theorem Kinded.at?_after (kinded : a.Kinded) (call : AttributeCall kindOf) (place : AttributeSlot τ) :
    (call.after a).at? place =
      if place = slot call.name call.kind then call.left (a.at? place) else a.at? place := by
  cases call with
  | insert name value => exact at?_insert a name value place
  | change name kind edit => exact kinded.at?_change edit place
  | remove name kind =>
    by_cases own : place = slot name kind
    · rw [own]
      exact (at?_erase_self a name kind).trans (if_pos rfl).symm
    · exact (at?_erase a name kind own).trans (if_neg own).symm
  | get name kind => exact (ite_self (a.at? place)).symm

omit [DecidableEq τ] in
/-- What a call leaves at a place of its kind is of that kind. -/
theorem kind_of_left {call : AttributeCall kindOf} {found : Option ν} {value : ν}
    (of_kind : ∀ value, found = some value → kindOf value = call.kind)
    (left : call.left found = some value) : kindOf value = call.kind := by
  cases call with
  | insert name value' =>
    cases left
    rfl
  | change name kind edit =>
    obtain ⟨before, held, rfl⟩ := Option.map_eq_some_iff.mp left
    exact edit.kind_apply before (of_kind before held)
  | remove name kind => cases left
  | get name kind => exact of_kind value left

theorem Kinded.after (kinded : a.Kinded) (call : AttributeCall kindOf) : (call.after a).Kinded := by
  intro place value found
  rw [kinded.at?_after] at found
  split at found
  · next own =>
    subst own
    exact kind_of_left (kinded _) found
  · exact kinded place value found

theorem kinded_afterAll (calls : List (AttributeCall kindOf)) : (empty.afterAll calls).Kinded := by
  induction calls using List.reverseRec with
  | nil => exact kinded_empty
  | append_singleton calls call ih =>
    rw [afterAll, List.foldl_append]
    exact ih.after call

/-- A step of the map is a step of the store. -/
theorem HeldBy.after (heldBy : HeldBy names key held a) (keyed : Keyed names key) (kinded : a.Kinded)
    {call : AttributeCall kindOf} (listed : call.name ∈ names) :
    HeldBy names key (Function.update held (key call.name call.kind)
      (call.left (held (key call.name call.kind)))) (call.after a) := by
  intro name member kind
  rw [get?, kinded.at?_after, Function.update_apply]
  by_cases own : key name kind = key call.name call.kind
  · rw [if_pos own, if_pos ((keyed name member _ listed kind _).mp own), ← own, ← heldBy name member kind]
    rfl
  · rw [if_neg own, if_neg (own ∘ (keyed name member _ listed kind _).mpr)]
    exact heldBy name member kind

theorem HeldBy.answers_eq (heldBy : HeldBy names key held a) (keyed : Keyed names key)
    (kinded : a.Kinded) {calls : List (AttributeCall kindOf)} (listed : ∀ call ∈ calls, call.name ∈ names) :
    a.answers calls = answersByKey key held calls := by
  induction calls generalizing a held with
  | nil => rfl
  | cons call calls ih =>
    obtain ⟨first, rest⟩ := List.forall_mem_cons.mp listed
    rw [answers, answersByKey, heldBy call.name first call.kind]
    exact congrArg _ (ih (heldBy.after keyed kinded first) (kinded.after call) rest)

omit [DecidableEq κ] in
theorem heldBy_empty : HeldBy names key (fun _ => none) (empty : AttributeStore kindOf) :=
  fun _ _ _ => rfl

omit [DecidableEq τ] in
theorem keyed_slot : Keyed names (slot : String → τ → AttributeSlot τ) :=
  fun _ _ _ _ _ _ => Iff.rfl

omit [DecidableEq τ] in
theorem keyed_mk_of_injOn (apart : Set.InjOn hashName names) :
    Keyed names (Prod.mk : String → τ → String × τ) := by
  intro name member name' member' kind kind'
  rw [slot_eq_slot_iff, Prod.mk.injEq, apart.eq_iff member member']

/-- What is put under one of two names with one hash is found under the other. -/
theorem answers_of_collision (kindOf : ν → τ) (same : hashName name = hashName name') (value : ν) :
    (empty : AttributeStore kindOf).answers [.insert name value, .get name' (kindOf value)] =
      [none, some value] := by
  have found : ((empty : AttributeStore kindOf).insert name value).get? name' (kindOf value) =
      some value := by
    rw [get?, at?_insert, if_pos (slot_eq_slot_iff.mpr ⟨same.symm, rfl⟩)]
  simp [answers, AttributeCall.after, AttributeCall.answer, AttributeCall.name, AttributeCall.kind, found]

theorem answersByKey_of_ne (kindOf : ν → τ) (other : name ≠ name') (value : ν) :
    answersByKey Prod.mk (fun _ => none)
        [(.insert name value : AttributeCall kindOf), .get name' (kindOf value)] =
      [none, none] := by
  simp [answersByKey, AttributeCall.answer, AttributeCall.name, AttributeCall.kind, other.symm]

/-- Whatever values of whatever kinds are stored, and whatever was done with a store, a call under one
name changes and tells of what is under another name, or of another kind, only if the two names have one
hash, and then they have everything in common.  So a store always answers as a map whose keys are the
hashes of names and the kinds.

Under given names it answers as a map whose keys are the names and the kinds just when no two of these
names have one hash. -/
theorem answers_eq_answersByKey_iff [Nonempty ν] (kindOf : ν → τ) (names : Set String) :
    ((∀ calls : List (AttributeCall kindOf), (∀ call ∈ calls, call.name ∈ names) →
        empty.answers calls = answersByKey Prod.mk (fun _ => none) calls) ↔
      Set.InjOn hashName names) ∧
    ∀ calls : List (AttributeCall kindOf), let a := empty.afterAll calls
      (∀ (call : AttributeCall kindOf) (name : String) (kind : τ),
        hashName name ≠ hashName call.name ∨ kind ≠ call.kind →
          (call.after a).get? name kind = a.get? name kind) ∧
      (∀ name name' kind, hashName name = hashName name' → a.get? name kind = a.get? name' kind) ∧
      empty.answers calls = answersByKey slot (fun _ => none) calls := by
  refine ⟨⟨fun alike => ?_, fun apart calls listed => ?_⟩, ?_⟩
  · intro name member name' member' same
    by_contra other
    obtain ⟨value⟩ := ‹Nonempty ν›
    have both : ∀ call ∈ [(.insert name value : AttributeCall kindOf), .get name' (kindOf value)],
        call.name ∈ names := by
      simp [AttributeCall.name, member, member']
    have answered := alike _ both
    rw [answers_of_collision kindOf same, answersByKey_of_ne kindOf other] at answered
    simp at answered
  · exact heldBy_empty.answers_eq (keyed_mk_of_injOn apart) kinded_empty listed
  · intro calls a
    have kinded : a.Kinded := kinded_afterAll calls
    refine ⟨fun call name kind apart => ?_, fun name name' kind same => ?_, ?_⟩
    · rw [get?, kinded.at?_after, if_neg, get?]
      rw [slot_eq_slot_iff, not_and_or]
      exact apart
    · rw [get?, get?, slot, slot, same]
    · have keyed : Keyed Set.univ (slot : String → τ → AttributeSlot τ) := keyed_slot
      exact heldBy_empty.answers_eq keyed kinded_empty fun _ _ => Set.mem_univ _

/-- Under two names with different hashes, calls on attributes are answered by name and kind. -/
theorem answers_under_count_and_name :
    let calls : List (AttributeCall AttributeValue.kind) := [.insert "count" (.number 1),
      .insert "name" (.text "test"), .remove "count" .number, .get "name" .text, .get "count" .number]
    Attributes.empty.answers calls = answersByKey Prod.mk (fun _ => none) calls ∧
      Attributes.empty.answers calls = [none, none, some (.number 1), some (.text "test"), none] := by
  intro calls
  have apart : hashName "count" ≠ hashName "name" := by decide +kernel
  have distinct : Set.InjOn hashName {"count", "name"} := by
    rintro _ (rfl | rfl) _ (rfl | rfl) same
    · rfl
    · exact absurd same apart
    · exact absurd same.symm apart
    · rfl
  have some_value : Nonempty AttributeValue := ⟨.flag true⟩
  have alike := (answers_eq_answersByKey_iff AttributeValue.kind {"count", "name"}).1.mpr distinct calls
    (by simp [calls, AttributeCall.name])
  exact ⟨alike, alike.trans (by rfl)⟩

/-- Two names with one hash. -/
theorem answers_under_colliding_names :
    let name := "8yn0iYCKYHlIj4-BwPqk"
    let name' := "GReLUrM4wMqfg9yzV3KQ"
    let calls : List (AttributeCall AttributeValue.kind) := [.insert name (.text "x"), .get name' .text]
    name ≠ name' ∧ Attributes.empty.answers calls = [none, some (.text "x")] ∧
      answersByKey Prod.mk (fun _ => none) calls = [none, none] := by
  intro name name' calls
  have same : hashName name = hashName name' := by decide +kernel
  have other : name ≠ name' := by decide
  exact ⟨other, answers_of_collision AttributeValue.kind same (.text "x"),
    answersByKey_of_ne AttributeValue.kind other (.text "x")⟩

end Calls

end AttributeStore

end HttpRouting
