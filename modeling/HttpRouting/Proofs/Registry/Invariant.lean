import HttpRouting.Mapping.PathStrategy
import HttpRouting.Proofs.Equality
import HttpRouting.Proofs.Table

/-!
The indexes of a registry say the same as its table.  Whatever calls a registry has been through, a
key stands in the bucket of a path exactly when its registration has that direct path, and a handler
method stands in the bucket of a name exactly when a live registration binds it under that name.
-/

set_option autoImplicit false
set_option relaxedAutoImplicit false

namespace HttpRouting

/-- A call that may change a registry.  Every registration brings the strategy to read its key by. -/
inductive RegistryCall (κ : Type) where
  | register (strategy : MappingStrategy κ) (key : κ) (handler : HandlerMethod)
  | unregister (key : κ)

namespace Registry

variable {κ : Type} [BEq κ]

/-- The registry after a call.  A registration that fails leaves the registry as it was. -/
def after (naming : Option (Naming κ)) (registry : Registry κ) : RegistryCall κ → Registry κ
  | .register strategy key handler =>
    match registry.register strategy naming key handler with
    | .ok registry => registry
    | .error _ => registry
  | .unregister key => registry.unregister key

/-- The registry that a sequence of calls makes out of an empty one. -/
def reached (naming : Option (Naming κ)) (calls : List (RegistryCall κ)) : Registry κ :=
  calls.foldl (after naming) .empty

/-- The indexes agree with the table of registrations. -/
structure Consistent (registry : Registry κ) : Prop where
  distinct : registry.table.Distinct
  keyed : ∀ entry ∈ registry.table.entries, entry.2.mapping = entry.1
  pathBuckets : registry.paths.Bucketed
  mem_keysAt : ∀ path key, key ∈ registry.keysAt path ↔
    ∃ r ∈ registry.registrations, r.mapping = key ∧ path ∈ r.directPaths
  nameBuckets : registry.names.Bucketed
  contains_handlersNamed : ∀ name handler, (registry.handlersNamed name).contains handler = true ↔
    ∃ r ∈ registry.registrations, r.name = some name ∧ (r.handler == handler) = true

theorem consistent_empty : (empty : Registry κ).Consistent where
  distinct := List.Pairwise.nil
  keyed := by simp [empty, Table.empty]
  pathBuckets := Table.bucketed_empty
  mem_keysAt path key := by
    simp [keysAt, registrations, Table.values, empty, Table.empty, Table.bucket, Table.get?]
  nameBuckets := Table.bucketed_empty
  contains_handlersNamed name handler := by
    simp [handlersNamed, registrations, Table.values, empty, Table.empty, Table.bucket, Table.get?]

/-- What a successful registration does: nothing when the key has an equal handler method, and
otherwise it enters a new registration under a free key. -/
theorem register_cases {registry registry' : Registry κ} {strategy : MappingStrategy κ}
    {naming : Option (Naming κ)} {key : κ} {handler : HandlerMethod}
    (done : registry.register strategy naming key handler = .ok registry') :
    (∃ existing, registry.registration? key = some existing ∧
        (existing.handler == handler) = true ∧ registry' = registry) ∨
      (registry.registration? key = none ∧ ∃ policy, strategy.corsFor handler key = .ok policy ∧
        registry' = registry.add
          ⟨key, handler, strategy.directPaths key, naming.map fun name => name handler key,
            policy.isSome⟩ policy) := by
  simp only [register] at done
  split at done
  · next existing bound =>
    split at done
    · next same => exact .inl ⟨existing, bound, same, (Except.ok.inj done).symm⟩
    · cases done
  · next free =>
    split at done
    · cases done
    · next policy computed => exact .inr ⟨free, policy, computed, (Except.ok.inj done).symm⟩

omit [BEq κ] in
theorem mem_registrations {registry : Registry κ} {r : Registration κ} :
    r ∈ registry.registrations ↔ ∃ key, (key, r) ∈ registry.table.entries := by
  simp [registrations, Table.values]

theorem registrations_add {registry : Registry κ} {r : Registration κ}
    (free : registry.registration? r.mapping = none) (policy : Option CorsConfig) :
    (registry.add r policy).registrations = registry.registrations ++ [r] := by
  simp [registrations, add, Table.values, Table.entries_put_of_get?_eq_none free]

section Origins

variable {naming : Option (Naming κ)} {registry : Registry κ} {r : Registration κ}

/-- A call adds at most the registration of the key that it registers. -/
theorem mem_registrations_after {call : RegistryCall κ}
    (live : r ∈ (registry.after naming call).registrations) :
    r ∈ registry.registrations ∨ ∃ strategy handler, call = .register strategy r.mapping handler ∧
      r.directPaths = strategy.directPaths r.mapping := by
  cases call with
  | register strategy key handler =>
    simp only [Registry.after] at live
    split at live
    · next done =>
      rcases register_cases done with ⟨-, -, -, rfl⟩ | ⟨free, policy, -, rfl⟩
      · exact .inl live
      · rw [registrations_add free, List.mem_append, List.mem_singleton] at live
        rcases live with before | rfl
        · exact .inl before
        · exact .inr ⟨strategy, handler, rfl, rfl⟩
    · exact .inl live
  | unregister key =>
    simp only [Registry.after, unregister] at live
    split at live
    · obtain ⟨own, entered⟩ := mem_registrations.mp live
      exact .inl (mem_registrations.mpr ⟨own, (Table.mem_entries_erase.mp entered).1⟩)
    · exact .inl live

theorem mem_registrations_foldl {calls : List (RegistryCall κ)}
    (live : r ∈ (calls.foldl (after naming) registry).registrations) :
    r ∈ registry.registrations ∨ ∃ strategy handler, .register strategy r.mapping handler ∈ calls ∧
      r.directPaths = strategy.directPaths r.mapping := by
  induction calls generalizing registry with
  | nil => exact .inl live
  | cons call calls ih =>
    rcases ih live with before | ⟨strategy, handler, called, direct⟩
    · rcases mem_registrations_after before with before | ⟨strategy, handler, rfl, direct⟩
      · exact .inl before
      · exact .inr ⟨strategy, handler, List.mem_cons_self, direct⟩
    · exact .inr ⟨strategy, handler, List.mem_cons_of_mem _ called, direct⟩

/-- A live registration stems from a call that registered its key. -/
theorem exists_register_of_mem {calls : List (RegistryCall κ)}
    (live : r ∈ (reached naming calls).registrations) :
    ∃ strategy handler, .register strategy r.mapping handler ∈ calls ∧
      r.directPaths = strategy.directPaths r.mapping := by
  rcases mem_registrations_foldl live with before | stems
  · simp [empty, registrations, Table.values, Table.empty] at before
  · exact stems

end Origins

section Paths

variable {paths : Table String (List κ)} {directPaths : List String} {key other : κ} {path : String}

/-- Adding a key to the buckets of its direct paths, when no bucket holds an equal key under another
spelling. -/
theorem mem_bucket_addAll [ReflBEq κ]
    (own : ∀ path, (paths.bucket path).contains key = true → key ∈ paths.bucket path) :
    other ∈ (directPaths.foldl (fun paths path => paths.addTo path key) paths).bucket path ↔
      other ∈ paths.bucket path ∨ other = key ∧ path ∈ directPaths := by
  induction directPaths generalizing paths with
  | nil => simp
  | cons first rest ih =>
    have mem_addTo (k : κ) (p : String) : k ∈ (paths.addTo first key).bucket p ↔
        k ∈ paths.bucket p ∨ k = key ∧ p = first := by
      rw [Table.bucket_addTo]
      by_cases here : first = p
      · subst here
        cases present : (paths.bucket first).contains key with
        | true =>
          have member := own first present
          simp only [BEq.rfl, Bool.not_true, Bool.and_false, Bool.false_eq_true, if_false, and_true]
          exact ⟨.inl, fun h => h.elim id fun same => same ▸ member⟩
        | false => simp
      · simp [here, Ne.symm here]
    have own' (p : String) (present : ((paths.addTo first key).bucket p).contains key = true) :
        key ∈ (paths.addTo first key).bucket p := by
      rw [mem_addTo]
      rw [Table.bucket_addTo] at present
      by_cases here : first = p
      · exact .inr ⟨rfl, here.symm⟩
      · exact .inl (own p (by simpa [here] using present))
    rw [List.foldl_cons, ih own', mem_addTo, List.mem_cons, and_or_left, or_assoc]

theorem mem_bucket_removeAll :
    other ∈ (directPaths.foldl (fun paths path => paths.removeFrom path key) paths).bucket path ↔
      other ∈ paths.bucket path ∧ ¬ (path ∈ directPaths ∧ (other == key) = true) := by
  induction directPaths generalizing paths with
  | nil => simp
  | cons first rest ih =>
    rw [List.foldl_cons, ih, Table.bucket_removeFrom, List.mem_cons]
    by_cases here : first = path
    · subst here
      rw [if_pos BEq.rfl, List.mem_filter]
      cases other == key <;> simp
    · simp [here, Ne.symm here]

theorem bucketed_addAll [PartialEquivBEq κ] (bucketed : paths.Bucketed) :
    (directPaths.foldl (fun paths path => paths.addTo path key) paths).Bucketed := by
  induction directPaths generalizing paths with
  | nil => exact bucketed
  | cons first rest ih => exact ih (bucketed.addTo first key)

theorem bucketed_removeAll (bucketed : paths.Bucketed) :
    (directPaths.foldl (fun paths path => paths.removeFrom path key) paths).Bucketed := by
  induction directPaths generalizing paths with
  | nil => exact bucketed
  | cons first rest ih => exact ih (bucketed.removeFrom first key)

end Paths

namespace Consistent

variable [EquivBEq κ] {registry : Registry κ} {key : κ} {r other : Registration κ}

omit [EquivBEq κ] in
theorem mem_entries_iff (consistent : registry.Consistent) :
    r ∈ registry.registrations ↔ (r.mapping, r) ∈ registry.table.entries := by
  rw [mem_registrations]
  refine ⟨?_, fun entered => ⟨_, entered⟩⟩
  rintro ⟨key, entered⟩
  have own : r.mapping = key := consistent.keyed _ entered
  rwa [own]

theorem registration?_eq_some_iff (consistent : registry.Consistent) :
    registry.registration? key = some r ↔
      r ∈ registry.registrations ∧ (r.mapping == key) = true := by
  constructor
  · intro bound
    obtain ⟨entry, entered, same, rfl⟩ := Table.mem_of_get?_eq_some bound
    rw [consistent.keyed entry entered]
    exact ⟨mem_registrations.mpr ⟨_, entered⟩, same⟩
  · rintro ⟨live, same⟩
    exact Table.get?_eq_some_of_mem consistent.distinct (consistent.mem_entries_iff.mp live) same

/-- A key leads to the one live registration under an equal key. -/
theorem eq_of_registration?_eq_some (consistent : registry.Consistent)
    (bound : registry.registration? key = some r) (live : other ∈ registry.registrations)
    (same : (other.mapping == key) = true) : other = r := by
  have found := consistent.registration?_eq_some_iff.mpr ⟨live, same⟩
  exact Option.some.inj (found.symm.trans bound)

theorem contains_keysAt_iff (consistent : registry.Consistent) (path : String) :
    (registry.keysAt path).contains key = true ↔
      ∃ r, registry.registration? key = some r ∧ path ∈ r.directPaths := by
  rw [List.contains_iff_exists_mem_beq]
  constructor
  · rintro ⟨listed, member, same⟩
    obtain ⟨r, live, rfl, direct⟩ := (consistent.mem_keysAt path listed).mp member
    exact ⟨r, consistent.registration?_eq_some_iff.mpr ⟨live, BEq.symm same⟩, direct⟩
  · rintro ⟨r, bound, direct⟩
    obtain ⟨live, same⟩ := consistent.registration?_eq_some_iff.mp bound
    exact ⟨r.mapping, (consistent.mem_keysAt path _).mpr ⟨r, live, rfl, direct⟩, BEq.symm same⟩

omit [EquivBEq κ] in
theorem mem_keys_iff (consistent : registry.Consistent) :
    key ∈ registry.keys ↔ ∃ r ∈ registry.registrations, r.mapping = key := by
  simp only [Registry.keys, Registry.registrations, Table.keys, Table.values, List.mem_map]
  constructor
  · rintro ⟨entry, entered, rfl⟩
    exact ⟨entry.2, ⟨entry, entered, rfl⟩, consistent.keyed entry entered⟩
  · rintro ⟨r, ⟨entry, entered, rfl⟩, rfl⟩
    exact ⟨entry, entered, (consistent.keyed entry entered).symm⟩

omit [EquivBEq κ] in
theorem simple_keys (consistent : registry.Consistent) : Table.Simple registry.keys :=
  List.pairwise_map.mpr consistent.distinct

omit [EquivBEq κ] in
theorem simple_keysAt (consistent : registry.Consistent) (path : String) :
    Table.Simple (registry.keysAt path) :=
  consistent.pathBuckets.simple_bucket path

theorem add (consistent : registry.Consistent) (free : registry.registration? r.mapping = none)
    (policy : Option CorsConfig) : (registry.add r policy).Consistent where
  distinct := consistent.distinct.put _ _
  keyed := by
    intro entry entered
    simp only [Registry.add, Table.entries_put_of_get?_eq_none free, List.mem_append,
      List.mem_singleton] at entered
    rcases entered with before | rfl
    · exact consistent.keyed entry before
    · rfl
  pathBuckets := bucketed_addAll consistent.pathBuckets
  mem_keysAt := by
    intro path key
    -- The key is free, so no bucket holds it, not even as an equal key under another spelling.
    have absent (path : String) : (registry.keysAt path).contains r.mapping = false := by
      rw [Bool.eq_false_iff, Ne, consistent.contains_keysAt_iff]
      rintro ⟨bound, found, -⟩
      simp [free] at found
    have own (path : String) (present : (registry.paths.bucket path).contains r.mapping = true) :
        r.mapping ∈ registry.paths.bucket path := by
      simp [show (registry.paths.bucket path).contains r.mapping = false from absent path] at present
    have added : key ∈ (registry.add r policy).keysAt path ↔
        key ∈ registry.keysAt path ∨ key = r.mapping ∧ path ∈ r.directPaths :=
      mem_bucket_addAll own
    rw [added, consistent.mem_keysAt, registrations_add free]
    simp only [List.mem_append, List.mem_singleton, or_and_right, exists_or, exists_eq_left]
    rw [eq_comm (a := key)]
  nameBuckets := by
    simp only [Registry.add]
    split
    · exact consistent.nameBuckets.addTo _ _
    · exact consistent.nameBuckets
  contains_handlersNamed := by
    intro name handler
    rw [registrations_add free]
    simp only [List.mem_append, List.mem_singleton, or_and_right, exists_or, exists_eq_left]
    rw [← consistent.contains_handlersNamed]
    simp only [handlersNamed, Registry.add]
    cases named : r.name with
    | none => simp
    | some own =>
      rw [Table.contains_bucket_addTo]
      simp

omit [EquivBEq κ] in
/-- The registrations that stay when a key is released are those under other keys. -/
theorem mem_registrations_remove (consistent : registry.Consistent) :
    other ∈ (registry.remove key r).registrations ↔
      other ∈ registry.registrations ∧ (other.mapping == key) = false := by
  simp only [registrations, Registry.remove, Table.values, List.mem_map, Prod.exists,
    exists_eq_right, Table.mem_entries_erase]
  constructor
  · rintro ⟨own, entered, apart⟩
    have keyed : other.mapping = own := consistent.keyed _ entered
    exact ⟨⟨own, entered⟩, keyed ▸ apart⟩
  · rintro ⟨⟨own, entered⟩, apart⟩
    have keyed : other.mapping = own := consistent.keyed _ entered
    exact ⟨own, entered, keyed ▸ apart⟩

/-- What holds of a live registration still holds of one after a release, when the released one has
an heir. -/
theorem exists_mem_remove_iff (consistent : registry.Consistent)
    (bound : registry.registration? key = some r) {P : Registration κ → Prop}
    (inherited : P r → ∃ heir ∈ (registry.remove key r).registrations, P heir) :
    (∃ other ∈ (registry.remove key r).registrations, P other) ↔
      ∃ other ∈ registry.registrations, P other := by
  constructor
  · rintro ⟨other, stays, held⟩
    exact ⟨other, (consistent.mem_registrations_remove.mp stays).1, held⟩
  · rintro ⟨other, live, held⟩
    cases same : other.mapping == key with
    | false => exact ⟨other, consistent.mem_registrations_remove.mpr ⟨live, same⟩, held⟩
    | true =>
      obtain rfl := consistent.eq_of_registration?_eq_some bound live same
      exact inherited held

/-- The bucket of a name loses a handler method only with the last registration that binds it. -/
theorem contains_handlersNamed_remove (consistent : registry.Consistent)
    (bound : registry.registration? key = some r) (name : String) (handler : HandlerMethod) :
    ((registry.remove key r).handlersNamed name).contains handler = true ↔
      ∃ other ∈ (registry.remove key r).registrations,
        other.name = some name ∧ (other.handler == handler) = true := by
  have listed_iff := consistent.contains_handlersNamed name handler
  have unchanged := consistent.exists_mem_remove_iff bound
    (P := fun other => other.name = some name ∧ (other.handler == handler) = true)
  have staying (other : Registration κ) : other ∈ (registry.remove key r).registrations ↔ _ :=
    consistent.mem_registrations_remove
  simp only [handlersNamed] at listed_iff
  simp only [handlersNamed, Registry.remove]
  cases named : r.name with
  | none =>
    rw [listed_iff]
    refine (unchanged ?_).symm
    rintro ⟨own, -⟩
    simp [named] at own
  | some own =>
    dsimp only
    split
    · next shared =>
      obtain ⟨heir, stays, heir_holds⟩ := List.any_eq_true.mp shared
      simp only [Bool.and_eq_true, beq_iff_eq] at heir_holds
      rw [listed_iff]
      refine (unchanged ?_).symm
      rintro ⟨same_name, same⟩
      rw [named] at same_name
      exact ⟨heir, stays, heir_holds.1.trans same_name, PartialEquivBEq.trans heir_holds.2 same⟩
    · next unshared =>
      rw [Table.contains_bucket_removeFrom, listed_iff]
      constructor
      · rintro ⟨⟨other, live, other_named, same⟩, kept⟩
        cases released : other.mapping == key with
        | false =>
          exact ⟨other, (staying other).mpr ⟨live, released⟩, other_named, same⟩
        | true =>
          obtain rfl := consistent.eq_of_registration?_eq_some bound live released
          rw [named] at other_named
          exact absurd ⟨beq_iff_eq.mpr (Option.some.inj other_named), same⟩ kept
      · rintro ⟨other, stays, other_named, same⟩
        have live := ((staying other).mp stays).1
        refine ⟨⟨other, live, other_named, same⟩, ?_⟩
        -- A registration that stays and binds the same under this name would have been an heir.
        rintro ⟨own_name, own_same⟩
        refine unshared (List.any_eq_true.mpr ⟨other, stays, ?_⟩)
        rw [Bool.and_eq_true, beq_iff_eq, other_named, beq_iff_eq.mp own_name]
        exact ⟨rfl, PartialEquivBEq.trans same (PartialEquivBEq.symm own_same)⟩

theorem remove (consistent : registry.Consistent) (bound : registry.registration? key = some r) :
    (registry.remove key r).Consistent where
  distinct := consistent.distinct.erase _
  keyed := by
    intro entry entered
    exact consistent.keyed entry (Table.mem_entries_erase.mp entered).1
  pathBuckets := bucketed_removeAll consistent.pathBuckets
  mem_keysAt := by
    intro path listed
    have removed : listed ∈ (registry.remove key r).keysAt path ↔
        listed ∈ registry.keysAt path ∧ ¬ (path ∈ r.directPaths ∧ (listed == key) = true) :=
      mem_bucket_removeAll
    simp only [removed, consistent.mem_keysAt, consistent.mem_registrations_remove]
    constructor
    · rintro ⟨⟨other, live, rfl, direct⟩, kept⟩
      refine ⟨other, ⟨live, ?_⟩, rfl, direct⟩
      by_contra same
      have same : (other.mapping == key) = true := by simpa using same
      obtain rfl := consistent.eq_of_registration?_eq_some bound live same
      exact kept ⟨direct, same⟩
    · rintro ⟨other, ⟨live, apart⟩, rfl, direct⟩
      exact ⟨⟨other, live, rfl, direct⟩, by simp [apart]⟩
  nameBuckets := by
    simp only [Registry.remove]
    split
    · split
      · exact consistent.nameBuckets
      · exact consistent.nameBuckets.removeFrom _ _
    · exact consistent.nameBuckets
  contains_handlersNamed := consistent.contains_handlersNamed_remove bound

/-- A call keeps the indexes in agreement with the table. -/
theorem after (consistent : registry.Consistent) (naming : Option (Naming κ))
    (call : RegistryCall κ) : (registry.after naming call).Consistent := by
  cases call with
  | register strategy key handler =>
    simp only [Registry.after]
    split
    · next done =>
      rcases register_cases done with ⟨-, -, -, rfl⟩ | ⟨free, policy, -, rfl⟩
      · exact consistent
      · exact consistent.add free policy
    · exact consistent
  | unregister key =>
    simp only [Registry.after, unregister]
    split
    · next bound => exact consistent.remove bound
    · exact consistent

end Consistent

variable [EquivBEq κ]

/-- Every sequence of calls makes a consistent registry. -/
theorem reached_consistent (naming : Option (Naming κ)) (calls : List (RegistryCall κ)) :
    (reached naming calls).Consistent := by
  have from_consistent (registry : Registry κ) (consistent : registry.Consistent) :
      (calls.foldl (after naming) registry).Consistent := by
    induction calls generalizing registry with
    | nil => exact consistent
    | cons call calls ih => exact ih _ (consistent.after naming call)
  exact from_consistent .empty consistent_empty

/-- After any sequence of calls, successful or failing: the table holds each registration under its
own key and no key twice; a key is in the bucket of a path exactly when it is registered with that
direct path; a handler method is in the bucket of a name exactly when a live registration binds an
equal one under that name; and the buckets of both indexes are not empty and hold nothing twice. -/
theorem indexes_agree_with_table (naming : Option (Naming κ)) (calls : List (RegistryCall κ)) :
    let registry := reached naming calls
    (registry.table.Distinct ∧ ∀ entry ∈ registry.table.entries, entry.2.mapping = entry.1) ∧
      (∀ path key, (registry.keysAt path).contains key = true ↔
        ∃ r, registry.registration? key = some r ∧ path ∈ r.directPaths) ∧
      (∀ name handler, (registry.handlersNamed name).contains handler = true ↔
        ∃ r ∈ registry.registrations, r.name = some name ∧ (r.handler == handler) = true) ∧
      registry.paths.Bucketed ∧ registry.names.Bucketed := by
  intro registry
  have consistent : registry.Consistent := reached_consistent naming calls
  exact ⟨⟨consistent.distinct, consistent.keyed⟩,
    fun path key => consistent.contains_keysAt_iff path,
    consistent.contains_handlersNamed, consistent.pathBuckets, consistent.nameBuckets⟩

/-- Two paths share a name and a handler method, and one of them is released. -/
theorem indexes_agree_after_release :
    let list := HandlerMethod.ofBean "users" "Users" (.plain "list")
    let registry := reached (some fun _ _ => "all")
      [.register PathStrategy.strategy "/users" list, .register PathStrategy.strategy "/people" list,
        .unregister "/users"]
    (∃ r, registry.registration? "/people" = some r ∧ "/people" ∈ r.directPaths) ∧
      ∃ r ∈ registry.registrations, r.name = some "all" ∧ (r.handler == list) = true := by
  intro list registry
  have agree := indexes_agree_with_table (some fun _ _ => "all")
    [.register PathStrategy.strategy "/users" list, .register PathStrategy.strategy "/people" list,
      .unregister "/users"]
  exact ⟨(agree.2.1 "/people" "/people").mp (by decide), (agree.2.2.1 "all" list).mp (by decide)⟩

end Registry

end HttpRouting
