import HttpRouting.Mapping.RouteStrategy
import HttpRouting.Proofs.Registry.Invariant
import HttpRouting.Proofs.Route.Built
import Mathlib.Data.List.Induction

/-!
What the index of policies holds.  It is indexed by handler methods, and equal handler methods may be
bound under several keys, with a policy or without.  So an entry can outlive the registrations that
have a policy, and it holds the policy that was computed last.
-/

set_option autoImplicit false
set_option relaxedAutoImplicit false

namespace HttpRouting.Registry

variable {κ : Type} [BEq κ]

/-- A live registration binds an equal handler method. -/
def Binds (registry : Registry κ) (h : HandlerMethod) : Prop :=
  ∃ r ∈ registry.registrations, (r.handler == h) = true

/-- A live registration of an equal handler method has a policy. -/
def Carries (registry : Registry κ) (h : HandlerMethod) : Prop :=
  ∃ r ∈ registry.registrations, r.hasCors = true ∧ (r.handler == h) = true

/-- The registration that a call enters into the registry, with the policy computed for it. -/
def enteredBy (naming : Option (Naming κ)) (registry : Registry κ) :
    RegistryCall κ → Option (Registration κ × Option CorsConfig)
  | .register strategy key handler =>
    match registry.registration? key, strategy.corsFor handler key with
    | none, .ok policy =>
      some (⟨key, handler, strategy.directPaths key, naming.map fun name => name handler key,
        policy.isSome⟩, policy)
    | _, _ => none
  | .unregister _ => none

/-- The registrations that calls enter one after the other. -/
def entered (naming : Option (Naming κ)) :
    Registry κ → List (RegistryCall κ) → List (Registration κ × Option CorsConfig)
  | _, [] => []
  | registry, call :: calls =>
    (registry.enteredBy naming call).toList ++ entered naming (registry.after naming call) calls

/-- The release of a registration with a policy has left an equal handler method bound, and since
then no live registration of one has had a policy. -/
def Stranded (naming : Option (Naming κ)) (calls : List (RegistryCall κ)) (h : HandlerMethod) : Prop :=
  ∃ before key behind r, calls = before ++ .unregister key :: behind ∧
    (reached naming before).registration? key = some r ∧
    r.hasCors = true ∧ (r.handler == h) = true ∧
    (reached naming (before ++ [.unregister key])).Binds h ∧
    ∀ middle, middle <+: behind →
      ¬ (reached naming (before ++ .unregister key :: middle)).Carries h

omit [BEq κ] in
theorem Carries.binds {registry : Registry κ} {h : HandlerMethod} (carries : registry.Carries h) :
    registry.Binds h := by
  obtain ⟨r, live, -, same⟩ := carries
  exact ⟨r, live, same⟩

section Calls

variable {naming : Option (Naming κ)} {registry : Registry κ} {r : Registration κ}
  {policy : Option CorsConfig}

theorem reached_concat (calls : List (RegistryCall κ)) (call : RegistryCall κ) :
    reached naming (calls ++ [call]) = (reached naming calls).after naming call := by
  simp [reached]

theorem entered_concat (calls : List (RegistryCall κ)) (call : RegistryCall κ) :
    entered naming .empty (calls ++ [call]) = entered naming .empty calls ++
      ((reached naming calls).enteredBy naming call).toList := by
  have from_any (registry : Registry κ) :
      entered naming registry (calls ++ [call]) = entered naming registry calls ++
        ((calls.foldl (after naming) registry).enteredBy naming call).toList := by
    induction calls generalizing registry with
    | nil => simp [entered]
    | cons first rest ih =>
      simp only [List.cons_append, entered, ih, List.foldl_cons, List.append_assoc]
  exact from_any .empty

theorem enteredBy_eq_some {call : RegistryCall κ}
    (enters : registry.enteredBy naming call = some (r, policy)) :
    registry.registration? r.mapping = none ∧ r.hasCors = policy.isSome ∧
      registry.after naming call = registry.add r policy ∧
      ∃ strategy, call = .register strategy r.mapping r.handler ∧
        strategy.corsFor r.handler r.mapping = .ok policy := by
  cases call with
  | unregister key => cases enters
  | register strategy key handler =>
    simp only [enteredBy] at enters
    split at enters
    · next free computed =>
      cases enters
      have made : registry.after naming (.register strategy key handler) = registry.add
          ⟨key, handler, strategy.directPaths key, naming.map fun name => name handler key,
            policy.isSome⟩ policy := by
        simp only [Registry.after, register, free, computed]
      exact ⟨free, rfl, made, strategy, rfl, computed⟩
    · cases enters

/-- A call that enters nothing leaves the registry as it is or releases a key. -/
theorem enteredBy_eq_none {call : RegistryCall κ} (nothing : registry.enteredBy naming call = none) :
    registry.after naming call = registry ∨ ∃ key r, call = .unregister key ∧
      registry.registration? key = some r ∧
      registry.after naming call = registry.remove key r := by
  cases call with
  | unregister key =>
    cases bound : registry.registration? key with
    | none => exact .inl (by simp only [Registry.after, unregister, bound])
    | some r => exact .inr ⟨key, r, rfl, bound, by simp only [Registry.after, unregister, bound]⟩
  | register strategy key handler =>
    left
    simp only [Registry.after]
    split
    · next done =>
      rcases register_cases done with ⟨-, -, -, rfl⟩ | ⟨free, policy, computed, -⟩
      · rfl
      · simp [enteredBy, free, computed] at nothing
    · rfl

/-- What a call can do: enter a registration, leave the registry as it is, or release a key. -/
theorem after_cases (naming : Option (Naming κ)) (registry : Registry κ) (call : RegistryCall κ) :
    (∃ r policy, registry.enteredBy naming call = some (r, policy) ∧
        registry.registration? r.mapping = none ∧ r.hasCors = policy.isSome ∧
        registry.after naming call = registry.add r policy) ∨
      (registry.enteredBy naming call = none ∧ registry.after naming call = registry) ∨
      ∃ key r, call = .unregister key ∧ registry.enteredBy naming call = none ∧
        registry.registration? key = some r ∧
        registry.after naming call = registry.remove key r := by
  cases enters : registry.enteredBy naming call with
  | some entry =>
    obtain ⟨r, policy⟩ := entry
    obtain ⟨free, flag, made, -⟩ := enteredBy_eq_some enters
    exact .inl ⟨r, policy, rfl, free, flag, made⟩
  | none =>
    rcases enteredBy_eq_none enters with same | ⟨key, r, called, bound, released⟩
    · exact .inr (.inl ⟨rfl, same⟩)
    · exact .inr (.inr ⟨key, r, called, rfl, bound, released⟩)

theorem call_of_mem_entered {calls : List (RegistryCall κ)}
    (listed : (r, policy) ∈ entered naming registry calls) :
    r.hasCors = policy.isSome ∧ ∃ strategy, .register strategy r.mapping r.handler ∈ calls ∧
      strategy.corsFor r.handler r.mapping = .ok policy := by
  induction calls generalizing registry with
  | nil => cases listed
  | cons call calls ih =>
    simp only [entered, List.mem_append, Option.mem_toList] at listed
    rcases listed with first | later
    · obtain ⟨-, flag, -, strategy, rfl, computed⟩ := enteredBy_eq_some first
      exact ⟨flag, strategy, List.mem_cons_self, computed⟩
    · obtain ⟨flag, strategy, called, computed⟩ := ih later
      exact ⟨flag, strategy, List.mem_cons_of_mem _ called, computed⟩

end Calls

section Steps

variable [EquivBEq κ] {registry : Registry κ} {key : κ} {r : Registration κ} {h : HandlerMethod}

omit [EquivBEq κ] in
theorem get?_policies_add (policy : Option CorsConfig) :
    (registry.add r policy).policies.get? h =
      if r.handler == h then policy.or (registry.policies.get? h) else registry.policies.get? h := by
  cases policy with
  | none => simp [add]
  | some policy => simp [add, Table.get?_put]

omit [EquivBEq κ] in
theorem carries_add (free : registry.registration? r.mapping = none) (policy : Option CorsConfig) :
    (registry.add r policy).Carries h ↔
      registry.Carries h ∨ r.hasCors = true ∧ (r.handler == h) = true := by
  simp only [Carries, registrations_add free, List.mem_append, List.mem_singleton, or_and_right,
    exists_or, exists_eq_left]

omit [BEq κ] in
theorem binds_iff_any : registry.Binds h ↔
    (registry.registrations.any fun r => r.handler == h) = true := by
  simp only [Binds, List.any_eq_true]

omit [EquivBEq κ] in
/-- An entry goes with the release of a registration that has a policy, when it is the last one that
binds an equal handler method, and stays otherwise. -/
theorem get?_policies_remove : (registry.remove key r).policies.get? h =
    if r.hasCors && r.handler == h &&
        !((registry.remove key r).registrations.any fun other => other.handler == h) then none
    else registry.policies.get? h := by
  have rule : (registry.remove key r).policies =
      if r.hasCors && !((registry.remove key r).registrations.any
        fun other => other.handler == r.handler) then registry.policies.erase r.handler
      else registry.policies := rfl
  rw [rule]
  generalize (registry.remove key r).registrations = others
  cases same : r.handler == h with
  | false =>
    split
    · simp [Table.get?_erase, same]
    · simp
  | true =>
    have equal (other : Registration κ) : (other.handler == r.handler) = (other.handler == h) :=
      BEq.congr_right same
    simp only [equal, Bool.and_true]
    split
    · simp [Table.get?_erase, same]
    · rfl

omit [EquivBEq κ] in
theorem Carries.of_remove (consistent : registry.Consistent)
    (carries : (registry.remove key r).Carries h) : registry.Carries h := by
  obtain ⟨other, stays, held⟩ := carries
  exact ⟨other, (consistent.mem_registrations_remove.mp stays).1, held⟩

theorem Carries.remove (consistent : registry.Consistent)
    (bound : registry.registration? key = some r) (carries : registry.Carries h)
    (other : ¬ (r.hasCors = true ∧ (r.handler == h) = true)) :
    (registry.remove key r).Carries h := by
  obtain ⟨carrier, live, held⟩ := carries
  refine ⟨carrier, consistent.mem_registrations_remove.mpr ⟨live, ?_⟩, held⟩
  by_contra same
  have same : (carrier.mapping == key) = true := by simpa using same
  obtain rfl := consistent.eq_of_registration?_eq_some bound live same
  exact other held

theorem carries_of_registration? (consistent : registry.Consistent)
    (bound : registry.registration? key = some r) (flag : r.hasCors = true)
    (same : (r.handler == h) = true) : registry.Carries h :=
  ⟨r, (consistent.registration?_eq_some_iff.mp bound).1, flag, same⟩

/-- An entry goes only when a registration that has a policy is released. -/
theorem isSome_policies_after (consistent : registry.Consistent) {naming : Option (Naming κ)}
    (call : RegistryCall κ) (indexed : (registry.policies.get? h).isSome = true)
    (uncarried : ¬ registry.Carries h) :
    ((registry.after naming call).policies.get? h).isSome = true := by
  rcases after_cases naming registry call with
    ⟨r, policy, -, -, -, made⟩ | ⟨-, same⟩ | ⟨key, r, -, -, bound, released⟩
  · rw [made, get?_policies_add]
    split
    · cases policy <;> simp [indexed]
    · exact indexed
  · rwa [same]
  · rw [released, get?_policies_remove]
    split
    · next lost =>
      simp only [Bool.and_eq_true] at lost
      exact absurd (carries_of_registration? consistent bound lost.1.1 lost.1.2) uncarried
    · exact indexed

end Steps

section Runs

variable [EquivBEq κ] {naming : Option (Naming κ)} {calls : List (RegistryCall κ)}
  {h : HandlerMethod}

theorem isSome_policies_of_carries (carries : (reached naming calls).Carries h) :
    ((reached naming calls).policies.get? h).isSome = true := by
  induction calls using List.reverseRecOn with
  | nil =>
    obtain ⟨r, live, -⟩ := carries
    cases live
  | append_singleton calls call ih =>
    rw [reached_concat] at carries ⊢
    rcases after_cases naming (reached naming calls) call with
      ⟨r, policy, -, free, flag, made⟩ | ⟨-, same⟩ | ⟨key, r, -, -, -, released⟩
    · rw [made, carries_add free] at carries
      rw [made, get?_policies_add]
      rcases carries with before | ⟨own, same⟩
      · split
        · cases policy <;> simp [ih before]
        · exact ih before
      · rw [flag] at own
        obtain ⟨value, rfl⟩ := Option.isSome_iff_exists.mp own
        simp [same]
    · rw [same] at carries ⊢
      exact ih carries
    · rw [released] at carries ⊢
      have shared := binds_iff_any.mp carries.binds
      rw [get?_policies_remove, shared]
      simpa using ih (carries.of_remove (reached_consistent naming calls))

omit [EquivBEq κ] in
theorem Stranded.concat (stranded : Stranded naming calls h) {call : RegistryCall κ}
    (uncarried : ¬ (reached naming (calls ++ [call])).Carries h) :
    Stranded naming (calls ++ [call]) h := by
  obtain ⟨before, key, behind, r, rfl, bound, flag, same, left, since⟩ := stranded
  refine ⟨before, key, behind ++ [call], r, by simp, bound, flag, same, left, ?_⟩
  intro middle reaching
  rcases List.prefix_concat_iff.mp reaching with rfl | earlier
  · simpa using uncarried
  · exact since middle earlier

theorem carries_or_stranded (indexed : ((reached naming calls).policies.get? h).isSome = true) :
    (reached naming calls).Carries h ∨ Stranded naming calls h := by
  induction calls using List.reverseRecOn with
  | nil => cases indexed
  | append_singleton calls call ih =>
    by_cases carried : (reached naming (calls ++ [call])).Carries h
    · exact .inl carried
    right
    -- The entry is older than the call: either it is stranded already, or the call strands it.
    have consistent := reached_consistent naming calls
    have from_before (older : ((reached naming calls).policies.get? h).isSome = true)
        (kept : (reached naming calls).Carries h → Stranded naming (calls ++ [call]) h) :
        Stranded naming (calls ++ [call]) h := by
      rcases ih older with carries | stranded
      · exact kept carries
      · exact stranded.concat carried
    have uncarried := carried
    rw [reached_concat] at indexed uncarried
    rcases after_cases naming (reached naming calls) call with
      ⟨r, policy, -, free, flag, made⟩ | ⟨-, same⟩ | ⟨key, r, rfl, -, bound, released⟩
    · rw [made, carries_add free, not_or] at uncarried
      rw [made, get?_policies_add] at indexed
      refine from_before ?_ fun carries => absurd carries uncarried.1
      cases policy with
      | none => simpa using indexed
      | some value =>
        have other : (r.handler == h) = false := by simpa [flag] using uncarried.2
        simpa [other] using indexed
    · rw [same] at indexed uncarried
      exact from_before indexed fun carries => absurd carries uncarried
    · rw [released, get?_policies_remove] at indexed
      rw [released] at uncarried
      split at indexed
      · cases indexed
      next stays =>
      refine from_before indexed fun carries => ?_
      by_cases own : r.hasCors = true ∧ (r.handler == h) = true
      · refine ⟨calls, key, [], r, rfl, bound, own.1, own.2, ?_, ?_⟩
        · rw [reached_concat, released, binds_iff_any]
          simpa [own] using stays
        · intro middle reaching
          rw [List.prefix_nil.mp reaching]
          exact carried
      · exact absurd (carries.remove consistent bound own) uncarried

theorem Stranded.isSome_policies (stranded : Stranded naming calls h) :
    ((reached naming calls).policies.get? h).isSome = true := by
  obtain ⟨before, key, behind, r, rfl, bound, flag, same, left, since⟩ := stranded
  have consistent := reached_consistent naming before
  have still (middle : List (RegistryCall κ)) (reaching : middle <+: behind) :
      ((reached naming (before ++ .unregister key :: middle)).policies.get? h).isSome = true := by
    induction middle using List.reverseRecOn with
    | nil =>
      have released : (reached naming before).after naming (.unregister key) =
          (reached naming before).remove key r := by
        simp only [Registry.after, unregister, bound]
      have indexed := isSome_policies_of_carries (carries_of_registration? consistent bound flag same)
      rw [reached_concat, released] at left ⊢
      rw [get?_policies_remove, binds_iff_any.mp left]
      simpa using indexed
    | append_singleton middle call ih =>
      have earlier : middle <+: behind := (List.prefix_append middle [call]).trans reaching
      have extended : before ++ RegistryCall.unregister key :: (middle ++ [call]) =
          before ++ RegistryCall.unregister key :: middle ++ [call] := by simp
      rw [extended, reached_concat]
      exact isSome_policies_after (reached_consistent naming _) call (ih earlier)
        (since middle earlier)
  exact still behind List.prefix_rfl

/-- Every live registration was entered by a call. -/
theorem exists_mem_entered {r : Registration κ} (live : r ∈ (reached naming calls).registrations) :
    ∃ policy, (r, policy) ∈ entered naming .empty calls := by
  induction calls using List.reverseRecOn with
  | nil => cases live
  | append_singleton calls call ih =>
    have earlier (before : r ∈ (reached naming calls).registrations) :
        ∃ policy, (r, policy) ∈ entered naming .empty (calls ++ [call]) := by
      obtain ⟨policy, listed⟩ := ih before
      exact ⟨policy, entered_concat calls call ▸ List.mem_append_left _ listed⟩
    rw [reached_concat] at live
    rcases after_cases naming (reached naming calls) call with
      ⟨own, policy, enters, free, -, made⟩ | ⟨-, same⟩ | ⟨key, own, -, -, -, released⟩
    · rw [made, registrations_add free, List.mem_append, List.mem_singleton] at live
      rcases live with before | rfl
      · exact earlier before
      · exact ⟨policy, by simp [entered_concat, enters]⟩
    · exact earlier (same ▸ live)
    · rw [released, (reached_consistent naming calls).mem_registrations_remove] at live
      exact earlier live.1

omit [EquivBEq κ] in
/-- An entry is the policy that was computed for the last registration of an equal handler method
that had one. -/
theorem last_entered_of_policies {policy : CorsConfig}
    (indexed : (reached naming calls).policies.get? h = some policy) :
    ∃ last, ((entered naming .empty calls).filter
      fun entry => entry.1.handler == h && entry.2.isSome).getLast? = some (last, some policy) := by
  induction calls using List.reverseRecOn with
  | nil => cases indexed
  | append_singleton calls call ih =>
    rw [reached_concat] at indexed
    rw [entered_concat, List.filter_append]
    rcases after_cases naming (reached naming calls) call with
      ⟨r, own, enters, -, -, made⟩ | ⟨nothing, same⟩ | ⟨key, r, -, nothing, -, released⟩
    · rw [made, get?_policies_add] at indexed
      rw [enters]
      cases same : r.handler == h with
      | false => simpa [same] using ih (by simpa [same] using indexed)
      | true =>
        cases own with
        | none => simpa using ih (by simpa [same] using indexed)
        | some value =>
          obtain rfl : value = policy := by simpa [same] using indexed
          exact ⟨r, by simp [same]⟩
    · rw [nothing]
      simpa using ih (same ▸ indexed)
    · rw [nothing]
      rw [released, get?_policies_remove] at indexed
      split at indexed
      · cases indexed
      · simpa using ih indexed

/-- A handler method was registered with a policy and without one. -/
theorem Stranded.mixed (stranded : Stranded naming calls h) :
    (∃ strategy key handler policy, .register strategy key handler ∈ calls ∧
        (handler == h) = true ∧ strategy.corsFor handler key = .ok (some policy)) ∧
      ∃ strategy key handler, .register strategy key handler ∈ calls ∧
        (handler == h) = true ∧ strategy.corsFor handler key = .ok none := by
  obtain ⟨before, key, behind, r, rfl, bound, flag, same, left, since⟩ := stranded
  have consistent := reached_consistent naming before
  obtain ⟨own, listed⟩ := exists_mem_entered (consistent.registration?_eq_some_iff.mp bound).1
  obtain ⟨owned, strategy, called, computed⟩ := call_of_mem_entered listed
  rw [flag] at owned
  obtain ⟨policy, rfl⟩ := Option.isSome_iff_exists.mp owned.symm
  obtain ⟨other, stays, equal⟩ := left
  have bare : other.hasCors = false := by
    cases flagged : other.hasCors with
    | false => rfl
    | true => exact absurd ⟨other, stays, flagged, equal⟩ (since [] List.nil_prefix)
  obtain ⟨none_own, listed'⟩ := exists_mem_entered stays
  obtain ⟨unowned, strategy', called', computed'⟩ := call_of_mem_entered listed'
  rw [bare] at unowned
  obtain rfl : none_own = none := by simpa using unowned.symm
  refine ⟨⟨strategy, r.mapping, r.handler, policy, List.mem_append_left _ called, same, computed⟩,
    strategy', other.mapping, other.handler, ?_, equal, computed'⟩
  rcases List.mem_append.mp called' with earlier | this_one
  · exact List.mem_append_left _ earlier
  · cases List.mem_singleton.mp this_one

end Runs

/-- After any sequence of calls, a handler method has an entry exactly when a live registration of an
equal one has a policy, or when a release has stranded the entry.  So once nothing binds the handler
method, it is without a policy exactly when its entry is not stranded.  An entry can be stranded only
if equal handler methods are registered with a policy and without one. -/
theorem isSome_policies_iff [EquivBEq κ] (naming : Option (Naming κ)) (calls : List (RegistryCall κ))
    (h : HandlerMethod) :
    let registry := reached naming calls
    ((registry.policies.get? h).isSome = true ↔ registry.Carries h ∨ Stranded naming calls h) ∧
      (¬ registry.Binds h.declared →
        (registry.policy? h = none ↔ ¬ Stranded naming calls h.declared)) ∧
      (Stranded naming calls h →
        (∃ strategy key handler policy, .register strategy key handler ∈ calls ∧
            (handler == h) = true ∧ strategy.corsFor handler key = .ok (some policy)) ∧
          ∃ strategy key handler, .register strategy key handler ∈ calls ∧
            (handler == h) = true ∧ strategy.corsFor handler key = .ok none) := by
  intro registry
  have indexed_iff (h : HandlerMethod) : (registry.policies.get? h).isSome = true ↔
      registry.Carries h ∨ Stranded naming calls h :=
    ⟨carries_or_stranded, fun reason => reason.elim isSome_policies_of_carries Stranded.isSome_policies⟩
  refine ⟨indexed_iff h, fun unbound => ?_, Stranded.mixed⟩
  have uncarried : ¬ registry.Carries h.declared := fun carries => unbound carries.binds
  have stranded_iff := (indexed_iff h.declared).trans (or_iff_right uncarried)
  rw [← stranded_iff, policy?, Bool.not_eq_true, Option.isSome_eq_false_iff, Option.isNone_iff_eq_none]

/-- A method with a policy shares its handler method with one without, and is released first. -/
theorem isSome_policies_shared :
    let strategy := RouteStrategy.strategy .standard
    let users := Route.ofPattern ⟨"/users", [.literal "users"], false⟩
    let people := Route.ofPattern ⟨"/people", [.literal "people"], false⟩
    let policy := CorsConfig.empty.allowOrigin "https://a.example"
    let list := HandlerMethod.ofBean "users" "Users" ⟨"list", none, some policy⟩
    let bare := HandlerMethod.ofBean "users" "Users" (.plain "list")
    let calls := [.register strategy users list, .register strategy people bare, .unregister users]
    Stranded none calls list ∧ ((reached none calls).policies.get? list).isSome = true := by
  intro strategy users people policy list bare calls
  have indexed : ((reached none calls).policies.get? list).isSome = true := by decide +kernel
  have uncarried : ¬ (reached none calls).Carries list := by
    rintro ⟨r, live, flag, -⟩
    have all_bare : (reached none calls).registrations.all (fun r => !r.hasCors) = true := by
      decide +kernel
    simpa [flag] using List.all_eq_true.mp all_bare r live
  have indexed_iff := (isSome_policies_iff none calls list).1
  exact ⟨(indexed_iff.mp indexed).resolve_left uncarried, indexed⟩

/-- When both are released, the policy is left without any registration. -/
theorem policy_without_registrations :
    let strategy := RouteStrategy.strategy .standard
    let users := Route.ofPattern ⟨"/users", [.literal "users"], false⟩
    let people := Route.ofPattern ⟨"/people", [.literal "people"], false⟩
    let policy := CorsConfig.empty.allowOrigin "https://a.example"
    let list := HandlerMethod.ofBean "users" "Users" ⟨"list", none, some policy⟩
    let bare := HandlerMethod.ofBean "users" "Users" (.plain "list")
    let registry := reached none [.register strategy users list, .register strategy people bare,
      .unregister users, .unregister people]
    registry.registrations = [] ∧ ¬ registry.Carries list ∧
      (registry.policies.get? list).isSome = true ∧ registry.policy? list ≠ none := by
  intro strategy users people policy list bare registry
  have released : registry.registrations = [] := by rfl
  refine ⟨released, ?_, by decide +kernel, by decide +kernel⟩
  rintro ⟨r, live, -⟩
  rw [released] at live
  cases live

/-- After any sequence of calls for routes, the policy of a handler method whose registration has one
is the policy that was computed for the last registration of an equal handler method that had one.
That is the registration itself or a later one, which may have been released.  Handler methods whose
beans were replaced by instances have the policy of the method they were declared as. -/
theorem policy_eq_last_entered (config : MappingConfig) (naming : Option (Naming Route))
    (calls : List (RegistryCall Route))
    (routed : ∀ strategy key handler, .register strategy key handler ∈ calls →
      strategy = RouteStrategy.strategy config)
    (r : Registration Route) (live : r ∈ (reached naming calls).registrations)
    (flag : r.hasCors = true) :
    let made := (entered naming .empty calls).filter
      fun entry => entry.1.handler == r.handler && entry.2.isSome
    (∃ own, (r, some own) ∈ made) ∧
      ∃ last policy, made.getLast? = some (last, some policy) ∧
        RouteStrategy.corsFor last.handler last.mapping = .ok (some policy) ∧
        ∀ h : HandlerMethod, (h.declared == r.handler) = true →
          (reached naming calls).policy? h = some policy := by
  intro made
  have computed (entry : Registration Route × Option CorsConfig)
      (listed : entry ∈ entered naming .empty calls) : entry.1.hasCors = entry.2.isSome ∧
        RouteStrategy.corsFor entry.1.handler entry.1.mapping = .ok entry.2 := by
    obtain ⟨flagged, strategy, called, own⟩ := call_of_mem_entered listed
    rw [routed _ _ _ called] at own
    exact ⟨flagged, own⟩
  constructor
  · obtain ⟨policy, listed⟩ := exists_mem_entered live
    have owned := (computed _ listed).1
    rw [flag] at owned
    obtain ⟨own, rfl⟩ := Option.isSome_iff_exists.mp owned.symm
    exact ⟨own, List.mem_filter.mpr ⟨listed, by simp⟩⟩
  · have carries : (reached naming calls).Carries r.handler := ⟨r, live, flag, BEq.rfl⟩
    obtain ⟨policy, indexed⟩ := Option.isSome_iff_exists.mp (isSome_policies_of_carries carries)
    obtain ⟨last, latest⟩ := last_entered_of_policies indexed
    have listed := List.mem_of_getLast? latest
    refine ⟨last, policy, latest, (computed _ (List.mem_filter.mp listed).1).2, ?_⟩
    intro h same
    rw [policy?, Table.get?_congr _ same, indexed]

/-- One method serves two routes, each with the methods of its route allowed; the policy of the second
is in force for both. -/
theorem policy_of_second_route :
    let strategy := RouteStrategy.strategy .standard
    let put := { Route.ofPattern ⟨"/users", [.literal "users"], false⟩ with methods := [⟨"PUT"⟩] }
    let delete :=
      { Route.ofPattern ⟨"/people", [.literal "people"], false⟩ with methods := [⟨"DELETE"⟩] }
    let declared := CorsConfig.empty.allowOrigin "https://a.example"
    let save := HandlerMethod.ofBean "users" "Users" ⟨"save", none, some declared⟩
    let calls := [.register strategy put save, .register strategy delete save]
    (∀ strategy' key handler, .register strategy' key handler ∈ calls → strategy' = strategy) ∧
      ∃ policy, (reached none calls).policy? save = some policy ∧
        RouteStrategy.corsFor save delete = .ok (some policy) := by
  intro strategy put delete declared save calls
  have routed : ∀ strategy' key handler, .register strategy' key handler ∈ calls →
      strategy' = strategy := by
    intro strategy' key handler called
    simp only [calls, List.mem_cons, RegistryCall.register.injEq, List.not_mem_nil, or_false] at called
    rcases called with ⟨rfl, -⟩ | ⟨rfl, -⟩ <;> rfl
  have live : ⟨put, save, ["/users"], none, true⟩ ∈ (reached none calls).registrations := by
    exact List.mem_cons_self
  obtain ⟨-, last, policy, latest, computed, inForce⟩ :=
    policy_eq_last_entered .standard none calls routed _ live rfl
  have second : ((entered none .empty calls).filter
      fun entry => entry.1.handler == save && entry.2.isSome).getLast? =
        some (⟨delete, save, ["/people"], none, true⟩,
          some (declared.allowMethod "DELETE").withDefaults) := by
    rfl
  obtain ⟨rfl, -⟩ := Prod.mk.inj (Option.some.inj (latest.symm.trans second))
  exact ⟨routed, policy, inForce save BEq.rfl, computed⟩

/-- So the first route does not have the policy that was computed for it.  Nor has a route that was
registered with a bean already replaced by an instance: it has the one of the bean, here none. -/
theorem policy_of_first_route :
    let strategy := RouteStrategy.strategy .standard
    let put := { Route.ofPattern ⟨"/users", [.literal "users"], false⟩ with methods := [⟨"PUT"⟩] }
    let delete :=
      { Route.ofPattern ⟨"/people", [.literal "people"], false⟩ with methods := [⟨"DELETE"⟩] }
    let declared := CorsConfig.empty.allowOrigin "https://a.example"
    let method : ControllerMethod := ⟨"save", none, some declared⟩
    let save := HandlerMethod.ofBean "users" "Users" method
    let ofInstance := HandlerMethod.ofController ⟨.application 0, "Users", none, none, [method]⟩ method
    let resolved := { ofInstance with resolvedFrom := some "users" }
    let registry := reached none [.register strategy put save, .register strategy delete save]
    let single := reached none [.register strategy put resolved]
    (∃ r ∈ registry.registrations, r.hasCors = true ∧ r.handler = save ∧
        RouteStrategy.corsFor r.handler r.mapping ≠ .ok (registry.policy? r.handler)) ∧
      ∃ r ∈ single.registrations, r.hasCors = true ∧ r.handler = resolved ∧
        RouteStrategy.corsFor r.handler r.mapping ≠ .ok (single.policy? r.handler) := by
  intro strategy put delete declared method save ofInstance resolved registry single
  have live : ⟨put, save, ["/users"], none, true⟩ ∈ registry.registrations := by
    exact List.mem_cons_self
  have live' : ⟨put, resolved, ["/users"], none, true⟩ ∈ single.registrations := by
    exact List.mem_cons_self
  exact ⟨⟨_, live, rfl, rfl, by decide +kernel⟩, ⟨_, live', rfl, rfl, by decide +kernel⟩⟩

end HttpRouting.Registry
