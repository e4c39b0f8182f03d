import HttpRouting.Proofs.Registry.Policies

/-!
What one registration does to a registry.  It is refused when the key has another handler method, or
when the strategy refuses to compute a policy; it does nothing when the key has an equal handler
method; otherwise it binds the key.  Nothing is entered before all that can fail is over, so only the
last case changes a table, and there only what belongs to the key or to the handler method.
-/

set_option autoImplicit false
set_option relaxedAutoImplicit false

namespace HttpRouting.Registry

variable {κ : Type} [BEq κ]

/-- The key is bound to a handler method that differs from a given one. -/
def BoundToOther (registry : Registry κ) (key : κ) (handler : HandlerMethod) : Prop :=
  ∃ existing, registry.registration? key = some existing ∧ (existing.handler == handler) = false

/-- Two registries agree on all that belongs neither to a key nor to a handler method. -/
structure AgreeApartFrom (registry registry' : Registry κ) (key : κ) (handler : HandlerMethod) :
    Prop where
  registrations : ∀ other, (key == other) = false →
    registry'.registration? other = registry.registration? other
  paths : ∀ path other, (key == other) = false →
    (registry'.keysAt path).contains other = (registry.keysAt path).contains other
  names : ∀ name other, (handler == other) = false →
    (registry'.handlersNamed name).contains other = (registry.handlersNamed name).contains other
  policies : ∀ other, (handler == other) = false →
    registry'.policies.get? other = registry.policies.get? other

section Outcome

variable {registry : Registry κ} {strategy : MappingStrategy κ} {naming : Option (Naming κ)}
  {key : κ} {handler : HandlerMethod} {existing : Registration κ} {policy : Option CorsConfig}

theorem register_of_equal (bound : registry.registration? key = some existing)
    (same : (existing.handler == handler) = true) :
    registry.register strategy naming key handler = .ok registry := by
  simp only [register, bound, same, if_true]

theorem register_of_other (bound : registry.registration? key = some existing)
    (differs : (existing.handler == handler) = false) :
    registry.register strategy naming key handler =
      .error (.ambiguousMapping (strategy.text key) existing.handler.text handler.text) := by
  simp only [register, bound, differs, Bool.false_eq_true, if_false]

theorem register_of_refused {error : MappingError} (free : registry.registration? key = none)
    (refused : strategy.corsFor handler key = .error error) :
    registry.register strategy naming key handler = .error error := by
  simp only [register, free, refused]

variable (naming) in
theorem register_of_free (free : registry.registration? key = none)
    (computed : strategy.corsFor handler key = .ok policy) :
    ∃ r, r.mapping = key ∧ r.handler = handler ∧
      registry.register strategy naming key handler = .ok (registry.add r policy) := by
  simp only [register, free, computed]
  exact ⟨_, rfl, rfl, rfl⟩

/-- The only two reasons to refuse a registration. -/
theorem register_eq_error_iff {error : MappingError} :
    registry.register strategy naming key handler = .error error ↔
      (∃ existing, registry.registration? key = some existing ∧
        (existing.handler == handler) = false ∧ error =
          .ambiguousMapping (strategy.text key) existing.handler.text handler.text) ∨
      (registry.registration? key = none ∧ strategy.corsFor handler key = .error error) := by
  constructor
  · intro failed
    cases bound : registry.registration? key with
    | some existing =>
      cases same : existing.handler == handler with
      | true =>
        rw [register_of_equal bound same] at failed
        cases failed
      | false =>
        rw [register_of_other bound same] at failed
        exact .inl ⟨existing, rfl, same, (Except.error.inj failed).symm⟩
    | none =>
      cases computed : strategy.corsFor handler key with
      | error refusal =>
        rw [register_of_refused bound computed] at failed
        cases failed
        exact .inr ⟨rfl, rfl⟩
      | ok policy =>
        obtain ⟨r, -, -, made⟩ := register_of_free naming bound computed
        rw [made] at failed
        cases failed
  · rintro (⟨existing, bound, differs, rfl⟩ | ⟨free, refused⟩)
    · exact register_of_other bound differs
    · exact register_of_refused free refused

/-- A registry reports a conflict exactly for a key that has another handler method, provided that
the strategy does not report one by itself. -/
theorem register_eq_ambiguousMapping_iff
    (silent : ∀ mapping first second, strategy.corsFor handler key ≠
      .error (.ambiguousMapping mapping first second)) :
    (∃ mapping first second, registry.register strategy naming key handler =
        .error (.ambiguousMapping mapping first second)) ↔
      registry.BoundToOther key handler := by
  constructor
  · rintro ⟨mapping, first, second, failed⟩
    rcases register_eq_error_iff.mp failed with ⟨existing, bound, differs, -⟩ | ⟨-, refused⟩
    · exact ⟨existing, bound, differs⟩
    · exact absurd refused (silent mapping first second)
  · rintro ⟨existing, bound, differs⟩
    exact ⟨_, _, _, register_of_other bound differs⟩

/-- The policy of a route is refused with an error about cross-origin requests only, so a registry of
routes reports a conflict exactly for a route that has another handler method. -/
theorem register_route_eq_ambiguousMapping_iff {registry : Registry Route} (config : MappingConfig)
    {naming : Option (Naming Route)} {route : Route} :
    (∃ mapping first second, registry.register (RouteStrategy.strategy config) naming route handler =
        .error (.ambiguousMapping mapping first second)) ↔
      registry.BoundToOther route handler := by
  refine register_eq_ambiguousMapping_iff ?_
  intro mapping first second refused
  simp only [RouteStrategy.strategy, RouteStrategy.corsFor] at refused
  split at refused
  · cases refused
  · split at refused <;> cases refused

theorem after_of_bound (bound : registry.registration? key = some existing) :
    registry.after naming (.register strategy key handler) = registry := by
  cases same : existing.handler == handler with
  | true => simp only [after, register_of_equal bound same]
  | false => simp only [after, register_of_other bound same]

theorem after_of_refused {error : MappingError}
    (refused : strategy.corsFor handler key = .error error) :
    registry.after naming (.register strategy key handler) = registry := by
  cases bound : registry.registration? key with
  | some existing => exact after_of_bound bound
  | none => simp only [after, register_of_refused bound refused]

end Outcome

section Entering

variable [EquivBEq κ] {registry : Registry κ} {naming : Option (Naming κ)} {key other : κ}
  {r : Registration κ}

theorem contains_bucket_addAll {paths : Table String (List κ)} {directPaths : List String}
    {path : String} (apart : (key == other) = false) :
    ((directPaths.foldl (fun paths path => paths.addTo path key) paths).bucket path).contains other =
      (paths.bucket path).contains other := by
  induction directPaths generalizing paths with
  | nil => rfl
  | cons first rest ih =>
    have unchanged : ((paths.addTo first key).bucket path).contains other =
        (paths.bucket path).contains other := by
      rw [Bool.eq_iff_iff, Table.contains_bucket_addTo]
      simp [apart]
    rw [List.foldl_cons, ih, unchanged]

omit [EquivBEq κ] in
theorem registration?_add [PartialEquivBEq κ] (policy : Option CorsConfig) :
    (registry.add r policy).registration? other =
      if r.mapping == other then some r else registry.registration? other :=
  Table.get?_put registry.table r.mapping other r

theorem registration?_add_self (policy : Option CorsConfig) :
    (registry.add r policy).registration? r.mapping = some r := by
  rw [registration?_add, if_pos BEq.rfl]

/-- A key that was just registered has an equal handler method. -/
theorem exists_registration?_of_register {registry registry' : Registry κ}
    {strategy : MappingStrategy κ} {handler : HandlerMethod}
    (registered : registry.register strategy naming key handler = .ok registry') :
    ∃ existing, registry'.registration? key = some existing ∧
      (existing.handler == handler) = true := by
  rcases register_cases registered with ⟨existing, bound, same, rfl⟩ | ⟨-, policy, -, rfl⟩
  · exact ⟨existing, bound, same⟩
  · exact ⟨_, registration?_add_self policy, BEq.rfl⟩

/-- A key that was just registered is refused to every other handler method, in whatever way the key is
written. -/
theorem register_same_key {registry registry' : Registry κ} {strategy : MappingStrategy κ}
    {handler handler' : HandlerMethod} (same : (key == other) = true)
    (differs : (handler == handler') = false)
    (registered : registry.register strategy naming key handler = .ok registry') :
    ∃ existing, registry'.registration? key = some existing ∧ (existing.handler == handler) = true ∧
      registry'.register strategy naming other handler' =
        .error (.ambiguousMapping (strategy.text other) existing.handler.text handler'.text) := by
  obtain ⟨existing, bound, agrees⟩ := exists_registration?_of_register registered
  have bound' : registry'.registration? other = some existing :=
    (Table.get?_congr registry'.table same).symm.trans bound
  have apart : (existing.handler == handler') = false := by
    rw [← differs]
    exact BEq.congr_left agrees
  exact ⟨existing, bound, agrees, register_of_other bound' apart⟩

theorem agreeApartFrom_add (policy : Option CorsConfig) :
    registry.AgreeApartFrom (registry.add r policy) r.mapping r.handler where
  registrations other apart := by
    rw [registration?_add, apart]
    rfl
  paths path other apart := contains_bucket_addAll apart
  names name other apart := by
    simp only [handlersNamed, add]
    cases r.name with
    | none => rfl
    | some own =>
      rw [Bool.eq_iff_iff, Table.contains_bucket_addTo]
      simp [apart]
  policies other apart := by
    rw [get?_policies_add, apart]
    rfl

/-- A call that does not release a key leaves the registration of the key alone. -/
theorem registration?_after {call : RegistryCall κ} (bound : registry.registration? key = some r)
    (kept : ∀ released, call = .unregister released → (released == key) = false) :
    (registry.after naming call).registration? key = some r := by
  rcases after_cases naming registry call with
    ⟨entered, policy, -, free, -, made⟩ | ⟨-, unchanged⟩ | ⟨released, _, called, -, -, made⟩
  · have apart : (entered.mapping == key) = false := by
      by_contra same
      have same : (entered.mapping == key) = true := by simpa using same
      have taken : registry.registration? entered.mapping = some r :=
        (Table.get?_congr registry.table same).trans bound
      rw [free] at taken
      cases taken
    rw [made, (agreeApartFrom_add policy).registrations key apart, bound]
  · rw [unchanged, bound]
  · have erased := Table.get?_erase registry.table released key
    rw [kept released called] at erased
    rw [made, ← bound]
    exact erased

/-- A key keeps its registration, whatever else is registered, until it is released. -/
theorem registration?_foldl_after {calls : List (RegistryCall κ)}
    (bound : registry.registration? key = some r)
    (kept : ∀ released, .unregister released ∈ calls → (released == key) = false) :
    (calls.foldl (after naming) registry).registration? key = some r := by
  induction calls generalizing registry with
  | nil => exact bound
  | cons call calls ih =>
    refine ih (registration?_after bound ?_) ?_
    · rintro released rfl
      exact kept released List.mem_cons_self
    · intro released later
      exact kept released (List.mem_cons_of_mem _ later)

end Entering

variable [EquivBEq κ]

/-- Registering the same once more changes nothing, whatever came of it the first time. -/
theorem after_after (registry : Registry κ) (naming : Option (Naming κ))
    (strategy : MappingStrategy κ) (key : κ) (handler : HandlerMethod) :
    (registry.after naming (.register strategy key handler)).after naming
        (.register strategy key handler) =
      registry.after naming (.register strategy key handler) := by
  cases bound : registry.registration? key with
  | some existing => rw [after_of_bound bound, after_of_bound bound]
  | none =>
    cases computed : strategy.corsFor handler key with
    | error refusal => rw [after_of_refused computed, after_of_refused computed]
    | ok policy =>
      obtain ⟨r, rfl, rfl, made⟩ := register_of_free naming bound computed
      have reaches : registry.after naming (.register strategy r.mapping r.handler) =
          registry.add r policy := by simp only [after, made]
      rw [reaches, after_of_bound (registration?_add_self policy)]

/-- In every state of a registry, a registration comes to one of four things.

A key that has another handler method is a conflict, and a free key whose policy is refused passes
the refusal on; nothing else fails, so unless the strategy refuses policies with the error of a
conflict, that error reports exactly a key with another handler method.  A key that has an equal
handler method is a success.  In these three cases all four tables are as before.

Otherwise the key is bound, and nothing changes under other keys or for other handler methods.  Doing
the same again changes nothing, and the key keeps what it is bound to until it is released. -/
theorem register_binds_free_key (registry : Registry κ) (naming : Option (Naming κ))
    (strategy : MappingStrategy κ) (key : κ) (handler : HandlerMethod) :
    let outcome := registry.register strategy naming key handler
    let registry' := registry.after naming (.register strategy key handler)
    (∀ error, outcome = .error error ↔
        (∃ existing, registry.registration? key = some existing ∧
          (existing.handler == handler) = false ∧ error =
            .ambiguousMapping (strategy.text key) existing.handler.text handler.text) ∨
        (registry.registration? key = none ∧ strategy.corsFor handler key = .error error)) ∧
      ((∀ mapping first second,
          strategy.corsFor handler key ≠ .error (.ambiguousMapping mapping first second)) →
        ((∃ mapping first second, outcome = .error (.ambiguousMapping mapping first second)) ↔
          registry.BoundToOther key handler)) ∧
      (∀ existing, registry.registration? key = some existing →
        (existing.handler == handler) = true → outcome = .ok registry) ∧
      ((registry.registration? key).isSome = true ∨ (strategy.corsFor handler key).isOk = false →
        registry' = registry) ∧
      (∀ policy, registry.registration? key = none → strategy.corsFor handler key = .ok policy →
        outcome = .ok registry' ∧
          (∃ r, registry'.registration? key = some r ∧ r.mapping = key ∧ r.handler = handler) ∧
          registry.AgreeApartFrom registry' key handler) ∧
      registry'.after naming (.register strategy key handler) = registry' ∧
      ∀ r (calls : List (RegistryCall κ)), registry'.registration? key = some r →
        (∀ released, .unregister released ∈ calls → (released == key) = false) →
        (calls.foldl (after naming) registry').registration? key = some r := by
  intro outcome registry'
  refine ⟨fun error => register_eq_error_iff, register_eq_ambiguousMapping_iff, ?_, ?_, ?_,
    registry.after_after naming strategy key handler,
    fun r calls bound kept => registration?_foldl_after bound kept⟩
  · intro existing bound same
    exact register_of_equal bound same
  · rintro (bound | refused)
    · obtain ⟨existing, bound⟩ := Option.isSome_iff_exists.mp bound
      exact after_of_bound bound
    · cases computed : strategy.corsFor handler key with
      | error refusal => exact after_of_refused computed
      | ok policy =>
        rw [computed] at refused
        cases refused
  · intro policy free computed
    obtain ⟨r, rfl, rfl, made⟩ := register_of_free naming free computed
    have reaches : registry' = registry.add r policy := by
      simp only [registry', after, made]
    rw [reaches]
    exact ⟨made, ⟨r, registration?_add_self policy, rfl, rfl⟩, agreeApartFrom_add policy⟩

/-- One path is bound to a handler method.  Another one for it is a conflict, the same one is none;
another path can be bound, unless its policy is refused. -/
theorem register_beside_bound_path :
    let list := HandlerMethod.ofBean "users" "Users" (.plain "list")
    let search := HandlerMethod.ofBean "users" "Users" (.plain "search")
    let paths := PathStrategy.strategy
    let refusing := { paths with corsFor := fun _ _ => .error (.invalidMapping "Users" "policy") }
    let registry := reached none [.register paths "/users" list]
    (∃ mapping first second, registry.register paths none "/users" search =
        .error (.ambiguousMapping mapping first second)) ∧
      registry.register paths none "/users" list = .ok registry ∧
      registry.after none (.register refusing "/people" search) = registry ∧
      registry.AgreeApartFrom (registry.after none (.register paths "/people" search)) "/people"
        search ∧
      ∃ r, ((registry.after none (.register paths "/people" search)).after none
          (.register paths "/people" list)).registration? "/people" = some r ∧
        r.handler = search := by
  intro list search paths refusing registry
  have users : registry.registration? "/users" = some ⟨"/users", list, ["/users"], none, false⟩ := rfl
  have people : registry.registration? "/people" = none := by decide
  have differs : (list == search) = false := by decide
  have conflict := register_binds_free_key registry none paths "/users" search
  have repeated := register_binds_free_key registry none paths "/users" list
  have refused := register_binds_free_key registry none refusing "/people" search
  have binds := register_binds_free_key registry none paths "/people" search
  obtain ⟨-, ⟨r, bound, -, own⟩, agree⟩ := binds.2.2.2.2.1 none people rfl
  refine ⟨(conflict.2.1 ?_).mpr ⟨_, users, differs⟩, repeated.2.2.1 _ users BEq.rfl,
    refused.2.2.2.1 (.inr rfl), agree, r, ?_, own⟩
  · intro mapping first second given
    cases given
  · refine binds.2.2.2.2.2.2 r [.register paths "/people" list] bound ?_
    intro released listed
    cases listed with
    | tail _ later => cases later

end HttpRouting.Registry
