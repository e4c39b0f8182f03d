import HttpRouting.Dispatch.Interceptor
import Mathlib.Data.List.Basic

/-!
The events that the hooks of interceptors leave behind.  A chain visits its interceptors in turn, in
the order of their places or against it, and each visit leaves one event; hooks that may stop the
visits do so at the first result that does not let pass.
-/

set_option autoImplicit false
set_option relaxedAutoImplicit false

namespace HttpRouting

/-- Places visited in turn, each with the result of the visit, up to and including the first whose
result stops the visits. -/
inductive Visits {ρ β : Type} (stop? : ρ → Option β) : List Nat → List (Nat × ρ) → Prop
  | nil : Visits stop? [] []
  | pass {place : Nat} {result : ρ} {places : List Nat} {visits : List (Nat × ρ)} :
      stop? result = none → Visits stop? places visits →
        Visits stop? (place :: places) ((place, result) :: visits)
  | stop {place : Nat} {result : ρ} {answer : β} {places : List Nat} :
      stop? result = some answer → Visits stop? (place :: places) [(place, result)]

/-- When no result stops the visits, every place is visited. -/
theorem Visits.map_fst {ρ β : Type} {stop? : ρ → Option β} {places : List Nat}
    {visits : List (Nat × ρ)} (visited : Visits stop? places visits)
    (none_stops : ∀ v ∈ visits, stop? v.2 = none) : visits.map Prod.fst = places := by
  induction visited with
  | nil => rfl
  | pass _ _ ih =>
    rw [List.map_cons, ih (List.forall_mem_cons.mp none_stops).2]
  | stop stops =>
    have passes := none_stops _ List.mem_cons_self
    simp [stops] at passes

/-- A result that does not stop the visits may come of every visit. -/
theorem Visits.of_pass {ρ β : Type} {stop? : ρ → Option β} {result : ρ}
    (passes : stop? result = none) (places : List Nat) :
    Visits stop? places (places.map fun place => (place, result)) := by
  induction places with
  | nil => exact .nil
  | cons place places ih => exact .pass passes ih

namespace InterceptorChain

theorem placed_forward (chain : InterceptorChain) :
    (chain.placed .forward).map Prod.snd = List.range chain.interceptors.length := by
  simp [placed, List.range_eq_range']

theorem placed_reverse (chain : InterceptorChain) :
    (chain.placed .reverse).map Prod.snd = (List.range chain.interceptors.length).reverse := by
  simp [placed, List.range_eq_range']

theorem fst_mem_of_mem_placed {chain : InterceptorChain} {direction : Direction}
    {entry : Interceptor × Nat} (member : entry ∈ chain.placed direction) :
    entry.1 ∈ chain.interceptors := by
  cases direction with
  | forward => exact List.fst_mem_of_mem_zipIdx member
  | reverse => exact List.fst_mem_of_mem_zipIdx (List.mem_reverse.mp member)

theorem refusal?_eq_none_iff {result : Except HandlerError Bool} :
    refusal? result = none ↔ result = .ok true := by
  match result with
  | .ok true => exact ⟨fun _ => rfl, fun _ => rfl⟩
  | .ok false => exact ⟨nofun, nofun⟩
  | .error _ => exact ⟨nofun, nofun⟩

theorem refusal?_ne_some {result : Except HandlerError Bool} : refusal? result ≠ some (.ok true) := by
  match result with
  | .ok true => nofun
  | .ok false => nofun
  | .error _ => nofun

/-- Every visit leaves one event, and the first result that stops the visits is the answer. -/
theorem visit_events {ρ β : Type} (hook : Interceptor → Exchange → Work × ρ)
    (event : Nat → ρ → DispatchEvent) (stop? : ρ → Option β) (placed : List (Interceptor × Nat))
    (traced : Traced) :
    let visited := visit (fun place interceptor (traced : Traced) =>
      let (work, result) := hook interceptor traced.exchange
      (traced.after work (event place result), stop? result)) placed traced
    ∃ visits, Visits stop? (placed.map Prod.snd) visits ∧
      visited.1.events = traced.events ++ visits.map (fun v => event v.1 v.2) ∧
      visited.2 = visits.findSome? fun v => stop? v.2 := by
  induction placed generalizing traced with
  | nil => exact ⟨[], .nil, by simp [visit], rfl⟩
  | cons entry rest ih =>
    obtain ⟨interceptor, place⟩ := entry
    simp only [visit]
    generalize hook interceptor traced.exchange = done
    obtain ⟨work, result⟩ := done
    cases stops : stop? result with
    | some answer => exact ⟨[(place, result)], .stop stops, rfl, by simp [stops]⟩
    | none =>
      obtain ⟨visits, visited, events, answer⟩ := ih (traced.after work (event place result))
      refine ⟨(place, result) :: visits, .pass stops visited, ?_, ?_⟩
      · rw [events]
        simp [Traced.after]
      · rw [answer, List.findSome?_cons, stops]

theorem run_events {ρ β : Type} (chain : InterceptorChain) (direction : Direction)
    (hook : Interceptor → Exchange → Work × ρ) (event : Nat → ρ → DispatchEvent)
    (stop? : ρ → Option β) (traced : Traced) :
    ∃ visits, Visits stop? ((chain.placed direction).map Prod.snd) visits ∧
      (chain.run direction hook event stop? traced).1.events =
        traced.events ++ visits.map (fun v => event v.1 v.2) ∧
      (chain.run direction hook event stop? traced).2 = visits.findSome? fun v => stop? v.2 :=
  visit_events hook event stop? (chain.placed direction) traced

/-- A hook that cannot stop the visits is run for every interceptor. -/
theorem run_events_of_unstoppable {ρ : Type} (chain : InterceptorChain) (direction : Direction)
    (hook : Interceptor → Exchange → Work × ρ) (event : Nat → DispatchEvent) (traced : Traced) :
    (chain.run direction hook (fun place _ => event place) (fun _ => (none : Option Unit))
      traced).1.events = traced.events ++ ((chain.placed direction).map Prod.snd).map event := by
  obtain ⟨visits, visited, events, -⟩ := chain.run_events direction hook (fun place _ => event place)
    (fun _ => (none : Option Unit)) traced
  rw [events, ← visited.map_fst fun _ _ => rfl, List.map_map]
  rfl

section Hooks

variable (chain : InterceptorChain) (traced : Traced)

/-- The hooks before the handler are visited in order until one does not let pass; when the handler
is to run, all of them have let pass. -/
theorem preHandle_events (handler : Handler) :
    ∃ visits, Visits refusal? (List.range chain.interceptors.length) visits ∧
      (chain.preHandle handler traced).1.events =
        traced.events ++ visits.map (fun v => .preHandle v.1 handler v.2) ∧
      ((chain.preHandle handler traced).2 = .ok true →
        visits = (List.range chain.interceptors.length).map fun place => (place, .ok true)) := by
  obtain ⟨visits, visited, events, answer⟩ := chain.run_events .forward
    (fun interceptor exchange => interceptor.preHandle exchange handler)
    (fun place result => .preHandle place handler result) refusal? traced
  rw [chain.placed_forward] at visited
  refine ⟨visits, visited, events, fun passed => ?_⟩
  have none_stops (v : Nat × Except HandlerError Bool) (member : v ∈ visits) :
      refusal? v.2 = none := by
    simp only [preHandle, answer] at passed
    cases found : visits.findSome? fun v => refusal? v.2 with
    | none => exact List.findSome?_eq_none_iff.mp found v member
    | some refusal =>
      rw [found, Option.getD_some] at passed
      obtain ⟨w, -, refused⟩ := List.exists_of_findSome?_eq_some found
      exact absurd (passed ▸ refused) refusal?_ne_some
  rw [← visited.map_fst none_stops, List.map_map]
  refine (List.map_id visits).symm.trans (List.map_congr_left fun v member => ?_)
  exact Prod.ext rfl (refusal?_eq_none_iff.mp (none_stops v member))

/-- The hooks after the handler are visited in reverse order until one fails. -/
theorem postHandle_events (handler : Handler) :
    ∃ visits, Visits failure? (List.range chain.interceptors.length).reverse visits ∧
      (chain.postHandle handler traced).1.events =
        traced.events ++ visits.map (fun v => .postHandle v.1 handler v.2) := by
  obtain ⟨visits, visited, events, -⟩ := chain.run_events .reverse
    (fun interceptor exchange => interceptor.postHandle exchange handler)
    (fun place result => .postHandle place handler result) failure? traced
  rw [chain.placed_reverse] at visited
  exact ⟨visits, visited, events⟩

theorem completion_events (handler : Option Handler) (fault : Option DispatchFault) :
    (chain.completion handler fault traced).events = traced.events ++
      (List.range chain.interceptors.length).reverse.map fun place =>
        .completion place handler fault := by
  rw [completion, run_events_of_unstoppable, placed_reverse]

theorem asyncStarted_events (handler : Handler) :
    (chain.asyncStarted handler traced).events = traced.events ++
      (List.range chain.interceptors.length).reverse.map fun place =>
        .asyncStarted place handler := by
  rw [asyncStarted, run_events_of_unstoppable, placed_reverse]

end Hooks

end InterceptorChain

end HttpRouting
