import HttpRouting.Proofs.Dispatch.Runs

/-!
What interceptors may rely on.  However a dispatch ends, the hooks before the handler have been
visited in order until one did not let pass, the handler ran at most once and only when all of them
let pass, the hooks after it ran in reverse order and only after a successful answer, the hooks for a
later answer ran exactly when the dispatch was suspended, and the completion hooks ran once, last, all
of them.
-/

set_option autoImplicit false
set_option relaxedAutoImplicit false

namespace HttpRouting

namespace DispatchEvent

/-- The place and the result of a hook before the handler. -/
def preVisit? : DispatchEvent → Option (Nat × Except HandlerError Bool)
  | .preHandle place _ result => some (place, result)
  | _ => none

/-- The handler that is invoked. -/
def invocation? : DispatchEvent → Option Handler
  | .invoked handler => some handler
  | _ => none

/-- The place of a hook for a later answer. -/
def asyncPlace? : DispatchEvent → Option Nat
  | .asyncStarted place _ => some place
  | _ => none

/-- The place and the result of a hook after the handler. -/
def postVisit? : DispatchEvent → Option (Nat × Except HandlerError Unit)
  | .postHandle place _ result => some (place, result)
  | _ => none

/-- The place of a completion hook, with the fault that it is told. -/
def completionVisit? : DispatchEvent → Option (Nat × Option DispatchFault)
  | .completion place _ fault => some (place, fault)
  | _ => none

/-- The stage of a dispatch that an event belongs to. -/
def stage : DispatchEvent → Nat
  | .preHandle .. => 0
  | .invoked .. => 1
  | .answered .. => 2
  | .asyncStarted .. => 3
  | .delivered .. => 4
  | .postHandle .. => 5
  | .offered .. => 6
  | .completion .. => 7

end DispatchEvent

open DispatchEvent

/-- The event that a handler has succeeded, at once or later. -/
def Standing.success : Standing → DispatchEvent
  | .ended => .answered none
  | .waiting | .resumed => .delivered none

/-- The hooks of a number of interceptors, those at the end aside, and the handler take their turns:
the hooks before the handler in order until one does not let pass; the handler once at most, only when
all let pass, and it succeeds only when it ran; the hooks for a later answer in reverse order, exactly
when the dispatch is suspended; and the hooks after the handler in reverse order until one fails,
exactly when the handler has succeeded. -/
structure TurnsTaken (n : Nat) (standing : Standing) (events : List DispatchEvent) : Prop where
  pre : events.filterMap preVisit? = [] ∨
    Visits InterceptorChain.refusal? (List.range n) (events.filterMap preVisit?)
  invoked_once : (events.filterMap invocation?).length ≤ 1
  invoked_passed : events.filterMap invocation? ≠ [] →
    events.filterMap preVisit? = (List.range n).map fun place => (place, .ok true)
  success_invoked : standing.success ∈ events → events.filterMap invocation? ≠ []
  async : events.filterMap asyncPlace? = if standing = .ended then [] else (List.range n).reverse
  post : standing.success ∈ events →
    Visits InterceptorChain.failure? (List.range n).reverse (events.filterMap postVisit?)
  no_post : standing.success ∉ events → events.filterMap postVisit? = []

/-- The trace of a finished dispatch: the hooks and the handler take their turns one after the other,
and all hooks at the end run once, told the fault with which the dispatch ends. -/
structure WellFormed (n : Nat) (ending : Ending) (events : List DispatchEvent) : Prop extends
    TurnsTaken n ending.standing events where
  ordered : events.Pairwise fun a b => a.stage ≤ b.stage
  completion : events.filterMap completionVisit? =
    (List.range n).reverse.map fun place => (place, ending.fault)

/-- Events in the order of their stages, none of a stage beyond a given one. -/
structure Staged (bound : Nat) (events : List DispatchEvent) : Prop where
  ordered : events.Pairwise fun a b => a.stage ≤ b.stage
  bounded : ∀ e ∈ events, e.stage ≤ bound

theorem staged_nil (bound : Nat) : Staged bound [] :=
  ⟨.nil, by simp⟩

/-- Events of one later stage may follow. -/
theorem Staged.append {bound later : Nat} {events more : List DispatchEvent}
    (staged : Staged bound events) (same : ∀ e ∈ more, e.stage = later) (after : bound ≤ later) :
    Staged later (events ++ more) where
  ordered := by
    refine List.pairwise_append.mpr ⟨staged.ordered, ?_, ?_⟩
    · refine List.pairwise_of_forall_mem_list fun a member b member' => ?_
      have := same a member
      have := same b member'
      omega
    · intro a member b member'
      have := staged.bounded a member
      have := same b member'
      omega
  bounded := by
    intro e member
    rcases List.mem_append.mp member with before | behind
    · have := staged.bounded e before
      omega
    · exact Nat.le_of_eq (same e behind)

theorem Staged.snoc {bound : Nat} {events : List DispatchEvent} (staged : Staged bound events)
    (event : DispatchEvent) (after : bound ≤ event.stage) :
    Staged event.stage (events ++ [event]) :=
  staged.append (List.forall_mem_singleton.mpr rfl) after

theorem Staged.weaken {bound later : Nat} {events : List DispatchEvent}
    (staged : Staged bound events) (after : bound ≤ later) : Staged later events :=
  ⟨staged.ordered, fun e member => Nat.le_trans (staged.bounded e member) after⟩

theorem staged_preEvents (handler : Handler) (visits : List (Nat × Except HandlerError Bool)) :
    Staged 0 (preEvents handler visits) :=
  (staged_nil 0).append (List.forall_mem_map.mpr fun _ _ => rfl) (Nat.le_refl 0)

theorem staged_invocationEvents (n : Nat) (handler : Handler) :
    Staged 1 (invocationEvents n handler) :=
  (staged_preEvents handler _).snoc (.invoked handler) (Nat.zero_le 1)

theorem staged_suspensionEvents (n : Nat) (handler : Handler) :
    Staged 3 (suspensionEvents n handler) :=
  ((staged_invocationEvents n handler).snoc (.answered none) (Nat.le_succ 1)).append
    (List.forall_mem_map.mpr fun _ _ => rfl) (Nat.le_succ 2)

theorem staged_postEvents {bound : Nat} {events : List DispatchEvent} (staged : Staged bound events)
    (within : bound ≤ 5) (handler : Handler) (visits : List (Nat × Except HandlerError Unit)) :
    Staged 5 (events ++ postEvents handler visits) :=
  staged.append (List.forall_mem_map.mpr fun _ _ => rfl) within

namespace Course

variable {n : Nat} {standing : Standing} {handler : Option Handler} {course : List DispatchEvent}

theorem staged (taken : Course n standing handler course) : Staged 5 course := by
  have answered (handler : Handler) (failure : Option HandlerError) :
      Staged 2 (invocationEvents n handler ++ [.answered failure]) :=
    (staged_invocationEvents n handler).snoc (.answered failure) (Nat.le_succ 1)
  have delivered (handler : Handler) (failure : Option HandlerError) :
      Staged 4 (suspensionEvents n handler ++ [.delivered failure]) :=
    (staged_suspensionEvents n handler).snoc (.delivered failure) (Nat.le_succ 3)
  cases taken with
  | unserved => exact staged_nil 5
  | refused => exact (staged_preEvents _ _).weaken (by omega)
  | unanswered handler => exact (staged_invocationEvents n handler).weaken (by omega)
  | failed handler failure => exact (answered handler (some failure)).weaken (by omega)
  | answered => exact staged_postEvents (answered _ none) (by omega) _ _
  | waiting handler => exact (staged_suspensionEvents n handler).weaken (by omega)
  | failedLater handler failure => exact (delivered handler (some failure)).weaken (by omega)
  | answeredLater => exact staged_postEvents (delivered _ none) (by omega) _ _

/-- Each course lets the hooks and the handler take their turns. -/
theorem turnsTaken (taken : Course n standing handler course) : TurnsTaken n standing course := by
  have all_pass : Visits InterceptorChain.refusal? (List.range n)
      ((List.range n).map fun place => (place, .ok true)) :=
    .of_pass rfl (List.range n)
  -- The parts of a trace are read off kind by kind, which computes on the events of each course.
  cases taken <;>
    constructor <;>
    simp only [preEvents, postEvents, invocationEvents, suspensionEvents, List.filterMap_append,
      List.filterMap_map, List.filterMap_cons, List.filterMap_nil, Function.comp_def, preVisit?,
      invocation?, asyncPlace?, postVisit?, Standing.success] <;>
    simp [*]

end Course

/-- Events that belong neither to the handler nor to the hooks around it do not take turns. -/
theorem TurnsTaken.append {n : Nat} {standing : Standing} {events more : List DispatchEvent}
    (turns : TurnsTaken n standing events) (late : ∀ e ∈ more, 5 < e.stage) :
    TurnsTaken n standing (events ++ more) := by
  have unchanged {β : Type} (part? : DispatchEvent → Option β)
      (none_late : ∀ e, 5 < e.stage → part? e = none) :
      (events ++ more).filterMap part? = events.filterMap part? := by
    have nothing : more.filterMap part? = [] :=
      List.filterMap_eq_nil_iff.mpr fun e member => none_late e (late e member)
    rw [List.filterMap_append, nothing, List.append_nil]
  have pre := unchanged preVisit? fun e late => by cases e <;> simp [stage, preVisit?] at late ⊢
  have invocations := unchanged invocation? fun e late => by
    cases e <;> simp [stage, invocation?] at late ⊢
  have async := unchanged asyncPlace? fun e late => by cases e <;> simp [stage, asyncPlace?] at late ⊢
  have post := unchanged postVisit? fun e late => by cases e <;> simp [stage, postVisit?] at late ⊢
  have early : standing.success ∉ more := by
    intro member
    have := late _ member
    cases standing <;> simp [Standing.success, stage] at this
  have success_iff : standing.success ∈ events ++ more ↔ standing.success ∈ events := by
    simp [early]
  constructor <;> simp only [pre, invocations, async, post, success_iff]
  exacts [turns.pre, turns.invoked_once, turns.invoked_passed, turns.success_invoked, turns.async,
    turns.post, turns.no_post]

/-- A concluded dispatch has a well-formed trace. -/
theorem Progress.Concluded.wellFormed {n : Nat} {ending : Ending} {p : Progress}
    (concluded : p.Concluded n ending.standing ending.fault) : WellFormed n ending p.events := by
  obtain ⟨-, course, offers, taken, all_offers, events⟩ := concluded
  have offered (e : DispatchEvent) (member : e ∈ offers) : e.stage = 6 := by
    obtain ⟨_, _, _, rfl⟩ := all_offers e member
    rfl
  have completing (e : DispatchEvent)
      (member : e ∈ completionEvents n p.handler ending.fault) : e.stage = 7 := by
    obtain ⟨_, -, rfl⟩ := List.mem_map.mp member
    rfl
  have before_completion : Staged 6 (course ++ offers) := taken.staged.append offered (by omega)
  have none_before : (course ++ offers).filterMap completionVisit? = [] := by
    refine List.filterMap_eq_nil_iff.mpr fun e member => ?_
    have early := before_completion.bounded e member
    cases e <;> simp [stage, completionVisit?] at early ⊢
  rw [events]
  refine ⟨?_, (before_completion.append completing (by omega)).ordered, ?_⟩
  · rw [List.append_assoc]
    refine taken.turnsTaken.append fun e member => ?_
    rcases List.mem_append.mp member with before | behind
    · have := offered e before
      omega
    · have := completing e behind
      omega
  · rw [List.filterMap_append, none_before, List.nil_append, completionEvents, List.filterMap_map]
    exact congrFun List.filterMap_eq_map' _

/-- Every finished dispatch has run its completion hooks and leaves a well-formed trace: for any
number of interceptors, whatever mappings, adapters, hooks, resolvers and handlers come to, and
whether the dispatch returns, is resumed, in time or not, is cancelled, or is dropped. -/
theorem wellFormed_of_finished (d : Dispatcher) (exchange : Exchange) (ending : Ending)
    (p : Progress) (finished : d.Finished exchange ending p) :
    p.completed = true ∧ WellFormed d.places ending p.events :=
  ⟨finished.concluded.completed, finished.concluded.wellFormed⟩

/-- Two interceptors around a handler that answers later, but not in time. -/
theorem wellFormed_timeout :
    let slow : Adapter :=
      { supports := fun _ => true
        handle := fun exchange _ => (exchange.work.startAsync.2, .finished (.ok .empty))
        lastModified := fun _ _ => none }
    let mapping : HandlerMapping :=
      ⟨"slow", fun exchange => (exchange.work, .ok (some (.request (.application 0 "slow"))))⟩
    let d : Dispatcher := ⟨[mapping], [slow], ⟨[.silent, .silent]⟩, [.byStatus], none, .standard⟩
    let exchange := Exchange.ofRequest ⟨⟨[]⟩, .get, "/slow", [], .empty, []⟩
    ∃ p, d.Finished exchange (.resumed none) p ∧ p.completed = true ∧
      WellFormed 2 (.resumed none) p.events := by
  intro slow mapping d exchange
  have finished := @Dispatcher.Finished.resumed d exchange _ (.fresh 0) (some 100) _ none rfl rfl
  exact ⟨_, finished, wellFormed_of_finished d exchange (.resumed none) _ finished⟩

end HttpRouting
