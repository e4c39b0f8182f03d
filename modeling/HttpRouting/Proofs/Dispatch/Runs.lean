import HttpRouting.Dispatch.Run
import HttpRouting.Proofs.Dispatch.Hooks

/-!
Runs of a dispatch up to one of their ends, and the events that they leave behind.  The stages make
one of a few courses of events; then a fault is offered to resolvers, and the completion hooks run.
All hooks of a run are for one handler.
-/

set_option autoImplicit false
set_option relaxedAutoImplicit false

namespace HttpRouting

/-- The ways in which a dispatch ends: it returns, with the fault that nobody handled if there is
one; it is dropped while its handler has not ended; or it is suspended, and then resumed, cancelled
or dropped. -/
inductive Ending where
  | returned (left : Option DispatchFault)
  | droppedPending
  | resumed (left : Option DispatchFault)
  | cancelled
  | droppedSuspended

/-- The fault with which a dispatch ends. -/
def Ending.fault : Ending → Option DispatchFault
  | .returned left | .resumed left => left
  | .droppedPending | .cancelled | .droppedSuspended => some .cancelled

/-- A dispatch of an exchange comes to an end.  A suspended one is resumed with whatever has reached
its receiver, and perhaps nothing within a time limit.  What a dispatch leaves is dropped in the end,
which gives it up once more. -/
inductive Dispatcher.Finished (d : Dispatcher) (exchange : Exchange) : Ending → Progress → Prop
  | returned {p : Progress} {left : Option DispatchFault} :
      d.dispatch exchange = .finished p left → Finished d exchange (.returned left) (d.cancel p)
  | droppedPending {p : Progress} :
      d.dispatch exchange = .pending p → Finished d exchange .droppedPending (d.cancel p)
  | resumed {s : SuspendedDispatch} {receiver : Receiver} {timeout : Option Nat} {p : Progress}
      {left : Option DispatchFault} :
      d.dispatch exchange = .suspended s →
        d.resumeWithin? { s with receiver } timeout = some (p, left) →
          Finished d exchange (.resumed left) (d.cancel p)
  | cancelled {s : SuspendedDispatch} :
      d.dispatch exchange = .suspended s →
        Finished d exchange .cancelled (d.cancel (d.cancelSuspended s))
  | droppedSuspended {s : SuspendedDispatch} :
      d.dispatch exchange = .suspended s →
        Finished d exchange .droppedSuspended (d.cancel s.progress)

/-- Whether the stages of a dispatch have ended, or wait for a handler that answers later, or have gone
on after waiting. -/
inductive Standing where
  | ended
  | waiting
  | resumed
deriving DecidableEq, Repr

/-- Where the stages of a dispatch stand when they have come to a result. -/
def Standing.ofResult : Except DispatchFault StageEnd → Standing
  | .ok (.suspended _) => .waiting
  | _ => .ended

/-- Where the stages of a dispatch stand when it ends. -/
def Ending.standing : Ending → Standing
  | .returned _ | .droppedPending => .ended
  | .resumed _ => .resumed
  | .cancelled | .droppedSuspended => .waiting

/-- The hooks before a handler, each with its result. -/
def preEvents (handler : Handler) (visits : List (Nat × Except HandlerError Bool)) :
    List DispatchEvent :=
  visits.map fun v => .preHandle v.1 handler v.2

/-- The hooks after a handler, each with its result. -/
def postEvents (handler : Handler) (visits : List (Nat × Except HandlerError Unit)) :
    List DispatchEvent :=
  visits.map fun v => .postHandle v.1 handler v.2

/-- All hooks let pass, and the handler is invoked. -/
def invocationEvents (n : Nat) (handler : Handler) : List DispatchEvent :=
  preEvents handler ((List.range n).map fun place => (place, .ok true)) ++ [.invoked handler]

/-- The handler is invoked and answers, and all hooks learn that it is going to answer later. -/
def suspensionEvents (n : Nat) (handler : Handler) : List DispatchEvent :=
  invocationEvents n handler ++ [.answered none]
    ++ (List.range n).reverse.map fun place => .asyncStarted place handler

/-- All hooks run at the end. -/
def completionEvents (n : Nat) (handler : Option Handler) (fault : Option DispatchFault) :
    List DispatchEvent :=
  (List.range n).reverse.map fun place => .completion place handler fault

/-- The events that the stages of a dispatch with a number of interceptors may leave, by where the
stages stand and by the handler. -/
inductive Course (n : Nat) : Standing → Option Handler → List DispatchEvent → Prop
  | unserved (found : Option Handler) : Course n .ended found []
  | refused {handler : Handler} {visits : List (Nat × Except HandlerError Bool)} :
      Visits InterceptorChain.refusal? (List.range n) visits →
        Course n .ended (some handler) (preEvents handler visits)
  | unanswered (handler : Handler) : Course n .ended (some handler) (invocationEvents n handler)
  | failed (handler : Handler) (failure : HandlerError) :
      Course n .ended (some handler) (invocationEvents n handler ++ [.answered (some failure)])
  | answered {handler : Handler} {visits : List (Nat × Except HandlerError Unit)} :
      Visits InterceptorChain.failure? (List.range n).reverse visits →
        Course n .ended (some handler)
          (invocationEvents n handler ++ [.answered none] ++ postEvents handler visits)
  | waiting (handler : Handler) : Course n .waiting (some handler) (suspensionEvents n handler)
  | failedLater (handler : Handler) (failure : HandlerError) :
      Course n .resumed (some handler)
        (suspensionEvents n handler ++ [.delivered (some failure)])
  | answeredLater {handler : Handler} {visits : List (Nat × Except HandlerError Unit)} :
      Visits InterceptorChain.failure? (List.range n).reverse visits →
        Course n .resumed (some handler)
          (suspensionEvents n handler ++ [.delivered none] ++ postEvents handler visits)

namespace Progress

/-- No hook has run yet. -/
structure Untouched (p : Progress) : Prop where
  incomplete : p.completed = false
  silent : p.events = []

/-- The stages stand somewhere, and the completion hooks have not run. -/
structure Underway (n : Nat) (standing : Standing) (p : Progress) : Prop where
  incomplete : p.completed = false
  course : Course n standing p.handler p.events

/-- Events that are offers of faults to resolvers. -/
def Offers (handler : Option Handler) (events : List DispatchEvent) : Prop :=
  ∀ e ∈ events, ∃ place fault handled, e = .offered place handler fault handled

/-- Nothing but offers lies between two states of a dispatch. -/
structure Offered (p p' : Progress) : Prop where
  handler : p'.handler = p.handler
  completed : p'.completed = p.completed
  events : ∃ offers, Offers p.handler offers ∧ p'.events = p.events ++ offers

/-- After one of the courses a fault may have been offered to resolvers, and then all completion
hooks have run. -/
structure Concluded (n : Nat) (standing : Standing) (fault : Option DispatchFault) (p : Progress) :
    Prop where
  completed : p.completed = true
  trace : ∃ course offers, Course n standing p.handler course ∧ Offers p.handler offers ∧
    p.events = course ++ offers ++ completionEvents n p.handler fault

theorem Untouched.underway {p : Progress} (untouched : p.Untouched) (n : Nat) :
    p.Underway n .ended :=
  ⟨untouched.incomplete, untouched.silent ▸ .unserved p.handler⟩

end Progress

namespace Dispatcher

variable (d : Dispatcher)

/-- The number of interceptors. -/
def places : Nat :=
  d.interceptors.interceptors.length

section Stages

variable {p : Progress}

theorem untouched_checkMultipart (untouched : p.Untouched) : (d.checkMultipart p).1.Untouched := by
  obtain ⟨incomplete, silent⟩ := untouched
  simp only [checkMultipart]
  split
  · exact ⟨incomplete, silent⟩
  · split
    · split <;> exact ⟨incomplete, silent⟩
    · exact ⟨incomplete, silent⟩

theorem untouched_miss (untouched : p.Untouched) : (d.miss p).1.Untouched := by
  obtain ⟨incomplete, silent⟩ := untouched
  simp only [miss]
  split <;> exact ⟨incomplete, silent⟩

theorem ofResult_miss (p : Progress) : Standing.ofResult (d.miss p).2 = .ended := by
  simp only [miss]
  split <;> rfl

theorem untouched_checkCache (adapter : Adapter) (handler : Handler) (untouched : p.Untouched) :
    (checkCache adapter handler p).1.Untouched := by
  obtain ⟨incomplete, silent⟩ := untouched
  simp only [checkCache]
  split
  · split <;> exact ⟨incomplete, silent⟩
  · exact ⟨incomplete, silent⟩

theorem handler_checkCache (adapter : Adapter) (handler : Handler) (p : Progress) :
    (checkCache adapter handler p).1.handler = p.handler := by
  simp only [checkCache]
  split
  · split <;> rfl
  · rfl

/-- The hooks after the handler run when the handler has answered. -/
theorem applyOutput_events {handler : Handler} (found : p.handler = some handler)
    (output : HandlerOutput) :
    ∃ visits, Visits InterceptorChain.failure? (List.range d.places).reverse visits ∧
      (d.applyOutput p output).1.events = p.events ++ postEvents handler visits ∧
      (d.applyOutput p output).1.handler = p.handler ∧
      (d.applyOutput p output).1.completed = p.completed := by
  obtain ⟨visits, visited, events⟩ :=
    d.interceptors.postHandle_events (p.enter .postHandle).traced handler
  refine ⟨visits, visited, ?_⟩
  simp only [applyOutput, runPostHandle, found]
  generalize d.interceptors.postHandle handler (p.enter .postHandle).traced = ran at events
  obtain ⟨traced, result⟩ := ran
  cases result with
  | error error => exact ⟨events, found, rfl⟩
  | ok _ => exact ⟨events, found, rfl⟩

/-- When the handler has answered, the hooks after it run, or the dispatch is suspended. -/
theorem underway_takeAnswer {handler : Handler} (found : p.handler = some handler)
    (incomplete : p.completed = false)
    (events : p.events = invocationEvents d.places handler ++ [.answered none])
    (output : HandlerOutput) :
    (d.takeAnswer handler p output).1.Underway d.places
      (.ofResult (d.takeAnswer handler p output).2) := by
  simp only [takeAnswer]
  split
  · refine ⟨incomplete, ?_⟩
    show Course d.places .waiting p.handler (d.interceptors.asyncStarted handler _).events
    rw [InterceptorChain.asyncStarted_events, found]
    show Course d.places .waiting (some handler) (p.events ++ _)
    rw [events]
    exact .waiting handler
  · obtain ⟨visits, visited, left, same_handler, same_completed⟩ :=
      d.applyOutput_events found output
    have underway : (d.applyOutput p output).1.Underway d.places .ended := by
      refine ⟨same_completed.trans incomplete, ?_⟩
      rw [left, same_handler, found, events]
      exact .answered visited
    generalize d.applyOutput p output = applied at underway
    obtain ⟨after, result⟩ := applied
    cases result with
    | error _ => exact underway
    | ok _ => exact underway

/-- The hooks before the handler run, and the handler when all of them let pass. -/
theorem underway_invoke {handler : Handler} (adapter : Adapter) (found : p.handler = some handler)
    (untouched : p.Untouched) :
    (d.invoke adapter handler p).1.Underway d.places
      (.ofResult (d.invoke adapter handler p).2) := by
  obtain ⟨incomplete, silent⟩ := untouched
  obtain ⟨visits, visited, events, passed⟩ :=
    d.interceptors.preHandle_events (p.enter .preHandle).traced handler
  simp only [invoke]
  generalize d.interceptors.preHandle handler (p.enter .preHandle).traced = ran at events passed
  obtain ⟨traced, result⟩ := ran
  have left : traced.events = preEvents handler visits := by
    rw [events, show (p.enter .preHandle).traced.events = [] from silent, List.nil_append]
    rfl
  have refused : ((p.enter .preHandle).withTraced traced).Underway d.places .ended := by
    refine ⟨incomplete, ?_⟩
    show Course d.places .ended p.handler traced.events
    rw [found, left]
    exact .refused visited
  match result with
  | .error _ => exact refused
  | .ok false => exact refused
  | .ok true =>
    have invoked : traced.events ++ [.invoked handler] = invocationEvents d.places handler := by
      rw [left, passed rfl]
      rfl
    dsimp only
    generalize adapter.handle _ handler = handled
    match handled with
    | (work, .pending) =>
      refine ⟨incomplete, ?_⟩
      show Course d.places .ended p.handler (traced.events ++ [.invoked handler])
      rw [found, invoked]
      exact .unanswered handler
    | (work, .finished (.error failure)) =>
      refine ⟨incomplete, ?_⟩
      show Course d.places .ended p.handler
        (traced.events ++ [.invoked handler] ++ [.answered (some failure)])
      rw [found, invoked]
      exact .failed handler failure
    | (work, .finished (.ok output)) =>
      apply d.underway_takeAnswer
      · exact found
      · exact incomplete
      · exact congrArg (· ++ [.answered none]) invoked

/-- A request is served by its handler, unless there is no adapter or the client is up to date. -/
theorem underway_serve (handler : Handler) (untouched : p.Untouched) :
    (d.serve handler p).1.Underway d.places (.ofResult (d.serve handler p).2) := by
  have begun : ({ p with handler := some handler }.enter .adapterLookup).Untouched :=
    ⟨untouched.incomplete, untouched.silent⟩
  simp only [serve]
  split
  · exact begun.underway d.places
  · next adapter _ =>
    have checked := untouched_checkCache adapter handler begun
    have found := handler_checkCache adapter handler
      ({ p with handler := some handler }.enter .adapterLookup)
    generalize checkCache adapter handler _ = cached at checked found
    obtain ⟨p', current⟩ := cached
    cases current with
    | true => exact checked.underway d.places
    | false => exact d.underway_invoke adapter found checked

/-- The stages take one of the courses. -/
theorem underway_runStages (untouched : p.Untouched) :
    (d.runStages p).1.Underway d.places (.ofResult (d.runStages p).2) := by
  have begun : (p.enter .start).Untouched := ⟨untouched.incomplete, untouched.silent⟩
  have prepared := d.untouched_checkMultipart begun
  simp only [runStages]
  generalize d.checkMultipart (p.enter .start) = checked at prepared
  obtain ⟨p', result⟩ := checked
  cases result with
  | error _ => exact prepared.underway d.places
  | ok _ =>
    have looked : (d.findHandler p').1.Untouched := ⟨prepared.incomplete, prepared.silent⟩
    dsimp only
    generalize d.findHandler p' = answer at looked
    match answer with
    | (p'', .error _) => exact looked.underway d.places
    | (p'', .ok none) =>
      dsimp only
      rw [d.ofResult_miss]
      exact (d.untouched_miss looked).underway d.places
    | (p'', .ok (some handler)) => exact d.underway_serve handler looked

end Stages

section Ends

variable {p : Progress} {standing : Standing}

theorem offered_offer (fault : DispatchFault) (resolvers : List (FaultResolver × Nat))
    (p : Progress) : p.Offered (offer fault resolvers p).1 := by
  induction resolvers generalizing p with
  | nil => exact ⟨rfl, rfl, [], by simp [Progress.Offers], (List.append_nil _).symm⟩
  | cons entry rest ih =>
    obtain ⟨resolver, place⟩ := entry
    rw [offer]
    generalize resolver.resolve p.exchange p.handler fault = answer
    obtain ⟨work, handled⟩ := answer
    cases handled with
    | true =>
      refine ⟨rfl, rfl, [.offered place p.handler fault true], ?_, rfl⟩
      exact List.forall_mem_singleton.mpr ⟨_, _, _, rfl⟩
    | false =>
      obtain ⟨same_handler, same_completed, offers, all_offers, events⟩ :=
        ih ((p.withWork work).note (.offered place p.handler fault false))
      refine ⟨same_handler, same_completed, .offered place p.handler fault false :: offers, ?_, ?_⟩
      · exact List.forall_mem_cons.mpr ⟨⟨_, _, _, rfl⟩, all_offers⟩
      · rw [← List.singleton_append, ← List.append_assoc]
        exact events

/-- A fault leaves nothing but offers. -/
theorem offered_processFault (fault : DispatchFault) (p : Progress) :
    p.Offered (d.processFault fault p).1 := by
  have offered := offered_offer fault d.resolvers.zipIdx ((p.enter .exceptionHandling).withResponse
    { (p.enter .exceptionHandling).exchange.response with body := none })
  simp only [processFault]
  generalize offer fault d.resolvers.zipIdx _ = answer at offered
  obtain ⟨p', handled⟩ := answer
  obtain ⟨same_handler, same_completed, events⟩ := offered
  cases handled <;> exact ⟨same_handler, same_completed, events⟩

/-- Completion runs all completion hooks. -/
theorem complete_events (incomplete : p.completed = false) (fault : Option DispatchFault) :
    (d.complete fault p).events = p.events ++ completionEvents d.places p.handler fault ∧
      (d.complete fault p).handler = p.handler ∧ (d.complete fault p).completed = true := by
  have ran := d.interceptors.completion_events
    ({ p with completed := true }.enter .completion).traced p.handler fault
  simp only [complete, incomplete, Bool.false_eq_true, if_false]
  split
  · exact ⟨ran, rfl, rfl⟩
  · exact ⟨ran, rfl, rfl⟩

/-- Giving a dispatch up has no effect once completion has run. -/
theorem cancel_of_completed (completed : p.completed = true) : d.cancel p = p := by
  rw [cancel, if_pos completed]

theorem concluded_complete (underway : p.Underway d.places standing)
    (fault : Option DispatchFault) :
    (d.complete fault p).Concluded d.places standing fault := by
  obtain ⟨events, same_handler, completed⟩ := d.complete_events underway.incomplete fault
  refine ⟨completed, p.events, [], ?_, by simp [Progress.Offers], ?_⟩
  · exact same_handler ▸ underway.course
  · rw [events, same_handler, List.append_nil]

theorem concluded_cancel (underway : p.Underway d.places standing) :
    (d.cancel p).Concluded d.places standing (some .cancelled) := by
  rw [cancel, if_neg (by simp [underway.incomplete])]
  have entered : (p.enter .cancelled).Underway d.places standing :=
    ⟨underway.incomplete, underway.course⟩
  exact d.concluded_complete entered (some .cancelled)

theorem concluded_conclude (underway : p.Underway d.places standing)
    (pending : Option DispatchFault) :
    (d.conclude pending p).1.Concluded d.places standing (d.conclude pending p).2 := by
  cases pending with
  | none => exact d.concluded_complete underway none
  | some fault =>
    obtain ⟨same_handler, same_completed, offers, all_offers, offered⟩ :=
      d.offered_processFault fault p
    obtain ⟨events, same_handler', completed⟩ := d.complete_events
      (same_completed.trans underway.incomplete) (d.processFault fault p).2
    have found : (d.conclude (some fault) p).1.handler = p.handler :=
      same_handler'.trans same_handler
    refine ⟨completed, p.events, offers, found ▸ underway.course, found ▸ all_offers, ?_⟩
    rw [found, ← offered, ← same_handler]
    exact events

/-- A dispatch returns concluded, or it is under way. -/
theorem dispatch_spec (exchange : Exchange) :
    match d.dispatch exchange with
    | .finished p left => p.Concluded d.places .ended left
    | .suspended s => s.progress.Underway d.places .waiting
    | .pending p => p.Underway d.places .ended := by
  have underway := d.underway_runStages (p := .start exchange) ⟨rfl, rfl⟩
  simp only [dispatch]
  generalize d.runStages (.start exchange) = ran at underway
  match ran with
  | (p, .ok .done) => exact d.concluded_conclude underway none
  | (p, .ok (.suspended _)) => exact underway
  | (p, .ok .pending) => exact underway
  | (p, .error fault) => exact d.concluded_conclude underway (some fault)

/-- A suspended dispatch goes on with an outcome and comes to its end. -/
theorem concluded_resumeWith (waiting : p.Underway d.places .waiting) (outcome : DeferredOutcome) :
    (d.resumeWith p outcome).1.Concluded d.places .resumed (d.resumeWith p outcome).2 := by
  obtain ⟨incomplete, course⟩ := waiting
  generalize found : p.handler = handler at course
  generalize left : p.events = events at course
  cases course with
  | waiting handler =>
    cases outcome with
    | error failure =>
      apply d.concluded_conclude
      refine ⟨incomplete, ?_⟩
      show Course d.places .resumed p.handler (p.events ++ [.delivered (some failure)])
      rw [found, left]
      exact .failedLater handler failure
    | ok output =>
      obtain ⟨visits, visited, applied, same_handler, same_completed⟩ :=
        d.applyOutput_events (p := p.note (.delivered none)) found output
      have underway : (d.applyOutput (p.note (.delivered none)) output).1.Underway d.places
          .resumed := by
        refine ⟨same_completed.trans incomplete, ?_⟩
        rw [applied, same_handler]
        show Course d.places .resumed p.handler (p.events ++ [.delivered none] ++ _)
        rw [found, left]
        exact .answeredLater visited
      simp only [resumeWith]
      generalize d.applyOutput (p.note (.delivered none)) output = answer at underway
      obtain ⟨p', result⟩ := answer
      cases result with
      | ok _ => exact d.concluded_conclude underway none
      | error fault => exact d.concluded_conclude underway (some fault)

/-- Every finished dispatch is concluded. -/
theorem Finished.concluded {exchange : Exchange} {ending : Ending}
    (finished : d.Finished exchange ending p) :
    p.Concluded d.places ending.standing ending.fault := by
  have spec := d.dispatch_spec exchange
  cases finished with
  | returned ended =>
    rw [ended] at spec
    rw [d.cancel_of_completed spec.completed]
    exact spec
  | droppedPending ended =>
    rw [ended] at spec
    exact d.concluded_cancel spec
  | @resumed s receiver timeout p left ended resumed =>
    rw [ended] at spec
    obtain ⟨outcome, -, answered⟩ := Option.map_eq_some_iff.mp resumed
    have concluded := d.concluded_resumeWith spec outcome
    rw [answered] at concluded
    rw [d.cancel_of_completed concluded.completed]
    exact concluded
  | cancelled ended =>
    rw [ended] at spec
    have concluded := d.concluded_cancel spec
    rw [cancelSuspended, d.cancel_of_completed concluded.completed]
    exact concluded
  | droppedSuspended ended =>
    rw [ended] at spec
    exact d.concluded_cancel spec

end Ends

end Dispatcher

end HttpRouting
