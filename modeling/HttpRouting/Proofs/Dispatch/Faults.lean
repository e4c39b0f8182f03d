import HttpRouting.Proofs.Attributes
import HttpRouting.Proofs.Dispatch.Raising
import HttpRouting.Proofs.Dispatch.Trace

/-!
What becomes of faults.  The one fault that a dispatch raises, if any, is offered to the resolvers one
after the other, up to the first that handles it; the dispatch fails with this very fault just when none
does.
-/

set_option autoImplicit false
set_option relaxedAutoImplicit false

namespace HttpRouting

/-- The place of a resolver that a fault is offered to, with the fault and whether it is handled. -/
def DispatchEvent.offer? : DispatchEvent → Option (Nat × DispatchFault × Bool)
  | .offered place _ fault handled => some (place, fault, handled)
  | _ => none

/-- The fault with which a dispatch hands its exchange back, because nobody handled it. -/
def Ending.unhandled : Ending → Option DispatchFault
  | .returned left | .resumed left => left
  | .droppedPending | .cancelled | .droppedSuspended => none

/-- The exchange that the first resolver finds. -/
def Exchange.emptied (exchange : Exchange) : Exchange :=
  (exchange.enter .exceptionHandling).withResponse { exchange.response with body := none }

/-- The exchange when a fault is handled. -/
def Exchange.marked (exchange : Exchange) (fault : DispatchFault) : Exchange :=
  { exchange.enter .resultProcessing with
    work := exchange.work.setAttribute Attributes.exception (.text fault.message) }

namespace Dispatcher

/-- A dispatch comes to an end, after it has gone on with an outcome that was waited for, or without. -/
inductive FinishedOn (d : Dispatcher) (exchange : Exchange) :
    Option DeferredOutcome → Ending → Progress → Prop
  | unresumed {ending : Ending} {p : Progress} : d.Finished exchange ending p →
      ending.standing ≠ .resumed → FinishedOn d exchange none ending p
  | resumed {s : SuspendedDispatch} {receiver : Receiver} {timeout : Option Nat}
      {outcome : DeferredOutcome} {p : Progress} {left : Option DispatchFault} :
      d.dispatch exchange = .suspended s → receiver.outcomeWithin? timeout = some outcome →
        d.resumeWith s.progress outcome = (p, left) →
          FinishedOn d exchange (some outcome) (.resumed left) (d.cancel p)

/-- A fault is offered to the resolvers in their order, the body of the response being empty at first, up
to and including the first that handles it.  If one does, the exchange is marked with the fault, and
otherwise the dispatch fails with it; then only the hooks at the end run. -/
def Resolves (d : Dispatcher) (exchange : Exchange) (fault : DispatchFault) (ending : Ending)
    (p : Progress) : Prop :=
  ∃ answers handled after concluded,
    exchange.emptied.response.body = none ∧
    InTurn (fun resolver exchange => resolver.resolve exchange p.handler fault) false d.resolvers
      exchange.emptied answers handled after ∧
    p.events.filterMap DispatchEvent.offer? =
      answers.zipIdx.map (fun answer => (answer.2, fault, answer.1)) ∧
    ending.unhandled = (if handled then none else some fault) ∧
    concluded.exchange = (if handled then after.marked fault else after) ∧
    (handled = true →
      concluded.exchange.attributes.text? Attributes.exception = some fault.message) ∧
    concluded.completed = false ∧ p = d.complete ending.unhandled concluded

end Dispatcher

open DispatchEvent

theorem offers_completionEvents (n : Nat) (handler : Option Handler) (fault : Option DispatchFault) :
    (completionEvents n handler fault).filterMap offer? = [] :=
  List.filterMap_eq_nil_iff.mpr (List.forall_mem_map.mpr fun _ _ => rfl)

/-- Nothing is offered while the stages run. -/
theorem Course.offers {n : Nat} {standing : Standing} {handler : Option Handler}
    {events : List DispatchEvent} (taken : Course n standing handler events) :
    events.filterMap offer? = [] := by
  refine List.filterMap_eq_nil_iff.mpr fun event member => ?_
  have early := taken.staged.bounded event member
  cases event <;> simp [stage, offer?] at early ⊢

/-- The completion hooks have not run, and no fault was offered. -/
structure Progress.Unoffered (p : Progress) : Prop where
  incomplete : p.completed = false
  silent : p.events.filterMap offer? = []

theorem Progress.Underway.unoffered {n : Nat} {standing : Standing} {p : Progress}
    (underway : p.Underway n standing) : p.Unoffered :=
  ⟨underway.incomplete, underway.course.offers⟩

namespace Dispatcher

variable {d : Dispatcher} {p : Progress}

/-- Resolvers are called in turn, and each call leaves an offer. -/
theorem inTurn_offer (fault : DispatchFault) (resolvers : List FaultResolver) (first : Nat)
    (p : Progress) :
    let offered := offer fault (resolvers.zipIdx first) p
    ∃ answers, InTurn (fun resolver exchange => resolver.resolve exchange p.handler fault) false
        resolvers p.exchange answers offered.2 offered.1.exchange ∧
      offered.1.events = p.events ++
        (answers.zipIdx first).map fun answer => .offered answer.2 p.handler fault answer.1 := by
  induction resolvers generalizing p first with
  | nil => exact ⟨[], .nil p.exchange, (List.append_nil _).symm⟩
  | cons resolver rest ih =>
    cases resolved : resolver.resolve p.exchange p.handler fault with
    | mk work handled =>
      let called := (p.withWork work).note (.offered first p.handler fault handled)
      have step : offer fault ((resolver :: rest).zipIdx first) p =
          if handled then (called, true) else offer fault (rest.zipIdx (first + 1)) called := by
        rw [List.zipIdx_cons, offer, resolved]
      rw [step]
      cases handled with
      | true => exact ⟨[true], .stop resolved (by simp), rfl⟩
      | false =>
        obtain ⟨answers, turns, events⟩ := ih (first + 1) called
        refine ⟨false :: answers, .pass resolved turns, events.trans ?_⟩
        exact List.append_assoc p.events [_] _

/-- What offering a fault to the resolvers comes to. -/
theorem processFault_spec (d : Dispatcher) (fault : DispatchFault) (p : Progress) :
    let processed := d.processFault fault p
    ∃ answers handled after,
      InTurn (fun resolver exchange => resolver.resolve exchange p.handler fault) false d.resolvers
        p.exchange.emptied answers handled after ∧
      processed.1.events = p.events ++
        answers.zipIdx.map (fun answer => .offered answer.2 p.handler fault answer.1) ∧
      processed.2 = (if handled then none else some fault) ∧
      processed.1.exchange = (if handled then after.marked fault else after) := by
  let begun := (p.enter .exceptionHandling).withResponse
    { (p.enter .exceptionHandling).exchange.response with body := none }
  obtain ⟨answers, turns, events⟩ := inTurn_offer fault d.resolvers 0 begun
  simp only [processFault]
  generalize offer fault (d.resolvers.zipIdx 0) begun = answer at turns events
  obtain ⟨q, handled⟩ := answer
  refine ⟨answers, handled, q.exchange, turns, ?_⟩
  cases handled with
  | true => exact ⟨events, rfl, rfl⟩
  | false => exact ⟨events, rfl, rfl⟩

theorem offers_complete (unoffered : p.Unoffered) (fault : Option DispatchFault) :
    (d.complete fault p).events.filterMap offer? = [] := by
  rw [(d.complete_events unoffered.incomplete fault).1, List.filterMap_append, unoffered.silent,
    offers_completionEvents, List.append_nil]

theorem offers_cancel (unoffered : p.Unoffered) : (d.cancel p).events.filterMap offer? = [] := by
  rw [cancel, if_neg (by simp [unoffered.incomplete])]
  exact offers_complete (p := p.enter .cancelled) ⟨unoffered.incomplete, unoffered.silent⟩ _

/-- A dispatch that is concluded with a fault has offered it to the resolvers. -/
theorem resolves_conclude (d : Dispatcher) (unoffered : p.Unoffered) (fault : DispatchFault)
    (ending : Ending) (left : ending.unhandled = (d.conclude (some fault) p).2) :
    d.Resolves p.exchange fault ending (d.conclude (some fault) p).1 := by
  obtain ⟨same_handler, same_completed, -⟩ := d.offered_processFault fault p
  obtain ⟨answers, handled, after, turns, events, unhandled, exchange⟩ := d.processFault_spec fault p
  have left : ending.unhandled = (d.processFault fault p).2 := left
  have incomplete : (d.processFault fault p).1.completed = false :=
    same_completed.trans unoffered.incomplete
  obtain ⟨completion, completion_handler, -⟩ := d.complete_events incomplete ending.unhandled
  have concluded : (d.conclude (some fault) p).1 =
      d.complete ending.unhandled (d.processFault fault p).1 := by
    rw [left]
    rfl
  have found : (d.conclude (some fault) p).1.handler = p.handler := by
    rw [concluded, completion_handler, same_handler]
  refine ⟨answers, handled, after, (d.processFault fault p).1, rfl, found ▸ turns, ?_,
    left.trans unhandled, exchange, ?_, incomplete, concluded⟩
  · rw [concluded, completion, events, List.filterMap_append, List.filterMap_append, unoffered.silent,
      offers_completionEvents, List.filterMap_map, List.append_nil, List.nil_append]
    exact congrFun List.filterMap_eq_map' _
  · rintro rfl
    rw [exchange]
    exact Attributes.text?_insert _ _ _

/-- What goes on with an outcome offers no fault by itself. -/
theorem unoffered_takeOutcome {handler : Handler} (found : p.handler = some handler)
    (unoffered : p.Unoffered) (outcome : DeferredOutcome) : (d.takeOutcome p outcome).1.Unoffered := by
  cases outcome with
  | error error => exact unoffered
  | ok output =>
    obtain ⟨visits, -, events, -, completed⟩ := d.applyOutput_events found output
    have silent : (postEvents handler visits).filterMap offer? = [] :=
      List.filterMap_eq_nil_iff.mpr (List.forall_mem_map.mpr fun _ _ => rfl)
    refine ⟨completed.trans unoffered.incomplete, ?_⟩
    rw [takeOutcome, events, List.filterMap_append, unoffered.silent, silent, List.append_nil]

/-- A fault that was raised is resolved, and without one nothing is offered and the dispatch does not
fail. -/
def Settles (d : Dispatcher) (raised : Option (Exchange × DispatchFault)) (ending : Ending)
    (p : Progress) : Prop :=
  match raised with
  | none => p.events.filterMap offer? = [] ∧ ending.unhandled = none
  | some (exchange, fault) => d.Resolves exchange fault ending p

theorem settles_conclude (unoffered : p.Unoffered) (pending : Option DispatchFault)
    {left : Option DispatchFault} {q : Progress} {ending : Ending}
    (ends : ending.unhandled = left) (concludes : d.conclude pending p = (q, left)) :
    d.Settles (pending.map fun fault => (p.exchange, fault)) ending q := by
  cases pending with
  | none =>
    cases concludes
    exact ⟨offers_complete unoffered none, ends⟩
  | some fault =>
    have same : ending.unhandled = (d.conclude (some fault) p).2 := by rw [ends, concludes]
    have resolves := d.resolves_conclude unoffered fault ending same
    rwa [concludes] at resolves

/-- A dispatch that returns settles what it has raised, and one that waits has raised nothing yet. -/
theorem settles_dispatch (d : Dispatcher) (exchange : Exchange) :
    match d.dispatch exchange with
    | .finished p left => d.Settles (d.raised? exchange none) (.returned left) p
    | .suspended s => ∀ outcome, d.raised? exchange outcome = outcome.bind (d.raisedLater? s.progress)
    | .pending _ => d.raised? exchange none = none := by
  have underway := d.underway_runStages (p := .start exchange) ⟨rfl, rfl⟩
  simp only [dispatch, raised?]
  generalize d.runStages (.start exchange) = ran at underway
  obtain ⟨q, fault | _ | receiver | _⟩ := ran
  · exact settles_conclude underway.unoffered (some fault) rfl rfl
  · exact settles_conclude underway.unoffered none rfl rfl
  · exact fun _ => rfl
  · rfl

/-- A dispatch that goes on with an outcome settles what it raises then. -/
theorem settles_resumeWith (waiting : p.Underway d.places .waiting) (outcome : DeferredOutcome) :
    d.Settles (d.raisedLater? p outcome) (.resumed (d.resumeWith p outcome).2)
      (d.resumeWith p outcome).1 := by
  obtain ⟨handler, found⟩ := handler_of_waiting waiting
  let noted := p.note (.delivered outcome.failure?)
  have silent : noted.events.filterMap offer? = [] := by
    have before := waiting.unoffered.silent
    show (p.events ++ [DispatchEvent.delivered outcome.failure?]).filterMap offer? = []
    rw [List.filterMap_append, before]
    rfl
  have unoffered : (d.takeOutcome noted outcome).1.Unoffered :=
    unoffered_takeOutcome (p := noted) found ⟨waiting.incomplete, silent⟩ outcome
  rw [resumeWith_eq_settle, settle_eq_takeOutcome, raisedLater?]
  generalize d.takeOutcome noted outcome = answer at unoffered ⊢
  obtain ⟨q, fault | _⟩ := answer
  · exact settles_conclude unoffered (some fault) rfl rfl
  · exact settles_conclude unoffered none rfl rfl

/-- Every finished dispatch settles what it has raised. -/
theorem FinishedOn.settles {exchange : Exchange} {outcome : Option DeferredOutcome} {ending : Ending}
    (finished : d.FinishedOn exchange outcome ending p) :
    d.Settles (d.raised? exchange outcome) ending p := by
  have settles := d.settles_dispatch exchange
  have spec := d.dispatch_spec exchange
  -- Where the dispatch is complete, cancelling does nothing; elsewhere it runs the last hooks only.
  cases finished with
  | unresumed finished unresumed =>
    cases finished with
    | returned ended =>
      rw [ended] at settles spec
      rw [d.cancel_of_completed spec.completed]
      exact settles
    | droppedPending ended =>
      rw [ended] at settles spec
      rw [settles]
      exact ⟨offers_cancel spec.unoffered, rfl⟩
    | resumed => exact absurd rfl unresumed
    | @cancelled s ended =>
      rw [ended] at settles spec
      rw [settles none, cancelSuspended, d.cancel_of_completed (d.concluded_cancel spec).completed]
      exact ⟨offers_cancel spec.unoffered, rfl⟩
    | droppedSuspended ended =>
      rw [ended] at settles spec
      rw [settles none]
      exact ⟨offers_cancel spec.unoffered, rfl⟩
  | @resumed s receiver timeout outcome p left ended received resumes =>
    rw [ended] at settles spec
    have concluded := d.concluded_resumeWith spec outcome
    have settles_later := settles_resumeWith spec outcome
    rw [resumes] at concluded settles_later
    rw [settles (some outcome), d.cancel_of_completed concluded.completed]
    exact settles_later

theorem Finished.exists_outcome {exchange : Exchange} {ending : Ending}
    (finished : d.Finished exchange ending p) : ∃ outcome, d.FinishedOn exchange outcome ending p := by
  by_cases resumed : ending.standing = .resumed
  · cases finished with
    | resumed ended resumes =>
      obtain ⟨outcome, received, answered⟩ := Option.map_eq_some_iff.mp resumes
      exact ⟨some outcome, .resumed ended received answered⟩
    | _ => cases resumed
  · exact ⟨none, .unresumed finished resumed⟩

end Dispatcher

/-- For every dispatcher, whatever mappings, adapters, hooks, resolvers and handlers come to, every
exchange and every way in which its dispatch ends: at most one fault is raised, which is resolved, and
when none is raised, nothing is offered to the resolvers and the dispatch does not fail. -/
theorem resolves_of_finished (d : Dispatcher) (exchange : Exchange) (ending : Ending) (p : Progress)
    (finished : d.Finished exchange ending p) :
    (∃ outcome, d.FinishedOn exchange outcome ending p) ∧
      ∀ outcome, d.FinishedOn exchange outcome ending p →
        (∀ raised fault, d.Raises exchange outcome raised fault →
          d.Resolves raised fault ending p ∧
            ∀ raised' fault', d.Raises exchange outcome raised' fault' →
              raised' = raised ∧ fault' = fault) ∧
        ((∀ raised fault, ¬ d.Raises exchange outcome raised fault) →
          p.events.filterMap offer? = [] ∧ ending.unhandled = none) := by
  refine ⟨finished.exists_outcome, fun outcome finished => ?_⟩
  have settles := finished.settles
  simp only [Dispatcher.raises_iff]
  cases raised : d.raised? exchange outcome with
  | none =>
    rw [raised] at settles
    refine ⟨?_, fun _ => settles⟩
    rintro _ _ ⟨⟩
  | some pair =>
    obtain ⟨exchange', fault'⟩ := pair
    rw [raised] at settles
    refine ⟨?_, fun none_raised => absurd rfl (none_raised exchange' fault')⟩
    rintro _ _ ⟨⟩
    refine ⟨settles, ?_⟩
    rintro _ _ ⟨⟩
    exact ⟨rfl, rfl⟩

/-- A handler that writes and then answers later, but not in time: the first resolver leaves the timeout,
and the second one, which finds nothing written, handles it. -/
theorem resolves_timeout :
    let fault := DispatchFault.handler .asyncTimeout
    let slow : Adapter :=
      { supports := fun _ => true
        handle := fun exchange _ =>
          let written := { exchange.response with body := some [0x68, 0x61] }
          (exchange.withResponse written |>.work.startAsync.2, .finished (.ok .empty))
        lastModified := fun _ _ => none }
    let mapping : HandlerMapping :=
      ⟨"slow", fun exchange => (exchange.work, .ok (some (.request (.application 0 "slow"))))⟩
    let deaf : FaultResolver := ⟨fun exchange _ _ => (exchange.work, false)⟩
    let d : Dispatcher := ⟨[mapping], [slow], ⟨[.silent]⟩, [deaf, .byStatus], none, .standard⟩
    let exchange := Exchange.ofRequest ⟨⟨[]⟩, .get, "/slow", [], .empty, []⟩
    ∃ p raised, d.Finished exchange (.resumed none) p ∧
      d.Raises exchange (some (.error .asyncTimeout)) raised fault ∧
      raised.response.body.isSome = true ∧ d.Resolves raised fault (.resumed none) p ∧
      p.events.filterMap offer? = [(0, fault, false), (1, fault, true)] := by
  intro fault slow mapping deaf d exchange
  have finished := @Dispatcher.Finished.resumed d exchange _ (.fresh 0) (some 100) _ none rfl rfl
  have finished_on := @Dispatcher.FinishedOn.resumed d exchange _ (.fresh 0) (some 100)
    (.error .asyncTimeout) _ none rfl rfl rfl
  have raises : d.Raises exchange (some (.error .asyncTimeout)) _ fault :=
    Dispatcher.raises_iff.mpr rfl
  obtain ⟨-, settles⟩ := resolves_of_finished d exchange (.resumed none) _ finished
  have resolves := ((settles _ finished_on).1 _ fault raises).1
  exact ⟨_, _, finished, raises, rfl, resolves, by decide +kernel⟩

end HttpRouting
