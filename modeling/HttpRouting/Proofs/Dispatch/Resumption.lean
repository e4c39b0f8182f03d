import HttpRouting.Proofs.Dispatch.Alike
import HttpRouting.Proofs.Dispatch.Passage

/-!
Answering later comes to the same as answering at once.  A method writes what it writes, and then its
outcome reaches the dispatch, either at once or through a deferred result, after which the dispatch is
resumed.  From there on both dispatches go through the same stages.
-/

set_option autoImplicit false
set_option relaxedAutoImplicit false

namespace HttpRouting

/-- What a method does when it is invoked. -/
abbrev MethodAct := Exchange → Work × Invocation HandlerOutput

/-- An application in which some methods do something else. -/
def Application.directing (app : Application) (target : Nat → ControllerMethod → Bool)
    (act : MethodAct) : Application :=
  { app with
    invoke := fun number method exchange =>
      if target number method then act exchange else app.invoke number method exchange }

/-- The work after a response and attributes were written. -/
def Exchange.written (exchange : Exchange) (effect : Exchange → Response × Attributes) : Work :=
  { exchange.work with response := (effect exchange).1, attributes := (effect exchange).2 }

/-- Write, and come to an outcome at once. -/
def MethodAct.atOnce (effect : Exchange → Response × Attributes) (outcome : DeferredOutcome) :
    MethodAct :=
  fun exchange => (exchange.written effect, .finished outcome)

/-- Write, and answer later; what is answered at once does not count. -/
def MethodAct.later (effect : Exchange → Response × Attributes) (output : HandlerOutput) :
    MethodAct :=
  fun exchange => ((exchange.written effect).startAsync.2, .finished (.ok output))

/-- A dispatcher that invokes methods through the adapter for them, which stands among others, and in
which some methods do something else. -/
def Dispatcher.directing (d : Dispatcher) (before after : List Adapter) (app : Application)
    (target : Nat → ControllerMethod → Bool) (act : MethodAct) : Dispatcher :=
  { d with adapters := before ++ .forMethods (app.directing target act) :: after }

/-- How an outcome fails. -/
def DeferredOutcome.failure? : DeferredOutcome → Option HandlerError
  | .ok _ => none
  | .error error => some error

namespace Dispatcher

variable (d : Dispatcher)

/-- What the stages come to when the handler has been invoked. -/
def takeInvocation (handler : Handler) (p : Progress) :
    Work × Invocation HandlerOutput → Progress × Except DispatchFault StageEnd
  | (work, .pending) => (p.withWork work, .ok .pending)
  | (work, .finished (.error error)) =>
    ((p.withWork work).note (.answered (some error)), .error (.handler error))
  | (work, .finished (.ok output)) =>
    d.takeAnswer handler ((p.withWork work).note (.answered none)) output

/-- Go on to the end with an outcome. -/
def settle (p : Progress) : DeferredOutcome → Progress × Option DispatchFault
  | .error error => d.conclude (some (.handler error)) p
  | .ok output =>
    match d.applyOutput p output with
    | (p, .ok ()) => d.conclude none p
    | (p, .error fault) => d.conclude (some fault) p

/-- Stages in which some methods may do one thing or another: what these methods do has no influence,
or it has by what it does to one exchange. -/
inductive Directed (stages : MethodAct → Progress × Except DispatchFault StageEnd) : Prop
  | constant (result : Progress × Except DispatchFault StageEnd) :
      (∀ act, stages act = result) → Directed stages
  | invoked (handler : Handler) (p : Progress) :
      (∀ act, stages act = d.takeInvocation handler p (act p.exchange)) → Directed stages

section Directing

variable (before after : List Adapter) (app : Application) (target : Nat → ControllerMethod → Bool)

/-- A method does either what is to be done in its place or what it did before. -/
theorem invokeMethod_directing (method : HandlerMethod) :
    (∀ act exchange, (app.directing target act).invokeMethod method exchange = act exchange) ∨
      ∀ act exchange, (app.directing target act).invokeMethod method exchange =
        app.invokeMethod method exchange := by
  simp only [Application.invokeMethod, Application.directing]
  split
  · exact .inr fun _ _ => rfl
  · split
    · split
      · exact .inl fun _ _ => rfl
      · exact .inr fun _ _ => rfl
    · exact .inr fun _ _ => rfl
    · exact .inr fun _ _ => rfl

theorem interceptors_directing (act : MethodAct) :
    (d.directing before after app target act).interceptors = d.interceptors :=
  rfl

theorem takeInvocation_directing (act : MethodAct) (handler : Handler) (p : Progress)
    (handled : Work × Invocation HandlerOutput) :
    (d.directing before after app target act).takeInvocation handler p handled =
      d.takeInvocation handler p handled := by
  obtain ⟨work, (_ | _) | _⟩ := handled <;> rfl

theorem invoke_eq (adapter : Adapter) (handler : Handler) (p : Progress) :
    d.invoke adapter handler p =
      let (traced, passed) := d.interceptors.preHandle handler (p.enter .preHandle).traced
      let hooked := (p.enter .preHandle).withTraced traced
      let begun := (hooked.enter .invoke).note (.invoked handler)
      match passed with
      | .error error => (hooked, .error (.handler error))
      | .ok false => (hooked, .ok .done)
      | .ok true => d.takeInvocation handler begun (adapter.handle begun.exchange handler) := by
  simp only [invoke]
  generalize d.interceptors.preHandle handler (p.enter .preHandle).traced = ran
  obtain ⟨traced, _ | _ | _⟩ := ran
  · rfl
  · rfl
  · dsimp only
    generalize adapter.handle _ handler = handled
    obtain ⟨work, (_ | _) | _⟩ := handled <;> rfl

theorem directed_invoke (p : Progress) (method : HandlerMethod) :
    d.Directed fun act => (d.directing before after app target act).invoke
      (.forMethods (app.directing target act)) (.method method) p := by
  simp only [invoke_eq, takeInvocation_directing, interceptors_directing]
  generalize d.interceptors.preHandle (.method method) (p.enter .preHandle).traced = ran
  obtain ⟨traced, error | _ | _⟩ := ran
  · exact .constant _ fun _ => rfl
  · exact .constant _ fun _ => rfl
  · let hooked := (p.enter .preHandle).withTraced traced
    let begun := (hooked.enter .invoke).note (.invoked (.method method))
    rcases invokeMethod_directing app target method with directed | constant
    · exact .invoked (.method method) begun fun act =>
        congrArg (d.takeInvocation (.method method) begun) (directed act begun.exchange)
    · exact .constant _ fun act =>
        congrArg (d.takeInvocation (.method method) begun) (constant act begun.exchange)

/-- The adapter for methods has no part in serving a request by another handler. -/
theorem directed_serve_request (p : Progress) (h : RequestHandler) :
    d.Directed fun act => (d.directing before after app target act).serve (.request h) p := by
  refine .constant (Dispatcher.serve { d with adapters := before ++ after } (.request h) p) ?_
  intro act
  have same : (d.directing before after app target act).adapters.find?
      (fun adapter => adapter.supports (.request h)) =
        (before ++ after).find? fun adapter => adapter.supports (.request h) := by
    simp [directing, List.find?_append, Adapter.forMethods]
  simp only [serve, same]
  rfl

variable {before} (unsupported : ∀ adapter ∈ before, ∀ method, adapter.supports (.method method) = false)

include unsupported

/-- A method is invoked through the adapter for methods. -/
theorem directed_serve_method (p : Progress) (method : HandlerMethod) :
    d.Directed fun act => (d.directing before after app target act).serve (.method method) p := by
  have found (act : MethodAct) : (d.directing before after app target act).adapters.find?
      (fun adapter => adapter.supports (.method method)) =
        some (.forMethods (app.directing target act)) := by
    have none_before : before.find? (fun adapter => adapter.supports (.method method)) = none :=
      List.find?_eq_none.mpr fun adapter member => by simp [unsupported adapter member method]
    simp [directing, List.find?_append, none_before, Adapter.forMethods]
  have same_cache (act : MethodAct) (p : Progress) :
      checkCache (.forMethods (app.directing target act)) (.method method) p =
        checkCache (.forMethods app) (.method method) p := rfl
  simp only [serve, found, same_cache]
  generalize checkCache (.forMethods app) (.method method) _ = cached
  obtain ⟨p', _ | _⟩ := cached
  · exact d.directed_invoke before after app target p' method
  · exact .constant _ fun _ => rfl

/-- The stages of two dispatches part at one point only, when the method is invoked. -/
theorem directed_runStages (p : Progress) :
    d.Directed fun act => (d.directing before after app target act).runStages p := by
  have same_check (act : MethodAct) (p : Progress) :
      (d.directing before after app target act).checkMultipart p = d.checkMultipart p := rfl
  have same_find (act : MethodAct) (p : Progress) :
      (d.directing before after app target act).findHandler p = d.findHandler p := rfl
  simp only [runStages, same_check, same_find]
  generalize d.checkMultipart (p.enter .start) = checked
  obtain ⟨p', _ | _⟩ := checked
  · exact .constant _ fun _ => rfl
  · dsimp only
    generalize d.findHandler p' = answer
    obtain ⟨p'', _ | _ | method | request⟩ := answer
    · exact .constant _ fun _ => rfl
    · exact .constant (d.miss p'') fun _ => rfl
    · exact d.directed_serve_method after app target unsupported p'' method
    · exact d.directed_serve_request before after app target p'' request

end Directing

section Settling

variable {d}

theorem resumeWith_eq_settle (p : Progress) (outcome : DeferredOutcome) :
    d.resumeWith p outcome = d.settle (p.note (.delivered outcome.failure?)) outcome := by
  cases outcome <;> rfl

/-- With an outcome dispatches go on alike. -/
theorem alike_settle {p p' : Progress} (indifferent : d.Indifferent) (alike : p.Alike p')
    (outcome : DeferredOutcome) :
    AlikeWith Progress.Alike (d.settle p outcome) (d.settle p' outcome) := by
  cases outcome with
  | error error => exact alike_conclude indifferent alike (some (.handler error))
  | ok output =>
    have applied := alike_applyOutput indifferent alike output
    simp only [settle]
    generalize d.applyOutput p output = answer at applied
    generalize d.applyOutput p' output = answer' at applied
    obtain ⟨applied, result⟩ := applied
    cases result with
    | error fault => exact alike_conclude indifferent applied (some fault)
    | ok _ => exact alike_conclude indifferent applied none

variable {exchange : Exchange} {handler : Handler} {p : Progress} {work : Work}

/-- An outcome that is there at once settles the dispatch, unless somebody else answers later. -/
theorem dispatch_of_atOnce {outcome : DeferredOutcome} (idle : work.receiver = none)
    (ran : d.runStages (.start exchange) = d.takeInvocation handler p (work, .finished outcome)) :
    d.dispatch exchange =
      let (p, left) := d.settle ((p.withWork work).note (.answered outcome.failure?)) outcome
      .finished p left := by
  simp only [dispatch, ran]
  cases outcome with
  | error error => rfl
  | ok output =>
    have none_left : ((p.withWork work).note (.answered none)).exchange.work.receiver = none := idle
    simp only [takeInvocation, takeAnswer, none_left, settle, DeferredOutcome.failure?]
    generalize d.applyOutput _ output = applied
    obtain ⟨q, _ | _⟩ := applied <;> rfl

/-- A dispatch that waits: the receiver is taken out of the exchange, and the hooks learn of it. -/
def await (d : Dispatcher) (handler : Handler) (p : Progress) (work : Work) : Progress :=
  let answered := (p.withWork work).note (.answered none)
  let begun := (answered.withWork { work with receiver := none }).enter .asyncStarted
  begun.withTraced (d.interceptors.asyncStarted handler begun.traced)

theorem dispatch_of_receiver {output : HandlerOutput} {receiver : Receiver}
    (left : work.receiver = some receiver)
    (ran : d.runStages (.start exchange) = d.takeInvocation handler p (work, .finished (.ok output))) :
    d.dispatch exchange = .suspended ⟨d.await handler p work, receiver⟩ := by
  have some_left :
      ((p.withWork work).note (.answered none)).exchange.work.receiver = some receiver := left
  simp only [dispatch, ran, takeInvocation, takeAnswer, some_left]
  rfl

/-- A dispatch waits for the outcome at the receiver of a fresh result, however little time there is. -/
theorem resumeWithin?_deliver (p : Progress) (number : Nat) (outcome : DeferredOutcome)
    (timeout : Option Nat) :
    d.resumeWithin? (SuspendedDispatch.deliver ⟨p, .fresh number⟩ ⟨number⟩ outcome) timeout =
      some (d.settle (p.note (.delivered outcome.failure?)) outcome) := by
  have delivered : (Receiver.fresh number).deliver ⟨number⟩ outcome =
      ⟨number, some outcome, false⟩ := if_pos (beq_self_eq_true number)
  rw [resumeWithin?, SuspendedDispatch.deliver, delivered, ← resumeWith_eq_settle]
  rfl

/-- While the hooks that learn of it change nothing, a dispatch that has waited is alike. -/
theorem alike_await {failure failure' : Option HandlerError}
    (unaffected : ∀ interceptor ∈ d.interceptors.interceptors, ∀ exchange handler,
      interceptor.afterAsyncStart exchange handler = exchange.work) (idle : work.receiver = none) :
    ((p.withWork work).note (.answered failure)).Alike
      ((d.await handler p work.startAsync.2).note (.delivered failure')) := by
  let taken : Work := { work.startAsync.2 with receiver := none }
  let begun := (((p.withWork work.startAsync.2).note (.answered none)).withWork taken).enter
    .asyncStarted
  have passed : Exchange.Passage (fun work => work = taken) (fun work => work = taken) []
      begun.exchange (d.interceptors.asyncStarted handler begun.traced).exchange :=
    d.interceptors.passage_run .reverse
      (fun interceptor exchange => (interceptor.afterAsyncStart exchange handler, ())) _ _
      (fun interceptor member exchange same =>
        (unaffected interceptor member exchange handler).trans same) begun.traced
  have events := d.interceptors.asyncStarted_events begun.traced handler
  refine ⟨⟨passed.request, passed.phases, ?_⟩, rfl, rfl, rfl, ?_⟩
  · have same : (d.await handler p work.startAsync.2).exchange.work = taken := passed.work rfl
    show work.Alike (d.await handler p work.startAsync.2).exchange.work
    rw [same]
    exact ⟨rfl, rfl, by rw [Work.isAsync, Work.isAsync, idle]⟩
  · have none_called (places : List Nat) :
        calls (places.map fun place => .asyncStarted place handler) = [] :=
      List.filter_eq_nil_iff.mpr (List.forall_mem_map.mpr fun _ _ => nofun)
    show calls ((d.interceptors.asyncStarted handler begun.traced).events ++ [.delivered failure']) =
      calls (p.events ++ [.answered failure])
    rw [events, calls_append, calls_append, none_called]
    show calls (p.events ++ [.answered none]) ++ [] ++ [] = calls (p.events ++ [.answered failure])
    rw [calls_append, calls_append, List.append_nil, List.append_nil]
    rfl

end Settling

end Dispatcher

/-- For every dispatcher that invokes methods through the adapter for them, and in which the hooks that
learn of a later answer change nothing, every exchange of which a method decides what becomes, all that
it may write, and every outcome: answering at once finishes the dispatch, and answering later suspends
it, until the outcome is delivered and the dispatch is resumed, however little time there is.  Both go
through the same stages then, from points that are alike.  When nobody who comes after the handler
looks at whether the exchange has waited, they come to the same end: the same failure or none, the
same response and attributes, the same calls in the same order, and phases that differ in one only.
Nobody else is to have begun to answer later, so that an answer at once is not waited for. -/
theorem resumed_alike (d : Dispatcher) (before after : List Adapter) (app : Application)
    (target : Nat → ControllerMethod → Bool) (effect : Exchange → Response × Attributes)
    (outcome : DeferredOutcome) (output : HandlerOutput) (exchange : Exchange)
    (unsupported : ∀ adapter ∈ before, ∀ method, adapter.supports (.method method) = false)
    (unaffected : ∀ interceptor ∈ d.interceptors.interceptors, ∀ exchange handler,
      interceptor.afterAsyncStart exchange handler = exchange.work)
    (decides : ∃ act act', (d.directing before after app target act).dispatch exchange ≠
      (d.directing before after app target act').dispatch exchange)
    (at_once : ∀ s, (d.directing before after app target (.atOnce effect (.ok .empty))).dispatch
      exchange ≠ .suspended s) :
    ∃ p p' s number, p.Alike p' ∧
      (d.directing before after app target (.atOnce effect outcome)).dispatch exchange =
        .finished (d.settle p outcome).1 (d.settle p outcome).2 ∧
      (d.directing before after app target (.later effect output)).dispatch exchange =
        .suspended s ∧ s.receiver = .fresh number ∧
      (∀ timeout, (d.directing before after app target (.later effect output)).resumeWithin?
        (s.deliver ⟨number⟩ outcome) timeout = some (d.settle p' outcome)) ∧
      (d.Indifferent → AlikeWith Progress.Alike (d.settle p outcome) (d.settle p' outcome)) := by
  have stages := d.directed_runStages after app target unsupported (.start exchange)
  cases stages with
  | constant result constant =>
    obtain ⟨act, act', different⟩ := decides
    refine absurd ?_ different
    simp only [Dispatcher.dispatch, constant]
    rfl
  | invoked handler p invoked =>
    have ran (act : MethodAct) : (d.directing before after app target act).runStages
        (.start exchange) = (d.directing before after app target act).takeInvocation handler p
          (act p.exchange) :=
      (invoked act).trans (d.takeInvocation_directing before after app target act _ p _).symm
    -- A receiver that somebody else left would suspend the dispatch after an answer at once, too.
    have idle : (p.exchange.written effect).receiver = none := by
      by_contra other
      obtain ⟨receiver, left⟩ := Option.ne_none_iff_exists'.mp other
      exact at_once _ (Dispatcher.dispatch_of_receiver left (ran (.atOnce effect (.ok .empty))))
    let written := p.exchange.written effect
    let waiting := d.await handler p written.startAsync.2
    have alike : ((p.withWork written).note (.answered outcome.failure?)).Alike
        (waiting.note (.delivered outcome.failure?)) :=
      Dispatcher.alike_await unaffected idle
    refine ⟨_, _, ⟨waiting, .fresh written.handedOut⟩, written.handedOut, alike, ?_, ?_, rfl, ?_,
      fun indifferent => Dispatcher.alike_settle indifferent alike outcome⟩
    · exact Dispatcher.dispatch_of_atOnce idle (ran (.atOnce effect outcome))
    · exact Dispatcher.dispatch_of_receiver rfl (ran (.later effect output))
    · exact Dispatcher.resumeWithin?_deliver waiting written.handedOut outcome

theorem FaultResolver.actsAlike_byStatus (handler : Option Handler) (fault : DispatchFault) :
    ActsAlike fun exchange => FaultResolver.byStatus.resolve exchange handler fault := by
  intro exchange exchange' alike
  dsimp only [byStatus]
  cases status? fault with
  | none => exact .intro alike.work false
  | some status =>
    have written := congrArg (writeFault fault status) alike.work.response
    exact .intro { alike.work with response := written } true

/-- A method writes and fails, at once or later, between a hook that notes it and the resolver that
answers with a status. -/
theorem resumed_alike_failure :
    let users := Controller.mk (.application 0) "app::Users" none none []
    let slow : HandlerMapping :=
      ⟨"slow", fun exchange => (exchange.work, .ok (some (.method (.ofController users (.plain "slow")))))⟩
    let noting : Interceptor :=
      { Interceptor.silent with
        afterCompletion := fun exchange _ fault =>
          (exchange.work.setAttribute "left" (.flag fault.isSome), .ok ()) }
    let d : Dispatcher := ⟨[slow], [], ⟨[noting]⟩, [.byStatus], none, .standard⟩
    let app : Application :=
      { invoke := fun _ _ exchange => (exchange.work, .pending)
        methodChanged := fun _ _ _ => none
        serve := fun _ exchange => (exchange.work, .finished (.ok ()))
        handlerChanged := fun _ _ => none }
    let effect (exchange : Exchange) : Response × Attributes :=
      (exchange.response, exchange.attributes.insert "seen" (.flag true))
    let failure : DeferredOutcome := .error (.badRequest "slow")
    let dispatcher := d.directing [] [.forRequestHandlers app] app fun _ _ => true
    let exchange := Exchange.ofRequest ⟨⟨[]⟩, .get, "/slow", [], .empty, []⟩
    d.Indifferent ∧ ∃ p p' s,
      (dispatcher (.atOnce effect failure)).dispatch exchange = .finished p none ∧
      (dispatcher (.later effect .empty)).dispatch exchange = .suspended s ∧
      (dispatcher (.later effect .empty)).resumeWithin? (s.deliver ⟨0⟩ failure) (some 0) =
        some (p', none) ∧
      p.exchange.response.status = .badRequest ∧ p.Alike p' := by
  intro users slow noting d app effect failure dispatcher exchange
  have unaffected : ∀ interceptor ∈ d.interceptors.interceptors, ∀ exchange handler,
      interceptor.afterAsyncStart exchange handler = exchange.work := by
    intro interceptor member
    rw [List.mem_singleton.mp member]
    exact fun _ _ => rfl
  have indifferent : d.Indifferent := by
    constructor
    · intro interceptor member
      rw [List.mem_singleton.mp member]
      exact fun _ _ _ alike => .intro alike.work _
    · intro interceptor member
      rw [List.mem_singleton.mp member]
      exact fun _ fault _ _ alike =>
        .intro (alike.work.setAttribute "left" (.flag fault.isSome)) _
    · intro resolver member
      rw [List.mem_singleton.mp member]
      exact FaultResolver.actsAlike_byStatus
    · nofun
  have at_once (s : SuspendedDispatch) :
      (dispatcher (.atOnce effect (.ok .empty))).dispatch exchange ≠ .suspended s := by
    have answered : ∃ p, (dispatcher (.atOnce effect (.ok .empty))).dispatch exchange =
        .finished p none := ⟨_, rfl⟩
    obtain ⟨p, answered⟩ := answered
    rw [answered]
    nofun
  have failed : ∃ p, (dispatcher (.atOnce effect failure)).dispatch exchange = .finished p none ∧
      p.exchange.response.status = .badRequest := ⟨_, rfl, rfl⟩
  have waiting : ∃ p, (dispatcher (.later effect .empty)).dispatch exchange =
      .suspended ⟨p, .fresh 0⟩ := ⟨_, rfl⟩
  obtain ⟨p, failed, bad⟩ := failed
  obtain ⟨q, waiting⟩ := waiting
  have decides : (dispatcher (.atOnce effect failure)).dispatch exchange ≠
      (dispatcher (.later effect .empty)).dispatch exchange := by
    rw [failed, waiting]
    nofun
  obtain ⟨r, r', s, number, -, finished, suspended, fresh, resumed, ends⟩ :=
    resumed_alike d [] [.forRequestHandlers app] app (fun _ _ => true) effect failure .empty exchange
      nofun unaffected ⟨_, _, decides⟩ at_once
  obtain ⟨rfl, left⟩ := Dispatched.finished.inj (finished.symm.trans failed)
  obtain rfl : s = ⟨q, .fresh 0⟩ := Dispatched.suspended.inj (suspended.symm.trans waiting)
  obtain rfl : number = 0 := (congrArg Receiver.number fresh).symm
  have same := ends indifferent
  have resumed := resumed (some 0)
  generalize d.settle r failure = ended at same left failed bad ⊢
  generalize d.settle r' failure = ended' at same resumed
  obtain ⟨alike, fault⟩ := same
  obtain rfl : fault = none := left
  exact ⟨indifferent, _, _, _, failed, waiting, resumed, bad, alike⟩

/-- A hook after the handler that marks responses of exchanges that have waited lets the two ends differ.
And a hook before the handler that begins to answer later leaves an answer at once waiting, while an
answer later comes to an end. -/
theorem resumed_unlike_before_hooks :
    let users := Controller.mk (.application 0) "app::Users" none none []
    let slow : HandlerMapping :=
      ⟨"slow", fun exchange => (exchange.work, .ok (some (.method (.ofController users (.plain "slow")))))⟩
    let marking : Interceptor :=
      { Interceptor.silent with
        postHandle := fun exchange _ =>
          ((if exchange.phases.allSet .asyncStarted then
              { exchange.work with response := exchange.response.sendError .badRequest "late" }
            else exchange.work), .ok ()) }
    let beginning : Interceptor :=
      { Interceptor.silent with preHandle := fun exchange _ => (exchange.work.startAsync.2, .ok true) }
    let app : Application :=
      { invoke := fun _ _ exchange => (exchange.work, .pending)
        methodChanged := fun _ _ _ => none
        serve := fun _ exchange => (exchange.work, .finished (.ok ()))
        handlerChanged := fun _ _ => none }
    let effect (exchange : Exchange) : Response × Attributes := (exchange.response, exchange.attributes)
    let answer : DeferredOutcome := .ok .empty
    let dispatcher (hook : Interceptor) : MethodAct → Dispatcher :=
      Dispatcher.directing ⟨[slow], [], ⟨[hook]⟩, [.byStatus], none, .standard⟩ []
        [.forRequestHandlers app] app fun _ _ => true
    let exchange := Exchange.ofRequest ⟨⟨[]⟩, .get, "/slow", [], .empty, []⟩
    (∀ hook ∈ [marking, beginning], ∀ exchange handler,
      hook.afterAsyncStart exchange handler = exchange.work) ∧
    (∃ p p' s, (dispatcher marking (.atOnce effect answer)).dispatch exchange = .finished p none ∧
      (dispatcher marking (.later effect .empty)).dispatch exchange = .suspended s ∧
      (dispatcher marking (.later effect .empty)).resume? (s.deliver ⟨0⟩ answer) = some (p', none) ∧
      p.exchange.response.status = .ok ∧ p'.exchange.response.status = .badRequest) ∧
    ∃ s s' p', (dispatcher beginning (.atOnce effect answer)).dispatch exchange = .suspended s ∧
      (dispatcher beginning (.later effect .empty)).dispatch exchange = .suspended s' ∧
      (dispatcher beginning (.later effect .empty)).resume? (s'.deliver ⟨1⟩ answer) =
        some (p', none) := by
  intro users slow marking beginning app effect answer dispatcher exchange
  refine ⟨?_, ⟨_, _, _, rfl, rfl, rfl, ?_, ?_⟩, _, _, _, rfl, rfl, rfl⟩
  · intro hook member
    rcases List.mem_cons.mp member with rfl | member
    · exact fun _ _ => rfl
    · rw [List.mem_singleton.mp member]
      exact fun _ _ => rfl
  · decide +kernel
  · decide +kernel

end HttpRouting
