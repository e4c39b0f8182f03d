import HttpRouting.Proofs.Dispatch.Resumption

/-!
Where a dispatch can fail.  What its stages come to is told by what those come to who take part in it,
each of whom finds the exchange as the one before has left it.  A fault is raised at one of nine places,
and only when nothing before it has failed or ended the dispatch; so a dispatch raises one fault at most.
-/

set_option autoImplicit false
set_option relaxedAutoImplicit false

namespace HttpRouting

/-- Calls made one after the other on an exchange, with their results and what they come to.  Each leaves
its work on the exchange, and the first result that does not let pass is the last. -/
inductive InTurn {α ρ : Type} (call : α → Exchange → Work × ρ) (pass : ρ) :
    List α → Exchange → List ρ → ρ → Exchange → Prop
  | nil (exchange : Exchange) : InTurn call pass [] exchange [] pass exchange
  | pass {x : α} {rest : List α} {exchange exchange' : Exchange} {work : Work} {results : List ρ}
      {result : ρ} :
      call x exchange = (work, pass) →
        InTurn call pass rest { exchange with work } results result exchange' →
          InTurn call pass (x :: rest) exchange (pass :: results) result exchange'
  | stop {x : α} {rest : List α} {exchange : Exchange} {work : Work} {result : ρ} :
      call x exchange = (work, result) → result ≠ pass →
        InTurn call pass (x :: rest) exchange [result] result { exchange with work }

namespace Dispatcher

variable (d : Dispatcher)

/-- What preparing a request in parts comes to. -/
inductive Prepares (exchange : Exchange) : Except DispatchFault Unit → Exchange → Prop
  | unasked : d.multipart = none → Prepares exchange (.ok ()) exchange
  | whole {resolver : MultipartResolver} : d.multipart = some resolver →
      resolver.isMultipart (exchange.enter .multipartCheck) = false →
        Prepares exchange (.ok ()) (exchange.enter .multipartCheck)
  | parts {resolver : MultipartResolver} {work : Work} {result : Except HandlerError Unit} :
      d.multipart = some resolver →
        resolver.isMultipart (exchange.enter .multipartCheck) = true →
          resolver.resolve (exchange.enter .multipartCheck) = (work, result) →
            Prepares exchange (result.mapError .handler) { exchange.enter .multipartCheck with work }

/-- What asking the mappings for a handler comes to. -/
def Routes (exchange : Exchange) (result : Except MappingError (Option Handler))
    (exchange' : Exchange) : Prop :=
  ∃ prepared results, d.Prepares (exchange.enter .start) (.ok ()) prepared ∧
    InTurn HandlerMapping.find (.ok none) d.mappings (prepared.enter .routeLookup) results result
      exchange'

/-- The client has no current copy, or the resource is not to be read. -/
inductive Stale (adapter : Adapter) (handler : Handler) (exchange : Exchange) : Exchange → Prop
  | unread : exchange.request.method.isGetOrHead = false → Stale adapter handler exchange exchange
  | changed {exchange' : Exchange} : exchange.request.method.isGetOrHead = true →
      (exchange.enter .cacheCheck).checkNotModified
        (adapter.lastModified (exchange.enter .cacheCheck) handler) = (false, exchange') →
          Stale adapter handler exchange exchange'

/-- What the hooks before a handler come to. -/
def PreHandles (exchange : Exchange) (adapter : Adapter) (handler : Handler)
    (result : Except HandlerError Bool) (exchange' : Exchange) : Prop :=
  ∃ routed stale results, d.Routes exchange (.ok (some handler)) routed ∧
    d.adapters.find? (fun adapter => adapter.supports handler) = some adapter ∧
      Stale adapter handler (routed.enter .adapterLookup) stale ∧
        InTurn (fun interceptor exchange => interceptor.preHandle exchange handler) (.ok true)
          d.interceptors.interceptors (stale.enter .preHandle) results result exchange'

/-- What the handler comes to. -/
def Invokes (exchange : Exchange) (handler : Handler) (invocation : Invocation HandlerOutput)
    (exchange' : Exchange) : Prop :=
  ∃ adapter hooked work, d.PreHandles exchange adapter handler (.ok true) hooked ∧
    adapter.handle (hooked.enter .invoke) handler = (work, invocation) ∧
      exchange' = { hooked.enter .invoke with work }

/-- What the hooks after the handler come to. -/
def PostHandles (handler : Handler) (exchange : Exchange) (result : Except HandlerError Unit)
    (exchange' : Exchange) : Prop :=
  ∃ results, InTurn (fun interceptor exchange => interceptor.postHandle exchange handler) (.ok ())
    d.interceptors.interceptors.reverse (exchange.enter .postHandle) results result exchange'

/-- The handler is going to answer later, and the hooks learn of it. -/
def Suspends (exchange : Exchange) (handler : Handler) (exchange' : Exchange) : Prop :=
  ∃ invoked output results, d.Invokes exchange handler (.finished (.ok output)) invoked ∧
    invoked.work.receiver.isSome = true ∧
      InTurn (fun interceptor exchange => (interceptor.afterAsyncStart exchange handler, ())) ()
        d.interceptors.interceptors.reverse
        ({ invoked with work := { invoked.work with receiver := none } }.enter .asyncStarted)
        results () exchange'

/-- A fault is raised, and the exchange as it is then.  When the handler answers later, it depends on the
outcome that the dispatch goes on with, if it does. -/
inductive Raises (exchange : Exchange) (outcome : Option DeferredOutcome) :
    Exchange → DispatchFault → Prop
  | multipart {exchange' : Exchange} {fault : DispatchFault} :
      d.Prepares (exchange.enter .start) (.error fault) exchange' →
        Raises exchange outcome exchange' fault
  | mapping {exchange' : Exchange} {error : MappingError} :
      d.Routes exchange (.error error) exchange' → Raises exchange outcome exchange' (.mapping error)
  | noHandler {exchange' : Exchange} :
      d.Routes exchange (.ok none) exchange' → d.config.faultOnMiss = true →
        Raises exchange outcome (exchange'.enter .noHandler)
          (.mapping (.noHandlerFound exchange'.request.method exchange'.request.path))
  | noAdapter {exchange' : Exchange} {handler : Handler} :
      d.Routes exchange (.ok (some handler)) exchange' →
        (∀ adapter ∈ d.adapters, adapter.supports handler = false) →
          Raises exchange outcome (exchange'.enter .adapterLookup) (.noAdapter handler.text)
  | preHandle {exchange' : Exchange} {adapter : Adapter} {handler : Handler} {error : HandlerError} :
      d.PreHandles exchange adapter handler (.error error) exchange' →
        Raises exchange outcome exchange' (.handler error)
  | handler {exchange' : Exchange} {handler : Handler} {error : HandlerError} :
      d.Invokes exchange handler (.finished (.error error)) exchange' →
        Raises exchange outcome exchange' (.handler error)
  | postHandle {invoked exchange' : Exchange} {handler : Handler} {output : HandlerOutput}
      {error : HandlerError} :
      d.Invokes exchange handler (.finished (.ok output)) invoked → invoked.work.receiver = none →
        d.PostHandles handler invoked (.error error) exchange' →
          Raises exchange outcome exchange' (.handler error)
  | deferred {exchange' : Exchange} {handler : Handler} {error : HandlerError} :
      d.Suspends exchange handler exchange' → outcome = some (.error error) →
        Raises exchange outcome exchange' (.handler error)
  | postHandleLater {suspended exchange' : Exchange} {handler : Handler} {output : HandlerOutput}
      {error : HandlerError} :
      d.Suspends exchange handler suspended → outcome = some (.ok output) →
        d.PostHandles handler suspended (.error error) exchange' →
          Raises exchange outcome exchange' (.handler error)

end Dispatcher

section InTurn

variable {α ρ : Type} {call : α → Exchange → Work × ρ} {pass : ρ} {items : List α}
  {exchange after after' : Exchange} {results results' : List ρ} {result result' : ρ}

/-- Calls come to one thing only. -/
theorem InTurn.unique (turns : InTurn call pass items exchange results result after)
    (turns' : InTurn call pass items exchange results' result' after') :
    results = results' ∧ result = result' ∧ after = after' := by
  induction turns generalizing results' result' after' with
  | nil exchange =>
    cases turns'
    exact ⟨rfl, rfl, rfl⟩
  | pass called _ ih =>
    cases turns' with
    | pass called' turns' =>
      cases called.symm.trans called'
      obtain ⟨same_results, same_result, same_after⟩ := ih turns'
      exact ⟨congrArg _ same_results, same_result, same_after⟩
    | stop called' stops =>
      cases called.symm.trans called'
      exact absurd rfl stops
  | stop called stops =>
    cases turns' with
    | pass called' turns' =>
      cases called.symm.trans called'
      exact absurd rfl stops
    | stop called' stops' =>
      cases called.symm.trans called'
      exact ⟨rfl, rfl, rfl⟩

end InTurn

namespace Dispatcher

theorem inTurn_askMappings (mappings : List HandlerMapping) (exchange : Exchange) :
    ∃ results, InTurn HandlerMapping.find (.ok none) mappings exchange results
      (askMappings mappings exchange).2 (askMappings mappings exchange).1 := by
  induction mappings generalizing exchange with
  | nil => exact ⟨[], .nil exchange⟩
  | cons mapping rest ih =>
    rw [askMappings]
    cases found : mapping.find exchange with
    | mk work result =>
      rcases result with error | _ | handler
      · exact ⟨_, .stop found (by simp)⟩
      · obtain ⟨results, turns⟩ := ih { exchange with work }
        exact ⟨_, .pass found turns⟩
      · exact ⟨_, .stop found (by simp)⟩

end Dispatcher

namespace InterceptorChain

/-- Visits are calls in turn, of which the first result that stops the visits is what they come to. -/
theorem inTurn_visit {ρ β : Type} (hook : Interceptor → Exchange → Work × ρ)
    (event : Nat → ρ → DispatchEvent) (stop? : ρ → Option β) (pass : ρ)
    (stops : ∀ result, stop? result = none ↔ result = pass) (placed : List (Interceptor × Nat))
    (traced : Traced) :
    let visited := visit (fun place interceptor (traced : Traced) =>
      let (work, result) := hook interceptor traced.exchange
      (traced.after work (event place result), stop? result)) placed traced
    ∃ results result, InTurn hook pass (placed.map Prod.fst) traced.exchange results result
      visited.1.exchange ∧ visited.2 = stop? result := by
  induction placed generalizing traced with
  | nil => exact ⟨[], pass, .nil traced.exchange, ((stops pass).mpr rfl).symm⟩
  | cons entry rest ih =>
    obtain ⟨interceptor, place⟩ := entry
    simp only [visit]
    cases done : hook interceptor traced.exchange with
    | mk work result =>
      cases stopped : stop? result with
      | some answer =>
        have differs : result ≠ pass := by
          rintro rfl
          simp [(stops result).mpr rfl] at stopped
        exact ⟨_, result, .stop done differs, stopped.symm⟩
      | none =>
        obtain rfl := (stops result).mp stopped
        obtain ⟨results, last, turns, answer⟩ := ih (traced.after work (event place result))
        exact ⟨_, last, .pass done turns, answer⟩

theorem fst_placed_forward (chain : InterceptorChain) :
    (chain.placed .forward).map Prod.fst = chain.interceptors :=
  List.zipIdx_map_fst 0 chain.interceptors

theorem fst_placed_reverse (chain : InterceptorChain) :
    (chain.placed .reverse).map Prod.fst = chain.interceptors.reverse := by
  rw [placed, List.map_reverse, List.zipIdx_map_fst]

section Hooks

variable (chain : InterceptorChain) (handler : Handler) (traced : Traced)

theorem inTurn_preHandle :
    ∃ results, InTurn (fun interceptor exchange => interceptor.preHandle exchange handler) (.ok true)
      chain.interceptors traced.exchange results (chain.preHandle handler traced).2
      (chain.preHandle handler traced).1.exchange := by
  obtain ⟨results, result, turns, answer⟩ := inTurn_visit
    (fun interceptor exchange => interceptor.preHandle exchange handler)
    (fun place result => .preHandle place handler result) refusal? (.ok true)
    (fun _ => refusal?_eq_none_iff) (chain.placed .forward) traced
  rw [fst_placed_forward] at turns
  have same : (chain.preHandle handler traced).2 = result := by
    have stopped : (chain.preHandle handler traced).2 = (refusal? result).getD (.ok true) :=
      congrArg (fun stopped : Option (Except HandlerError Bool) => stopped.getD (.ok true)) answer
    rw [stopped]
    rcases result with _ | _ | _ <;> rfl
  exact ⟨results, same ▸ turns⟩

theorem inTurn_postHandle :
    ∃ results, InTurn (fun interceptor exchange => interceptor.postHandle exchange handler) (.ok ())
      chain.interceptors.reverse traced.exchange results (chain.postHandle handler traced).2
      (chain.postHandle handler traced).1.exchange := by
  have stops (result : Except HandlerError Unit) : failure? result = none ↔ result = .ok () := by
    cases result <;> simp [failure?]
  obtain ⟨results, result, turns, answer⟩ := inTurn_visit
    (fun interceptor exchange => interceptor.postHandle exchange handler)
    (fun place result => .postHandle place handler result) failure? (.ok ()) stops
    (chain.placed .reverse) traced
  rw [fst_placed_reverse] at turns
  have same : (chain.postHandle handler traced).2 = result := by
    simp only [postHandle, run, traverse, answer]
    cases result <;> rfl
  exact ⟨results, same ▸ turns⟩

theorem inTurn_asyncStarted :
    ∃ results, InTurn (fun interceptor exchange => (interceptor.afterAsyncStart exchange handler, ()))
      () chain.interceptors.reverse traced.exchange results ()
      (chain.asyncStarted handler traced).exchange := by
  obtain ⟨results, result, turns, -⟩ := inTurn_visit
    (fun interceptor exchange => (interceptor.afterAsyncStart exchange handler, ()))
    (fun place _ => .asyncStarted place handler) (fun _ => (none : Option Unit)) () (fun _ => by simp)
    (chain.placed .reverse) traced
  rw [fst_placed_reverse] at turns
  exact ⟨results, turns⟩

end Hooks

end InterceptorChain

namespace Dispatcher

variable {d : Dispatcher}

/-- What the stages come to when the mappings have been asked. -/
def afterRouting (d : Dispatcher) (p : Progress) :
    Except MappingError (Option Handler) → Progress × Except DispatchFault StageEnd
  | .error error => (p, .error (.mapping error))
  | .ok none => d.miss p
  | .ok (some handler) => d.serve handler p

/-- What the stages come to when the hooks before the handler have run. -/
def afterHooks (d : Dispatcher) (adapter : Adapter) (handler : Handler) (p : Progress) :
    Except HandlerError Bool → Progress × Except DispatchFault StageEnd
  | .error error => (p, .error (.handler error))
  | .ok false => (p, .ok .done)
  | .ok true =>
    let begun := (p.enter .invoke).note (.invoked handler)
    d.takeInvocation handler begun (adapter.handle begun.exchange handler)

theorem runStages_of_prepared {p q : Progress}
    (prepared : d.checkMultipart (p.enter .start) = (q, .ok ())) :
    d.runStages p =
      let (exchange, result) := askMappings d.mappings (q.enter .routeLookup).exchange
      d.afterRouting { q.enter .routeLookup with exchange } result := by
  simp only [runStages, prepared, findHandler]
  generalize askMappings d.mappings (q.enter .routeLookup).exchange = answer
  obtain ⟨exchange, _ | _ | _⟩ := answer <;> rfl

theorem invoke_eq_afterHooks (adapter : Adapter) (handler : Handler) (p : Progress) :
    d.invoke adapter handler p =
      let (traced, passed) := d.interceptors.preHandle handler (p.enter .preHandle).traced
      d.afterHooks adapter handler ((p.enter .preHandle).withTraced traced) passed := by
  rw [invoke_eq]
  generalize d.interceptors.preHandle handler (p.enter .preHandle).traced = ran
  obtain ⟨traced, _ | _ | _⟩ := ran <;> rfl

section Reached

variable {exchange exchange' : Exchange} {handler : Handler}

theorem checkMultipart_of_prepares {p : Progress} {result : Except DispatchFault Unit}
    (prepares : d.Prepares p.exchange result exchange') :
    ∃ q, q.exchange = exchange' ∧ d.checkMultipart p = (q, result) := by
  simp only [checkMultipart]
  cases prepares with
  | unasked given => exact ⟨p, rfl, by rw [given]⟩
  | whole given single =>
    refine ⟨p.enter .multipartCheck, rfl, ?_⟩
    simp [given, Progress.enter, single]
  | @parts resolver work result given several resolved =>
    cases result with
    | error error =>
      refine ⟨(p.enter .multipartCheck).withWork work, rfl, ?_⟩
      simp only [given, Progress.enter, several, resolved, if_true]
      rfl
    | ok _ =>
      refine ⟨{ (p.enter .multipartCheck).withWork work with multipartResolved := true }, rfl, ?_⟩
      simp only [given, Progress.enter, several, resolved, if_true]
      rfl

/-- Once the mappings have been asked the stages go on with their answer. -/
theorem runStages_of_routes {result : Except MappingError (Option Handler)}
    (routes : d.Routes exchange result exchange') :
    ∃ q, q.exchange = exchange' ∧ d.runStages (.start exchange) = d.afterRouting q result := by
  obtain ⟨_, results, prepares, turns⟩ := routes
  obtain ⟨q, rfl, prepared⟩ := checkMultipart_of_prepares
    (p := (Progress.start exchange).enter .start) prepares
  obtain ⟨results', turns'⟩ := inTurn_askMappings d.mappings (q.exchange.enter .routeLookup)
  obtain ⟨-, same_result, same_exchange⟩ := turns.unique turns'
  refine ⟨{ q.enter .routeLookup with exchange := exchange' }, rfl, ?_⟩
  rw [runStages_of_prepared prepared, same_result, same_exchange]
  rfl

theorem checkCache_of_stale {adapter : Adapter} {p : Progress}
    (stale : Stale adapter handler p.exchange exchange') :
    ∃ q, q.exchange = exchange' ∧ q.handler = p.handler ∧
      checkCache adapter handler p = (q, false) := by
  simp only [checkCache]
  cases stale with
  | unread unread => exact ⟨p, rfl, rfl, by simp [unread]⟩
  | changed read checked =>
    refine ⟨{ p.enter .cacheCheck with exchange := exchange' }, rfl, rfl, ?_⟩
    simp [read, Progress.enter, checked]

/-- Once the hooks before the handler have run the stages go on with what they came to. -/
theorem runStages_of_preHandles {adapter : Adapter} {result : Except HandlerError Bool}
    (hooks : d.PreHandles exchange adapter handler result exchange') :
    ∃ q, q.exchange = exchange' ∧ q.handler = some handler ∧
      d.runStages (.start exchange) = d.afterHooks adapter handler q result := by
  obtain ⟨_, _, results, routes, adapts, stale, turns⟩ := hooks
  obtain ⟨p, rfl, ran⟩ := runStages_of_routes routes
  obtain ⟨q, rfl, found, checked⟩ := checkCache_of_stale
    (p := { p with handler := some handler }.enter .adapterLookup) stale
  obtain ⟨results', turns'⟩ :=
    d.interceptors.inTurn_preHandle handler (q.enter .preHandle).traced
  obtain ⟨-, same_result, same_exchange⟩ := turns.unique turns'
  refine ⟨(q.enter .preHandle).withTraced
    (d.interceptors.preHandle handler (q.enter .preHandle).traced).1, same_exchange.symm, found, ?_⟩
  rw [ran, afterRouting, serve, adapts]
  dsimp only
  rw [checked]
  dsimp only
  rw [invoke_eq_afterHooks, same_result]

/-- Once the handler was invoked the stages go on with what it came to. -/
theorem runStages_of_invokes {invocation : Invocation HandlerOutput}
    (invokes : d.Invokes exchange handler invocation exchange') :
    ∃ q, { q.exchange with work := exchange'.work } = exchange' ∧ q.handler = some handler ∧
      d.runStages (.start exchange) = d.takeInvocation handler q (exchange'.work, invocation) := by
  obtain ⟨adapter, _, work, hooks, handled, rfl⟩ := invokes
  obtain ⟨q, rfl, found, ran⟩ := runStages_of_preHandles hooks
  refine ⟨(q.enter .invoke).note (.invoked handler), rfl, found, ?_⟩
  rw [ran, ← handled]
  rfl

theorem applyOutput_of_postHandles {p : Progress} {error : HandlerError}
    (found : p.handler = some handler)
    (fails : d.PostHandles handler p.exchange (.error error) exchange') (output : HandlerOutput) :
    ∃ q, q.exchange = exchange' ∧ d.applyOutput p output = (q, .error (.handler error)) := by
  obtain ⟨results, turns⟩ := fails
  obtain ⟨results', turns'⟩ :=
    d.interceptors.inTurn_postHandle handler (p.enter .postHandle).traced
  obtain ⟨-, same_result, same_exchange⟩ := turns.unique turns'
  refine ⟨(p.enter .postHandle).withTraced
    (d.interceptors.postHandle handler (p.enter .postHandle).traced).1, same_exchange.symm, ?_⟩
  simp only [applyOutput, runPostHandle, found, ← same_result]

/-- Once a handler is going to answer later the dispatch waits. -/
theorem runStages_of_suspends (suspends : d.Suspends exchange handler exchange') :
    ∃ q receiver, q.exchange = exchange' ∧ q.handler = some handler ∧
      d.runStages (.start exchange) = (q, .ok (.suspended receiver)) := by
  obtain ⟨⟨request, phases, work⟩, output, results, invokes, waits, turns⟩ := suspends
  obtain ⟨q, same, found, ran⟩ := runStages_of_invokes invokes
  obtain ⟨receiver, left⟩ := Option.isSome_iff_exists.mp waits
  have left : work.receiver = some receiver := left
  rw [Exchange.mk.injEq] at same
  obtain ⟨rfl, rfl, -⟩ := same
  let answered := (q.withWork work).note (.answered none)
  let begun := (answered.withWork { work with receiver := none }).enter .asyncStarted
  obtain ⟨results', turns'⟩ := d.interceptors.inTurn_asyncStarted handler begun.traced
  obtain ⟨-, -, same_exchange⟩ := turns.unique turns'
  refine ⟨d.await handler q work, receiver, same_exchange.symm, found, ?_⟩
  have some_left : answered.exchange.work.receiver = some receiver := left
  rw [ran, takeInvocation, takeAnswer, some_left]
  rfl

end Reached

/-- What goes on with an outcome that was waited for: it is a failure, or the hooks after the handler
run. -/
def takeOutcome (d : Dispatcher) (p : Progress) : DeferredOutcome → Progress × Except DispatchFault Unit
  | .error error => (p, .error (.handler error))
  | .ok output => d.applyOutput p output

theorem settle_eq_takeOutcome (p : Progress) (outcome : DeferredOutcome) :
    d.settle p outcome =
      match d.takeOutcome p outcome with
      | (p, .ok ()) => d.conclude none p
      | (p, .error fault) => d.conclude (some fault) p := by
  cases outcome <;> rfl

/-- The fault that a dispatch comes to when it goes on with an outcome, with the exchange as it is
then. -/
def raisedLater? (d : Dispatcher) (p : Progress) (outcome : DeferredOutcome) :
    Option (Exchange × DispatchFault) :=
  match d.takeOutcome (p.note (.delivered outcome.failure?)) outcome with
  | (p, .error fault) => some (p.exchange, fault)
  | (_, .ok ()) => none

/-- The fault that a dispatch comes to, with the exchange as it is then. -/
def raised? (d : Dispatcher) (exchange : Exchange) (outcome : Option DeferredOutcome) :
    Option (Exchange × DispatchFault) :=
  match d.runStages (.start exchange) with
  | (p, .error fault) => some (p.exchange, fault)
  | (p, .ok (.suspended _)) => outcome.bind (d.raisedLater? p)
  | (_, .ok _) => none

section Raised

variable {exchange exchange' : Exchange} {outcome : Option DeferredOutcome} {fault : DispatchFault}

theorem raised?_of_runStages {q : Progress} (same : q.exchange = exchange')
    (ran : d.runStages (.start exchange) = (q, .error fault)) :
    d.raised? exchange outcome = some (exchange', fault) := by
  rw [raised?, ran, ← same]

/-- Whatever is raised is what the dispatch comes to. -/
theorem Raises.raised? (raises : d.Raises exchange outcome exchange' fault) :
    d.raised? exchange outcome = some (exchange', fault) := by
  cases raises with
  | multipart prepares =>
    obtain ⟨q, same, failed⟩ := checkMultipart_of_prepares
      (p := (Progress.start exchange).enter .start) prepares
    refine raised?_of_runStages same ?_
    rw [runStages, failed]
  | mapping routes =>
    obtain ⟨q, same, ran⟩ := runStages_of_routes routes
    exact raised?_of_runStages same ran
  | @noHandler missed routes configured =>
    obtain ⟨q, same, ran⟩ := runStages_of_routes routes
    refine raised?_of_runStages (q := q.enter .noHandler) (same ▸ rfl) ?_
    rw [ran, afterRouting, miss, configured, ← same]
    rfl
  | @noAdapter routed handler routes unsupported =>
    obtain ⟨q, same, ran⟩ := runStages_of_routes routes
    have none_found : d.adapters.find? (fun adapter => adapter.supports handler) = none :=
      List.find?_eq_none.mpr fun adapter member => by simp [unsupported adapter member]
    refine raised?_of_runStages (q := { q with handler := some handler }.enter .adapterLookup)
      (same ▸ rfl) ?_
    rw [ran, afterRouting, serve, none_found]
  | preHandle hooks =>
    obtain ⟨q, same, -, ran⟩ := runStages_of_preHandles hooks
    exact raised?_of_runStages same ran
  | handler invokes =>
    obtain ⟨q, same, -, ran⟩ := runStages_of_invokes invokes
    exact raised?_of_runStages
      (q := (q.withWork exchange'.work).note (.answered (some _))) same ran
  | @postHandle invoked _ handler output error invokes idle fails =>
    obtain ⟨q, same, found, ran⟩ := runStages_of_invokes invokes
    let answered := (q.withWork invoked.work).note (.answered none)
    have fails : d.PostHandles handler answered.exchange (.error error) exchange' := by
      rw [show answered.exchange = invoked from same]
      exact fails
    obtain ⟨q', same', applied⟩ := applyOutput_of_postHandles (p := answered) found fails output
    refine raised?_of_runStages same' ?_
    have none_left : answered.exchange.work.receiver = none := idle
    rw [ran, takeInvocation, takeAnswer, none_left]
    dsimp only
    rw [applied]
  | deferred suspends delivered =>
    obtain ⟨q, receiver, same, -, ran⟩ := runStages_of_suspends suspends
    rw [Dispatcher.raised?, ran, delivered, ← same]
    rfl
  | @postHandleLater suspended _ handler output error suspends delivered fails =>
    obtain ⟨q, receiver, rfl, found, ran⟩ := runStages_of_suspends suspends
    obtain ⟨q', same', applied⟩ := applyOutput_of_postHandles
      (p := q.note (.delivered none)) found fails output
    have goes_on : d.takeOutcome (q.note (.delivered none)) (.ok output) =
        (q', .error (.handler error)) := applied
    rw [Dispatcher.raised?, ran, delivered]
    show d.raisedLater? q (.ok output) = _
    rw [raisedLater?, DeferredOutcome.failure?, goes_on, ← same']

end Raised

/-- What the stages come to is told by the calls that were made: a fault that was raised, or a dispatch
that waits. -/
def Accounts (d : Dispatcher) (exchange : Exchange) : Progress × Except DispatchFault StageEnd → Prop
  | (p, .error fault) => ∀ outcome, d.Raises exchange outcome p.exchange fault
  | (p, .ok (.suspended _)) => ∃ handler, p.handler = some handler ∧
      d.Suspends exchange handler p.exchange
  | (_, .ok _) => True

section Accounts

variable {exchange : Exchange} {handler : Handler} {p q : Progress}

theorem prepares_checkMultipart (p : Progress) :
    d.Prepares p.exchange (d.checkMultipart p).2 (d.checkMultipart p).1.exchange := by
  simp only [checkMultipart]
  cases given : d.multipart with
  | none => exact .unasked given
  | some resolver =>
    dsimp only
    by_cases several : resolver.isMultipart (p.enter .multipartCheck).exchange = true
    · rw [if_pos several]
      cases resolved : resolver.resolve (p.enter .multipartCheck).exchange with
      | mk work result => cases result <;> exact .parts given several resolved
    · rw [if_neg several]
      exact .whole given (Bool.eq_false_iff.mpr several)

theorem postHandles_of_applyOutput {output : HandlerOutput} {fault : DispatchFault}
    (found : p.handler = some handler) (failed : d.applyOutput p output = (q, .error fault)) :
    ∃ error, fault = .handler error ∧
      d.PostHandles handler p.exchange (.error error) q.exchange := by
  have turns := d.interceptors.inTurn_postHandle handler (p.enter .postHandle).traced
  simp only [applyOutput, runPostHandle, found] at failed
  generalize d.interceptors.postHandle handler (p.enter .postHandle).traced = ran at turns failed
  obtain ⟨traced, error | _⟩ := ran
  · cases failed
    exact ⟨error, rfl, turns⟩
  · cases failed

theorem accounts_takeInvocation {work : Work} {invocation : Invocation HandlerOutput}
    (found : p.handler = some handler)
    (invokes : d.Invokes exchange handler invocation { p.exchange with work }) :
    d.Accounts exchange (d.takeInvocation handler p (work, invocation)) := by
  rcases invocation with (error | output) | _
  · exact fun _ => .handler invokes
  · let answered := (p.withWork work).note (.answered none)
    rw [takeInvocation, takeAnswer]
    cases left : answered.exchange.work.receiver with
    | some receiver =>
      let begun := (answered.withWork { work with receiver := none }).enter .asyncStarted
      obtain ⟨results, turns⟩ := d.interceptors.inTurn_asyncStarted handler begun.traced
      exact ⟨handler, found, _, output, results, invokes, Option.isSome_iff_exists.mpr ⟨receiver, left⟩,
        turns⟩
    | none =>
      dsimp only
      cases applied : d.applyOutput answered output with
      | mk q result =>
        cases result with
        | ok _ => exact trivial
        | error fault =>
          obtain ⟨error, rfl, fails⟩ := postHandles_of_applyOutput (p := answered) found applied
          exact fun _ => .postHandle invokes left fails
  · exact trivial

theorem accounts_afterHooks {adapter : Adapter} {result : Except HandlerError Bool}
    (found : p.handler = some handler)
    (hooks : d.PreHandles exchange adapter handler result p.exchange) :
    d.Accounts exchange (d.afterHooks adapter handler p result) := by
  rcases result with error | _ | _
  · exact fun _ => .preHandle hooks
  · exact trivial
  · let begun := (p.enter .invoke).note (.invoked handler)
    rw [afterHooks]
    cases handled : adapter.handle begun.exchange handler with
    | mk work invocation =>
      exact accounts_takeInvocation (p := begun) found ⟨adapter, _, work, hooks, handled, rfl⟩

theorem stale_of_checkCache {adapter : Adapter} (checked : checkCache adapter handler p = (q, false)) :
    Stale adapter handler p.exchange q.exchange ∧ q.handler = p.handler := by
  simp only [checkCache] at checked
  by_cases read : p.exchange.request.method.isGetOrHead = true
  · rw [if_pos read] at checked
    split at checked
    · cases checked
    · next current =>
      cases checked
      refine ⟨.changed read (Prod.ext ?_ rfl), rfl⟩
      exact Bool.eq_false_iff.mpr current
  · rw [if_neg read] at checked
    cases checked
    exact ⟨.unread (Bool.eq_false_iff.mpr read), rfl⟩

theorem accounts_serve (routes : d.Routes exchange (.ok (some handler)) p.exchange) :
    d.Accounts exchange (d.serve handler p) := by
  let served := { p with handler := some handler }.enter .adapterLookup
  rw [serve]
  cases adapts : d.adapters.find? fun adapter => adapter.supports handler with
  | none =>
    have unsupported : ∀ adapter ∈ d.adapters, adapter.supports handler = false := by
      simpa using adapts
    exact fun _ => .noAdapter routes unsupported
  | some adapter =>
    dsimp only
    cases checked : checkCache adapter handler served with
    | mk q current =>
      cases current with
      | true => exact trivial
      | false =>
        obtain ⟨stale, found⟩ := stale_of_checkCache checked
        obtain ⟨results, turns⟩ :=
          d.interceptors.inTurn_preHandle handler (q.enter .preHandle).traced
        dsimp only
        rw [invoke_eq_afterHooks]
        exact accounts_afterHooks found ⟨p.exchange, _, results, routes, adapts, stale, turns⟩

theorem accounts_afterRouting {result : Except MappingError (Option Handler)}
    (routes : d.Routes exchange result p.exchange) :
    d.Accounts exchange (d.afterRouting p result) := by
  rcases result with error | _ | handler
  · exact fun _ => .mapping routes
  · simp only [afterRouting, miss]
    split
    · next configured => exact fun _ => .noHandler routes configured
    · exact trivial
  · exact accounts_serve routes

/-- The stages of a dispatch come to what the calls in it account for. -/
theorem accounts_runStages (d : Dispatcher) (exchange : Exchange) :
    d.Accounts exchange (d.runStages (.start exchange)) := by
  let begun := (Progress.start exchange).enter .start
  have prepares := d.prepares_checkMultipart begun
  cases prepared : d.checkMultipart begun with
  | mk q result =>
    rw [prepared] at prepares
    cases result with
    | error fault =>
      rw [runStages, prepared]
      exact fun _ => .multipart prepares
    | ok _ =>
      obtain ⟨results, turns⟩ := inTurn_askMappings d.mappings (q.exchange.enter .routeLookup)
      rw [runStages_of_prepared prepared]
      exact accounts_afterRouting (p := { q.enter .routeLookup with exchange := _ })
        ⟨q.exchange, results, prepares, turns⟩

end Accounts

/-- A fault is raised just when the dispatch comes to it. -/
theorem raises_iff {exchange exchange' : Exchange} {outcome : Option DeferredOutcome}
    {fault : DispatchFault} :
    d.Raises exchange outcome exchange' fault ↔
      d.raised? exchange outcome = some (exchange', fault) := by
  refine ⟨Raises.raised?, fun raised => ?_⟩
  have accounts := d.accounts_runStages exchange
  rw [Dispatcher.raised?] at raised
  generalize d.runStages (.start exchange) = ran at accounts raised
  obtain ⟨p, fault | _ | receiver | _⟩ := ran
  · cases raised
    exact accounts outcome
  · cases raised
  · obtain ⟨handler, found, suspends⟩ := accounts
    obtain ⟨received, rfl, later⟩ := Option.bind_eq_some_iff.mp raised
    cases received with
    | error error =>
      cases later
      exact .deferred suspends rfl
    | ok output =>
      let delivered := p.note (.delivered none)
      simp only [raisedLater?, DeferredOutcome.failure?, takeOutcome] at later
      cases applied : d.applyOutput delivered output with
      | mk q result =>
        rw [applied] at later
        cases result with
        | ok _ => cases later
        | error fault =>
          cases later
          obtain ⟨error, rfl, fails⟩ := postHandles_of_applyOutput (p := delivered) found applied
          exact .postHandleLater suspends rfl fails
  · cases raised

end Dispatcher

end HttpRouting
