import HttpRouting.Proofs.Dispatch.Runs

/-!
What a dispatch passes through.  Its stages enter phases one after the other, by a few walks, and they
leave the request alone.  Mappings, handlers, hooks and resolvers act on their part of the exchange
only: what all of them keep of it, the dispatch keeps.
-/

set_option autoImplicit false
set_option relaxedAutoImplicit false

namespace HttpRouting

/-- The phases when some have been entered one after the other. -/
def Phases.after (phases : Phases) (entered : List Phases) : Phases :=
  entered.foldl union phases

/-- From one state of an exchange to a later one phases are entered and the request stays, and what
holds of the work at the beginning brings about what holds of it at the end. -/
structure Exchange.Passage (holds holds' : Work → Prop) (entered : List Phases)
    (exchange exchange' : Exchange) : Prop where
  request : exchange'.request = exchange.request
  phases : exchange'.phases = exchange.phases.after entered
  work : holds exchange.work → holds' exchange'.work

open Exchange (Passage)

namespace Exchange.Passage

variable {holds holds' holds'' : Work → Prop} {entered entered' : List Phases}
  {exchange exchange' exchange'' : Exchange}

theorem refl : Passage holds holds [] exchange exchange :=
  ⟨rfl, rfl, id⟩

theorem trans (first : Passage holds holds' entered exchange exchange')
    (second : Passage holds' holds'' entered' exchange' exchange'') :
    Passage holds holds'' (entered ++ entered') exchange exchange'' where
  request := second.request.trans first.request
  phases := by
    rw [second.phases, first.phases]
    exact List.foldl_append.symm
  work := second.work ∘ first.work

theorem enter (phase : Phases) : Passage holds holds [phase] exchange (exchange.enter phase) :=
  ⟨rfl, rfl, id⟩

theorem act {work : Work} (kept : holds exchange.work → holds' work) :
    Passage holds holds' [] exchange { exchange with work } :=
  ⟨rfl, rfl, kept⟩

end Exchange.Passage

/-- An interceptor acts on exchanges in good ways only. -/
structure Interceptor.Acts (interceptor : Interceptor) (good : (Exchange → Work) → Prop) : Prop where
  preHandle : ∀ handler, good fun exchange => (interceptor.preHandle exchange handler).1
  postHandle : ∀ handler, good fun exchange => (interceptor.postHandle exchange handler).1
  afterCompletion : ∀ handler fault,
    good fun exchange => (interceptor.afterCompletion exchange handler fault).1
  afterAsyncStart : ∀ handler, good fun exchange => interceptor.afterAsyncStart exchange handler

/-- All who take part in a dispatch act on exchanges in good ways only. -/
structure Dispatcher.Acts (d : Dispatcher) (good : (Exchange → Work) → Prop) : Prop where
  multipart : ∀ resolver ∈ d.multipart, good fun exchange => (resolver.resolve exchange).1
  cleanup : ∀ resolver ∈ d.multipart, good resolver.cleanup
  mappings : ∀ mapping ∈ d.mappings, good fun exchange => (mapping.find exchange).1
  adapters : ∀ adapter ∈ d.adapters, ∀ handler,
    good fun exchange => (adapter.handle exchange handler).1
  interceptors : ∀ interceptor ∈ d.interceptors.interceptors, interceptor.Acts good
  resolvers : ∀ resolver ∈ d.resolvers, ∀ handler fault,
    good fun exchange => (resolver.resolve exchange handler fault).1

section Acts

variable {good good' : (Exchange → Work) → Prop} (implies : ∀ act, good act → good' act)

include implies

theorem Interceptor.Acts.imp {interceptor : Interceptor} (acts : interceptor.Acts good) :
    interceptor.Acts good' where
  preHandle handler := implies _ (acts.preHandle handler)
  postHandle handler := implies _ (acts.postHandle handler)
  afterCompletion handler fault := implies _ (acts.afterCompletion handler fault)
  afterAsyncStart handler := implies _ (acts.afterAsyncStart handler)

theorem Dispatcher.Acts.imp {d : Dispatcher} (acts : d.Acts good) : d.Acts good' where
  multipart resolver member := implies _ (acts.multipart resolver member)
  cleanup resolver member := implies _ (acts.cleanup resolver member)
  mappings mapping member := implies _ (acts.mappings mapping member)
  adapters adapter member handler := implies _ (acts.adapters adapter member handler)
  interceptors interceptor member := (acts.interceptors interceptor member).imp implies
  resolvers resolver member handler fault :=
    implies _ (acts.resolvers resolver member handler fault)

end Acts

/-- An act keeps what holds of the work. -/
def Work.KeptBy (holds : Work → Prop) (act : Exchange → Work) : Prop :=
  ∀ exchange, holds exchange.work → holds (act exchange)

/-- All who take part in a dispatch keep what holds of the work, and it does not depend on what the
dispatch itself writes, the response and the attributes. -/
structure Dispatcher.Keeps (d : Dispatcher) (holds : Work → Prop) : Prop
    extends d.Acts (Work.KeptBy holds) where
  written : ∀ work response attributes, holds work → holds { work with response, attributes }

/-- What holds of the work while the stages run is kept, and so is what holds of it while the dispatch
waits at a receiver, from the moment on at which the receiver is taken out of the work. -/
structure Dispatcher.Tracks (d : Dispatcher) (running : Work → Prop)
    (waiting : Receiver → Work → Prop) : Prop where
  keeps_running : d.Keeps running
  keeps_waiting : ∀ receiver, d.Keeps (waiting receiver)
  taken : ∀ work receiver, running work → work.receiver = some receiver →
    waiting receiver { work with receiver := none }

/-- What holds of the work when the stages have come to a result. -/
def Work.heldAt (running : Work → Prop) (waiting : Receiver → Work → Prop) :
    Except DispatchFault StageEnd → Work → Prop
  | .ok (.suspended receiver) => waiting receiver
  | _ => running

/-- What holds of the work when a dispatch has come to its end, which may have waited before. -/
def Work.heldAfter (running : Work → Prop) (waiting : Receiver → Work → Prop) :
    Dispatched → Work → Prop
  | .suspended s => waiting s.receiver
  | _ => running

/-- The phases that the hooks before the handler, the handler and the hooks after it lead through. -/
inductive InvokeWalk : Except DispatchFault StageEnd → List Phases → Prop
  | stopped : InvokeWalk (.ok .done) [.preHandle]
  | refused (fault : DispatchFault) : InvokeWalk (.error fault) [.preHandle]
  | pending : InvokeWalk (.ok .pending) [.preHandle, .invoke]
  | failed (fault : DispatchFault) : InvokeWalk (.error fault) [.preHandle, .invoke]
  | suspended (receiver : Receiver) :
      InvokeWalk (.ok (.suspended receiver)) [.preHandle, .invoke, .asyncStarted]
  | unwritten (fault : DispatchFault) : InvokeWalk (.error fault) [.preHandle, .invoke, .postHandle]
  | written : InvokeWalk (.ok .done) [.preHandle, .invoke, .postHandle, .resultProcessing]

/-- The phases that a request leads through once its handler is found; a resource that is to be read
is compared with the copy of the client. -/
inductive ServeWalk (read : Bool) : Except DispatchFault StageEnd → List Phases → Prop
  | unadapted (fault : DispatchFault) : ServeWalk read (.error fault) [.adapterLookup]
  | unchanged : read = true →
      ServeWalk read (.ok .done) [.adapterLookup, .cacheCheck, .notModified]
  | invoked {result : Except DispatchFault StageEnd} {entered : List Phases} :
      InvokeWalk result entered →
        ServeWalk read result (.adapterLookup :: (if read then [.cacheCheck] else []) ++ entered)

/-- The phases before a handler is looked for. -/
def approach (parts : Bool) : List Phases :=
  .start :: if parts then [.multipartCheck] else []

/-- The phases that a dispatch leads through up to the result of its stages. -/
inductive StageWalk (parts read : Bool) : Except DispatchFault StageEnd → List Phases → Prop
  | unprepared (fault : DispatchFault) : StageWalk parts read (.error fault) (approach parts)
  | unrouted (fault : DispatchFault) :
      StageWalk parts read (.error fault) (approach parts ++ [.routeLookup])
  | missed : StageWalk parts read (.ok .done) (approach parts ++ [.routeLookup, .noHandler])
  | missFault (fault : DispatchFault) :
      StageWalk parts read (.error fault) (approach parts ++ [.routeLookup, .noHandler])
  | served {result : Except DispatchFault StageEnd} {entered : List Phases} :
      ServeWalk read result entered →
        StageWalk parts read result (approach parts ++ .routeLookup :: entered)

/-- The phases in which a fault is handled, unless it is left. -/
def handling (left : Bool) : List Phases :=
  .exceptionHandling :: if left then [] else [.resultProcessing]

/-- The phases at the end of a dispatch, with a fault to handle or without. -/
def concluding (faulty left : Bool) : List Phases :=
  (if faulty then handling left else []) ++ [.completion]

/-- The phases from the outcome of a handler that answers later to the end. -/
inductive ResumeWalk : Option DispatchFault → List Phases → Prop
  | failed (left : Option DispatchFault) : ResumeWalk left (concluding true left.isSome)
  | unwritten (left : Option DispatchFault) :
      ResumeWalk left (.postHandle :: concluding true left.isSome)
  | written : ResumeWalk none (.postHandle :: .resultProcessing :: concluding false false)

/-- The phases that a dispatch leads through up to its end. -/
inductive Journey (parts read : Bool) : Ending → List Phases → Prop
  | done {entered : List Phases} : StageWalk parts read (.ok .done) entered →
      Journey parts read (.returned none) (entered ++ concluding false false)
  | failed {fault : DispatchFault} {entered : List Phases} (left : Option DispatchFault) :
      StageWalk parts read (.error fault) entered →
        Journey parts read (.returned left) (entered ++ concluding true left.isSome)
  | droppedPending {entered : List Phases} : StageWalk parts read (.ok .pending) entered →
      Journey parts read .droppedPending (entered ++ [.cancelled, .completion])
  | resumed {receiver : Receiver} {left : Option DispatchFault} {entered more : List Phases} :
      StageWalk parts read (.ok (.suspended receiver)) entered → ResumeWalk left more →
        Journey parts read (.resumed left) (entered ++ more)
  | cancelled {receiver : Receiver} {entered : List Phases} :
      StageWalk parts read (.ok (.suspended receiver)) entered →
        Journey parts read .cancelled (entered ++ [.cancelled, .completion])
  | droppedSuspended {receiver : Receiver} {entered : List Phases} :
      StageWalk parts read (.ok (.suspended receiver)) entered →
        Journey parts read .droppedSuspended (entered ++ [.cancelled, .completion])

namespace InterceptorChain

variable {holds : Work → Prop}

/-- Visits of interceptors are a passage when the hook keeps what holds of the work. -/
theorem passage_visit {ρ β : Type} (hook : Interceptor → Exchange → Work × ρ)
    (event : Nat → ρ → DispatchEvent) (stop? : ρ → Option β) (placed : List (Interceptor × Nat))
    (kept : ∀ entry ∈ placed, Work.KeptBy holds fun exchange => (hook entry.1 exchange).1)
    (traced : Traced) :
    Passage holds holds [] traced.exchange
      (visit (fun place interceptor (traced : Traced) =>
        let (work, result) := hook interceptor traced.exchange
        (traced.after work (event place result), stop? result)) placed traced).1.exchange := by
  induction placed generalizing traced with
  | nil => exact .refl
  | cons entry rest ih =>
    obtain ⟨interceptor, place⟩ := entry
    obtain ⟨kept_here, kept_rest⟩ := List.forall_mem_cons.mp kept
    have here : holds traced.exchange.work → holds (hook interceptor traced.exchange).1 :=
      kept_here traced.exchange
    simp only [visit]
    generalize hook interceptor traced.exchange = done at here
    obtain ⟨work, result⟩ := done
    have acted : Passage holds holds [] traced.exchange
        (traced.after work (event place result)).exchange := .act here
    cases stop? result with
    | some answer => exact acted
    | none => exact acted.trans (ih kept_rest (traced.after work (event place result)))

theorem passage_run {ρ β : Type} (chain : InterceptorChain) (direction : Direction)
    (hook : Interceptor → Exchange → Work × ρ) (event : Nat → ρ → DispatchEvent)
    (stop? : ρ → Option β)
    (kept : ∀ interceptor ∈ chain.interceptors,
      Work.KeptBy holds fun exchange => (hook interceptor exchange).1) (traced : Traced) :
    Passage holds holds [] traced.exchange
      (chain.run direction hook event stop? traced).1.exchange :=
  passage_visit hook event stop? _ (fun entry member => kept entry.1 (fst_mem_of_mem_placed member))
    traced

section Hooks

variable (chain : InterceptorChain) (kept : ∀ interceptor ∈ chain.interceptors,
  interceptor.Acts (Work.KeptBy holds)) (traced : Traced)

include kept

theorem passage_preHandle (handler : Handler) :
    Passage holds holds [] traced.exchange (chain.preHandle handler traced).1.exchange :=
  chain.passage_run .forward (fun interceptor exchange => interceptor.preHandle exchange handler) _ _
    (fun interceptor member => (kept interceptor member).preHandle handler) traced

theorem passage_postHandle (handler : Handler) :
    Passage holds holds [] traced.exchange (chain.postHandle handler traced).1.exchange :=
  chain.passage_run .reverse (fun interceptor exchange => interceptor.postHandle exchange handler) _ _
    (fun interceptor member => (kept interceptor member).postHandle handler) traced

theorem passage_completion (handler : Option Handler) (fault : Option DispatchFault) :
    Passage holds holds [] traced.exchange (chain.completion handler fault traced).exchange :=
  chain.passage_run .reverse
    (fun interceptor exchange => interceptor.afterCompletion exchange handler fault) _ _
    (fun interceptor member => (kept interceptor member).afterCompletion handler fault) traced

theorem passage_asyncStarted (handler : Handler) :
    Passage holds holds [] traced.exchange (chain.asyncStarted handler traced).exchange :=
  chain.passage_run .reverse
    (fun interceptor exchange => (interceptor.afterAsyncStart exchange handler, ())) _ _
    (fun interceptor member => (kept interceptor member).afterAsyncStart handler) traced

end Hooks

end InterceptorChain

namespace Dispatcher

section Stages

variable {d : Dispatcher} {holds : Work → Prop} (keeps : d.Keeps holds) (p : Progress)

include keeps

theorem passage_withResponse (exchange : Exchange) (response : Response) :
    Passage holds holds [] exchange (exchange.withResponse response) :=
  .act (keeps.written exchange.work response exchange.work.attributes)

theorem passage_checkMultipart :
    Passage holds holds (if d.multipart.isSome then [.multipartCheck] else []) p.exchange
      (d.checkMultipart p).1.exchange := by
  have multipart := keeps.multipart
  simp only [checkMultipart]
  cases found : d.multipart with
  | none => exact .refl
  | some resolver =>
    let begun := (p.enter .multipartCheck).exchange
    have entered : Passage holds holds [.multipartCheck] p.exchange begun := .enter .multipartCheck
    have kept : holds begun.work → holds (resolver.resolve begun).1 := multipart resolver found begun
    simp only [Option.isSome_some, if_true]
    split
    · generalize resolver.resolve begun = resolved at kept
      obtain ⟨work, result⟩ := resolved
      cases result with
      | error _ => exact entered.trans (.act kept)
      | ok _ => exact entered.trans (.act kept)
    · exact entered

theorem passage_askMappings {mappings : List HandlerMapping} (known : mappings ⊆ d.mappings)
    (exchange : Exchange) :
    Passage holds holds [] exchange (askMappings mappings exchange).1 := by
  induction mappings generalizing exchange with
  | nil => exact .refl
  | cons mapping rest ih =>
    obtain ⟨known_here, known_rest⟩ := List.cons_subset.mp known
    have kept : holds exchange.work → holds (mapping.find exchange).1 :=
      keeps.mappings mapping known_here exchange
    simp only [askMappings]
    generalize mapping.find exchange = found at kept
    obtain ⟨work, _ | _ | _⟩ := found
    · exact .act kept
    · exact (Passage.act kept).trans (ih known_rest { exchange with work })
    · exact .act kept

theorem passage_findHandler :
    Passage holds holds [.routeLookup] p.exchange (d.findHandler p).1.exchange :=
  (Passage.enter .routeLookup).trans
    (passage_askMappings keeps (List.Subset.refl d.mappings) (p.enter .routeLookup).exchange)

theorem passage_miss : Passage holds holds [.noHandler] p.exchange (d.miss p).1.exchange := by
  simp only [miss]
  split
  · exact .enter .noHandler
  · exact (Passage.enter .noHandler).trans (passage_withResponse keeps _ _)

theorem passage_checkNotModified (exchange : Exchange) (changed : Option Instant) :
    Passage holds holds [] exchange (exchange.checkNotModified changed).2 := by
  cases changed with
  | none => exact .refl
  | some changed =>
    simp only [Exchange.checkNotModified]
    split
    · exact passage_withResponse keeps exchange _
    · exact passage_withResponse keeps exchange _

theorem passage_checkCache (adapter : Adapter) (handler : Handler) :
    Passage holds holds
      (if p.exchange.request.method.isGetOrHead then
        .cacheCheck :: if (checkCache adapter handler p).2 then [.notModified] else []
      else []) p.exchange (checkCache adapter handler p).1.exchange := by
  simp only [checkCache]
  split
  · have checked := passage_checkNotModified keeps (p.enter .cacheCheck).exchange
      (adapter.lastModified (p.enter .cacheCheck).exchange handler)
    generalize (p.enter .cacheCheck).exchange.checkNotModified _ = answer at checked
    obtain ⟨current, exchange⟩ := answer
    have entered : Passage holds holds [.cacheCheck] p.exchange exchange :=
      (Passage.enter .cacheCheck).trans checked
    cases current with
    | true => exact entered.trans (.enter .notModified)
    | false => exact entered
  · exact .refl

omit keeps in
theorem isGetOrHead_of_checkCache (adapter : Adapter) (handler : Handler)
    (current : (checkCache adapter handler p).2 = true) :
    p.exchange.request.method.isGetOrHead = true := by
  by_contra other
  rw [checkCache, if_neg other] at current
  cases current

/-- The answer of a handler that was found is written into the response, unless a hook after the
handler fails. -/
theorem passage_applyOutput {handler : Handler} (found : p.handler = some handler)
    (output : HandlerOutput) :
    Passage holds holds
      (.postHandle :: if (d.applyOutput p output).2 matches .ok _ then [.resultProcessing] else [])
      p.exchange (d.applyOutput p output).1.exchange := by
  have ran := d.interceptors.passage_postHandle keeps.interceptors (p.enter .postHandle).traced handler
  simp only [applyOutput, runPostHandle, found]
  generalize d.interceptors.postHandle handler (p.enter .postHandle).traced = answer at ran
  obtain ⟨traced, result⟩ := answer
  have entered : Passage holds holds [.postHandle] p.exchange traced.exchange :=
    (Passage.enter .postHandle).trans ran
  cases result with
  | error _ => exact entered
  | ok _ =>
    exact (entered.trans (.enter .resultProcessing)).trans (passage_withResponse keeps _ _)

end Stages

section Walks

variable {d : Dispatcher} {running : Work → Prop} {waiting : Receiver → Work → Prop}
  (tracks : d.Tracks running waiting) (p : Progress)

include tracks

/-- When the handler has answered, the dispatch waits or the answer is written. -/
theorem passage_takeAnswer {handler : Handler} (found : p.handler = some handler)
    (output : HandlerOutput) :
    ∃ entered,
      InvokeWalk (d.takeAnswer handler p output).2 ([.preHandle, .invoke] ++ entered) ∧
        Passage running (Work.heldAt running waiting (d.takeAnswer handler p output).2) entered
          p.exchange (d.takeAnswer handler p output).1.exchange := by
  simp only [takeAnswer]
  cases left : p.exchange.work.receiver with
  | some receiver =>
    -- Only here the receiver leaves the exchange, so only here another property takes over.
    refine ⟨[.asyncStarted], .suspended receiver, ?_⟩
    have taken : Passage running (waiting receiver) [] p.exchange
        (p.withWork { p.exchange.work with receiver := none }).exchange :=
      .act fun holds => tracks.taken _ receiver holds left
    let begun := (p.withWork { p.exchange.work with receiver := none }).enter .asyncStarted
    have entered : Passage running (waiting receiver) [.asyncStarted] p.exchange begun.exchange :=
      taken.trans (.enter .asyncStarted)
    exact entered.trans (d.interceptors.passage_asyncStarted
      (tracks.keeps_waiting receiver).interceptors begun.traced handler)
  | none =>
    have applied := passage_applyOutput tracks.keeps_running p found output
    generalize d.applyOutput p output = answer at applied
    obtain ⟨p', result⟩ := answer
    cases result with
    | error fault => exact ⟨[.postHandle], .unwritten fault, applied⟩
    | ok _ => exact ⟨[.postHandle, .resultProcessing], .written, applied⟩

/-- The hooks before the handler run, and the handler unless one of them stops the request. -/
theorem passage_invoke {adapter : Adapter} {handler : Handler} (known : adapter ∈ d.adapters)
    (found : p.handler = some handler) :
    ∃ entered, InvokeWalk (d.invoke adapter handler p).2 entered ∧
      Passage running (Work.heldAt running waiting (d.invoke adapter handler p).2) entered
        p.exchange (d.invoke adapter handler p).1.exchange := by
  have ran := d.interceptors.passage_preHandle tracks.keeps_running.interceptors
    (p.enter .preHandle).traced handler
  simp only [invoke]
  generalize d.interceptors.preHandle handler (p.enter .preHandle).traced = answer at ran
  obtain ⟨traced, result⟩ := answer
  have entered : Passage running running [.preHandle] p.exchange traced.exchange :=
    (Passage.enter .preHandle).trans ran
  rcases result with _ | _ | _
  · exact ⟨[.preHandle], .refused _, entered⟩
  · exact ⟨[.preHandle], .stopped, entered⟩
  · dsimp only
    let invoked := ((p.enter .preHandle).withTraced traced).enter .invoke |>.note (.invoked handler)
    have begun : Passage running running [.preHandle, .invoke] p.exchange invoked.exchange :=
      entered.trans (.enter .invoke)
    have kept : running invoked.exchange.work → running (adapter.handle invoked.exchange handler).1 :=
      tracks.keeps_running.adapters adapter known handler invoked.exchange
    generalize adapter.handle invoked.exchange handler = handled at kept
    obtain ⟨work, invocation⟩ := handled
    have acted := begun.trans (.act kept)
    rcases invocation with (_ | output) | _
    · exact ⟨_, .failed _, acted⟩
    · obtain ⟨entered, walked, taken⟩ := passage_takeAnswer tracks
        ((invoked.withWork work).note (.answered none)) found output
      exact ⟨_, walked, acted.trans taken⟩
    · exact ⟨_, .pending, acted⟩

/-- A request is served by its handler, unless there is no adapter or the client is up to date. -/
theorem passage_serve (handler : Handler) :
    ∃ entered, ServeWalk p.exchange.request.method.isGetOrHead (d.serve handler p).2 entered ∧
      Passage running (Work.heldAt running waiting (d.serve handler p).2) entered p.exchange
        (d.serve handler p).1.exchange := by
  let begun := { p with handler := some handler }.enter .adapterLookup
  have entered : Passage running running [.adapterLookup] p.exchange begun.exchange :=
    .enter .adapterLookup
  simp only [serve]
  cases supported : d.adapters.find? fun adapter => adapter.supports handler with
  | none => exact ⟨_, .unadapted _, entered⟩
  | some adapter =>
    have checked := passage_checkCache tracks.keeps_running begun adapter handler
    have found : (checkCache adapter handler begun).1.handler = some handler :=
      handler_checkCache adapter handler begun
    dsimp only
    have reads := isGetOrHead_of_checkCache begun adapter handler
    generalize checkCache adapter handler begun = cached at checked found reads
    obtain ⟨p', current⟩ := cached
    cases current with
    | true =>
      have read : p.exchange.request.method.isGetOrHead = true := reads rfl
      rw [show begun.exchange.request.method.isGetOrHead = true from read] at checked
      exact ⟨_, .unchanged read, entered.trans checked⟩
    | false =>
      obtain ⟨phases, walked, invoked⟩ :=
        passage_invoke tracks p' (List.mem_of_find?_eq_some supported) found
      exact ⟨_, .invoked walked, (entered.trans checked).trans invoked⟩

/-- The stages take one of the walks. -/
theorem passage_runStages :
    ∃ entered,
      StageWalk d.multipart.isSome p.exchange.request.method.isGetOrHead (d.runStages p).2 entered ∧
        Passage running (Work.heldAt running waiting (d.runStages p).2) entered p.exchange
          (d.runStages p).1.exchange := by
  have prepared : Passage running running (approach d.multipart.isSome) p.exchange
      (d.checkMultipart (p.enter .start)).1.exchange :=
    (Passage.enter .start).trans (passage_checkMultipart tracks.keeps_running (p.enter .start))
  simp only [runStages]
  generalize d.checkMultipart (p.enter .start) = checked at prepared
  obtain ⟨p', result⟩ := checked
  cases result with
  | error fault => exact ⟨_, .unprepared fault, prepared⟩
  | ok _ =>
    have looked := prepared.trans (passage_findHandler tracks.keeps_running p')
    dsimp only
    generalize d.findHandler p' = answer at looked
    obtain ⟨p'', fault | _ | handler⟩ := answer
    · exact ⟨_, .unrouted fault, looked⟩
    · have missed : Passage running running
          (approach d.multipart.isSome ++ [.routeLookup] ++ [.noHandler]) p.exchange
          (d.miss p'').1.exchange :=
        looked.trans (passage_miss tracks.keeps_running p'')
      rw [List.append_assoc] at missed
      cases faulty : d.config.faultOnMiss with
      | true =>
        simp only [miss, faulty, if_true] at missed ⊢
        exact ⟨_, .missFault _, missed⟩
      | false =>
        simp only [miss, faulty, Bool.false_eq_true, if_false] at missed ⊢
        exact ⟨_, .missed, missed⟩
    · obtain ⟨entered, walked, served⟩ := passage_serve tracks p'' handler
      have read : p''.exchange.request = p.exchange.request := looked.request
      rw [read] at walked
      exact ⟨_, .served walked, by simpa using looked.trans served⟩

end Walks

section Ends

variable {d : Dispatcher} {holds : Work → Prop} (keeps : d.Keeps holds) (p : Progress)

include keeps

theorem passage_offer (fault : DispatchFault) {placed : List (FaultResolver × Nat)}
    (known : ∀ entry ∈ placed, entry.1 ∈ d.resolvers) :
    Passage holds holds [] p.exchange (offer fault placed p).1.exchange := by
  induction placed generalizing p with
  | nil => exact .refl
  | cons entry rest ih =>
    obtain ⟨resolver, place⟩ := entry
    obtain ⟨known_here, known_rest⟩ := List.forall_mem_cons.mp known
    have kept : holds p.exchange.work → holds (resolver.resolve p.exchange p.handler fault).1 :=
      keeps.resolvers resolver known_here p.handler fault p.exchange
    rw [offer]
    generalize resolver.resolve p.exchange p.handler fault = answer at kept
    obtain ⟨work, handled⟩ := answer
    cases handled with
    | true => exact .act kept
    | false =>
      exact (Passage.act kept).trans
        (ih ((p.withWork work).note (.offered place p.handler fault false)) known_rest)

theorem passage_processFault (fault : DispatchFault) :
    Passage holds holds (handling (d.processFault fault p).2.isSome) p.exchange
      (d.processFault fault p).1.exchange := by
  let begun := (p.enter .exceptionHandling).withResponse
    { (p.enter .exceptionHandling).exchange.response with body := none }
  have entered : Passage holds holds [.exceptionHandling] p.exchange begun.exchange :=
    (Passage.enter .exceptionHandling).trans (passage_withResponse keeps _ _)
  have offered : Passage holds holds [.exceptionHandling] p.exchange
      (offer fault d.resolvers.zipIdx begun).1.exchange :=
    entered.trans (passage_offer keeps begun fault fun _ => List.fst_mem_of_mem_zipIdx)
  simp only [processFault]
  generalize offer fault d.resolvers.zipIdx begun = answer at offered
  obtain ⟨p', handled⟩ := answer
  cases handled with
  | false => exact offered
  | true =>
    exact (offered.trans (.enter .resultProcessing)).trans
      (.act (keeps.written p'.exchange.work p'.exchange.work.response _))

theorem passage_complete (incomplete : p.completed = false) (fault : Option DispatchFault) :
    Passage holds holds [.completion] p.exchange (d.complete fault p).exchange := by
  have cleanup := keeps.cleanup
  let begun := { p with completed := true }.enter .completion
  have ran : Passage holds holds [.completion] p.exchange
      (d.interceptors.completion p.handler fault begun.traced).exchange :=
    (Passage.enter .completion).trans
      (d.interceptors.passage_completion keeps.interceptors begun.traced p.handler fault)
  simp only [complete, incomplete, Bool.false_eq_true, if_false]
  split
  · next resolver _ found => exact ran.trans (.act (cleanup resolver found _))
  · exact ran

theorem passage_cancel (incomplete : p.completed = false) :
    Passage holds holds [.cancelled, .completion] p.exchange (d.cancel p).exchange := by
  rw [cancel, if_neg (by simp [incomplete])]
  exact (Passage.enter .cancelled).trans
    (passage_complete keeps (p.enter .cancelled) incomplete (some .cancelled))

theorem passage_conclude (incomplete : p.completed = false) (pending : Option DispatchFault) :
    Passage holds holds (concluding pending.isSome (d.conclude pending p).2.isSome) p.exchange
      (d.conclude pending p).1.exchange := by
  cases pending with
  | none => exact passage_complete keeps p incomplete none
  | some fault =>
    have processed := passage_processFault keeps p fault
    have still : (d.processFault fault p).1.completed = false :=
      (d.offered_processFault fault p).completed.trans incomplete
    simp only [conclude]
    generalize d.processFault fault p = answer at processed still
    obtain ⟨p', left⟩ := answer
    exact processed.trans (passage_complete keeps p' still left)

/-- A dispatch that waits goes on with an outcome. -/
theorem passage_resumeWith {handler : Handler} (found : p.handler = some handler)
    (incomplete : p.completed = false) (outcome : DeferredOutcome) :
    ∃ entered, ResumeWalk (d.resumeWith p outcome).2 entered ∧
      Passage holds holds entered p.exchange (d.resumeWith p outcome).1.exchange := by
  cases outcome with
  | error error =>
    exact ⟨_, .failed _, passage_conclude keeps
      (p.note (.delivered (some error))) incomplete (some (.handler error))⟩
  | ok output =>
    let noted := p.note (.delivered none)
    have applied := passage_applyOutput keeps noted found output
    obtain ⟨_, _, _, _, same_completed⟩ := d.applyOutput_events (p := noted) found output
    have still : (d.applyOutput noted output).1.completed = false := same_completed.trans incomplete
    simp only [resumeWith]
    generalize d.applyOutput noted output = answer at applied still
    obtain ⟨p', result⟩ := answer
    cases result with
    | ok _ =>
      exact ⟨_, .written, applied.trans (passage_conclude keeps p' still none)⟩
    | error fault =>
      exact ⟨_, .unwritten _, applied.trans (passage_conclude keeps p' still (some fault))⟩

end Ends

/-- A dispatch waits for the answer of a handler. -/
theorem handler_of_waiting {n : Nat} {p : Progress} (waiting : p.Underway n .waiting) :
    ∃ handler, p.handler = some handler := by
  have course := waiting.course
  generalize p.handler = found at course ⊢
  generalize p.events = events at course
  cases course with
  | waiting handler => exact ⟨handler, rfl⟩

section Journeys

variable {d : Dispatcher} {running : Work → Prop} {waiting : Receiver → Work → Prop}
  (tracks : d.Tracks running waiting)

include tracks

/-- A dispatch returns after its journey, or its stages are behind it. -/
theorem passage_dispatch (exchange : Exchange) :
    let parts := d.multipart.isSome
    let read := exchange.request.method.isGetOrHead
    match d.dispatch exchange with
    | .finished p left => ∃ entered, Journey parts read (.returned left) entered ∧
        Passage running running entered exchange p.exchange
    | .suspended s => ∃ entered, StageWalk parts read (.ok (.suspended s.receiver)) entered ∧
        Passage running (waiting s.receiver) entered exchange s.progress.exchange
    | .pending p => ∃ entered, StageWalk parts read (.ok .pending) entered ∧
        Passage running running entered exchange p.exchange := by
  obtain ⟨entered, walked, passed⟩ := passage_runStages tracks (.start exchange)
  have underway := d.underway_runStages (p := .start exchange) ⟨rfl, rfl⟩
  simp only [dispatch]
  generalize d.runStages (.start exchange) = ran at walked passed underway
  obtain ⟨p, fault | _ | receiver | _⟩ := ran
  · have concluded := passage_conclude tracks.keeps_running p underway.incomplete (some fault)
    exact ⟨_, .failed _ walked, passed.trans concluded⟩
  · have concluded := passage_conclude tracks.keeps_running p underway.incomplete none
    exact ⟨_, .done walked, passed.trans concluded⟩
  · exact ⟨entered, walked, passed⟩
  · exact ⟨entered, walked, passed⟩

/-- A finished dispatch has made a journey. -/
theorem Finished.passage {exchange : Exchange} {ending : Ending} {p : Progress}
    (finished : d.Finished exchange ending p) :
    ∃ entered, Journey d.multipart.isSome exchange.request.method.isGetOrHead ending entered ∧
      Passage running (Work.heldAfter running waiting (d.dispatch exchange)) entered exchange
        p.exchange := by
  have passed := passage_dispatch tracks exchange
  have spec := d.dispatch_spec exchange
  -- What is left of a dispatch is dropped in the end; that enters nothing once completion has run.
  cases finished with
  | returned ended =>
    rw [ended] at passed spec ⊢
    rw [d.cancel_of_completed spec.completed]
    exact passed
  | @droppedPending p ended =>
    rw [ended] at passed spec ⊢
    obtain ⟨entered, walked, passed⟩ := passed
    exact ⟨_, .droppedPending walked,
      passed.trans (passage_cancel tracks.keeps_running p spec.incomplete)⟩
  | @resumed s receiver timeout p left ended resumed =>
    rw [ended] at passed spec ⊢
    obtain ⟨entered, walked, passed⟩ := passed
    obtain ⟨outcome, -, answered⟩ := Option.map_eq_some_iff.mp resumed
    obtain ⟨handler, found⟩ := handler_of_waiting spec
    obtain ⟨more, walked', resumed⟩ := passage_resumeWith (tracks.keeps_waiting s.receiver)
      s.progress found spec.incomplete outcome
    have concluded := d.concluded_resumeWith spec outcome
    rw [show d.resumeWith s.progress outcome = (p, left) from answered] at walked' resumed concluded
    rw [d.cancel_of_completed concluded.completed]
    exact ⟨_, .resumed walked walked', passed.trans resumed⟩
  | @cancelled s ended =>
    rw [ended] at passed spec ⊢
    obtain ⟨entered, walked, passed⟩ := passed
    rw [cancelSuspended, d.cancel_of_completed (d.concluded_cancel spec).completed]
    exact ⟨_, .cancelled walked, passed.trans
      (passage_cancel (tracks.keeps_waiting s.receiver) s.progress spec.incomplete)⟩
  | @droppedSuspended s ended =>
    rw [ended] at passed spec ⊢
    obtain ⟨entered, walked, passed⟩ := passed
    exact ⟨_, .droppedSuspended walked, passed.trans
      (passage_cancel (tracks.keeps_waiting s.receiver) s.progress spec.incomplete)⟩

end Journeys

end Dispatcher

end HttpRouting
