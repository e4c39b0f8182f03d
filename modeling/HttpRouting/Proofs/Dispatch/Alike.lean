import HttpRouting.Dispatch.Run
import HttpRouting.Proofs.Dispatch.Hooks

/-!
Dispatches that nobody can tell apart.  Two exchanges are alike when all that they differ in is that
one of them has waited for its answer.  Who does not look at that does the same to both, and then the
rest of the dispatch is the same on both.
-/

set_option autoImplicit false
set_option relaxedAutoImplicit false

namespace HttpRouting

theorem Phases.union_right_comm (a b c : Phases) : (a.union b).union c = (a.union c).union b := by
  simp only [union, UInt32.or_assoc, UInt32.or_comm b.bits]

/-- All that can be seen of the work is the same. -/
structure Work.Alike (work work' : Work) : Prop where
  response : work'.response = work.response
  attributes : work'.attributes = work.attributes
  isAsync : work'.isAsync = work.isAsync

/-- Two exchanges are the same, except that the second one has waited. -/
structure Exchange.Alike (exchange exchange' : Exchange) : Prop where
  request : exchange'.request = exchange.request
  phases : exchange'.phases = exchange.phases.union .asyncStarted
  work : exchange.work.Alike exchange'.work

/-- One result, and states that are alike. -/
inductive AlikeWith {σ ρ : Type} (alike : σ → σ → Prop) : σ × ρ → σ × ρ → Prop
  | intro {state state' : σ} (states : alike state state') (result : ρ) :
      AlikeWith alike (state, result) (state', result)

theorem AlikeWith.states {σ ρ : Type} {alike : σ → σ → Prop} {answer answer' : σ × ρ}
    (same : AlikeWith alike answer answer') : alike answer.1 answer'.1 := by
  obtain ⟨states, _⟩ := same
  exact states

/-- Acting on alike exchanges has one result, and leaves work that is alike. -/
def ActsAlike {ρ : Type} (act : Exchange → Work × ρ) : Prop :=
  ∀ exchange exchange' : Exchange, exchange.Alike exchange' →
    AlikeWith Work.Alike (act exchange) (act exchange')

/-- All who take part in a dispatch after its handler has answered do not look at whether the exchange
has waited. -/
structure Dispatcher.Indifferent (d : Dispatcher) : Prop where
  postHandle : ∀ interceptor ∈ d.interceptors.interceptors, ∀ handler,
    ActsAlike fun exchange => interceptor.postHandle exchange handler
  afterCompletion : ∀ interceptor ∈ d.interceptors.interceptors, ∀ handler fault,
    ActsAlike fun exchange => interceptor.afterCompletion exchange handler fault
  resolvers : ∀ resolver ∈ d.resolvers, ∀ handler fault,
    ActsAlike fun exchange => resolver.resolve exchange handler fault
  cleanup : ∀ resolver ∈ d.multipart,
    ActsAlike fun exchange => (resolver.cleanup exchange, ())

/-- Whether an event is the call of a hook, a handler or a resolver in the course of every dispatch,
waiting or not. -/
def DispatchEvent.isCall : DispatchEvent → Bool
  | .answered _ | .asyncStarted _ _ | .delivered _ => false
  | .preHandle .. | .invoked _ | .postHandle .. | .offered .. | .completion .. => true

/-- The calls among events. -/
def calls (events : List DispatchEvent) : List DispatchEvent :=
  events.filter DispatchEvent.isCall

theorem calls_append (events more : List DispatchEvent) :
    calls (events ++ more) = calls events ++ calls more :=
  List.filter_append events more

/-- Interceptors find exchanges alike, and the same calls have been made. -/
structure InterceptorChain.Traced.Alike (traced traced' : InterceptorChain.Traced) : Prop where
  exchange : traced.exchange.Alike traced'.exchange
  calls : calls traced'.events = calls traced.events

/-- Two dispatches have come to the same point, except that the second one has waited. -/
structure Progress.Alike (p p' : Progress) : Prop where
  exchange : p.exchange.Alike p'.exchange
  handler : p'.handler = p.handler
  multipartResolved : p'.multipartResolved = p.multipartResolved
  completed : p'.completed = p.completed
  calls : calls p'.events = calls p.events

theorem Work.Alike.setAttribute {work work' : Work} (alike : work.Alike work') (name : String)
    (value : AttributeValue) : (work.setAttribute name value).Alike (work'.setAttribute name value) :=
  { alike with attributes := congrArg (·.insert name value) alike.attributes }

namespace Exchange.Alike

variable {exchange exchange' : Exchange} (alike : exchange.Alike exchange')

include alike

theorem enter (phase : Phases) : (exchange.enter phase).Alike (exchange'.enter phase) where
  request := alike.request
  phases := by
    rw [Exchange.enter, alike.phases]
    exact Phases.union_right_comm _ _ _
  work := alike.work

theorem act {work work' : Work} (work_alike : work.Alike work') :
    Alike { exchange with work } { exchange' with work := work' } :=
  ⟨alike.request, alike.phases, work_alike⟩

end Exchange.Alike

namespace Progress.Alike

variable {p p' : Progress} (alike : p.Alike p')

include alike

theorem enter (phase : Phases) : (p.enter phase).Alike (p'.enter phase) :=
  { alike with exchange := alike.exchange.enter phase }

theorem withWork {work work' : Work} (work_alike : work.Alike work') :
    (p.withWork work).Alike (p'.withWork work') :=
  { alike with exchange := alike.exchange.act work_alike }

/-- What is written into both responses may depend on what they were. -/
theorem withResponse (write : Response → Response) :
    (p.withResponse (write p.exchange.response)).Alike
      (p'.withResponse (write p'.exchange.response)) :=
  alike.withWork
    ⟨congrArg write alike.exchange.work.response, alike.exchange.work.attributes,
      alike.exchange.work.isAsync⟩

theorem note (event : DispatchEvent) : (p.note event).Alike (p'.note event) :=
  { alike with
    calls := by rw [Progress.note, Progress.note, calls_append, calls_append, alike.calls] }

theorem traced : p.traced.Alike p'.traced :=
  ⟨alike.exchange, alike.calls⟩

theorem withTraced {traced traced' : InterceptorChain.Traced} (traced_alike : traced.Alike traced') :
    (p.withTraced traced).Alike (p'.withTraced traced') :=
  { alike with exchange := traced_alike.exchange, calls := traced_alike.calls }

end Progress.Alike

namespace InterceptorChain

variable {traced traced' : Traced}

theorem Traced.Alike.after {work work' : Work} (alike : traced.Alike traced')
    (work_alike : work.Alike work') (event : DispatchEvent) :
    (traced.after work event).Alike (traced'.after work' event) where
  exchange := alike.exchange.act work_alike
  calls := by rw [Traced.after, Traced.after, calls_append, calls_append, alike.calls]

/-- Visits of interceptors come to the same when the hook does. -/
theorem alike_visit {ρ β : Type} {hook : Interceptor → Exchange → Work × ρ}
    (event : Nat → ρ → DispatchEvent) (stop? : ρ → Option β) {placed : List (Interceptor × Nat)}
    (indifferent : ∀ entry ∈ placed, ActsAlike (hook entry.1)) (alike : traced.Alike traced') :
    let step := fun place interceptor (traced : Traced) =>
      let (work, result) := hook interceptor traced.exchange
      (traced.after work (event place result), stop? result)
    AlikeWith Traced.Alike (visit step placed traced) (visit step placed traced') := by
  intro step
  induction placed generalizing traced traced' with
  | nil => exact .intro alike none
  | cons entry rest ih =>
    obtain ⟨interceptor, place⟩ := entry
    obtain ⟨here, there⟩ := List.forall_mem_cons.mp indifferent
    have done := here traced.exchange traced'.exchange alike.exchange
    simp only [visit, step]
    generalize hook interceptor traced.exchange = answer at done ⊢
    generalize hook interceptor traced'.exchange = answer' at done ⊢
    obtain ⟨work_alike, result⟩ := done
    have after_alike := alike.after work_alike (event place result)
    cases stop? result with
    | some stopped => exact .intro after_alike (some stopped)
    | none => exact ih there after_alike

theorem alike_run {ρ β : Type} (chain : InterceptorChain) (direction : Direction)
    {hook : Interceptor → Exchange → Work × ρ} (event : Nat → ρ → DispatchEvent)
    (stop? : ρ → Option β)
    (indifferent : ∀ interceptor ∈ chain.interceptors, ActsAlike (hook interceptor))
    (alike : traced.Alike traced') :
    AlikeWith Traced.Alike (chain.run direction hook event stop? traced)
      (chain.run direction hook event stop? traced') :=
  alike_visit event stop? (fun entry member => indifferent entry.1 (fst_mem_of_mem_placed member))
    alike

end InterceptorChain

namespace Dispatcher

variable {d : Dispatcher} (indifferent : d.Indifferent) {p p' : Progress} (alike : p.Alike p')

include indifferent alike

theorem alike_runPostHandle :
    AlikeWith Progress.Alike (d.runPostHandle p) (d.runPostHandle p') := by
  simp only [runPostHandle, alike.handler]
  cases p.handler with
  | none => exact .intro alike _
  | some handler =>
    have entered := alike.enter .postHandle
    have ran := d.interceptors.alike_run .reverse
      (fun place result => .postHandle place handler result) InterceptorChain.failure?
      (fun interceptor member => indifferent.postHandle interceptor member handler) entered.traced
    simp only [InterceptorChain.postHandle]
    generalize d.interceptors.run .reverse _ _ _ (p.enter .postHandle).traced = answer at ran ⊢
    generalize d.interceptors.run .reverse _ _ _ (p'.enter .postHandle).traced = answer' at ran ⊢
    obtain ⟨ran, stopped⟩ := ran
    exact .intro (entered.withTraced ran) _

/-- An answer is written alike. -/
theorem alike_applyOutput (output : HandlerOutput) :
    AlikeWith Progress.Alike (d.applyOutput p output) (d.applyOutput p' output) := by
  have ran := alike_runPostHandle indifferent alike
  simp only [applyOutput]
  generalize d.runPostHandle p = answer at ran
  generalize d.runPostHandle p' = answer' at ran
  obtain ⟨ran, result⟩ := ran
  cases result with
  | error error => exact .intro ran _
  | ok _ => exact .intro ((ran.enter .resultProcessing).withResponse output.writeTo) _

theorem alike_offer (fault : DispatchFault) {placed : List (FaultResolver × Nat)}
    (known : ∀ entry ∈ placed, entry.1 ∈ d.resolvers) :
    AlikeWith Progress.Alike (offer fault placed p) (offer fault placed p') := by
  induction placed generalizing p p' with
  | nil => exact .intro alike false
  | cons entry rest ih =>
    obtain ⟨resolver, place⟩ := entry
    obtain ⟨known_here, known_rest⟩ := List.forall_mem_cons.mp known
    have resolved : AlikeWith Work.Alike (resolver.resolve p.exchange p.handler fault)
        (resolver.resolve p'.exchange p.handler fault) :=
      indifferent.resolvers resolver known_here p.handler fault _ _ alike.exchange
    rw [offer, offer, alike.handler]
    generalize resolver.resolve p.exchange p.handler fault = answer at resolved
    generalize resolver.resolve p'.exchange p.handler fault = answer' at resolved
    obtain ⟨work_alike, handled⟩ := resolved
    have noted := (alike.withWork work_alike).note (.offered place p.handler fault handled)
    cases handled with
    | true => exact .intro noted true
    | false => exact ih noted known_rest

/-- A fault is handled alike, or it is left. -/
theorem alike_processFault (fault : DispatchFault) :
    AlikeWith Progress.Alike (d.processFault fault p) (d.processFault fault p') := by
  have begun := (alike.enter .exceptionHandling).withResponse
    fun response => { response with body := none }
  have known (entry : FaultResolver × Nat) (member : entry ∈ d.resolvers.zipIdx) :
      entry.1 ∈ d.resolvers := List.fst_mem_of_mem_zipIdx member
  have offered := alike_offer indifferent begun fault known
  simp only [processFault]
  generalize offer fault d.resolvers.zipIdx _ = answer at offered
  generalize offer fault d.resolvers.zipIdx _ = answer' at offered
  obtain ⟨offered, handled⟩ := offered
  cases handled with
  | false => exact .intro offered (some fault)
  | true =>
    have entered := offered.enter .resultProcessing
    exact .intro (entered.withWork (entered.exchange.work.setAttribute _ _)) none

/-- All completion hooks do the same, and the request in parts is cleaned up alike. -/
theorem alike_complete (fault : Option DispatchFault) :
    (d.complete fault p).Alike (d.complete fault p') := by
  have cleanup := indifferent.cleanup
  obtain ⟨exchange, handler, resolved, completed, events⟩ := p
  obtain ⟨exchange', handler', resolved', completed', events'⟩ := p'
  obtain ⟨exchange_alike, same_handler, same_resolved, same_completed, same_calls⟩ := alike
  -- Everything but exchange and events is the same in both, so that one case split serves both.
  obtain rfl : handler' = handler := same_handler
  obtain rfl : resolved' = resolved := same_resolved
  obtain rfl : completed' = completed := same_completed
  cases completed' with
  | true => exact ⟨exchange_alike, rfl, rfl, rfl, same_calls⟩
  | false =>
    let begun : Progress := ⟨exchange, handler', resolved', true, events⟩
    let begun' : Progress := ⟨exchange', handler', resolved', true, events'⟩
    have begun_alike : begun.Alike begun' := ⟨exchange_alike, rfl, rfl, rfl, same_calls⟩
    have entered := begun_alike.enter .completion
    have ran := d.interceptors.alike_run .reverse
      (fun place _ => .completion place handler' fault) (fun _ => (none : Option Unit))
      (fun interceptor member => indifferent.afterCompletion interceptor member handler' fault)
      entered.traced
    have run_alike := entered.withTraced ran.states
    simp only [complete, Bool.false_eq_true, if_false]
    cases resolved' with
    | false => exact run_alike
    | true =>
      cases found : d.multipart with
      | none => exact run_alike
      | some resolver => exact run_alike.withWork (cleanup resolver found _ _ run_alike.exchange).states

/-- A dispatch comes to its end alike. -/
theorem alike_conclude (pending : Option DispatchFault) :
    AlikeWith Progress.Alike (d.conclude pending p) (d.conclude pending p') := by
  cases pending with
  | none => exact .intro (alike_complete indifferent alike none) none
  | some fault =>
    have processed := alike_processFault indifferent alike fault
    simp only [conclude]
    generalize d.processFault fault p = answer at processed
    generalize d.processFault fault p' = answer' at processed
    obtain ⟨processed, left⟩ := processed
    exact .intro (alike_complete indifferent processed left) left

end Dispatcher

end HttpRouting
