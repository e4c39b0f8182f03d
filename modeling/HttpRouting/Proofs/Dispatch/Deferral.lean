import HttpRouting.Proofs.Dispatch.Passage

/-!
What becomes of deferred results.  An exchange keeps the receiver of the last result that was handed
out, and all others are cancelled.  The receiver is taken out of the exchange at one point only, when
the handler has answered and the dispatch begins to wait; one that comes later, or in a dispatch that
never gets there, is left in the exchange.
-/

set_option autoImplicit false
set_option relaxedAutoImplicit false

namespace HttpRouting

/-- What others may do to the work on an exchange: write the response and the attributes, and answer
later; meanwhile an outcome may be delivered at a result that was handed out, or the result given
up. -/
inductive Work.Continues : Work → Work → Prop
  | written (work : Work) (response : Response) (attributes : Attributes) :
      Continues work { work with response, attributes }
  | startAsync (work : Work) : Continues work work.startAsync.2
  | delivered (work : Work) (result : DeferredResult) (outcome : DeferredOutcome) :
      Continues work { work with receiver := work.receiver.map fun r => r.deliver result outcome }
  | abandoned (work : Work) (result : DeferredResult) :
      Continues work { work with receiver := work.receiver.map fun r => r.abandon result }
  | trans {work work' work'' : Work} :
      Continues work work' → Continues work' work'' → Continues work work''

theorem Work.Continues.refl (work : Work) : Continues work work :=
  .written work work.response work.attributes

/-- The work goes on from where an exchange has it. -/
def Work.Advances (act : Exchange → Work) : Prop :=
  ∀ exchange : Exchange, exchange.work.Continues (act exchange)

/-- All who take part in a dispatch do only what others may do. -/
def Dispatcher.Lawful (d : Dispatcher) : Prop :=
  d.Acts Work.Advances

/-- The handlers of an application do only what others may do. -/
structure Application.Lawful (app : Application) : Prop where
  invoke : ∀ number method, Work.Advances fun exchange => (app.invoke number method exchange).1
  serve : ∀ number, Work.Advances fun exchange => (app.serve number exchange).1

/-- Of the results handed out since a number the last one is waited for, and no other result is. -/
structure Work.LastWaited (since : Nat) (work : Work) : Prop where
  since_le : since ≤ work.handedOut
  receiver : work.receiver.map (fun receiver => receiver.number + 1) =
    if since < work.handedOut then some work.handedOut else none

/-- How many results have been handed out when a dispatch takes the receiver to wait; one that does
not wait leaves things as they were at its beginning. -/
def Dispatched.settled (begun : Nat) : Dispatched → Nat
  | .suspended s => s.receiver.number + 1
  | .finished _ _ | .pending _ => begun

namespace Receiver

theorem number_deliver (receiver : Receiver) (result : DeferredResult)
    (outcome : DeferredOutcome) : (receiver.deliver result outcome).number = receiver.number := by
  rw [deliver]
  split <;> rfl

theorem number_abandon (receiver : Receiver) (result : DeferredResult) :
    (receiver.abandon result).number = receiver.number := by
  rw [abandon]
  split <;> rfl

end Receiver

/-- What is delivered at a result that is cancelled reaches no receiver. -/
theorem DeferredResult.deliver_of_isCancelled {result : DeferredResult} {receivers : List Receiver}
    (cancelled : result.isCancelled receivers = true) (outcome : DeferredOutcome) :
    receivers.map (fun receiver => receiver.deliver result outcome) = receivers := by
  refine (List.map_congr_left fun receiver member => ?_).trans (List.map_id receivers)
  have other : receiver.awaits result = false := by
    simp only [isCancelled, Bool.not_eq_true', List.any_eq_false, Bool.not_eq_true] at cancelled
    exact cancelled receiver member
  simp [Receiver.deliver, other]

namespace Work

variable {since : Nat} {work work' : Work}

/-- In an exchange in which nothing is waited for, results count from now on. -/
theorem lastWaited_of_idle (work : Work) (idle : work.receiver = none) :
    work.LastWaited work.handedOut :=
  ⟨Nat.le_refl _, by rw [idle, if_neg (Nat.lt_irrefl _), Option.map_none]⟩

/-- What happens to a receiver without a change of its number makes no difference. -/
theorem LastWaited.map_receiver {change : Receiver → Receiver} (waited : work.LastWaited since)
    (same : ∀ receiver, (change receiver).number = receiver.number) :
    { work with receiver := work.receiver.map change }.LastWaited since := by
  refine ⟨waited.since_le, ?_⟩
  rw [← waited.receiver, Option.map_map]
  exact congrArg (work.receiver.map ·) (funext fun receiver => congrArg (· + 1) (same receiver))

/-- Whatever others do, the last result remains the one that is waited for. -/
theorem LastWaited.continues (waited : work.LastWaited since) (continues : work.Continues work') :
    work'.LastWaited since := by
  -- Only handing a result out changes the numbers, and its receiver is the one that is kept then.
  induction continues with
  | written work response attributes => exact ⟨waited.since_le, waited.receiver⟩
  | startAsync work =>
    have since_lt : since < work.handedOut + 1 := Nat.lt_succ_of_le waited.since_le
    exact ⟨Nat.le_of_lt since_lt, (if_pos since_lt).symm⟩
  | delivered work result outcome =>
    exact waited.map_receiver fun receiver => receiver.number_deliver result outcome
  | abandoned work result =>
    exact waited.map_receiver fun receiver => receiver.number_abandon result
  | trans _ _ ih ih' => exact ih' (ih waited)

/-- Nothing is waited for when the receiver is taken out, until another result is handed out. -/
theorem LastWaited.taken {receiver : Receiver} (waited : work.LastWaited since)
    (left : work.receiver = some receiver) :
    { work with receiver := none }.LastWaited (receiver.number + 1) := by
  have last := waited.receiver
  rw [left, Option.map_some] at last
  split at last
  · have all : receiver.number + 1 = work.handedOut := Option.some.inj last
    exact ⟨Nat.le_of_eq all, (if_neg (Nat.not_lt.mpr (Nat.le_of_eq all.symm))).symm⟩
  · cases last

theorem LastWaited.isAsync_iff (waited : work.LastWaited since) :
    work.isAsync = true ↔ since < work.handedOut := by
  rw [isAsync, ← Option.isSome_map, waited.receiver]
  split <;> simp [*]

/-- The last result, and no other, is not cancelled. -/
theorem LastWaited.isCancelled_iff (waited : work.LastWaited since) (result : DeferredResult) :
    result.isCancelled work.receivers = false ↔
      since < work.handedOut ∧ result.number + 1 = work.handedOut := by
  have last := waited.receiver
  rw [DeferredResult.isCancelled, receivers]
  cases left : work.receiver with
  | none =>
    rw [left, Option.map_none] at last
    split at last
    · cases last
    · next none_since => simp [none_since]
  | some receiver =>
    rw [left, Option.map_some] at last
    split at last
    · next since_lt =>
      have all : receiver.number + 1 = work.handedOut := Option.some.inj last
      simp only [Option.toList_some, List.any_cons, List.any_nil, Bool.or_false, Receiver.awaits,
        Bool.not_eq_false', beq_iff_eq, since_lt, true_and]
      omega
    · cases last

theorem heldAfter_lastWaited (dispatched : Dispatched) (since : Nat) :
    heldAfter (LastWaited since) (fun receiver => LastWaited (receiver.number + 1)) dispatched =
      LastWaited (dispatched.settled since) := by
  cases dispatched <;> rfl

end Work

section Parts

variable {app : Application}

theorem Application.Lawful.invokeMethod (lawful : app.Lawful) (h : HandlerMethod) :
    Work.Advances fun exchange => (app.invokeMethod h exchange).1 := by
  intro exchange
  dsimp only [Application.invokeMethod]
  split
  · exact .refl _
  · split
    · exact lawful.invoke _ _ exchange
    · exact .refl _
    · simp only [Application.answerAllowed]
      split
      · exact .refl _
      · exact .written _ _ _

theorem Application.Lawful.serveRequest (lawful : app.Lawful) (h : RequestHandler) :
    Work.Advances fun exchange => (app.serveRequest h exchange).1 := by
  intro exchange
  cases h with
  | application number name => exact lawful.serve number exchange
  | preflight policy => exact .written _ _ _
  | rejected => exact .refl _

theorem Adapter.advances_forMethods (lawful : app.Lawful) (handler : Handler) :
    Work.Advances fun exchange => ((Adapter.forMethods app).handle exchange handler).1 := by
  cases handler with
  | method h => exact lawful.invokeMethod h
  | request h => exact fun exchange => .refl exchange.work

theorem Adapter.advances_forRequestHandlers (lawful : app.Lawful) (handler : Handler) :
    Work.Advances fun exchange => ((Adapter.forRequestHandlers app).handle exchange handler).1 := by
  cases handler with
  | method h => exact fun exchange => .refl exchange.work
  | request h =>
    intro exchange
    have served := lawful.serveRequest h exchange
    dsimp only [Adapter.forRequestHandlers]
    split <;> simpa [*] using served

theorem FaultResolver.advances_byStatus (handler : Option Handler) (fault : DispatchFault) :
    Work.Advances fun exchange => (FaultResolver.byStatus.resolve exchange handler fault).1 := by
  intro exchange
  dsimp only [FaultResolver.byStatus]
  split
  · exact .refl _
  · exact .written _ _ _

theorem Interceptor.acts_silent : Interceptor.silent.Acts Work.Advances where
  preHandle _ exchange := .refl exchange.work
  postHandle _ exchange := .refl exchange.work
  afterCompletion _ _ exchange := .refl exchange.work
  afterAsyncStart _ exchange := .refl exchange.work

/-- What a dispatcher has when nothing else is given does only what others may do. -/
theorem Dispatcher.Lawful.build {d : Dispatcher} (lawful : d.Lawful) (app_lawful : app.Lawful) :
    (Dispatcher.build app d).Lawful := by
  refine { lawful with adapters := ?_, resolvers := ?_ }
  · intro adapter member
    simp only [Dispatcher.build] at member
    split at member
    · rcases List.mem_pair.mp member with rfl | rfl
      · exact Adapter.advances_forMethods app_lawful
      · exact Adapter.advances_forRequestHandlers app_lawful
    · exact lawful.adapters adapter member
  · intro resolver member
    simp only [Dispatcher.build] at member
    split at member
    · rw [List.mem_singleton.mp member]
      exact FaultResolver.advances_byStatus
    · exact lawful.resolvers resolver member

end Parts

namespace Dispatcher

/-- While the stages run the last result handed out since the beginning is waited for, and once the
dispatch has begun to wait the last one since then. -/
theorem Lawful.tracks {d : Dispatcher} (lawful : d.Lawful) (since : Nat) :
    d.Tracks (Work.LastWaited since) fun receiver => Work.LastWaited (receiver.number + 1) := by
  have keeps (since : Nat) : d.Keeps (Work.LastWaited since) :=
    { lawful.imp fun act continues exchange waited => waited.continues (continues exchange) with
      written := fun work response attributes waited =>
        waited.continues (.written work response attributes) }
  exact ⟨keeps since, fun receiver => keeps (receiver.number + 1),
    fun _ _ waited left => waited.taken left⟩

end Dispatcher

/-- For every dispatcher, whatever its mappings, adapters, hooks, resolvers and handlers do within
what they may, every exchange, of which the last result handed out since a number is waited for, and
every way in which its dispatch ends: the exchange still waits for an answer exactly when a result was
handed out after the dispatch had begun to wait, or since that number if it never did.  Then the last
result is not cancelled, and all others are. -/
theorem isAsync_iff_of_finished (d : Dispatcher) (lawful : d.Lawful) (exchange : Exchange)
    (since : Nat) (begun : exchange.work.LastWaited since) (ending : Ending) (p : Progress)
    (finished : d.Finished exchange ending p) :
    let settled := (d.dispatch exchange).settled since
    (p.exchange.work.isAsync = true ↔ settled < p.exchange.work.handedOut) ∧
      ∀ result : DeferredResult, result.isCancelled p.exchange.work.receivers = false ↔
        settled < p.exchange.work.handedOut ∧ result.number + 1 = p.exchange.work.handedOut := by
  intro settled
  obtain ⟨entered, -, passed⟩ := finished.passage (lawful.tracks since)
  have waited : p.exchange.work.LastWaited settled := by
    rw [← Work.heldAfter_lastWaited]
    exact passed.work begun
  exact ⟨waited.isAsync_iff, waited.isCancelled_iff⟩

/-- A dispatcher whose one handler hands a deferred result out and then comes to a result itself. -/
def Dispatcher.answeringLater (result : Except HandlerError Unit) : Dispatcher :=
  let later : HandlerMapping :=
    ⟨"later", fun exchange => (exchange.work, .ok (some (.request (.application 0 "later"))))⟩
  let app : Application :=
    { invoke := fun _ _ exchange => (exchange.work, .pending)
      methodChanged := fun _ _ _ => none
      serve := fun _ exchange => (exchange.work.startAsync.2, .finished result)
      handlerChanged := fun _ _ => none }
  .build app ⟨[later], [], ⟨[.silent]⟩, [], none, .standard⟩

theorem Dispatcher.lawful_answeringLater (result : Except HandlerError Unit) :
    (Dispatcher.answeringLater result).Lawful := by
  refine Dispatcher.Lawful.build ?_ ?_
  · constructor
    case mappings =>
      intro mapping member
      rw [List.mem_singleton.mp member]
      exact fun exchange => .refl exchange.work
    case interceptors =>
      intro interceptor member
      rw [List.mem_singleton.mp member]
      exact Interceptor.acts_silent
    all_goals nofun
  · exact ⟨fun _ _ exchange => .refl exchange.work, fun _ exchange => .startAsync exchange.work⟩

/-- A handler that answers later, but not in time: nothing is waited for any more. -/
theorem isAsync_timeout :
    let d := Dispatcher.answeringLater (.ok ())
    let exchange := Exchange.ofRequest ⟨⟨[]⟩, .get, "/later", [], .empty, []⟩
    ∃ p, d.Lawful ∧ d.Finished exchange (.resumed none) p ∧ p.exchange.work.handedOut = 1 ∧
      p.exchange.work.isAsync = false ∧
        DeferredResult.isCancelled ⟨0⟩ p.exchange.work.receivers = true := by
  intro d exchange
  have lawful : d.Lawful := Dispatcher.lawful_answeringLater (.ok ())
  have finished := @Dispatcher.Finished.resumed d exchange _ (.fresh 0) (some 100) _ none rfl rfl
  have begun : exchange.work.LastWaited 0 := Work.lastWaited_of_idle exchange.work rfl
  obtain ⟨async_iff, live_iff⟩ := isAsync_iff_of_finished d lawful exchange 0 begun _ _ finished
  refine ⟨_, lawful, finished, rfl, ?_, ?_⟩
  · exact Bool.eq_false_iff.mpr fun async => Nat.lt_irrefl 1 (async_iff.mp async)
  · exact Bool.of_not_eq_false fun live => Nat.lt_irrefl 1 ((live_iff ⟨0⟩).mp live).1

/-- A handler that hands a deferred result out and then fails: the dispatch has returned the failure,
and the result is still waited for. -/
theorem isAsync_of_failed_handler :
    let d := Dispatcher.answeringLater (.error (.failed "x"))
    let exchange := Exchange.ofRequest ⟨⟨[]⟩, .get, "/later", [], .empty, []⟩
    ∃ p, d.Lawful ∧ d.Finished exchange (.returned (some (.handler (.failed "x")))) p ∧
      p.exchange.work.isAsync = true ∧
        DeferredResult.isCancelled ⟨0⟩ p.exchange.work.receivers = false :=
  ⟨_, Dispatcher.lawful_answeringLater _, .returned rfl, rfl, rfl⟩

end HttpRouting
