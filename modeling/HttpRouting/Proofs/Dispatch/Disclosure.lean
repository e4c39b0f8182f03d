import HttpRouting.Dispatch.Run

/-!
What the response to a fault discloses.  The status of a fault depends on its variant alone, and when it
is one of the server, so does the response: the texts that the fault carries stay out of it.  The one
exception is the failure for which the handler itself has chosen a status and the words.
-/

set_option autoImplicit false
set_option relaxedAutoImplicit false

namespace HttpRouting

namespace DispatchFault

/-- The handler has chosen the status of the fault and the words. -/
def ChosenByHandler (fault : DispatchFault) : Prop :=
  ∃ status reason, fault = .handler (.status status reason)

/-- Faults that differ at most in what they carry. -/
inductive SameVariant : DispatchFault → DispatchFault → Prop
  | mapping {a b : MappingError} : a.ctorIdx = b.ctorIdx → SameVariant (.mapping a) (.mapping b)
  | handler {a b : HandlerError} : a.ctorIdx = b.ctorIdx → SameVariant (.handler a) (.handler b)
  | noAdapter (a b : String) : SameVariant (.noAdapter a) (.noAdapter b)
  | cancelled : SameVariant .cancelled .cancelled

end DispatchFault

namespace FaultResolver

variable {fault other : DispatchFault} {status : Status}

theorem mappingStatus_eq {a b : MappingError} (same : a.ctorIdx = b.ctorIdx) :
    mappingStatus a = mappingStatus b := by
  -- Pairs of one variant have one status by definition; all other pairs have different numbers.
  cases a <;> cases b <;> first | rfl | cases same

theorem handlerStatus?_eq {a b : HandlerError} (same : a.ctorIdx = b.ctorIdx)
    (unchosen : ¬ (DispatchFault.handler a).ChosenByHandler) : handlerStatus? a = handlerStatus? b := by
  cases a <;> cases b <;> first | rfl | exact absurd ⟨_, _, rfl⟩ unchosen | cases same

/-- The status of a fault depends on its variant alone, unless the handler has chosen it. -/
theorem status?_eq_of_sameVariant (same : fault.SameVariant other)
    (unchosen : ¬ fault.ChosenByHandler) : status? fault = status? other := by
  cases same with
  | mapping same => exact congrArg some (mappingStatus_eq same)
  | handler same => exact handlerStatus?_eq same unchosen
  | noAdapter a b => rfl
  | cancelled => rfl

theorem reason_of_unchosen (unchosen : ¬ fault.ChosenByHandler) : reason fault status =
    if isServerFault status then status.reason?.getD "" else fault.message := by
  unfold reason
  split
  · exact absurd ⟨_, _, rfl⟩ unchosen
  · rfl

/-- Faults of the server have one of two statuses, and there is no advice for them. -/
theorem serverFault_cases (answered : status? fault = some status) (of_server : 500 ≤ status.code)
    (unchosen : ¬ fault.ChosenByHandler) :
    (status = .internalServerError ∨ status = .serviceUnavailable) ∧
      ∀ headers, adviceFields fault headers = headers := by
  -- Variants with a smaller status contradict `of_server`; only those with advice are among them.
  cases fault with
  | mapping error =>
    cases answered
    cases error <;>
      first
        | exact ⟨.inl rfl, fun _ => rfl⟩
        | exact absurd of_server (of_decide_eq_false rfl)
  | handler error =>
    cases error <;> cases answered <;>
      first
        | exact absurd ⟨_, _, rfl⟩ unchosen
        | exact ⟨.inl rfl, fun _ => rfl⟩
        | exact ⟨.inr rfl, fun _ => rfl⟩
        | exact absurd of_server (of_decide_eq_false rfl)
  | noAdapter name => cases answered
  | cancelled => cases answered

/-- A fault that is put down to the server brings nothing of its own into the response. -/
theorem writeFault_eq_sendError (answered : status? fault = some status) (of_server : 500 ≤ status.code)
    (unchosen : ¬ fault.ChosenByHandler) (response : Response) :
    writeFault fault status response = response.sendError status (status.reason?.getD "") := by
  obtain ⟨fixed, no_advice⟩ := serverFault_cases answered of_server unchosen
  have server_fault : isServerFault status = true := by
    rcases fixed with rfl | rfl <;> rfl
  rw [writeFault, reason_of_unchosen unchosen, if_pos server_fault]
  simp only [no_advice]

end FaultResolver

namespace Dispatcher

open FaultResolver

variable {d : Dispatcher} {fault : DispatchFault} {p : Progress}

theorem processFault_of_answered (default : d.resolvers = [.byStatus]) {status : Status}
    (answered : status? fault = some status) (p : Progress) :
    (d.processFault fault p).1.exchange.response =
        writeFault fault status { p.exchange.response with body := none } ∧
      (d.processFault fault p).2 = none := by
  simp only [processFault, default, List.zipIdx_cons, List.zipIdx_nil, offer, byStatus, answered]
  exact ⟨rfl, rfl⟩

theorem processFault_of_unanswered (default : d.resolvers = [.byStatus])
    (unanswered : status? fault = none) (p : Progress) :
    (d.processFault fault p).1.exchange.response = { p.exchange.response with body := none } ∧
      (d.processFault fault p).2 = some fault := by
  simp only [processFault, default, List.zipIdx_cons, List.zipIdx_nil, offer, byStatus, unanswered]
  exact ⟨rfl, rfl⟩

/-- What a dispatcher that answers faults by their statuses discloses.

Two faults that are put down to the server under one status, and that no handler has chosen, end in the
same response, if the header fields were the same before: neither the texts of the faults nor what was
written before show.

Every fault is handled or left.  It is handled just when it has a status, which is then the status of the
response and of all faults of the variant, unless the handler has chosen it.  A fault that is left, as all
faults of its variant are, changes neither the status nor the header fields. -/
theorem processFault_discloses_status (default : d.resolvers = [.byStatus]) :
    (∀ fault fault' p p' status, status? fault = some status → status? fault' = some status →
      500 ≤ status.code → ¬ fault.ChosenByHandler → ¬ fault'.ChosenByHandler →
        p.exchange.response.headers = p'.exchange.response.headers →
          (d.processFault fault p).1.exchange.response =
            (d.processFault fault' p').1.exchange.response) ∧
    ∀ fault p,
      let processed := d.processFault fault p
      let response := processed.1.exchange.response
      (processed.2 = none ∧ ((∃ reason, fault = .handler (.status response.status reason)) ∨
        ∀ fault', fault.SameVariant fault' →
          ∀ p', (d.processFault fault' p').2 = none ∧
            (d.processFault fault' p').1.exchange.response.status = response.status)) ∨
      (processed.2 = some fault ∧ response.status = p.exchange.response.status ∧
        response.headers = p.exchange.response.headers ∧
        ∀ fault', fault.SameVariant fault' → ∀ p', (d.processFault fault' p').2 = some fault') := by
  constructor
  · intro fault fault' p p' status answered answered' of_server unchosen unchosen' same_headers
    rw [(processFault_of_answered default answered p).1,
      (processFault_of_answered default answered' p').1,
      writeFault_eq_sendError answered of_server unchosen,
      writeFault_eq_sendError answered' of_server unchosen', Response.sendError, Response.sendError,
      same_headers]
  · intro fault p processed response
    cases answered : status? fault with
    | some status =>
      obtain ⟨written, handled⟩ := processFault_of_answered default answered p
      have status_eq : response.status = status := congrArg Response.status written
      refine .inl ⟨handled, ?_⟩
      rw [status_eq]
      by_cases chosen : fault.ChosenByHandler
      · obtain ⟨code, reason, rfl⟩ := chosen
        cases answered
        exact .inl ⟨reason, rfl⟩
      · right
        intro fault' same p'
        rw [status?_eq_of_sameVariant same chosen] at answered
        obtain ⟨written', handled'⟩ := processFault_of_answered default answered p'
        exact ⟨handled', congrArg Response.status written'⟩
    | none =>
      obtain ⟨unwritten, left⟩ := processFault_of_unanswered default answered p
      have unchosen : ¬ fault.ChosenByHandler := by
        rintro ⟨code, reason, rfl⟩
        cases answered
      have status_eq : response.status = _ := congrArg Response.status unwritten
      have headers_eq : response.headers = _ := congrArg Response.headers unwritten
      refine .inr ⟨left, status_eq, headers_eq, fun fault' same p' => ?_⟩
      rw [status?_eq_of_sameVariant same unchosen] at answered
      exact (processFault_of_unanswered default answered p').2

/-- Two faults of the server with texts of their own, in dispatches that have written different things, and
a plain failure that is left. -/
theorem ambiguity_and_missing_bean_alike :
    let silent : Application :=
      ⟨fun _ _ exchange => (exchange.work, .pending), fun _ _ _ => none,
        fun _ exchange => (exchange.work, .pending), fun _ _ => none⟩
    let d := Dispatcher.build silent ⟨[], [], ⟨[]⟩, [], none, .standard⟩
    let p := Progress.start (.ofRequest ⟨⟨[]⟩, .get, "/users", [], .empty, []⟩)
    let written := p.withResponse { p.exchange.response with status := .notFound, body := some [0x68, 0x61] }
    let ambiguous := DispatchFault.mapping (.ambiguousHandler "/users" "Users#list" "Users#all")
    let missing := DispatchFault.mapping (.bean (.missing "users"))
    let failed := DispatchFault.handler (.failed "no connection")
    ambiguous.message ≠ missing.message ∧
      (d.processFault ambiguous p).1.exchange.response =
        (d.processFault missing written).1.exchange.response ∧
      (d.processFault failed written).2 = some failed ∧
      (d.processFault failed written).1.exchange.response.status = .notFound := by
  intro silent d p written ambiguous missing failed
  obtain ⟨alike, handled_or_left⟩ := processFault_discloses_status (d := d) rfl
  have same : (d.processFault ambiguous p).1.exchange.response =
      (d.processFault missing written).1.exchange.response :=
    alike ambiguous missing p written .internalServerError rfl rfl (by decide) nofun nofun rfl
  rcases handled_or_left failed written with ⟨handled, -⟩ | ⟨left, status, -⟩
  · cases handled
  · exact ⟨by decide, same, left, status⟩

end Dispatcher

end HttpRouting
