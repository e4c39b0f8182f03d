import HttpRouting.Proofs.Dispatch.Passage
import Mathlib.Tactic.MkIffOfInductiveProp

/-!
The phases of a finished dispatch tell of a legal path.  Which phases there are says which stages the
request has reached, in their order, whether its resource was compared with the copy of the client,
whether its handler was found, answered, waited for or given up, and whether a fault was handled.
-/

set_option autoImplicit false
set_option relaxedAutoImplicit false

namespace HttpRouting

instance : Membership Phases Phases :=
  ⟨fun phases flag => phases.allSet flag = true⟩

instance (flag phases : Phases) : Decidable (flag ∈ phases) :=
  inferInstanceAs (Decidable (phases.allSet flag = true))

/-- Whether a dispatch hands a fault back that nobody handled. -/
def Ending.isFailure : Ending → Bool
  | .returned left | .resumed left => left.isSome
  | .droppedPending | .cancelled | .droppedSuspended => false

/-- The phases of a dispatch that has come to its end, of a request that only reads a resource or of
another, with a failure or without. -/
@[mk_iff]
structure LegalPath (read failed : Bool) (phases : Phases) : Prop where
  start : .start ∈ phases
  completion : .completion ∈ phases
  postHandle : .postHandle ∈ phases → .invoke ∈ phases
  invoke : .invoke ∈ phases → .preHandle ∈ phases
  preHandle : .preHandle ∈ phases → .adapterLookup ∈ phases
  adapterLookup : .adapterLookup ∈ phases → .routeLookup ∈ phases
  cacheCheck_of_read : read = true → .preHandle ∈ phases ∨ .notModified ∈ phases →
    .cacheCheck ∈ phases
  cacheCheck : .cacheCheck ∈ phases → read = true
  noHandler : .noHandler ∈ phases → .routeLookup ∈ phases ∧ .adapterLookup ∉ phases
  notModified : .notModified ∈ phases →
    .preHandle ∉ phases ∧ .exceptionHandling ∉ phases ∧ .resultProcessing ∉ phases
  asyncStarted : .asyncStarted ∈ phases → .invoke ∈ phases
  resultProcessing : .resultProcessing ∈ phases → .postHandle ∈ phases ∨ .exceptionHandling ∈ phases
  cancelled : .cancelled ∈ phases → .exceptionHandling ∉ phases
  answered : .invoke ∈ phases → .exceptionHandling ∉ phases → .cancelled ∉ phases →
    .postHandle ∈ phases ∧ .resultProcessing ∈ phases
  failure : failed = true → .exceptionHandling ∈ phases

set_option synthInstance.maxSize 1024 in
instance (read failed : Bool) (phases : Phases) : Decidable (LegalPath read failed phases) :=
  decidable_of_iff' _ (legalPath_iff read failed phases)

variable {parts read : Bool} {receiver : Receiver} {entered : List Phases}

/-- The phases up to a handler that never ends. -/
theorem StageWalk.eq_of_pending (walked : StageWalk parts read (.ok .pending) entered) :
    entered = approach parts ++ .routeLookup :: (.adapterLookup ::
      (if read then [.cacheCheck] else []) ++ [.preHandle, .invoke]) := by
  cases walked with
  | served walked =>
    cases walked with
    | invoked walked =>
      cases walked with
      | pending => rfl

/-- The phases up to the point where a dispatch waits. -/
theorem StageWalk.eq_of_suspended (walked : StageWalk parts read (.ok (.suspended receiver)) entered) :
    entered = approach parts ++ .routeLookup :: (.adapterLookup ::
      (if read then [.cacheCheck] else []) ++ [.preHandle, .invoke, .asyncStarted]) := by
  cases walked with
  | served walked =>
    cases walked with
    | invoked walked =>
      cases walked with
      | suspended => rfl

/-- A dispatch whose stages leave nothing to do has a legal path. -/
theorem StageWalk.legalPath_done (walked : StageWalk parts read (.ok .done) entered) :
    LegalPath read false (Phases.none.after (entered ++ concluding false false)) := by
  -- The phases of a walk are a closed list but for two flags, and for each of these it is decided.
  cases walked with
  | missed => decide +kernel +revert
  | served walked =>
    cases walked with
    | unchanged reads => subst reads; decide +kernel +revert
    | invoked walked =>
      cases walked with
      | stopped => decide +kernel +revert
      | written => decide +kernel +revert

/-- A dispatch whose stages end in a fault has a legal path, whether the fault is handled or left. -/
theorem StageWalk.legalPath_error {fault : DispatchFault} (left : Bool)
    (walked : StageWalk parts read (.error fault) entered) :
    LegalPath read left (Phases.none.after (entered ++ concluding true left)) := by
  cases walked with
  | unprepared => decide +kernel +revert
  | unrouted => decide +kernel +revert
  | missFault => decide +kernel +revert
  | served walked =>
    cases walked with
    | unadapted => decide +kernel +revert
    | invoked walked =>
      cases walked with
      | refused => decide +kernel +revert
      | failed => decide +kernel +revert
      | unwritten => decide +kernel +revert

/-- A dispatch that goes on after it has waited has a legal path. -/
theorem ResumeWalk.legalPath {left : Option DispatchFault} {more : List Phases}
    (walked : StageWalk parts read (.ok (.suspended receiver)) entered)
    (resumed : ResumeWalk left more) :
    LegalPath read left.isSome (Phases.none.after (entered ++ more)) := by
  rw [walked.eq_of_suspended]
  clear walked
  cases resumed with
  | failed =>
    generalize left.isSome = unhandled
    revert parts read unhandled
    decide +kernel
  | unwritten =>
    generalize left.isSome = unhandled
    revert parts read unhandled
    decide +kernel
  | written =>
    revert parts read
    decide +kernel

/-- A dispatch that is given up has a legal path, whether its handler never ends or is waited for. -/
theorem StageWalk.legalPath_cancelled {result : StageEnd}
    (walked : StageWalk parts read (.ok result) entered) (unfinished : result ≠ .done) :
    LegalPath read false (Phases.none.after (entered ++ [.cancelled, .completion])) := by
  cases result with
  | done => exact absurd rfl unfinished
  | suspended receiver =>
    rw [walked.eq_of_suspended]
    clear walked
    revert parts read
    decide +kernel
  | pending =>
    rw [walked.eq_of_pending]
    clear walked
    revert parts read
    decide +kernel

/-- Every journey is a legal path. -/
theorem Journey.legalPath {ending : Ending} (journey : Journey parts read ending entered) :
    LegalPath read ending.isFailure (Phases.none.after entered) := by
  cases journey with
  | done walked => exact walked.legalPath_done
  | failed left walked => exact walked.legalPath_error left.isSome
  | droppedPending walked => exact walked.legalPath_cancelled nofun
  | resumed walked resumed => exact resumed.legalPath walked
  | cancelled walked => exact walked.legalPath_cancelled nofun
  | droppedSuspended walked => exact walked.legalPath_cancelled nofun

/-- Of the work of others nothing need be known. -/
theorem Dispatcher.tracks_nothing (d : Dispatcher) : d.Tracks (fun _ => True) fun _ _ => True := by
  have kept (act : Exchange → Work) : Work.KeptBy (fun _ => True) act := fun _ _ => trivial
  have keeps : d.Keeps fun _ => True :=
    { multipart := fun _ _ => kept _
      cleanup := fun _ _ => kept _
      mappings := fun _ _ => kept _
      adapters := fun _ _ _ => kept _
      interceptors := fun _ _ => ⟨fun _ => kept _, fun _ => kept _, fun _ _ => kept _, fun _ => kept _⟩
      resolvers := fun _ _ _ _ => kept _
      written := fun _ _ _ _ => trivial }
  exact ⟨keeps, fun _ => keeps, fun _ _ _ _ => trivial⟩

/-- For every dispatcher, whatever mappings, adapters, hooks, resolvers and handlers come to, every
exchange that begins without phases and every way in which its dispatch ends, the phases tell of a
legal path. -/
theorem legalPath_of_finished (d : Dispatcher) (exchange : Exchange) (ending : Ending) (p : Progress)
    (fresh : exchange.phases = .none) (finished : d.Finished exchange ending p) :
    LegalPath exchange.request.method.isGetOrHead ending.isFailure p.exchange.phases := by
  obtain ⟨entered, journey, passed⟩ := finished.passage d.tracks_nothing
  rw [passed.phases, fresh]
  exact journey.legalPath

/-- A handler that answers later, but not in time: the timeout is handled as a fault. -/
theorem legalPath_timeout :
    let slow : Adapter :=
      { supports := fun _ => true
        handle := fun exchange _ => (exchange.work.startAsync.2, .finished (.ok .empty))
        lastModified := fun _ _ => none }
    let mapping : HandlerMapping :=
      ⟨"slow", fun exchange => (exchange.work, .ok (some (.request (.application 0 "slow"))))⟩
    let d : Dispatcher := ⟨[mapping], [slow], ⟨[.silent]⟩, [.byStatus], none, .standard⟩
    let exchange := Exchange.ofRequest ⟨⟨[]⟩, .get, "/slow", [], .empty, []⟩
    ∃ p, d.Finished exchange (.resumed none) p ∧ .asyncStarted ∈ p.exchange.phases ∧
      .exceptionHandling ∈ p.exchange.phases ∧ .resultProcessing ∈ p.exchange.phases ∧
        LegalPath true false p.exchange.phases := by
  intro slow mapping d exchange
  have finished := @Dispatcher.Finished.resumed d exchange _ (.fresh 0) (some 100) _ none rfl rfl
  refine ⟨_, finished, by decide +kernel, by decide +kernel, by decide +kernel, ?_⟩
  exact legalPath_of_finished d exchange (.resumed none) _ rfl finished

end HttpRouting
