import HttpRouting.Handler.Basic

/-!
Deferred results.  A handler that answers later hands out a deferred result, at which its outcome is
delivered, and leaves a receiver behind, at which the outcome is waited for.  The two belong together
by their number.
-/

set_option autoImplicit false
set_option relaxedAutoImplicit false

namespace HttpRouting

/-- What a handler that answers later delivers in the end. -/
abbrev DeferredOutcome := Except HandlerError HandlerOutput

/-- The end of a deferred result at which the outcome is delivered, once. -/
structure DeferredResult where
  number : Nat
deriving DecidableEq, Repr

/-- The end of a deferred result at which the outcome is waited for.  It holds the outcome once that
is there, and knows when nobody is left to deliver one. -/
structure Receiver where
  number : Nat
  outcome : Option DeferredOutcome
  abandoned : Bool

namespace Receiver

/-- A receiver that nothing has reached yet. -/
def fresh (number : Nat) : Receiver := ⟨number, none, false⟩

/-- Whether a receiver waits for a result. -/
def awaits (receiver : Receiver) (result : DeferredResult) : Bool :=
  receiver.number == result.number

/-- Take the outcome of a result, if it is the one that is waited for. -/
def deliver (receiver : Receiver) (result : DeferredResult) (outcome : DeferredOutcome) : Receiver :=
  if receiver.awaits result then { receiver with outcome := some outcome } else receiver

/-- Learn that nothing will be delivered at a result any more. -/
def abandon (receiver : Receiver) (result : DeferredResult) : Receiver :=
  if receiver.awaits result then { receiver with abandoned := true } else receiver

/-- The outcome to go on with: the one delivered, or the failure that nobody is left to deliver one,
or with a time limit that none came in time.  There is none while it is still waited for. -/
def outcomeWithin? (receiver : Receiver) (timeout : Option Nat) : Option DeferredOutcome :=
  match receiver.outcome with
  | some outcome => some outcome
  | none =>
    if receiver.abandoned then some (.error .asyncCancelled)
    else timeout.map fun _ => .error .asyncTimeout

end Receiver

/-- A result is cancelled when none of the receivers that are left waits for it; then nothing that is
delivered there has an effect. -/
def DeferredResult.isCancelled (result : DeferredResult) (receivers : List Receiver) : Bool :=
  !receivers.any fun receiver => receiver.awaits result

end HttpRouting
