/-!
The set of phases that a request has gone through, as the bits of one word.
-/

set_option autoImplicit false
set_option relaxedAutoImplicit false

namespace HttpRouting

/-- A set of phases. -/
structure Phases where
  bits : UInt32
deriving DecidableEq, Repr

namespace Phases

def none : Phases := ⟨0⟩
def start : Phases := ⟨0x1⟩
def multipartCheck : Phases := ⟨0x2⟩
def routeLookup : Phases := ⟨0x4⟩
def adapterLookup : Phases := ⟨0x8⟩
def cacheCheck : Phases := ⟨0x10⟩
def preHandle : Phases := ⟨0x20⟩
def invoke : Phases := ⟨0x40⟩
def postHandle : Phases := ⟨0x80⟩
def resultProcessing : Phases := ⟨0x100⟩
def completion : Phases := ⟨0x200⟩
def noHandler : Phases := ⟨0x400⟩
def exceptionHandling : Phases := ⟨0x800⟩
def notModified : Phases := ⟨0x1000⟩
def asyncStarted : Phases := ⟨0x2000⟩
def cancelled : Phases := ⟨0x4000⟩

/-- The phases in either set. -/
def union (a b : Phases) : Phases := ⟨a.bits ||| b.bits⟩

/-- The phases in both sets. -/
def inter (a b : Phases) : Phases := ⟨a.bits &&& b.bits⟩

/-- The phases outside a set. -/
def compl (a : Phases) : Phases := ⟨~~~a.bits⟩

/-- Whether some of the flags are set. -/
def anySet (a flags : Phases) : Bool := a.bits &&& flags.bits != 0

/-- Whether some of the flags are not set. -/
def anyClear (a flags : Phases) : Bool := a.bits &&& flags.bits != flags.bits

/-- Whether all of the flags are set. -/
def allSet (a flags : Phases) : Bool := a.bits &&& flags.bits == flags.bits

/-- Whether all of the flags are not set. -/
def allClear (a flags : Phases) : Bool := a.bits &&& flags.bits == 0

/-- Whether the request was brought to its end. -/
def isComplete (a : Phases) : Bool := a.allSet completion

/-- Whether a fault was handled or the request was given up. -/
def isError (a : Phases) : Bool := a.anySet (exceptionHandling.union cancelled)

/-- Whether the handler ran. -/
def wasInvoked (a : Phases) : Bool := a.allSet invoke

/-- The bits of the set. -/
def text (a : Phases) : String :=
  String.ofList (Nat.toDigits 2 a.bits.toNat)

end Phases

end HttpRouting
