import HttpRouting.Cors.Config

/-!
Settings of mappings and of dispatchers, with their defaults.
-/

set_option autoImplicit false
set_option relaxedAutoImplicit false

namespace HttpRouting

/-- Settings of a mapping of routes: whether a trailing slash of a path needs no counterpart,
whether what follows semicolons is taken off a path, whether mappings get names, and the policy that
is combined with those of all handlers. -/
structure MappingConfig where
  lenientTrailingSlash : Bool
  dropSemicolonContent : Bool
  nameMappings : Bool
  globalCors : Option CorsConfig
deriving DecidableEq, Repr

/-- Everything is on, and there is no global policy. -/
def MappingConfig.standard : MappingConfig := ⟨true, true, true, none⟩

/-- Settings of a dispatcher: whether a request without a handler is a fault, and how long a
deferred result is waited for, in milliseconds. -/
structure DispatcherConfig where
  faultOnMiss : Bool
  asyncTimeout : Option Nat
deriving DecidableEq, Repr

/-- A miss is no fault, and deferred results are waited for without end. -/
def DispatcherConfig.standard : DispatcherConfig := ⟨false, none⟩

end HttpRouting
