import HttpRouting.Dispatch.Interceptor
import HttpRouting.Dispatch.Resolver
import HttpRouting.Report.Fault
import HttpRouting.Scenario.Script

/-!
Interceptors and resolvers given as data, and the journal that they keep of a dispatch.
-/

set_option autoImplicit false
set_option relaxedAutoImplicit false

namespace HttpRouting

/-- An interceptor that follows a script; without a name it keeps no journal. -/
structure ScriptedInterceptor where
  name : Option String
  preSteps : List ResponseStep
  postSteps : List ResponseStep
  completionSteps : List ResponseStep
  asyncSteps : List ResponseStep
  preResult : Except HandlerError Bool
  postResult : Except HandlerError Unit
  completionResult : Except HandlerError Unit

namespace ScriptedInterceptor

/-- An interceptor that does nothing. -/
def silent : ScriptedInterceptor := ⟨none, [], [], [], [], .ok true, .ok (), .ok ()⟩

/-- The hooks. -/
def interceptor (i : ScriptedInterceptor) : Interceptor :=
  { preHandle := fun exchange _ => (ResponseStep.applyAll i.preSteps exchange.work, i.preResult)
    postHandle := fun exchange _ => (ResponseStep.applyAll i.postSteps exchange.work, i.postResult)
    afterCompletion := fun exchange _ _ =>
      (ResponseStep.applyAll i.completionSteps exchange.work, i.completionResult)
    afterAsyncStart := fun exchange _ => ResponseStep.applyAll i.asyncSteps exchange.work }

end ScriptedInterceptor

/-- A resolver: the standard one, or one that answers faults of one kind, or of all kinds, with a
status, and without a status declines them. -/
inductive ScriptedResolver where
  | standard
  | answering (kind : Option String) (status : Option Status)

namespace ScriptedResolver

/-- Answer a fault. -/
def resolver : ScriptedResolver → FaultResolver
  | .standard => .byStatus
  | .answering _ none => ⟨fun exchange _ _ => (exchange.work, false)⟩
  | .answering kind (some status) =>
    ⟨fun exchange _ fault =>
      if kind.all fun kind => kind == fault.kind then
        ({ exchange.work with response := { exchange.response with status } }, true)
      else (exchange.work, false)⟩

/-- Whether a resolver keeps a journal. -/
def keepsJournal : ScriptedResolver → Bool
  | .standard => false
  | .answering _ _ => true

end ScriptedResolver

/-- Those that take part in a dispatch beside its handlers. -/
structure Audience where
  interceptors : List ScriptedInterceptor
  resolvers : List ScriptedResolver

namespace Audience

/-- The text of a handler, or a dash. -/
def handlerText (handler : Option Handler) : String :=
  (handler.map Handler.text).getD "-"

/-- The line that an interceptor writes about a hook. -/
def hookLine? (audience : Audience) (place : Nat) (hook subject : String) : Option String :=
  ((audience.interceptors[place]?).bind ScriptedInterceptor.name).map fun name =>
    name ++ "." ++ hook ++ "(" ++ subject ++ ")"

/-- The line that an event leaves in the journal. -/
def line? (audience : Audience) : DispatchEvent → Option String
  | .preHandle place handler _ => audience.hookLine? place "pre" handler.text
  | .postHandle place handler _ => audience.hookLine? place "post" handler.text
  | .asyncStarted place handler => audience.hookLine? place "async" handler.text
  | .completion place handler fault =>
    audience.hookLine? place "completion"
      (handlerText handler ++ ", " ++ (fault.map DispatchFault.kind).getD "-")
  | .offered place handler fault _ =>
    if (audience.resolvers[place]?).any ScriptedResolver.keepsJournal then
      some ("resolve(" ++ fault.kind ++ ", " ++ handlerText handler ++ ")")
    else none
  | .invoked _ | .answered _ | .delivered _ => none

/-- The journal of a dispatch. -/
def journal (audience : Audience) (events : List DispatchEvent) : List String :=
  events.filterMap audience.line?

end Audience

end HttpRouting
