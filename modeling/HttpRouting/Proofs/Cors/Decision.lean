import HttpRouting.Proofs.Cors.Process

/-!
Whether a policy lets a request pass is decided before anything is written.  A request from another
origin is refused for one of three reasons: its origin, its method or the header fields it asks for.
A refused request leaves none of the fields by which other origins are answered, and any other one
names the origin.  A preflight that asks for nothing but the method of an actual request is decided
like that request.
-/

set_option autoImplicit false
set_option relaxedAutoImplicit false

namespace HttpRouting.Cors

/-- Why a policy refuses a request: it does not allow the origin, the method of a preflight is missing
or none, it does not allow the method, or it does not allow the header fields of a preflight. -/
inductive Refuses (config : CorsConfig) (request : Request) : Prop
  | origin {origin : String} : request.header? .origin = some origin →
      config.checkOrigin origin = none → Refuses config request
  | missing : request.isPreflight = true → request.header? .requestMethod = none →
      Refuses config request
  | malformed {text : String} : request.isPreflight = true →
      request.header? .requestMethod = some text → Method.parse? (Text.trimmed text) = none →
      Refuses config request
  | method {asked : Method} : methodAsked? request = some asked →
      config.checkMethod asked = none → Refuses config request
  | headers : request.isPreflight = true → config.checkHeaders (headersAsked request) = none →
      Refuses config request

/-- A preflight asks whether an actual request may be made: from the same origin to the same host, with
the method of the request and without header fields of its own. -/
structure AsksFor (preflight actual : Request) : Prop where
  asks : preflight.isPreflight = true
  answered : actual.isPreflight = false
  origin : preflight.header? .origin = actual.header? .origin
  host : preflight.header? .host = actual.header? .host
  method : preflight.header? .requestMethod = some actual.method.name
  token : isToken actual.method.name = true
  headers : headersAsked preflight = []

variable {config : CorsConfig} {request preflight actual : Request} {response : Response}

theorem methodAsked?_eq_none_iff : methodAsked? request = none ↔
    request.isPreflight = true ∧ (request.header? .requestMethod = none ∨
      ∃ text, request.header? .requestMethod = some text ∧
        Method.parse? (Text.trimmed text) = none) := by
  cases asks : request.isPreflight with
  | false => simp [methodAsked?, asks]
  | true =>
    cases named : request.header? .requestMethod <;> simp [methodAsked?, asks, named]

/-- Only a preflight can ask for header fields that are not allowed. -/
theorem isPreflight_of_checkHeaders (refused : config.checkHeaders (headersAsked request) = none) :
    request.isPreflight = true := by
  cases asks : request.isPreflight with
  | true => rfl
  | false =>
    rw [headersAsked, asks, if_neg Bool.false_ne_true] at refused
    cases refused

theorem grant?_eq_some_iff {origin : String} (named : request.header? .origin = some origin)
    {grant : Grant} : grant? config request = some grant ↔
      config.checkOrigin origin = some grant.origin ∧
      (∃ asked, methodAsked? request = some asked ∧ config.checkMethod asked = some grant.methods) ∧
      config.checkHeaders (headersAsked request) = some grant.headers := by
  simp only [grant?, named, Option.getD_some, Option.bind_eq_bind, Option.bind_eq_some_iff, pure,
    Option.some.injEq]
  constructor
  · rintro ⟨allowed, checked, asked, asks, methods, able, headers, free, rfl⟩
    exact ⟨checked, ⟨asked, asks, able⟩, free⟩
  · rintro ⟨checked, ⟨asked, asks, able⟩, free⟩
    exact ⟨_, checked, asked, asks, _, able, _, free, rfl⟩

theorem grant?_eq_none_iff {origin : String} (named : request.header? .origin = some origin) :
    grant? config request = none ↔ Refuses config request := by
  constructor
  · intro ungranted
    cases checked : config.checkOrigin origin with
    | none => exact .origin named checked
    | some allowed =>
      cases asks : methodAsked? request with
      | none =>
        obtain ⟨preflight, unnamed | ⟨text, given, unread⟩⟩ := methodAsked?_eq_none_iff.mp asks
        · exact .missing preflight unnamed
        · exact .malformed preflight given unread
      | some asked =>
        cases able : config.checkMethod asked with
        | none => exact .method asks able
        | some methods =>
          cases free : config.checkHeaders (headersAsked request) with
          | none => exact .headers (isPreflight_of_checkHeaders free) free
          | some headers =>
            have granted : grant? config request = some ⟨allowed, methods, headers⟩ :=
              (grant?_eq_some_iff named).mpr ⟨checked, ⟨asked, asks, able⟩, free⟩
            cases ungranted.symm.trans granted
  · intro refuses
    refine Option.eq_none_iff_forall_ne_some.mpr fun grant granted => ?_
    obtain ⟨checked, ⟨asked, asks, able⟩, free⟩ := (grant?_eq_some_iff named).mp granted
    cases refuses with
    | origin named' refused =>
      cases named.symm.trans named'
      cases refused.symm.trans checked
    | missing preflight unnamed =>
      cases (methodAsked?_eq_none_iff.mpr ⟨preflight, .inl unnamed⟩).symm.trans asks
    | malformed preflight given unread =>
      cases (methodAsked?_eq_none_iff.mpr ⟨preflight, .inr ⟨_, given, unread⟩⟩).symm.trans asks
    | method asks' refused =>
      cases asks.symm.trans asks'
      cases refused.symm.trans able
    | headers _ refused => cases refused.symm.trans free

/-- What an answer under a policy comes to, for a response that does not answer another origin yet. -/
theorem process_cases (config : CorsConfig) (request : Request)
    (fresh : response.headers.NoAccessControl) :
    (request.isCrossOrigin = false ∧
        process (some config) request response = (true, addVary response)) ∨
      (request.isCrossOrigin = true ∧ Refuses config request ∧
        process (some config) request response = (false, reject (addVary response))) ∨
      ∃ origin allowed headers, request.isCrossOrigin = true ∧ ¬ Refuses config request ∧
        request.header? .origin = some origin ∧ config.checkOrigin origin = some allowed ∧
        process (some config) request response = (true, { response with headers }) ∧
        headers.values .allowOrigin = [.ofPlain allowed] := by
  cases cross : request.isCrossOrigin with
  | false => exact .inl ⟨rfl, process_of_not_isCrossOrigin (.inr cross)⟩
  | true =>
    obtain ⟨origin, named⟩ := header?_origin_of_isCrossOrigin cross
    rw [process_of_isCrossOrigin cross fresh]
    cases granted : grant? config request with
    | none => exact .inr (.inl ⟨rfl, (grant?_eq_none_iff named).mp granted, rfl⟩)
    | some grant =>
      have checked := ((grant?_eq_some_iff named).mp granted).1
      refine .inr (.inr ⟨origin, grant.origin, _, rfl, ?_, named, checked, rfl,
        values_writeGrant (ofText?_of_checkOrigin named checked)⟩)
      rw [← grant?_eq_none_iff named, granted]
      exact nofun

/-- A request is refused exactly when it comes from another origin and the policy refuses it. -/
theorem process_eq_false_iff (fresh : response.headers.NoAccessControl) :
    (process (some config) request response).1 = false ↔
      request.isCrossOrigin = true ∧ Refuses config request := by
  rcases process_cases config request fresh with ⟨here, passed⟩ | ⟨cross, refuses, refused⟩ |
    ⟨_, _, _, _, grants, _, _, passed, _⟩
  · simp [passed, here]
  · simp [refused, cross, refuses]
  · simp [passed, grants]

namespace AsksFor

variable (asksFor : AsksFor preflight actual)

include asksFor

theorem methodAsked? : Cors.methodAsked? preflight = some actual.method := by
  have trimmed := trimmed_of_isToken asksFor.token
  rw [Cors.methodAsked?, if_pos asksFor.asks, asksFor.method, Option.bind_some, trimmed,
    Method.parse?, if_pos asksFor.token]

theorem grant? : Cors.grant? config preflight = Cors.grant? config actual := by
  have own : Cors.methodAsked? actual = some actual.method := by
    simp [Cors.methodAsked?, asksFor.answered]
  have unasked : headersAsked actual = [] := by simp [headersAsked, asksFor.answered]
  rw [Cors.grant?, Cors.grant?, asksFor.origin, asksFor.methodAsked?, asksFor.headers, own, unasked]

theorem isCrossOrigin : preflight.isCrossOrigin = actual.isCrossOrigin := by
  simp only [Request.isCrossOrigin, asksFor.origin, asksFor.host]

/-- A preflight is decided like the request that it asks for. -/
theorem process {answered : Response} (fresh : response.headers.NoAccessControl)
    (fresh' : answered.headers.NoAccessControl) :
    (Cors.process (some config) preflight answered).1 =
      (Cors.process (some config) actual response).1 := by
  cases cross : actual.isCrossOrigin with
  | false =>
    rw [process_of_not_isCrossOrigin (.inr cross),
      process_of_not_isCrossOrigin (.inr (asksFor.isCrossOrigin.trans cross))]
  | true =>
    rw [process_of_isCrossOrigin cross fresh,
      process_of_isCrossOrigin (asksFor.isCrossOrigin.trans cross) fresh', asksFor.grant?]
    cases Cors.grant? config actual <;> rfl

end AsksFor

/-- An answer under a policy, to a response that does not answer another origin yet, is all or
nothing.  The request is refused exactly when it comes from another origin and the policy does not
allow its origin, its method or the header fields it asks for.  A refused request is forbidden and
names no origin; any other request from another origin is answered with a wildcard or with its origin
without slashes at the end.  And a preflight for the method of an actual request passes exactly when
the request does. -/
theorem process_all_or_nothing (config : CorsConfig) (request : Request) (response : Response)
    (fresh : response.headers.NoAccessControl) :
    let answer := process (some config) request response
    (answer.1 = false ↔ request.isCrossOrigin = true ∧ Refuses config request) ∧
    (answer.1 = false →
      answer.2.status = .forbidden ∧ answer.2.headers.NoAccessControl) ∧
    (answer.1 = true → request.isCrossOrigin = true →
      ∃ origin allowed, request.header? .origin = some origin ∧
        (allowed = CorsConfig.wildcard ∨ allowed = CorsConfig.bareOrigin origin) ∧
        answer.2.headers.values .allowOrigin = [.ofPlain allowed]) ∧
    ∀ (preflight : Request) (answered : Response), AsksFor preflight request →
      answered.headers.NoAccessControl →
        ((process (some config) preflight answered).1 = true ↔ answer.1 = true) := by
  intro answer
  refine ⟨process_eq_false_iff fresh, ?_, ?_, ?_⟩
  · intro refused
    rcases process_cases config request fresh with ⟨_, passed⟩ | ⟨_, _, made⟩ |
      ⟨_, _, _, _, _, _, _, passed, _⟩
    · cases (congrArg Prod.fst passed).symm.trans refused
    · have made : answer = _ := made
      rw [made]
      exact ⟨rfl, noAccessControl_reject (noAccessControl_addVary fresh)⟩
    · cases (congrArg Prod.fst passed).symm.trans refused
  · intro passes cross
    rcases process_cases config request fresh with ⟨here, _⟩ | ⟨_, _, refused⟩ |
      ⟨origin, allowed, headers, _, _, named, checked, made, written⟩
    · cases here.symm.trans cross
    · cases (congrArg Prod.fst refused).symm.trans passes
    · have made : answer = _ := made
      rw [made]
      exact ⟨origin, allowed, named, CorsConfig.eq_of_checkOrigin checked, written⟩
  · intro preflight answered asksFor fresh'
    rw [asksFor.process fresh fresh']

/-- An origin that may put users passes with its preflight, but not with one that asks for a header
field which is not allowed. -/
theorem preflight_passes_with_put :
    let config := (CorsConfig.empty.allowOrigin "https://a.example/").allowMethod "PUT"
    let origin := (HeaderName.origin, HeaderValue.ofPlain "https://a.example")
    let method := (HeaderName.requestMethod, HeaderValue.ofPlain "PUT")
    let fields := (HeaderName.requestHeaders, HeaderValue.ofPlain "x-token")
    let put : Request := ⟨⟨[]⟩, ⟨"PUT"⟩, "/users", [], ⟨[origin]⟩, []⟩
    let preflight := { put with method := .options, headers := ⟨[origin, method]⟩ }
    let demanding := { preflight with headers := ⟨[origin, method, fields]⟩ }
    let answer := fun request => process (some config) request .blank
    Response.blank.headers.NoAccessControl ∧ AsksFor preflight put ∧ (answer put).1 = true ∧
      (answer preflight).1 = true ∧ (answer put).2.headers.values .allowOrigin =
        [.ofPlain "https://a.example"] ∧
      Refuses config demanding ∧ (answer demanding).1 = false := by
  intro config origin method fields put preflight demanding answer
  have fresh : Response.blank.headers.NoAccessControl := by decide
  have asksFor : AsksFor preflight put := by
    constructor <;> decide +kernel
  have passes : (answer put).1 = true := by decide +kernel
  have alike : (answer preflight).1 = true ↔ (answer put).1 = true :=
    (process_all_or_nothing config put .blank fresh).2.2.2 preflight .blank asksFor fresh
  have refuses : Refuses config demanding := .headers (by decide +kernel) (by decide +kernel)
  have refused : (answer demanding).1 = false :=
    (process_all_or_nothing config demanding .blank fresh).1.mpr ⟨by decide +kernel, refuses⟩
  have written : (answer put).2.headers.values .allowOrigin = [.ofPlain "https://a.example"] := by
    decide +kernel
  exact ⟨fresh, asksFor, passes, alike.mpr passes, written, refuses, refused⟩

end HttpRouting.Cors
