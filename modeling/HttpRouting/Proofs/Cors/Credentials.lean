import HttpRouting.Proofs.Cors.Decision
import HttpRouting.Proofs.Text.Split

/-!
Credentials and the wildcard.  A policy that can be put in force does not name the wildcard as an origin
when it allows credentials, and the origin of an answer with credentials is that of the request.  So the
wildcard comes with credentials only when a request gives it for its own origin.
-/

set_option autoImplicit false
set_option relaxedAutoImplicit false

namespace HttpRouting

/-- A response that allows every origin, and credentials besides. -/
def Headers.AnyOriginWithCredentials (headers : Headers) : Prop :=
  .ofPlain CorsConfig.wildcard ∈ headers.values .allowOrigin ∧
    .ofPlain "true" ∈ headers.values .allowCredentials

instance (headers : Headers) : Decidable headers.AnyOriginWithCredentials :=
  inferInstanceAs (Decidable (_ ∧ _))

theorem Headers.NoAccessControl.not_anyOriginWithCredentials {headers : Headers}
    (fresh : headers.NoAccessControl) : ¬ headers.AnyOriginWithCredentials := by
  rintro ⟨named, -⟩
  rw [fresh.values (by decide)] at named
  exact List.not_mem_nil named

namespace CorsConfig

variable {config : CorsConfig} {origin allowed : String}

theorem validate_eq_ok_iff : config.validate = .ok () ↔
    (config.credentialsAllowed = true → wildcard ∉ config.allowedOrigins.getD []) := by
  rw [validate, ← List.contains_iff_mem]
  cases config.credentialsAllowed <;> cases (config.allowedOrigins.getD []).contains wildcard <;>
    simp

theorem bareOrigin_wildcard_of_sameIgnoringCase
    (same : Text.sameIgnoringCase (bareOrigin origin) wildcard = true) :
    bareOrigin origin = wildcard := by
  have lowered : (bareOrigin origin).toList.map Char.toLower = ['*'] := by
    have texts := congrArg String.toList (eq_of_beq same)
    rwa [Text.lower, String.toList_ofList] at texts
  obtain ⟨c, single, asterisk⟩ := List.map_eq_singleton_iff.mp lowered
  rw [← String.toList_inj, single, Text.eq_of_toLower_eq asterisk (by decide)]
  rfl

/-- A policy that can be put in force lets the wildcard pass as an origin only by a pattern that it fits
or an origin written with slashes behind it. -/
theorem wildcard_let_in (valid : config.validate = .ok ())
    (credentials : config.credentialsAllowed = true) (bare : bareOrigin origin = wildcard)
    (accepted : (config.checkOrigin origin).isSome = true) :
    (∃ pattern ∈ config.allowedOriginPatterns.getD [], originFits pattern wildcard = true) ∨
      ∃ entry ∈ config.allowedOrigins.getD [], entry ≠ wildcard ∧ bareOrigin entry = wildcard := by
  rw [isSome_checkOrigin_iff, bare] at accepted
  rcases accepted with ⟨-, uncredited⟩ | ⟨entry, listed, same⟩ | fits
  · cases uncredited.symm.trans credentials
  · refine .inr ⟨entry, listed, ?_, bareOrigin_wildcard_of_sameIgnoringCase same⟩
    rintro rfl
    exact validate_eq_ok_iff.mp valid credentials listed
  · exact .inl fits

end CorsConfig

namespace Cors

variable {config : CorsConfig} {request : Request} {response : Response} {grant : Grant}

theorem values_allowCredentials_writeGrant {headers : Headers}
    (unnamed : headers.values .allowCredentials = []) :
    (writeGrant config request grant headers).values .allowCredentials =
      if config.credentialsAllowed then [.ofPlain "true"] else [] := by
  have named : (setField headers .allowOrigin grant.origin).values .allowCredentials = [] := by
    rw [values_setField_of_ne (by decide), unnamed]
  rw [writeGrant]
  split
  · have read : HeaderValue.ofText? "true" = some (.ofPlain "true") := rfl
    exact values_setField_self read
  · rw [values_writeRest _ _ ⟨by decide, by decide⟩, named]

theorem anyOriginWithCredentials_writeGrant {origin : String}
    (named : request.header? .origin = some origin) (granted : grant? config request = some grant)
    (fresh : response.headers.NoAccessControl) :
    (writeGrant config request grant response.headers).AnyOriginWithCredentials ↔
      config.credentialsAllowed = true ∧ CorsConfig.bareOrigin origin = CorsConfig.wildcard := by
  have checked := ((grant?_eq_some_iff named).mp granted).1
  have origins : (writeGrant config request grant response.headers).values .allowOrigin =
      [.ofPlain grant.origin] := values_writeGrant (ofText?_of_checkOrigin named checked)
  rw [Headers.AnyOriginWithCredentials, origins,
    values_allowCredentials_writeGrant (fresh.values (by decide)), List.mem_singleton,
    HeaderValue.ofPlain_inj]
  cases credentials : config.credentialsAllowed with
  | false => simp
  | true =>
    have itself : grant.origin = CorsConfig.bareOrigin origin :=
      (CorsConfig.checkOrigin_cases checked).resolve_left (by simp [credentials])
    rw [itself]
    simp [eq_comm]

/-- An answer, to a response that does not answer another origin yet, allows every origin together with
credentials exactly when the policy allows credentials and lets a request pass that names the wildcard
as its own origin.  A policy that can be put in force lets it pass only by a pattern that the wildcard
fits or an origin written with slashes behind it. -/
theorem process_anyOriginWithCredentials_iff (config : CorsConfig) (request : Request)
    (response : Response) (fresh : response.headers.NoAccessControl) :
    let answer := process (some config) request response
    (answer.2.headers.AnyOriginWithCredentials ↔
      config.credentialsAllowed = true ∧ request.isCrossOrigin = true ∧ ¬ Refuses config request ∧
        ∃ origin, request.header? .origin = some origin ∧
          CorsConfig.bareOrigin origin = CorsConfig.wildcard) ∧
    (config.validate = .ok () → answer.2.headers.AnyOriginWithCredentials →
      (∃ pattern ∈ config.allowedOriginPatterns.getD [],
        CorsConfig.originFits pattern CorsConfig.wildcard = true) ∨
      ∃ entry ∈ config.allowedOrigins.getD [], entry ≠ CorsConfig.wildcard ∧
        CorsConfig.bareOrigin entry = CorsConfig.wildcard) := by
  intro answer
  have unanswered := (noAccessControl_addVary fresh).not_anyOriginWithCredentials
  have decided : answer.2.headers.AnyOriginWithCredentials ↔
      config.credentialsAllowed = true ∧ request.isCrossOrigin = true ∧ ¬ Refuses config request ∧
        ∃ origin, request.header? .origin = some origin ∧
          CorsConfig.bareOrigin origin = CorsConfig.wildcard := by
    cases cross : request.isCrossOrigin with
    | false =>
      have passed : answer = (true, addVary response) := process_of_not_isCrossOrigin (.inr cross)
      rw [passed]
      simp [unanswered]
    | true =>
      obtain ⟨origin, named⟩ := header?_origin_of_isCrossOrigin cross
      have made : answer = _ := process_of_isCrossOrigin cross fresh
      rw [made, ← grant?_eq_none_iff named]
      cases granted : grant? config request with
      | none =>
        have refused := (noAccessControl_reject
          (noAccessControl_addVary fresh)).not_anyOriginWithCredentials
        simp [refused]
      | some grant =>
        have written := anyOriginWithCredentials_writeGrant named granted
          (noAccessControl_addVary fresh)
        simp [written, named]
  refine ⟨decided, fun valid both => ?_⟩
  obtain ⟨credentials, cross, passes, origin, named, bare⟩ := decided.mp both
  have accepted : (config.checkOrigin origin).isSome = true :=
    Option.isSome_iff_ne_none.mpr fun refused => passes (.origin named refused)
  exact CorsConfig.wildcard_let_in valid credentials bare accepted

/-- A policy for everything answers an origin by its name, and it is only its pattern that lets the
wildcard in. -/
theorem anyOriginWithCredentials_of_joined_policies :
    let config := (CorsConfig.empty.allowOrigin "https://a.example").combine .allowAll
    let asking (origin : String) : Request :=
      ⟨⟨[]⟩, .get, "/users", [], ⟨[(.origin, .ofPlain origin)]⟩, []⟩
    let named := asking "https://b.example"
    let starred := asking "*/"
    Response.blank.headers.NoAccessControl ∧ config.validate = .ok () ∧
      (process (some config) named .blank).2.headers.values .allowOrigin =
        [.ofPlain "https://b.example"] ∧
      (process (some config) named .blank).2.headers.values .allowCredentials = [.ofPlain "true"] ∧
      ¬ (process (some config) named .blank).2.headers.AnyOriginWithCredentials ∧
      (process (some config) starred .blank).2.headers.AnyOriginWithCredentials ∧
      ((∃ pattern ∈ config.allowedOriginPatterns.getD [],
        CorsConfig.originFits pattern CorsConfig.wildcard = true) ∨
      ∃ entry ∈ config.allowedOrigins.getD [], entry ≠ CorsConfig.wildcard ∧
        CorsConfig.bareOrigin entry = CorsConfig.wildcard) := by
  intro config asking named starred
  have fresh : Response.blank.headers.NoAccessControl := by decide
  have valid : config.validate = .ok () := by decide +kernel
  have origins : (process (some config) named .blank).2.headers.values .allowOrigin =
      [.ofPlain "https://b.example"] := by decide +kernel
  have credentials : (process (some config) named .blank).2.headers.values .allowCredentials =
      [.ofPlain "true"] := by decide +kernel
  have apart : ¬ (process (some config) named .blank).2.headers.AnyOriginWithCredentials := by
    intro both
    obtain ⟨-, -, -, origin, given, bare⟩ :=
      (process_anyOriginWithCredentials_iff config named .blank fresh).1.mp both
    have own : named.header? .origin = some "https://b.example" := by decide +kernel
    have other : CorsConfig.bareOrigin "https://b.example" ≠ CorsConfig.wildcard := by
      decide +kernel
    cases own.symm.trans given
    exact other bare
  have both : (process (some config) starred .blank).2.headers.AnyOriginWithCredentials := by
    decide +kernel
  have let_in := (process_anyOriginWithCredentials_iff config starred .blank fresh).2 valid both
  exact ⟨fresh, valid, origins, credentials, apart, both, let_in⟩

/-- The policy for everything can be put in force, and it answers a request that names the wildcard as
its origin with the wildcard and credentials. -/
theorem allowAll_answers_wildcard_with_credentials :
    CorsConfig.allowAll.validate = .ok () ∧ Response.blank.headers.NoAccessControl ∧
      (process (some .allowAll)
        ⟨⟨[]⟩, .get, "/users", [], ⟨[(.origin, .ofPlain "*")]⟩, []⟩
        .blank).2.headers.AnyOriginWithCredentials := by
  decide +kernel

end Cors

end HttpRouting
