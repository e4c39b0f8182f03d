import HttpRouting.Cors.Process
import HttpRouting.Proofs.Http.Values

/-!
What a policy does to the response of an actual request.  When the policy admits the request, its
origin is named; when it does not, the request is refused, and none of the fields appears by which
requests from other origins are answered.
-/

set_option autoImplicit false
set_option relaxedAutoImplicit false

namespace HttpRouting

namespace Headers

variable {headers : Headers} {name other : HeaderName} {value : HeaderValue}

/-- The beginning of the names of fields by which requests from other origins are answered. -/
def accessControl : List Char := "access-control-".toList

/-- No field answers a request from another origin. -/
def NoAccessControl (headers : Headers) : Prop :=
  ∀ field ∈ headers.fields, ¬ accessControl <+: field.1.text.toList

instance (headers : Headers) : Decidable headers.NoAccessControl :=
  inferInstanceAs (Decidable (∀ field ∈ headers.fields, _))

theorem NoAccessControl.append (fresh : headers.NoAccessControl)
    (apart : ¬ accessControl <+: name.text.toList) :
    (headers.append name value).NoAccessControl := by
  intro field listed
  rcases List.mem_append.mp listed with before | new
  · exact fresh field before
  · rwa [List.mem_singleton.mp new]

theorem NoAccessControl.insert (fresh : headers.NoAccessControl)
    (apart : ¬ accessControl <+: name.text.toList) :
    (headers.insert name value).NoAccessControl := by
  intro field listed
  rcases List.mem_append.mp listed with before | new
  · exact fresh field (List.mem_filter.mp before).1
  · rwa [List.mem_singleton.mp new]

theorem NoAccessControl.contains (fresh : headers.NoAccessControl)
    (named : accessControl <+: name.text.toList) : headers.contains name = false := by
  refine List.any_eq_false.mpr fun field listed same => fresh field listed ?_
  rwa [of_decide_eq_true same]

theorem NoAccessControl.values (fresh : headers.NoAccessControl)
    (named : accessControl <+: name.text.toList) : headers.values name = [] :=
  values_of_not_contains (fresh.contains named)

end Headers

namespace CorsConfig

variable {config : CorsConfig} {origin allowed : String}

/-- An origin is answered by itself, or without credentials by the wildcard. -/
theorem checkOrigin_cases (checked : config.checkOrigin origin = some allowed) :
    (config.credentialsAllowed = false ∧ allowed = wildcard) ∨ allowed = bareOrigin origin := by
  simp only [checkOrigin] at checked
  split at checked
  · next everyOrigin =>
    have uncredited : config.credentialsAllowed = false := by
      simpa using (Bool.and_eq_true_iff.mp everyOrigin).2
    exact .inl ⟨uncredited, (Option.some.inj checked).symm⟩
  · split at checked
    · exact .inr (Option.some.inj checked).symm
    · split at checked
      · exact .inr (Option.some.inj checked).symm
      · cases checked

theorem eq_of_checkOrigin (checked : config.checkOrigin origin = some allowed) :
    allowed = wildcard ∨ allowed = bareOrigin origin :=
  (checkOrigin_cases checked).imp_left And.right

theorem isSome_checkOrigin_iff : (config.checkOrigin origin).isSome = true ↔
    (wildcard ∈ config.allowedOrigins.getD [] ∧ config.credentialsAllowed = false) ∨
    (∃ entry ∈ config.allowedOrigins.getD [],
      Text.sameIgnoringCase (bareOrigin entry) (bareOrigin origin) = true) ∨
    ∃ pattern ∈ config.allowedOriginPatterns.getD [],
      originFits pattern (bareOrigin origin) = true := by
  have everyOrigin : wildcard ∈ config.allowedOrigins.getD [] ∧ config.credentialsAllowed = false ↔
      ((config.allowedOrigins.getD []).contains wildcard && !config.credentialsAllowed) = true := by
    simp
  rw [everyOrigin, ← List.any_eq_true, ← List.any_eq_true]
  simp only [checkOrigin]
  split
  · next all => exact iff_of_true rfl (.inl all)
  · next narrow =>
    rw [or_iff_right narrow]
    split
    · next listed => exact iff_of_true rfl (.inl listed)
    · next unlisted =>
      rw [or_iff_right unlisted]
      split
      · next fits => exact iff_of_true rfl fits
      · next unfit => exact iff_of_false nofun unfit

/-- The policy allows the origin of a request, which is answered as a given text, and its method. -/
structure Admits (config : CorsConfig) (request : Request) (allowed : String) : Prop where
  origin : ∃ origin, request.header? .origin = some origin ∧
    config.checkOrigin origin = some allowed
  method : (config.checkMethod request.method).isSome = true

end CorsConfig

namespace Text

theorem dropTrailing_prefix (c : Char) (text : List Char) : dropTrailing c text <+: text := by
  obtain ⟨ends, whole⟩ := List.dropWhile_suffix (l := text.reverse) (· == c)
  refine ⟨ends.reverse, ?_⟩
  rw [dropTrailing, ← List.reverse_append, whole, List.reverse_reverse]

end Text

namespace Cors

variable {config : CorsConfig} {request : Request} {response : Response} {allowed : String}

theorem noAccessControl_addVary (fresh : response.headers.NoAccessControl) :
    (addVary response).headers.NoAccessControl := by
  have apart : ¬ Headers.accessControl <+: HeaderName.vary.text.toList := by decide
  exact ((fresh.append apart).append apart).append apart

theorem noAccessControl_reject (fresh : response.headers.NoAccessControl) :
    (reject response).headers.NoAccessControl :=
  fresh.insert (by decide)

theorem header?_origin_of_isCrossOrigin (cross : request.isCrossOrigin = true) :
    ∃ origin, request.header? .origin = some origin := by
  cases named : request.header? .origin with
  | none => simp [Request.isCrossOrigin, named] at cross
  | some origin => exact ⟨origin, rfl⟩

theorem ofText?_of_checkOrigin {origin : String} (named : request.header? .origin = some origin)
    (checked : config.checkOrigin origin = some allowed) :
    HeaderValue.ofText? allowed = some (.ofPlain allowed) := by
  rcases CorsConfig.eq_of_checkOrigin checked with rfl | rfl
  · rfl
  · -- The origin was read from a value of the request, and only slashes at its end are dropped.
    obtain ⟨value, -, shown⟩ := Option.bind_eq_some_iff.mp named
    exact HeaderValue.ofText?_of_isPrefix shown (Text.dropTrailing_prefix _ _)

theorem values_setField_self {headers : Headers} {name : HeaderName} {text : String}
    {value : HeaderValue} (read : HeaderValue.ofText? text = some value) :
    (setField headers name text).values name = [value] := by
  simp only [setField, read, Headers.values_insert_self]

theorem values_setField_of_ne {headers : Headers} {name other : HeaderName} (ne : other ≠ name)
    (text : String) : (setField headers name text).values other = headers.values other := by
  cases read : HeaderValue.ofText? text with
  | none => simp only [setField, read]
  | some value => simp only [setField, read, Headers.values_insert_of_ne ne]

theorem grant?_of_not_preflight (actual : request.isPreflight = false) {origin : String}
    (named : request.header? .origin = some origin) :
    grant? config request = (config.checkOrigin origin).bind fun allowed =>
      (config.checkMethod request.method).map fun methods => ⟨allowed, methods, []⟩ := by
  -- An actual request is about its own method and asks for no header fields, which are then free.
  have own : methodAsked? request = some request.method := by simp [methodAsked?, actual]
  have unasked : headersAsked request = [] := by simp [headersAsked, actual]
  have free : config.checkHeaders [] = some [] := rfl
  simp only [grant?, own, unasked, free, named, Option.getD_some, Option.bind_eq_bind,
    Option.bind_some, Option.map_eq_bind]
  rfl

theorem values_writePreflight (grant : Grant) (headers : Headers) {name : HeaderName}
    (other : name ∉ [HeaderName.allowMethods, .allowHeaders, .maxAge]) :
    (writePreflight config grant headers).values name = headers.values name := by
  simp only [List.mem_cons, List.not_mem_nil, or_false, not_or] at other
  obtain ⟨not_methods, not_headers, not_age⟩ := other
  have methods : (setField headers .allowMethods (",".intercalate grant.methods)).values name =
      headers.values name := values_setField_of_ne not_methods _
  simp only [writePreflight]
  generalize setField headers .allowMethods _ = written at methods ⊢
  have fields : (if grant.headers.isEmpty then written
        else setField written .allowHeaders (", ".intercalate grant.headers)).values name =
      headers.values name := by
    rw [← methods]
    split
    · rfl
    · exact values_setField_of_ne not_headers _
  split
  · rw [values_setField_of_ne not_age, fields]
  · exact fields

theorem values_writeExposed (headers : Headers) {name : HeaderName}
    (other : name ≠ .exposeHeaders) :
    (writeExposed config headers).values name = headers.values name := by
  rw [writeExposed]
  split
  · exact values_setField_of_ne other _
  · rfl

/-- What is written for the one kind of request or the other leaves the origin and the credentials
alone. -/
theorem values_writeRest (grant : Grant) (headers : Headers) {name : HeaderName}
    (other : name ∉ [HeaderName.allowMethods, .allowHeaders, .maxAge] ∧ name ≠ .exposeHeaders) :
    (if request.isPreflight then writePreflight config grant headers
      else writeExposed config headers).values name = headers.values name := by
  split
  · exact values_writePreflight grant headers other.1
  · exact values_writeExposed headers other.2

/-- Whatever else is granted, the origin is named. -/
theorem values_writeGrant {grant : Grant} {headers : Headers} {value : HeaderValue}
    (read : HeaderValue.ofText? grant.origin = some value) :
    (writeGrant config request grant headers).values .allowOrigin = [value] := by
  have named : (setField headers .allowOrigin grant.origin).values .allowOrigin = [value] :=
    values_setField_self read
  rw [writeGrant, ← named, ← values_writeRest grant (setField headers .allowOrigin grant.origin)
    ⟨by decide, by decide⟩]
  split
  · exact values_setField_of_ne (by decide) _
  · rfl

theorem process_of_not_isCrossOrigin {policy : Option CorsConfig}
    (here : policy = none ∨ request.isCrossOrigin = false) :
    process policy request response = (true, addVary response) := by
  cases policy with
  | none => rfl
  | some config =>
    have same : request.isCrossOrigin = false := here.resolve_left (by simp)
    simp [process, same]

theorem process_of_isCrossOrigin (cross : request.isCrossOrigin = true)
    (fresh : response.headers.NoAccessControl) :
    process (some config) request response =
      (grant? config request).elim (false, reject (addVary response)) fun grant =>
        (true, { response with
          headers := writeGrant config request grant (addVary response).headers }) := by
  have unnamed : (addVary response).headers.contains .allowOrigin = false :=
    (noAccessControl_addVary fresh).contains (by decide)
  rw [process, cross, unnamed]
  cases grant? config request <;> rfl

theorem process_of_admits (actual : request.isPreflight = false)
    (cross : request.isCrossOrigin = true) (fresh : response.headers.NoAccessControl)
    (admits : config.Admits request allowed) :
    ∃ headers, process (some config) request response = (true, { response with headers }) ∧
      headers.values .allowOrigin = [.ofPlain allowed] := by
  obtain ⟨origin, named, checked⟩ := admits.origin
  obtain ⟨methods, able⟩ := Option.isSome_iff_exists.mp admits.method
  have granted : grant? config request = some ⟨allowed, methods, []⟩ := by
    rw [grant?_of_not_preflight actual named, checked, able]
    rfl
  rw [process_of_isCrossOrigin cross fresh, granted]
  exact ⟨_, rfl, values_writeGrant (ofText?_of_checkOrigin named checked)⟩

theorem process_of_not_admits (actual : request.isPreflight = false)
    (cross : request.isCrossOrigin = true) (fresh : response.headers.NoAccessControl)
    (denied : ∀ allowed, ¬ config.Admits request allowed) :
    process (some config) request response = (false, reject (addVary response)) := by
  obtain ⟨origin, named⟩ := header?_origin_of_isCrossOrigin cross
  have ungranted : grant? config request = none := by
    rw [grant?_of_not_preflight actual named]
    cases checked : config.checkOrigin origin with
    | none => rfl
    | some allowed =>
      have unable : ¬ (config.checkMethod request.method).isSome = true := fun able =>
        denied allowed ⟨⟨origin, named, checked⟩, able⟩
      rw [Option.bind_some, Option.not_isSome_iff_eq_none.mp unable, Option.map_none]
  rw [process_of_isCrossOrigin cross fresh, ungranted]
  rfl

end Cors

end HttpRouting
