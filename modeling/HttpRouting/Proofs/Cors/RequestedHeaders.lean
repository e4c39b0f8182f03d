import HttpRouting.Proofs.Cors.Decision
import HttpRouting.Proofs.Text.Split

/-!
The header fields that a preflight asks for.  Those that the policy allows are granted, in the order in
which they were asked for, and the others are passed over: a preflight is refused for its header fields
only when it asks for some and the policy allows none of them.
-/

set_option autoImplicit false
set_option relaxedAutoImplicit false

namespace HttpRouting

namespace CorsConfig

variable {config : CorsConfig} {header : String} {requested granted : List String}

/-- The policy allows a header field when it allows all, or the field in some case of its letters.  A
policy that does not tell which fields it allows has no entry for any. -/
def AllowsHeader (config : CorsConfig) (header : String) : Prop :=
  wildcard ∈ config.allowedHeaders.getD [] ∨
    ∃ entry ∈ config.allowedHeaders.getD [], Text.sameIgnoringCase entry header = true

theorem headerAllowed_iff :
    headerAllowed (config.allowedHeaders.getD []) header = true ↔ config.AllowsHeader header := by
  rw [headerAllowed, Bool.or_eq_true, List.contains_iff_mem, List.any_eq_true, AllowsHeader]

instance (config : CorsConfig) : DecidablePred config.AllowsHeader :=
  fun _ => decidable_of_iff _ headerAllowed_iff

theorem filter_headerAllowed :
    requested.filter (headerAllowed (config.allowedHeaders.getD [])) =
      requested.filter (config.AllowsHeader ·) :=
  List.filter_congr fun _ _ => Bool.eq_iff_iff.mpr (headerAllowed_iff.trans decide_eq_true_iff.symm)

theorem checkHeaders_of_ne_nil (asked : requested ≠ []) : config.checkHeaders requested =
    if requested.filter (config.AllowsHeader ·) = [] then none
    else some (requested.filter (config.AllowsHeader ·)) := by
  rw [← filter_headerAllowed, checkHeaders, if_neg (by simpa using asked)]
  cases config.allowedHeaders with
  | none =>
    have unlisted : requested.filter (headerAllowed []) = [] :=
      List.filter_eq_nil_iff.mpr (by simp [headerAllowed])
    exact (if_pos unlisted).symm
  | some allowed =>
    simp only [Option.getD_some]
    cases requested.filter (headerAllowed allowed) with
    | nil => rfl
    | cons first others => rfl

theorem checkHeaders_eq_some_iff : config.checkHeaders requested = some granted ↔
    granted = requested.filter (config.AllowsHeader ·) ∧ (granted = [] → requested = []) := by
  by_cases asked : requested = []
  · subst asked
    simp [checkHeaders, eq_comm]
  · rw [checkHeaders_of_ne_nil asked]
    split
    · next unallowed =>
      refine iff_of_false (Option.some_ne_none granted).symm ?_
      rintro ⟨rfl, unasked⟩
      exact asked (unasked unallowed)
    · next allowed =>
      rw [Option.some.injEq, eq_comm]
      refine (and_iff_left_of_imp ?_).symm
      rintro rfl unallowed
      exact absurd unallowed allowed

theorem checkHeaders_eq_none_iff : config.checkHeaders requested = none ↔
    requested ≠ [] ∧ ∀ header ∈ requested, ¬ config.AllowsHeader header := by
  rw [Option.eq_none_iff_forall_ne_some]
  simp only [ne_eq, checkHeaders_eq_some_iff, not_and, forall_eq, Classical.not_imp, and_comm,
    List.filter_eq_nil_iff, decide_eq_true_iff]

theorem checkHeaders_eq_self_iff : config.checkHeaders requested = some requested ↔
    ∀ header ∈ requested, config.AllowsHeader header := by
  rw [checkHeaders_eq_some_iff, and_iff_left id, eq_comm, List.filter_eq_self]
  simp only [decide_eq_true_iff]

end CorsConfig

namespace Cors

variable {config : CorsConfig} {request : Request} {response : Response}

theorem of_mem_headersAsked {name : String} (asked : name ∈ headersAsked request) :
    ∃ text, request.header? .requestHeaders = some text ∧ ∀ c ∈ name.toList, c ∈ text.toList := by
  rw [headersAsked] at asked
  split at asked
  · split at asked
    · next text given =>
      refine ⟨text, given, fun c member => ?_⟩
      obtain ⟨item, cut, rfl⟩ := List.mem_map.mp (List.mem_filter.mp asked).1
      rw [String.toList_ofList] at member
      exact (Text.of_mem_splitOn cut).2 c ((Text.trim_isInfix item).subset member)
    · cases asked
  · cases asked

/-- Names that a preflight asks for were read from a value, and joined they make one again. -/
theorem ofText?_of_headersAsked {names : List String}
    (asked : ∀ name ∈ names, name ∈ headersAsked request) :
    HeaderValue.ofText? (", ".intercalate names) = some (.ofPlain (", ".intercalate names)) := by
  refine HeaderValue.ofText?_of_chars fun c member octet written => ?_
  rw [String.toList_intercalate] at member
  rcases Text.mem_intercalate member with joint | ⟨chars, listed, member⟩
  · have plain : IsPlain c := by
      have comma_or_blank : c = ',' ∨ c = ' ' := by simpa using joint
      rcases comma_or_blank with rfl | rfl <;> exact ⟨by decide, by decide⟩
    exact HeaderValue.isValueOctet_of_isPlain plain written
  · obtain ⟨name, named, rfl⟩ := List.mem_map.mp listed
    obtain ⟨text, given, within⟩ := of_mem_headersAsked (asked name named)
    obtain ⟨value, -, shown⟩ := Option.bind_eq_some_iff.mp given
    exact HeaderValue.isValueOctet_of_shown shown (within c member) written

theorem values_allowHeaders_writePreflight {grant : Grant} {headers : Headers}
    {value : HeaderValue} (read : HeaderValue.ofText? (", ".intercalate grant.headers) = some value)
    (unnamed : headers.values .allowHeaders = []) :
    (writePreflight config grant headers).values .allowHeaders =
      if grant.headers = [] then [] else [value] := by
  have methods : (setField headers .allowMethods (",".intercalate grant.methods)).values
      .allowHeaders = [] := by
    rw [values_setField_of_ne (by decide), unnamed]
  simp only [writePreflight, List.isEmpty_iff]
  generalize setField headers .allowMethods _ = written at methods ⊢
  have fields : (if grant.headers = [] then written
        else setField written .allowHeaders (", ".intercalate grant.headers)).values .allowHeaders =
      if grant.headers = [] then [] else [value] := by
    split
    · exact methods
    · exact values_setField_self read
  split
  · rw [values_setField_of_ne (by decide), fields]
  · exact fields

theorem values_allowHeaders_writeGrant (asks : request.isPreflight = true) {grant : Grant}
    {headers : Headers} {value : HeaderValue}
    (read : HeaderValue.ofText? (", ".intercalate grant.headers) = some value)
    (unnamed : headers.values .allowHeaders = []) :
    (writeGrant config request grant headers).values .allowHeaders =
      if grant.headers = [] then [] else [value] := by
  have named : (setField headers .allowOrigin grant.origin).values .allowHeaders = [] := by
    rw [values_setField_of_ne (by decide), unnamed]
  rw [writeGrant, if_pos asks, ← values_allowHeaders_writePreflight read named]
  split
  · exact values_setField_of_ne (by decide) _
  · rfl

/-- A preflight that passes is told which of the header fields are granted. -/
theorem values_allowHeaders_process (asks : request.isPreflight = true)
    (cross : request.isCrossOrigin = true) (fresh : response.headers.NoAccessControl)
    (passes : (process (some config) request response).1 = true) :
    let granted := (headersAsked request).filter (config.AllowsHeader ·)
    (process (some config) request response).2.headers.values .allowHeaders =
      if granted = [] then [] else [.ofPlain (", ".intercalate granted)] := by
  intro granted
  obtain ⟨origin, named⟩ := header?_origin_of_isCrossOrigin cross
  rw [process_of_isCrossOrigin cross fresh] at passes ⊢
  cases found : grant? config request with
  | none =>
    rw [found] at passes
    cases passes
  | some grant =>
    have free := ((grant?_eq_some_iff named).mp found).2.2
    have same : grant.headers = granted := (CorsConfig.checkHeaders_eq_some_iff.mp free).1
    have asked (name : String) (listed : name ∈ granted) : name ∈ headersAsked request :=
      (List.mem_filter.mp listed).1
    have unnamed : (addVary response).headers.values .allowHeaders = [] :=
      (noAccessControl_addVary fresh).values (by decide)
    rw [← same] at asked ⊢
    exact values_allowHeaders_writeGrant asks (ofText?_of_headersAsked asked) unnamed

/-- A policy answers for header fields when none are asked for or it allows one of them; it grants those
that it allows, and so all of them exactly when it allows all.  A preflight that asks for header fields
none of which is allowed is refused, and one that passes is told which are granted and no others. -/
theorem process_grants_allowed_headers (config : CorsConfig) :
    (∀ requested, (config.checkHeaders requested).isSome = true ↔
      requested = [] ∨ ∃ header ∈ requested, config.AllowsHeader header) ∧
    (∀ requested granted, config.checkHeaders requested = some granted →
      granted = requested.filter (config.AllowsHeader ·)) ∧
    (∀ requested, config.checkHeaders requested = some requested ↔
      ∀ header ∈ requested, config.AllowsHeader header) ∧
    ∀ (preflight : Request) (response : Response), preflight.isPreflight = true →
      preflight.isCrossOrigin = true → response.headers.NoAccessControl →
        let asked := headersAsked preflight
        let granted := asked.filter (config.AllowsHeader ·)
        let answer := process (some config) preflight response
        (asked ≠ [] → granted = [] → answer.1 = false) ∧
        (answer.1 = true → answer.2.headers.values .allowHeaders =
          if granted = [] then [] else [.ofPlain (", ".intercalate granted)]) := by
  refine ⟨?_, ?_, fun requested => CorsConfig.checkHeaders_eq_self_iff, ?_⟩
  · intro requested
    rw [Option.isSome_iff_ne_none, ne_eq, CorsConfig.checkHeaders_eq_none_iff]
    simp only [not_and_or, not_not, not_forall, exists_prop]
  · intro requested granted answered
    exact (CorsConfig.checkHeaders_eq_some_iff.mp answered).1
  · intro preflight response asks cross fresh asked granted answer
    refine ⟨fun some_asked none_granted => ?_, values_allowHeaders_process asks cross fresh⟩
    have forbidden : ∀ header ∈ asked, ¬ config.AllowsHeader header := by
      simpa only [granted, List.filter_eq_nil_iff, decide_eq_true_iff] using none_granted
    have refused : config.checkHeaders asked = none :=
      CorsConfig.checkHeaders_eq_none_iff.mpr ⟨some_asked, forbidden⟩
    exact (process_eq_false_iff fresh).mpr ⟨cross, .headers asks refused⟩

/-- Of two header fields the allowed one is granted, and the other one is refused when it is asked for
alone. -/
theorem preflight_granted_one_header :
    let config := ((CorsConfig.empty.allowOrigin "https://a.example").allowMethod "PUT").allowHeader
      "X-Token"
    let origin := (HeaderName.origin, HeaderValue.ofPlain "https://a.example")
    let method := (HeaderName.requestMethod, HeaderValue.ofPlain "PUT")
    let asking (names : String) : Request := ⟨⟨[]⟩, .options, "/users", [],
      ⟨[origin, method, (.requestHeaders, .ofPlain names)]⟩, []⟩
    let both := asking "x-token, X-Admin"
    let other := asking "X-Admin"
    Response.blank.headers.NoAccessControl ∧ both.isPreflight = true ∧ both.isCrossOrigin = true ∧
      (process (some config) both .blank).1 = true ∧
      (process (some config) both .blank).2.headers.values .allowHeaders = [.ofPlain "x-token"] ∧
      other.isPreflight = true ∧ other.isCrossOrigin = true ∧
      (process (some config) other .blank).1 = false := by
  intro config origin method asking both other
  have fresh : Response.blank.headers.NoAccessControl := by decide
  obtain ⟨-, -, -, answers⟩ := process_grants_allowed_headers config
  have asks : both.isPreflight = true := by decide +kernel
  have cross : both.isCrossOrigin = true := by decide +kernel
  have passes : (process (some config) both .blank).1 = true := by decide +kernel
  have granted : (headersAsked both).filter (config.AllowsHeader ·) = ["x-token"] := by
    decide +kernel
  have written := (answers both .blank asks cross fresh).2 passes
  rw [granted, if_neg (List.cons_ne_nil _ _), String.intercalate_singleton] at written
  have asks' : other.isPreflight = true := by decide +kernel
  have cross' : other.isCrossOrigin = true := by decide +kernel
  have refused : (process (some config) other .blank).1 = false :=
    (answers other .blank asks' cross' fresh).1 (by decide +kernel) (by decide +kernel)
  exact ⟨fresh, asks, cross, passes, written, asks', cross', refused⟩

/-- A preflight passes although the policy does not allow one of the header fields that it asks for. -/
theorem preflight_passes_with_forbidden_header :
    let config := ((CorsConfig.empty.allowOrigin "https://a.example").allowMethod "PUT").allowHeader
      "X-Token"
    let preflight : Request := ⟨⟨[]⟩, .options, "/users", [],
      ⟨[(.origin, .ofPlain "https://a.example"), (.requestMethod, .ofPlain "PUT"),
        (.requestHeaders, .ofPlain "X-Token, X-Admin")]⟩, []⟩
    headersAsked preflight = ["X-Token", "X-Admin"] ∧ ¬ config.AllowsHeader "X-Admin" ∧
      config.checkHeaders (headersAsked preflight) = some ["X-Token"] ∧
      preflight.isPreflight = true ∧ preflight.isCrossOrigin = true ∧
      (process (some config) preflight .blank).1 = true := by
  decide +kernel

end Cors

end HttpRouting
