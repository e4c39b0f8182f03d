import HttpRouting.Proofs.Route.Order

/-!
Narrowing a route to a request keeps what the route already has: each condition is left with entries
of its own, the patterns with all that match, in order.  What is left matches the request as a whole,
so that narrowing once more changes nothing.
-/

set_option autoImplicit false
set_option relaxedAutoImplicit false

namespace HttpRouting.Route

variable {context : RequestContext} {route narrowed : Route}

/-- What is left of a route that was narrowed to a request. -/
structure Left (context : RequestContext) (route narrowed : Route) : Prop where
  name : narrowed.name = route.name
  /-- All patterns that match, and no other. -/
  patterns : narrowed.patterns.Perm
    (route.patterns.filter fun p => p.matchesPath context.lookupPath context.lenient)
  /-- No pattern comes before a more specific one. -/
  ascending : narrowed.patterns.Pairwise fun p q =>
    PathPattern.specificity context.lookupPath p q ≠ .gt
  methods : MethodsLeft context.request route.methods narrowed.methods
  params : narrowed.params = route.params
  /-- A preflight is not held to any header field. -/
  headers : narrowed.headers = if context.request.isPreflight then [] else route.headers
  consumes : narrowed.consumes.Sublist route.consumes
  produces : narrowed.produces.Sublist route.produces

section Patterns

variable {patterns kept : List PathPattern}

/-- The matching patterns in order, of which there is at least one. -/
theorem narrowPatterns_eq_some_iff : narrowPatterns context patterns = some kept ↔
    kept ≠ [] ∧ kept = Sorting.sortBy (PathPattern.specificity context.lookupPath)
      (patterns.filter fun p => p.matchesPath context.lookupPath context.lenient) := by
  rw [narrowPatterns]
  split
  · next none_matches =>
    rw [none_matches]
    simp [Sorting.sortBy]
  · next some_match =>
    rw [Option.some.injEq]
    constructor
    · rintro rfl
      exact ⟨fun none_left => some_match (Sorting.sortBy_eq_nil_iff.mp none_left), rfl⟩
    · rintro ⟨-, rfl⟩
      rfl

theorem perm_of_narrowPatterns (narrows : narrowPatterns context patterns = some kept) :
    kept.Perm (patterns.filter fun p => p.matchesPath context.lookupPath context.lenient) := by
  rw [(narrowPatterns_eq_some_iff.mp narrows).2]
  exact Sorting.sortBy_perm _ _

theorem ascending_of_narrowPatterns (narrows : narrowPatterns context patterns = some kept) :
    kept.Pairwise fun p q => (PathPattern.specificity context.lookupPath p q).isLE = true := by
  rw [(narrowPatterns_eq_some_iff.mp narrows).2]
  exact Sorting.sortBy_pairwise _

/-- The first pattern that is left is one that matches, and no less specific than any other one that
does. -/
theorem exists_first_of_narrowPatterns (narrows : narrowPatterns context patterns = some kept) :
    ∃ p rest, kept = p :: rest ∧ p ∈ patterns ∧
      p.matchesPath context.lookupPath context.lenient = true ∧
      ∀ q ∈ patterns, q.matchesPath context.lookupPath context.lenient = true →
        PathPattern.specificity context.lookupPath p q ≠ .gt := by
  obtain ⟨p, rest, rfl⟩ := List.exists_cons_of_ne_nil (narrowPatterns_eq_some_iff.mp narrows).1
  obtain ⟨listed, found⟩ := (mem_narrowPatterns_iff narrows).mp List.mem_cons_self
  refine ⟨p, rest, rfl, listed, found, fun q member found' => Ordering.isLE_iff_ne_gt.mp ?_⟩
  rcases List.mem_cons.mp ((mem_narrowPatterns_iff narrows).mpr ⟨member, found'⟩) with rfl | behind
  · exact Std.ReflCmp.isLE_rfl
  · exact (List.pairwise_cons.mp (ascending_of_narrowPatterns narrows)).1 q behind

/-- Patterns that all match and stand in order are left as they are. -/
theorem narrowPatterns_idem (narrows : narrowPatterns context patterns = some kept) :
    narrowPatterns context kept = some kept := by
  have all_match : ∀ p ∈ kept, p.matchesPath context.lookupPath context.lenient = true :=
    fun p member => ((mem_narrowPatterns_iff narrows).mp member).2
  refine narrowPatterns_eq_some_iff.mpr ⟨(narrowPatterns_eq_some_iff.mp narrows).1, ?_⟩
  rw [List.filter_eq_self.mpr all_match,
    Sorting.sortBy_eq_self (ascending_of_narrowPatterns narrows)]

end Patterns

section Expressions

variable {expressions kept : List Expression}

theorem narrowParams_eq_some_iff : narrowParams context expressions = some kept ↔
    (expressions.all fun e => e.holds (context.request.param? e.name)) = true ∧
      kept = expressions := by
  rw [narrowParams]
  split
  · next all_hold =>
    rw [Option.some.injEq]
    exact ⟨fun same => ⟨all_hold, same.symm⟩, fun left => left.2.symm⟩
  · next some_fails => exact ⟨nofun, fun left => absurd left.1 some_fails⟩

theorem narrowParams_idem (narrows : narrowParams context expressions = some kept) :
    narrowParams context kept = some kept := by
  obtain ⟨-, rfl⟩ := narrowParams_eq_some_iff.mp narrows
  exact narrows

theorem narrowHeaders_eq (narrows : narrowHeaders context expressions = some kept) :
    kept = if context.request.isPreflight then [] else expressions := by
  rw [narrowHeaders] at narrows
  cases preflight : context.request.isPreflight with
  | true =>
    rw [preflight, if_pos rfl] at narrows
    exact (Option.some.inj narrows).symm
  | false =>
    rw [preflight, if_neg Bool.false_ne_true] at narrows
    split at narrows
    · exact (Option.some.inj narrows).symm
    · cases narrows

theorem narrowHeaders_idem (narrows : narrowHeaders context expressions = some kept) :
    narrowHeaders context kept = some kept := by
  have left := narrowHeaders_eq narrows
  cases preflight : context.request.isPreflight with
  | true =>
    rw [preflight, if_pos rfl] at left
    rw [left, narrowHeaders, preflight, if_pos rfl]
  | false =>
    rw [preflight, if_neg Bool.false_ne_true] at left
    rwa [left] at narrows ⊢

end Expressions

section MediaTypes

variable {expressions kept : List MediaExpression} {fits : MediaExpression → Bool}

theorem nonempty?_eq_some_iff {α : Type} {entries kept : List α} :
    nonempty? entries = some kept ↔ kept = entries ∧ kept ≠ [] := by
  cases entries with
  | nil => exact ⟨nofun, fun left => absurd left.1 left.2⟩
  | cons x rest =>
    change some (x :: rest) = some kept ↔ _
    rw [Option.some.injEq]
    constructor
    · rintro rfl
      exact ⟨rfl, List.cons_ne_nil x rest⟩
    · rintro ⟨rfl, -⟩
      rfl

/-- What fits is found again among what fits. -/
theorem nonempty?_filter_idem (narrows : nonempty? (expressions.filter fits) = some kept) :
    kept.Sublist expressions ∧ kept.isEmpty = false ∧ nonempty? (kept.filter fits) = some kept := by
  obtain ⟨rfl, some_left⟩ := nonempty?_eq_some_iff.mp narrows
  refine ⟨List.filter_sublist, List.isEmpty_eq_false_iff.mpr some_left, ?_⟩
  rw [List.filter_filter]
  simpa using narrows

theorem narrowConsumes_idem (narrows : narrowConsumes context expressions = some kept) :
    kept.Sublist expressions ∧ narrowConsumes context kept = some kept := by
  rw [narrowConsumes] at narrows ⊢
  split at narrows
  · cases narrows
    exact ⟨List.nil_sublist _, by simp⟩
  · next held =>
    have actual := (Bool.or_eq_false_iff.mp (Bool.eq_false_iff.mpr held)).1
    split at narrows
    · cases narrows
    · obtain ⟨part, declared, again⟩ := nonempty?_filter_idem narrows
      exact ⟨part, by rwa [actual, declared, Bool.or_self, if_neg Bool.false_ne_true]⟩

theorem narrowProduces_idem (narrows : narrowProduces context expressions = some kept) :
    kept.Sublist expressions ∧ narrowProduces context kept = some kept := by
  rw [narrowProduces] at narrows ⊢
  split at narrows
  · cases narrows
    exact ⟨List.nil_sublist _, by simp⟩
  · next held =>
    have actual := (Bool.or_eq_false_iff.mp (Bool.eq_false_iff.mpr held)).1
    obtain ⟨part, declared, again⟩ := nonempty?_filter_idem narrows
    exact ⟨part, by rwa [actual, declared, Bool.or_self, if_neg Bool.false_ne_true]⟩

end MediaTypes

/-- What is left of a route are entries of its own: the patterns that match, by their specificity,
the method of the request, the expressions, and media types.  Narrowing what is left to the same
request leaves it as it is. -/
theorem narrow_sound_and_idempotent (narrows : route.narrow context = some narrowed) :
    Left context route narrowed ∧ narrowed.narrow context = some narrowed := by
  obtain ⟨named, patterns, methods, params, headers, consumes, produces⟩ :=
    narrow_eq_some_iff.mp narrows
  have methods_left := narrowMethods_eq_some_iff.mp methods
  have consumed := narrowConsumes_idem consumes
  have produced := narrowProduces_idem produces
  constructor
  · exact {
      name := named
      patterns := perm_of_narrowPatterns patterns
      ascending := (ascending_of_narrowPatterns patterns).imp Ordering.isLE_iff_ne_gt.mp
      methods := methods_left
      params := (narrowParams_eq_some_iff.mp params).2
      headers := narrowHeaders_eq headers
      consumes := consumed.1
      produces := produced.1 }
  · exact narrow_eq_some_iff.mpr ⟨rfl, narrowPatterns_idem patterns,
      narrowMethods_eq_some_iff.mpr methods_left.idem, narrowParams_idem params,
      narrowHeaders_idem headers, consumed.2, produced.2⟩

/-- Reading the head of a user keeps the get, both patterns of users, the more specific one first, and
the type that is accepted; no body is of a type that is ruled out. -/
theorem narrow_keeps_get_of_users :
    let users : PathPattern := ⟨"/users/\x7bid\x7d", [.literal "users", .capture "id"], false⟩
    let any : PathPattern := ⟨"/**", [.catchAll none], false⟩
    let orders : PathPattern := ⟨"/orders", [.literal "orders"], false⟩
    let json : MediaExpression := ⟨⟨"application", "json", .one⟩, false⟩
    let text : MediaExpression := ⟨⟨"text", "plain", .one⟩, false⟩
    let noText : MediaExpression := { text with negated := true }
    let accept := (HeaderName.accept, HeaderValue.ofPlain "application/*")
    let context : RequestContext :=
      ⟨⟨⟨[]⟩, .head, "/users/7", [], ⟨[accept]⟩, []⟩, "/users/7", true⟩
    let route : Route := ⟨some "users", [any, orders, users], [.get, ⟨"PUT"⟩], [], [], [noText],
      [json, text]⟩
    let narrowed : Route := ⟨some "users", [users, any], [.get], [], [], [noText], [json]⟩
    route.narrow context = some narrowed ∧ Left context route narrowed ∧
      narrowed.narrow context = some narrowed := by
  intro users any orders json text noText accept context route narrowed
  have narrows : route.narrow context = some narrowed := by
    have accepted : context.accepted = [⟨"application", "*", .one⟩] := by decide +kernel
    have produced : narrowProduces context route.produces = some narrowed.produces := by
      rw [narrowProduces, accepted]
      rfl
    have untyped : context.request.contentType? = none := by decide +kernel
    have stream : MediaType.parse "application/octet-stream" =
        .ok ⟨"application", "octet-stream", .one⟩ :=
      Outcome.toOption_eq_some_iff.mp (by decide +kernel)
    have consumed : narrowConsumes context route.consumes = some narrowed.consumes := by
      rw [narrowConsumes, if_neg (by decide +kernel), untyped, Option.getD_none, stream]
      rfl
    exact narrow_eq_some_iff.mpr ⟨rfl, by decide +kernel, by decide +kernel, by decide +kernel,
      by decide +kernel, consumed, produced⟩
  exact ⟨narrows, narrow_sound_and_idempotent narrows⟩

end HttpRouting.Route
