import HttpRouting.Proofs.Mapping.Selection
import HttpRouting.Proofs.Route.Narrowing

/-!
Looking up the exact path first is no more than a short cut.  A route with the exact path as its
pattern is better than every route without, so that trying all keys selects the same registration.
Reading the head and preflights are left out: there the methods come before the patterns, and the
policies of candidates count that are not under the exact path.
-/

set_option autoImplicit false
set_option relaxedAutoImplicit false

namespace HttpRouting

theorem PathPattern.specificity_eq_lt {path : String} {a b : PathPattern}
    (exact_path : a.isExactly path = true) (inexact : b.isExactly path = false) :
    PathPattern.specificity path a b = .lt := by
  rw [PathPattern.specificity, exact_path, inexact]
  rfl

namespace Route

variable {context : RequestContext} {patterns others narrowed narrowed' : List PathPattern}

/-- When the path itself is a pattern of fixed text, it is the most specific one. -/
theorem exists_exact_of_narrowPatterns {p : PathPattern} (parsed : p.Parsed)
    (literal : p.hasWildcards = false) (exact_path : p.source = context.lookupPath)
    (member : p ∈ patterns) (narrows : narrowPatterns context patterns = some narrowed) :
    ∃ first rest, narrowed = first :: rest ∧ first.isExactly context.lookupPath = true := by
  have matching : p.matchesPath context.lookupPath context.lenient = true :=
    exact_path ▸ parsed.matchesPath_source literal context.lenient
  have is_exact : p.isExactly context.lookupPath = true := by
    simp [PathPattern.isExactly, exact_path]
  obtain ⟨first, rest, kept, -, -, least⟩ := exists_first_of_narrowPatterns narrows
  refine ⟨first, rest, kept, ?_⟩
  by_contra inexact
  have later := PathPattern.specificity_eq_lt is_exact (Bool.eq_false_iff.mpr inexact)
  exact least p member matching (Std.OrientedCmp.gt_of_lt later)

/-- A list of patterns that begins with the path itself comes before one without the path. -/
theorem comparePatterns_eq_lt {first : PathPattern} {rest : List PathPattern}
    (exact_first : first.isExactly context.lookupPath = true)
    (inexact : ∀ p ∈ others, p.isExactly context.lookupPath = false) :
    comparePatterns context (first :: rest) others = .lt := by
  cases others with
  | nil => rfl
  | cons second _ =>
    rw [comparePatterns,
      PathPattern.specificity_eq_lt exact_first (inexact second List.mem_cons_self)]
    rfl

theorem compareFor_eq_lt_of_directPaths {a b narrowedA narrowedB : Route} (built : a.Built)
    (built' : b.Built) (narrows : a.narrow context = some narrowedA)
    (narrows' : b.narrow context = some narrowedB) (direct : context.lookupPath ∈ a.directPaths)
    (indirect : context.lookupPath ∉ b.directPaths) (not_head : context.request.method ≠ .head) :
    compareFor context narrowedA narrowedB = .lt := by
  obtain ⟨p, member, literal, source⟩ := mem_directPaths.mp direct
  obtain ⟨first, rest, begins, exact_first⟩ := exists_exact_of_narrowPatterns
    (built.parsed p member) literal source member (narrow_patterns narrows)
  have inexact (q : PathPattern) (listed : q ∈ narrowedB.patterns) :
      q.isExactly context.lookupPath = false := by
    rw [PathPattern.isExactly, beq_eq_false_iff_ne]
    intro source'
    have declared := ((mem_narrowPatterns_iff (narrow_patterns narrows')).mp listed).1
    exact indirect (built.mem_directPaths_of_source_eq built' direct declared source')
  have before : comparePatterns context narrowedA.patterns narrowedB.patterns = .lt :=
    begins ▸ comparePatterns_eq_lt exact_first inexact
  simp [compareFor, not_head, compareConditions, before]

end Route

/-- A call under a strategy for routes; a key that is registered is a route that came to be. -/
def RegistryCall.Routed (strategy : MappingStrategy Route) : RegistryCall Route → Prop
  | .register own key _ => own = strategy ∧ key.Built
  | .unregister _ => True

namespace MethodMapping

/-- Look up a request among all the keys in a given order, those under its exact path or not. -/
def scanIn {κ : Type} [BEq κ] (m : MethodMapping κ) (request : Request) (order : List κ) :
    Selection κ :=
  let path := m.strategy.lookupPath request
  (m.pick request path (m.candidates request path order)).getD
    (.miss (m.strategy.onMiss order path request))

/-- The live registrations are of routes that came to be, with the paths these match literally. -/
structure Routed (m : MethodMapping Route) : Prop where
  built : ∀ r ∈ m.registry.registrations, r.mapping.Built
  directPaths : ∀ r ∈ m.registry.registrations, r.directPaths = r.mapping.directPaths

variable {m : MethodMapping Route} {config : MappingConfig} {request : Request}

theorem routed_of_reached (routes : m.strategy = RouteStrategy.strategy config)
    {calls : List (RegistryCall Route)} (history : m.registry = Registry.reached m.naming calls)
    (routed : ∀ call ∈ calls, call.Routed m.strategy) : m.Routed where
  built := by
    intro r live
    obtain ⟨strategy, handler, called, -⟩ := Registry.exists_register_of_mem (history ▸ live)
    exact (routed _ called).2
  directPaths := by
    intro r live
    obtain ⟨strategy, handler, called, direct⟩ := Registry.exists_register_of_mem (history ▸ live)
    rw [direct, (routed _ called).1, routes]
    rfl

section Shortcut

variable (routes : m.strategy = RouteStrategy.strategy config)
  (consistent : m.registry.Consistent) (routed : m.Routed) (not_head : request.method ≠ .head)

include routes consistent routed not_head

/-- A direct candidate is better than one that is not. -/
theorem rank_eq_lt_of_direct {c d : Candidate Route} (fits : m.Fits request c)
    (fits' : m.Fits request d) (direct : m.Direct request c) (indirect : ¬ m.Direct request d) :
    m.rank request c d = .lt := by
  rw [direct_iff consistent fits, routed.directPaths _ fits.live] at direct
  rw [direct_iff consistent fits', routed.directPaths _ fits'.live] at indirect
  have narrows := fits.narrows
  have narrows' := fits'.narrows
  simp only [rank]
  simp only [routes] at narrows narrows' direct indirect ⊢
  exact Route.compareFor_eq_lt_of_directPaths (routed.built _ fits.live) (routed.built _ fits'.live)
    narrows narrows' direct indirect not_head

/-- A candidate that no other one is better than is eligible. -/
theorem eligible_of_least [Std.TransCmp (m.rank request)] {c : Candidate Route}
    (fits : m.Fits request c) (least : ∀ d, m.Fits request d → m.rank request c d ≠ .gt) :
    m.Eligible request c := by
  refine ⟨fits, fun d fits' direct => ?_⟩
  by_contra indirect
  have before := rank_eq_lt_of_direct routes consistent routed not_head fits' fits direct indirect
  exact least d fits' (Std.OrientedCmp.gt_of_lt before)

/-- To be better than all eligible candidates is to be better than all that fit. -/
theorem strictBest_iff_of_routed [Std.TransCmp (m.rank request)] {c : Candidate Route} :
    m.StrictBest request c ↔
      m.Fits request c ∧ ∀ d, m.Fits request d → d ≠ c → m.rank request c d = .lt := by
  constructor
  · rintro ⟨eligible, best⟩
    refine ⟨eligible.fits, fun d fits different => ?_⟩
    -- Either d is eligible together with c, or c alone is direct and comes first by its path.
    by_cases shared : m.Direct request d ∨ ¬ m.Direct request c
    · refine best d ⟨fits, fun e fits' direct => ?_⟩ different
      exact shared.resolve_right fun indirect => indirect (eligible.direct e fits' direct)
    · obtain ⟨indirect, direct⟩ := not_or.mp shared
      exact rank_eq_lt_of_direct routes consistent routed not_head eligible.fits fits
        (not_not.mp direct) indirect
  · rintro ⟨fits, best⟩
    have least (d : Candidate Route) (fits' : m.Fits request d) : m.rank request c d ≠ .gt := by
      by_cases same : d = c
      · simp [same, Std.ReflCmp.compare_self]
      · simp [best d fits' same]
    exact ⟨eligible_of_least routes consistent routed not_head fits least,
      fun d eligible => best d eligible.fits⟩

/-- Trying all keys selects by the same rules as looking up the exact path first. -/
theorem selects_scanIn [Std.TransCmp (m.rank request)] {order : List Route}
    (enumerated : order.Perm m.registry.keys) (not_preflight : request.isPreflight = false) :
    m.Selects request order (m.scanIn request order) := by
  have listed (c : Candidate Route) :
      c ∈ m.candidates request (m.strategy.lookupPath request) order ↔ m.Fits request c :=
    mem_all_candidates consistent enumerated
  have distinct : (m.candidates request (m.strategy.lookupPath request) order).Nodup :=
    nodup_candidates consistent (simple_of_perm consistent enumerated)
  simp only [scanIn]
  generalize m.candidates request (m.strategy.lookupPath request) order = found at *
  have strict_iff (c : Candidate Route) :
      m.StrictBest request c ↔ Sorting.StrictlyLeast (m.rank request) found c := by
    simp only [strictBest_iff_of_routed routes consistent routed not_head, Sorting.StrictlyLeast,
      listed]
  rcases pick_cases m request distinct with ⟨rfl, picked⟩ | ⟨c, strict, picked⟩ |
    ⟨a, b, none_strict, left, right, different, equal, least, picked⟩
  · rw [picked]
    exact .miss fun c fits => by simpa using (listed c).mpr fits
  · rw [picked]
    exact .best ((strict_iff c).mpr strict)
  · have eligible {c : Candidate Route} (member : c ∈ found)
        (least : ∀ d ∈ found, m.rank request c d ≠ .gt) : m.Eligible request c :=
      eligible_of_least routes consistent routed not_head ((listed c).mp member)
        fun d fits => least d ((listed d).mpr fits)
    have tied : m.Tied request a b :=
      { left := eligible left fun d member => (least d member).1
        right := eligible right fun d member => (least d member).2
        different
        equal
        least := fun c eligible => least c ((listed c).mpr eligible.fits) }
    rw [picked, Option.getD_some, tieSelection, not_preflight, Bool.false_and]
    refine .ambiguous (fun c strict => none_strict c ((strict_iff c).mp strict)) tied ?_
    simp [AnswersPreflight, not_preflight]

end Shortcut

end MethodMapping

end HttpRouting
