import HttpRouting.Proofs.Mapping.Selection
import Mathlib

/-!
What a look-up of routes answers.  What it selects is told by the live registrations alone, and so is
its answer: neither the order in which they were made nor the order in which keys are tried makes a
difference.
-/

set_option autoImplicit false
set_option relaxedAutoImplicit false

namespace HttpRouting.MethodMapping

section Histories

variable {κ : Type} [BEq κ] {m : MethodMapping κ} {request : Request} {registry : Registry κ}

omit [BEq κ] in
theorem fits_congr (same : ∀ r, r ∈ registry.registrations ↔ r ∈ m.registry.registrations)
    (c : Candidate κ) : { m with registry }.Fits request c ↔ m.Fits request c :=
  ⟨fun fits => ⟨(same _).mp fits.live, fits.narrows⟩,
    fun fits => ⟨(same _).mpr fits.live, fits.narrows⟩⟩

/-- Registries with the same live registrations offer the same candidates. -/
theorem eligible_congr [EquivBEq κ] (consistent : m.registry.Consistent)
    (consistent' : registry.Consistent)
    (same : ∀ r, r ∈ registry.registrations ↔ r ∈ m.registry.registrations) (c : Candidate κ) :
    { m with registry }.Eligible request c ↔ m.Eligible request c := by
  have fits_iff (d : Candidate κ) : { m with registry }.Fits request d ↔ m.Fits request d :=
    fits_congr same d
  have direct_congr (d : Candidate κ) (fits : m.Fits request d) :
      { m with registry }.Direct request d ↔ m.Direct request d :=
    (direct_iff consistent' ((fits_iff d).mpr fits)).trans (direct_iff consistent fits).symm
  constructor
  · intro eligible
    have fits := (fits_iff c).mp eligible.fits
    refine ⟨fits, fun d fits' direct => (direct_congr c fits).mp ?_⟩
    exact eligible.direct d ((fits_iff d).mpr fits') ((direct_congr d fits').mpr direct)
  · intro eligible
    refine ⟨(fits_iff c).mpr eligible.fits, fun d fits' direct => ?_⟩
    have fits := (fits_iff d).mp fits'
    exact (direct_congr c eligible.fits).mpr
      (eligible.direct d fits ((direct_congr d fits).mp direct))

theorem keys_perm [EquivBEq κ] (consistent : m.registry.Consistent)
    (consistent' : registry.Consistent)
    (same : ∀ r, r ∈ registry.registrations ↔ r ∈ m.registry.registrations) :
    m.registry.keys.Perm registry.keys := by
  have distinct {keys : List κ} (simple : Table.Simple keys) : keys.Nodup :=
    simple.imp fun {a b} apart equal => by simp [equal] at apart
  refine (List.perm_ext_iff_of_nodup (distinct consistent.simple_keys)
    (distinct consistent'.simple_keys)).mpr fun key => ?_
  rw [consistent.mem_keys_iff, consistent'.mem_keys_iff]
  simp only [same]

end Histories

section Routes

/-- Two look-ups come to the same, up to which of several equally good candidates an error names and
in which order the answer to a miss lists. -/
inductive Agree : Selection Route → Selection Route → Prop
  | miss {answer answer' : Except MappingError (Option HandlerMethod)} :
      RouteStrategy.SameAnswer answer answer' → Agree (.miss answer) (.miss answer')
  | best (c : Candidate Route) : Agree (.best c) (.best c)
  | ambiguousPreflight : Agree .ambiguousPreflight .ambiguousPreflight
  | ambiguous (path first second first' second' : String) :
      Agree (.ambiguous (.ambiguousHandler path first second))
        (.ambiguous (.ambiguousHandler path first' second'))

/-- Two answers of look-ups are the same, up to which of several equally good candidates an error names
and in which order the answer to a miss lists. -/
inductive SameOutcome : Except MappingError (Option HandlerMethod) →
    Except MappingError (Option HandlerMethod) → Prop
  | miss {answer answer' : Except MappingError (Option HandlerMethod)} :
      RouteStrategy.SameAnswer answer answer' → SameOutcome answer answer'
  | found (handler : HandlerMethod) : SameOutcome (.ok (some handler)) (.ok (some handler))
  | ambiguous (path first second first' second' : String) :
      SameOutcome (.error (.ambiguousHandler path first second))
        (.error (.ambiguousHandler path first' second'))

theorem Agree.settle {s s' : Selection Route} (agree : Agree s s') (m m' : MethodMapping Route)
    (exchange : Exchange) : SameOutcome (m.settle exchange s).2 (m'.settle exchange s').2 := by
  cases agree with
  | miss same => exact .miss same
  | best c => exact .found c.registration.handler
  | ambiguousPreflight => exact .found .ambiguousPreflight
  | ambiguous path first second first' second' => exact .ambiguous path first second first' second'

variable {m : MethodMapping Route} {config : MappingConfig} {request : Request}

theorem selects_agree [Std.TransCmp (m.rank request)]
    (routes : m.strategy = RouteStrategy.strategy config) {registry : Registry Route}
    (consistent : m.registry.Consistent) (consistent' : registry.Consistent)
    (same : ∀ r, r ∈ registry.registrations ↔ r ∈ m.registry.registrations)
    {order order' : List Route} (enumerated : order.Perm m.registry.keys)
    (enumerated' : order'.Perm registry.keys) {s s' : Selection Route}
    (selects : m.Selects request order s)
    (selects' : { m with registry }.Selects request order' s') : Agree s s' := by
  have eligible_iff (c : Candidate Route) :
      { m with registry }.Eligible request c ↔ m.Eligible request c :=
    eligible_congr consistent consistent' same c
  have strict_iff (c : Candidate Route) :
      { m with registry }.StrictBest request c ↔ m.StrictBest request c := by
    simp only [StrictBest, eligible_iff]
    rfl
  have answers_iff : { m with registry }.AnswersPreflight request ↔ m.AnswersPreflight request := by
    simp only [AnswersPreflight, eligible_iff]
  cases selects' with
  | miss none_fits' =>
    have none_fits (c : Candidate Route) : ¬ m.Fits request c := fun fits =>
      none_fits' c ((fits_congr same c).mpr fits)
    have reordered := enumerated.trans
      ((keys_perm consistent consistent' same).trans enumerated'.symm)
    rw [selects.eq_miss_iff.mpr ⟨none_fits, rfl⟩]
    simp only [routes]
    exact .miss (RouteStrategy.onMiss_perm config reordered _ request)
  | best strict' =>
    rw [selects.eq_best_iff.mpr ((strict_iff _).mp strict')]
    exact .best _
  | ambiguousPreflight none_strict' tied' answers' =>
    rw [selects.eq_ambiguousPreflight_iff.mpr ⟨⟨_, ((eligible_iff _).mp tied'.left).fits⟩,
      fun c strict => none_strict' c ((strict_iff c).mpr strict), answers_iff.mp answers'⟩]
    exact .ambiguousPreflight
  | ambiguous none_strict' tied' unanswered' =>
    obtain ⟨error, ambiguous⟩ := selects.eq_ambiguous_iff.mpr
      ⟨⟨_, ((eligible_iff _).mp tied'.left).fits⟩,
        fun c strict => none_strict' c ((strict_iff c).mpr strict),
        fun answers => unanswered' (answers_iff.mpr answers)⟩
    obtain ⟨a, b, -, rfl⟩ := selects.tied_of_eq_ambiguous ambiguous
    rw [ambiguous]
    exact .ambiguous _ _ _ _ _

end Routes

end HttpRouting.MethodMapping
