import HttpRouting.Proofs.Mapping.Miss
import HttpRouting.Proofs.Registry.Invariant
import HttpRouting.Proofs.Route.Built
import HttpRouting.Proofs.Route.Order
import HttpRouting.Proofs.Sorting
import Mathlib.Data.List.Permutation

/-!
Which registration a look-up selects.  The candidates are the registrations that match the request,
and only those whose keys stand under the exact path if one of these matches.  The one that is
strictly better than all others is selected; without such a one the look-up is ambiguous.
-/

set_option autoImplicit false
set_option relaxedAutoImplicit false

namespace HttpRouting.MethodMapping

section Candidates

variable {κ : Type} [BEq κ] (m : MethodMapping κ) (request : Request)

/-- A live registration matches a request, which narrows its key. -/
structure Fits (c : Candidate κ) : Prop where
  live : c.registration ∈ m.registry.registrations
  narrows : m.strategy.narrow c.registration.mapping request (m.strategy.lookupPath request) =
    some c.narrowed

/-- The key of a candidate stands under the exact path of a request. -/
def Direct (c : Candidate κ) : Prop :=
  c.registration.mapping ∈ m.registry.keysAt (m.strategy.lookupPath request)

/-- The candidates that a look-up chooses from: all that fit, or if one of them is direct, the direct
ones. -/
structure Eligible (c : Candidate κ) : Prop where
  fits : m.Fits request c
  direct : ∀ d, m.Fits request d → m.Direct request d → m.Direct request c

/-- Which of two candidates fits a request better. -/
def rank (a b : Candidate κ) : Ordering :=
  m.strategy.compare a.narrowed b.narrowed request (m.strategy.lookupPath request)

/-- A candidate is better than every other one. -/
def StrictBest (c : Candidate κ) : Prop :=
  m.Eligible request c ∧ ∀ d, m.Eligible request d → d ≠ c → m.rank request c d = .lt

/-- Two candidates are equally good, and no other one is better than either. -/
structure Tied (a b : Candidate κ) : Prop where
  left : m.Eligible request a
  right : m.Eligible request b
  different : a ≠ b
  equal : m.rank request a b = .eq
  least : ∀ c, m.Eligible request c → m.rank request a c ≠ .gt ∧ m.rank request b c ≠ .gt

variable {m request} [EquivBEq κ]

omit [EquivBEq κ] in
/-- A candidate was made from a key that the request fits and that is registered. -/
theorem mem_candidates_iff_exists {path : String} {keys : List κ} {c : Candidate κ} :
    c ∈ m.candidates request path keys ↔
      ∃ key ∈ keys, m.strategy.narrow key request path = some c.narrowed ∧
        m.registry.registration? key = some c.registration := by
  simp only [candidates, List.mem_filterMap]
  refine exists_congr fun key => and_congr_right fun _ => ?_
  constructor
  · intro made
    split at made
    · next narrows found =>
      cases made
      exact ⟨narrows, found⟩
    · cases made
  · rintro ⟨narrows, found⟩
    rw [narrows, found]

theorem mem_candidates (consistent : m.registry.Consistent) {keys : List κ}
    (bound : ∀ key ∈ keys, ∃ r ∈ m.registry.registrations, r.mapping = key) {c : Candidate κ} :
    c ∈ m.candidates request (m.strategy.lookupPath request) keys ↔
      m.Fits request c ∧ c.registration.mapping ∈ keys := by
  have registered (r : Registration κ) (live : r ∈ m.registry.registrations) :
      m.registry.registration? r.mapping = some r :=
    consistent.registration?_eq_some_iff.mpr ⟨live, BEq.rfl⟩
  rw [mem_candidates_iff_exists]
  constructor
  · rintro ⟨key, listed, narrows, found⟩
    obtain ⟨r, live, rfl⟩ := bound key listed
    obtain rfl := Option.some.inj ((registered r live).symm.trans found)
    exact ⟨⟨live, narrows⟩, listed⟩
  · rintro ⟨fits, listed⟩
    exact ⟨_, listed, fits.narrows, registered _ fits.live⟩

theorem nodup_candidates (consistent : m.registry.Consistent) {path : String} {keys : List κ}
    (distinct : Table.Simple keys) : (m.candidates request path keys).Nodup := by
  have key_of {key : κ} {c : Candidate κ} (made : c ∈ m.candidates request path [key]) :
      (c.registration.mapping == key) = true := by
    obtain ⟨_, listed, -, found⟩ := mem_candidates_iff_exists.mp made
    obtain rfl := List.mem_singleton.mp listed
    exact (consistent.registration?_eq_some_iff.mp found).2
  refine List.Pairwise.filterMap _ ?_ distinct
  intro key other apart c made c' made' same
  subst same
  have own := key_of (List.mem_filterMap.mpr ⟨key, List.mem_singleton_self key, made⟩)
  have own' := key_of (List.mem_filterMap.mpr ⟨other, List.mem_singleton_self other, made'⟩)
  have equal := PartialEquivBEq.trans (PartialEquivBEq.symm own) own'
  simp [apart] at equal

theorem mem_direct_candidates (consistent : m.registry.Consistent) {c : Candidate κ} :
    c ∈ m.candidates request (m.strategy.lookupPath request)
        (m.registry.keysAt (m.strategy.lookupPath request)) ↔
      m.Fits request c ∧ m.Direct request c := by
  refine mem_candidates consistent fun key listed => ?_
  obtain ⟨r, live, own, -⟩ := (consistent.mem_keysAt _ key).mp listed
  exact ⟨r, live, own⟩

theorem mem_all_candidates (consistent : m.registry.Consistent) {order : List κ}
    (enumerated : order.Perm m.registry.keys) {c : Candidate κ} :
    c ∈ m.candidates request (m.strategy.lookupPath request) order ↔ m.Fits request c := by
  rw [mem_candidates consistent fun key listed =>
    consistent.mem_keys_iff.mp (enumerated.mem_iff.mp listed)]
  refine and_iff_left_of_imp fun fits => ?_
  exact enumerated.mem_iff.mpr (consistent.mem_keys_iff.mpr ⟨_, fits.live, rfl⟩)

theorem mem_matchesIn (consistent : m.registry.Consistent) {order : List κ}
    (enumerated : order.Perm m.registry.keys) {c : Candidate κ} :
    c ∈ m.matchesIn request (m.strategy.lookupPath request) order ↔ m.Eligible request c := by
  simp only [matchesIn]
  split
  · next none_direct =>
    have indirect (d : Candidate κ) (fits : m.Fits request d) : ¬ m.Direct request d := fun direct =>
      absurd ((mem_direct_candidates consistent).mpr ⟨fits, direct⟩) (by simp [none_direct])
    rw [mem_all_candidates consistent enumerated]
    exact ⟨fun fits => ⟨fits, fun d fits' direct => absurd direct (indirect d fits')⟩,
      fun eligible => eligible.fits⟩
  · next some_direct =>
    rw [mem_direct_candidates consistent]
    constructor
    · rintro ⟨fits, direct⟩
      exact ⟨fits, fun _ _ _ => direct⟩
    · intro eligible
      obtain ⟨d, listed⟩ := List.exists_mem_of_ne_nil _ some_direct
      obtain ⟨fits, direct⟩ := (mem_direct_candidates consistent).mp listed
      exact ⟨eligible.fits, eligible.direct d fits direct⟩

theorem direct_iff (consistent : m.registry.Consistent) {c : Candidate κ}
    (fits : m.Fits request c) :
    m.Direct request c ↔ m.strategy.lookupPath request ∈ c.registration.directPaths := by
  rw [Direct, consistent.mem_keysAt]
  constructor
  · rintro ⟨r, live, own, direct⟩
    have bound := consistent.registration?_eq_some_iff.mpr ⟨fits.live, BEq.rfl⟩
    rwa [← consistent.eq_of_registration?_eq_some bound live (own ▸ BEq.rfl)]
  · intro direct
    exact ⟨_, fits.live, rfl, direct⟩

theorem simple_of_perm (consistent : m.registry.Consistent) {order : List κ}
    (enumerated : order.Perm m.registry.keys) : Table.Simple order :=
  consistent.simple_keys.perm enumerated.symm fun apart => by rw [BEq.comm, apart]

theorem nodup_matchesIn (consistent : m.registry.Consistent) (path : String) {order : List κ}
    (enumerated : order.Perm m.registry.keys) : (m.matchesIn request path order).Nodup := by
  simp only [matchesIn]
  split
  · exact nodup_candidates consistent (simple_of_perm consistent enumerated)
  · exact nodup_candidates consistent (consistent.simple_keysAt path)

end Candidates

section Pick

open Sorting (StrictlyLeast)

variable {κ : Type} [BEq κ] {m : MethodMapping κ} {request : Request} {found : List (Candidate κ)}

/-- What is selected when candidates tie. -/
def tieSelection (m : MethodMapping κ) (request : Request) (found : List (Candidate κ))
    (a b : Candidate κ) : Selection κ :=
  if request.isPreflight && found.any fun c => c.registration.hasCors then .ambiguousPreflight
  else
    .ambiguous (.ambiguousHandler (m.strategy.lookupPath request) a.registration.handler.text
      b.registration.handler.text)

omit [BEq κ] in
theorem pick_eq (m : MethodMapping κ) (request : Request) (found : List (Candidate κ)) :
    m.pick request (m.strategy.lookupPath request) found =
      match Sorting.sortBy (m.rank request) found with
      | [] => none
      | [best] => some (.best best)
      | best :: second :: _ =>
        some (if m.rank request best second = .eq then m.tieSelection request found best second
          else .best best) := by
  unfold pick rank tieSelection
  dsimp only
  generalize Sorting.sortBy _ found = sorted
  match sorted with
  | [] => rfl
  | [_] => rfl
  | best :: second :: _ =>
    dsimp only
    split
    · split <;> rfl
    · rfl

omit [BEq κ] in
/-- Picking among candidates: there is none, or one is the strict least, or none is and two that are
as good as any other tie. -/
theorem pick_cases (m : MethodMapping κ) (request : Request) [Std.TransCmp (m.rank request)]
    (distinct : found.Nodup) :
    (found = [] ∧ m.pick request (m.strategy.lookupPath request) found = none) ∨
      (∃ c, StrictlyLeast (m.rank request) found c ∧
        m.pick request (m.strategy.lookupPath request) found = some (.best c)) ∨
      ∃ a b, (∀ c, ¬ StrictlyLeast (m.rank request) found c) ∧ a ∈ found ∧ b ∈ found ∧ a ≠ b ∧
        m.rank request a b = .eq ∧
        (∀ c ∈ found, m.rank request a c ≠ .gt ∧ m.rank request b c ≠ .gt) ∧
        m.pick request (m.strategy.lookupPath request) found =
          some (m.tieSelection request found a b) := by
  have rearranged := Sorting.sortBy_perm (m.rank request) found
  rw [pick_eq]
  cases sorted : Sorting.sortBy (m.rank request) found with
  | nil => exact .inl ⟨Sorting.sortBy_eq_nil_iff.mp sorted, rfl⟩
  | cons best others =>
    rw [sorted] at rearranged
    have listed : best ∈ found := rearranged.mem_iff.mp List.mem_cons_self
    cases others with
    | nil =>
      refine .inr (.inl ⟨best, ⟨listed, fun d member other => ?_⟩, rfl⟩)
      exact absurd (List.mem_singleton.mp (rearranged.mem_iff.mpr member)) other
    | cons second rest =>
      have second_listed : second ∈ found :=
        rearranged.mem_iff.mp (List.mem_cons_of_mem _ List.mem_cons_self)
      have least := Sorting.strictlyLeast_iff distinct sorted
      by_cases tied : m.rank request best second = .eq
      · have different : best ≠ second := by
          rintro rfl
          simpa using rearranged.nodup_iff.mpr distinct
        have up_to (c : Candidate κ) (member : c ∈ found) :
            (m.rank request best c).isLE = true :=
          Sorting.isLE_first_of_sortBy_eq_cons sorted member
        refine .inr (.inr ⟨best, second, fun c strict => ((least c).mp strict).2 tied, listed,
          second_listed, different, tied, fun c member => ?_, by simp only [if_pos tied]⟩)
        have second_up_to : m.rank request second c = m.rank request best c :=
          (Std.TransCmp.congr_left tied).symm
        rw [second_up_to]
        exact ⟨Ordering.ne_gt_iff_isLE.mpr (up_to c member),
          Ordering.ne_gt_iff_isLE.mpr (up_to c member)⟩
      · exact .inr (.inl ⟨best, (least best).mpr ⟨rfl, tied⟩, by simp only [if_neg tied]⟩)

end Pick

section Select

variable {κ : Type}

/-- An ambiguous look-up is answered for a preflight when one of the candidates has a policy. -/
def AnswersPreflight (m : MethodMapping κ) (request : Request) : Prop :=
  request.isPreflight = true ∧ ∃ c, m.Eligible request c ∧ c.registration.hasCors = true

/-- What a look-up has to select, by its candidates alone. -/
inductive Selects (m : MethodMapping κ) (request : Request) (order : List κ) : Selection κ → Prop
  | miss (none_fits : ∀ c, ¬ m.Fits request c) : Selects m request order
      (.miss (m.strategy.onMiss order (m.strategy.lookupPath request) request))
  | best {c : Candidate κ} (strict : m.StrictBest request c) : Selects m request order (.best c)
  | ambiguousPreflight {a b : Candidate κ} (none_strict : ∀ c, ¬ m.StrictBest request c)
      (tied : m.Tied request a b) (answers : m.AnswersPreflight request) :
      Selects m request order .ambiguousPreflight
  | ambiguous {a b : Candidate κ} (none_strict : ∀ c, ¬ m.StrictBest request c)
      (tied : m.Tied request a b) (unanswered : ¬ m.AnswersPreflight request) :
      Selects m request order (.ambiguous (.ambiguousHandler (m.strategy.lookupPath request)
        a.registration.handler.text b.registration.handler.text))

variable {m : MethodMapping κ} {request : Request} {order : List κ}

theorem StrictBest.unique [Std.TransCmp (m.rank request)] {c d : Candidate κ}
    (strict : m.StrictBest request c) (strict' : m.StrictBest request d) : c = d := by
  by_contra different
  have before := strict.2 d strict'.1 (Ne.symm different)
  have behind := strict'.2 c strict.1 different
  exact Std.OrientedCmp.not_lt_of_lt before behind

namespace Selects

variable {s : Selection κ} (selects : m.Selects request order s)

include selects

theorem eq_miss_iff {answer : Except MappingError (Option HandlerMethod)} :
    s = .miss answer ↔ (∀ c, ¬ m.Fits request c) ∧
      answer = m.strategy.onMiss order (m.strategy.lookupPath request) request := by
  cases selects with
  | miss none_fits =>
    constructor
    · intro same
      exact ⟨none_fits, (Selection.miss.inj same).symm⟩
    · rintro ⟨-, rfl⟩
      rfl
  | best strict => exact ⟨nofun, fun none_fits => absurd strict.1.fits (none_fits.1 _)⟩
  | ambiguousPreflight _ tied _ =>
    exact ⟨nofun, fun none_fits => absurd tied.left.fits (none_fits.1 _)⟩
  | ambiguous _ tied _ => exact ⟨nofun, fun none_fits => absurd tied.left.fits (none_fits.1 _)⟩

theorem eq_best_iff [Std.TransCmp (m.rank request)] {c : Candidate κ} :
    s = .best c ↔ m.StrictBest request c := by
  cases selects with
  | miss none_fits => exact ⟨nofun, fun strict => absurd strict.1.fits (none_fits _)⟩
  | best strict =>
    constructor
    · intro same
      rwa [← Selection.best.inj same]
    · intro strict'
      rw [strict.unique strict']
  | ambiguousPreflight none_strict => exact ⟨nofun, fun strict => absurd strict (none_strict _)⟩
  | ambiguous none_strict => exact ⟨nofun, fun strict => absurd strict (none_strict _)⟩

theorem eq_ambiguousPreflight_iff :
    s = .ambiguousPreflight ↔ (∃ c, m.Fits request c) ∧ (∀ c, ¬ m.StrictBest request c) ∧
      m.AnswersPreflight request := by
  cases selects with
  | miss none_fits => exact ⟨nofun, fun ⟨⟨c, fits⟩, _⟩ => absurd fits (none_fits c)⟩
  | best strict => exact ⟨nofun, fun ⟨_, none_strict, _⟩ => absurd strict (none_strict _)⟩
  | ambiguousPreflight none_strict tied answers =>
    exact ⟨fun _ => ⟨⟨_, tied.left.fits⟩, none_strict, answers⟩, fun _ => rfl⟩
  | ambiguous _ _ unanswered => exact ⟨nofun, fun ⟨_, _, answers⟩ => absurd answers unanswered⟩

theorem eq_ambiguous_iff :
    (∃ error, s = .ambiguous error) ↔ (∃ c, m.Fits request c) ∧
      (∀ c, ¬ m.StrictBest request c) ∧ ¬ m.AnswersPreflight request := by
  cases selects with
  | miss none_fits => exact ⟨nofun, fun ⟨⟨c, fits⟩, _⟩ => absurd fits (none_fits c)⟩
  | best strict => exact ⟨nofun, fun ⟨_, none_strict, _⟩ => absurd strict (none_strict _)⟩
  | ambiguousPreflight _ _ answers =>
    exact ⟨nofun, fun ⟨_, _, unanswered⟩ => absurd answers unanswered⟩
  | ambiguous none_strict tied unanswered =>
    exact ⟨fun _ => ⟨⟨_, tied.left.fits⟩, none_strict, unanswered⟩, fun _ => ⟨_, rfl⟩⟩

theorem tied_of_eq_ambiguous {error : MappingError} (same : s = .ambiguous error) :
    ∃ a b, m.Tied request a b ∧ error = .ambiguousHandler (m.strategy.lookupPath request)
      a.registration.handler.text b.registration.handler.text := by
  cases selects with
  | ambiguous _ tied _ => exact ⟨_, _, tied, (Selection.ambiguous.inj same).symm⟩
  | _ => cases same

/-- What is selected is determined, up to which of several equally good candidates an error
names. -/
theorem eq_or_tied [Std.TransCmp (m.rank request)] {s' : Selection κ}
    (selects' : m.Selects request order s') :
    s = s' ∨ ∃ a b a' b', m.Tied request a b ∧ m.Tied request a' b' ∧
      s = .ambiguous (.ambiguousHandler (m.strategy.lookupPath request)
        a.registration.handler.text b.registration.handler.text) ∧
      s' = .ambiguous (.ambiguousHandler (m.strategy.lookupPath request)
        a'.registration.handler.text b'.registration.handler.text) := by
  cases selects' with
  | miss none_fits => exact .inl (selects.eq_miss_iff.mpr ⟨none_fits, rfl⟩)
  | best strict => exact .inl (selects.eq_best_iff.mpr strict)
  | ambiguousPreflight none_strict tied answers =>
    exact .inl (selects.eq_ambiguousPreflight_iff.mpr ⟨⟨_, tied.left.fits⟩, none_strict, answers⟩)
  | @ambiguous a' b' none_strict tied' unanswered =>
    obtain ⟨error, ambiguous⟩ :=
      selects.eq_ambiguous_iff.mpr ⟨⟨_, tied'.left.fits⟩, none_strict, unanswered⟩
    obtain ⟨a, b, tied, rfl⟩ := selects.tied_of_eq_ambiguous ambiguous
    exact .inr ⟨a, b, a', b', tied, tied', ambiguous, rfl⟩

end Selects

theorem selects_selectIn [BEq κ] [EquivBEq κ] [Std.TransCmp (m.rank request)]
    (consistent : m.registry.Consistent) (enumerated : order.Perm m.registry.keys) :
    m.Selects request order (m.selectIn request order) := by
  have eligible_iff (c : Candidate κ) :
      c ∈ m.matchesIn request (m.strategy.lookupPath request) order ↔ m.Eligible request c :=
    mem_matchesIn consistent enumerated
  have distinct : (m.matchesIn request (m.strategy.lookupPath request) order).Nodup :=
    nodup_matchesIn consistent _ enumerated
  have none_direct : m.matchesIn request (m.strategy.lookupPath request) order = [] →
      m.candidates request (m.strategy.lookupPath request) order = [] := by
    simp only [matchesIn]
    split
    · exact id
    · next some_direct => exact fun none_found => absurd none_found some_direct
  simp only [selectIn]
  generalize m.matchesIn request (m.strategy.lookupPath request) order = found at *
  have strict_iff (c : Candidate κ) :
      Sorting.StrictlyLeast (m.rank request) found c ↔ m.StrictBest request c := by
    simp only [Sorting.StrictlyLeast, StrictBest, eligible_iff]
  rcases pick_cases m request distinct with ⟨rfl, picked⟩ | ⟨c, strict, picked⟩ |
    ⟨a, b, none_strict, left, right, different, equal, least, picked⟩
  · rw [picked]
    refine .miss fun c fits => ?_
    have listed := (mem_all_candidates consistent enumerated).mpr fits
    simp [none_direct rfl] at listed
  · rw [picked]
    exact .best ((strict_iff c).mp strict)
  · rw [picked]
    have none_strict' (c : Candidate κ) : ¬ m.StrictBest request c :=
      fun strict => none_strict c ((strict_iff c).mpr strict)
    have tied : m.Tied request a b :=
      ⟨(eligible_iff a).mp left, (eligible_iff b).mp right, different, equal,
        fun c eligible => least c ((eligible_iff c).mpr eligible)⟩
    have answers_iff : (request.isPreflight && found.any fun c => c.registration.hasCors) = true ↔
        m.AnswersPreflight request := by
      simp only [AnswersPreflight, Bool.and_eq_true, List.any_eq_true, eligible_iff]
    simp only [tieSelection]
    split
    · next answers => exact .ambiguousPreflight none_strict' tied (answers_iff.mp answers)
    · next unanswered => exact .ambiguous none_strict' tied (unanswered ∘ answers_iff.mpr)

end Select

section Routes

variable {m : MethodMapping Route} {config : MappingConfig}

theorem transCmp_rank (routes : m.strategy = RouteStrategy.strategy config) (request : Request) :
    Std.TransCmp (m.rank request) := by
  have same (a b : Candidate Route) : m.rank request a b = Route.compareFor
      (RouteStrategy.context config request (m.strategy.lookupPath request)) a.narrowed b.narrowed := by
    simp only [rank, routes]
    rfl
  exact transCmp_congr same (transCmp_of_part Candidate.narrowed (Route.transCmp_compareFor _))

end Routes

end HttpRouting.MethodMapping
