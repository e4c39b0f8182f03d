import HttpRouting.Dispatch.Application
import HttpRouting.Proofs.Cors.Process
import HttpRouting.Proofs.Mapping.Miss
import HttpRouting.Proofs.Route.Built
import HttpRouting.Proofs.Text.Split

/-!
The reason of a miss.  The conditions of the routes are gone through in a fixed order, and the answer
tells the first one that no route gets through.
-/

set_option autoImplicit false
set_option relaxedAutoImplicit false

namespace HttpRouting.RouteStrategy

/-- The conditions of a route, in the order in which a miss goes through them.  Those on header fields
come last and are not told. -/
inductive Condition where
  | path
  | methods
  | consumes
  | produces
  | params
  | headers
deriving DecidableEq

namespace Condition

/-- Whether a route satisfies one of its conditions. -/
def holds (context : RequestContext) (r : Route) : Condition → Bool
  | path => (Route.narrowPatterns context r.patterns).isSome
  | methods => (Route.narrowMethods context r.methods).isSome
  | consumes => (Route.narrowConsumes context r.consumes).isSome
  | produces => (Route.narrowProduces context r.produces).isSome
  | params => (Route.narrowParams context r.params).isSome
  | headers => (Route.narrowHeaders context r.headers).isSome

/-- The conditions that come first, up to a given one. -/
def upTo : Condition → List Condition
  | path => [path]
  | methods => [path, methods]
  | consumes => [path, methods, consumes]
  | produces => [path, methods, consumes, produces]
  | params => [path, methods, consumes, produces, params]
  | headers => [path, methods, consumes, produces, params, headers]

theorem mem_upTo (c : Condition) : c ∈ c.upTo := by
  cases c <;> decide

theorem upTo_subset {b c : Condition} (earlier : b ∈ c.upTo) : b.upTo ⊆ c.upTo := by
  revert earlier
  cases b <;> cases c <;> decide

theorem mem_upTo_params_iff {c : Condition} : c ∈ params.upTo ↔ c ≠ headers := by
  cases c <;> decide

theorem mem_upTo_or (b c : Condition) : b ∈ c.upTo ∨ c ∈ b.upTo := by
  cases b <;> cases c <;> decide

variable {context : RequestContext} {routes : List Route} {r : Route} {b c : Condition}

theorem isSome_narrow_iff :
    (r.narrow context).isSome = true ↔ ∀ c, holds context r c = true := by
  constructor
  · intro narrows
    obtain ⟨narrowed, narrows⟩ := Option.isSome_iff_exists.mp narrows
    simp only [Route.narrow, Option.bind_eq_bind, Option.bind_eq_some_iff] at narrows
    obtain ⟨_, methods, _, params, _, headers, _, consumes, _, produces, _, patterns, -⟩ := narrows
    intro c
    cases c <;> simp only [holds, methods, params, headers, consumes, produces, patterns,
      Option.isSome_some]
  · intro all
    obtain ⟨_, patterns⟩ := Option.isSome_iff_exists.mp (all path)
    obtain ⟨_, methods⟩ := Option.isSome_iff_exists.mp (all methods)
    obtain ⟨_, consumes⟩ := Option.isSome_iff_exists.mp (all consumes)
    obtain ⟨_, produces⟩ := Option.isSome_iff_exists.mp (all produces)
    obtain ⟨_, params⟩ := Option.isSome_iff_exists.mp (all params)
    obtain ⟨_, headers⟩ := Option.isSome_iff_exists.mp (all headers)
    simp only [Route.narrow, methods, params, headers, consumes, produces, patterns]
    rfl

/-- The routes that satisfy the conditions up to a given one. -/
def passing (context : RequestContext) (routes : List Route) (c : Condition) : List Route :=
  routes.filter fun r => c.upTo.all (holds context r)

theorem mem_passing :
    r ∈ passing context routes c ↔ r ∈ routes ∧ ∀ b ∈ c.upTo, holds context r b = true := by
  simp only [passing, List.mem_filter, List.all_eq_true]

theorem passing_subset (earlier : b ∈ c.upTo) :
    passing context routes c ⊆ passing context routes b := by
  intro r passes
  obtain ⟨listed, satisfied⟩ := mem_passing.mp passes
  exact mem_passing.mpr ⟨listed, fun a before => satisfied a (upTo_subset earlier before)⟩

/-- Each condition is gone through among the routes that passed the one before. -/
theorem filter_passing (next : c.upTo = b.upTo ++ [c]) :
    (passing context routes b).filter (fun r => holds context r c) = passing context routes c := by
  simp only [passing, next, List.filter_filter, List.all_append, List.all_cons, List.all_nil,
    Bool.and_true]
  exact List.filter_congr fun r _ => Bool.and_comm _ _

/-- No route gets through this condition, and some route gets through each of those before. -/
def Stops (context : RequestContext) (routes : List Route) (c : Condition) : Prop :=
  passing context routes c = [] ∧ ∀ b ∈ c.upTo, b ≠ c → passing context routes b ≠ []

theorem Stops.unique (stops : Stops context routes b) (stops' : Stops context routes c) : b = c := by
  by_contra other
  rcases mem_upTo_or b c with earlier | later
  · exact stops'.2 b earlier other stops.1
  · exact stops.2 c later (Ne.symm other) stops'.1

theorem stops_path_iff : Stops context routes path ↔ passing context routes path = [] := by
  refine ⟨fun stops => stops.1, fun none_passes => ⟨none_passes, fun b before other => ?_⟩⟩
  exact (other (List.mem_singleton.mp before)).elim

theorem stops_iff_of_next (next : c.upTo = b.upTo ++ [c]) :
    Stops context routes c ↔ passing context routes b ≠ [] ∧ passing context routes c = [] := by
  constructor
  · rintro ⟨none_passes, some_pass⟩
    refine ⟨some_pass b (next ▸ List.mem_append_left _ (mem_upTo b)) ?_, none_passes⟩
    rintro rfl
    simp at next
  · rintro ⟨some_pass, none_passes⟩
    refine ⟨none_passes, fun a before other none_passes' => some_pass ?_⟩
    rw [next, List.mem_append, List.mem_singleton] at before
    exact List.subset_nil.mp (none_passes' ▸ passing_subset (before.resolve_right other))

theorem passing_headers_eq_nil (missed : ∀ r ∈ routes, r.narrow context = none) :
    passing context routes headers = [] := by
  refine List.eq_nil_iff_forall_not_mem.mpr fun r passes => ?_
  obtain ⟨listed, satisfied⟩ := mem_passing.mp passes
  have narrows : (r.narrow context).isSome = true :=
    isSome_narrow_iff.mpr fun c => satisfied c (by cases c <;> decide)
  rw [missed r listed] at narrows
  cases narrows

/-- Where no route matches as a whole, some route gets through all that is gone through exactly when
it fails on its header fields and on nothing else. -/
theorem stops_headers_iff (missed : ∀ r ∈ routes, r.narrow context = none) :
    Stops context routes headers ↔ ∃ r ∈ routes, ∀ c, holds context r c = false ↔ c = headers := by
  have none_passes : passing context routes headers = [] := passing_headers_eq_nil missed
  constructor
  · rintro ⟨-, before⟩
    obtain ⟨r, passes⟩ := List.exists_mem_of_ne_nil _ (before params (by decide) (by decide))
    obtain ⟨listed, satisfied⟩ := mem_passing.mp passes
    simp only [mem_upTo_params_iff] at satisfied
    refine ⟨r, listed, fun c => ⟨fun fails => ?_, ?_⟩⟩
    · by_contra other
      rw [satisfied c other] at fails
      cases fails
    · rintro rfl
      by_contra satisfied_too
      have passes_all : r ∈ passing context routes headers := by
        refine mem_passing.mpr ⟨listed, fun c _ => ?_⟩
        by_cases same : c = headers
        · exact same ▸ Bool.of_not_eq_false satisfied_too
        · exact satisfied c same
      rw [none_passes] at passes_all
      cases passes_all
  · rintro ⟨r, listed, only⟩
    refine (stops_iff_of_next (b := params) rfl).mpr ⟨?_, none_passes⟩
    refine List.ne_nil_of_mem (mem_passing.mpr ⟨listed, fun c before => ?_⟩)
    exact Bool.of_not_eq_false ((only c).not.mpr (mem_upTo_params_iff.mp before))

end Condition

open Condition (passing Stops)

/-- A list has what the routes contribute, each entry once. -/
structure Gathers {α : Type} (routes : List Route) (part : Route → List α) (listed : List α) :
    Prop where
  distinct : listed.Nodup
  mem_iff : ∀ x, x ∈ listed ↔ ∃ r ∈ routes, x ∈ part r

theorem gathers_collect {α : Type} [BEq α] [LawfulBEq α] (routes : List Route)
    (part : Route → List α) : Gathers routes part (collect (routes.map part)) where
  distinct := nodup_collect _
  mem_iff x := by simp [mem_collect]

/-- The texts of the media types in a list of expressions. -/
def mediaTexts (expressions : List MediaExpression) : List String :=
  (MediaExpression.mediaTypes expressions).map MediaType.text

/-- The answer to a miss, by the condition that stops it, with what is told of the routes that came
as far as this condition. -/
inductive Answers (context : RequestContext) (routes : List Route) :
    Condition → Except MappingError (Option HandlerMethod) → Prop
  | path : Answers context routes .path (.ok none)
  | allowed {methods : List Method} : context.request.method = .options →
      Gathers (passing context routes .path) Route.methods methods →
      Answers context routes .methods
        (.ok (some (.allowedMethods context.request.uuid (allowText methods))))
  | methods {methods : List Method} : context.request.method ≠ .options →
      Gathers (passing context routes .path) Route.methods methods →
      Answers context routes .methods (.error (.methodNotAllowed context.request.method methods))
  | consumes {supported : List String} :
      Gathers (passing context routes .methods) (fun r => mediaTexts r.consumes) supported →
      Answers context routes .consumes (.error (.unsupportedMediaType
        (context.request.contentType?.getD "application/octet-stream") supported))
  | produces {supported : List String} :
      Gathers (passing context routes .consumes) (fun r => mediaTexts r.produces) supported →
      Answers context routes .produces (.error (.notAcceptable supported))
  | params {conditions : List String} :
      Gathers (passing context routes .produces) (fun r => [Route.expressionsText r.params])
        conditions →
      Answers context routes .params (.error (.unsatisfiedParams conditions))
  | headers : Answers context routes .headers (.ok none)

section Obstacle

variable {context : RequestContext} {routes : List Route}

theorem exists_answers_missReason (missed : ∀ r ∈ routes, r.narrow context = none)
    (on_path : passing context routes .path ≠ []) :
    ∃ c, Stops context routes c ∧
      Answers context routes c (missReason context (passing context routes .path)) := by
  have methods : (passing context routes .path).filter
      (fun r => (Route.narrowMethods context r.methods).isSome) = passing context routes .methods :=
    Condition.filter_passing (b := .path) (c := .methods) rfl
  have consumes : (passing context routes .methods).filter
      (fun r => (Route.narrowConsumes context r.consumes).isSome) = passing context routes .consumes :=
    Condition.filter_passing (b := .methods) (c := .consumes) rfl
  have produces : (passing context routes .consumes).filter
      (fun r => (Route.narrowProduces context r.produces).isSome) = passing context routes .produces :=
    Condition.filter_passing (b := .consumes) (c := .produces) rfl
  have params : (passing context routes .produces).any
      (fun r => (Route.narrowParams context r.params).isSome) = true ↔
        passing context routes .params ≠ [] := by
    rw [← Condition.filter_passing (b := .produces) (c := .params) rfl, Ne, List.filter_eq_nil_iff,
      List.any_eq_true]
    simp only [Condition.holds, not_forall, not_not, exists_prop]
  simp only [missReason, methods, consumes, produces, List.isEmpty_iff]
  by_cases none_accepts : passing context routes .methods = []
  · refine ⟨.methods, (Condition.stops_iff_of_next (b := .path) rfl).mpr ⟨on_path, none_accepts⟩, ?_⟩
    rw [if_pos none_accepts]
    by_cases asks : context.request.method = .options
    · rw [if_pos (beq_iff_eq.mpr asks)]
      exact .allowed asks (gathers_collect _ _)
    · rw [if_neg (by simpa using asks)]
      exact .methods asks (gathers_collect _ _)
  rw [if_neg none_accepts]
  by_cases none_consumes : passing context routes .consumes = []
  · refine ⟨.consumes, (Condition.stops_iff_of_next (b := .methods) rfl).mpr ⟨none_accepts, none_consumes⟩, ?_⟩
    rw [if_pos none_consumes]
    exact .consumes (gathers_collect _ _)
  rw [if_neg none_consumes]
  by_cases none_produces : passing context routes .produces = []
  · refine ⟨.produces, (Condition.stops_iff_of_next (b := .consumes) rfl).mpr ⟨none_consumes, none_produces⟩, ?_⟩
    rw [if_pos none_produces]
    exact .produces (gathers_collect _ _)
  rw [if_neg none_produces]
  by_cases none_satisfies : passing context routes .params = []
  · refine ⟨.params, (Condition.stops_iff_of_next (b := .produces) rfl).mpr ⟨none_produces, none_satisfies⟩, ?_⟩
    rw [if_neg (params.not.mpr (not_not.mpr none_satisfies))]
    exact .params (gathers_collect _ _)
  refine ⟨.headers, (Condition.stops_iff_of_next (b := .params) rfl).mpr
    ⟨none_satisfies, Condition.passing_headers_eq_nil missed⟩, ?_⟩
  rw [if_pos (params.mpr none_satisfies)]
  exact .headers

section Methods

variable {methods : List Method} {requested : Method}

theorem narrowToMethod_eq_none_iff : Route.narrowToMethod methods requested = none ↔
    requested ∉ methods ∧ (requested = .head → .get ∉ methods) := by
  simp only [Route.narrowToMethod, List.contains_iff_mem, Bool.and_eq_true, beq_iff_eq]
  split
  · next own => simp [own]
  · next other =>
    split
    · next by_get => simp [by_get]
    · next neither => simpa [other] using neither

/-- A route that does not accept the method asked for declares others, and when the head is asked for,
it does not declare that its resource can be got. -/
theorem not_mem_of_narrowMethods_eq_none (refused : Route.narrowMethods context methods = none) :
    methods ≠ [] ∧ ∀ asked, Cors.methodAsked? context.request = some asked →
      asked ∉ methods ∧ (asked = .head → .get ∉ methods) := by
  rw [Route.narrowMethods_eq] at refused
  split at refused
  · cases refused
  · next declared =>
    refine ⟨by simpa using declared, fun asked asks => ?_⟩
    rw [asks, Option.bind_some] at refused
    exact narrowToMethod_eq_none_iff.mp refused

/-- The methods to answer with are those declared and what follows from them. -/
theorem mem_supportedMethods (declared : methods ≠ []) {m : Method} :
    m ∈ supportedMethods methods ↔
      m ∈ methods ∨ m = .options ∨ (m = .head ∧ .get ∈ methods) := by
  simp only [supportedMethods, List.isEmpty_iff, declared, if_false, mem_addition]
  split
  · next headless =>
    have got : Method.get ∈ methods := by
      simpa using (Bool.and_eq_true_iff.mp headless).1
    rw [List.mem_append, List.mem_singleton]
    tauto
  · next headed =>
    have known : Method.get ∈ methods → Method.head ∈ methods := by simpa using headed
    constructor
    · rintro (member | same)
      · exact .inl member
      · exact .inr (.inl same)
    · rintro (member | same | ⟨rfl, got⟩)
      · exact .inl member
      · exact .inr same
      · exact .inl (known got)

end Methods

/-- A handler that names given methods in the response and does nothing else. -/
def AnswersAllow (handler : HandlerMethod) (methods : List Method) : Prop :=
  ∀ (app : Application) (exchange : Exchange), app.invokeMethod handler exchange =
    ({ exchange.work with
        response := { exchange.work.response with
          headers := exchange.work.response.headers.insert .allow
            (.ofPlain (",".intercalate (methods.map Method.name))) } },
      .finished (.ok .empty))

/-- Names that are tokens make a value, whatever their number. -/
theorem answersAllow_allowedMethods (asked : Uuid) {methods : List Method}
    (tokens : ∀ m ∈ supportedMethods methods, isToken m.name = true) :
    AnswersAllow (.allowedMethods asked (allowText methods)) (supportedMethods methods) := by
  have plain : ∀ c ∈ (allowText methods).toList, IsPlain c := by
    intro c member
    rw [allowText, String.toList_intercalate, List.map_map] at member
    rcases Text.mem_intercalate member with comma | ⟨name, named, member⟩
    · have same : c = ',' := by simpa using comma
      rw [same]
      exact ⟨by decide, by decide⟩
    · obtain ⟨m, supported, rfl⟩ := List.mem_map.mp named
      have token := tokens m supported
      simp only [isToken, Bool.and_eq_true, List.all_eq_true] at token
      exact isPlain_of_isTokenChar (token.2 c member)
  intro app exchange
  simp only [Application.invokeMethod, HandlerMethod.allowedMethods, HandlerMethod.ofController,
    Application.answerAllowed, HeaderValue.ofText?_of_plain plain]
  rfl

namespace Answers

variable {c : Condition} {answer : Except MappingError (Option HandlerMethod)}

theorem eq_none_iff (answers : Answers context routes c answer) :
    answer = .ok none ↔ c = .path ∨ c = .headers := by
  cases answers <;> simp

theorem unsupportedMediaType_iff (answers : Answers context routes c answer) :
    (∃ type supported, answer = .error (.unsupportedMediaType type supported)) ↔ c = .consumes := by
  cases answers <;> simp

theorem notAcceptable_iff (answers : Answers context routes c answer) :
    (∃ supported, answer = .error (.notAcceptable supported)) ↔ c = .produces := by
  cases answers <;> simp

theorem unsatisfiedParams_iff (answers : Answers context routes c answer) :
    (∃ conditions, answer = .error (.unsatisfiedParams conditions)) ↔ c = .params := by
  cases answers <;> simp

theorem exists_methods (answers : Answers context routes .methods answer) :
    ∃ allowed, Gathers (passing context routes .path) Route.methods allowed ∧
      (context.request.method ≠ .options →
        answer = .error (.methodNotAllowed context.request.method allowed)) ∧
      (context.request.method = .options →
        answer = .ok (some (.allowedMethods context.request.uuid (allowText allowed)))) := by
  cases answers with
  | allowed asks gathers => exact ⟨_, gathers, fun other => (other asks).elim, fun _ => rfl⟩
  | methods other gathers => exact ⟨_, gathers, fun _ => rfl, fun asks => (other asks).elim⟩

end Answers

theorem narrowMethods_eq_none (none_accepts : passing context routes .methods = []) {r : Route}
    (on_path : r ∈ passing context routes .path) : Route.narrowMethods context r.methods = none := by
  rw [← Condition.filter_passing (b := .path) (c := .methods) rfl, List.filter_eq_nil_iff]
    at none_accepts
  exact Option.not_isSome_iff_eq_none.mp (none_accepts r on_path)

namespace Gathers

variable {allowed : List Method} (gathers : Gathers (passing context routes .path) Route.methods allowed)
include gathers

/-- A route that declares no methods accepts all, so those that refuse the request declare some. -/
theorem methods_ne_nil (on_path : passing context routes .path ≠ [])
    (none_accepts : passing context routes .methods = []) : allowed ≠ [] := by
  obtain ⟨r, member⟩ := List.exists_mem_of_ne_nil _ on_path
  have refused := not_mem_of_narrowMethods_eq_none (narrowMethods_eq_none none_accepts member)
  obtain ⟨m, declared⟩ := List.exists_mem_of_ne_nil _ refused.1
  exact List.ne_nil_of_mem ((gathers.mem_iff m).mpr ⟨r, member, declared⟩)

theorem not_mem_of_asked (none_accepts : passing context routes .methods = []) {asked : Method}
    (asks : Cors.methodAsked? context.request = some asked) :
    asked ∉ allowed ∧ (asked = .head → .get ∉ allowed) := by
  have refused {r : Route} (member : r ∈ passing context routes .path) :
      asked ∉ r.methods ∧ (asked = .head → .get ∉ r.methods) :=
    (not_mem_of_narrowMethods_eq_none (narrowMethods_eq_none none_accepts member)).2 asked asks
  constructor
  · intro listed
    obtain ⟨r, member, declared⟩ := (gathers.mem_iff asked).mp listed
    exact (refused member).1 declared
  · intro head listed
    obtain ⟨r, member, declared⟩ := (gathers.mem_iff .get).mp listed
    exact (refused member).2 head declared

theorem answersAllow (asked : Uuid) (some_allowed : allowed ≠ []) (built : ∀ r ∈ routes, r.Built) :
    AnswersAllow (.allowedMethods asked (allowText allowed)) (supportedMethods allowed) := by
  refine answersAllow_allowedMethods asked fun m member => ?_
  rcases (mem_supportedMethods some_allowed).mp member with listed | rfl | ⟨rfl, -⟩
  · obtain ⟨r, member, declared⟩ := (gathers.mem_iff m).mp listed
    exact (built r (Condition.mem_passing.mp member).1).isToken_of_mem_methods m declared
  · decide
  · decide

end Gathers

end Obstacle

theorem exists_answers_onMiss {config : MappingConfig} {routes : List Route} {path : String}
    {request : Request} (missed : ∀ r ∈ routes, r.narrow (context config request path) = none) :
    ∃ c, Stops (context config request path) routes c ∧
      Answers (context config request path) routes c (onMiss config routes path request) := by
  have on_path : (routes.filter fun r =>
      (Route.narrowPatterns (context config request path) r.patterns).isSome) =
        passing (context config request path) routes .path := by
    simp [passing, Condition.upTo, Condition.holds]
  simp only [onMiss, on_path]
  split
  · next off => exact ⟨.path, Condition.stops_path_iff.mpr off, .path⟩
  · next found => exact exists_answers_missReason missed found

end HttpRouting.RouteStrategy
