import HttpRouting.Cors.Process
import HttpRouting.Proofs.Outcome
import HttpRouting.Proofs.Pattern.Literal
import HttpRouting.Proofs.Sorting
import HttpRouting.Proofs.Text.Split
import HttpRouting.Route.Match

/-!
Routes that can come to be: from a declaration, by combining two of them, or by narrowing one to a
request.  All their patterns were read, so a path that such a route matches literally is the text of
the one pattern that it could be.
-/

set_option autoImplicit false
set_option relaxedAutoImplicit false

namespace HttpRouting.Route

/-- The ways to come by a route. -/
inductive Built : Route → Prop
  | declared {spec : RouteSpec} {route : Route} : ofSpec spec = .ok route → Built route
  | combined {outer inner route : Route} :
      Built outer → Built inner → outer.combine inner = .ok route → Built route
  | narrowed {context : RequestContext} {route narrowed : Route} :
      Built route → route.narrow context = some narrowed → Built narrowed

/-- The route on one pattern, without any other condition. -/
def ofPattern (p : PathPattern) : Route :=
  { name := none, patterns := [p], methods := [], params := [], headers := [], consumes := [],
    produces := [] }

theorem mem_of_mem_canonicalPatterns {patterns : List PathPattern} {p : PathPattern}
    (member : p ∈ canonicalPatterns patterns) : p ∈ patterns :=
  (Sorting.sortBy_perm _ _).mem_iff.mp ((Sorting.dropRepeats_sublist _).subset member)

/-- A route is narrowed condition by condition. -/
theorem narrow_eq_some_iff {context : RequestContext} {route narrowed : Route} :
    route.narrow context = some narrowed ↔
      narrowed.name = route.name ∧
      narrowPatterns context route.patterns = some narrowed.patterns ∧
      narrowMethods context route.methods = some narrowed.methods ∧
      narrowParams context route.params = some narrowed.params ∧
      narrowHeaders context route.headers = some narrowed.headers ∧
      narrowConsumes context route.consumes = some narrowed.consumes ∧
      narrowProduces context route.produces = some narrowed.produces := by
  simp only [narrow, Option.bind_eq_bind, Option.bind_eq_some_iff, pure, Option.some.injEq]
  constructor
  · rintro ⟨methods, kept, params, holding, headers, holding', consumes, fitting, produces, fitting',
      patterns, found, rfl⟩
    exact ⟨rfl, found, kept, holding, holding', fitting, fitting'⟩
  · rintro ⟨named, found, kept, holding, holding', fitting, fitting'⟩
    exact ⟨_, kept, _, holding, _, holding', _, fitting, _, fitting', _, found, by rw [← named]⟩

theorem narrow_patterns {context : RequestContext} {route narrowed : Route}
    (narrows : route.narrow context = some narrowed) :
    narrowPatterns context route.patterns = some narrowed.patterns :=
  (narrow_eq_some_iff.mp narrows).2.1

theorem narrow_methods {context : RequestContext} {route narrowed : Route}
    (narrows : route.narrow context = some narrowed) :
    narrowMethods context route.methods = some narrowed.methods :=
  (narrow_eq_some_iff.mp narrows).2.2.1

theorem mem_of_mem_canonicalMethods {methods : List Method} {m : Method}
    (member : m ∈ canonicalMethods methods) : m ∈ methods :=
  (Sorting.sortBy_perm _ _).mem_iff.mp ((Sorting.dropRepeats_sublist _).subset member)

theorem isToken_of_parse? {name : String} {m : Method} (parsed : Method.parse? name = some m) :
    isToken m.name = true := by
  rw [Method.parse?] at parsed
  split at parsed
  · next token =>
    rw [← Option.some.inj parsed]
    exact token
  · cases parsed

theorem name_of_parse? {name : String} {m : Method} (parsed : Method.parse? name = some m) :
    m.name = name := by
  rw [Method.parse?] at parsed
  split at parsed
  · rw [← Option.some.inj parsed]
  · cases parsed

/-- A method is read from its name in capitals. -/
theorem parse?_of_readMethod {text : String} {m : Method} (read : readMethod text = .ok m) :
    Method.parse? (Text.upper (Text.trimmed text)) = some m := by
  revert read
  unfold readMethod
  generalize Text.upper (Text.trimmed text) = name
  dsimp only
  cases parsed : Method.parse? name with
  | none => exact nofun
  | some method =>
    intro read
    rw [Except.ok.inj read]

theorem isToken_of_readMethod {text : String} {m : Method} (read : readMethod text = .ok m) :
    isToken m.name = true :=
  isToken_of_parse? (parse?_of_readMethod read)

theorem upper_of_readMethod {text : String} {m : Method} (read : readMethod text = .ok m) :
    Text.upper m.name = m.name := by
  rw [name_of_parse? (parse?_of_readMethod read)]
  exact Text.upper_upper _

/-- What is left of declared methods: none of none, the method that is asked for, or the get that
stands in for a head. -/
inductive MethodsLeft (request : Request) (methods : List Method) : List Method → Prop
  | all : methods = [] → MethodsLeft request methods []
  | asked {asked : Method} : Cors.methodAsked? request = some asked → asked ∈ methods →
      MethodsLeft request methods [asked]
  | byGet : Cors.methodAsked? request = some .head → Method.head ∉ methods → Method.get ∈ methods →
      MethodsLeft request methods [.get]

section Methods

variable {context : RequestContext} {methods kept : List Method}

/-- Methods are narrowed to the one that a request is about. -/
theorem narrowMethods_eq : narrowMethods context methods =
    if methods.isEmpty then some []
    else (Cors.methodAsked? context.request).bind (narrowToMethod methods) := by
  rw [narrowMethods, Cors.methodAsked?, RequestContext.preflightMethod?]
  cases context.request.isPreflight <;> rfl

theorem narrowMethods_eq_some_iff : narrowMethods context methods = some kept ↔
    MethodsLeft context.request methods kept := by
  rw [narrowMethods_eq]
  constructor
  · intro narrows
    split at narrows
    · next none_declared =>
      cases narrows
      exact .all (List.isEmpty_iff.mp none_declared)
    · obtain ⟨asked, asks, narrows⟩ := Option.bind_eq_some_iff.mp narrows
      simp only [narrowToMethod, Bool.and_eq_true, List.contains_iff_mem] at narrows
      split at narrows
      · next declared =>
        cases narrows
        exact .asked asks declared
      · next undeclared =>
        split at narrows
        · next by_get =>
          cases narrows
          obtain rfl := eq_of_beq by_get.1
          exact .byGet asks undeclared by_get.2
        · cases narrows
  · intro left
    have declared {m : Method} (member : m ∈ methods) : ¬ methods.isEmpty = true :=
      fun none_declared => List.not_mem_nil (List.isEmpty_iff.mp none_declared ▸ member)
    cases left with
    | all none_declared => rw [none_declared, List.isEmpty_nil, if_pos rfl]
    | asked asks member =>
      rw [if_neg (declared member), asks, Option.bind_some, narrowToMethod,
        if_pos (List.contains_iff_mem.mpr member)]
    | byGet asks undeclared by_get =>
      rw [if_neg (declared by_get), asks, Option.bind_some, narrowToMethod,
        if_neg (by rwa [List.contains_iff_mem]), if_pos (by simpa using by_get)]

/-- The one method that is left is found again, and so is the get that stands in for a head. -/
theorem MethodsLeft.idem {request : Request} (left : MethodsLeft request methods kept) :
    MethodsLeft request kept kept := by
  cases left with
  | all _ => exact .all rfl
  | asked asks _ => exact .asked asks (List.mem_singleton_self _)
  | byGet asks _ _ => exact .byGet asks (by decide) (List.mem_singleton_self _)

/-- What is left of the methods was declared. -/
theorem mem_of_mem_narrowMethods (narrows : narrowMethods context methods = some kept) {m : Method}
    (member : m ∈ kept) : m ∈ methods := by
  cases narrowMethods_eq_some_iff.mp narrows with
  | all _ => cases member
  | asked _ declared => rwa [List.mem_singleton.mp member]
  | byGet _ _ declared => rwa [List.mem_singleton.mp member]

end Methods

theorem mem_narrowPatterns_iff {context : RequestContext} {patterns narrowed : List PathPattern}
    (narrows : narrowPatterns context patterns = some narrowed) {p : PathPattern} :
    p ∈ narrowed ↔ p ∈ patterns ∧ p.matchesPath context.lookupPath context.lenient = true := by
  simp only [narrowPatterns] at narrows
  split at narrows
  · cases narrows
  · cases narrows
    rw [(Sorting.sortBy_perm _ _).mem_iff, List.mem_filter]

theorem mem_directPaths {route : Route} {path : String} :
    path ∈ route.directPaths ↔
      ∃ p ∈ route.patterns, p.hasWildcards = false ∧ p.source = path := by
  simp [directPaths, and_assoc]

namespace Built

variable {route : Route}

/-- All patterns were read. -/
theorem parsed (built : route.Built) : ∀ p ∈ route.patterns, p.Parsed := by
  induction built with
  | @declared spec route read =>
    intro p member
    simp only [ofSpec, readPatterns, Outcome.bind_eq_ok_iff] at read
    obtain ⟨_, ⟨patterns, all, canonical⟩, _, -, _, -, _, -, _, -, _, -, same⟩ := read
    cases canonical
    cases same
    obtain ⟨text, -, made⟩ := Outcome.exists_of_mem_mapM all (mem_of_mem_canonicalPatterns member)
    exact ⟨text, Outcome.mapError_eq_ok_iff.mp made⟩
  | @combined outer inner route _ _ joined ih ih' =>
    intro p member
    simp only [combine, combinePatterns, Outcome.bind_eq_ok_iff] at joined
    obtain ⟨_, ⟨patterns, all, canonical⟩, same⟩ := joined
    cases canonical
    cases same
    obtain ⟨pair, -, made⟩ := Outcome.exists_of_mem_mapM all (mem_of_mem_canonicalPatterns member)
    exact ⟨_, Outcome.mapError_eq_ok_iff.mp made⟩
  | narrowed _ narrows ih =>
    intro p member
    exact ih p ((mem_narrowPatterns_iff (narrow_patterns narrows)).mp member).1

/-- What holds of every method that is read from a text holds of all methods. -/
theorem forall_mem_methods {P : Method → Prop}
    (readable : ∀ text m, readMethod text = .ok m → P m) (built : route.Built) :
    ∀ m ∈ route.methods, P m := by
  induction built with
  | @declared spec route read =>
    intro m member
    simp only [ofSpec, readMethods, Outcome.bind_eq_ok_iff] at read
    obtain ⟨_, -, _, ⟨methods, all, canonical⟩, _, -, _, -, _, -, _, -, same⟩ := read
    cases canonical
    cases same
    obtain ⟨text, -, made⟩ := Outcome.exists_of_mem_mapM all (mem_of_mem_canonicalMethods member)
    exact readable text m made
  | @combined outer inner route _ _ joined ih ih' =>
    intro m member
    simp only [combine, Outcome.bind_eq_ok_iff] at joined
    obtain ⟨_, -, same⟩ := joined
    cases same
    rcases List.mem_append.mp (mem_of_mem_canonicalMethods member) with ofOuter | ofInner
    · exact ih m ofOuter
    · exact ih' m ofInner
  | narrowed _ narrows ih =>
    intro m member
    exact ih m (mem_of_mem_narrowMethods (narrow_methods narrows) member)

/-- The names of all methods are tokens. -/
theorem isToken_of_mem_methods (built : route.Built) : ∀ m ∈ route.methods, isToken m.name = true :=
  built.forall_mem_methods fun _ _ => isToken_of_readMethod

/-- The names of all methods are written in capitals. -/
theorem upper_of_mem_methods (built : route.Built) : ∀ m ∈ route.methods, Text.upper m.name = m.name :=
  built.forall_mem_methods fun _ _ => upper_of_readMethod

/-- Every pattern that was read is that of a route. -/
theorem ofPattern {p : PathPattern} (parsed : p.Parsed) : (ofPattern p).Built := by
  obtain ⟨text, parsed⟩ := parsed
  refine @declared (RouteSpec.empty.withPath text) _ ?_
  have read : readPattern text = .ok p := Outcome.mapError_eq_ok_iff.mpr parsed
  have patterns : readPatterns [text] = .ok [p] := by
    have all : [text].mapM readPattern = .ok [p] := by
      rw [List.mapM_cons, read, List.mapM_nil]
      rfl
    rw [readPatterns, if_neg (by simp), all]
    rfl
  simp only [ofSpec, RouteSpec.withPath, RouteSpec.empty, List.nil_append, patterns]
  rfl

/-- A pattern whose text a route matches literally is one of those that the route matches
literally. -/
theorem mem_directPaths_of_source_eq {other : Route} (built : route.Built) (built' : other.Built)
    {path : String} (direct : path ∈ route.directPaths) {p : PathPattern} (member : p ∈ other.patterns)
    (same : p.source = path) : path ∈ other.directPaths := by
  obtain ⟨q, listed, literal, source⟩ := mem_directPaths.mp direct
  have equal : p = q := (built'.parsed p member).eq_of_source_eq (built.parsed q listed)
    (same.trans source.symm)
  exact mem_directPaths.mpr ⟨p, member, equal ▸ literal, same⟩

end Built

end HttpRouting.Route
