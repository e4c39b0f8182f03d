import HttpRouting.Proofs.Registry.Registration
import HttpRouting.Proofs.Route.MediaTexts
import HttpRouting.Proofs.Route.Order

/-!
Routes as keys.  The entries of each condition are sorted and rid of repetitions, by an order that ties
two entries exactly when they are the same.  So how a route was written down, in which order and how
often, does not show in the route that is read, and what was read of it does.
-/

set_option autoImplicit false
set_option relaxedAutoImplicit false

namespace HttpRouting

/-- Two lists have the same members, in any order and with any repetitions. -/
def SameMembers {α : Type} (as bs : List α) : Prop :=
  ∀ x, x ∈ as ↔ x ∈ bs

/-- Two declarations state the same texts for each condition.  Their names need not agree. -/
structure RouteSpec.SameTexts (a b : RouteSpec) : Prop where
  paths : SameMembers a.paths b.paths
  methods : SameMembers a.methods b.methods
  params : SameMembers a.params b.params
  headers : SameMembers a.headers b.headers
  consumes : SameMembers a.consumes b.consumes
  produces : SameMembers a.produces b.produces

/-- Two routes have the same entries in each condition: patterns by their texts, methods, expressions,
and media type expressions by the names and the negation. -/
structure Route.SameEntries (a b : Route) : Prop where
  patterns : SameMembers (a.patterns.map PathPattern.source) (b.patterns.map PathPattern.source)
  methods : SameMembers a.methods b.methods
  params : SameMembers a.params b.params
  headers : SameMembers a.headers b.headers
  consumes : SameMembers (a.consumes.map MediaExpression.part) (b.consumes.map MediaExpression.part)
  produces : SameMembers (a.produces.map MediaExpression.part) (b.produces.map MediaExpression.part)

/-- The texts that the patterns of a route are read from. -/
def Route.pathTexts (paths : List String) : List String :=
  if paths.isEmpty then [""] else paths

/-- The entries of a route are what the texts of a declaration are read as. -/
structure Route.ReadFrom (route : Route) (spec : RouteSpec) : Prop where
  patterns : ∀ source, source ∈ route.patterns.map PathPattern.source ↔
    ∃ text ∈ pathTexts spec.paths, ∃ p, readPattern text = .ok p ∧ p.source = source
  methods : ∀ m, m ∈ route.methods ↔ ∃ text ∈ spec.methods, readMethod text = .ok m
  params : ∀ e, e ∈ route.params ↔ ∃ text ∈ spec.params, readParam text = .ok e
  headers : ∀ e, e ∈ route.headers ↔ ∃ text ∈ spec.headers, readHeader text = .ok e
  consumes : ∀ part, part ∈ route.consumes.map MediaExpression.part ↔
    ∃ text ∈ spec.consumes, ∃ e, readMedia text = .ok e ∧ e.part = part
  produces : ∀ part, part ∈ route.produces.map MediaExpression.part ↔
    ∃ text ∈ spec.produces, ∃ e, readMedia text = .ok e ∧ e.part = part

/-- A route that was declared, by itself or by combining routes that were. -/
inductive Route.Declared : Route → Prop
  | read {spec : RouteSpec} {route : Route} : ofSpec spec = .ok route → Declared route
  | combined {outer inner route : Route} : Declared outer → Declared inner →
      outer.combine inner = .ok route → Declared route

/-! ### The orders -/

instance PathPattern.transCmp_textOrder : Std.TransCmp textOrder :=
  transCmp_by source

instance Method.transCmp_nameOrder : Std.TransCmp nameOrder :=
  transCmp_by name

instance MediaExpression.transCmp_textOrder : Std.TransCmp textOrder :=
  transCmp_by text

theorem PathPattern.textOrder_eq_iff (a b : PathPattern) :
    textOrder a b = .eq ↔ a.source = b.source := by
  rw [textOrder, Std.LawfulEqCmp.compare_eq_iff_eq]

theorem Method.nameOrder_eq_iff (a b : Method) : nameOrder a b = .eq ↔ a = b := by
  rw [nameOrder, Std.LawfulEqCmp.compare_eq_iff_eq, Method.mk.injEq]

namespace Expression

theorem valueOrder_eq (a b : Option String) : valueOrder a b = compare a b := by
  cases a <;> cases b <;> rfl

instance transCmp_order : Std.TransCmp order :=
  transCmp_then (transCmp_by name)
    (transCmp_then (transCmp_congr (fun _ _ => valueOrder_eq _ _) (transCmp_by value))
      (transCmp_by negated))

theorem order_eq_iff (a b : Expression) : order a b = .eq ↔ a = b := by
  rw [order, Ordering.then_eq_eq, Ordering.then_eq_eq, valueOrder_eq,
    Std.LawfulEqCmp.compare_eq_iff_eq, Std.LawfulEqCmp.compare_eq_iff_eq,
    Std.LawfulEqCmp.compare_eq_iff_eq, Expression.mk.injEq]

end Expression

/-! ### The entries of a condition -/

section Entries

variable {α β : Type} [BEq α] {order : α → α → Ordering} {legible : α → Prop} {part : α → β}
  {read : String → Except RouteError α} {texts : List String} {kept kept' : List α}

/-- Entries are compared by a part of them, and the order ties those that can be read exactly when
their parts agree. -/
structure ToldBy (order : α → α → Ordering) (legible : α → Prop) (part : α → β) : Prop where
  trans : Std.TransCmp order
  same_iff : ∀ a b : α, (a == b) = true ↔ part a = part b
  eq_iff : ∀ {a b}, legible a → legible b → (order a b = .eq ↔ part a = part b)

/-- A list that keeps each of some entries once, in order. -/
def Normal (order : α → α → Ordering) (legible : α → Prop) (kept : List α) : Prop :=
  ∃ made, (∀ x ∈ made, legible x) ∧ kept = Sorting.dropRepeats (Sorting.sortBy order made)

/-- Lists of this form are the same exactly when they have the same entries. -/
theorem ToldBy.map_part_eq_iff (told : ToldBy order legible part) (normal : Normal order legible kept)
    (normal' : Normal order legible kept') :
    kept.map part = kept'.map part ↔ SameMembers (kept.map part) (kept'.map part) := by
  have := told.trans
  obtain ⟨made, all, rfl⟩ := normal
  obtain ⟨made', all', rfl⟩ := normal'
  have known {x : α} (member : x ∈ made ++ made') : legible x :=
    (List.mem_append.mp member).elim (all x) (all' x)
  rw [Sorting.map_dropRepeats_sortBy_eq_iff told.same_iff]
  · simp only [SameMembers, Sorting.mem_map_dropRepeats_sortBy_iff told.same_iff]
  · intro a member b member'
    exact told.eq_iff (known member) (known member')

/-- Read the entries of a condition and keep each once, in order. -/
def readOnce (order : α → α → Ordering) (read : String → Except RouteError α) (texts : List String) :
    Except RouteError (List α) := do
  return Sorting.dropRepeats (Sorting.sortBy order (← texts.mapM read))

variable (order read texts) in
theorem exists_readOnce_iff :
    (∃ kept, readOnce order read texts = .ok kept) ↔ ∀ text ∈ texts, ∃ x, read text = .ok x := by
  rw [← Outcome.exists_mapM_eq_ok_iff]
  simp only [readOnce, Outcome.bind_eq_ok_iff]
  constructor
  · rintro ⟨_, made, all, -⟩
    exact ⟨made, all⟩
  · rintro ⟨made, all⟩
    exact ⟨_, made, all, rfl⟩

theorem normal_of_readOnce (all : readOnce order read texts = .ok kept)
    (readable : ∀ {text x}, read text = .ok x → legible x) : Normal order legible kept := by
  obtain ⟨made, read_all, same⟩ := Outcome.bind_eq_ok_iff.mp all
  cases same
  refine ⟨made, fun x member => ?_, rfl⟩
  obtain ⟨text, -, read⟩ := Outcome.exists_of_mem_mapM read_all member
  exact readable read

/-- What is kept are the entries that were read. -/
theorem ToldBy.mem_map_part_iff (told : ToldBy order legible part)
    (all : readOnce order read texts = .ok kept) {p : β} :
    p ∈ kept.map part ↔ ∃ text ∈ texts, ∃ x, read text = .ok x ∧ part x = p := by
  obtain ⟨made, read_all, same⟩ := Outcome.bind_eq_ok_iff.mp all
  cases same
  rw [Sorting.mem_map_dropRepeats_sortBy_iff told.same_iff, List.mem_map]
  constructor
  · rintro ⟨x, member, rfl⟩
    obtain ⟨text, stated, read⟩ := (Outcome.mem_mapM_iff read_all).mp member
    exact ⟨text, stated, x, read, rfl⟩
  · rintro ⟨text, stated, x, read, rfl⟩
    exact ⟨x, (Outcome.mem_mapM_iff read_all).mpr ⟨text, stated, read⟩, rfl⟩

end Entries

theorem PathPattern.toldBy_source : ToldBy textOrder (fun _ => True) source where
  trans := inferInstance
  same_iff := beq_iff_source
  eq_iff _ _ := textOrder_eq_iff _ _

theorem Method.toldBy_id : ToldBy nameOrder (fun _ => True) id where
  trans := inferInstance
  same_iff _ _ := beq_iff_eq
  eq_iff _ _ := nameOrder_eq_iff _ _

theorem Expression.toldBy_id : ToldBy order (fun _ => True) id where
  trans := inferInstance
  same_iff _ _ := beq_iff_eq
  eq_iff _ _ := order_eq_iff _ _

theorem MediaExpression.toldBy_part : ToldBy textOrder Legible part where
  trans := inferInstance
  same_iff := beq_iff_part
  eq_iff legible legible' := by
    rw [textOrder, Std.LawfulEqCmp.compare_eq_iff_eq, legible.text_eq_iff legible']

namespace Route

theorem legible_of_readMedia {text : String} {e : MediaExpression} (read : readMedia text = .ok e) :
    e.Legible :=
  MediaExpression.legible_of_parse (Outcome.mapError_eq_ok_iff.mp read)

theorem sameMembers_pathTexts {paths paths' : List String} (same : SameMembers paths paths') :
    SameMembers (pathTexts paths) (pathTexts paths') := by
  have empty_iff : paths.isEmpty = paths'.isEmpty := by
    rw [Bool.eq_iff_iff, List.isEmpty_iff, List.isEmpty_iff, List.eq_nil_iff_forall_not_mem,
      List.eq_nil_iff_forall_not_mem]
    exact forall_congr' fun path => not_congr (same path)
  rw [pathTexts, pathTexts, empty_iff]
  split
  · exact fun _ => Iff.rfl
  · exact same

variable {spec spec' : RouteSpec} {route route' : Route}

/-- A declaration is read condition by condition. -/
theorem ofSpec_eq_ok_iff : ofSpec spec = .ok route ↔
    route.name = spec.name ∧
    readOnce PathPattern.textOrder readPattern (pathTexts spec.paths) = .ok route.patterns ∧
    readOnce Method.nameOrder readMethod spec.methods = .ok route.methods ∧
    readOnce Expression.order readParam spec.params = .ok route.params ∧
    readOnce Expression.order readHeader spec.headers = .ok route.headers ∧
    readOnce MediaExpression.textOrder readMedia spec.consumes = .ok route.consumes ∧
    readOnce MediaExpression.textOrder readMedia spec.produces = .ok route.produces := by
  simp only [ofSpec, Outcome.bind_eq_ok_iff]
  constructor
  · rintro ⟨patterns, first, methods, second, params, third, headers, fourth, consumes, fifth,
      produces, sixth, made⟩
    cases made
    exact ⟨rfl, first, second, third, fourth, fifth, sixth⟩
  · rintro ⟨named, first, second, third, fourth, fifth, sixth⟩
    refine ⟨_, first, _, second, _, third, _, fourth, _, fifth, _, sixth, ?_⟩
    rw [← named]
    rfl

/-- A declaration is a route when each of its texts can be read. -/
theorem exists_ofSpec_iff : (∃ route, ofSpec spec = .ok route) ↔
    (∀ text ∈ pathTexts spec.paths, ∃ p, readPattern text = .ok p) ∧
    (∀ text ∈ spec.methods, ∃ m, readMethod text = .ok m) ∧
    (∀ text ∈ spec.params, ∃ e, readParam text = .ok e) ∧
    (∀ text ∈ spec.headers, ∃ e, readHeader text = .ok e) ∧
    (∀ text ∈ spec.consumes, ∃ e, readMedia text = .ok e) ∧
    (∀ text ∈ spec.produces, ∃ e, readMedia text = .ok e) := by
  rw [← exists_readOnce_iff PathPattern.textOrder, ← exists_readOnce_iff Method.nameOrder,
    ← exists_readOnce_iff Expression.order readParam,
    ← exists_readOnce_iff Expression.order readHeader,
    ← exists_readOnce_iff MediaExpression.textOrder readMedia spec.consumes,
    ← exists_readOnce_iff MediaExpression.textOrder readMedia spec.produces]
  constructor
  · rintro ⟨route, read⟩
    obtain ⟨-, first, second, third, fourth, fifth, sixth⟩ := ofSpec_eq_ok_iff.mp read
    exact ⟨⟨_, first⟩, ⟨_, second⟩, ⟨_, third⟩, ⟨_, fourth⟩, ⟨_, fifth⟩, ⟨_, sixth⟩⟩
  · rintro ⟨⟨patterns, first⟩, ⟨methods, second⟩, ⟨params, third⟩, ⟨headers, fourth⟩,
      ⟨consumes, fifth⟩, ⟨produces, sixth⟩⟩
    exact ⟨⟨spec.name, patterns, methods, params, headers, consumes, produces⟩,
      ofSpec_eq_ok_iff.mpr ⟨rfl, first, second, third, fourth, fifth, sixth⟩⟩

/-- Declarations of the same texts can be read together. -/
theorem exists_ofSpec_congr (same : spec.SameTexts spec') :
    (∃ route, ofSpec spec = .ok route) ↔ ∃ route, ofSpec spec' = .ok route := by
  simp only [exists_ofSpec_iff, sameMembers_pathTexts same.paths _, same.methods _, same.params _,
    same.headers _, same.consumes _, same.produces _]

/-- Nothing is lost and nothing is added when a declaration is read. -/
theorem readFrom_of_ofSpec (read : ofSpec spec = .ok route) : route.ReadFrom spec := by
  obtain ⟨-, first, second, third, fourth, fifth, sixth⟩ := ofSpec_eq_ok_iff.mp read
  exact {
    patterns := fun source => PathPattern.toldBy_source.mem_map_part_iff first
    methods := fun m => by simpa using Method.toldBy_id.mem_map_part_iff second
    params := fun e => by simpa using Expression.toldBy_id.mem_map_part_iff third
    headers := fun e => by simpa using Expression.toldBy_id.mem_map_part_iff fourth
    consumes := fun part => MediaExpression.toldBy_part.mem_map_part_iff fifth
    produces := fun part => MediaExpression.toldBy_part.mem_map_part_iff sixth }

theorem sameEntries_of_sameTexts (same : spec.SameTexts spec') (read : ofSpec spec = .ok route)
    (read' : ofSpec spec' = .ok route') : route.SameEntries route' := by
  have entries := readFrom_of_ofSpec read
  have entries' := readFrom_of_ofSpec read'
  constructor <;> intro entry
  · simp only [entries.patterns, entries'.patterns, sameMembers_pathTexts same.paths _]
  · simp only [entries.methods, entries'.methods, same.methods _]
  · simp only [entries.params, entries'.params, same.params _]
  · simp only [entries.headers, entries'.headers, same.headers _]
  · simp only [entries.consumes, entries'.consumes, same.consumes _]
  · simp only [entries.produces, entries'.produces, same.produces _]

/-- All conditions of a route keep their entries once, in order. -/
structure Canonical (route : Route) : Prop where
  patterns : Normal PathPattern.textOrder (fun _ => True) route.patterns
  methods : Normal Method.nameOrder (fun _ => True) route.methods
  params : Normal Expression.order (fun _ => True) route.params
  headers : Normal Expression.order (fun _ => True) route.headers
  consumes : Normal MediaExpression.textOrder MediaExpression.Legible route.consumes
  produces : Normal MediaExpression.textOrder MediaExpression.Legible route.produces

theorem normal_overrideMedia {outer inner : List MediaExpression}
    (normal : Normal MediaExpression.textOrder MediaExpression.Legible outer)
    (normal' : Normal MediaExpression.textOrder MediaExpression.Legible inner) :
    Normal MediaExpression.textOrder MediaExpression.Legible (overrideMedia outer inner) := by
  rw [overrideMedia]
  split
  · exact normal
  · exact normal'

theorem combine_eq (outer inner : Route) : outer.combine inner =
    (combinePatterns outer.patterns inner.patterns).map fun patterns => {
      name := combineNames outer.name inner.name
      patterns
      methods := canonicalMethods (outer.methods ++ inner.methods)
      params := Expression.canonical (outer.params ++ inner.params)
      headers := Expression.canonical (outer.headers ++ inner.headers)
      consumes := overrideMedia outer.consumes inner.consumes
      produces := overrideMedia outer.produces inner.produces } := by
  rw [combine]
  cases combinePatterns outer.patterns inner.patterns <;> rfl

theorem Declared.canonical (declared : route.Declared) : route.Canonical := by
  have always {α : Type} {made : List α} : ∀ x ∈ made, (fun _ => True) x := fun _ _ => trivial
  induction declared with
  | read read =>
    obtain ⟨-, first, second, third, fourth, fifth, sixth⟩ := ofSpec_eq_ok_iff.mp read
    exact {
      patterns := normal_of_readOnce first fun _ => trivial
      methods := normal_of_readOnce second fun _ => trivial
      params := normal_of_readOnce third fun _ => trivial
      headers := normal_of_readOnce fourth fun _ => trivial
      consumes := normal_of_readOnce fifth legible_of_readMedia
      produces := normal_of_readOnce sixth legible_of_readMedia }
  | combined _ _ joined outer inner =>
    rw [combine_eq, Outcome.map_eq_ok_iff] at joined
    obtain ⟨patterns, combined, rfl⟩ := joined
    obtain ⟨made, -, same⟩ := Outcome.bind_eq_ok_iff.mp combined
    cases same
    exact {
      patterns := ⟨made, always, rfl⟩
      methods := ⟨_, always, rfl⟩
      params := ⟨_, always, rfl⟩
      headers := ⟨_, always, rfl⟩
      consumes := normal_overrideMedia outer.consumes inner.consumes
      produces := normal_overrideMedia outer.produces inner.produces }

/-- Canonical routes are the same exactly when they have the same entries. -/
theorem Canonical.beq_iff_sameEntries (canonical : route.Canonical) (canonical' : route'.Canonical) :
    (route == route') = true ↔ route.SameEntries route' := by
  have methods := Method.toldBy_id.map_part_eq_iff canonical.methods canonical'.methods
  have params := Expression.toldBy_id.map_part_eq_iff canonical.params canonical'.params
  have headers := Expression.toldBy_id.map_part_eq_iff canonical.headers canonical'.headers
  rw [List.map_id, List.map_id] at methods params headers
  rw [beq_iff_conditions, conditions, conditions, Conditions.mk.injEq,
    PathPattern.toldBy_source.map_part_eq_iff canonical.patterns canonical'.patterns, methods, params,
    headers, MediaExpression.toldBy_part.map_part_eq_iff canonical.consumes canonical'.consumes,
    MediaExpression.toldBy_part.map_part_eq_iff canonical.produces canonical'.produces]
  constructor
  · rintro ⟨patterns, methods, params, headers, consumes, produces⟩
    exact ⟨patterns, methods, params, headers, consumes, produces⟩
  · intro same
    exact ⟨same.patterns, same.methods, same.params, same.headers, same.consumes, same.produces⟩

/-! ### Combining -/

/-- Patterns are combined by their texts. -/
def combineTexts (outer inner : String) : Except RouteError PathPattern :=
  (PathPattern.combine ⟨outer, [], false⟩ ⟨inner, [], false⟩).mapError .pattern

theorem combineTexts_source (a b : PathPattern) :
    combineTexts a.source b.source = (a.combine b).mapError .pattern := by
  have same : PathPattern.combinedText ⟨a.source, [], false⟩ ⟨b.source, [], false⟩ =
      a.combinedText b := rfl
  rw [combineTexts, PathPattern.combine, PathPattern.combine, same]

theorem combinePatterns_eq (outer inner : List PathPattern) : combinePatterns outer inner = do
    let pairs := (outer.map PathPattern.source).flatMap fun a =>
      (inner.map PathPattern.source).map fun b => (a, b)
    return canonicalPatterns (← pairs.mapM fun (a, b) => combineTexts a b) := by
  have pairs : ((outer.map PathPattern.source).flatMap fun a =>
      (inner.map PathPattern.source).map fun b => (a, b)) =
        (outer.flatMap fun a => inner.map fun b => (a, b)).map
          (Prod.map PathPattern.source PathPattern.source) := by
    simp [List.flatMap_map, List.map_flatMap, Function.comp_def]
  simp only [combinePatterns, pairs, List.mapM_map, Function.comp_def, Prod.map, combineTexts_source]

theorem map_part_overrideMedia (outer inner : List MediaExpression) :
    (overrideMedia outer inner).map MediaExpression.part =
      if (inner.map MediaExpression.part).isEmpty then outer.map MediaExpression.part
      else inner.map MediaExpression.part := by
  rw [overrideMedia, List.isEmpty_map]
  split <;> rfl

variable {outer outer' inner inner' : Route}

/-- Combining gives the same for the same routes, an error included. -/
theorem combine_congr (same : (outer == outer') = true) (same' : (inner == inner') = true) :
    (∀ error, outer.combine inner = .error error ↔ outer'.combine inner' = .error error) ∧
    ∀ route route', outer.combine inner = .ok route → outer'.combine inner' = .ok route' →
      (route == route') = true := by
  have outer_same := (beq_iff_conditions outer outer').mp same
  have inner_same := (beq_iff_conditions inner inner').mp same'
  simp only [conditions, Conditions.mk.injEq] at outer_same inner_same
  have patterns : combinePatterns outer.patterns inner.patterns =
      combinePatterns outer'.patterns inner'.patterns := by
    rw [combinePatterns_eq, combinePatterns_eq, outer_same.1, inner_same.1]
  rw [combine_eq, combine_eq, patterns]
  cases combinePatterns outer'.patterns inner'.patterns with
  | error error =>
    refine ⟨fun _ => Iff.rfl, fun route route' made _ => ?_⟩
    cases made
  | ok combined =>
    constructor
    · intro error
      constructor <;> intro failed <;> cases failed
    intro route route' made made'
    cases made
    cases made'
    obtain ⟨-, methods, params, headers, consumes, produces⟩ := outer_same
    obtain ⟨-, methods', params', headers', consumes', produces'⟩ := inner_same
    simp only [beq_iff_conditions, conditions, map_part_overrideMedia, methods, params, headers,
      consumes, produces, methods', params', headers', consumes', produces']

/-- Routes are canonical keys.  How often and in which order the texts of a declaration are stated, and
under which name, makes no difference: the same texts can be read together, and they are read as the
same route.  The entries of a route are what the texts are read as, and declared routes are the same
exactly when they have the same entries.  What two routes are combined to depends on nothing else of
them.  So a route that was registered is refused to another handler method, in whatever way it is
written. -/
theorem ofSpec_canonical :
    (∀ spec spec' : RouteSpec, spec.SameTexts spec' →
      ((∃ route, ofSpec spec = .ok route) ↔ ∃ route, ofSpec spec' = .ok route) ∧
      ∀ route route', ofSpec spec = .ok route → ofSpec spec' = .ok route' →
        (route == route') = true) ∧
    (∀ spec route, ofSpec spec = .ok route → route.ReadFrom spec) ∧
    (∀ route route' : Route, route.Declared → route'.Declared →
      ((route == route') = true ↔ route.SameEntries route')) ∧
    (∀ outer outer' inner inner' : Route, (outer == outer') = true → (inner == inner') = true →
      (∀ error, outer.combine inner = .error error ↔ outer'.combine inner' = .error error) ∧
      ∀ route route', outer.combine inner = .ok route → outer'.combine inner' = .ok route' →
        (route == route') = true) ∧
    ∀ (config : MappingConfig) (naming : Option (Naming Route)) (registry registry' : Registry Route)
      (route route' : Route) (handler handler' : HandlerMethod),
      let strategy := RouteStrategy.strategy config
      (route == route') = true → (handler == handler') = false →
      registry.register strategy naming route handler = .ok registry' →
      ∃ existing, registry'.registration? route = some existing ∧
        (existing.handler == handler) = true ∧
        registry'.register strategy naming route' handler' =
          .error (.ambiguousMapping (strategy.text route') existing.handler.text handler'.text) := by
  refine ⟨fun spec spec' same => ⟨exists_ofSpec_congr same, ?_⟩,
    fun spec route => readFrom_of_ofSpec, ?_, ?_, ?_⟩
  · intro route route' read read'
    exact ((Declared.read read).canonical.beq_iff_sameEntries (Declared.read read').canonical).mpr
      (sameEntries_of_sameTexts same read read')
  · intro route route' declared declared'
    exact declared.canonical.beq_iff_sameEntries declared'.canonical
  · intro outer outer' inner inner' same same'
    exact combine_congr same same'
  · intro config naming registry registry' route route' handler handler' strategy same other registered
    exact Registry.register_same_key same other registered

/-- One route written in two ways, each entry once or the paths repeated and all else the other way
round.  Both are read as the same route with the same entries, combine to the same route, and only one
of two handler methods can have it. -/
theorem ofSpec_users_repeated :
    let once : RouteSpec := ⟨["/users", "people"], ["get", "PUT"], ["page"], [],
      ["text/plain;q=0.5", "!text/html"], [], some "once"⟩
    let repeated : RouteSpec := ⟨["people", "/users", "people"], ["PUT", "get"], ["page"], [],
      ["!text/html", "text/plain;q=0.5"], [], none⟩
    let list := HandlerMethod.ofBean "users" "Users" (.plain "list")
    let search := HandlerMethod.ofBean "users" "Users" (.plain "search")
    let strategy := RouteStrategy.strategy .standard
    once.SameTexts repeated ∧
    ∃ route route' combined combined' registry existing,
      ofSpec once = .ok route ∧ ofSpec repeated = .ok route' ∧ (route == route') = true ∧
      route.ReadFrom once ∧ route.SameEntries route' ∧ route.combine route = .ok combined ∧
      route'.combine route' = .ok combined' ∧ (combined == combined') = true ∧
      Registry.empty.register strategy none route list = .ok registry ∧
      (list == search) = false ∧
      registry.register strategy none route' search =
        .error (.ambiguousMapping (strategy.text route') existing search.text) := by
  intro once repeated list search strategy
  obtain ⟨reads, entries, same_iff, combines, conflicts⟩ := ofSpec_canonical
  have same : once.SameTexts repeated := by
    constructor <;> intro text <;> simp [once, repeated] <;> tauto
  obtain ⟨-, same_route⟩ := reads once repeated same
  have readable (spec : RouteSpec) (succeeds : (ofSpec spec >>= fun r => r.combine r).isOk = true) :
      ∃ route combined, ofSpec spec = .ok route ∧ route.combine route = .ok combined := by
    cases made : ofSpec spec >>= fun r => r.combine r with
    | ok combined => exact (Outcome.bind_eq_ok_iff.mp made).imp fun _ reads => ⟨combined, reads⟩
    | error error =>
      rw [made] at succeeds
      cases succeeds
  obtain ⟨route, combined, read, joined⟩ := readable once (by decide +kernel)
  obtain ⟨route', combined', read', joined'⟩ := readable repeated (by decide +kernel)
  have equal := same_route route route' read read'
  have other : (list == search) = false := by decide
  obtain ⟨r, -, -, registered⟩ := Registry.register_of_free none
    (rfl : Registry.empty.registration? route = none)
    (rfl : strategy.corsFor list route = .ok none)
  obtain ⟨existing, -, -, conflict⟩ := conflicts .standard none .empty _ route route' list search equal
    other registered
  exact ⟨same, route, route', combined, combined', _, existing.handler.text, read, read', equal,
    entries once route read, (same_iff route route' (.read read) (.read read')).mp equal, joined,
    joined', (combines route route' route route' equal equal).2 combined combined' joined joined',
    registered, other, conflict⟩

end Route

end HttpRouting
