import HttpRouting.Mapping.UrlMapping
import HttpRouting.Proofs.Mapping.DirectPath
import HttpRouting.Proofs.Table

/-!
Mappings from patterns straight to request handlers.  A path is looked up among the fixed texts first
and among the other patterns then.  That is plain matching of all that was registered, in the order of
the calls, but for one thing: fixed text is found under itself only, and not under the other paths that
it matches, be it for a slash at their end or for slashes that stand side by side.
-/

set_option autoImplicit false
set_option relaxedAutoImplicit false

namespace HttpRouting.UrlMapping

open Sorting (FirstLeast Thinned firstLeast? firstLeast?_eq_some_iff)

/-- A pattern with the handler that was registered for it. -/
abbrev Entry := PathPattern × RequestHandler

/-- The more specific pattern for a path comes first. -/
def entryOrder (path : String) (a b : Entry) : Ordering :=
  PathPattern.specificity path a.1 b.1

/-- Whether an entry matches a path. -/
def matchesPath (lenient : Bool) (path : String) (e : Entry) : Bool :=
  e.1.matchesPath path lenient

/-- Whether an entry is looked at for a path: fixed text for itself, other patterns for any path. -/
def looksAt (path : String) (e : Entry) : Bool :=
  e.1.hasWildcards || e.1.isExactly path

/-- The match of an entry with a path. -/
def toMatch (lenient : Bool) (path : String) (e : Entry) : UrlMatch :=
  ⟨e.1.source, (e.1.match? path lenient).getD [], e.2⟩

/-- Plain matching: the most specific of the entries that match, the first of equals. -/
def scan (lenient : Bool) (path : String) (entries : List Entry) : Option UrlMatch :=
  (firstLeast? (entryOrder path) (entries.filter (matchesPath lenient path))).map (toMatch lenient path)

/-- The ways to come by a mapping, with what was registered on the way, call by call. -/
inductive Reached : List Entry → UrlMapping → Prop
  | new (name : String) : Reached [] (new name)
  | configured {entries : List Entry} {m : UrlMapping} (lenient : Bool)
      (fallback : Option RequestHandler) (cors : Option CorsConfig) :
      Reached entries m → Reached entries { m with lenient, fallback, cors }
  | registered {entries : List Entry} {m m' : UrlMapping} {text : String} {p : PathPattern}
      {handler : RequestHandler} :
      Reached entries m → PathPattern.parse text = .ok p → m.register text handler = .ok m' →
      Reached (entries ++ [(p, handler)]) m'

variable {m m' : UrlMapping} {entries : List Entry} {path text : String} {p : PathPattern}
  {handler : RequestHandler}

instance : Std.TransCmp (entryOrder path) :=
  transCmp_of_part Prod.fst inferInstance

section Scan

variable {lenient : Bool}

theorem filterMap_match?_eq (entries : List Entry) :
    (entries.filterMap fun (pattern, handler) =>
      (pattern.match? path lenient).map fun bindings => (pattern, bindings, handler)) =
      (entries.filter (matchesPath lenient path)).map fun e =>
        (e.1, (e.1.match? path lenient).getD [], e.2) := by
  induction entries with
  | nil => rfl
  | cons e rest ih =>
    obtain ⟨pattern, handler⟩ := e
    cases bound : pattern.match? path lenient with
    | none =>
      have unmatched : ¬ matchesPath lenient path (pattern, handler) = true := by
        simp [matchesPath, PathPattern.matchesPath, bound]
      rw [List.filter_cons_of_neg unmatched, ← ih]
      simp [bound]
    | some bindings =>
      have matched : matchesPath lenient path (pattern, handler) = true := by
        simp [matchesPath, PathPattern.matchesPath, bound]
      rw [List.filter_cons_of_pos matched, List.map_cons, ← ih]
      simp [bound]

theorem lookup_eq (m : UrlMapping) (path : String) : m.lookup path =
    match m.exact.get? path with
    | some handler => some ⟨path, [], handler⟩
    | none => scan m.lenient path m.patterns := by
  rw [lookup, matching, filterMap_match?_eq, Sorting.firstLeast?_map]
  cases m.exact.get? path with
  | some handler => rfl
  | none =>
    simp only [scan, Option.map_map]
    rfl

theorem scan_eq_some_iff {found : UrlMatch} : scan lenient path entries = some found ↔
    ∃ e, FirstLeast (entryOrder path) (entries.filter (matchesPath lenient path)) e ∧
      found = toMatch lenient path e := by
  rw [scan, Option.map_eq_some_iff]
  simp only [firstLeast?_eq_some_iff, @eq_comm _ found]

theorem scan_eq_none_iff : scan lenient path entries = none ↔
    ∀ e ∈ entries, matchesPath lenient path e = false := by
  rw [scan, Option.map_eq_none_iff, Sorting.firstLeast?_eq_none_iff, List.filter_eq_nil_iff]
  simp

theorem scan_thinned {kept : List Entry} (thinned : Thinned kept entries) :
    scan lenient path kept = scan lenient path entries := by
  rw [scan, scan, (thinned.filter (matchesPath lenient path)).firstLeast?_eq]

end Scan

/-- What a registration does: for a pattern that is known it changes nothing, and takes the handler
that was registered before; a new one is added. -/
inductive Registers (m : UrlMapping) (p : PathPattern) (handler : RequestHandler) : UrlMapping → Prop
  | knownPattern {q : PathPattern} : p.hasWildcards = true → (q, handler) ∈ m.patterns →
      q.source = p.source → Registers m p handler m
  | newPattern : p.hasWildcards = true →
      Registers m p handler { m with patterns := m.patterns ++ [(p, handler)] }
  | knownText : p.hasWildcards = false → m.exact.get? p.source = some handler →
      Registers m p handler m
  | newText : p.hasWildcards = false → m.exact.get? p.source = none →
      Registers m p handler { m with exact := m.exact.put p.source handler }

theorem keepHandler_eq_ok {existing : RequestHandler}
    (kept : m.keepHandler p existing handler = .ok m') : existing = handler ∧ m' = m := by
  rw [keepHandler] at kept
  split at kept
  · next same => exact ⟨same, (Except.ok.inj kept).symm⟩
  · cases kept

theorem registers_of_register (read : PathPattern.parse text = .ok p)
    (registered : m.register text handler = .ok m') : Registers m p handler m' := by
  simp only [register, read] at registered
  split at registered
  · next wild =>
    split at registered
    · next q existing found =>
      obtain ⟨rfl, rfl⟩ := keepHandler_eq_ok registered
      exact .knownPattern wild (List.mem_of_find?_eq_some found) (eq_of_beq (List.find?_some found :))
    · cases registered
      exact .newPattern wild
  · next literal =>
    have literal := Bool.eq_false_iff.mpr literal
    split at registered
    · next existing found =>
      obtain ⟨rfl, rfl⟩ := keepHandler_eq_ok registered
      exact .knownText literal found
    · next absent =>
      cases registered
      exact .newText literal absent

/-- Fixed text is among the entries, with a handler. -/
def HasText (entries : List Entry) (text : String) (handler : RequestHandler) : Prop :=
  ∃ e ∈ entries, e.1.hasWildcards = false ∧ e.1.source = text ∧ e.2 = handler

theorem hasText_concat {e : Entry} : HasText (entries ++ [e]) text handler ↔
    HasText entries text handler ∨
      e.1.hasWildcards = false ∧ e.1.source = text ∧ e.2 = handler := by
  simp only [HasText, List.mem_append, List.mem_singleton, or_and_right, exists_or, exists_eq_left]

/-- A mapping has what was registered: fixed texts in its table, other patterns in order. -/
structure Holds (m : UrlMapping) (entries : List Entry) : Prop where
  parsed : ∀ e ∈ entries, e.1.Parsed
  exact_iff : ∀ text handler, m.exact.get? text = some handler ↔ HasText entries text handler
  patterns : Thinned m.patterns (entries.filter fun e => e.1.hasWildcards)

theorem holds_new (name : String) : (new name).Holds [] where
  parsed := List.forall_mem_nil _
  exact_iff := by simp [new, HasText]
  patterns := .nil

theorem parsed_concat (all : ∀ e ∈ entries, e.1.Parsed) (parsed : p.Parsed) :
    ∀ e ∈ entries ++ [(p, handler)], e.1.Parsed := by
  intro e member
  rcases List.mem_append.mp member with old | new
  · exact all e old
  · rwa [List.mem_singleton.mp new]

theorem Holds.withPatterns (holds : m.Holds entries) (parsed : p.Parsed) (wild : p.hasWildcards = true)
    {patterns : List Entry}
    (thinned : Thinned patterns ((entries.filter fun e => e.1.hasWildcards) ++ [(p, handler)])) :
    { m with patterns }.Holds (entries ++ [(p, handler)]) where
  parsed := parsed_concat holds.parsed parsed
  exact_iff := by
    intro text handler'
    rw [hasText_concat, ← holds.exact_iff]
    simp [wild]
  patterns := by
    rw [List.filter_append, List.filter_cons_of_pos (by exact wild), List.filter_nil]
    exact thinned

theorem Holds.withTexts (holds : m.Holds entries) (parsed : p.Parsed) (literal : p.hasWildcards = false)
    {exact : Table String RequestHandler}
    (found_iff : ∀ text handler', exact.get? text = some handler' ↔
      m.exact.get? text = some handler' ∨ p.source = text ∧ handler = handler') :
    { m with exact }.Holds (entries ++ [(p, handler)]) where
  parsed := parsed_concat holds.parsed parsed
  exact_iff := by
    intro text handler'
    rw [found_iff, hasText_concat, ← holds.exact_iff]
    simp [literal]
  patterns := by
    rw [List.filter_append, List.filter_cons_of_neg (by simp [literal]), List.filter_nil,
      List.append_nil]
    exact holds.patterns

/-- A registration adds its entry to what a mapping has. -/
theorem Holds.register (holds : m.Holds entries) (parsed : p.Parsed)
    (registers : Registers m p handler m') : m'.Holds (entries ++ [(p, handler)]) := by
  cases registers with
  | @knownPattern q wild known same =>
    have listed : (q, handler) ∈ entries :=
      (List.mem_filter.mp (holds.patterns.mem_iff.mp known)).1
    obtain rfl : q = p := (holds.parsed _ listed).eq_of_source_eq parsed same
    exact holds.withPatterns parsed wild (holds.patterns.repeated known)
  | newPattern wild => exact holds.withPatterns parsed wild (holds.patterns.concat _)
  | knownText literal known =>
    refine holds.withTexts parsed literal fun text handler' => ?_
    constructor
    · exact .inl
    · rintro (old | ⟨rfl, rfl⟩)
      · exact old
      · exact known
  | newText literal absent =>
    refine holds.withTexts parsed literal fun text handler' => ?_
    rw [Table.get?_put]
    cases here : p.source == text with
    | true =>
      obtain rfl := eq_of_beq here
      simp [absent]
    | false => simp [ne_of_beq_false here]

theorem Reached.holds (reached : Reached entries m) : m.Holds entries := by
  induction reached with
  | new name => exact holds_new name
  | configured lenient fallback cors _ ih => exact ⟨ih.parsed, ih.exact_iff, ih.patterns⟩
  | registered _ read registered ih =>
    exact ih.register ⟨_, read⟩ (registers_of_register read registered)

namespace Holds

variable (holds : m.Holds entries)

include holds

theorem looksAt_eq_of_get?_eq_none (absent : m.exact.get? path = none) {e : Entry}
    (member : e ∈ entries) : looksAt path e = e.1.hasWildcards := by
  rw [looksAt, Bool.or_eq_left_iff_imp]
  intro exact_path
  by_contra literal
  have found : m.exact.get? path = some e.2 := (holds.exact_iff path e.2).mpr
    ⟨e, member, Bool.eq_false_iff.mpr literal, eq_of_beq exact_path, rfl⟩
  rw [absent] at found
  cases found

/-- The entries of one text have one handler, when that is fixed text. -/
theorem toMatch_of_text {e : Entry} (found : m.exact.get? path = some handler) (member : e ∈ entries)
    (exact_path : e.1.isExactly path = true) (lenient : Bool) :
    toMatch lenient path e = ⟨path, [], handler⟩ := by
  obtain ⟨d, listed, literal, source, rfl⟩ := (holds.exact_iff path handler).mp found
  have source' : e.1.source = path := eq_of_beq exact_path
  have equal : e.1 = d.1 :=
    (holds.parsed e member).eq_of_source_eq (holds.parsed d listed) (source'.trans source.symm)
  have found' : m.exact.get? path = some e.2 :=
    (holds.exact_iff path e.2).mpr ⟨e, member, equal ▸ literal, source', rfl⟩
  have same : e.2 = d.2 := Option.some.inj (found'.symm.trans found)
  have binds : e.1.match? path lenient = some [] := by
    rw [← source']
    exact (holds.parsed e member).match?_source (equal ▸ literal) lenient
  rw [toMatch, binds, source', same]
  rfl

/-- Looking up is plain matching of the entries that are looked at. -/
theorem lookup_eq_scan (path : String) :
    m.lookup path = scan m.lenient path (entries.filter (looksAt path)) := by
  rw [lookup_eq]
  cases found : m.exact.get? path with
  | none =>
    have wild : entries.filter (looksAt path) = entries.filter fun e => e.1.hasWildcards := by
      apply List.filter_congr
      intro e member
      exact holds.looksAt_eq_of_get?_eq_none found member
    rw [wild]
    exact scan_thinned holds.patterns
  | some handler =>
    obtain ⟨d, listed, literal, source, -⟩ := (holds.exact_iff path handler).mp found
    have exact_path : d.1.isExactly path = true := beq_iff_eq.mpr source
    have looked_at : looksAt path d = true := by rw [looksAt, exact_path, Bool.or_true]
    have matched : matchesPath m.lenient path d = true :=
      source ▸ (holds.parsed d listed).matchesPath_source literal m.lenient
    have candidate : d ∈ (entries.filter (looksAt path)).filter (matchesPath m.lenient path) :=
      List.mem_filter.mpr ⟨List.mem_filter.mpr ⟨listed, looked_at⟩, matched⟩
    symm
    rw [scan_eq_some_iff]
    cases least : firstLeast? (entryOrder path)
        ((entries.filter (looksAt path)).filter (matchesPath m.lenient path)) with
    | none =>
      rw [Sorting.firstLeast?_eq_none_iff.mp least] at candidate
      cases candidate
    | some e =>
      have least := Sorting.firstLeast_of_firstLeast? least
      have member : e ∈ entries := (List.mem_filter.mp (List.mem_filter.mp least.mem).1).1
      refine ⟨e, least, (holds.toMatch_of_text found member ?_ m.lenient).symm⟩
      -- An entry of another text would be behind the fixed text.
      by_contra inexact
      have before : entryOrder path d e = .lt :=
        PathPattern.specificity_eq_lt exact_path (Bool.eq_false_iff.mpr inexact)
      exact Std.OrientedCmp.not_isLE_of_lt before (least.isLE candidate)

end Holds

/-- For every history of registrations and settings, and every path.  A handler is found exactly when
some registered pattern matches the path that is not fixed text or is the path itself.  What is found
is the most specific of these, the first registered of equals.  This is plain matching of all that was
registered exactly when plain matching does not come upon fixed text that is written otherwise than
the path. -/
theorem lookup_among_registered (m : UrlMapping) (entries : List Entry) (reached : Reached entries m)
    (path : String) :
    ((m.lookup path).isSome = true ↔ ∃ e ∈ entries, e.1.matchesPath path m.lenient = true ∧
      (e.1.hasWildcards = true ∨ e.1.source = path)) ∧
    (∀ found, m.lookup path = some found ↔
      ∃ e, FirstLeast (entryOrder path)
          ((entries.filter (looksAt path)).filter (matchesPath m.lenient path)) e ∧
        found = toMatch m.lenient path e) ∧
    (m.lookup path = scan m.lenient path entries ↔
      ∀ e, FirstLeast (entryOrder path) (entries.filter (matchesPath m.lenient path)) e →
        e.1.hasWildcards = true ∨ e.1.source = path) := by
  have holds := reached.holds
  have looksAt_iff (e : Entry) : looksAt path e = true ↔
      e.1.hasWildcards = true ∨ e.1.source = path := by
    rw [looksAt, Bool.or_eq_true, PathPattern.isExactly, beq_iff_eq]
  have finds (found : UrlMatch) : m.lookup path = some found ↔
      ∃ e, FirstLeast (entryOrder path)
          ((entries.filter (looksAt path)).filter (matchesPath m.lenient path)) e ∧
        found = toMatch m.lenient path e := by
    rw [holds.lookup_eq_scan, scan_eq_some_iff]
  have misses : m.lookup path = none ↔ ∀ e ∈ entries, looksAt path e = true →
      matchesPath m.lenient path e = false := by
    rw [holds.lookup_eq_scan, scan_eq_none_iff]
    simp only [List.mem_filter, and_imp]
  refine ⟨?_, finds, ?_⟩
  · rw [← Option.ne_none_iff_isSome, ne_eq, misses]
    simp only [not_forall, exists_prop, Bool.not_eq_false, looksAt_iff]
    exact exists_congr fun e => and_congr_right fun _ => and_comm
  · constructor
    · intro same e least
      have scanned : scan m.lenient path entries = some (toMatch m.lenient path e) :=
        scan_eq_some_iff.mpr ⟨e, least, rfl⟩
      obtain ⟨d, least', equal⟩ := (finds _).mp (same.trans scanned)
      obtain ⟨listed, looked_at⟩ := List.mem_filter.mp (List.mem_filter.mp least'.mem).1
      have source : e.1.source = d.1.source := congrArg UrlMatch.pattern equal
      have one : e.1 = d.1 := (holds.parsed e (List.mem_filter.mp least.mem).1).eq_of_source_eq
        (holds.parsed d listed) source
      rw [one]
      exact (looksAt_iff d).mp looked_at
    · intro looked_at
      cases scanned : scan m.lenient path entries with
      | none =>
        rw [misses]
        intro e member _
        exact scan_eq_none_iff.mp scanned e member
      | some found =>
        obtain ⟨e, least, rfl⟩ := scan_eq_some_iff.mp scanned
        have among := least.filter (looksAt path) ((looksAt_iff e).mpr (looked_at e least))
        rw [List.filter_comm] at among
        exact (finds _).mpr ⟨e, among, rfl⟩

/-- A path that is registered is found before a pattern that was registered first. -/
theorem text_found_before_pattern :
    let users := RequestHandler.application 0 "users"
    let other := RequestHandler.application 1 "other"
    let pattern : Entry := (⟨"/*", [.wildcard], false⟩, other)
    let text : Entry := (⟨"/users", [.literal "users"], false⟩, users)
    ∃ m, Reached [pattern, text] m ∧ m.lookup "/users" = some ⟨"/users", [], users⟩ ∧
      m.lookup "/users" = scan m.lenient "/users" [pattern, text] := by
  intro users other pattern text
  have read : PathPattern.parse "/*" = .ok pattern.1 := by rfl
  have read' : PathPattern.parse "/users" = .ok text.1 := by rfl
  let first := { new "urls" with patterns := [pattern] }
  let both := { first with exact := first.exact.put "/users" users }
  have reached : Reached [pattern] first := .registered (.new "urls") read rfl
  have reached : Reached [pattern, text] both := .registered reached read' rfl
  obtain ⟨-, finds, agrees⟩ := lookup_among_registered both _ reached "/users"
  have least : FirstLeast (entryOrder "/users") [pattern, text] text :=
    ⟨[pattern], [], rfl, by decide +kernel, List.forall_mem_nil _⟩
  have matching : [pattern, text].filter (matchesPath false "/users") = [pattern, text] := by rfl
  have looked_at : ([pattern, text].filter (looksAt "/users")).filter (matchesPath false "/users") =
      [pattern, text] := by rfl
  refine ⟨both, reached, (finds _).mpr ⟨text, looked_at ▸ least, by rfl⟩, agrees.mpr ?_⟩
  intro e least'
  rw [show both.lenient = false from rfl, matching] at least'
  exact .inr (congrArg (fun e : Entry => e.1.source) (least'.unique least))

/-- Fixed text is missed under a path that it matches for the slash at its end. -/
theorem text_missed_for_trailing_slash :
    ∃ m entries, Reached entries m ∧ m.lenient = true ∧
      (∃ e ∈ entries, e.1.matchesPath "/users/" m.lenient = true) ∧ m.lookup "/users/" = none := by
  have read : PathPattern.parse "/users" = .ok ⟨"/users", [.literal "users"], false⟩ := by rfl
  let users := RequestHandler.application 0 "users"
  obtain ⟨m, registered⟩ : ∃ m, (new "urls").register "/users" users = .ok m := ⟨_, rfl⟩
  have reached := Reached.registered (.new "urls") read registered
  cases registered
  exact ⟨_, _, reached.configured true none none, rfl,
    ⟨_, List.mem_singleton_self _, by decide +kernel⟩, rfl⟩

end HttpRouting.UrlMapping
