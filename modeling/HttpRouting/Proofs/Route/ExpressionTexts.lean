import HttpRouting.Proofs.Route.Canonical
import HttpRouting.Proofs.Route.Narrowing
import HttpRouting.Route.Printer
import HttpRouting.Proofs.Text.Blank

/-!
The texts of expressions over the query and the header fields.  Reading the text of an expression gives
the expression back, unless its name ends in an exclamation mark and a plain value follows: then the
text is that of a negation.  So expressions are told apart by their texts up to this one confusion.
-/

set_option autoImplicit false
set_option relaxedAutoImplicit false

namespace HttpRouting

namespace Expression

/-- A text writes a name, perhaps a value, and perhaps a negation, with blanks that do not count.  The
first `!=` parts the name from the value, without one the first `=` does, and without either an
exclamation mark in front is a negation. -/
inductive Writes : List Char → List Char → Option (List Char) → Bool → Prop
  | unequal {name : List Char} (value : List Char) : ¬ ['!', '='] <:+: name →
      Writes (name ++ '!' :: '=' :: value) name (some value) true
  | equal {name value : List Char} : '=' ∉ name → ¬ ['!', '='] <:+: name ++ '=' :: value →
      Writes (name ++ '=' :: value) name (some value) false
  | negated {name : List Char} : '=' ∉ name → Writes ('!' :: name) name none true
  | plain {name : List Char} : '=' ∉ name → name.head? ≠ some '!' → Writes name name none false

/-- The marks that are not found in an expression, as they would have been taken for others. -/
def Clear : Expression → Prop
  | ⟨name, some _, true⟩ => ¬ ['!', '='] <:+: name.toList
  | ⟨name, some value, false⟩ => '=' ∉ name.toList ∧ ¬ ['!', '='] <:+: value.toList
  | ⟨name, none, true⟩ => '=' ∉ name.toList
  | ⟨name, none, false⟩ => '=' ∉ name.toList ∧ name.toList.head? ≠ some '!'

/-- What an expression that was read is like. -/
structure Readable (e : Expression) : Prop where
  named : e.name.toList ≠ []
  name_trimmed : Text.trim e.name.toList = e.name.toList
  value_trimmed : ∀ value ∈ e.value, Text.trim value.toList = value.toList
  clear : e.Clear

/-- The name ends in an exclamation mark, right in front of the equals sign of a plain value. -/
def PassesForNegation (e : Expression) : Prop :=
  e.name.toList.getLast? = some '!' ∧ e.value.isSome = true ∧ e.negated = false

instance (e : Expression) : Decidable e.PassesForNegation :=
  inferInstanceAs (Decidable (_ ∧ _))

/-- An expression that passes for a negation, and the negation that it passes for. -/
inductive Confused : Expression → Expression → Prop
  | mark (name value : String) : Confused ⟨name ++ "!", some value, false⟩ ⟨name, some value, true⟩

section Reading

variable {text name : List Char} {value : Option (List Char)} {negated : Bool} {e : Expression}

theorem not_isInfix_of_notMem (free : '=' ∉ text) : ¬ ['!', '='] <:+: text :=
  fun within => free (within.subset (by simp))

theorem writes_of_parts (taken : parts text = (name, value, negated)) :
    Writes text name value negated := by
  unfold parts at taken
  split at taken
  · next before behind cut =>
    cases taken
    rw [Text.append_of_splitOnce?_eq_some cut, List.append_assoc]
    exact .unequal behind (Text.not_isInfix_of_splitOnce?_eq_some (List.cons_ne_nil _ _) cut)
  · next uncut =>
    have free := Text.splitOnce?_eq_none_iff.mp uncut
    split at taken
    · next before behind cut =>
      cases taken
      obtain ⟨rfl, first⟩ := Text.eq_append_of_splitOnce?_eq_some cut
      exact .equal first free
    · next uncut =>
      have no_equals : '=' ∉ text := fun member =>
        Text.splitOnce?_eq_none_iff.mp uncut ((List.singleton_infix_iff _ _).mpr member)
      split at taken
      · cases taken
        exact .negated fun member => no_equals (List.mem_cons_of_mem _ member)
      · next unmarked =>
        cases taken
        refine .plain no_equals fun marked => ?_
        obtain ⟨rest, begins⟩ := List.head?_eq_some_iff.mp marked
        exact unmarked rest begins

theorem parts_of_writes (writes : Writes text name value negated) :
    parts text = (name, value, negated) := by
  unfold parts
  cases writes with
  | unequal value free => simp only [Text.splitOnce?_append_pair (by decide) free]
  | equal first free =>
    simp only [Text.splitOnce?_eq_none_iff.mpr free, Text.splitOnce?_append first]
  | negated no_equals =>
    have no_equals : '=' ∉ '!' :: name := by simpa using no_equals
    have uncut := Text.splitOnce?_eq_none_iff.mpr (not_isInfix_of_notMem no_equals)
    simp only [uncut, Text.splitOnce?_eq_none no_equals]
  | plain no_equals unmarked =>
    have uncut := Text.splitOnce?_eq_none_iff.mpr (not_isInfix_of_notMem no_equals)
    simp only [uncut, Text.splitOnce?_eq_none no_equals]
    split
    · exact absurd rfl unmarked
    · rfl

theorem parse?_of_writes {text : String} (writes : Writes (Text.trim text.toList) name value negated) :
    parse? text =
      if (Text.trim name).isEmpty then none
      else some ⟨String.ofList (Text.trim name), value.map fun v => String.ofList (Text.trim v),
        negated⟩ := by
  rw [parse?, parts_of_writes writes]

theorem parse?_eq_some_iff {text : String} : parse? text = some e ↔
    ∃ name value negated, Writes (Text.trim text.toList) name value negated ∧
      Text.trim name ≠ [] ∧
      e = ⟨String.ofList (Text.trim name), value.map fun v => String.ofList (Text.trim v), negated⟩ := by
  constructor
  · intro read
    cases taken : parts (Text.trim text.toList) with | mk name rest
    obtain ⟨value, negated⟩ := rest
    have writes := writes_of_parts taken
    rw [parse?_of_writes writes] at read
    split at read
    · cases read
    · next named =>
      rw [List.isEmpty_iff] at named
      exact ⟨name, value, negated, writes, named, (Option.some.inj read).symm⟩
  · rintro ⟨name, value, negated, writes, named, rfl⟩
    rw [parse?_of_writes writes, if_neg (by rwa [List.isEmpty_iff])]

theorem readable_of_parse? {text : String} (read : parse? text = some e) : e.Readable := by
  obtain ⟨name, value, negated, writes, named, rfl⟩ := parse?_eq_some_iff.mp read
  have within := Text.trim_isInfix name
  have kept {c : Char} (free : c ∉ name) : c ∉ Text.trim name := fun member =>
    free (within.subset member)
  refine ⟨by simpa using named, by simp [Text.trim_trim], ?_, ?_⟩
  · intro written listed
    obtain ⟨v, -, rfl⟩ := Option.map_eq_some_iff.mp listed
    simp [Text.trim_trim]
  · generalize trimmed : Text.trim text.toList = whole at writes
    cases writes with
    | unequal value free =>
      simp only [Clear, Option.map_some, String.toList_ofList]
      exact fun found => free (found.trans within)
    | @equal _ value first free =>
      simp only [Clear, Option.map_some, String.toList_ofList]
      have behind : value <:+: name ++ '=' :: value :=
        ⟨name ++ ['='], [], by simp⟩
      exact ⟨kept first, fun found => free ((found.trans (Text.trim_isInfix value)).trans behind)⟩
    | negated no_equals =>
      simp only [Clear, Option.map_none, String.toList_ofList]
      exact kept no_equals
    | plain no_equals unmarked =>
      simp only [Clear, Option.map_none, String.toList_ofList]
      rw [← trimmed, Text.trim_trim, trimmed]
      exact ⟨no_equals, unmarked⟩

end Reading

section Printing

variable {e f : Expression} {name value : String}

theorem passesForNegation_iff : e.PassesForNegation ↔
    ∃ name value, e = ⟨name ++ "!", some value, false⟩ := by
  obtain ⟨name, value, negated⟩ := e
  constructor
  · rintro ⟨ends, written, rfl⟩
    obtain ⟨front, marked⟩ := List.getLast?_eq_some_iff.mp ends
    obtain ⟨value, rfl⟩ := Option.isSome_iff_exists.mp written
    refine ⟨String.ofList front, value, ?_⟩
    rw [← String.ofList_toList (s := name), marked, String.ofList_append]
  · rintro ⟨front, value, same⟩
    cases same
    exact ⟨by simp, rfl, rfl⟩

theorem toList_text (e : Expression) : e.text.toList =
    match e.value, e.negated with
    | some value, true => e.name.toList ++ '!' :: '=' :: value.toList
    | some value, false => e.name.toList ++ '=' :: value.toList
    | none, true => '!' :: e.name.toList
    | none, false => e.name.toList := by
  obtain ⟨name, _ | value, _ | _⟩ := e <;> simp [text]

theorem Readable.trim_text (readable : e.Readable) : Text.trim e.text.toList = e.text.toList := by
  obtain ⟨name, _ | value, negated⟩ := e <;> obtain ⟨-, trimmed, value_trimmed, -⟩ := readable <;>
    rw [toList_text]
  · cases negated with
    | false => exact trimmed
    | true =>
      have empty : Text.trim [] = [] := rfl
      exact Text.trim_append_cons empty (by decide) trimmed
  · have trimmed' := value_trimmed value rfl
    cases negated with
    | false => exact Text.trim_append_cons trimmed (by decide) trimmed'
    | true =>
      have marked : Text.trim (name.toList ++ ['!']) = name.toList ++ ['!'] :=
        Text.trim_append_cons trimmed (by decide) rfl
      have whole := Text.trim_append_cons (c := '=') marked (by decide) trimmed'
      rwa [List.append_assoc] at whole

/-- The sign between a name and a value is only taken for an inequality when the name ends in an
exclamation mark. -/
theorem not_isInfix_append_cons {name value : List Char} (no_equals : '=' ∉ name)
    (unmarked : ¬ ['!'] <:+ name) (free : ¬ ['!', '='] <:+: value) :
    ¬ ['!', '='] <:+: name ++ '=' :: value := by
  rintro ⟨front, rest, same⟩
  rw [List.append_assoc, List.cons_append] at same
  by_cases early : '=' ∈ front
  · obtain ⟨before, behind, rfl, first⟩ := List.eq_append_cons_of_mem early
    rw [List.append_assoc, List.cons_append] at same
    obtain ⟨-, later⟩ := Text.append_cons_inj first no_equals same
    exact free ⟨behind, rest, by rw [← later, List.append_assoc]; rfl⟩
  · have first : '=' ∉ front ++ ['!'] := by simpa using early
    have same : (front ++ ['!']) ++ '=' :: rest = name ++ '=' :: value := by
      rw [← same, List.append_assoc]
      rfl
    obtain ⟨here, -⟩ := Text.append_cons_inj first no_equals same
    exact unmarked ⟨front, here⟩

/-- What is written is read, as long as it does not pass for a negation. -/
theorem Readable.parse?_text (readable : e.Readable) (plain : ¬ e.PassesForNegation) :
    parse? e.text = some e := by
  have writes : Writes e.text.toList e.name.toList (e.value.map String.toList) e.negated := by
    obtain ⟨name, value, negated⟩ := e
    have clear := readable.clear
    rw [toList_text]
    rcases value with _ | value <;> cases negated
    · exact .plain clear.1 clear.2
    · exact .negated clear
    · refine .equal clear.1 (not_isInfix_append_cons clear.1 ?_ clear.2)
      rintro ⟨front, ends⟩
      exact plain ⟨by simp [← ends], rfl, rfl⟩
    · exact .unequal value.toList clear
  rw [← readable.trim_text] at writes
  refine parse?_eq_some_iff.mpr ⟨_, _, _, writes, ?_, ?_⟩
  · rw [readable.name_trimmed]
    exact readable.named
  · obtain ⟨name, _ | value, negated⟩ := e
    · simp [readable.name_trimmed]
    · simp [readable.name_trimmed, readable.value_trimmed value rfl]

/-- The text of an expression that passes for a negation is read as that negation, with its name
trimmed, unless nothing is left of the name. -/
theorem parse?_text_of_mark (readable : Readable ⟨name ++ "!", some value, false⟩) :
    parse? (text ⟨name ++ "!", some value, false⟩) =
      if Text.trimmed name = "" then none else some ⟨Text.trimmed name, some value, true⟩ := by
  have clear := readable.clear
  have written : (text ⟨name ++ "!", some value, false⟩).toList =
      name.toList ++ '!' :: '=' :: value.toList := by
    simp [toList_text]
  have no_equals : '=' ∉ name.toList := fun member => clear.1 (by simp [member])
  have writes := Writes.unequal value.toList (not_isInfix_of_notMem no_equals)
  rw [← written, ← readable.trim_text] at writes
  rw [parse?_of_writes writes]
  simp [Text.trimmed, readable.value_trimmed value rfl]

theorem Confused.passes (confused : Confused e f) : e.PassesForNegation ∧ f.negated = true := by
  cases confused with
  | mark name value => exact ⟨passesForNegation_iff.mpr ⟨name, value, rfl⟩, rfl⟩

theorem Confused.text_eq (confused : Confused e f) : e.text = f.text := by
  cases confused with
  | mark name value => simp [text, String.append_assoc]

/-- Only the negation that an expression passes for has the same text. -/
theorem Readable.confused (readable : e.Readable) (readable' : f.Readable)
    (passes : e.PassesForNegation) (plain : ¬ f.PassesForNegation) (same : e.text = f.text) :
    Confused e f := by
  obtain ⟨name, value, rfl⟩ := passesForNegation_iff.mp passes
  have read := readable'.parse?_text plain
  rw [← same, parse?_text_of_mark readable] at read
  split at read
  · cases read
  · cases read
    -- The texts agree to the letter, so nothing was trimmed off the name.
    have trimmed : Text.trimmed name = name := by
      have written := congrArg String.toList same
      simpa [toList_text, String.toList_inj, eq_comm] using written
    rw [trimmed]
    exact .mark name value

/-- Expressions have one text just when they are the same or one passes for the other. -/
theorem Readable.text_eq_iff (readable : e.Readable) (readable' : f.Readable) :
    e.text = f.text ↔ e = f ∨ Confused e f ∨ Confused f e := by
  constructor
  · intro same
    by_cases passes : e.PassesForNegation <;> by_cases passes' : f.PassesForNegation
    · left
      obtain ⟨name, value, rfl⟩ := passesForNegation_iff.mp passes
      obtain ⟨name', value', rfl⟩ := passesForNegation_iff.mp passes'
      have written := congrArg String.toList same
      simp only [toList_text] at written
      obtain ⟨named, valued⟩ := Text.append_cons_inj readable.clear.1 readable'.clear.1 written
      rw [String.toList_injective named, String.toList_injective valued]
    · exact .inr (.inl (readable.confused readable' passes passes' same))
    · exact .inr (.inr (readable'.confused readable passes' passes same.symm))
    · left
      have read := readable.parse?_text passes
      rw [same, readable'.parse?_text passes'] at read
      exact (Option.some.inj read).symm
  · rintro (rfl | confused | confused)
    · rfl
    · exact confused.text_eq
    · exact confused.text_eq.symm

end Printing

/-- Small letters bring in no marks and no blanks. -/
theorem Readable.withLowerName {e : Expression} (readable : e.Readable) : e.withLowerName.Readable := by
  have lowered : e.withLowerName.name.toList = e.name.toList.map Char.toLower := by
    simp [Expression.withLowerName, Text.lower]
  have no_equals (free : '=' ∉ e.name.toList) : '=' ∉ e.name.toList.map Char.toLower :=
    fun member => free (Text.mem_of_mem_map_toLower (by decide) member)
  have early : ∀ c ∈ ['!', '='], c.toNat < 0x61 :=
    List.forall_mem_cons.mpr ⟨by decide, List.forall_mem_singleton.mpr (by decide)⟩
  refine ⟨?_, ?_, readable.value_trimmed, ?_⟩
  · rw [lowered]
    simpa using readable.named
  · rw [lowered]
    exact Text.trim_map_toLower readable.name_trimmed
  · have clear := readable.clear
    obtain ⟨name, _ | value, _ | _⟩ := e <;> simp only [Clear, Expression.withLowerName] at * <;>
      rw [lowered]
    · refine ⟨no_equals clear.1, ?_⟩
      rw [List.head?_map]
      intro marked
      obtain ⟨c, first, same⟩ := Option.map_eq_some_iff.mp marked
      obtain rfl := Text.eq_of_toLower_eq same (by decide)
      exact clear.2 first
    · exact no_equals clear
    · exact ⟨no_equals clear.1, clear.2⟩
    · exact fun found => clear (Text.isInfix_of_isInfix_map_toLower early found)

end Expression

namespace Route

section Shown

variable {e f : Expression}

theorem mem_of_mem_canonical {expressions : List Expression}
    (member : e ∈ Expression.canonical expressions) : e ∈ expressions :=
  (Sorting.sortBy_perm _ _).mem_iff.mp ((Sorting.dropRepeats_sublist _).subset member)

theorem readable_of_readParam {text : String} (read : readParam text = .ok e) : e.Readable := by
  rw [readParam] at read
  split at read
  · next parsed =>
    cases read
    exact Expression.readable_of_parse? parsed
  · cases read

theorem readable_of_readHeader {text : String} (read : readHeader text = .ok e) : e.Readable := by
  obtain ⟨own, made, rfl⟩ := Outcome.map_eq_ok_iff.mp read
  exact (readable_of_readParam made).withLowerName

theorem readable_of_normal {expressions : List Expression}
    (normal : Normal Expression.order Expression.Readable expressions) :
    ∀ e ∈ expressions, e.Readable := by
  obtain ⟨made, all, rfl⟩ := normal
  exact fun e member => all e (mem_of_mem_canonical member)

/-- All expressions of a route were read. -/
theorem Built.readable {route : Route} (built : route.Built) :
    (∀ e ∈ route.params, e.Readable) ∧ ∀ e ∈ route.headers, e.Readable := by
  induction built with
  | declared read =>
    obtain ⟨-, -, -, params, headers, -⟩ := ofSpec_eq_ok_iff.mp read
    exact ⟨readable_of_normal (normal_of_readOnce params readable_of_readParam),
      readable_of_normal (normal_of_readOnce headers readable_of_readHeader)⟩
  | combined _ _ joined ih ih' =>
    rw [combine_eq] at joined
    obtain ⟨patterns, -, rfl⟩ := Outcome.map_eq_ok_iff.mp joined
    refine ⟨fun e member => ?_, fun e member => ?_⟩
    · exact (List.mem_append.mp (mem_of_mem_canonical member)).elim (ih.1 e) (ih'.1 e)
    · exact (List.mem_append.mp (mem_of_mem_canonical member)).elim (ih.2 e) (ih'.2 e)
  | narrowed _ narrows ih =>
    obtain ⟨-, -, -, params, headers, -⟩ := narrow_eq_some_iff.mp narrows
    rw [(narrowParams_eq_some_iff.mp params).2, narrowHeaders_eq headers]
    refine ⟨ih.1, ?_⟩
    split
    · exact List.forall_mem_nil _
    · exact ih.2

theorem titled_inj (title : String) {condition condition' : String} (shown : condition ≠ "")
    (shown' : condition' ≠ "") : titled title condition = titled title condition' ↔
      condition = condition' := by
  simp [titled, shown, shown', String.append_assoc]

theorem expressionsText_singleton (e : Expression) : expressionsText [e] = e.text := by
  simp [expressionsText, joined]

/-- A route shows the text of its only expression over the query. -/
theorem text_params_inj (rest : Route) (shown : e.text ≠ "") (shown' : f.text ≠ "") :
    ({ rest with params := [e] } : Route).text = ({ rest with params := [f] } : Route).text ↔
      e.text = f.text := by
  rw [← titled_inj "params" shown shown']
  simp [text, expressionsText_singleton]

theorem text_headers_inj (rest : Route) (shown : e.text ≠ "") (shown' : f.text ≠ "") :
    ({ rest with headers := [e] } : Route).text = ({ rest with headers := [f] } : Route).text ↔
      e.text = f.text := by
  rw [← titled_inj "headers" shown shown']
  simp [text, expressionsText_singleton]

end Shown

end Route

namespace Expression

theorem Readable.text_ne_empty {e : Expression} (readable : e.Readable) : e.text ≠ "" := by
  have named := readable.named
  obtain ⟨name, _ | value, _ | _⟩ := e <;> simp_all [text]

/-- What the text of an expression tells.

An expression that was read is read back from its text, unless its name ends in an exclamation mark and
a plain value follows.  Then its text is read as the negation under the name without the mark, and not at
all when no name is left.

Of all the expressions that routes have over the query and over the header fields, two have the same text
just when they are the same or one passes for the other.  Just then a request that fails them is told of
the same condition, and routes that differ only in these show the same text. -/
theorem parse?_text_eq_self_iff (text : String) (e : Expression) (read : parse? text = some e) :
    (parse? e.text = some e ↔ ¬ e.PassesForNegation) ∧
    (∀ name value, e = ⟨name ++ "!", some value, false⟩ → parse? e.text =
      if Text.trimmed name = "" then none else some ⟨Text.trimmed name, some value, true⟩) ∧
    ∀ route route' : Route, route.Built → route'.Built →
      ∀ f ∈ route.params ++ route.headers, ∀ g ∈ route'.params ++ route'.headers,
        (f.text = g.text ↔ f = g ∨ Confused f g ∨ Confused g f) ∧
        (Route.expressionsText [f] = Route.expressionsText [g] ↔ f.text = g.text) ∧
        ∀ rest : Route,
          (({ rest with params := [f] } : Route).text = ({ rest with params := [g] } : Route).text ↔
            f.text = g.text) ∧
          (({ rest with headers := [f] } : Route).text = ({ rest with headers := [g] } : Route).text ↔
            f.text = g.text) := by
  have readable := readable_of_parse? read
  refine ⟨⟨?_, readable.parse?_text⟩, ?_, ?_⟩
  · intro back passes
    obtain ⟨name, value, rfl⟩ := passesForNegation_iff.mp passes
    rw [parse?_text_of_mark readable] at back
    split at back <;> simp at back
  · rintro name value rfl
    exact parse?_text_of_mark readable
  · intro route route' built built' f listed g listed'
    have readable := List.forall_mem_append.mpr built.readable f listed
    have readable' := List.forall_mem_append.mpr built'.readable g listed'
    have shown := readable.text_ne_empty
    have shown' := readable'.text_ne_empty
    refine ⟨readable.text_eq_iff readable', ?_, fun rest =>
      ⟨Route.text_params_inj rest shown shown', Route.text_headers_inj rest shown shown'⟩⟩
    rw [Route.expressionsText_singleton, Route.expressionsText_singleton]

/-- A plain value is read back from the text of its expression, but not behind an exclamation mark, where
the text is read as a negation; and the two texts differ. -/
theorem mode_reads_back :
    let plain : Expression := ⟨"mode", some "full", false⟩
    let marked : Expression := ⟨"mode!", some "full", false⟩
    let spec := RouteSpec.empty.withPath "/users"
    parse? " mode = full" = some plain ∧ parse? plain.text = some plain ∧
      parse? "mode! = full" = some marked ∧
      parse? marked.text = some ⟨"mode", some "full", true⟩ ∧
      ∃ route route', Route.ofSpec (spec.withParam " mode = full") = .ok route ∧
        Route.ofSpec (spec.withHeader "Mode! = full") = .ok route' ∧
        plain ∈ route.params ∧ marked ∈ route'.headers ∧ plain.text ≠ marked.text := by
  intro plain marked spec
  have read : parse? " mode = full" = some plain := by decide +kernel
  have read' : parse? "mode! = full" = some marked := by decide +kernel
  obtain ⟨back, -, told_apart⟩ := parse?_text_eq_self_iff " mode = full" plain read
  obtain ⟨-, as_negation, -⟩ := parse?_text_eq_self_iff "mode! = full" marked read'
  obtain ⟨route, made, listed⟩ : ∃ route, Route.ofSpec (spec.withParam " mode = full") = .ok route ∧
      plain ∈ route.params := ⟨_, by rfl, by decide +kernel⟩
  obtain ⟨route', made', listed'⟩ : ∃ route, Route.ofSpec (spec.withHeader "Mode! = full") = .ok route ∧
      marked ∈ route.headers := ⟨_, by rfl, by decide +kernel⟩
  obtain ⟨same_text, -⟩ := told_apart route route' (.declared made) (.declared made') plain
    (List.mem_append_left _ listed) marked (List.mem_append_right _ listed')
  refine ⟨read, back.mpr (by decide), read', as_negation "mode" "full" rfl, route, route', made, made',
    listed, listed', ?_⟩
  rw [ne_eq, same_text]
  rintro (same | confused | confused)
  · exact absurd same (by decide)
  · exact absurd confused.passes (by decide)
  · exact absurd confused.passes (by decide)

/-- A demand and a refusal, read from different texts, have the same text. -/
theorem text_of_demand_and_refusal :
    ∃ demand refusal : Expression, parse? "a! =b" = some demand ∧ parse? "a!=b" = some refusal ∧
      demand ≠ refusal ∧ demand.text = refusal.text ∧ parse? demand.text ≠ some demand :=
  ⟨⟨"a!", some "b", false⟩, ⟨"a", some "b", true⟩, by decide +kernel⟩

end Expression

end HttpRouting
