import HttpRouting.MediaType
import HttpRouting.Proofs.Route.MediaTexts

/-!
Inclusion of media types.  A type covers another one in one of four ways, and these ways compose, so
that inclusion orders the types that were read partially; a type that covers another one is never the
more specific of the two.
-/

set_option autoImplicit false
set_option relaxedAutoImplicit false

namespace HttpRouting.MediaType

variable {a b c m : MediaType}

/-- The media types that some text is read as. -/
def Parsed (m : MediaType) : Prop :=
  ∃ value, parse value = .ok m

/-- The ways in which a media type covers another one: by a wildcard for all types, as the same type,
by a wildcard for all subtypes, or by one for the subtypes with a given text behind their last plus
sign. -/
inductive Covers (a b : MediaType) : Prop
  | everything : a.mainType = "*" → Covers a b
  | same : a.mainType = b.mainType → a.subtype = b.subtype → Covers a b
  | anySubtype : a.mainType = b.mainType → a.subtype = "*" → Covers a b
  | bySuffix (front suffix : List Char) : a.mainType = b.mainType →
      a.subtype.toList = '*' :: '+' :: suffix → b.subtype.toList = front ++ '+' :: suffix →
      '+' ∉ suffix → Covers a b

theorem wildcardSuffix?_eq_some_iff {suffix : List Char} :
    m.wildcardSuffix? = some suffix ↔ m.subtype.toList = '*' :: '+' :: suffix := by
  rw [wildcardSuffix?, List.isPrefixOf?_eq_some_iff_append_eq]
  exact eq_comm

theorem includes_iff_covers : a.includes b = true ↔ a.Covers b := by
  unfold includes
  constructor
  · intro included
    by_cases all : a.isWildcardType = true
    · exact .everything (beq_iff_eq.mp all)
    rw [if_neg all] at included
    by_cases main : (a.mainType != b.mainType) = true
    · rw [if_pos main] at included
      cases included
    rw [if_neg main] at included
    have main : a.mainType = b.mainType := by simpa using main
    by_cases plain : (a.subtype == b.subtype || a.subtype == "*") = true
    · rcases Bool.or_eq_true_iff.mp plain with equal | any
      · exact .same main (beq_iff_eq.mp equal)
      · exact .anySubtype main (beq_iff_eq.mp any)
    rw [if_neg plain] at included
    cases wild : a.wildcardSuffix? with
    | none =>
      rw [wild] at included
      cases included
    | some suffix =>
      rw [wild] at included
      obtain ⟨free, front, written⟩ := Text.afterLast?_eq_some_iff.mp (beq_iff_eq.mp included)
      exact .bySuffix front suffix main (wildcardSuffix?_eq_some_iff.mp wild) written free
  · intro covers
    by_cases all : a.isWildcardType = true
    · rw [if_pos all]
    rw [if_neg all]
    cases covers with
    | everything main => exact absurd (beq_iff_eq.mpr main) all
    | same main equal => simp [main, equal]
    | anySubtype main any => simp [main, any]
    | bySuffix front suffix main wild written free =>
      have found : b.suffix? = some suffix := Text.afterLast?_eq_some_iff.mpr ⟨free, front, written⟩
      have asked : a.wildcardSuffix? = some suffix := wildcardSuffix?_eq_some_iff.mpr wild
      simp [main, found, asked]

namespace Covers

theorem refl (m : MediaType) : m.Covers m :=
  .same rfl rfl

/-- A subtype with a plus sign is not the plain wildcard. -/
private theorem subtype_ne_star {front suffix : List Char}
    (written : m.subtype.toList = front ++ '+' :: suffix) : m.subtype ≠ "*" := by
  intro star
  have plus : '+' ∈ m.subtype.toList := by simp [written]
  rw [star] at plus
  exact absurd plus (by decide)

/-- What stands behind the last plus sign of a wildcard is all that it asks for. -/
private theorem suffix_unique {front suffix other : List Char}
    (wild : m.subtype.toList = '*' :: '+' :: other) (written : m.subtype.toList = front ++ '+' :: suffix)
    (free : '+' ∉ suffix) (free' : '+' ∉ other) : suffix = other := by
  have behind : Text.afterLast? '+' m.subtype.toList = some suffix :=
    Text.afterLast?_eq_some_iff.mpr ⟨free, front, written⟩
  have behind' : Text.afterLast? '+' m.subtype.toList = some other :=
    Text.afterLast?_eq_some_iff.mpr ⟨free', ['*'], wild⟩
  exact Option.some.inj (behind.symm.trans behind')

theorem trans (first : a.Covers b) (second : b.Covers c) : a.Covers c := by
  cases first with
  | everything main => exact .everything main
  | same main equal =>
    cases second with
    | everything main' => exact .everything (main.trans main')
    | same main' equal' => exact .same (main.trans main') (equal.trans equal')
    | anySubtype main' any => exact .anySubtype (main.trans main') (equal.trans any)
    | bySuffix front suffix main' wild written free =>
      exact .bySuffix front suffix (main.trans main') (equal ▸ wild) written free
  | anySubtype main any =>
    cases second with
    | everything main' => exact .everything (main.trans main')
    | same main' _ => exact .anySubtype (main.trans main') any
    | anySubtype main' _ => exact .anySubtype (main.trans main') any
    | bySuffix _ _ main' => exact .anySubtype (main.trans main') any
  | bySuffix front suffix main wild written free =>
    cases second with
    | everything main' => exact .everything (main.trans main')
    | same main' equal =>
      exact .bySuffix front suffix (main.trans main') wild (equal ▸ written) free
    | anySubtype _ any => exact absurd any (subtype_ne_star written)
    | bySuffix front' suffix' main' wild' written' free' =>
      -- Two wildcards in a row ask for the same suffix, so the middle one is the first again.
      obtain rfl := suffix_unique wild' written free free'
      exact .bySuffix front' suffix (main.trans main') wild written' free'

theorem mainType_eq (first : a.Covers b) (second : b.Covers a) : a.mainType = b.mainType := by
  cases first with
  | everything main =>
    cases second with
    | everything main' => exact main.trans main'.symm
    | same main' _ => exact main'.symm
    | anySubtype main' _ => exact main'.symm
    | bySuffix _ _ main' => exact main'.symm
  | same main _ => exact main
  | anySubtype main _ => exact main
  | bySuffix _ _ main => exact main

theorem subtype_eq (first : a.Covers b) (second : b.Covers a) (narrow : a.mainType ≠ "*") :
    a.subtype = b.subtype := by
  have narrow' : b.mainType ≠ "*" := mainType_eq first second ▸ narrow
  cases first with
  | everything main => exact absurd main narrow
  | same _ equal => exact equal
  | anySubtype _ any =>
    cases second with
    | everything main => exact absurd main narrow'
    | same _ equal => exact equal.symm
    | anySubtype _ any' => exact any.trans any'.symm
    | bySuffix _ _ _ _ written => exact absurd any (subtype_ne_star written)
  | bySuffix front suffix _ wild written free =>
    cases second with
    | everything main => exact absurd main narrow'
    | same _ equal => exact equal.symm
    | anySubtype _ any => exact absurd any (subtype_ne_star written)
    | bySuffix _ suffix' _ wild' _ free' =>
      obtain rfl := suffix_unique wild' written free free'
      exact String.toList_injective (wild.trans wild'.symm)

theorem wildcardRank_le (covers : a.Covers b) : b.wildcardRank ≤ a.wildcardRank := by
  have at_most (n : MediaType) : n.wildcardRank ≤ 2 := by
    unfold wildcardRank
    split
    · exact le_rfl
    · split <;> omega
  have below {n : MediaType} (narrow : n.mainType ≠ "*") : n.wildcardRank ≤ 1 := by
    unfold wildcardRank
    rw [if_neg (by simpa [isWildcardType] using narrow)]
    split <;> omega
  have all {n : MediaType} (main : n.mainType = "*") : n.wildcardRank = 2 :=
    if_pos (beq_iff_eq.mpr main)
  by_cases wide : a.mainType = "*"
  · rw [all wide]
    exact at_most b
  have wild (subtype : a.isWildcardSubtype = true) : a.wildcardRank = 1 := by
    unfold wildcardRank
    rw [if_neg (by simpa [isWildcardType] using wide), if_pos subtype]
  cases covers with
  | everything main => exact absurd main wide
  | same main equal =>
    have type : b.isWildcardType = a.isWildcardType := by
      rw [isWildcardType, isWildcardType, main]
    have subtype : b.isWildcardSubtype = a.isWildcardSubtype := by
      rw [isWildcardSubtype, isWildcardSubtype, wildcardSuffix?, wildcardSuffix?, equal]
    have level : b.wildcardRank = a.wildcardRank := by
      rw [wildcardRank, wildcardRank, type, subtype]
    exact level.le
  | anySubtype main any =>
    rw [wild (by simp [isWildcardSubtype, any])]
    exact below (main ▸ wide)
  | bySuffix _ suffix main asked =>
    rw [wild (by simp [isWildcardSubtype, wildcardSuffix?_eq_some_iff.mpr asked])]
    exact below (main ▸ wide)

end Covers

theorem subtype_of_names? {essence subtype : List Char}
    (named : names? essence = some (['*'], subtype)) : subtype = ['*'] := by
  rw [names?] at named
  split at named
  · cases named
  · next mainType subtype' _ =>
    split at named
    · cases named
    · split at named
      · cases named
      · next bare =>
        cases named
        simpa using bare

/-- A type that was read with the wildcard for all types has the wildcard for all subtypes too. -/
theorem Parsed.subtype_eq_star (parsed : m.Parsed) (main : m.mainType = "*") : m.subtype = "*" := by
  obtain ⟨value, read⟩ := parsed
  obtain ⟨_, _, mainType, subtype, -, named, written, written'⟩ := of_parse read
  -- Small letters are made of capitals, never an asterisk, so the text had the asterisk itself.
  have lowered : mainType.map Char.toLower = ['*'] := by
    rw [← written, main]
    rfl
  have star : mainType = ['*'] := by
    obtain ⟨c, rfl, small⟩ := List.map_eq_singleton_iff.mp lowered
    rw [Text.eq_of_toLower_eq small (by decide)]
  rw [star] at named
  rw [subtype_of_names? named] at written'
  exact String.toList_injective written'

/-- Inclusion is reflexive and transitive, and types that were read and include each other have the
same names.  The type `*/*` includes every one, and a type that includes another one is never ranked
more specific than that one. -/
theorem includes_partialOrder :
    (∀ a : MediaType, a.includes a = true) ∧
      (∀ a b c : MediaType, a.includes b = true → b.includes c = true → a.includes c = true) ∧
      (∀ a b : MediaType, a.Parsed → b.Parsed → a.includes b = true → b.includes a = true →
        a.mainType = b.mainType ∧ a.subtype = b.subtype) ∧
      (parse "*/*" = .ok all ∧ ∀ every m : MediaType, (every == all) = true → every.includes m = true) ∧
      ∀ a b : MediaType, a.includes b = true → b.specificity a ≠ .gt := by
  simp only [includes_iff_covers]
  refine ⟨Covers.refl, fun a b c => Covers.trans, ?_, ⟨by decide, ?_⟩, ?_⟩
  · intro a b parsed parsed' first second
    have main : a.mainType = b.mainType := first.mainType_eq second
    refine ⟨main, ?_⟩
    by_cases wide : a.mainType = "*"
    · exact (parsed.subtype_eq_star wide).trans (parsed'.subtype_eq_star (main ▸ wide)).symm
    · exact first.subtype_eq second wide
  · intro every m alike
    have main : every.mainType = all.mainType := beq_iff_eq.mp (Bool.and_eq_true_iff.mp alike).1
    exact .everything main
  · intro a b covers greater
    have later : a.wildcardRank < b.wildcardRank := Nat.compare_eq_gt.mp greater
    exact absurd covers.wildcardRank_le (Nat.not_le.mpr later)

/-- A chain of wildcards over a type with two plus signs, and two spellings of one type. -/
theorem includes_along_suffixes :
    let any : MediaType := ⟨"application", "*", .one⟩
    let suffixed : MediaType := ⟨"application", "*+json", .one⟩
    let api : MediaType := ⟨"application", "vnd.api+v2+json", .one⟩
    let html : MediaType := ⟨"text", "html", .one⟩
    let other : MediaType := ⟨"text", "html", .number false 0x3F000000⟩
    (any.includes suffixed = true ∧ suffixed.includes api = true ∧ any.includes api = true) ∧
      (parse "text/html" = .ok html ∧ parse "TEXT/Html; q=0.5" = .ok other ∧
        html.mainType = other.mainType ∧ html.subtype = other.subtype) ∧
      MediaType.includes ⟨"*", "*", .nan⟩ api = true ∧ api.specificity suffixed ≠ .gt := by
  intro any suffixed api html other
  obtain ⟨-, trans, antisymm, ⟨-, greatest⟩, ranked⟩ := includes_partialOrder
  have first : any.includes suffixed = true := by decide
  have second : suffixed.includes api = true := by decide
  have read : parse "text/html" = .ok html := by decide
  have read' : parse "TEXT/Html; q=0.5" = .ok other := by decide +kernel
  exact ⟨⟨first, second, trans any suffixed api first second⟩,
    ⟨read, read', antisymm html other ⟨_, read⟩ ⟨_, read'⟩ (by decide) (by decide)⟩,
    greatest _ api (by decide), ranked suffixed api second⟩

end HttpRouting.MediaType
