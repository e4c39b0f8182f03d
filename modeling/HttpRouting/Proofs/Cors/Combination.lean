import HttpRouting.Proofs.Additions
import HttpRouting.Proofs.Cors.Credentials
import HttpRouting.Proofs.Cors.OriginPattern
import HttpRouting.Proofs.Cors.RequestedHeaders

/-!
Joined policies.  In each list of a joined policy there is every entry of the two policies, or the
wildcard that stands for all of them; so whatever one of the two allows is allowed by both together.
For origins the joined policy must be one that can be put in force: where it allows credentials, a
wildcard among its origins would count for nothing.
-/

set_option autoImplicit false
set_option relaxedAutoImplicit false

namespace HttpRouting.CorsConfig

/-- A list has all given entries, or the wildcard in their place. -/
def Covers (joined entries : List String) : Prop :=
  wildcard ∈ joined ∨ entries ⊆ joined

/-- A policy has what another one allows, list by list. -/
structure Extends (joined part : CorsConfig) : Prop where
  origins : Covers (joined.allowedOrigins.getD []) (part.allowedOrigins.getD [])
  patterns : Covers (joined.allowedOriginPatterns.getD []) (part.allowedOriginPatterns.getD [])
  methods : Covers (joined.allowedMethods.getD []) (part.allowedMethods.getD [])
  headers : Covers (joined.allowedHeaders.getD []) (part.allowedHeaders.getD [])

theorem Covers.mem {joined entries : List String} (covers : Covers joined entries) {entry : String}
    (listed : entry ∈ entries) : wildcard ∈ joined ∨ entry ∈ joined :=
  covers.imp_right fun all => all listed

theorem Covers.wildcard_mem {joined entries : List String} (covers : Covers joined entries)
    (listed : wildcard ∈ entries) : wildcard ∈ joined :=
  or_self_iff.mp (covers.mem listed)

theorem covers_joinEntries (source other : Option (List String)) :
    Covers ((joinEntries source other).getD []) (source.getD []) ∧
      Covers ((joinEntries source other).getD []) (other.getD []) := by
  cases source with
  | none => exact ⟨.inr (List.nil_subset _), .inr (List.Subset.refl _)⟩
  | some source =>
    cases other with
    | none => exact ⟨.inr (List.Subset.refl _), .inr (List.nil_subset _)⟩
    | some other =>
      rw [joinEntries]
      split
      · exact ⟨.inl (List.mem_singleton_self _), .inl (List.mem_singleton_self _)⟩
      · exact ⟨.inr fun _ listed => (mem_additions other source).mpr (.inl listed),
          .inr fun _ listed => (mem_additions other source).mpr (.inr listed)⟩

theorem extends_combine (a b : CorsConfig) :
    (a.combine b).Extends a ∧ (a.combine b).Extends b :=
  ⟨⟨(covers_joinEntries _ _).1, (covers_joinEntries _ _).1, (covers_joinEntries _ _).1,
      (covers_joinEntries _ _).1⟩,
    ⟨(covers_joinEntries _ _).2, (covers_joinEntries _ _).2, (covers_joinEntries _ _).2,
      (covers_joinEntries _ _).2⟩⟩

theorem isSome_checkMethod_iff {config : CorsConfig} {method : Method} : (config.checkMethod method).isSome = true ↔
    wildcard ∈ config.allowedMethods.getD [] ∨ method.name ∈ config.allowedMethods.getD [] := by
  rw [checkMethod]
  cases config.allowedMethods with
  | none => simp
  | some allowed =>
    simp only [Option.getD_some, List.contains_iff_mem]
    split
    · next all => simp [all]
    · split <;> simp_all

namespace Extends

variable {joined part : CorsConfig} (keeps : joined.Extends part)

include keeps

theorem checkOrigin (valid : joined.validate = .ok ()) {origin : String}
    (allowed : (part.checkOrigin origin).isSome = true) :
    (joined.checkOrigin origin).isSome = true := by
  -- Credentials would take a wildcard among the origins away, but then the policy were not valid.
  have everyOrigin (all : wildcard ∈ joined.allowedOrigins.getD []) :
      (joined.checkOrigin origin).isSome = true := by
    refine isSome_checkOrigin_iff.mpr (.inl ⟨all, ?_⟩)
    rw [Bool.eq_false_iff]
    exact fun credentials => validate_eq_ok_iff.mp valid credentials all
  rcases isSome_checkOrigin_iff.mp allowed with ⟨all, -⟩ | ⟨entry, listed, same⟩ |
    ⟨pattern, listed, fits⟩
  · exact everyOrigin (keeps.origins.wildcard_mem all)
  · rcases keeps.origins.mem listed with all | kept
    · exact everyOrigin all
    · exact isSome_checkOrigin_iff.mpr (.inr (.inl ⟨entry, kept, same⟩))
  · rcases keeps.patterns.mem listed with all | kept
    · exact isSome_checkOrigin_iff.mpr (.inr (.inr ⟨wildcard, all, originFits_wildcard _⟩))
    · exact isSome_checkOrigin_iff.mpr (.inr (.inr ⟨pattern, kept, fits⟩))

theorem checkMethod {method : Method} (allowed : (part.checkMethod method).isSome = true) :
    (joined.checkMethod method).isSome = true := by
  rw [isSome_checkMethod_iff] at allowed ⊢
  rcases allowed with all | listed
  · exact .inl (keeps.methods.wildcard_mem all)
  · exact keeps.methods.mem listed

theorem allowsHeader {header : String} (allowed : part.AllowsHeader header) :
    joined.AllowsHeader header := by
  rcases allowed with all | ⟨entry, listed, same⟩
  · exact .inl (keeps.headers.wildcard_mem all)
  · exact (keeps.headers.mem listed).imp_right fun kept => ⟨entry, kept, same⟩

theorem checkHeaders {requested granted : List String}
    (allowed : part.checkHeaders requested = some granted) :
    ∃ more, joined.checkHeaders requested = some more ∧ granted.Sublist more := by
  obtain ⟨rfl, unasked⟩ := checkHeaders_eq_some_iff.mp allowed
  have more : (requested.filter (part.AllowsHeader ·)).Sublist
      (requested.filter (joined.AllowsHeader ·)) := by
    refine List.monotone_filter_right requested fun header allowed => ?_
    simpa using keeps.allowsHeader (by simpa using allowed)
  refine ⟨_, checkHeaders_eq_some_iff.mpr ⟨rfl, fun none_left => unasked ?_⟩, more⟩
  exact List.sublist_nil.mp (none_left ▸ more)

end Extends

/-- Whatever one of two policies allows is allowed by both together, when they can be put in force
together: an origin, a method, and the header fields that a preflight asks for, of which no fewer are
granted. -/
theorem combine_keeps_access (a b : CorsConfig) (valid : (a.combine b).validate = .ok ()) :
    ∀ part, part = a ∨ part = b →
      (∀ origin, (part.checkOrigin origin).isSome = true →
        ((a.combine b).checkOrigin origin).isSome = true) ∧
      (∀ method, (part.checkMethod method).isSome = true →
        ((a.combine b).checkMethod method).isSome = true) ∧
      ∀ requested granted, part.checkHeaders requested = some granted →
        ∃ more, (a.combine b).checkHeaders requested = some more ∧ granted.Sublist more := by
  intro part either
  have keeps : (a.combine b).Extends part := by
    rcases either with rfl | rfl
    · exact (extends_combine part b).1
    · exact (extends_combine a part).2
  exact ⟨fun _ => keeps.checkOrigin valid, fun _ => keeps.checkMethod,
    fun _ _ => keeps.checkHeaders⟩

/-- Two policies keep their origins, methods and header fields, whichever allows them. -/
theorem combine_of_two_policies :
    let a := ((empty.allowOrigin "https://a.example").allowMethod "PUT").allowHeader "X-Token"
    let b := ((((empty.allowOriginPattern "https://*.b.example").allowMethod "*").allowHeader
      "X-Page").setCredentials true)
    (a.combine b).validate = .ok () ∧
      (a.checkOrigin "https://a.example/").isSome = true ∧
      ((a.combine b).checkOrigin "https://a.example/").isSome = true ∧
      (b.checkMethod ⟨"DELETE"⟩).isSome = true ∧
      ((a.combine b).checkMethod ⟨"DELETE"⟩).isSome = true ∧
      a.checkHeaders ["x-token", "X-Page"] = some ["x-token"] ∧
      ∃ more, (a.combine b).checkHeaders ["x-token", "X-Page"] = some more ∧
        ["x-token"].Sublist more := by
  intro a b
  have valid : (a.combine b).validate = .ok () := by decide +kernel
  obtain ⟨origins, -, headers⟩ := combine_keeps_access a b valid a (.inl rfl)
  obtain ⟨-, methods, -⟩ := combine_keeps_access a b valid b (.inr rfl)
  have origin : (a.checkOrigin "https://a.example/").isSome = true := by decide +kernel
  have method : (b.checkMethod ⟨"DELETE"⟩).isSome = true := by decide +kernel
  have granted : a.checkHeaders ["x-token", "X-Page"] = some ["x-token"] := by decide +kernel
  exact ⟨valid, origin, origins _ origin, method, methods _ method, granted, headers _ _ granted⟩

/-- Credentials of the one policy take the wildcard of the other away; such a policy is not put in force. -/
example :
    let a := empty.allowOrigin "*"
    let b := empty.setCredentials true
    (a.checkOrigin "https://a.example").isSome = true ∧
      (a.combine b).checkOrigin "https://a.example" = none ∧
      (a.combine b).validate = .error .credentialsWithWildcardOrigin := by
  decide +kernel

end HttpRouting.CorsConfig
