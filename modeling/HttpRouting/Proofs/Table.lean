import HttpRouting.Mapping.Table
import Mathlib.Data.List.Pairwise

/-!
Tables behave as finite maps over keys that compare by an equivalence: what is found under a key
after a value was put there or taken away, and what the buckets of an index hold after an addition
or a removal.  Buckets of an index are never empty and hold no value twice.
-/

set_option autoImplicit false
set_option relaxedAutoImplicit false

namespace HttpRouting.Table

variable {κ β γ : Type} [BEq κ] [BEq γ]

/-- No two entries have keys that compare equal. -/
def Distinct (table : Table κ β) : Prop :=
  table.entries.Pairwise fun a b => (a.1 == b.1) = false

/-- A list holds no value twice. -/
def Simple (values : List γ) : Prop :=
  values.Pairwise fun a b => (a == b) = false

/-- The buckets of an index: one for a key, none of them empty, no value twice in one. -/
structure Bucketed (table : Table κ (List γ)) : Prop where
  distinct : table.Distinct
  nonempty : ∀ entry ∈ table.entries, entry.2 ≠ []
  simple : ∀ entry ∈ table.entries, Simple entry.2

@[simp] theorem get?_empty (key : κ) : (empty : Table κ β).get? key = none := rfl

omit [BEq γ] in
@[simp] theorem bucket_empty (key : κ) : (empty : Table κ (List γ)).bucket key = [] := rfl

theorem bucketed_empty : (empty : Table κ (List γ)).Bucketed :=
  ⟨List.Pairwise.nil, by simp [empty], by simp [empty]⟩

theorem mem_of_get?_eq_some {table : Table κ β} {key : κ} {value : β}
    (found : table.get? key = some value) :
    ∃ entry ∈ table.entries, (entry.1 == key) = true ∧ entry.2 = value := by
  obtain ⟨entry, here, rfl⟩ := Option.map_eq_some_iff.mp found
  have same : (entry.1 == key) = true := by simpa using List.find?_some here
  exact ⟨entry, List.mem_of_find?_eq_some here, same, rfl⟩

theorem not_beq_of_get?_eq_none {table : Table κ β} {key : κ} (absent : table.get? key = none)
    {entry : κ × β} (member : entry ∈ table.entries) : (entry.1 == key) = false := by
  have none_found := Option.map_eq_none_iff.mp absent
  simpa using List.find?_eq_none.mp none_found entry member

section Erase

variable [PartialEquivBEq κ]

theorem get?_eq_some_of_mem {table : Table κ β} (distinct : table.Distinct) {entry : κ × β}
    (member : entry ∈ table.entries) {key : κ} (same : (entry.1 == key) = true) :
    table.get? key = some entry.2 := by
  obtain ⟨entries⟩ := table
  simp only [Distinct] at distinct
  simp only [get?]
  induction entries with
  | nil => simp at member
  | cons first rest ih =>
    obtain ⟨apart, distinct⟩ := List.pairwise_cons.mp distinct
    rcases List.mem_cons.mp member with rfl | later
    · rw [List.find?_cons_of_pos (by exact same), Option.map_some]
    · have passed : ¬ (first.1 == key) = true := fun here => by
        have equal := PartialEquivBEq.trans here (PartialEquivBEq.symm same)
        simp [apart entry later] at equal
      rw [List.find?_cons_of_neg (by exact passed)]
      exact ih distinct later

theorem get?_erase (table : Table κ β) (key other : κ) :
    (table.erase key).get? other = if key == other then none else table.get? other := by
  obtain ⟨entries⟩ := table
  simp only [erase, get?]
  induction entries with
  | nil => simp
  | cons first rest ih =>
    cases taken : first.1 == key with
    | true =>
      have follows : (first.1 == other) = (key == other) := BEq.congr_left taken
      rw [List.filter_cons_of_neg (by simp [taken]), ih]
      cases here : key == other <;> simp [follows, here]
    | false =>
      rw [List.filter_cons_of_pos (by simp [taken])]
      cases here : first.1 == other with
      | true =>
        have apart : (key == other) = false := by
          rw [← BEq.congr_right here, BEq.comm, taken]
        simp [here, apart]
      | false => simpa [here] using ih

theorem get?_put (table : Table κ β) (key other : κ) (value : β) :
    (table.put key value).get? other = if key == other then some value else table.get? other := by
  obtain ⟨entries⟩ := table
  simp only [put, get?]
  induction entries with
  | nil => cases here : key == other <;> simp [putEntry, here]
  | cons first rest ih =>
    cases taken : first.1 == key with
    | true =>
      have follows : (first.1 == other) = (key == other) := BEq.congr_left taken
      cases here : key == other <;> simp [putEntry, taken, follows, here]
    | false =>
      cases here : first.1 == other with
      | true =>
        have apart : (key == other) = false := by
          rw [← BEq.congr_right here, BEq.comm, taken]
        simp [putEntry, taken, here, apart]
      | false => simpa [putEntry, taken, here] using ih

end Erase

theorem putEntry_keys (key : κ) (value : β) (entries : List (κ × β)) :
    (putEntry key value entries).map Prod.fst = entries.map Prod.fst ∨
      (∀ entry ∈ entries, (entry.1 == key) = false) ∧
        putEntry key value entries = entries ++ [(key, value)] := by
  induction entries with
  | nil => exact .inr ⟨by simp, rfl⟩
  | cons first rest ih =>
    cases taken : first.1 == key with
    | true => exact .inl (by simp [putEntry, taken])
    | false =>
      rcases ih with same | ⟨fresh, added⟩
      · exact .inl (by simp [putEntry, taken, same])
      · refine .inr ⟨?_, by simp [putEntry, taken, added]⟩
        intro entry member
        rcases List.mem_cons.mp member with rfl | later
        · exact taken
        · exact fresh entry later

theorem entries_put_of_get?_eq_none {table : Table κ β} {key : κ} (absent : table.get? key = none)
    (value : β) : (table.put key value).entries = table.entries ++ [(key, value)] := by
  have fresh : ∀ entry ∈ table.entries, (entry.1 == key) = false :=
    fun entry member => not_beq_of_get?_eq_none absent member
  obtain ⟨entries⟩ := table
  simp only [put]
  clear absent
  induction entries with
  | nil => rfl
  | cons first rest ih =>
    have apart := fresh first List.mem_cons_self
    simp [putEntry, apart, ih fun entry later => fresh entry (List.mem_cons_of_mem _ later)]

theorem forall_putEntry {P : β → Prop} {key : κ} {value : β} {entries : List (κ × β)}
    (before : ∀ entry ∈ entries, P entry.2) (new : P value) :
    ∀ entry ∈ putEntry key value entries, P entry.2 := by
  induction entries with
  | nil => simpa [putEntry] using new
  | cons first rest ih =>
    obtain ⟨here, later⟩ := List.forall_mem_cons.mp before
    cases taken : first.1 == key with
    | true => simpa [putEntry, taken, new] using fun a b => later (a, b)
    | false => simpa [putEntry, taken, here] using fun a b => ih later (a, b)

theorem Distinct.put {table : Table κ β} (distinct : table.Distinct) (key : κ) (value : β) :
    (table.put key value).Distinct := by
  rcases putEntry_keys key value table.entries with same | ⟨fresh, added⟩
  · have over_keys : (table.entries.map Prod.fst).Pairwise fun a b => (a == b) = false :=
      List.pairwise_map.mpr distinct
    rw [← same] at over_keys
    exact List.pairwise_map.mp over_keys
  · simp only [Distinct, Table.put, added, List.pairwise_append]
    exact ⟨distinct, List.pairwise_singleton _ _, by simpa using fun a b => fresh (a, b)⟩

theorem Distinct.erase {table : Table κ β} (distinct : table.Distinct) (key : κ) :
    (table.erase key).Distinct :=
  List.Pairwise.filter _ distinct

theorem mem_entries_erase {table : Table κ β} {key : κ} {entry : κ × β} :
    entry ∈ (table.erase key).entries ↔ entry ∈ table.entries ∧ (entry.1 == key) = false := by
  simp [Table.erase]

section Buckets

variable [PartialEquivBEq κ]

theorem get?_congr (table : Table κ β) {key other : κ} (same : (key == other) = true) :
    table.get? key = table.get? other := by
  simp only [get?]
  congr 2
  funext entry
  exact BEq.congr_right same

omit [BEq γ] in
theorem bucket_put (table : Table κ (List γ)) (key other : κ) (values : List γ) :
    (table.put key values).bucket other = if key == other then values else table.bucket other := by
  simp only [bucket, get?_put]
  split <;> rfl

theorem bucket_addTo (table : Table κ (List γ)) (key other : κ) (value : γ) :
    (table.addTo key value).bucket other =
      if key == other && !(table.bucket other).contains value then table.bucket other ++ [value]
      else table.bucket other := by
  cases here : key == other with
  | false =>
    simp only [addTo]
    split <;> simp [bucket_put, here]
  | true =>
    have same_bucket : table.bucket key = table.bucket other := by
      simp only [bucket, get?_congr table here]
    cases present : (table.bucket other).contains value with
    | true => simp [addTo, same_bucket, present]
    | false => simp [addTo, same_bucket, present, bucket_put, here]

theorem bucket_removeFrom (table : Table κ (List γ)) (key other : κ) (value : γ) :
    (table.removeFrom key value).bucket other =
      if key == other then (table.bucket other).filter fun v => !(v == value)
      else table.bucket other := by
  have same_get (here : (key == other) = true) : table.get? other = table.get? key :=
    (get?_congr table here).symm
  simp only [removeFrom]
  split
  · next absent =>
    cases here : key == other with
    | false => rfl
    | true => simp [bucket, same_get here, absent]
  · next values found =>
    cases here : key == other with
    | false =>
      split
      · simp [bucket, get?_erase, here]
      · simp [bucket_put, here]
    | true =>
      have stored : table.bucket other = values := by simp [bucket, same_get here, found]
      split
      · next none_kept => simp [bucket, get?_erase, here, same_get here, found, none_kept]
      · simp [bucket_put, here, stored]

theorem contains_bucket_addTo [EquivBEq γ] (table : Table κ (List γ)) (key other : κ)
    (value sought : γ) :
    ((table.addTo key value).bucket other).contains sought = true ↔
      (table.bucket other).contains sought = true ∨
        (key == other) = true ∧ (value == sought) = true := by
  rw [bucket_addTo]
  cases here : key == other with
  | false => simp
  | true =>
    cases present : (table.bucket other).contains value with
    | false => simp [List.contains_append, BEq.comm]
    | true =>
      have covered (same : (value == sought) = true) :
          (table.bucket other).contains sought = true := by
        obtain ⟨held, member, equal⟩ := List.contains_iff_exists_mem_beq.mp present
        exact List.contains_iff_exists_mem_beq.mpr
          ⟨held, member, BEq.trans (BEq.symm same) equal⟩
      simpa using covered

theorem contains_bucket_removeFrom [EquivBEq γ] (table : Table κ (List γ)) (key other : κ)
    (value sought : γ) :
    ((table.removeFrom key value).bucket other).contains sought = true ↔
      (table.bucket other).contains sought = true ∧
        ¬ ((key == other) = true ∧ (value == sought) = true) := by
  rw [bucket_removeFrom]
  cases here : key == other with
  | false => simp
  | true =>
    have follows (held : γ) (same : (sought == held) = true) :
        (held == value) = (value == sought) := by
      rw [BEq.comm, BEq.congr_right same]
    simp only [if_true, List.contains_iff_exists_mem_beq, List.mem_filter, true_and]
    constructor
    · rintro ⟨held, ⟨member, kept⟩, same⟩
      exact ⟨⟨held, member, same⟩, by simpa [follows held same] using kept⟩
    · rintro ⟨⟨held, member, same⟩, kept⟩
      exact ⟨held, ⟨member, by simpa [follows held same] using kept⟩, same⟩

end Buckets

theorem Bucketed.simple_bucket {table : Table κ (List γ)} (bucketed : table.Bucketed) (key : κ) :
    Simple (table.bucket key) := by
  simp only [bucket]
  cases found : table.get? key with
  | none => exact List.Pairwise.nil
  | some values =>
    obtain ⟨entry, member, -, rfl⟩ := mem_of_get?_eq_some found
    exact bucketed.simple entry member

theorem Bucketed.addTo [PartialEquivBEq γ] {table : Table κ (List γ)} (bucketed : table.Bucketed)
    (key : κ) (value : γ) : (table.addTo key value).Bucketed := by
  simp only [Table.addTo]
  split
  · exact bucketed
  · next absent =>
    have apart : ∀ v ∈ table.bucket key, (v == value) = false := by
      intro v member
      cases same : v == value with
      | false => rfl
      | true =>
        exact absurd (List.contains_iff_exists_mem_beq.mpr ⟨v, member, BEq.symm same⟩) absent
    refine ⟨bucketed.distinct.put key _,
      forall_putEntry (P := (· ≠ [])) bucketed.nonempty (by simp),
      forall_putEntry (P := Simple) bucketed.simple ?_⟩
    simp only [Simple, List.pairwise_append]
    exact ⟨bucketed.simple_bucket key, List.pairwise_singleton _ _, by simpa using apart⟩

theorem Bucketed.removeFrom {table : Table κ (List γ)} (bucketed : table.Bucketed)
    (key : κ) (value : γ) : (table.removeFrom key value).Bucketed := by
  simp only [Table.removeFrom]
  split
  · exact bucketed
  · next values found =>
    obtain ⟨entry, member, -, rfl⟩ := mem_of_get?_eq_some found
    split
    · exact ⟨bucketed.distinct.erase key,
        fun e kept => bucketed.nonempty e (mem_entries_erase.mp kept).1,
        fun e kept => bucketed.simple e (mem_entries_erase.mp kept).1⟩
    · next some_kept =>
      exact ⟨bucketed.distinct.put key _,
        forall_putEntry (P := (· ≠ [])) bucketed.nonempty some_kept,
        forall_putEntry (P := Simple) bucketed.simple
          (List.Pairwise.filter _ (bucketed.simple entry member))⟩

end HttpRouting.Table
