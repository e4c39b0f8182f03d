import HttpRouting.Mapping.RouteStrategy
import HttpRouting.Proofs.Registry.Registration

/-!
Releasing a key takes back what its registration entered.  An index is compared with itself apart from
one value in the buckets of given keys: neither an addition nor a removal of this value there changes
the rest, so a removal that leaves none of it leaves the index as it was before the additions.
-/

set_option autoImplicit false
set_option relaxedAutoImplicit false

namespace HttpRouting

namespace Table

variable {κ β γ : Type} [BEq κ] [BEq γ]

theorem erase_put_of_get?_eq_none [ReflBEq κ] {table : Table κ β} {key : κ}
    (absent : table.get? key = none) (value : β) : (table.put key value).erase key = table := by
  have kept : table.entries.filter (fun entry => !(entry.1 == key)) = table.entries := by
    apply List.filter_eq_self.mpr
    intro entry member
    rw [not_beq_of_get?_eq_none absent member]
    rfl
  obtain ⟨entries⟩ := table
  simp only [erase, entries_put_of_get?_eq_none absent, List.filter_append, kept]
  simp

/-- A function that does not tell two values under a key apart does not see one replaced by the
other. -/
private theorem filterMap_putEntry {δ : Type} {read : κ × β → Option δ} {entries : List (κ × β)}
    {key : κ} {old value : β} (found : (entries.find? fun entry => entry.1 == key).map Prod.snd = some old)
    (alike : ∀ k, (k == key) = true → read (k, value) = read (k, old)) :
    (putEntry key value entries).filterMap read = entries.filterMap read := by
  induction entries with
  | nil => cases found
  | cons first rest ih =>
    cases here : first.1 == key with
    | true =>
      rw [List.find?_cons_of_pos (by exact here)] at found
      cases found
      rw [putEntry, if_pos here, List.filterMap_cons, List.filterMap_cons, alike first.1 here]
    | false =>
      rw [List.find?_cons_of_neg (by simp [here])] at found
      rw [putEntry, here, if_neg Bool.false_ne_true, List.filterMap_cons, List.filterMap_cons, ih found]

/-- An entry of an index without a value in the buckets of some keys; a bucket that is left with
nothing goes away. -/
def entryWithout (keys : List String) (value : γ) (entry : String × List γ) :
    Option (String × List γ) :=
  if entry.1 ∈ keys then
    match entry.2.filter fun v => !(v == value) with
    | [] => none
    | kept => some (entry.1, kept)
  else some entry

/-- An index without a value in the buckets of some keys. -/
def entriesWithout (keys : List String) (value : γ) (table : Table String (List γ)) :
    List (String × List γ) :=
  table.entries.filterMap (entryWithout keys value)

section Without

variable {keys : List String} {value : γ} {key : String} {table : Table String (List γ)}

private theorem entryWithout_congr {values others : List γ}
    (same : (values.filter fun v => !(v == value)) = others.filter fun v => !(v == value))
    (listed : key ∈ keys) : entryWithout keys value (key, values) = entryWithout keys value (key, others) := by
  simp only [entryWithout, if_pos listed, same]

private theorem entryWithout_eq_none {values : List γ} (listed : key ∈ keys)
    (emptied : (values.filter fun v => !(v == value)) = []) :
    entryWithout keys value (key, values) = none := by
  simp only [entryWithout, if_pos listed, emptied]

private theorem entryWithout_eq_some {entry : String × List γ}
    (free : entry.1 ∈ keys → ∀ v ∈ entry.2, (v == value) = false) (filled : entry.2 ≠ []) :
    entryWithout keys value entry = some entry := by
  by_cases listed : entry.1 ∈ keys
  · have all_kept : (entry.2.filter fun v => !(v == value)) = entry.2 := by
      apply List.filter_eq_self.mpr
      intro v member
      rw [free listed v member]
      rfl
    rw [entryWithout, if_pos listed, all_kept]
    split
    · next empty => exact absurd empty filled
    · rfl
  · exact if_neg listed

theorem entriesWithout_addTo [ReflBEq γ] (listed : key ∈ keys) :
    entriesWithout keys value (table.addTo key value) = entriesWithout keys value table := by
  unfold addTo
  by_cases present : (table.bucket key).contains value = true
  · rw [if_pos present]
  rw [if_neg present]
  cases found : table.get? key with
  | none =>
    have alone : entryWithout keys value (key, [value]) = none :=
      entryWithout_eq_none listed (by simp)
    have bucket : table.bucket key = [] := by rw [Table.bucket, found, Option.getD_none]
    rw [entriesWithout, bucket, List.nil_append, entries_put_of_get?_eq_none found,
      List.filterMap_append, List.filterMap_cons, alone, List.filterMap_nil, List.append_nil]
    rfl
  | some values =>
    have bucket : table.bucket key = values := by rw [Table.bucket, found, Option.getD_some]
    rw [bucket]
    apply filterMap_putEntry found
    intro k same
    obtain rfl := eq_of_beq same
    exact entryWithout_congr (by simp) listed

theorem entriesWithout_removeFrom (distinct : table.Distinct) (listed : key ∈ keys) :
    entriesWithout keys value (table.removeFrom key value) = entriesWithout keys value table := by
  unfold removeFrom
  cases found : table.get? key with
  | none => rfl
  | some values =>
    cases left : values.filter fun v => !(v == value) with
    | nil =>
      -- The entry goes away as a whole, and there is no other one under its key.
      simp only [left]
      rw [entriesWithout, erase, List.filterMap_filter]
      apply List.filterMap_congr
      intro entry member
      cases here : entry.1 == key with
      | false => rfl
      | true =>
        have own : table.get? key = some entry.2 := get?_eq_some_of_mem distinct member here
        obtain rfl := Option.some.inj (found.symm.trans own)
        obtain rfl := eq_of_beq here
        exact (entryWithout_eq_none listed left).symm
    | cons v rest =>
      simp only [left]
      apply filterMap_putEntry found
      intro k same
      obtain rfl := eq_of_beq same
      apply entryWithout_congr _ listed
      rw [← left, List.filter_filter]
      simp

theorem entriesWithout_eq_entries (bucketed : table.Bucketed)
    (free : ∀ key ∈ keys, ∀ v ∈ table.bucket key, (v == value) = false) :
    entriesWithout keys value table = table.entries := by
  have unchanged (entry : String × List γ) (member : entry ∈ table.entries) :
      entryWithout keys value entry = some entry := by
    have own : table.bucket entry.1 = entry.2 := by
      rw [bucket, get?_eq_some_of_mem bucketed.distinct member BEq.rfl, Option.getD_some]
    refine entryWithout_eq_some (fun listed => ?_) (bucketed.nonempty entry member)
    rw [← own]
    exact free entry.1 listed
  rw [entriesWithout, List.filterMap_congr unchanged, List.filterMap_some]

theorem entriesWithout_addAll [ReflBEq γ] {added : List String} (listed : added ⊆ keys) :
    entriesWithout keys value (added.foldl (fun table key => table.addTo key value) table) =
      entriesWithout keys value table := by
  induction added generalizing table with
  | nil => rfl
  | cons key added ih =>
    obtain ⟨here, later⟩ := List.cons_subset.mp listed
    rw [List.foldl_cons, ih later, entriesWithout_addTo here]

theorem entriesWithout_removeAll {removed : List String} (bucketed : table.Bucketed)
    (listed : removed ⊆ keys) :
    entriesWithout keys value (removed.foldl (fun table key => table.removeFrom key value) table) =
      entriesWithout keys value table := by
  induction removed generalizing table with
  | nil => rfl
  | cons key removed ih =>
    obtain ⟨here, later⟩ := List.cons_subset.mp listed
    rw [List.foldl_cons, ih (bucketed.removeFrom key value) later,
      entriesWithout_removeFrom bucketed.distinct here]

/-- A value that is added under keys and then removed again leaves the index as it was, with all
buckets in their places, if it was under none of the keys before. -/
theorem removeAll_addAll [EquivBEq γ] (bucketed : table.Bucketed)
    (absent : ∀ key ∈ keys, (table.bucket key).contains value = false) :
    keys.foldl (fun table key => table.removeFrom key value)
      (keys.foldl (fun table key => table.addTo key value) table) = table := by
  have bucketed' : (keys.foldl (fun table key => table.addTo key value) table).Bucketed :=
    Registry.bucketed_addAll bucketed
  have free (key : String) (listed : key ∈ keys) : ∀ v ∈ table.bucket key, (v == value) = false := by
    intro v member
    by_contra same
    have same : (value == v) = true := BEq.symm (by simpa using same)
    have present := List.contains_iff_exists_mem_beq.mpr ⟨v, member, same⟩
    rw [absent key listed] at present
    cases present
  have entries_eq : (keys.foldl (fun table key => table.removeFrom key value)
      (keys.foldl (fun table key => table.addTo key value) table)).entries = table.entries := by
    calc
      _ = entriesWithout keys value (keys.foldl (fun table key => table.removeFrom key value)
          (keys.foldl (fun table key => table.addTo key value) table)) := by
        refine (entriesWithout_eq_entries (Registry.bucketed_removeAll bucketed') ?_).symm
        intro key listed v member
        have kept := (Registry.mem_bucket_removeAll.mp member).2
        by_contra same
        exact kept ⟨listed, by simpa using same⟩
      _ = entriesWithout keys value (keys.foldl (fun table key => table.addTo key value) table) :=
        entriesWithout_removeAll bucketed' (List.Subset.refl keys)
      _ = entriesWithout keys value table := entriesWithout_addAll (List.Subset.refl keys)
      _ = table.entries := entriesWithout_eq_entries bucketed free
  exact congrArg Table.mk entries_eq

end Without

end Table

namespace Registry

variable {κ : Type} [BEq κ] [EquivBEq κ] {registry registry' : Registry κ} {r : Registration κ}

/-- The table of registrations after a free key was bound and released. -/
theorem table_remove_add (free : registry.registration? r.mapping = none) (policy : Option CorsConfig) :
    ((registry.add r policy).remove r.mapping r).table = registry.table :=
  Table.erase_put_of_get?_eq_none free r

/-- No bucket of a path holds a key that is free. -/
theorem Consistent.contains_keysAt_of_free (consistent : registry.Consistent)
    (free : registry.registration? r.mapping = none) (path : String) :
    (registry.paths.bucket path).contains r.mapping = false := by
  have absent := mt (consistent.contains_keysAt_iff path).mp
    (by rintro ⟨bound, found, -⟩; rw [free] at found; cases found)
  exact Bool.eq_false_iff.mpr absent

theorem Consistent.paths_remove_add (consistent : registry.Consistent)
    (free : registry.registration? r.mapping = none) (policy : Option CorsConfig) :
    ((registry.add r policy).remove r.mapping r).paths = registry.paths :=
  Table.removeAll_addAll consistent.pathBuckets fun path _ =>
    consistent.contains_keysAt_of_free free path

/-- The name index distinguishes a handler method that a name had before from one that the registration
brought: the first is still bound under the name by another registration, the second is not. -/
theorem Consistent.names_remove_add (consistent : registry.Consistent)
    (free : registry.registration? r.mapping = none) (policy : Option CorsConfig) :
    ((registry.add r policy).remove r.mapping r).names = registry.names := by
  have others : ((registry.add r policy).table.erase r.mapping).values = registry.registrations :=
    congrArg Table.values (table_remove_add free policy)
  simp only [Registry.remove]
  cases named : r.name with
  | none => simp only [Registry.add, named]
  | some name =>
    have entered : (registry.add r policy).names = registry.names.addTo name r.handler := by
      simp only [Registry.add, named]
    have shared_iff : (((registry.add r policy).table.erase r.mapping).values.any fun other =>
        other.name == some name && other.handler == r.handler) = true ↔
          (registry.handlersNamed name).contains r.handler = true := by
      rw [others, consistent.contains_handlersNamed, List.any_eq_true]
      simp only [Bool.and_eq_true, beq_iff_eq]
    dsimp only
    by_cases listed : (registry.handlersNamed name).contains r.handler = true
    · rw [if_pos (shared_iff.mpr listed), entered]
      exact if_pos listed
    · rw [if_neg (mt shared_iff.mp listed), entered]
      have absent : ∀ key ∈ [name], (registry.names.bucket key).contains r.handler = false := by
        intro key member
        rw [List.mem_singleton.mp member]
        exact Bool.eq_false_iff.mpr listed
      exact Table.removeAll_addAll consistent.nameBuckets absent

/-- Binding a free key and releasing it again gives the tables back as they were: the registrations, and
the buckets of the paths and of the names with their entries in the same order.  This holds after any
history, with keys that share paths with the new one and with registrations that share its handler
method or its name.  Releasing a key that is free changes no table at all. -/
theorem unregister_restores (naming : Option (Naming κ)) (calls : List (RegistryCall κ)) :
    let registry := reached naming calls
    (∀ (strategy : MappingStrategy κ) (key : κ) (handler : HandlerMethod) (registry' : Registry κ),
        registry.registration? key = none →
        registry.register strategy naming key handler = .ok registry' →
        (registry'.unregister key).table = registry.table ∧
          (registry'.unregister key).paths = registry.paths ∧
          (registry'.unregister key).names = registry.names) ∧
      ∀ key, registry.registration? key = none → registry.unregister key = registry := by
  intro registry
  have consistent : registry.Consistent := reached_consistent naming calls
  constructor
  · intro strategy key handler registry' free done
    rcases register_cases done with ⟨existing, bound, -, -⟩ | ⟨-, policy, -, made⟩
    · rw [free] at bound
      cases bound
    · have released : registry'.unregister key = registry'.remove key
          ⟨key, handler, strategy.directPaths key, naming.map fun name => name handler key,
            policy.isSome⟩ := by
        rw [unregister, made, registration?_add_self policy]
      rw [released, made]
      exact ⟨table_remove_add free policy, consistent.paths_remove_add free policy,
        consistent.names_remove_add free policy⟩
  · intro key free
    rw [unregister, free]

/-- A third route on the path of two others, with the name of both and the handler method of one, is bound
and released again. -/
theorem unregister_restores_shared :
    let users : PathPattern := ⟨"/users", [.literal "users"], false⟩
    let on := fun method => { Route.ofPattern users with methods := [method] }
    let list := HandlerMethod.ofBean "users" "Users" (.plain "list")
    let save := HandlerMethod.ofBean "users" "Users" (.plain "save")
    let strategy := RouteStrategy.strategy .standard
    let naming : Option (Naming Route) := some fun _ _ => "users"
    let registry := reached naming [.register strategy (on .get) list, .register strategy (on .post) save]
    registry.registration? (on .head) = none ∧ registry.unregister (on .head) = registry ∧
      ∃ registry', registry.register strategy naming (on .head) list = .ok registry' ∧
        (registry'.keysAt "/users").length = 3 ∧ registry'.handlersNamed "users" = [list, save] ∧
        (registry'.unregister (on .head)).table = registry.table ∧
        (registry'.unregister (on .head)).paths = registry.paths ∧
        (registry'.unregister (on .head)).names = registry.names := by
  intro users on list save strategy naming registry
  obtain ⟨restores, unchanged⟩ := unregister_restores naming
    [.register strategy (on .get) list, .register strategy (on .post) save]
  have free : registry.registration? (on .head) = none := Option.isNone_iff_eq_none.mp (by decide +kernel)
  let entered : Registration Route := ⟨on .head, list, ["/users"], some "users", false⟩
  have done : registry.register strategy naming (on .head) list = .ok (registry.add entered none) := by
    rw [register, free]
    rfl
  exact ⟨free, unchanged _ free, registry.add entered none, done, by decide +kernel, by decide +kernel,
    restores strategy (on .head) list _ free done⟩

end Registry

end HttpRouting
