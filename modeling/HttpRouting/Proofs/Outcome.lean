/-!
Computations that can fail: what is known of their steps when the whole of them succeeds or fails.
-/

set_option autoImplicit false
set_option relaxedAutoImplicit false

namespace HttpRouting.Outcome

variable {α β ε δ : Type}

theorem bind_eq_ok_iff {first : Except ε α} {next : α → Except ε β} {result : β} :
    first >>= next = .ok result ↔ ∃ value, first = .ok value ∧ next value = .ok result := by
  cases first with
  | error error => exact ⟨nofun, nofun⟩
  | ok value =>
    constructor
    · intro done
      exact ⟨value, rfl, done⟩
    · rintro ⟨_, same, done⟩
      cases same
      exact done

theorem bind_eq_error_iff {first : Except ε α} {next : α → Except ε β} {error : ε} :
    first >>= next = .error error ↔
      first = .error error ∨ ∃ value, first = .ok value ∧ next value = .error error := by
  cases first with
  | error error' =>
    constructor
    · intro failed
      cases failed
      exact .inl rfl
    · rintro (same | ⟨_, made, -⟩)
      · cases same
        rfl
      · cases made
  | ok value =>
    constructor
    · intro failed
      exact .inr ⟨value, rfl, failed⟩
    · rintro (none | ⟨_, same, failed⟩)
      · cases none
      · cases same
        exact failed

theorem mapError_eq_ok_iff {f : ε → δ} {first : Except ε α} {result : α} :
    first.mapError f = .ok result ↔ first = .ok result := by
  cases first with
  | error error => exact ⟨nofun, nofun⟩
  | ok value =>
    have mapped : (Except.ok value : Except ε α).mapError f = .ok value := rfl
    rw [mapped, Except.ok.injEq, Except.ok.injEq]

theorem map_eq_ok_iff {f : α → β} {first : Except ε α} {result : β} :
    first.map f = .ok result ↔ ∃ value, first = .ok value ∧ f value = result := by
  cases first with
  | error error => exact ⟨nofun, nofun⟩
  | ok value =>
    constructor
    · intro mapped
      exact ⟨value, rfl, Except.ok.inj mapped⟩
    · rintro ⟨_, same, rfl⟩
      cases same
      rfl

theorem toOption_eq_some_iff {first : Except ε α} {result : α} :
    first.toOption = some result ↔ first = .ok result := by
  cases first <;> simp [Except.toOption]

theorem mapM_cons_eq_ok_iff {make : α → Except ε β} {x : α} {rest : List α} {made : List β} :
    (x :: rest).mapM make = .ok made ↔
      ∃ y ys, make x = .ok y ∧ rest.mapM make = .ok ys ∧ made = y :: ys := by
  rw [List.mapM_cons, bind_eq_ok_iff]
  constructor
  · rintro ⟨y, first, all⟩
    obtain ⟨ys, later, same⟩ := bind_eq_ok_iff.mp all
    exact ⟨y, ys, first, later, (Except.ok.inj same).symm⟩
  · rintro ⟨y, ys, first, later, rfl⟩
    exact ⟨y, first, bind_eq_ok_iff.mpr ⟨ys, later, rfl⟩⟩

/-- The entries of a list that was made one by one were each made from an entry. -/
theorem exists_of_mem_mapM {make : α → Except ε β} {items : List α} {made : List β}
    (all : items.mapM make = .ok made) {y : β} (member : y ∈ made) :
    ∃ x ∈ items, make x = .ok y := by
  induction items generalizing made with
  | nil =>
    cases all
    cases member
  | cons x rest ih =>
    obtain ⟨value, values, first, later, rfl⟩ := mapM_cons_eq_ok_iff.mp all
    rcases List.mem_cons.mp member with rfl | member
    · exact ⟨x, List.mem_cons_self, first⟩
    · obtain ⟨x', listed, made'⟩ := ih later member
      exact ⟨x', List.mem_cons_of_mem _ listed, made'⟩

/-- A list can be made one by one exactly when each of its entries can be made. -/
theorem exists_mapM_eq_ok_iff {make : α → Except ε β} {items : List α} :
    (∃ made, items.mapM make = .ok made) ↔ ∀ x ∈ items, ∃ y, make x = .ok y := by
  induction items with
  | nil => exact ⟨fun _ => nofun, fun _ => ⟨[], rfl⟩⟩
  | cons x rest ih =>
    rw [List.forall_mem_cons, ← ih]
    simp only [mapM_cons_eq_ok_iff]
    constructor
    · rintro ⟨_, y, made, first, later, -⟩
      exact ⟨⟨y, first⟩, made, later⟩
    · rintro ⟨⟨y, first⟩, made, later⟩
      exact ⟨y :: made, y, made, first, later, rfl⟩

/-- What was made one by one are the things made from the entries. -/
theorem mem_mapM_iff {make : α → Except ε β} {items : List α} {made : List β}
    (all : items.mapM make = .ok made) {y : β} : y ∈ made ↔ ∃ x ∈ items, make x = .ok y := by
  refine ⟨exists_of_mem_mapM all, ?_⟩
  induction items generalizing made with
  | nil =>
    rintro ⟨_, member, -⟩
    cases member
  | cons x rest ih =>
    obtain ⟨value, values, first, later, rfl⟩ := mapM_cons_eq_ok_iff.mp all
    rintro ⟨x', listed, made'⟩
    rcases List.mem_cons.mp listed with rfl | listed
    · cases first.symm.trans made'
      exact List.mem_cons_self
    · exact List.mem_cons_of_mem _ (ih later ⟨x', listed, made'⟩)

theorem exists_of_mem_mapM_some {make : α → Option β} {items : List α} {made : List β}
    (all : items.mapM make = some made) {y : β} (member : y ∈ made) :
    ∃ x ∈ items, make x = some y := by
  induction items generalizing made with
  | nil =>
    cases all
    cases member
  | cons x rest ih =>
    simp only [List.mapM_cons, Option.bind_eq_bind, Option.bind_eq_some_iff] at all
    obtain ⟨value, first, values, later, same⟩ := all
    cases same
    rcases List.mem_cons.mp member with rfl | member
    · exact ⟨x, List.mem_cons_self, first⟩
    · obtain ⟨x', listed, made'⟩ := ih later member
      exact ⟨x', List.mem_cons_of_mem _ listed, made'⟩

end HttpRouting.Outcome
