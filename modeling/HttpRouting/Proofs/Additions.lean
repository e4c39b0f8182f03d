import Mathlib.Data.List.Nodup

/-!
Items that are added behind a list when they are not there yet, one or one after the other.
-/

set_option autoImplicit false
set_option relaxedAutoImplicit false

namespace HttpRouting

variable {α : Type} [BEq α] [LawfulBEq α] {x item : α} {items : List α}

theorem mem_addition :
    x ∈ (if items.contains item then items else items ++ [item]) ↔ x ∈ items ∨ x = item := by
  split
  · next known =>
    constructor
    · exact .inl
    · rintro (member | rfl)
      · exact member
      · exact List.contains_iff_mem.mp known
  · rw [List.mem_append, List.mem_singleton]

theorem mem_additions (added items : List α) :
    x ∈ added.foldl (fun items y => if items.contains y then items else items ++ [y]) items ↔
      x ∈ items ∨ x ∈ added := by
  induction added generalizing items with
  | nil => simp
  | cons y added ih => rw [List.foldl_cons, ih, mem_addition, List.mem_cons, or_assoc]

theorem nodup_additions (added : List α) (distinct : items.Nodup) :
    (added.foldl (fun items y => if items.contains y then items else items ++ [y]) items).Nodup := by
  induction added generalizing items with
  | nil => exact distinct
  | cons y added ih =>
    rw [List.foldl_cons]
    split
    · exact ih distinct
    · next unknown =>
      refine ih (List.nodup_append.mpr ⟨distinct, List.nodup_singleton y, ?_⟩)
      rintro x before z new rfl
      rw [List.mem_singleton.mp new] at before
      exact unknown (by simpa using before)

end HttpRouting
