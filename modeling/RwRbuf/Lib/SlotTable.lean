import Mathlib.Data.List.Basic
import Mathlib.Logic.Function.Basic

/-! # Tables of slots

A table gives each of finitely many slots a value or leaves it free.  What a table holds is a
list of values in the order of the slots.  Filling and clearing one slot change it by one
value, up to order.
-/

namespace SlotTable

open Function

variable {Index Value : Type*}
variable {indices : List Index} {slots : Index → Option Value} {index : Index} {value : Value}

/-- The values in the slots. -/
def contents (indices : List Index) (slots : Index → Option Value) : List Value :=
  indices.filterMap slots

theorem mem_contents : value ∈ contents indices slots ↔
    ∃ index ∈ indices, slots index = some value :=
  List.mem_filterMap

theorem contents_cons_none {rest : List Index} (free : slots index = none) :
    contents (index :: rest) slots = contents rest slots :=
  List.filterMap_cons_none free

theorem contents_cons_some {rest : List Index} (held : slots index = some value) :
    contents (index :: rest) slots = value :: contents rest slots :=
  List.filterMap_cons_some held

/-- A table that holds fewer values than it has slots has a free slot. -/
theorem exists_free (short : (contents indices slots).length < indices.length) :
    ∃ index ∈ indices, slots index = none := by
  induction indices with
  | nil => cases short
  | cons head rest induction =>
    cases held : slots head with
    | none => exact ⟨head, List.mem_cons_self, held⟩
    | some value =>
      rw [contents_cons_some held, List.length_cons, List.length_cons] at short
      obtain ⟨index, member, free⟩ := induction (Nat.lt_of_succ_lt_succ short)
      exact ⟨index, List.mem_cons_of_mem head member, free⟩

variable [DecidableEq Index]

theorem contents_update_of_notMem (outside : index ∉ indices) (content : Option Value) :
    contents indices (update slots index content) = contents indices slots := by
  apply List.filterMap_congr
  intro other member
  apply update_of_ne
  rintro rfl
  exact outside member

theorem contents_fill (nodup : indices.Nodup) (member : index ∈ indices)
    (free : slots index = none) (value : Value) :
    (contents indices (update slots index (some value))).Perm
      (value :: contents indices slots) := by
  induction indices with
  | nil => cases member
  | cons head rest induction =>
    obtain ⟨fresh, restNodup⟩ := List.nodup_cons.mp nodup
    by_cases same : head = index
    · subst same
      rw [contents_cons_some (update_self head (some value) slots),
        contents_update_of_notMem fresh, contents_cons_none free]
    · have later : index ∈ rest :=
        (List.mem_cons.mp member).resolve_left fun equal => same equal.symm
      have headSlot : update slots index (some value) head = slots head :=
        update_of_ne same _ _
      cases held : slots head with
      | none =>
        rw [contents_cons_none (headSlot.trans held), contents_cons_none held]
        exact induction restNodup later
      | some other =>
        rw [contents_cons_some (headSlot.trans held), contents_cons_some held]
        calc other :: contents rest (update slots index (some value))
          List.Perm _ (other :: value :: contents rest slots) :=
            (induction restNodup later).cons other
          List.Perm _ (value :: other :: contents rest slots) := List.Perm.swap _ _ _

theorem contents_clear (nodup : indices.Nodup) (member : index ∈ indices)
    (held : slots index = some value) :
    (contents indices slots).Perm (value :: contents indices (update slots index none)) := by
  have cleared : update slots index none index = none := update_self ..
  have refilled : update (update slots index none) index (some value) =
      slots := by
    rw [update_idem, ← held, update_eq_self]
  have filled := contents_fill nodup member cleared value
  rw [refilled] at filled
  exact filled

end SlotTable
