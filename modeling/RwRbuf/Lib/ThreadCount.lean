import Mathlib.Data.Fintype.Basic
import Mathlib.Data.Finset.Card
import Mathlib.Data.Finset.Update

/-! # Counting the threads at a place

A reference count is meant to be the number of threads that are at some place of their
programs.  The rules here say how that number changes when one thread takes a step.
-/

namespace ThreadCount

open Function

variable {Thread Place : Type*} [Fintype Thread]

/-- The number of threads whose place satisfies `there`. -/
def count (there : Place → Prop) [DecidablePred there] (place : Thread → Place) : Nat :=
  (Finset.univ.filter fun thread => there (place thread)).card

variable {there : Place → Prop} [DecidablePred there] {place : Thread → Place}
  {thread : Thread} {next : Place}

theorem count_eq_zero : count there place = 0 ↔ ∀ thread, ¬there (place thread) := by
  simp [count, Finset.filter_eq_empty_iff]

variable [DecidableEq Thread]

private theorem filter_update_erase :
    (Finset.univ.filter fun other => there (update place thread next other)).erase thread =
      (Finset.univ.filter fun other => there (place other)).erase thread := by
  ext other
  by_cases same : other = thread
  · simp [same]
  · simp [same, update_of_ne]

theorem count_update_enter (absent : ¬there (place thread)) (present : there next) :
    count there (update place thread next) = count there place + 1 := by
  have member : thread ∈ Finset.univ.filter fun other =>
      there (update place thread next other) := by
    simpa using present
  have missing : thread ∉ Finset.univ.filter fun other => there (place other) := by
    simpa using absent
  unfold count
  rw [← Finset.card_erase_add_one member, filter_update_erase, Finset.erase_eq_of_notMem missing]

theorem count_update_leave (present : there (place thread)) (absent : ¬there next) :
    count there (update place thread next) + 1 = count there place := by
  have member : thread ∈ Finset.univ.filter fun other => there (place other) := by
    simpa using present
  have missing : thread ∉ Finset.univ.filter fun other =>
      there (update place thread next other) := by
    simpa using absent
  unfold count
  rw [← Finset.card_erase_add_one member, ← filter_update_erase, Finset.erase_eq_of_notMem missing]

theorem count_update_stay (same : there (place thread) ↔ there next) :
    count there (update place thread next) = count there place := by
  unfold count
  congr 1
  ext other
  by_cases which : other = thread
  · simp [which, same]
  · simp [which, update_of_ne]

end ThreadCount
