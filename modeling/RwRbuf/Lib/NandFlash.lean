import Mathlib.Logic.Function.Basic

/-! # Flash memory

A block of flash is programmed page by page, in order, and only an erase makes its pages
usable again.  A program that skips a page or hits a programmed one has no result.
-/

namespace NandFlash

open Function

/-- The pages that hold data, and how many pages of a block were programmed since its last
erase. -/
structure State (Block Data : Type*) where
  page : Block → Nat → Option Data
  programmed : Block → Nat

variable {Block Data : Type*}

/-- All blocks are erased. -/
def State.erased : State Block Data := ⟨fun _ _ => none, fun _ => 0⟩

variable [DecidableEq Block] (flash : State Block Data)

namespace State

def append (block : Block) (data : Data) : State Block Data where
  page := update flash.page block
    (update (flash.page block) (flash.programmed block) (some data))
  programmed := update flash.programmed block (flash.programmed block + 1)

def program (block : Block) (pageNo : Nat) (data : Data) : Option (State Block Data) :=
  if pageNo = flash.programmed block then some (flash.append block data) else none

def erase (block : Block) : State Block Data where
  page := update flash.page block fun _ => none
  programmed := update flash.programmed block 0

variable {flash} {block other : Block} {pageNo : Nat} {data : Data}

theorem program_next (next : flash.programmed block = pageNo) :
    flash.program block pageNo data = some (flash.append block data) :=
  if_pos next.symm

theorem page_append_self (next : flash.programmed block = pageNo) :
    (flash.append block data).page block pageNo = some data := by
  simp [append, next]

theorem page_append_of_ne (elsewhere : ¬(other = block ∧ pageNo = flash.programmed block)) :
    (flash.append block data).page other pageNo = flash.page other pageNo := by
  by_cases same : other = block
  · subst same
    have differs : pageNo ≠ flash.programmed other := fun equal => elsewhere ⟨rfl, equal⟩
    simp [append, differs]
  · simp [append, same]

theorem programmed_append :
    (flash.append block data).programmed other =
      if other = block then flash.programmed block + 1 else flash.programmed other := by
  simp [append, update_apply]

theorem page_erase_of_ne (differs : other ≠ block) :
    (flash.erase block).page other = flash.page other :=
  update_of_ne differs _ _

theorem programmed_erase :
    (flash.erase block).programmed other =
      if other = block then 0 else flash.programmed other := by
  simp [erase, update_apply]

end State

end NandFlash
