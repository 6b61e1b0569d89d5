import RwRbuf.Firmware.RequestEngine
import Mathlib.Data.List.Nodup
import Mathlib.Data.List.Range

/-! # The ledger of the commands

This is what the accounting of the write-read command is for, without requests and queues:
the slices of the commands are counted one after another, each counted slice is finished
once, and the completion table counts the slices of each slot that are counted and not
finished.  `CompleteTxforCustomIoCmd` posts the completion by these counts alone.
-/

namespace RwRbuf.Firmware.Requests

open Function

namespace CustomIoCmdCompleteEntry

def counter (entry : CustomIoCmdCompleteEntry) : CmdCode → Nat
  | .write => entry.notCompletedRxCount
  | .read => entry.notCompletedTxCount

theorem counter_allocate (entry : CustomIoCmdCompleteEntry) (code other : CmdCode) :
    (entry.allocate code).counter other =
      if other = code then countUp (entry.counter other) else entry.counter other := by
  cases code <;> cases other <;> simp [allocate, counter]

theorem counter_complete (entry : CustomIoCmdCompleteEntry) (code other : CmdCode) :
    (entry.complete code.dmaCode).counter other =
      if other = code then countDown (entry.counter other) else entry.counter other := by
  cases code <;> cases other <;> simp only [reduceCtorEq, if_true, if_false] <;>
    rw [CmdCode.dmaCode, complete, counter, counter]

/-- `CompleteTxforCustomIoCmd` posts when no request of the slot is then counted. -/
theorem posts_iff (entry : CustomIoCmdCompleteEntry) (code : CmdCode) :
    entry.posts code.dmaCode = true ↔
      code = .read ∧ ∀ other, (entry.complete code.dmaCode).counter other = 0 := by
  simp only [counter_complete]
  constructor
  · intro posts
    obtain ⟨tx, last, noRx⟩ := of_decide_eq_true posts
    cases code with
    | write => cases tx
    | read =>
      refine ⟨rfl, ?_⟩
      rintro (_ | _)
      · rw [if_neg (by decide), counter]
        exact noRx
      · rw [if_pos rfl, counter]
        exact last
  · rintro ⟨rfl, zero⟩
    have last := zero .read
    have noRx := zero .write
    rw [if_pos rfl, counter] at last
    rw [if_neg (by decide), counter] at noRx
    exact decide_eq_true ⟨rfl, last, noRx⟩

end CustomIoCmdCompleteEntry

theorem countUp_mod (count : Nat) : countUp (count % 2 ^ 16) = (count + 1) % 2 ^ 16 := by
  unfold countUp
  omega

theorem countDown_mod (count : Nat) : countDown ((count + 1) % 2 ^ 16) = count % 2 ^ 16 := by
  unfold countDown
  omega

structure Ledger where
  slices : List Slice
  commandCount : Nat
  translated : Nat
  finished : List Nat
  customIoCmd : Nat → CustomIoCmdCompleteEntry
  completions : List Nat
  slotOwner : Nat → Option Nat

namespace Ledger

/-- The ledger before the first command. -/
def initial : Ledger where
  slices := []
  commandCount := 0
  translated := 0
  finished := []
  customIoCmd := fun _ => ⟨0, 0⟩
  completions := []
  slotOwner := fun _ => none

variable (ledger : Ledger)

def accept (cmd : NvmeIoCmd) : Ledger :=
  { ledger with
    slices := ledger.slices ++ cmd.slices ledger.commandCount
    commandCount := ledger.commandCount + 1
    slotOwner :=
      if cmd.customCmd then
        update ledger.slotOwner cmd.cmdSlotTag (some ledger.commandCount)
      else ledger.slotOwner }

def count (slice : Slice) : Ledger :=
  let slot := slice.nvmeCmdSlotTag
  { ledger with
    translated := ledger.translated + 1
    customIoCmd :=
      if slice.customCmd then
        update ledger.customIoCmd slot ((ledger.customIoCmd slot).allocate slice.code)
      else ledger.customIoCmd }

def finish (sliceNo : Nat) (slice : Slice) : Ledger :=
  let slot := slice.nvmeCmdSlotTag
  let entry := ledger.customIoCmd slot
  let posts := slice.customCmd && entry.posts slice.code.dmaCode
  { ledger with
    finished := sliceNo :: ledger.finished
    customIoCmd :=
      if slice.customCmd then
        update ledger.customIoCmd slot (entry.complete slice.code.dmaCode)
      else ledger.customIoCmd
    completions :=
      if posts then slice.command :: ledger.completions else ledger.completions
    slotOwner :=
      if posts then update ledger.slotOwner slot none else ledger.slotOwner }

/-- The steps of the ledger.  A read slice of a write-read command is finished only when no
written slice of its slot is counted; `fresh` restricts when a command is accepted and
`calm` when a slice is finished. -/
inductive Step (fresh : Ledger → NvmeIoCmd → Prop) (calm : Ledger → Slice → Prop) :
    Ledger → Ledger → Prop
  | accept {ledger : Ledger} {cmd : NvmeIoCmd}
      (idle : ledger.translated = ledger.slices.length)
      (free : ledger.slotOwner cmd.cmdSlotTag = none) (permitted : fresh ledger cmd) :
      Step fresh calm ledger (ledger.accept cmd)
  | count {ledger : Ledger} {slice : Slice}
      (next : ledger.slices[ledger.translated]? = some slice) :
      Step fresh calm ledger (ledger.count slice)
  | finish {ledger : Ledger} {sliceNo : Nat} {slice : Slice}
      (found : ledger.slices[sliceNo]? = some slice) (counted : sliceNo < ledger.translated)
      (unfinished : sliceNo ∉ ledger.finished)
      (noRx : slice.customCmd = true → slice.code = .read →
        (ledger.customIoCmd slice.nvmeCmdSlotTag).counter .write = 0)
      (permitted : slice.customCmd = true → calm ledger slice) :
      Step fresh calm ledger (ledger.finish sliceNo slice)

def outstanding : List Nat :=
  (List.range ledger.translated).filter fun sliceNo => sliceNo ∉ ledger.finished

def counts (code : CmdCode) (slot sliceNo : Nat) : Bool :=
  (ledger.slices[sliceNo]?).any fun slice =>
    decide (slice.customCmd = true ∧ slice.code = code ∧ slice.nvmeCmdSlotTag = slot)

variable {ledger}

theorem mem_outstanding {sliceNo : Nat} :
    sliceNo ∈ ledger.outstanding ↔
      sliceNo < ledger.translated ∧ sliceNo ∉ ledger.finished := by
  simp [outstanding]

theorem nodup_outstanding : ledger.outstanding.Nodup :=
  List.nodup_range.filter _

theorem counts_eq_true {code : CmdCode} {slot sliceNo : Nat} :
    ledger.counts code slot sliceNo = true ↔
      ∃ slice, ledger.slices[sliceNo]? = some slice ∧ slice.customCmd = true ∧
        slice.code = code ∧ slice.nvmeCmdSlotTag = slot := by
  simp [counts, Option.any_eq_true]

/-- A slice of the longer list of slices is an old one or one of the new command. -/
theorem getElem?_accept {cmd : NvmeIoCmd} {sliceNo : Nat} {slice : Slice}
    (found : (ledger.accept cmd).slices[sliceNo]? = some slice) :
    ledger.slices[sliceNo]? = some slice ∨
      ledger.slices.length ≤ sliceNo ∧ slice ∈ cmd.slices ledger.commandCount := by
  have split : (ledger.slices ++ cmd.slices ledger.commandCount)[sliceNo]? = some slice := found
  rcases Nat.lt_or_ge sliceNo ledger.slices.length with old | new
  · rw [List.getElem?_append_left old] at split
    exact .inl split
  · rw [List.getElem?_append_right new] at split
    exact .inr ⟨new, List.mem_of_getElem? split⟩

theorem getElem?_of_accept {cmd : NvmeIoCmd} {sliceNo : Nat} {slice : Slice}
    (inside : sliceNo < ledger.slices.length)
    (found : (ledger.accept cmd).slices[sliceNo]? = some slice) :
    ledger.slices[sliceNo]? = some slice :=
  (List.getElem?_append_left inside).symm.trans found

/-- Along every run of the ledger the counters are the numbers of outstanding slices, in
their 16 bits, and the slices of each command are in order. -/
structure Balanced (ledger : Ledger) : Prop where
  translated_le : ledger.translated ≤ ledger.slices.length
  finished_lt : ∀ sliceNo ∈ ledger.finished, sliceNo < ledger.translated
  counters : ∀ code slot, (ledger.customIoCmd slot).counter code =
    ledger.outstanding.countP (ledger.counts code slot) % 2 ^ 16
  known : ∀ slice ∈ ledger.slices, slice.command < ledger.commandCount
  wellFormed : ∀ slice ∈ ledger.slices, slice.WellFormed
  ordered : ledger.slices.Pairwise fun earlier later =>
    earlier.command = later.command → earlier.Follows later

section Numbers

variable {slice : Slice} {sliceNo : Nat}

theorem outstanding_count (finished_lt : ∀ sliceNo ∈ ledger.finished, sliceNo < ledger.translated) :
    (ledger.count slice).outstanding = ledger.outstanding ++ [ledger.translated] := by
  have fresh : ledger.translated ∉ ledger.finished := fun member =>
    Nat.lt_irrefl _ (finished_lt _ member)
  have one : (ledger.count slice).translated = ledger.translated + 1 := rfl
  have kept : [ledger.translated].filter (fun sliceNo => sliceNo ∉ (ledger.count slice).finished) =
      [ledger.translated] := by
    simp [count, fresh]
  unfold outstanding
  rw [one, List.range_succ, List.filter_append, kept]
  rfl

theorem outstanding_finish (ledger : Ledger) (sliceNo : Nat) (slice : Slice) :
    (ledger.finish sliceNo slice).outstanding = ledger.outstanding.erase sliceNo := by
  rw [nodup_outstanding.erase_eq_filter, outstanding, outstanding, List.filter_filter]
  apply List.filter_congr
  intro other _
  by_cases same : other = sliceNo <;> simp [finish, same]

theorem countP_count (balanced : ledger.Balanced)
    (next : ledger.slices[ledger.translated]? = some slice) (code : CmdCode) (slot : Nat) :
    (ledger.count slice).outstanding.countP ((ledger.count slice).counts code slot) =
      ledger.outstanding.countP (ledger.counts code slot) +
        if slice.customCmd = true ∧ slice.code = code ∧ slice.nvmeCmdSlotTag = slot then 1
        else 0 := by
  have same : (ledger.count slice).counts code slot = ledger.counts code slot := rfl
  rw [same, outstanding_count balanced.finished_lt, List.countP_append, List.countP_singleton]
  simp [counts, next]

theorem countP_finish (found : ledger.slices[sliceNo]? = some slice)
    (counted : sliceNo < ledger.translated) (unfinished : sliceNo ∉ ledger.finished)
    (code : CmdCode) (slot : Nat) :
    ledger.outstanding.countP (ledger.counts code slot) =
      (ledger.finish sliceNo slice).outstanding.countP
          ((ledger.finish sliceNo slice).counts code slot) +
        if slice.customCmd = true ∧ slice.code = code ∧ slice.nvmeCmdSlotTag = slot then 1
        else 0 := by
  have same : (ledger.finish sliceNo slice).counts code slot = ledger.counts code slot := rfl
  have member : sliceNo ∈ ledger.outstanding := mem_outstanding.2 ⟨counted, unfinished⟩
  rw [same, outstanding_finish, (List.perm_cons_erase member).countP_eq, List.countP_cons]
  simp [counts, found]

end Numbers

namespace Balanced

variable {fresh : Ledger → NvmeIoCmd → Prop} {calm : Ledger → Slice → Prop}
  {ledger' : Ledger}

private theorem accept (balanced : ledger.Balanced) (cmd : NvmeIoCmd)
    (idle : ledger.translated = ledger.slices.length) : (ledger.accept cmd).Balanced := by
  constructor
  · show ledger.translated ≤ (ledger.slices ++ _).length
    rw [List.length_append, idle]
    exact Nat.le_add_right _ _
  · exact balanced.finished_lt
  · intro code slot
    rw [show (ledger.accept cmd).customIoCmd = ledger.customIoCmd from rfl,
      balanced.counters]
    congr 1
    apply List.countP_congr
    intro sliceNo member
    have inside : sliceNo < ledger.slices.length := idle ▸ (mem_outstanding.1 member).1
    simp [counts, Ledger.accept, List.getElem?_append_left inside]
  · intro slice member
    rcases List.mem_append.1 member with old | new
    · exact Nat.lt_succ_of_lt (balanced.known slice old)
    · rw [(NvmeIoCmd.shares_of_mem_slices new).1]
      exact Nat.lt_succ_self _
  · intro slice member
    rcases List.mem_append.1 member with old | new
    · exact balanced.wellFormed slice old
    · exact (NvmeIoCmd.shares_of_mem_slices new).2.2.2
  · refine List.pairwise_append.2 ⟨balanced.ordered, ?_, ?_⟩
    · refine List.Pairwise.imp ?_ NvmeIoCmd.slices_pairwise
      intro earlier later follows _
      exact follows
    · intro earlier old later new same
      have before := balanced.known earlier old
      rw [same, (NvmeIoCmd.shares_of_mem_slices new).1] at before
      exact absurd before (Nat.lt_irrefl _)

private theorem count (balanced : ledger.Balanced) {slice : Slice}
    (next : ledger.slices[ledger.translated]? = some slice) : (ledger.count slice).Balanced := by
  constructor
  · exact (List.getElem?_eq_some_iff.1 next).1
  · intro sliceNo member
    exact Nat.lt_succ_of_lt (balanced.finished_lt sliceNo member)
  · intro code slot
    rw [countP_count balanced next]
    by_cases custom : slice.customCmd = true
    · have table : (ledger.count slice).customIoCmd = update ledger.customIoCmd slice.nvmeCmdSlotTag
            ((ledger.customIoCmd slice.nvmeCmdSlotTag).allocate slice.code) := if_pos custom
      rw [table]
      by_cases own : slot = slice.nvmeCmdSlotTag
      · subst own
        rw [update_self, CustomIoCmdCompleteEntry.counter_allocate, balanced.counters]
        by_cases sameCode : code = slice.code
        · subst sameCode
          simp only [custom, and_self, if_true]
          exact countUp_mod _
        · simp [sameCode, Ne.symm sameCode]
      · rw [update_of_ne own, balanced.counters]
        simp [Ne.symm own]
    · have table : (ledger.count slice).customIoCmd = ledger.customIoCmd := if_neg custom
      rw [table, balanced.counters]
      simp [custom]
  · exact balanced.known
  · exact balanced.wellFormed
  · exact balanced.ordered

theorem finish (balanced : ledger.Balanced) {slice : Slice} {sliceNo : Nat}
    (found : ledger.slices[sliceNo]? = some slice) (counted : sliceNo < ledger.translated)
    (unfinished : sliceNo ∉ ledger.finished) : (ledger.finish sliceNo slice).Balanced := by
  constructor
  · exact balanced.translated_le
  · intro other member
    rcases List.mem_cons.1 member with rfl | old
    · exact counted
    · exact balanced.finished_lt other old
  · intro code slot
    have number := countP_finish found counted unfinished code slot
    have counter := balanced.counters code slot
    by_cases custom : slice.customCmd = true
    · have table : (ledger.finish sliceNo slice).customIoCmd =
          update ledger.customIoCmd slice.nvmeCmdSlotTag
            ((ledger.customIoCmd slice.nvmeCmdSlotTag).complete slice.code.dmaCode) :=
        if_pos custom
      rw [table]
      by_cases own : slot = slice.nvmeCmdSlotTag
      · subst own
        rw [update_self, CustomIoCmdCompleteEntry.counter_complete, counter]
        by_cases sameCode : code = slice.code
        · subst sameCode
          rw [number]
          simp only [custom, and_self, if_true]
          exact countDown_mod _
        · rw [if_neg sameCode, number]
          simp [Ne.symm sameCode]
      · rw [update_of_ne own, counter, number]
        simp [Ne.symm own]
    · have table : (ledger.finish sliceNo slice).customIoCmd = ledger.customIoCmd :=
        if_neg custom
      rw [table, counter, number]
      simp [custom]
  · exact balanced.known
  · exact balanced.wellFormed
  · exact balanced.ordered

theorem initial : Ledger.initial.Balanced where
  translated_le := Nat.le_refl _
  finished_lt := fun _ member => absurd member List.not_mem_nil
  counters := by
    intro code slot
    cases code <;> rfl
  known := fun _ member => absurd member List.not_mem_nil
  wellFormed := fun _ member => absurd member List.not_mem_nil
  ordered := List.Pairwise.nil

theorem step (balanced : ledger.Balanced) (step : Step fresh calm ledger ledger') :
    ledger'.Balanced := by
  cases step with
  | accept idle => exact balanced.accept _ idle
  | count next => exact balanced.count next
  | finish found counted unfinished => exact balanced.finish found counted unfinished

theorem follows (balanced : ledger.Balanced) {first second : Nat} {earlier later : Slice}
    (lt : first < second) (foundFirst : ledger.slices[first]? = some earlier)
    (foundSecond : ledger.slices[second]? = some later)
    (same : earlier.command = later.command) : earlier.Follows later := by
  obtain ⟨firstLt, rfl⟩ := List.getElem?_eq_some_iff.1 foundFirst
  obtain ⟨secondLt, rfl⟩ := List.getElem?_eq_some_iff.1 foundSecond
  exact List.pairwise_iff_getElem.1 balanced.ordered first second firstLt secondLt lt same

theorem same_slot (balanced : ledger.Balanced) {first second : Nat} {slice other : Slice}
    (found : ledger.slices[first]? = some slice) (foundOther : ledger.slices[second]? = some other)
    (same : slice.command = other.command) :
    slice.nvmeCmdSlotTag = other.nvmeCmdSlotTag ∧ slice.customCmd = other.customCmd := by
  rcases Nat.lt_trichotomy first second with lt | rfl | gt
  · have follows := balanced.follows lt found foundOther same
    exact ⟨follows.slot, follows.custom⟩
  · rw [found] at foundOther
    cases foundOther
    exact ⟨rfl, rfl⟩
  · have follows := balanced.follows gt foundOther found same.symm
    exact ⟨follows.slot.symm, follows.custom.symm⟩

section

variable (balanced : ledger.Balanced) (few : ledger.outstanding.length < 2 ^ 16) {sliceNo : Nat}
  {slice : Slice} (found : ledger.slices[sliceNo]? = some slice)
  (counted : sliceNo < ledger.translated) (custom : slice.customCmd = true)
include balanced few found counted custom

/-- A counter that is zero says that there is no such outstanding slice, as long as the
number of outstanding slices fits into 16 bits. -/
theorem finished_of_counter_eq_zero
    (zero : (ledger.customIoCmd slice.nvmeCmdSlotTag).counter slice.code = 0) :
    sliceNo ∈ ledger.finished := by
  by_contra unfinished
  have bound := List.countP_le_length (p := ledger.counts slice.code slice.nvmeCmdSlotTag)
    (l := ledger.outstanding)
  rw [balanced.counters, Nat.mod_eq_of_lt (bound.trans_lt few), List.countP_eq_zero] at zero
  apply zero sliceNo (mem_outstanding.2 ⟨counted, unfinished⟩)
  exact counts_eq_true.2 ⟨slice, found, custom, rfl, rfl⟩

/-- When no written slice of the slot is counted, all written slices of a command with a
counted read slice are finished. -/
theorem written_finished (read : slice.code = .read)
    (noRx : (ledger.customIoCmd slice.nvmeCmdSlotTag).counter .write = 0) {other : Nat}
    {written : Slice} (foundOther : ledger.slices[other]? = some written)
    (same : written.command = slice.command) (write : written.code = .write) :
    other ∈ ledger.finished := by
  obtain ⟨slot, kind⟩ := balanced.same_slot foundOther found same
  have before : other < sliceNo := by
    rcases Nat.lt_trichotomy other sliceNo with lt | rfl | gt
    · exact lt
    · rw [found] at foundOther
      cases foundOther
      rw [read] at write
      cases write
    · have readAfter := (balanced.follows gt found foundOther same.symm).code read
      rw [readAfter] at write
      cases write
  apply balanced.finished_of_counter_eq_zero few foundOther (before.trans counted)
    (kind.trans custom)
  rw [slot, write]
  exact noRx

end

end Balanced

end Ledger
end RwRbuf.Firmware.Requests
