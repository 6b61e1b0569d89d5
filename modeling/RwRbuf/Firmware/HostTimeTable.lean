import RwRbuf.Firmware.SliceRequests

/-! # The host timing table

`get_time_host_request.c` keeps for each command slot the number of DMA requests and the
number of eviction writes that are not completed yet.  The end time of a command is recorded
when the first number gets zero.  The numbers are changed from the slicing, from the eviction
and from the removal of requests.
-/

namespace RwRbuf.Firmware.Requests

/-- `MAX_CMD_SLOT_TAG`. -/
abbrev maxCmdSlotTag : Nat := 1024

/-- `PRINT_BUFFER_ENTRY_CNT`. -/
abbrev printBufferEntryCnt : Nat := 1024

def wordUp (count : Nat) : Nat := (count + 1) % 2 ^ 32

def wordDown (count : Nat) : Nat := if count = 0 then 2 ^ 32 - 1 else count - 1

/-- `HOST_REQUEST_TIME_ENTRY`, without the times that are only printed. -/
structure HostRequestTimeEntry where
  nvmeDmaCnt : Nat
  nandReqCnt : Nat
  nandReqEnd : Nat
  nvmeDmaEnd : Nat
deriving DecidableEq, Repr

namespace HostRequestTimeEntry

def init : HostRequestTimeEntry := ⟨0, 0, 0, 0⟩

end HostRequestTimeEntry

/-- An end time that `BufferItemValue` took over, with the command whose request was removed. -/
structure EndRecord where
  command : Nat
  time : Nat
deriving DecidableEq, Repr

/-- The table.  `ends` is not in the source. -/
structure HostTimeTable where
  entry : Nat → HostRequestTimeEntry
  bufferWritePoint : Nat
  ends : List EndRecord

namespace HostTimeTable

variable (table : HostTimeTable)

def modify (cmdSlotTag : Nat) (change : HostRequestTimeEntry → HostRequestTimeEntry) :
    HostTimeTable :=
  { table with
    entry := Function.update table.entry cmdSlotTag (change (table.entry cmdSlotTag)) }

/-- `InitHostReqTimeTable`. -/
def initHostReqTimeTable : HostTimeTable :=
  { table with
    entry := fun cmdSlotTag =>
      if cmdSlotTag < maxCmdSlotTag then .init else table.entry cmdSlotTag
    bufferWritePoint := 0 }

/-- `AllocateNvmeDmaCnt`. -/
def allocateNvmeDmaCnt (cmdSlotTag : Nat) : HostTimeTable :=
  table.modify cmdSlotTag fun entry => { entry with nvmeDmaCnt := wordUp entry.nvmeDmaCnt }

/-- `AllocateNandReqCntForBufferEviction`. -/
def allocateNandReqCntForBufferEviction (cmdSlotTag : Nat) : HostTimeTable :=
  table.modify cmdSlotTag fun entry => { entry with nandReqCnt := wordUp entry.nandReqCnt }

/-- `GetTimeBufferEvictNandReqEnd` for a request that writes. -/
def getTimeBufferEvictNandReqEnd (cmdSlotTag now : Nat) : HostTimeTable :=
  table.modify cmdSlotTag fun entry =>
    { entry with
      nandReqCnt := wordDown entry.nandReqCnt
      nandReqEnd :=
        if wordDown entry.nandReqCnt = 0 ∧ entry.nandReqEnd = 0 then now else entry.nandReqEnd }

/-- `ResetHostRequestTimeEntry`.  The counters stay. -/
def resetHostRequestTimeEntry (cmdSlotTag : Nat) : HostTimeTable :=
  table.modify cmdSlotTag fun entry => { entry with nandReqEnd := 0, nvmeDmaEnd := 0 }

/-- `BufferItemValue`. -/
def bufferItemValue (cmdSlotTag : Nat) : HostTimeTable :=
  let ready :=
    if table.bufferWritePoint = printBufferEntryCnt then table.initHostReqTimeTable else table
  { ready with bufferWritePoint := ready.bufferWritePoint + 1 }.resetHostRequestTimeEntry
    cmdSlotTag

def EndsAt (cmdSlotTag : Nat) : Prop :=
  wordDown (table.entry cmdSlotTag).nvmeDmaCnt = 0 ∧ (table.entry cmdSlotTag).nvmeDmaEnd = 0

instance (cmdSlotTag : Nat) : Decidable (table.EndsAt cmdSlotTag) :=
  inferInstanceAs (Decidable (_ ∧ _))

def countNvmeDmaEnd (cmdSlotTag : Nat) : HostTimeTable :=
  table.modify cmdSlotTag fun entry => { entry with nvmeDmaCnt := wordDown entry.nvmeDmaCnt }

/-- `XTime_GetTime` stores the end time. -/
def storeNvmeDmaEnd (cmdSlotTag command now : Nat) : HostTimeTable :=
  { table.modify cmdSlotTag (fun entry => { entry with nvmeDmaEnd := now }) with
    ends := ⟨command, now⟩ :: table.ends }

/-- `GetTimeHostReqNvmeDmaEnd`, for a request of `command`. -/
def getTimeHostReqNvmeDmaEnd (cmdSlotTag command now : Nat) : HostTimeTable :=
  if table.EndsAt cmdSlotTag then
    ((table.countNvmeDmaEnd cmdSlotTag).storeNvmeDmaEnd cmdSlotTag command now).bufferItemValue
      cmdSlotTag
  else table.countNvmeDmaEnd cmdSlotTag

variable {table} {cmdSlotTag : Nat}

theorem entry_modify (change : HostRequestTimeEntry → HostRequestTimeEntry) (other : Nat) :
    (table.modify cmdSlotTag change).entry other =
      if other = cmdSlotTag then change (table.entry other) else table.entry other := by
  by_cases same : other = cmdSlotTag
  · subst same
    simp [modify]
  · simp [modify, same]

variable {change : HostRequestTimeEntry → HostRequestTimeEntry}

theorem field_modify (field : HostRequestTimeEntry → Nat) {after : Nat → Nat}
    (changes : ∀ entry, field (change entry) = after (field entry)) (other : Nat) :
    field ((table.modify cmdSlotTag change).entry other) =
      if other = cmdSlotTag then after (field (table.entry other))
      else field (table.entry other) := by
  rw [entry_modify]
  split
  · exact changes _
  · rfl

theorem field_modify_kept (field : HostRequestTimeEntry → Nat)
    (keeps : ∀ entry, field (change entry) = field entry) (other : Nat) :
    field ((table.modify cmdSlotTag change).entry other) = field (table.entry other) := by
  rw [entry_modify]
  split
  · exact keeps _
  · rfl

@[simp]
theorem ends_modify (change : HostRequestTimeEntry → HostRequestTimeEntry) :
    (table.modify cmdSlotTag change).ends = table.ends := rfl

@[simp]
theorem ends_bufferItemValue : (table.bufferItemValue cmdSlotTag).ends = table.ends := by
  unfold bufferItemValue resetHostRequestTimeEntry
  dsimp only
  split <;> rfl

/-- `BufferItemValue` keeps the counters of a table in which no other slot is counted when
the table is initialised. -/
theorem counters_bufferItemValue
    (settled : table.bufferWritePoint = printBufferEntryCnt →
      ∀ other, (table.entry other).nvmeDmaCnt = 0 ∧ (table.entry other).nandReqCnt = 0)
    (other : Nat) :
    ((table.bufferItemValue cmdSlotTag).entry other).nvmeDmaCnt =
        (table.entry other).nvmeDmaCnt ∧
      ((table.bufferItemValue cmdSlotTag).entry other).nandReqCnt =
        (table.entry other).nandReqCnt := by
  unfold bufferItemValue resetHostRequestTimeEntry
  dsimp only
  rw [entry_modify]
  by_cases full : table.bufferWritePoint = printBufferEntryCnt
  · rw [if_pos full]
    obtain ⟨noDma, noWrite⟩ := settled full other
    rw [noDma, noWrite]
    have cleared : (table.initHostReqTimeTable.entry other).nvmeDmaCnt = 0 ∧
        (table.initHostReqTimeTable.entry other).nandReqCnt = 0 := by
      unfold initHostReqTimeTable
      dsimp only
      split
      · exact ⟨rfl, rfl⟩
      · exact ⟨noDma, noWrite⟩
    split <;> exact cleared
  · rw [if_neg full]
    split <;> exact ⟨rfl, rfl⟩

theorem nvmeDmaEnd_bufferItemValue
    (others : ∀ other, other ≠ cmdSlotTag → (table.entry other).nvmeDmaEnd = 0) (other : Nat) :
    ((table.bufferItemValue cmdSlotTag).entry other).nvmeDmaEnd = 0 := by
  unfold bufferItemValue resetHostRequestTimeEntry
  dsimp only
  rw [entry_modify]
  split
  · rfl
  next different =>
    split
    · unfold initHostReqTimeTable
      dsimp only
      split
      · rfl
      · exact others other different
    · exact others other different

theorem entry_storeNvmeDmaEnd (command now other : Nat) :
    (table.storeNvmeDmaEnd cmdSlotTag command now).entry other =
      if other = cmdSlotTag then { table.entry other with nvmeDmaEnd := now }
      else table.entry other :=
  entry_modify (fun entry => { entry with nvmeDmaEnd := now }) other

theorem counters_storeNvmeDmaEnd (command now other : Nat) :
    ((table.storeNvmeDmaEnd cmdSlotTag command now).entry other).nvmeDmaCnt =
        (table.entry other).nvmeDmaCnt ∧
      ((table.storeNvmeDmaEnd cmdSlotTag command now).entry other).nandReqCnt =
        (table.entry other).nandReqCnt := by
  rw [entry_storeNvmeDmaEnd]
  split <;> exact ⟨rfl, rfl⟩

theorem entry_countNvmeDmaEnd (other : Nat) :
    (table.countNvmeDmaEnd cmdSlotTag).entry other =
      if other = cmdSlotTag then
        { table.entry other with nvmeDmaCnt := wordDown (table.entry other).nvmeDmaCnt }
      else table.entry other :=
  entry_modify (fun entry => { entry with nvmeDmaCnt := wordDown entry.nvmeDmaCnt }) other

/-- What one removal does to the counters, as long as the table is initialised only when no
other work is counted. -/
theorem counters_getTimeHostReqNvmeDmaEnd {command now : Nat}
    (settled : table.EndsAt cmdSlotTag → table.bufferWritePoint = printBufferEntryCnt →
      ∀ other, (other ≠ cmdSlotTag → (table.entry other).nvmeDmaCnt = 0) ∧
        (table.entry other).nandReqCnt = 0) (other : Nat) :
    ((table.getTimeHostReqNvmeDmaEnd cmdSlotTag command now).entry other).nvmeDmaCnt =
        ((table.countNvmeDmaEnd cmdSlotTag).entry other).nvmeDmaCnt ∧
      ((table.getTimeHostReqNvmeDmaEnd cmdSlotTag command now).entry other).nandReqCnt =
        ((table.countNvmeDmaEnd cmdSlotTag).entry other).nandReqCnt := by
  unfold getTimeHostReqNvmeDmaEnd
  split
  next ends =>
    have stored : ∀ other,
        (((table.countNvmeDmaEnd cmdSlotTag).storeNvmeDmaEnd cmdSlotTag command now).entry
            other).nvmeDmaCnt = ((table.countNvmeDmaEnd cmdSlotTag).entry other).nvmeDmaCnt ∧
          (((table.countNvmeDmaEnd cmdSlotTag).storeNvmeDmaEnd cmdSlotTag command now).entry
            other).nandReqCnt = ((table.countNvmeDmaEnd cmdSlotTag).entry other).nandReqCnt :=
      counters_storeNvmeDmaEnd command now
    rw [← (stored other).1, ← (stored other).2]
    apply counters_bufferItemValue
    intro full slot
    obtain ⟨noDma, noWrite⟩ := settled ends full slot
    rw [(stored slot).1, (stored slot).2, entry_countNvmeDmaEnd]
    by_cases same : slot = cmdSlotTag
    · subst same
      rw [if_pos rfl]
      exact ⟨ends.1, noWrite⟩
    · rw [if_neg same]
      exact ⟨noDma same, noWrite⟩
  · exact ⟨rfl, rfl⟩

theorem nvmeDmaEnd_getTimeHostReqNvmeDmaEnd {command now : Nat}
    (noEnd : ∀ other, (table.entry other).nvmeDmaEnd = 0) (other : Nat) :
    ((table.getTimeHostReqNvmeDmaEnd cmdSlotTag command now).entry other).nvmeDmaEnd = 0 := by
  have counted : ∀ other, ((table.countNvmeDmaEnd cmdSlotTag).entry other).nvmeDmaEnd = 0 := by
    intro other
    rw [entry_countNvmeDmaEnd]
    split <;> exact noEnd other
  unfold getTimeHostReqNvmeDmaEnd
  split
  · apply nvmeDmaEnd_bufferItemValue
    intro other different
    rw [entry_storeNvmeDmaEnd, if_neg different]
    exact counted other
  · exact counted other

theorem ends_getTimeHostReqNvmeDmaEnd (command now : Nat) :
    (table.getTimeHostReqNvmeDmaEnd cmdSlotTag command now).ends =
      if table.EndsAt cmdSlotTag then ⟨command, now⟩ :: table.ends else table.ends := by
  unfold getTimeHostReqNvmeDmaEnd
  split
  · rw [ends_bufferItemValue]
    rfl
  · rfl

end HostTimeTable
end RwRbuf.Firmware.Requests
