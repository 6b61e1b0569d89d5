import RwRbuf.Firmware.HostDma
import RwRbuf.Lib.Fallible

/-! # The registers of the auto DMA

The firmware sees the progress of the auto DMA through the byte of
`HOST_DMA_FIFO_CNT_REG` that the hardware counts up.  It keeps the tail as a byte of its own
and counts the wraps of this byte.  Along every run these registers are the numbers of
finished and issued commands, as far as they have bits for them, so that the answer for a
recorded tail is exact.
-/

namespace RwRbuf.Firmware.Requests

open Fallible

/-- One direction.  `fifoHead` is counted by the hardware; `fifoTail` and `overFlowCnt` belong
to the firmware.  Nobody sees `finished` and `issued`, the numbers of all commands. -/
structure DmaRegisters where
  fifoHead : BitVec 8
  fifoTail : BitVec 8
  overFlowCnt : BitVec 32
  finished : Nat
  issued : Nat
deriving DecidableEq, Repr

/-- What `IssueNvmeDmaReq` records in a request: the fields `reqTail` and `overFlowCnt`. -/
structure DmaRecord where
  reqTail : BitVec 8
  overFlowCnt : BitVec 32
deriving DecidableEq, Repr

namespace DmaRegisters

def reset : DmaRegisters := ⟨0, 0, 0, 0, 0⟩

variable (registers : DmaRegisters)

/-- The part that `set_auto_tx_dma` and `set_auto_rx_dma` share.  The value is `none` where
they wait for the hardware and where they stop on the assert. -/
def setAutoDma (cmd4KBOffset : Nat) : Option DmaRegisters :=
  if cmd4KBOffset < 256 ∧ registers.fifoTail + 1 ≠ registers.fifoHead then
    let fifoTail := registers.fifoTail + 1
    some { registers with
      fifoTail := fifoTail
      overFlowCnt :=
        if registers.fifoTail > fifoTail then registers.overFlowCnt + 1
        else registers.overFlowCnt
      issued := registers.issued + 1 }
  else none

def finish : Option DmaRegisters :=
  if registers.finished < registers.issued then
    some { registers with
      fifoHead := registers.fifoHead + 1
      finished := registers.finished + 1 }
  else none

def record : DmaRecord := ⟨registers.fifoTail, registers.overFlowCnt⟩

/-- The part that `check_auto_tx_dma_partial_done` and `check_auto_rx_dma_partial_done`
share. -/
def checkPartialDone (recorded : DmaRecord) : Bool :=
  checkAutoDmaPartialDone registers.fifoHead.toNat registers.fifoTail.toNat
    registers.overFlowCnt.toNat recorded.reqTail.toNat recorded.overFlowCnt.toNat

/-- The registers agree with the numbers of commands, of which at most 255 wait. -/
structure Counts : Prop where
  head : registers.fifoHead.toNat = registers.finished % 256
  tail : registers.fifoTail.toNat = registers.issued % 256
  wraps : registers.overFlowCnt.toNat = registers.issued / 256 % 2 ^ 32
  behind : registers.finished ≤ registers.issued
  room : registers.issued ≤ registers.finished + 255

variable {registers} {registers' : DmaRegisters}

theorem Counts.setAutoDma {cmd4KBOffset : Nat} (counts : registers.Counts)
    (issued : registers.setAutoDma cmd4KBOffset = some registers') : registers'.Counts := by
  obtain ⟨head, tail, wraps, behind, room⟩ := counts
  unfold DmaRegisters.setAutoDma at issued
  split at issued
  next free =>
    cases issued
    have notFull : registers.issued + 1 ≠ registers.finished + 256 := by
      intro full
      apply free.2
      bv_omega
    have next : (registers.fifoTail + 1).toNat = (registers.issued + 1) % 256 := by bv_omega
    constructor
    · exact head
    · exact next
    · show (if registers.fifoTail > registers.fifoTail + 1 then _ else _ : BitVec 32).toNat = _
      split
      next falls =>
        rw [gt_iff_lt, BitVec.lt_def, tail, next] at falls
        rw [BitVec.toNat_add, wraps]
        show (registers.issued / 256 % 2 ^ 32 + 1) % 2 ^ 32 = (registers.issued + 1) / 256 % 2 ^ 32
        omega
      next grows =>
        rw [gt_iff_lt, BitVec.lt_def, tail, next] at grows
        rw [wraps]
        show registers.issued / 256 % 2 ^ 32 = (registers.issued + 1) / 256 % 2 ^ 32
        omega
    · exact Nat.le_succ_of_le behind
    · show registers.issued + 1 ≤ registers.finished + 255
      omega
  · cases issued

theorem Counts.finish (counts : registers.Counts) (finished : registers.finish = some registers') :
    registers'.Counts := by
  obtain ⟨head, tail, wraps, behind, room⟩ := counts
  unfold DmaRegisters.finish at finished
  split at finished
  next waiting =>
    cases finished
    constructor
    · show (registers.fifoHead + 1).toNat = (registers.finished + 1) % 256
      bv_omega
    · exact tail
    · exact wraps
    · exact waiting
    · show registers.issued ≤ registers.finished + 1 + 255
      omega
  · cases finished

theorem Counts.reset : DmaRegisters.reset.Counts := by
  constructor <;> decide

/-- The answer for a record that is not newer than the registers. -/
theorem Counts.checkPartialDone_iff {recorded : DmaRegisters} (counts : registers.Counts)
    (recordedCounts : recorded.Counts) (older : recorded.issued ≤ registers.issued)
    (recent : registers.issued / 256 < recorded.issued / 256 + 2 ^ 32) :
    registers.checkPartialDone recorded.record = true ↔
      recorded.issued ≤ registers.finished := by
  -- the registers as those of a queue with as many commands
  let dma : AutoDma := ⟨List.replicate registers.issued ⟨0, 0, ⟨.dataBuf, 0⟩, 0, 0⟩,
    registers.finished⟩
  have issued : dma.issued = registers.issued := List.length_replicate ..
  have wellFormed : dma.WellFormed := by
    constructor
    · rw [issued]
      exact counts.behind
    · rw [issued]
      exact counts.room
  have same : registers.checkPartialDone recorded.record = dma.partialDone recorded.issued := by
    unfold checkPartialDone record AutoDma.partialDone AutoDma.fifoHead AutoDma.fifoTail
      AutoDma.overFlowCnt
    rw [counts.head, counts.tail, counts.wraps, recordedCounts.tail, recordedCounts.wraps, issued]
  rw [same]
  constructor
  · exact AutoDma.le_served_of_partialDone wellFormed (issued ▸ older)
  · intro passed
    exact AutoDma.partialDone_of_le_served wellFormed passed (issued ▸ recent)

end DmaRegisters

/-! ## Both directions -/

/-- What can happen: the firmware issues a command or the hardware finishes one. -/
inductive DmaEvent
  | issue (direction : Direction) (cmd4KBOffset : Nat)
  | finish (direction : Direction)

/-- The registers of both directions. -/
abbrev HostDmaStatus := Direction → DmaRegisters

namespace HostDmaStatus

def reset : HostDmaStatus := fun _ => .reset

variable (status : HostDmaStatus)

def update (direction : Direction) (registers : DmaRegisters) : HostDmaStatus :=
  Function.update status direction registers

def setAutoTxDma (cmd4KBOffset : Nat) : Option HostDmaStatus :=
  ((status .tx).setAutoDma cmd4KBOffset).map (status.update .tx)

def setAutoRxDma (cmd4KBOffset : Nat) : Option HostDmaStatus :=
  ((status .rx).setAutoDma cmd4KBOffset).map (status.update .rx)

def checkAutoTxDmaPartialDone (recorded : DmaRecord) : Bool :=
  (status .tx).checkPartialDone recorded

def checkAutoRxDmaPartialDone (recorded : DmaRecord) : Bool :=
  (status .rx).checkPartialDone recorded

def step : DmaEvent → Option HostDmaStatus
  | .issue .tx cmd4KBOffset => status.setAutoTxDma cmd4KBOffset
  | .issue .rx cmd4KBOffset => status.setAutoRxDma cmd4KBOffset
  | .finish direction => (status direction).finish.map (status.update direction)

/-- The runs of the firmware and the hardware. -/
abbrev Run : HostDmaStatus → HostDmaStatus → Prop :=
  Relation.ReflTransGen (EventStep step fun _ _ => True)

variable {status} {status' : HostDmaStatus} {event : DmaEvent}

theorem step_cases (taken : status.step event = some status') :
    ∃ direction registers', status' = status.update direction registers' ∧
      ((∃ cmd4KBOffset, (status direction).setAutoDma cmd4KBOffset = some registers') ∨
        (status direction).finish = some registers') := by
  cases event with
  | issue direction cmd4KBOffset =>
    cases direction with
    | rx =>
      obtain ⟨registers', issued, rfl⟩ := Option.map_eq_some_iff.1 taken
      exact ⟨.rx, registers', rfl, .inl ⟨cmd4KBOffset, issued⟩⟩
    | tx =>
      obtain ⟨registers', issued, rfl⟩ := Option.map_eq_some_iff.1 taken
      exact ⟨.tx, registers', rfl, .inl ⟨cmd4KBOffset, issued⟩⟩
  | finish direction =>
    obtain ⟨registers', finished, rfl⟩ := Option.map_eq_some_iff.1 taken
    exact ⟨direction, registers', rfl, .inr finished⟩

theorem counts_step (counts : ∀ direction, (status direction).Counts)
    (taken : status.step event = some status') (direction : Direction) :
    (status' direction).Counts ∧ (status direction).issued ≤ (status' direction).issued := by
  obtain ⟨changed, registers', rfl, change⟩ := step_cases taken
  by_cases same : direction = changed
  · subst same
    rw [update, Function.update_self]
    rcases change with ⟨cmd4KBOffset, issued⟩ | finished
    · refine ⟨(counts direction).setAutoDma issued, ?_⟩
      unfold DmaRegisters.setAutoDma at issued
      split at issued
      · cases issued
        exact Nat.le_succ _
      · cases issued
    · refine ⟨(counts direction).finish finished, ?_⟩
      unfold DmaRegisters.finish at finished
      split at finished
      · cases finished
        exact Nat.le_refl _
      · cases finished
  · rw [update, Function.update_of_ne same]
    exact ⟨counts direction, Nat.le_refl _⟩

theorem counts_run (counts : ∀ direction, (status direction).Counts) (run : Run status status')
    (direction : Direction) :
    (status' direction).Counts ∧ (status direction).issued ≤ (status' direction).issued := by
  induction run generalizing direction with
  | refl => exact ⟨counts direction, Nat.le_refl _⟩
  | tail _ last ih =>
    obtain ⟨event, _, taken⟩ := last
    have step := counts_step (fun direction => (ih direction).1) taken direction
    exact ⟨step.1, Nat.le_trans (ih direction).2 step.2⟩

/-- For every run, and every record that was made on the way fewer than 2 ^ 32 wraps ago, the
two checks answer whether the hardware has finished all commands issued up to the record. -/
theorem partialDone_exact {recorded : HostDmaStatus} (before : Run reset recorded)
    (after : Run recorded status) :
    ((status .tx).issued / 256 < (recorded .tx).issued / 256 + 2 ^ 32 →
        (status.checkAutoTxDmaPartialDone (recorded .tx).record = true ↔
          (recorded .tx).issued ≤ (status .tx).finished)) ∧
      ((status .rx).issued / 256 < (recorded .rx).issued / 256 + 2 ^ 32 →
        (status.checkAutoRxDmaPartialDone (recorded .rx).record = true ↔
          (recorded .rx).issued ≤ (status .rx).finished)) := by
  have recordedCounts := fun direction =>
    (counts_run (fun _ => DmaRegisters.Counts.reset) before direction).1
  have later := counts_run recordedCounts after
  constructor
  · exact (later .tx).1.checkPartialDone_iff (recordedCounts .tx) (later .tx).2
  · exact (later .rx).1.checkPartialDone_iff (recordedCounts .rx) (later .rx).2

/-- Two Rx commands are issued, and the hardware finishes the first one. -/
def twoCommands : HostDmaStatus :=
  Function.update reset .rx ⟨0, 2, 0, 0, 2⟩

def oneFinished : HostDmaStatus :=
  Function.update reset .rx ⟨1, 2, 0, 1, 2⟩

/-- The check for the second command answers that it is not done. -/
theorem partialDone_exact_twoCommands :
    Run reset twoCommands ∧ Run twoCommands oneFinished ∧
      (oneFinished.checkAutoRxDmaPartialDone (twoCommands .rx).record = true ↔ 2 ≤ 1) := by
  have before : Run reset twoCommands := by
    apply reaches_of_runEvents [.issue .rx 0, .issue .rx 1] (fun _ _ _ => trivial)
    refine congrArg some (funext ?_)
    rintro (_ | _) <;> decide
  have after : Run twoCommands oneFinished := by
    apply reaches_of_runEvents [.finish .rx] (fun _ _ _ => trivial)
    refine congrArg some (funext ?_)
    rintro (_ | _) <;> decide
  exact ⟨before, after, (partialDone_exact before after).2 (by decide)⟩

end HostDmaStatus
end RwRbuf.Firmware.Requests
