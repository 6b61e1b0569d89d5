import Mathlib.Algebra.Group.Nat.Defs
import Mathlib.Data.List.Basic

/-! # The host DMA engine

Each direction of the auto DMA is a queue of 4 KB commands that the engine serves in
order.  The firmware sees it through an 8-bit head and tail and a 32-bit counter of the
wraps of the tail; it lets at most 255 commands wait.  `checkAutoDmaPartialDone` compares
these with the tail that a request recorded when it was issued.
-/

namespace RwRbuf.Firmware.Requests

inductive Direction
  | rx
  | tx
deriving DecidableEq, Repr

/-- The data buffer, the buffer of the custom command and the temporary buffer of the
garbage collector. -/
inductive BufferKind
  | dataBuf
  | ccmdDataBuf
  | tempDataBuf
deriving DecidableEq, Repr

structure BufferRef where
  kind : BufferKind
  entry : Nat
deriving DecidableEq, Repr

/-- One 4 KB transfer between block `cmd4KBOffset` of the host's buffer and a block of a
buffer entry.  `sliceNo` says for which slice it is made; the engine does not see it. -/
structure DmaCommand where
  cmdSlotTag : Nat
  cmd4KBOffset : Nat
  target : BufferRef
  block : Nat
  sliceNo : Nat
deriving DecidableEq, Repr

/-- One direction: every command ever issued, in order, and how many the engine has
served. -/
structure AutoDma where
  fifo : List DmaCommand
  served : Nat
deriving DecidableEq, Repr

/-- `check_auto_tx_dma_partial_done` and `check_auto_rx_dma_partial_done` on the registers
they read. -/
def checkAutoDmaPartialDone (fifoHead fifoTail overFlowCnt tailIndex tailAssistIndex : Nat) :
    Bool :=
  if fifoHead = fifoTail then true
  else if fifoHead < tailIndex then
    if fifoTail < tailIndex then
      if fifoTail > fifoHead then true
      else overFlowCnt != (tailAssistIndex + 1) % 2 ^ 32
    else overFlowCnt != tailAssistIndex
  else if fifoHead = tailIndex then true
  else if fifoTail < tailIndex then true
  else if fifoTail > fifoHead then true
  else overFlowCnt != tailAssistIndex

namespace AutoDma

variable (dma : AutoDma)

def issued : Nat := dma.fifo.length

def fifoHead : Nat := dma.served % 256

def fifoTail : Nat := dma.issued % 256

def overFlowCnt : Nat := dma.issued / 256 % 2 ^ 32

/-- The commands are accepted while at most 255 wait, and `set_auto_tx_dma` and
`set_auto_rx_dma` require a block offset below 256. -/
def accepts (commands : List DmaCommand) : Prop :=
  dma.issued + commands.length ≤ dma.served + 255 ∧
    ∀ command ∈ commands, command.cmd4KBOffset < 256

instance (commands : List DmaCommand) : Decidable (dma.accepts commands) :=
  inferInstanceAs (Decidable (_ ∧ _))

def issue (commands : List DmaCommand) : AutoDma :=
  { dma with fifo := dma.fifo ++ commands }

/-- The answer of the engine for a request that recorded the tail after `tailCount`
commands. -/
def partialDone (tailCount : Nat) : Bool :=
  checkAutoDmaPartialDone dma.fifoHead dma.fifoTail dma.overFlowCnt (tailCount % 256)
    (tailCount / 256 % 2 ^ 32)

/-- The engine never runs ahead of the firmware and never has more than 255 commands
waiting. -/
structure WellFormed : Prop where
  served : dma.served ≤ dma.issued
  room : dma.issued ≤ dma.served + 255

variable {dma}

/-- A positive answer means that the engine has passed the recorded tail. -/
theorem le_served_of_partialDone (wellFormed : dma.WellFormed) {tailCount : Nat}
    (recorded : tailCount ≤ dma.issued) (done : dma.partialDone tailCount = true) :
    tailCount ≤ dma.served := by
  by_contra waiting
  have served := wellFormed.served
  have room := wellFormed.room
  have answer : dma.partialDone tailCount = false := by
    unfold partialDone checkAutoDmaPartialDone fifoHead fifoTail overFlowCnt
    have headTail : dma.served % 256 ≠ dma.issued % 256 := by omega
    rw [if_neg headTail]
    split
    · split
      -- the tail has wrapped since the record
      · rw [if_neg (by omega)]
        have wraps : dma.issued / 256 = tailCount / 256 + 1 := by omega
        rw [wraps]
        simp
      · have wraps : dma.issued / 256 = tailCount / 256 := by omega
        rw [wraps]
        simp
    · rw [if_neg (by omega), if_neg (by omega), if_neg (by omega)]
      have wraps : dma.issued / 256 = tailCount / 256 := by omega
      rw [wraps]
      simp
  rw [answer] at done
  cases done

/-- A record with fewer than 2 ^ 32 wraps since it was made gets a positive answer once the
engine has passed it. -/
theorem partialDone_of_le_served (wellFormed : dma.WellFormed) {tailCount : Nat}
    (passed : tailCount ≤ dma.served) (recent : dma.issued / 256 < tailCount / 256 + 2 ^ 32) :
    dma.partialDone tailCount = true := by
  have served := wellFormed.served
  have room := wellFormed.room
  unfold partialDone checkAutoDmaPartialDone fifoHead fifoTail overFlowCnt
  split
  · rfl
  · split
    · split
      · split
        · rfl
        · -- the head is one wrap behind the tail and the record one more behind the head
          have wraps : dma.issued / 256 ≥ tailCount / 256 + 2 := by omega
          rw [bne_iff_ne]
          omega
      · have wraps : dma.issued / 256 ≥ tailCount / 256 + 1 := by omega
        rw [bne_iff_ne]
        omega
    · split
      · rfl
      · split
        · rfl
        · split
          · rfl
          · have wraps : dma.issued / 256 ≥ tailCount / 256 + 1 := by omega
            rw [bne_iff_ne]
            omega

theorem WellFormed.issue {commands : List DmaCommand} (wellFormed : dma.WellFormed)
    (accepted : dma.accepts commands) : (dma.issue commands).WellFormed := by
  have served := wellFormed.served
  constructor
  · show dma.served ≤ (dma.fifo ++ commands).length
    rw [List.length_append]
    exact Nat.le_add_right_of_le served
  · show (dma.fifo ++ commands).length ≤ dma.served + 255
    rw [List.length_append]
    exact accepted.1

end AutoDma
end RwRbuf.Firmware.Requests
