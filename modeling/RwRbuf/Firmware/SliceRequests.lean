import RwRbuf.Firmware.Geometry
import RwRbuf.Firmware.HostDma

/-! # From host commands to slice requests

`handle_nvme_io_read`, `handle_nvme_io_write` and `handle_nvme_io_write_read` cut the block
range of a command into slices of four 4 KB blocks.  A write-read command is cut twice, the
written range first.
-/

namespace RwRbuf.Firmware.Requests

inductive ReqType
  | slice
  | nvmeDma
  | nand
deriving DecidableEq, Repr

inductive ReqCode
  | write
  | read
  | erase
  | rxDma
  | txDma
deriving DecidableEq, Repr

/-- The two command codes that `ReqTransNvmeToSlice` accepts. -/
inductive CmdCode
  | write
  | read
deriving DecidableEq, Repr

namespace CmdCode

def reqCode : CmdCode → ReqCode
  | write => .write
  | read => .read

/-- The code that `ReqTransSliceToLowLevel` gives the request in place of `reqCode`. -/
def dmaCode : CmdCode → ReqCode
  | write => .rxDma
  | read => .txDma

end CmdCode

/-- A slice of a command.  `command` numbers the commands in the order of their arrival. -/
structure Slice where
  command : Nat
  nvmeCmdSlotTag : Nat
  customCmd : Bool
  code : CmdCode
  logicalSliceAddr : Nat
  startIndex : Nat
  nvmeBlockOffset : Nat
  numOfNvmeBlock : Nat
deriving DecidableEq, Repr

namespace Slice

/-- The slice has at least one block and stays inside its logical slice. -/
structure WellFormed (slice : Slice) : Prop where
  pos : 0 < slice.numOfNvmeBlock
  fits : slice.nvmeBlockOffset + slice.numOfNvmeBlock ≤ nvmeBlocksPerSlice

/-- Two slices of one command use its slot, and once a slice is read the later ones are
read too. -/
structure Follows (earlier later : Slice) : Prop where
  slot : earlier.nvmeCmdSlotTag = later.nvmeCmdSlotTag
  custom : earlier.customCmd = later.customCmd
  code : earlier.code = .read → later.code = .read

end Slice

/-- The loop of `ReqTransNvmeToSlice` over the whole slices, `count` of them. -/
def transformContinue (template : Slice) : Nat → Nat → Nat → List Slice
  | 0, _, _ => []
  | count + 1, lsa, startIndex =>
    { template with
      logicalSliceAddr := lsa
      startIndex := startIndex
      nvmeBlockOffset := 0
      numOfNvmeBlock := nvmeBlocksPerSlice } ::
    transformContinue template count (lsa + 1) (startIndex + nvmeBlocksPerSlice)

/-- `ReqTransNvmeToSlice`, as the list of slices that it puts into the slice queue. -/
def reqTransNvmeToSlice (command cmdSlotTag startLba nlb : Nat) (cmdCode : CmdCode)
    (customCmd : Bool) : List Slice :=
  let requestedNvmeBlock := nlb + 1
  let loop := (startLba % nvmeBlocksPerSlice + requestedNvmeBlock) / nvmeBlocksPerSlice
  let firstOffset := startLba % nvmeBlocksPerSlice
  let firstCount := if loop ≠ 0 then nvmeBlocksPerSlice - firstOffset else requestedNvmeBlock
  let first : Slice :=
    { command := command
      nvmeCmdSlotTag := cmdSlotTag
      customCmd := customCmd
      code := cmdCode
      logicalSliceAddr := startLba / nvmeBlocksPerSlice
      startIndex := 0
      nvmeBlockOffset := firstOffset
      numOfNvmeBlock := firstCount }
  let lastCount := (startLba + requestedNvmeBlock) % nvmeBlocksPerSlice
  let last : List Slice :=
    if lastCount = 0 ∨ loop = 0 then []
    else [{ first with
      logicalSliceAddr := first.logicalSliceAddr + loop
      startIndex := firstCount + (loop - 1) * nvmeBlocksPerSlice
      nvmeBlockOffset := 0
      numOfNvmeBlock := lastCount }]
  first :: transformContinue first (loop - 1) (first.logicalSliceAddr + 1) firstCount ++ last

structure Slice.Shares (slice : Slice) (command cmdSlotTag : Nat) (cmdCode : CmdCode)
    (customCmd : Bool) : Prop where
  command : slice.command = command
  slot : slice.nvmeCmdSlotTag = cmdSlotTag
  code : slice.code = cmdCode
  custom : slice.customCmd = customCmd

private theorem shares_of_mem_transformContinue {template slice : Slice} {command slot : Nat}
    {code : CmdCode} {custom : Bool} (shares : template.Shares command slot code custom) :
    ∀ {count lsa startIndex : Nat}, slice ∈ transformContinue template count lsa startIndex →
      slice.Shares command slot code custom ∧ slice.WellFormed := by
  intro count
  induction count with
  | zero =>
    intro lsa startIndex member
    cases member
  | succ count ih =>
    intro lsa startIndex member
    rcases List.mem_cons.1 member with rfl | later
    · refine ⟨⟨shares.command, shares.slot, shares.code, shares.custom⟩, ?_, Nat.le_refl _⟩
      exact Nat.succ_pos _
    · exact ih later

section Transform

variable {command cmdSlotTag startLba nlb : Nat} {cmdCode : CmdCode} {customCmd : Bool}

theorem shares_of_mem_reqTransNvmeToSlice {slice : Slice}
    (member : slice ∈ reqTransNvmeToSlice command cmdSlotTag startLba nlb cmdCode customCmd) :
    slice.Shares command cmdSlotTag cmdCode customCmd ∧ slice.WellFormed := by
  unfold reqTransNvmeToSlice nvmeBlocksPerSlice at member
  rw [List.cons_append, List.mem_cons, List.mem_append] at member
  rcases member with rfl | middle | last
  · refine ⟨⟨rfl, rfl, rfl, rfl⟩, ?_, ?_⟩
    · show 0 < ite _ _ _
      split <;> omega
    · show startLba % 4 + ite _ _ _ ≤ 4
      split <;> omega
  · exact shares_of_mem_transformContinue ⟨rfl, rfl, rfl, rfl⟩ middle
  · split at last
    · cases last
    next some =>
      rw [List.mem_singleton] at last
      subst last
      refine ⟨⟨rfl, rfl, rfl, rfl⟩, ?_, ?_⟩
      · show 0 < (startLba + (nlb + 1)) % 4
        omega
      · show 0 + (startLba + (nlb + 1)) % 4 ≤ 4
        omega

theorem reqTransNvmeToSlice_ne_nil :
    reqTransNvmeToSlice command cmdSlotTag startLba nlb cmdCode customCmd ≠ [] := by
  unfold reqTransNvmeToSlice
  simp

end Transform

/-- The I/O commands that reach `ReqTransNvmeToSlice`. -/
inductive NvmeIoCmd
  | read (cmdSlotTag startLba nlb : Nat)
  | write (cmdSlotTag startLba nlb : Nat)
  | writeRead (cmdSlotTag writeStartLba nlbWrite readStartLba nlbRead : Nat)
deriving DecidableEq, Repr

namespace NvmeIoCmd

def cmdSlotTag : NvmeIoCmd → Nat
  | read slot _ _ => slot
  | write slot _ _ => slot
  | writeRead slot _ _ _ _ => slot

def customCmd : NvmeIoCmd → Bool
  | read .. => false
  | write .. => false
  | writeRead .. => true

/-- The slices of the command with number `command`. -/
def slices (command : Nat) : NvmeIoCmd → List Slice
  | read slot startLba nlb => reqTransNvmeToSlice command slot startLba nlb .read false
  | write slot startLba nlb => reqTransNvmeToSlice command slot startLba nlb .write false
  | writeRead slot writeStartLba nlbWrite readStartLba nlbRead =>
    reqTransNvmeToSlice command slot writeStartLba nlbWrite .write true ++
      reqTransNvmeToSlice command slot readStartLba nlbRead .read true

/-- What the handlers check of a command: each range starts below the capacity.  The number
of blocks, a 16-bit field, is not checked. -/
def Accepted (capacity : Nat) : NvmeIoCmd → Prop
  | read _ startLba nlb => startLba < capacity ∧ nlb < 2 ^ 16
  | write _ startLba nlb => startLba < capacity ∧ nlb < 2 ^ 16
  | writeRead _ writeStartLba nlbWrite readStartLba nlbRead =>
    (writeStartLba < capacity ∧ nlbWrite < 2 ^ 16) ∧
      (readStartLba < capacity ∧ nlbRead < 2 ^ 16)

variable {command : Nat} {cmd : NvmeIoCmd}

theorem shares_of_mem_slices {slice : Slice} (member : slice ∈ cmd.slices command) :
    slice.command = command ∧ slice.nvmeCmdSlotTag = cmd.cmdSlotTag ∧
      slice.customCmd = cmd.customCmd ∧ slice.WellFormed := by
  cases cmd with
  | read slot startLba nlb | write slot startLba nlb =>
    obtain ⟨shares, wellFormed⟩ := shares_of_mem_reqTransNvmeToSlice member
    exact ⟨shares.command, shares.slot, shares.custom, wellFormed⟩
  | writeRead slot writeStartLba nlbWrite readStartLba nlbRead =>
    rcases List.mem_append.1 member with written | readBack
    · obtain ⟨shares, wellFormed⟩ := shares_of_mem_reqTransNvmeToSlice written
      exact ⟨shares.command, shares.slot, shares.custom, wellFormed⟩
    · obtain ⟨shares, wellFormed⟩ := shares_of_mem_reqTransNvmeToSlice readBack
      exact ⟨shares.command, shares.slot, shares.custom, wellFormed⟩

private theorem follows_of_shares {earlier later : Slice} {command slot : Nat}
    {code code' : CmdCode} {custom : Bool} (first : earlier.Shares command slot code custom)
    (second : later.Shares command slot code' custom) (codes : code = .read → code' = .read) :
    earlier.Follows later := by
  constructor
  · rw [first.slot, second.slot]
  · rw [first.custom, second.custom]
  · rw [first.code, second.code]
    exact codes

private theorem pairwise_transform (command slot startLba nlb : Nat) (code : CmdCode)
    (custom : Bool) :
    (reqTransNvmeToSlice command slot startLba nlb code custom).Pairwise Slice.Follows :=
  List.pairwise_of_forall_mem_list fun _ first _ second =>
    follows_of_shares (shares_of_mem_reqTransNvmeToSlice first).1
      (shares_of_mem_reqTransNvmeToSlice second).1 id

/-- The written slices of a command come before the slices that are read. -/
theorem slices_pairwise : (cmd.slices command).Pairwise Slice.Follows := by
  cases cmd with
  | read slot startLba nlb | write slot startLba nlb => exact pairwise_transform ..
  | writeRead slot writeStartLba nlbWrite readStartLba nlbRead =>
    refine List.pairwise_append.2 ⟨pairwise_transform .., pairwise_transform .., ?_⟩
    intro earlier written later readBack
    exact follows_of_shares (shares_of_mem_reqTransNvmeToSlice written).1
      (shares_of_mem_reqTransNvmeToSlice readBack).1 fun _ => rfl

end NvmeIoCmd
end RwRbuf.Firmware.Requests
