import Mathlib.Data.Fintype.Card
import RwRbuf.Firmware.SliceRequests

/-! # The slices of a command tile its blocks

`ReqTransNvmeToSlice` computes with 32-bit numbers and stores three of its values in 16-bit
fields.  Here it is written with these widths.  It makes the same slices as the version over
the natural numbers, so nothing wraps and nothing is cut off, and the blocks of the slices
are the blocks of the command, one after another.

Each slice takes a slot of the request pool.  None of them is given back before the function
returns, so a command with more slices than the pool has slots is never cut to its end.
-/

namespace RwRbuf.Firmware.Requests

/-- The values of a slice request as `ReqTransNvmeToSlice` computes them. -/
structure SliceValues where
  logicalSliceAddr : BitVec 32
  startIndex : BitVec 32
  nvmeBlockOffset : BitVec 32
  numOfNvmeBlock : BitVec 32
deriving DecidableEq, Repr

/-- The fields of a slice request; those of `NVME_DMA_INFO` have 16 bits. -/
structure SliceFields where
  logicalSliceAddr : BitVec 32
  startIndex : BitVec 16
  nvmeBlockOffset : BitVec 16
  numOfNvmeBlock : BitVec 16
deriving DecidableEq, Repr

def SliceValues.store (values : SliceValues) : SliceFields where
  logicalSliceAddr := values.logicalSliceAddr
  startIndex := values.startIndex.setWidth 16
  nvmeBlockOffset := values.nvmeBlockOffset.setWidth 16
  numOfNvmeBlock := values.numOfNvmeBlock.setWidth 16

/-- The loop over the whole slices, with the values of `tempLsa` and `nvmeDmaStartIndex` after
it. -/
def transformLoop (loop transCounter tempLsa nvmeDmaStartIndex : BitVec 32) :
    List SliceValues × BitVec 32 × BitVec 32 :=
  if transCounter < loop then
    let rest := transformLoop loop (transCounter + 1) (tempLsa + 1) (nvmeDmaStartIndex + 4)
    (⟨tempLsa, nvmeDmaStartIndex, 0, 4⟩ :: rest.1, rest.2)
  else ([], tempLsa, nvmeDmaStartIndex)
termination_by loop.toNat - transCounter.toNat
decreasing_by
  bv_omega

/-- `ReqTransNvmeToSlice` with its widths: the values of the requests that it puts into the
slice queue, for the 16-bit field `NLB` of a command. -/
def transNvmeToSlice (startLba : BitVec 32) (nlb : BitVec 16) : List SliceValues :=
  let requestedNvmeBlock := nlb.setWidth 32 + 1
  let tempLsa := startLba / 4
  let loop := (startLba % 4 + requestedNvmeBlock) / 4
  let nvmeBlockOffset := startLba % 4
  let tempNumOfNvmeBlock := if loop ≠ 0 then 4 - nvmeBlockOffset else requestedNvmeBlock
  let whole := transformLoop loop 1 (tempLsa + 1) (0 + tempNumOfNvmeBlock)
  let lastNumOfNvmeBlock := (startLba + requestedNvmeBlock) % 4
  ⟨tempLsa, 0, nvmeBlockOffset, tempNumOfNvmeBlock⟩ :: whole.1 ++
    if lastNumOfNvmeBlock = 0 ∨ loop = 0 then []
    else [⟨whole.2.1, whole.2.2, 0, lastNumOfNvmeBlock⟩]

/-- The slice queue after `ReqTransNvmeToSlice`.  `slots` are the slots that
`GetFromFreeReqQ` finds for the slices, those that other requests give back during the call
included.  The value is `none` if it does not return. -/
def queueSlices {Tag : Type} : List SliceValues → List Tag → Option (List (Tag × SliceFields))
  | [], _ => some []
  | values :: rest, reqSlotTag :: slots =>
    (queueSlices rest slots).map fun queued => (reqSlotTag, values.store) :: queued
  -- the free queue is empty, and `SyncAvailFreeReq` waits
  | _ :: _, [] => none

structure SliceNumbers where
  logicalSliceAddr : Nat
  startIndex : Nat
  nvmeBlockOffset : Nat
  numOfNvmeBlock : Nat

def Slice.numbers (slice : Slice) : SliceNumbers :=
  ⟨slice.logicalSliceAddr, slice.startIndex, slice.nvmeBlockOffset, slice.numOfNvmeBlock⟩

def SliceValues.numbers (values : SliceValues) : SliceNumbers :=
  ⟨values.logicalSliceAddr.toNat, values.startIndex.toNat, values.nvmeBlockOffset.toNat,
    values.numOfNvmeBlock.toNat⟩

def SliceFields.numbers (fields : SliceFields) : SliceNumbers :=
  ⟨fields.logicalSliceAddr.toNat, fields.startIndex.toNat, fields.nvmeBlockOffset.toNat,
    fields.numOfNvmeBlock.toNat⟩

/-! ## The blocks of the slices -/

/-- The blocks of a slice, each with its LBA and its index in the DMA transfer. -/
def SliceNumbers.blocks (numbers : SliceNumbers) : List (Nat × Nat) :=
  (List.range numbers.numOfNvmeBlock).map fun index =>
    (nvmeBlocksPerSlice * numbers.logicalSliceAddr + numbers.nvmeBlockOffset + index,
      numbers.startIndex + index)

/-- `count` blocks from `lba` on, with their indices from `index` on. -/
def blockRun (lba index count : Nat) : List (Nat × Nat) :=
  (List.range count).map fun step => (lba + step, index + step)

theorem SliceNumbers.blocks_eq (numbers : SliceNumbers) {lba : Nat}
    (place : lba = nvmeBlocksPerSlice * numbers.logicalSliceAddr + numbers.nvmeBlockOffset) :
    numbers.blocks = blockRun lba numbers.startIndex numbers.numOfNvmeBlock := by
  rw [place]
  rfl

theorem blockRun_append (lba index first second : Nat) :
    blockRun lba index first ++ blockRun (lba + first) (index + first) second =
      blockRun lba index (first + second) := by
  unfold blockRun
  rw [List.range_add, List.map_append, List.map_map]
  simp only [Function.comp_def, Nat.add_assoc]

theorem blocks_transformContinue (template : Slice) (count lsa startIndex : Nat) :
    (transformContinue template count lsa startIndex).flatMap (·.numbers.blocks) =
      blockRun (nvmeBlocksPerSlice * lsa) startIndex (nvmeBlocksPerSlice * count) := by
  induction count generalizing lsa startIndex with
  | zero => rfl
  | succ count ih =>
    have length : nvmeBlocksPerSlice * (count + 1) =
        nvmeBlocksPerSlice + nvmeBlocksPerSlice * count := by
      rw [Nat.mul_succ, Nat.add_comm]
    rw [transformContinue, List.flatMap_cons, ih, length, ← blockRun_append]
    rfl

theorem blocks_reqTransNvmeToSlice (command cmdSlotTag startLba nlb : Nat) (cmdCode : CmdCode)
    (customCmd : Bool) :
    (reqTransNvmeToSlice command cmdSlotTag startLba nlb cmdCode customCmd).flatMap
      (·.numbers.blocks) = blockRun startLba 0 (nlb + 1) := by
  unfold reqTransNvmeToSlice
  simp only [List.flatMap_append, List.flatMap_cons, blocks_transformContinue]
  have start : startLba = 4 * (startLba / 4) + startLba % 4 := by omega
  by_cases inside : (startLba % 4 + (nlb + 1)) / 4 = 0
  · -- the range lies inside one slice
    simp only [inside, or_true, if_true, ne_eq, not_true_eq_false, if_false, Nat.zero_sub,
      List.flatMap_nil, List.append_nil, Nat.mul_zero]
    rw [SliceNumbers.blocks_eq _ start]
    exact List.append_nil _
  · generalize loop_eq : (startLba % 4 + (nlb + 1)) / 4 = loop at inside
    have head : startLba + (4 - startLba % 4) = 4 * (startLba / 4 + 1) := by omega
    have middle : startLba + (4 - startLba % 4 + 4 * (loop - 1)) =
        4 * (startLba / 4 + loop) := by omega
    have joined := blockRun_append startLba 0 (4 - startLba % 4) (4 * (loop - 1))
    simp only [inside, or_false, ne_eq, not_false_eq_true, if_true]
    rw [SliceNumbers.blocks_eq _ start, ← head]
    rw [Nat.zero_add] at joined
    show blockRun startLba 0 (4 - startLba % 4) ++ _ ++ _ = _
    rw [joined]
    split
    next none =>
      replace none : (startLba + (nlb + 1)) % 4 = 0 := none
      have all : 4 - startLba % 4 + 4 * (loop - 1) = nlb + 1 := by omega
      rw [all]
      exact List.append_nil _
    next some =>
      have all : 4 - startLba % 4 + 4 * (loop - 1) + (startLba + (nlb + 1)) % 4 = nlb + 1 := by
        omega
      have last := blockRun_append startLba 0 (4 - startLba % 4 + 4 * (loop - 1))
        ((startLba + (nlb + 1)) % 4)
      rw [middle, all, Nat.zero_add] at last
      rw [← last, List.flatMap_singleton, Nat.mul_comm (loop - 1)]
      rfl

/-! ## The widths

Nothing wraps: the LBA has 32 bits, the slice number has two bits less, and the number of
blocks is at most 2 ^ 16.
-/

/-- The loop makes the same slices as the loop over the natural numbers. -/
theorem transformLoop_eq (template : Slice) {count : Nat}
    {loop transCounter tempLsa nvmeDmaStartIndex : BitVec 32}
    (rounds : transCounter.toNat + count = loop.toNat) (lsaFits : tempLsa.toNat + count < 2 ^ 32)
    (indexFits : nvmeDmaStartIndex.toNat + 4 * count < 2 ^ 32) :
    (transformLoop loop transCounter tempLsa nvmeDmaStartIndex).1.map SliceValues.numbers =
        (transformContinue template count tempLsa.toNat nvmeDmaStartIndex.toNat).map
          Slice.numbers ∧
      (transformLoop loop transCounter tempLsa nvmeDmaStartIndex).2.1.toNat =
        tempLsa.toNat + count ∧
      (transformLoop loop transCounter tempLsa nvmeDmaStartIndex).2.2.toNat =
        nvmeDmaStartIndex.toNat + 4 * count := by
  induction count generalizing transCounter tempLsa nvmeDmaStartIndex with
  | zero =>
    have done : ¬transCounter < loop := by bv_omega
    rw [transformLoop, if_neg done]
    exact ⟨rfl, rfl, rfl⟩
  | succ count ih =>
    have more : transCounter < loop := by bv_omega
    have lsa : (tempLsa + 1).toNat = tempLsa.toNat + 1 := by bv_omega
    have index : (nvmeDmaStartIndex + 4).toNat = nvmeDmaStartIndex.toNat + 4 := by bv_omega
    have counter : (transCounter + 1).toNat = transCounter.toNat + 1 := by bv_omega
    obtain ⟨same, lastLsa, lastIndex⟩ := ih (by rw [counter]; omega)
      (by rw [lsa]; omega) (by rw [index]; omega)
    rw [transformLoop, if_pos more, transformContinue]
    refine ⟨?_, ?_, ?_⟩
    · rw [lsa, index] at same
      simp only [List.map_cons, same]
      rfl
    · rw [lastLsa, lsa]
      omega
    · rw [lastIndex, index]
      omega

/-- With its widths the function makes the slices that it makes over the natural numbers. -/
theorem transNvmeToSlice_eq (command cmdSlotTag : Nat) (startLba : BitVec 32)
    (nlb : BitVec 16) (cmdCode : CmdCode) (customCmd : Bool) :
    (transNvmeToSlice startLba nlb).map SliceValues.numbers =
      (reqTransNvmeToSlice command cmdSlotTag startLba.toNat nlb.toNat cmdCode customCmd).map
        Slice.numbers := by
  have few := nlb.isLt
  have wide := startLba.isLt
  have requested : (nlb.setWidth 32 + 1).toNat = nlb.toNat + 1 := by bv_omega
  have lsa : (startLba / 4).toNat = startLba.toNat / 4 := BitVec.toNat_udiv
  have offset : (startLba % 4).toNat = startLba.toNat % 4 := BitVec.toNat_umod
  have total : (startLba % 4 + (nlb.setWidth 32 + 1)).toNat =
      startLba.toNat % 4 + (nlb.toNat + 1) := by
    rw [BitVec.toNat_add, offset, requested]
    omega
  have loop : ((startLba % 4 + (nlb.setWidth 32 + 1)) / 4).toNat =
      (startLba.toNat % 4 + (nlb.toNat + 1)) / 4 := by
    rw [BitVec.toNat_udiv, total]
    rfl
  have last : ((startLba + (nlb.setWidth 32 + 1)) % 4).toNat =
      (startLba.toNat + (nlb.toNat + 1)) % 4 := by
    rw [BitVec.toNat_umod, BitVec.toNat_add, requested]
    show (startLba.toNat + (nlb.toNat + 1)) % 2 ^ 32 % 4 = _
    omega
  unfold transNvmeToSlice reqTransNvmeToSlice
  dsimp only
  generalize (startLba % 4 + (nlb.setWidth 32 + 1)) / 4 = loop32 at loop
  generalize (startLba + (nlb.setWidth 32 + 1)) % 4 = last32 at last
  have lastZero : last32 = 0 ↔ (startLba.toNat + (nlb.toNat + 1)) % 4 = 0 := by
    rw [← last, BitVec.toNat_eq]
    rfl
  have loopZero : loop32 = 0 ↔ (startLba.toNat % 4 + (nlb.toNat + 1)) / 4 = 0 := by
    rw [← loop, BitVec.toNat_eq]
    rfl
  by_cases inside : loop32 = 0
  · have none := loopZero.1 inside
    have noRound : ¬(1 : BitVec 32) < 0 := by decide
    rw [transformLoop, inside, if_neg noRound]
    simp only [none, ne_eq, not_true_eq_false, if_false, or_true, if_true]
    show [SliceValues.numbers _] = [Slice.numbers _]
    simp only [SliceValues.numbers, Slice.numbers, lsa, offset, requested]
    rfl
  · have some : ¬(startLba.toNat % 4 + (nlb.toNat + 1)) / 4 = 0 := mt loopZero.2 inside
    have firstCount : (4 - startLba % 4).toNat = 4 - startLba.toNat % 4 := by
      rw [BitVec.toNat_sub, offset]
      show (2 ^ 32 - startLba.toNat % 4 + 4) % 2 ^ 32 = _
      omega
    have index : (0 + (4 - startLba % 4)).toNat = 4 - startLba.toNat % 4 := by
      rw [BitVec.toNat_add, firstCount]
      show (0 + (4 - startLba.toNat % 4)) % 2 ^ 32 = _
      omega
    have next : (startLba / 4 + 1).toNat = startLba.toNat / 4 + 1 := by
      rw [BitVec.toNat_add, lsa]
      show (startLba.toNat / 4 + 1) % 2 ^ 32 = _
      omega
    have rounds : (1 : BitVec 32).toNat +
        ((startLba.toNat % 4 + (nlb.toNat + 1)) / 4 - 1) = loop32.toNat := by
      rw [loop]
      exact Nat.add_sub_cancel' (Nat.pos_of_ne_zero some)
    obtain ⟨whole, lastLsa, lastIndex⟩ := transformLoop_eq
      { command := command
        nvmeCmdSlotTag := cmdSlotTag
        customCmd := customCmd
        code := cmdCode
        logicalSliceAddr := startLba.toNat / 4
        startIndex := 0
        nvmeBlockOffset := startLba.toNat % 4
        numOfNvmeBlock := 4 - startLba.toNat % 4 } rounds
      (by rw [next]; omega) (by rw [index]; omega)
    rw [next, index] at whole
    rw [next] at lastLsa
    rw [index] at lastIndex
    simp only [inside, some, ne_eq, not_false_eq_true, if_true, or_false, List.cons_append,
      List.map_cons, List.map_append, whole]
    congr 1
    · simp only [SliceValues.numbers, Slice.numbers, lsa, offset, firstCount]
      rfl
    · congr 1
      have address : startLba.toNat / 4 + 1 + ((startLba.toNat % 4 + (nlb.toNat + 1)) / 4 - 1) =
          startLba.toNat / 4 + (startLba.toNat % 4 + (nlb.toNat + 1)) / 4 := by omega
      by_cases empty : last32 = 0
      · rw [if_pos empty, if_pos (lastZero.1 empty)]
        rfl
      · rw [if_neg empty, if_neg (mt lastZero.2 empty)]
        simp only [List.map_cons, List.map_nil, SliceValues.numbers, Slice.numbers, lastLsa,
          lastIndex, last]
        rw [address, Nat.mul_comm 4]
        rfl

section Values

variable {startLba : BitVec 32} {nlb : BitVec 16} {values : SliceValues}

theorem blocks_transNvmeToSlice (startLba : BitVec 32) (nlb : BitVec 16) :
    ((transNvmeToSlice startLba nlb).flatMap fun values => values.numbers.blocks) =
      blockRun startLba.toNat 0 (nlb.toNat + 1) := by
  rw [← blocks_reqTransNvmeToSlice 0 0 startLba.toNat nlb.toNat .read false,
    ← List.flatMap_map Slice.numbers, ← transNvmeToSlice_eq, List.flatMap_map]

/-- A block of a request is a block of the command, and its index is the distance from the
start. -/
theorem values_place (member : values ∈ transNvmeToSlice startLba nlb) {lba index : Nat}
    (block : (lba, index) ∈ values.numbers.blocks) :
    startLba.toNat + index = lba ∧ index < nlb.toNat + 1 := by
  have inRun : (lba, index) ∈ blockRun startLba.toNat 0 (nlb.toNat + 1) := by
    rw [← blocks_transNvmeToSlice]
    exact List.mem_flatMap.2 ⟨values, member, block⟩
  obtain ⟨step, small, same⟩ := List.mem_map.1 inRun
  rw [List.mem_range] at small
  obtain ⟨rfl, rfl⟩ := Prod.mk.inj same
  rw [Nat.zero_add]
  exact ⟨rfl, small⟩

theorem values_bounds (member : values ∈ transNvmeToSlice startLba nlb) :
    values.numbers.startIndex < 2 ^ 16 ∧ 0 < values.numbers.numOfNvmeBlock ∧
      values.numbers.nvmeBlockOffset + values.numbers.numOfNvmeBlock ≤ nvmeBlocksPerSlice := by
  have numbered := List.mem_map_of_mem (f := SliceValues.numbers) member
  rw [transNvmeToSlice_eq 0 0 startLba nlb .read false] at numbered
  obtain ⟨slice, sliced, same⟩ := List.mem_map.1 numbered
  have wellFormed := (shares_of_mem_reqTransNvmeToSlice sliced).2
  rw [← same]
  refine ⟨?_, wellFormed.pos, wellFormed.fits⟩
  have first : (nvmeBlocksPerSlice * values.numbers.logicalSliceAddr +
      values.numbers.nvmeBlockOffset + 0, values.numbers.startIndex + 0) ∈
      values.numbers.blocks := by
    apply List.mem_map_of_mem
    rw [List.mem_range, ← same]
    exact wellFormed.pos
  have bound := (values_place member first).2
  have few := nlb.isLt
  rw [same]
  omega

theorem SliceValues.store_numbers (values : SliceValues)
    (index : values.numbers.startIndex < 2 ^ 16) (offset : values.numbers.nvmeBlockOffset < 2 ^ 16)
    (count : values.numbers.numOfNvmeBlock < 2 ^ 16) : values.store.numbers = values.numbers := by
  unfold SliceValues.numbers at index offset count
  unfold SliceValues.store SliceFields.numbers SliceValues.numbers
  simp only [BitVec.toNat_setWidth, Nat.mod_eq_of_lt index, Nat.mod_eq_of_lt offset,
    Nat.mod_eq_of_lt count]

theorem store_numbers_of_mem (member : values ∈ transNvmeToSlice startLba nlb) :
    values.store.numbers = values.numbers := by
  obtain ⟨index, _, fits⟩ := values_bounds member
  replace fits : values.numbers.nvmeBlockOffset + values.numbers.numOfNvmeBlock ≤ 4 := fits
  exact values.store_numbers index (by omega) (by omega)

theorem blocks_stored (startLba : BitVec 32) (nlb : BitVec 16) :
    ((transNvmeToSlice startLba nlb).flatMap fun values => values.store.numbers.blocks) =
      blockRun startLba.toNat 0 (nlb.toNat + 1) := by
  rw [← blocks_transNvmeToSlice]
  apply List.flatMap_congr
  intro values member
  rw [store_numbers_of_mem member]

end Values

/-! ## The slots of the slices -/

theorem length_transformContinue (template : Slice) (count lsa startIndex : Nat) :
    (transformContinue template count lsa startIndex).length = count := by
  induction count generalizing lsa startIndex with
  | zero => rfl
  | succ count ih => rw [transformContinue, List.length_cons, ih]

theorem length_transNvmeToSlice (startLba : BitVec 32) (nlb : BitVec 16) :
    (transNvmeToSlice startLba nlb).length =
      (startLba.toNat % nvmeBlocksPerSlice + nlb.toNat) / nvmeBlocksPerSlice + 1 := by
  have same := congrArg List.length (transNvmeToSlice_eq 0 0 startLba nlb .read false)
  rw [List.length_map, List.length_map] at same
  rw [same, reqTransNvmeToSlice]
  simp only [List.cons_append, List.length_cons, List.length_append, length_transformContinue,
    nvmeBlocksPerSlice]
  split
  · rw [List.length_nil]
    omega
  · rw [List.length_singleton]
    omega

theorem queueSlices_eq {Tag : Type} (values : List SliceValues) (slots : List Tag) :
    queueSlices values slots =
      if values.length ≤ slots.length then
        some ((slots.take values.length).zip (values.map SliceValues.store))
      else none := by
  induction values generalizing slots with
  | nil => simp [queueSlices]
  | cons first rest ih =>
    cases slots with
    | nil => rfl
    | cons reqSlotTag slots =>
      rw [queueSlices, ih]
      simp only [List.length_cons, Nat.add_le_add_iff_right]
      split <;> rfl

end RwRbuf.Firmware.Requests
