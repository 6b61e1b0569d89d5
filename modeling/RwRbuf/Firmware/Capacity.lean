import Mathlib.Algebra.Order.BigOperators.Group.Finset
import RwRbuf.Firmware.DieExhaustion
import RwRbuf.Firmware.RowAddress
import RwRbuf.Firmware.SliceTiling

/-! # The advertised capacity

`InitFTL` subtracts the withheld space from the space of the device in unsigned 32-bit
arithmetic.  With few bad blocks the difference is exact, it is covered by the usable blocks,
and what is withheld keeps every slice of an accepted command on the device.  With many bad
blocks on one die the difference wraps and the device advertises terabytes.
-/

namespace RwRbuf.Firmware

/-- The capacity in NVMe blocks without the limits of 32 bits. -/
def exactCapacity (geo : Geometry) (bad : Nat → Nat → Bool) : Int :=
  ((geo.userBlocksPerSsd * geo.mbPerBlock : Nat) -
      (geo.userDies * geo.mbPerBlock + maxBadBlockCount geo bad * geo.userDies * geo.mbPerBlock +
        geo.userBlocksPerSsd / 10 * geo.mbPerBlock : Nat)) * 256

/-- The slices of the virtual blocks that `InitBlockMap` does not mark bad. -/
def usableSlices (geo : Geometry) (bad : Nat → Nat → Bool) : Nat :=
  (∑ dieNo ∈ Finset.range geo.userDies, (AddressMap.usableBlocks geo
    (DieMap.initBlockMap geo (startUpBad bad dieNo) (startUpPhyBlock geo bad dieNo))).card) *
      geo.userPagesPerBlock

/-- The capacity is the exact difference, usable blocks cover it, and the slices of accepted
commands have addresses that `AddrTransRead` and `AddrTransWrite` accept. -/
structure CapacitySound (geo : Geometry) (bad : Nat → Nat → Bool) : Prop where
  exact : (storageCapacity geo bad : Int) = exactCapacity geo bad
  covered : storageCapacity geo bad ≤ usableSlices geo bad * nvmeBlocksPerSlice
  inRange : ∀ (cmd : Requests.NvmeIoCmd) (command : Nat), cmd.Accepted (storageCapacity geo bad) →
    ∀ slice ∈ cmd.slices command, slice.logicalSliceAddr < geo.slicesPerSsd

/-! ## Bad blocks of the dies -/

private theorem foldl_max_le {count : Nat → Nat} {bound : Nat} (dies : List Nat) :
    ∀ start, dies.foldl (fun most dieNo => if most < count dieNo then count dieNo else most) start ≤
        bound ↔ start ≤ bound ∧ ∀ dieNo ∈ dies, count dieNo ≤ bound := by
  induction dies with
  | nil =>
    intro start
    simp
  | cons dieNo dies ih =>
    intro start
    rw [List.foldl_cons, ih, List.forall_mem_cons, ← and_assoc]
    apply and_congr_left'
    split <;> omega

section BadBlocks

variable {geo : Geometry} {bad : Nat → Nat → Bool}

theorem maxBadBlockCount_le {bound : Nat} :
    maxBadBlockCount geo bad ≤ bound ↔
      ∀ dieNo < geo.userDies, unreplacedBlocks geo (startUpBad bad dieNo) ≤ bound := by
  rw [maxBadBlockCount, foldl_max_le]
  simp only [zero_le, true_and, List.mem_range, badBlockCount_eq_unreplacedBlocks]

theorem card_usableBlocks_add (geo : Geometry) (bad : Nat → Nat → Bool) (dieNo : Nat) :
    (AddressMap.usableBlocks geo (DieMap.initBlockMap geo (startUpBad bad dieNo)
        (startUpPhyBlock geo bad dieNo))).card +
      (remapBadBlock geo (startUpBad bad dieNo)).badBlockCount = geo.userBlocksPerDie := by
  have good : (AddressMap.usableBlocks geo (DieMap.initBlockMap geo (startUpBad bad dieNo)
        (startUpPhyBlock geo bad dieNo))).card =
      (List.range geo.userBlocksPerDie).countP fun virtualBlockNo =>
        ¬ startUpBad bad dieNo (physicalBlock geo (startUpBad bad dieNo) virtualBlockNo) := by
    rw [AddressMap.usableBlocks, ← Nat.count_eq_card_filter_range, Nat.count]
    apply List.countP_congr
    intro virtualBlockNo member
    rw [initBlockMap_bad (List.mem_range.mp member), decide_eq_true_eq, decide_eq_true_eq]
    exact Bool.eq_false_iff
  have all := List.length_eq_countP_add_countP (l := List.range geo.userBlocksPerDie)
    fun virtualBlockNo =>
      startUpBad bad dieNo (physicalBlock geo (startUpBad bad dieNo) virtualBlockNo)
  rw [List.length_range] at all
  rw [badBlockCount_eq, good]
  omega

theorem le_usableSlices (geo : Geometry) (bad : Nat → Nat → Bool) :
    geo.userDies * (geo.userBlocksPerDie - maxBadBlockCount geo bad) * geo.userPagesPerBlock ≤
      usableSlices geo bad := by
  have counts := maxBadBlockCount_le.mp (le_refl (maxBadBlockCount geo bad))
  apply Nat.mul_le_mul_right
  have each : ∀ dieNo ∈ Finset.range geo.userDies,
      geo.userBlocksPerDie - maxBadBlockCount geo bad ≤ (AddressMap.usableBlocks geo
        (DieMap.initBlockMap geo (startUpBad bad dieNo) (startUpPhyBlock geo bad dieNo))).card := by
    intro dieNo member
    have total := card_usableBlocks_add geo bad dieNo
    have count := counts dieNo (Finset.mem_range.mp member)
    rw [badBlockCount_eq_unreplacedBlocks] at total
    omega
  have sum := Finset.card_nsmul_le_sum _ _ _ each
  rwa [Finset.card_range] at sum

end BadBlocks

/-! ## The slices of a command -/

theorem lba_lt_of_mem {command cmdSlotTag startLba nlb : Nat} {cmdCode : Requests.CmdCode}
    {customCmd : Bool} {slice : Requests.Slice}
    (member : slice ∈
      Requests.reqTransNvmeToSlice command cmdSlotTag startLba nlb cmdCode customCmd) :
    4 * slice.logicalSliceAddr < startLba + nlb + 1 := by
  have wellFormed := (Requests.shares_of_mem_reqTransNvmeToSlice member).2
  have first : (4 * slice.logicalSliceAddr + slice.nvmeBlockOffset + 0, slice.startIndex + 0) ∈
      slice.numbers.blocks :=
    List.mem_map.mpr ⟨0, List.mem_range.mpr wellFormed.pos, rfl⟩
  have inCommand : _ ∈ List.flatMap (fun slice : Requests.Slice => slice.numbers.blocks) _ :=
    List.mem_flatMap.mpr ⟨slice, member, first⟩
  rw [Requests.blocks_reqTransNvmeToSlice] at inCommand
  obtain ⟨step, stepLt, blockEq⟩ := List.mem_map.mp inCommand
  have lbaEq : startLba + step = 4 * slice.logicalSliceAddr + slice.nvmeBlockOffset + 0 :=
    congrArg Prod.fst blockEq
  have := List.mem_range.mp stepLt
  omega

/-- Slices of an accepted command exceed the capacity by at most the longest command. -/
theorem lba_lt_of_accepted {capacity command : Nat} {cmd : Requests.NvmeIoCmd}
    {slice : Requests.Slice} (accepted : cmd.Accepted capacity)
    (member : slice ∈ cmd.slices command) : 4 * slice.logicalSliceAddr < capacity + 2 ^ 16 := by
  cases cmd with
  | read slot startLba nlb | write slot startLba nlb =>
    have := lba_lt_of_mem member
    have := accepted.1
    have := accepted.2
    omega
  | writeRead slot writeStartLba nlbWrite readStartLba nlbRead =>
    obtain ⟨⟨writeStart, writeLength⟩, readStart, readLength⟩ := accepted
    rcases List.mem_append.mp member with written | readBack
    · have := lba_lt_of_mem written
      omega
    · have := lba_lt_of_mem readBack
      omega

/-! ## The configured device -/

/-- The capacity of the configured device is sound exactly if every die keeps a spare block
for all but 254 of its bad blocks. -/
theorem capacitySound_iff (more : Fin 8) (bad : Nat → Nat → Bool) :
    CapacitySound (.configured more) bad ↔
      ∀ dieNo < (Geometry.configured more).userDies,
        unreplacedBlocks (.configured more) (startUpBad bad dieNo) ≤ 254 := by
  have dies : (Geometry.configured more).userDies = (more + 1) * 8 := rfl
  have blocks : (Geometry.configured more).userBlocksPerSsd = 284 * 8 * (more + 1) := rfl
  have mb : (Geometry.configured more).mbPerBlock = 2 :=
    show 16384 * 128 / (1024 * 1024) = 2 by decide
  have perDie : (Geometry.configured more).userBlocksPerDie = 284 := rfl
  have pages : (Geometry.configured more).userPagesPerBlock = 128 := rfl
  have slices : (Geometry.configured more).slicesPerSsd = 128 * 142 * 2 * 8 * (more + 1) := rfl
  have covered := le_usableSlices (.configured more) bad
  have moreLt := more.isLt
  rw [← maxBadBlockCount_le]
  constructor
  · rintro ⟨exact, -, -⟩
    by_contra many
    have product := Nat.mul_le_mul_right (Geometry.configured more).userDies
      (Nat.lt_of_not_le many)
    rw [exactCapacity, mb, blocks] at exact
    omega
  · intro few
    have product := Nat.mul_le_mul_right (Geometry.configured more).userDies few
    have capacity : storageCapacity (.configured more) bad =
        (284 * 8 * (more + 1) - ((more + 1) * 8 +
          maxBadBlockCount (.configured more) bad * (Geometry.configured more).userDies +
            284 * 8 * (more + 1) / 10)) * 512 := by
      rw [storageCapacity, mbPerbadBlockSpace, mb, blocks]
      omega
    refine ⟨?_, ?_, ?_⟩
    · rw [capacity, exactCapacity, mb, blocks]
      omega
    · rw [perDie, pages, Nat.mul_sub, Nat.mul_comm _ (maxBadBlockCount _ _)] at covered
      rw [capacity, nvmeBlocksPerSlice]
      omega
    · intro cmd command accepted slice member
      have := lba_lt_of_accepted accepted member
      rw [slices]
      omega

/-- The bad blocks of a die of which only blocks 1 and 2 are good, or of a good die. -/
def deadBlock (dead : Bool) (blockNo : Nat) : Bool := dead && blockNo != 1 && blockNo != 2

/-- A device on which all blocks of die 0 but two are bad. -/
def deadDie (dieNo : Nat) : Nat → Bool := deadBlock (dieNo == 0)

/-- `RemapBadBlock` leaves 282 virtual blocks of the dead die bad and none of the others. -/
theorem maxBadBlockCount_deadDie : maxBadBlockCount (.configured 7) deadDie = 282 := by
  have counts : ∀ dead, (remapBadBlock (.configured 7)
      (Function.update (deadBlock dead) bbtPhyBlock true)).badBlockCount =
        if dead then 282 else 0 := by
    decide +kernel
  simp only [badBlockCount_eq_unreplacedBlocks] at counts
  apply Nat.le_antisymm
  · apply maxBadBlockCount_le.mpr
    intro dieNo _
    rw [startUpBad, deadDie, counts]
    split <;> omega
  · have first := maxBadBlockCount_le.mp (Nat.le_refl (maxBadBlockCount (.configured 7) deadDie))
      0 (by decide)
    rwa [startUpBad, deadDie, counts] at first

/-- The device starts up, advertises sixteen terabytes and accepts a read of the first
slice that it does not have. -/
theorem capacity_wraps_on_deadDie :
    ∃ maps, AddressMap.initAddressMap (.configured 7) deadDie = .ok maps ∧
      exactCapacity (.configured 7) deadDie < 0 ∧
      storageCapacity (.configured 7) deadDie = 4294069760 ∧
      (Requests.NvmeIoCmd.read 0 9306112 0).Accepted (storageCapacity (.configured 7) deadDie) ∧
      ∃ slice ∈ (Requests.NvmeIoCmd.read 0 9306112 0).slices 0,
        maps.addrTransRead (.configured 7) slice.logicalSliceAddr =
          .error .logicalAddressTooLarge := by
  have starts : ∀ dieNo < (Geometry.configured 7).userDies,
      ∃ die, DieMap.initDie (.configured 7) (deadDie dieNo) = .ok die := by
    have evaluated : ∀ dead, (match DieMap.initDie (.configured 7) (deadBlock dead) with
        | .error _ => false
        | .ok _ => true) = true := by
      decide +kernel
    intro dieNo _
    have ended := evaluated (dieNo == 0)
    rw [deadDie]
    cases dieEq : DieMap.initDie (.configured 7) (deadBlock (dieNo == 0)) with
    | error stop => simp [dieEq] at ended
    | ok die => exact ⟨die, rfl⟩
  have capacity : storageCapacity (.configured 7) deadDie = 4294069760 := by
    rw [storageCapacity, mbPerbadBlockSpace, maxBadBlockCount_deadDie]
    decide
  have negative : exactCapacity (.configured 7) deadDie < 0 := by
    rw [exactCapacity, maxBadBlockCount_deadDie]
    decide
  obtain ⟨maps, initialised⟩ := AddressMap.initAddressMap_total starts
  refine ⟨maps, initialised, negative, capacity, ?_, ?_⟩
  · rw [capacity]
    simp [Requests.NvmeIoCmd.Accepted]
  · refine ⟨_, List.mem_cons_self .., if_neg ?_⟩
    decide

end RwRbuf.Firmware
