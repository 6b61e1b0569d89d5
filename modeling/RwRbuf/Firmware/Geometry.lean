import Mathlib.Tactic.Ring
import Mathlib.Data.Nat.ModEq

/-! # Device geometry and address arithmetic

The configuration macros of `ftl_config.h` and the translation macros of
`address_translation.h`.  A slice is a page (`SLICES_PER_PAGE` is 1), so
`SLICES_PER_BLOCK` and `USER_PAGES_PER_BLOCK` are the same number.
-/

namespace RwRbuf.Firmware

/-- `NVME_BLOCKS_PER_SLICE`. -/
abbrev nvmeBlocksPerSlice : Nat := 4

/-- The configurable sizes.  The proof fields keep every address, block number and
counter inside the bit field that stores it, away from its reserved value. -/
structure Geometry where
  userChannels : Nat
  userWays : Nat
  userBlocksPerLun : Nat
  totalBlocksPerLun : Nat
  userPagesPerBlock : Nat
  channels_pos : 0 < userChannels
  ways_pos : 0 < userWays
  blocks_pos : 0 < userBlocksPerLun
  pages_pos : 0 < userPagesPerBlock
  blocks_le : userBlocksPerLun ≤ totalBlocksPerLun
  dies_fit : userChannels * userWays ≤ 2 ^ 8
  blocks_fit : totalBlocksPerLun * 2 < 2 ^ 16 - 1
  pages_fit : userPagesPerBlock < 2 ^ 12
  slices_fit : userPagesPerBlock * userBlocksPerLun * 2 * userWays * userChannels < 2 ^ 32 - 1

namespace Geometry

variable (geo : Geometry)

def userDies : Nat := geo.userChannels * geo.userWays

/-- `LUNS_PER_DIE` is 2. -/
def userBlocksPerDie : Nat := geo.userBlocksPerLun * 2

def totalBlocksPerDie : Nat := geo.totalBlocksPerLun * 2

def slicesPerSsd : Nat :=
  geo.userPagesPerBlock * geo.userBlocksPerLun * 2 * geo.userWays * geo.userChannels

def userBlocksPerSsd : Nat := geo.userBlocksPerDie * geo.userWays * geo.userChannels

def mbPerBlock : Nat := (16384 * geo.userPagesPerBlock) / (1024 * 1024)

def vsa2Vdie (virtualSliceAddr : Nat) : Nat := virtualSliceAddr % geo.userDies

def vsa2Vblock (virtualSliceAddr : Nat) : Nat :=
  virtualSliceAddr / geo.userDies / geo.userPagesPerBlock

def vsa2Vpage (virtualSliceAddr : Nat) : Nat :=
  virtualSliceAddr / geo.userDies % geo.userPagesPerBlock

def vorg2Vsa (dieNo blockNo pageNo : Nat) : Nat :=
  dieNo + geo.userDies * (blockNo * geo.userPagesPerBlock + pageNo)

def pcw2Vdie (chNo wayNo : Nat) : Nat := chNo + wayNo * geo.userChannels

def vblock2PblockOfTbs (blockNo : Nat) : Nat :=
  blockNo / geo.userBlocksPerLun * geo.totalBlocksPerLun + blockNo % geo.userBlocksPerLun

theorem userDies_pos : 0 < geo.userDies :=
  Nat.mul_pos geo.channels_pos geo.ways_pos

theorem slicesPerSsd_eq :
    geo.slicesPerSsd = geo.userDies * (geo.userBlocksPerDie * geo.userPagesPerBlock) := by
  unfold slicesPerSsd userDies userBlocksPerDie
  ring

section Translation

variable {geo} {dieNo blockNo pageNo : Nat}

section

variable (dieBound : dieNo < geo.userDies)
include dieBound

@[simp] theorem vsa2Vdie_vorg2Vsa : geo.vsa2Vdie (geo.vorg2Vsa dieNo blockNo pageNo) = dieNo := by
  simp [vsa2Vdie, vorg2Vsa, Nat.mod_eq_of_lt dieBound]

private theorem vorg2Vsa_div :
    geo.vorg2Vsa dieNo blockNo pageNo / geo.userDies =
      blockNo * geo.userPagesPerBlock + pageNo := by
  rw [vorg2Vsa, Nat.add_mul_div_left _ _ geo.userDies_pos, Nat.div_eq_of_lt dieBound, zero_add]

@[simp] theorem vsa2Vblock_vorg2Vsa (pageBound : pageNo < geo.userPagesPerBlock) :
    geo.vsa2Vblock (geo.vorg2Vsa dieNo blockNo pageNo) = blockNo := by
  rw [vsa2Vblock, vorg2Vsa_div dieBound, Nat.add_comm,
    Nat.add_mul_div_right _ _ geo.pages_pos, Nat.div_eq_of_lt pageBound, zero_add]

@[simp] theorem vsa2Vpage_vorg2Vsa (pageBound : pageNo < geo.userPagesPerBlock) :
    geo.vsa2Vpage (geo.vorg2Vsa dieNo blockNo pageNo) = pageNo := by
  rw [vsa2Vpage, vorg2Vsa_div dieBound, Nat.add_comm, Nat.add_mul_mod_self_right,
    Nat.mod_eq_of_lt pageBound]

end

/-- Two slices of the device coincide only if die, block and page do. -/
theorem vorg2Vsa_inj {dieNo' blockNo' pageNo' : Nat}
    (dieBound : dieNo < geo.userDies) (pageBound : pageNo < geo.userPagesPerBlock)
    (dieBound' : dieNo' < geo.userDies) (pageBound' : pageNo' < geo.userPagesPerBlock) :
    geo.vorg2Vsa dieNo blockNo pageNo = geo.vorg2Vsa dieNo' blockNo' pageNo' ↔
      dieNo = dieNo' ∧ blockNo = blockNo' ∧ pageNo = pageNo' := by
  constructor
  · intro same
    refine ⟨?_, ?_, ?_⟩
    · rw [← @vsa2Vdie_vorg2Vsa geo dieNo blockNo pageNo dieBound, same,
        vsa2Vdie_vorg2Vsa dieBound']
    · rw [← @vsa2Vblock_vorg2Vsa geo dieNo blockNo pageNo dieBound pageBound, same,
        vsa2Vblock_vorg2Vsa dieBound' pageBound']
    · rw [← @vsa2Vpage_vorg2Vsa geo dieNo blockNo pageNo dieBound pageBound, same,
        vsa2Vpage_vorg2Vsa dieBound' pageBound']
  · rintro ⟨rfl, rfl, rfl⟩
    rfl

theorem vorg2Vsa_lt (dieBound : dieNo < geo.userDies) (blockBound : blockNo < geo.userBlocksPerDie)
    (pageBound : pageNo < geo.userPagesPerBlock) :
    geo.vorg2Vsa dieNo blockNo pageNo < geo.slicesPerSsd := by
  have inDie : blockNo * geo.userPagesPerBlock + pageNo + 1 ≤
      geo.userBlocksPerDie * geo.userPagesPerBlock := by
    calc blockNo * geo.userPagesPerBlock + pageNo + 1
        ≤ blockNo * geo.userPagesPerBlock + geo.userPagesPerBlock := by omega
      _ = (blockNo + 1) * geo.userPagesPerBlock := by ring
      _ ≤ geo.userBlocksPerDie * geo.userPagesPerBlock := Nat.mul_le_mul_right _ blockBound
  rw [slicesPerSsd_eq, vorg2Vsa]
  calc dieNo + geo.userDies * (blockNo * geo.userPagesPerBlock + pageNo)
      < geo.userDies + geo.userDies * (blockNo * geo.userPagesPerBlock + pageNo) := by omega
    _ = geo.userDies * (blockNo * geo.userPagesPerBlock + pageNo + 1) := by ring
    _ ≤ geo.userDies * (geo.userBlocksPerDie * geo.userPagesPerBlock) :=
        Nat.mul_le_mul_left _ inDie

end Translation

/-! ## Devices -/

/-- The configuration of the repository, with eight connected channels. -/
def cosmos : Geometry where
  userChannels := 8
  userWays := 8
  userBlocksPerLun := 142
  totalBlocksPerLun := 4184
  userPagesPerBlock := 128
  channels_pos := by decide
  ways_pos := by decide
  blocks_pos := by decide
  pages_pos := by decide
  blocks_le := by decide
  dies_fit := by decide
  blocks_fit := by decide
  pages_fit := by decide
  slices_fit := by decide

/-- Two dies with four blocks of two pages each. -/
def tiny : Geometry where
  userChannels := 1
  userWays := 2
  userBlocksPerLun := 2
  totalBlocksPerLun := 3
  userPagesPerBlock := 2
  channels_pos := by decide
  ways_pos := by decide
  blocks_pos := by decide
  pages_pos := by decide
  blocks_le := by decide
  dies_fit := by decide
  blocks_fit := by decide
  pages_fit := by decide
  slices_fit := by decide

/-- A die with two blocks of two pages. -/
def twoBlocks : Geometry where
  userChannels := 1
  userWays := 1
  userBlocksPerLun := 1
  totalBlocksPerLun := 2
  userPagesPerBlock := 2
  channels_pos := by decide
  ways_pos := by decide
  blocks_pos := by decide
  pages_pos := by decide
  blocks_le := by decide
  dies_fit := by decide
  blocks_fit := by decide
  pages_fit := by decide
  slices_fit := by decide

/-- The configuration of the repository with `more + 1` connected channels. -/
def configured (more : Fin 8) : Geometry where
  userChannels := more.val + 1
  userWays := 8
  userBlocksPerLun := 142
  totalBlocksPerLun := 4184
  userPagesPerBlock := 128
  channels_pos := by omega
  ways_pos := by decide
  blocks_pos := by decide
  pages_pos := by decide
  blocks_le := by decide
  dies_fit := by omega
  blocks_fit := by decide
  pages_fit := by decide
  slices_fit := by omega

end Geometry

end RwRbuf.Firmware
