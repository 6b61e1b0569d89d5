import RwRbuf.Firmware.BadBlocks

/-! # Row addresses

`GenerateNandRowAddr` turns the address of a NAND request into the row address of one chip,
and `ExecuteNandReq` reads the physical block back from a failing row address.
-/

namespace RwRbuf.Firmware

/-- `BITS_PER_FLASH_CELL` is `SLC_MODE` or `MLC_MODE`. -/
inductive CellMode where
  | slc
  | mlc
  deriving DecidableEq, Repr

def CellMode.bitsPerFlashCell : CellMode → Nat
  | .slc => 1
  | .mlc => 2

/-- `PAGES_PER_SLC_BLOCK`. -/
abbrev pagesPerSlcBlock : Nat := 128

/-- `PAGES_PER_MLC_BLOCK`. -/
abbrev pagesPerMlcBlock : Nat := 256

/-- `LUN_1_BASE_ADDR`; `LUN_0_BASE_ADDR` is 0. -/
abbrev lun1BaseAddr : Nat := 0x00200000

/-- The block that stores the bad-block table of a die. -/
abbrev bbtPhyBlock : Nat := 0

/-- How the pages of a geometry lie on the flash chips. -/
structure FlashLayout (geo : Geometry) where
  cellMode : CellMode
  mainBlocksPerLun : Nat
  pages_eq : geo.userPagesPerBlock = pagesPerSlcBlock * cellMode.bitsPerFlashCell
  rows_fit : geo.totalBlocksPerLun * pagesPerMlcBlock ≤ lun1BaseAddr

def Geometry.vdie2Pch (geo : Geometry) (dieNo : Nat) : Nat := dieNo % geo.userChannels

def Geometry.vdie2Pway (geo : Geometry) (dieNo : Nat) : Nat := dieNo / geo.userChannels

def vpage2PlsbPage (pageNo : Nat) : Nat := if pageNo > 0 then 2 * pageNo - 1 else 0

/-- The address options of a NAND request with the fields of `nandInfo` they read. -/
inductive NandAddr where
  | vsa (virtualSliceAddr : Nat)
  | phyOrgTotal (physicalCh physicalWay physicalBlock physicalPage : Nat)
  | phyOrgMain (physicalCh physicalWay physicalBlock physicalPage : Nat)

namespace FlashLayout

variable {geo : Geometry} (layout : FlashLayout geo)

/-- The page of a block on the chip: in SLC mode only LSB pages are used. -/
def chipPage (pageNo : Nat) : Nat :=
  match layout.cellMode with
  | .slc => vpage2PlsbPage pageNo
  | .mlc => pageNo

def chipRow (phyBlock : Nat → Nat → Nat) : NandAddr → Nat × Nat × Nat
  | .vsa virtualSliceAddr =>
    let dieNo := geo.vsa2Vdie virtualSliceAddr
    let virtualBlockNo := geo.vsa2Vblock virtualSliceAddr
    let phyBlockNo := geo.vblock2PblockOfTbs virtualBlockNo
    (phyBlockNo / geo.totalBlocksPerLun,
      phyBlock dieNo phyBlockNo % geo.totalBlocksPerLun,
      layout.chipPage (geo.vsa2Vpage virtualSliceAddr))
  | .phyOrgTotal _ _ physicalBlock physicalPage =>
    (physicalBlock / geo.totalBlocksPerLun, physicalBlock % geo.totalBlocksPerLun, physicalPage)
  | .phyOrgMain physicalCh physicalWay physicalBlock physicalPage =>
    let dieNo := geo.pcw2Vdie physicalCh physicalWay
    let lun := physicalBlock / layout.mainBlocksPerLun
    let tempBlockNo := physicalBlock % layout.mainBlocksPerLun + lun * geo.totalBlocksPerLun
    (lun, phyBlock dieNo tempBlockNo % geo.totalBlocksPerLun, physicalPage)

/-- `GenerateNandRowAddr`, for the `remappedPhyBlock` fields `phyBlock`. -/
def generateNandRowAddr (phyBlock : Nat → Nat → Nat) (addr : NandAddr) : Nat :=
  let (lun, tempBlockNo, tempPageNo) := layout.chipRow phyBlock addr
  if lun = 0 then tempBlockNo * pagesPerMlcBlock + tempPageNo
  else lun1BaseAddr + tempBlockNo * pagesPerMlcBlock + tempPageNo

/-- The layout of the repository's configuration. -/
def cosmos : FlashLayout .cosmos where
  cellMode := .slc
  mainBlocksPerLun := 4096
  pages_eq := rfl
  rows_fit := by decide

end FlashLayout

/-- The block number `ExecuteNandReq` reports for a failing row address. -/
def failedPhyBlock (geo : Geometry) (rowAddr : Nat) : Nat :=
  rowAddr % lun1BaseAddr / pagesPerMlcBlock + rowAddr / lun1BaseAddr * geo.totalBlocksPerLun

/-! ## After start-up -/

/-- The `bad` fields of a die once start-up has retired the block of the bad-block table. -/
def startUpBad (bad : Nat → Nat → Bool) (dieNo : Nat) : Nat → Bool :=
  Function.update (bad dieNo) bbtPhyBlock true

/-- The `remappedPhyBlock` fields `RemapBadBlock` leaves. -/
def startUpPhyBlock (geo : Geometry) (bad : Nat → Nat → Bool) (dieNo : Nat) : Nat → Nat :=
  (remapBadBlock geo (startUpBad bad dieNo)).remappedPhyBlock

/-- A page of a virtual block that `InitBlockMap` does not mark bad. -/
@[ext]
structure UsablePage (geo : Geometry) (bad : Nat → Nat → Bool) where
  dieNo : Nat
  blockNo : Nat
  pageNo : Nat
  die_lt : dieNo < geo.userDies
  block_lt : blockNo < geo.userBlocksPerDie
  page_lt : pageNo < geo.userPagesPerBlock
  good : ((DieMap.initBlockMap geo (startUpBad bad dieNo)
    (startUpPhyBlock geo bad dieNo)).block blockNo).bad = false

namespace UsablePage

variable {geo : Geometry} {bad : Nat → Nat → Bool}

/-- The physical block in which the page lies. -/
def phyBlock (page : UsablePage geo bad) : Nat :=
  startUpPhyBlock geo bad page.dieNo (geo.vblock2PblockOfTbs page.blockNo)

def rowAddr (layout : FlashLayout geo) (page : UsablePage geo bad) : Nat :=
  layout.generateNandRowAddr (startUpPhyBlock geo bad)
    (.vsa (geo.vorg2Vsa page.dieNo page.blockNo page.pageNo))

/-- Channel, way and row address of a request for the page. -/
def access (layout : FlashLayout geo) (page : UsablePage geo bad) : Nat × Nat × Nat :=
  (geo.vdie2Pch page.dieNo, geo.vdie2Pway page.dieNo, page.rowAddr layout)

theorem phyBlock_good (page : UsablePage geo bad) :
    startUpBad bad page.dieNo page.phyBlock = false := by
  have good := page.good
  rwa [initBlockMap_bad page.block_lt] at good

/-- The virtual block lies in LUN 0 or 1, and so does its physical block. -/
theorem lun_eq (page : UsablePage geo bad) :
    page.blockNo / geo.userBlocksPerLun < 2 ∧
      geo.vblock2PblockOfTbs page.blockNo / geo.totalBlocksPerLun =
        page.blockNo / geo.userBlocksPerLun ∧
      page.phyBlock / geo.totalBlocksPerLun = page.blockNo / geo.userBlocksPerLun := by
  have blocksLe := geo.blocks_le
  have blocksPos := geo.blocks_pos
  have positive : 0 < geo.totalBlocksPerLun := by omega
  rcases lun_cases page.block_lt with inLun0 | ⟨offset, inLun1, blockEq⟩
  · have below : page.phyBlock < geo.totalBlocksPerLun := physicalBlock_lun0 _ inLun0
    rw [vblock2PblockOfTbs_lun0 inLun0, Nat.div_eq_of_lt inLun0, Nat.div_eq_of_lt below,
      Nat.div_eq_of_lt (by omega)]
    decide
  · have inside := physicalBlock_lun1 (startUpBad bad page.dieNo) inLun1
    rw [← blockEq] at inside
    have phyLun : page.phyBlock / geo.totalBlocksPerLun = 1 := by
      apply Nat.div_eq_of_lt_le
      · rw [one_mul]
        exact inside.1
      · rw [Nat.mul_comm]
        exact inside.2
    have virtualLun : page.blockNo / geo.userBlocksPerLun = 1 := by
      rw [blockEq, Nat.add_div_left _ blocksPos, Nat.div_eq_of_lt inLun1]
    rw [phyLun, virtualLun, blockEq, vblock2PblockOfTbs_lun1 inLun1,
      Nat.add_div_left _ positive, Nat.div_eq_of_lt (by omega)]
    decide

section

variable (layout : FlashLayout geo) (page : UsablePage geo bad)
include layout page

theorem chipPage_lt : layout.chipPage page.pageNo < pagesPerMlcBlock := by
  have pageLt := page.page_lt
  rw [layout.pages_eq] at pageLt
  unfold FlashLayout.chipPage vpage2PlsbPage
  cases mode : layout.cellMode with
  | slc =>
    simp only [mode, CellMode.bitsPerFlashCell, pagesPerSlcBlock, pagesPerMlcBlock] at pageLt ⊢
    split <;> omega
  | mlc =>
    simp only [mode, CellMode.bitsPerFlashCell, pagesPerSlcBlock, pagesPerMlcBlock] at pageLt ⊢
    omega

/-- The row address has the LUN, the block in the LUN and the page as its digits. -/
theorem rowAddr_eq :
    page.rowAddr layout = page.blockNo / geo.userBlocksPerLun * lun1BaseAddr +
      (page.phyBlock % geo.totalBlocksPerLun * pagesPerMlcBlock +
        layout.chipPage page.pageNo) := by
  obtain ⟨lunLt, virtualLun, -⟩ := page.lun_eq
  simp only [rowAddr, FlashLayout.generateNandRowAddr, FlashLayout.chipRow,
    Geometry.vsa2Vdie_vorg2Vsa page.die_lt,
    Geometry.vsa2Vblock_vorg2Vsa page.die_lt page.page_lt,
    Geometry.vsa2Vpage_vorg2Vsa page.die_lt page.page_lt, virtualLun]
  rcases Nat.le_one_iff_eq_zero_or_eq_one.mp (Nat.le_of_lt_succ lunLt) with lunEq | lunEq
  · rw [lunEq, if_pos rfl, zero_mul, zero_add]
    rfl
  · rw [lunEq, if_neg (by decide), one_mul, Nat.add_assoc]
    rfl

/-- What lies below the LUN in a row address stays below the base of LUN 1. -/
theorem inLun_lt :
    page.phyBlock % geo.totalBlocksPerLun * pagesPerMlcBlock + layout.chipPage page.pageNo <
      lun1BaseAddr := by
  have positive : 0 < geo.totalBlocksPerLun := lt_of_lt_of_le geo.blocks_pos geo.blocks_le
  have block := Nat.mod_lt page.phyBlock positive
  have chipPage := page.chipPage_lt layout
  have rows := layout.rows_fit
  have next : (page.phyBlock % geo.totalBlocksPerLun + 1) * pagesPerMlcBlock ≤
      geo.totalBlocksPerLun * pagesPerMlcBlock := Nat.mul_le_mul_right _ block
  rw [Nat.add_mul, one_mul] at next
  omega

theorem rowAddr_lun : page.rowAddr layout / lun1BaseAddr = page.blockNo / geo.userBlocksPerLun := by
  rw [rowAddr_eq, Nat.add_comm, Nat.add_mul_div_right _ _ (by decide),
    Nat.div_eq_of_lt (page.inLun_lt layout), zero_add]

theorem rowAddr_lt : page.rowAddr layout < 2 ^ 32 := by
  have below := page.inLun_lt layout
  have lunLe := Nat.mul_le_mul_right lun1BaseAddr (Nat.le_of_lt_succ page.lun_eq.1)
  rw [rowAddr_eq]
  apply lt_of_lt_of_le (Nat.add_lt_add_of_le_of_lt lunLe below)
  decide

theorem rowAddr_block :
    page.rowAddr layout % lun1BaseAddr / pagesPerMlcBlock =
      page.phyBlock % geo.totalBlocksPerLun := by
  have inLun : page.rowAddr layout % lun1BaseAddr =
      page.phyBlock % geo.totalBlocksPerLun * pagesPerMlcBlock + layout.chipPage page.pageNo := by
    rw [rowAddr_eq, Nat.mul_add_mod_self_right, Nat.mod_eq_of_lt (page.inLun_lt layout)]
  rw [inLun, Nat.add_comm, Nat.add_mul_div_right _ _ (by decide),
    Nat.div_eq_of_lt (page.chipPage_lt layout), zero_add]

theorem rowAddr_page : page.rowAddr layout % pagesPerMlcBlock = layout.chipPage page.pageNo := by
  have chipPage := page.chipPage_lt layout
  rw [rowAddr_eq]
  simp only [lun1BaseAddr, pagesPerMlcBlock] at chipPage ⊢
  omega

theorem failedPhyBlock_rowAddr : failedPhyBlock geo (page.rowAddr layout) = page.phyBlock := by
  rw [failedPhyBlock, rowAddr_block, rowAddr_lun, ← page.lun_eq.2.2, Nat.mul_comm,
    Nat.mod_add_div]

end

theorem chipPage_inj (layout : FlashLayout geo) {pageNo pageNo' : Nat}
    (same : layout.chipPage pageNo = layout.chipPage pageNo') : pageNo = pageNo' := by
  unfold FlashLayout.chipPage vpage2PlsbPage at same
  cases mode : layout.cellMode with
  | slc =>
    simp only [mode] at same
    split at same <;> split at same <;> omega
  | mlc => simpa [mode] using same

theorem pcw2Vdie_vdie2Pch (geo : Geometry) (dieNo : Nat) :
    geo.pcw2Vdie (geo.vdie2Pch dieNo) (geo.vdie2Pway dieNo) = dieNo :=
  Nat.mod_add_div' dieNo geo.userChannels

theorem access_injective (layout : FlashLayout geo) :
    Function.Injective (access layout : UsablePage geo bad → Nat × Nat × Nat) := by
  intro page page' same
  simp only [access, Prod.mk.injEq] at same
  obtain ⟨sameCh, sameWay, sameRow⟩ := same
  have sameDie : page.dieNo = page'.dieNo := by
    rw [← pcw2Vdie_vdie2Pch geo page.dieNo, sameCh, sameWay, pcw2Vdie_vdie2Pch]
  have samePhyBlock : page.phyBlock = page'.phyBlock := by
    rw [← page.failedPhyBlock_rowAddr layout, sameRow, failedPhyBlock_rowAddr]
  have samePage : layout.chipPage page.pageNo = layout.chipPage page'.pageNo := by
    rw [← page.rowAddr_page layout, sameRow, rowAddr_page]
  apply UsablePage.ext sameDie
  · unfold phyBlock at samePhyBlock
    rw [← sameDie] at samePhyBlock
    exact physicalBlock_inj page.block_lt page'.block_lt samePhyBlock
  · exact chipPage_inj layout samePage

end UsablePage

/-- For every bad-block table, requests for different usable pages go to different places on
the chips.  The place is a good block other than the one that stores the table, in the LUN
of the virtual block, and the block number read back from the row address is that block. -/
theorem row_addresses_exact {geo : Geometry} (layout : FlashLayout geo) (bad : Nat → Nat → Bool) :
    Function.Injective (UsablePage.access layout : UsablePage geo bad → Nat × Nat × Nat) ∧
    ∀ page : UsablePage geo bad,
      geo.pcw2Vdie (page.access layout).1 (page.access layout).2.1 = page.dieNo ∧
      (page.access layout).2.2 < 2 ^ 32 ∧
      (page.access layout).2.2 / lun1BaseAddr = page.blockNo / geo.userBlocksPerLun ∧
      page.phyBlock / geo.totalBlocksPerLun = page.blockNo / geo.userBlocksPerLun ∧
      failedPhyBlock geo (page.access layout).2.2 = page.phyBlock ∧
      startUpBad bad page.dieNo page.phyBlock = false ∧
      page.phyBlock ≠ bbtPhyBlock := by
  refine ⟨UsablePage.access_injective layout, ?_⟩
  intro page
  refine ⟨UsablePage.pcw2Vdie_vdie2Pch geo page.dieNo, page.rowAddr_lt layout,
    page.rowAddr_lun layout, page.lun_eq.2.2, page.failedPhyBlock_rowAddr layout,
    page.phyBlock_good, ?_⟩
  intro table
  have good := page.phyBlock_good
  rw [table, startUpBad, Function.update_self] at good
  cases good

/-- On flash without defects, page 3 of virtual block 0 lies in the first spare block. -/
example : FlashLayout.cosmos.generateNandRowAddr (startUpPhyBlock .cosmos fun _ _ => false)
    (.vsa (Geometry.cosmos.vorg2Vsa 0 0 3)) = 142 * 256 + 5 := by
  decide +kernel

end RwRbuf.Firmware
