import RwRbuf.Firmware.SliceTiling

/-! # The RW command between the server and the device

`os_rw_io_func` asks the file system where the first block of the two pages lies on the
device and puts both places into one command.  The firmware decodes the command and cuts the
two ranges into slices.  The file system may have put the blocks of a page anywhere; the
question is whether the device works on the blocks that hold the page.
-/

namespace RwRbuf.Innodb

open Firmware.Requests

/-- `START_SECTOR`, in sectors of 512 bytes. -/
def startSector : BitVec 64 := 2048

/-- Where the file system has put the blocks of a file: the answer of `FIBMAP`, counted in
blocks of 4 KB from the start of the partition. -/
abbrev Fibmap : Type := BitVec 64 → BitVec 64

/-- `buf_get_lba` on a file system with blocks of 4 KB. -/
def bufGetLba (fibmap : Fibmap) (offset : BitVec 64) : BitVec 64 :=
  (fibmap (offset / 4096) * 8 + startSector) / 8

/-- The fields of `nvme_passthru_cmd` that reach the firmware. -/
structure NvmePassthruCmd where
  opcode : BitVec 8
  cdw10 : BitVec 32
  cdw11 : BitVec 32
  cdw12 : BitVec 32
  cdw13 : BitVec 32
  cdw14 : BitVec 32
  cdw15 : BitVec 32
deriving DecidableEq, Repr

/-- `IO_NVM_WRITE_READ` -/
def ioNvmWriteRead : BitVec 8 := 0x66

/-- A page in a file: the layout of the file and the place of the page in it. -/
structure FilePage where
  fibmap : Fibmap
  offset : BitVec 64

/-- The command that `os_rw_io_func` builds to write `nW` bytes and read `nR` bytes; it aborts
if the first number is not the page size. -/
def osRwIo (univPageSize : BitVec 64) (written : FilePage) (nW : BitVec 64) (read : FilePage)
    (nR : BitVec 64) : Option NvmePassthruCmd :=
  if nW = univPageSize then
    some
      { opcode := 0x66
        cdw10 := (bufGetLba written.fibmap written.offset).setWidth 32
        cdw11 := 0
        cdw12 := nW.setWidth 32 / 4096 - 1
        cdw13 := nR.setWidth 32 / 4096 - 1
        cdw14 := (bufGetLba read.fibmap read.offset).setWidth 32
        cdw15 := 0 }
  else none

/-- `handle_nvme_io_cmd` on a write-read command, for a device of `storageCapacity` blocks:
the slice requests for the written and for the read range.  `STORAGE_CAPACITY_H` is 0. -/
def handleNvmeIoWriteRead (storageCapacity : BitVec 32) (cmd : NvmePassthruCmd) :
    Option (List SliceFields × List SliceFields) :=
  if cmd.opcode = ioNvmWriteRead ∧ cmd.cdw10 < storageCapacity ∧ cmd.cdw11 = 0 ∧
      cmd.cdw14 < storageCapacity then
    some ((transNvmeToSlice cmd.cdw10 (cmd.cdw12.setWidth 16)).map SliceValues.store,
      (transNvmeToSlice cmd.cdw14 (cmd.cdw13.setWidth 16)).map SliceValues.store)
  else none

/-- The device blocks of slice requests, in order. -/
def deviceBlocks (slices : List SliceFields) : List Nat :=
  slices.flatMap fun fields => fields.numbers.blocks.map Prod.fst

namespace FilePage

variable (page : FilePage) (pageSize : BitVec 64)

/-- The device block that holds the file block `step` blocks into the page. -/
def holder (step : Nat) : Nat :=
  (page.fibmap (page.offset / 4096 + BitVec.ofNat 64 step)).toNat + 256

/-- The device blocks that hold the page. -/
def holders : List Nat := (List.range (pageSize.toNat / 4096)).map page.holder

/-- The file system has put the blocks of the page one after another. -/
def Contiguous : Prop :=
  ∀ step < pageSize.toNat / 4096, page.holder step = page.holder 0 + step

end FilePage

/-- The command for two pages reaches exactly the blocks that hold them. -/
def ReachesPages (storageCapacity : BitVec 32) (pageSize : BitVec 64) (written read : FilePage) :
    Prop :=
  ∃ cmd writes reads, osRwIo pageSize written pageSize read pageSize = some cmd ∧
    handleNvmeIoWriteRead storageCapacity cmd = some (writes, reads) ∧
    deviceBlocks writes = written.holders pageSize ∧ deviceBlocks reads = read.holders pageSize

/-! ## The addresses -/

theorem bufGetLba_toNat {page : FilePage} (fits : page.holder 0 < 2 ^ 32) :
    ((bufGetLba page.fibmap page.offset).setWidth 32).toNat = page.holder 0 := by
  have start : page.holder 0 = (page.fibmap (page.offset / 4096)).toNat + 256 := by
    rw [FilePage.holder, BitVec.ofNat_eq_ofNat, BitVec.add_zero]
  rw [start] at fits ⊢
  rw [bufGetLba, startSector, BitVec.toNat_setWidth, BitVec.toNat_udiv, BitVec.toNat_add,
    BitVec.toNat_mul]
  generalize (page.fibmap (page.offset / 4096)).toNat = block at fits ⊢
  show (block * 8 % 2 ^ 64 + 2048) % 2 ^ 64 / 8 % 2 ^ 32 = block + 256
  omega

theorem blockCount_eq_iff (pageSize : BitVec 64) :
    ((pageSize.setWidth 32 / 4096 - 1).setWidth 16).toNat + 1 = pageSize.toNat / 4096 ↔
      0 < pageSize.toNat / 4096 ∧ pageSize.toNat / 4096 ≤ 2 ^ 16 := by
  rw [BitVec.toNat_setWidth, BitVec.toNat_sub, BitVec.toNat_udiv, BitVec.toNat_setWidth]
  show (2 ^ 32 - 1 + pageSize.toNat % 2 ^ 32 / 4096) % 2 ^ 32 % 2 ^ 16 + 1 = _ ↔ _
  omega

theorem deviceBlocks_transNvmeToSlice (startLba : BitVec 32) (nlb : BitVec 16) :
    deviceBlocks ((transNvmeToSlice startLba nlb).map SliceValues.store) =
      (List.range (nlb.toNat + 1)).map (startLba.toNat + ·) := by
  unfold deviceBlocks
  rw [List.flatMap_map, ← List.map_flatMap, blocks_stored, blockRun, List.map_map]
  rfl

/-- The run of device blocks from `start` holds the page exactly if it has the right length and
the right start and the page is in one piece. -/
theorem run_eq_holders_iff {page : FilePage} {pageSize : BitVec 64} {start count : Nat}
    (positive : 0 < count) :
    (List.range count).map (start + ·) = page.holders pageSize ↔
      count = pageSize.toNat / 4096 ∧ start = page.holder 0 ∧ page.Contiguous pageSize := by
  constructor
  · intro same
    have length : count = pageSize.toNat / 4096 := by
      simpa [FilePage.holders] using congrArg List.length same
    subst length
    have pointwise := List.map_inj_left.mp same
    have first : start = page.holder 0 := pointwise 0 (List.mem_range.mpr positive)
    refine ⟨rfl, first, ?_⟩
    intro step inside
    rw [← pointwise step (List.mem_range.mpr inside), first]
  · rintro ⟨rfl, rfl, contiguous⟩
    apply List.map_inj_left.mpr
    intro step inside
    exact (contiguous step (List.mem_range.mp inside)).symm

/-- One of the two ranges of the command: the slices cover the blocks of the page exactly if
the page lies in one piece and its number of blocks has 16 bits. -/
theorem deviceBlocks_eq_holders_iff (storageCapacity : BitVec 32) (pageSize : BitVec 64)
    (page : FilePage) :
    ((bufGetLba page.fibmap page.offset).setWidth 32 < storageCapacity ∧
        deviceBlocks ((transNvmeToSlice ((bufGetLba page.fibmap page.offset).setWidth 32)
          ((pageSize.setWidth 32 / 4096 - 1).setWidth 16)).map SliceValues.store) =
          page.holders pageSize) ↔
      (0 < pageSize.toNat / 4096 ∧ pageSize.toNat / 4096 ≤ 2 ^ 16) ∧
        page.holder 0 < storageCapacity.toNat ∧ page.Contiguous pageSize := by
  rw [deviceBlocks_transNvmeToSlice, run_eq_holders_iff (Nat.succ_pos _), blockCount_eq_iff,
    BitVec.lt_def]
  constructor
  · rintro ⟨inside, blocks, start, contiguous⟩
    rw [start] at inside
    exact ⟨blocks, inside, contiguous⟩
  · rintro ⟨blocks, inside, contiguous⟩
    have start := bufGetLba_toNat (Nat.lt_trans inside storageCapacity.isLt)
    rw [start]
    exact ⟨inside, blocks, rfl, contiguous⟩

theorem handleNvmeIoWriteRead_osRwIo (storageCapacity : BitVec 32) (pageSize : BitVec 64)
    (written read : FilePage) :
    (osRwIo pageSize written pageSize read pageSize).bind
        (handleNvmeIoWriteRead storageCapacity) =
      if (bufGetLba written.fibmap written.offset).setWidth 32 < storageCapacity ∧
          (bufGetLba read.fibmap read.offset).setWidth 32 < storageCapacity then
        some
          ((transNvmeToSlice ((bufGetLba written.fibmap written.offset).setWidth 32)
            ((pageSize.setWidth 32 / 4096 - 1).setWidth 16)).map SliceValues.store,
          (transNvmeToSlice ((bufGetLba read.fibmap read.offset).setWidth 32)
            ((pageSize.setWidth 32 / 4096 - 1).setWidth 16)).map SliceValues.store)
      else none := by
  simp [osRwIo, handleNvmeIoWriteRead, ioNvmWriteRead]

/-- The command for two pages reaches exactly the blocks that hold them if and only if the
file system has put each page in one piece, below the capacity of the device, and the number
of blocks has 16 bits. -/
theorem reachesPages_iff (storageCapacity : BitVec 32) (pageSize : BitVec 64)
    (written read : FilePage) :
    ReachesPages storageCapacity pageSize written read ↔
      (0 < pageSize.toNat / 4096 ∧ pageSize.toNat / 4096 ≤ 2 ^ 16) ∧
        (written.holder 0 < storageCapacity.toNat ∧ written.Contiguous pageSize) ∧
        (read.holder 0 < storageCapacity.toNat ∧ read.Contiguous pageSize) := by
  have writtenRange := deviceBlocks_eq_holders_iff storageCapacity pageSize written
  have readRange := deviceBlocks_eq_holders_iff storageCapacity pageSize read
  have handled := handleNvmeIoWriteRead_osRwIo storageCapacity pageSize written read
  constructor
  · rintro ⟨cmd, writes, reads, built, accepted, writesExact, readsExact⟩
    rw [built, Option.bind_some, accepted] at handled
    split_ifs at handled with inside
    obtain ⟨rfl, rfl⟩ := Prod.mk.inj (Option.some.inj handled)
    obtain ⟨blocks, writtenPage⟩ := writtenRange.mp ⟨inside.1, writesExact⟩
    obtain ⟨_, readPage⟩ := readRange.mp ⟨inside.2, readsExact⟩
    exact ⟨blocks, writtenPage, readPage⟩
  · rintro ⟨blocks, writtenPage, readPage⟩
    obtain ⟨writtenInside, writesExact⟩ := writtenRange.mpr ⟨blocks, writtenPage⟩
    obtain ⟨readInside, readsExact⟩ := readRange.mpr ⟨blocks, readPage⟩
    rw [if_pos ⟨writtenInside, readInside⟩] at handled
    obtain ⟨cmd, built, accepted⟩ := Option.bind_eq_some_iff.mp handled
    exact ⟨cmd, _, _, built, accepted, writesExact, readsExact⟩

/-- A page of 16 KB at the start of a file whose second block the file system has put
elsewhere. -/
def fragmentedPage : FilePage where
  fibmap := fun block => if block = 0 then 100 else 200 + block
  offset := 0

/-- The fourth page of a file that lies in one piece. -/
def adjacentPage : FilePage where
  fibmap := fun block => 1000 + block
  offset := 49152

/-- The device overwrites three blocks that do not belong to the written page. -/
theorem writes_outside_fragmentedPage :
    ¬ ReachesPages 0x10000 16384 fragmentedPage adjacentPage ∧
      fragmentedPage.holders 16384 = [356, 457, 458, 459] ∧
      ((osRwIo 16384 fragmentedPage 16384 adjacentPage 16384).bind
        (handleNvmeIoWriteRead 0x10000)).map (fun slices => deviceBlocks slices.1) =
          some [356, 357, 358, 359] := by
  have holders : fragmentedPage.holders 16384 = [356, 457, 458, 459] := by decide
  have blocks : ((osRwIo 16384 fragmentedPage 16384 adjacentPage 16384).bind
      (handleNvmeIoWriteRead 0x10000)).map (fun slices => deviceBlocks slices.1) =
        some [356, 357, 358, 359] := by
    rw [handleNvmeIoWriteRead_osRwIo, if_pos (by decide), Option.map_some,
      deviceBlocks_transNvmeToSlice]
    decide
  refine ⟨?_, holders, blocks⟩
  rintro ⟨cmd, writes, reads, built, accepted, writesExact, _⟩
  rw [built, Option.bind_some, accepted, Option.map_some, writesExact, holders] at blocks
  exact absurd (Option.some.inj blocks) (by decide)

end RwRbuf.Innodb
