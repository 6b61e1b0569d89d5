import RwRbuf.Lib.LinkedList
import RwRbuf.Firmware.Geometry

/-! # Address translation and garbage collection

The maps of `address_translation.c` and `garbage_collection.c` and the functions
that a slice write runs through.  The tables are grouped by die: `DieMap` holds the
rows of `block`, `die` and `gcVictimList` that belong to one die, with the link
fields `prevBlock` and `nextBlock` of its blocks in one `Links`.  The reserved
values `BLOCK_NONE`, `VSA_NONE` and `LSA_NONE` are `none`, and an assert that stops
the firmware is an error.
-/

namespace RwRbuf.Firmware

open LinkedList Function

/-- The asserts of the two files.  `wildBlockNumber` is not one of them: it marks
an access to `block[dieNo][BLOCK_NONE]`, which lies outside the table. -/
inductive FtlAssert
  | logicalAddressTooLarge
  | noFreeBlock
  | noAvailableBlock
  | currentPageManagement
  | noVictimBlock
  | wildBlockNumber
deriving DecidableEq, Repr

structure VirtualBlockEntry where
  bad : Bool
  free : Bool
  invalidSliceCnt : Nat
  currentPage : Nat
  eraseCnt : Nat
deriving DecidableEq

structure DieMap where
  block : Nat → VirtualBlockEntry
  link : Links Nat
  currentBlock : Nat
  freeBlock : Ends Nat
  freeBlockCnt : Nat
  gcVictimList : Nat → Ends Nat

inductive GetFreeBlockOption
  | normal
  | gc

/-- `RESERVED_FREE_BLOCK_COUNT`. -/
def reservedFreeBlockCount : Nat := 1

namespace DieMap

variable (die : DieMap)

def setBlock (blockNo : Nat) (entry : VirtualBlockEntry) : DieMap :=
  { die with block := update die.block blockNo entry }

def putToFbList (blockNo : Nat) : DieMap :=
  let pushed := pushBack die.link die.freeBlock blockNo
  { die with link := pushed.1, freeBlock := pushed.2, freeBlockCnt := die.freeBlockCnt + 1 }

/-- The part of `GetFromFbList` that is shared by both options. -/
def takeFreeBlock (evictedBlockNo : Nat) : DieMap :=
  let popped := popFront die.link die.freeBlock evictedBlockNo
  { die with
    link := (popped.1.setNext evictedBlockNo none).setPrev evictedBlockNo none
    freeBlock := popped.2
    block := update die.block evictedBlockNo
      { die.block evictedBlockNo with free := false }
    freeBlockCnt := die.freeBlockCnt - 1 }

/-- `none` is `BLOCK_FAIL`. -/
def getFromFbList : GetFreeBlockOption → Except FtlAssert (DieMap × Option Nat)
  | .normal =>
    if die.freeBlockCnt ≤ reservedFreeBlockCount then
      .ok (die, none)
    else
      match die.freeBlock.head with
      | none => .error .wildBlockNumber
      | some evictedBlockNo => .ok (die.takeFreeBlock evictedBlockNo, some evictedBlockNo)
  | .gc =>
    match die.freeBlock.head with
    | none => .ok (die, none)
    | some evictedBlockNo => .ok (die.takeFreeBlock evictedBlockNo, some evictedBlockNo)

def putToGcVictimList (blockNo invalidSliceCnt : Nat) : DieMap :=
  let pushed := pushBack die.link (die.gcVictimList invalidSliceCnt) blockNo
  { die with
    link := pushed.1
    gcVictimList := update die.gcVictimList invalidSliceCnt pushed.2 }

/-- The part of `GetFromGcVictimList` that takes the head of one list. -/
def takeVictimBlock (invalidSliceCnt evictedBlockNo : Nat) : DieMap :=
  let popped := popFront die.link (die.gcVictimList invalidSliceCnt) evictedBlockNo
  { die with
    link := popped.1
    gcVictimList := update die.gcVictimList invalidSliceCnt popped.2 }

/-- The loop of `GetFromGcVictimList`, with `invalidSliceCnt` lists still to search. -/
def getFromGcVictimList : Nat → Except FtlAssert (DieMap × Nat)
  | 0 => .error .noVictimBlock
  | invalidSliceCnt + 1 =>
    match (die.gcVictimList (invalidSliceCnt + 1)).head with
    | none => getFromGcVictimList invalidSliceCnt
    | some evictedBlockNo =>
      .ok (die.takeVictimBlock (invalidSliceCnt + 1) evictedBlockNo, evictedBlockNo)

def selectiveGetFromGcVictimList (blockNo : Nat) : DieMap :=
  let invalidSliceCnt := (die.block blockNo).invalidSliceCnt
  let unlinked := unlink die.link (die.gcVictimList invalidSliceCnt) blockNo
  { die with
    link := unlinked.1
    gcVictimList := update die.gcVictimList invalidSliceCnt unlinked.2 }

/-- The list work of `InvalidateOldVsa`: the block moves to the next victim list. -/
def invalidateSlice (blockNo : Nat) : DieMap :=
  let unlinked := die.selectiveGetFromGcVictimList blockNo
  let counted := unlinked.setBlock blockNo
    { unlinked.block blockNo with
      invalidSliceCnt := (unlinked.block blockNo).invalidSliceCnt + 1 }
  counted.putToGcVictimList blockNo (counted.block blockNo).invalidSliceCnt

/-- `block[dieNo][blockNo].currentPage++`. -/
def bumpPage (blockNo : Nat) : DieMap :=
  die.setBlock blockNo
    { die.block blockNo with currentPage := (die.block blockNo).currentPage + 1 }

/-- The block map part of `EraseBlock`. -/
def eraseBlock (blockNo : Nat) : DieMap :=
  (die.setBlock blockNo
    { die.block blockNo with
      free := true
      eraseCnt := ((die.block blockNo).eraseCnt + 1) % 2 ^ 16
      invalidSliceCnt := 0
      currentPage := 0 }).putToFbList blockNo

end DieMap

/-- A request that garbage collection hands to `SelectLowLevelReqQ`.  A copied slice
passes through the temporary buffer entry of its die. -/
inductive NandReq
  | read (logicalSliceAddr virtualSliceAddr tempEntry : Nat)
  | write (logicalSliceAddr virtualSliceAddr tempEntry : Nat)
  | erase (virtualSliceAddr programmedPageCnt : Nat)
deriving DecidableEq, Repr

/-- The translation maps.  `targetCh` and `targetWay` are the static variables of
`FindDieForFreeSliceAllocation`, and `nandReqs` lists the requests handed over. -/
structure AddressMap where
  logicalSlice : Nat → Option Nat
  virtualSlice : Nat → Option Nat
  die : Nat → DieMap
  sliceAllocationTargetDie : Nat
  targetCh : Nat
  targetWay : Nat
  nandReqs : List NandReq

namespace AddressMap

variable (geo : Geometry) (maps : AddressMap)

def setDie (dieNo : Nat) (die : DieMap) : AddressMap :=
  { maps with die := update maps.die dieNo die }

def emit (req : NandReq) : AddressMap :=
  { maps with nandReqs := maps.nandReqs ++ [req] }

def mapSlice (logicalSliceAddr virtualSliceAddr : Nat) : AddressMap :=
  { maps with
    logicalSlice := update maps.logicalSlice logicalSliceAddr (some virtualSliceAddr)
    virtualSlice := update maps.virtualSlice virtualSliceAddr (some logicalSliceAddr) }

def findDieForFreeSliceAllocation : AddressMap :=
  let targetDie := geo.pcw2Vdie maps.targetCh maps.targetWay
  if maps.targetCh ≠ geo.userChannels - 1 then
    { maps with sliceAllocationTargetDie := targetDie, targetCh := maps.targetCh + 1 }
  else
    { maps with
      sliceAllocationTargetDie := targetDie
      targetCh := 0
      targetWay := (maps.targetWay + 1) % geo.userWays }

def invalidateOldVsa (logicalSliceAddr : Nat) : AddressMap :=
  match maps.logicalSlice logicalSliceAddr with
  | none => maps
  | some virtualSliceAddr =>
    if maps.virtualSlice virtualSliceAddr ≠ some logicalSliceAddr then
      maps
    else
      let dieNo := geo.vsa2Vdie virtualSliceAddr
      let blockNo := geo.vsa2Vblock virtualSliceAddr
      { maps.setDie dieNo ((maps.die dieNo).invalidateSlice blockNo) with
        logicalSlice := update maps.logicalSlice logicalSliceAddr none }

/-- The last loop of `EraseBlock`. -/
def clearVirtualSlices (dieNo blockNo : Nat) : AddressMap :=
  (List.range geo.userPagesPerBlock).foldl (fun maps pageNo =>
    { maps with
      virtualSlice :=
        update maps.virtualSlice (geo.vorg2Vsa dieNo blockNo pageNo) none }) maps

def eraseBlock (dieNo blockNo : Nat) : AddressMap :=
  let programmedPageCnt := ((maps.die dieNo).block blockNo).currentPage
  let emitted := maps.emit (.erase (geo.vorg2Vsa dieNo blockNo 0) programmedPageCnt)
  (emitted.setDie dieNo ((emitted.die dieNo).eraseBlock blockNo)).clearVirtualSlices
    geo dieNo blockNo

/-- `die[dieNo].currentBlock = GetFromFbList(..)`, where `BLOCK_FAIL` runs into the assert. -/
def openFreeBlock (dieNo : Nat) (option : GetFreeBlockOption) : Except FtlAssert AddressMap := do
  let (die, evictedBlockNo) ← (maps.die dieNo).getFromFbList option
  match evictedBlockNo with
  | none => .error .noAvailableBlock
  | some blockNo => .ok (maps.setDie dieNo { die with currentBlock := blockNo })

/-- The current page of the current block of a die. -/
def currentPage (dieNo : Nat) : Nat :=
  ((maps.die dieNo).block (maps.die dieNo).currentBlock).currentPage

/-- The end of both slice allocators: hand out the next page of the current block. -/
def takePage (dieNo : Nat) : AddressMap × Nat :=
  let currentBlock := (maps.die dieNo).currentBlock
  (maps.setDie dieNo ((maps.die dieNo).bumpPage currentBlock),
    geo.vorg2Vsa dieNo currentBlock (maps.currentPage dieNo))

def findFreeVirtualSliceForGc (dieNo victimBlockNo : Nat) :
    Except FtlAssert (AddressMap × Nat) := do
  let maps ←
    if victimBlockNo = (maps.die dieNo).currentBlock then
      maps.openFreeBlock dieNo .gc
    else
      .ok maps
  if maps.currentPage dieNo = geo.userPagesPerBlock then
    let maps ← maps.openFreeBlock dieNo .gc
    .ok (maps.takePage geo dieNo)
  else if maps.currentPage dieNo > geo.userPagesPerBlock then
    .error .currentPageManagement
  else
    .ok (maps.takePage geo dieNo)

/-- One iteration of the copy loop of `GarbageCollection`. -/
def gcCopyPage (dieNo victimBlockNo : Nat) (maps : AddressMap) (pageNo : Nat) :
    Except FtlAssert AddressMap :=
  let virtualSliceAddr := geo.vorg2Vsa dieNo victimBlockNo pageNo
  match maps.virtualSlice virtualSliceAddr with
  | none => .ok maps
  | some logicalSliceAddr =>
    if maps.logicalSlice logicalSliceAddr = some virtualSliceAddr then do
      let maps := maps.emit (.read logicalSliceAddr virtualSliceAddr dieNo)
      let (maps, copyTarget) ← maps.findFreeVirtualSliceForGc geo dieNo victimBlockNo
      .ok ((maps.mapSlice logicalSliceAddr copyTarget).emit
        (.write logicalSliceAddr copyTarget dieNo))
    else
      .ok maps

def garbageCollection (dieNo : Nat) : Except FtlAssert AddressMap := do
  let (die, victimBlockNo) ← (maps.die dieNo).getFromGcVictimList geo.userPagesPerBlock
  let maps := maps.setDie dieNo die
  if (die.block victimBlockNo).invalidSliceCnt ≠ geo.userPagesPerBlock then
    let maps ← (List.range geo.userPagesPerBlock).foldlM
      (gcCopyPage geo dieNo victimBlockNo) maps
    .ok (maps.eraseBlock geo dieNo victimBlockNo)
  else
    .ok (maps.eraseBlock geo dieNo victimBlockNo)

/-- The first part of `FindFreeVirtualSlice`: make sure that the current block of the
die has a page left. -/
def prepareCurrentBlock (dieNo : Nat) : Except FtlAssert AddressMap := do
  if maps.currentPage dieNo = geo.userPagesPerBlock then
    let (die, evictedBlockNo) ← (maps.die dieNo).getFromFbList .normal
    match evictedBlockNo with
    | some blockNo => .ok (maps.setDie dieNo { die with currentBlock := blockNo })
    | none =>
      let maps ← maps.garbageCollection geo dieNo
      if maps.currentPage dieNo = geo.userPagesPerBlock then
        maps.openFreeBlock dieNo .normal
      else if maps.currentPage dieNo > geo.userPagesPerBlock then
        .error .currentPageManagement
      else
        .ok maps
  else if maps.currentPage dieNo > geo.userPagesPerBlock then
    .error .currentPageManagement
  else
    .ok maps

def findFreeVirtualSlice : Except FtlAssert (AddressMap × Nat) := do
  let dieNo := maps.sliceAllocationTargetDie
  let maps ← maps.prepareCurrentBlock geo dieNo
  let (maps, virtualSliceAddr) := maps.takePage geo dieNo
  .ok (maps.findDieForFreeSliceAllocation geo, virtualSliceAddr)

def addrTransRead (logicalSliceAddr : Nat) : Except FtlAssert (Option Nat) :=
  if logicalSliceAddr < geo.slicesPerSsd then
    .ok (maps.logicalSlice logicalSliceAddr)
  else
    .error .logicalAddressTooLarge

def addrTransWrite (logicalSliceAddr : Nat) : Except FtlAssert (AddressMap × Nat) :=
  if logicalSliceAddr < geo.slicesPerSsd then do
    let (maps, virtualSliceAddr) ←
      (maps.invalidateOldVsa geo logicalSliceAddr).findFreeVirtualSlice geo
    .ok (maps.mapSlice logicalSliceAddr virtualSliceAddr, virtualSliceAddr)
  else
    .error .logicalAddressTooLarge

end AddressMap

end RwRbuf.Firmware
