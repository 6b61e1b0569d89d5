import RwRbuf.Firmware.SliceWrite

/-! # Start-up of the translation maps

`InitAddressMap`, from the bad-block table that was recovered from flash to the first
current block of every die.  The loops of the source over blocks and dies touch one die
per iteration, so they are written here per die.
-/

namespace RwRbuf.Firmware

open LinkedList Fallible Function

/-! ## Remapping bad blocks -/

/-- The variables of `RemapBadBlock` that belong to one die. -/
structure DieRemap where
  remappedPhyBlock : Nat → Nat
  reservedBlockOfLun0 : Nat
  reservedBlockOfLun1 : Nat
  badBlockCount : Nat

/-- The `while` loop that skips bad reserved blocks; the flag is `remapFlag`. -/
def skipBadReserved (bad : Nat → Bool) (limit : Nat) : Nat → Nat → Nat × Bool
  | 0, reserved => (reserved, false)
  | fuel + 1, reserved =>
    if bad reserved then
      if reserved + 1 ≥ limit then (reserved + 1, false)
      else skipBadReserved bad limit fuel (reserved + 1)
    else (reserved, true)

/-- The reserved block for one bad block, if any, and the next candidate after it. -/
def reserveBlock (bad : Nat → Bool) (limit reserved : Nat) : Nat × Option Nat :=
  if reserved < limit then
    let skipped := skipBadReserved bad limit (limit - reserved) reserved
    if skipped.2 then (skipped.1 + 1, some skipped.1) else (skipped.1, none)
  else (reserved, none)

namespace DieRemap

def remap (remap : DieRemap) (phyBlockNo : Nat) : Option Nat → DieRemap
  | some reserved =>
    { remap with
      remappedPhyBlock := update remap.remappedPhyBlock phyBlockNo reserved }
  | none => { remap with badBlockCount := remap.badBlockCount + 1 }

def remapLun0 (geo : Geometry) (bad : Nat → Bool) (remap : DieRemap) (blockNo : Nat) : DieRemap :=
  if bad blockNo then
    let reserved := reserveBlock bad geo.totalBlocksPerLun remap.reservedBlockOfLun0
    { remap.remap blockNo reserved.2 with reservedBlockOfLun0 := reserved.1 }
  else remap

def remapLun1 (geo : Geometry) (bad : Nat → Bool) (remap : DieRemap) (blockNo : Nat) : DieRemap :=
  if bad (blockNo + geo.totalBlocksPerLun) then
    let reserved := reserveBlock bad geo.totalBlocksPerDie remap.reservedBlockOfLun1
    { remap.remap (blockNo + geo.totalBlocksPerLun) reserved.2 with
      reservedBlockOfLun1 := reserved.1 }
  else remap

end DieRemap

/-- `RemapBadBlock` on one die. -/
def remapBadBlock (geo : Geometry) (bad : Nat → Bool) : DieRemap :=
  (List.range geo.userBlocksPerLun).foldl
    (fun remap blockNo => (remap.remapLun0 geo bad blockNo).remapLun1 geo bad blockNo)
    { remappedPhyBlock := id
      reservedBlockOfLun0 := geo.userBlocksPerLun
      reservedBlockOfLun1 := geo.totalBlocksPerLun + geo.userBlocksPerLun
      badBlockCount := 0 }

/-! ## The block map and the first current block -/

/-- A die map before `InitBlockMap`, with the empty lists of `InitDieMap` and
`InitGcVictimMap`. -/
def DieMap.initial : DieMap where
  block _ := ⟨false, false, 0, 0, 0⟩
  link := ⟨fun _ => none, fun _ => none⟩
  currentBlock := 0
  freeBlock := Ends.empty
  freeBlockCnt := 0
  gcVictimList _ := Ends.empty

/-- One iteration of `InitBlockMap`. -/
def DieMap.initBlock (geo : Geometry) (bad : Nat → Bool) (remapped : Nat → Nat) (die : DieMap)
    (virtualBlockNo : Nat) : DieMap :=
  let blockBad := bad (remapped (geo.vblock2PblockOfTbs virtualBlockNo))
  let die := die.setBlock virtualBlockNo ⟨blockBad, true, 0, 0, 0⟩
  if blockBad then
    { die with link := (die.link.setPrev virtualBlockNo none).setNext virtualBlockNo none }
  else
    die.putToFbList virtualBlockNo

def DieMap.initBlockMap (geo : Geometry) (bad : Nat → Bool) (remapped : Nat → Nat) : DieMap :=
  (List.range geo.userBlocksPerDie).foldl (DieMap.initBlock geo bad remapped) DieMap.initial

/-- `InitBlockDieMap` on one die, for the bad-block table `bad`: the block that stores the
table is retired, and the first free block becomes the current one. -/
def DieMap.initDie (geo : Geometry) (bad : Nat → Bool) : Except FtlAssert DieMap := do
  let bad := update bad 0 true
  let die := DieMap.initBlockMap geo bad (remapBadBlock geo bad).remappedPhyBlock
  let (die, currentBlock) ← die.getFromFbList .normal
  match currentBlock with
  | none => .error .noFreeBlock
  | some blockNo => .ok { die with currentBlock := blockNo }

namespace AddressMap

/-- The slice maps of `InitSliceMap` and the target of the first slice. -/
def initial (geo : Geometry) : AddressMap :=
  { logicalSlice := fun _ => none
    virtualSlice := fun _ => none
    die := fun _ => DieMap.initial
    sliceAllocationTargetDie := 0
    targetCh := 0
    targetWay := 0
    nandReqs := [] : AddressMap }.findDieForFreeSliceAllocation geo

def initDieOf (geo : Geometry) (bad : Nat → Nat → Bool) (maps : AddressMap) (dieNo : Nat) :
    Except FtlAssert AddressMap := do
  let die ← DieMap.initDie geo (bad dieNo)
  .ok (maps.setDie dieNo die)

def initAddressMap (geo : Geometry) (bad : Nat → Nat → Bool) : Except FtlAssert AddressMap :=
  (List.range geo.userDies).foldlM (initDieOf geo bad) (initial geo)

end AddressMap

/-! ## Start-up establishes the invariant -/

namespace DieMap

variable {geo : Geometry} {bad : Nat → Bool} {remapped : Nat → Nat}

/-- The lists of a die on which only the blocks in `free` were put on a list. -/
private def freeOnly (geo : Geometry) (free : List Nat) :
    Option (Fin geo.userPagesPerBlock) → List Nat
  | none => free
  | some _ => []

/-- The state of the loop of `InitBlockMap` before block `count`. -/
private structure Initialising (geo : Geometry) (count : Nat) (die : DieMap) : Prop where
  listed : ∃ free, die.Listed geo none (freeOnly geo free) ∧
    (∀ blockNo, blockNo ∈ free ↔ blockNo < count ∧ die.Usable geo blockNo) ∧
    ∀ blockNo ∈ free, (die.block blockNo).free = true
  noPages : ∀ blockNo, (die.block blockNo).currentPage = 0
  noInvalid : ∀ blockNo, (die.block blockNo).invalidSliceCnt = 0

private theorem initialising_initial : Initialising geo 0 DieMap.initial := by
  refine ⟨⟨[], ⟨⟨?_, ?_⟩, by simp [freeOnly], ?_, rfl⟩, by simp, by simp⟩, fun _ => rfl,
    fun _ => rfl⟩
  · intro key
    cases key with
    | none | some index => exact holds_empty _
  · intro key key' node inFirst
    cases key <;> simp [freeOnly] at inFirst
  · intro index blockNo
    simp [freeOnly, DieMap.initial]

private theorem setBlock_usable {die : DieMap} {blockNo other : Nat} {entry : VirtualBlockEntry}
    (different : other ≠ blockNo) :
    (die.setBlock blockNo entry).Usable geo other ↔ die.Usable geo other := by
  simp [Usable, setBlock, different]

private theorem Initialising.step {count : Nat} {die : DieMap}
    (initialising : Initialising geo count die) (bound : count < geo.userBlocksPerDie) :
    Initialising geo (count + 1) (die.initBlock geo bad remapped count) := by
  obtain ⟨⟨free, listed, freeMem, freeFlag⟩, noPages, noInvalid⟩ := initialising
  have notListed : ∀ key, count ∉ freeOnly geo free key := by
    intro key
    cases key with
    | none =>
      intro member
      exact absurd ((freeMem count).mp member).1 (lt_irrefl _)
    | some index => simp [freeOnly]
  have freeNe : ∀ blockNo ∈ free, blockNo ≠ count := by
    rintro blockNo member rfl
    exact notListed none member
  unfold initBlock
  cases blockBad : bad (remapped (geo.vblock2PblockOfTbs count)) with
  | true =>
    simp only [if_true]
    refine ⟨⟨free, ⟨?_, ?_, ?_, listed.free_count⟩, ?_, ?_⟩, ?_, ?_⟩
    · refine (show Family die.link (die.header geo) _ from listed.family).congr ?_
      intro key node member
      have : node ≠ count := by
        rintro rfl
        exact notListed key member
      simp [setBlock, this]
    · intro blockNo member
      have different := freeNe blockNo member
      have old := listed.free_mem blockNo member
      exact ⟨(setBlock_usable different).mpr old.1, by simpa [setBlock, different] using old.2⟩
    · intro index blockNo
      by_cases same : blockNo = count <;>
        simp [freeOnly, setBlock, same, noInvalid]
    · intro blockNo
      by_cases same : blockNo = count
      · subst same
        have notFree : blockNo ∉ free := fun member => freeNe blockNo member rfl
        simp [notFree, Usable, setBlock]
      · rw [freeMem blockNo]
        have usableIff := @setBlock_usable geo die count blockNo
          ⟨true, true, 0, 0, 0⟩ same
        constructor
        · rintro ⟨below, usable⟩
          exact ⟨by omega, usableIff.mpr usable⟩
        · rintro ⟨below, usable⟩
          exact ⟨by omega, usableIff.mp usable⟩
    · intro blockNo member
      simpa [setBlock, freeNe blockNo member] using freeFlag blockNo member
    · intro blockNo
      by_cases same : blockNo = count <;> simp [setBlock, same, noPages]
    · intro blockNo
      by_cases same : blockNo = count <;> simp [setBlock, same, noInvalid]
  | false =>
    simp only [Bool.false_eq_true, if_false]
    have pushed := listed.family.pushBack none notListed
    have listsEq : update (freeOnly geo free) none (freeOnly geo free none ++ [count]) =
        freeOnly geo (free ++ [count]) := by
      funext key
      cases key <;> simp [freeOnly]
    have headerEq : ((die.setBlock count ⟨false, true, 0, 0, 0⟩).putToFbList count).header geo =
        update (die.header geo) none (pushBack die.link (die.header geo none) count).2 := by
      funext key
      cases key <;> simp [header, putToFbList, setBlock]
    refine ⟨⟨free ++ [count], ⟨?_, ?_, ?_, ?_⟩, ?_, ?_⟩, ?_, ?_⟩
    · rw [headerEq, ← listsEq]
      exact pushed
    · intro blockNo member
      by_cases same : blockNo = count
      · subst same
        simp [Usable, putToFbList, setBlock, bound]
      · have inFree : blockNo ∈ free := by simpa [freeOnly, same] using member
        simpa [Usable, putToFbList, setBlock, same] using listed.free_mem blockNo inFree
    · intro index blockNo
      by_cases same : blockNo = count <;>
        simp [freeOnly, putToFbList, setBlock, same, noInvalid]
    · have := listed.free_count
      simp only [freeOnly] at this
      simp [putToFbList, setBlock, freeOnly, this]
    · intro blockNo
      by_cases same : blockNo = count
      · subst same
        simp [Usable, putToFbList, setBlock, bound]
      · have := freeMem blockNo
        simp only [List.mem_append, List.mem_singleton, same, or_false, this, Usable,
          putToFbList, setBlock, ne_eq, not_false_eq_true, update_of_ne]
        constructor
        · rintro ⟨below, usable⟩
          exact ⟨by omega, usable⟩
        · rintro ⟨below, usable⟩
          exact ⟨by omega, usable⟩
    · intro blockNo member
      by_cases same : blockNo = count
      · simp [putToFbList, setBlock, same]
      · have inFree : blockNo ∈ free := by simpa [same] using member
        simpa [putToFbList, setBlock, same] using freeFlag blockNo inFree
    · intro blockNo
      by_cases same : blockNo = count <;> simp [putToFbList, setBlock, same, noPages]
    · intro blockNo
      by_cases same : blockNo = count <;> simp [putToFbList, setBlock, same, noInvalid]

private theorem initialising_run (count : Nat) (bound : count ≤ geo.userBlocksPerDie) :
    Initialising geo count
      ((List.range count).foldl (DieMap.initBlock geo bad remapped) DieMap.initial) := by
  induction count with
  | zero => exact initialising_initial
  | succ count ih =>
    rw [List.range_succ, List.foldl_append]
    exact (ih (by omega)).step (by omega)

/-- A die as start-up leaves it: lists and roles in order, and no page handed out. -/
structure Fresh (geo : Geometry) (die : DieMap) : Prop where
  lists : ∃ lists, die.Listed geo none lists ∧ die.Loose geo (lists none) ∧
    die.Roles geo (lists none)
  noPages : ∀ blockNo, (die.block blockNo).currentPage = 0
  noInvalid : ∀ blockNo, (die.block blockNo).invalidSliceCnt = 0
  reserve : 1 ≤ die.freeBlockCnt

theorem initDie_fresh {bad : Nat → Bool} {die : DieMap}
    (initialised : DieMap.initDie geo bad = .ok die) : die.Fresh geo := by
  have ready : Initialising geo geo.userBlocksPerDie (DieMap.initBlockMap geo (update bad 0 true)
      (remapBadBlock geo (update bad 0 true)).remappedPhyBlock) :=
    initialising_run geo.userBlocksPerDie le_rfl
  simp only [initDie] at initialised
  generalize DieMap.initBlockMap geo (update bad 0 true)
    (remapBadBlock geo (update bad 0 true)).remappedPhyBlock = start
      at ready initialised
  obtain ⟨⟨free, listed, freeMem, freeFlag⟩, noPages, noInvalid⟩ := ready
  rcases getFromFbList_normal listed with ⟨_, failed⟩ | ⟨blockNo, rest, listEq, above, taken⟩
  · simp [failed, bind, Except.bind] at initialised
  · have dieEq : die = { start.takeFreeBlock blockNo with currentBlock := blockNo } := by
      simpa [taken, bind, Except.bind] using initialised.symm
    have same := sameBlocks_openBlock start blockNo
    have allFree : ∀ other, start.Usable geo other → other ∈ free :=
      fun other usable => (freeMem other).mpr ⟨usable.1, usable⟩
    have freeEq : free = blockNo :: rest := listEq
    have nodup : (blockNo :: rest).Nodup := listEq ▸ (listed.family.holds none).nodup
    rw [← dieEq] at same
    have pageZero : ∀ other, (die.block other).currentPage = 0 :=
      fun other => (same.currentPage other).trans (noPages other)
    refine ⟨⟨update (freeOnly geo free) none rest, ?_, ?_, ?_⟩, pageZero,
      fun other => (same.invalidSliceCnt other).trans (noInvalid other), ?_⟩
    · rw [dieEq]
      exact (listed.takeFreeBlock listEq).congr rfl rfl rfl rfl (fun _ => rfl) fun _ => rfl
    · rw [update_self, dieEq]
      refine Loose.takeFreeBlock listed ?_ listEq
      intro other usable notFree
      exact absurd (allFree other usable) notFree
    · rw [update_self]
      have currentEq : die.currentBlock = blockNo := by rw [dieEq]
      refine ⟨?_, ?_, ?_, ?_, ?_⟩
      · intro other member
        have different : other ≠ blockNo := by
          rintro rfl
          exact (List.nodup_cons.mp nodup).1 member
        refine ⟨?_, pageZero other⟩
        rw [dieEq]
        simpa [takeFreeBlock, different] using freeFlag other (by simp [freeEq, member])
      · rw [currentEq, same.usable]
        exact ((freeMem blockNo).mp (by simp [freeEq])).2
      · rw [currentEq]
        exact (List.nodup_cons.mp nodup).1
      · rw [pageZero]
        exact Nat.zero_le _
      · intro other usable notFree notCurrent
        rw [same.usable] at usable
        have := allFree other usable
        rw [currentEq] at notCurrent
        simp [freeEq, notCurrent, notFree] at this
    · have := listed.free_count
      rw [dieEq]
      simp only [takeFreeBlock]
      unfold reservedFreeBlockCount at above
      omega

end DieMap

namespace AddressMap

variable {geo : Geometry} {bad : Nat → Nat → Bool}

structure Initialised (geo : Geometry) (maps : AddressMap) : Prop where
  target : maps.TargetInRange geo
  noSlices : ∀ logicalSliceAddr, maps.logicalSlice logicalSliceAddr = none
  dies : ∀ dieNo < geo.userDies, (maps.die dieNo).Fresh geo

theorem initAddressMap_initialised {maps : AddressMap}
    (initialised : initAddressMap geo bad = .ok maps) : Initialised geo maps := by
  have loop := loop_invariant (fun count (maps : AddressMap) => maps.TargetInRange geo ∧
      (∀ logicalSliceAddr, maps.logicalSlice logicalSliceAddr = none) ∧
      ∀ dieNo < count, (maps.die dieNo).Fresh geo) ?_ ?_ initialised
  · exact ⟨loop.1, loop.2.1, loop.2.2⟩
  · refine ⟨TargetInRange.findDie geo.channels_pos geo.ways_pos, ?_, by simp⟩
    simp [initial]
  · rintro count bound maps maps' ⟨target, noSlices, dies⟩ stepped
    rw [initDieOf, bind_eq_ok] at stepped
    obtain ⟨die, dieEq, mapsEq⟩ := stepped
    rw [← Except.ok.inj mapsEq]
    refine ⟨⟨target.die_lt, target.ch_lt, target.way_lt⟩, noSlices, ?_⟩
    intro dieNo below
    rw [setDie_die]
    split
    · exact DieMap.initDie_fresh dieEq
    · exact dies dieNo (by omega)

theorem Initialised.consistent {maps : AddressMap} (initialised : Initialised geo maps) :
    maps.Consistent geo := by
  refine ⟨initialised.target, ⟨?_, ?_, ?_⟩, ?_,
    fun dieNo bound => (initialised.dies dieNo bound).lists⟩
  · intro logicalSliceAddr virtualSliceAddr mapped
    rw [initialised.noSlices] at mapped
    cases mapped
  · intro logicalSliceAddr virtualSliceAddr mapped
    rw [initialised.noSlices] at mapped
    cases mapped
  · intro dieNo bound blockNo _
    rw [(initialised.dies dieNo bound).noPages]
    exact Nat.zero_le _
  · intro dieNo bound blockNo _ _
    rw [(initialised.dies dieNo bound).noInvalid, staleCount,
      (initialised.dies dieNo bound).noPages]
    rfl

def writeSlice (geo : Geometry) (maps : AddressMap) (logicalSliceAddr : Nat) : Option AddressMap :=
  (maps.addrTransWrite geo logicalSliceAddr).toOption.map Prod.fst

theorem initAddressMap_tiny : (initAddressMap .tiny fun _ _ => false).toOption.isSome = true := by
  decide +kernel

/-- The small device without bad blocks, after start-up. -/
def tinyMaps : AddressMap :=
  (initAddressMap .tiny fun _ _ => false).toOption.get initAddressMap_tiny

theorem initAddressMap_eq_tinyMaps : initAddressMap .tiny (fun _ _ => false) = .ok tinyMaps :=
  ok_of_toOption (Option.some_get initAddressMap_tiny).symm

end AddressMap

end RwRbuf.Firmware
