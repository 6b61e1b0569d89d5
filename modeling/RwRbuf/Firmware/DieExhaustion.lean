import RwRbuf.Firmware.FreeSpace
import RwRbuf.Firmware.RowAddress

/-! # A die that fills up below the advertised capacity

`InitFTL` advertises the space of all dies together, less a reserve per die and a tenth
for over-provisioning.  Slices are placed on the dies in turn, whatever lies there
already, so a host can fill one die with live slices while the others hold stale
copies only.  The next write to that die finds nothing to collect.
-/

namespace RwRbuf.Firmware

/-! ## The advertised capacity -/

/-- `maxBadBlockCount` of `RemapBadBlock`. -/
def maxBadBlockCount (geo : Geometry) (bad : Nat → Nat → Bool) : Nat :=
  (List.range geo.userDies).foldl (fun maxBadBlockCount dieNo =>
    if maxBadBlockCount < (remapBadBlock geo (startUpBad bad dieNo)).badBlockCount
    then (remapBadBlock geo (startUpBad bad dieNo)).badBlockCount else maxBadBlockCount) 0

/-- `mbPerbadBlockSpace`, for the bad blocks that no reserved block replaces. -/
def mbPerbadBlockSpace (geo : Geometry) (bad : Nat → Nat → Bool) : Nat :=
  maxBadBlockCount geo bad * geo.userDies * geo.mbPerBlock % 2 ^ 32

/-- `storageCapacity_L`, in NVMe blocks.  The source computes it with 32-bit numbers. -/
def storageCapacity (geo : Geometry) (bad : Nat → Nat → Bool) : Nat :=
  let mbPerSsd := geo.userBlocksPerSsd * geo.mbPerBlock
  let mbPerMinFreeBlockSpace := geo.userDies * geo.mbPerBlock
  let mbPerOverProvisionBlockSpace := geo.userBlocksPerSsd / 10 * geo.mbPerBlock
  let withheld := mbPerMinFreeBlockSpace + mbPerbadBlockSpace geo bad + mbPerOverProvisionBlockSpace
  (mbPerSsd + 2 ^ 32 - withheld % 2 ^ 32) % 2 ^ 32 * ((1024 * 1024) / 4096) % 2 ^ 32

/-- All NVMe blocks of the slice are below the advertised capacity. -/
def BelowCapacity (geo : Geometry) (bad : Nat → Nat → Bool) (logicalSliceAddr : Nat) : Prop :=
  (logicalSliceAddr + 1) * nvmeBlocksPerSlice ≤ storageCapacity geo bad

namespace AddressMap

open Fallible Function

variable {geo : Geometry} {maps : AddressMap} {dieNo logicalSliceAddr : Nat}

/-! ## Writes that collect nothing -/

theorem findDie_round (chBound : maps.targetCh < geo.userChannels)
    (wayBound : maps.targetWay < geo.userWays) :
    (maps.findDieForFreeSliceAllocation geo).sliceAllocationTargetDie =
        geo.pcw2Vdie maps.targetCh maps.targetWay ∧
      geo.pcw2Vdie (maps.findDieForFreeSliceAllocation geo).targetCh
          (maps.findDieForFreeSliceAllocation geo).targetWay =
        (geo.pcw2Vdie maps.targetCh maps.targetWay + 1) % geo.userDies := by
  unfold findDieForFreeSliceAllocation
  split
  · rename_i notLast
    refine ⟨rfl, ?_⟩
    have inRange : maps.targetCh + 1 + maps.targetWay * geo.userChannels < geo.userDies := by
      unfold Geometry.userDies
      calc maps.targetCh + 1 + maps.targetWay * geo.userChannels
          < geo.userChannels + maps.targetWay * geo.userChannels := by omega
        _ = geo.userChannels * (maps.targetWay + 1) := by ring
        _ ≤ geo.userChannels * geo.userWays := Nat.mul_le_mul_left _ wayBound
    simp only [Geometry.pcw2Vdie]
    rw [Nat.mod_eq_of_lt (by omega)]
    omega
  · rename_i last
    refine ⟨rfl, ?_⟩
    have sumEq : geo.pcw2Vdie maps.targetCh maps.targetWay + 1 =
        geo.userChannels * (maps.targetWay + 1) := by
      have : maps.targetCh + 1 = geo.userChannels := by omega
      unfold Geometry.pcw2Vdie
      calc maps.targetCh + maps.targetWay * geo.userChannels + 1
          = maps.targetCh + 1 + maps.targetWay * geo.userChannels := by omega
        _ = geo.userChannels + maps.targetWay * geo.userChannels := by rw [this]
        _ = geo.userChannels * (maps.targetWay + 1) := by ring
    rw [sumEq, Geometry.userDies, Nat.mul_mod_mul_left]
    simp [Geometry.pcw2Vdie, Nat.mul_comm]

/-- Before a die reaches its reserve, a write to it leaves every slice and every count of
stale pages alone, and uses up one page. -/
structure PreparedWithoutCollection (geo : Geometry) (maps prepared : AddressMap) (dieNo : Nat) :
    Prop where
  otherDies : ∀ other ≠ dieNo, prepared.die other = maps.die other
  logicalSlice : prepared.logicalSlice = maps.logicalSlice
  targetEq : prepared.targetCh = maps.targetCh ∧ prepared.targetWay = maps.targetWay
  invalidEq : ∀ blockNo, ((prepared.die dieNo).block blockNo).invalidSliceCnt =
    ((maps.die dieNo).block blockNo).invalidSliceCnt
  reserve : 1 ≤ (prepared.die dieNo).freeBlockCnt
  pages : (prepared.die dieNo).freeBlockCnt * geo.userPagesPerBlock + maps.currentPage dieNo =
    (maps.die dieNo).freeBlockCnt * geo.userPagesPerBlock + prepared.currentPage dieNo
  pageLeft : prepared.currentPage dieNo < geo.userPagesPerBlock

theorem Consistent.prepare_without_collection (consistent : maps.Consistent geo)
    (dieBound : dieNo < geo.userDies) (reserve : 1 ≤ (maps.die dieNo).freeBlockCnt)
    (aboveReserve : maps.currentPage dieNo = geo.userPagesPerBlock →
      reservedFreeBlockCount < (maps.die dieNo).freeBlockCnt) :
    ∃ prepared, maps.prepareCurrentBlock geo dieNo = .ok prepared ∧
      PreparedWithoutCollection geo maps prepared dieNo := by
  obtain ⟨lists, listed, _, roles⟩ := consistent.dies dieNo dieBound
  have pageLe : maps.currentPage dieNo ≤ geo.userPagesPerBlock := roles.current_le
  have pagesPos := geo.pages_pos
  by_cases full : maps.currentPage dieNo = geo.userPagesPerBlock
  · rcases DieMap.getFromFbList_normal listed with
      ⟨atReserve, _⟩ | ⟨blockNo, rest, listEq, above, taken⟩
    · exact absurd (aboveReserve full) (Nat.not_lt.mpr atReserve)
    · have blockEmpty := (roles.free_empty blockNo (by simp [listEq])).2
      have pageEq : (maps.setDie dieNo { (maps.die dieNo).takeFreeBlock blockNo with
          currentBlock := blockNo }).currentPage dieNo = 0 := by
        simp [currentPage, blockEmpty]
      have countEq : ((maps.setDie dieNo { (maps.die dieNo).takeFreeBlock blockNo with
          currentBlock := blockNo }).die dieNo).freeBlockCnt + 1 =
            (maps.die dieNo).freeBlockCnt := by
        rw [setDie_die, if_pos rfl]
        simp only [DieMap.takeFreeBlock]
        omega
      refine ⟨maps.setDie dieNo
        { (maps.die dieNo).takeFreeBlock blockNo with currentBlock := blockNo }, ?_, ?_⟩
      · simp [prepareCurrentBlock, full, taken, bind, Except.bind]
      · refine ⟨fun other different => by simp [different], rfl, ⟨rfl, rfl⟩, ?_, ?_, ?_, ?_⟩
        · intro other
          simp
        · simp only [reservedFreeBlockCount] at above
          omega
        · rw [pageEq, full, ← countEq, Nat.add_mul, one_mul, Nat.add_zero]
        · rw [pageEq]
          exact pagesPos
  · have notAbove : ¬ maps.currentPage dieNo > geo.userPagesPerBlock := by omega
    exact ⟨maps, by simp [prepareCurrentBlock, full, notAbove],
      ⟨fun _ _ => rfl, rfl, ⟨rfl, rfl⟩, fun _ => rfl, reserve, rfl, by omega⟩⟩

/-! ## Filling die 0 -/

/-- The slice that write number `count` writes: a new one on die 0, slice 0 elsewhere. -/
def fillingSlice (geo : Geometry) (count : Nat) : Nat :=
  if count % geo.userDies = 0 then count / geo.userDies + 1 else 0

/-- How many of the first `count` writes went to the die. -/
def turns (geo : Geometry) (count dieNo : Nat) : Nat :=
  count / geo.userDies + if dieNo < count % geo.userDies then 1 else 0

theorem div_mod_succ (geo : Geometry) (count : Nat) :
    ((count + 1) % geo.userDies = 0 ∧ (count + 1) / geo.userDies = count / geo.userDies + 1 ∧
        count % geo.userDies + 1 = geo.userDies) ∨
      ((count + 1) % geo.userDies = count % geo.userDies + 1 ∧
        (count + 1) / geo.userDies = count / geo.userDies) := by
  have remainder := Nat.mod_lt count geo.userDies_pos
  have split := Nat.div_add_mod count geo.userDies
  by_cases last : count % geo.userDies + 1 = geo.userDies
  · left
    have countEq : count + 1 = geo.userDies * (count / geo.userDies + 1) := by
      rw [Nat.mul_add, mul_one]
      omega
    rw [countEq]
    exact ⟨Nat.mul_mod_right _ _, by rw [Nat.mul_div_cancel_left _ geo.userDies_pos], last⟩
  · right
    have countEq : count + 1 =
        geo.userDies * (count / geo.userDies) + (count % geo.userDies + 1) := by omega
    have below : count % geo.userDies + 1 < geo.userDies := by omega
    constructor
    · rw [countEq, Nat.mul_add_mod, Nat.mod_eq_of_lt below]
    · rw [countEq, Nat.mul_add_div geo.userDies_pos, Nat.div_eq_of_lt below, Nat.add_zero]

theorem turns_succ (dieBound : dieNo < geo.userDies) (count : Nat) :
    turns geo (count + 1) dieNo =
      turns geo count dieNo + if dieNo = count % geo.userDies then 1 else 0 := by
  unfold turns
  rcases div_mod_succ geo count with ⟨modEq, divEq, last⟩ | ⟨modEq, divEq⟩
  · rw [modEq, divEq]
    split_ifs <;> omega
  · rw [modEq, divEq]
    split_ifs <;> omega

/-- The maps after `count` writes, where every die started with `free` free blocks. -/
structure Filling (geo : Geometry) (free count : Nat) (maps : AddressMap) : Prop where
  consistent : maps.Consistent geo
  target : maps.sliceAllocationTargetDie = count % geo.userDies
  next : geo.pcw2Vdie maps.targetCh maps.targetWay = (count + 1) % geo.userDies
  reserve : ∀ dieNo < geo.userDies, 1 ≤ (maps.die dieNo).freeBlockCnt
  pages : ∀ dieNo < geo.userDies,
    (maps.die dieNo).freeBlockCnt * geo.userPagesPerBlock + turns geo count dieNo =
      free * geo.userPagesPerBlock + maps.currentPage dieNo
  noStale : ∀ blockNo, ((maps.die 0).block blockNo).invalidSliceCnt = 0
  elsewhere : ∀ virtualSliceAddr, maps.logicalSlice 0 = some virtualSliceAddr →
    geo.vsa2Vdie virtualSliceAddr ≠ 0
  later : ∀ slice, count ≤ slice * geo.userDies → maps.logicalSlice (slice + 1) = none

section

variable {free count : Nat} (filling : Filling geo free count maps)
include filling

/-- The slice of the next write is new, or it is slice 0 and lies on another die. -/
theorem Filling.dropped :
    ∀ blockNo, (((maps.invalidateOldVsa geo (fillingSlice geo count)).die 0).block
      blockNo).invalidSliceCnt = 0 := by
  intro blockNo
  rcases invalidateOldVsa_eq filling.consistent.placement (fillingSlice geo count) with
    ⟨_, unchanged⟩ | ⟨dieNo, _, _, handed, mapped, dropped⟩
  · rw [unchanged]
    exact filling.noStale blockNo
  · have notZero : dieNo ≠ 0 := by
      unfold fillingSlice at mapped
      split at mapped
      · rename_i onDieZero
        have dividend := Nat.div_add_mod count geo.userDies
        rw [filling.later (count / geo.userDies) (by rw [Nat.mul_comm]; omega)] at mapped
        cases mapped
      · have := filling.elsewhere _ mapped
        rwa [Geometry.vsa2Vdie_vorg2Vsa handed.die_lt] at this
    rw [dropped, dropSlice_die, if_neg (Ne.symm notZero)]
    exact filling.noStale blockNo

theorem Filling.aboveReserve (notFull : count < free * geo.userPagesPerBlock * geo.userDies)
    (full : maps.currentPage (count % geo.userDies) = geo.userPagesPerBlock) :
    reservedFreeBlockCount < (maps.die (count % geo.userDies)).freeBlockCnt := by
  have pages := filling.pages _ (Nat.mod_lt count geo.userDies_pos)
  have fewTurns : count / geo.userDies < free * geo.userPagesPerBlock :=
    Nat.div_lt_of_lt_mul (by rwa [Nat.mul_comm])
  rw [turns, if_neg (lt_irrefl _), Nat.add_zero, full] at pages
  by_contra atReserve
  have few : (maps.die (count % geo.userDies)).freeBlockCnt * geo.userPagesPerBlock ≤
      1 * geo.userPagesPerBlock :=
    Nat.mul_le_mul_right _ (Nat.not_lt.mp atReserve)
  omega

theorem Filling.step (notFull : count < free * geo.userPagesPerBlock * geo.userDies)
    (inDevice : fillingSlice geo count < geo.slicesPerSsd) :
    ∃ maps' virtualSliceAddr,
      maps.addrTransWrite geo (fillingSlice geo count) = .ok (maps', virtualSliceAddr) ∧
      Filling geo free (count + 1) maps' := by
  obtain ⟨droppedConsistent, same⟩ :=
    filling.consistent.invalidateOldVsa (fillingSlice geo count)
  have dieBound := Nat.mod_lt count geo.userDies_pos
  obtain ⟨prepared, preparedEq, without⟩ := @Consistent.prepare_without_collection geo _
    (count % geo.userDies) droppedConsistent dieBound
    (by rw [same.freeBlockCnt]; exact filling.reserve _ dieBound)
    (by rw [same.currentPage, same.freeBlockCnt]; exact filling.aboveReserve notFull)
  have targetEq := same.target.trans filling.target
  rw [← targetEq] at preparedEq
  have written := addrTransWrite_of_prepared inDevice preparedEq
  rw [targetEq] at written
  simp only at written
  refine ⟨_, _, written, ?_⟩
  have dieEq : ∀ other, ((((prepared.takePage geo (count % geo.userDies)).1
      |>.findDieForFreeSliceAllocation geo).mapSlice (fillingSlice geo count)
        (prepared.takePage geo (count % geo.userDies)).2).die other) =
      if other = count % geo.userDies then
        (prepared.die other).bumpPage (prepared.die other).currentBlock
      else (maps.invalidateOldVsa geo (fillingSlice geo count)).die other := by
    intro other
    by_cases isTarget : other = count % geo.userDies
    · simp [mapSlice, takePage, isTarget]
    · rw [if_neg isTarget, ← without.otherDies other isTarget]
      simp [mapSlice, takePage, isTarget]
  have sliceEq : ((((prepared.takePage geo (count % geo.userDies)).1
      |>.findDieForFreeSliceAllocation geo).mapSlice (fillingSlice geo count)
        (prepared.takePage geo (count % geo.userDies)).2).logicalSlice) =
      update maps.logicalSlice (fillingSlice geo count)
        (some (prepared.takePage geo (count % geo.userDies)).2) := by
    simp [mapSlice, takePage, without.logicalSlice, same.logicalSlice]
  have round := @findDie_round geo (prepared.takePage geo (count % geo.userDies)).1
    (by simpa [takePage, setDie, without.targetEq.1] using droppedConsistent.target.ch_lt)
    (by simpa [takePage, setDie, without.targetEq.2] using droppedConsistent.target.way_lt)
  have nextEq : geo.pcw2Vdie (prepared.takePage geo (count % geo.userDies)).1.targetCh
      (prepared.takePage geo (count % geo.userDies)).1.targetWay =
        (count + 1) % geo.userDies := by
    rw [← filling.next]
    simp only [takePage, setDie, without.targetEq.1, without.targetEq.2]
    rcases invalidateOldVsa_eq filling.consistent.placement (fillingSlice geo count) with
      ⟨_, unchanged⟩ | ⟨_, _, _, _, _, dropped⟩
    · rw [unchanged]
    · rw [dropped]
      rfl
  rw [nextEq] at round
  refine ⟨filling.consistent.write ?_ written, round.1, ?_, ?_, ?_, ?_, ?_, ?_⟩
  · rintro ⟨full, atReserve, _⟩
    rw [filling.target] at full atReserve
    exact absurd (filling.aboveReserve notFull full) (Nat.not_lt.mpr atReserve)
  · rw [← Nat.mod_add_mod]
    exact round.2
  · intro dieNo bound
    rw [dieEq]
    split
    · rename_i isTarget
      rw [isTarget]
      exact without.reserve
    · rw [same.freeBlockCnt]
      exact filling.reserve dieNo bound
  · intro dieNo bound
    have old := filling.pages dieNo bound
    rw [turns_succ bound, currentPage, dieEq]
    by_cases isTarget : dieNo = count % geo.userDies
    · have used := without.pages
      rw [same.freeBlockCnt, same.currentPage, ← isTarget] at used
      rw [if_pos isTarget, if_pos isTarget]
      change (prepared.die dieNo).freeBlockCnt * geo.userPagesPerBlock + _ = _ +
        (((prepared.die dieNo).bumpPage (prepared.die dieNo).currentBlock).block
          (prepared.die dieNo).currentBlock).currentPage
      rw [DieMap.bumpPage_currentPage, if_pos rfl]
      change _ = _ + (prepared.currentPage dieNo + 1)
      omega
    · have pageEq := same.currentPage dieNo
      rw [if_neg isTarget, if_neg isTarget, same.freeBlockCnt]
      rw [currentPage] at pageEq
      rw [pageEq]
      exact old
  · intro blockNo
    rw [dieEq]
    split
    · rename_i isTarget
      rw [DieMap.bumpPage_invalidSliceCnt, isTarget, without.invalidEq, ← isTarget]
      exact filling.dropped blockNo
    · exact filling.dropped blockNo
  · intro virtualSliceAddr mapped
    rw [sliceEq, update_apply] at mapped
    split at mapped
    · rename_i isSlice
      have notZero : count % geo.userDies ≠ 0 := by
        intro isZero
        simp [fillingSlice, isZero] at isSlice
      rw [← Option.some.inj mapped]
      simpa [takePage, dieBound] using notZero
    · exact filling.elsewhere virtualSliceAddr mapped
  · intro slice beyond
    have notSlice : slice + 1 ≠ fillingSlice geo count := by
      unfold fillingSlice
      split
      · rintro isSlice
        have dividend := Nat.div_mul_le_self count geo.userDies
        rw [← Nat.succ.inj isSlice] at dividend
        omega
      · omega
    rw [sliceEq, update_of_ne notSlice]
    exact filling.later slice (by omega)

end

/-- Die 0 is full of live slices: the next write to it has nothing to collect. -/
theorem Filling.no_victim {free : Nat}
    (filling : Filling geo free (free * geo.userPagesPerBlock * geo.userDies) maps)
    (inDevice : free * geo.userPagesPerBlock + 1 < geo.slicesPerSsd) :
    maps.addrTransWrite geo (free * geo.userPagesPerBlock + 1) = .error .noVictimBlock := by
  have sliceEq : fillingSlice geo (free * geo.userPagesPerBlock * geo.userDies) =
      free * geo.userPagesPerBlock + 1 := by
    simp [fillingSlice, geo.userDies_pos]
  have noStale := filling.dropped
  obtain ⟨droppedConsistent, same⟩ := filling.consistent.invalidateOldVsa
    (fillingSlice geo (free * geo.userPagesPerBlock * geo.userDies))
  have targetEq := same.target.trans filling.target
  rw [sliceEq] at noStale droppedConsistent same targetEq
  rw [Nat.mul_mod_left] at targetEq
  obtain ⟨lists, listed, _, roles⟩ := droppedConsistent.dies 0 geo.userDies_pos
  have pageLe : maps.currentPage 0 ≤ geo.userPagesPerBlock := by
    rw [← same.currentPage]
    exact roles.current_le
  have pagesPos := geo.pages_pos
  have pages := filling.pages 0 geo.userDies_pos
  rw [turns, Nat.mul_div_cancel _ geo.userDies_pos, Nat.mul_mod_left, if_neg (lt_irrefl _)] at pages
  have reserve := Nat.mul_le_mul_right geo.userPagesPerBlock
    (filling.reserve 0 geo.userDies_pos)
  have full : maps.currentPage 0 = geo.userPagesPerBlock := by omega
  have atReserve : (maps.die 0).freeBlockCnt = 1 :=
    Nat.eq_of_mul_eq_mul_right pagesPos (by omega)
  have noFree : ((maps.invalidateOldVsa geo (free * geo.userPagesPerBlock + 1)).die
      0).getFromFbList .normal =
        .ok ((maps.invalidateOldVsa geo (free * geo.userPagesPerBlock + 1)).die 0, none) := by
    rw [DieMap.getFromFbList, if_pos]
    rw [same.freeBlockCnt, atReserve]
    exact le_rfl
  have noVictim : ((maps.invalidateOldVsa geo (free * geo.userPagesPerBlock + 1)).die
      0).getFromGcVictimList geo.userPagesPerBlock = .error .noVictimBlock := by
    rcases DieMap.getFromGcVictimList_cases listed geo.userPagesPerBlock le_rfl with
      ⟨index, victimBlockNo, rest, listEq, _⟩ | ⟨_, failed⟩
    · have := ((listed.victim_mem index victimBlockNo).mp (by simp [listEq])).2.1
      rw [noStale] at this
      omega
    · exact failed
  rw [addrTransWrite, if_pos inDevice, findFreeVirtualSlice]
  simp only [targetEq, prepareCurrentBlock, same.currentPage, full, noFree, garbageCollection,
    noVictim, bind, Except.bind, if_true]

variable {bad : Nat → Nat → Bool} {start : AddressMap}

/-- Every die starts with the block map of its own bad blocks, and die 0 comes first. -/
theorem initAddressMap_dies (initialised : initAddressMap geo bad = .ok start) :
    (∀ dieNo < geo.userDies, DieMap.initDie geo (bad dieNo) = .ok (start.die dieNo)) ∧
      start.sliceAllocationTargetDie = 0 ∧
      geo.pcw2Vdie start.targetCh start.targetWay = 1 % geo.userDies := by
  refine loop_invariant (fun count (maps : AddressMap) =>
    (∀ dieNo < count, DieMap.initDie geo (bad dieNo) = .ok (maps.die dieNo)) ∧
      maps.sliceAllocationTargetDie = 0 ∧
      geo.pcw2Vdie maps.targetCh maps.targetWay = 1 % geo.userDies) ⟨by simp, ?_⟩ ?_ initialised
  · have round := @findDie_round geo
      ⟨fun _ => none, fun _ => none, fun _ => DieMap.initial, 0, 0, 0, []⟩
      geo.channels_pos geo.ways_pos
    simpa [Geometry.pcw2Vdie, initial] using round
  · rintro count bound maps maps' ⟨dies, target, next⟩ stepped
    rw [initDieOf, bind_eq_ok] at stepped
    obtain ⟨die, dieEq, mapsEq⟩ := stepped
    rw [← Except.ok.inj mapsEq]
    refine ⟨?_, target, next⟩
    intro dieNo below
    rw [setDie_die]
    split
    · rename_i isNew
      rw [isNew]
      exact dieEq
    · exact dies dieNo (by omega)

theorem initAddressMap_total
    (dies : ∀ dieNo < geo.userDies, ∃ die, DieMap.initDie geo (bad dieNo) = .ok die) :
    ∃ start, initAddressMap geo bad = .ok start := by
  obtain ⟨start, initialised, _⟩ := @loop_total _ _ (initDieOf geo bad)
    (fun _ _ => True) geo.userDies (initial geo) trivial (by
      intro dieNo bound maps _
      obtain ⟨die, dieEq⟩ := dies dieNo bound
      exact ⟨maps.setDie dieNo die, by simp [initDieOf, dieEq, bind, Except.bind], trivial⟩)
  exact ⟨start, initialised⟩

theorem filling_start {free : Nat} (initialised : initAddressMap geo bad = .ok start)
    (freeEq : ∀ dieNo < geo.userDies, (start.die dieNo).freeBlockCnt = free) :
    Filling geo free 0 start := by
  have fresh := initAddressMap_initialised initialised
  obtain ⟨_, target, next⟩ := initAddressMap_dies initialised
  refine ⟨fresh.consistent, by simpa using target, by simpa using next,
    fun dieNo bound => (fresh.dies dieNo bound).reserve, ?_,
    (fresh.dies 0 geo.userDies_pos).noInvalid, ?_, fun slice _ => fresh.noSlices _⟩
  · intro dieNo bound
    rw [currentPage, (fresh.dies dieNo bound).noPages, freeEq dieNo bound]
    simp [turns]
  · intro virtualSliceAddr mapped
    rw [fresh.noSlices] at mapped
    cases mapped

theorem filling_run {free : Nat} {allowed : Nat → Prop} (filling : Filling geo free 0 start)
    (enough : ∀ slice ≤ free * geo.userPagesPerBlock, allowed slice ∧ slice < geo.slicesPerSsd)
    (count : Nat) (notFull : count ≤ free * geo.userPagesPerBlock * geo.userDies) :
    ∃ final, Relation.ReflTransGen (WriteStep geo fun _ => allowed) start final ∧
      Filling geo free count final := by
  induction count with
  | zero => exact ⟨start, .refl, filling⟩
  | succ count ih =>
    obtain ⟨middle, run, filled⟩ := ih (by omega)
    have sliceLe : fillingSlice geo count ≤ free * geo.userPagesPerBlock := by
      have := Nat.div_lt_of_lt_mul (show count < geo.userDies * (free * geo.userPagesPerBlock) by
        rw [Nat.mul_comm]
        omega)
      unfold fillingSlice
      split <;> omega
    obtain ⟨allowedHere, inDevice⟩ := enough _ sliceLe
    obtain ⟨final, virtualSliceAddr, written, filled'⟩ := filled.step (by omega) inDevice
    exact ⟨final, run.tail ⟨_, virtualSliceAddr, allowedHere, written⟩, filled'⟩

/-! ## The configured device -/

theorem storageCapacity_cosmos : storageCapacity .cosmos (fun _ _ => false) = 8343040 := by
  decide +kernel

theorem freeBlockCnt_le {die : DieMap} (fresh : die.Fresh geo) :
    die.freeBlockCnt ≤ geo.userBlocksPerDie := by
  obtain ⟨lists, listed, _⟩ := fresh.lists
  have subset : (lists none).toFinset ⊆ Finset.range geo.userBlocksPerDie := by
    intro blockNo member
    exact Finset.mem_range.mpr (listed.free_mem blockNo (List.mem_toFinset.mp member)).1.1
  have := Finset.card_le_card subset
  rwa [List.toFinset_card_of_nodup (listed.family.holds none).nodup, ← listed.free_count,
    Finset.card_range] at this

/-- On a device without bad blocks, writes to slices below the advertised capacity fill
die 0 with live slices; the next write to it stops for want of a victim. -/
theorem no_victim_below_capacity :
    ∃ start final logicalSliceAddr, initAddressMap .cosmos (fun _ _ => false) = .ok start ∧
      Relation.ReflTransGen (WriteStep .cosmos fun _ => BelowCapacity .cosmos fun _ _ => false)
        start final ∧
      BelowCapacity .cosmos (fun _ _ => false) logicalSliceAddr ∧
      final.addrTransWrite .cosmos logicalSliceAddr = .error .noVictimBlock := by
  have dieStarts : (match DieMap.initDie .cosmos (fun _ => false) with
      | .error _ => false
      | .ok _ => true) = true := by
    decide +kernel
  cases dieEq : DieMap.initDie .cosmos (fun _ => false) with
  | error stop => simp [dieEq] at dieStarts
  | ok die =>
    obtain ⟨start, initialised⟩ := @initAddressMap_total .cosmos (fun _ _ => false)
      fun _ _ => ⟨die, dieEq⟩
    have dies := (initAddressMap_dies initialised).1
    have freeEq : ∀ dieNo < Geometry.cosmos.userDies,
        (start.die dieNo).freeBlockCnt = die.freeBlockCnt := by
      intro dieNo bound
      have := dies dieNo bound
      rw [dieEq] at this
      rw [← Except.ok.inj this]
    have freeLe := freeBlockCnt_le (DieMap.initDie_fresh dieEq)
    have blocks : Geometry.cosmos.userBlocksPerDie = 284 := by decide
    have pages : Geometry.cosmos.userPagesPerBlock = 128 := by decide
    have slices : Geometry.cosmos.slicesPerSsd = 2326528 := by decide
    have enough : ∀ slice ≤ die.freeBlockCnt * Geometry.cosmos.userPagesPerBlock + 1,
        BelowCapacity .cosmos (fun _ _ => false) slice ∧
          slice < Geometry.cosmos.slicesPerSsd := by
      intro slice bound
      rw [BelowCapacity, storageCapacity_cosmos, nvmeBlocksPerSlice, slices]
      rw [pages] at bound
      omega
    obtain ⟨final, run, filled⟩ := filling_run (filling_start initialised freeEq)
      (fun slice bound => enough slice (by omega)) _ le_rfl
    obtain ⟨below, inDevice⟩ := enough _ le_rfl
    exact ⟨start, final, _, initialised, run, below, filled.no_victim inDevice⟩

end AddressMap

end RwRbuf.Firmware
