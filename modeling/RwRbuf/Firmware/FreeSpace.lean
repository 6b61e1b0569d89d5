import Mathlib.Data.Finset.Card
import Mathlib.Data.Finset.Prod
import RwRbuf.Firmware.BlockRoles

/-! # Space on a die

A write that finds its die at the reserve needs a block with a stale page to collect.
Such a block exists as long as the other slices on the die do not fill all of its
blocks but the reserved one.  The copies of a collection then fit into that reserved
block, so that neither allocator runs out of blocks.
-/

namespace RwRbuf.Firmware.AddressMap

open Fallible Function

variable {geo : Geometry} {maps : AddressMap} {dieNo logicalSliceAddr : Nat}

/-! ## Live slices and usable blocks -/

/-- The slices other than `logicalSliceAddr` whose current copy is on the die. -/
def liveOnDie (geo : Geometry) (maps : AddressMap) (dieNo logicalSliceAddr : Nat) : Finset Nat :=
  (Finset.range geo.slicesPerSsd).filter fun other =>
    other ≠ logicalSliceAddr ∧ (maps.logicalSlice other).map geo.vsa2Vdie = some dieNo

def usableBlocks (geo : Geometry) (die : DieMap) : Finset Nat :=
  (Finset.range geo.userBlocksPerDie).filter fun blockNo => (die.block blockNo).bad = false

def SlicesInRange (geo : Geometry) (maps : AddressMap) : Prop :=
  ∀ other virtualSliceAddr, maps.logicalSlice other = some virtualSliceAddr →
    other < geo.slicesPerSsd

variable {blockNo : Nat}

theorem mem_usableBlocks {die : DieMap} :
    blockNo ∈ usableBlocks geo die ↔ die.Usable geo blockNo := by
  simp [usableBlocks, DieMap.Usable]

variable {lists : Option (Fin geo.userPagesPerBlock) → List Nat}

theorem card_usableBlocks_sdiff {die : DieMap} {off : Option Nat}
    (listed : die.Listed geo off lists) :
    (usableBlocks geo die \ (lists none).toFinset).card =
      (usableBlocks geo die).card - die.freeBlockCnt := by
  have subset : (lists none).toFinset ⊆ usableBlocks geo die := by
    intro blockNo member
    exact mem_usableBlocks.mpr (listed.free_mem blockNo (List.mem_toFinset.mp member)).1
  rw [Finset.card_sdiff_of_subset subset, listed.free_count,
    List.toFinset_card_of_nodup (listed.family.holds none).nodup]

/-- A filled block without stale pages holds a slice on every page. -/
theorem Consistent.mapped_of_noInvalid {blockNo pageNo : Nat} (consistent : maps.Consistent geo)
    (dieBound : dieNo < geo.userDies) (usable : (maps.die dieNo).Usable geo blockNo)
    (full : ((maps.die dieNo).block blockNo).currentPage = geo.userPagesPerBlock)
    (noInvalid : ((maps.die dieNo).block blockNo).invalidSliceCnt = 0)
    (pageBound : pageNo < geo.userPagesPerBlock) :
    maps.logicalSlice ((maps.virtualSlice (geo.vorg2Vsa dieNo blockNo pageNo)).getD 0) =
      some (geo.vorg2Vsa dieNo blockNo pageNo) := by
  have counted := consistent.counts dieNo dieBound blockNo usable (by simp)
  rw [noInvalid, staleCount, full, eq_comm, List.countP_eq_zero] at counted
  have live : maps.isLive (geo.vorg2Vsa dieNo blockNo pageNo) = true := by
    simpa using counted pageNo (List.mem_range.mpr pageBound)
  obtain ⟨owner, mapped⟩ := (consistent.placement.isLive_iff _).mp live
  rw [consistent.placement.backPointer _ _ mapped]
  exact mapped

/-- If no block of a full die has a stale page, then the slices on the die fill all of its
blocks that are not free. -/
theorem Consistent.card_liveOnDie_of_noInvalid (consistent : maps.Consistent geo)
    (inRange : maps.SlicesInRange geo) (dieBound : dieNo < geo.userDies)
    (currentFull : maps.currentPage dieNo = geo.userPagesPerBlock)
    (unmapped : maps.logicalSlice logicalSliceAddr = none)
    (noInvalid : ∀ blockNo, (maps.die dieNo).Usable geo blockNo →
      ((maps.die dieNo).block blockNo).invalidSliceCnt = 0) :
    ((usableBlocks geo (maps.die dieNo)).card - (maps.die dieNo).freeBlockCnt) *
        geo.userPagesPerBlock ≤
      (maps.liveOnDie geo dieNo logicalSliceAddr).card := by
  obtain ⟨lists, listed, _, roles⟩ := consistent.dies dieNo dieBound
  have pageMapped : ∀ blockNo ∈ usableBlocks geo (maps.die dieNo) \ (lists none).toFinset,
      ∀ pageNo < geo.userPagesPerBlock,
        maps.logicalSlice ((maps.virtualSlice (geo.vorg2Vsa dieNo blockNo pageNo)).getD 0) =
          some (geo.vorg2Vsa dieNo blockNo pageNo) := by
    intro blockNo member pageNo pageBound
    rw [Finset.mem_sdiff, mem_usableBlocks, List.mem_toFinset] at member
    refine consistent.mapped_of_noInvalid dieBound member.1 ?_ (noInvalid _ member.1) pageBound
    by_cases isCurrent : blockNo = (maps.die dieNo).currentBlock
    · rw [isCurrent]
      exact currentFull
    · exact roles.full blockNo member.1 member.2 isCurrent
  rw [← card_usableBlocks_sdiff listed]
  calc (usableBlocks geo (maps.die dieNo) \ (lists none).toFinset).card * geo.userPagesPerBlock
      = ((usableBlocks geo (maps.die dieNo) \ (lists none).toFinset) ×ˢ
          Finset.range geo.userPagesPerBlock).card := by
        rw [Finset.card_product, Finset.card_range]
    _ ≤ (maps.liveOnDie geo dieNo logicalSliceAddr).card := by
        -- Every page is sent to the slice that owns it.
        refine Finset.card_le_card_of_injOn
          (fun page => (maps.virtualSlice (geo.vorg2Vsa dieNo page.1 page.2)).getD 0) ?_ ?_
        · intro page member
          rw [Finset.mem_coe, Finset.mem_product, Finset.mem_range] at member
          have mapped := pageMapped page.1 member.1 page.2 member.2
          refine Finset.mem_filter.mpr ⟨Finset.mem_range.mpr (inRange _ _ mapped), ?_, ?_⟩
          · intro same
            simp only at same
            rw [same, unmapped] at mapped
            cases mapped
          · rw [mapped]
            simp [dieBound]
        · intro page member page' member' same
          rw [Finset.mem_coe, Finset.mem_product, Finset.mem_range] at member member'
          have mapped := pageMapped page.1 member.1 page.2 member.2
          have mapped' := pageMapped page'.1 member'.1 page'.2 member'.2
          have sameAddr : geo.vorg2Vsa dieNo page.1 page.2 =
              geo.vorg2Vsa dieNo page'.1 page'.2 := by
            simp only at same
            rw [same, mapped'] at mapped
            exact (Option.some.inj mapped).symm
          have parts := (Geometry.vorg2Vsa_inj dieBound member.2 dieBound member'.2).mp sameAddr
          exact Prod.ext parts.2.1 parts.2.2

/-! ## Room for the copies of a collection -/

/-- The live pages among the first `count` pages of a block. -/
def liveBelow (geo : Geometry) (maps : AddressMap) (dieNo blockNo count : Nat) : Nat :=
  (List.range count).countP fun pageNo => maps.isLive (geo.vorg2Vsa dieNo blockNo pageNo)

theorem liveBelow_succ (blockNo count : Nat) :
    maps.liveBelow geo dieNo blockNo (count + 1) = maps.liveBelow geo dieNo blockNo count +
      if maps.isLive (geo.vorg2Vsa dieNo blockNo count) then 1 else 0 := by
  rw [liveBelow, List.range_succ, List.countP_append, List.countP_singleton]
  rfl

theorem liveBelow_mono (blockNo : Nat) {count count' : Nat} (le : count ≤ count') :
    maps.liveBelow geo dieNo blockNo count ≤ maps.liveBelow geo dieNo blockNo count' :=
  (List.range_sublist.mpr le).countP_le

/-- A filled block that counts a stale page is not live throughout. -/
theorem Consistent.liveBelow_lt (consistent : maps.Consistent geo)
    (dieBound : dieNo < geo.userDies) (usable : (maps.die dieNo).Usable geo blockNo)
    (full : ((maps.die dieNo).block blockNo).currentPage = geo.userPagesPerBlock)
    (stale : ((maps.die dieNo).block blockNo).invalidSliceCnt ≠ 0) :
    maps.liveBelow geo dieNo blockNo geo.userPagesPerBlock < geo.userPagesPerBlock := by
  have counted := consistent.counts dieNo dieBound blockNo usable (by simp)
  rw [staleCount, full] at counted
  have split := List.length_eq_countP_add_countP
    (fun pageNo => maps.isLive (geo.vorg2Vsa dieNo blockNo pageNo))
    (l := List.range geo.userPagesPerBlock)
  simp only [List.length_range, Bool.not_eq_true, Bool.decide_eq_false] at split
  unfold liveBelow
  omega

/-- Before page `pageNo` of the victim is looked at, either nothing was copied and the
reserved block is still free, or the copies so far are in a block of their own. -/
def CopyRoom (geo : Geometry) (start : AddressMap) (dieNo victimBlockNo pageNo : Nat)
    (maps : AddressMap) : Prop :=
  (maps.currentPage dieNo = geo.userPagesPerBlock ∧
      (maps.die dieNo).freeBlockCnt = reservedFreeBlockCount) ∨
    ((maps.die dieNo).currentBlock ≠ victimBlockNo ∧
      maps.currentPage dieNo ≤ start.liveBelow geo dieNo victimBlockNo pageNo)

section CopyLoop

variable {start : AddressMap} {victimBlockNo pageNo : Nat}

/-- A page of the victim that still holds a slice held it from the start. -/
theorem Collecting.live_of_mapped
    (collecting : Collecting geo start dieNo victimBlockNo pageNo maps)
    (consistent : start.Consistent geo)
    (victimHanded : ∀ pageNo < geo.userPagesPerBlock,
      start.HandedOut geo dieNo victimBlockNo pageNo)
    {otherPage : Nat} (pageBound : otherPage < geo.userPagesPerBlock)
    (mapped : maps.logicalSlice logicalSliceAddr =
      some (geo.vorg2Vsa dieNo victimBlockNo otherPage)) :
    start.isLive (geo.vorg2Vsa dieNo victimBlockNo otherPage) = true := by
  obtain ⟨moves, moved, _⟩ := collecting.moved
  rw [consistent.placement.isLive_iff]
  refine ⟨logicalSliceAddr, ?_⟩
  rw [← mapped, moved.others]
  rintro move member rfl
  have destination := moved.destination_mapped move member
  rw [mapped] at destination
  exact moved.destination_fresh move member _ _ _ (victimHanded otherPage pageBound)
    (Option.some.inj destination).symm

theorem CopyRoom.skip (room : CopyRoom geo start dieNo victimBlockNo pageNo maps) :
    CopyRoom geo start dieNo victimBlockNo (pageNo + 1) maps := by
  rcases room with untouched | ⟨notVictim, copies⟩
  · exact Or.inl untouched
  · exact Or.inr ⟨notVictim, copies.trans (liveBelow_mono _ (by omega))⟩

theorem currentPage_copied (die : DieMap) (req : NandReq) :
    ((((maps.setDie dieNo die).takePage geo dieNo).1.mapSlice logicalSliceAddr
      ((maps.setDie dieNo die).takePage geo dieNo).2).emit req).currentPage dieNo =
        (die.block die.currentBlock).currentPage + 1 := by
  simp [currentPage, takePage, mapSlice, emit, DieMap.bumpPage, DieMap.setBlock]

theorem currentBlock_copied (die : DieMap) (req : NandReq) :
    (((((maps.setDie dieNo die).takePage geo dieNo).1.mapSlice logicalSliceAddr
      ((maps.setDie dieNo die).takePage geo dieNo).2).emit req).die dieNo).currentBlock =
        die.currentBlock := by
  simp [takePage, mapSlice, emit, DieMap.bumpPage, DieMap.setBlock]

/-- As long as the victim is not wholly live, the copy loop does not stop. -/
theorem Collecting.step_total (collecting : Collecting geo start dieNo victimBlockNo pageNo maps)
    (room : CopyRoom geo start dieNo victimBlockNo pageNo maps) (consistent : start.Consistent geo)
    (victimHanded : ∀ pageNo < geo.userPagesPerBlock,
      start.HandedOut geo dieNo victimBlockNo pageNo)
    (notAllLive : start.liveBelow geo dieNo victimBlockNo geo.userPagesPerBlock <
      geo.userPagesPerBlock)
    (dieBound : dieNo < geo.userDies) (pageBound : pageNo < geo.userPagesPerBlock) :
    ∃ maps', gcCopyPage geo dieNo victimBlockNo maps pageNo = .ok maps' ∧
      Collecting geo start dieNo victimBlockNo (pageNo + 1) maps' ∧
      CopyRoom geo start dieNo victimBlockNo (pageNo + 1) maps' := by
  have finish : ∀ maps', gcCopyPage geo dieNo victimBlockNo maps pageNo = .ok maps' →
      CopyRoom geo start dieNo victimBlockNo (pageNo + 1) maps' →
        ∃ maps', gcCopyPage geo dieNo victimBlockNo maps pageNo = .ok maps' ∧
          Collecting geo start dieNo victimBlockNo (pageNo + 1) maps' ∧
          CopyRoom geo start dieNo victimBlockNo (pageNo + 1) maps' :=
    fun maps' stepped room' =>
      ⟨maps', stepped, collecting.step victimHanded dieBound pageBound stepped, room'⟩
  have copiesLe := @liveBelow_mono geo start dieNo victimBlockNo (pageNo + 1)
    geo.userPagesPerBlock pageBound
  rcases @gcCopyPage_cases geo maps dieNo victimBlockNo collecting.placement pageNo with
    ⟨_, unchanged⟩ | ⟨owner, mapped, copyEq⟩
  · exact finish maps unchanged room.skip
  · have live := collecting.live_of_mapped consistent victimHanded pageBound mapped
    have counted := @liveBelow_succ geo start dieNo victimBlockNo pageNo
    rw [live, if_pos rfl] at counted
    obtain ⟨lists, collectable⟩ := collecting.collectable
    have emitted : Collectable geo ((maps.emit (.read owner
      (geo.vorg2Vsa dieNo victimBlockNo pageNo) dieNo)).die dieNo) victimBlockNo lists :=
        collectable
    rcases findFreeVirtualSliceForGc_cases emitted with
      ⟨notVictim, pageLeft, taken⟩ | ⟨full, ⟨empty, _⟩ | ⟨blockNo, rest, listEq, taken⟩⟩
    · rw [taken, ← setDie_self (maps.emit _) dieNo] at copyEq
      refine finish _ copyEq (Or.inr ⟨?_, ?_⟩)
      · rw [currentBlock_copied]
        exact notVictim
      · rw [currentPage_copied]
        have pageLt : maps.currentPage dieNo < geo.userPagesPerBlock := pageLeft
        have pageEq : (((maps.emit (.read owner (geo.vorg2Vsa dieNo victimBlockNo pageNo)
            dieNo)).die dieNo).block ((maps.emit (.read owner
              (geo.vorg2Vsa dieNo victimBlockNo pageNo) dieNo)).die dieNo).currentBlock).currentPage
            = maps.currentPage dieNo := rfl
        rw [pageEq]
        rcases room with ⟨isFull, _⟩ | ⟨_, copies⟩ <;> omega
    · have isFull : maps.currentPage dieNo = geo.userPagesPerBlock := full
      rcases room with ⟨_, reserve⟩ | ⟨_, copies⟩
      · have := collectable.listed.free_count
        rw [empty, reserve] at this
        cases this
      · omega
    · rw [taken] at copyEq
      have blockEmpty := (collectable.roles.free_empty blockNo (by simp [listEq])).2
      refine finish _ copyEq (Or.inr ⟨?_, ?_⟩)
      · rw [currentBlock_copied]
        intro isVictim
        change blockNo = victimBlockNo at isVictim
        exact collectable.victim_not_free (by simp [listEq, isVictim])
      · rw [currentPage_copied, DieMap.takeFreeBlock_currentPage]
        change ((maps.die dieNo).block blockNo).currentPage + 1 ≤ _
        omega

end CopyLoop

/-! ## A write that does not stop -/

section

variable (consistent : maps.Consistent geo) (dieBound : dieNo < geo.userDies)
  (currentFull : maps.currentPage dieNo = geo.userPagesPerBlock)
include consistent dieBound currentFull

/-- Where a page is stale, the collector finds a block that is full and not all live. -/
theorem Consistent.exists_victim
    (listed : (maps.die dieNo).Listed geo none lists) (usable : (maps.die dieNo).Usable geo blockNo)
    (stale : ((maps.die dieNo).block blockNo).invalidSliceCnt ≠ 0) :
    ∃ (index : Fin geo.userPagesPerBlock) (victimBlockNo : Nat) (rest : List Nat),
      lists (some index) = victimBlockNo :: rest ∧
      (maps.die dieNo).getFromGcVictimList geo.userPagesPerBlock =
        .ok ((maps.die dieNo).takeVictimBlock (index + 1) victimBlockNo, victimBlockNo) ∧
      ((maps.die dieNo).block victimBlockNo).currentPage = geo.userPagesPerBlock ∧
      maps.liveBelow geo dieNo victimBlockNo geo.userPagesPerBlock < geo.userPagesPerBlock ∧
      ∀ pageNo < geo.userPagesPerBlock, maps.HandedOut geo dieNo victimBlockNo pageNo := by
  rcases DieMap.getFromGcVictimList_cases listed geo.userPagesPerBlock le_rfl with
    ⟨index, victimBlockNo, rest, listEq, _, taken⟩ | ⟨allEmpty, _⟩
  · obtain ⟨victimUsable, invalidEq, _⟩ :=
      (listed.victim_mem index victimBlockNo).mp (by simp [listEq])
    have victimStale : ((maps.die dieNo).block victimBlockNo).invalidSliceCnt ≠ 0 := by omega
    have full := (consistent.dies dieNo dieBound).victim_full currentFull victimUsable victimStale
    exact ⟨index, victimBlockNo, rest, listEq, taken, full,
      consistent.liveBelow_lt dieBound victimUsable full victimStale,
      fun pageNo bound => ⟨dieBound, victimUsable, bound, by omega⟩⟩
  · exfalso
    have counted := consistent.counts dieNo dieBound blockNo usable (by simp)
    have countLe := @staleCount_le geo maps dieNo blockNo
    have pagesLe := consistent.placement.pages_le dieNo dieBound blockNo usable
    have listBound : ((maps.die dieNo).block blockNo).invalidSliceCnt - 1 <
        geo.userPagesPerBlock := by omega
    have member : blockNo ∈ lists (some ⟨_, listBound⟩) :=
      (listed.victim_mem _ blockNo).mpr ⟨usable, by simp only; omega, by simp⟩
    rw [allEmpty _ listBound] at member
    cases member

/-- A collection gets through if the copy loop does, where `Room` is what keeps it going. -/
theorem Consistent.garbageCollection_of_step {victimBlockNo : Nat}
    {index : Fin geo.userPagesPerBlock} {rest : List Nat} {Room : Nat → AddressMap → Prop}
    (listed : (maps.die dieNo).Listed geo none lists)
    (loose : (maps.die dieNo).Loose geo (lists none))
    (roles : (maps.die dieNo).Roles geo (lists none))
    (listEq : lists (some index) = victimBlockNo :: rest)
    (taken : (maps.die dieNo).getFromGcVictimList geo.userPagesPerBlock =
      .ok ((maps.die dieNo).takeVictimBlock (index + 1) victimBlockNo, victimBlockNo))
    (beginRoom : Room 0
      (maps.setDie dieNo ((maps.die dieNo).takeVictimBlock (index + 1) victimBlockNo)))
    (skip : ∀ pageNo state, Room pageNo state → Room (pageNo + 1) state)
    (step : ∀ pageNo < geo.userPagesPerBlock, ∀ state,
      Collecting geo maps dieNo victimBlockNo pageNo state → Room pageNo state →
        ∃ state', gcCopyPage geo dieNo victimBlockNo state pageNo = .ok state' ∧
          Collecting geo maps dieNo victimBlockNo (pageNo + 1) state' ∧
          Room (pageNo + 1) state') :
    ∃ drained, maps.garbageCollection geo dieNo =
        .ok (drained.eraseBlock geo dieNo victimBlockNo) ∧
      Collecting geo maps dieNo victimBlockNo geo.userPagesPerBlock drained ∧
      Room geo.userPagesPerBlock drained := by
  obtain ⟨usable, invalidEq, _⟩ := (listed.victim_mem index victimBlockNo).mp (by simp [listEq])
  have full := (consistent.dies dieNo dieBound).victim_full currentFull usable (by omega)
  have begin := collecting_start consistent dieBound currentFull listed loose roles listEq
  have skipAll : ∀ pageNo, Room pageNo
      (maps.setDie dieNo ((maps.die dieNo).takeVictimBlock (index + 1) victimBlockNo)) := by
    intro pageNo
    induction pageNo with
    | zero => exact beginRoom
    | succ pageNo room => exact skip pageNo _ room
  by_cases wholeStale :
      ((maps.die dieNo).block victimBlockNo).invalidSliceCnt = geo.userPagesPerBlock
  · refine ⟨_, ?_, { begin with cleared := ?_ }, ?_⟩
    · simp [garbageCollection, taken, bind, Except.bind, DieMap.takeVictimBlock, wholeStale]
    · exact consistent.not_mapped_of_stale dieBound usable full wholeStale
    · exact skipAll geo.userPagesPerBlock
  · obtain ⟨drained, loopEq, drainedCollecting, room⟩ := loop_total
      (fun pageNo state => Collecting geo maps dieNo victimBlockNo pageNo state ∧
        Room pageNo state) ⟨begin, beginRoom⟩
      fun pageNo bound state invariant => step pageNo bound state invariant.1 invariant.2
    refine ⟨drained, ?_, drainedCollecting, room⟩
    have notWhole : (((maps.die dieNo).takeVictimBlock (index + 1) victimBlockNo).block
        victimBlockNo).invalidSliceCnt ≠ geo.userPagesPerBlock := wholeStale
    simp only [garbageCollection, taken, bind, Except.bind, ne_eq, notWhole, not_false_eq_true,
      if_true]
    rw [loopEq]

/-- A die with a stale page to collect gets through garbage collection, and then has the
reserved block back. -/
theorem Consistent.garbageCollection_total
    (reserve : (maps.die dieNo).freeBlockCnt = reservedFreeBlockCount)
    (usable : (maps.die dieNo).Usable geo blockNo)
    (stale : ((maps.die dieNo).block blockNo).invalidSliceCnt ≠ 0) :
    ∃ maps', maps.garbageCollection geo dieNo = .ok maps' ∧
      1 ≤ (maps'.die dieNo).freeBlockCnt ∧
      (maps'.currentPage dieNo = geo.userPagesPerBlock →
        reservedFreeBlockCount < (maps'.die dieNo).freeBlockCnt) := by
  obtain ⟨lists, listed, loose, roles⟩ := consistent.dies dieNo dieBound
  obtain ⟨index, victimBlockNo, rest, listEq, taken, _, notAllLive, victimHanded⟩ :=
    consistent.exists_victim dieBound currentFull listed usable stale
  have beginRoom : CopyRoom geo maps dieNo victimBlockNo 0
      (maps.setDie dieNo ((maps.die dieNo).takeVictimBlock (index + 1) victimBlockNo)) := by
    refine Or.inl ⟨?_, ?_⟩
    · simpa [currentPage, DieMap.takeVictimBlock] using currentFull
    · simpa [DieMap.takeVictimBlock] using reserve
  obtain ⟨drained, collected, _, room⟩ := consistent.garbageCollection_of_step dieBound
    currentFull listed loose roles listEq taken beginRoom (fun _ _ => CopyRoom.skip)
    fun pageNo bound state collecting room => collecting.step_total room consistent victimHanded
      notAllLive dieBound bound
  have countEq : ((drained.eraseBlock geo dieNo victimBlockNo).die dieNo).freeBlockCnt =
      (drained.die dieNo).freeBlockCnt + 1 := by
    rw [eraseBlock_die, if_pos rfl]
    rfl
  refine ⟨_, collected, by omega, ?_⟩
  intro stillFull
  rcases room with ⟨_, untouched⟩ | ⟨notVictim, copies⟩
  · omega
  · rw [currentPage, eraseBlock_die, if_pos rfl, DieMap.eraseBlock_currentBlock,
      DieMap.eraseBlock_block, if_neg notVictim] at stillFull
    exact absurd (stillFull.symm.trans_le copies) (Nat.not_le.mpr notAllLive)

end

/-- With the reserve in place and, at the reserve, a stale page on the die, the current
block gets a page left. -/
theorem Consistent.prepareCurrentBlock_total (consistent : maps.Consistent geo)
    (dieBound : dieNo < geo.userDies) (reserve : 1 ≤ (maps.die dieNo).freeBlockCnt)
    (stale : maps.currentPage dieNo = geo.userPagesPerBlock →
      (maps.die dieNo).freeBlockCnt ≤ reservedFreeBlockCount →
        ∃ blockNo, (maps.die dieNo).Usable geo blockNo ∧
          ((maps.die dieNo).block blockNo).invalidSliceCnt ≠ 0) :
    ∃ prepared, maps.prepareCurrentBlock geo dieNo = .ok prepared ∧
      1 ≤ (prepared.die dieNo).freeBlockCnt := by
  obtain ⟨lists, listed, loose, roles⟩ := consistent.dies dieNo dieBound
  have pageLe : maps.currentPage dieNo ≤ geo.userPagesPerBlock := roles.current_le
  by_cases full : maps.currentPage dieNo = geo.userPagesPerBlock
  · rcases DieMap.getFromFbList_normal listed with
      ⟨atReserve, failed⟩ | ⟨blockNo, rest, listEq, above, taken⟩
    · obtain ⟨blockNo, usable, blockStale⟩ := stale full atReserve
      obtain ⟨collected, collectedEq, countPos, countFull⟩ := consistent.garbageCollection_total
        dieBound full (le_antisymm atReserve reserve) usable blockStale
      obtain ⟨moves, victimBlockNo, allocatable, _⟩ :=
        consistent.collected dieBound full listed loose roles collectedEq
      obtain ⟨lists', listed', _⟩ := allocatable.lists
      simp only [prepareCurrentBlock, full, failed, if_true, bind, Except.bind, collectedEq]
      by_cases stillFull : collected.currentPage dieNo = geo.userPagesPerBlock
      · have above := countFull stillFull
        rcases DieMap.getFromFbList_normal listed' with
          ⟨atReserve', _⟩ | ⟨newBlock, rest, _, _, taken⟩
        · omega
        · refine ⟨collected.setDie dieNo
            { (collected.die dieNo).takeFreeBlock newBlock with currentBlock := newBlock }, ?_, ?_⟩
          · simp [stillFull, openFreeBlock, taken, bind, Except.bind]
          · rw [setDie_die, if_pos rfl]
            simp only [DieMap.takeFreeBlock, reservedFreeBlockCount] at above ⊢
            omega
      · have pagesLe := allocatable.placement.pages_le dieNo dieBound _ allocatable.current_usable
        have notAbove : ¬ collected.currentPage dieNo > geo.userPagesPerBlock :=
          Nat.not_lt.mpr pagesLe
        exact ⟨collected, by simp [stillFull, notAbove], countPos⟩
    · refine ⟨maps.setDie dieNo
        { (maps.die dieNo).takeFreeBlock blockNo with currentBlock := blockNo }, ?_, ?_⟩
      · simp [prepareCurrentBlock, full, taken, bind, Except.bind]
      · rw [setDie_die, if_pos rfl]
        simp only [DieMap.takeFreeBlock, reservedFreeBlockCount] at above ⊢
        omega
  · have notAbove : ¬ maps.currentPage dieNo > geo.userPagesPerBlock := by omega
    exact ⟨maps, by simp [prepareCurrentBlock, full, notAbove], reserve⟩

/-- If the write of a slice has to collect, then the other slices on the target die do not
fill all of its usable blocks but the reserved one. -/
def RoomOnDie (geo : Geometry) (maps : AddressMap) (logicalSliceAddr : Nat) : Prop :=
  let dieNo := maps.sliceAllocationTargetDie
  let die := maps.die dieNo
  maps.currentPage dieNo = geo.userPagesPerBlock → die.freeBlockCnt ≤ reservedFreeBlockCount →
    (maps.liveOnDie geo dieNo logicalSliceAddr).card <
      ((usableBlocks geo die).card - reservedFreeBlockCount) * geo.userPagesPerBlock

structure Spacious (geo : Geometry) (maps : AddressMap) : Prop where
  consistent : maps.Consistent geo
  inRange : maps.SlicesInRange geo
  reserve : ∀ dieNo < geo.userDies, 1 ≤ (maps.die dieNo).freeBlockCnt

theorem Initialised.spacious (initialised : Initialised geo maps) : maps.Spacious geo := by
  refine ⟨initialised.consistent, ?_, fun dieNo bound => (initialised.dies dieNo bound).reserve⟩
  intro other virtualSliceAddr mapped
  rw [initialised.noSlices] at mapped
  cases mapped

/-- Dropping the old copy of a slice does not change what else is on the die. -/
private theorem liveOnDie_invalidateOldVsa (consistent : maps.Consistent geo) :
    (maps.invalidateOldVsa geo logicalSliceAddr).liveOnDie geo dieNo logicalSliceAddr =
      maps.liveOnDie geo dieNo logicalSliceAddr := by
  have same := (consistent.invalidateOldVsa logicalSliceAddr).2
  refine Finset.filter_congr ?_
  intro other _
  by_cases isSlice : other = logicalSliceAddr
  · simp [isSlice]
  · rw [same.logicalSlice, update_of_ne isSlice]

private theorem usableBlocks_invalidateOldVsa (consistent : maps.Consistent geo) :
    usableBlocks geo ((maps.invalidateOldVsa geo logicalSliceAddr).die dieNo) =
      usableBlocks geo (maps.die dieNo) := by
  rcases invalidateOldVsa_eq consistent.placement logicalSliceAddr with
    ⟨_, unchanged⟩ | ⟨otherDie, blockNo, _, _, _, dropped⟩
  · rw [unchanged]
  · rw [dropped, dropSlice_die]
    by_cases same : dieNo = otherDie <;> simp [usableBlocks, same]

theorem Spacious.write_total (spacious : maps.Spacious geo)
    (inDevice : logicalSliceAddr < geo.slicesPerSsd) (room : maps.RoomOnDie geo logicalSliceAddr) :
    ∃ maps' virtualSliceAddr,
      maps.addrTransWrite geo logicalSliceAddr = .ok (maps', virtualSliceAddr) ∧
      ∀ dieNo < geo.userDies, 1 ≤ (maps'.die dieNo).freeBlockCnt := by
  obtain ⟨droppedConsistent, same⟩ := spacious.consistent.invalidateOldVsa logicalSliceAddr
  have dieBound := spacious.consistent.target.die_lt
  have inRange : (maps.invalidateOldVsa geo logicalSliceAddr).SlicesInRange geo := by
    intro other virtualSliceAddr mapped
    by_cases isSlice : other = logicalSliceAddr
    · rw [isSlice]
      exact inDevice
    · rw [same.logicalSlice, update_of_ne isSlice] at mapped
      exact spacious.inRange other virtualSliceAddr mapped
  have unmapped :
      (maps.invalidateOldVsa geo logicalSliceAddr).logicalSlice logicalSliceAddr = none := by
    rw [same.logicalSlice, update_self]
  obtain ⟨prepared, preparedEq, reserve⟩ := droppedConsistent.prepareCurrentBlock_total dieBound
    (by rw [same.freeBlockCnt]; exact spacious.reserve _ dieBound) (by
      intro full atReserve
      rw [same.currentPage] at full
      by_contra noneStale
      have filled := droppedConsistent.card_liveOnDie_of_noInvalid inRange dieBound
        (by rw [same.currentPage]; exact full) unmapped (by
          intro blockNo usable
          by_contra stale
          exact noneStale ⟨blockNo, usable, stale⟩)
      rw [liveOnDie_invalidateOldVsa spacious.consistent,
        usableBlocks_invalidateOldVsa spacious.consistent] at filled
      have fewer := room full (by rwa [same.freeBlockCnt] at atReserve)
      have blocksLe := Nat.mul_le_mul_right geo.userPagesPerBlock (Nat.sub_le_sub_left atReserve
        (usableBlocks geo (maps.die maps.sliceAllocationTargetDie)).card)
      omega)
  rw [← same.target] at preparedEq
  have written := addrTransWrite_of_prepared inDevice preparedEq
  rw [same.target] at preparedEq written
  refine ⟨_, _, written, ?_⟩
  intro dieNo bound
  obtain ⟨moves, erased, allocatable, _⟩ :=
    prepareCurrentBlock_ok droppedConsistent dieBound preparedEq
  by_cases isTarget : dieNo = maps.sliceAllocationTargetDie
  · rw [isTarget]
    simpa [mapSlice, takePage, DieMap.bumpPage, DieMap.setBlock] using reserve
  · have old := spacious.reserve dieNo bound
    rw [← same.freeBlockCnt, ← allocatable.otherDies dieNo isTarget] at old
    simpa [mapSlice, takePage, isTarget] using old

theorem Spacious.write {maps' : AddressMap} {virtualSliceAddr : Nat}
    (spacious : maps.Spacious geo) (notInPlace : ¬ maps.ErasesCurrentBlock geo logicalSliceAddr)
    (room : maps.RoomOnDie geo logicalSliceAddr)
    (written : maps.addrTransWrite geo logicalSliceAddr = .ok (maps', virtualSliceAddr)) :
    maps'.Spacious geo := by
  have inDevice : logicalSliceAddr < geo.slicesPerSsd := by
    by_contra outside
    simp [addrTransWrite, outside] at written
  obtain ⟨maps'', _, writtenEq, reserve⟩ := spacious.write_total inDevice room
  rw [written] at writtenEq
  cases writtenEq
  refine ⟨spacious.consistent.write notInPlace written, ?_, reserve⟩
  obtain ⟨_, _, _, _, _, stages⟩ := spacious.consistent.written written
  intro other otherVirtual mapped
  by_cases isSlice : other = logicalSliceAddr
  · rw [isSlice]
    exact inDevice
  · rcases stages.others isSlice with kept | ⟨_, _, _, source, _⟩
    · rw [kept] at mapped
      exact spacious.inRange other _ mapped
    · exact spacious.inRange other _ source

/-! ## Runs -/

/-- The write of the slice neither collects the current block in place nor meets a die that
the other slices fill. -/
def FindsSpace (geo : Geometry) (maps : AddressMap) (logicalSliceAddr : Nat) : Prop :=
  ¬ maps.ErasesCurrentBlock geo logicalSliceAddr ∧ maps.RoomOnDie geo logicalSliceAddr

/-- In a run of writes that all find space, no write reaches the asserts on missing victims
and missing blocks; a write to a slice of the device even gets through. -/
theorem no_space_assert_of_run (geo : Geometry) (bad : Nat → Nat → Bool)
    (start final : AddressMap) (logicalSliceAddr : Nat)
    (initialised : initAddressMap geo bad = .ok start)
    (run : Relation.ReflTransGen (WriteStep geo fun maps logicalSliceAddr =>
      maps.FindsSpace geo logicalSliceAddr) start final)
    (findsSpace : final.FindsSpace geo logicalSliceAddr) :
    final.addrTransWrite geo logicalSliceAddr ≠ .error .noVictimBlock ∧
      final.addrTransWrite geo logicalSliceAddr ≠ .error .noAvailableBlock ∧
      (logicalSliceAddr < geo.slicesPerSsd →
        ∃ written, final.addrTransWrite geo logicalSliceAddr = .ok written) := by
  have spacious : final.Spacious geo := by
    refine run_invariant (fun maps : AddressMap => maps.Spacious geo)
      (initAddressMap_initialised initialised).spacious ?_ run
    rintro maps maps' spacious ⟨slice, _, ⟨notInPlace, room⟩, written⟩
    exact spacious.write notInPlace room written
  by_cases inDevice : logicalSliceAddr < geo.slicesPerSsd
  · obtain ⟨maps', virtualSliceAddr, written, _⟩ := spacious.write_total inDevice findsSpace.2
    rw [written]
    exact ⟨by simp, by simp, fun _ => ⟨_, rfl⟩⟩
  · rw [addrTransWrite, if_neg inDevice]
    exact ⟨by simp, by simp, fun below => absurd below inDevice⟩

instance : Decidable (maps.RoomOnDie geo logicalSliceAddr) :=
  inferInstanceAs (Decidable (_ → _ → _))

instance : Decidable (maps.FindsSpace geo logicalSliceAddr) :=
  inferInstanceAs (Decidable (_ ∧ _))

/-- Writes up to the reserve of die 0, where five other slices are live on the die, and the
write that collects a block of it. -/
theorem no_space_assert_of_collection : ∃ final,
    Relation.ReflTransGen (WriteStep .tiny fun maps logicalSliceAddr =>
        maps.FindsSpace .tiny logicalSliceAddr) tinyMaps final ∧
      final.currentPage 0 = 2 ∧ (final.die 0).freeBlockCnt = 1 ∧
      (final.liveOnDie .tiny 0 11).card = 5 ∧
      final.addrTransWrite .tiny 11 ≠ .error .noVictimBlock ∧
      final.addrTransWrite .tiny 11 ≠ .error .noAvailableBlock ∧
      ∃ written, final.addrTransWrite .tiny 11 = .ok written := by
  have evaluated : ((runAllowed (writeSlice .tiny) (FindsSpace .tiny) fillingSlices tinyMaps).any
      fun final => final.FindsSpace .tiny 11 ∧ final.currentPage 0 = 2 ∧
        (final.die 0).freeBlockCnt = 1 ∧ (final.liveOnDie .tiny 0 11).card = 5) = true := by
    decide +kernel
  obtain ⟨final, taken, reserve⟩ := (Option.any_eq_true _ _).1 evaluated
  obtain ⟨findsSpace, full, reserved, live⟩ := of_decide_eq_true reserve
  have run := Relation.ReflTransGen.mono (fun _ _ => writeStep_of_event) _ _
    (reaches_of_runAllowed fillingSlices taken)
  obtain ⟨victim, available, total⟩ := no_space_assert_of_run .tiny _ tinyMaps final 11
    initAddressMap_eq_tinyMaps run findsSpace
  exact ⟨final, run, full, reserved, live, victim, available, total (by decide)⟩

end RwRbuf.Firmware.AddressMap
