import RwRbuf.Firmware.GarbageCollection

/-! # Writing a slice

`AddrTransWrite` drops the old copy of a slice, makes sure that the current block of the
target die has a page left, and maps the slice to that page.
-/

namespace RwRbuf.Firmware.AddressMap

open Fallible Function

variable {geo : Geometry} {maps : AddressMap} {dieNo : Nat}

/-! ## The old copy -/

theorem Consistent.dropSlice {logicalSliceAddr blockNo pageNo : Nat}
    (consistent : maps.Consistent geo) (handed : maps.HandedOut geo dieNo blockNo pageNo)
    (mapped : maps.logicalSlice logicalSliceAddr = some (geo.vorg2Vsa dieNo blockNo pageNo)) :
    (maps.dropSlice logicalSliceAddr dieNo blockNo).Consistent geo := by
  have placement := consistent.placement.dropSlice logicalSliceAddr dieNo blockNo
  have counts := consistent.counts.dropSlice consistent.placement handed mapped
  have usable' :
      ((maps.dropSlice logicalSliceAddr dieNo blockNo).die dieNo).Usable geo blockNo := by
    simpa [DieMap.Usable] using handed.usable
  -- The count after the drop is exact, so the count before it was below the block size.
  have bound : ((maps.die dieNo).block blockNo).invalidSliceCnt < geo.userPagesPerBlock := by
    have counted := counts dieNo handed.die_lt blockNo usable' (by simp)
    have countLe := @staleCount_le geo (maps.dropSlice logicalSliceAddr dieNo blockNo) dieNo blockNo
    have pagesLe := placement.pages_le dieNo handed.die_lt blockNo usable'
    simp only [dropSlice_die, if_true, DieMap.invalidateSlice_invalidSliceCnt] at counted
    omega
  refine ⟨⟨consistent.target.die_lt, consistent.target.ch_lt, consistent.target.way_lt⟩,
    placement, counts, ?_⟩
  intro other otherBound
  obtain ⟨lists, listed, loose, roles⟩ := consistent.dies other otherBound
  by_cases same : other = dieNo
  · subst same
    have notFree : blockNo ∉ lists none := by
      intro member
      have := (roles.free_empty blockNo member).2
      have := handed.page_handed
      omega
    obtain ⟨lists', listed', freeEq⟩ := listed.invalidateSlice loose handed.usable notFree bound
    refine ⟨lists', ?_, ?_, ?_⟩
    · simpa using listed'
    · rw [freeEq]
      simpa using loose.invalidateSlice listed handed.usable notFree bound
    · rw [freeEq]
      simpa using roles.invalidateSlice blockNo
  · refine ⟨lists, ?_, ?_, ?_⟩ <;> simpa [same]

/-- What `InvalidateOldVsa` leaves as it is. -/
structure SameExceptSlice (geo : Geometry) (maps maps' : AddressMap) (logicalSliceAddr : Nat) :
    Prop where
  logicalSlice : maps'.logicalSlice = update maps.logicalSlice logicalSliceAddr none
  nandReqs : maps'.nandReqs = maps.nandReqs
  target : maps'.sliceAllocationTargetDie = maps.sliceAllocationTargetDie
  handedOut : ∀ dieNo blockNo pageNo,
    maps'.HandedOut geo dieNo blockNo pageNo ↔ maps.HandedOut geo dieNo blockNo pageNo
  currentPage : ∀ dieNo, maps'.currentPage dieNo = maps.currentPage dieNo
  currentBlock : ∀ dieNo, (maps'.die dieNo).currentBlock = (maps.die dieNo).currentBlock
  freeBlockCnt : ∀ dieNo, (maps'.die dieNo).freeBlockCnt = (maps.die dieNo).freeBlockCnt

theorem Consistent.invalidateOldVsa (consistent : maps.Consistent geo) (logicalSliceAddr : Nat) :
    (maps.invalidateOldVsa geo logicalSliceAddr).Consistent geo ∧
      SameExceptSlice geo maps (maps.invalidateOldVsa geo logicalSliceAddr)
        logicalSliceAddr := by
  rcases invalidateOldVsa_eq consistent.placement logicalSliceAddr with
    ⟨unmapped, unchanged⟩ | ⟨dieNo, blockNo, pageNo, handed, mapped, dropped⟩
  · rw [unchanged]
    refine ⟨consistent, ⟨?_, rfl, rfl, fun _ _ _ => Iff.rfl, fun _ => rfl, fun _ => rfl,
      fun _ => rfl⟩⟩
    rw [← unmapped, update_eq_self]
  · rw [dropped]
    refine ⟨consistent.dropSlice handed mapped, ⟨rfl, rfl, rfl, ?_, ?_, ?_, ?_⟩⟩
    · intro otherDie otherBlock otherPage
      have usableIff : ((maps.dropSlice logicalSliceAddr dieNo blockNo).die otherDie).Usable geo
          otherBlock ↔ (maps.die otherDie).Usable geo otherBlock := by
        by_cases same : otherDie = dieNo <;> simp [same, DieMap.Usable]
      have pageEq : (((maps.dropSlice logicalSliceAddr dieNo blockNo).die otherDie).block
          otherBlock).currentPage = ((maps.die otherDie).block otherBlock).currentPage := by
        by_cases same : otherDie = dieNo <;> simp [same]
      constructor
      · intro handed
        exact ⟨handed.die_lt, usableIff.mp handed.usable, handed.page_lt,
          pageEq ▸ handed.page_handed⟩
      · intro handed
        exact ⟨handed.die_lt, usableIff.mpr handed.usable, handed.page_lt,
          pageEq.symm ▸ handed.page_handed⟩
    all_goals
      intro otherDie
      by_cases same : otherDie = dieNo <;> simp [same, AddressMap.currentPage]

/-! ## A current block with a page left -/

/-- How `FindFreeVirtualSlice` gets from `before` to `after`, where `erased` is the block
that garbage collection erased on the way.  The last case of `lists` is the one in which
that block is the current block: it then is on the free list as well. -/
structure Allocatable (geo : Geometry) (before after : AddressMap) (dieNo : Nat)
    (moves : List Move) (erased : Option Nat) : Prop where
  placement : after.Placement geo
  counts : after.CountsExact geo none
  otherDies : ∀ other ≠ dieNo, after.die other = before.die other
  usableEq : ∀ blockNo, (after.die dieNo).Usable geo blockNo ↔
    (before.die dieNo).Usable geo blockNo
  targetEq : after.sliceAllocationTargetDie = before.sliceAllocationTargetDie ∧
    after.targetCh = before.targetCh ∧ after.targetWay = before.targetWay
  lists : ∃ lists, (after.die dieNo).Listed geo none lists ∧
    (after.die dieNo).Loose geo (lists none) ∧
    ((after.die dieNo).Roles geo (lists none) ∨
      (erased = some (after.die dieNo).currentBlock ∧ after.currentPage dieNo = 0))
  current_usable : (after.die dieNo).Usable geo (after.die dieNo).currentBlock
  pagesGrow : ∀ blockNo, some blockNo ≠ erased →
    ((before.die dieNo).block blockNo).currentPage ≤
      ((after.die dieNo).block blockNo).currentPage
  erasedEmpty : ∀ blockNo, erased = some blockNo →
    ((after.die dieNo).block blockNo).currentPage = 0
  moved : Moved geo before after moves
  requests : (erased = none ∧ moves = [] ∧ after.nandReqs = before.nandReqs) ∨
    ∃ victimBlockNo, erased = some victimBlockNo ∧
      after.nandReqs = before.nandReqs ++ (moves.flatMap (Move.reqs dieNo) ++
        [.erase (geo.vorg2Vsa dieNo victimBlockNo 0) geo.userPagesPerBlock]) ∧
      ∀ move ∈ moves, ∃ pageNo < geo.userPagesPerBlock,
        move.source = geo.vorg2Vsa dieNo victimBlockNo pageNo

theorem Consistent.allocatable (consistent : maps.Consistent geo)
    (dieBound : dieNo < geo.userDies) : Allocatable geo maps maps dieNo [] none := by
  obtain ⟨lists, listed, loose, roles⟩ := consistent.dies dieNo dieBound
  exact ⟨consistent.placement, consistent.counts, fun _ _ => rfl, fun _ => Iff.rfl,
    ⟨rfl, rfl, rfl⟩, ⟨lists, listed, loose, Or.inl roles⟩, roles.current_usable,
    fun _ _ => le_rfl, nofun, ⟨by simp, by simp, by simp, fun _ _ => rfl⟩,
    Or.inl ⟨rfl, rfl, rfl⟩⟩

theorem Allocatable.openBlock {before after after' : AddressMap} {moves : List Move}
    {erased : Option Nat} (allocatable : Allocatable geo before after dieNo moves erased)
    (full : after.currentPage dieNo = geo.userPagesPerBlock)
    (opened : after.openFreeBlock dieNo .normal = .ok after') :
    Allocatable geo before after' dieNo moves erased ∧
      after'.currentPage dieNo < geo.userPagesPerBlock ∧ after'.DieConsistent geo dieNo := by
  obtain ⟨lists, listed, loose, roles | ⟨_, empty⟩⟩ := allocatable.lists
  · rcases DieMap.getFromFbList_normal listed with
      ⟨_, failed⟩ | ⟨blockNo, rest, listEq, _, taken⟩
    · simp [openFreeBlock, failed, bind, Except.bind] at opened
    · have afterEq : after' = after.setDie dieNo
          { (after.die dieNo).takeFreeBlock blockNo with currentBlock := blockNo } := by
        simpa [openFreeBlock, taken, bind, Except.bind] using opened.symm
      have same := DieMap.sameBlocks_openBlock (after.die dieNo) blockNo
      have roles' := roles.takeFreeBlock listed listEq full
      have pageEq : after'.currentPage dieNo = 0 := by
        have := (roles.free_empty blockNo (by simp [listEq])).2
        simp [afterEq, currentPage, this]
      have pagesPos := geo.pages_pos
      have dieLists : (after'.die dieNo).Listed geo none (update lists none rest) ∧
          (after'.die dieNo).Loose geo rest ∧ (after'.die dieNo).Roles geo rest := by
        rw [afterEq, setDie_die, if_pos rfl]
        exact ⟨(listed.takeFreeBlock listEq).congr rfl rfl rfl rfl (fun _ => rfl) fun _ => rfl,
          loose.takeFreeBlock listed listEq, roles'⟩
      refine ⟨⟨?_, ?_, ?_, ?_, ?_, ?_, ?_, ?_, ?_, ?_, ?_⟩, by omega,
        ⟨update lists none rest, by simpa using dieLists⟩⟩
      · rw [afterEq]
        exact allocatable.placement.setDie same
      · rw [afterEq]
        exact allocatable.counts.setDie same
      · intro other different
        rw [afterEq, setDie_die, if_neg different]
        exact allocatable.otherDies other different
      · intro other
        rw [afterEq, setDie_die, if_pos rfl, same.usable]
        exact allocatable.usableEq other
      · rw [afterEq]
        exact allocatable.targetEq
      · refine ⟨update lists none rest, dieLists.1, ?_, Or.inl ?_⟩
        · simpa using dieLists.2.1
        · simpa using dieLists.2.2
      · exact dieLists.2.2.current_usable
      · intro other notErased
        rw [afterEq, setDie_die, if_pos rfl, same.currentPage]
        exact allocatable.pagesGrow other notErased
      · intro other isErased
        rw [afterEq, setDie_die, if_pos rfl, same.currentPage]
        exact allocatable.erasedEmpty other isErased
      · rw [afterEq]
        exact ⟨allocatable.moved.source_mapped, allocatable.moved.destination_mapped,
          allocatable.moved.destination_fresh, allocatable.moved.others⟩
      · rw [afterEq]
        exact allocatable.requests
  · have := geo.pages_pos
    omega

/-- After a collection either the current block kept its role, or it is the very block
that was erased, without a copy. -/
theorem Consistent.collected {maps' : AddressMap}
    {lists : Option (Fin geo.userPagesPerBlock) → List Nat} (consistent : maps.Consistent geo)
    (dieBound : dieNo < geo.userDies) (currentFull : maps.currentPage dieNo = geo.userPagesPerBlock)
    (listed : (maps.die dieNo).Listed geo none lists)
    (loose : (maps.die dieNo).Loose geo (lists none))
    (roles : (maps.die dieNo).Roles geo (lists none))
    (collected : maps.garbageCollection geo dieNo = .ok maps') :
    ∃ moves victimBlockNo, Allocatable geo maps maps' dieNo moves (some victimBlockNo) ∧
      ((maps'.die dieNo).currentBlock = victimBlockNo →
        victimBlockNo = (maps.die dieNo).currentBlock ∧
          ((maps.die dieNo).gcVictimList geo.userPagesPerBlock).head = some victimBlockNo) := by
  obtain ⟨index, victimBlockNo, rest, drained, listEq, above, collecting, rfl⟩ :=
    garbageCollection_ok consistent dieBound currentFull listed loose roles collected
  obtain ⟨moves, moved, requested, leaves, stays⟩ := collecting.moved
  obtain ⟨drainedLists, collectable⟩ := collecting.collectable
  obtain ⟨usable, invalidEq, _⟩ := (listed.victim_mem index victimBlockNo).mp (by simp [listEq])
  refine ⟨moves, victimBlockNo, ⟨?_, ?_, ?_, ?_, ?_, ?_, ?_, ?_, ?_, ?_, ?_⟩, ?_⟩
  · exact collecting.placement.eraseBlock dieNo victimBlockNo collecting.cleared
  · exact collecting.counts.eraseBlock collecting.placement collecting.cleared
  · intro other different
    rw [eraseBlock_die, if_neg different]
    exact collecting.otherDies other different
  · intro blockNo
    rw [eraseBlock_die, if_pos rfl, ← collecting.usableEq]
    simp [DieMap.Usable]
  · simpa [eraseBlock, setDie, emit] using collecting.targetEq
  · refine ⟨update drainedLists none (drainedLists none ++ [victimBlockNo]), ?_⟩
    rw [eraseBlock_die, if_pos rfl, update_self]
    refine ⟨collectable.listed.eraseBlock collectable.victim_usable collectable.victim_not_free,
      collectable.loose.eraseBlock collectable.listed, ?_⟩
    by_cases isCurrent : victimBlockNo = (drained.die dieNo).currentBlock
    · right
      have currentEq : ((drained.die dieNo).eraseBlock victimBlockNo).currentBlock =
          victimBlockNo := isCurrent.symm
      refine ⟨by rw [currentEq], ?_⟩
      rw [currentPage, eraseBlock_die, if_pos rfl, currentEq]
      simp [DieMap.eraseBlock_block]
    · exact Or.inl (collectable.roles.eraseBlock isCurrent)
  · rw [eraseBlock_die, if_pos rfl]
    simpa [DieMap.Usable] using collectable.roles.current_usable
  · intro blockNo notErased
    have different : blockNo ≠ victimBlockNo := fun same => notErased (by rw [same])
    rw [eraseBlock_die, if_pos rfl, DieMap.eraseBlock_block, if_neg different]
    exact collecting.pagesGrow blockNo
  · rintro blockNo ⟨⟩
    rw [eraseBlock_die, if_pos rfl]
    simp [DieMap.eraseBlock_block]
  · refine ⟨moved.source_mapped, ?_, moved.destination_fresh, ?_⟩
    · simpa using moved.destination_mapped
    · simpa using moved.others
  · refine Or.inr ⟨victimBlockNo, rfl, ?_, requested.source_victim⟩
    rw [eraseBlock_nandReqs, requested.requests, List.append_assoc, collectable.victim_full]
  · intro isCurrent
    have isCurrent' : (drained.die dieNo).currentBlock = victimBlockNo := by
      rw [eraseBlock_die, if_pos rfl] at isCurrent
      exact isCurrent
    have noMoves : moves = [] := by
      by_contra someMoves
      exact leaves someMoves isCurrent'
    have wasCurrent : victimBlockNo = (maps.die dieNo).currentBlock := by
      rw [← stays noMoves, isCurrent']
    -- Nothing was copied, so the victim had no live page to begin with.
    have allStale : maps.staleCount geo dieNo victimBlockNo = geo.userPagesPerBlock := by
      have full : ((maps.die dieNo).block victimBlockNo).currentPage = geo.userPagesPerBlock := by
        rw [wasCurrent]
        exact currentFull
      rw [staleCount, full, List.countP_eq_length.mpr, List.length_range]
      intro pageNo member
      have dead := collecting.cleared pageNo (List.mem_range.mp member)
      have sameLogical : drained.logicalSlice = maps.logicalSlice := by
        funext logicalSliceAddr
        exact moved.others logicalSliceAddr (by simp [noMoves])
      have notLive : ¬ maps.isLive (geo.vorg2Vsa dieNo victimBlockNo pageNo) = true := by
        rw [consistent.placement.isLive_iff, Mapped, ← sameLogical]
        exact dead
      simpa using notLive
    have counted := consistent.counts dieNo dieBound victimBlockNo usable (by simp)
    have lastIndex : (index : Nat) + 1 = geo.userPagesPerBlock := by
      rw [← invalidEq, counted, allStale]
    refine ⟨wasCurrent, ?_⟩
    have headEq : ((maps.die dieNo).gcVictimList (index + 1)).head = (lists (some index)).head? :=
      (listed.family.holds (some index)).head
    rw [← lastIndex, headEq, listEq]
    rfl

/-- Garbage collection on this die would erase the current block and leave it current. -/
def WholeCurrentStale (geo : Geometry) (maps : AddressMap) (dieNo : Nat) : Prop :=
  maps.currentPage dieNo = geo.userPagesPerBlock ∧
    (maps.die dieNo).freeBlockCnt ≤ reservedFreeBlockCount ∧
    ((maps.die dieNo).gcVictimList geo.userPagesPerBlock).head =
      some (maps.die dieNo).currentBlock

theorem prepareCurrentBlock_ok {maps' : AddressMap} (consistent : maps.Consistent geo)
    (dieBound : dieNo < geo.userDies) (prepared : maps.prepareCurrentBlock geo dieNo = .ok maps') :
    ∃ moves erased, Allocatable geo maps maps' dieNo moves erased ∧
      maps'.currentPage dieNo < geo.userPagesPerBlock ∧
      (maps'.DieConsistent geo dieNo ∨ maps.WholeCurrentStale geo dieNo) := by
  obtain ⟨lists, listed, loose, roles⟩ := consistent.dies dieNo dieBound
  have allocatable := consistent.allocatable dieBound
  have pageLe : maps.currentPage dieNo ≤ geo.userPagesPerBlock := roles.current_le
  have consistentOfRoles : ∀ {after : AddressMap} {moves : List Move} {erased : Option Nat},
      Allocatable geo maps after dieNo moves erased →
        erased ≠ some (after.die dieNo).currentBlock → after.DieConsistent geo dieNo := by
    intro after moves erased allocatable notErased
    obtain ⟨lists', listed', loose', roles' | ⟨isErased, _⟩⟩ := allocatable.lists
    · exact ⟨lists', listed', loose', roles'⟩
    · exact absurd isErased notErased
  by_cases full : maps.currentPage dieNo = geo.userPagesPerBlock
  · rcases DieMap.getFromFbList_normal listed with
      ⟨reserve, failed⟩ | ⟨blockNo, rest, listEq, _, taken⟩
    · -- At the reserve: collect, and open a block only if the current one is still full.
      simp only [prepareCurrentBlock, full, failed, if_true, bind, Except.bind] at prepared
      cases collectedEq : maps.garbageCollection geo dieNo with
      | error stop =>
        rw [collectedEq] at prepared
        cases prepared
      | ok collected =>
        rw [collectedEq] at prepared
        obtain ⟨moves, victimBlockNo, collectedAllocatable, inPlace⟩ :=
          consistent.collected dieBound full listed loose roles collectedEq
        simp only at prepared
        split at prepared
        · rename_i stillFull
          obtain ⟨opened, pageLeft, roles'⟩ :=
            collectedAllocatable.openBlock stillFull prepared
          exact ⟨moves, _, opened, pageLeft, Or.inl roles'⟩
        · split at prepared
          · cases prepared
          · cases prepared
            refine ⟨moves, _, collectedAllocatable, by omega, ?_⟩
            by_cases isCurrent : (maps'.die dieNo).currentBlock = victimBlockNo
            · obtain ⟨wasCurrent, headEq⟩ := inPlace isCurrent
              exact Or.inr ⟨full, reserve, by rw [headEq, wasCurrent]⟩
            · refine Or.inl (consistentOfRoles collectedAllocatable ?_)
              simpa using Ne.symm isCurrent
    · have opened : maps.openFreeBlock dieNo .normal = .ok maps' := by
        simpa [prepareCurrentBlock, full, taken, openFreeBlock, bind, Except.bind] using prepared
      obtain ⟨openedAllocatable, pageLeft, roles'⟩ := allocatable.openBlock full opened
      exact ⟨[], none, openedAllocatable, pageLeft, Or.inl roles'⟩
  · have notAbove : ¬ maps.currentPage dieNo > geo.userPagesPerBlock := by omega
    have unchanged : maps = maps' := by
      simpa [prepareCurrentBlock, full, notAbove] using prepared
    subst unchanged
    exact ⟨[], none, allocatable, by omega, Or.inl (consistentOfRoles allocatable (by simp))⟩

/-! ## The whole write -/

section FindDie

@[simp] theorem findDie_logicalSlice :
    (maps.findDieForFreeSliceAllocation geo).logicalSlice = maps.logicalSlice := by
  unfold findDieForFreeSliceAllocation
  split <;> rfl

@[simp] theorem findDie_virtualSlice :
    (maps.findDieForFreeSliceAllocation geo).virtualSlice = maps.virtualSlice := by
  unfold findDieForFreeSliceAllocation
  split <;> rfl

@[simp] theorem findDie_die : (maps.findDieForFreeSliceAllocation geo).die = maps.die := by
  unfold findDieForFreeSliceAllocation
  split <;> rfl

@[simp] theorem findDie_nandReqs :
    (maps.findDieForFreeSliceAllocation geo).nandReqs = maps.nandReqs := by
  unfold findDieForFreeSliceAllocation
  split <;> rfl

theorem TargetInRange.findDie (chBound : maps.targetCh < geo.userChannels)
    (wayBound : maps.targetWay < geo.userWays) :
    (maps.findDieForFreeSliceAllocation geo).TargetInRange geo := by
  have dieBound : geo.pcw2Vdie maps.targetCh maps.targetWay < geo.userDies := by
    unfold Geometry.pcw2Vdie Geometry.userDies
    calc maps.targetCh + maps.targetWay * geo.userChannels
        < geo.userChannels + maps.targetWay * geo.userChannels := by omega
      _ = geo.userChannels * (maps.targetWay + 1) := by ring
      _ ≤ geo.userChannels * geo.userWays := Nat.mul_le_mul_left _ wayBound
  have waysPos := geo.ways_pos
  have channelsPos := geo.channels_pos
  unfold findDieForFreeSliceAllocation
  split
  · rename_i notLast
    exact ⟨dieBound, by simp only; omega, wayBound⟩
  · exact ⟨dieBound, channelsPos, Nat.mod_lt _ waysPos⟩

end FindDie

/-- A write that does not stop is a prepared current block and one page taken from it. -/
theorem addrTransWrite_eq_ok {logicalSliceAddr virtualSliceAddr : Nat} {maps' : AddressMap}
    (written : maps.addrTransWrite geo logicalSliceAddr = .ok (maps', virtualSliceAddr)) :
    ∃ prepared, (maps.invalidateOldVsa geo logicalSliceAddr).prepareCurrentBlock geo
        (maps.invalidateOldVsa geo logicalSliceAddr).sliceAllocationTargetDie = .ok prepared ∧
      virtualSliceAddr = (prepared.takePage geo
        (maps.invalidateOldVsa geo logicalSliceAddr).sliceAllocationTargetDie).2 ∧
      maps' = ((prepared.takePage geo (maps.invalidateOldVsa geo
        logicalSliceAddr).sliceAllocationTargetDie).1.findDieForFreeSliceAllocation
          geo).mapSlice logicalSliceAddr virtualSliceAddr := by
  unfold addrTransWrite at written
  split at written
  · rw [bind_eq_ok] at written
    obtain ⟨found, foundEq, finalEq⟩ := written
    rw [findFreeVirtualSlice, bind_eq_ok] at foundEq
    obtain ⟨prepared, preparedEq, takenEq⟩ := foundEq
    refine ⟨prepared, preparedEq, ?_⟩
    cases takenEq
    cases finalEq
    exact ⟨rfl, rfl⟩
  · cases written

/-- Once the current block has a page left, nothing can stop the write any more. -/
theorem addrTransWrite_of_prepared {logicalSliceAddr : Nat} {prepared : AddressMap}
    (inDevice : logicalSliceAddr < geo.slicesPerSsd)
    (preparedEq : (maps.invalidateOldVsa geo logicalSliceAddr).prepareCurrentBlock geo
      (maps.invalidateOldVsa geo logicalSliceAddr).sliceAllocationTargetDie = .ok prepared) :
    maps.addrTransWrite geo logicalSliceAddr =
      let dieNo := (maps.invalidateOldVsa geo logicalSliceAddr).sliceAllocationTargetDie
      .ok (((prepared.takePage geo dieNo).1.findDieForFreeSliceAllocation geo).mapSlice
        logicalSliceAddr (prepared.takePage geo dieNo).2, (prepared.takePage geo dieNo).2) := by
  rw [addrTransWrite, if_pos inDevice, findFreeVirtualSlice]
  simp only [preparedEq, bind, Except.bind]

/-- The stages of a write: `dropped` without the old copy, `prepared` with a page left in
the current block of the target die, and `maps'` with the slice on that page. -/
structure Written (geo : Geometry) (maps : AddressMap) (logicalSliceAddr : Nat)
    (maps' : AddressMap) (virtualSliceAddr dieNo : Nat) (dropped prepared : AddressMap)
    (moves : List Move) (erased : Option Nat) : Prop where
  target : dieNo = maps.sliceAllocationTargetDie
  die_lt : dieNo < geo.userDies
  dropped_consistent : dropped.Consistent geo
  dropped_same : SameExceptSlice geo maps dropped logicalSliceAddr
  allocatable : Allocatable geo dropped prepared dieNo moves erased
  pageLeft : prepared.currentPage dieNo < geo.userPagesPerBlock
  roles : prepared.DieConsistent geo dieNo ∨ dropped.WholeCurrentStale geo dieNo
  unmapped : prepared.logicalSlice logicalSliceAddr = none
  addr : virtualSliceAddr = geo.vorg2Vsa dieNo (prepared.die dieNo).currentBlock
    (prepared.currentPage dieNo)
  logicalSlice : maps'.logicalSlice = (prepared.placeSlice geo dieNo logicalSliceAddr).logicalSlice
  virtualSlice : maps'.virtualSlice = (prepared.placeSlice geo dieNo logicalSliceAddr).virtualSlice
  die : maps'.die = (prepared.placeSlice geo dieNo logicalSliceAddr).die
  nandReqs : maps'.nandReqs = prepared.nandReqs
  targetInRange : maps'.TargetInRange geo

theorem Consistent.written {logicalSliceAddr virtualSliceAddr : Nat} {maps' : AddressMap}
    (consistent : maps.Consistent geo)
    (written : maps.addrTransWrite geo logicalSliceAddr = .ok (maps', virtualSliceAddr)) :
    ∃ dropped prepared moves erased, dropped = maps.invalidateOldVsa geo logicalSliceAddr ∧
      Written geo maps logicalSliceAddr maps' virtualSliceAddr maps.sliceAllocationTargetDie
        dropped prepared moves erased := by
  obtain ⟨prepared, preparedEq, addrEq, mapsEq⟩ := addrTransWrite_eq_ok written
  obtain ⟨droppedConsistent, same⟩ := consistent.invalidateOldVsa logicalSliceAddr
  rw [same.target] at preparedEq addrEq mapsEq
  obtain ⟨moves, erased, allocatable, pageLeft, roles⟩ :=
    prepareCurrentBlock_ok droppedConsistent consistent.target.die_lt preparedEq
  have droppedNone :
      (maps.invalidateOldVsa geo logicalSliceAddr).logicalSlice logicalSliceAddr = none := by
    rw [same.logicalSlice, update_self]
  have unmapped : prepared.logicalSlice logicalSliceAddr = none := by
    rw [allocatable.moved.others logicalSliceAddr ?_, droppedNone]
    rintro move member rfl
    have := allocatable.moved.source_mapped move member
    rw [droppedNone] at this
    cases this
  refine ⟨_, prepared, moves, erased, rfl, rfl, consistent.target.die_lt, droppedConsistent, same,
    allocatable, pageLeft, roles, unmapped, addrEq, ?_, ?_, ?_, ?_, ?_⟩
  · simp [mapsEq, addrEq, placeSlice, mapSlice]
  · simp [mapsEq, addrEq, placeSlice, mapSlice]
  · simp [mapsEq, placeSlice, mapSlice]
  · simp [mapsEq, mapSlice, takePage]
  · have inRange := droppedConsistent.target
    have targets := allocatable.targetEq
    have found := @TargetInRange.findDie geo
      (prepared.takePage geo maps.sliceAllocationTargetDie).1
      (by simpa [takePage, setDie, targets.2.1] using inRange.ch_lt)
      (by simpa [takePage, setDie, targets.2.2] using inRange.way_lt)
    rw [mapsEq]
    exact ⟨found.die_lt, found.ch_lt, found.way_lt⟩

section Written

variable {logicalSliceAddr virtualSliceAddr : Nat} {maps' dropped prepared : AddressMap}
  {moves : List Move} {erased : Option Nat}

section

variable
  (written : Written geo maps logicalSliceAddr maps' virtualSliceAddr dieNo dropped prepared moves
    erased)
include written

theorem Written.placement : maps'.Placement geo :=
  (written.allocatable.placement.placeSlice written.die_lt written.allocatable.current_usable
    written.pageLeft logicalSliceAddr).congr written.logicalSlice written.virtualSlice written.die

theorem Written.counts : maps'.CountsExact geo none := by
  refine (written.allocatable.counts.placeSlice written.allocatable.placement written.die_lt
    written.allocatable.current_usable written.pageLeft ?_).congr written.logicalSlice
      written.virtualSlice written.die
  intro oldDie oldBlock oldPage _ mapped
  rw [written.unmapped] at mapped
  cases mapped

/-- The other dies are as before, except for the count of the block that lost the slice. -/
theorem Written.otherDie {other : Nat} (different : other ≠ dieNo) :
    maps'.die other = dropped.die other := by
  rw [written.die, placeSlice_die, if_neg different]
  exact written.allocatable.otherDies other different

theorem Written.targetDie :
    maps'.die dieNo = (prepared.die dieNo).bumpPage (prepared.die dieNo).currentBlock := by
  rw [written.die, placeSlice_die, if_pos rfl]

/-- Unless the current block was erased in place, the block lists and roles stay in order. -/
theorem Written.consistent (notInPlace : ¬ dropped.WholeCurrentStale geo dieNo) :
    maps'.Consistent geo := by
  refine ⟨written.targetInRange, written.placement, written.counts, ?_⟩
  intro other otherBound
  by_cases same : other = dieNo
  · subst same
    obtain ⟨lists, listed, loose, roles⟩ := written.roles.resolve_right notInPlace
    refine ⟨lists, ?_, ?_, ?_⟩ <;> rw [written.targetDie]
    · exact listed.bumpPage _
    · exact loose.bumpPage _
    · exact roles.bumpPage written.pageLeft
  · obtain ⟨lists, listed, loose, roles⟩ := written.dropped_consistent.dies other otherBound
    refine ⟨lists, ?_, ?_, ?_⟩ <;> rwa [written.otherDie same]

theorem Written.exact {other : Nat} (otherBound : other < geo.userDies) :
    ∃ lists, (maps'.die other).Listed geo none lists := by
  by_cases same : other = dieNo
  · subst same
    obtain ⟨lists, listed, _⟩ := written.allocatable.lists
    exact ⟨lists, by rw [written.targetDie]; exact listed.bumpPage _⟩
  · obtain ⟨lists, listed, _⟩ := written.dropped_consistent.dies other otherBound
    exact ⟨lists, by rwa [written.otherDie same]⟩

end

end Written

def Erases (geo : Geometry) (dieNo blockNo : Nat) (reqs : List NandReq) : Prop :=
  ∃ programmedPageCnt, .erase (geo.vorg2Vsa dieNo blockNo 0) programmedPageCnt ∈ reqs

/-- Between `maps` and the erase of its old block, a slice was read and written back. -/
def CopiedBeforeErase (geo : Geometry) (reqs : List NandReq)
    (logicalSliceAddr source destination : Nat) : Prop :=
  ∃ dieNo blockNo pageNo before between programmedPageCnt after,
    dieNo < geo.userDies ∧ pageNo < geo.userPagesPerBlock ∧
    source = geo.vorg2Vsa dieNo blockNo pageNo ∧
    reqs = before ++ .read logicalSliceAddr source dieNo ::
      .write logicalSliceAddr destination dieNo :: between ++
        .erase (geo.vorg2Vsa dieNo blockNo 0) programmedPageCnt :: after

/-- What a write of a slice is to achieve, where `reqs` are the requests that garbage
collection handed over for it. -/
structure WriteOutcome (geo : Geometry) (maps : AddressMap) (logicalSliceAddr : Nat)
    (maps' : AddressMap) (virtualSliceAddr : Nat) (reqs : List NandReq) : Prop where
  requests : maps'.nandReqs = maps.nandReqs ++ reqs
  inside : virtualSliceAddr < geo.slicesPerSsd
  mapped : maps'.logicalSlice logicalSliceAddr = some virtualSliceAddr ∧
    maps'.virtualSlice virtualSliceAddr = some logicalSliceAddr
  exclusive : ∀ other, maps'.logicalSlice other = some virtualSliceAddr →
    other = logicalSliceAddr
  fresh : ∀ dieNo blockNo pageNo, maps.HandedOut geo dieNo blockNo pageNo →
    virtualSliceAddr = geo.vorg2Vsa dieNo blockNo pageNo → Erases geo dieNo blockNo reqs
  not_copy_target : ∀ other dieNo, .write other virtualSliceAddr dieNo ∉ reqs
  others : ∀ other ≠ logicalSliceAddr,
    maps'.logicalSlice other = maps.logicalSlice other ∨
      ∃ source destination, maps.logicalSlice other = some source ∧
        maps'.logicalSlice other = some destination ∧
        (∀ dieNo blockNo pageNo, maps.HandedOut geo dieNo blockNo pageNo →
          destination ≠ geo.vorg2Vsa dieNo blockNo pageNo) ∧
        CopiedBeforeErase geo reqs other source destination
  /-- The block where another slice lies afterwards is not erased, and its page is written only
  by a copy that brings the slice there. -/
  untouched : ∀ other ≠ logicalSliceAddr, ∀ dieNo blockNo pageNo,
    dieNo < geo.userDies → pageNo < geo.userPagesPerBlock →
    maps'.logicalSlice other = some (geo.vorg2Vsa dieNo blockNo pageNo) →
      ¬ Erases geo dieNo blockNo reqs ∧
      ∀ writer entry, .write writer (geo.vorg2Vsa dieNo blockNo pageNo) entry ∈ reqs →
        writer = other ∧ maps.logicalSlice other ≠ some (geo.vorg2Vsa dieNo blockNo pageNo)

/-- Back-pointers, invalid counts and victim lists are exact. -/
structure Exact (geo : Geometry) (maps : AddressMap) : Prop where
  placement : maps.Placement geo
  counts : maps.CountsExact geo none
  listed : ∀ dieNo < geo.userDies, ∃ lists, (maps.die dieNo).Listed geo none lists

section Outcome

variable {logicalSliceAddr virtualSliceAddr : Nat} {maps' dropped prepared : AddressMap}
  {moves : List Move} {erased : Option Nat}

private theorem copiedBeforeErase_of_mem {move : Move} {victimBlockNo pageNo : Nat}
    (dieBound : dieNo < geo.userDies) (pageBound : pageNo < geo.userPagesPerBlock)
    (sourceEq : move.source = geo.vorg2Vsa dieNo victimBlockNo pageNo) (member : move ∈ moves) :
    CopiedBeforeErase geo (moves.flatMap (Move.reqs dieNo) ++
        [.erase (geo.vorg2Vsa dieNo victimBlockNo 0) geo.userPagesPerBlock])
      move.logicalSliceAddr move.source move.destination := by
  obtain ⟨before, after, rfl⟩ := List.append_of_mem member
  refine ⟨dieNo, victimBlockNo, pageNo, before.flatMap (Move.reqs dieNo),
    after.flatMap (Move.reqs dieNo), geo.userPagesPerBlock, [], dieBound, pageBound, sourceEq, ?_⟩
  simp [Move.reqs]

private theorem move_of_write_mem {victimBlockNo writer place entry : Nat}
    (member : .write writer place entry ∈ moves.flatMap (Move.reqs dieNo) ++
      [.erase (geo.vorg2Vsa dieNo victimBlockNo 0) geo.userPagesPerBlock]) :
    ∃ move ∈ moves, move.logicalSliceAddr = writer ∧ move.destination = place := by
  have listed : ∃ move ∈ moves, move.logicalSliceAddr = writer ∧ move.destination = place ∧
      dieNo = entry := by
    simpa [Move.reqs, eq_comm] using member
  obtain ⟨move, inMoves, address, destination, _⟩ := listed
  exact ⟨move, inMoves, address, destination⟩

section

variable
  (written : Written geo maps logicalSliceAddr maps' virtualSliceAddr dieNo dropped prepared moves
    erased)
include written

/-- The page that the slice gets was not handed out since its block was erased. -/
private theorem Written.fresh {otherDie blockNo pageNo : Nat}
    (handed : maps.HandedOut geo otherDie blockNo pageNo)
    (same : virtualSliceAddr = geo.vorg2Vsa otherDie blockNo pageNo) :
    otherDie = dieNo ∧ erased = some blockNo := by
  rw [written.addr] at same
  obtain ⟨rfl, rfl, rfl⟩ := (Geometry.vorg2Vsa_inj written.die_lt written.pageLeft
    handed.die_lt handed.page_lt).mp same
  refine ⟨rfl, ?_⟩
  by_contra notErased
  have grown := written.allocatable.pagesGrow _ (Ne.symm notErased)
  have below := ((written.dropped_same.handedOut _ _ _).mpr handed).page_handed
  exact absurd below (Nat.not_lt.mpr grown)

theorem Written.others {other : Nat} (different : other ≠ logicalSliceAddr) :
    maps'.logicalSlice other = maps.logicalSlice other ∨
      ∃ move ∈ moves, move.logicalSliceAddr = other ∧
        maps.logicalSlice other = some move.source ∧
        maps'.logicalSlice other = some move.destination := by
  have after : maps'.logicalSlice other = prepared.logicalSlice other := by
    rw [written.logicalSlice, placeSlice_logicalSlice_of_ne different]
  have before : dropped.logicalSlice other = maps.logicalSlice other := by
    rw [written.dropped_same.logicalSlice, update_of_ne different]
  by_cases isMoved : ∃ move ∈ moves, move.logicalSliceAddr = other
  · obtain ⟨move, member, rfl⟩ := isMoved
    refine Or.inr ⟨move, member, rfl, ?_, ?_⟩
    · rw [← before]
      exact written.allocatable.moved.source_mapped move member
    · rw [after]
      exact written.allocatable.moved.destination_mapped move member
  · left
    rw [after, ← before]
    refine written.allocatable.moved.others other ?_
    intro move member same
    exact isMoved ⟨move, member, same⟩

/-- The place of another slice is not on the block that was erased. -/
private theorem Written.not_erased {other blockNo pageNo : Nat}
    (different : other ≠ logicalSliceAddr) (pageBound : pageNo < geo.userPagesPerBlock)
    (mapped : maps'.logicalSlice other = some (geo.vorg2Vsa dieNo blockNo pageNo)) :
    erased ≠ some blockNo := by
  intro isErased
  rw [written.logicalSlice, placeSlice_logicalSlice_of_ne different] at mapped
  obtain ⟨_, _, _, handed, same⟩ := written.allocatable.placement.placed _ _ mapped
  obtain ⟨rfl, rfl, rfl⟩ := (Geometry.vorg2Vsa_inj written.die_lt pageBound handed.die_lt
    handed.page_lt).mp same
  have below := handed.page_handed
  rw [written.allocatable.erasedEmpty _ isErased] at below
  cases below

/-- The place of another slice is the target of a copy only if the slice was moved there. -/
private theorem Written.copy_target {other : Nat} (different : other ≠ logicalSliceAddr)
    {move : Move} (member : move ∈ moves)
    (mapped : maps'.logicalSlice other = some move.destination) :
    move.logicalSliceAddr = other ∧ maps.logicalSlice other ≠ some move.destination := by
  rw [written.logicalSlice, placeSlice_logicalSlice_of_ne different] at mapped
  refine ⟨written.allocatable.placement.mapped_unique
    (written.allocatable.moved.destination_mapped move member) mapped, ?_⟩
  intro before
  have kept : dropped.logicalSlice other = some move.destination := by
    rw [written.dropped_same.logicalSlice, update_of_ne different, before]
  obtain ⟨_, _, _, handed, same⟩ := written.dropped_consistent.placement.placed _ _ kept
  exact written.allocatable.moved.destination_fresh move member _ _ _ handed same

theorem Written.outcome :
    ∃ reqs, WriteOutcome geo maps logicalSliceAddr maps' virtualSliceAddr reqs := by
  have mapped : maps'.logicalSlice logicalSliceAddr = some virtualSliceAddr := by
    rw [written.logicalSlice, placeSlice_logicalSlice_self, written.addr]
  have inside : virtualSliceAddr < geo.slicesPerSsd := by
    rw [written.addr]
    exact Geometry.vorg2Vsa_lt written.die_lt written.allocatable.current_usable.1
      written.pageLeft
  have exclusive : ∀ other, maps'.logicalSlice other = some virtualSliceAddr →
      other = logicalSliceAddr :=
    fun other otherMapped => written.placement.mapped_unique otherMapped mapped
  have back := written.placement.backPointer _ _ mapped
  have requests : maps'.nandReqs = prepared.nandReqs := written.nandReqs
  have destinationFresh : ∀ move ∈ moves, ∀ otherDie blockNo pageNo,
      maps.HandedOut geo otherDie blockNo pageNo →
        move.destination ≠ geo.vorg2Vsa otherDie blockNo pageNo :=
    fun move member otherDie blockNo pageNo handed =>
      written.allocatable.moved.destination_fresh move member _ _ _
        ((written.dropped_same.handedOut _ _ _).mpr handed)
  rcases written.allocatable.requests with
    ⟨noErase, noMoves, same⟩ | ⟨victimBlockNo, isErased, emitted, sources⟩
  · refine ⟨[], ⟨?_, inside, ⟨mapped, back⟩, exclusive, ?_, by simp, ?_, by simp [Erases]⟩⟩
    · rw [requests, same, written.dropped_same.nandReqs, List.append_nil]
    · intro otherDie blockNo pageNo handed sameAddr
      have := (written.fresh handed sameAddr).2
      rw [noErase] at this
      cases this
    · intro other different
      rcases written.others different with kept | ⟨move, member, _⟩
      · exact Or.inl kept
      · simp [noMoves] at member
  · refine ⟨moves.flatMap (Move.reqs dieNo) ++
        [.erase (geo.vorg2Vsa dieNo victimBlockNo 0) geo.userPagesPerBlock],
      ⟨?_, inside, ⟨mapped, back⟩, exclusive, ?_, ?_, ?_, ?_⟩⟩
    · rw [requests, emitted, written.dropped_same.nandReqs]
    · intro otherDie blockNo pageNo handed sameAddr
      obtain ⟨rfl, erasedHere⟩ := written.fresh handed sameAddr
      rw [isErased] at erasedHere
      cases erasedHere
      exact ⟨geo.userPagesPerBlock, by simp⟩
    · intro other otherDie member
      obtain ⟨move, inMoves, _, destinationEq⟩ := move_of_write_mem member
      refine written.allocatable.placement.target_not_mapped written.die_lt written.pageLeft
        ⟨move.logicalSliceAddr, ?_⟩
      rw [written.allocatable.moved.destination_mapped move inMoves, destinationEq, written.addr]
    · intro other different
      rcases written.others different with kept | ⟨move, member, rfl, source, destination⟩
      · exact Or.inl kept
      · obtain ⟨pageNo, pageBound, sourceEq⟩ := sources move member
        exact Or.inr ⟨move.source, move.destination, source, destination,
          destinationFresh move member,
          copiedBeforeErase_of_mem written.die_lt pageBound sourceEq member⟩
    · intro other different otherDie blockNo pageNo otherBound pageBound otherMapped
      constructor
      · rintro ⟨programmedPageCnt, member⟩
        have sameBlock : geo.vorg2Vsa otherDie blockNo 0 = geo.vorg2Vsa dieNo victimBlockNo 0 ∧
            programmedPageCnt = geo.userPagesPerBlock := by
          simpa [Move.reqs] using member
        obtain ⟨rfl, rfl, _⟩ := (Geometry.vorg2Vsa_inj otherBound geo.pages_pos written.die_lt
          geo.pages_pos).mp sameBlock.1
        exact written.not_erased different pageBound otherMapped isErased
      · intro writer entry member
        obtain ⟨move, inMoves, rfl, destinationEq⟩ := move_of_write_mem member
        rw [← destinationEq] at otherMapped ⊢
        exact written.copy_target different inMoves otherMapped

end

end Outcome

end RwRbuf.Firmware.AddressMap
