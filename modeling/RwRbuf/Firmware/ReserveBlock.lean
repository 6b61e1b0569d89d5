import RwRbuf.Firmware.FreeSpace

/-! # One reserved block is enough

`GET_FREE_BLOCK_NORMAL` never hands out the last free block of a die.  A collection that
starts with only this block free copies all live slices of the victim into it, and the
erased victim takes its place.
-/

namespace RwRbuf.Firmware.AddressMap

open LinkedList Fallible

variable {geo : Geometry} {maps : AddressMap} {dieNo : Nat}

/-! ## The copies -/

/-- The copies made before page `pageNo` of the victim is looked at.  Either there are none
and the reserved block is the only free one, or they lie at the front of the reserved block,
which is the current block then. -/
structure ReserveUse (geo : Geometry) (start : AddressMap)
    (dieNo victimBlockNo reserveBlockNo pageNo : Nat) (moves : List Move) (maps : AddressMap) :
    Prop where
  requests : maps.nandReqs = start.nandReqs ++ moves.flatMap (Move.reqs dieNo)
  destinations : moves.map Move.destination =
    (List.range moves.length).map (geo.vorg2Vsa dieNo reserveBlockNo)
  copies : moves.length ≤ start.liveBelow geo dieNo victimBlockNo pageNo
  place : (moves = [] ∧ maps.currentPage dieNo = geo.userPagesPerBlock ∧
      (maps.die dieNo).freeBlock.head = some reserveBlockNo ∧
      (maps.die dieNo).freeBlockCnt = 1) ∨
    (moves ≠ [] ∧ (maps.die dieNo).currentBlock = reserveBlockNo ∧
      maps.currentPage dieNo = moves.length ∧ (maps.die dieNo).freeBlockCnt = 0)

section CopyLoop

variable {start : AddressMap} {victimBlockNo reserveBlockNo pageNo : Nat} {moves : List Move}

section

variable (use : ReserveUse geo start dieNo victimBlockNo reserveBlockNo pageNo moves maps)
include use

theorem ReserveUse.skip :
    ReserveUse geo start dieNo victimBlockNo reserveBlockNo (pageNo + 1) moves maps :=
  { use with copies := use.copies.trans (liveBelow_mono _ (by omega)) }

/-- A copy to the next page of the reserved block, from the die `die` on which that block is
the current one. -/
theorem ReserveUse.copy {owner : Nat} {die : DieMap}
    (live : start.isLive (geo.vorg2Vsa dieNo victimBlockNo pageNo) = true)
    (current : die.currentBlock = reserveBlockNo)
    (page : (die.block die.currentBlock).currentPage = moves.length)
    (noneFree : die.freeBlockCnt = 0) :
    ReserveUse geo start dieNo victimBlockNo reserveBlockNo (pageNo + 1)
      (moves ++ [⟨owner, geo.vorg2Vsa dieNo victimBlockNo pageNo,
        geo.vorg2Vsa dieNo reserveBlockNo moves.length⟩])
      (((((maps.emit (.read owner (geo.vorg2Vsa dieNo victimBlockNo pageNo) dieNo)).setDie dieNo
        die).takePage geo dieNo).1.mapSlice owner
          (((maps.emit (.read owner (geo.vorg2Vsa dieNo victimBlockNo pageNo) dieNo)).setDie dieNo
            die).takePage geo dieNo).2).emit
        (.write owner (((maps.emit (.read owner (geo.vorg2Vsa dieNo victimBlockNo pageNo)
          dieNo)).setDie dieNo die).takePage geo dieNo).2 dieNo)) := by
  have counted := @liveBelow_succ geo start dieNo victimBlockNo pageNo
  rw [live, if_pos rfl] at counted
  have target : (((maps.emit (.read owner (geo.vorg2Vsa dieNo victimBlockNo pageNo) dieNo)).setDie
      dieNo die).takePage geo dieNo).2 = geo.vorg2Vsa dieNo reserveBlockNo moves.length := by
    rw [← page, ← current]
    simp [takePage, currentPage]
  constructor
  · rw [target]
    simp [emit, mapSlice, takePage, setDie, use.requests, Move.reqs]
  · rw [List.map_append, use.destinations, List.length_append, List.length_singleton,
      List.range_succ, List.map_append]
    rfl
  · have copies := use.copies
    rw [List.length_append, List.length_singleton]
    omega
  · right
    refine ⟨by simp, ?_, ?_, ?_⟩
    · rw [currentBlock_copied]
      exact current
    · rw [currentPage_copied, page, List.length_append, List.length_singleton]
    · simpa [emit, mapSlice, takePage, DieMap.bumpPage, DieMap.setBlock] using noneFree

end

/-- As long as the victim is not wholly live, its copies fit into the reserved block. -/
theorem Collecting.step_reserve (collecting : Collecting geo start dieNo victimBlockNo pageNo maps)
    (use : ReserveUse geo start dieNo victimBlockNo reserveBlockNo pageNo moves maps)
    (consistent : start.Consistent geo)
    (victimHanded : ∀ pageNo < geo.userPagesPerBlock,
      start.HandedOut geo dieNo victimBlockNo pageNo)
    (notAllLive : start.liveBelow geo dieNo victimBlockNo geo.userPagesPerBlock <
      geo.userPagesPerBlock)
    (dieBound : dieNo < geo.userDies) (pageBound : pageNo < geo.userPagesPerBlock) :
    ∃ maps' moves', gcCopyPage geo dieNo victimBlockNo maps pageNo = .ok maps' ∧
      Collecting geo start dieNo victimBlockNo (pageNo + 1) maps' ∧
      ReserveUse geo start dieNo victimBlockNo reserveBlockNo (pageNo + 1) moves' maps' := by
  have finish : ∀ maps' moves', gcCopyPage geo dieNo victimBlockNo maps pageNo = .ok maps' →
      ReserveUse geo start dieNo victimBlockNo reserveBlockNo (pageNo + 1) moves' maps' →
        ∃ maps' moves', gcCopyPage geo dieNo victimBlockNo maps pageNo = .ok maps' ∧
          Collecting geo start dieNo victimBlockNo (pageNo + 1) maps' ∧
          ReserveUse geo start dieNo victimBlockNo reserveBlockNo (pageNo + 1) moves' maps' :=
    fun maps' moves' stepped use' =>
      ⟨maps', moves', stepped, collecting.step victimHanded dieBound pageBound stepped, use'⟩
  rcases @gcCopyPage_cases geo maps dieNo victimBlockNo collecting.placement pageNo with
    ⟨_, unchanged⟩ | ⟨owner, mapped, copyEq⟩
  · exact finish maps moves unchanged use.skip
  · have live := collecting.live_of_mapped consistent victimHanded pageBound mapped
    obtain ⟨lists, collectable⟩ := collecting.collectable
    have freeCount := collectable.listed.free_count
    have emitted : Collectable geo ((maps.emit (.read owner
      (geo.vorg2Vsa dieNo victimBlockNo pageNo) dieNo)).die dieNo) victimBlockNo lists :=
        collectable
    rcases findFreeVirtualSliceForGc_cases emitted with
      ⟨notVictim, pageLeft, taken⟩ | ⟨full, ⟨empty, _⟩ | ⟨blockNo, rest, listEq, taken⟩⟩
    · -- the current block is the reserved one already
      replace pageLeft : maps.currentPage dieNo < geo.userPagesPerBlock := pageLeft
      rw [taken, ← setDie_self (maps.emit _) dieNo] at copyEq
      rcases use.place with ⟨_, full, _⟩ | ⟨_, current, page, noneFree⟩
      · omega
      · exact finish _ _ copyEq (use.copy live current page noneFree)
    · -- no block is left, although the current one is full
      exfalso
      replace full : maps.currentPage dieNo = geo.userPagesPerBlock := full
      rw [empty] at freeCount
      rcases use.place with ⟨_, _, _, oneFree⟩ | ⟨_, _, page, _⟩
      · rw [freeCount] at oneFree
        cases oneFree
      · have copies := use.copies.trans (liveBelow_mono _ (Nat.le_of_lt pageBound))
        omega
    · -- the first copy opens the reserved block
      have headEq : (maps.die dieNo).freeBlock.head = (lists none).head? :=
        (collectable.listed.family.holds none).head
      have blockEmpty := (collectable.roles.free_empty blockNo (by simp [listEq])).2
      rw [listEq] at freeCount headEq
      rw [taken] at copyEq
      rcases use.place with ⟨noMoves, _, reserved, oneFree⟩ | ⟨_, _, _, noneFree⟩
      · have isReserve : blockNo = reserveBlockNo := by
          rw [reserved] at headEq
          exact (Option.some.inj headEq).symm
        subst isReserve
        refine finish _ _ copyEq (use.copy live rfl ?_ ?_)
        · rw [noMoves, DieMap.takeFreeBlock_currentPage]
          exact blockEmpty
        · show (maps.die dieNo).freeBlockCnt - 1 = 0
          omega
      · rw [noneFree] at freeCount
        cases freeCount

end CopyLoop

/-! ## The whole collection -/

/-- A collection that used at most the reserved block: the copies of `moves` lie at the front
of that block, the victim was erased after all its pages had been handed out, and it is free
now, together with the reserved block if nothing was copied. -/
structure CollectedInReserve (geo : Geometry) (maps maps' : AddressMap)
    (dieNo reserveBlockNo victimBlockNo : Nat) (moves : List Move) : Prop where
  reserve : Holds (maps.die dieNo).link (maps.die dieNo).freeBlock [reserveBlockNo]
  requests : maps'.nandReqs = maps.nandReqs ++ (moves.flatMap (Move.reqs dieNo) ++
    [.erase (geo.vorg2Vsa dieNo victimBlockNo 0) geo.userPagesPerBlock])
  victim_full : ((maps.die dieNo).block victimBlockNo).currentPage = geo.userPagesPerBlock
  destinations : moves.map Move.destination =
    (List.range moves.length).map (geo.vorg2Vsa dieNo reserveBlockNo)
  fits : moves.length < geo.userPagesPerBlock
  free : Holds (maps'.die dieNo).link (maps'.die dieNo).freeBlock
    (if moves = [] then [reserveBlockNo, victimBlockNo] else [victimBlockNo])
  free_count : (maps'.die dieNo).freeBlockCnt = if moves = [] then 2 else 1

theorem ReserveUse.collected {start : AddressMap} {victimBlockNo reserveBlockNo : Nat}
    {moves : List Move}
    (collecting : Collecting geo start dieNo victimBlockNo geo.userPagesPerBlock maps)
    (use : ReserveUse geo start dieNo victimBlockNo reserveBlockNo geo.userPagesPerBlock moves maps)
    (reserve : Holds (start.die dieNo).link (start.die dieNo).freeBlock [reserveBlockNo])
    (victimFull : ((start.die dieNo).block victimBlockNo).currentPage = geo.userPagesPerBlock)
    (notAllLive : start.liveBelow geo dieNo victimBlockNo geo.userPagesPerBlock <
      geo.userPagesPerBlock) :
    CollectedInReserve geo start (maps.eraseBlock geo dieNo victimBlockNo) dieNo reserveBlockNo
      victimBlockNo moves := by
  obtain ⟨lists, collectable⟩ := collecting.collectable
  have listed := collectable.listed.eraseBlock collectable.victim_usable
    collectable.victim_not_free
  have freeCount := collectable.listed.free_count
  have headEq : (maps.die dieNo).freeBlock.head = (lists none).head? :=
    (collectable.listed.family.holds none).head
  have listEq : lists none ++ [victimBlockNo] =
      if moves = [] then [reserveBlockNo, victimBlockNo] else [victimBlockNo] := by
    rcases use.place with ⟨noMoves, _, reserved, oneFree⟩ | ⟨someMoves, _, _, noneFree⟩
    · obtain ⟨blockNo, single⟩ := List.length_eq_one_iff.mp (freeCount.symm.trans oneFree)
      rw [reserved, single] at headEq
      rw [if_pos noMoves, single, Option.some.inj headEq]
      rfl
    · rw [if_neg someMoves, List.length_eq_zero_iff.mp (freeCount.symm.trans noneFree)]
      rfl
  refine ⟨reserve, ?_, victimFull, use.destinations, lt_of_le_of_lt use.copies notAllLive, ?_, ?_⟩
  · rw [eraseBlock_nandReqs, use.requests, List.append_assoc, collectable.victim_full]
  · have held := listed.family.holds none
    rw [Function.update_self, listEq] at held
    rw [eraseBlock_die, if_pos rfl]
    exact held
  · rw [eraseBlock_die, if_pos rfl, listed.free_count, Function.update_self, listEq]
    split <;> rfl

/-- On a die with a full current block, one free block and an invalid slice, a collection gets
through with that one block, and so does the allocation that asked for it. -/
theorem garbageCollection_in_reserve (geo : Geometry) (maps : AddressMap)
    (dieNo staleBlockNo : Nat) (consistent : maps.Consistent geo) (dieBound : dieNo < geo.userDies)
    (currentFull : maps.currentPage dieNo = geo.userPagesPerBlock)
    (oneFree : (maps.die dieNo).freeBlockCnt = 1)
    (usable : (maps.die dieNo).Usable geo staleBlockNo)
    (stale : ((maps.die dieNo).block staleBlockNo).invalidSliceCnt ≠ 0) :
    (∃ maps' reserveBlockNo victimBlockNo moves, maps.garbageCollection geo dieNo = .ok maps' ∧
      CollectedInReserve geo maps maps' dieNo reserveBlockNo victimBlockNo moves) ∧
    (maps.sliceAllocationTargetDie = dieNo →
      ∃ allocated, maps.findFreeVirtualSlice geo = .ok allocated) := by
  obtain ⟨lists, listed, loose, roles⟩ := consistent.dies dieNo dieBound
  obtain ⟨reserveBlockNo, single⟩ :=
    List.length_eq_one_iff.mp (listed.free_count.symm.trans oneFree)
  have reserve := listed.family.holds none
  rw [single] at reserve
  constructor
  · obtain ⟨index, victimBlockNo, rest, listEq, taken, full, notAllLive, victimHanded⟩ :=
      consistent.exists_victim dieBound currentFull listed usable stale
    have beginUse : ReserveUse geo maps dieNo victimBlockNo reserveBlockNo 0 []
        (maps.setDie dieNo ((maps.die dieNo).takeVictimBlock (index + 1) victimBlockNo)) := by
      refine ⟨by simp [setDie], rfl, Nat.zero_le _, Or.inl ⟨rfl, ?_, ?_, ?_⟩⟩
      · simpa [currentPage, DieMap.takeVictimBlock] using currentFull
      · rw [setDie_die, if_pos rfl]
        exact reserve.head
      · rw [setDie_die, if_pos rfl]
        exact oneFree
    have skip : ∀ pageNo state,
        (∃ moves, ReserveUse geo maps dieNo victimBlockNo reserveBlockNo pageNo moves state) →
          ∃ moves, ReserveUse geo maps dieNo victimBlockNo reserveBlockNo (pageNo + 1) moves
            state := by
      rintro pageNo state ⟨moves, use⟩
      exact ⟨moves, use.skip⟩
    have step : ∀ pageNo < geo.userPagesPerBlock, ∀ state,
        Collecting geo maps dieNo victimBlockNo pageNo state →
        (∃ moves, ReserveUse geo maps dieNo victimBlockNo reserveBlockNo pageNo moves state) →
          ∃ state', gcCopyPage geo dieNo victimBlockNo state pageNo = .ok state' ∧
            Collecting geo maps dieNo victimBlockNo (pageNo + 1) state' ∧
            ∃ moves, ReserveUse geo maps dieNo victimBlockNo reserveBlockNo (pageNo + 1) moves
              state' := by
      rintro pageNo bound state collecting ⟨moves, use⟩
      obtain ⟨state', moves', copied, collecting', use'⟩ := collecting.step_reserve use consistent
        victimHanded notAllLive dieBound bound
      exact ⟨state', copied, collecting', moves', use'⟩
    obtain ⟨drained, collected, collecting, moves, use⟩ :=
      consistent.garbageCollection_of_step dieBound currentFull listed loose roles listEq taken
        ⟨[], beginUse⟩ skip step
    exact ⟨_, reserveBlockNo, victimBlockNo, moves, collected,
      use.collected collecting reserve full notAllLive⟩
  · intro isTarget
    obtain ⟨prepared, preparedEq, _⟩ := consistent.prepareCurrentBlock_total dieBound
      (by omega) fun _ _ => ⟨staleBlockNo, usable, stale⟩
    subst isTarget
    simp [findFreeVirtualSlice, preparedEq, bind, Except.bind]

/-- After a slice was written twice, the current block of the die is full, half of it is stale
and one block is free. -/
theorem garbageCollection_in_reserve_twoBlocks :
    ∃ maps, maps.Consistent .twoBlocks ∧ maps.currentPage 0 = 2 ∧ (maps.die 0).freeBlockCnt = 1 ∧
      (∃ maps' reserveBlockNo victimBlockNo moves, maps.garbageCollection .twoBlocks 0 = .ok maps' ∧
        CollectedInReserve .twoBlocks maps maps' 0 reserveBlockNo victimBlockNo moves) ∧
      (maps.sliceAllocationTargetDie = 0 →
        ∃ allocated, maps.findFreeVirtualSlice .twoBlocks = .ok allocated) := by
  have evaluated : (match initAddressMap .twoBlocks (fun _ _ => false) with
      | .error _ => false
      | .ok start => match start.addrTransWrite .twoBlocks 0 with
        | .error _ => false
        | .ok first => match first.1.addrTransWrite .twoBlocks 0 with
          | .error _ => false
          | .ok second => start.currentPage start.sliceAllocationTargetDie = 0 ∧
            first.1.currentPage first.1.sliceAllocationTargetDie = 1 ∧
            second.1.currentPage 0 = 2 ∧ (second.1.die 0).freeBlockCnt = 1 ∧
            ((second.1.die 0).block 0).bad = false ∧
            ((second.1.die 0).block 0).invalidSliceCnt = 1) = true := by
    decide +kernel
  cases initialised : initAddressMap .twoBlocks (fun _ _ => false) with
  | error stop => simp [initialised] at evaluated
  | ok start =>
    cases firstEq : start.addrTransWrite .twoBlocks 0 with
    | error stop => simp [initialised, firstEq] at evaluated
    | ok first =>
      cases secondEq : first.1.addrTransWrite .twoBlocks 0 with
      | error stop => simp [initialised, firstEq, secondEq] at evaluated
      | ok second =>
        simp only [initialised, firstEq, secondEq, decide_eq_true_eq] at evaluated
        obtain ⟨startPage, firstPage, full, oneFree, good, stale⟩ := evaluated
        have pages : Geometry.twoBlocks.userPagesPerBlock = 2 := rfl
        have startConsistent := (initAddressMap_initialised initialised).consistent
        have firstConsistent : first.1.Consistent .twoBlocks :=
          startConsistent.write (fun inPlace => by have := inPlace.1; omega) firstEq
        have consistent : second.1.Consistent .twoBlocks :=
          firstConsistent.write (fun inPlace => by have := inPlace.1; omega) secondEq
        exact ⟨second.1, consistent, full, oneFree,
          garbageCollection_in_reserve .twoBlocks second.1 0 0 consistent (by decide) full
            oneFree ⟨by decide, good⟩ (by omega)⟩

end RwRbuf.Firmware.AddressMap
