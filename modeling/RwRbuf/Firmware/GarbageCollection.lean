import RwRbuf.Lib.Fallible
import RwRbuf.Firmware.SliceMap

/-! # Garbage collection of one die

The copy loop of `GarbageCollection` moves the live slices of the victim away, page by
page, before the block is erased.  `Collecting` is the invariant of this loop; it also
records which slices were moved and which requests were handed over for them.
-/

namespace RwRbuf.Firmware

open Fallible Function

structure DieMap.SameBlocks (die die' : DieMap) : Prop where
  bad : ∀ blockNo, (die'.block blockNo).bad = (die.block blockNo).bad
  currentPage : ∀ blockNo, (die'.block blockNo).currentPage = (die.block blockNo).currentPage
  invalidSliceCnt : ∀ blockNo,
    (die'.block blockNo).invalidSliceCnt = (die.block blockNo).invalidSliceCnt

namespace DieMap

variable {geo : Geometry} {die die' : DieMap}

theorem SameBlocks.refl (die : DieMap) : die.SameBlocks die :=
  ⟨fun _ => rfl, fun _ => rfl, fun _ => rfl⟩

theorem SameBlocks.usable (same : die.SameBlocks die') (blockNo : Nat) :
    die'.Usable geo blockNo ↔ die.Usable geo blockNo := by
  simp only [Usable, same.bad]

theorem sameBlocks_openBlock (die : DieMap) (blockNo : Nat) :
    die.SameBlocks { die.takeFreeBlock blockNo with currentBlock := blockNo } :=
  ⟨fun _ => takeFreeBlock_bad _, fun _ => takeFreeBlock_currentPage _,
    fun _ => takeFreeBlock_invalidSliceCnt _⟩

end DieMap

namespace AddressMap

variable {geo : Geometry} {maps : AddressMap} {dieNo : Nat} {die : DieMap}

@[simp] theorem setDie_self (maps : AddressMap) (dieNo : Nat) :
    maps.setDie dieNo (maps.die dieNo) = maps := by
  simp [setDie]

private theorem setDie_same {otherDie : Nat} (same : (maps.die dieNo).SameBlocks die) :
    (maps.die otherDie).SameBlocks ((maps.setDie dieNo die).die otherDie) := by
  by_cases here : otherDie = dieNo
  · subst here
    simpa using same
  · simpa [here] using DieMap.SameBlocks.refl _

theorem Placement.setDie (placement : maps.Placement geo)
    (same : (maps.die dieNo).SameBlocks die) : (maps.setDie dieNo die).Placement geo := by
  refine ⟨placement.backPointer, ?_, ?_⟩
  · intro logicalSliceAddr virtualSliceAddr mapped
    obtain ⟨otherDie, blockNo, pageNo, handed, addrEq⟩ := placement.placed _ _ mapped
    refine ⟨otherDie, blockNo, pageNo, ⟨handed.die_lt, ?_, handed.page_lt, ?_⟩, addrEq⟩
    · exact ((setDie_same same).usable blockNo).mpr handed.usable
    · rw [(setDie_same same).currentPage]
      exact handed.page_handed
  · intro otherDie dieBound blockNo usable
    rw [(setDie_same same).currentPage]
    exact placement.pages_le otherDie dieBound blockNo
      (((setDie_same same).usable blockNo).mp usable)

theorem CountsExact.setDie {off : Option (Nat × Nat)} (counts : maps.CountsExact geo off)
    (same : (maps.die dieNo).SameBlocks die) : (maps.setDie dieNo die).CountsExact geo off := by
  intro otherDie dieBound blockNo usable notOff
  rw [(setDie_same same).invalidSliceCnt, counts otherDie dieBound blockNo
    (((setDie_same same).usable blockNo).mp usable) notOff]
  refine (staleCount_congr ((setDie_same same).currentPage blockNo) ?_).symm
  intro pageNo _
  rfl

/-! ## Finding a page for a copy -/

structure Collectable (geo : Geometry) (die : DieMap) (victimBlockNo : Nat)
    (lists : Option (Fin geo.userPagesPerBlock) → List Nat) : Prop where
  listed : die.Listed geo (some victimBlockNo) lists
  loose : die.Loose geo (lists none)
  roles : die.Roles geo (lists none)
  victim_usable : die.Usable geo victimBlockNo
  victim_not_free : victimBlockNo ∉ lists none
  victim_full : (die.block victimBlockNo).currentPage = geo.userPagesPerBlock

variable {victimBlockNo : Nat} {lists : Option (Fin geo.userPagesPerBlock) → List Nat}

theorem Collectable.openBlock {blockNo : Nat} {rest : List Nat}
    (collectable : Collectable geo die victimBlockNo lists)
    (currentFull : (die.block die.currentBlock).currentPage = geo.userPagesPerBlock)
    (listEq : lists none = blockNo :: rest) :
    Collectable geo { die.takeFreeBlock blockNo with currentBlock := blockNo } victimBlockNo
      (update lists none rest) := by
  have same := DieMap.sameBlocks_openBlock die blockNo
  refine ⟨?_, ?_, ?_, ?_, ?_, ?_⟩
  · exact (collectable.listed.takeFreeBlock listEq).congr rfl rfl rfl rfl (fun _ => rfl)
      fun _ => rfl
  · rw [update_self]
    exact collectable.loose.takeFreeBlock collectable.listed listEq
  · rw [update_self]
    exact collectable.roles.takeFreeBlock collectable.listed listEq currentFull
  · exact (same.usable _).mpr collectable.victim_usable
  · rw [update_self]
    intro member
    exact collectable.victim_not_free (by simp [listEq, member])
  · rw [same.currentPage]
    exact collectable.victim_full

/-- Opening a block for a copy takes the head of the free list. -/
private theorem openFreeBlock_gc (listed : (maps.die dieNo).Listed geo (some victimBlockNo) lists) :
    (lists none = [] ∧ maps.openFreeBlock dieNo .gc = .error .noAvailableBlock) ∨
      ∃ blockNo rest, lists none = blockNo :: rest ∧
        maps.openFreeBlock dieNo .gc = .ok (maps.setDie dieNo
          { (maps.die dieNo).takeFreeBlock blockNo with currentBlock := blockNo }) := by
  rcases DieMap.getFromFbList_gc listed with ⟨empty, taken⟩ | ⟨blockNo, rest, listEq, taken⟩
  · exact Or.inl ⟨empty, by simp [openFreeBlock, taken, bind, Except.bind]⟩
  · exact Or.inr ⟨blockNo, rest, listEq, by simp [openFreeBlock, taken, bind, Except.bind]⟩

/-- `FindFreeVirtualSliceForGc` stays in the current block while it has a page left and is
not the victim; otherwise it opens the first free block, and fails if there is none. -/
theorem findFreeVirtualSliceForGc_cases
    (collectable : Collectable geo (maps.die dieNo) victimBlockNo lists) :
    ((maps.die dieNo).currentBlock ≠ victimBlockNo ∧
      maps.currentPage dieNo < geo.userPagesPerBlock ∧
      maps.findFreeVirtualSliceForGc geo dieNo victimBlockNo = .ok (maps.takePage geo dieNo)) ∨
    (maps.currentPage dieNo = geo.userPagesPerBlock ∧
      ((lists none = [] ∧ maps.findFreeVirtualSliceForGc geo dieNo victimBlockNo =
          .error .noAvailableBlock) ∨
        ∃ blockNo rest, lists none = blockNo :: rest ∧
          maps.findFreeVirtualSliceForGc geo dieNo victimBlockNo =
            .ok ((maps.setDie dieNo { (maps.die dieNo).takeFreeBlock blockNo with
              currentBlock := blockNo }).takePage geo dieNo))) := by
  have pageLe : maps.currentPage dieNo ≤ geo.userPagesPerBlock := collectable.roles.current_le
  by_cases isVictim : victimBlockNo = (maps.die dieNo).currentBlock
  · have full : maps.currentPage dieNo = geo.userPagesPerBlock := by
      rw [currentPage, ← isVictim]
      exact collectable.victim_full
    refine Or.inr ⟨full, ?_⟩
    rcases openFreeBlock_gc collectable.listed with ⟨empty, opened⟩ |
      ⟨blockNo, rest, listEq, opened⟩
    · refine Or.inl ⟨empty, ?_⟩
      rw [findFreeVirtualSliceForGc, if_pos isVictim, opened]
      rfl
    · refine Or.inr ⟨blockNo, rest, listEq, ?_⟩
      -- The block just opened is empty, so the second test of the source does not fire.
      have newPage : (maps.setDie dieNo { (maps.die dieNo).takeFreeBlock blockNo with
          currentBlock := blockNo }).currentPage dieNo = 0 := by
        have := (collectable.roles.free_empty blockNo (by simp [listEq])).2
        simp [currentPage, this]
      have pagesPos := geo.pages_pos
      rw [findFreeVirtualSliceForGc, if_pos isVictim, opened]
      simp only [bind, Except.bind, newPage]
      rw [if_neg (by omega), if_neg (by omega)]
  · by_cases full : maps.currentPage dieNo = geo.userPagesPerBlock
    · refine Or.inr ⟨full, ?_⟩
      rcases openFreeBlock_gc collectable.listed with
        ⟨empty, opened⟩ | ⟨blockNo, rest, listEq, opened⟩
      · refine Or.inl ⟨empty, ?_⟩
        simp [findFreeVirtualSliceForGc, isVictim, full, opened, bind, Except.bind]
      · refine Or.inr ⟨blockNo, rest, listEq, ?_⟩
        simp [findFreeVirtualSliceForGc, isVictim, full, opened, bind, Except.bind]
    · refine Or.inl ⟨Ne.symm isVictim, by omega, ?_⟩
      have notAbove : ¬ maps.currentPage dieNo > geo.userPagesPerBlock := by omega
      simp [findFreeVirtualSliceForGc, isVictim, full, notAbove, bind, Except.bind]

/-- The page comes from a block other than the victim, which has room for it. -/
theorem findFreeVirtualSliceForGc_ok {result : AddressMap × Nat}
    (collectable : Collectable geo (maps.die dieNo) victimBlockNo lists)
    (found : maps.findFreeVirtualSliceForGc geo dieNo victimBlockNo = .ok result) :
    ∃ die lists', (maps.die dieNo).SameBlocks die ∧ Collectable geo die victimBlockNo lists' ∧
      die.currentBlock ≠ victimBlockNo ∧
      (die.block die.currentBlock).currentPage < geo.userPagesPerBlock ∧
      result = (maps.setDie dieNo die).takePage geo dieNo := by
  rcases findFreeVirtualSliceForGc_cases collectable with
    ⟨notVictim, pageLeft, taken⟩ | ⟨full, ⟨_, failed⟩ | ⟨blockNo, rest, listEq, taken⟩⟩
  · rw [taken] at found
    refine ⟨maps.die dieNo, lists, DieMap.SameBlocks.refl _, collectable, notVictim, pageLeft, ?_⟩
    rw [setDie_self]
    exact (Except.ok.inj found).symm
  · rw [failed] at found
    cases found
  · rw [taken] at found
    have empty := (collectable.roles.free_empty blockNo (by simp [listEq])).2
    have pagesPos := geo.pages_pos
    refine ⟨{ (maps.die dieNo).takeFreeBlock blockNo with currentBlock := blockNo }, _,
      DieMap.sameBlocks_openBlock _ _, collectable.openBlock full listEq, ?_, ?_,
      (Except.ok.inj found).symm⟩
    · rintro rfl
      exact collectable.victim_not_free (by simp [listEq])
    · simpa [empty] using pagesPos

/-! ## The copy loop -/

/-- A live slice that garbage collection carries to another page. -/
structure Move where
  logicalSliceAddr : Nat
  source : Nat
  destination : Nat

/-- The requests for one move: read the old page, then write the new one. -/
def Move.reqs (dieNo : Nat) (move : Move) : List NandReq :=
  [.read move.logicalSliceAddr move.source dieNo,
    .write move.logicalSliceAddr move.destination dieNo]

/-- The moves lead from `start` to `maps`: each goes from the old page of its slice to a
page that was not handed out before, and the other slices stay where they are. -/
structure Moved (geo : Geometry) (start maps : AddressMap) (moves : List Move) : Prop where
  source_mapped : ∀ move ∈ moves, start.logicalSlice move.logicalSliceAddr = some move.source
  destination_mapped : ∀ move ∈ moves,
    maps.logicalSlice move.logicalSliceAddr = some move.destination
  destination_fresh : ∀ move ∈ moves, ∀ otherDie blockNo pageNo,
    start.HandedOut geo otherDie blockNo pageNo →
      move.destination ≠ geo.vorg2Vsa otherDie blockNo pageNo
  others : ∀ logicalSliceAddr, (∀ move ∈ moves, move.logicalSliceAddr ≠ logicalSliceAddr) →
    maps.logicalSlice logicalSliceAddr = start.logicalSlice logicalSliceAddr

/-- The requests for `moves` were handed over, and each move left the victim. -/
structure MoveRequests (geo : Geometry) (start maps : AddressMap) (dieNo victimBlockNo : Nat)
    (moves : List Move) : Prop where
  requests : maps.nandReqs = start.nandReqs ++ moves.flatMap (Move.reqs dieNo)
  source_victim : ∀ move ∈ moves, ∃ pageNo < geo.userPagesPerBlock,
    move.source = geo.vorg2Vsa dieNo victimBlockNo pageNo

/-- The state of the copy loop before page `pageNo` of the victim is looked at. -/
structure Collecting (geo : Geometry) (start : AddressMap) (dieNo victimBlockNo pageNo : Nat)
    (maps : AddressMap) : Prop where
  placement : maps.Placement geo
  counts : maps.CountsExact geo (some (dieNo, victimBlockNo))
  collectable : ∃ lists, Collectable geo (maps.die dieNo) victimBlockNo lists
  otherDies : ∀ other ≠ dieNo, maps.die other = start.die other
  usableEq : ∀ blockNo, (maps.die dieNo).Usable geo blockNo ↔
    (start.die dieNo).Usable geo blockNo
  pagesGrow : ∀ blockNo, ((start.die dieNo).block blockNo).currentPage ≤
    ((maps.die dieNo).block blockNo).currentPage
  targetEq : maps.sliceAllocationTargetDie = start.sliceAllocationTargetDie ∧
    maps.targetCh = start.targetCh ∧ maps.targetWay = start.targetWay
  cleared : ∀ before < pageNo, ¬ maps.Mapped (geo.vorg2Vsa dieNo victimBlockNo before)
  moved : ∃ moves, Moved geo start maps moves ∧
    MoveRequests geo start maps dieNo victimBlockNo moves ∧
    (moves ≠ [] → (maps.die dieNo).currentBlock ≠ victimBlockNo) ∧
    (moves = [] → (maps.die dieNo).currentBlock = (start.die dieNo).currentBlock)

/-- The source tests a page of the victim by its back-pointer; that finds every slice
that is mapped to it. -/
theorem gcCopyPage_cases (placement : maps.Placement geo) (pageNo : Nat) :
    (¬ maps.Mapped (geo.vorg2Vsa dieNo victimBlockNo pageNo) ∧
      gcCopyPage geo dieNo victimBlockNo maps pageNo = .ok maps) ∨
    ∃ logicalSliceAddr,
      maps.logicalSlice logicalSliceAddr = some (geo.vorg2Vsa dieNo victimBlockNo pageNo) ∧
      gcCopyPage geo dieNo victimBlockNo maps pageNo =
        (maps.emit (.read logicalSliceAddr (geo.vorg2Vsa dieNo victimBlockNo pageNo)
            dieNo)).findFreeVirtualSliceForGc geo dieNo victimBlockNo >>= fun found =>
          .ok ((found.1.mapSlice logicalSliceAddr found.2).emit
            (.write logicalSliceAddr found.2 dieNo)) := by
  cases owner : maps.virtualSlice (geo.vorg2Vsa dieNo victimBlockNo pageNo) with
  | none =>
    refine Or.inl ⟨?_, by simp [gcCopyPage, owner]⟩
    rintro ⟨logicalSliceAddr, mapped⟩
    rw [placement.backPointer _ _ mapped] at owner
    cases owner
  | some logicalSliceAddr =>
    by_cases live :
        maps.logicalSlice logicalSliceAddr = some (geo.vorg2Vsa dieNo victimBlockNo pageNo)
    · refine Or.inr ⟨logicalSliceAddr, live, ?_⟩
      simp [gcCopyPage, owner, live]
    · refine Or.inl ⟨?_, by simp [gcCopyPage, owner, live]⟩
      rintro ⟨other, mapped⟩
      rw [placement.backPointer _ _ mapped] at owner
      cases owner
      exact live mapped

section CopyStep

variable {start : AddressMap} {pageNo logicalSliceAddr : Nat}

/-- The maps after one copy, where `die` is the die with the block opened for it. -/
private def copied (geo : Geometry) (maps : AddressMap) (dieNo victimBlockNo pageNo : Nat)
    (die : DieMap) (logicalSliceAddr : Nat) : AddressMap :=
  (((maps.emit (.read logicalSliceAddr (geo.vorg2Vsa dieNo victimBlockNo pageNo)
    dieNo)).setDie dieNo die).placeSlice geo dieNo logicalSliceAddr).emit
      (.write logicalSliceAddr (geo.vorg2Vsa dieNo die.currentBlock
        (die.block die.currentBlock).currentPage) dieNo)

/-- The maps from which the copy takes its page. -/
private theorem opened_placement (placement : maps.Placement geo) (req : NandReq)
    (same : (maps.die dieNo).SameBlocks die) :
    ((maps.emit req).setDie dieNo die).Placement geo := by
  have emitted : (maps.emit req).Placement geo := placement.congr rfl rfl rfl
  exact emitted.setDie same

private theorem opened_counts {off : Option (Nat × Nat)} (counts : maps.CountsExact geo off)
    (req : NandReq) (same : (maps.die dieNo).SameBlocks die) :
    ((maps.emit req).setDie dieNo die).CountsExact geo off := by
  have emitted : (maps.emit req).CountsExact geo off := counts.congr rfl rfl rfl
  exact emitted.setDie same

private theorem opened_currentPage (req : NandReq) :
    ((maps.emit req).setDie dieNo die).currentPage dieNo =
      (die.block die.currentBlock).currentPage := by
  simp [currentPage]

private theorem copied_die (other : Nat) :
    (copied geo maps dieNo victimBlockNo pageNo die logicalSliceAddr).die other =
      if other = dieNo then die.bumpPage die.currentBlock else maps.die other := by
  by_cases same : other = dieNo <;> simp [copied, emit, placeSlice, takePage, mapSlice, same]

private theorem copied_logicalSlice :
    (copied geo maps dieNo victimBlockNo pageNo die logicalSliceAddr).logicalSlice =
      update maps.logicalSlice logicalSliceAddr (some (geo.vorg2Vsa dieNo die.currentBlock
          (die.block die.currentBlock).currentPage)) := by
  simp [copied, emit, placeSlice, takePage, mapSlice, currentPage]

theorem Collectable.bumpPage (collectable : Collectable geo die victimBlockNo lists)
    (notVictim : die.currentBlock ≠ victimBlockNo)
    (pageLeft : (die.block die.currentBlock).currentPage < geo.userPagesPerBlock) :
    Collectable geo (die.bumpPage die.currentBlock) victimBlockNo lists := by
  refine ⟨collectable.listed.bumpPage _, collectable.loose.bumpPage _,
    collectable.roles.bumpPage pageLeft, ?_, collectable.victim_not_free, ?_⟩
  · simpa [DieMap.Usable] using collectable.victim_usable
  · rw [DieMap.bumpPage_currentPage, if_neg (Ne.symm notVictim)]
    exact collectable.victim_full

/-- The move that one copy makes. -/
private def copyMove (geo : Geometry) (dieNo victimBlockNo pageNo : Nat) (die : DieMap)
    (logicalSliceAddr : Nat) : Move where
  logicalSliceAddr := logicalSliceAddr
  source := geo.vorg2Vsa dieNo victimBlockNo pageNo
  destination := geo.vorg2Vsa dieNo die.currentBlock (die.block die.currentBlock).currentPage

private theorem MoveRequests.copied {moves : List Move}
    (requested : MoveRequests geo start maps dieNo victimBlockNo moves)
    (pageBound : pageNo < geo.userPagesPerBlock) (die : DieMap) (logicalSliceAddr : Nat) :
    MoveRequests geo start
      (AddressMap.copied geo maps dieNo victimBlockNo pageNo die logicalSliceAddr)
      dieNo victimBlockNo
      (moves ++ [copyMove geo dieNo victimBlockNo pageNo die logicalSliceAddr]) := by
  constructor
  · rw [List.flatMap_append, ← List.append_assoc, ← requested.requests]
    simp [AddressMap.copied, emit, placeSlice, takePage, mapSlice, Move.reqs, copyMove]
  · intro move member
    rcases List.mem_append.mp member with old | new
    · exact requested.source_victim move old
    · rw [List.mem_singleton] at new
      rw [new]
      exact ⟨pageNo, pageBound, rfl⟩

private theorem Moved.copied {moves : List Move} (moved : Moved geo start maps moves)
    (victimHanded : ∀ pageNo < geo.userPagesPerBlock,
      start.HandedOut geo dieNo victimBlockNo pageNo)
    (pagesGrow : ∀ blockNo, ((start.die dieNo).block blockNo).currentPage ≤
      (die.block blockNo).currentPage)
    (dieBound : dieNo < geo.userDies) (pageBound : pageNo < geo.userPagesPerBlock)
    (pageLeft : (die.block die.currentBlock).currentPage < geo.userPagesPerBlock)
    (mapped : maps.logicalSlice logicalSliceAddr =
      some (geo.vorg2Vsa dieNo victimBlockNo pageNo)) :
    Moved geo start (AddressMap.copied geo maps dieNo victimBlockNo pageNo die logicalSliceAddr)
      (moves ++ [copyMove geo dieNo victimBlockNo pageNo die logicalSliceAddr]) := by
  -- A slice that was moved before lies on a fresh page, hence not on the victim any more.
  have notMoved : ∀ move ∈ moves, move.logicalSliceAddr ≠ logicalSliceAddr := by
    rintro move member rfl
    have destination := moved.destination_mapped move member
    rw [mapped] at destination
    exact moved.destination_fresh move member _ _ _ (victimHanded pageNo pageBound)
      (Option.some.inj destination).symm
  have fromStart : start.logicalSlice logicalSliceAddr =
      some (geo.vorg2Vsa dieNo victimBlockNo pageNo) := by
    rw [← moved.others logicalSliceAddr notMoved, mapped]
  refine ⟨?_, ?_, ?_, ?_⟩
  · intro move member
    rcases List.mem_append.mp member with old | new
    · exact moved.source_mapped move old
    · rw [List.mem_singleton] at new
      rw [new]
      exact fromStart
  · intro move member
    rw [copied_logicalSlice]
    rcases List.mem_append.mp member with old | new
    · rw [update_of_ne (notMoved move old)]
      exact moved.destination_mapped move old
    · rw [List.mem_singleton] at new
      simp [new, copyMove]
  · intro move member otherDie blockNo otherPage handed
    rcases List.mem_append.mp member with old | new
    · exact moved.destination_fresh move old _ _ _ handed
    · rw [List.mem_singleton] at new
      rw [new]
      intro same
      obtain ⟨rfl, rfl, rfl⟩ := (Geometry.vorg2Vsa_inj dieBound pageLeft handed.die_lt
        handed.page_lt).mp same
      exact absurd handed.page_handed (Nat.not_lt.mpr (pagesGrow _))
  · intro other untouched
    have different : other ≠ logicalSliceAddr := by
      rintro rfl
      exact untouched _ (List.mem_append_right _ (List.mem_singleton_self _)) rfl
    rw [copied_logicalSlice, update_of_ne different]
    exact moved.others other fun move member => untouched move (by simp [member])

section

variable (collecting : Collecting geo start dieNo victimBlockNo pageNo maps)
  (victimHanded : ∀ pageNo < geo.userPagesPerBlock, start.HandedOut geo dieNo victimBlockNo pageNo)
  (dieBound : dieNo < geo.userDies) (pageBound : pageNo < geo.userPagesPerBlock)
include collecting victimHanded dieBound pageBound

private theorem Collecting.copied
    (mapped : maps.logicalSlice logicalSliceAddr =
      some (geo.vorg2Vsa dieNo victimBlockNo pageNo))
    (same : (maps.die dieNo).SameBlocks die) (collectable : Collectable geo die victimBlockNo lists)
    (notVictim : die.currentBlock ≠ victimBlockNo)
    (pageLeft : (die.block die.currentBlock).currentPage < geo.userPagesPerBlock) :
    Collecting geo start dieNo victimBlockNo (pageNo + 1)
      (AddressMap.copied geo maps dieNo victimBlockNo pageNo die logicalSliceAddr) := by
  have opened := opened_placement collecting.placement
    (.read logicalSliceAddr (geo.vorg2Vsa dieNo victimBlockNo pageNo) dieNo) same
  have openedCounts := opened_counts collecting.counts
    (.read logicalSliceAddr (geo.vorg2Vsa dieNo victimBlockNo pageNo) dieNo) same
  have usable : (((maps.emit (.read logicalSliceAddr (geo.vorg2Vsa dieNo victimBlockNo pageNo)
      dieNo)).setDie dieNo die).die dieNo).Usable geo
      (((maps.emit (.read logicalSliceAddr (geo.vorg2Vsa dieNo victimBlockNo pageNo)
        dieNo)).setDie dieNo die).die dieNo).currentBlock := by
    simpa using collectable.roles.current_usable
  have room := pageLeft
  rw [← @opened_currentPage maps dieNo die
    (.read logicalSliceAddr (geo.vorg2Vsa dieNo victimBlockNo pageNo) dieNo)] at room
  have startPages : ∀ blockNo, ((start.die dieNo).block blockNo).currentPage ≤
      (die.block blockNo).currentPage := by
    intro blockNo
    rw [same.currentPage]
    exact collecting.pagesGrow blockNo
  refine ⟨?_, ?_, ?_, ?_, ?_, ?_, ?_, ?_, ?_⟩
  · exact (opened.placeSlice dieBound usable room logicalSliceAddr).congr rfl rfl rfl
  · refine (openedCounts.placeSlice opened dieBound usable room ?_).congr rfl rfl rfl
    intro oldDie oldBlock oldPage handed oldMapped
    have addrEq : geo.vorg2Vsa dieNo victimBlockNo pageNo =
        geo.vorg2Vsa oldDie oldBlock oldPage := by
      have := mapped.symm.trans oldMapped
      exact Option.some.inj this
    obtain ⟨rfl, rfl, _⟩ := (Geometry.vorg2Vsa_inj dieBound pageBound handed.die_lt
      handed.page_lt).mp addrEq
    rfl
  · refine ⟨lists, ?_⟩
    rw [copied_die, if_pos rfl]
    exact collectable.bumpPage notVictim pageLeft
  · intro other different
    rw [copied_die, if_neg different]
    exact collecting.otherDies other different
  · intro blockNo
    rw [copied_die, if_pos rfl]
    rw [← collecting.usableEq, ← same.usable]
    simp [DieMap.Usable]
  · intro blockNo
    rw [copied_die, if_pos rfl, DieMap.bumpPage_currentPage]
    have := startPages blockNo
    split
    · rename_i isCurrent
      rw [isCurrent] at this ⊢
      omega
    · exact this
  · exact collecting.targetEq
  · intro before below stillMapped
    have stillMapped' : (((maps.emit (.read logicalSliceAddr
        (geo.vorg2Vsa dieNo victimBlockNo pageNo) dieNo)).setDie dieNo die).placeSlice geo dieNo
          logicalSliceAddr).Mapped (geo.vorg2Vsa dieNo victimBlockNo before) := stillMapped
    rcases opened.mapped_of_placeSlice stillMapped' with isTarget | ⟨wasMapped, notHere⟩
    · rw [opened_currentPage] at isTarget
      have := (Geometry.vorg2Vsa_inj dieBound (by omega) dieBound pageLeft).mp isTarget
      exact notVictim (by simpa using this.2.1.symm)
    · rcases Nat.lt_succ_iff_lt_or_eq.mp below with earlier | rfl
      · exact collecting.cleared before earlier wasMapped
      · exact notHere mapped
  · obtain ⟨moves, moved, requested, _⟩ := collecting.moved
    refine ⟨_, moved.copied victimHanded startPages dieBound pageBound pageLeft mapped,
      requested.copied pageBound die logicalSliceAddr, ?_, by simp⟩
    intro _
    rw [copied_die, if_pos rfl]
    exact notVictim

theorem Collecting.step {maps' : AddressMap}
    (stepped : gcCopyPage geo dieNo victimBlockNo maps pageNo = .ok maps') :
    Collecting geo start dieNo victimBlockNo (pageNo + 1) maps' := by
  rcases @gcCopyPage_cases geo maps dieNo victimBlockNo collecting.placement pageNo with
    ⟨notMapped, unchanged⟩ | ⟨logicalSliceAddr, mapped, copyEq⟩
  · rw [unchanged] at stepped
    cases stepped
    refine { collecting with cleared := ?_ }
    intro before below
    rcases Nat.lt_succ_iff_lt_or_eq.mp below with earlier | rfl
    · exact collecting.cleared before earlier
    · exact notMapped
  · rw [copyEq, bind_eq_ok] at stepped
    obtain ⟨found, foundEq, finalEq⟩ := stepped
    obtain ⟨lists, collectable⟩ := collecting.collectable
    have emitted : Collectable geo ((maps.emit (.read logicalSliceAddr
      (geo.vorg2Vsa dieNo victimBlockNo pageNo) dieNo)).die dieNo) victimBlockNo lists :=
        collectable
    obtain ⟨die, lists', same, collectable', notVictim, pageLeft, rfl⟩ :=
      findFreeVirtualSliceForGc_ok emitted foundEq
    have copy := collecting.copied victimHanded dieBound pageBound mapped same collectable'
      notVictim pageLeft
    have sameState : maps' =
        AddressMap.copied geo maps dieNo victimBlockNo pageNo die logicalSliceAddr := by
      rw [← Except.ok.inj finalEq]
      simp [AddressMap.copied, placeSlice, takePage, currentPage]
    rw [sameState]
    exact copy

end

end CopyStep

/-! ## A whole collection -/

theorem DieConsistent.victim_full (consistent : maps.DieConsistent geo dieNo)
    (currentFull : maps.currentPage dieNo = geo.userPagesPerBlock)
    (usable : (maps.die dieNo).Usable geo victimBlockNo)
    (stale : ((maps.die dieNo).block victimBlockNo).invalidSliceCnt ≠ 0) :
    ((maps.die dieNo).block victimBlockNo).currentPage = geo.userPagesPerBlock := by
  obtain ⟨lists, listed, _, roles⟩ := consistent
  by_cases isCurrent : victimBlockNo = (maps.die dieNo).currentBlock
  · rw [isCurrent]
    exact currentFull
  · refine roles.full victimBlockNo usable ?_ isCurrent
    intro member
    exact stale (listed.free_mem victimBlockNo member).2

section

variable (consistent : maps.Consistent geo) (dieBound : dieNo < geo.userDies)
include consistent dieBound

/-- The invariant of the copy loop holds once the victim is off its list. -/
theorem collecting_start {index : Fin geo.userPagesPerBlock} {rest : List Nat}
    (currentFull : maps.currentPage dieNo = geo.userPagesPerBlock)
    (listed : (maps.die dieNo).Listed geo none lists)
    (loose : (maps.die dieNo).Loose geo (lists none))
    (roles : (maps.die dieNo).Roles geo (lists none))
    (listEq : lists (some index) = victimBlockNo :: rest) :
    Collecting geo maps dieNo victimBlockNo 0
      (maps.setDie dieNo ((maps.die dieNo).takeVictimBlock (index + 1) victimBlockNo)) := by
  have same : (maps.die dieNo).SameBlocks
      ((maps.die dieNo).takeVictimBlock (index + 1) victimBlockNo) :=
    ⟨fun _ => rfl, fun _ => rfl, fun _ => rfl⟩
  obtain ⟨usable, invalidEq, _⟩ := (listed.victim_mem index victimBlockNo).mp (by simp [listEq])
  have full := (consistent.dies dieNo dieBound).victim_full currentFull usable (by omega)
  refine ⟨consistent.placement.setDie same, ?_, ?_, ?_, ?_, ?_, ⟨rfl, rfl, rfl⟩, ?_, ?_⟩
  · intro otherDie otherBound blockNo otherUsable _
    exact (consistent.counts.setDie same) otherDie otherBound blockNo otherUsable (by simp)
  · refine ⟨update lists (some index) rest, ?_⟩
    rw [setDie_die, if_pos rfl]
    refine ⟨listed.takeVictimBlock listEq, ?_, ?_, usable, ?_, full⟩
    · simpa using loose.takeVictimBlock listed listEq
    · simpa using (⟨roles.free_empty, roles.current_usable, roles.current_not_free,
        roles.current_le, roles.full⟩ :
          ((maps.die dieNo).takeVictimBlock (index + 1) victimBlockNo).Roles geo (lists none))
    · intro member
      have := (listed.free_mem victimBlockNo (by simpa using member)).2
      omega
  · intro other different
    simp [different]
  · intro blockNo
    rw [setDie_die, if_pos rfl]
    exact same.usable blockNo
  · intro blockNo
    rw [setDie_die, if_pos rfl, same.currentPage]
  · intro before below
    omega
  · exact ⟨[], ⟨by simp, by simp, by simp, fun _ _ => rfl⟩, ⟨by simp, by simp⟩, by simp,
      by simp [DieMap.takeVictimBlock]⟩

/-- All pages of a block that counts as wholly stale are unmapped. -/
theorem Consistent.not_mapped_of_stale (usable : (maps.die dieNo).Usable geo victimBlockNo)
    (full : ((maps.die dieNo).block victimBlockNo).currentPage = geo.userPagesPerBlock)
    (stale : ((maps.die dieNo).block victimBlockNo).invalidSliceCnt = geo.userPagesPerBlock) :
    ∀ pageNo < geo.userPagesPerBlock,
      ¬ maps.Mapped (geo.vorg2Vsa dieNo victimBlockNo pageNo) := by
  have counted := consistent.counts dieNo dieBound victimBlockNo usable (by simp)
  rw [stale, staleCount, full] at counted
  intro pageNo bound mapped
  have allStale : ∀ index ∈ List.range geo.userPagesPerBlock,
      (!maps.isLive (geo.vorg2Vsa dieNo victimBlockNo index)) = true :=
    List.countP_eq_length.mp (by rw [← counted, List.length_range])
  have := allStale pageNo (List.mem_range.mpr bound)
  simp [(consistent.placement.isLive_iff _).mpr mapped] at this

/-- A collection that does not stop drains the first block of the last victim list that
is not empty, and erases it. -/
theorem garbageCollection_ok {maps' : AddressMap}
    (currentFull : maps.currentPage dieNo = geo.userPagesPerBlock)
    (listed : (maps.die dieNo).Listed geo none lists)
    (loose : (maps.die dieNo).Loose geo (lists none))
    (roles : (maps.die dieNo).Roles geo (lists none))
    (collected : maps.garbageCollection geo dieNo = .ok maps') :
    ∃ index victimBlockNo rest drained, lists (some index) = victimBlockNo :: rest ∧
      (∀ above, index < above → lists (some above) = []) ∧
      Collecting geo maps dieNo victimBlockNo geo.userPagesPerBlock drained ∧
      maps' = drained.eraseBlock geo dieNo victimBlockNo := by
  rcases DieMap.getFromGcVictimList_cases listed geo.userPagesPerBlock le_rfl with
    ⟨index, victimBlockNo, rest, listEq, above, taken⟩ | ⟨_, failed⟩
  · obtain ⟨usable, invalidEq, _⟩ := (listed.victim_mem index victimBlockNo).mp (by simp [listEq])
    have full := (consistent.dies dieNo dieBound).victim_full currentFull usable (by omega)
    have begin := collecting_start consistent dieBound currentFull listed loose roles listEq
    have victimHanded : ∀ pageNo < geo.userPagesPerBlock,
        maps.HandedOut geo dieNo victimBlockNo pageNo :=
      fun pageNo bound => ⟨dieBound, usable, bound, by omega⟩
    have aboveAll : ∀ above, index < above → lists (some above) = [] :=
      fun other higher => above other higher other.isLt
    simp only [garbageCollection, taken, bind, Except.bind] at collected
    split at collected
    · cases loopEq : (List.range geo.userPagesPerBlock).foldlM
          (gcCopyPage geo dieNo victimBlockNo) (maps.setDie dieNo
            ((maps.die dieNo).takeVictimBlock (index + 1) victimBlockNo)) with
      | error stop =>
        rw [loopEq] at collected
        cases collected
      | ok drained =>
        rw [loopEq] at collected
        refine ⟨index, victimBlockNo, rest, drained, listEq, aboveAll, ?_,
          (Except.ok.inj collected).symm⟩
        refine loop_invariant (Collecting geo maps dieNo victimBlockNo) begin ?_ loopEq
        intro pageNo bound state state' collecting stepped
        exact collecting.step victimHanded dieBound bound stepped
    · rename_i wholeStale
      refine ⟨index, victimBlockNo, rest, _, listEq, aboveAll, { begin with cleared := ?_ },
        (Except.ok.inj collected).symm⟩
      intro pageNo bound
      exact consistent.not_mapped_of_stale dieBound usable full (not_not.mp wholeStale)
        pageNo bound
  · simp [garbageCollection, failed, bind, Except.bind] at collected

end

end AddressMap

end RwRbuf.Firmware
