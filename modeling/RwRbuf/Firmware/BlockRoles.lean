import RwRbuf.Firmware.InitAddressMap

/-! # The roles of blocks over runs of writes

From the start-up maps on, every usable block of a die is free, current or filled, as
long as no write collects the current block itself.  `FindFreeVirtualSlice` does not
check for that case, unlike `FindFreeVirtualSliceForGc`, and then leaves the erased
block both current and free.
-/

namespace RwRbuf.Firmware.AddressMap

open LinkedList Fallible Relation

variable {geo : Geometry} {maps : AddressMap} {logicalSliceAddr : Nat}

/-- The write of this slice makes garbage collection erase the current block of the
target die and leaves it current: the block is full, the die is at its reserve, and with
the old copy of the slice counted, the block is the first of the wholly stale ones. -/
def ErasesCurrentBlock (geo : Geometry) (maps : AddressMap) (logicalSliceAddr : Nat) : Prop :=
  let dieNo := maps.sliceAllocationTargetDie
  let die := maps.die dieNo
  maps.currentPage dieNo = geo.userPagesPerBlock ∧
    die.freeBlockCnt ≤ reservedFreeBlockCount ∧
    ((die.gcVictimList geo.userPagesPerBlock).head = some die.currentBlock ∨
      ((die.gcVictimList geo.userPagesPerBlock).head = none ∧
        (die.block die.currentBlock).invalidSliceCnt + 1 = geo.userPagesPerBlock ∧
        ∃ virtualSliceAddr, maps.logicalSlice logicalSliceAddr = some virtualSliceAddr ∧
          geo.vsa2Vdie virtualSliceAddr = dieNo ∧
          geo.vsa2Vblock virtualSliceAddr = die.currentBlock))

instance : Decidable (maps.ErasesCurrentBlock geo logicalSliceAddr) :=
  let dieNo := maps.sliceAllocationTargetDie
  haveI : Decidable (∃ virtualSliceAddr, maps.logicalSlice logicalSliceAddr =
      some virtualSliceAddr ∧ geo.vsa2Vdie virtualSliceAddr = dieNo ∧
      geo.vsa2Vblock virtualSliceAddr = (maps.die dieNo).currentBlock) :=
    decidable_of_iff ((maps.logicalSlice logicalSliceAddr).any fun virtualSliceAddr =>
      geo.vsa2Vdie virtualSliceAddr = dieNo ∧
        geo.vsa2Vblock virtualSliceAddr = (maps.die dieNo).currentBlock)
      (by simp [Option.any_eq_true])
  inferInstanceAs (Decidable (_ ∧ _ ∧ (_ ∨ _ ∧ _ ∧ _)))

/-- Counting one more invalid slice changes the head of the last victim list only if that
list was empty and the block became wholly stale. -/
private theorem invalidateSlice_lastHead {die : DieMap} {blockNo : Nat}
    {lists : Option (Fin geo.userPagesPerBlock) → List Nat} (listed : die.Listed geo none lists)
    (bound : (die.block blockNo).invalidSliceCnt < geo.userPagesPerBlock) {first : Nat}
    (headEq : ((die.invalidateSlice blockNo).gcVictimList geo.userPagesPerBlock).head =
      some first) :
    (die.gcVictimList geo.userPagesPerBlock).head = some first ∨
      ((die.gcVictimList geo.userPagesPerBlock).head = none ∧
        (die.block blockNo).invalidSliceCnt + 1 = geo.userPagesPerBlock ∧ blockNo = first) := by
  by_cases wholeStale : (die.block blockNo).invalidSliceCnt + 1 = geo.userPagesPerBlock
  · have lastLt : geo.userPagesPerBlock - 1 < geo.userPagesPerBlock := by omega
    have held := listed.family.holds (some ⟨geo.userPagesPerBlock - 1, lastLt⟩)
    have headerEq : die.header geo (some ⟨geo.userPagesPerBlock - 1, lastLt⟩) =
        die.gcVictimList geo.userPagesPerBlock := by
      simp only [DieMap.header]
      congr 1
      omega
    rw [headerEq] at held
    have listEq : (die.invalidateSlice blockNo).gcVictimList geo.userPagesPerBlock =
        (pushBack (die.selectiveGetFromGcVictimList blockNo).link
          (die.gcVictimList geo.userPagesPerBlock) blockNo).2 := by
      simp [DieMap.invalidateSlice, DieMap.putToGcVictimList, DieMap.setBlock,
        DieMap.selectiveGetFromGcVictimList, ← wholeStale]
    rw [listEq] at headEq
    cases tailEq : (die.gcVictimList geo.userPagesPerBlock).tail with
    | some last =>
      left
      simpa [pushBack, tailEq] using headEq
    | none =>
      right
      have empty : lists (some ⟨geo.userPagesPerBlock - 1, lastLt⟩) = [] := by
        have := held.tail
        rw [tailEq] at this
        exact List.getLast?_eq_none_iff.mp this.symm
      refine ⟨?_, wholeStale, by simpa [pushBack, tailEq] using headEq⟩
      rw [held.head, empty]
      rfl
  · left
    have notLast : geo.userPagesPerBlock ≠ (die.block blockNo).invalidSliceCnt + 1 :=
      Ne.symm wholeStale
    have notOld : geo.userPagesPerBlock ≠ (die.block blockNo).invalidSliceCnt := by omega
    simpa [DieMap.invalidateSlice, DieMap.putToGcVictimList, DieMap.setBlock,
      DieMap.selectiveGetFromGcVictimList, Function.update_of_ne notLast,
      Function.update_of_ne notOld] using headEq

/-- The state after the old copy was dropped is in the bad case only if the state before
the write was. -/
theorem erasesCurrentBlock_of_wholeCurrentStale (consistent : maps.Consistent geo)
    (stale : (maps.invalidateOldVsa geo logicalSliceAddr).WholeCurrentStale geo
      maps.sliceAllocationTargetDie) :
    maps.ErasesCurrentBlock geo logicalSliceAddr := by
  obtain ⟨droppedConsistent, same⟩ := consistent.invalidateOldVsa logicalSliceAddr
  obtain ⟨full, reserve, headEq⟩ := stale
  rw [same.currentPage] at full
  rw [same.freeBlockCnt] at reserve
  rw [same.currentBlock] at headEq
  refine ⟨full, reserve, ?_⟩
  rcases invalidateOldVsa_eq consistent.placement logicalSliceAddr with
    ⟨_, unchanged⟩ | ⟨dieNo, blockNo, pageNo, handed, mapped, dropped⟩
  · rw [unchanged] at headEq
    exact Or.inl headEq
  · rw [dropped, dropSlice_die] at headEq
    by_cases sameDie : maps.sliceAllocationTargetDie = dieNo
    · obtain ⟨lists, listed, _⟩ := consistent.dies dieNo handed.die_lt
      have bound : ((maps.die dieNo).block blockNo).invalidSliceCnt < geo.userPagesPerBlock := by
        have counted := droppedConsistent.counts dieNo handed.die_lt blockNo
        have pagesLe := droppedConsistent.placement.pages_le dieNo handed.die_lt blockNo
        have usable : ((maps.invalidateOldVsa geo logicalSliceAddr).die dieNo).Usable geo
            blockNo := by
          rw [dropped]
          simpa [DieMap.Usable] using handed.usable
        have countLe := @staleCount_le geo (maps.invalidateOldVsa geo logicalSliceAddr) dieNo
          blockNo
        have counted := counted usable (by simp)
        have pagesLe := pagesLe usable
        have cntEq : (((maps.invalidateOldVsa geo logicalSliceAddr).die dieNo).block
            blockNo).invalidSliceCnt = ((maps.die dieNo).block blockNo).invalidSliceCnt + 1 := by
          rw [dropped]
          simp [DieMap.invalidateSlice_invalidSliceCnt]
        omega
      rw [if_pos sameDie] at headEq
      rcases invalidateSlice_lastHead listed bound headEq with already | ⟨none, last, isCurrent⟩
      · exact Or.inl (by rw [sameDie]; rwa [sameDie] at already)
      · refine Or.inr ⟨by rw [sameDie]; exact none, ?_, _, mapped, ?_, ?_⟩
        · rw [← isCurrent, sameDie]
          exact last
        · rw [Geometry.vsa2Vdie_vorg2Vsa handed.die_lt, sameDie]
        · rw [Geometry.vsa2Vblock_vorg2Vsa handed.die_lt handed.page_lt, isCurrent]
    · rw [if_neg sameDie] at headEq
      exact Or.inl headEq

theorem Consistent.write {maps' : AddressMap} {virtualSliceAddr : Nat}
    (consistent : maps.Consistent geo) (notInPlace : ¬ maps.ErasesCurrentBlock geo logicalSliceAddr)
    (written : maps.addrTransWrite geo logicalSliceAddr = .ok (maps', virtualSliceAddr)) :
    maps'.Consistent geo := by
  obtain ⟨dropped, prepared, moves, erased, rfl, stages⟩ := consistent.written written
  exact stages.consistent fun stale =>
    notInPlace (erasesCurrentBlock_of_wholeCurrentStale consistent stale)

/-! ## Runs -/

/-- One call of `AddrTransWrite` on a slice that `allowed` lets through. -/
def WriteStep (geo : Geometry) (allowed : AddressMap → Nat → Prop) (maps maps' : AddressMap) :
    Prop :=
  ∃ logicalSliceAddr virtualSliceAddr, allowed maps logicalSliceAddr ∧
    maps.addrTransWrite geo logicalSliceAddr = .ok (maps', virtualSliceAddr)

variable {allowed : AddressMap → Nat → Prop}

theorem consistent_of_run {bad : Nat → Nat → Bool} {start final : AddressMap}
    (notInPlace : ∀ maps logicalSliceAddr, allowed maps logicalSliceAddr →
      ¬ maps.ErasesCurrentBlock geo logicalSliceAddr)
    (initialised : initAddressMap geo bad = .ok start)
    (run : ReflTransGen (WriteStep geo allowed) start final) : final.Consistent geo := by
  refine run_invariant (fun maps : AddressMap => maps.Consistent geo)
    (initAddressMap_initialised initialised).consistent ?_ run
  rintro maps maps' consistent ⟨logicalSliceAddr, virtualSliceAddr, allowedHere, written⟩
  exact consistent.write (notInPlace _ _ allowedHere) written

/-- The role of one block, given the free list: free and empty, or current, or filled. -/
def OneRole (geo : Geometry) (die : DieMap) (free : List Nat) (blockNo : Nat) : Prop :=
  (blockNo ∈ free ∧ blockNo ≠ die.currentBlock ∧ (die.block blockNo).free = true ∧
      (die.block blockNo).currentPage = 0) ∨
    (blockNo ∉ free ∧ blockNo = die.currentBlock) ∨
    (blockNo ∉ free ∧ blockNo ≠ die.currentBlock ∧
      (die.block blockNo).currentPage = geo.userPagesPerBlock)

/-- The links of the die hold a free list of the counted length without repetitions,
the current block is not on it, and every usable block has one role. -/
def BlockRoles (geo : Geometry) (die : DieMap) : Prop :=
  ∃ free, Holds die.link die.freeBlock free ∧ die.freeBlockCnt = free.length ∧
    die.currentBlock ∉ free ∧ die.Usable geo die.currentBlock ∧
    (∀ blockNo ∈ free, die.Usable geo blockNo) ∧
    ∀ blockNo, die.Usable geo blockNo → OneRole geo die free blockNo

theorem DieConsistent.blockRoles {dieNo : Nat} (consistent : maps.DieConsistent geo dieNo) :
    BlockRoles geo (maps.die dieNo) := by
  obtain ⟨lists, listed, _, roles⟩ := consistent
  refine ⟨lists none, listed.family.holds none, listed.free_count, roles.current_not_free,
    roles.current_usable, fun blockNo member => (listed.free_mem blockNo member).1, ?_⟩
  intro blockNo usable
  by_cases isFree : blockNo ∈ lists none
  · obtain ⟨flag, empty⟩ := roles.free_empty blockNo isFree
    refine Or.inl ⟨isFree, ?_, flag, empty⟩
    rintro rfl
    exact roles.current_not_free isFree
  · by_cases isCurrent : blockNo = (maps.die dieNo).currentBlock
    · exact Or.inr (Or.inl ⟨isFree, isCurrent⟩)
    · exact Or.inr (Or.inr ⟨isFree, isCurrent, roles.full blockNo usable isFree isCurrent⟩)

/-- In every state that writes reach from the start-up maps without collecting the current
block in place, every usable block of every die has exactly one role. -/
theorem blockRoles_of_run (geo : Geometry) (bad : Nat → Nat → Bool) (start final : AddressMap)
    (initialised : initAddressMap geo bad = .ok start)
    (run : Relation.ReflTransGen (WriteStep geo fun maps logicalSliceAddr =>
      ¬ maps.ErasesCurrentBlock geo logicalSliceAddr) start final) :
    ∀ dieNo < geo.userDies, BlockRoles geo (final.die dieNo) := by
  intro dieNo bound
  exact ((consistent_of_run (fun _ _ allowed => allowed) initialised run).dies dieNo
    bound).blockRoles

theorem writeStep_of_event {maps maps' : AddressMap}
    (taken : EventStep (writeSlice geo) allowed maps maps') : WriteStep geo allowed maps maps' := by
  obtain ⟨logicalSliceAddr, permitted, written⟩ := taken
  obtain ⟨⟨_, virtualSliceAddr⟩, found, rfl⟩ := Option.map_eq_some_iff.1 written
  exact ⟨logicalSliceAddr, virtualSliceAddr, permitted, ok_of_toOption found⟩

/-- Writes that fill die 0 up to its reserved block.  Slice 0 is written again on die 1, so
that the first block of die 0 has a stale page, and its other page holds slice 2. -/
def fillingSlices : List Nat := [0, 1, 2, 3, 4, 5, 6, 7, 8, 0, 9, 10]

theorem fillingSlices_run : (runAllowed (writeSlice .tiny) (fun maps logicalSliceAddr =>
    ¬ maps.ErasesCurrentBlock .tiny logicalSliceAddr) fillingSlices tinyMaps).isSome = true := by
  decide +kernel

def filledMaps : AddressMap :=
  (runAllowed (writeSlice .tiny) (fun maps logicalSliceAddr =>
    ¬ maps.ErasesCurrentBlock .tiny logicalSliceAddr) fillingSlices tinyMaps).get
    fillingSlices_run

theorem filledMaps_reached :
    ReflTransGen (WriteStep .tiny fun maps logicalSliceAddr =>
      ¬ maps.ErasesCurrentBlock .tiny logicalSliceAddr) tinyMaps filledMaps :=
  ReflTransGen.mono (fun _ _ => writeStep_of_event) _ _
    (reaches_of_runAllowed fillingSlices (Option.some_get fillingSlices_run).symm)

/-- The next write to die 0 copies slice 2 and erases its block. -/
theorem blockRoles_of_collection : ∃ final,
    Relation.ReflTransGen (WriteStep .tiny fun maps logicalSliceAddr =>
        ¬ maps.ErasesCurrentBlock .tiny logicalSliceAddr) tinyMaps final ∧
      final.nandReqs = [.read 2 2 0, .write 2 12 0, .erase 0 2] ∧
      ∀ dieNo < Geometry.tiny.userDies, BlockRoles .tiny (final.die dieNo) := by
  have evaluated : (filledMaps.writeSlice .tiny 11).isSome = true ∧
      ¬ filledMaps.ErasesCurrentBlock .tiny 11 ∧
      (filledMaps.writeSlice .tiny 11).map nandReqs =
        some [.read 2 2 0, .write 2 12 0, .erase 0 2] := by
    decide +kernel
  obtain ⟨written, notInPlace, requests⟩ := evaluated
  obtain ⟨final, written⟩ := Option.isSome_iff_exists.1 written
  rw [written] at requests
  have run := filledMaps_reached.tail (writeStep_of_event ⟨11, notInPlace, written⟩)
  exact ⟨final, run, Option.some.inj requests,
    blockRoles_of_run .tiny _ tinyMaps final initAddressMap_eq_tinyMaps run⟩

/-- Die 0 fills its third block with slices that are rewritten on die 1 at once.  The next
write to die 0 finds that block full, wholly stale and first in line, erases it, and then
hands out its page 0 while the block is on the free list. -/
theorem current_block_free_after_writes :
    ∃ start final, initAddressMap .tiny (fun _ _ => false) = .ok start ∧
      Relation.ReflTransGen (WriteStep .tiny fun _ _ => True) start final ∧
      ¬ BlockRoles .tiny (final.die 0) := by
  have evaluated : (runEvents (writeSlice .tiny) [0, 1, 2, 3, 4, 5, 6, 7, 8, 8, 9, 9, 10]
      tinyMaps).any (fun final =>
        (final.die 0).freeBlock.tail = some (final.die 0).currentBlock) = true := by
    decide +kernel
  obtain ⟨final, written, listed⟩ := (Option.any_eq_true _ _).1 evaluated
  have run : ReflTransGen (EventStep (writeSlice .tiny) fun _ _ => True) tinyMaps final :=
    reaches_of_runEvents _ (fun _ _ _ => trivial) written
  refine ⟨tinyMaps, final, initAddressMap_eq_tinyMaps,
    ReflTransGen.mono (fun _ _ => writeStep_of_event) _ _ run, ?_⟩
  rintro ⟨free, held, _, notFree, _⟩
  rw [decide_eq_true_eq, held.tail] at listed
  exact notFree (List.mem_of_getLast? listed)

end RwRbuf.Firmware.AddressMap
