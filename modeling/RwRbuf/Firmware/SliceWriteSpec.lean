import RwRbuf.Firmware.BlockRoles

/-! # What one write guarantees

`AddrTransWrite` maps a slice to a fresh page and leaves the maps exact.  This rests on
two facts about the state before it that back-pointers, counts and lists alone do not
give: mapped slices lie on pages that were handed out, and a block on no list has no
neighbours, since `SelectiveGetFromGcVictimList` follows the links of every block.
-/

namespace RwRbuf.Firmware.AddressMap

open Fallible

/-- Exact back-pointers, counts, lists and roles, but nothing about where mapped slices
lie or what the links of unlisted blocks are. -/
structure Described (geo : Geometry) (maps : AddressMap) : Prop where
  target : maps.TargetInRange geo
  backPointer : ∀ logicalSliceAddr virtualSliceAddr,
    maps.logicalSlice logicalSliceAddr = some virtualSliceAddr →
      maps.virtualSlice virtualSliceAddr = some logicalSliceAddr
  counts : maps.CountsExact geo none
  dies : ∀ dieNo < geo.userDies, ∃ lists, (maps.die dieNo).Listed geo none lists ∧
    (maps.die dieNo).Roles geo (lists none)

/-- A slice that is mapped to a page not handed out yet loses it to the next write. -/
theorem described_write_not_exclusive :
    ∃ maps maps' virtualSliceAddr, Described .tiny maps ∧
      maps.addrTransWrite .tiny 6 = .ok (maps', virtualSliceAddr) ∧
      maps'.logicalSlice 5 = some virtualSliceAddr := by
  have evaluated : (((tinyMaps.mapSlice 5 0).addrTransWrite .tiny 6).toOption.any fun written =>
      written.1.logicalSlice 5 = some written.2) = true := by
    decide +kernel
  obtain ⟨written, writtenEq, lost⟩ := (Option.any_eq_true _ _).1 evaluated
  have ready := initAddressMap_initialised initAddressMap_eq_tinyMaps
  refine ⟨tinyMaps.mapSlice 5 0, written.1, written.2, ⟨?_, ?_, ?_, ?_⟩,
    ok_of_toOption writtenEq, of_decide_eq_true lost⟩
  · exact ⟨ready.target.die_lt, ready.target.ch_lt, ready.target.way_lt⟩
  · intro logicalSliceAddr virtualSliceAddr mapped
    by_cases same : logicalSliceAddr = 5
    · subst same
      have : virtualSliceAddr = 0 := by simpa [mapSlice, eq_comm] using mapped
      simp [mapSlice, this]
    · simp [mapSlice, same, ready.noSlices] at mapped
  · intro dieNo bound blockNo usable _
    change ((tinyMaps.die dieNo).block blockNo).invalidSliceCnt = _
    rw [(ready.dies dieNo bound).noInvalid, staleCount]
    change _ = (List.range ((tinyMaps.die dieNo).block blockNo).currentPage).countP _
    rw [(ready.dies dieNo bound).noPages]
    rfl
  · intro dieNo bound
    obtain ⟨lists, listed, _, roles⟩ := (ready.dies dieNo bound).lists
    exact ⟨lists, listed, roles⟩

/-- Over consistent maps, a write that does not stop returns a slice inside the device
that no other logical slice maps to and that was not handed out since its block was
erased, maps the slice to it in both directions, and leaves every other slice in place, with
its page untouched, or copied to a fresh page before its old block is erased.  The maps are
exact again. -/
theorem addrTransWrite_outcome (geo : Geometry) (maps maps' : AddressMap)
    (logicalSliceAddr virtualSliceAddr : Nat) (consistent : maps.Consistent geo)
    (written : maps.addrTransWrite geo logicalSliceAddr = .ok (maps', virtualSliceAddr)) :
    (∃ reqs, WriteOutcome geo maps logicalSliceAddr maps' virtualSliceAddr reqs) ∧
      Exact geo maps' := by
  obtain ⟨dropped, prepared, moves, erased, _, stages⟩ := consistent.written written
  exact ⟨stages.outcome, stages.placement, stages.counts, fun _ bound => stages.exact bound⟩

/-- The write collects a block: slice 2 is copied, and slice 4 stays where it is. -/
theorem addrTransWrite_outcome_collection :
    ∃ maps' virtualSliceAddr, filledMaps.Consistent .tiny ∧
      filledMaps.addrTransWrite .tiny 11 = .ok (maps', virtualSliceAddr) ∧
      maps'.nandReqs = [.read 2 2 0, .write 2 12 0, .erase 0 2] ∧
      maps'.logicalSlice 2 = some 12 ∧ maps'.logicalSlice 4 = filledMaps.logicalSlice 4 ∧
      (∃ reqs, WriteOutcome .tiny filledMaps 11 maps' virtualSliceAddr reqs) ∧
      Exact .tiny maps' := by
  have evaluated : ((filledMaps.addrTransWrite .tiny 11).toOption.any fun written =>
      written.1.nandReqs = [.read 2 2 0, .write 2 12 0, .erase 0 2] ∧
        written.1.logicalSlice 2 = some 12 ∧
        written.1.logicalSlice 4 = filledMaps.logicalSlice 4) = true := by
    decide +kernel
  obtain ⟨written, writtenEq, changes⟩ := (Option.any_eq_true _ _).1 evaluated
  obtain ⟨requests, copied, stays⟩ := of_decide_eq_true changes
  have consistent := consistent_of_run (fun _ _ allowed => allowed) initAddressMap_eq_tinyMaps
    filledMaps_reached
  exact ⟨written.1, written.2, consistent, ok_of_toOption writtenEq, requests, copied, stays,
    addrTransWrite_outcome .tiny filledMaps written.1 11 written.2 consistent
      (ok_of_toOption writtenEq)⟩

end RwRbuf.Firmware.AddressMap
