import Mathlib.Data.List.Count
import RwRbuf.Firmware.BlockLists

/-! # Live and stale slices

A virtual slice is live while a logical slice maps to it.  A state is consistent if
every mapped logical slice lies on a page that was handed out and points back, every
block counts its stale pages, and the block lists of every die are in order.
-/

namespace RwRbuf.Firmware

open Function

/-- Turning on one element of a range raises the count by one. -/
private theorem countP_range_flip {before after : Nat → Bool} {count index : Nat}
    (bound : index < count) (wasOff : before index = false) (isOn : after index = true)
    (elsewhere : ∀ other < count, other ≠ index → after other = before other) :
    (List.range count).countP after = (List.range count).countP before + 1 := by
  induction count with
  | zero => omega
  | succ count ih =>
    rw [List.range_succ, List.countP_append, List.countP_append]
    by_cases last : index = count
    · have same : (List.range count).countP after = (List.range count).countP before := by
        refine List.countP_congr ?_
        intro other member
        have below := List.mem_range.mp member
        rw [elsewhere other (by omega) (by omega)]
      subst last
      simp [same, wasOff, isOn]
    · rw [ih (by omega) fun other below => elsewhere other (by omega)]
      simp [elsewhere count (by omega) (Ne.symm last)]
      omega

namespace AddressMap

variable (geo : Geometry)

/-- Some logical slice maps to this virtual slice, and it points back. -/
def isLive (maps : AddressMap) (virtualSliceAddr : Nat) : Bool :=
  match maps.virtualSlice virtualSliceAddr with
  | none => false
  | some logicalSliceAddr => maps.logicalSlice logicalSliceAddr = some virtualSliceAddr

/-- The number of pages of a block that were handed out and are not live. -/
def staleCount (maps : AddressMap) (dieNo blockNo : Nat) : Nat :=
  (List.range ((maps.die dieNo).block blockNo).currentPage).countP fun pageNo =>
    !maps.isLive (geo.vorg2Vsa dieNo blockNo pageNo)

/-- The page is inside the device and was handed out since its block was last erased. -/
structure HandedOut (maps : AddressMap) (dieNo blockNo pageNo : Nat) : Prop where
  die_lt : dieNo < geo.userDies
  usable : (maps.die dieNo).Usable geo blockNo
  page_lt : pageNo < geo.userPagesPerBlock
  page_handed : pageNo < ((maps.die dieNo).block blockNo).currentPage

/-- Both maps agree, and mapped slices lie on pages that were handed out. -/
structure Placement (maps : AddressMap) : Prop where
  backPointer : ∀ logicalSliceAddr virtualSliceAddr,
    maps.logicalSlice logicalSliceAddr = some virtualSliceAddr →
      maps.virtualSlice virtualSliceAddr = some logicalSliceAddr
  placed : ∀ logicalSliceAddr virtualSliceAddr,
    maps.logicalSlice logicalSliceAddr = some virtualSliceAddr →
      ∃ dieNo blockNo pageNo, maps.HandedOut geo dieNo blockNo pageNo ∧
        virtualSliceAddr = geo.vorg2Vsa dieNo blockNo pageNo
  pages_le : ∀ dieNo < geo.userDies, ∀ blockNo, (maps.die dieNo).Usable geo blockNo →
    ((maps.die dieNo).block blockNo).currentPage ≤ geo.userPagesPerBlock

/-- The invalid counts of all blocks but `off` are exact. -/
def CountsExact (maps : AddressMap) (off : Option (Nat × Nat)) : Prop :=
  ∀ dieNo < geo.userDies, ∀ blockNo, (maps.die dieNo).Usable geo blockNo →
    some (dieNo, blockNo) ≠ off →
      ((maps.die dieNo).block blockNo).invalidSliceCnt = maps.staleCount geo dieNo blockNo

/-- The lists of one die are in order, and so are the roles of its blocks. -/
def DieConsistent (maps : AddressMap) (dieNo : Nat) : Prop :=
  ∃ lists, (maps.die dieNo).Listed geo none lists ∧
    (maps.die dieNo).Loose geo (lists none) ∧ (maps.die dieNo).Roles geo (lists none)

/-- The die for the next slice, and the channel and way after it, are in range. -/
structure TargetInRange (maps : AddressMap) : Prop where
  die_lt : maps.sliceAllocationTargetDie < geo.userDies
  ch_lt : maps.targetCh < geo.userChannels
  way_lt : maps.targetWay < geo.userWays

structure Consistent (maps : AddressMap) : Prop where
  target : maps.TargetInRange geo
  placement : maps.Placement geo
  counts : maps.CountsExact geo none
  dies : ∀ dieNo < geo.userDies, maps.DieConsistent geo dieNo

variable {geo} {maps : AddressMap}

@[simp] theorem setDie_die (dieNo other : Nat) (die : DieMap) :
    (maps.setDie dieNo die).die other = if other = dieNo then die else maps.die other := by
  simp [setDie, update_apply]

@[simp] theorem setDie_logicalSlice (dieNo : Nat) (die : DieMap) :
    (maps.setDie dieNo die).logicalSlice = maps.logicalSlice := rfl

@[simp] theorem setDie_virtualSlice (dieNo : Nat) (die : DieMap) :
    (maps.setDie dieNo die).virtualSlice = maps.virtualSlice := rfl

@[simp] theorem setDie_nandReqs (dieNo : Nat) (die : DieMap) :
    (maps.setDie dieNo die).nandReqs = maps.nandReqs := rfl

def Mapped (maps : AddressMap) (virtualSliceAddr : Nat) : Prop :=
  ∃ logicalSliceAddr, maps.logicalSlice logicalSliceAddr = some virtualSliceAddr

theorem Placement.isLive_iff (placement : maps.Placement geo) (virtualSliceAddr : Nat) :
    maps.isLive virtualSliceAddr = true ↔ maps.Mapped virtualSliceAddr := by
  unfold isLive
  constructor
  · intro live
    cases owner : maps.virtualSlice virtualSliceAddr with
    | none => simp [owner] at live
    | some logicalSliceAddr => exact ⟨logicalSliceAddr, by simpa [owner] using live⟩
  · rintro ⟨logicalSliceAddr, mapped⟩
    simp [placement.backPointer _ _ mapped, mapped]

theorem Placement.mapped_unique (placement : maps.Placement geo)
    {first second virtualSliceAddr : Nat}
    (firstMapped : maps.logicalSlice first = some virtualSliceAddr)
    (secondMapped : maps.logicalSlice second = some virtualSliceAddr) : first = second := by
  have firstBack := placement.backPointer _ _ firstMapped
  rw [placement.backPointer _ _ secondMapped] at firstBack
  exact (Option.some.inj firstBack).symm

theorem staleCount_le (dieNo blockNo : Nat) :
    maps.staleCount geo dieNo blockNo ≤ ((maps.die dieNo).block blockNo).currentPage := by
  have := List.countP_le_length (p := fun pageNo =>
    !maps.isLive (geo.vorg2Vsa dieNo blockNo pageNo))
    (l := List.range ((maps.die dieNo).block blockNo).currentPage)
  simpa [staleCount] using this

variable {maps' : AddressMap}

theorem staleCount_congr {dieNo blockNo : Nat}
    (pageEq : ((maps'.die dieNo).block blockNo).currentPage =
      ((maps.die dieNo).block blockNo).currentPage)
    (liveEq : ∀ pageNo < ((maps.die dieNo).block blockNo).currentPage,
      maps'.isLive (geo.vorg2Vsa dieNo blockNo pageNo) =
        maps.isLive (geo.vorg2Vsa dieNo blockNo pageNo)) :
    maps'.staleCount geo dieNo blockNo = maps.staleCount geo dieNo blockNo := by
  unfold staleCount
  rw [pageEq]
  refine List.countP_congr ?_
  intro pageNo member
  rw [liveEq pageNo (List.mem_range.mp member)]

/-! ## Invalidating the old copy -/

/-- What `InvalidateOldVsa` does to a mapped slice. -/
def dropSlice (maps : AddressMap) (logicalSliceAddr dieNo blockNo : Nat) : AddressMap :=
  { maps.setDie dieNo ((maps.die dieNo).invalidateSlice blockNo) with
    logicalSlice := update maps.logicalSlice logicalSliceAddr none }

theorem invalidateOldVsa_eq (placement : maps.Placement geo) (logicalSliceAddr : Nat) :
    (maps.logicalSlice logicalSliceAddr = none ∧
      maps.invalidateOldVsa geo logicalSliceAddr = maps) ∨
    ∃ dieNo blockNo pageNo, maps.HandedOut geo dieNo blockNo pageNo ∧
      maps.logicalSlice logicalSliceAddr = some (geo.vorg2Vsa dieNo blockNo pageNo) ∧
      maps.invalidateOldVsa geo logicalSliceAddr =
        maps.dropSlice logicalSliceAddr dieNo blockNo := by
  cases mapped : maps.logicalSlice logicalSliceAddr with
  | none => exact Or.inl ⟨rfl, by simp [invalidateOldVsa, mapped]⟩
  | some virtualSliceAddr =>
    obtain ⟨dieNo, blockNo, pageNo, handed, addrEq⟩ := placement.placed _ _ mapped
    have back := placement.backPointer _ _ mapped
    refine Or.inr ⟨dieNo, blockNo, pageNo, handed, by rw [addrEq], ?_⟩
    subst addrEq
    simp [invalidateOldVsa, mapped, back, dropSlice, handed.die_lt, handed.page_lt]

section DropSlice

variable {logicalSliceAddr dieNo blockNo pageNo : Nat}

@[simp] theorem dropSlice_virtualSlice :
    (maps.dropSlice logicalSliceAddr dieNo blockNo).virtualSlice = maps.virtualSlice := rfl

@[simp] theorem dropSlice_logicalSlice :
    (maps.dropSlice logicalSliceAddr dieNo blockNo).logicalSlice =
      update maps.logicalSlice logicalSliceAddr none := rfl

@[simp] theorem dropSlice_die (other : Nat) :
    (maps.dropSlice logicalSliceAddr dieNo blockNo).die other =
      if other = dieNo then (maps.die dieNo).invalidateSlice blockNo else maps.die other := by
  simp [dropSlice]

private theorem dropSlice_currentPage {otherDie otherBlock : Nat} :
    (((maps.dropSlice logicalSliceAddr dieNo blockNo).die otherDie).block otherBlock).currentPage =
      ((maps.die otherDie).block otherBlock).currentPage := by
  by_cases same : otherDie = dieNo <;> simp [same]

private theorem dropSlice_usable {otherDie otherBlock : Nat} :
    ((maps.dropSlice logicalSliceAddr dieNo blockNo).die otherDie).Usable geo otherBlock ↔
      (maps.die otherDie).Usable geo otherBlock := by
  by_cases same : otherDie = dieNo <;> simp [same, DieMap.Usable]

/-- Exactly the old copy of the dropped slice stops being mapped. -/
private theorem dropSlice_mapped (placement : maps.Placement geo) {virtualSliceAddr : Nat}
    (mapped : maps.logicalSlice logicalSliceAddr = some virtualSliceAddr) (other : Nat) :
    (maps.dropSlice logicalSliceAddr dieNo blockNo).Mapped other ↔
      maps.Mapped other ∧ other ≠ virtualSliceAddr := by
  constructor
  · rintro ⟨otherLogical, otherMapped⟩
    have different : otherLogical ≠ logicalSliceAddr := by
      rintro rfl
      simp at otherMapped
    have oldMapped : maps.logicalSlice otherLogical = some other := by
      simpa [different] using otherMapped
    refine ⟨⟨otherLogical, oldMapped⟩, ?_⟩
    rintro rfl
    exact different (placement.mapped_unique oldMapped mapped)
  · rintro ⟨⟨otherLogical, otherMapped⟩, different⟩
    have notDropped : otherLogical ≠ logicalSliceAddr := by
      rintro rfl
      rw [mapped] at otherMapped
      exact different (Option.some.inj otherMapped).symm
    exact ⟨otherLogical, by simpa [notDropped] using otherMapped⟩

theorem Placement.dropSlice (placement : maps.Placement geo)
    (logicalSliceAddr dieNo blockNo : Nat) :
    (maps.dropSlice logicalSliceAddr dieNo blockNo).Placement geo := by
  have kept : ∀ otherLogical otherVirtual,
      (maps.dropSlice logicalSliceAddr dieNo blockNo).logicalSlice otherLogical =
        some otherVirtual → maps.logicalSlice otherLogical = some otherVirtual := by
    intro otherLogical otherVirtual otherMapped
    by_cases same : otherLogical = logicalSliceAddr
    · simp [same] at otherMapped
    · simpa [same] using otherMapped
  refine ⟨?_, ?_, ?_⟩
  · intro otherLogical otherVirtual otherMapped
    exact placement.backPointer _ _ (kept _ _ otherMapped)
  · intro otherLogical otherVirtual otherMapped
    obtain ⟨otherDie, otherBlock, otherPage, handed, addrEq⟩ :=
      placement.placed _ _ (kept _ _ otherMapped)
    refine ⟨otherDie, otherBlock, otherPage, ⟨handed.die_lt, ?_, handed.page_lt, ?_⟩, addrEq⟩
    · exact dropSlice_usable.mpr handed.usable
    · rw [dropSlice_currentPage]
      exact handed.page_handed
  · intro otherDie dieBound otherBlock usable
    rw [dropSlice_currentPage]
    exact placement.pages_le otherDie dieBound otherBlock (dropSlice_usable.mp usable)

theorem CountsExact.dropSlice (counts : maps.CountsExact geo none)
    (placement : maps.Placement geo) (handed : maps.HandedOut geo dieNo blockNo pageNo)
    (mapped : maps.logicalSlice logicalSliceAddr = some (geo.vorg2Vsa dieNo blockNo pageNo)) :
    (maps.dropSlice logicalSliceAddr dieNo blockNo).CountsExact geo none := by
  have placement' := placement.dropSlice logicalSliceAddr dieNo blockNo
  have mappedIff := @dropSlice_mapped geo maps logicalSliceAddr dieNo blockNo placement _ mapped
  have elsewhere : ∀ other ≠ geo.vorg2Vsa dieNo blockNo pageNo,
      (maps.dropSlice logicalSliceAddr dieNo blockNo).isLive other = maps.isLive other := by
    intro other different
    rw [Bool.eq_iff_iff, placement'.isLive_iff, placement.isLive_iff, mappedIff]
    simp [different]
  intro otherDie dieBound otherBlock usable _
  rw [dropSlice_usable] at usable
  have old := counts otherDie dieBound otherBlock usable (by simp)
  have pagesLe := placement.pages_le otherDie dieBound otherBlock usable
  by_cases here : otherDie = dieNo ∧ otherBlock = blockNo
  · obtain ⟨rfl, rfl⟩ := here
    have counted : (maps.dropSlice logicalSliceAddr otherDie otherBlock).staleCount geo
        otherDie otherBlock = maps.staleCount geo otherDie otherBlock + 1 := by
      unfold staleCount
      rw [dropSlice_currentPage]
      refine countP_range_flip handed.page_handed ?_ ?_ ?_
      · have live := (placement.isLive_iff _).mpr ⟨_, mapped⟩
        simp [live]
      · have dead : ¬ (maps.dropSlice logicalSliceAddr otherDie otherBlock).isLive
            (geo.vorg2Vsa otherDie otherBlock pageNo) = true := by
          rw [placement'.isLive_iff, mappedIff]
          simp
        simpa using dead
      · intro otherPage below different
        rw [elsewhere]
        intro same
        exact different ((Geometry.vorg2Vsa_inj dieBound (by omega) dieBound
          handed.page_lt).mp same).2.2
    rw [counted, ← old]
    simp [DieMap.invalidateSlice_invalidSliceCnt]
  · have sameCnt : (((maps.dropSlice logicalSliceAddr dieNo blockNo).die otherDie).block
        otherBlock).invalidSliceCnt = ((maps.die otherDie).block otherBlock).invalidSliceCnt := by
      by_cases sameDie : otherDie = dieNo
      · have : otherBlock ≠ blockNo := fun sameBlock => here ⟨sameDie, sameBlock⟩
        simp [sameDie, DieMap.invalidateSlice_invalidSliceCnt, this]
      · simp [sameDie]
    rw [sameCnt, old]
    refine (staleCount_congr dropSlice_currentPage ?_).symm
    intro otherPage below
    refine elsewhere _ ?_
    intro same
    have parts := (Geometry.vorg2Vsa_inj dieBound (by omega) handed.die_lt
      handed.page_lt).mp same
    exact here ⟨parts.1, parts.2.1⟩

end DropSlice

/-! ## Placing a slice on the next page -/

/-- Hand out the next page of the current block of a die and map a slice to it. -/
def placeSlice (geo : Geometry) (maps : AddressMap) (dieNo logicalSliceAddr : Nat) : AddressMap :=
  (maps.takePage geo dieNo).1.mapSlice logicalSliceAddr (maps.takePage geo dieNo).2

section PlaceSlice

variable {logicalSliceAddr dieNo : Nat}

/-- The virtual slice that the next write to the die will get. -/
private def target (geo : Geometry) (maps : AddressMap) (dieNo : Nat) : Nat :=
  geo.vorg2Vsa dieNo (maps.die dieNo).currentBlock (maps.currentPage dieNo)

private theorem placeSlice_logicalSlice :
    (maps.placeSlice geo dieNo logicalSliceAddr).logicalSlice =
      update maps.logicalSlice logicalSliceAddr (some (maps.target geo dieNo)) := rfl

private theorem placeSlice_virtualSlice :
    (maps.placeSlice geo dieNo logicalSliceAddr).virtualSlice =
      update maps.virtualSlice (maps.target geo dieNo) (some logicalSliceAddr) := rfl

@[simp] theorem placeSlice_die (other : Nat) :
    (maps.placeSlice geo dieNo logicalSliceAddr).die other =
      if other = dieNo then (maps.die dieNo).bumpPage (maps.die dieNo).currentBlock
      else maps.die other := by
  simp [placeSlice, takePage, mapSlice]

variable {otherDie otherBlock : Nat}

private theorem placeSlice_usable :
    ((maps.placeSlice geo dieNo logicalSliceAddr).die otherDie).Usable geo otherBlock ↔
      (maps.die otherDie).Usable geo otherBlock := by
  by_cases same : otherDie = dieNo <;> simp [same, DieMap.Usable]

private theorem placeSlice_invalidSliceCnt :
    (((maps.placeSlice geo dieNo logicalSliceAddr).die otherDie).block
      otherBlock).invalidSliceCnt = ((maps.die otherDie).block otherBlock).invalidSliceCnt := by
  by_cases same : otherDie = dieNo <;> simp [same]

private theorem placeSlice_currentPage :
    (((maps.placeSlice geo dieNo logicalSliceAddr).die otherDie).block otherBlock).currentPage =
      if otherDie = dieNo ∧ otherBlock = (maps.die dieNo).currentBlock then
        maps.currentPage dieNo + 1
      else ((maps.die otherDie).block otherBlock).currentPage := by
  by_cases sameDie : otherDie = dieNo
  · by_cases sameBlock : otherBlock = (maps.die dieNo).currentBlock
    · simp [sameDie, sameBlock, DieMap.bumpPage_currentPage, currentPage]
    · simp [sameDie, sameBlock, DieMap.bumpPage_currentPage]
  · simp [sameDie]

/-- The next page of the current block is not handed out, so nothing is mapped to it. -/
theorem Placement.target_not_mapped (placement : maps.Placement geo)
    (dieBound : dieNo < geo.userDies) (pageLeft : maps.currentPage dieNo < geo.userPagesPerBlock) :
    ¬ maps.Mapped (geo.vorg2Vsa dieNo (maps.die dieNo).currentBlock (maps.currentPage dieNo)) := by
  rintro ⟨logicalSliceAddr, mapped⟩
  obtain ⟨otherDie, otherBlock, otherPage, handed, same⟩ := placement.placed _ _ mapped
  obtain ⟨rfl, rfl, rfl⟩ := (Geometry.vorg2Vsa_inj dieBound pageLeft handed.die_lt
    handed.page_lt).mp same
  exact absurd handed.page_handed (lt_irrefl _)

theorem Placement.placeSlice (placement : maps.Placement geo) (dieBound : dieNo < geo.userDies)
    (usable : (maps.die dieNo).Usable geo (maps.die dieNo).currentBlock)
    (pageLeft : maps.currentPage dieNo < geo.userPagesPerBlock) (logicalSliceAddr : Nat) :
    (maps.placeSlice geo dieNo logicalSliceAddr).Placement geo := by
  have notMapped := placement.target_not_mapped dieBound pageLeft
  refine ⟨?_, ?_, ?_⟩
  · intro otherLogical otherVirtual otherMapped
    rw [placeSlice_logicalSlice, update_apply] at otherMapped
    rw [placeSlice_virtualSlice, update_apply]
    split at otherMapped
    · cases otherMapped
      simp_all
    · have : otherVirtual ≠ maps.target geo dieNo := by
        rintro rfl
        exact notMapped ⟨otherLogical, otherMapped⟩
      rw [if_neg this]
      exact placement.backPointer _ _ otherMapped
  · intro otherLogical otherVirtual otherMapped
    rw [placeSlice_logicalSlice, update_apply] at otherMapped
    split at otherMapped
    · cases otherMapped
      refine ⟨dieNo, (maps.die dieNo).currentBlock, maps.currentPage dieNo,
        ⟨dieBound, placeSlice_usable.mpr usable, pageLeft, ?_⟩, rfl⟩
      rw [placeSlice_currentPage]
      simp
    · obtain ⟨otherDie, otherBlock, otherPage, handed, addrEq⟩ :=
        placement.placed _ _ otherMapped
      refine ⟨otherDie, otherBlock, otherPage, ⟨handed.die_lt,
        placeSlice_usable.mpr handed.usable, handed.page_lt, ?_⟩, addrEq⟩
      have := handed.page_handed
      rw [placeSlice_currentPage]
      split
      · rename_i here
        rw [here.1, here.2] at this
        exact Nat.lt_succ_of_lt this
      · exact this
  · intro otherDie otherBound otherBlock otherUsable
    rw [placeSlice_currentPage]
    split
    · omega
    · exact placement.pages_le otherDie otherBound otherBlock (placeSlice_usable.mp otherUsable)

/-- Placing a slice keeps the counts of all blocks but the one that held its old copy. -/
theorem CountsExact.placeSlice {off : Option (Nat × Nat)} (counts : maps.CountsExact geo off)
    (placement : maps.Placement geo) (dieBound : dieNo < geo.userDies)
    (usable : (maps.die dieNo).Usable geo (maps.die dieNo).currentBlock)
    (pageLeft : maps.currentPage dieNo < geo.userPagesPerBlock)
    (oldCopy : ∀ oldDie oldBlock oldPage, maps.HandedOut geo oldDie oldBlock oldPage →
      maps.logicalSlice logicalSliceAddr = some (geo.vorg2Vsa oldDie oldBlock oldPage) →
        off = some (oldDie, oldBlock)) :
    (maps.placeSlice geo dieNo logicalSliceAddr).CountsExact geo off := by
  have placement' := placement.placeSlice dieBound usable pageLeft logicalSliceAddr
  have targetLive : (maps.placeSlice geo dieNo logicalSliceAddr).isLive
      (maps.target geo dieNo) = true := by
    rw [placement'.isLive_iff]
    exact ⟨logicalSliceAddr, by simp [placeSlice_logicalSlice]⟩
  intro otherDie otherBound otherBlock otherUsable notOff
  rw [placeSlice_usable] at otherUsable
  have old := counts otherDie otherBound otherBlock otherUsable notOff
  have pagesLe := placement.pages_le otherDie otherBound otherBlock otherUsable
  rw [placeSlice_invalidSliceCnt, old]
  have sameLive : ∀ pageNo < ((maps.die otherDie).block otherBlock).currentPage,
      (maps.placeSlice geo dieNo logicalSliceAddr).isLive
          (geo.vorg2Vsa otherDie otherBlock pageNo) =
        maps.isLive (geo.vorg2Vsa otherDie otherBlock pageNo) := by
    intro pageNo below
    have handed : maps.HandedOut geo otherDie otherBlock pageNo :=
      ⟨otherBound, otherUsable, by omega, below⟩
    have notTarget : maps.target geo dieNo ≠ geo.vorg2Vsa otherDie otherBlock pageNo := by
      intro same
      obtain ⟨rfl, rfl, pageEq⟩ := (Geometry.vorg2Vsa_inj dieBound pageLeft otherBound
        handed.page_lt).mp same
      exact absurd below (by rw [← pageEq]; exact lt_irrefl _)
    rw [Bool.eq_iff_iff, placement'.isLive_iff, placement.isLive_iff]
    constructor
    · rintro ⟨otherLogical, otherMapped⟩
      rw [placeSlice_logicalSlice, update_apply] at otherMapped
      split at otherMapped
      · exact absurd (Option.some.inj otherMapped) notTarget
      · exact ⟨otherLogical, otherMapped⟩
    · rintro ⟨otherLogical, otherMapped⟩
      refine ⟨otherLogical, ?_⟩
      rw [placeSlice_logicalSlice, update_of_ne ?_, otherMapped]
      rintro rfl
      exact notOff (oldCopy _ _ _ handed otherMapped).symm
  by_cases here : otherDie = dieNo ∧ otherBlock = (maps.die dieNo).currentBlock
  · obtain ⟨rfl, rfl⟩ := here
    have pageEq : (((maps.placeSlice geo otherDie logicalSliceAddr).die otherDie).block
        (maps.die otherDie).currentBlock).currentPage = maps.currentPage otherDie + 1 := by
      rw [placeSlice_currentPage]
      simp
    unfold staleCount
    rw [pageEq, List.range_succ, List.countP_append]
    have newPage : (maps.placeSlice geo otherDie logicalSliceAddr).isLive
        (geo.vorg2Vsa otherDie (maps.die otherDie).currentBlock (maps.currentPage otherDie)) =
          true := targetLive
    simp only [List.countP_singleton, newPage]
    simp only [Bool.not_true, Bool.false_eq_true, if_false, add_zero]
    refine List.countP_congr ?_
    intro pageNo member
    rw [sameLive pageNo (List.mem_range.mp member)]
  · refine (staleCount_congr ?_ sameLive).symm
    rw [placeSlice_currentPage, if_neg here]

/-- Only the new page and pages of other slices are mapped afterwards. -/
theorem Placement.mapped_of_placeSlice (placement : maps.Placement geo) {other : Nat}
    (mapped : (maps.placeSlice geo dieNo logicalSliceAddr).Mapped other) :
    other = geo.vorg2Vsa dieNo (maps.die dieNo).currentBlock (maps.currentPage dieNo) ∨
      (maps.Mapped other ∧ maps.logicalSlice logicalSliceAddr ≠ some other) := by
  obtain ⟨otherLogical, otherMapped⟩ := mapped
  rw [placeSlice_logicalSlice, update_apply] at otherMapped
  split at otherMapped
  · exact Or.inl (Option.some.inj otherMapped).symm
  · rename_i different
    refine Or.inr ⟨⟨otherLogical, otherMapped⟩, ?_⟩
    intro sameTarget
    exact different (placement.mapped_unique otherMapped sameTarget)

theorem placeSlice_logicalSlice_self :
    (maps.placeSlice geo dieNo logicalSliceAddr).logicalSlice logicalSliceAddr =
      some (geo.vorg2Vsa dieNo (maps.die dieNo).currentBlock (maps.currentPage dieNo)) := by
  simp [placeSlice_logicalSlice, target]

theorem placeSlice_logicalSlice_of_ne {other : Nat} (different : other ≠ logicalSliceAddr) :
    (maps.placeSlice geo dieNo logicalSliceAddr).logicalSlice other =
      maps.logicalSlice other := by
  simp [placeSlice_logicalSlice, different]

end PlaceSlice

/-! ## Erasing a block without live slices -/

section Erase

variable {dieNo blockNo : Nat}

private theorem clearVirtualSlices_fold (dieNo blockNo count : Nat) (maps : AddressMap) :
    (List.range count).foldl (fun maps pageNo =>
      { maps with
        virtualSlice :=
          update maps.virtualSlice (geo.vorg2Vsa dieNo blockNo pageNo) none }) maps =
      { maps with
        virtualSlice := fun virtualSliceAddr =>
          if ∃ pageNo < count, virtualSliceAddr = geo.vorg2Vsa dieNo blockNo pageNo then none
          else maps.virtualSlice virtualSliceAddr } := by
  induction count with
  | zero => simp
  | succ count ih =>
    rw [List.range_succ, List.foldl_append, ih]
    simp only [List.foldl_cons, List.foldl_nil]
    congr 1
    funext virtualSliceAddr
    rw [update_apply]
    by_cases last : virtualSliceAddr = geo.vorg2Vsa dieNo blockNo count
    · rw [if_pos last, if_pos ⟨count, by omega, last⟩]
    · rw [if_neg last]
      refine if_congr ?_ rfl rfl
      constructor
      · rintro ⟨pageNo, below, same⟩
        exact ⟨pageNo, by omega, same⟩
      · rintro ⟨pageNo, below, same⟩
        refine ⟨pageNo, ?_, same⟩
        rcases Nat.lt_succ_iff_lt_or_eq.mp below with lower | rfl
        · exact lower
        · exact absurd same last

@[simp] theorem clearVirtualSlices_logicalSlice :
    (maps.clearVirtualSlices geo dieNo blockNo).logicalSlice = maps.logicalSlice := by
  rw [clearVirtualSlices, clearVirtualSlices_fold]

@[simp] theorem clearVirtualSlices_die :
    (maps.clearVirtualSlices geo dieNo blockNo).die = maps.die := by
  rw [clearVirtualSlices, clearVirtualSlices_fold]

@[simp] theorem clearVirtualSlices_nandReqs :
    (maps.clearVirtualSlices geo dieNo blockNo).nandReqs = maps.nandReqs := by
  rw [clearVirtualSlices, clearVirtualSlices_fold]

@[simp] theorem clearVirtualSlices_sliceAllocationTargetDie :
    (maps.clearVirtualSlices geo dieNo blockNo).sliceAllocationTargetDie =
      maps.sliceAllocationTargetDie := by
  rw [clearVirtualSlices, clearVirtualSlices_fold]

@[simp] theorem clearVirtualSlices_targetCh :
    (maps.clearVirtualSlices geo dieNo blockNo).targetCh = maps.targetCh := by
  rw [clearVirtualSlices, clearVirtualSlices_fold]

@[simp] theorem clearVirtualSlices_targetWay :
    (maps.clearVirtualSlices geo dieNo blockNo).targetWay = maps.targetWay := by
  rw [clearVirtualSlices, clearVirtualSlices_fold]

private theorem clearVirtualSlices_virtualSlice (virtualSliceAddr : Nat) :
    (maps.clearVirtualSlices geo dieNo blockNo).virtualSlice virtualSliceAddr =
      if ∃ pageNo < geo.userPagesPerBlock,
        virtualSliceAddr = geo.vorg2Vsa dieNo blockNo pageNo then none
      else maps.virtualSlice virtualSliceAddr := by
  rw [clearVirtualSlices, clearVirtualSlices_fold]

@[simp] theorem eraseBlock_logicalSlice :
    (maps.eraseBlock geo dieNo blockNo).logicalSlice = maps.logicalSlice := by
  simp [eraseBlock, emit]

@[simp] theorem eraseBlock_die (other : Nat) :
    (maps.eraseBlock geo dieNo blockNo).die other =
      if other = dieNo then (maps.die dieNo).eraseBlock blockNo else maps.die other := by
  simp [eraseBlock, emit]

theorem eraseBlock_nandReqs :
    (maps.eraseBlock geo dieNo blockNo).nandReqs =
      maps.nandReqs ++ [.erase (geo.vorg2Vsa dieNo blockNo 0)
        ((maps.die dieNo).block blockNo).currentPage] := by
  simp [eraseBlock, emit]

private theorem eraseBlock_usable {otherDie otherBlock : Nat} :
    ((maps.eraseBlock geo dieNo blockNo).die otherDie).Usable geo otherBlock ↔
      (maps.die otherDie).Usable geo otherBlock := by
  by_cases same : otherDie = dieNo <;> simp [same, DieMap.Usable]

private theorem eraseBlock_block_ne {otherDie otherBlock : Nat}
    (elsewhere : ¬ (otherDie = dieNo ∧ otherBlock = blockNo)) :
    ((maps.eraseBlock geo dieNo blockNo).die otherDie).block otherBlock =
      (maps.die otherDie).block otherBlock := by
  by_cases same : otherDie = dieNo
  · have : otherBlock ≠ blockNo := fun sameBlock => elsewhere ⟨same, sameBlock⟩
    simp [same, DieMap.eraseBlock_block, this]
  · simp [same]

theorem Placement.eraseBlock (placement : maps.Placement geo) (dieNo blockNo : Nat)
    (dead : ∀ pageNo < geo.userPagesPerBlock,
      ¬ maps.Mapped (geo.vorg2Vsa dieNo blockNo pageNo)) :
    (maps.eraseBlock geo dieNo blockNo).Placement geo := by
  refine ⟨?_, ?_, ?_⟩
  · intro logicalSliceAddr virtualSliceAddr mapped
    rw [eraseBlock_logicalSlice] at mapped
    rw [AddressMap.eraseBlock, clearVirtualSlices_virtualSlice, if_neg ?_]
    · exact placement.backPointer _ _ mapped
    · rintro ⟨pageNo, bound, rfl⟩
      exact dead pageNo bound ⟨_, mapped⟩
  · intro logicalSliceAddr virtualSliceAddr mapped
    rw [eraseBlock_logicalSlice] at mapped
    obtain ⟨otherDie, otherBlock, otherPage, handed, rfl⟩ := placement.placed _ _ mapped
    have elsewhere : ¬ (otherDie = dieNo ∧ otherBlock = blockNo) := by
      rintro ⟨rfl, rfl⟩
      exact dead otherPage handed.page_lt ⟨_, mapped⟩
    refine ⟨otherDie, otherBlock, otherPage, ⟨handed.die_lt,
      eraseBlock_usable.mpr handed.usable, handed.page_lt, ?_⟩, rfl⟩
    rw [eraseBlock_block_ne elsewhere]
    exact handed.page_handed
  · intro otherDie otherBound otherBlock usable
    by_cases here : otherDie = dieNo ∧ otherBlock = blockNo
    · simp [here.1, here.2, DieMap.eraseBlock_block]
    · rw [eraseBlock_block_ne here]
      exact placement.pages_le otherDie otherBound otherBlock (eraseBlock_usable.mp usable)

theorem CountsExact.eraseBlock (counts : maps.CountsExact geo (some (dieNo, blockNo)))
    (placement : maps.Placement geo)
    (dead : ∀ pageNo < geo.userPagesPerBlock,
      ¬ maps.Mapped (geo.vorg2Vsa dieNo blockNo pageNo)) :
    (maps.eraseBlock geo dieNo blockNo).CountsExact geo none := by
  have placement' := placement.eraseBlock dieNo blockNo dead
  intro otherDie otherBound otherBlock usable _
  by_cases here : otherDie = dieNo ∧ otherBlock = blockNo
  · obtain ⟨rfl, rfl⟩ := here
    simp [staleCount, DieMap.eraseBlock_block]
  · rw [eraseBlock_block_ne here, counts otherDie otherBound otherBlock
      (eraseBlock_usable.mp usable) (by simpa using here)]
    refine (staleCount_congr ?_ ?_).symm
    · rw [eraseBlock_block_ne here]
    · intro pageNo _
      rw [Bool.eq_iff_iff, placement'.isLive_iff, placement.isLive_iff, Mapped,
        eraseBlock_logicalSlice, Mapped]

end Erase

/-! ## Fields that do not matter -/

theorem Placement.congr (placement : maps.Placement geo)
    (logicalEq : maps'.logicalSlice = maps.logicalSlice)
    (virtualEq : maps'.virtualSlice = maps.virtualSlice) (dieEq : maps'.die = maps.die) :
    maps'.Placement geo := by
  refine ⟨?_, ?_, ?_⟩
  · rw [logicalEq, virtualEq]
    exact placement.backPointer
  · rw [logicalEq]
    intro logicalSliceAddr virtualSliceAddr mapped
    obtain ⟨dieNo, blockNo, pageNo, handed, addrEq⟩ := placement.placed _ _ mapped
    exact ⟨dieNo, blockNo, pageNo, ⟨handed.die_lt, by rw [dieEq]; exact handed.usable,
      handed.page_lt, by rw [dieEq]; exact handed.page_handed⟩, addrEq⟩
  · rw [dieEq]
    exact placement.pages_le

theorem CountsExact.congr {off : Option (Nat × Nat)}
    (counts : maps.CountsExact geo off) (logicalEq : maps'.logicalSlice = maps.logicalSlice)
    (virtualEq : maps'.virtualSlice = maps.virtualSlice) (dieEq : maps'.die = maps.die) :
    maps'.CountsExact geo off := by
  have liveEq : ∀ virtualSliceAddr,
      maps'.isLive virtualSliceAddr = maps.isLive virtualSliceAddr := by
    intro virtualSliceAddr
    simp only [isLive, logicalEq, virtualEq]
  intro dieNo dieBound blockNo usable notOff
  rw [dieEq] at usable
  rw [dieEq, counts dieNo dieBound blockNo usable notOff]
  refine (staleCount_congr (by rw [dieEq]) ?_).symm
  intro pageNo _
  exact liveEq _

end AddressMap

end RwRbuf.Firmware
