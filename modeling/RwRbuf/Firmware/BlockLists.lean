import RwRbuf.Lib.LinkedList
import RwRbuf.Firmware.AddressMap

/-! # The block lists of a die

The free list of a die and its victim lists share the link fields of the blocks.
`Listed` says which blocks are on which list; `Roles` adds what a block that is free,
current or neither looks like.  Each list function of the firmware is described by
what it does to these lists.
-/

namespace RwRbuf.Firmware

open LinkedList Function

namespace DieMap

variable (geo : Geometry)

/-- The header with key `none` is the free list, the one with key `some index` the
victim list of the blocks with `index + 1` invalid slices. -/
def header (die : DieMap) : Option (Fin geo.userPagesPerBlock) → Ends Nat
  | none => die.freeBlock
  | some index => die.gcVictimList (index + 1)

/-- A block of the die that initialisation did not retire. -/
def Usable (die : DieMap) (blockNo : Nat) : Prop :=
  blockNo < geo.userBlocksPerDie ∧ (die.block blockNo).bad = false

/-- The lists of a die hold the blocks they should.  The block `off`, if any, is in the
hands of garbage collection and on none of the victim lists. -/
structure Listed (die : DieMap) (off : Option Nat)
    (lists : Option (Fin geo.userPagesPerBlock) → List Nat) : Prop where
  family : Family die.link (die.header geo) lists
  free_mem : ∀ blockNo ∈ lists none,
    die.Usable geo blockNo ∧ (die.block blockNo).invalidSliceCnt = 0
  victim_mem : ∀ index blockNo, blockNo ∈ lists (some index) ↔
    die.Usable geo blockNo ∧ (die.block blockNo).invalidSliceCnt = index + 1 ∧
      some blockNo ≠ off
  free_count : die.freeBlockCnt = (lists none).length

def Loose (die : DieMap) (free : List Nat) : Prop :=
  ∀ blockNo, die.Usable geo blockNo → blockNo ∉ free →
    (die.block blockNo).invalidSliceCnt = 0 →
      die.link.prev blockNo = none ∧ die.link.next blockNo = none

/-- A usable block is free and empty, or the current block, or completely filled. -/
structure Roles (die : DieMap) (free : List Nat) : Prop where
  free_empty : ∀ blockNo ∈ free,
    (die.block blockNo).free = true ∧ (die.block blockNo).currentPage = 0
  current_usable : die.Usable geo die.currentBlock
  current_not_free : die.currentBlock ∉ free
  current_le : (die.block die.currentBlock).currentPage ≤ geo.userPagesPerBlock
  full : ∀ blockNo, die.Usable geo blockNo → blockNo ∉ free → blockNo ≠ die.currentBlock →
    (die.block blockNo).currentPage = geo.userPagesPerBlock

variable {geo} {die : DieMap} {off : Option Nat} {blockNo : Nat}
  {lists : Option (Fin geo.userPagesPerBlock) → List Nat}

theorem Listed.congr {die' : DieMap} (listed : die.Listed geo off lists)
    (linkEq : die'.link = die.link) (freeEq : die'.freeBlock = die.freeBlock)
    (victimEq : die'.gcVictimList = die.gcVictimList)
    (countEq : die'.freeBlockCnt = die.freeBlockCnt)
    (badEq : ∀ blockNo, (die'.block blockNo).bad = (die.block blockNo).bad)
    (invalidEq : ∀ blockNo,
      (die'.block blockNo).invalidSliceCnt = (die.block blockNo).invalidSliceCnt) :
    die'.Listed geo off lists := by
  have headerEq : die'.header geo = die.header geo := by
    funext key
    cases key with
    | none => exact freeEq
    | some index => simp only [header, victimEq]
  refine ⟨?_, ?_, ?_, ?_⟩
  · rw [linkEq, headerEq]
    exact listed.family
  · simpa only [Usable, badEq, invalidEq] using listed.free_mem
  · simpa only [Usable, badEq, invalidEq] using listed.victim_mem
  · rw [countEq]
    exact listed.free_count

/-! ## Taking a free block -/

@[simp] theorem header_takeFreeBlock :
    (die.takeFreeBlock blockNo).header geo =
      update (die.header geo) none (popFront die.link die.freeBlock blockNo).2 := by
  funext key
  cases key with
  | none | some index => simp [header, takeFreeBlock]

@[simp] theorem takeFreeBlock_bad (other : Nat) :
    ((die.takeFreeBlock blockNo).block other).bad = (die.block other).bad := by
  by_cases same : other = blockNo <;> simp [takeFreeBlock, same]

@[simp] theorem takeFreeBlock_invalidSliceCnt (other : Nat) :
    ((die.takeFreeBlock blockNo).block other).invalidSliceCnt =
      (die.block other).invalidSliceCnt := by
  by_cases same : other = blockNo <;> simp [takeFreeBlock, same]

@[simp] theorem takeFreeBlock_currentPage (other : Nat) :
    ((die.takeFreeBlock blockNo).block other).currentPage = (die.block other).currentPage := by
  by_cases same : other = blockNo <;> simp [takeFreeBlock, same]

section

variable {rest : List Nat} (listed : die.Listed geo off lists)
include listed

theorem Listed.takeFreeBlock (listEq : lists none = blockNo :: rest) :
    (die.takeFreeBlock blockNo).Listed geo off (update lists none rest) := by
  have popped := listed.family.popFront none listEq
  have notRest : blockNo ∉ rest := by
    have := (listed.family.holds none).nodup
    rw [listEq] at this
    exact (List.nodup_cons.mp this).1
  have onNone : ∀ key, blockNo ∉ update lists none rest key := by
    intro key
    cases key with
    | none => simpa using notRest
    | some index =>
      intro member
      have sameKey := listed.family.disjoint (some index) none blockNo
        (by simpa using member) (by simp [listEq])
      cases sameKey
  refine ⟨?_, ?_, ?_, ?_⟩
  · rw [header_takeFreeBlock]
    refine popped.congr ?_
    intro key other member
    have : other ≠ blockNo := by
      rintro rfl
      exact onNone key member
    simp [DieMap.takeFreeBlock, header, this]
  · intro other member
    have inOld : other ∈ lists none := by
      rw [listEq]
      exact List.mem_cons_of_mem _ (by simpa using member)
    simpa [Usable] using listed.free_mem other inOld
  · intro index other
    simpa [Usable] using listed.victim_mem index other
  · have := listed.free_count
    simp [DieMap.takeFreeBlock, this, listEq]

theorem Loose.takeFreeBlock
    (loose : die.Loose geo (lists none)) (listEq : lists none = blockNo :: rest) :
    (die.takeFreeBlock blockNo).Loose geo rest := by
  intro other usable notRest noInvalid
  by_cases same : other = blockNo
  · simp [DieMap.takeFreeBlock, same]
  · have held : Holds die.link die.freeBlock (blockNo :: rest) :=
      listEq ▸ listed.family.holds none
    have outside := popFront_outside held notRest
    have old := loose other (by simpa [Usable] using usable)
      (by simp [listEq, same, notRest]) (by simpa using noInvalid)
    simpa [DieMap.takeFreeBlock, same, outside.1, outside.2] using old

theorem Roles.takeFreeBlock
    (roles : die.Roles geo (lists none)) (listEq : lists none = blockNo :: rest)
    (currentFull : (die.block die.currentBlock).currentPage = geo.userPagesPerBlock) :
    Roles geo { die.takeFreeBlock blockNo with currentBlock := blockNo } rest := by
  have notRest : blockNo ∉ rest := by
    have := (listed.family.holds none).nodup
    rw [listEq] at this
    exact (List.nodup_cons.mp this).1
  have blockMem : blockNo ∈ lists none := by simp [listEq]
  refine ⟨?_, ?_, notRest, ?_, ?_⟩
  · intro other member
    have different : other ≠ blockNo := by
      rintro rfl
      exact notRest member
    have := roles.free_empty other (by simp [listEq, member])
    simpa [DieMap.takeFreeBlock, different] using this
  · have := (listed.free_mem blockNo blockMem).1
    simpa [Usable] using this
  · have := (roles.free_empty blockNo blockMem).2
    simp [this]
  · intro other usable notFree notCurrent
    change other ≠ blockNo at notCurrent
    have usableOld : die.Usable geo other := by simpa [Usable] using usable
    change ((die.takeFreeBlock blockNo).block other).currentPage = _
    rw [takeFreeBlock_currentPage]
    by_cases wasCurrent : other = die.currentBlock
    · rw [wasCurrent, currentFull]
    · exact roles.full other usableOld (by simp [listEq, notCurrent, notFree]) wasCurrent

end

/-- With the lists in order, the normal option fails exactly at the reserve. -/
theorem getFromFbList_normal (listed : die.Listed geo off lists) :
    (die.freeBlockCnt ≤ reservedFreeBlockCount ∧ die.getFromFbList .normal = .ok (die, none)) ∨
      ∃ blockNo rest, lists none = blockNo :: rest ∧ reservedFreeBlockCount < die.freeBlockCnt ∧
        die.getFromFbList .normal = .ok (die.takeFreeBlock blockNo, some blockNo) := by
  by_cases reserve : die.freeBlockCnt ≤ reservedFreeBlockCount
  · exact Or.inl ⟨reserve, by simp [getFromFbList, reserve]⟩
  · right
    cases listEq : lists none with
    | nil =>
      have := listed.free_count
      simp [listEq] at this
      omega
    | cons blockNo rest =>
      have headEq : die.freeBlock.head = some blockNo := by
        have := (listed.family.holds none).head
        simpa [header, listEq] using this
      exact ⟨blockNo, rest, rfl, by omega, by simp [getFromFbList, reserve, headEq]⟩

/-- The option for garbage collection fails exactly when no block is free. -/
theorem getFromFbList_gc (listed : die.Listed geo off lists) :
    (lists none = [] ∧ die.getFromFbList .gc = .ok (die, none)) ∨
      ∃ blockNo rest, lists none = blockNo :: rest ∧
        die.getFromFbList .gc = .ok (die.takeFreeBlock blockNo, some blockNo) := by
  have headEq : die.freeBlock.head = (lists none).head? := (listed.family.holds none).head
  cases listEq : lists none with
  | nil => exact Or.inl ⟨rfl, by simp [getFromFbList, headEq, listEq]⟩
  | cons blockNo rest =>
    exact Or.inr ⟨blockNo, rest, rfl, by simp [getFromFbList, headEq, listEq]⟩

/-! ## Handing out a page -/

@[simp] theorem bumpPage_bad (other : Nat) :
    ((die.bumpPage blockNo).block other).bad = (die.block other).bad := by
  by_cases same : other = blockNo <;> simp [bumpPage, setBlock, same]

@[simp] theorem bumpPage_invalidSliceCnt (other : Nat) :
    ((die.bumpPage blockNo).block other).invalidSliceCnt =
      (die.block other).invalidSliceCnt := by
  by_cases same : other = blockNo <;> simp [bumpPage, setBlock, same]

@[simp] theorem bumpPage_free (other : Nat) :
    ((die.bumpPage blockNo).block other).free = (die.block other).free := by
  by_cases same : other = blockNo <;> simp [bumpPage, setBlock, same]

theorem bumpPage_currentPage (other : Nat) :
    ((die.bumpPage blockNo).block other).currentPage =
      if other = blockNo then (die.block blockNo).currentPage + 1
      else (die.block other).currentPage := by
  by_cases same : other = blockNo <;> simp [bumpPage, setBlock, same]

theorem Listed.bumpPage (listed : die.Listed geo off lists) (blockNo : Nat) :
    (die.bumpPage blockNo).Listed geo off lists :=
  listed.congr rfl rfl rfl rfl (fun _ => bumpPage_bad _) (fun _ => bumpPage_invalidSliceCnt _)

variable {free : List Nat}

theorem Loose.bumpPage (loose : die.Loose geo free) (blockNo : Nat) :
    (die.bumpPage blockNo).Loose geo free := by
  intro other usable notFree noInvalid
  exact loose other (by simpa [Usable] using usable) notFree (by simpa using noInvalid)

theorem Roles.bumpPage (roles : die.Roles geo free)
    (pageLeft : (die.block die.currentBlock).currentPage < geo.userPagesPerBlock) :
    (die.bumpPage die.currentBlock).Roles geo free := by
  refine ⟨?_, ?_, roles.current_not_free, ?_, ?_⟩
  · intro other member
    have different : other ≠ die.currentBlock := by
      rintro rfl
      exact roles.current_not_free member
    simpa [bumpPage_currentPage, different] using roles.free_empty other member
  · have usable := roles.current_usable
    simpa [Usable, DieMap.bumpPage, setBlock] using usable
  · change ((die.bumpPage die.currentBlock).block die.currentBlock).currentPage ≤ _
    rw [bumpPage_currentPage]
    simp
    omega
  · intro other usable notFree notCurrent
    change other ≠ die.currentBlock at notCurrent
    rw [bumpPage_currentPage, if_neg notCurrent]
    exact roles.full other (by simpa [Usable] using usable) notFree notCurrent

/-! ## Counting an invalid slice -/

@[simp] theorem invalidateSlice_bad (other : Nat) :
    ((die.invalidateSlice blockNo).block other).bad = (die.block other).bad := by
  by_cases same : other = blockNo <;>
    simp [invalidateSlice, putToGcVictimList, setBlock, selectiveGetFromGcVictimList, same]

@[simp] theorem invalidateSlice_free (other : Nat) :
    ((die.invalidateSlice blockNo).block other).free = (die.block other).free := by
  by_cases same : other = blockNo <;>
    simp [invalidateSlice, putToGcVictimList, setBlock, selectiveGetFromGcVictimList, same]

@[simp] theorem invalidateSlice_currentPage (other : Nat) :
    ((die.invalidateSlice blockNo).block other).currentPage =
      (die.block other).currentPage := by
  by_cases same : other = blockNo <;>
    simp [invalidateSlice, putToGcVictimList, setBlock, selectiveGetFromGcVictimList, same]

theorem invalidateSlice_invalidSliceCnt (other : Nat) :
    ((die.invalidateSlice blockNo).block other).invalidSliceCnt =
      if other = blockNo then (die.block blockNo).invalidSliceCnt + 1
      else (die.block other).invalidSliceCnt := by
  by_cases same : other = blockNo <;>
    simp [invalidateSlice, putToGcVictimList, setBlock, selectiveGetFromGcVictimList, same]

@[simp] theorem invalidateSlice_currentBlock :
    (die.invalidateSlice blockNo).currentBlock = die.currentBlock := rfl

@[simp] theorem invalidateSlice_freeBlockCnt :
    (die.invalidateSlice blockNo).freeBlockCnt = die.freeBlockCnt := rfl

/-- The lists after `SelectiveGetFromGcVictimList`: a block without invalid slices was
on none of them. -/
private def withoutBlock (die : DieMap)
    (lists : Option (Fin geo.userPagesPerBlock) → List Nat) (blockNo : Nat) :
    Option (Fin geo.userPagesPerBlock) → List Nat
  | none => lists none
  | some index => if (die.block blockNo).invalidSliceCnt = index + 1 then
      (lists (some index)).erase blockNo else lists (some index)

private theorem header_update_some (die die' : DieMap) {cnt : Nat} {ends : Ends Nat}
    (freeEq : die'.freeBlock = die.freeBlock)
    (victimEq : die'.gcVictimList = update die.gcVictimList cnt ends)
    (index : Fin geo.userPagesPerBlock) (cntEq : cnt = index + 1) :
    die'.header geo = update (die.header geo) (some index) ends := by
  funext key
  cases key with
  | none => simp [header, freeEq]
  | some other =>
    by_cases same : other = index
    · subst same
      simp [header, victimEq, cntEq]
    · have : (other : Nat) + 1 ≠ index + 1 := by
        intro equal
        exact same (Fin.ext (by omega))
      simp [header, victimEq, cntEq, same, update_of_ne this]

section

variable (listed : die.Listed geo none lists)
include listed

private theorem selectiveGet_family
    (loose : die.Loose geo (lists none)) (usable : die.Usable geo blockNo)
    (notFree : blockNo ∉ lists none)
    (bound : (die.block blockNo).invalidSliceCnt < geo.userPagesPerBlock) :
    Family (die.selectiveGetFromGcVictimList blockNo).link
      ((die.selectiveGetFromGcVictimList blockNo).header geo)
      (die.withoutBlock lists blockNo) := by
  cases cntEq : (die.block blockNo).invalidSliceCnt with
  | zero =>
    obtain ⟨prevNone, nextNone⟩ := loose blockNo usable notFree cntEq
    have sameHeader :
        (die.selectiveGetFromGcVictimList blockNo).header geo = die.header geo := by
      funext key
      cases key <;> simp [header, selectiveGetFromGcVictimList, cntEq]
    have sameLists : die.withoutBlock lists blockNo = lists := by
      funext key
      cases key <;> simp [withoutBlock, cntEq]
    rw [sameHeader, sameLists]
    simpa [selectiveGetFromGcVictimList, unlink, prevNone, nextNone] using listed.family
  | succ cnt =>
    let index : Fin geo.userPagesPerBlock := ⟨cnt, by omega⟩
    have member : blockNo ∈ lists (some index) :=
      (listed.victim_mem index blockNo).mpr ⟨usable, cntEq, by simp⟩
    have listsEq : die.withoutBlock lists blockNo =
        update lists (some index) ((lists (some index)).erase blockNo) := by
      funext key
      cases key with
      | none => simp [withoutBlock]
      | some other =>
        by_cases same : other = index
        · subst same
          simp [withoutBlock, cntEq, index]
        · have : cnt ≠ other := by
            intro equal
            exact same (Fin.ext equal.symm)
          simp [withoutBlock, cntEq, this, same]
    have headerEq : (die.selectiveGetFromGcVictimList blockNo).header geo =
        update (die.header geo) (some index)
          (unlink die.link (die.header geo (some index)) blockNo).2 :=
      header_update_some die (die.selectiveGetFromGcVictimList blockNo) rfl
        (by simp [selectiveGetFromGcVictimList, cntEq, header, index]) index rfl
    rw [headerEq, listsEq]
    simpa [selectiveGetFromGcVictimList, cntEq, header, index] using
      listed.family.unlink (some index) member

private theorem mem_withoutBlock
    (notFree : blockNo ∉ lists none) (key : Option (Fin geo.userPagesPerBlock)) (other : Nat) :
    other ∈ die.withoutBlock lists blockNo key ↔ other ≠ blockNo ∧ other ∈ lists key := by
  cases key with
  | none =>
    simp only [withoutBlock, iff_and_self]
    rintro member rfl
    exact notFree member
  | some index =>
    by_cases here : (die.block blockNo).invalidSliceCnt = index + 1
    · simp only [withoutBlock, here, if_true]
      exact (listed.family.holds (some index)).nodup.mem_erase_iff
    · simp only [withoutBlock, here, if_false, iff_and_self]
      rintro member rfl
      exact here ((listed.victim_mem index other).mp member).2.1

section

variable (loose : die.Loose geo (lists none)) (usable : die.Usable geo blockNo)
  (notFree : blockNo ∉ lists none)
  (bound : (die.block blockNo).invalidSliceCnt < geo.userPagesPerBlock)
include loose usable notFree bound

theorem Listed.invalidateSlice :
    ∃ lists', (die.invalidateSlice blockNo).Listed geo none lists' ∧
      lists' none = lists none := by
  let index : Fin geo.userPagesPerBlock := ⟨(die.block blockNo).invalidSliceCnt, bound⟩
  have mem := mem_withoutBlock listed notFree
  have family := selectiveGet_family listed loose usable notFree bound
  have notListed : ∀ key, blockNo ∉ die.withoutBlock lists blockNo key := by simp [mem]
  have pushed := family.pushBack (some index) notListed
  refine ⟨update (die.withoutBlock lists blockNo) (some index)
    (die.withoutBlock lists blockNo (some index) ++ [blockNo]), ⟨?_, ?_, ?_, ?_⟩, ?_⟩
  · have headerEq : (die.invalidateSlice blockNo).header geo =
        update ((die.selectiveGetFromGcVictimList blockNo).header geo) (some index)
          (LinkedList.pushBack (die.selectiveGetFromGcVictimList blockNo).link
            ((die.selectiveGetFromGcVictimList blockNo).header geo (some index)) blockNo).2 := by
      refine header_update_some (die.selectiveGetFromGcVictimList blockNo)
        (die.invalidateSlice blockNo) rfl ?_ index rfl
      simp [DieMap.invalidateSlice, putToGcVictimList, setBlock, header, index,
        selectiveGetFromGcVictimList]
    rw [headerEq]
    simpa [DieMap.invalidateSlice, putToGcVictimList, setBlock, header, index,
      selectiveGetFromGcVictimList] using pushed
  · intro other member
    have inFree : other ∈ lists none := by simpa [withoutBlock] using member
    have different : other ≠ blockNo := by
      rintro rfl
      exact notFree inFree
    simpa [Usable, invalidateSlice_invalidSliceCnt, different] using listed.free_mem other inFree
  · intro key other
    by_cases same : key = index
    · subst same
      by_cases isBlock : other = blockNo
      · subst isBlock
        simp only [update_self, List.mem_append, List.mem_singleton, or_true, true_iff]
        refine ⟨by simpa [Usable] using usable, ?_, by simp⟩
        simp [invalidateSlice_invalidSliceCnt, index]
      · simp [mem, isBlock, listed.victim_mem, Usable, invalidateSlice_invalidSliceCnt]
    · have keyNe : some key ≠ some index := by simpa using same
      rw [update_of_ne keyNe, mem, listed.victim_mem]
      by_cases isBlock : other = blockNo
      · subst isBlock
        have : (die.block other).invalidSliceCnt ≠ key := by
          intro equal
          exact same (Fin.ext equal.symm)
        simp [invalidateSlice_invalidSliceCnt, this]
      · simp [isBlock, Usable, invalidateSlice_invalidSliceCnt]
  · simpa [withoutBlock] using listed.free_count
  · simp [withoutBlock]

theorem Loose.invalidateSlice : (die.invalidateSlice blockNo).Loose geo (lists none) := by
  intro other otherUsable otherNotFree noInvalid
  have different : other ≠ blockNo := by
    rintro rfl
    simp [invalidateSlice_invalidSliceCnt] at noInvalid
  have noInvalidOld : (die.block other).invalidSliceCnt = 0 := by
    simpa [invalidateSlice_invalidSliceCnt, different] using noInvalid
  have old := loose other (by simpa [Usable] using otherUsable) otherNotFree noInvalidOld
  have notVictim : ∀ index, other ∉ lists (some index) := by
    intro index member
    have := ((listed.victim_mem index other).mp member).2.1
    omega
  let index : Fin geo.userPagesPerBlock := ⟨(die.block blockNo).invalidSliceCnt, bound⟩
  have family := selectiveGet_family listed loose usable notFree bound
  have notListed : other ∉ die.withoutBlock lists blockNo (some index) := by
    simp [mem_withoutBlock listed notFree, notVictim]
  have afterPush := pushBack_outside (family.holds (some index)) notListed different
  have afterUnlink :
      (die.selectiveGetFromGcVictimList blockNo).link.prev other = die.link.prev other ∧
        (die.selectiveGetFromGcVictimList blockNo).link.next other = die.link.next other := by
    cases cntEq : (die.block blockNo).invalidSliceCnt with
    | zero =>
      obtain ⟨prevNone, nextNone⟩ := loose blockNo usable notFree cntEq
      simp [selectiveGetFromGcVictimList, unlink, prevNone, nextNone]
    | succ cnt =>
      let listIndex : Fin geo.userPagesPerBlock := ⟨cnt, by omega⟩
      have member : blockNo ∈ lists (some listIndex) :=
        (listed.victim_mem listIndex blockNo).mpr ⟨usable, cntEq, by simp⟩
      have outside := unlink_outside (listed.family.holds (some listIndex)) member
        (notVictim listIndex)
      simpa [selectiveGetFromGcVictimList, cntEq, header, listIndex] using outside
  rw [afterUnlink.1, afterUnlink.2, old.1, old.2] at afterPush
  simpa [DieMap.invalidateSlice, putToGcVictimList, setBlock, header, index,
    selectiveGetFromGcVictimList] using afterPush

end

end

theorem Roles.invalidateSlice (roles : die.Roles geo free) (blockNo : Nat) :
    (die.invalidateSlice blockNo).Roles geo free := by
  refine ⟨?_, ?_, roles.current_not_free, ?_, ?_⟩
  · simpa using roles.free_empty
  · simpa [Usable] using roles.current_usable
  · simpa using roles.current_le
  · simpa [Usable] using roles.full

/-! ## Choosing a victim -/

/-- Garbage collection takes the first block of the last list that is not empty. -/
theorem getFromGcVictimList_cases (listed : die.Listed geo off lists) (cnt : Nat)
    (bound : cnt ≤ geo.userPagesPerBlock) :
    (∃ index blockNo rest, lists (some index) = blockNo :: rest ∧
      (∀ above, index < above → (above : Nat) < cnt → lists (some above) = []) ∧
      die.getFromGcVictimList cnt =
        .ok (die.takeVictimBlock (index + 1) blockNo, blockNo)) ∨
    ((∀ index : Fin geo.userPagesPerBlock, (index : Nat) < cnt → lists (some index) = []) ∧
      die.getFromGcVictimList cnt = .error .noVictimBlock) := by
  induction cnt with
  | zero => exact Or.inr ⟨by simp, rfl⟩
  | succ cnt ih =>
    let last : Fin geo.userPagesPerBlock := ⟨cnt, by omega⟩
    have headEq : (die.gcVictimList (cnt + 1)).head = (lists (some last)).head? :=
      (listed.family.holds (some last)).head
    cases listEq : lists (some last) with
    | cons blockNo rest =>
      refine Or.inl ⟨last, blockNo, rest, listEq, ?_, ?_⟩
      · intro above higher lower
        have : (last : Nat) < above := higher
        simp only [last] at this
        omega
      · simp [getFromGcVictimList, headEq, listEq, last]
    | nil =>
      have searchEq : die.getFromGcVictimList (cnt + 1) = die.getFromGcVictimList cnt := by
        simp [getFromGcVictimList, headEq, listEq]
      have atLast : ∀ index : Fin geo.userPagesPerBlock, (index : Nat) < cnt + 1 →
          ¬ (index : Nat) < cnt → lists (some index) = [] := by
        intro index lower notBelow
        have : index = last := Fin.ext (by simp only [last]; omega)
        rw [this, listEq]
      rw [searchEq]
      rcases ih (by omega) with ⟨index, blockNo, rest, found, above, eq⟩ | ⟨none, eq⟩
      · refine Or.inl ⟨index, blockNo, rest, found, ?_, eq⟩
        intro other higher lower
        by_cases below : (other : Nat) < cnt
        · exact above other higher below
        · exact atLast other lower below
      · refine Or.inr ⟨?_, eq⟩
        intro index lower
        by_cases below : (index : Nat) < cnt
        · exact none index below
        · exact atLast index lower below

section

variable {index : Fin geo.userPagesPerBlock} {rest : List Nat} (listed : die.Listed geo none lists)
include listed

theorem Listed.takeVictimBlock (listEq : lists (some index) = blockNo :: rest) :
    (die.takeVictimBlock (index + 1) blockNo).Listed geo (some blockNo)
      (update lists (some index) rest) := by
  have popped := listed.family.popFront (some index) listEq
  have nodup := (listed.family.holds (some index)).nodup
  rw [listEq] at nodup
  have blockCnt : (die.block blockNo).invalidSliceCnt = index + 1 :=
    ((listed.victim_mem index blockNo).mp (by simp [listEq])).2.1
  refine ⟨?_, ?_, ?_, ?_⟩
  · have headerEq := header_update_some die (die.takeVictimBlock (index + 1) blockNo) rfl rfl
      index rfl
    rw [headerEq]
    exact popped
  · intro other member
    exact listed.free_mem other (by simpa using member)
  · intro key other
    change _ ↔ die.Usable geo other ∧ (die.block other).invalidSliceCnt = key + 1 ∧ _
    by_cases same : key = index
    · subst same
      have oldMem := listed.victim_mem key other
      rw [listEq, List.mem_cons] at oldMem
      by_cases isBlock : other = blockNo
      · subst isBlock
        simpa using (List.nodup_cons.mp nodup).1
      · simpa [isBlock] using oldMem
    · have keyNe : some key ≠ some index := by simpa using same
      rw [update_of_ne keyNe, listed.victim_mem]
      by_cases isBlock : other = blockNo
      · subst isBlock
        have : (index : Nat) ≠ key := by
          intro equal
          exact same (Fin.ext equal.symm)
        simp [blockCnt, this]
      · simp [isBlock]
  · simpa [DieMap.takeVictimBlock] using listed.free_count

theorem Loose.takeVictimBlock (loose : die.Loose geo (lists none))
    (listEq : lists (some index) = blockNo :: rest) :
    (die.takeVictimBlock (index + 1) blockNo).Loose geo (lists none) := by
  intro other usable notFree noInvalid
  have held : Holds die.link (die.gcVictimList (index + 1)) (blockNo :: rest) :=
    listEq ▸ listed.family.holds (some index)
  have notRest : other ∉ rest := by
    intro member
    have := ((listed.victim_mem index other).mp (by simp [listEq, member])).2.1
    change (die.block other).invalidSliceCnt = 0 at noInvalid
    omega
  have outside := popFront_outside held notRest
  have old := loose other usable notFree noInvalid
  rw [← outside.1, ← outside.2] at old
  exact old

end

/-! ## Erasing a block -/

theorem eraseBlock_block (other : Nat) :
    (die.eraseBlock blockNo).block other =
      if other = blockNo then
        { die.block blockNo with
          free := true
          eraseCnt := ((die.block blockNo).eraseCnt + 1) % 2 ^ 16
          invalidSliceCnt := 0
          currentPage := 0 }
      else die.block other := by
  by_cases same : other = blockNo <;> simp [eraseBlock, putToFbList, setBlock, same]

@[simp] theorem eraseBlock_bad (other : Nat) :
    ((die.eraseBlock blockNo).block other).bad = (die.block other).bad := by
  rw [eraseBlock_block]
  split
  · simp_all
  · rfl

@[simp] theorem eraseBlock_currentBlock :
    (die.eraseBlock blockNo).currentBlock = die.currentBlock := rfl

theorem Listed.eraseBlock (listed : die.Listed geo (some blockNo) lists)
    (usable : die.Usable geo blockNo) (notFree : blockNo ∉ lists none) :
    (die.eraseBlock blockNo).Listed geo none (update lists none (lists none ++ [blockNo])) := by
  have fresh : ∀ key, blockNo ∉ lists key := by
    intro key
    cases key with
    | none => exact notFree
    | some index => simp [listed.victim_mem]
  have pushed := listed.family.pushBack none fresh
  refine ⟨?_, ?_, ?_, ?_⟩
  · have headerEq : (die.eraseBlock blockNo).header geo = update (die.header geo) none
          (pushBack die.link (die.header geo none) blockNo).2 := by
      funext key
      cases key <;> simp [header, DieMap.eraseBlock, putToFbList, setBlock]
    rw [headerEq]
    exact pushed
  · intro other member
    by_cases same : other = blockNo
    · subst same
      refine ⟨by simpa [Usable] using usable, by simp [eraseBlock_block]⟩
    · have inFree : other ∈ lists none := by simpa [same] using member
      simpa [Usable, eraseBlock_block, same] using listed.free_mem other inFree
  · intro index other
    by_cases same : other = blockNo
    · subst same
      simp [fresh, eraseBlock_block]
    · simp [listed.victim_mem, Usable, eraseBlock_block, same]
  · have := listed.free_count
    simp [DieMap.eraseBlock, putToFbList, setBlock, this]

theorem Loose.eraseBlock (listed : die.Listed geo off lists) (loose : die.Loose geo (lists none)) :
    (die.eraseBlock blockNo).Loose geo (lists none ++ [blockNo]) := by
  intro other usable notFree noInvalid
  have different : other ≠ blockNo := by
    rintro rfl
    simp at notFree
  have notOldFree : other ∉ lists none := by
    intro member
    exact notFree (by simp [member])
  have held : Holds die.link die.freeBlock (lists none) := listed.family.holds none
  have outside := pushBack_outside held notOldFree different
  have old := loose other (by simpa [Usable] using usable) notOldFree
    (by simpa [eraseBlock_block, different] using noInvalid)
  rw [← outside.1, ← outside.2] at old
  exact old

theorem Roles.eraseBlock (roles : die.Roles geo free) (notCurrent : blockNo ≠ die.currentBlock) :
    (die.eraseBlock blockNo).Roles geo (free ++ [blockNo]) := by
  refine ⟨?_, ?_, ?_, ?_, ?_⟩
  · intro other member
    by_cases same : other = blockNo
    · simp [eraseBlock_block, same]
    · have inFree : other ∈ free := by simpa [same] using member
      simpa [eraseBlock_block, same] using roles.free_empty other inFree
  · simpa [Usable] using roles.current_usable
  · simp [roles.current_not_free, notCurrent.symm]
  · rw [eraseBlock_currentBlock, eraseBlock_block, if_neg notCurrent.symm]
    exact roles.current_le
  · intro other usable notFree otherNotCurrent
    rw [eraseBlock_currentBlock] at otherNotCurrent
    have different : other ≠ blockNo := by
      rintro rfl
      simp at notFree
    rw [eraseBlock_block, if_neg different]
    exact roles.full other (by simpa [Usable] using usable)
      (fun member => notFree (by simp [member])) otherNotCurrent

end DieMap

end RwRbuf.Firmware
