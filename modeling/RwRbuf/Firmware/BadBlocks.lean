import Mathlib.Data.Nat.Count
import RwRbuf.Firmware.InitAddressMap

/-! # Where bad blocks are remapped to

The loop of `RemapBadBlock` hands the spare blocks of each LUN out one after another.
A LUN is followed on its own: its user blocks lie at `first + offset`, its spare blocks
behind them, and the cursor never moves back.
-/

namespace RwRbuf.Firmware

open Function

/-! ## The reserved block of one bad block -/

theorem skipBadReserved_spec (bad : Nat → Bool) {limit : Nat} (fuel : Nat) :
    ∀ reserved < limit, limit - reserved ≤ fuel →
      reserved ≤ (skipBadReserved bad limit fuel reserved).1 ∧
      (∀ blockNo, reserved ≤ blockNo → blockNo < (skipBadReserved bad limit fuel reserved).1 →
        bad blockNo = true) ∧
      ((skipBadReserved bad limit fuel reserved).2 = true →
        (skipBadReserved bad limit fuel reserved).1 < limit ∧
        bad (skipBadReserved bad limit fuel reserved).1 = false) ∧
      ((skipBadReserved bad limit fuel reserved).2 = false →
        (skipBadReserved bad limit fuel reserved).1 = limit) := by
  induction fuel with
  | zero =>
    intro reserved below enough
    omega
  | succ fuel ih =>
    intro reserved below enough
    unfold skipBadReserved
    split
    · rename_i isBad
      split
      · have passed : ∀ blockNo, reserved ≤ blockNo → blockNo < reserved + 1 →
            bad blockNo = true := by
          intro blockNo atLeast before
          rwa [show blockNo = reserved by omega]
        exact ⟨by omega, passed, by simp, fun _ => by omega⟩
      · obtain ⟨further, skipped, found, exhausted⟩ := ih (reserved + 1) (by omega) (by omega)
        refine ⟨by omega, ?_, found, exhausted⟩
        intro blockNo atLeast before
        rcases Nat.eq_or_lt_of_le atLeast with rfl | later
        · exact isBad
        · exact skipped blockNo later before
    · rename_i good
      exact ⟨le_rfl, fun blockNo atLeast before => by omega,
        fun _ => ⟨below, by simpa using good⟩, by simp⟩

theorem reserveBlock_some {bad : Nat → Bool} {limit reserved spare : Nat}
    (found : (reserveBlock bad limit reserved).2 = some spare) :
    (reserved ≤ spare ∧ spare < limit ∧ bad spare = false ∧
      ∀ blockNo, reserved ≤ blockNo → blockNo < spare → bad blockNo = true) ∧
      (reserveBlock bad limit reserved).1 = spare + 1 := by
  unfold reserveBlock at found ⊢
  split at found
  · rename_i below
    obtain ⟨further, skipped, inside, -⟩ :=
      skipBadReserved_spec bad (limit - reserved) reserved below le_rfl
    simp only [below, if_true] at found ⊢
    split at found
    · rename_i flag
      have spareEq := Option.some.inj found
      rw [if_pos flag, ← spareEq]
      exact ⟨⟨further, (inside flag).1, (inside flag).2, skipped⟩, rfl⟩
    · cases found
  · cases found

theorem reserveBlock_none {bad : Nat → Bool} {limit reserved : Nat} (within : reserved ≤ limit)
    (notFound : (reserveBlock bad limit reserved).2 = none) :
    (reserveBlock bad limit reserved).1 = limit ∧
      ∀ blockNo, reserved ≤ blockNo → blockNo < limit → bad blockNo = true := by
  unfold reserveBlock at notFound ⊢
  split at notFound
  · rename_i below
    obtain ⟨-, skipped, -, exhausted⟩ :=
      skipBadReserved_spec bad (limit - reserved) reserved below le_rfl
    simp only [below, if_true] at notFound ⊢
    split at notFound
    · cases notFound
    · rename_i flag
      have cursor := exhausted (by simpa using flag)
      rw [if_neg flag]
      refine ⟨cursor, fun blockNo atLeast before => skipped blockNo atLeast ?_⟩
      rwa [cursor]
  · rename_i notBelow
    rw [if_neg notBelow]
    exact ⟨by omega, fun blockNo atLeast before => by omega⟩

/-! ## Counting blocks -/

def badBelow (bad : Nat → Bool) (blockNo : Nat) : Nat := Nat.count (bad · = true) blockNo

def goodBelow (bad : Nat → Bool) (blockNo : Nat) : Nat := Nat.count (bad · = false) blockNo

section Counting

variable {bad : Nat → Bool} {blockNo blockNo' : Nat}

theorem badBelow_succ_of_bad (isBad : bad blockNo = true) :
    badBelow bad (blockNo + 1) = badBelow bad blockNo + 1 := by
  simp [badBelow, Nat.count_succ, isBad]

theorem badBelow_succ_of_good (good : bad blockNo = false) :
    badBelow bad (blockNo + 1) = badBelow bad blockNo := by
  simp [badBelow, Nat.count_succ, good]

theorem goodBelow_succ_of_good (good : bad blockNo = false) :
    goodBelow bad (blockNo + 1) = goodBelow bad blockNo + 1 := by
  simp [goodBelow, Nat.count_succ, good]

theorem goodBelow_mono (bad : Nat → Bool) (le : blockNo ≤ blockNo') :
    goodBelow bad blockNo ≤ goodBelow bad blockNo' :=
  Nat.count_monotone _ le

theorem goodBelow_eq_of_bad (le : blockNo ≤ blockNo')
    (between : ∀ other, blockNo ≤ other → other < blockNo' → bad other = true) :
    goodBelow bad blockNo' = goodBelow bad blockNo := by
  induction blockNo', le using Nat.le_induction with
  | base => rfl
  | succ last atLeast ih =>
    have lastBad := between last atLeast (Nat.lt_succ_self last)
    rw [← ih fun other start stop => between other start (Nat.lt_succ_of_lt stop)]
    simp [goodBelow, Nat.count_succ, lastBad]

end Counting

/-! ## One LUN -/

/-- The remapping of the LUN whose blocks lie between `first` and `limit`, once the loop has
passed its first `count` blocks and left `unreplaced` bad ones without a spare block. -/
structure LunRemap (bad : Nat → Bool) (first user limit count : Nat) (remapped : Nat → Nat)
    (reserved unreplaced : Nat) : Prop where
  spares : first + user ≤ reserved
  within : reserved ≤ limit
  ahead : ∀ offset < user, count ≤ offset → remapped (first + offset) = first + offset
  place : ∀ offset < user, remapped (first + offset) = first + offset ∨
    first + user ≤ remapped (first + offset) ∧ remapped (first + offset) < reserved ∧
      bad (remapped (first + offset)) = false
  distinct : ∀ offset < user, ∀ offset' < user,
    remapped (first + offset) = remapped (first + offset') → offset = offset'
  counted : unreplaced =
    (List.range count).countP fun offset => bad (remapped (first + offset))
  -- every good block the cursor has passed replaces a bad one
  balance : unreplaced + goodBelow bad reserved + badBelow bad first =
    goodBelow bad (first + user) + badBelow bad (first + count)
  exhausted : 0 < unreplaced → reserved = limit

namespace LunRemap

variable {bad : Nat → Bool} {first user limit count reserved unreplaced : Nat}
  {remapped : Nat → Nat}

theorem start (bad : Nat → Bool) {first user limit : Nat} (fits : first + user ≤ limit) :
    LunRemap bad first user limit 0 id (first + user) 0 where
  spares := le_rfl
  within := fits
  ahead _ _ _ := rfl
  place _ _ := .inl rfl
  distinct := by
    intro offset _ offset' _ same
    simpa using same
  counted := rfl
  balance := by rw [zero_add, add_zero]
  exhausted := by simp

section

variable (lun : LunRemap bad first user limit count remapped reserved unreplaced)
include lun

theorem update_outside (passed : count ≤ user) {blockNo spare : Nat}
    (outside : ∀ offset < user, first + offset ≠ blockNo) :
    LunRemap bad first user limit count (update remapped blockNo spare) reserved
      unreplaced := by
  have same : ∀ offset < user, update remapped blockNo spare (first + offset) =
      remapped (first + offset) :=
    fun offset bound => update_of_ne (outside offset bound) _ _
  refine ⟨lun.spares, lun.within, ?_, ?_, ?_, ?_, lun.balance, lun.exhausted⟩
  · intro offset bound later
    rw [same offset bound]
    exact lun.ahead offset bound later
  · intro offset bound
    rw [same offset bound]
    exact lun.place offset bound
  · intro offset bound offset' bound' equal
    rw [same offset bound, same offset' bound'] at equal
    exact lun.distinct offset bound offset' bound' equal
  · rw [lun.counted]
    apply List.countP_congr
    intro offset member
    rw [same offset (by have := List.mem_range.mp member; omega)]

theorem keep (bound : count < user) (good : bad (first + count) = false) :
    LunRemap bad first user limit (count + 1) remapped reserved unreplaced := by
  refine ⟨lun.spares, lun.within, fun offset below later => lun.ahead offset below (by omega),
    lun.place, lun.distinct, ?_, ?_, lun.exhausted⟩
  · rw [List.range_succ, List.countP_append, ← lun.counted, List.countP_singleton,
      lun.ahead count bound le_rfl, good]
    rfl
  · rw [← Nat.add_assoc, badBelow_succ_of_good good]
    exact lun.balance

/-- A bad block for which no spare block is left keeps its place and is counted. -/
theorem unreplace (bound : count < user) (isBad : bad (first + count) = true)
    (noneLeft : ∀ blockNo, reserved ≤ blockNo → blockNo < limit → bad blockNo = true) :
    LunRemap bad first user limit (count + 1) remapped limit (unreplaced + 1) := by
  refine ⟨lun.spares.trans lun.within, le_rfl,
    fun offset below later => lun.ahead offset below (by omega), ?_, lun.distinct, ?_, ?_,
    fun _ => rfl⟩
  · intro offset below
    rcases lun.place offset below with kept | ⟨spare, taken, good⟩
    · exact .inl kept
    · exact .inr ⟨spare, lt_of_lt_of_le taken lun.within, good⟩
  · rw [List.range_succ, List.countP_append, ← lun.counted, List.countP_singleton,
      lun.ahead count bound le_rfl, isBad]
    rfl
  · have balance := lun.balance
    rw [← Nat.add_assoc, badBelow_succ_of_bad isBad, goodBelow_eq_of_bad lun.within noneLeft]
    omega

theorem replace (bound : count < user) (isBad : bad (first + count) = true) {spare : Nat}
    (next : reserved ≤ spare ∧ spare < limit ∧ bad spare = false ∧
      ∀ blockNo, reserved ≤ blockNo → blockNo < spare → bad blockNo = true) :
    LunRemap bad first user limit (count + 1)
      (update remapped (first + count) spare) (spare + 1) unreplaced := by
  obtain ⟨fresh, inLun, good, skipped⟩ := next
  have spares := lun.spares
  have updated : update remapped (first + count) spare (first + count) = spare :=
    update_self ..
  have same : ∀ offset, offset ≠ count → update remapped (first + count) spare (first + offset) =
        remapped (first + offset) :=
    fun offset different => update_of_ne (by omega) _ _
  -- no user block was sent to a block at or behind the cursor
  have unused : ∀ offset < user, remapped (first + offset) ≠ spare := by
    intro offset below
    rcases lun.place offset below with kept | taken <;> omega
  refine ⟨by omega, inLun, ?_, ?_, ?_, ?_, ?_, ?_⟩
  · intro offset below later
    rw [same offset (by omega)]
    exact lun.ahead offset below (by omega)
  · intro offset below
    rcases eq_or_ne offset count with rfl | different
    · rw [updated]
      exact .inr ⟨by omega, by omega, good⟩
    · rw [same offset different]
      rcases lun.place offset below with kept | ⟨spare, taken, spareGood⟩
      · exact .inl kept
      · exact .inr ⟨spare, by omega, spareGood⟩
  · intro offset below offset' below' equal
    rcases eq_or_ne offset count with rfl | different <;>
      rcases eq_or_ne offset' offset with rfl | different'
    · rfl
    · rw [updated, same offset' different'] at equal
      exact absurd equal.symm (unused offset' below')
    · rfl
    · rw [same offset different] at equal
      rcases eq_or_ne offset' count with rfl | later
      · rw [updated] at equal
        exact absurd equal (unused offset below)
      · rw [same offset' later] at equal
        exact lun.distinct offset below offset' below' equal
  · rw [List.range_succ, List.countP_append, List.countP_singleton, updated, good, lun.counted]
    apply List.countP_congr
    intro offset member
    rw [same offset (by have := List.mem_range.mp member; omega)]
  · have balance := lun.balance
    rw [← Nat.add_assoc, badBelow_succ_of_bad isBad, goodBelow_succ_of_good good,
      goodBelow_eq_of_bad fresh skipped]
    omega
  · intro some
    have := lun.exhausted some
    omega

end

/-- After the loop, as many bad blocks are left as there are more of them than good spares. -/
theorem unreplaced_eq (lun : LunRemap bad first user limit user remapped reserved unreplaced) :
    unreplaced = (badBelow bad (first + user) - badBelow bad first) -
      (goodBelow bad limit - goodBelow bad (first + user)) := by
  have balance := lun.balance
  have passed := goodBelow_mono bad lun.spares
  have ahead := goodBelow_mono bad lun.within
  rcases Nat.eq_zero_or_pos unreplaced with none | some
  · omega
  · have cursor := lun.exhausted some
    subst cursor
    omega

end LunRemap

/-! ## The two LUNs of a die -/

namespace DieRemap

def Passed (geo : Geometry) (bad : Nat → Bool) (count0 count1 : Nat) (remap : DieRemap) : Prop :=
  ∃ unreplaced0 unreplaced1,
    LunRemap bad 0 geo.userBlocksPerLun geo.totalBlocksPerLun count0 remap.remappedPhyBlock
      remap.reservedBlockOfLun0 unreplaced0 ∧
    LunRemap bad geo.totalBlocksPerLun geo.userBlocksPerLun geo.totalBlocksPerDie count1
      remap.remappedPhyBlock remap.reservedBlockOfLun1 unreplaced1 ∧
    remap.badBlockCount = unreplaced0 + unreplaced1

variable {geo : Geometry} {bad : Nat → Bool} {count count0 count1 : Nat} {remap : DieRemap}

theorem Passed.remapLun0 (passed : remap.Passed geo bad count count1)
    (bound : count < geo.userBlocksPerLun) (bound1 : count1 ≤ geo.userBlocksPerLun) :
    (remap.remapLun0 geo bad count).Passed geo bad (count + 1) count1 := by
  obtain ⟨unreplaced0, unreplaced1, lun0, lun1, total⟩ := passed
  have blocksLe := geo.blocks_le
  unfold DieRemap.remapLun0
  split
  · rename_i isBad
    cases reserved : (reserveBlock bad geo.totalBlocksPerLun remap.reservedBlockOfLun0).2 with
    | none =>
      obtain ⟨cursor, noneLeft⟩ := reserveBlock_none lun0.within reserved
      simp only [reserved, cursor, DieRemap.remap]
      refine ⟨unreplaced0 + 1, unreplaced1,
        lun0.unreplace bound (by simpa using isBad) noneLeft, lun1, ?_⟩
      simp only [total]
      omega
    | some spare =>
      obtain ⟨next, cursor⟩ := reserveBlock_some reserved
      have replaced := lun0.replace bound (by simpa using isBad) next
      simp only [reserved, cursor, DieRemap.remap]
      rw [zero_add] at replaced
      exact ⟨unreplaced0, unreplaced1, replaced,
        lun1.update_outside bound1 (by intros; omega), total⟩
  · rename_i good
    exact ⟨unreplaced0, unreplaced1, lun0.keep bound (by simpa using good), lun1, total⟩

theorem Passed.remapLun1 (passed : remap.Passed geo bad count0 count)
    (bound0 : count0 ≤ geo.userBlocksPerLun) (bound : count < geo.userBlocksPerLun) :
    (remap.remapLun1 geo bad count).Passed geo bad count0 (count + 1) := by
  obtain ⟨unreplaced0, unreplaced1, lun0, lun1, total⟩ := passed
  have blocksLe := geo.blocks_le
  unfold DieRemap.remapLun1
  rw [Nat.add_comm count geo.totalBlocksPerLun]
  split
  · rename_i isBad
    cases reserved : (reserveBlock bad geo.totalBlocksPerDie remap.reservedBlockOfLun1).2 with
    | none =>
      obtain ⟨cursor, noneLeft⟩ := reserveBlock_none lun1.within reserved
      simp only [reserved, cursor, DieRemap.remap]
      refine ⟨unreplaced0, unreplaced1 + 1, lun0, lun1.unreplace bound isBad noneLeft, ?_⟩
      simp only [total]
      omega
    | some spare =>
      obtain ⟨next, cursor⟩ := reserveBlock_some reserved
      have replaced := lun1.replace bound isBad next
      simp only [reserved, cursor, DieRemap.remap]
      exact ⟨unreplaced0, unreplaced1, lun0.update_outside bound0 (by intros; omega),
        replaced, total⟩
  · rename_i good
    exact ⟨unreplaced0, unreplaced1, lun0, lun1.keep bound (by simpa using good), total⟩

end DieRemap

theorem remapBadBlock_passed (geo : Geometry) (bad : Nat → Bool) :
    (remapBadBlock geo bad).Passed geo bad geo.userBlocksPerLun geo.userBlocksPerLun := by
  have loop : ∀ count ≤ geo.userBlocksPerLun,
      DieRemap.Passed geo bad count count
        ((List.range count).foldl
          (fun remap blockNo => (remap.remapLun0 geo bad blockNo).remapLun1 geo bad blockNo)
          ⟨id, geo.userBlocksPerLun, geo.totalBlocksPerLun + geo.userBlocksPerLun, 0⟩) := by
    intro count
    induction count with
    | zero =>
      intro _
      have blocksLe := geo.blocks_le
      have fits0 : 0 + geo.userBlocksPerLun ≤ geo.totalBlocksPerLun := by omega
      have fits1 : geo.totalBlocksPerLun + geo.userBlocksPerLun ≤ geo.totalBlocksPerDie := by
        unfold Geometry.totalBlocksPerDie
        omega
      have lun0 := LunRemap.start bad fits0
      rw [zero_add] at lun0
      exact ⟨0, 0, lun0, LunRemap.start bad fits1, rfl⟩
    | succ count ih =>
      intro bound
      rw [List.range_succ, List.foldl_append]
      exact ((ih (by omega)).remapLun0 (by omega) (by omega)).remapLun1 (by omega) (by omega)
  exact loop _ le_rfl

/-! ## Virtual blocks -/

def physicalBlock (geo : Geometry) (bad : Nat → Bool) (virtualBlockNo : Nat) : Nat :=
  (remapBadBlock geo bad).remappedPhyBlock (geo.vblock2PblockOfTbs virtualBlockNo)

section VirtualBlocks

variable {geo : Geometry} {bad : Nat → Bool} {virtualBlockNo : Nat}

theorem vblock2PblockOfTbs_lun0 (inLun0 : virtualBlockNo < geo.userBlocksPerLun) :
    geo.vblock2PblockOfTbs virtualBlockNo = 0 + virtualBlockNo := by
  simp [Geometry.vblock2PblockOfTbs, Nat.div_eq_of_lt inLun0, Nat.mod_eq_of_lt inLun0]

theorem vblock2PblockOfTbs_lun1 {offset : Nat} (inLun1 : offset < geo.userBlocksPerLun) :
    geo.vblock2PblockOfTbs (geo.userBlocksPerLun + offset) = geo.totalBlocksPerLun + offset := by
  simp [Geometry.vblock2PblockOfTbs, Nat.add_div_left, geo.blocks_pos, Nat.div_eq_of_lt inLun1,
    Nat.mod_eq_of_lt inLun1]

theorem lun_cases (bound : virtualBlockNo < geo.userBlocksPerDie) :
    virtualBlockNo < geo.userBlocksPerLun ∨
      ∃ offset < geo.userBlocksPerLun, virtualBlockNo = geo.userBlocksPerLun + offset := by
  unfold Geometry.userBlocksPerDie at bound
  rcases Nat.lt_or_ge virtualBlockNo geo.userBlocksPerLun with inLun0 | inLun1
  · exact .inl inLun0
  · exact .inr ⟨virtualBlockNo - geo.userBlocksPerLun, by omega, by omega⟩

theorem physicalBlock_lun0 (bad : Nat → Bool) (inLun0 : virtualBlockNo < geo.userBlocksPerLun) :
    physicalBlock geo bad virtualBlockNo < geo.totalBlocksPerLun := by
  obtain ⟨_, _, lun0, -, -⟩ := remapBadBlock_passed geo bad
  have blocksLe := geo.blocks_le
  rw [physicalBlock, vblock2PblockOfTbs_lun0 inLun0]
  have within := lun0.within
  rcases lun0.place virtualBlockNo inLun0 with kept | taken <;> omega

theorem physicalBlock_lun1 (bad : Nat → Bool) {offset : Nat}
    (inLun1 : offset < geo.userBlocksPerLun) :
    geo.totalBlocksPerLun ≤ physicalBlock geo bad (geo.userBlocksPerLun + offset) ∧
      physicalBlock geo bad (geo.userBlocksPerLun + offset) < geo.totalBlocksPerDie := by
  obtain ⟨_, _, -, lun1, -⟩ := remapBadBlock_passed geo bad
  have blocksLe := geo.blocks_le
  have within := lun1.within
  unfold Geometry.totalBlocksPerDie at within ⊢
  rw [physicalBlock, vblock2PblockOfTbs_lun1 inLun1]
  rcases lun1.place offset inLun1 with kept | taken <;> omega

theorem physicalBlock_inj {virtualBlockNo' : Nat} (bound : virtualBlockNo < geo.userBlocksPerDie)
    (bound' : virtualBlockNo' < geo.userBlocksPerDie)
    (same : physicalBlock geo bad virtualBlockNo = physicalBlock geo bad virtualBlockNo') :
    virtualBlockNo = virtualBlockNo' := by
  obtain ⟨_, _, lun0, lun1, -⟩ := remapBadBlock_passed geo bad
  rcases lun_cases bound with inLun0 | ⟨offset, inLun1, rfl⟩ <;>
    rcases lun_cases bound' with inLun0' | ⟨offset', inLun1', rfl⟩
  · rw [physicalBlock, physicalBlock, vblock2PblockOfTbs_lun0 inLun0,
      vblock2PblockOfTbs_lun0 inLun0'] at same
    exact lun0.distinct _ inLun0 _ inLun0' same
  · have := physicalBlock_lun0 bad inLun0
    have := physicalBlock_lun1 bad inLun1'
    omega
  · have := physicalBlock_lun0 bad inLun0'
    have := physicalBlock_lun1 bad inLun1
    omega
  · rw [physicalBlock, physicalBlock, vblock2PblockOfTbs_lun1 inLun1,
      vblock2PblockOfTbs_lun1 inLun1'] at same
    rw [lun1.distinct _ inLun1 _ inLun1' same]

/-- `badBlockCount` is the number of virtual blocks that stay bad. -/
theorem badBlockCount_eq (geo : Geometry) (bad : Nat → Bool) :
    (remapBadBlock geo bad).badBlockCount =
      (List.range geo.userBlocksPerDie).countP fun virtualBlockNo =>
        bad (physicalBlock geo bad virtualBlockNo) := by
  obtain ⟨_, _, lun0, lun1, total⟩ := remapBadBlock_passed geo bad
  have split : geo.userBlocksPerDie = geo.userBlocksPerLun + geo.userBlocksPerLun := by
    unfold Geometry.userBlocksPerDie
    omega
  rw [total, lun0.counted, lun1.counted, split, List.range_add, List.countP_append,
    List.countP_map]
  congr 1
  · apply List.countP_congr
    intro virtualBlockNo member
    rw [physicalBlock, vblock2PblockOfTbs_lun0 (List.mem_range.mp member)]
  · apply List.countP_congr
    intro offset member
    rw [Function.comp_apply, physicalBlock, vblock2PblockOfTbs_lun1 (List.mem_range.mp member)]

/-- The bad user blocks of a die for which its LUN has no good spare block. -/
def unreplacedBlocks (geo : Geometry) (bad : Nat → Bool) : Nat :=
  badBelow bad geo.userBlocksPerLun -
      (goodBelow bad geo.totalBlocksPerLun - goodBelow bad geo.userBlocksPerLun) +
    (badBelow bad (geo.totalBlocksPerLun + geo.userBlocksPerLun) -
        badBelow bad geo.totalBlocksPerLun -
      (goodBelow bad geo.totalBlocksPerDie -
        goodBelow bad (geo.totalBlocksPerLun + geo.userBlocksPerLun)))

theorem badBlockCount_eq_unreplacedBlocks (geo : Geometry) (bad : Nat → Bool) :
    (remapBadBlock geo bad).badBlockCount = unreplacedBlocks geo bad := by
  obtain ⟨_, _, lun0, lun1, total⟩ := remapBadBlock_passed geo bad
  have none : badBelow bad 0 = 0 := Nat.count_zero _
  rw [total, lun0.unreplaced_eq, lun1.unreplaced_eq, zero_add, none, Nat.sub_zero]
  rfl

/-- `InitBlockMap` marks exactly the virtual blocks bad whose physical block is. -/
theorem initBlockMap_bad {remapped : Nat → Nat} (bound : virtualBlockNo < geo.userBlocksPerDie) :
    ((DieMap.initBlockMap geo bad remapped).block virtualBlockNo).bad =
      bad (remapped (geo.vblock2PblockOfTbs virtualBlockNo)) := by
  have loop : ∀ count, virtualBlockNo < count →
      (((List.range count).foldl (DieMap.initBlock geo bad remapped) DieMap.initial).block
        virtualBlockNo).bad = bad (remapped (geo.vblock2PblockOfTbs virtualBlockNo)) := by
    intro count
    induction count with
    | zero =>
      intro below
      omega
    | succ count ih =>
      intro below
      rw [List.range_succ, List.foldl_append, List.foldl_cons, List.foldl_nil,
        DieMap.initBlock]
      rcases eq_or_ne virtualBlockNo count with rfl | different
      · split <;> simp_all [DieMap.setBlock, DieMap.putToFbList]
      · have := ih (by omega)
        split <;> simpa [DieMap.setBlock, DieMap.putToFbList, different] using this
  exact loop _ bound

end VirtualBlocks

end RwRbuf.Firmware
