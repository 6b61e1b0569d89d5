import Mathlib.Data.List.Induction
import Mathlib.Logic.Function.Basic
import Mathlib.Tactic.Ring
import RwRbuf.Firmware.RowAddress

/-! # The bad-block table in flash

At shutdown the firmware writes one byte per physical block into a block of each die, and at
start-up it reads the bytes back.  Table and pages lie in one stretch of memory for each die:
a page takes its data region and the spare region behind it.  Writer and reader go through the
pages of the table with loops of their own.

The number of blocks per die, the number of dies and the address of the stretches are free.
A flash page that is programmed twice holds the bits that are set both times.
-/

namespace RwRbuf.Firmware.BadBlockTable

open Function

def bytesPerDataRegionOfPage : Nat := 16384

def bytesPerSpareRegionOfPage : Nat := 256

/-- `tempBbtBufEntrySize`: a page in memory, its spare region behind its data region. -/
def tempBbtBufEntrySize : Nat := bytesPerDataRegionOfPage + bytesPerSpareRegionOfPage

/-- `START_PAGE_NO_OF_BAD_BLOCK_TABLE_BLOCK` -/
def startPageNoOfBadBlockTableBlock : Nat := 1

def plsbPage2Vpage (pageNo : Nat) : Nat := if pageNo > 0 then (pageNo + 1) / 2 else 0

inductive DieState
  | badBlockTableNotExist
  | badBlockTableExist
  | badBlockTableHold
  | badBlockTableUpdate
deriving DecidableEq, Repr

abbrev Memory : Type := Nat → BitVec 8

abbrev TableBlock : Type := Nat → Nat → BitVec 8

abbrev Flash : Type := Nat → TableBlock

def erasedBlock : TableBlock := fun _ _ => 0xff

def programPage (block : TableBlock) (page : Nat) (memory : Memory) (addr : Nat) : TableBlock :=
  update block page fun offset => block page offset &&& memory (addr + offset)

def readPage (memory : Memory) (addr : Nat) (block : TableBlock) (page : Nat) : Memory :=
  fun address =>
    if addr ≤ address ∧ address < addr + tempBbtBufEntrySize then block page (address - addr)
    else memory address

/-- What the table knows of a die: `bbtInfoMap` and the bad marks of `phyBlockMap`. -/
structure DieInfo where
  phyBlock : Nat
  grownBadUpdateBooked : Bool
  bad : Nat → Bool

section Table

variable (dies totalBlocksPerDie tempBufAddr : Nat)

/-- `USED_PAGES_FOR_BAD_BLOCK_TABLE_PER_DIE` -/
def usedPagesForBadBlockTablePerDie : Nat := totalBlocksPerDie / bytesPerDataRegionOfPage + 1

def tempBbtBufAddr (dieNo : Nat) : Nat :=
  tempBufAddr + dieNo * usedPagesForBadBlockTablePerDie totalBlocksPerDie * tempBbtBufEntrySize

/-- One round of `SaveBadBlockTable`, for one die. -/
def saveDie (memory : Memory) (loop page : Nat) (flash : Flash) (dieNo : Nat) : TableBlock :=
  programPage (if loop = 0 then erasedBlock else flash dieNo) page memory
    (tempBbtBufAddr totalBlocksPerDie tempBufAddr dieNo + loop * tempBbtBufEntrySize)

/-- One round of `SaveBadBlockTable`. -/
def saveRound (dieState : Nat → DieState) (memory : Memory) (loop page : Nat) (flash : Flash) :
    Flash :=
  (List.range dies).foldl
    (fun flash dieNo =>
      if dieState dieNo = .badBlockTableNotExist ∨ dieState dieNo = .badBlockTableUpdate then
        update flash dieNo
          (saveDie totalBlocksPerDie tempBufAddr memory loop page flash dieNo)
      else flash)
    flash

/-- The loop of `SaveBadBlockTable`: `tempPage` stays and `dataSize` is also incremented. -/
def saveLoop (dieState : Nat → DieState) (memory : Memory) (tempPage : Nat) (dataSize : Int)
    (loop : Nat) (flash : Flash) : Flash :=
  if 0 < dataSize then
    saveLoop dieState memory tempPage (dataSize + 1 - bytesPerDataRegionOfPage) (loop + 1)
      (saveRound dies totalBlocksPerDie tempBufAddr dieState memory loop
        (vpage2PlsbPage tempPage) flash)
  else flash
termination_by dataSize.toNat
decreasing_by
  simp only [bytesPerDataRegionOfPage]
  omega

def saveBadBlockTable (dieState : Nat → DieState) (memory : Memory) (flash : Flash) : Flash :=
  saveLoop dies totalBlocksPerDie tempBufAddr dieState memory
    (plsbPage2Vpage startPageNoOfBadBlockTableBlock) totalBlocksPerDie 0 flash

/-- One round of `ReadBadBlockTable`. -/
def readRound (flash : Flash) (loop page : Nat) (memory : Memory) : Memory :=
  (List.range dies).foldl
    (fun memory dieNo =>
      readPage memory
        (tempBbtBufAddr totalBlocksPerDie tempBufAddr dieNo + loop * tempBbtBufEntrySize)
        (flash dieNo) page)
    memory

/-- The loop of `ReadBadBlockTable`. -/
def readLoop (flash : Flash) (dataSize : Int) (loop tempPage : Nat) (memory : Memory) : Memory :=
  if 0 < dataSize then
    readLoop flash (dataSize - bytesPerDataRegionOfPage) (loop + 1) (tempPage + 1)
      (readRound dies totalBlocksPerDie tempBufAddr flash loop (vpage2PlsbPage tempPage) memory)
  else memory
termination_by dataSize.toNat
decreasing_by
  simp only [bytesPerDataRegionOfPage]
  omega

def readBadBlockTable (flash : Flash) (memory : Memory) : Memory :=
  readLoop dies totalBlocksPerDie tempBufAddr flash totalBlocksPerDie 0
    (plsbPage2Vpage startPageNoOfBadBlockTableBlock) memory

/-- The byte of a block in a new table; the block of the table itself passes for a good one. -/
def tableByte (info : DieInfo) (phyBlockNo : Nat) : BitVec 8 :=
  if phyBlockNo ≠ info.phyBlock then (if info.bad phyBlockNo then 1 else 0) else 0

def writeTable (info : DieInfo) (addr : Nat) (memory : Memory) : Memory :=
  (List.range totalBlocksPerDie).foldl
    (fun memory phyBlockNo =>
      update memory (addr + phyBlockNo) (tableByte info phyBlockNo))
    memory

def writeTables (info : Nat → DieInfo) (memory : Memory) : Memory :=
  (List.range dies).foldl
    (fun memory dieNo =>
      if (info dieNo).grownBadUpdateBooked then
        writeTable totalBlocksPerDie (info dieNo)
          (tempBbtBufAddr totalBlocksPerDie tempBufAddr dieNo) memory
      else memory)
    memory

/-- `UpdateBadBlockTableForGrownBadBlock` -/
def updateBadBlockTableForGrownBadBlock (info : Nat → DieInfo) (memory : Memory)
    (flash : Flash) : Flash :=
  saveBadBlockTable dies totalBlocksPerDie tempBufAddr
    (fun dieNo =>
      if (info dieNo).grownBadUpdateBooked then .badBlockTableUpdate else .badBlockTableHold)
    (writeTables dies totalBlocksPerDie tempBufAddr info memory) flash

/-- The bad marks after `RecoverBadBlockTable`; `found` are those that `FindBadBlock` gives for
a die without a table. -/
def recoverBadBlockTable (found : Nat → Nat → Bool) (flash : Flash) (memory : Memory)
    (dieNo phyBlockNo : Nat) : Bool :=
  let table := readBadBlockTable dies totalBlocksPerDie tempBufAddr flash memory
  let addr := tempBbtBufAddr totalBlocksPerDie tempBufAddr dieNo
  if table addr = 0 ∨ table addr = 1 then (table (addr + phyBlockNo)).getLsbD 0
  else found dieNo phyBlockNo

end Table

/-- A byte of a table that tells the state of a block; of the block of the table itself it may
tell anything. -/
def RightByte (info : DieInfo) (phyBlockNo : Nat) (byte : BitVec 8) : Prop :=
  (byte = 0 ∨ byte = 1) ∧
    (phyBlockNo ≠ info.phyBlock → byte.getLsbD 0 = info.bad phyBlockNo)

def tablePage : Nat := vpage2PlsbPage (plsbPage2Vpage startPageNoOfBadBlockTableBlock)

/-- For any dies, marks and contents of memory and flash: the marks of a die whose table is
written, or whose table in flash is up to date, are the same after the next start. -/
def Restores (totalBlocksPerDie : Nat) : Prop :=
  ∀ (dies tempBufAddr : Nat) (info : Nat → DieInfo) (memory : Memory) (flash : Flash)
    (found : Nat → Nat → Bool) (memory' : Memory),
    ∀ dieNo < dies,
      ((info dieNo).grownBadUpdateBooked = true ∨ ∀ phyBlockNo < totalBlocksPerDie,
        RightByte (info dieNo) phyBlockNo (flash dieNo tablePage phyBlockNo)) →
      ∀ phyBlockNo < totalBlocksPerDie, phyBlockNo ≠ (info dieNo).phyBlock →
        recoverBadBlockTable dies totalBlocksPerDie tempBufAddr found
          (updateBadBlockTableForGrownBadBlock dies totalBlocksPerDie tempBufAddr info memory
            flash) memory' dieNo phyBlockNo = (info dieNo).bad phyBlockNo

/-! ## Loops that write to places of their own -/

section Places

variable {Index Place Value : Type*} {step : (Place → Value) → Index → Place → Value}
  {indices : List Index} {place : Place}

theorem foldl_keeps
    (others : ∀ index ∈ indices, ∀ contents, step contents index place = contents place)
    (contents : Place → Value) : indices.foldl step contents place = contents place := by
  induction indices generalizing contents with
  | nil => rfl
  | cons first rest induction =>
    rw [List.foldl_cons,
      induction (fun index member => others index (List.mem_cons_of_mem first member)),
      others first List.mem_cons_self]

/-- A place that only one round writes to has the value that this round gives it. -/
theorem foldl_writes {index : Index} {value : Value} (member : index ∈ indices)
    (own : ∀ contents, step contents index place = value)
    (others : ∀ other ∈ indices, other ≠ index →
      ∀ contents, step contents other place = contents place)
    (contents : Place → Value) : indices.foldl step contents place = value := by
  -- the induction is from the end: the last round has either written the place or kept it
  induction indices using List.reverseRecOn with
  | nil => cases member
  | append_singleton earlier last induction =>
    rw [List.foldl_concat]
    by_cases same : last = index
    · rw [same]
      exact own _
    · have later : index ∈ earlier := by
        obtain early | late := List.mem_append.mp member
        · exact early
        · exact absurd (List.mem_singleton.mp late).symm same
      rw [others last (List.mem_append_right earlier List.mem_cons_self) same]
      apply induction later
      intro other inside
      exact others other (List.mem_append_left [last] inside)

end Places

/-! ## The stretches of memory -/

section Memory

variable {dies totalBlocksPerDie tempBufAddr : Nat}

def stretch (totalBlocksPerDie : Nat) : Nat :=
  usedPagesForBadBlockTablePerDie totalBlocksPerDie * tempBbtBufEntrySize

theorem lt_stretch : totalBlocksPerDie < stretch totalBlocksPerDie := by
  unfold stretch usedPagesForBadBlockTablePerDie tempBbtBufEntrySize bytesPerDataRegionOfPage
    bytesPerSpareRegionOfPage
  omega

theorem tempBbtBufEntrySize_le : tempBbtBufEntrySize ≤ stretch totalBlocksPerDie := by
  unfold stretch usedPagesForBadBlockTablePerDie tempBbtBufEntrySize bytesPerDataRegionOfPage
    bytesPerSpareRegionOfPage
  omega

theorem tempBbtBufAddr_apart {dieNo other offset offset' : Nat} (distinct : dieNo ≠ other)
    (inside : offset < stretch totalBlocksPerDie) (inside' : offset' < stretch totalBlocksPerDie) :
    tempBbtBufAddr totalBlocksPerDie tempBufAddr dieNo + offset ≠
      tempBbtBufAddr totalBlocksPerDie tempBufAddr other + offset' := by
  have apart : ∀ first second, first < second →
      first * stretch totalBlocksPerDie + stretch totalBlocksPerDie ≤
        second * stretch totalBlocksPerDie := by
    intro first second before
    rw [← Nat.succ_mul]
    exact Nat.mul_le_mul_right _ before
  unfold tempBbtBufAddr
  rw [Nat.mul_assoc, Nat.mul_assoc]
  change tempBufAddr + dieNo * stretch totalBlocksPerDie + offset ≠
    tempBufAddr + other * stretch totalBlocksPerDie + offset'
  obtain before | after := Nat.lt_or_gt_of_ne distinct
  · have := apart dieNo other before
    omega
  · have := apart other dieNo after
    omega

theorem writeTable_apply {info : DieInfo} {addr phyBlockNo : Nat} {memory : Memory}
    (inside : phyBlockNo < totalBlocksPerDie) :
    writeTable totalBlocksPerDie info addr memory (addr + phyBlockNo) =
      tableByte info phyBlockNo := by
  apply foldl_writes (List.mem_range.mpr inside)
  · intro contents
    exact update_self ..
  · intro other _ distinct contents
    apply update_of_ne
    omega

theorem writeTable_of_outside {info : DieInfo} {addr address : Nat} {memory : Memory}
    (outside : ∀ phyBlockNo < totalBlocksPerDie, address ≠ addr + phyBlockNo) :
    writeTable totalBlocksPerDie info addr memory address = memory address := by
  apply foldl_keeps
  intro phyBlockNo member contents
  exact update_of_ne (outside phyBlockNo (List.mem_range.mp member)) _ _

theorem writeTables_apply {info : Nat → DieInfo} {memory : Memory} {dieNo phyBlockNo : Nat}
    (connected : dieNo < dies) (booked : (info dieNo).grownBadUpdateBooked = true)
    (inside : phyBlockNo < totalBlocksPerDie) :
    writeTables dies totalBlocksPerDie tempBufAddr info memory
        (tempBbtBufAddr totalBlocksPerDie tempBufAddr dieNo + phyBlockNo) =
      tableByte (info dieNo) phyBlockNo := by
  apply foldl_writes (List.mem_range.mpr connected)
  · intro contents
    rw [if_pos booked]
    exact writeTable_apply inside
  · intro other _ distinct contents
    split_ifs
    · apply writeTable_of_outside
      intro block blockInside
      exact tempBbtBufAddr_apart distinct.symm (inside.trans lt_stretch)
        (blockInside.trans lt_stretch)
    · rfl

/-- One round of the reader brings the page of each die to the beginning of its stretch. -/
theorem readRound_apply {flash : Flash} {page dieNo offset : Nat} {memory : Memory}
    (connected : dieNo < dies) (inside : offset < tempBbtBufEntrySize) :
    readRound dies totalBlocksPerDie tempBufAddr flash 0 page memory
        (tempBbtBufAddr totalBlocksPerDie tempBufAddr dieNo + offset) =
      flash dieNo page offset := by
  apply foldl_writes (List.mem_range.mpr connected)
  · intro contents
    rw [Nat.zero_mul, Nat.add_zero, readPage, if_pos (by omega), Nat.add_sub_cancel_left]
  · intro other _ distinct contents
    rw [Nat.zero_mul, Nat.add_zero, readPage, if_neg]
    rintro ⟨above, below⟩
    have long := @tempBbtBufEntrySize_le totalBlocksPerDie
    have apart : tempBbtBufAddr totalBlocksPerDie tempBufAddr dieNo + offset ≠
        tempBbtBufAddr totalBlocksPerDie tempBufAddr other +
          (tempBbtBufAddr totalBlocksPerDie tempBufAddr dieNo + offset -
            tempBbtBufAddr totalBlocksPerDie tempBufAddr other) :=
      tempBbtBufAddr_apart distinct.symm (Nat.lt_of_lt_of_le inside long) (by omega)
    exact apart (by omega)

end Memory

/-! ## Tables of one page -/

section OnePage

variable {dies totalBlocksPerDie tempBufAddr : Nat} {flash : Flash} {memory : Memory}

theorem rightByte_tableByte (info : DieInfo) (phyBlockNo : Nat) :
    RightByte info phyBlockNo (tableByte info phyBlockNo) := by
  unfold RightByte tableByte
  by_cases own : phyBlockNo = info.phyBlock
  · simp [own]
  · cases info.bad phyBlockNo <;> simp [own]

section

variable (positive : 0 < totalBlocksPerDie) (short : totalBlocksPerDie < bytesPerDataRegionOfPage)
include positive short

theorem saveBadBlockTable_of_lt {dieState : Nat → DieState} :
    saveBadBlockTable dies totalBlocksPerDie tempBufAddr dieState memory flash =
      saveRound dies totalBlocksPerDie tempBufAddr dieState memory 0 tablePage flash := by
  unfold saveBadBlockTable
  rw [saveLoop, if_pos (by omega), saveLoop, if_neg (by omega)]
  rfl

theorem readBadBlockTable_of_lt :
    readBadBlockTable dies totalBlocksPerDie tempBufAddr flash memory =
      readRound dies totalBlocksPerDie tempBufAddr flash 0 tablePage memory := by
  unfold readBadBlockTable
  rw [readLoop, if_pos (by omega), readLoop, if_neg (by omega)]
  rfl

end

/-- The first round erases the block of a die and programs the page. -/
theorem saveRound_zero_apply {dieState : Nat → DieState} {page dieNo offset : Nat}
    (connected : dieNo < dies) (written : dieState dieNo = .badBlockTableUpdate) :
    saveRound dies totalBlocksPerDie tempBufAddr dieState memory 0 page flash dieNo page offset =
      memory (tempBbtBufAddr totalBlocksPerDie tempBufAddr dieNo + offset) := by
  have programmed : saveRound dies totalBlocksPerDie tempBufAddr dieState memory 0 page flash
      dieNo = programPage erasedBlock page memory
        (tempBbtBufAddr totalBlocksPerDie tempBufAddr dieNo) := by
    apply foldl_writes (List.mem_range.mpr connected)
    · intro contents
      rw [if_pos (Or.inr written), update_self, saveDie, if_pos rfl, Nat.zero_mul, Nat.add_zero]
    · intro other _ distinct contents
      split_ifs
      · exact update_of_ne distinct.symm _ _
      · rfl
  rw [programmed, programPage, update_self]
  exact BitVec.allOnes_and

theorem saveRound_of_hold {dieState : Nat → DieState} {loop page dieNo : Nat}
    (held : dieState dieNo = .badBlockTableHold) :
    saveRound dies totalBlocksPerDie tempBufAddr dieState memory loop page flash dieNo =
      flash dieNo := by
  apply foldl_keeps
  intro other _ contents
  split_ifs with writes
  · apply update_of_ne
    rintro rfl
    rw [held] at writes
    obtain impossible | impossible := writes
    · cases impossible
    · cases impossible
  · rfl

/-- After the update the first bytes of the table page are right for a short table. -/
theorem rightByte_of_update {info : Nat → DieInfo} {dieNo phyBlockNo : Nat}
    (short : totalBlocksPerDie < bytesPerDataRegionOfPage) (connected : dieNo < dies)
    (current : (info dieNo).grownBadUpdateBooked = true ∨ ∀ phyBlockNo < totalBlocksPerDie,
      RightByte (info dieNo) phyBlockNo (flash dieNo tablePage phyBlockNo))
    (inside : phyBlockNo < totalBlocksPerDie) :
    RightByte (info dieNo) phyBlockNo
      (updateBadBlockTableForGrownBadBlock dies totalBlocksPerDie tempBufAddr info memory flash
        dieNo tablePage phyBlockNo) := by
  unfold updateBadBlockTableForGrownBadBlock
  rw [saveBadBlockTable_of_lt (by omega) short]
  by_cases booked : (info dieNo).grownBadUpdateBooked = true
  · rw [saveRound_zero_apply connected (if_pos booked),
      writeTables_apply connected booked inside]
    exact rightByte_tableByte _ _
  · rw [saveRound_of_hold (if_neg booked)]
    exact current.resolve_left booked phyBlockNo inside

theorem restores_of_lt (short : totalBlocksPerDie < bytesPerDataRegionOfPage) :
    Restores totalBlocksPerDie := by
  intro dies tempBufAddr info memory flash found memory' dieNo connected current phyBlockNo
    inside notTable
  have right := fun block blockInside =>
    @rightByte_of_update dies totalBlocksPerDie tempBufAddr flash memory info dieNo block short
      connected current blockInside
  generalize updateBadBlockTableForGrownBadBlock dies totalBlocksPerDie tempBufAddr info memory
    flash = written at right
  have table : ∀ block < totalBlocksPerDie,
      readBadBlockTable dies totalBlocksPerDie tempBufAddr written memory'
        (tempBbtBufAddr totalBlocksPerDie tempBufAddr dieNo + block) =
      written dieNo tablePage block := by
    intro block blockInside
    rw [readBadBlockTable_of_lt (by omega) short]
    apply readRound_apply connected
    exact blockInside.trans (short.trans_le (Nat.le_add_right _ _))
  have first := table 0 (by omega)
  rw [Nat.add_zero] at first
  unfold recoverBadBlockTable
  dsimp only
  rw [first, if_pos (right 0 (by omega)).1, table phyBlockNo inside]
  exact (right phyBlockNo inside).2 notTable

end OnePage

/-! ## Longer tables -/

section Longer

variable {dies totalBlocksPerDie tempBufAddr : Nat} {dieState : Nat → DieState}
  {memory : Memory} {flash : Flash}

theorem programPage_zero {block : TableBlock} {page programmed offset addr : Nat}
    (zero : block page offset = 0) : programPage block programmed memory addr page offset = 0 := by
  unfold programPage
  by_cases same : page = programmed
  · subst same
    rw [update_self, zero]
    exact BitVec.zero_and
  · rw [update_of_ne same]
    exact zero

theorem saveRound_zero {loop programmed dieNo page offset : Nat} (later : loop ≠ 0)
    (zero : flash dieNo page offset = 0) :
    saveRound dies totalBlocksPerDie tempBufAddr dieState memory loop programmed flash dieNo page
      offset = 0 := by
  unfold saveRound
  apply List.foldlRecOn (motive := fun contents : Flash => contents dieNo page offset = 0)
  · exact zero
  · intro contents kept other _
    split_ifs
    · by_cases same : dieNo = other
      · subst same
        rw [update_self, saveDie, if_neg later]
        exact programPage_zero kept
      · rw [update_of_ne same]
        exact kept
    · exact kept

theorem saveLoop_zero {tempPage dieNo page offset : Nat} (dataSize : Int) (loop : Nat)
    (later : loop ≠ 0) (zero : flash dieNo page offset = 0) :
    saveLoop dies totalBlocksPerDie tempBufAddr dieState memory tempPage dataSize loop flash dieNo
      page offset = 0 := by
  fun_induction saveLoop dies totalBlocksPerDie tempBufAddr dieState memory tempPage dataSize loop
      flash with
  | case1 dataSize loop flash more induction =>
    exact induction (Nat.succ_ne_zero loop) (saveRound_zero later zero)
  | case2 dataSize loop flash done => exact zero

/-- The rounds of the reader after the first leave the first page alone. -/
theorem readLoop_keeps {address : Nat} (dataSize : Int) (loop tempPage : Nat)
    (later : loop ≠ 0) (first : address < tempBbtBufEntrySize) :
    readLoop 1 totalBlocksPerDie 0 flash dataSize loop tempPage memory address =
      memory address := by
  fun_induction readLoop 1 totalBlocksPerDie 0 flash dataSize loop tempPage memory with
  | case1 dataSize loop tempPage memory more induction =>
    rw [induction (Nat.succ_ne_zero loop)]
    apply foldl_keeps
    intro dieNo _ contents
    rw [readPage, if_neg]
    have := Nat.le_mul_of_pos_left tempBbtBufEntrySize (Nat.pos_of_ne_zero later)
    omega
  | case2 dataSize loop tempPage memory done => rfl

end Longer

section Lost

variable {totalBlocksPerDie : Nat}

/-- A die with one grown bad block, block 1. -/
def grownBadDie : DieInfo where
  phyBlock := 0
  grownBadUpdateBooked := true
  bad := fun phyBlockNo => phyBlockNo == 1

/-- Memory that was cleared before the table was built. -/
def clearedMemory : Memory := fun _ => 0

def blankFlash : Flash := fun _ => erasedBlock

theorem writeTables_grownBadDie {address : Nat} (other : address ≠ 1) :
    writeTables 1 totalBlocksPerDie 0 (fun _ => grownBadDie) clearedMemory address = 0 := by
  have single : writeTables 1 totalBlocksPerDie 0 (fun _ => grownBadDie) clearedMemory =
      writeTable totalBlocksPerDie grownBadDie 0 clearedMemory := by
    simp [writeTables, tempBbtBufAddr, grownBadDie]
  rw [single]
  by_cases inside : address < totalBlocksPerDie
  · have byte := @writeTable_apply totalBlocksPerDie grownBadDie 0 address clearedMemory inside
    rw [Nat.zero_add] at byte
    rw [byte]
    simp [tableByte, grownBadDie, other]
  · rw [writeTable_of_outside]
    · rfl
    · intro phyBlockNo blockInside
      omega

/-- The second round programs the page of the first with bytes from further on in memory. -/
theorem update_grownBadDie (long : bytesPerDataRegionOfPage ≤ totalBlocksPerDie) :
    updateBadBlockTableForGrownBadBlock 1 totalBlocksPerDie 0 (fun _ => grownBadDie)
      clearedMemory blankFlash 0 tablePage 1 = 0 := by
  unfold updateBadBlockTableForGrownBadBlock saveBadBlockTable
  have positive : (0 : Int) < totalBlocksPerDie := by
    unfold bytesPerDataRegionOfPage at long
    omega
  have more : (0 : Int) < totalBlocksPerDie + 1 - bytesPerDataRegionOfPage := by omega
  rw [saveLoop, if_pos positive, saveLoop, if_pos more]
  apply saveLoop_zero _ _ (by decide)
  have cleared := @writeTables_grownBadDie totalBlocksPerDie (1 * tempBbtBufEntrySize + 1)
    (by decide)
  generalize writeTables 1 totalBlocksPerDie 0 (fun _ => grownBadDie) clearedMemory = memory
    at cleared ⊢
  generalize saveRound 1 totalBlocksPerDie 0 _ memory 0 _ blankFlash = once
  have again : saveRound 1 totalBlocksPerDie 0
      (fun dieNo => if grownBadDie.grownBadUpdateBooked then DieState.badBlockTableUpdate
        else .badBlockTableHold) memory 1 tablePage once 0 tablePage 1 =
      once 0 tablePage 1 &&& memory (1 * tempBbtBufEntrySize + 1) := by
    simp [saveRound, grownBadDie, saveDie, programPage, tempBbtBufAddr]
  rw [cleared] at again
  exact again.trans BitVec.and_zero

theorem recover_grownBadDie (long : bytesPerDataRegionOfPage ≤ totalBlocksPerDie) :
    recoverBadBlockTable 1 totalBlocksPerDie 0 (fun _ _ => false)
      (updateBadBlockTableForGrownBadBlock 1 totalBlocksPerDie 0 (fun _ => grownBadDie)
        clearedMemory blankFlash) clearedMemory 0 1 = false := by
  have byte := update_grownBadDie long
  generalize updateBadBlockTableForGrownBadBlock 1 totalBlocksPerDie 0 (fun _ => grownBadDie)
    clearedMemory blankFlash = flash at byte ⊢
  have first : tempBbtBufAddr totalBlocksPerDie 0 0 + 1 < tempBbtBufEntrySize := by
    rw [tempBbtBufAddr, Nat.zero_mul, Nat.zero_mul]
    decide
  have table : readBadBlockTable 1 totalBlocksPerDie 0 flash clearedMemory
      (tempBbtBufAddr totalBlocksPerDie 0 0 + 1) = 0 := by
    have positive : (0 : Int) < totalBlocksPerDie := by
      unfold bytesPerDataRegionOfPage at long
      omega
    unfold readBadBlockTable
    rw [readLoop, if_pos positive, readLoop_keeps _ _ _ (by decide) first]
    exact (readRound_apply (by decide) (by decide)).trans byte
  unfold recoverBadBlockTable
  dsimp only
  rw [table]
  split_ifs
  · rfl
  · rfl

end Lost

/-- The bad-block table survives a restart for every set of bad blocks if and only if it is
shorter than the data region of a page. -/
theorem restores_iff (totalBlocksPerDie : Nat) :
    Restores totalBlocksPerDie ↔ totalBlocksPerDie < bytesPerDataRegionOfPage := by
  constructor
  · intro restores
    by_contra notShort
    have long := Nat.not_lt.mp notShort
    have restored := restores 1 0 (fun _ => grownBadDie) clearedMemory blankFlash
      (fun _ _ => false) clearedMemory 0 (by decide) (Or.inl rfl) 1
      (Nat.lt_of_lt_of_le (by decide) long) (by decide)
    rw [recover_grownBadDie long] at restored
    exact absurd restored (by decide)
  · exact restores_of_lt

/-- A table of exactly one page: the writer programs the page twice. -/
theorem mark_lost_on_full_page :
    grownBadDie.bad 1 = true ∧
      recoverBadBlockTable 1 16384 0 (fun _ _ => false)
        (updateBadBlockTableForGrownBadBlock 1 16384 0 (fun _ => grownBadDie)
          clearedMemory blankFlash) clearedMemory 0 1 = false :=
  ⟨rfl, recover_grownBadDie (Nat.le_refl 16384)⟩

end RwRbuf.Firmware.BadBlockTable
