import RwRbuf.Lib.Fallible
import RwRbuf.Lib.SlotTable

/-! # The doublewrite buffer and the two ways of flushing a single page

A page that is flushed through the doublewrite buffer reserves a slot there and the completion
of its write gives the slot back.  `buf_flush_page` reserves the slot in
`buf_flush_write_block_low`; `buf_flush_page_with_rw_cmd` writes the page with an RW command
and reserves nothing.  Both writes end in `buf_page_io_complete` with the same flush type.

`Page` is the type of control blocks.  The slots below `srv_doublewrite_batch_size` belong to
the flush batches, the others to single-page flushes.
-/

namespace RwRbuf.Innodb.Doublewrite

/-- The size of the buffer and of its batch part, as `buf_dblwr_init` checks them. -/
structure Layout where
  batchSize : Nat
  size : Nat
  positive : 0 < batchSize
  inside : batchSize < size

def Layout.singleSlots (layout : Layout) : List Nat :=
  List.range' layout.batchSize (layout.size - layout.batchSize)

inductive FlushType
  | lru
  | list
  | singlePage
deriving DecidableEq, Repr

inductive DblwrAssert
  | noFreeSlot
  | notReserved
  | batchOverrun
deriving DecidableEq, Repr

structure BufDblwr (Page : Type*) where
  bufBlockArr : Nat → Option Page
  inUse : Nat → Bool
  sReserved : Nat
  firstFree : Nat
  bReserved : Nat
  batchRunning : Bool

namespace BufDblwr

variable {Page : Type*} [DecidableEq Page] (layout : Layout) (dblwr : BufDblwr Page)
  (page : Page)

/-- `buf_dblwr_init` -/
def init : BufDblwr Page where
  bufBlockArr := fun _ => none
  inUse := fun _ => false
  sReserved := 0
  firstFree := 0
  bReserved := 0
  batchRunning := false

/-- The section of `buf_dblwr_write_single_page` under the mutex; `none` is the wait for a slot
to become free. -/
def writeSinglePage : Except DblwrAssert (Option (BufDblwr Page)) :=
  if dblwr.sReserved = layout.size - layout.batchSize then .ok none
  else
    match layout.singleSlots.find? fun slot => !dblwr.inUse slot with
    | some slot =>
      .ok (some { dblwr with
        inUse := Function.update dblwr.inUse slot true
        sReserved := dblwr.sReserved + 1
        bufBlockArr := Function.update dblwr.bufBlockArr slot (some page) })
    | none => .error .noFreeSlot

/-- The section of `buf_dblwr_add_to_batch` under the mutex; `none` is the wait for the running
batch, or the call of `buf_dblwr_flush_buffered_writes` for a full one. -/
def addToBatch : Except DblwrAssert (Option (BufDblwr Page)) :=
  if layout.batchSize < dblwr.firstFree then .error .batchOverrun
  else if dblwr.batchRunning || dblwr.firstFree == layout.batchSize then .ok none
  else
    .ok (some { dblwr with
      bufBlockArr := Function.update dblwr.bufBlockArr dblwr.firstFree (some page)
      firstFree := dblwr.firstFree + 1
      bReserved := dblwr.bReserved + 1 })

/-- `buf_dblwr_flush_buffered_writes` starts the batch if there is one to start. -/
def flushBufferedWrites : BufDblwr Page :=
  if dblwr.firstFree = 0 then dblwr else { dblwr with batchRunning := true }

/-- The batch part of `buf_dblwr_update`.  The mutex is free while the last write of a batch
syncs the files, but nobody posts to a running batch. -/
def updateBatch : BufDblwr Page :=
  if dblwr.bReserved - 1 = 0 then
    { dblwr with bReserved := 0, firstFree := 0, batchRunning := false }
  else { dblwr with bReserved := dblwr.bReserved - 1 }

/-- The single-page part of `buf_dblwr_update`. -/
def updateSinglePage : Except DblwrAssert (BufDblwr Page) :=
  match layout.singleSlots.find? fun slot => dblwr.bufBlockArr slot = some page with
  | some slot =>
    .ok { dblwr with
      sReserved := dblwr.sReserved - 1
      bufBlockArr := Function.update dblwr.bufBlockArr slot none
      inUse := Function.update dblwr.inUse slot false }
  | none => .error .notReserved

/-- `buf_dblwr_update` with the doublewrite buffer in use. -/
def update : FlushType → Except DblwrAssert (BufDblwr Page)
  | .lru => .ok dblwr.updateBatch
  | .list => .ok dblwr.updateBatch
  | .singlePage => dblwr.updateSinglePage layout page

/-- What `buf_flush_write_block_low` does with the doublewrite buffer before the write. -/
def reserve : FlushType → Except DblwrAssert (Option (BufDblwr Page))
  | .singlePage => dblwr.writeSinglePage layout page
  | .lru => dblwr.addToBatch layout page
  | .list => dblwr.addToBatch layout page

end BufDblwr

inductive Write
  /-- In `buf_flush_page`, before `buf_flush_write_block_low`. -/
  | started (type : FlushType)
  /-- In `buf_flush_page_with_rw_cmd`, before the RW command. -/
  | rwStarted
  /-- The write to the data file has been posted; the flush type waits in the control block. -/
  | posted (type : FlushType)
deriving DecidableEq, Repr

structure FlushSystem (Page : Type*) where
  /-- `srv_use_doublewrite_buf` is set and `buf_dblwr` exists. -/
  useDoublewrite : Bool
  dblwr : BufDblwr Page
  writes : List (Page × Write)

inductive Event (Page : Type*)
  | flushPage (page : Page) (type : FlushType)
  | writeBlockLow (page : Page) (type : FlushType)
  | flushBufferedWrites
  | flushPageWithRwCmd (page : Page)
  | rwIo (page : Page)
  | ioComplete (page : Page) (type : FlushType)

namespace FlushSystem

variable {Page : Type*} [DecidableEq Page] (layout : Layout) (system : FlushSystem Page)

/-- The server after start-up. -/
def initial (useDoublewrite : Bool) : FlushSystem Page where
  useDoublewrite := useDoublewrite
  dblwr := .init
  writes := []

/-- The write of a page goes from one stage to the next. -/
def advance (page : Page) (stage next : Write) : FlushSystem Page :=
  { system with writes := (page, next) :: system.writes.erase (page, stage) }

/-- `buf_flush_write_complete` -/
def flushWriteComplete (page : Page) (type : FlushType) : Except DblwrAssert (FlushSystem Page) :=
  let writes := system.writes.erase (page, .posted type)
  if system.useDoublewrite then
    match system.dblwr.update layout page type with
    | .ok dblwr => .ok { system with dblwr := dblwr, writes := writes }
    | .error stop => .error stop
  else .ok { system with writes := writes }

/-- One section of a flush.  A section that has to wait, and one that a failing check stops,
is no step. -/
def step : Event Page → Option (FlushSystem Page)
  | .flushPage page type =>
    if ∀ write ∈ system.writes, write.1 ≠ page then
      some { system with writes := (page, .started type) :: system.writes }
    else none
  | .writeBlockLow page type =>
    if (page, .started type) ∈ system.writes then
      if system.useDoublewrite then
        match system.dblwr.reserve layout page type with
        | .ok (some dblwr) =>
          some { system.advance page (.started type) (.posted type) with dblwr := dblwr }
        | .ok none => none
        | .error _ => none
      else some (system.advance page (.started type) (.posted type))
    else none
  | .flushBufferedWrites => some { system with dblwr := system.dblwr.flushBufferedWrites }
  | .flushPageWithRwCmd page =>
    if ∀ write ∈ system.writes, write.1 ≠ page then
      some { system with writes := (page, .rwStarted) :: system.writes }
    else none
  | .rwIo page =>
    if (page, .rwStarted) ∈ system.writes then
      some (system.advance page .rwStarted (.posted .singlePage))
    else none
  -- the pages of a batch are written to their files once the batch runs
  | .ioComplete page type =>
    if (page, .posted type) ∈ system.writes ∧
        (type = .singlePage ∨ system.useDoublewrite = false ∨
          system.dblwr.batchRunning = true) then
      (system.flushWriteComplete layout page type).toOption
    else none

def postedPages (writes : List (Page × Write)) : List Page :=
  (writes.filter fun write => write.2 = .posted .singlePage).map Prod.fst

/-- The writes in flight whose completion looks for a reservation. -/
def awaited : List Page := if system.useDoublewrite then postedPages system.writes else []

end FlushSystem

/-! ## The reservations of a buffer -/

namespace BufDblwr

variable {Page : Type*} {layout : Layout} {dblwr after : BufDblwr Page}
  {page : Page} {pages others : List Page}

/-- The single-page slots hold exactly these pages, and the counter and the marks agree. -/
structure Holds (layout : Layout) (dblwr : BufDblwr Page) (pages : List Page) : Prop where
  filed : (SlotTable.contents layout.singleSlots dblwr.bufBlockArr).Perm pages
  marks : ∀ slot ∈ layout.singleSlots, dblwr.inUse slot = (dblwr.bufBlockArr slot).isSome
  counted : dblwr.sReserved = pages.length
  batch : dblwr.firstFree ≤ layout.batchSize

theorem nodup_singleSlots (layout : Layout) : layout.singleSlots.Nodup :=
  List.nodup_range'

theorem length_singleSlots (layout : Layout) :
    layout.singleSlots.length = layout.size - layout.batchSize :=
  List.length_range'

theorem batchSize_le_of_mem {slot : Nat} (member : slot ∈ layout.singleSlots) :
    layout.batchSize ≤ slot :=
  (List.mem_range'_1.mp member).1

theorem holds_init (layout : Layout) : Holds layout (init : BufDblwr Page) [] where
  filed := by
    have free : SlotTable.contents layout.singleSlots (init : BufDblwr Page).bufBlockArr = [] :=
      List.filterMap_eq_nil_iff.mpr fun _ _ => rfl
    rw [free]
  marks := fun _ _ => rfl
  counted := rfl
  batch := Nat.zero_le _

section

variable (holds : Holds layout dblwr pages)
include holds

theorem Holds.perm (same : pages.Perm others) : Holds layout dblwr others where
  filed := holds.filed.trans same
  marks := holds.marks
  counted := holds.counted.trans same.length_eq
  batch := holds.batch

theorem Holds.length_le : pages.length ≤ layout.size - layout.batchSize := by
  rw [← holds.filed.length_eq, ← length_singleSlots]
  exact List.length_filterMap_le _ _

/-- The marks agree with the slots after one slot changes in both. -/
theorem Holds.marks_update (slot : Nat) (content : Option Page) :
    ∀ other ∈ layout.singleSlots, Function.update dblwr.inUse slot content.isSome other =
      (Function.update dblwr.bufBlockArr slot content other).isSome := by
  intro other member
  by_cases same : other = slot
  · subst same
    rw [Function.update_self, Function.update_self]
  · rw [Function.update_of_ne same, Function.update_of_ne same]
    exact holds.marks other member

theorem Holds.batch_of_same
    (slots : ∀ slot ∈ layout.singleSlots, after.bufBlockArr slot = dblwr.bufBlockArr slot)
    (marks : after.inUse = dblwr.inUse) (counted : after.sReserved = dblwr.sReserved)
    (batch : after.firstFree ≤ layout.batchSize) : Holds layout after pages where
  filed := by
    have same : SlotTable.contents layout.singleSlots after.bufBlockArr =
        SlotTable.contents layout.singleSlots dblwr.bufBlockArr :=
      List.filterMap_congr slots
    rw [same]
    exact holds.filed
  marks := by
    intro slot member
    rw [marks, slots slot member]
    exact holds.marks slot member
  counted := counted.trans holds.counted
  batch := batch

theorem Holds.flushBufferedWrites : Holds layout dblwr.flushBufferedWrites pages := by
  unfold BufDblwr.flushBufferedWrites
  split_ifs
  · exact holds
  · exact holds.batch_of_same (fun _ _ => rfl) rfl rfl holds.batch

theorem Holds.updateBatch : Holds layout dblwr.updateBatch pages := by
  unfold BufDblwr.updateBatch
  split_ifs
  · exact holds.batch_of_same (fun _ _ => rfl) rfl rfl (Nat.zero_le _)
  · exact holds.batch_of_same (fun _ _ => rfl) rfl rfl holds.batch

/-- Posting to the batch stops on no check and keeps the reservations. -/
theorem Holds.addToBatch (page : Page) :
    ∃ result, dblwr.addToBatch layout page = .ok result ∧
      ∀ after, result = some after → Holds layout after pages := by
  unfold BufDblwr.addToBatch
  rw [if_neg (Nat.not_lt.mpr holds.batch)]
  by_cases waits : (dblwr.batchRunning || dblwr.firstFree == layout.batchSize) = true
  · rw [if_pos waits]
    refine ⟨none, rfl, ?_⟩
    intro after impossible
    cases impossible
  · rw [if_neg waits]
    refine ⟨_, rfl, ?_⟩
    rintro after ⟨⟩
    have room : dblwr.firstFree < layout.batchSize := by
      apply Nat.lt_of_le_of_ne holds.batch
      rintro full
      simp [full] at waits
    refine holds.batch_of_same ?_ rfl rfl room
    intro slot member
    apply Function.update_of_ne
    have := batchSize_le_of_mem member
    omega

/-- A single-page flush finds a slot whenever it does not have to wait. -/
theorem Holds.writeSinglePage (page : Page) :
    ∃ result, dblwr.writeSinglePage layout page = .ok result ∧
      ∀ after, result = some after → Holds layout after (page :: pages) := by
  unfold BufDblwr.writeSinglePage
  by_cases full : dblwr.sReserved = layout.size - layout.batchSize
  · rw [if_pos full]
    refine ⟨none, rfl, ?_⟩
    intro after impossible
    cases impossible
  · rw [if_neg full]
    have short : (SlotTable.contents layout.singleSlots dblwr.bufBlockArr).length <
        layout.singleSlots.length := by
      have most := holds.length_le
      rw [holds.counted] at full
      rw [holds.filed.length_eq, length_singleSlots]
      omega
    obtain ⟨free, freeMember, isFree⟩ := SlotTable.exists_free short
    have unmarked : (!dblwr.inUse free) = true := by
      rw [holds.marks free freeMember, isFree]
      rfl
    have search : (layout.singleSlots.find? fun slot => !dblwr.inUse slot).isSome = true :=
      List.find?_isSome.mpr ⟨free, freeMember, unmarked⟩
    obtain ⟨slot, found⟩ := Option.isSome_iff_exists.mp search
    rw [found]
    refine ⟨_, rfl, ?_⟩
    rintro after ⟨⟩
    have member := List.mem_of_find?_eq_some found
    have empty : dblwr.bufBlockArr slot = none := by
      have mark : dblwr.inUse slot = false := by simpa using List.find?_some found
      rw [holds.marks slot member] at mark
      simpa using mark
    exact
      { filed := (SlotTable.contents_fill (nodup_singleSlots layout) member empty page).trans
          (holds.filed.cons page)
        marks := holds.marks_update slot (some page)
        counted := congrArg Nat.succ holds.counted
        batch := holds.batch }

end

variable [DecidableEq Page]

theorem Holds.updateSinglePage (holds : Holds layout dblwr (page :: pages)) :
    ∃ after, dblwr.updateSinglePage layout page = .ok after ∧ Holds layout after pages := by
  unfold BufDblwr.updateSinglePage
  have reserved : page ∈ SlotTable.contents layout.singleSlots dblwr.bufBlockArr :=
    holds.filed.mem_iff.mpr List.mem_cons_self
  obtain ⟨own, ownMember, ownHeld⟩ := SlotTable.mem_contents.mp reserved
  have search : (layout.singleSlots.find? fun slot =>
      dblwr.bufBlockArr slot = some page).isSome = true :=
    List.find?_isSome.mpr ⟨own, ownMember, decide_eq_true ownHeld⟩
  obtain ⟨slot, found⟩ := Option.isSome_iff_exists.mp search
  rw [found]
  refine ⟨_, rfl, ?_⟩
  have member := List.mem_of_find?_eq_some found
  have held : dblwr.bufBlockArr slot = some page := by simpa using List.find?_some found
  have cleared := SlotTable.contents_clear (nodup_singleSlots layout) member held
  exact
    { filed := List.Perm.cons_inv (cleared.symm.trans holds.filed)
      marks := holds.marks_update slot none
      counted := by
        show dblwr.sReserved - 1 = pages.length
        rw [holds.counted, List.length_cons, Nat.add_sub_cancel]
      batch := holds.batch }

end BufDblwr

/-! ## Every sequence of flushes -/

namespace FlushSystem

variable {Page : Type*} {layout : Layout} {system system' : FlushSystem Page}

variable {writes : List (Page × Write)}

theorem postedPages_cons_of_ne {page : Page} {stage : Write} (other : stage ≠ .posted .singlePage) :
    postedPages ((page, stage) :: writes) = postedPages writes := by
  simp [postedPages, other]

theorem postedPages_cons (page : Page) (writes : List (Page × Write)) :
    postedPages ((page, .posted .singlePage) :: writes) = page :: postedPages writes := by
  simp [postedPages]

theorem awaited_of_off (off : system.useDoublewrite = false) : system.awaited = [] := by
  rw [awaited, if_neg (by simp [off])]

theorem awaited_of_on (on : system.useDoublewrite = true) :
    system.awaited = postedPages system.writes := by
  rw [awaited, if_pos on]

/-- An RW command flushes a page only if the doublewrite buffer is not in use. -/
def NoRwWithDoublewrite (system : FlushSystem Page) (event : Event Page) : Prop :=
  ∀ page, event = .flushPageWithRwCmd page → system.useDoublewrite = false

/-- The reservations are those of the writes in flight, and with a doublewrite buffer no RW
command is under way. -/
structure Paired (layout : Layout) (system : FlushSystem Page) : Prop where
  holds : system.dblwr.Holds layout system.awaited
  noRw : system.useDoublewrite = true → ∀ page, (page, Write.rwStarted) ∉ system.writes

theorem paired_initial (layout : Layout) (useDoublewrite : Bool) :
    Paired layout (initial useDoublewrite : FlushSystem Page) where
  holds := by
    have none : (initial useDoublewrite : FlushSystem Page).awaited = [] := by
      unfold awaited
      split_ifs <;> rfl
    rw [none]
    exact BufDblwr.holds_init layout
  noRw := by
    intro _ page member
    cases member

/-- Without the doublewrite buffer the list of writes does not matter. -/
theorem Paired.of_off (paired : Paired layout system) (off : system.useDoublewrite = false)
    (setting : system'.useDoublewrite = system.useDoublewrite)
    (same : system'.dblwr = system.dblwr) : Paired layout system' where
  holds := by
    have holds := paired.holds
    rw [awaited_of_off off] at holds
    rw [same, awaited_of_off (setting.trans off)]
    exact holds
  noRw := by
    intro on
    cases (setting.trans off).symm.trans on

/-- With the doublewrite buffer the reservations have to be those of the writes. -/
theorem Paired.of_on (on : system.useDoublewrite = true)
    (holds : system.dblwr.Holds layout (postedPages system.writes))
    (noRw : ∀ page, (page, Write.rwStarted) ∉ system.writes) : Paired layout system where
  holds := by
    rw [awaited_of_on on]
    exact holds
  noRw := fun _ => noRw

theorem Paired.holds_posted (paired : Paired layout system) (on : system.useDoublewrite = true) :
    system.dblwr.Holds layout (postedPages system.writes) := by
  rw [← awaited_of_on on]
  exact paired.holds

theorem Paired.started (paired : Paired layout system) (page : Page) (type : FlushType) :
    Paired layout { system with writes := (page, .started type) :: system.writes } := by
  by_cases on : system.useDoublewrite = true
  · apply Paired.of_on
    · exact on
    · dsimp only
      rw [postedPages_cons_of_ne (by simp)]
      exact paired.holds_posted on
    · intro other member
      exact paired.noRw on other (by simpa using member)
  · apply paired.of_off (Bool.eq_false_iff.mpr on)
    · rfl
    · rfl

variable [DecidableEq Page]

theorem postedPages_erase {write : Page × Write} (member : write ∈ writes) :
    (postedPages writes).Perm (postedPages (write :: writes.erase write)) :=
  ((List.perm_cons_erase member).filter _).map _

theorem postedPages_erase_of_ne {page : Page} {stage : Write}
    (member : (page, stage) ∈ writes) (other : stage ≠ .posted .singlePage) :
    (postedPages writes).Perm (postedPages (writes.erase (page, stage))) := by
  have moved := postedPages_erase member
  rw [postedPages_cons_of_ne other] at moved
  exact moved

/-- No RW command appears when a write goes to its last stage or ends. -/
theorem noRw_erase {write : Page × Write} {page : Page}
    {type : FlushType} (noRw : ∀ page, (page, Write.rwStarted) ∉ writes) (other : Page) :
    (other, Write.rwStarted) ∉ (page, .posted type) :: writes.erase write := by
  intro member
  obtain impossible | earlier := List.mem_cons.mp member
  · cases impossible
  · exact noRw other (List.mem_of_mem_erase earlier)

/-- A write is posted with the reservation that its type asks for. -/
theorem Paired.posted (paired : Paired layout system) {page : Page} {type : FlushType}
    {dblwr : BufDblwr Page} (on : system.useDoublewrite = true)
    (member : (page, .started type) ∈ system.writes)
    (reserved : system.dblwr.reserve layout page type = .ok (some dblwr)) :
    Paired layout
      { system.advance page (.started type) (.posted type) with dblwr := dblwr } := by
  have before : system.dblwr.Holds layout
      (postedPages (system.writes.erase (page, .started type))) :=
    (paired.holds_posted on).perm (postedPages_erase_of_ne member (by simp))
  have batch : ∀ result, system.dblwr.addToBatch layout page = .ok result →
      ∀ after, result = some after → after.Holds layout
        (postedPages (system.writes.erase (page, .started type))) := by
    intro result posted
    obtain ⟨_, same, kept⟩ := before.addToBatch page
    obtain rfl := Except.ok.inj (posted.symm.trans same)
    exact kept
  apply Paired.of_on
  · exact on
  · dsimp only [advance]
    cases type with
    | lru | list =>
      rw [postedPages_cons_of_ne (by simp)]
      exact batch _ reserved dblwr rfl
    | singlePage =>
      rw [postedPages_cons]
      obtain ⟨result, same, kept⟩ := before.writeSinglePage page
      obtain rfl := Except.ok.inj (same.symm.trans reserved)
      exact kept dblwr rfl
  · exact noRw_erase (paired.noRw on)

/-- The completion of a write finds what it looks for and leaves the other reservations. -/
theorem Paired.flushWriteComplete (paired : Paired layout system) {page : Page}
    {type : FlushType} (member : (page, .posted type) ∈ system.writes) :
    ∃ after, system.flushWriteComplete layout page type = .ok after ∧ Paired layout after := by
  unfold FlushSystem.flushWriteComplete
  by_cases on : system.useDoublewrite = true
  · rw [if_pos on]
    have rest : ∀ other, (other, Write.rwStarted) ∉ system.writes.erase (page, .posted type) :=
      fun other member => paired.noRw on other (List.mem_of_mem_erase member)
    have holds := (paired.holds_posted on).perm (postedPages_erase member)
    cases type with
    | lru | list =>
      rw [postedPages_cons_of_ne (by simp)] at holds
      exact ⟨_, rfl, Paired.of_on on holds.updateBatch rest⟩
    | singlePage =>
      rw [postedPages_cons] at holds
      obtain ⟨dblwr, updated, kept⟩ := holds.updateSinglePage
      simp only [BufDblwr.update, updated]
      exact ⟨_, rfl, Paired.of_on on kept rest⟩
  · rw [if_neg on]
    refine ⟨_, rfl, ?_⟩
    apply paired.of_off (Bool.eq_false_iff.mpr on)
    · rfl
    · rfl

theorem Paired.step (paired : Paired layout system) {event : Event Page}
    (allowed : NoRwWithDoublewrite system event)
    (taken : system.step layout event = some system') : Paired layout system' := by
  cases event with
  | flushPage page type =>
    dsimp only [FlushSystem.step] at taken
    split_ifs at taken
    cases taken
    exact paired.started page type
  | writeBlockLow page type =>
    dsimp only [FlushSystem.step] at taken
    split_ifs at taken with member on
    · split at taken
      next dblwr reserved =>
        cases taken
        exact paired.posted on member reserved
      · cases taken
      · cases taken
    · cases taken
      exact paired.of_off (Bool.eq_false_iff.mpr on) rfl rfl
  | flushBufferedWrites =>
    cases taken
    exact ⟨paired.holds.flushBufferedWrites, paired.noRw⟩
  | flushPageWithRwCmd page =>
    dsimp only [FlushSystem.step] at taken
    split_ifs at taken
    cases taken
    exact paired.of_off (allowed page rfl) rfl rfl
  | rwIo page =>
    dsimp only [FlushSystem.step] at taken
    split_ifs at taken with member
    cases taken
    have off : system.useDoublewrite = false := by
      apply Bool.eq_false_iff.mpr
      intro on
      exact paired.noRw on page member
    exact paired.of_off off rfl rfl
  | ioComplete page type =>
    dsimp only [FlushSystem.step] at taken
    split_ifs at taken with ready
    obtain ⟨after, completed, kept⟩ := paired.flushWriteComplete ready.1
    rw [completed] at taken
    cases taken
    exact kept

/-- For either setting and in every sequence of flushes in which no RW command meets the
doublewrite buffer, the reserved slots are as many as the writes that wait for one, and every
completion finds its reservation. -/
theorem reservations_match (layout : Layout) (useDoublewrite : Bool)
    (run : Relation.ReflTransGen (Fallible.EventStep (step layout) NoRwWithDoublewrite)
      (initial useDoublewrite) system) :
    system.dblwr.sReserved = system.awaited.length ∧
      ∀ page type, (page, .posted type) ∈ system.writes →
        ∃ after, system.flushWriteComplete layout page type = .ok after := by
  have paired : Paired layout system := by
    apply Fallible.run_invariant (Paired layout) (paired_initial layout useDoublewrite) ?_ run
    rintro before after paired ⟨event, allowed, taken⟩
    exact paired.step allowed taken
  refine ⟨paired.holds.counted, ?_⟩
  intro page type member
  obtain ⟨after, completed, _⟩ := paired.flushWriteComplete member
  exact ⟨after, completed⟩

/-- The sizes of a server with pages of 16 KB and the default batch size. -/
def defaultLayout : Layout := ⟨120, 128, by decide, by decide⟩

/-- A single-page flush and a batch flush up to the writes to the data files, and the
completion of another single-page flush. -/
def threeFlushes : List (Event Nat) :=
  [.flushPage 7 .singlePage, .flushPage 8 .list, .writeBlockLow 7 .singlePage,
    .flushPage 9 .singlePage, .writeBlockLow 8 .list, .writeBlockLow 9 .singlePage,
    .ioComplete 7 .singlePage, .flushBufferedWrites]

theorem reservations_match_threeFlushes :
    ∃ final, Fallible.runEvents (step defaultLayout) threeFlushes (initial true) = some final ∧
      final.dblwr.sReserved = 1 ∧ final.awaited = [9] ∧
      (final.dblwr.sReserved = final.awaited.length ∧
        ∀ page type, (page, .posted type) ∈ final.writes →
          ∃ after, final.flushWriteComplete defaultLayout page type = .ok after) := by
  have allowed : ∀ event ∈ threeFlushes, ∀ state : FlushSystem Nat,
      NoRwWithDoublewrite state event := by
    rintro event member state page rfl
    simp [threeFlushes] at member
  exact ⟨_, rfl, rfl, rfl, reservations_match defaultLayout true
    (Fallible.reaches_of_runEvents threeFlushes allowed rfl)⟩

/-- One RW command on a server that uses the doublewrite buffer. -/
theorem rwFlush_stops_server :
    ∃ final, Fallible.runEvents (step defaultLayout)
        [.flushPageWithRwCmd 7, .rwIo 7] (initial true : FlushSystem Nat) = some final ∧
      final.dblwr.sReserved = 0 ∧ final.awaited = [7] ∧
      final.flushWriteComplete defaultLayout 7 .singlePage = .error .notReserved :=
  ⟨_, rfl, rfl, rfl, rfl⟩

end FlushSystem

end RwRbuf.Innodb.Doublewrite
