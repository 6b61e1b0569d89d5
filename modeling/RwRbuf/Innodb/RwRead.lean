import RwRbuf.Lib.Fallible
import RwRbuf.Innodb.BufBlock

/-! # Installing a page that an RW command has read

A thread that misses a page gets its block from `buf_LRU_get_free_block`, and if that
took an RW command then the frame of the block already holds the page.  The block enters
the page hash only later, in `buf_page_init_for_read`, which checks that the page is
still absent and takes the frame as it is.  Other threads may read, change, flush and
evict the page in between.

The model follows one page.  Its versions are the log sequence numbers of its changes;
`flushed` is the newest version that has ever reached storage.
-/

namespace RwRbuf.Innodb.RwRead

open Fallible

inductive Reader
  | idle
  /-- In `buf_LRU_get_free_block`, before a block is found. -/
  | searching (sync : Bool)
  /-- The RW command has read an image into the frame of its victim. -/
  | filled (sync : Bool) (image : PageImage)
  | obtained (sync : Bool) (block : BufBlock)
  /-- The block is in the page hash and fixed for input. -/
  | inserted (sync : Bool)

structure PageCache where
  storage : PageImage
  flushed : Nat
  lsn : Nat
  /-- The block in which the page hash finds the page. -/
  resident : Option BufBlock
  tablespaceDeleted : Bool
  reader : Reader

inductive Event
  | readPageLow (sync : Bool)
  | getFreeOnly (block : BufBlock)
  | deviceRead (elsewhere : PageImage)
  | removeVictim (victim : BufBlock)
  | initForRead
  | ioComplete
  | otherRead (block : BufBlock)
  | modify (clockInc : Bool)
  | flush
  | evict
  | dropTablespace
deriving DecidableEq

/-- The page that the RW command of a reader asks for: a read-ahead asks for page (0,0). -/
def requestedPage (page : PageId) (sync : Bool) : PageId := if sync then page else ⟨0, 0⟩

namespace PageCache

variable (page : PageId) (cache : PageCache)

/-- The events of the thread that reads the page. -/
def read : Event → Option PageCache
  | .readPageLow sync =>
    match cache.reader with
    | .idle => some { cache with reader := .searching sync }
    | _ => none
  -- a block of the free list has no RW flag, or its frame has been wiped
  | .getFreeOnly block =>
    match cache.reader with
    | .searching sync =>
      if block.state = .notUsed ∧
          (block.useRwCmd = false ∨ block.frame.page = BufBlock.wipedPage) then
        some { cache with reader := .obtained sync block.lruGetFreeOnly }
      else none
    | _ => none
  | .deviceRead elsewhere =>
    match cache.reader with
    | .searching sync =>
      if requestedPage page sync = page then
        some { cache with reader := .filled sync cache.storage }
      else if elsewhere.page = requestedPage page sync then
        some { cache with reader := .filled sync elsewhere }
      else none
    | _ => none
  | .removeVictim victim =>
    match cache.reader with
    | .filled sync image =>
      if victim.frame = image then
        match victim.lruBlockRemoveHashedForRwCmd true with
        | .ok block => some { cache with reader := .obtained sync block }
        | .error _ => none
      else none
    | _ => none
  | .initForRead =>
    match cache.reader with
    | .obtained sync block =>
      match block.pageInitForRead page cache.resident.isSome cache.tablespaceDeleted with
      | .inserted value =>
        some { cache with resident := some value, reader := .inserted sync }
      | .refused _ _ => some { cache with reader := .idle }
    | _ => none
  -- the rest of `buf_read_page_low`: only a frame that no RW command filled is read
  | .ioComplete =>
    match cache.reader, cache.resident with
    | .inserted sync, some block =>
      if block.useRwCmd then
        if sync then
          some { cache with
            resident := some { block.readComplete with useRwCmd := false }
            reader := .idle }
        else none
      else
        some { cache with
          resident := some { block.readComplete with frame := cache.storage }
          reader := .idle }
    | _, _ => none
  | _ => none

/-- One event.  The other threads see the page only when no input is pending on it; a
change needs the exclusive latch, a flush a dirty page and an eviction a clean one. -/
def step : Event → Option PageCache
  | .otherRead block =>
    match cache.resident with
    | none =>
      if block.state = .readyForUse then
        some { cache with
          resident := some { block.pageInit false with frame := cache.storage } }
      else none
    | some _ => none
  | .modify clockInc =>
    match cache.resident with
    | some block =>
      if block.ioFix = .none then
        some { cache with
          resident := some (block.modify (cache.lsn + 1) clockInc)
          lsn := cache.lsn + 1 }
      else none
    | none => none
  | .flush =>
    match cache.resident with
    | some block =>
      if block.flushReadyForFlush then
        some { cache with
          storage := block.frame
          flushed := max cache.flushed block.frame.version
          resident := some { block with oldestModification := 0 } }
      else none
    | none => none
  | .evict =>
    match cache.resident with
    | some block =>
      if block.oldestModification = 0 ∧ block.ioFix = .none then
        some { cache with resident := none }
      else none
    | none => none
  | .dropTablespace => some { cache with tablespaceDeleted := true }
  | event => cache.read page event

end PageCache

/-- The image of the page that the reader got by its RW command and has not installed. -/
def Reader.rwImage (page : PageId) : Reader → Option PageImage
  | .filled _ image => if image.page = page then some image else none
  | .obtained _ block =>
    if block.useRwCmd = true ∧ block.frame.page = page then some block.frame else none
  | _ => none

theorem Reader.rwImage_filled {page : PageId} {sync : Bool} {image held : PageImage} :
    (Reader.filled sync image).rwImage page = some held ↔ image.page = page ∧ image = held := by
  simp [Reader.rwImage]

theorem Reader.rwImage_obtained {page : PageId} {sync : Bool} {block : BufBlock}
    {held : PageImage} :
    (Reader.obtained sync block).rwImage page = some held ↔
      (block.useRwCmd = true ∧ block.frame.page = page) ∧ block.frame = held := by
  simp [Reader.rwImage]

namespace PageCache

variable {page : PageId} {cache cache' : PageCache}

/-- Storage holds the newest flushed version, a page that can be used is not older than
storage, and an image that is about to be installed is the one on storage. -/
structure Fresh (page : PageId) (cache : PageCache) : Prop where
  storage : cache.storage.version = cache.flushed
  flushed : cache.flushed ≤ cache.lsn
  held : ∀ image, cache.reader.rwImage page = some image → image.version = cache.flushed
  resident : ∀ block, cache.resident = some block → block.ioFix ≠ .read ∨
    block.useRwCmd = true → cache.flushed ≤ block.frame.version ∧
      block.frame.version ≤ cache.lsn

/-- Nothing is being read and the page, if it is in the pool, is not older than storage. -/
structure Initial (cache : PageCache) : Prop where
  reader : cache.reader = .idle
  storage : cache.storage.version = cache.flushed
  flushed : cache.flushed ≤ cache.lsn
  resident : ∀ block, cache.resident = some block →
    cache.flushed ≤ block.frame.version ∧ block.frame.version ≤ cache.lsn

theorem Initial.fresh (initial : cache.Initial) : cache.Fresh page where
  storage := initial.storage
  flushed := initial.flushed
  held := by simp [initial.reader, Reader.rwImage]
  resident := fun block present _ => initial.resident block present

/-- No flush of the page reaches storage while the reader holds an image of the page that
its RW command has read. -/
def NoFlushWhileHeld (page : PageId) (cache : PageCache) (event : Event) : Prop :=
  event = .flush → cache.reader.rwImage page = none

instance (page : PageId) (cache : PageCache) (event : Event) :
    Decidable (NoFlushWhileHeld page cache event) :=
  inferInstanceAs (Decidable (_ → _))

theorem Fresh.setReader (fresh : cache.Fresh page) {reader : Reader}
    (held : ∀ image, reader.rwImage page = some image → image.version = cache.flushed) :
    Fresh page { cache with reader := reader } :=
  ⟨fresh.storage, fresh.flushed, held, fresh.resident⟩

theorem removeHashed_fields {victim block : BufBlock}
    (removed : victim.lruBlockRemoveHashedForRwCmd true = .ok block) :
    block.frame = victim.frame ∧ block.useRwCmd = true := by
  unfold BufBlock.lruBlockRemoveHashedForRwCmd at removed
  simp only [Bool.not_true, Bool.false_eq_true, if_false] at removed
  split at removed
  · cases removed
  · split at removed
    · cases removed
    · split at removed
      · cases removed
      · split at removed
        · cases removed
        · cases removed
          exact ⟨rfl, rfl⟩

/-- A block enters the page hash with the RW flag only if its frame is the page itself. -/
theorem inserted_cases {block value : BufBlock} {inPool deleted : Bool}
    (inserted : block.pageInitForRead page inPool deleted = .inserted value) :
    inPool = false ∧ value.ioFix = .read ∧ value.frame = block.frame ∧
      (value.useRwCmd = true → block.useRwCmd = true ∧ block.frame.page = page) := by
  unfold BufBlock.pageInitForRead at inserted
  split at inserted
  · cases inserted
  next absent =>
    split at inserted
    · cases inserted
    · have value_eq := (BufBlock.InitForRead.inserted.inj inserted).symm
      refine ⟨by simpa using absent, by rw [value_eq], ?_, ?_⟩
      · rw [value_eq]
        split
        · split <;> rfl
        · rfl
      · intro flag
        rw [value_eq] at flag
        split at flag
        next used =>
          split at flag
          next same => exact ⟨used, same⟩
          · cases flag
        · cases flag

theorem Fresh.read (fresh : cache.Fresh page) (named : page ≠ BufBlock.wipedPage)
    {event : Event} (taken : cache.read page event = some cache') : cache'.Fresh page := by
  unfold PageCache.read at taken
  split at taken
  · split at taken
    · cases taken
      exact fresh.setReader (by simp [Reader.rwImage])
    · cases taken
  next block =>
    split at taken
    · split at taken
      next unused =>
        cases taken
        refine fresh.setReader fun image holds => ?_
        obtain ⟨⟨flag, same⟩, _⟩ := Reader.rwImage_obtained.1 holds
        rcases unused.2 with clear | wiped
        · exact absurd (clear.symm.trans flag) nofun
        · exact absurd (same.symm.trans wiped) named
      · cases taken
    · cases taken
  -- the device reads the image that is on storage now
  next elsewhere =>
    split at taken
    · split at taken
      · cases taken
        refine fresh.setReader fun image holds => ?_
        obtain ⟨_, rfl⟩ := Reader.rwImage_filled.1 holds
        exact fresh.storage
      next different =>
        split at taken
        next header =>
          cases taken
          refine fresh.setReader fun image holds => ?_
          obtain ⟨same, _⟩ := Reader.rwImage_filled.1 holds
          exact absurd (header.symm.trans same) different
        · cases taken
    · cases taken
  next victim =>
    split at taken
    next sync image position =>
      split at taken
      next frame =>
        split at taken
        next block removed =>
          cases taken
          obtain ⟨sameFrame, flag⟩ := removeHashed_fields removed
          refine fresh.setReader fun kept holds => fresh.held kept ?_
          obtain ⟨⟨_, same⟩, rfl⟩ := Reader.rwImage_obtained.1 holds
          rw [sameFrame, frame] at same ⊢
          rw [position]
          exact Reader.rwImage_filled.2 ⟨same, rfl⟩
        · cases taken
      · cases taken
    · cases taken
  · split at taken
    next sync block position =>
      split at taken
      next value inserted =>
        cases taken
        obtain ⟨_, reading, frame, viaRw⟩ := inserted_cases inserted
        refine ⟨fresh.storage, fresh.flushed, by simp [Reader.rwImage], ?_⟩
        rintro candidate ⟨⟩ (usable | flag)
        · exact absurd reading usable
        · obtain ⟨used, same⟩ := viaRw flag
          have newest := fresh.held block.frame
            (by rw [position]; exact Reader.rwImage_obtained.2 ⟨⟨used, same⟩, rfl⟩)
          rw [frame, newest]
          exact ⟨Nat.le_refl _, fresh.flushed⟩
      · cases taken
        exact fresh.setReader (by simp [Reader.rwImage])
    · cases taken
  · split at taken
    next sync block position present =>
      split at taken
      next flag =>
        split at taken
        · cases taken
          refine ⟨fresh.storage, fresh.flushed, by simp [Reader.rwImage], ?_⟩
          rintro candidate ⟨⟩ _
          exact fresh.resident block present (.inr flag)
        · cases taken
      · cases taken
        refine ⟨fresh.storage, fresh.flushed, by simp [Reader.rwImage], ?_⟩
        rintro candidate ⟨⟩ _
        rw [fresh.storage]
        exact ⟨Nat.le_refl _, fresh.flushed⟩
    · cases taken
  · cases taken

theorem Fresh.step (fresh : cache.Fresh page) (named : page ≠ BufBlock.wipedPage)
    {event : Event} (allowed : NoFlushWhileHeld page cache event)
    (taken : cache.step page event = some cache') : cache'.Fresh page := by
  unfold PageCache.step at taken
  split at taken
  · split at taken
    · split at taken
      · cases taken
        refine ⟨fresh.storage, fresh.flushed, fresh.held, ?_⟩
        rintro candidate ⟨⟩ _
        rw [fresh.storage]
        exact ⟨Nat.le_refl _, fresh.flushed⟩
      · cases taken
    · cases taken
  next clockInc =>
    split at taken
    next block present =>
      split at taken
      · cases taken
        have bound := fresh.flushed
        refine ⟨fresh.storage, by dsimp only; omega, fresh.held, ?_⟩
        rintro candidate ⟨⟩ _
        simp only [BufBlock.modify]
        omega
      · cases taken
    · cases taken
  -- a flush moves storage to the resident version, and nobody holds an image
  · split at taken
    next block present =>
      split at taken
      next ready =>
        cases taken
        have usable : block.ioFix ≠ .read := by
          intro reading
          simp [BufBlock.flushReadyForFlush, reading] at ready
        obtain ⟨newer, bound⟩ := fresh.resident block present (.inl usable)
        have newest : max cache.flushed block.frame.version = block.frame.version := by
          omega
        refine ⟨newest.symm, by simpa only [newest] using bound, ?_, ?_⟩
        · intro image holds
          exact absurd (holds.symm.trans (allowed rfl)) nofun
        · rintro candidate ⟨⟩ _
          simp only [newest]
          exact ⟨Nat.le_refl _, bound⟩
      · cases taken
    · cases taken
  · split at taken
    · split at taken
      · cases taken
        exact ⟨fresh.storage, fresh.flushed, fresh.held, nofun⟩
      · cases taken
    · cases taken
  · cases taken
    exact ⟨fresh.storage, fresh.flushed, fresh.held, fresh.resident⟩
  · exact fresh.read named taken

/-- One event of a run in which every event is allowed where it happens. -/
def Step (page : PageId) (allowed : PageCache → Event → Prop) (cache cache' : PageCache) : Prop :=
  EventStep (PageCache.step page) allowed cache cache'

/-- In every run in which no flush of the page reaches storage between the device read of
an RW command and the installation, a frame that is installed as the RW command filled it
holds the newest version of the page ever flushed. -/
theorem newest_installed_of_run {start final : PageCache}
    (named : page ≠ BufBlock.wipedPage) (initial : start.Initial)
    (run : Relation.ReflTransGen (Step page (NoFlushWhileHeld page)) start final) :
    ∀ sync block value, final.reader = .obtained sync block →
      block.pageInitForRead page final.resident.isSome final.tablespaceDeleted =
        .inserted value →
      value.useRwCmd = true → value.frame = ⟨page, final.flushed⟩ := by
  have fresh : final.Fresh page :=
    run_invariant (Fresh page) initial.fresh
      (fun _ _ before ⟨_, allowed, taken⟩ => before.step named allowed taken) run
  intro sync block value position inserted flag
  obtain ⟨_, _, frame, viaRw⟩ := inserted_cases inserted
  obtain ⟨used, same⟩ := viaRw flag
  have newest := fresh.held block.frame
    (by rw [position]; exact Reader.rwImage_obtained.2 ⟨⟨used, same⟩, rfl⟩)
  rw [frame, ← same, ← newest]

/-- A page that is only on storage. -/
def onStorage (page : PageId) : PageCache where
  storage := ⟨page, 0⟩
  flushed := 0
  lsn := 0
  resident := none
  tablespaceDeleted := false
  reader := .idle

theorem onStorage_initial (page : PageId) : (onStorage page).Initial :=
  ⟨rfl, rfl, Nat.le_refl _, nofun⟩

/-- A clean block of an unfixed page, as it is when an RW command has filled its frame. -/
def filledVictim (image : PageImage) : BufBlock where
  state := .filePage
  bufFixCount := 0
  ioFix := .none
  oldestModification := 0
  targetRwCmd := true
  useRwCmd := false
  modifyClock := 0
  lock := ⟨0, false⟩
  frame := image

/-- Another thread changes, flushes and evicts the page before an RW command reads it. -/
theorem newest_installed_undisturbed :
    ∃ final block value,
      Relation.ReflTransGen (Step ⟨51, 9⟩ (NoFlushWhileHeld ⟨51, 9⟩)) (onStorage ⟨51, 9⟩) final ∧
      final.reader = .obtained true block ∧
      block.pageInitForRead ⟨51, 9⟩ final.resident.isSome final.tablespaceDeleted =
        .inserted value ∧
      value.useRwCmd = true ∧ final.flushed = 1 ∧ value.frame = ⟨⟨51, 9⟩, final.flushed⟩ := by
  obtain ⟨final, block, value, reached, position, inserted, flag, flushed⟩ :
      ∃ final block value,
        Relation.ReflTransGen (Step ⟨51, 9⟩ (NoFlushWhileHeld ⟨51, 9⟩)) (onStorage ⟨51, 9⟩) final ∧
        final.reader = .obtained true block ∧
        block.pageInitForRead ⟨51, 9⟩ final.resident.isSome final.tablespaceDeleted =
          .inserted value ∧
        value.useRwCmd = true ∧ final.flushed = 1 :=
    ⟨_, _, _, reaches_of_runAllowed
      [.otherRead { filledVictim ⟨⟨0, 0⟩, 0⟩ with state := .readyForUse }, .modify false,
        .flush, .evict, .readPageLow true, .deviceRead ⟨⟨0, 0⟩, 0⟩,
        .removeVictim (filledVictim ⟨⟨51, 9⟩, 1⟩)] rfl, rfl, rfl, rfl, rfl⟩
  exact ⟨final, block, value, reached, position, inserted, flag, flushed,
    newest_installed_of_run (by decide) (onStorage_initial _) reached true block value
      position inserted flag⟩

/-- The page is read, changed, flushed and evicted by another thread after the device has
read it for an RW command: the older image is installed, and the change is lost. -/
theorem older_image_installed :
    ∃ (page : PageId) (start final : PageCache) (block value : BufBlock),
      start.Initial ∧ Relation.ReflTransGen (Step page fun _ _ => True) start final ∧
      final.reader = .obtained true block ∧
      block.pageInitForRead page final.resident.isSome final.tablespaceDeleted =
        .inserted value ∧
      value.useRwCmd = true ∧ value.frame = ⟨page, 0⟩ ∧ final.flushed = 1 ∧
      final.storage = ⟨page, 1⟩ :=
  ⟨⟨51, 9⟩, onStorage ⟨51, 9⟩, _, _, _, onStorage_initial _,
    reaches_of_runEvents
      [.readPageLow true, .deviceRead ⟨⟨0, 0⟩, 0⟩,
        .otherRead { filledVictim ⟨⟨0, 0⟩, 0⟩ with state := .readyForUse },
        .modify false, .flush, .evict,
        .removeVictim (filledVictim ⟨⟨51, 9⟩, 0⟩)]
      (fun _ _ _ => trivial) rfl,
    rfl, rfl, rfl, rfl, rfl, rfl⟩

end PageCache
end RwRbuf.Innodb.RwRead
