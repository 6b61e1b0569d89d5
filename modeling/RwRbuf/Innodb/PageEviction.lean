import RwRbuf.Innodb.BufPool

/-! # Two ways to reuse the block of a clean page

The normal way to get a block for another page is `buf_LRU_free_page` on a clean page,
then the free list, then `buf_page_init`.  An RW command takes the block of its victim
out of the pool by a copy of the eviction routine and initialises it for the new page at
once.  The two ways leave the same pool exactly for the pages that have no adaptive hash
index and no compressed copy.
-/

namespace RwRbuf.Innodb.BufPool

open Function Fallible

variable {Block Zip Index : Type} [DecidableEq Block] [DecidableEq Zip] [DecidableEq Index]

/-! ## The two ways -/

section Ways

variable (pool : BufPool Block Zip Index)

/-- The device has written the victim and read another page into its frame, and the write
is complete. -/
def rwFill (block : Block) (image : PageImage) (contents : PageContents) :
    BufPool Block Zip Index :=
  pool.modify block fun value =>
    { value with targetRwCmd := true, frame := image, contents := contents }

/-- The block of the victim of an RW command becomes the block of the new page. -/
def reuseByRwCmd (page : PageId) (zipSize : Nat) (block : Block) (image : PageImage)
    (contents : PageContents) : Except PoolStop (BufPool Block Zip Index) := do
  let removed ← (pool.rwFill block image contents).lruBlockRemoveHashedForRwCmd block false
  removed.pageInitBlock page zipSize block

/-- The block of a clean page goes to the free list, is taken from there and becomes the
block of the new page; `none` if the page cannot be freed. -/
def reuseByFreeList (page : PageId) (zipSize : Nat) (block : Block) (zip : Bool) :
    Except PoolStop (Option (BufPool Block Zip Index)) := do
  match ← pool.lruFreePage block zip with
  | none => .ok none
  | some freed =>
    match freed.lruGetFreeOnly with
    | none => .ok none
    | some (taken, rest) => do
        let entered ← rest.pageInit page zipSize taken
        .ok (some entered)

/-- The pool without what the read of the new page sets in its block. -/
def beforeInput (block : Block) : BufPool Block Zip Index :=
  pool.modify block fun value =>
    { value with
      frame := ⟨unhashedPage, 0⟩
      contents := ⟨.other, []⟩
      useRwCmd := false }

end Ways

/-- A clean page that nobody uses, under its own name in the page hash. -/
structure CleanPage (pool : BufPool Block Zip Index) (block : Block) (page : PageId) :
    Prop where
  state : (pool.block block).state = .filePage
  notIoFixed : (pool.block block).ioFix = .none
  unfixed : (pool.block block).bufFixCount = 0
  clean : (pool.block block).oldestModification = 0
  named : (pool.block block).page = some page
  hashed : pool.pageHash page = some (.page (.block block))

/-- What the tables of a pool say about its blocks. -/
structure Tables (pool : BufPool Block Zip Index) : Prop where
  lru_nodup : pool.lru.Nodup
  unzipLru : ∀ block ∈ pool.unzipLru, (pool.block block).zip.isSome
  hashed : ∀ page block, pool.pageHash page = some (.page (.block block)) →
    (pool.block block).page = some page
  zipSize : ∀ block, (pool.block block).zip = none → (pool.block block).zipSize = 0
  hashIndex : ∀ node ∈ pool.hashIndex, (pool.block node.block).index.isSome

/-- The block has left the lists and tables as the block of the old page: it is in no list,
the page hash finds it as the new page only, its compressed copy is free or stands alone,
and no node of the adaptive hash index points into its frame. -/
structure Detached (pool after : BufPool Block Zip Index) (block : Block) (old page : PageId) :
    Prop where
  lru : .block block ∉ after.lru
  unzipLru : block ∉ after.unzipLru
  pageHash : ∀ other, after.pageHash other = some (.page (.block block)) → other = page
  zip : ∀ copy, (pool.block block).zip = some copy →
    copy ∈ after.buddyFree ∨ after.pageHash old = some (.page (.zip copy))
  hashIndex : ∀ node ∈ after.hashIndex, node.block ≠ block

variable {pool after : BufPool Block Zip Index} {block : Block} {page old : PageId}

/-! ## A page without compressed copy -/

section Plain

def withoutPage (pool : BufPool Block Zip Index) (block : Block) (old : PageId)
    (value : PoolBlock Zip Index) : BufPool Block Zip Index :=
  { pool with
    lru := pool.lru.erase (.block block)
    freedPageClock := pool.freedPageClock + 1
    pageHash := update pool.pageHash old none
    block := update pool.block block value }

/-- The pool after the block of such a page became the block of a new page. -/
def replaced (pool : BufPool Block Zip Index) (block : Block) (old page : PageId)
    (value : PoolBlock Zip Index) : BufPool Block Zip Index :=
  { pool.withoutPage block old value with
    pageHash := update (update pool.pageHash old none) page
      (some (.page (.block block))) }

omit [DecidableEq Index] in
theorem lruBlockRemoveHashedWith_plain (evictable : pool.CleanPage block old)
    (plain : (pool.block block).zip = none) (retire : PoolBlock Zip Index → PoolBlock Zip Index)
    (keeps : ∀ value, (retire value).zip = value.zip) (zip : Bool) :
    pool.lruBlockRemoveHashedWith retire block zip = .ok (pool.withoutPage block old
      (pool.forgetPage (retire
        { pool.block block with modifyClock := (pool.block block).modifyClock + 1 }))) := by
  have forgotten : ∀ (other : BufPool Block Zip Index) value,
      (other.forgetPage (retire value)).zip = value.zip := by
    intro other value
    rw [other.field_forgetPage (fun value => value.zip) (fun _ _ => rfl), keeps]
  cases zip <;>
    simp [lruBlockRemoveHashedWith, lruRemoveBlock, PoolBlock.belongsToUnzipLru, modify,
      checkEvictable, hashDelete, withoutPage, releaseZip, evictable.notIoFixed,
      evictable.unfixed, evictable.state, plain, evictable.clean, evictable.named,
      evictable.hashed, bind, Except.bind, forgotten]
  all_goals rfl

omit [DecidableEq Index] in
/-- The next change of the block of a page that has been taken out. -/
theorem modify_withoutPage (value : PoolBlock Zip Index)
    (change : PoolBlock Zip Index → PoolBlock Zip Index) :
    (pool.withoutPage block old value).modify block change =
      pool.withoutPage block old (change value) := by
  simp [withoutPage, modify]

omit [DecidableEq Index] in
theorem block_withoutPage (value : PoolBlock Zip Index) :
    (pool.withoutPage block old value).block block = value := by
  simp [withoutPage]

omit [DecidableEq Index] in
theorem pageInitWith_withoutPage (absent : ∀ ref, pool.pageHash page ≠ some (.page ref))
    (different : page ≠ old) (useRwCmd : PoolBlock Zip Index → Bool) (zipSize : Nat)
    (value : PoolBlock Zip Index) :
    (pool.withoutPage block old value).pageInitWith useRwCmd page zipSize block =
      .ok (pool.replaced block old page { value.initLow (useRwCmd value) page with
        bufFixCount := pool.watchCount page
        zipSize := if zipSize = 0 then value.zipSize else zipSize }) := by
  have lookup : (pool.withoutPage block old value).pageHash page = pool.pageHash page := by
    simp [withoutPage, different]
  have watched : (pool.withoutPage block old value).watchCount page = pool.watchCount page := by
    simp only [watchCount, lookup]
  unfold pageInitWith
  rw [lookup, watched, modify_withoutPage]
  split
  next ref found => exact absurd found (absent ref)
  · rfl

omit [DecidableEq Index] in
/-- The block that an RW command has read is initialised for the new page, whichever page
its frame holds. -/
theorem pageInitBlock_withoutPage (absent : ∀ ref, pool.pageHash page ≠ some (.page ref))
    (different : page ≠ old) (zipSize : Nat) (value : PoolBlock Zip Index)
    (ready : value.state ≠ .filePage) :
    ∃ useRwCmd, (pool.withoutPage block old value).pageInitBlock page zipSize block =
      .ok (pool.replaced block old page { value.initLow useRwCmd page with
        bufFixCount := pool.watchCount page
        zipSize := if zipSize = 0 then value.zipSize else zipSize }) := by
  unfold pageInitBlock pageInitWithRwCmd pageInit
  rw [block_withoutPage, if_neg ready]
  split <;> exact ⟨_, pageInitWith_withoutPage absent different _ zipSize value⟩

def recycled (value : PoolBlock Zip Index) : PoolBlock Zip Index :=
  { value with
    toBufBlock :=
      ({ value.toBufBlock with state := .memory }).lruBlockFreeNonFilePage.lruGetFreeOnly
    zip := none
    zipSize := 0 }

omit [DecidableEq Index] in
/-- A block without compressed copy goes to the free list and comes back from there. -/
theorem lruGetFreeOnly_of_freed (pool : BufPool Block Zip Index) (block : Block) (old : PageId)
    {value : PoolBlock Zip Index} (plain : value.zip = none) :
    ∃ freed, (pool.withoutPage block old value).lruBlockFreeHashedPage block = .ok freed ∧
      freed.lruGetFreeOnly = some (block, pool.withoutPage block old (recycled value)) := by
  refine ⟨{ pool.withoutPage block old { value with
      toBufBlock := ({ value.toBufBlock with state := .memory }).lruBlockFreeNonFilePage } with
    free := block :: pool.free }, ?_, ?_⟩
  · unfold lruBlockFreeHashedPage lruBlockFreeNonFilePage
    simp only [modify_withoutPage]
    simp [withoutPage, releaseZip, BufBlock.lruBlockFreeNonFilePage, plain]
  · simp [lruGetFreeOnly, withoutPage, modify, recycled, BufBlock.lruBlockFreeNonFilePage,
      BufBlock.lruGetFreeOnly]

def newBlock (pool : BufPool Block Zip Index) (page : PageId) (zipSize : Nat) (block : Block) :
    PoolBlock Zip Index :=
  { (pool.block block).initLow false page with
    bufFixCount := pool.watchCount page
    modifyClock := (pool.block block).modifyClock + 1
    zipSize := zipSize
    frame := ⟨unhashedPage, 0⟩
    contents := ⟨.other, []⟩ }

omit [DecidableEq Block] [DecidableEq Zip] [DecidableEq Index] in
theorem initLow_forgetPage (value : PoolBlock Zip Index) (useRwCmd : Bool) :
    (pool.forgetPage value).initLow useRwCmd page = value.initLow useRwCmd page := by
  unfold forgetPage
  split <;> rfl

omit [DecidableEq Index] in
theorem replaced_modify (change : PoolBlock Zip Index → PoolBlock Zip Index)
    (value : PoolBlock Zip Index) :
    (pool.modify block change).replaced block old page value =
      pool.replaced block old page value := by
  simp [replaced, withoutPage, modify]

omit [DecidableEq Index] in
theorem beforeInput_replaced (value : PoolBlock Zip Index) :
    (pool.replaced block old page value).beforeInput block = pool.replaced block old page
      { value with frame := ⟨unhashedPage, 0⟩, contents := ⟨.other, []⟩, useRwCmd := false } := by
  simp [beforeInput, replaced, withoutPage, modify]

private theorem zipSize_of_unset {size zipSize : Nat} (unset : size = 0) :
    (if zipSize = 0 then size else zipSize) = zipSize := by
  split <;> omega

omit [DecidableEq Block] [DecidableEq Zip] [DecidableEq Index] in
theorem CleanPage.ne_of_absent (evictable : pool.CleanPage block old)
    (absent : ∀ ref, pool.pageHash page ≠ some (.page ref)) : page ≠ old := by
  rintro rfl
  exact absent _ evictable.hashed

omit [DecidableEq Index] in
theorem reuseByRwCmd_plain (evictable : pool.CleanPage block old)
    (plain : (pool.block block).zip = none) (unsized : (pool.block block).zipSize = 0)
    (absent : ∀ ref, pool.pageHash page ≠ some (.page ref)) (zipSize : Nat) (image : PageImage)
    (contents : PageContents) :
    ∃ rw, pool.reuseByRwCmd page zipSize block image contents = .ok rw ∧
      rw.beforeInput block =
        pool.replaced block old page (pool.newBlock page zipSize block) := by
  let filled := pool.modify block fun value =>
    { value with targetRwCmd := false, useRwCmd := true, frame := image, contents := contents }
  have still : filled.CleanPage block old := by
    constructor <;>
      simp [filled, modify, evictable.state, evictable.notIoFixed, evictable.unfixed,
        evictable.clean, evictable.named, evictable.hashed]
  have removed : (pool.rwFill block image contents).lruBlockRemoveHashedForRwCmd block false =
      .ok (filled.withoutPage block old (filled.forgetPage
        (PoolBlock.unhashForRwCmd { filled.block block with
          modifyClock := (filled.block block).modifyClock + 1 }))) := by
    have marked : (pool.rwFill block image contents).lruBlockRemoveHashedForRwCmd block false =
        filled.lruBlockRemoveHashedWith PoolBlock.unhashForRwCmd block false := by
      simp [lruBlockRemoveHashedForRwCmd, rwFill, modify, filled]
    rw [marked]
    exact lruBlockRemoveHashedWith_plain still (by simpa [filled, modify] using plain)
      PoolBlock.unhashForRwCmd (fun _ => rfl) false
  have ready : (filled.forgetPage (PoolBlock.unhashForRwCmd { filled.block block with
      modifyClock := (filled.block block).modifyClock + 1 })).state ≠ .filePage := by
    rw [filled.field_forgetPage (fun value => value.state) (fun _ _ => rfl)]
    intro state
    cases state
  have absent' : ∀ ref, filled.pageHash page ≠ some (.page ref) := absent
  obtain ⟨useRwCmd, entered⟩ :=
    pageInitBlock_withoutPage absent' (evictable.ne_of_absent absent) zipSize _ ready
  refine ⟨_, by rw [reuseByRwCmd, removed]; exact entered, ?_⟩
  rw [initLow_forgetPage, filled.field_forgetPage (fun value => value.zipSize) (fun _ _ => rfl),
    replaced_modify, beforeInput_replaced]
  simp only [filled, modify, update_self, PoolBlock.unhashForRwCmd, zipSize_of_unset unsized]
  rfl

theorem reuseByFreeList_plain (evictable : pool.CleanPage block old)
    (notTarget : (pool.block block).targetRwCmd = false)
    (notUsed : (pool.block block).useRwCmd = false)
    (plain : (pool.block block).zip = none) (unindexed : (pool.block block).index = none)
    (absent : ∀ ref, pool.pageHash page ≠ some (.page ref)) (zipSize : Nat) (zip : Bool) :
    ∃ normal, pool.reuseByFreeList page zipSize block zip = .ok (some normal) ∧
      normal.beforeInput block =
        pool.replaced block old page (pool.newBlock page zipSize block) := by
  have ready : pool.lruFreePageReady block zip = true := by
    simp [lruFreePageReady, notTarget, notUsed, PoolBlock.canRelocate, evictable.notIoFixed,
      evictable.unfixed, plain, evictable.clean]
  obtain ⟨value, value_eq⟩ : ∃ value, value = pool.forgetPage (PoolBlock.unhash
    { pool.block block with modifyClock := (pool.block block).modifyClock + 1 }) := ⟨_, rfl⟩
  have removed : pool.lruBlockRemoveHashed block zip =
      .ok (pool.withoutPage block old value) := by
    rw [value_eq]
    exact lruBlockRemoveHashedWith_plain evictable plain PoolBlock.unhash (fun _ => rfl) zip
  have noIndex : value.index = none := by
    rw [value_eq, pool.field_forgetPage (fun value => value.index) (fun _ _ => rfl)]
    exact unindexed
  have noZip : value.zip = none := by
    rw [value_eq, pool.field_forgetPage (fun value => value.zip) (fun _ _ => rfl)]
    exact plain
  have undropped : (pool.withoutPage block old value).searchDropPageHashIndex block =
      .ok (pool.withoutPage block old value) := by
    simp only [searchDropPageHashIndex, block_withoutPage, noIndex]
  obtain ⟨freed, free, taken⟩ := lruGetFreeOnly_of_freed pool block old noZip
  have evicted : pool.lruFreePage block zip = .ok (some freed) := by
    unfold lruFreePage
    rw [if_pos ready, removed]
    simp only [bind, Except.bind, keepZip, plain]
    rw [undropped]
    simp only
    rw [free]
  have entered : (pool.withoutPage block old (recycled value)).pageInit page zipSize block =
      .ok (pool.replaced block old page { (recycled value).initLow false page with
        bufFixCount := pool.watchCount page
        zipSize := if zipSize = 0 then (recycled value).zipSize else zipSize }) := by
    unfold pageInit
    rw [block_withoutPage, if_neg nofun]
    exact pageInitWith_withoutPage absent (evictable.ne_of_absent absent) _ zipSize _
  have reused : pool.reuseByFreeList page zipSize block zip = .ok (some (pool.replaced block old
      page { (recycled value).initLow false page with
        bufFixCount := pool.watchCount page
        zipSize := if zipSize = 0 then (recycled value).zipSize else zipSize })) := by
    unfold reuseByFreeList
    rw [evicted]
    simp only [bind, Except.bind, taken, entered]
  refine ⟨_, reused, ?_⟩
  have same : (recycled value).initLow false page =
      { (recycled (PoolBlock.unhash { pool.block block with
          modifyClock := (pool.block block).modifyClock + 1 })).initLow false page with
        zip := none } := by
    rw [value_eq]
    unfold forgetPage
    split <;> rfl
  have unsized : (recycled value).zipSize = 0 := rfl
  rw [beforeInput_replaced, zipSize_of_unset unsized, same]
  congr 1
  simp [newBlock, recycled, PoolBlock.unhash, PoolBlock.initLow, BufBlock.pageInit,
    BufBlock.lruGetFreeOnly, BufBlock.lruBlockFreeNonFilePage, plain]

end Plain

/-! ## What each way does with a compressed copy and with the hash index -/

section Kept

omit [DecidableEq Index] in
/-- An RW command leaves the compressed copy at the block and the index counted. -/
theorem reuseByRwCmd_ok {zipSize : Nat} {image : PageImage} {contents : PageContents}
    (reused : pool.reuseByRwCmd page zipSize block image contents = .ok after) :
    (after.block block).zip = (pool.block block).zip ∧ after.refCount = pool.refCount := by
  obtain ⟨removed, removedEq, entered⟩ := bind_eq_ok.1 reused
  obtain ⟨old, out⟩ := removed_of_removeHashedWith PoolBlock.unhashForRwCmd removedEq
  obtain ⟨_, copy, _, value, kept⟩ := out.value
  obtain rfl := pageInitBlock_ok entered
  refine ⟨?_, out.refCount⟩
  simp only [initialised, update_self, PoolBlock.initLow]
  rw [value, kept rfl]
  simp [PoolBlock.unhashForRwCmd, rwFill, modify]

omit [DecidableEq Zip] in
theorem searchDropPageHashIndex_ok
    (dropped : pool.searchDropPageHashIndex block = .ok after) {index : Index}
    (indexed : (pool.block block).index = some index) :
    after.refCount index ≠ pool.refCount index := by
  unfold searchDropPageHashIndex at dropped
  rw [indexed] at dropped
  simp only at dropped
  split at dropped
  · cases dropped
  · cases dropped
    simp only [update_self]
    omega

/-- The way over the free list leaves no compressed copy at the block, and the index of the
old page counts one page less. -/
theorem reuseByFreeList_ok {zipSize : Nat} {zip : Bool}
    (reused : pool.reuseByFreeList page zipSize block zip = .ok (some after)) :
    (after.block block).zip = none ∧
      ∀ index, (pool.block block).index = some index →
        after.refCount index ≠ pool.refCount index := by
  obtain ⟨freed, freedEq, reused⟩ := bind_eq_ok.1 reused
  cases freed with
  | none => cases reused
  | some freed =>
    unfold lruFreePage at freedEq
    split at freedEq
    · obtain ⟨removed, removedEq, freedEq⟩ := bind_eq_ok.1 freedEq
      obtain ⟨dropped, droppedEq, freedEq⟩ := bind_eq_ok.1 freedEq
      obtain ⟨_, listedEq, freedEq⟩ := bind_eq_ok.1 freedEq
      cases freedEq
      obtain ⟨old, out⟩ := removed_of_removeHashedWith PoolBlock.unhash removedEq
      obtain ⟨_, _, _, value, _⟩ := out.value
      have removedIndex : (removed.block block).index = (pool.block block).index := by
        rw [value]
        rfl
      obtain ⟨free, _, _, freedCount, _⟩ := lruBlockFreeHashedPage_ok listedEq
      simp only [lruGetFreeOnly, free] at reused
      obtain ⟨entered, enteredEq, reused⟩ := bind_eq_ok.1 reused
      cases reused
      unfold pageInit at enteredEq
      split at enteredEq
      · cases enteredEq
      · obtain rfl := pageInitWith_ok enteredEq
        refine ⟨by simp [initialised, PoolBlock.initLow, modify], fun index indexed => ?_⟩
        show freed.refCount index ≠ pool.refCount index
        rw [freedCount, ← out.refCount]
        obtain ⟨_, keptCount, keptIndex, _⟩ := keepZip_fields pool removed block zip
        rw [← keptCount]
        exact searchDropPageHashIndex_ok droppedEq
          (keptIndex.trans (removedIndex.trans indexed))
    · cases freedEq

end Kept

omit [DecidableEq Index] in
/-- A page without index and without compressed copy leaves nothing behind. -/
theorem detached_replaced (tables : pool.Tables) (evictable : pool.CleanPage block old)
    (plain : (pool.block block).zip = none) (unindexed : (pool.block block).index = none)
    (page : PageId) (value : PoolBlock Zip Index) :
    Detached pool (pool.replaced block old page value) block old page where
  lru := by
    intro listed
    exact (tables.lru_nodup.mem_erase_iff.1 listed).1 rfl
  unzipLru := by
    intro listed
    have := tables.unzipLru block listed
    rw [plain] at this
    cases this
  pageHash := by
    intro other found
    by_contra different
    simp only [replaced, withoutPage, update_of_ne different] at found
    by_cases same : other = old
    · rw [same, update_self] at found
      cases found
    · rw [update_of_ne same] at found
      have := (tables.hashed other block found).symm.trans evictable.named
      exact same (Option.some.inj this)
  zip := by
    intro copy present
    exact absurd (plain.symm.trans present) nofun
  hashIndex := by
    rintro node listed rfl
    have := tables.hashIndex node listed
    rw [unindexed] at this
    cases this

/-- Whatever way is normal for a clean unfixed page (with its compressed copy released or
kept), an RW command leaves the same pool, with the block detached from the old page,
exactly if the page has no adaptive hash index and no compressed copy. -/
theorem reuse_agrees_iff (tables : pool.Tables) (evictable : pool.CleanPage block old)
    (notTarget : (pool.block block).targetRwCmd = false)
    (notUsed : (pool.block block).useRwCmd = false)
    (absent : ∀ ref, pool.pageHash page ≠ some (.page ref)) (zipSize : Nat) (zip : Bool)
    (image : PageImage) (contents : PageContents) (normal : BufPool Block Zip Index)
    (freed : pool.reuseByFreeList page zipSize block zip = .ok (some normal)) :
    (∃ rw, pool.reuseByRwCmd page zipSize block image contents = .ok rw ∧
        rw.beforeInput block = normal.beforeInput block ∧ Detached pool rw block old page) ↔
      (pool.block block).index = none ∧ (pool.block block).zip = none := by
  constructor
  · rintro ⟨rw, reused, same, _⟩
    obtain ⟨rwZip, rwCount⟩ := reuseByRwCmd_ok reused
    obtain ⟨normalZip, normalCount⟩ := reuseByFreeList_ok freed
    have sameZip : (rw.block block).zip = (normal.block block).zip := by
      have := congrArg (fun pool => (pool.block block).zip) same
      simpa [beforeInput, modify] using this
    have sameCount : (rw.beforeInput block).refCount = (normal.beforeInput block).refCount := by
      rw [same]
    change rw.refCount = normal.refCount at sameCount
    constructor
    · cases indexed : (pool.block block).index with
      | none => rfl
      | some index =>
        have := normalCount index indexed
        rw [← sameCount, rwCount] at this
        exact absurd rfl this
    · rw [← rwZip, sameZip, normalZip]
  · rintro ⟨unindexed, plain⟩
    obtain ⟨rw, reused, rwEq⟩ := reuseByRwCmd_plain evictable plain
      (tables.zipSize block plain) absent zipSize image contents
    obtain ⟨other, otherReused, otherEq⟩ := reuseByFreeList_plain evictable notTarget notUsed
      plain unindexed absent zipSize zip
    cases otherReused.symm.trans freed
    refine ⟨rw, reused, rwEq.trans otherEq.symm, ?_⟩
    have detached := detached_replaced tables evictable plain unindexed page
      (pool.newBlock page zipSize block)
    rw [← rwEq] at detached
    exact ⟨detached.lru, detached.unzipLru, detached.pageHash, detached.zip, detached.hashIndex⟩

/-- A pool of one block, which holds a clean page of an index; `index` says whether the
adaptive hash index has a node for a record of the page. -/
def onePage (index : Option Unit) : BufPool Unit Unit Unit where
  block := fun _ =>
    { state := .filePage
      bufFixCount := 0
      ioFix := .none
      oldestModification := 0
      targetRwCmd := false
      useRwCmd := false
      modifyClock := 0
      lock := ⟨0, false⟩
      frame := ⟨⟨51, 9⟩, 1⟩
      page := some ⟨51, 9⟩
      contents := ⟨.index, [7]⟩
      zip := none
      zipSize := 0
      index := index
      accessTime := 1
      newestModification := 1 }
  zipPage := fun _ => ⟨none, ⟨.other, []⟩, 0⟩
  free := []
  lru := [.block ()]
  unzipLru := []
  flushList := []
  pageHash := fun page => if page = ⟨51, 9⟩ then some (.page (.block ())) else none
  buddyFree := []
  hashIndex := if index.isSome then [⟨7, ()⟩] else []
  refCount := fun _ => if index.isSome then 1 else 0
  freedPageClock := 0
  flushRbt := false

theorem onePage_tables (index : Option Unit) : (onePage index).Tables where
  lru_nodup := by simp [onePage]
  unzipLru := nofun
  hashed := by
    intro page block found
    simp only [onePage] at found ⊢
    split at found
    next same => rw [same]
    · cases found
  zipSize := fun _ _ => rfl
  hashIndex := by
    intro node listed
    cases index with
    | none => cases listed
    | some index => rfl

theorem onePage_clean (index : Option Unit) : (onePage index).CleanPage () ⟨51, 9⟩ :=
  ⟨rfl, rfl, rfl, rfl, rfl, rfl⟩

theorem onePage_absent (index : Option Unit) :
    ∀ ref, (onePage index).pageHash ⟨51, 10⟩ ≠ some (.page ref) :=
  nofun

/-- A page that the adaptive hash index does not know. -/
theorem reuse_agrees_onePage : ∃ normal rw,
    (onePage none).reuseByFreeList ⟨51, 10⟩ 0 () true = .ok (some normal) ∧
      (onePage none).reuseByRwCmd ⟨51, 10⟩ 0 () ⟨⟨51, 10⟩, 3⟩ ⟨.index, [8]⟩ = .ok rw ∧
      rw.beforeInput () = normal.beforeInput () ∧
      Detached (onePage none) rw () ⟨51, 9⟩ ⟨51, 10⟩ := by
  obtain ⟨normal, freed⟩ : ∃ normal,
      (onePage none).reuseByFreeList ⟨51, 10⟩ 0 () true = .ok (some normal) := ⟨_, rfl⟩
  obtain ⟨rw, reused, same, detached⟩ := (reuse_agrees_iff (onePage_tables none)
    (onePage_clean none) rfl rfl (onePage_absent none) 0 true ⟨⟨51, 10⟩, 3⟩ ⟨.index, [8]⟩ normal
    freed).2 ⟨rfl, rfl⟩
  exact ⟨normal, rw, freed, reused, same, detached⟩

/-- The node of the adaptive hash index still points into the frame after the RW command,
where the frame holds another page; the normal way drops it. -/
theorem node_left_by_rwCmd : ∃ (pool normal rw : BufPool Unit Unit Unit) (old page : PageId),
    pool.Tables ∧ pool.CleanPage () old ∧ (pool.block ()).targetRwCmd = false ∧
      (pool.block ()).useRwCmd = false ∧ (∀ ref, pool.pageHash page ≠ some (.page ref)) ∧
      pool.reuseByFreeList page 0 () true = .ok (some normal) ∧ normal.hashIndex = [] ∧
      pool.reuseByRwCmd page 0 () ⟨page, 3⟩ ⟨.index, [8]⟩ = .ok rw ∧
      rw.hashIndex = [⟨7, ()⟩] ∧ rw.beforeInput () ≠ normal.beforeInput () := by
  refine ⟨onePage (some ()), _, _, ⟨51, 9⟩, ⟨51, 10⟩, onePage_tables _, onePage_clean _, rfl, rfl,
    onePage_absent _, rfl, rfl, rfl, rfl, fun same => ?_⟩
  have count := congrArg (fun pool => pool.refCount ()) same
  exact absurd count (by decide)

end RwRbuf.Innodb.BufPool
