import RwRbuf.Innodb.BufBlock
import RwRbuf.Lib.Fallible
import Mathlib.Logic.Function.Basic

/-! # The buffer pool

The lists and tables that a buffer block belongs to: the free list, the LRU list, the LRU
list of decompressed pages, the flush list, the page hash and the adaptive hash index.
A compressed copy is known by the memory that the buddy allocator gave it; it belongs to
an uncompressed block, or it stands in the lists under a descriptor of its own.

Every function here runs under the pool mutex.  A failing check stops the server.
-/

namespace RwRbuf.Innodb

open Function Fallible

/-- The page types (`FIL_PAGE_TYPE`) that an eviction tells apart. -/
inductive FilPageType
  | allocated
  | inode
  | ibufBitmap
  | fspHdr
  | xdes
  | zblob
  | zblob2
  | index
  | other
deriving DecidableEq, Repr

/-- What a frame holds besides its page number: its type, and the folds of its records
in the adaptive hash index. -/
structure PageContents where
  pageType : FilPageType
  folds : List Nat
deriving DecidableEq, Repr

structure PoolBlock (Zip Index : Type) extends BufBlock where
  /-- `none` stands for `ULINT32_UNDEFINED`. -/
  page : Option PageId
  contents : PageContents
  zip : Option Zip
  zipSize : Nat
  index : Option Index
  accessTime : Nat
  newestModification : Nat
deriving DecidableEq, Repr

structure ZipPage where
  page : Option PageId
  contents : PageContents
  oldestModification : Nat
deriving DecidableEq, Repr

inductive BufPageRef (Block Zip : Type)
  | block (block : Block)
  | zip (zip : Zip)
deriving DecidableEq, Repr

/-- What the page hash finds: a page, or the sentinel of a watch with its fix count. -/
inductive HashNode (Block Zip : Type)
  | page (ref : BufPageRef Block Zip)
  | watch (bufFixCount : Nat)
deriving DecidableEq, Repr

/-- A node of the adaptive hash index points to a record in the frame of a block. -/
structure HaNode (Block : Type) where
  fold : Nat
  block : Block
deriving DecidableEq, Repr

structure BufPool (Block Zip Index : Type) where
  block : Block → PoolBlock Zip Index
  zipPage : Zip → ZipPage
  free : List Block
  lru : List (BufPageRef Block Zip)
  unzipLru : List Block
  flushList : List (BufPageRef Block Zip)
  pageHash : PageId → Option (HashNode Block Zip)
  /-- The compressed copies that went back to the buddy allocator. -/
  buddyFree : List Zip
  hashIndex : List (HaNode Block)
  /-- `ref_count` of the search information of an index. -/
  refCount : Index → Nat
  freedPageClock : Nat
  /-- Whether the pool is in recovery (`flush_rbt`). -/
  flushRbt : Bool

inductive PoolStop
  | ut (assert : UtAssert)
  | corruptZip
  | alreadyHashed
  | noRefCount
deriving DecidableEq, Repr

/-- The page number and space that `buf_LRU_block_remove_hashed` leaves in a frame. -/
def unhashedPage : PageId := ⟨0xffffffff, 0xffffffff⟩

namespace PoolBlock

variable {Zip Index : Type} (block : PoolBlock Zip Index)

/-- `buf_page_can_relocate`. -/
def canRelocate : Bool := block.ioFix == .none && block.bufFixCount == 0

/-- `buf_page_belongs_to_unzip_LRU`. -/
def belongsToUnzipLru : Bool := block.zip.isSome && block.state == .filePage

/-- The block of a page that left the page hash: the page number in its frame is wiped. -/
def unhash : PoolBlock Zip Index :=
  { block with state := .removeHash, frame := { block.frame with page := unhashedPage } }

/-- The block of the victim of an RW command: its frame keeps what the device has read. -/
def unhashForRwCmd : PoolBlock Zip Index := { block with state := .readyForUse }

/-- `buf_page_init_low`, and the fields that `buf_block_init_low` and
`buf_block_init_low_with_rw_cmd` both set. -/
def initLow (useRwCmd : Bool) (page : PageId) : PoolBlock Zip Index :=
  { block with
    toBufBlock := block.toBufBlock.pageInit useRwCmd
    page := some page
    index := none
    accessTime := 0
    newestModification := 0 }

end PoolBlock

namespace BufPool

variable {Block Zip Index : Type} [DecidableEq Block] [DecidableEq Zip] [DecidableEq Index]
variable (pool : BufPool Block Zip Index)

def modify (block : Block) (change : PoolBlock Zip Index → PoolBlock Zip Index) :
    BufPool Block Zip Index :=
  { pool with block := update pool.block block (change (pool.block block)) }

/-! ## Taking a page out -/

/-- `buf_LRU_remove_block` for an uncompressed block. -/
def lruRemoveBlock (block : Block) : BufPool Block Zip Index :=
  { pool with
    lru := pool.lru.erase (.block block)
    unzipLru :=
      if (pool.block block).belongsToUnzipLru then pool.unzipLru.erase block
      else pool.unzipLru }

/-- What happens to the compressed copy of an uncompressed page that is evicted alone:
the pages that are not really compressed are copied into it. -/
def copyToZip (block : Block) (copy : Zip) (zip : Bool) :
    Except PoolStop (BufPool Block Zip Index) :=
  match (pool.block block).contents.pageType with
  | .allocated | .inode | .ibufBitmap | .fspHdr | .xdes =>
    if zip then .ok pool
    else
      let contents := (pool.block block).contents
      .ok { pool with
        zipPage := update pool.zipPage copy
          { pool.zipPage copy with contents := contents } }
  | .zblob | .zblob2 | .index => .ok pool
  | .other => .error .corruptZip

/-- The checks of the first switch over the page state, for an uncompressed page. -/
def checkEvictable (block : Block) (zip : Bool) : Except PoolStop (BufPool Block Zip Index) :=
  match (pool.block block).zip with
  | some copy =>
    if zip && (pool.block block).oldestModification != 0 then .error (.ut .stillDirty)
    else pool.copyToZip block copy zip
  | none =>
    if (pool.block block).oldestModification != 0 then .error (.ut .stillDirty)
    else .ok pool

/-- `HASH_DELETE` of a block, after the check that the page hash finds it. -/
def hashDelete (block : Block) : Except PoolStop (BufPool Block Zip Index) :=
  match (pool.block block).page with
  | none => .error (.ut .notHashed)
  | some page =>
    if pool.pageHash page = some (.page (.block block)) then
      .ok { pool with pageHash := update pool.pageHash page none }
    else .error (.ut .notHashed)

def releaseZip (block : Block) : BufPool Block Zip Index :=
  match (pool.block block).zip with
  | some copy =>
    { pool with
      buddyFree := copy :: pool.buddyFree
      block := update pool.block block
        { pool.block block with zip := none, zipSize := 0 } }
  | none => pool

/-- `space` and `offset` of a block that left the page hash. -/
def forgetPage (block : PoolBlock Zip Index) : PoolBlock Zip Index :=
  if pool.flushRbt then block else { block with page := none }

omit [DecidableEq Block] [DecidableEq Zip] [DecidableEq Index] in
/-- Only `space` and `offset` are forgotten. -/
theorem field_forgetPage {Field : Type} (field : PoolBlock Zip Index → Field)
    (blind : ∀ block page, field { block with page := page } = field block)
    (block : PoolBlock Zip Index) : field (pool.forgetPage block) = field block := by
  unfold forgetPage
  split
  · rfl
  · exact blind block none

/-- What `buf_LRU_block_remove_hashed` and its copy for RW commands have in common;
`retire` is the new state of the block. -/
def lruBlockRemoveHashedWith (retire : PoolBlock Zip Index → PoolBlock Zip Index)
    (block : Block) (zip : Bool) : Except PoolStop (BufPool Block Zip Index) :=
  if (pool.block block).ioFix != .none then .error (.ut .ioFixed)
  else if (pool.block block).bufFixCount != 0 then .error (.ut .bufferFixed)
  else if (pool.block block).state != .filePage then .error (.ut .wrongState)
  else do
    let removed := pool.lruRemoveBlock block
    let counted := { removed with freedPageClock := removed.freedPageClock + 1 }
    let clocked := counted.modify block fun value =>
      { value with modifyClock := value.modifyClock + 1 }
    let checked ← clocked.checkEvictable block zip
    let deleted ← checked.hashDelete block
    let retired := deleted.modify block fun value => deleted.forgetPage (retire value)
    .ok (if zip then retired.releaseZip block else retired)

/-- `buf_LRU_block_remove_hashed`. -/
def lruBlockRemoveHashed (block : Block) (zip : Bool) : Except PoolStop (BufPool Block Zip Index) :=
  pool.lruBlockRemoveHashedWith PoolBlock.unhash block zip

/-- `buf_LRU_block_remove_hashed_for_rw_cmd`: the block is ready for use at once. -/
def lruBlockRemoveHashedForRwCmd (block : Block) (zip : Bool) :
    Except PoolStop (BufPool Block Zip Index) :=
  (pool.modify block fun value =>
      { value with targetRwCmd := false, useRwCmd := true }).lruBlockRemoveHashedWith
    PoolBlock.unhashForRwCmd block zip

/-- `btr_search_drop_page_hash_index`: the nodes of the records on the page go. -/
def searchDropPageHashIndex (block : Block) : Except PoolStop (BufPool Block Zip Index) :=
  match (pool.block block).index with
  | none => .ok pool
  | some index =>
    if pool.refCount index = 0 then .error .noRefCount
    else
      let folds := (pool.block block).contents.folds
      .ok { pool with
        hashIndex := pool.hashIndex.filter fun node =>
          !(decide (node.block = block) && decide (node.fold ∈ folds))
        refCount := update pool.refCount index (pool.refCount index - 1)
        block := update pool.block block { pool.block block with index := none } }

/-! ## The free list -/

/-- `buf_LRU_block_free_non_file_page`. -/
def lruBlockFreeNonFilePage (block : Block) : Except PoolStop (BufPool Block Zip Index) :=
  match (pool.block block).state with
  | .memory | .readyForUse =>
    let wiped := pool.modify block fun value =>
      { value with toBufBlock := value.toBufBlock.lruBlockFreeNonFilePage }
    let released := wiped.releaseZip block
    .ok { released with free := block :: released.free }
  | _ => .error (.ut .wrongState)

/-- `buf_LRU_block_free_hashed_page`. -/
def lruBlockFreeHashedPage (block : Block) : Except PoolStop (BufPool Block Zip Index) :=
  (pool.modify block fun value => { value with state := .memory }).lruBlockFreeNonFilePage block

/-- `buf_LRU_get_free_only`, and the reset of `page.zip` in `buf_LRU_get_free_block`. -/
def lruGetFreeOnly : Option (Block × BufPool Block Zip Index) :=
  match pool.free with
  | [] => none
  | block :: rest =>
    some (block, { pool with free := rest }.modify block fun value =>
      { value with
        toBufBlock := value.toBufBlock.lruGetFreeOnly
        zip := none
        zipSize := 0 })

/-- The compressed copy of a block that is evicted alone stays under a descriptor of its
own: in the page hash, at the place of the block in the LRU list, and in the flush list if
it is dirty. -/
def reinsertZip (block : Block) (value : PoolBlock Zip Index) (lru : List (BufPageRef Block Zip))
    (page : PageId) (copy : Zip) : BufPool Block Zip Index :=
  { pool with
    zipPage := update pool.zipPage copy
      { pool.zipPage copy with
        page := value.page
        oldestModification := value.oldestModification }
    pageHash := update pool.pageHash page (some (.page (.zip copy)))
    lru := lru.map fun ref => if ref = .block block then .zip copy else ref
    flushList :=
      if value.oldestModification = 0 then pool.flushList
      else pool.flushList.map fun ref => if ref = .block block then .zip copy else ref
    block := update pool.block block
      { pool.block block with zip := none, zipSize := 0 } }

/-- What `buf_LRU_free_page` does with the compressed copy of the block that it has removed
from the pool. -/
def keepZip (removed : BufPool Block Zip Index) (block : Block) (zip : Bool) :
    BufPool Block Zip Index :=
  match zip, (pool.block block).zip, (pool.block block).page with
  | false, some copy, some page =>
    removed.reinsertZip block (pool.block block) pool.lru page copy
  | _, _, _ => removed

/-- Whether `buf_LRU_free_page` frees the block. -/
def lruFreePageReady (block : Block) (zip : Bool) : Bool :=
  let value := pool.block block
  if value.useRwCmd || value.targetRwCmd then false
  else if !value.canRelocate then false
  else if zip || value.zip.isNone then value.oldestModification == 0
  else true

/-- `buf_LRU_free_page` for an uncompressed block; `none` if the block cannot be freed. -/
def lruFreePage (block : Block) (zip : Bool) : Except PoolStop (Option (BufPool Block Zip Index)) :=
  if pool.lruFreePageReady block zip then do
    let removed ← pool.lruBlockRemoveHashed block zip
    let dropped ← (pool.keepZip removed block zip).searchDropPageHashIndex block
    let freed ← dropped.lruBlockFreeHashedPage block
    .ok (some freed)
  else .ok none

/-! ## Putting a page in -/

/-- The fix count of the watch that a page takes over when it enters the page hash. -/
def watchCount (page : PageId) : Nat :=
  match pool.pageHash page with
  | some (.watch bufFixCount) => bufFixCount
  | _ => 0

/-- What `buf_page_init` and `buf_page_init_with_rw_cmd` have in common. -/
def pageInitWith (useRwCmd : PoolBlock Zip Index → Bool) (page : PageId) (zipSize : Nat)
    (block : Block) : Except PoolStop (BufPool Block Zip Index) :=
  match pool.pageHash page with
  | some (.page _) => .error .alreadyHashed
  | _ =>
    let entered := pool.modify block fun value =>
      { value.initLow (useRwCmd value) page with
        bufFixCount := pool.watchCount page
        zipSize := if zipSize = 0 then value.zipSize else zipSize }
    .ok { entered with
      pageHash := update pool.pageHash page (some (.page (.block block))) }

/-- `buf_page_init`. -/
def pageInit (page : PageId) (zipSize : Nat) (block : Block) :
    Except PoolStop (BufPool Block Zip Index) :=
  if (pool.block block).state = .filePage then .error (.ut .wrongState)
  else pool.pageInitWith (fun _ => false) page zipSize block

/-- `buf_page_init_with_rw_cmd`. -/
def pageInitWithRwCmd (page : PageId) (zipSize : Nat) (block : Block) :
    Except PoolStop (BufPool Block Zip Index) :=
  pool.pageInitWith (fun value => value.useRwCmd) page zipSize block

/-- How `buf_page_init_for_read` initialises the block that it was given. -/
def pageInitBlock (page : PageId) (zipSize : Nat) (block : Block) :
    Except PoolStop (BufPool Block Zip Index) :=
  if (pool.block block).useRwCmd && decide ((pool.block block).frame.page = page) then
    pool.pageInitWithRwCmd page zipSize block
  else pool.pageInit page zipSize block

/-! ## What the functions change -/

section Effects

variable {pool : BufPool Block Zip Index} {after : BufPool Block Zip Index} {block : Block}
variable {zip : Bool}

/-- Two pools that agree on the blocks, the lists and the counters of the hash index. -/
structure SameLists (pool after : BufPool Block Zip Index) : Prop where
  block : after.block = pool.block
  lru : after.lru = pool.lru
  free : after.free = pool.free
  refCount : after.refCount = pool.refCount

omit [DecidableEq Block] [DecidableEq Index] in
theorem copyToZip_ok {copy : Zip} (copied : pool.copyToZip block copy zip = .ok after) :
    SameLists pool after ∧ after.pageHash = pool.pageHash := by
  unfold copyToZip at copied
  cases zip <;> split at copied <;> cases copied <;> exact ⟨⟨rfl, rfl, rfl, rfl⟩, rfl⟩

omit [DecidableEq Block] [DecidableEq Index] in
theorem checkEvictable_ok (checked : pool.checkEvictable block zip = .ok after) :
    SameLists pool after ∧ after.pageHash = pool.pageHash := by
  unfold checkEvictable at checked
  split at checked
  · split at checked
    · cases checked
    · exact copyToZip_ok checked
  · split at checked
    · cases checked
    · cases checked
      exact ⟨⟨rfl, rfl, rfl, rfl⟩, rfl⟩

omit [DecidableEq Index] in
theorem hashDelete_ok (deleted : pool.hashDelete block = .ok after) :
    SameLists pool after ∧ ∃ page, (pool.block block).page = some page ∧
      pool.pageHash page = some (.page (.block block)) ∧
      after.pageHash = update pool.pageHash page none := by
  unfold hashDelete at deleted
  split at deleted
  · cases deleted
  next page named =>
    split at deleted
    next hashed =>
      cases deleted
      exact ⟨⟨rfl, rfl, rfl, rfl⟩, page, named, hashed, rfl⟩
    · cases deleted

structure Removed (retire : PoolBlock Zip Index → PoolBlock Zip Index)
    (pool after : BufPool Block Zip Index) (block : Block) (zip : Bool) (page : PageId) :
    Prop where
  state : (pool.block block).state = .filePage
  notIoFixed : (pool.block block).ioFix = .none
  unfixed : (pool.block block).bufFixCount = 0
  named : (pool.block block).page = some page
  hashed : pool.pageHash page = some (.page (.block block))
  pageHash : after.pageHash = update pool.pageHash page none
  lru : after.lru = pool.lru.erase (.block block)
  free : after.free = pool.free
  refCount : after.refCount = pool.refCount
  others : ∀ other, other ≠ block → after.block other = pool.block other
  value : ∃ name copy size,
    after.block block = { retire { pool.block block with
      modifyClock := (pool.block block).modifyClock + 1 } with
        page := name, zip := copy, zipSize := size } ∧
    (zip = false → copy = (retire { pool.block block with
      modifyClock := (pool.block block).modifyClock + 1 }).zip)

omit [DecidableEq Zip] [DecidableEq Index] in
theorem releaseZip_eq (pool : BufPool Block Zip Index) (block : Block) :
    ∃ released copy size, pool.releaseZip block = { pool with
      buddyFree := released
      block := update pool.block block
        { pool.block block with zip := copy, zipSize := size } } := by
  unfold releaseZip
  split
  · exact ⟨_, _, _, rfl⟩
  · exact ⟨pool.buddyFree, (pool.block block).zip, (pool.block block).zipSize, by simp⟩

omit [DecidableEq Index] in
theorem removed_of_removeHashedWith (retire : PoolBlock Zip Index → PoolBlock Zip Index)
    (removed : pool.lruBlockRemoveHashedWith retire block zip = .ok after) :
    ∃ page, Removed retire pool after block zip page := by
  unfold lruBlockRemoveHashedWith at removed
  split at removed
  · cases removed
  next notIoFixed =>
    split at removed
    · cases removed
    next unfixed =>
      split at removed
      · cases removed
      next state =>
        obtain ⟨checked, checkedEq, removed⟩ := bind_eq_ok.1 removed
        obtain ⟨deleted, deletedEq, removed⟩ := bind_eq_ok.1 removed
        obtain ⟨checkedLists, checkedHash⟩ := checkEvictable_ok checkedEq
        obtain ⟨deletedLists, page, named, hashed, deletedHash⟩ := hashDelete_ok deletedEq
        have blocks : deleted.block = update pool.block block { pool.block block with
            modifyClock := (pool.block block).modifyClock + 1 } := by
          rw [deletedLists.block, checkedLists.block]
          rfl
        have held : deleted.block block = { pool.block block with
            modifyClock := (pool.block block).modifyClock + 1 } := by
          rw [blocks, update_self]
        have forgotten : ∃ name, deleted.forgetPage (retire (deleted.block block)) =
            { retire (deleted.block block) with page := name } := by
          unfold forgetPage
          split
          · exact ⟨(retire (deleted.block block)).page, rfl⟩
          · exact ⟨none, rfl⟩
        obtain ⟨name, forgotten⟩ := forgotten
        have common : ∀ {final : BufPool Block Zip Index},
            final.pageHash = deleted.pageHash → final.lru = deleted.lru →
            final.free = deleted.free → final.refCount = deleted.refCount →
            (∀ other, other ≠ block → final.block other = deleted.block other) →
            (∃ copy size, final.block block = { retire (deleted.block block) with
              page := name, zip := copy, zipSize := size } ∧
              (zip = false → copy = (retire (deleted.block block)).zip)) →
            Removed retire pool final block zip page := by
          intro final finalHash finalLru finalFree finalCount finalOthers finalValue
          refine ⟨by simpa using state, by simpa using notIoFixed, by simpa using unfixed, ?_, ?_,
            ?_, ?_, ?_, ?_, ?_, ?_⟩
          · rw [checkedLists.block] at named
            simpa [modify, lruRemoveBlock] using named
          · rw [checkedHash] at hashed
            exact hashed
          · rw [finalHash, deletedHash, checkedHash]
            rfl
          · rw [finalLru, deletedLists.lru, checkedLists.lru]
            rfl
          · rw [finalFree, deletedLists.free, checkedLists.free]
            rfl
          · rw [finalCount, deletedLists.refCount, checkedLists.refCount]
            rfl
          · intro other different
            rw [finalOthers other different, blocks, update_of_ne different]
          · rw [held] at finalValue
            exact ⟨name, finalValue⟩
        refine ⟨page, ?_⟩
        cases zip with
        | false =>
          cases removed
          rw [if_neg nofun]
          refine common ?_ ?_ ?_ ?_ ?_ ?_
          iterate 4 rfl
          · intro other different
            simp [modify, different]
          · exact ⟨(retire (deleted.block block)).zip, (retire (deleted.block block)).zipSize,
              by simp [modify, forgotten], fun _ => rfl⟩
        | true =>
          cases removed
          obtain ⟨released, copy, size, releasedEq⟩ := releaseZip_eq
            (deleted.modify block fun value => deleted.forgetPage (retire value)) block
          rw [if_pos rfl, releasedEq]
          refine common ?_ ?_ ?_ ?_ ?_ ?_
          iterate 4 rfl
          · intro other different
            simp [modify, different]
          · exact ⟨copy, size, by simp [modify, forgotten], nofun⟩

omit [DecidableEq Index] in
/-- What happens to a clean victim in the pool is what happens to its block alone. -/
theorem removeHashedForRwCmd_toBufBlock (clean : (pool.block block).oldestModification = 0)
    (removed : pool.lruBlockRemoveHashedForRwCmd block zip = .ok after) :
    (pool.block block).toBufBlock.lruBlockRemoveHashedForRwCmd true =
      .ok (after.block block).toBufBlock := by
  obtain ⟨page, out⟩ := removed_of_removeHashedWith PoolBlock.unhashForRwCmd removed
  obtain ⟨name, copy, size, value, _⟩ := out.value
  have state := out.state
  have notIoFixed := out.notIoFixed
  have unfixed := out.unfixed
  simp only [modify, update_self] at state notIoFixed unfixed
  rw [value]
  simp [BufBlock.lruBlockRemoveHashedForRwCmd, PoolBlock.unhashForRwCmd, modify, state,
    notIoFixed, unfixed, clean]

omit [DecidableEq Index] in
theorem keepZip_fields (pool removed : BufPool Block Zip Index) (block : Block) (zip : Bool) :
    (pool.keepZip removed block zip).free = removed.free ∧
      (pool.keepZip removed block zip).refCount = removed.refCount ∧
      ((pool.keepZip removed block zip).block block).index = (removed.block block).index ∧
      ∀ other, other ≠ block →
        (pool.keepZip removed block zip).block other = removed.block other := by
  unfold keepZip
  split
  · exact ⟨rfl, rfl, by simp [reinsertZip], fun other different => by simp [reinsertZip, different]⟩
  · exact ⟨rfl, rfl, rfl, fun _ _ => rfl⟩

omit [DecidableEq Zip] [DecidableEq Index] in
/-- A block that holds no page goes to the head of the free list. -/
theorem lruBlockFreeNonFilePage_eq
    (ready : (pool.block block).state = .memory ∨ (pool.block block).state = .readyForUse) :
    ∃ released copy size, pool.lruBlockFreeNonFilePage block = .ok { pool with
      buddyFree := released
      free := block :: pool.free
      block := update pool.block block { pool.block block with
        toBufBlock := (pool.block block).toBufBlock.lruBlockFreeNonFilePage
        zip := copy
        zipSize := size } } := by
  obtain ⟨released, copy, size, releasedEq⟩ := releaseZip_eq (pool.modify block fun value =>
    { value with toBufBlock := value.toBufBlock.lruBlockFreeNonFilePage }) block
  refine ⟨released, copy, size, ?_⟩
  unfold lruBlockFreeNonFilePage
  rcases ready with state | state
  all_goals
    rw [state]
    dsimp only
    rw [releasedEq]
    simp [modify]

omit [DecidableEq Zip] [DecidableEq Index] in
theorem lruBlockFreeHashedPage_ok (freed : pool.lruBlockFreeHashedPage block = .ok after) :
    after.free = block :: pool.free ∧ after.lru = pool.lru ∧ after.pageHash = pool.pageHash ∧
      after.refCount = pool.refCount ∧
      ∀ other, other ≠ block → after.block other = pool.block other := by
  have ready : ((pool.modify block fun value => { value with state := .memory }).block
      block).state = .memory := by
    simp [modify]
  obtain ⟨_, _, _, freedEq⟩ := lruBlockFreeNonFilePage_eq (.inl ready)
  cases freedEq.symm.trans freed
  exact ⟨rfl, rfl, rfl, rfl, fun other different => by simp [modify, different]⟩

omit [DecidableEq Zip] in
/-- The lists and the page hash do not depend on the adaptive hash index. -/
theorem searchDropPageHashIndex_lists (dropped : pool.searchDropPageHashIndex block = .ok after) :
    after.free = pool.free ∧ after.lru = pool.lru ∧ after.pageHash = pool.pageHash ∧
      ∀ other, other ≠ block → after.block other = pool.block other := by
  unfold searchDropPageHashIndex at dropped
  split at dropped
  · cases dropped
    exact ⟨rfl, rfl, rfl, fun _ _ => rfl⟩
  · split at dropped
    · cases dropped
    · cases dropped
      exact ⟨rfl, rfl, rfl, fun other different => by simp [different]⟩

/-- The pool in which the block was initialised for the page. -/
def initialised (pool : BufPool Block Zip Index) (page : PageId) (zipSize : Nat) (block : Block)
    (useRwCmd : Bool) : BufPool Block Zip Index :=
  { pool with
    block := update pool.block block
      { (pool.block block).initLow useRwCmd page with
        bufFixCount := pool.watchCount page
        zipSize := if zipSize = 0 then (pool.block block).zipSize else zipSize }
    pageHash := update pool.pageHash page (some (.page (.block block))) }

variable {page : PageId} {zipSize : Nat}

omit [DecidableEq Zip] [DecidableEq Index] in
theorem pageInitWith_ok {useRwCmd : PoolBlock Zip Index → Bool}
    (entered : pool.pageInitWith useRwCmd page zipSize block = .ok after) :
    after = pool.initialised page zipSize block (useRwCmd (pool.block block)) := by
  unfold pageInitWith at entered
  split at entered
  · cases entered
  · cases entered
    rfl

omit [DecidableEq Zip] [DecidableEq Index] in
theorem pageInitBlock_ok (entered : pool.pageInitBlock page zipSize block = .ok after) :
    after = pool.initialised page zipSize block
      ((pool.block block).useRwCmd && decide ((pool.block block).frame.page = page)) := by
  unfold pageInitBlock pageInitWithRwCmd pageInit at entered
  split at entered
  next filled =>
    rw [filled, pageInitWith_ok entered, (Bool.and_eq_true_iff.1 filled).1]
  next unfilled =>
    rw [Bool.eq_false_iff.2 unfilled]
    split at entered
    · cases entered
    · exact pageInitWith_ok entered

end Effects

end BufPool
end RwRbuf.Innodb
