import RwRbuf.Lib.Fallible
import RwRbuf.Lib.ThreadCount
import RwRbuf.Innodb.BufBlock

/-! # Access to a page while it is replaced

One thread replaces pages by RW commands: it marks the block of the victim page, the
device writes the frame to storage and then reads another page into the same frame, and
the block leaves the page hash.  Any number of other threads call `buf_page_get_gen`,
`buf_page_optimistic_get`, `buf_page_get_known_nowait` and `buf_page_try_get` on the
victim page at the same time.  The third of them follows a node of the adaptive hash index
to a block; the page hash is not asked.

An action of the model is one section of the source under a mutex or the page hash lock,
one operation on a latch, or one half of the device command.
-/

namespace RwRbuf.Innodb.VictimAccess

open Function

/-- The latch that `buf_page_get_gen` takes is optional; the other functions always take
one.  An optimistic get carries the modify clock of the stored cursor position. -/
inductive Access
  | getGen (latch : Option RwLatch)
  | optimisticGet (latch : RwLatch) (clock : Nat)
  | knownNowait (latch : RwLatch)
  | tryGet
deriving DecidableEq, Repr

/-- Where a thread is in its access to the page. -/
inductive Place (Block : Type)
  | idle
  /-- The block is buffer fixed, the latch is not taken yet. -/
  | fixed (block : Block) (access : Access)
  /-- An optimistic get has the latch and has not compared the modify clocks yet. -/
  | latched (block : Block) (latch : RwLatch) (clock : Nat)
  /-- The function has returned the block to its caller. -/
  | holding (block : Block) (latch : Option RwLatch)
  /-- The latch is free again, or was not obtained; the buffer fix is still there. -/
  | unfixing (block : Block)
deriving DecidableEq, Repr

/-- A thread and the cursor position it has stored: a block and its modify clock. -/
structure Thread (Block : Type) where
  place : Place Block
  stored : Option (Block × Nat)

inductive Replacer (Block : Type)
  | idle
  /-- The block is marked, latched and fixed for output. -/
  | selected (block : Block)
  | written (block : Block)
  /-- The device has read the other page into the frame. -/
  | overwritten (block : Block)
  | completed (block : Block)
  | removed (block : Block)
deriving DecidableEq, Repr

structure Pool (Block Tid : Type) where
  block : Block → BufBlock
  /-- The page hash entry of the victim page. -/
  hashCell : Option Block
  /-- The version of each page on storage. -/
  storage : PageId → Nat
  /-- The newest version of the victim page. -/
  newest : Nat
  /-- Whether the adaptive hash index has nodes for records of the victim page that point
  into the frame of a block. -/
  hashIndex : Block → Bool
  /-- Whether `block->index` is set while the block holds the victim page. -/
  index : Block → Bool
  replacer : Replacer Block
  thread : Tid → Thread Block

inductive Action (Block Tid : Type)
  | flushPageWithRwCmd (block : Block)
  | deviceWrite
  | deviceRead
  | ioComplete
  | removeHashed
  | initForOther
  | freeNonFilePage
  | readVictim (block : Block)
  | getGen (tid : Tid) (latch : Option RwLatch)
  | optimisticGet (tid : Tid) (latch : RwLatch)
  | knownNowait (tid : Tid) (latch : RwLatch) (block : Block)
  | tryGet (tid : Tid)
  | proceed (tid : Tid)
  | buildPageHashIndex (tid : Tid)
  | dropPageHashIndex (tid : Tid)
  | storePosition (tid : Tid)
  | modify (tid : Tid) (clockInc : Bool)
  | release (tid : Tid)
  | unfix (tid : Tid)

namespace Pool

variable {Block Tid : Type}

section SetBlock

variable [DecidableEq Block] (pool : Pool Block Tid) (block : Block) (value : BufBlock)

def setBlock : Pool Block Tid :=
  { pool with block := update pool.block block value }

@[simp] theorem setBlock_block :
    (pool.setBlock block value).block = update pool.block block value := rfl

@[simp] theorem setBlock_hashCell : (pool.setBlock block value).hashCell = pool.hashCell := rfl

@[simp] theorem setBlock_storage : (pool.setBlock block value).storage = pool.storage := rfl

@[simp] theorem setBlock_newest : (pool.setBlock block value).newest = pool.newest := rfl

@[simp] theorem setBlock_replacer : (pool.setBlock block value).replacer = pool.replacer := rfl

@[simp] theorem setBlock_thread : (pool.setBlock block value).thread = pool.thread := rfl

theorem setBlock_self : pool.setBlock block (pool.block block) = pool := by
  simp [setBlock]

end SetBlock

section SetPlace

variable [DecidableEq Tid] (pool : Pool Block Tid) (tid : Tid) (place : Place Block)

def setPlace : Pool Block Tid :=
  { pool with
    thread := update pool.thread tid { pool.thread tid with place := place } }

@[simp] theorem setPlace_block : (pool.setPlace tid place).block = pool.block := rfl

@[simp] theorem setPlace_hashCell : (pool.setPlace tid place).hashCell = pool.hashCell := rfl

@[simp] theorem setPlace_storage : (pool.setPlace tid place).storage = pool.storage := rfl

@[simp] theorem setPlace_newest : (pool.setPlace tid place).newest = pool.newest := rfl

@[simp] theorem setPlace_replacer : (pool.setPlace tid place).replacer = pool.replacer := rfl

@[simp] theorem setPlace_thread :
    (pool.setPlace tid place).thread =
      update pool.thread tid { pool.thread tid with place := place } := rfl

end SetPlace

variable [DecidableEq Block] [DecidableEq Tid]

/-- A thread that gets `fixed` as its block goes on to the latch; one that gets none stays
where it is and its function returns or tries again. -/
def enter (pool : Pool Block Tid) (tid : Tid) (block : Block) (fixed : Option BufBlock)
    (access : Access) : Pool Block Tid :=
  match fixed with
  | some value => (pool.setBlock block value).setPlace tid (.fixed block access)
  | none => pool

/-- The next operation of a thread that has a buffer fix but is not done yet.  Only
`buf_page_get_gen` waits for its latch; it has no next operation until the latch is free. -/
def proceed (pool : Pool Block Tid) (tid : Tid) : Option (Pool Block Tid) :=
  match (pool.thread tid).place with
  | .fixed block (.getGen none) => some (pool.setPlace tid (.holding block none))
  | .fixed block (.getGen (some latch)) =>
    match (pool.block block).latchNowait latch with
    | some value =>
      some ((pool.setBlock block value).setPlace tid (.holding block (some latch)))
    | none => none
  | .fixed block (.optimisticGet latch clock) =>
    match (pool.block block).latchNowait latch with
    | some value =>
      some ((pool.setBlock block value).setPlace tid (.latched block latch clock))
    | none => some (pool.setPlace tid (.unfixing block))
  | .fixed block (.knownNowait latch) =>
    match (pool.block block).latchNowait latch with
    | some value =>
      some ((pool.setBlock block value).setPlace tid (.holding block (some latch)))
    | none => some (pool.setPlace tid (.unfixing block))
  | .fixed block .tryGet =>
    match (pool.block block).tryGetLatch with
    | some (latch, value) =>
      some ((pool.setBlock block value).setPlace tid (.holding block (some latch)))
    | none => some (pool.setPlace tid (.unfixing block))
  | .latched block latch clock =>
    if clock = (pool.block block).modifyClock then
      some (pool.setPlace tid (.holding block (some latch)))
    else
      some ((pool.setBlock block ((pool.block block).unlatch latch)).setPlace tid
        (.unfixing block))
  | _ => none

/-- One action of the replacing thread, on its way through `buf_LRU_get_free_block` and
`buf_page_init_for_read`.  The victim comes from the LRU list, so it is a file page that
the page hash finds. -/
def replace (victim other : PageId) (pool : Pool Block Tid) :
    Action Block Tid → Option (Pool Block Tid)
  | .flushPageWithRwCmd block =>
    if pool.replacer = .idle ∧ pool.hashCell = some block then
      match (pool.block block).flushPageWithRwCmd with
      | some value => some { pool.setBlock block value with replacer := .selected block }
      | none => none
    else none
  | .deviceWrite =>
    match pool.replacer with
    | .selected block =>
      some { pool with
        storage :=
          update pool.storage victim (pool.block block).frame.version
        replacer := .written block }
    | _ => none
  | .deviceRead =>
    match pool.replacer with
    | .written block =>
      let value := { pool.block block with frame := ⟨other, pool.storage other⟩ }
      some { pool.setBlock block value with replacer := .overwritten block }
    | _ => none
  | .ioComplete =>
    match pool.replacer with
    | .overwritten block =>
      some { pool.setBlock block (pool.block block).ioComplete with
        replacer := .completed block }
    | _ => none
  | .removeHashed =>
    match pool.replacer with
    | .completed block =>
      match (pool.block block).lruBlockRemoveHashedForRwCmd
          (decide (pool.hashCell = some block)) with
      | .ok value =>
        some { pool.setBlock block value with
          hashCell := none
          replacer := .removed block }
      | .error _ => none
    | _ => none
  | .initForOther =>
    match pool.replacer with
    | .removed block =>
      if other = victim then none
      else some { pool.setBlock block ((pool.block block).pageInit true) with
        index := update pool.index block false
        replacer := .idle }
    | _ => none
  | .freeNonFilePage =>
    match pool.replacer with
    | .removed block =>
      some { pool.setBlock block (pool.block block).lruBlockFreeNonFilePage with
        replacer := .idle }
    | _ => none
  | _ => none

/-- One action.  `readVictim` is the ordinary read of the victim page into a free block by
a thread that did not find it; the block is latched exclusively until the read is
complete, so the read counts as one action. -/
def step (victim other : PageId) (pool : Pool Block Tid) :
    Action Block Tid → Option (Pool Block Tid)
  | .readVictim block =>
    if pool.hashCell = none ∧ (pool.block block).state = .notUsed then
      let value := { (pool.block block).pageInit false with
        frame := ⟨victim, pool.storage victim⟩ }
      some { pool.setBlock block value with
        hashCell := some block
        index := update pool.index block false }
    else none
  | .getGen tid latch =>
    match (pool.thread tid).place, pool.hashCell with
    | .idle, some block =>
      some (pool.enter tid block (pool.block block).pageGetGen (.getGen latch))
    | _, _ => none
  | .optimisticGet tid latch =>
    match (pool.thread tid).place, (pool.thread tid).stored with
    | .idle, some (block, clock) =>
      some (pool.enter tid block (pool.block block).pageOptimisticGet
        (.optimisticGet latch clock))
    | _, _ => none
  | .knownNowait tid latch block =>
    if (pool.thread tid).place = .idle ∧ pool.hashIndex block = true then
      match (pool.block block).pageGetKnownNowait with
      | .ok fixed => some (pool.enter tid block fixed (.knownNowait latch))
      | .error _ => none
    else none
  | .tryGet tid =>
    match (pool.thread tid).place, pool.hashCell with
    | .idle, some block =>
      some (pool.enter tid block (pool.block block).pageTryGet .tryGet)
    | _, _ => none
  | .proceed tid => pool.proceed tid
  | .buildPageHashIndex tid =>
    match (pool.thread tid).place with
    | .holding block (some _) =>
      some { pool with
        hashIndex := update pool.hashIndex block true
        index := update pool.index block true }
    | _ => none
  | .dropPageHashIndex tid =>
    match (pool.thread tid).place with
    | .holding block (some _) =>
      -- nodes from an earlier stay of the page in this block are not found
      if pool.index block then
        some { pool with
          hashIndex := update pool.hashIndex block false
          index := update pool.index block false }
      else some pool
    | _ => none
  | .storePosition tid =>
    match (pool.thread tid).place with
    | .holding block (some _) =>
      some { pool with
        thread := update pool.thread tid
          { pool.thread tid with
            stored := some (block, (pool.block block).modifyClock) } }
    | _ => none
  | .modify tid clockInc =>
    match (pool.thread tid).place with
    | .holding block (some .x) =>
      some { pool.setBlock block
          ((pool.block block).modify (pool.newest + 1) clockInc) with
        newest := pool.newest + 1 }
    | _ => none
  | .release tid =>
    match (pool.thread tid).place with
    | .holding block (some latch) =>
      some ((pool.setBlock block ((pool.block block).unlatch latch)).setPlace tid
        (.unfixing block))
    | .holding block none => some (pool.setPlace tid (.unfixing block))
    | _ => none
  | .unfix tid =>
    match (pool.thread tid).place with
    | .unfixing block =>
      some ((pool.setBlock block (pool.block block).unfix).setPlace tid .idle)
    | _ => none
  | action => pool.replace victim other action

end Pool
end RwRbuf.Innodb.VictimAccess
