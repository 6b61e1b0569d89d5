import RwRbuf.Firmware.RequestQueues
import RwRbuf.Lib.LinkedList

/-! # The linked queues of the request pool

`request_allocation.c` keeps all queues in the two link fields of the requests, with a
header for each queue: one for each kind of queue, and for the NAND queues and the row
blocked queues one for each die.  A slot number has 16 bits and the value
`REQ_SLOT_TAG_NONE` stands for no slot; here it is `none`.
-/

namespace RwRbuf.Firmware.Requests

open LinkedList Function

/-- The queue headers.  A die is a channel and a way. -/
inductive PoolQueue (Die : Type)
  | free
  | slice
  | blockedByBufDep
  | blockedByRowAddrDep (die : Die)
  | nvmeDma
  | customCmd
  | nand (die : Die)
deriving DecidableEq

/-- The value of `reqQueueType` for the requests of a queue. -/
def PoolQueue.reqQueueType {Die : Type} : PoolQueue Die → ReqQueueType
  | free => .free
  | slice => .slice
  | blockedByBufDep => .blockedByBufDep
  | blockedByRowAddrDep _ => .blockedByRowAddrDep
  | nvmeDma => .nvmeDma
  | customCmd => .customCmd
  | nand _ => .nand

/-- The part of the pool that the queue functions read and write: the fields `reqQueueType`,
`prevReq` and `nextReq` of the slots, the queue headers and the three global counters. -/
structure LinkedPool (Tag Die : Type) where
  reqQueueType : Tag → Option ReqQueueType
  links : Links Tag
  ends : PoolQueue Die → Ends Tag
  reqCnt : PoolQueue Die → BitVec 16
  blockedReqCnt : BitVec 32
  notCompletedNandReqCnt : BitVec 32
  notCompletedCustomCmdCnt : BitVec 32

namespace LinkedPool

variable {Tag Die : Type} [DecidableEq Tag] [DecidableEq Die]

/-- `InitReqPool` for a pool of `size` slots.  It does not set `notCompletedCustomCmdCnt`,
which has no initializer either and so starts with zero. -/
def initReqPool (size : Nat) : LinkedPool (Fin size) Die where
  reqQueueType := fun _ => some .free
  links :=
    { prev := fun reqSlotTag =>
        if reqSlotTag.val = 0 then none
        else some ⟨reqSlotTag.val - 1, by omega⟩
      next := fun reqSlotTag =>
        if last : reqSlotTag.val + 1 < size then some ⟨reqSlotTag.val + 1, last⟩ else none }
  ends := fun which =>
    if which = .free then
      if pos : 0 < size then ⟨some ⟨0, pos⟩, some ⟨size - 1, by omega⟩⟩ else .empty
    else .empty
  reqCnt := fun which => if which = .free then BitVec.ofNat 16 size else 0
  blockedReqCnt := 0
  notCompletedNandReqCnt := 0
  notCompletedCustomCmdCnt := 0

variable (pool : LinkedPool Tag Die)

/-- The part that the functions `PutTo...` share. -/
def putTo (which : PoolQueue Die) (reqSlotTag : Tag) : LinkedPool Tag Die :=
  let pushed := pushBack pool.links (pool.ends which) reqSlotTag
  { pool with
    links := pushed.1
    ends := update pool.ends which pushed.2
    reqQueueType := update pool.reqQueueType reqSlotTag (some which.reqQueueType)
    reqCnt := update pool.reqCnt which (pool.reqCnt which + 1) }

/-- The part that the functions `GetFrom...` share: they take the head of the queue. -/
def getFrom (which : PoolQueue Die) : Option (Tag × LinkedPool Tag Die) :=
  (pool.ends which).head.map fun reqSlotTag =>
    let popped := popFront pool.links (pool.ends which) reqSlotTag
    (reqSlotTag, { pool with
      links := popped.1
      ends := update pool.ends which popped.2
      reqQueueType := update pool.reqQueueType reqSlotTag none
      reqCnt := update pool.reqCnt which (pool.reqCnt which - 1) })

/-- The part that the functions `SelectiveGetFrom...` share: they unlink a given slot. -/
def selectiveGetFrom (which : PoolQueue Die) (reqSlotTag : Tag) : LinkedPool Tag Die :=
  let unlinked := unlink pool.links (pool.ends which) reqSlotTag
  { pool with
    links := unlinked.1
    ends := update pool.ends which unlinked.2
    reqQueueType := update pool.reqQueueType reqSlotTag none
    reqCnt := update pool.reqCnt which (pool.reqCnt which - 1) }

def putToFreeReqQ (reqSlotTag : Tag) : LinkedPool Tag Die := pool.putTo .free reqSlotTag

/-- The value is `none` where the function waits in `SyncAvailFreeReq`. -/
def getFromFreeReqQ : Option (Tag × LinkedPool Tag Die) := pool.getFrom .free

def putToSliceReqQ (reqSlotTag : Tag) : LinkedPool Tag Die := pool.putTo .slice reqSlotTag

/-- The value is `none` where the function returns `REQ_SLOT_TAG_FAIL`. -/
def getFromSliceReqQ : Option (Tag × LinkedPool Tag Die) := pool.getFrom .slice

def putToBlockedByBufDepReqQ (reqSlotTag : Tag) : LinkedPool Tag Die :=
  { pool.putTo .blockedByBufDep reqSlotTag with blockedReqCnt := pool.blockedReqCnt + 1 }

def selectiveGetFromBlockedByBufDepReqQ (reqSlotTag : Tag) : LinkedPool Tag Die :=
  { pool.selectiveGetFrom .blockedByBufDep reqSlotTag with
    blockedReqCnt := pool.blockedReqCnt - 1 }

def putToBlockedByRowAddrDepReqQ (reqSlotTag : Tag) (die : Die) : LinkedPool Tag Die :=
  { pool.putTo (.blockedByRowAddrDep die) reqSlotTag with
    blockedReqCnt := pool.blockedReqCnt + 1 }

def selectiveGetFromBlockedByRowAddrDepReqQ (reqSlotTag : Tag) (die : Die) : LinkedPool Tag Die :=
  { pool.selectiveGetFrom (.blockedByRowAddrDep die) reqSlotTag with
    blockedReqCnt := pool.blockedReqCnt - 1 }

def putToNvmeDmaReqQ (reqSlotTag : Tag) : LinkedPool Tag Die := pool.putTo .nvmeDma reqSlotTag

/-- `SelectiveGetFromNvmeDmaReqQ` up to its call of `PutToFreeReqQ`. -/
def selectiveGetFromNvmeDmaReqQ (reqSlotTag : Tag) : LinkedPool Tag Die :=
  pool.selectiveGetFrom .nvmeDma reqSlotTag

def putToNandReqQ (reqSlotTag : Tag) (die : Die) : LinkedPool Tag Die :=
  { pool.putTo (.nand die) reqSlotTag with
    notCompletedNandReqCnt := pool.notCompletedNandReqCnt + 1 }

/-- `GetFromNandReqQ` up to its call of `PutToFreeReqQ`.  The value is `none` on the
assert. -/
def getFromNandReqQ (die : Die) : Option (Tag × LinkedPool Tag Die) :=
  (pool.getFrom (.nand die)).map fun (reqSlotTag, taken) =>
    (reqSlotTag, { taken with
      notCompletedNandReqCnt := pool.notCompletedNandReqCnt - 1 })

def putToCustomCmdReqQ (reqSlotTag : Tag) : LinkedPool Tag Die :=
  { pool.putTo .customCmd reqSlotTag with
    notCompletedCustomCmdCnt := pool.notCompletedCustomCmdCnt + 1 }

/-- `SelectiveGetFromCustomCmdReqQ` up to its call of `PutToFreeReqQ`. -/
def selectiveGetFromCustomCmdReqQ (reqSlotTag : Tag) : LinkedPool Tag Die :=
  { pool.selectiveGetFrom .customCmd reqSlotTag with
    notCompletedCustomCmdCnt := pool.notCompletedCustomCmdCnt - 1 }

/-- The operation on the queues that each function performs.  A row blocked request is found
on the walk of `ReleaseBlockedByRowAddrDepReq` along the queue of its die. -/
inductive Performs : LinkedPool Tag Die → QueuePool.State.Op (PoolQueue Die) Tag →
    LinkedPool Tag Die → Prop
  | putToFreeReqQ {pool : LinkedPool Tag Die} {tag : Tag} :
      Performs pool (.put .free tag) (pool.putToFreeReqQ tag)
  | getFromFreeReqQ {pool pool' : LinkedPool Tag Die} {tag : Tag}
      (taken : pool.getFromFreeReqQ = some (tag, pool')) : Performs pool (.take .free tag) pool'
  | putToSliceReqQ {pool : LinkedPool Tag Die} {tag : Tag} :
      Performs pool (.put .slice tag) (pool.putToSliceReqQ tag)
  | getFromSliceReqQ {pool pool' : LinkedPool Tag Die} {tag : Tag}
      (taken : pool.getFromSliceReqQ = some (tag, pool')) : Performs pool (.take .slice tag) pool'
  | putToBlockedByBufDepReqQ {pool : LinkedPool Tag Die} {tag : Tag} :
      Performs pool (.put .blockedByBufDep tag) (pool.putToBlockedByBufDepReqQ tag)
  | selectiveGetFromBlockedByBufDepReqQ {pool : LinkedPool Tag Die} {tag : Tag} :
      Performs pool (.take .blockedByBufDep tag) (pool.selectiveGetFromBlockedByBufDepReqQ tag)
  | putToBlockedByRowAddrDepReqQ {pool : LinkedPool Tag Die} {tag : Tag} {die : Die} :
      Performs pool (.put (.blockedByRowAddrDep die) tag)
        (pool.putToBlockedByRowAddrDepReqQ tag die)
  | selectiveGetFromBlockedByRowAddrDepReqQ {pool : LinkedPool Tag Die} {tag : Tag} {die : Die}
      (met : Met pool.links (pool.ends (.blockedByRowAddrDep die)) tag) :
      Performs pool (.take (.blockedByRowAddrDep die) tag)
        (pool.selectiveGetFromBlockedByRowAddrDepReqQ tag die)
  | putToNvmeDmaReqQ {pool : LinkedPool Tag Die} {tag : Tag} :
      Performs pool (.put .nvmeDma tag) (pool.putToNvmeDmaReqQ tag)
  | selectiveGetFromNvmeDmaReqQ {pool : LinkedPool Tag Die} {tag : Tag} :
      Performs pool (.take .nvmeDma tag) (pool.selectiveGetFromNvmeDmaReqQ tag)
  | putToNandReqQ {pool : LinkedPool Tag Die} {tag : Tag} {die : Die} :
      Performs pool (.put (.nand die) tag) (pool.putToNandReqQ tag die)
  | getFromNandReqQ {pool pool' : LinkedPool Tag Die} {tag : Tag} {die : Die}
      (taken : pool.getFromNandReqQ die = some (tag, pool')) :
      Performs pool (.take (.nand die) tag) pool'
  | putToCustomCmdReqQ {pool : LinkedPool Tag Die} {tag : Tag} :
      Performs pool (.put .customCmd tag) (pool.putToCustomCmdReqQ tag)
  | selectiveGetFromCustomCmdReqQ {pool : LinkedPool Tag Die} {tag : Tag} :
      Performs pool (.take .customCmd tag) (pool.selectiveGetFromCustomCmdReqQ tag)

inductive PerformsAll : LinkedPool Tag Die → List (QueuePool.State.Op (PoolQueue Die) Tag) →
    LinkedPool Tag Die → Prop
  | nil {pool : LinkedPool Tag Die} : PerformsAll pool [] pool
  | cons {pool middle pool' : LinkedPool Tag Die}
      {op : QueuePool.State.Op (PoolQueue Die) Tag}
      {ops : List (QueuePool.State.Op (PoolQueue Die) Tag)} (first : Performs pool op middle)
      (rest : PerformsAll middle ops pool') : PerformsAll pool (op :: ops) pool'

variable {pool}

section Represents

open QueuePool.State

variable {state : QueuePool.State ReqQueueType Tag} {mark : Tag → Option (PoolQueue Die)}
  {which : PoolQueue Die} {tag : Tag}

/-- The headers and the links hold the queues; `mark` says in which of them a slot is. -/
structure Lists (pool : LinkedPool Tag Die) (state : QueuePool.State ReqQueueType Tag)
    (mark : Tag → Option (PoolQueue Die)) : Prop where
  consistent : state.Consistent
  refines : state.Refines PoolQueue.reqQueueType mark
  reqQueueType : pool.reqQueueType = state.mark
  family : Family pool.links pool.ends (state.split PoolQueue.reqQueueType mark).queue
  reqCnt : ∀ which, pool.reqCnt which =
    BitVec.ofNat 16 ((state.split PoolQueue.reqQueueType mark).queue which).length

/-- The global counters are the lengths of the queues, as far as they have bits for them. -/
structure Counters (pool : LinkedPool Tag Die) (state : QueuePool.State ReqQueueType Tag) :
    Prop where
  blockedReqCnt : pool.blockedReqCnt = BitVec.ofNat 32
    ((state.queue .blockedByBufDep).length + (state.queue .blockedByRowAddrDep).length)
  notCompletedNandReqCnt :
    pool.notCompletedNandReqCnt = BitVec.ofNat 32 (state.queue .nand).length
  notCompletedCustomCmdCnt :
    pool.notCompletedCustomCmdCnt = BitVec.ofNat 32 (state.queue .customCmd).length

theorem ofNat_succ (width count : Nat) :
    BitVec.ofNat width (count + 1) = BitVec.ofNat width count + 1 := by
  rw [BitVec.ofNat_add]
  rfl

theorem ofNat_pred (width count : Nat) :
    BitVec.ofNat width count = BitVec.ofNat width (count + 1) - 1 := by
  rw [ofNat_succ, BitVec.add_sub_cancel]

namespace Lists

section

variable (lists : Lists pool state mark)
include lists

omit [DecidableEq Tag] in
theorem mark_of_mem (member : tag ∈ (state.split PoolQueue.reqQueueType mark).queue which) :
    mark tag = some which :=
  (lists.consistent.split lists.refines).mem_iff.1 member

omit [DecidableEq Tag] in
theorem mem_of_mark (marked : mark tag = some which) :
    tag ∈ (state.split PoolQueue.reqQueueType mark).queue which :=
  (lists.consistent.split lists.refines).mem_iff.2 marked

omit [DecidableEq Tag] in
/-- A slot that is taken from the queue of a kind is in a queue of this kind. -/
theorem exists_mark {kind : ReqQueueType} (member : tag ∈ state.queue kind) :
    ∃ which, mark tag = some which ∧ which.reqQueueType = kind := by
  have marked := lists.consistent.mem_iff.1 member
  rw [lists.refines tag] at marked
  exact Option.map_eq_some_iff.1 marked

theorem putTo {rest : List Tag} (last : state.loose = rest ++ [tag]) :
    Lists (pool.putTo which tag) (state.put which.reqQueueType tag)
      (update mark tag (some which)) := by
  have unmarked : state.mark tag = none := lists.consistent.unmarked (by simp [last])
  have fresh : ∀ kind, tag ∉ state.queue kind := by
    intro kind member
    have marked := lists.consistent.mem_iff.1 member
    rw [unmarked] at marked
    cases marked
  have parts : (state.put which.reqQueueType tag).split PoolQueue.reqQueueType
      (update mark tag (some which)) =
        (state.split PoolQueue.reqQueueType mark).put which tag := split_put fresh
  constructor
  · exact lists.consistent.put last
  · exact lists.refines.put
  · show update pool.reqQueueType tag _ = update state.mark tag _
    rw [lists.reqQueueType]
  · rw [parts]
    apply lists.family.pushBack which
    intro key member
    exact fresh _ (List.mem_of_mem_filter member)
  · intro other
    rw [parts, length_put]
    show update pool.reqCnt which _ other = _
    by_cases same : other = which
    · subst same
      rw [update_self, if_pos rfl, ofNat_succ, lists.reqCnt]
    · rw [update_of_ne same, if_neg same, Nat.add_zero, lists.reqCnt]

/-- The count of the queue from which a slot was taken. -/
private theorem reqCnt_take (marked : mark tag = some which) (other : PoolQueue Die) :
    update pool.reqCnt which (pool.reqCnt which - 1) other = BitVec.ofNat 16
        (((state.split PoolQueue.reqQueueType mark).take which tag).queue other).length := by
  have length := length_take _ (lists.mem_of_mark marked) other
  by_cases same : other = which
  · subst same
    rw [if_pos rfl] at length
    rw [update_self, lists.reqCnt, length, ← ofNat_pred]
  · rw [if_neg same, Nat.add_zero] at length
    rw [update_of_ne same, lists.reqCnt, length]

theorem selectiveGetFrom (marked : mark tag = some which) :
    Lists (pool.selectiveGetFrom which tag) (state.take which.reqQueueType tag)
      (update mark tag none) := by
  have parts := split_take lists.consistent lists.refines marked
  have member := lists.mem_of_mark marked
  constructor
  · exact lists.consistent.take (List.mem_of_mem_filter member)
  · exact lists.refines.take _
  · show update pool.reqQueueType tag none = update state.mark tag none
    rw [lists.reqQueueType]
  · rw [parts]
    exact lists.family.unlink which member
  · rw [parts]
    exact lists.reqCnt_take marked

theorem getFrom {pool' : LinkedPool Tag Die} (taken : pool.getFrom which = some (tag, pool')) :
    mark tag = some which ∧
      Lists pool' (state.take which.reqQueueType tag) (update mark tag none) := by
  obtain ⟨first, head, same⟩ := Option.map_eq_some_iff.1 taken
  obtain ⟨rfl, rfl⟩ := Prod.mk.inj same
  rw [(lists.family.holds which).head] at head
  obtain ⟨rest, queue⟩ := List.head?_eq_some_iff.1 head
  have marked : mark first = some which := lists.mark_of_mem (by simp [queue])
  have parts := split_take lists.consistent lists.refines marked
  refine ⟨marked, ?_⟩
  constructor
  · exact lists.consistent.take (List.mem_of_mem_filter (lists.mem_of_mark marked))
  · exact lists.refines.take _
  · show update pool.reqQueueType first none = update state.mark first none
    rw [lists.reqQueueType]
  · have popped := lists.family.popFront which queue
    rw [parts]
    show Family _ _ (update _ which _)
    rw [queue, List.erase_cons_head]
    exact popped
  · rw [parts]
    exact lists.reqCnt_take marked

end

end Lists

end Represents
end LinkedPool
end RwRbuf.Firmware.Requests
