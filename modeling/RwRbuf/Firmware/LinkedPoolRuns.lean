import RwRbuf.Firmware.LinkedPool
import RwRbuf.Firmware.RequestChains
import Mathlib.Data.Fintype.Card

/-! # The linked queues along a run

The linked pool is carried along with the engine: each move of the engine is made by calls of
the queue functions.  In every state of such a run the links and the counters agree with the
queues of the engine, and the calls for the next move can be made.
-/

namespace RwRbuf.Firmware.Requests

open LinkedList QueuePool.State Fallible Relation

namespace LinkedPool

variable {Tag Die : Type} [DecidableEq Tag] [DecidableEq Die] {pool pool' : LinkedPool Tag Die}
  {state : QueuePool.State ReqQueueType Tag} {mark : Tag → Option (PoolQueue Die)} {tag : Tag}

namespace Counters

variable {kind : ReqQueueType}

omit [DecidableEq Tag] in
private theorem blocked_change {first second : QueuePool.State ReqQueueType Tag}
    (change : ∀ other, (second.queue other).length =
      (first.queue other).length + if other = kind then 1 else 0) :
    (second.queue .blockedByBufDep).length + (second.queue .blockedByRowAddrDep).length =
      (first.queue .blockedByBufDep).length + (first.queue .blockedByRowAddrDep).length +
        if kind = .blockedByBufDep ∨ kind = .blockedByRowAddrDep then 1 else 0 := by
  rw [change, change]
  cases kind <;> simp <;> omega

section

variable {count count' : BitVec 32} {length length' : Nat} {counted : Prop} [Decidable counted]
  (before : count = BitVec.ofNat 32 length)
include before

/-- A counter that counts up with its length. -/
private theorem count_up (change : length' = length + if counted then 1 else 0)
    (counts : count' = if counted then count + 1 else count) :
    count' = BitVec.ofNat 32 length' := by
  subst before change counts
  split
  · exact (ofNat_succ 32 length).symm
  · rfl

private theorem count_down (change : length = length' + if counted then 1 else 0)
    (counts : count' = if counted then count - 1 else count) :
    count' = BitVec.ofNat 32 length' := by
  subst before change counts
  split
  · exact (ofNat_pred 32 length').symm
  · rfl

end

omit [DecidableEq Die] in
theorem put (counters : Counters pool state)
    (blocked : pool'.blockedReqCnt =
      if kind = .blockedByBufDep ∨ kind = .blockedByRowAddrDep then pool.blockedReqCnt + 1
      else pool.blockedReqCnt)
    (nand : pool'.notCompletedNandReqCnt =
      if .nand = kind then pool.notCompletedNandReqCnt + 1 else pool.notCompletedNandReqCnt)
    (custom : pool'.notCompletedCustomCmdCnt =
      if .customCmd = kind then pool.notCompletedCustomCmdCnt + 1
      else pool.notCompletedCustomCmdCnt) :
    Counters pool' (state.put kind tag) := by
  have change := fun other => state.length_put kind other tag
  constructor
  · exact count_up counters.blockedReqCnt (blocked_change change) blocked
  · exact count_up counters.notCompletedNandReqCnt (change .nand) nand
  · exact count_up counters.notCompletedCustomCmdCnt (change .customCmd) custom

omit [DecidableEq Die] in
theorem take (counters : Counters pool state) (member : tag ∈ state.queue kind)
    (blocked : pool'.blockedReqCnt =
      if kind = .blockedByBufDep ∨ kind = .blockedByRowAddrDep then pool.blockedReqCnt - 1
      else pool.blockedReqCnt)
    (nand : pool'.notCompletedNandReqCnt =
      if .nand = kind then pool.notCompletedNandReqCnt - 1 else pool.notCompletedNandReqCnt)
    (custom : pool'.notCompletedCustomCmdCnt =
      if .customCmd = kind then pool.notCompletedCustomCmdCnt - 1
      else pool.notCompletedCustomCmdCnt) :
    Counters pool' (state.take kind tag) := by
  have change := state.length_take member
  constructor
  · exact count_down counters.blockedReqCnt (blocked_change change) blocked
  · exact count_down counters.notCompletedNandReqCnt (change .nand) nand
  · exact count_down counters.notCompletedCustomCmdCnt (change .customCmd) custom

end Counters

theorem exists_getFrom {which : PoolQueue Die} (head : (pool.ends which).head = some tag) :
    ∃ pool', pool.getFrom which = some (tag, pool') := by
  unfold getFrom
  rw [head]
  exact ⟨_, rfl⟩

theorem Counters.performs {op : Op (PoolQueue Die) Tag} (counters : Counters pool state)
    (performed : Performs pool op pool')
    (permitted : state.Permits ReqQueueType.HeadOnly (op.map PoolQueue.reqQueueType)) :
    Counters pool' (state.apply (op.map PoolQueue.reqQueueType)) := by
  cases performed with
  | putToFreeReqQ | putToSliceReqQ | putToBlockedByBufDepReqQ | putToBlockedByRowAddrDepReqQ
  | putToNvmeDmaReqQ | putToNandReqQ | putToCustomCmdReqQ =>
    exact counters.put rfl rfl rfl
  | getFromFreeReqQ taken | getFromSliceReqQ taken =>
    obtain ⟨_, _, same⟩ := Option.map_eq_some_iff.1 taken
    cases same
    exact counters.take permitted.1 rfl rfl rfl
  | selectiveGetFromBlockedByBufDepReqQ | selectiveGetFromBlockedByRowAddrDepReqQ
  | selectiveGetFromNvmeDmaReqQ | selectiveGetFromCustomCmdReqQ =>
    exact counters.take permitted.1 rfl rfl rfl
  | getFromNandReqQ taken =>
    obtain ⟨_, inner, same⟩ := Option.map_eq_some_iff.1 taken
    obtain ⟨_, _, rfl⟩ := Option.map_eq_some_iff.1 inner
    cases same
    exact counters.take permitted.1 rfl rfl rfl

namespace Lists

omit [DecidableEq Tag] [DecidableEq Die] in
/-- The lists do not depend on the global counters. -/
private theorem congr [DecidableEq Die] (lists : Lists pool state mark)
    (reqQueueType : pool'.reqQueueType = pool.reqQueueType) (links : pool'.links = pool.links)
    (ends : pool'.ends = pool.ends) (reqCnt : pool'.reqCnt = pool.reqCnt) :
    Lists pool' state mark := by
  constructor
  · exact lists.consistent
  · exact lists.refines
  · rw [reqQueueType, lists.reqQueueType]
  · rw [links, ends]
    exact lists.family
  · rw [reqCnt]
    exact lists.reqCnt

section

variable (lists : Lists pool state mark) {which : PoolQueue Die}
include lists

omit [DecidableEq Tag] in
/-- The slots of a kind that has one queue only. -/
private theorem mark_of_only
    (only : ∀ other, other.reqQueueType = which.reqQueueType → other = which)
    (member : tag ∈ state.queue which.reqQueueType) : mark tag = some which := by
  obtain ⟨other, marked, kind⟩ := lists.exists_mark member
  rw [marked, only other kind]

private theorem putCounted {rest : List Tag} (last : state.loose = rest ++ [tag])
    (reqQueueType : pool'.reqQueueType = (pool.putTo which tag).reqQueueType)
    (links : pool'.links = (pool.putTo which tag).links)
    (ends : pool'.ends = (pool.putTo which tag).ends)
    (reqCnt : pool'.reqCnt = (pool.putTo which tag).reqCnt) :
    ∃ mark', Lists pool' (state.put which.reqQueueType tag) mark' :=
  ⟨_, (lists.putTo last).congr reqQueueType links ends reqCnt⟩

private theorem takeCounted (marked : mark tag = some which)
    (reqQueueType : pool'.reqQueueType = (pool.selectiveGetFrom which tag).reqQueueType)
    (links : pool'.links = (pool.selectiveGetFrom which tag).links)
    (ends : pool'.ends = (pool.selectiveGetFrom which tag).ends)
    (reqCnt : pool'.reqCnt = (pool.selectiveGetFrom which tag).reqCnt) :
    ∃ mark', Lists pool' (state.take which.reqQueueType tag) mark' :=
  ⟨_, (lists.selectiveGetFrom marked).congr reqQueueType links ends reqCnt⟩

end

theorem performs {op : Op (PoolQueue Die) Tag} (lists : Lists pool state mark)
    (performed : Performs pool op pool')
    (permitted : state.Permits ReqQueueType.HeadOnly (op.map PoolQueue.reqQueueType)) :
    ∃ mark', Lists pool' (state.apply (op.map PoolQueue.reqQueueType)) mark' := by
  cases performed with
  | putToFreeReqQ | putToSliceReqQ | putToBlockedByBufDepReqQ | putToBlockedByRowAddrDepReqQ
  | putToNvmeDmaReqQ | putToNandReqQ | putToCustomCmdReqQ =>
    exact lists.putCounted permitted.choose_spec rfl rfl rfl rfl
  | getFromFreeReqQ taken | getFromSliceReqQ taken => exact ⟨_, (lists.getFrom taken).2⟩
  | @selectiveGetFromBlockedByBufDepReqQ tag =>
    have marked : mark tag = some .blockedByBufDep := by
      apply lists.mark_of_only _ permitted.1
      rintro (_ | _) ⟨⟩
      rfl
    exact lists.takeCounted marked rfl rfl rfl rfl
  | selectiveGetFromBlockedByRowAddrDepReqQ met =>
    have marked := lists.mark_of_mem ((lists.family.holds _).mem_of_met met)
    exact lists.takeCounted marked rfl rfl rfl rfl
  | @selectiveGetFromNvmeDmaReqQ tag =>
    have marked : mark tag = some .nvmeDma := by
      apply lists.mark_of_only _ permitted.1
      rintro (_ | _) ⟨⟩
      rfl
    exact lists.takeCounted marked rfl rfl rfl rfl
  | getFromNandReqQ taken =>
    obtain ⟨⟨first, rest⟩, inner, same⟩ := Option.map_eq_some_iff.1 taken
    cases same
    exact ⟨_, (lists.getFrom inner).2.congr rfl rfl rfl rfl⟩
  | @selectiveGetFromCustomCmdReqQ tag =>
    have marked : mark tag = some .customCmd := by
      apply lists.mark_of_only _ permitted.1
      rintro (_ | _) ⟨⟩
      rfl
    exact lists.takeCounted marked rfl rfl rfl rfl

section

variable (lists : Lists pool state mark) (which : PoolQueue Die)
  (only : ∀ other, other.reqQueueType = which.reqQueueType → other = which)
include lists which only

omit [DecidableEq Tag] in
theorem split_only :
    (state.split PoolQueue.reqQueueType mark).queue which = state.queue which.reqQueueType :=
  split_queue_of_only lists.consistent lists.refines only

private theorem exists_getFrom_of_only (first : (state.queue which.reqQueueType).head? = some tag) :
    ∃ pool', pool.getFrom which = some (tag, pool') := by
  apply exists_getFrom
  rw [(lists.family.holds which).head, lists.split_only which only, first]

end

/-- The queue functions can be called for whatever the queues permit; a flash request has to
be the head of the queue of its die. -/
theorem exists_performs (lists : Lists pool state mark) (dieOf : Tag → Die)
    {op : Op ReqQueueType Tag} (permitted : state.Permits ReqQueueType.HeadOnly op)
    (atHead : ∀ tag, op = .take .nand tag → ∃ die, (pool.ends (.nand die)).head = some tag) :
    ∃ op' pool', op'.map PoolQueue.reqQueueType = op ∧ Performs pool op' pool' := by
  cases op with
  | put kind tag =>
    cases kind with
    | free => exact ⟨.put .free tag, _, rfl, .putToFreeReqQ⟩
    | slice => exact ⟨.put .slice tag, _, rfl, .putToSliceReqQ⟩
    | blockedByBufDep => exact ⟨.put .blockedByBufDep tag, _, rfl, .putToBlockedByBufDepReqQ⟩
    | blockedByRowAddrDep =>
      exact ⟨.put (.blockedByRowAddrDep (dieOf tag)) tag, _, rfl,
        .putToBlockedByRowAddrDepReqQ⟩
    | nvmeDma => exact ⟨.put .nvmeDma tag, _, rfl, .putToNvmeDmaReqQ⟩
    | customCmd => exact ⟨.put .customCmd tag, _, rfl, .putToCustomCmdReqQ⟩
    | nand => exact ⟨.put (.nand (dieOf tag)) tag, _, rfl, .putToNandReqQ⟩
  | take kind tag =>
    cases kind with
    | free =>
      obtain ⟨pool', taken⟩ := lists.exists_getFrom_of_only .free (by rintro (_ | _) ⟨⟩; rfl)
        (permitted.2 (.inl rfl))
      exact ⟨.take .free tag, pool', rfl, .getFromFreeReqQ taken⟩
    | slice =>
      obtain ⟨pool', taken⟩ := lists.exists_getFrom_of_only .slice (by rintro (_ | _) ⟨⟩; rfl)
        (permitted.2 (.inr rfl))
      exact ⟨.take .slice tag, pool', rfl, .getFromSliceReqQ taken⟩
    | blockedByBufDep =>
      exact ⟨.take .blockedByBufDep tag, _, rfl, .selectiveGetFromBlockedByBufDepReqQ⟩
    | blockedByRowAddrDep =>
      obtain ⟨which, marked, kind⟩ := lists.exists_mark permitted.1
      cases which with
      | blockedByRowAddrDep die =>
        have met := (lists.family.holds _).met_of_mem (lists.mem_of_mark marked)
        exact ⟨.take (.blockedByRowAddrDep die) tag, _, rfl,
          .selectiveGetFromBlockedByRowAddrDepReqQ met⟩
      | _ => cases kind
    | nvmeDma => exact ⟨.take .nvmeDma tag, _, rfl, .selectiveGetFromNvmeDmaReqQ⟩
    | customCmd => exact ⟨.take .customCmd tag, _, rfl, .selectiveGetFromCustomCmdReqQ⟩
    | nand =>
      obtain ⟨die, head⟩ := atHead tag rfl
      obtain ⟨pool', taken⟩ := exists_getFrom head
      have counted : pool.getFromNandReqQ die = some (tag, { pool' with
          notCompletedNandReqCnt := pool.notCompletedNandReqCnt - 1 }) := by
        rw [getFromNandReqQ, taken]
        rfl
      exact ⟨.take (.nand die) tag, _, rfl, .getFromNandReqQ counted⟩

variable {final : QueuePool.State ReqQueueType Tag}

theorem exists_performsAll
    {ops : List (Op ReqQueueType Tag)} (lists : Lists pool state mark) (dieOf : Tag → Die)
    (others : ∀ tag, .take .nand tag ∉ ops) (path : Path ReqQueueType.HeadOnly state ops final) :
    ∃ ops' pool', ops'.map (Op.map PoolQueue.reqQueueType) = ops ∧
      PerformsAll pool ops' pool' := by
  induction path generalizing pool mark with
  | nil => exact ⟨[], pool, rfl, .nil⟩
  | @cons _ _ op ops permitted _ ih =>
    obtain ⟨op', middle, rfl, performed⟩ := lists.exists_performs dieOf permitted (by
      rintro tag rfl
      exact absurd List.mem_cons_self (others tag))
    obtain ⟨mark', lists'⟩ := lists.performs performed permitted
    obtain ⟨ops', pool', rfl, rest⟩ := ih lists' fun tag member =>
      others tag (List.mem_cons_of_mem _ member)
    exact ⟨op' :: ops', pool', rfl, .cons performed rest⟩

theorem performsAll {ops : List (Op (PoolQueue Die) Tag)} (lists : Lists pool state mark)
    (counters : Counters pool state) (performed : PerformsAll pool ops pool')
    (path : Path ReqQueueType.HeadOnly state (ops.map (Op.map PoolQueue.reqQueueType)) final) :
    (∃ mark', Lists pool' final mark') ∧ Counters pool' final := by
  induction performed generalizing state mark with
  | nil =>
    cases path
    exact ⟨⟨mark, lists⟩, counters⟩
  | cons first _ ih =>
    cases path with
    | cons permitted rest =>
      obtain ⟨mark', lists'⟩ := lists.performs first permitted
      exact ih lists' (counters.performs first permitted) rest

end Lists

/-- The links of the free queue after `InitReqPool`. -/
theorem initReqPool_holds (size : Nat) :
    Holds (initReqPool size : LinkedPool (Fin size) Die).links
      ((initReqPool size : LinkedPool (Fin size) Die).ends .free) (List.finRange size) := by
  have ends : (initReqPool size : LinkedPool (Fin size) Die).ends .free =
      if pos : 0 < size then ⟨some ⟨0, pos⟩, some ⟨size - 1, by omega⟩⟩ else .empty := by
    simp [initReqPool]
  constructor
  · exact List.nodup_finRange size
  · rw [ends, List.head?_eq_getElem?]
    split
    next pos => simp [pos]
    next empty => simp [empty, Ends.empty]
  · rw [ends, List.getLast?_eq_getElem?]
    split
    next pos =>
      have last : size - 1 < size := by omega
      simp [last]
    next empty =>
      have none : (List.finRange size).length = 0 := by
        rw [List.length_finRange]
        omega
      rw [List.eq_nil_of_length_eq_zero none]
      rfl
  · apply segment_of_getElem?
    intro index node place
    obtain ⟨bound, rfl⟩ := List.getElem?_eq_some_iff.1 place
    rw [List.length_finRange] at bound
    constructor
    · by_cases first : index = 0
      · simp [initReqPool, first]
      · have before : index - 1 < size := by omega
        simp [initReqPool, first, before]
    · by_cases last : index + 1 < size <;> simp [initReqPool, last]

theorem initReqPool_lists (config : Config) :
    Lists (initReqPool config.poolSize : LinkedPool config.Tag Die)
      (config.initial.queueState none) fun _ => some .free := by
  have queues : ∀ which : PoolQueue Die,
      ((config.initial.queueState none).split PoolQueue.reqQueueType fun _ =>
        some .free).queue which = if which = .free then List.finRange config.poolSize else [] := by
    intro which
    by_cases free : which = .free
    · subst free
      simp [split, Engine.queueState, Config.initial, PoolQueue.reqQueueType]
    · simp [split, free, Ne.symm free]
  constructor
  · exact config.initial_queues.consistent
  · intro tag
    rfl
  · rfl
  · constructor
    · intro which
      rw [queues]
      by_cases free : which = .free
      · subst free
        exact initReqPool_holds config.poolSize
      · simp only [initReqPool, if_neg free]
        exact holds_empty _
    · intro key key' node inFirst inSecond
      rw [queues] at inFirst inSecond
      by_cases first : key = .free
      · by_cases second : key' = .free
        · rw [first, second]
        · simp [second] at inSecond
      · simp [first] at inFirst
  · intro which
    rw [queues]
    by_cases free : which = .free <;> simp [initReqPool, free]

end LinkedPool

section Runs

variable {Tag Die : Type} [DecidableEq Tag] [DecidableEq Die]
  {allowed : Engine Tag → Event Tag → Prop}

/-- The slots of the translation in progress and the one in hand. -/
def Moment.processed (moment : Moment Tag) : List Tag :=
  moment.engine.stage.held ++ moment.inHand.toList

def Moment.queueState (moment : Moment Tag) : QueuePool.State ReqQueueType Tag :=
  moment.engine.queueState moment.inHand

/-- A move of the engine with the calls of the queue functions that make it. -/
def PoolStep (allowed : Engine Tag → Event Tag → Prop)
    (before after : Moment Tag × LinkedPool Tag Die) : Prop :=
  Move allowed before.1 after.1 ∧
    ∃ ops, Path ReqQueueType.HeadOnly before.1.queueState
        (ops.map (Op.map PoolQueue.reqQueueType)) after.1.queueState ∧
      LinkedPool.PerformsAll before.2 ops after.2

/-- What holds of the linked pool while the slots `processed` are in use: the headers and the
links hold the queues `lists`, every other slot is in exactly one of them, which its field
`reqQueueType` names, and the counters are the lengths. -/
structure LinkedPool.WellFormed [Fintype Die] (pool : LinkedPool Tag Die) (processed : List Tag)
    (lists : PoolQueue Die → List Tag) : Prop where
  linked : ∀ which, Holds pool.links (pool.ends which) (lists which)
  placed : ∀ tag, tag ∉ processed → ∃! which, tag ∈ lists which
  named : ∀ {tag which}, tag ∈ lists which →
    pool.reqQueueType tag = some which.reqQueueType ∧ tag ∉ processed
  reqCnt : ∀ which, (pool.reqCnt which).toNat = (lists which).length
  blockedReqCnt : pool.blockedReqCnt.toNat = (lists .blockedByBufDep).length +
    ∑ die, (lists (.blockedByRowAddrDep die)).length
  notCompletedNandReqCnt :
    pool.notCompletedNandReqCnt.toNat = ∑ die, (lists (.nand die)).length
  notCompletedCustomCmdCnt :
    pool.notCompletedCustomCmdCnt.toNat = (lists .customCmd).length

structure Tracked (moment : Moment Tag) (pool : LinkedPool Tag Die) : Prop where
  queues : moment.engine.Queues moment.inHand
  complete : moment.queueState.Complete
  lists : ∃ mark, LinkedPool.Lists pool moment.queueState mark
  counters : LinkedPool.Counters pool moment.queueState

theorem Tracked.step {before after : Moment Tag × LinkedPool Tag Die}
    (tracked : Tracked before.1 before.2) (step : PoolStep allowed before after) :
    Tracked after.1 after.2 := by
  obtain ⟨move, ops, path, performed⟩ := step
  obtain ⟨mark, lists⟩ := tracked.lists
  have performed := lists.performsAll tracked.counters performed path
  constructor
  · exact tracked.queues.move move
  · exact tracked.complete.path path
  · exact performed.1
  · exact performed.2

section

variable {moment after : Moment Tag} {pool : LinkedPool Tag Die} (tracked : Tracked moment pool)
  (dieOf : Tag → Die)
include tracked dieOf

/-- The calls for a move can be made, if a flash request that it completes is the head of
the queue of its die. -/
theorem Tracked.exists_step (move : Move allowed moment after)
    (atHead : ∀ tag pass, allowed moment.engine (.nandDone tag pass) →
      tag ∈ moment.engine.queue .nand → tag ∉ after.engine.queue .nand →
      ∃ die, (pool.ends (.nand die)).head = some tag) :
    ∃ pool', PoolStep allowed (moment, pool) (after, pool') := by
  obtain ⟨mark, lists⟩ := tracked.lists
  rcases tracked.queues.follows move with follows | ⟨tag, pass, permitted, queued, left, follows⟩
  · obtain ⟨ops, others, path⟩ := follows.path
    obtain ⟨ops', pool', rfl, performed⟩ := lists.exists_performsAll dieOf others path
    exact ⟨pool', move, ops', path, performed⟩
  · obtain ⟨ops, others, path⟩ := follows.path
    replace path : Path ReqQueueType.HeadOnly moment.queueState (.take .nand tag :: ops)
      after.queueState := path
    cases path with
    | cons taken rest =>
      obtain ⟨op, middle, same, first⟩ := lists.exists_performs dieOf taken (by
        rintro other ⟨⟩
        exact atHead tag pass permitted queued left)
      rw [← same] at taken rest
      obtain ⟨mark', lists'⟩ := lists.performs first taken
      obtain ⟨ops', pool', rfl, performed⟩ := lists'.exists_performsAll dieOf others rest
      exact ⟨pool', move, op :: ops', .cons taken rest, .cons first performed⟩

theorem Tracked.exists_run (never : ∀ engine tag pass, ¬allowed engine (.nandDone tag pass))
    (moves : Moves allowed moment after) :
    ∃ pool', ReflTransGen (PoolStep allowed) (moment, pool) (after, pool') ∧
      Tracked after pool' := by
  induction moves with
  | refl => exact ⟨pool, .refl, tracked⟩
  | tail _ move ih =>
    obtain ⟨middle, run, reached⟩ := ih
    obtain ⟨pool', step⟩ := reached.exists_step dieOf move fun tag pass permitted =>
      absurd permitted (never _ tag pass)
    exact ⟨pool', .tail run step, reached.step step⟩

end

omit [DecidableEq Tag] in
/-- A walk along the predecessors meets the requests that the poll has still to visit. -/
theorem Tracked.prev_of_walk {moment : Moment Tag} {pool : LinkedPool Tag Die}
    (tracked : Tracked moment pool) {which : ReqQueueType} {tag : Tag} {rest : List Tag}
    (walk : moment.engine.poll.walk = some (which, tag :: rest)) :
    pool.links.prev tag = rest.head? := by
  obtain ⟨mark, lists⟩ := tracked.lists
  obtain ⟨later, queue⟩ := tracked.queues.walked walk
  have listed : ∃ key : PoolQueue Die,
      Holds pool.links (pool.ends key) (moment.engine.queue which) := by
    rcases Engine.Queues.walk_queue walk with rfl | rfl
    · refine ⟨.nvmeDma, ?_⟩
      have holds := lists.family.holds .nvmeDma
      rw [lists.split_only .nvmeDma (by rintro (_ | _) ⟨⟩; rfl)] at holds
      exact holds
    · refine ⟨.customCmd, ?_⟩
      have holds := lists.family.holds .customCmd
      rw [lists.split_only .customCmd (by rintro (_ | _) ⟨⟩; rfl)] at holds
      exact holds
  obtain ⟨key, holds⟩ := listed
  rw [← queue, List.reverse_cons, List.append_assoc, List.singleton_append] at holds
  rw [holds.neighbours.1, List.getLast?_reverse]

omit [DecidableEq Tag] in
theorem Tracked.wellFormed [Fintype Tag] [Fintype Die] {moment : Moment Tag}
    {pool : LinkedPool Tag Die} (tracked : Tracked moment pool) (few : Fintype.card Tag < 2 ^ 16) :
    ∃ lists, pool.WellFormed moment.processed lists := by
  obtain ⟨mark, lists⟩ := tracked.lists
  have consistent := lists.consistent.split lists.refines
  have short : ∀ which, (moment.queueState.queue which).length < 2 ^ 16 := by
    intro which
    exact Nat.lt_of_le_of_lt (List.Nodup.length_le_card (lists.consistent.nodup which)) few
  have rows : ∑ die, ((moment.queueState.split PoolQueue.reqQueueType mark).queue
      (.blockedByRowAddrDep die)).length =
        (moment.queueState.queue .blockedByRowAddrDep).length := by
    apply sum_length_split lists.consistent lists.refines
    · rintro die die' ⟨⟩
      rfl
    · rintro (_ | _) <;> simp [PoolQueue.reqQueueType]
  have nands : ∑ die, ((moment.queueState.split PoolQueue.reqQueueType mark).queue
      (.nand die)).length = (moment.queueState.queue .nand).length := by
    apply sum_length_split lists.consistent lists.refines
    · rintro die die' ⟨⟩
      rfl
    · rintro (_ | _) <;> simp [PoolQueue.reqQueueType]
  have bufDep := lists.split_only .blockedByBufDep (by rintro (_ | _) ⟨⟩; rfl)
  have customCmd := lists.split_only .customCmd (by rintro (_ | _) ⟨⟩; rfl)
  refine ⟨(moment.queueState.split PoolQueue.reqQueueType mark).queue, ?_⟩
  constructor
  · exact lists.family.holds
  · intro tag free
    cases marked : mark tag with
    | none =>
      have unmarked := lists.refines tag
      rw [marked] at unmarked
      exact absurd (tracked.complete tag unmarked) free
    | some which =>
      refine ⟨which, consistent.mem_iff.2 marked, ?_⟩
      intro other listed
      exact lists.family.disjoint other which tag listed (consistent.mem_iff.2 marked)
  · intro tag which listed
    refine ⟨?_, consistent.not_loose listed⟩
    rw [lists.reqQueueType, lists.refines tag, lists.mark_of_mem listed, Option.map_some]
  · intro which
    have bound : ((moment.queueState.split PoolQueue.reqQueueType mark).queue which).length
        < 2 ^ 16 := Nat.lt_of_le_of_lt (List.Nodup.length_le_card (consistent.nodup which)) few
    rw [lists.reqCnt, BitVec.toNat_ofNat, Nat.mod_eq_of_lt bound]
  · have first := short .blockedByBufDep
    have second := short .blockedByRowAddrDep
    rw [tracked.counters.blockedReqCnt, BitVec.toNat_ofNat, rows, bufDep]
    apply Nat.mod_eq_of_lt
    show (moment.queueState.queue .blockedByBufDep).length + _ < 2 ^ 32
    omega
  · have bound := short .nand
    rw [tracked.counters.notCompletedNandReqCnt, BitVec.toNat_ofNat, nands]
    apply Nat.mod_eq_of_lt
    omega
  · have bound := short .customCmd
    rw [tracked.counters.notCompletedCustomCmdCnt, BitVec.toNat_ofNat, customCmd]
    apply Nat.mod_eq_of_lt
    show (moment.queueState.queue .customCmd).length < 2 ^ 32
    omega

theorem Config.initial_tracked (config : Config) :
    Tracked ⟨config.initial, none⟩
      (.initReqPool config.poolSize : LinkedPool config.Tag Die) := by
  constructor
  · exact config.initial_queues
  · intro tag unmarked
    cases unmarked
  · exact ⟨_, LinkedPool.initReqPool_lists config⟩
  · constructor <;> rfl

end Runs

/-- Along every run the linked pool is well formed, with the slots in processing outside the
queues; a poll finds the rest of its walk along the predecessors; and every move that the
engine can make can be made with the queue functions, if a flash request that completes is
the head of the queue of its die. -/
theorem linked_queues_wellFormed (config : Config) {Die : Type} [DecidableEq Die] [Fintype Die]
    [Nonempty Die] {allowed : Engine config.Tag → Event config.Tag → Prop}
    {moment : Moment config.Tag} {pool : LinkedPool config.Tag Die}
    (run : Relation.ReflTransGen (PoolStep allowed)
      (⟨config.initial, none⟩, .initReqPool config.poolSize) (moment, pool)) :
    (∃ lists, pool.WellFormed moment.processed lists) ∧
      (∀ which tag rest, moment.engine.poll.walk = some (which, tag :: rest) →
        pool.links.prev tag = rest.head?) ∧
      ∀ after, Move allowed moment after →
        (∀ tag pass, allowed moment.engine (.nandDone tag pass) →
          tag ∈ moment.engine.queue .nand → tag ∉ after.engine.queue .nand →
          ∃ die, (pool.ends (.nand die)).head = some tag) →
        ∃ pool', PoolStep allowed (moment, pool) (after, pool') := by
  have tracked : Tracked moment pool := by
    apply run_invariant (fun state => Tracked state.1 state.2) _ _ run
    · exact config.initial_tracked
    · intro before after tracked step
      exact tracked.step step
  refine ⟨?_, ?_, ?_⟩
  · apply tracked.wellFormed
    rw [Fintype.card_fin]
    exact config.poolSize_lt
  · intro which tag rest walk
    exact tracked.prev_of_walk walk
  · intro after move atHead
    exact tracked.exists_step (fun _ => Classical.arbitrary Die) move atHead

/-- A write-read command of one slice: its Rx request is in the custom queue and its Tx request
in the queue of the blocked requests. -/
theorem linked_queues_wellFormed_sameSlice :
    ∃ (pool : LinkedPool Config.oneDie.Tag (Fin 1)) (lists : PoolQueue (Fin 1) → _),
      pool.WellFormed [] lists ∧ pool.reqQueueType ⟨0, by decide⟩ = some .customCmd ∧
        pool.reqQueueType ⟨1, by decide⟩ = some .blockedByBufDep := by
  have reached : ReflTransGen (EventStep Engine.step
      fun _ event => ∀ tag pass, event ≠ .nandDone tag pass)
      Config.oneDie.initial sameSliceEngine := by
    apply sameSliceEngine_reached
    · rintro _ _ ⟨⟩
    · rintro _ _ _ _ ⟨⟩
  have moves := Engine.moves_of_run reached
  obtain ⟨pool, run, tracked⟩ := (Config.initial_tracked Config.oneDie).exists_run
    (fun _ => (0 : Fin 1)) (fun _ tag pass never => never tag pass rfl) moves
  obtain ⟨lists, wellFormed⟩ := (linked_queues_wellFormed Config.oneDie run).1
  obtain ⟨mark, linked⟩ := tracked.lists
  refine ⟨pool, lists, wellFormed, ?_, ?_⟩
  · rw [linked.reqQueueType]
    decide
  · rw [linked.reqQueueType]
    decide

/-- The FTL answers as after writes, now complete, that filled every block of the die but the
reserved one and overwrote all slices but one of some block: an eviction starts a garbage
collection, which waits with its read for a blocked erase and polls. -/
def gcReadEvents {Tag : Type} : List (Event Tag) :=
  .command (.read 0 0 3) :: List.replicate 8 (.advance ⟨[], true⟩) ++
    .command (.write 1 0 3) :: List.replicate 5 (.advance ⟨[], true⟩) ++
    .command (.read 2 4 3) :: List.replicate 3 (.advance ⟨[], true⟩) ++
    [.advance ⟨[.read 0], true⟩, .advance ⟨[], true⟩, .startPoll]

theorem gcReadEvents_run :
    (runEvents Engine.step gcReadEvents Config.oneDie.initial).isSome = true := by
  decide

def gcReadEngine : Engine Config.oneDie.Tag :=
  (runEvents Engine.step gcReadEvents Config.oneDie.initial).get gcReadEvents_run

/-- While the poll is about to visit the request in slot 0, the slots 2, 3 and 4 are in no
queue. -/
theorem three_slots_outside_queues :
    Relation.ReflTransGen (Fallible.EventStep Engine.step fun _ _ => True)
        Config.oneDie.initial gcReadEngine ∧
      (gcReadEngine.poll.walk.map fun walk => walk.2.map Fin.val) = some [0] ∧
      ∀ which, ⟨2, by decide⟩ ∉ gcReadEngine.queue which ∧
        ⟨3, by decide⟩ ∉ gcReadEngine.queue which ∧
        ⟨4, by decide⟩ ∉ gcReadEngine.queue which := by
  refine ⟨?_, by decide, ?_⟩
  · exact reaches_of_runEvents _ (fun _ _ _ => trivial)
      (Option.some_get gcReadEvents_run).symm
  · intro which
    cases which <;> decide

end RwRbuf.Firmware.Requests
