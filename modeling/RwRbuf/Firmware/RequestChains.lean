import RwRbuf.Firmware.RequestQueues
import RwRbuf.Lib.KeyedChains

/-! # The chains of blocked requests

The fields `prevBlockingReq`, `nextBlockingReq` and `blockingReqTail` chain the requests on
one buffer entry.  The chain of an entry consists of the requests on it that were handed to
`SelectLowLevelReqQ` and are not removed yet, in this order; all but the first one wait in
the queue of the requests that are blocked by a buffer.
-/

namespace RwRbuf.Firmware.Requests

open KeyedChains LinkedList Function Fallible Relation

variable {Tag : Type}

namespace Engine

section State

variable (engine : Engine Tag)

/-- The links of the requests, the last requests of the entries and the requests handed to
`SelectLowLevelReqQ`. -/
def chainState : KeyedChains.State Tag BufferRef where
  links :=
    { prev := fun tag => (engine.pool tag).prevBlockingReq
      next := fun tag => (engine.pool tag).nextBlockingReq }
  tail := fun ref => (engine.entryOf ref).blockingReqTail
  order := engine.handed
  key := fun tag => (engine.pool tag).dataBuf

/-- The requests on a buffer entry, in the order in which they were handed over. -/
def chainOf (ref : BufferRef) : List Tag := engine.chainState.chain ref

/-- The request was handed to `SelectLowLevelReqQ` and is not removed yet: it is in one of
the queues behind it, or it is being selected. -/
def Outstanding (inHand : Option Tag) (tag : Tag) : Prop :=
  (∃ which, (engine.pool tag).reqQueueType = some which ∧ which ≠ .free ∧ which ≠ .slice) ∨
    engine.stage.selecting = some tag ∨ inHand = some tag

def Waiting (inHand : Option Tag) (tag : Tag) : Prop :=
  (engine.pool tag).reqQueueType = some .blockedByBufDep ∨
    engine.stage.selecting = some tag ∨ inHand = some tag

end State

variable [DecidableEq Tag] {engine engine' before : Engine Tag} {inHand inHand' : Option Tag}
  {tag : Tag} {ref : BufferRef}

omit [DecidableEq Tag] in
theorem tail_setBlockingReqTail (buffer : BufferKind → BufferMap Tag) (ref other : BufferRef)
    (tail : Option Tag) :
    ((update buffer ref.kind ((buffer ref.kind).setBlockingReqTail ref.entry tail)
        other.kind).dataBuf other.entry).blockingReqTail =
      update (fun ref => ((buffer ref.kind).dataBuf ref.entry).blockingReqTail) ref tail
        other := by
  obtain ⟨kind, entry⟩ := ref
  obtain ⟨kind', entry'⟩ := other
  by_cases sameKind : kind' = kind
  · subst sameKind
    by_cases sameEntry : entry' = entry
    · subst sameEntry
      simp [BufferMap.setBlockingReqTail, BufferMap.setEntry]
    · simp [BufferMap.setBlockingReqTail, BufferMap.setEntry, sameEntry]
  · simp [sameKind]

/-- `UpdateDataBufEntryInfoBlockingReq` appends a request to the chain of its entry. -/
theorem chainState_link
    (prev : ∀ other, (before.pool other).prevBlockingReq = (engine.pool other).prevBlockingReq)
    (next : ∀ other, (before.pool other).nextBlockingReq = (engine.pool other).nextBlockingReq)
    (key : ∀ other, (before.pool other).dataBuf =
      update (fun other => (engine.pool other).dataBuf) tag (some ref) other)
    (tails : ∀ ref, (before.entryOf ref).blockingReqTail = (engine.entryOf ref).blockingReqTail)
    (handed : before.handed = engine.handed ++ [tag]) :
    (before.updateEntryInfoBlockingReq ref tag).chainState =
      engine.chainState.append tag (some ref) := by
  unfold chainState State.append
  congr 1
  · simp only [updateEntryInfoBlockingReq, linkPool, tails, Option.bind_some]
    cases (engine.entryOf ref).blockingReqTail with
    | none =>
      simp only [prev, next]
    | some last =>
      simp only [Links.setPrev, Links.setNext]
      congr 1
      · funext other
        by_cases isLast : other = last
        · subst isLast
          by_cases isTag : other = tag
          · subst isTag
            simp
          · simp [isTag, prev]
        · by_cases isTag : other = tag
          · subst isTag
            simp [isLast]
          · simp [isLast, isTag, prev]
      · funext other
        by_cases isLast : other = last
        · subst isLast
          simp
        · by_cases isTag : other = tag
          · subst isTag
            simp [isLast, next]
          · simp [isLast, isTag, next]
  · funext other
    have tail := tail_setBlockingReqTail before.buffer ref other (some tag)
    obtain agree := funext tails
    unfold entryOf at agree
    rw [agree] at tail
    exact tail
  · funext other
    rw [← key other]
    exact field_linkPool (·.dataBuf) (fun _ => rfl) _ _ tag other

/-- The entry of a removed request loses its last request if it is the removed one. -/
theorem tail_clearBlockingReqTail (buffer : BufferKind → BufferMap Tag)
    (dataBuf : Option BufferRef) (tag : Tag) (other : BufferRef) {tails : BufferRef → Option Tag}
    (agree : ∀ ref, ((buffer ref.kind).dataBuf ref.entry).blockingReqTail = tails ref) :
    ((clearBlockingReqTail buffer dataBuf tag other.kind).dataBuf other.entry).blockingReqTail =
      (match dataBuf with
        | none => tails
        | some ref => if tails ref = some tag then update tails ref none else tails)
        other := by
  obtain rfl := funext agree
  unfold clearBlockingReqTail
  cases dataBuf with
  | none => rfl
  | some ref =>
    dsimp only
    split
    · exact tail_setBlockingReqTail buffer ref other none
    · rfl

/-- The first half of `ReleaseBlockedByBufDepReq` removes a request from the chain of its
entry. -/
theorem chainState_unlink
    (prev : ∀ other, (before.pool other).prevBlockingReq = (engine.pool other).prevBlockingReq)
    (next : ∀ other, (before.pool other).nextBlockingReq = (engine.pool other).nextBlockingReq)
    (key : ∀ other, (before.pool other).dataBuf = (engine.pool other).dataBuf)
    (tails : ∀ ref, (before.entryOf ref).blockingReqTail = (engine.entryOf ref).blockingReqTail)
    (handed : before.handed = engine.handed.erase tag) :
    (before.unlink tag).chainState = engine.chainState.remove tag := by
  unfold chainState State.remove
  congr 1
  · simp only [unlink, unlinkPool, next]
    cases (engine.pool tag).nextBlockingReq with
    | none => simp only [prev, next]
    | some target =>
      simp only [Links.setPrev, Links.setNext]
      congr 1
      · funext other
        by_cases isTag : other = tag
        · subst isTag
          by_cases isTarget : other = target
          · subst isTarget
            simp
          · simp [isTarget, prev]
        · by_cases isTarget : other = target
          · subst isTarget
            simp [isTag]
          · simp [isTag, isTarget, prev]
      · funext other
        by_cases isTag : other = tag
        · subst isTag
          simp
        · by_cases isTarget : other = target
          · subst isTarget
            simp [isTag]
          · simp [isTag, isTarget, next]
  · funext other
    show ((clearBlockingReqTail before.buffer (before.pool tag).dataBuf tag other.kind).dataBuf
      other.entry).blockingReqTail = _
    rw [key]
    have tail := tail_clearBlockingReqTail before.buffer (engine.pool tag).dataBuf tag other tails
    dsimp only
    cases used : (engine.pool tag).dataBuf with
    | none | some ref => rwa [used] at tail
  · funext other
    refine Eq.trans ?_ (key other)
    exact field_unlinkPool (·.dataBuf) (fun _ => rfl) _ tag other

variable {map : BufferMap Tag}

omit [DecidableEq Tag] in
theorem tail_of_buffer {buffer : BufferKind → BufferMap Tag} {kind : BufferKind}
    (tail : ∀ entry, (map.dataBuf entry).blockingReqTail =
      ((buffer kind).dataBuf entry).blockingReqTail) (other : BufferRef) :
    ((update buffer kind map other.kind).dataBuf other.entry).blockingReqTail =
      ((buffer other.kind).dataBuf other.entry).blockingReqTail := by
  obtain ⟨kind', entry⟩ := other
  by_cases same : kind' = kind
  · subst same
    simpa using tail entry
  · simp [same]

omit [DecidableEq Tag] in
theorem tail_setDirty (map : BufferMap Tag) (dirty entry : Nat) :
    ((map.setDirty dirty).dataBuf entry).blockingReqTail =
      (map.dataBuf entry).blockingReqTail := by
  by_cases same : entry = dirty
  · subst same
    simp [BufferMap.setDirty, BufferMap.setEntry]
  · simp [BufferMap.setDirty, BufferMap.setEntry, same]

omit [DecidableEq Tag] in
theorem tail_bind (map : BufferMap Tag) (bound lsa entry : Nat) :
    ((map.bind bound lsa).dataBuf entry).blockingReqTail =
      (map.dataBuf entry).blockingReqTail := by
  by_cases same : entry = bound
  · subst same
    simp [BufferMap.bind, BufferMap.putToHashList, BufferMap.setEntry]
  · simp [BufferMap.bind, BufferMap.putToHashList, BufferMap.setEntry, same]

omit [DecidableEq Tag] in
theorem allocate_dataBuf {map map' : BufferMap Tag} {entry : Nat}
    (allocated : map.allocate = some (entry, map')) : map'.dataBuf = map.dataBuf := by
  obtain ⟨evicted, _, same⟩ := Option.map_eq_some_iff.1 allocated
  cases same
  unfold BufferMap.selectiveGetFromHashList
  split <;> rfl

/-- The chains are described by the requests handed over, which are the outstanding ones;
all but the first request of a chain wait. -/
structure Chains (engine : Engine Tag) (inHand : Option Tag) : Prop where
  chained : engine.chainState.Chained
  outstanding : ∀ tag, tag ∈ engine.handed ↔ engine.Outstanding inHand tag
  blocked : ∀ tag ∈ engine.handed, (engine.pool tag).prevBlockingReq ≠ none →
    engine.Waiting inHand tag
  front : ∀ tag, (engine.pool tag).reqQueueType = some .blockedByBufDep →
    (engine.pool tag).prevBlockingReq ≠ none

structure SameChains (engine engine' : Engine Tag) : Prop where
  prev : ∀ tag, (engine'.pool tag).prevBlockingReq = (engine.pool tag).prevBlockingReq
  next : ∀ tag, (engine'.pool tag).nextBlockingReq = (engine.pool tag).nextBlockingReq
  tail : ∀ ref, (engine'.entryOf ref).blockingReqTail = (engine.entryOf ref).blockingReqTail
  handed : engine'.handed = engine.handed

namespace SameChains

omit [DecidableEq Tag] in
theorem of_pool (pool : engine'.pool = engine.pool) (buffer : engine'.buffer = engine.buffer)
    (handed : engine'.handed = engine.handed) : SameChains engine engine' := by
  refine ⟨?_, ?_, ?_, handed⟩
  · simp [pool]
  · simp [pool]
  · simp [entryOf, buffer]

omit [DecidableEq Tag] in
theorem trans (first : SameChains engine before) (second : SameChains before engine') :
    SameChains engine engine' where
  prev := fun tag => (second.prev tag).trans (first.prev tag)
  next := fun tag => (second.next tag).trans (first.next tag)
  tail := fun ref => (second.tail ref).trans (first.tail ref)
  handed := second.handed.trans first.handed

theorem of_update {value : Request Tag}
    (pool : engine'.pool = update engine.pool tag value)
    (prev : value.prevBlockingReq = (engine.pool tag).prevBlockingReq)
    (next : value.nextBlockingReq = (engine.pool tag).nextBlockingReq)
    (buffer : engine'.buffer = engine.buffer) (handed : engine'.handed = engine.handed) :
    SameChains engine engine' := by
  refine ⟨?_, ?_, ?_, handed⟩
  · intro other
    rw [pool]
    by_cases same : other = tag
    · subst same
      simpa using prev
    · simp [same]
  · intro other
    rw [pool]
    by_cases same : other = tag
    · subst same
      simpa using next
    · simp [same]
  · simp [entryOf, buffer]

theorem putTo (engine : Engine Tag) (which : ReqQueueType) (tag : Tag) :
    SameChains engine (engine.putTo which tag) :=
  of_update rfl rfl rfl rfl rfl

theorem takeFrom (engine : Engine Tag) (which : ReqQueueType) (tag : Tag) :
    SameChains engine (engine.takeFrom which tag) :=
  of_update rfl rfl rfl rfl rfl

omit [DecidableEq Tag] in
/-- One buffer changes, but not the last requests of its entries. -/
theorem of_buffer {kind : BufferKind} (pool : engine'.pool = engine.pool)
    (buffer : engine'.buffer = update engine.buffer kind map)
    (tail : ∀ entry, (map.dataBuf entry).blockingReqTail =
      ((engine.buffer kind).dataBuf entry).blockingReqTail)
    (handed : engine'.handed = engine.handed) : SameChains engine engine' := by
  refine ⟨by simp [pool], by simp [pool], ?_, handed⟩
  intro ref
  unfold entryOf
  rw [buffer]
  exact tail_of_buffer tail ref

end SameChains

namespace Chains

section

variable (chains : Chains engine inHand) (links : SameChains engine engine')
  (key : ∀ tag ∈ engine.handed, (engine'.pool tag).dataBuf = (engine.pool tag).dataBuf)
include chains links key

omit [DecidableEq Tag] in
theorem same (outstanding : ∀ tag, engine'.Outstanding inHand' tag ↔ engine.Outstanding inHand tag)
    (waiting : ∀ tag, engine.Waiting inHand tag → (engine.pool tag).prevBlockingReq ≠ none →
      engine'.Waiting inHand' tag)
    (front : ∀ tag, (engine'.pool tag).reqQueueType = some .blockedByBufDep →
      (engine.pool tag).prevBlockingReq ≠ none) : Chains engine' inHand' where
  chained := by
    refine chains.chained.congr ?_ (funext links.tail) links.handed key
    unfold chainState
    simp only [links.prev, links.next]
  outstanding := by
    intro tag
    rw [links.handed, outstanding]
    exact chains.outstanding tag
  blocked := by
    intro tag listed blocked
    rw [links.handed] at listed
    rw [links.prev] at blocked
    exact waiting tag (chains.blocked tag listed blocked) blocked
  front := by
    intro tag queued
    rw [links.prev]
    exact front tag queued

omit [DecidableEq Tag] in
theorem still (mark : ∀ tag, (engine'.pool tag).reqQueueType = (engine.pool tag).reqQueueType)
    (selecting : engine'.stage.selecting = engine.stage.selecting) : Chains engine' inHand := by
  refine chains.same links key ?_ ?_ ?_
  · intro tag
    unfold Outstanding
    rw [mark, selecting]
  · intro tag waits _
    unfold Waiting
    rw [mark, selecting]
    exact waits
  · intro tag queued
    rw [mark] at queued
    exact chains.front tag queued

end

omit [DecidableEq Tag] in
theorem idle (chains : Chains engine inHand) (pool : engine'.pool = engine.pool)
    (buffer : engine'.buffer = engine.buffer) (handed : engine'.handed = engine.handed)
    (selecting : engine'.stage.selecting = engine.stage.selecting) : Chains engine' inHand :=
  chains.still (.of_pool pool buffer handed) (fun _ _ => by rw [pool]) (fun _ => by rw [pool])
    selecting

theorem aside (chains : Chains engine inHand) (links : SameChains engine engine')
    (others : ∀ other ≠ tag, (engine'.pool other).dataBuf = (engine.pool other).dataBuf ∧
      (engine'.pool other).reqQueueType = (engine.pool other).reqQueueType)
    (before : ¬engine.Outstanding inHand tag)
    (mark : (engine'.pool tag).reqQueueType = none ∨
      (engine'.pool tag).reqQueueType = some .slice)
    (selecting : engine'.stage.selecting = engine.stage.selecting) : Chains engine' inHand := by
  have after : ¬engine'.Outstanding inHand tag := by
    rintro (⟨which, queued, notFree, notSlice⟩ | selected | held)
    · rw [queued] at mark
      rcases mark with isNone | isSlice
      · cases isNone
      · exact notSlice (Option.some.inj isSlice)
    · exact before (.inr (.inl (selecting ▸ selected)))
    · exact before (.inr (.inr held))
  refine chains.same links ?_ ?_ ?_ ?_
  · intro other listed
    apply (others other _).1
    rintro rfl
    exact before ((chains.outstanding other).1 listed)
  · intro other
    by_cases same : other = tag
    · subst same
      exact iff_of_false after before
    · unfold Outstanding
      rw [(others other same).2, selecting]
  · intro other waits _
    have different : other ≠ tag := by
      rintro rfl
      apply before
      rcases waits with queued | selected | held
      · exact .inl ⟨_, queued, by decide, by decide⟩
      · exact .inr (.inl selected)
      · exact .inr (.inr held)
    unfold Waiting
    rw [(others other different).2, selecting]
    exact waits
  · intro other queued
    have different : other ≠ tag := by
      rintro rfl
      rw [queued] at mark
      rcases mark with isNone | isSlice
      · cases isNone
      · cases isSlice
    rw [(others other different).2] at queued
    exact chains.front other queued

theorem prev_of_append {key : Option BufferRef}
    (chain : engine'.chainState = engine.chainState.append tag key) {other : Tag}
    (different : other ≠ tag) :
    (engine'.pool other).prevBlockingReq = (engine.pool other).prevBlockingReq := by
  have links := congrArg (fun state => state.links.prev other) chain
  unfold State.append chainState at links
  dsimp only at links
  rw [links]
  split
  · rfl
  · simp [different]

/-- A request is handed to `SelectLowLevelReqQ` and is then in hand or being selected. -/
theorem append (chains : Chains engine none) (fresh : ¬engine.Outstanding none tag)
    {key : Option BufferRef} (chain : engine'.chainState = engine.chainState.append tag key)
    (marks : ∀ other ≠ tag, (engine'.pool other).reqQueueType =
      (engine.pool other).reqQueueType)
    (own : (engine'.pool tag).reqQueueType = none) (idle : engine.stage.selecting = none)
    (taken : (engine'.stage.selecting = none ∧ inHand' = some tag) ∨
      (engine'.stage.selecting = some tag ∧ inHand' = none)) : Chains engine' inHand' := by
  have absent : tag ∉ engine.handed := fun listed => fresh ((chains.outstanding tag).1 listed)
  have handed : engine'.handed = engine.handed ++ [tag] := congrArg State.order chain
  have held : ∀ other, (engine'.stage.selecting = some other ∨ inHand' = some other) ↔
      other = tag := by
    intro other
    rcases taken with ⟨selecting, hand⟩ | ⟨selecting, hand⟩ <;> simp [selecting, hand, eq_comm]
  refine ⟨?_, ?_, ?_, ?_⟩
  · rw [chain]
    exact chains.chained.append absent key
  · intro other
    rw [handed, List.mem_append, List.mem_singleton, chains.outstanding]
    unfold Outstanding
    rw [held]
    by_cases same : other = tag
    · simp [same]
    · rw [marks other same, idle]
      simp [same]
  · intro other listed blocked
    by_cases same : other = tag
    · exact .inr ((held other).2 same)
    · rw [prev_of_append chain same] at blocked
      rw [handed, List.mem_append, List.mem_singleton] at listed
      rcases chains.blocked other (listed.resolve_right same) blocked with queued | selected | hand
      · refine .inl ?_
        rw [marks other same]
        exact queued
      · rw [idle] at selected
        cases selected
      · cases hand
  · intro other queued
    have different : other ≠ tag := by
      rintro rfl
      rw [own] at queued
      cases queued
    rw [prev_of_append chain different]
    rw [marks other different] at queued
    exact chains.front other queued

variable {which : ReqQueueType}

/-- The request in hand goes into the queue that its link calls for. -/
theorem place (chains : Chains engine (some tag)) (links : SameChains engine engine')
    (key : ∀ other, (engine'.pool other).dataBuf = (engine.pool other).dataBuf)
    (others : ∀ other ≠ tag, (engine'.pool other).reqQueueType =
      (engine.pool other).reqQueueType)
    (own : (engine'.pool tag).reqQueueType = some which) (kind : which ≠ .free ∧ which ≠ .slice)
    (right : which = .blockedByBufDep ↔ (engine.pool tag).prevBlockingReq ≠ none)
    (selecting : engine'.stage.selecting = engine.stage.selecting) : Chains engine' none := by
  refine chains.same links (fun other _ => key other) ?_ ?_ ?_
  · intro other
    by_cases same : other = tag
    · subst same
      exact iff_of_true (.inl ⟨which, own, kind⟩) (.inr (.inr rfl))
    · unfold Outstanding
      rw [others other same, selecting]
      simp [Ne.symm same]
  · intro other waits blocked
    by_cases same : other = tag
    · subst same
      refine .inl ?_
      rw [own, right.2 blocked]
    · rcases waits with queued | selected | hand
      · exact .inl ((others other same).trans queued)
      · exact .inr (.inl (selecting.trans selected))
      · exact absurd (Option.some.inj hand).symm same
  · intro other queued
    by_cases same : other = tag
    · subst same
      rw [own] at queued
      exact right.1 (Option.some.inj queued)
    · rw [others other same] at queued
      exact chains.front other queued

omit [DecidableEq Tag] in
theorem not_selecting_of_mark (queues : Queues engine inHand)
    (queued : (engine.pool tag).reqQueueType = some which) : engine.stage.selecting ≠ some tag := by
  intro selected
  have held : tag ∈ engine.stage.held := by
    cases stage : engine.stage <;> simp_all [Stage.selecting, Stage.held]
  have unmarked := queues.consistent.unmarked (List.mem_append_left inHand.toList held)
  rw [show (engine.queueState inHand).mark tag = some which from queued] at unmarked
  cases unmarked

omit [DecidableEq Tag] in
/-- A request in a queue other than the one of the blocked requests is the first one of its
chain. -/
theorem prev_of_queued (chains : Chains engine none) (queues : Queues engine none)
    (queued : (engine.pool tag).reqQueueType = some which)
    (listed : tag ∈ engine.handed) (kind : which ≠ .blockedByBufDep) :
    (engine.pool tag).prevBlockingReq = none := by
  by_contra blocked
  rcases chains.blocked tag listed blocked with waits | selected | hand
  · rw [queued] at waits
    exact kind (Option.some.inj waits)
  · exact not_selecting_of_mark queues queued selected
  · cases hand

theorem prev_of_remove (chain : engine'.chainState = engine.chainState.remove tag) (other : Tag) :
    (engine'.pool other).prevBlockingReq =
      if (engine.pool tag).nextBlockingReq = some other then none
      else (engine.pool other).prevBlockingReq := by
  have links := congrArg (fun state => state.links.prev other) chain
  unfold State.remove chainState at links
  dsimp only at links
  rw [links]
  cases (engine.pool tag).nextBlockingReq with
  | none => simp
  | some target => simp [eq_comm]

/-- After a request was removed its successor is not blocked any more, but it is still in the
queue of the blocked requests. -/
structure Due (engine : Engine Tag) (target : Option Tag) : Prop where
  chained : engine.chainState.Chained
  outstanding : ∀ tag, tag ∈ engine.handed ↔ engine.Outstanding none tag
  blocked : ∀ tag ∈ engine.handed, (engine.pool tag).prevBlockingReq ≠ none →
    engine.Waiting none tag
  front : ∀ tag, (engine.pool tag).reqQueueType = some .blockedByBufDep →
    (engine.pool tag).prevBlockingReq = none → target = some tag
  released : ∀ tag, target = some tag → (engine.pool tag).prevBlockingReq = none

theorem Due.release {target : Option Tag} (due : Due engine target) :
    Chains (Moment.release engine target).engine (Moment.release engine target).inHand := by
  unfold Moment.release
  split
  · refine ⟨due.chained, due.outstanding, due.blocked, ?_⟩
    intro other waits first
    cases due.front other waits first
  next target =>
    split
    next queued =>
      have links := SameChains.takeFrom engine .blockedByBufDep target
      have own : ((engine.takeFrom .blockedByBufDep target).pool target).reqQueueType =
          none := by simp [Engine.takeFrom]
      have others : ∀ other ≠ target,
          ((engine.takeFrom .blockedByBufDep target).pool other).reqQueueType =
            (engine.pool other).reqQueueType := by
        intro other different
        simp [Engine.takeFrom, different]
      refine ⟨?_, ?_, ?_, ?_⟩
      · refine due.chained.congr ?_ (funext links.tail) rfl ?_
        · unfold chainState
          simp only [links.prev, links.next]
        · intro other _
          by_cases same : other = target
          · subst same
            simp [chainState, Engine.takeFrom]
          · simp [chainState, Engine.takeFrom, same]
      · intro other
        refine (due.outstanding other).trans ?_
        by_cases same : other = target
        · subst same
          exact iff_of_true (.inl ⟨_, queued, by decide, by decide⟩) (.inr (.inr rfl))
        · unfold Outstanding
          rw [others other same]
          simp [Engine.takeFrom, Ne.symm same]
      · intro other listed blocked
        rw [links.prev] at blocked
        by_cases same : other = target
        · exact .inr (.inr (congrArg some same.symm))
        · rcases due.blocked other listed blocked with waits | selected | hand
          · exact .inl ((others other same).trans waits)
          · exact .inr (.inl selected)
          · cases hand
      · intro other waits
        have different : other ≠ target := by
          rintro rfl
          rw [own] at waits
          cases waits
        rw [others other different] at waits
        rw [links.prev]
        intro first
        exact different (Option.some.inj (due.front other waits first)).symm
    next elsewhere =>
      refine ⟨due.chained, due.outstanding, due.blocked, ?_⟩
      intro other waits first
      cases due.front other waits first
      exact elsewhere waits

theorem remove (chains : Chains engine none) (queues : Queues engine none)
    (queued : (engine.pool tag).reqQueueType = some which)
    (kind : which ≠ .free ∧ which ≠ .slice ∧ which ≠ .blockedByBufDep)
    (chain : engine'.chainState = engine.chainState.remove tag)
    (marks : ∀ other, (engine'.pool other).reqQueueType =
      update (fun other => (engine.pool other).reqQueueType) tag (some .free) other)
    (selecting : engine'.stage.selecting = engine.stage.selecting) :
    Chains (Moment.release engine' (engine.pool tag).nextBlockingReq).engine
      (Moment.release engine' (engine.pool tag).nextBlockingReq).inHand := by
  have listed : tag ∈ engine.handed :=
    (chains.outstanding tag).2 (.inl ⟨which, queued, kind.1, kind.2.1⟩)
  have first := chains.prev_of_queued queues queued listed kind.2.2
  have handed : engine'.handed = engine.handed.erase tag := congrArg State.order chain
  have nodup : engine.handed.Nodup := chains.chained.nodup
  have own : (engine'.pool tag).reqQueueType = some .free := by
    rw [marks, update_self]
  have others : ∀ other ≠ tag, (engine'.pool other).reqQueueType =
      (engine.pool other).reqQueueType := fun other different => by
    rw [marks, update_of_ne different]
  have prev := prev_of_remove chain
  have gone : ¬engine.stage.selecting = some tag := not_selecting_of_mark queues queued
  apply Due.release
  refine ⟨?_, ?_, ?_, ?_, ?_⟩
  · rw [chain]
    exact chains.chained.remove listed first
  · intro other
    rw [handed, nodup.mem_erase_iff, chains.outstanding]
    unfold Outstanding
    rw [selecting]
    by_cases same : other = tag
    · subst same
      simp [own, gone]
    · simp [others other same, same]
  · intro other listed' blocked
    have different : other ≠ tag := by
      rintro rfl
      rw [handed] at listed'
      exact nodup.not_mem_erase listed'
    rw [handed] at listed'
    rw [prev] at blocked
    split at blocked
    · exact absurd rfl blocked
    · rcases chains.blocked other (List.mem_of_mem_erase listed') blocked with
        waits | selected | hand
      · exact .inl ((others other different).trans waits)
      · exact .inr (.inl (selecting.trans selected))
      · cases hand
  · intro other waits released
    have different : other ≠ tag := by
      rintro rfl
      rw [own] at waits
      cases waits
    rw [others other different] at waits
    rw [prev] at released
    split at released
    next isNext => exact isNext
    · exact absurd released (chains.front other waits)
  · intro other isNext
    rw [prev, if_pos isNext]

theorem issueTo (chains : Chains engine inHand) (direction : Direction) (ref : BufferRef) :
    Chains (engine.issueTo direction ref tag) inHand := by
  refine chains.still (.of_update rfl rfl rfl rfl rfl) ?_ ?_ rfl
  · intro other _
    by_cases same : other = tag
    · subst same
      simp [Engine.issueTo]
    · simp [Engine.issueTo, same]
  · intro other
    by_cases same : other = tag
    · subst same
      simp [Engine.issueTo]
    · simp [Engine.issueTo, same]

/-- A request leaves its queue, its slot becomes free and its successor is released.  The
engine `ended` is the one in which the end of the request was recorded. -/
theorem drop (chains : Chains engine none) (queues : Queues engine none)
    (queued : (engine.pool tag).reqQueueType = some which)
    (kind : which ≠ .free ∧ which ≠ .slice ∧ which ≠ .blockedByBufDep) {ended : Engine Tag}
    (pool : ended.pool = engine.pool)
    (tails : ∀ ref, (ended.entryOf ref).blockingReqTail = (engine.entryOf ref).blockingReqTail)
    (handed : ended.handed = engine.handed.erase tag) (stage : ended.stage = engine.stage) :
    Chains
      (Moment.release (((ended.takeFrom which tag).putTo .free tag).unlink tag)
        (engine.pool tag).nextBlockingReq).engine
      (Moment.release (((ended.takeFrom which tag).putTo .free tag).unlink tag)
        (engine.pool tag).nextBlockingReq).inHand := by
  have links := (SameChains.takeFrom ended which tag).trans (.putTo _ .free tag)
  refine chains.remove queues queued kind (chainState_unlink ?_ ?_ ?_ ?_ handed) ?_ ?_
  · intro other
    rw [links.prev, pool]
  · intro other
    rw [links.next, pool]
  · intro other
    rw [← pool]
    by_cases same : other = tag
    · subst same
      simp [Engine.putTo, Engine.takeFrom]
    · simp [Engine.putTo, Engine.takeFrom, same]
  · exact tails
  · intro other
    rw [Queues.mark_unlinked, Queues.mark_dropped, pool]
  · exact congrArg Stage.selecting stage

omit [DecidableEq Tag] in
theorem not_outstanding_of_mark (queues : Queues engine none)
    (queued : (engine.pool tag).reqQueueType = some which)
    (kind : which = .free ∨ which = .slice) : ¬engine.Outstanding none tag := by
  rintro (⟨other, queued', notFree, notSlice⟩ | selected | hand)
  · rw [queued] at queued'
    cases queued'
    exact kind.elim notFree notSlice
  · exact not_selecting_of_mark queues queued selected
  · cases hand

omit [DecidableEq Tag] in
/-- A request that the main loop holds outside `SelectLowLevelReqQ`. -/
theorem not_outstanding_of_held (queues : Queues engine none) (held : tag ∈ engine.stage.held)
    (selecting : engine.stage.selecting = none) : ¬engine.Outstanding none tag := by
  have unmarked : (engine.pool tag).reqQueueType = none :=
    queues.consistent.unmarked (List.mem_append_left _ held)
  rintro (⟨which, queued, _⟩ | selected | hand)
  · rw [unmarked] at queued
    cases queued
  · rw [selecting] at selected
    cases selected
  · cases hand

variable {stage : Stage Tag}

omit [DecidableEq Tag] in
/-- The request that waited in `SelectLowLevelReqQ` is in hand again. -/
private theorem resume (chains : Chains engine none)
    (selecting : engine.stage.selecting = some tag) (done : stage.selecting = none) :
    Chains { engine with stage := stage } (some tag) := by
  refine chains.same (.of_pool rfl rfl rfl) (fun _ _ => rfl) ?_ ?_ chains.front
  · intro other
    unfold Outstanding
    rw [selecting]
    simp [done]
  · rintro other (queued | selected | hand) _
    · exact .inl queued
    · exact .inr (.inr (selecting ▸ selected))
    · cases hand

/-- The request in hand is appended to a queue. -/
private theorem putTo (chains : Chains engine (some tag)) (kind : which ≠ .free ∧ which ≠ .slice)
    (right : which = .blockedByBufDep ↔ (engine.pool tag).prevBlockingReq ≠ none) :
    Chains (engine.putTo which tag) none := by
  refine chains.place (.putTo engine which tag) ?_ ?_ ?_ kind right rfl
  · intro other
    by_cases same : other = tag
    · subst same
      simp [Engine.putTo]
    · simp [Engine.putTo, same]
  · intro other different
    simp [Engine.putTo, different]
  · simp [Engine.putTo]

section

variable (chains : Chains engine none) (queues : Queues engine none)
include chains queues

private theorem takeSlice {rest : List Tag} (head : engine.queue .slice = tag :: rest)
    (tails : ∀ entry, (map.dataBuf entry).blockingReqTail =
      ((engine.buffer ref.kind).dataBuf entry).blockingReqTail)
    (selecting : stage.selecting = engine.stage.selecting) :
    Chains (engine.takeSlice tag stage ref map) none := by
  have marked : (engine.pool tag).reqQueueType = some .slice := queues.mem_iff.1 (by simp [head])
  let buffered : Engine Tag :=
    { engine with
      stage := stage
      buffer := update engine.buffer ref.kind map }
  have links : SameChains engine (engine.takeSlice tag stage ref map) := by
    have first : SameChains engine buffered := .of_buffer rfl rfl tails rfl
    have second := first.trans (.takeFrom buffered .slice tag)
    exact second.trans (.of_update rfl rfl rfl rfl rfl)
  refine chains.aside links ?_ (not_outstanding_of_mark queues marked (.inr rfl)) ?_ selecting
  · intro other different
    simp [Engine.takeSlice, Engine.modify, Engine.takeFrom, different]
  · simp [Engine.takeSlice, Engine.modify, Engine.takeFrom]

private theorem cutInto {slice : Slice} {rest : List Slice} {free : List Tag}
    (stage : engine.stage = .cutting (slice :: rest))
    (head : engine.queue .free = tag :: free) : Chains (engine.cutInto slice rest tag) none := by
  have marked : (engine.pool tag).reqQueueType = some .free := queues.mem_iff.1 (by simp [head])
  let cutting : Engine Tag :=
    { engine with
      stage := .cutting rest
      cut := engine.cut + 1 }
  have links : SameChains engine (engine.cutInto slice rest tag) := by
    have first : SameChains engine cutting := .of_pool rfl rfl rfl
    have second := first.trans (.takeFrom cutting .free tag)
    have filled : SameChains (cutting.takeFrom .free tag)
        ((cutting.takeFrom .free tag).modify tag (·.fillSlice slice engine.cut)) :=
      .of_update rfl rfl rfl rfl rfl
    exact (second.trans filled).trans (.putTo _ .slice tag)
  refine chains.aside links ?_ (not_outstanding_of_mark queues marked (.inl rfl)) ?_ ?_
  · intro other different
    simp [Engine.cutInto, Engine.putTo, Engine.modify, Engine.takeFrom, different]
  · simp [Engine.cutInto, Engine.putTo, Engine.modify, Engine.takeFrom]
  · rw [stage]
    rfl

private theorem holdWriteSlot
    {write : Tag} {lsa : Nat} {free : List Tag} {gcRequests : List GcRequest}
    (stage : engine.stage = .evicting tag) (head : engine.queue .free = write :: free) :
    Chains (engine.holdWriteSlot tag write lsa gcRequests) none := by
  have marked : (engine.pool write).reqQueueType = some .free := queues.mem_iff.1 (by simp [head])
  have links : SameChains engine (engine.holdWriteSlot tag write lsa gcRequests) :=
    .of_update rfl rfl rfl rfl rfl
  refine chains.aside links ?_ (not_outstanding_of_mark queues marked (.inl rfl)) ?_ ?_
  · intro other different
    simp [Engine.holdWriteSlot, Engine.takeFrom, different]
  · simp [Engine.holdWriteSlot, Engine.takeFrom]
  · rw [stage]
    rfl

end

structure Filled (engine filled : Engine Tag) (tag : Tag) (key : Option BufferRef) : Prop where
  pool : ∀ other ≠ tag, filled.pool other = engine.pool other
  prev : (filled.pool tag).prevBlockingReq = (engine.pool tag).prevBlockingReq
  next : (filled.pool tag).nextBlockingReq = (engine.pool tag).nextBlockingReq
  mark : (filled.pool tag).reqQueueType = none
  key : (filled.pool tag).dataBuf = key
  tail : ∀ ref, (filled.entryOf ref).blockingReqTail = (engine.entryOf ref).blockingReqTail
  handed : filled.handed = engine.handed ++ [tag]

namespace Filled

variable {filled : Engine Tag} {key : Option BufferRef}

omit [DecidableEq Tag] in
/-- A field that the filling keeps. -/
private theorem field {Value : Type} (fills : Filled engine filled tag key)
    (field : Request Tag → Value) (own : field (filled.pool tag) = field (engine.pool tag))
    (other : Tag) : field (filled.pool other) = field (engine.pool other) := by
  by_cases same : other = tag
  · rw [same]
    exact own
  · rw [fills.pool other same]

theorem keys (fills : Filled engine filled tag key) (other : Tag) :
    (filled.pool other).dataBuf =
      update (fun other => (engine.pool other).dataBuf) tag key other := by
  by_cases same : other = tag
  · subst same
    rw [fills.key, update_self]
  · rw [fills.pool other same, update_of_ne same]

theorem chainState (fills : Filled engine filled tag none) :
    filled.chainState = engine.chainState.append tag none := by
  unfold Engine.chainState State.append
  congr 1
  · congr 1
    · exact funext (fills.field (·.prevBlockingReq) fills.prev)
    · exact funext (fills.field (·.nextBlockingReq) fills.next)
  · exact funext fills.tail
  · exact fills.handed
  · exact funext fills.keys

theorem chainState_linked (fills : Filled engine filled tag (some ref)) :
    (filled.updateEntryInfoBlockingReq ref tag).chainState =
      engine.chainState.append tag (some ref) :=
  chainState_link (fills.field (·.prevBlockingReq) fills.prev)
    (fills.field (·.nextBlockingReq) fills.next) fills.keys fills.tail fills.handed

end Filled

section

variable (chains : Chains engine none)
include chains

/-- The request that was filled is linked and is then in hand or being selected. -/
theorem link (fresh : ¬engine.Outstanding none tag)
    {filled : Engine Tag} (fills : Filled engine filled tag (some ref))
    (idle : engine.stage.selecting = none)
    (taken : (filled.stage.selecting = none ∧ inHand' = some tag) ∨
      (filled.stage.selecting = some tag ∧ inHand' = none)) :
    Chains (filled.updateEntryInfoBlockingReq ref tag) inHand' := by
  have mark : ∀ other, ((filled.updateEntryInfoBlockingReq ref tag).pool other).reqQueueType =
        (filled.pool other).reqQueueType := fun other =>
    field_linkPool (·.reqQueueType) (fun _ => rfl) _ _ tag other
  refine chains.append fresh fills.chainState_linked ?_ ?_ idle taken
  · intro other different
    rw [mark, fills.pool other different]
  · rw [mark, fills.mark]

private theorem prepareGc (queues : Queues engine none)
    {gc : GcRequest} {new : Tag} {free : List Tag}
    (head : engine.queue .free = new :: free) (idle : engine.stage.selecting = none)
    (taken : (stage.selecting = none ∧ inHand' = some new) ∨
      (stage.selecting = some new ∧ inHand' = none)) :
    Chains ({ engine with stage := stage }.prepareGc gc new) inHand' := by
  have marked : (engine.pool new).reqQueueType = some .free := queues.mem_iff.1 (by simp [head])
  have fresh := not_outstanding_of_mark queues marked (.inl rfl)
  have fills : Filled engine (({ engine with
      stage := stage
      handed := engine.handed ++ [new] }.takeFrom .free new).modify new (·.fillGc gc)) new
        gc.dataBuf := by
    refine ⟨?_, ?_, ?_, ?_, ?_, fun _ => rfl, rfl⟩
    · intro other different
      simp [Engine.modify, Engine.takeFrom, different]
    · simp [Engine.modify, Engine.takeFrom, Request.fillGc]
    · simp [Engine.modify, Engine.takeFrom, Request.fillGc]
    · simp [Engine.modify, Engine.takeFrom, Request.fillGc]
    · simp [Engine.modify, Engine.takeFrom, Request.fillGc]
  unfold Engine.prepareGc
  cases entry : gc.dataBuf with
  | none =>
    rw [entry] at fills
    refine chains.append fresh fills.chainState ?_ fills.mark idle taken
    intro other different
    exact congrArg Request.reqQueueType (fills.pool other different)
  | some ref =>
    rw [entry] at fills
    exact chains.link fresh fills idle taken

private theorem prepareWriteBack (queues : Queues engine none)
    {write : Tag} {lsa : Nat} (stage : engine.stage = .collecting tag write []) :
    Chains (engine.prepareWriteBack tag write ref lsa) (some write) := by
  have held : write ∈ engine.stage.held := by simp [stage, Stage.held]
  have idle : engine.stage.selecting = none := by rw [stage]; rfl
  have unmarked : (engine.pool write).reqQueueType = none :=
    queues.consistent.unmarked (List.mem_append_left _ held)
  refine chains.link (not_outstanding_of_held queues held idle) ?_ idle (.inl ⟨rfl, rfl⟩)
  refine ⟨?_, ?_, ?_, ?_, ?_, fun _ => rfl, rfl⟩
  · intro other different
    simp [Engine.modify, different]
  · simp [Engine.modify, Request.fillNand]
  · simp [Engine.modify, Request.fillNand]
  · simp [Engine.modify, Request.fillNand, unmarked]
  · simp [Engine.modify, Request.fillNand]

private theorem prepareFetch (queues : Queues engine none)
    {read : Tag} {free : List Tag} (stage : engine.stage = .fetching tag)
    (head : engine.queue .free = read :: free) :
    Chains (engine.prepareFetch tag read ref) none := by
  have marked : (engine.pool read).reqQueueType = some .free := queues.mem_iff.1 (by simp [head])
  have idle : engine.stage.selecting = none := by rw [stage]; rfl
  refine chains.link (not_outstanding_of_mark queues marked (.inl rfl)) ?_ idle (.inr ⟨rfl, rfl⟩)
  refine ⟨?_, ?_, ?_, ?_, ?_, fun _ => rfl, rfl⟩
  · intro other different
    simp [Engine.modify, Engine.takeFrom, different]
  · simp [Engine.modify, Engine.takeFrom, Request.fillNand]
  · simp [Engine.modify, Engine.takeFrom, Request.fillNand]
  · simp [Engine.modify, Engine.takeFrom, Request.fillNand]
  · simp [Engine.modify, Request.fillNand]

private theorem makeDma (queues : Queues engine none)
    (stage : engine.stage = .finishing tag) (uses : (engine.pool tag).dataBuf = some ref) :
    Chains (engine.makeDma tag ref) (some tag) := by
  have held : tag ∈ engine.stage.held := by simp [stage, Stage.held]
  have idle : engine.stage.selecting = none := by rw [stage]; rfl
  have unmarked : (engine.pool tag).reqQueueType = none :=
    queues.consistent.unmarked (List.mem_append_left _ held)
  refine chains.link (not_outstanding_of_held queues held idle) ?_ idle (.inl ⟨rfl, rfl⟩)
  refine ⟨?_, ?_, ?_, ?_, ?_, ?_, rfl⟩
  · intro other different
    simp [Engine.modify, different]
  · simp [Engine.modify, Request.fillDma]
  · simp [Engine.modify, Request.fillDma]
  · simp [Engine.modify, Request.fillDma, unmarked]
  · simp [Engine.modify, Request.fillDma, uses]
  · intro other
    unfold entryOf Engine.modify
    dsimp only
    split
    · exact tail_of_buffer (fun entry => tail_setDirty _ ref.entry entry) other
    · rfl

end

theorem move {allowed : Engine Tag → Event Tag → Prop} {before after : Moment Tag}
    (chains : Chains before.engine before.inHand)
    (queues : Queues before.engine before.inHand) (move : Move allowed before after) :
    Chains after.engine after.inHand := by
  cases move with
  | serve served =>
    obtain ⟨command, _, rfl⟩ := Option.map_eq_some_iff.1 served
    exact chains.idle rfl rfl rfl rfl
  | @main engine _ _ move =>
    cases move with
    | accept _ _ accepted =>
      obtain ⟨stage, _, rfl⟩ := accept_eq_some accepted
      exact chains.idle rfl rfl rfl (by rw [stage]; rfl)
    | cutInto stage head => exact chains.cutInto queues stage head
    | cutAll stage | translateAll stage | skipEviction stage | skipFetch stage =>
      exact chains.idle rfl rfl rfl (by rw [stage]; rfl)
    | hit _ stage head =>
      exact chains.takeSlice queues head (fun _ => rfl) (by rw [stage]; rfl)
    | miss stage head _ _ allocated =>
      refine chains.takeSlice queues head ?_ (by rw [stage]; rfl)
      intro entry
      rw [allocate_dataBuf allocated]
    | holdWriteSlot stage _ _ _ head => exact chains.holdWriteSlot queues stage head
    | prepareGcRead stage head =>
      exact chains.prepareGc queues head (by rw [stage]; rfl) (.inr ⟨rfl, rfl⟩)
    | prepareGc stage head =>
      exact chains.prepareGc queues head (by rw [stage]; rfl) (.inl ⟨rfl, rfl⟩)
    | resumeGc stage | resumeFetch stage => exact chains.resume (by rw [stage]; rfl) rfl
    | prepareWriteBack stage => exact chains.prepareWriteBack queues stage
    | @bindTo tag ref stage uses =>
      refine chains.still (.of_buffer rfl rfl ?_ rfl) (fun _ _ => rfl) (fun _ => rfl) ?_
      · exact tail_bind _ ref.entry _
      · rw [stage]
        rfl
    | prepareFetch stage _ _ head => exact chains.prepareFetch queues stage head
    | makeDma stage uses => exact chains.makeDma queues stage uses
  | block blocked => exact chains.putTo (by decide) (iff_of_true rfl blocked)
  | toNand front _ choice =>
    rcases choice with rfl | rfl <;>
      exact chains.putTo (by decide) (iff_of_false (by decide) (not_not.2 front))
  | @issue engine tag direction ref front =>
    have issued : Chains (engine.issueTo direction ref tag) (some tag) :=
      chains.issueTo direction ref
    refine issued.putTo ?_ (iff_of_false ?_ ?_)
    · unfold Request.dmaQueue
      split <;> decide
    · unfold Request.dmaQueue
      split <;> decide
    · simpa [Engine.issueTo] using front
  | wait front => exact chains.putTo (by decide) (iff_of_false (by decide) (not_not.2 front))
  | startPoll => exact chains.idle rfl rfl rfl rfl
  | startCustomPoll => exact chains.idle rfl rfl rfl rfl
  | startNand | endPoll | skipNvmeDma | skipCustomCmd => exact chains.idle rfl rfl rfl rfl
  | dropNvmeDma walk =>
    have queued := queues.mem_iff.1 (queues.visited_mem (by rw [walk]; rfl))
    exact chains.drop queues queued (by decide) rfl (fun _ => rfl) rfl rfl
  | dropCustomCmd _ walk =>
    have queued := queues.mem_iff.1 (queues.visited_mem (by rw [walk]; rfl))
    exact chains.drop queues queued (by decide) rfl (fun _ => rfl) rfl rfl
  | @issueWaiting engine tag rest done direction ref =>
    have visited : Chains { engine with poll := .customCmd rest done } none :=
      chains.idle rfl rfl rfl rfl
    exact visited.issueTo direction ref
  | unlinkWaiting walk _ blocked =>
    have queued := queues.mem_iff.1 (queues.visited_mem (by rw [walk]; rfl))
    have listed := (chains.outstanding _).2 (.inl ⟨_, queued, by decide, by decide⟩)
    exact absurd (chains.prev_of_queued queues queued listed (by decide)) blocked
  | dropNand _ _ member =>
    exact chains.drop queues (queues.mem_iff.1 member) (by decide) rfl (fun _ => rfl) rfl rfl
  | @rowAddrDepDone engine tag _ member =>
    have queued := queues.mem_iff.1 member
    have listed := (chains.outstanding tag).2 (.inl ⟨_, queued, by decide, by decide⟩)
    have front := chains.prev_of_queued queues queued listed (by decide)
    have links := (SameChains.takeFrom engine .blockedByRowAddrDep tag).trans
      (.putTo _ .nand tag)
    have own : (((engine.takeFrom .blockedByRowAddrDep tag).putTo .nand tag).pool
        tag).reqQueueType = some .nand := by
      simp [Engine.putTo]
    have others : ∀ other ≠ tag,
        (((engine.takeFrom .blockedByRowAddrDep tag).putTo .nand tag).pool other).reqQueueType =
          (engine.pool other).reqQueueType := by
      intro other different
      simp [Engine.putTo, Engine.takeFrom, different]
    refine chains.same links ?_ ?_ ?_ ?_
    · intro other _
      by_cases same : other = tag
      · subst same
        simp [Engine.putTo, Engine.takeFrom]
      · simp [Engine.putTo, Engine.takeFrom, same]
    · intro other
      by_cases same : other = tag
      · subst same
        exact iff_of_true (.inl ⟨_, own, by decide, by decide⟩)
          (.inl ⟨_, queued, by decide, by decide⟩)
      · unfold Outstanding
        rw [others other same]
        rfl
    · intro other waits blocked
      have different : other ≠ tag := by
        rintro rfl
        exact blocked front
      unfold Waiting
      rw [others other different]
      exact waits
    · intro other waits
      have different : other ≠ tag := by
        rintro rfl
        rw [own] at waits
        cases waits
      rw [others other different] at waits
      exact chains.front other waits

end Chains

section Entry

omit [DecidableEq Tag]

variable (engine : Engine Tag)

/-- The request is in a queue from which the hardware or the row address check takes it. -/
def Served (tag : Tag) : Prop :=
  ∃ which, (engine.pool tag).reqQueueType = some which ∧
    (which = .nand ∨ which = .nvmeDma ∨ which = .customCmd ∨ which = .blockedByRowAddrDep)

/-- The chain of one buffer entry. -/
structure EntryChain (ref : BufferRef) : Prop where
  links : Segment engine.chainState.links none (engine.chainOf ref) none
  tail : (engine.entryOf ref).blockingReqTail = (engine.chainOf ref).getLast?
  nodup : (engine.chainOf ref).Nodup
  mem_iff : ∀ tag, tag ∈ engine.chainOf ref ↔
    engine.Outstanding none tag ∧ (engine.pool tag).dataBuf = some ref
  order : (engine.chainOf ref).Sublist engine.handed
  head : ∀ tag ∈ engine.chainOf ref,
    (engine.pool tag).prevBlockingReq = none ↔ (engine.chainOf ref).head? = some tag
  waiting : ∀ tag ∈ engine.chainOf ref, (engine.pool tag).prevBlockingReq ≠ none →
    engine.Waiting none tag
  served_unique : ∀ tag ∈ engine.chainOf ref, ∀ other ∈ engine.chainOf ref,
    engine.Served tag → engine.Served other → tag = other

variable {engine}

theorem Chains.prev_of_served (chains : Chains engine none) (queues : Queues engine none)
    (listed : tag ∈ engine.handed) (served : engine.Served tag) :
    (engine.pool tag).prevBlockingReq = none := by
  obtain ⟨which, queued, kind⟩ := served
  apply chains.prev_of_queued queues queued listed
  rintro rfl
  simp at kind

theorem Chains.entryChain (chains : Chains engine none) (queues : Queues engine none)
    (ref : BufferRef) : engine.EntryChain ref := by
  have held := chains.chained.holds ref
  have head : ∀ tag ∈ engine.chainOf ref,
      (engine.pool tag).prevBlockingReq = none ↔ (engine.chainOf ref).head? = some tag := by
    intro tag member
    constructor
    · intro first
      obtain ⟨rest, split⟩ := chains.chained.first_of_prev_none member first
      unfold chainOf
      rw [split]
      rfl
    · intro first
      obtain ⟨rest, split⟩ := List.head?_eq_some_iff.1 first
      have segment : Segment engine.chainState.links none (engine.chainOf ref) none :=
        chains.chained.segment ref
      rw [split] at segment
      exact segment.1
  have listed : ∀ tag ∈ engine.chainOf ref, tag ∈ engine.handed := fun tag member =>
    (engine.chainState.mem_chain.1 member).1
  refine
    { links := held.segment
      tail := chains.chained.tail ref
      nodup := held.nodup
      mem_iff := ?_
      order := List.filter_sublist
      head := head
      waiting := fun tag member => chains.blocked tag (listed tag member)
      served_unique := ?_ }
  · intro tag
    rw [← chains.outstanding]
    exact engine.chainState.mem_chain
  · intro tag member other member' served served'
    have first := (head tag member).1 (chains.prev_of_served queues (listed tag member) served)
    have first' :=
      (head other member').1 (chains.prev_of_served queues (listed other member') served')
    rw [first] at first'
    exact Option.some.inj first'

end Entry
end Engine

theorem Config.initial_chains (config : Config) : config.initial.Chains none where
  chained := by
    refine ⟨List.nodup_nil, fun _ => trivial, ?_, fun _ _ => ⟨rfl, rfl⟩⟩
    rintro ⟨kind, entry⟩
    cases kind <;> rfl
  outstanding := by
    intro tag
    refine iff_of_false List.not_mem_nil ?_
    rintro (⟨which, queued, notFree, _⟩ | selected | hand)
    · exact notFree (Option.some.inj queued).symm
    · cases selected
    · cases hand
  blocked := fun _ listed => absurd listed List.not_mem_nil
  front := by
    intro tag queued
    cases Option.some.inj queued

/-- In every state of every run the chains and the queues are in order. -/
theorem chains_of_run {config : Config} {allowed : Engine config.Tag → Event config.Tag → Prop}
    {engine : Engine config.Tag}
    (run : ReflTransGen (EventStep Engine.step allowed) config.initial engine) :
    engine.Chains none ∧ engine.Queues none := by
  refine run_of_moves (fun engine inHand => engine.Chains inHand ∧ engine.Queues inHand)
    ⟨config.initial_chains, config.initial_queues⟩ ?_ run
  rintro before after ⟨chains, queues⟩ move
  exact ⟨chains.move queues move, queues.move move⟩

/-- In every reachable state each buffer entry has one chain of the outstanding requests on
it, free slots carry no links, and the walk of `CheckDoneCustomCmdDmaReq` meets no request
that is blocked by its entry. -/
theorem blocking_chains (config : Config) (engine : Engine config.Tag)
    (run : Relation.ReflTransGen (Fallible.EventStep Engine.step fun _ _ => True) config.initial
      engine) :
    (∀ ref, engine.EntryChain ref) ∧
      (∀ tag, (engine.pool tag).reqQueueType = some .free →
        (engine.pool tag).prevBlockingReq = none ∧ (engine.pool tag).nextBlockingReq = none) ∧
      ∀ tag rest done, engine.poll = .customCmd (tag :: rest) done →
        engine.checkBufDep tag = true := by
  obtain ⟨chains, queues⟩ := chains_of_run run
  refine ⟨chains.entryChain queues, ?_, ?_⟩
  · intro tag free
    apply chains.chained.loose tag
    intro listed
    have outstanding := (chains.outstanding tag).1 listed
    exact absurd outstanding (Engine.Chains.not_outstanding_of_mark queues free (.inl rfl))
  · intro tag rest done walk
    have queued := queues.mem_iff.1 (queues.visited_mem (by rw [walk]; rfl))
    have listed := (chains.outstanding tag).2 (.inl ⟨_, queued, by decide, by decide⟩)
    exact Option.isNone_iff_eq_none.2 (chains.prev_of_queued queues queued listed (by decide))

/-- The sizes for one die. -/
abbrev Config.oneDie : Config := .ofDies 1 (by decide)

/-- A write-read command that reads the slice it writes is taken and translated. -/
def sameSliceEvents {Tag : Type} : List (Event Tag) :=
  .command (.writeRead 0 0 3 0 3) :: List.replicate 11 (.advance ⟨[], true⟩)

theorem sameSliceEvents_run :
    (runEvents Engine.step sameSliceEvents Config.oneDie.initial).isSome = true := by
  decide

/-- The state after these events. -/
def sameSliceEngine : Engine Config.oneDie.Tag :=
  (runEvents Engine.step sameSliceEvents Config.oneDie.initial).get sameSliceEvents_run

theorem sameSliceEngine_reached
    {allowed : Engine Config.oneDie.Tag → Event Config.oneDie.Tag → Prop}
    (first : allowed Config.oneDie.initial (.command (.writeRead 0 0 3 0 3)))
    (later : ∀ engine answer, allowed engine (.advance answer)) :
    ReflTransGen (EventStep Engine.step allowed)
      Config.oneDie.initial sameSliceEngine := by
  obtain ⟨accepted, taken, rest⟩ :=
    Option.bind_eq_some_iff.1 (Option.some_get sameSliceEvents_run).symm
  refine .head ⟨_, first, taken⟩ (reaches_of_runEvents _ ?_ rest)
  intro event member engine
  rw [List.eq_of_mem_replicate member]
  exact later engine _

/-- The read waits behind the write on the entry of the slice. -/
theorem blocking_chains_sameSlice :
    sameSliceEngine.EntryChain ⟨.dataBuf, 46⟩ ∧
      (sameSliceEngine.chainOf ⟨.dataBuf, 46⟩).map Fin.val = [0, 1] ∧
      (sameSliceEngine.queue .customCmd).map Fin.val = [0] ∧
      (sameSliceEngine.queue .blockedByBufDep).map Fin.val = [1] := by
  have reached : ReflTransGen (EventStep Engine.step fun _ _ => True)
      Config.oneDie.initial sameSliceEngine :=
    sameSliceEngine_reached trivial fun _ _ => trivial
  refine ⟨(blocking_chains _ _ reached).1 _, ?_, ?_, ?_⟩ <;> decide

end RwRbuf.Firmware.Requests
