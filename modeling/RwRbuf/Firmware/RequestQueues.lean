import RwRbuf.Firmware.RequestMoves
import RwRbuf.Lib.QueuePool
import Mathlib.Data.List.FinRange

/-! # Every request is in one queue

The field `reqQueueType` names the queue of a request.  The requests outside the queues are
those of the translation in progress and the one in hand.  A poll that walks a queue has the
rest of its walk in the queue, in front of everything that was put there since.  Each move
takes requests out of the queues and puts them into others one at a time.
-/

namespace RwRbuf.Firmware.Requests

open Function

variable {Tag : Type}

/-- Requests leave these queues at the head, by `GetFromFreeReqQ` and `GetFromSliceReqQ`. -/
def ReqQueueType.HeadOnly (which : ReqQueueType) : Prop := which = .free ∨ which = .slice

namespace Stage

/-- The requests that the main loop holds, in the order in which it took them. -/
def held : Stage Tag → List Tag
  | idle => []
  | cutting _ => []
  | translating => []
  | evicting tag => [tag]
  | collecting tag write _ => [tag, write]
  | selectingGc tag write read _ => [tag, write, read]
  | binding tag => [tag]
  | fetching tag => [tag]
  | selectingFetch tag read => [tag, read]
  | finishing tag => [tag]

/-- The flash request that waits in `SelectLowLevelReqQ`. -/
def selecting : Stage Tag → Option Tag
  | selectingGc _ _ read _ => some read
  | selectingFetch _ read => some read
  | _ => none

end Stage

namespace Poll

/-- The queue that is walked and the requests still to visit. -/
def walk : Poll Tag → Option (ReqQueueType × List Tag)
  | idle => none
  | nvmeDma remaining _ => some (.nvmeDma, remaining)
  | customCmd remaining _ => some (.customCmd, remaining)
  | nand => none

end Poll

namespace Request

def core (request : Request Tag) : Request Tag :=
  { request with
    prevBlockingReq := none
    nextBlockingReq := none }

end Request

variable [DecidableEq Tag]

namespace Engine

theorem core_update {pool : Tag → Request Tag} {tag : Tag} {value : Request Tag}
    (same : value.core = (pool tag).core) (other : Tag) :
    (update pool tag value other).core = (pool other).core := by
  by_cases which : other = tag
  · subst which
    simpa using same
  · simp [which]

theorem linkPool_core (pool : Tag → Request Tag) (tail : Option Tag) (tag other : Tag) :
    (linkPool pool tail tag other).core = (pool other).core := by
  unfold linkPool
  cases tail with
  | none => rfl
  | some last => exact (core_update (by rfl) other).trans (core_update (by rfl) other)

theorem unlinkPool_core (pool : Tag → Request Tag) (tag other : Tag) :
    (unlinkPool pool tag other).core = (pool other).core := by
  unfold unlinkPool
  cases (pool tag).nextBlockingReq with
  | none => rfl
  | some target => exact (core_update (by rfl) other).trans (core_update (by rfl) other)

section

variable {Value : Type} (field : Request Tag → Value)
  (blind : ∀ request, field request.core = field request) (pool : Tag → Request Tag)
include field blind pool

/-- A field other than the two links is the same after the request is linked. -/
theorem field_linkPool (tail : Option Tag) (tag other : Tag) :
    field (linkPool pool tail tag other) = field (pool other) := by
  rw [← blind, linkPool_core, blind]

theorem field_unlinkPool
    (tag other : Tag) : field (unlinkPool pool tag other) = field (pool other) := by
  rw [← blind, unlinkPool_core, blind]

end

def queueState (engine : Engine Tag) (inHand : Option Tag) : QueuePool.State ReqQueueType Tag where
  mark := fun tag => (engine.pool tag).reqQueueType
  queue := engine.queue
  loose := engine.stage.held ++ inHand.toList

variable {engine engine' : Engine Tag} {inHand inHand' : Option Tag} {tag : Tag}
  {which : ReqQueueType}

omit [DecidableEq Tag] in
theorem queueState_eq_self
    (marks : ∀ other, (engine'.pool other).reqQueueType = (engine.pool other).reqQueueType)
    (queues : engine'.queue = engine.queue)
    (loose : engine'.stage.held ++ inHand'.toList = engine.stage.held ++ inHand.toList) :
    engine'.queueState inHand' = engine.queueState inHand := by
  unfold queueState
  rw [queues, loose]
  congr 1
  exact funext marks

theorem queueState_eq_take
    (marks : ∀ other, (engine'.pool other).reqQueueType =
      update (fun other => (engine.pool other).reqQueueType) tag none other)
    (queues : engine'.queue = update engine.queue which ((engine.queue which).erase tag))
    (loose : engine'.stage.held ++ inHand'.toList =
      engine.stage.held ++ inHand.toList ++ [tag]) :
    engine'.queueState inHand' = (engine.queueState inHand).take which tag := by
  unfold queueState QueuePool.State.take
  rw [queues, loose]
  congr 1
  exact funext marks

theorem queueState_eq_put
    (marks : ∀ other, (engine'.pool other).reqQueueType =
      update (fun other => (engine.pool other).reqQueueType) tag (some which) other)
    (queues : engine'.queue = update engine.queue which (engine.queue which ++ [tag]))
    (loose : engine'.stage.held ++ inHand'.toList ++ [tag] =
      engine.stage.held ++ inHand.toList) :
    engine'.queueState inHand' = (engine.queueState inHand).put which tag := by
  unfold queueState QueuePool.State.put
  rw [queues, ← loose, List.dropLast_concat]
  congr 1
  exact funext marks

/-- The marks of the requests agree with the queues, and the rest of a walk is the front
part of the queue that is walked. -/
structure Queues (engine : Engine Tag) (inHand : Option Tag) : Prop where
  consistent : (engine.queueState inHand).Consistent
  walked : ∀ {which remaining}, engine.poll.walk = some (which, remaining) →
    remaining.reverse <+: engine.queue which

/-- The queues of one moment become those of another by single operations, and the rest of a
walk is then in front.  The first operation takes the flash request `completed`, if there is
one; the others leave the requests in the NAND queue. -/
structure Follows (completed : Option Tag) (engine : Engine Tag) (inHand : Option Tag)
    (engine' : Engine Tag) (inHand' : Option Tag) : Prop where
  path : ∃ ops, (∀ tag, .take .nand tag ∉ ops) ∧
    QueuePool.State.Path ReqQueueType.HeadOnly (engine.queueState inHand)
      (completed.toList.map (.take .nand) ++ ops) (engine'.queueState inHand')
  walked : ∀ {which remaining}, engine'.poll.walk = some (which, remaining) →
    remaining.reverse <+: engine'.queue which

variable {completed : Option Tag}

theorem Follows.trans {middle : Engine Tag} {between : Option Tag}
    (first : Follows completed engine inHand middle between)
    (second : Follows none middle between engine' inHand') :
    Follows completed engine inHand engine' inHand' := by
  obtain ⟨ops, others, path⟩ := first.path
  obtain ⟨ops', others', path'⟩ := second.path
  refine ⟨⟨ops ++ ops', ?_, ?_⟩, second.walked⟩
  · intro tag member
    rcases List.mem_append.1 member with before | later
    · exact others tag before
    · exact others' tag later
  · rw [← List.append_assoc]
    exact path.append path'

namespace Queues

theorem follow (queues : Queues engine inHand)
    (follows : Follows completed engine inHand engine' inHand') : Queues engine' inHand' := by
  obtain ⟨ops, _, path⟩ := follows.path
  exact ⟨queues.consistent.path path, follows.walked⟩

omit [DecidableEq Tag] in
theorem walk_queue {poll : Poll Tag} {remaining : List Tag}
    (walk : poll.walk = some (which, remaining)) : which = .nvmeDma ∨ which = .customCmd := by
  cases poll with
  | idle => cases walk
  | nvmeDma visits done =>
    cases walk
    exact .inl rfl
  | customCmd visits done =>
    cases walk
    exact .inr rfl
  | nand => cases walk

omit [DecidableEq Tag] in
theorem mem_iff (queues : Queues engine inHand) :
    tag ∈ engine.queue which ↔ (engine.pool tag).reqQueueType = some which :=
  queues.consistent.mem_iff

/-- A move that leaves the queues alone. -/
private theorem same
    (marks : ∀ other, (engine'.pool other).reqQueueType = (engine.pool other).reqQueueType)
    (queue : engine'.queue = engine.queue)
    (loose : engine'.stage.held ++ inHand'.toList = engine.stage.held ++ inHand.toList)
    (walked : ∀ {which remaining}, engine'.poll.walk = some (which, remaining) →
      remaining.reverse <+: engine.queue which) :
    Follows none engine inHand engine' inHand' := by
  constructor
  · rw [queueState_eq_self marks queue loose]
    exact ⟨[], by simp, .nil⟩
  · rw [queue]
    exact walked

section

variable (queues : Queues engine inHand) (marks : ∀ other, (engine'.pool other).reqQueueType =
    update (fun other => (engine.pool other).reqQueueType) tag none other)
  (queue : engine'.queue = update engine.queue which ((engine.queue which).erase tag))
  (loose : engine'.stage.held ++ inHand'.toList = engine.stage.held ++ inHand.toList ++ [tag])
  (poll : engine'.poll = engine.poll)
include queues marks queue loose poll

/-- A request leaves a queue that no poll walks. -/
private theorem take (member : tag ∈ engine.queue which)
    (head : which.HeadOnly → (engine.queue which).head? = some tag)
    (side : which ≠ .nvmeDma ∧ which ≠ .customCmd ∧ which ≠ .nand) :
    Follows none engine inHand engine' inHand' := by
  constructor
  · rw [queueState_eq_take marks queue loose]
    exact ⟨[.take which tag], by simp [Ne.symm side.2.2], .cons ⟨member, head⟩ .nil⟩
  · intro other remaining walk
    rw [poll] at walk
    have differs : other ≠ which := by
      rintro rfl
      rcases walk_queue walk with same | same
      · exact side.1 same
      · exact side.2.1 same
    rw [queue, update_of_ne differs]
    exact queues.walked walk

/-- The head of the free queue or of the slice queue is taken. -/
private theorem takeHead {rest : List Tag} (headOnly : which.HeadOnly)
    (head : engine.queue which = tag :: rest) : Follows none engine inHand engine' inHand' := by
  apply queues.take marks queue loose poll
  · simp [head]
  · intro _
    simp [head]
  · rcases headOnly with rfl | rfl <;> decide

end

/-- The request in hand goes to the end of a queue. -/
private theorem put (queues : Queues engine inHand)
    (marks : ∀ other, (engine'.pool other).reqQueueType =
      update (fun other => (engine.pool other).reqQueueType) tag (some which) other)
    (queue : engine'.queue = update engine.queue which (engine.queue which ++ [tag]))
    (loose : engine'.stage.held ++ inHand'.toList ++ [tag] =
      engine.stage.held ++ inHand.toList)
    (poll : engine'.poll = engine.poll) : Follows none engine inHand engine' inHand' := by
  constructor
  · rw [queueState_eq_put marks queue loose]
    exact ⟨[.put which tag], by simp, .cons ⟨_, loose.symm⟩ .nil⟩
  · intro other remaining walk
    rw [poll] at walk
    have before := queues.walked walk
    rw [queue]
    by_cases same : other = which
    · subst same
      rw [update_self]
      exact before.trans (List.prefix_append _ _)
    · rw [update_of_ne same]
      exact before

section

variable {rest : List Tag} (queues : Queues engine inHand)
  (walk : engine.poll.walk = some (which, tag :: rest))
include queues walk

omit [DecidableEq Tag] in
/-- The request that the walk is at is in the queue that is walked. -/
theorem visited_mem : tag ∈ engine.queue which :=
  (queues.walked walk).subset (by simp)

/-- When the visited request is removed, the rest of the walk is still in front. -/
theorem rest_of_visited : rest.reverse <+: (engine.queue which).erase tag := by
  obtain ⟨later, split⟩ := queues.walked walk
  rw [List.reverse_cons, List.append_assoc] at split
  have nodup : (engine.queue which).Nodup := queues.consistent.nodup which
  rw [← split, List.nodup_append] at nodup
  have absent : tag ∉ rest.reverse := fun member =>
    nodup.2.2 tag member tag (by simp) rfl
  rw [← split, List.erase_append_right _ absent]
  exact ⟨later, by simp⟩

end

/-- A request leaves its queue and its slot becomes free. -/
private theorem drop (member : tag ∈ engine.queue which) (any : ¬which.HeadOnly)
    (marks : ∀ other, (engine'.pool other).reqQueueType =
      update (fun other => (engine.pool other).reqQueueType) tag (some .free) other)
    (queue : engine'.queue = update (update engine.queue which ((engine.queue which).erase tag))
        .free (engine.queue .free ++ [tag]))
    (stage : engine'.stage = engine.stage)
    (walked : ∀ {other remaining}, engine'.poll.walk = some (other, remaining) →
      remaining.reverse <+: engine'.queue other) :
    Follows (if which = .nand then some tag else none) engine none engine' none := by
  have notFree : which ≠ .free := fun free => any (.inl free)
  have last : ((engine.queueState none).take which tag).loose = engine.stage.held ++ [tag] := by
    simp [QueuePool.State.take, queueState]
  have same : engine'.queueState none =
      ((engine.queueState none).take which tag).put .free tag := by
    unfold queueState QueuePool.State.put QueuePool.State.take
    dsimp only
    rw [stage, queue, List.dropLast_concat, update_of_ne notFree.symm, update_idem]
    congr 1
    exact funext marks
  have path : QueuePool.State.Path ReqQueueType.HeadOnly (engine.queueState none)
      [.take which tag, .put .free tag] (engine'.queueState none) := by
    rw [same]
    exact .cons ⟨member, fun headOnly => absurd headOnly any⟩ (.cons ⟨_, last⟩ .nil)
  by_cases nand : which = .nand
  · subst nand
    exact ⟨⟨[.put .free tag], by simp, path⟩, walked⟩
  · rw [if_neg nand]
    exact ⟨⟨_, by simp [Ne.symm nand], path⟩, walked⟩

private theorem mark_update {pool : Tag → Request Tag} {value : Request Tag}
    {mark : Option ReqQueueType} (marked : value.reqQueueType = mark) (other : Tag) :
    (update pool tag value other).reqQueueType =
      update (fun other => (pool other).reqQueueType) tag mark other := by
  by_cases same : other = tag
  · subst same
    simpa using marked
  · simp [same]

private theorem mark_takeFrom (engine : Engine Tag) (which : ReqQueueType) (tag other : Tag) :
    ((engine.takeFrom which tag).pool other).reqQueueType =
      update (fun other => (engine.pool other).reqQueueType) tag none other :=
  mark_update rfl other

private theorem mark_putTo (engine : Engine Tag) (which : ReqQueueType) (tag other : Tag) :
    ((engine.putTo which tag).pool other).reqQueueType =
      update (fun other => (engine.pool other).reqQueueType) tag (some which) other :=
  mark_update rfl other

private theorem mark_modify (engine : Engine Tag) (change : Request Tag → Request Tag)
    (keeps : ∀ request, (change request).reqQueueType = request.reqQueueType) (tag other : Tag) :
    ((engine.modify tag change).pool other).reqQueueType =
      (engine.pool other).reqQueueType := by
  refine (mark_update (keeps _) other).trans ?_
  rw [update_eq_self_iff.2 rfl]

private theorem mark_linked (engine : Engine Tag) (ref : BufferRef) (tag other : Tag) :
    ((engine.updateEntryInfoBlockingReq ref tag).pool other).reqQueueType =
      (engine.pool other).reqQueueType :=
  field_linkPool (·.reqQueueType) (fun _ => rfl) _ _ tag other

theorem mark_unlinked (engine : Engine Tag) (tag other : Tag) :
    ((engine.unlink tag).pool other).reqQueueType = (engine.pool other).reqQueueType :=
  field_unlinkPool (·.reqQueueType) (fun _ => rfl) _ tag other

variable {allowed : Engine Tag → Event Tag → Prop}

private theorem prepareGc (queues : Queues engine none) {gc : GcRequest} {new : Tag}
    {free : List Tag} {stage : Stage Tag} (head : engine.queue .free = new :: free)
    (loose : stage.held ++ inHand'.toList = engine.stage.held ++ [new]) :
    Follows none engine none ({ engine with stage := stage }.prepareGc gc new) inHand' := by
  have linked : ({ engine with stage := stage }.prepareGc gc new).queue =
        update engine.queue .free ((engine.queue .free).erase new) ∧
      ({ engine with stage := stage }.prepareGc gc new).stage = stage ∧
      ({ engine with stage := stage }.prepareGc gc new).poll = engine.poll := by
    unfold Engine.prepareGc
    cases gc.dataBuf <;> exact ⟨rfl, rfl, rfl⟩
  apply queues.takeHead _ linked.1 _ linked.2.2 (.inl rfl) head
  · intro other
    unfold Engine.prepareGc
    cases gc.dataBuf with
    | none =>
      refine (mark_modify _ (·.fillGc gc) (fun _ => rfl) new other).trans ?_
      exact mark_takeFrom _ _ new other
    | some ref =>
      rw [mark_linked, mark_modify _ (·.fillGc gc) (fun _ => rfl)]
      exact mark_takeFrom _ _ new other
  · rw [linked.2.1]
    simpa using loose

private theorem putTo (queues : Queues engine (some tag)) :
    Follows none engine (some tag) (engine.putTo which tag) none := by
  refine queues.put (mark_putTo engine which tag) rfl ?_ rfl
  simp [Engine.putTo]

private theorem takeSlice (queues : Queues engine none) {rest : List Tag} {stage : Stage Tag}
    {ref : BufferRef} {map : BufferMap Tag} (head : engine.queue .slice = tag :: rest)
    (loose : stage.held = engine.stage.held ++ [tag]) :
    Follows none engine none (engine.takeSlice tag stage ref map) none := by
  refine queues.takeHead ?_ rfl ?_ rfl (.inr rfl) head
  · intro other
    unfold Engine.takeSlice
    rw [mark_modify _ (fun request => { request with dataBuf := some ref }) (fun _ => rfl)]
    exact mark_takeFrom _ _ tag other
  · simp [Engine.takeSlice, Engine.modify, Engine.takeFrom, loose]

omit [DecidableEq Tag] in
private theorem skip (queues : Queues engine inHand) {rest : List Tag}
    (walk : engine.poll.walk = some (which, tag :: rest)) :
    rest.reverse <+: engine.queue which := by
  refine List.IsPrefix.trans ?_ (queues.walked walk)
  rw [List.reverse_cons]
  exact List.prefix_append _ _

theorem mark_dropped (engine : Engine Tag) (which : ReqQueueType) (tag other : Tag) :
    (((engine.takeFrom which tag).putTo .free tag).pool other).reqQueueType =
      update (fun other => (engine.pool other).reqQueueType) tag (some .free)
        other := by
  rw [mark_putTo, funext (mark_takeFrom engine which tag), update_idem]

private theorem release (queues : Queues engine none) (target : Option Tag) :
    Follows none engine none (Moment.release engine target).engine
      (Moment.release engine target).inHand := by
  apply Moment.release_cases (Follows none engine none)
  · exact same (fun _ => rfl) rfl rfl queues.walked
  · intro tag _ queued
    refine queues.take (mark_takeFrom _ _ tag) rfl ?_ rfl (queues.mem_iff.2 queued)
      (by rintro (⟨⟨⟩⟩ | ⟨⟨⟩⟩)) (by decide)
    simp [Engine.takeFrom]

/-- A finished request is dropped and its successor is released. -/
private theorem dropAndRelease (queues : Queues engine none) {target : Option Tag}
    (dropped : Follows completed engine none engine' none) :
    Follows completed engine none (Moment.release engine' target).engine
      (Moment.release engine' target).inHand :=
  dropped.trans ((queues.follow dropped).release target)

private theorem follows_main (queues : Queues engine none) {after : Moment Tag}
    (move : MainMove allowed engine after) :
    Follows none engine none after.engine after.inHand := by
  cases move with
  | accept _ _ accepted =>
    obtain ⟨stage, _, rfl⟩ := accept_eq_some accepted
    refine same (fun _ => rfl) rfl ?_ queues.walked
    simp [stage, Stage.held]
  | @cutInto slice rest tag free stage head =>
    let taken := ({ engine with
      stage := .cutting rest
      cut := engine.cut + 1 }.takeFrom .free tag).modify tag (·.fillSlice slice engine.cut)
    have inHand : Follows none engine none taken (some tag) := by
      refine queues.takeHead ?_ rfl ?_ rfl (.inl rfl) head
      · intro other
        rw [mark_modify _ (·.fillSlice slice engine.cut) (fun _ => rfl)]
        exact mark_takeFrom _ _ tag other
      · simp [taken, Engine.modify, Engine.takeFrom, stage, Stage.held]
    exact inHand.trans (queues.follow inHand).putTo
  | cutAll stage | translateAll stage | skipEviction stage | resumeGc stage | skipFetch stage
  | resumeFetch stage =>
    refine same (fun _ => rfl) rfl ?_ queues.walked
    simp [stage, Stage.held]
  | @hit tag rest ref _ _ stage head found =>
    exact queues.takeSlice head (by simp [stage, Stage.held])
  | @miss tag rest kind entry map stage head absent chosen allocated =>
    exact queues.takeSlice head (by simp [stage, Stage.held])
  | @holdWriteSlot tag write ref lsa free gcRequests stage uses dirty holds head =>
    refine queues.takeHead (mark_takeFrom _ _ write) rfl ?_ rfl (.inl rfl) head
    simp [Engine.holdWriteSlot, Engine.takeFrom, stage, Stage.held]
  | prepareGcRead stage head | prepareGc stage head =>
    apply queues.prepareGc head
    simp [stage, Stage.held]
  | @prepareWriteBack tag write ref lsa stage uses holds =>
    refine same ?_ rfl ?_ queues.walked
    · intro other
      unfold Engine.prepareWriteBack
      rw [mark_linked]
      exact mark_modify _ (·.fillNand (engine.pool tag) .write lsa ref) (fun _ => rfl) _ other
    · simp [Engine.prepareWriteBack, updateEntryInfoBlockingReq, Engine.modify, stage, Stage.held]
  | bindTo stage =>
    refine same (fun _ => rfl) rfl ?_ queues.walked
    simp [Engine.bindTo, stage, Stage.held]
  | @prepareFetch tag read ref free stage uses needed head =>
    refine queues.takeHead ?_ rfl ?_ rfl (.inl rfl) head
    · intro other
      unfold Engine.prepareFetch
      rw [mark_linked, mark_modify _
        (·.fillNand (engine.pool tag) .read (engine.pool tag).logicalSliceAddr ref)
        (fun _ => rfl)]
      exact mark_takeFrom _ _ read other
    · simp [Engine.prepareFetch, updateEntryInfoBlockingReq, Engine.modify, Engine.takeFrom,
        stage, Stage.held]
  | @makeDma tag ref stage uses =>
    refine same ?_ rfl ?_ queues.walked
    · intro other
      unfold Engine.makeDma
      rw [mark_linked]
      exact mark_modify _ (·.fillDma _) (fun _ => rfl) _ other
    · simp [Engine.makeDma, updateEntryInfoBlockingReq, Engine.modify, stage, Stage.held]

/-- Every move takes the requests it moves out of their queues and puts them into others. -/
theorem follows {before after : Moment Tag} (queues : Queues before.engine before.inHand)
    (move : Move allowed before after) :
    Follows none before.engine before.inHand after.engine after.inHand ∨
      ∃ tag pass, allowed before.engine (.nandDone tag pass) ∧
        tag ∈ before.engine.queue .nand ∧ tag ∉ after.engine.queue .nand ∧
        Follows (some tag) before.engine before.inHand after.engine after.inHand := by
  cases move with
  | serve served =>
    obtain ⟨command, _, rfl⟩ := Option.map_eq_some_iff.1 served
    left
    exact same (fun _ => rfl) rfl rfl queues.walked
  | main _ move => exact .inl (queues.follows_main move)
  | block | toNand | wait => exact .inl queues.putTo
  | @issue engine tag direction ref =>
    left
    have issued : Follows none engine (some tag) (engine.issueTo direction ref tag) (some tag) := by
      refine same ?_ rfl rfl queues.walked
      exact mark_modify engine (fun request => { request with
        issuedFlag := request.issuedFlag || decide (0 < request.numOfNvmeBlock)
        dmaTail := _ }) (fun _ => rfl) tag
    exact issued.trans (queues.follow issued).putTo
  | startPoll | startCustomPoll =>
    left
    refine same (fun _ => rfl) rfl rfl ?_
    rintro which remaining ⟨⟩
    simp
  | startNand | endPoll =>
    left
    refine same (fun _ => rfl) rfl rfl ?_
    rintro which remaining ⟨⟩
  | skipNvmeDma walk | skipCustomCmd walk =>
    left
    refine same (fun _ => rfl) rfl rfl ?_
    rintro which remaining ⟨⟩
    exact queues.skip (by rw [walk]; rfl)
  | @dropNvmeDma engine tag rest done direction walk direct answer =>
    left
    have walking : engine.poll.walk = some (.nvmeDma, tag :: rest) := by
      rw [walk]
      rfl
    apply queues.dropAndRelease
    refine drop (queues.visited_mem walking) (by rintro (⟨⟨⟩⟩ | ⟨⟨⟩⟩)) ?_ rfl rfl ?_
    · intro other
      rw [mark_unlinked]
      exact mark_dropped _ _ tag other
    · rintro which remaining ⟨⟩
      exact queues.rest_of_visited walking
  | @dropCustomCmd engine tag rest done direction pass permitted walk =>
    left
    have walking : engine.poll.walk = some (.customCmd, tag :: rest) := by
      rw [walk]
      rfl
    apply queues.dropAndRelease
    refine drop (queues.visited_mem walking) (by rintro (⟨⟨⟩⟩ | ⟨⟨⟩⟩)) ?_ rfl rfl ?_
    · intro other
      rw [mark_unlinked]
      exact mark_dropped _ _ tag other
    · rintro which remaining ⟨⟩
      exact queues.rest_of_visited walking
  | @issueWaiting engine tag rest done direction ref pass permitted walk =>
    left
    refine same ?_ rfl rfl ?_
    · exact mark_modify { engine with poll := .customCmd rest done } (fun request =>
        { request with
          issuedFlag := request.issuedFlag || decide (0 < request.numOfNvmeBlock)
          dmaTail := _ }) (fun _ => rfl) tag
    · rintro which remaining ⟨⟩
      exact queues.skip (by rw [walk]; rfl)
  | @unlinkWaiting engine tag rest done walk =>
    left
    apply queues.dropAndRelease
    refine same (mark_unlinked _ _) rfl rfl ?_
    rintro which remaining ⟨⟩
    exact queues.skip (by rw [walk]; rfl)
  | @dropNand engine tag pass permitted quiet queued =>
    right
    refine ⟨tag, pass, permitted, queued, ?_, ?_⟩
    · have absent : tag ∉ (engine.queue .nand).erase tag :=
        (queues.consistent.nodup .nand).not_mem_erase
      apply Moment.release_cases (fun engine _ => tag ∉ engine.queue .nand)
      · exact absent
      · intro _ _ _
        exact absent
    · apply queues.dropAndRelease
      refine drop queued (by rintro (⟨⟨⟩⟩ | ⟨⟨⟩⟩)) ?_ rfl rfl ?_
      · intro other
        rw [mark_unlinked]
        exact mark_dropped _ _ tag other
      · intro which remaining walk
        have quiet' : ((engine.dropNand tag).unlink tag).poll = .nand := quiet
        rw [quiet'] at walk
        cases walk
  | @rowAddrDepDone engine tag quiet queued =>
    left
    have taken :
        Follows none engine none (engine.takeFrom .blockedByRowAddrDep tag) (some tag) := by
      refine queues.take (mark_takeFrom _ _ tag) rfl ?_ rfl queued (by rintro (⟨⟨⟩⟩ | ⟨⟨⟩⟩))
        (by decide)
      simp [Engine.takeFrom]
    exact taken.trans (queues.follow taken).putTo

theorem move {before after : Moment Tag} (queues : Queues before.engine before.inHand)
    (move : Move allowed before after) : Queues after.engine after.inHand := by
  rcases queues.follows move with others | ⟨tag, _, _, _, _, completed⟩
  · exact queues.follow others
  · exact queues.follow completed

end Queues
end Engine

theorem Config.initial_queues (config : Config) : config.initial.Queues none := by
  constructor
  · constructor
    · intro which tag
      show tag ∈ (if which = .free then List.finRange config.poolSize else []) ↔
        some .free = some which
      by_cases free : which = .free
      · simp [free]
      · simp [free, Ne.symm free]
    · intro which
      show (if which = .free then List.finRange config.poolSize else []).Nodup
      split
      · exact List.nodup_finRange _
      · exact List.nodup_nil
    · intro tag loose
      cases loose
    · exact List.nodup_nil
  · intro which remaining walk
    cases walk

end RwRbuf.Firmware.Requests
