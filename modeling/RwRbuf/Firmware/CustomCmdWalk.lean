import RwRbuf.Firmware.RxBeforeTx

/-! # The walk of `CheckDoneCustomCmdDmaReq`

The walk goes from the tail of the custom queue to its head and asks the DMA engine once for
each direction.  A positive answer is good for the requests that are still to be visited if
they were issued before the one that was asked for.  Tx requests that waited for Rx requests
are issued by such a walk, hence in the order from tail to head, and then it is not.
-/

namespace RwRbuf.Firmware.Requests

open Fallible Relation

namespace Engine

variable {Tag : Type} {engine engine' : Engine Tag} {tag : Tag} {rest : List Tag}
  {done : Direction → Bool} {Trusted : ReqQueueType → Direction → Prop}

/-- A visit issues a waiting request only if no issued request of its direction stands behind
it in the custom queue. -/
def IssuesInOrder (engine : Engine Tag) : Event Tag → Prop
  | .visit _ => engine.Orderly fun _ _ => True
  | _ => True

/-- A command that is not served is one of a request whose commands the DMA engine has. -/
theorem Records.owner_of_unserved (records : Records Trusted engine)
    (trusted : ∀ which direction, Trusted which direction) {direction : Direction} {index : Nat}
    {command : DmaCommand} (found : (engine.dma direction).fifo[index]? = some command)
    (unserved : (engine.dma direction).served ≤ index) :
    ∃ owner, engine.Given owner ∧ (engine.pool owner).dataBuf = some command.target ∧
      direction = (engine.pool owner).walkDirection ∧ index < (engine.pool owner).dmaTail := by
  rcases records.known direction command (List.mem_of_getElem? found) with
    finished | ⟨owner, given, slice, target⟩
  · have served := records.served direction (fun which _ => trusted which direction) index command
      found finished
    exact absurd served (Nat.not_lt_of_le unserved)
  · obtain ⟨direct, own⟩ := records.own owner given direction index command found slice.symm
    exact ⟨owner, given, target, direct, own⟩

theorem served_of_given (given : engine.Given tag) : engine.Served tag := by
  rcases given with queued | ⟨queued, _⟩
  · exact ⟨.nvmeDma, queued, .inr (.inl rfl)⟩
  · exact ⟨.customCmd, queued, .inr (.inr (.inl rfl))⟩

/-- Of the requests on one buffer entry at most one has commands in the DMA engine. -/
theorem given_unique (sound : Sound engine none) {other : Tag} {ref : BufferRef}
    (given : engine.Given tag) (given' : engine.Given other)
    (uses : (engine.pool tag).dataBuf = some ref) (uses' : (engine.pool other).dataBuf = some ref) :
    other = tag := by
  have chain := sound.chains.entryChain sound.queues ref
  have member : ∀ item, engine.Given item → (engine.pool item).dataBuf = some ref →
      item ∈ engine.chainOf ref := by
    intro item given uses
    have listed := (given.live sound.tracks).mem_handed sound.chains
    exact (chain.mem_iff item).2 ⟨(sound.chains.outstanding item).1 listed, uses⟩
  exact chain.served_unique other (member other given' uses') tag (member tag given uses)
    (served_of_given given') (served_of_given given)

/-- When the DMA engine has passed the record of a request, nothing is in flight from or to
its buffer entry. -/
theorem unused_of_passed (sound : DmaSound Trusted engine none)
    (trusted : ∀ which direction, Trusted which direction) {ref : BufferRef}
    (given : engine.Given tag) (uses : (engine.pool tag).dataBuf = some ref)
    (passed : (engine.pool tag).dmaTail ≤ (engine.dma (engine.pool tag).walkDirection).served)
    {direction : Direction} {index : Nat} {command : DmaCommand}
    (found : (engine.dma direction).fifo[index]? = some command)
    (target : command.target = ref) : index < (engine.dma direction).served := by
  by_contra late
  obtain ⟨owner, owns, uses', direct, own⟩ :=
    sound.records.owner_of_unserved trusted found (Nat.le_of_not_lt late)
  rw [target] at uses'
  obtain rfl := given_unique sound.sound given owns uses uses'
  rw [direct] at late
  exact late (own.trans_le passed)

/-- A request of the custom queue is not blocked by its buffer entry. -/
theorem front_of_customQueue (sound : Sound engine none) (queued : tag ∈ engine.queue .customCmd) :
    (engine.pool tag).prevBlockingReq = none := by
  have marked := sound.queues.mem_iff.1 queued
  have live : engine.Live none tag :=
    ⟨(sound.tracks.customQueue tag marked).1, .inr (.inr (.inl marked))⟩
  exact sound.chains.prev_of_queued sound.queues marked (live.mem_handed sound.chains) (by decide)

variable [DecidableEq Tag]

theorem visitCustomCmd_of_step {pass : Bool} (walk : engine.poll = .customCmd (tag :: rest) done)
    (taken : engine.step (.visit pass) = some engine') :
    engine.visitCustomCmd tag rest done pass = some engine' := by
  have visited : engine.visit pass = some engine' := taken
  unfold Engine.visit at visited
  rw [walk] at visited
  exact visited

/-- A request that leaves the custom queue in a visit is the one that is visited, it was
issued, and the answer was positive. -/
theorem eq_of_gone_customCmd {pass : Bool} {gone : Tag} (sound : Sound engine none)
    (sound' : Sound engine' none) (walk : engine.poll = .customCmd (tag :: rest) done)
    (taken : engine.step (.visit pass) = some engine') (queued : gone ∈ engine.queue .customCmd)
    (absent : gone ∉ engine'.queue .customCmd) :
    gone = tag ∧ (engine.pool tag).issuedFlag = true ∧ engine.answered tag done = true := by
  have front := front_of_customQueue sound (sound.queues.visited_mem
    (show engine.poll.walk = some (.customCmd, tag :: rest) by rw [walk]; rfl))
  have marked := sound.queues.mem_iff.1 queued
  rcases visitCustomCmd_cases front (visitCustomCmd_of_step walk taken) with
    ⟨_, issued, answered, spares⟩ | ⟨_, done', rfl⟩ | ⟨_, direction, ref, rfl⟩
  · refine ⟨?_, issued, answered⟩
    by_contra differs
    have unchanged : ({ engine with poll := .customCmd rest (Function.update done
        (engine.pool tag).walkDirection true) }.dropCustomCmd tag).pool gone = engine.pool gone :=
      (Fresh.pool_putTo_of_ne differs).trans (Fresh.pool_takeFrom_of_ne differs)
    have core := spares.others gone (by rw [unchanged, marked]; decide)
    rw [unchanged] at core
    apply absent
    rw [sound'.queues.mem_iff, Request.field_of_core (·.reqQueueType) (fun _ => rfl) core]
    exact marked
  · exact absurd queued absent
  · exact absurd queued absent

end Engine

/-- If the walks issue the waiting requests in the order of the custom queue, then
`CheckDoneCustomCmdDmaReq` removes a request only when the DMA engine has passed its record,
and then nothing is in flight from or to its buffer entry. -/
theorem checkDoneCustomCmdDmaReq_passed (config : Config) (engine : Engine config.Tag)
    (run : Relation.ReflTransGen (Fallible.EventStep Engine.step Engine.IssuesInOrder)
      config.initial engine) :
    ∀ tag rest done pass engine', engine.poll = .customCmd (tag :: rest) done →
      engine.step (.visit pass) = some engine' →
      ∀ gone ∈ engine.queue .customCmd, gone ∉ engine'.queue .customCmd →
        (engine.pool gone).dmaTail ≤ (engine.dma (engine.pool gone).walkDirection).served ∧
        ∀ ref, (engine.pool gone).dataBuf = some ref →
          ∀ direction index command, (engine.dma direction).fifo[index]? = some command →
            command.target = ref → index < (engine.dma direction).served := by
  have sound := run_of_moves (Engine.DmaSound fun _ _ => True)
    (config.initial_dmaSound _)
    (fun _ _ sound move => sound.move (fun _ _ _ _ _ orderly => orderly) move) run
  intro tag rest done pass engine' walk taken gone queued absent
  have reached : ReflTransGen (EventStep Engine.step fun _ _ => True)
      config.initial engine := reaches_mono (fun _ _ _ => trivial) run
  have sound' := sound_of_run (reached.tail ⟨.visit pass, trivial, taken⟩)
  obtain ⟨rfl, issued, answered⟩ :=
    Engine.eq_of_gone_customCmd sound.sound sound' walk taken queued absent
  have given : engine.Given gone := .inr ⟨sound.sound.queues.mem_iff.1 queued, issued⟩
  have visiting : engine.poll.walk = some (.customCmd, gone :: rest) := by
    rw [walk]
    rfl
  have passed : (engine.pool gone).dmaTail ≤
      (engine.dma (engine.pool gone).walkDirection).served := by
    apply sound.records.passed_of_answer visiting given trivial
    rw [walk]
    exact Bool.or_eq_true _ _ ▸ answered
  refine ⟨passed, ?_⟩
  intro ref uses direction index command found target
  exact Engine.unused_of_passed sound (fun _ _ => trivial) given uses passed found target

def sameSliceStartedEvents {Tag : Type} : List (Event Tag) :=
  .startPoll :: List.replicate 4 (.serve .rx)

theorem sameSliceStartedEvents_run :
    (runEvents Engine.step sameSliceStartedEvents sameSliceEngine).isSome = true := by
  decide +kernel

def sameSliceStarted : Engine Config.oneDie.Tag :=
  (runEvents Engine.step sameSliceStartedEvents sameSliceEngine).get
    sameSliceStartedEvents_run

theorem sameSliceStarted_visits : (sameSliceStarted.step (.visit true)).isSome = true := by
  decide +kernel

/-- The walk of the custom queue begins. -/
def sameSliceWalking : Engine Config.oneDie.Tag :=
  (sameSliceStarted.step (.visit true)).get sameSliceStarted_visits

theorem sameSliceWalking_visits : (sameSliceWalking.step (.visit true)).isSome = true := by
  decide +kernel

/-- The visit that comes next removes the Rx request, which is served. -/
theorem checkDoneCustomCmdDmaReq_passed_sameSlice :
    ((sameSliceWalking.step (.visit true)).get sameSliceWalking_visits).queue .customCmd =
        [⟨1, by decide⟩] ∧
      (sameSliceWalking.pool ⟨0, by decide⟩).dmaTail ≤
        (sameSliceWalking.dma (sameSliceWalking.pool ⟨0, by decide⟩).walkDirection).served := by
  have run : ReflTransGen (EventStep Engine.step Engine.IssuesInOrder)
      Config.oneDie.initial sameSliceStarted := by
    apply (sameSliceEngine_reached trivial fun _ _ => trivial).trans
    apply reaches_of_runEvents sameSliceStartedEvents _
      (Option.some_get sameSliceStartedEvents_run).symm
    intro event member engine
    rcases List.mem_cons.1 member with rfl | serves
    · trivial
    · rw [List.eq_of_mem_replicate serves]
      trivial
  have orderly : sameSliceStarted.IssuesInOrder (.visit true) := by
    have walk : sameSliceStarted.poll.walk = some (.nvmeDma, []) := by
      decide +kernel
    intro tag rest done walks
    rw [walks] at walk
    cases walk
  have removed : ((sameSliceWalking.step (.visit true)).get sameSliceWalking_visits).queue
      .customCmd = [⟨1, by decide⟩] := by
    decide +kernel
  obtain ⟨done, walk⟩ : ∃ done, sameSliceWalking.poll = .customCmd [⟨0, by decide⟩] done := by
    have walk : sameSliceWalking.poll.walk = some (.customCmd, [⟨0, by decide⟩]) := by
      decide +kernel
    cases poll : sameSliceWalking.poll with
    | customCmd remaining done =>
      rw [poll] at walk
      cases walk
      exact ⟨done, rfl⟩
    | _ =>
      rw [poll] at walk
      cases walk
  refine ⟨removed, (checkDoneCustomCmdDmaReq_passed Config.oneDie sameSliceWalking
    (run.tail ⟨_, orderly, (Option.some_get sameSliceStarted_visits).symm⟩) _ _ done true _ walk
    (Option.some_get sameSliceWalking_visits).symm _ ?_ ?_).1⟩
  · decide +kernel
  · rw [removed]
    decide

/-- A write-read command with one slice to write and two to read is taken and translated, and
its Rx request is served and removed.  The next poll issues the second Tx request before the
first, the DMA engine serves the second, and the next poll begins and removes it. -/
def twoReadsBehindEvents {Tag : Type} : List (Event Tag) :=
  List.flatten
    [ [.command (.writeRead 0 0 3 4 7)], List.replicate 20 (.advance ⟨[], true⟩),
      List.replicate 4 (.serve .rx),
      [.startPoll], List.replicate 5 (.visit true), [.endPoll],
      [.startPoll], List.replicate 4 (.visit true), [.endPoll],
      List.replicate 4 (.serve .tx),
      [.startPoll], List.replicate 2 (.visit true) ]

abbrev Config.twoDies : Config := .ofDies 2 (by decide)

theorem twoReadsBehindEvents_run :
    (runEvents Engine.step twoReadsBehindEvents Config.twoDies.initial).isSome =
      true := by
  decide +kernel

def twoReadsBehind : Engine Config.twoDies.Tag :=
  (runEvents Engine.step twoReadsBehindEvents Config.twoDies.initial).get
    twoReadsBehindEvents_run

theorem twoReadsBehind_visits : (twoReadsBehind.step (.visit true)).isSome = true := by
  decide +kernel

/-- The visit removes the first Tx request, although the DMA engine has served none of its
commands. -/
theorem removed_before_passed :
    Relation.ReflTransGen (Fallible.EventStep Engine.step fun _ _ => True)
        Config.twoDies.initial twoReadsBehind ∧
      twoReadsBehind.queue .customCmd = [⟨1, by decide⟩] ∧
      (twoReadsBehind.pool ⟨1, by decide⟩).dmaTail = 8 ∧
      (twoReadsBehind.dma (twoReadsBehind.pool ⟨1, by decide⟩).walkDirection).served = 4 ∧
      ∃ engine', twoReadsBehind.step (.visit true) = some engine' ∧
        engine'.queue .customCmd = [] ∧
        ((engine'.dma .tx).fifo.drop (engine'.dma .tx).served).map (some ∘ DmaCommand.target) =
          List.replicate 4 (twoReadsBehind.pool ⟨1, by decide⟩).dataBuf := by
  refine ⟨?_, ?_, ?_, ?_, _, (Option.some_get twoReadsBehind_visits).symm, ?_, ?_⟩
  · exact reaches_of_runEvents _ (fun _ _ _ => trivial)
      (Option.some_get twoReadsBehindEvents_run).symm
  all_goals decide +kernel

end RwRbuf.Firmware.Requests
