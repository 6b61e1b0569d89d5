import RwRbuf.Firmware.DmaRecords

/-! # The moves as the DMA engine sees them

For the DMA engine and the two queues of its requests a move of the engine is made of few
things: the engine serves a command, a request is given to it, a walk removes a request, or
something else happens that leaves its requests alone.
-/

namespace RwRbuf.Firmware.Requests

open Function Relation

variable {Tag : Type}

theorem Poll.ne_idle_of_walk {poll : Poll Tag} {walked : ReqQueueType × List Tag}
    (walk : poll.walk = some walked) : poll ≠ .idle := by
  rintro rfl
  cases walk

namespace Engine

/-- What a move does to the round of the polls, if it removes no DMA request. -/
inductive PollStep (engine engine' : Engine Tag) : Prop
  | same (poll : engine'.poll = engine.poll)
  | start (idle : engine.poll = .idle)
      (listed : ∀ tag, (engine.pool tag).reqQueueType = some .nvmeDma →
        tag ∈ engine.queue .nvmeDma)
      (walk : engine'.poll = .nvmeDma (engine.queue .nvmeDma).reverse fun _ => false)
  | custom {done : Direction → Bool} (last : engine.poll = .nvmeDma [] done)
      (walk : engine'.poll = .customCmd (engine.queue .customCmd).reverse fun _ => false)
  | nand {done : Direction → Bool} (last : engine.poll = .customCmd [] done)
      (nand : engine'.poll = .nand)
  | finish (nand : engine.poll = .nand) (idle : engine'.poll = .idle)
  | skipNvmeDma {tag : Tag} {rest : List Tag} {done : Direction → Bool}
      (walk : engine.poll = .nvmeDma (tag :: rest) done)
      (refused : (engine.dma (engine.pool tag).walkDirection).partialDone
        (engine.pool tag).dmaTail = false)
      (goesOn : engine'.poll = .nvmeDma rest done)
  | skipCustomCmd {tag : Tag} {rest : List Tag} {done : Direction → Bool}
      (walk : engine.poll = .customCmd (tag :: rest) done)
      (goesOn : engine'.poll = .customCmd rest done)

variable {direction : Direction}

theorem PollStep.answer {engine engine' : Engine Tag} (step : PollStep engine engine')
    {which : ReqQueueType} {remaining : List Tag}
    (walk : engine'.poll.walk = some (which, remaining))
    (done : engine'.poll.done direction = true) :
    ∃ before, engine.poll.walk = some (which, before) ∧ engine.poll.done direction = true ∧
      remaining ⊆ before := by
  cases step with
  | same poll =>
    rw [poll] at walk done
    exact ⟨remaining, walk, done, List.Subset.refl _⟩
  | start _ _ poll | custom _ poll =>
    rw [poll] at done
    cases done
  | nand _ poll | finish _ poll =>
    rw [poll] at walk
    cases walk
  | skipNvmeDma before _ poll | skipCustomCmd before poll =>
    rw [poll] at walk done
    cases walk
    rw [before]
    exact ⟨_, rfl, done, List.subset_cons_self _ _⟩

/-- The commands of a request go to the DMA engine: those of one slice, which the engine did
not have before, and the request records how many there are then. -/
structure Gives [DecidableEq Tag] (engine engine' : Engine Tag) (tag : Tag)
    (direction : Direction) (commands : List DmaCommand) : Prop where
  notGiven : ¬engine.Given tag
  taken : (engine.pool tag).reqQueueType ≠ some .free
  unfinished : (engine.pool tag).sliceNo ∉ engine.finished
  distinct : ∀ other, engine.Given other → (engine.pool other).sliceNo ≠ (engine.pool tag).sliceNo
  ofSlice : ∀ command ∈ commands, command.sliceNo = (engine.pool tag).sliceNo
  target : ∀ command ∈ commands, (engine.pool tag).dataBuf = some command.target
  pos : commands ≠ []
  few : commands.length ≤ nvmeBlocksPerSlice
  accepted : (engine.dma direction).accepts commands
  dma : engine'.dma =
    update engine.dma direction ((engine.dma direction).issue commands)
  finished : engine'.finished = engine.finished
  others : ∀ other, other ≠ tag → (engine'.pool other).core = (engine.pool other).core
  given : engine'.Given tag
  sliceNo : (engine'.pool tag).sliceNo = (engine.pool tag).sliceNo
  dataBuf : (engine'.pool tag).dataBuf = (engine.pool tag).dataBuf
  direct : (engine'.pool tag).walkDirection = direction
  tail : (engine'.pool tag).dmaTail = (engine'.dma direction).issued
  queue : ∀ which, IsDmaQueue which → engine'.queue which = engine.queue which ∨
    (engine'.queue which = engine.queue which ++ [tag] ∧ tag ∉ engine.queue which)
  unvisited : ∀ which remaining, engine'.poll.walk = some (which, remaining) → tag ∉ remaining
  poll : PollStep engine engine'

structure Drops [DecidableEq Tag] (engine engine' : Engine Tag) (tag : Tag)
    (which : ReqQueueType) (rest : List Tag) : Prop where
  given : engine.Given tag
  isDma : IsDmaQueue which
  walk : engine.poll.walk = some (which, tag :: rest)
  inFront : (tag :: rest).reverse <+: engine.queue which
  nodup : (engine.queue which).Nodup
  answer : engine.poll.done (engine.pool tag).walkDirection = true ∨
    (engine.dma (engine.pool tag).walkDirection).partialDone (engine.pool tag).dmaTail = true
  dma : engine'.dma = engine.dma
  finished : engine'.finished = (engine.pool tag).sliceNo :: engine.finished
  others : ∀ other, other ≠ tag → engine'.pool other = engine.pool other
  free : (engine'.pool tag).reqQueueType = some .free
  queue : ∀ which, IsDmaQueue which → engine'.queue which = (engine.queue which).erase tag
  walk' : engine'.poll.walk = some (which, rest)
  done' : engine'.poll.done =
    update engine.poll.done (engine.pool tag).walkDirection true

/-- The moves for the DMA engine.  In the queues and directions that are trusted, a request is
given only if no request behind it was given before. -/
inductive DmaMove [DecidableEq Tag] (Trusted : ReqQueueType → Direction → Prop) :
    Engine Tag → Engine Tag → Prop
  | aside {engine engine' : Engine Tag} (still : DmaAside engine engine')
      (free : engine.poll ≠ .idle → ∀ tag, (engine.pool tag).reqQueueType = some .free →
        (engine'.pool tag).reqQueueType = some .free)
      (poll : PollStep engine engine') : DmaMove Trusted engine engine'
  | serve {engine engine' : Engine Tag} {direction : Direction}
      (served : engine.serve direction = some engine') : DmaMove Trusted engine engine'
  | give {engine engine' : Engine Tag} {tag : Tag} {direction : Direction}
      {commands : List DmaCommand} (gives : Gives engine engine' tag direction commands)
      (orderly : ∀ which front back, IsDmaQueue which → Trusted which direction →
        engine'.queue which = front ++ tag :: back →
        ∀ other ∈ back, engine.Given other → (engine.pool other).walkDirection ≠ direction) :
      DmaMove Trusted engine engine'
  | drop {engine engine' : Engine Tag} {tag : Tag} {which : ReqQueueType} {rest : List Tag}
      (drops : Drops engine engine' tag which rest) : DmaMove Trusted engine engine'

section Requests

variable {engine : Engine Tag} {inHand : Option Tag} {tag : Tag}

theorem walkDirection_of_direction {request : Request Tag}
    (direct : request.direction = some direction) : request.walkDirection = direction := by
  unfold Request.direction at direct
  unfold Request.walkDirection
  split at direct
  next rx =>
    rw [if_pos rx]
    exact Option.some.inj direct
  next tx =>
    rw [if_neg (by rw [tx]; decide)]
    exact Option.some.inj direct
  · cases direct

theorem Given.live (given : engine.Given tag) (tracks : Tracks engine inHand) :
    engine.Live inHand tag := by
  rcases given with queued | ⟨queued, _⟩
  · exact ⟨(tracks.nvmeDmaQueue tag queued).1, .inr (.inl queued)⟩
  · exact ⟨(tracks.customQueue tag queued).1, .inr (.inr (.inl queued))⟩

theorem commands_of_live (tracks : Tracks engine inHand) (balanced : engine.ledger.Balanced)
    (live : engine.Live inHand tag) (ref : BufferRef) :
    (∀ command ∈ (engine.pool tag).dmaCommands ref,
        command.sliceNo = (engine.pool tag).sliceNo) ∧
      0 < (engine.pool tag).numOfNvmeBlock ∧ (engine.pool tag).dmaCommands ref ≠ [] ∧
      ((engine.pool tag).dmaCommands ref).length ≤ nvmeBlocksPerSlice := by
  obtain ⟨_, slice, found, carries, _⟩ := tracks.live tag live
  have wellFormed := balanced.wellFormed slice (List.mem_of_getElem? found)
  have pos : 0 < (engine.pool tag).numOfNvmeBlock := carries.count ▸ wellFormed.pos
  have length : ((engine.pool tag).dmaCommands ref).length = (engine.pool tag).numOfNvmeBlock := by
    simp [Request.dmaCommands]
  refine ⟨?_, pos, ?_, ?_⟩
  · intro command member
    obtain ⟨index, _, rfl⟩ := List.mem_map.1 member
    rfl
  · intro empty
    rw [empty] at length
    exact absurd length pos.ne
  · rw [length, carries.count]
    exact (Nat.le_add_left _ _).trans wellFormed.fits

theorem slice_of_ungiven (tracks : Tracks engine inHand) (live : engine.Live inHand tag)
    (notGiven : ¬engine.Given tag) :
    (engine.pool tag).sliceNo ∉ engine.finished ∧
      ∀ other, engine.Given other →
        (engine.pool other).sliceNo ≠ (engine.pool tag).sliceNo := by
  obtain ⟨outstanding, _⟩ := tracks.live tag live
  refine ⟨(Ledger.mem_outstanding.1 outstanding).2, ?_⟩
  intro other given same
  have equal := tracks.distinct other tag (given.live tracks) live same
  rw [equal] at given
  exact notGiven given

end Requests

variable [DecidableEq Tag]

section Changes

variable {engine : Engine Tag} {tag : Tag}

omit [DecidableEq Tag] in
theorem target_of_mem {request : Request Tag} {ref : BufferRef} {command : DmaCommand}
    (member : command ∈ request.dmaCommands ref) : command.target = ref := by
  obtain ⟨index, _, rfl⟩ := List.mem_map.1 member
  rfl

theorem flag_issueTo (engine : Engine Tag) (direction : Direction) (ref : BufferRef)
    (pos : 0 < (engine.pool tag).numOfNvmeBlock) :
    ((engine.issueTo direction ref tag).pool tag).issuedFlag = true := by
  simp [Engine.issueTo, pos]

theorem gives_issue {ref : BufferRef} (queues : Queues engine (some tag))
    (tracks : Tracks engine (some tag)) (balanced : engine.ledger.Balanced)
    (dma : (engine.pool tag).reqType = .nvmeDma)
    (direct : (engine.pool tag).direction = some direction)
    (uses : (engine.pool tag).dataBuf = some ref)
    (room : (engine.dma direction).accepts ((engine.pool tag).dmaCommands ref)) :
    Gives engine ((engine.issueTo direction ref tag).putTo (engine.pool tag).dmaQueue tag) tag
      direction ((engine.pool tag).dmaCommands ref) := by
  have live : engine.Live (some tag) tag := ⟨dma, .inr (.inr (.inr rfl))⟩
  have unmarked := queues.unmarked_of_inHand
  have notGiven : ¬engine.Given tag := not_given_of_mark unmarked (by simp) (by simp)
  obtain ⟨ofSlice, pos, nonempty, few⟩ := commands_of_live tracks balanced live ref
  obtain ⟨unfinished, distinct⟩ := slice_of_ungiven tracks live notGiven
  have absent : ∀ which, tag ∉ engine.queue which := by
    intro which member
    rw [queues.mem_iff, unmarked] at member
    cases member
  refine
    { notGiven := notGiven
      taken := by rw [unmarked]; decide
      unfinished := unfinished
      distinct := distinct
      ofSlice := ofSlice
      target := ?_
      pos := nonempty
      few := few
      accepted := room
      dma := rfl
      finished := rfl
      others := ?_
      given := ?_
      sliceNo := by simp [Engine.putTo, Engine.issueTo]
      dataBuf := by simp [Engine.putTo, Engine.issueTo]
      direct := ?_
      tail := by simp [Engine.putTo, Engine.issueTo]
      queue := ?_
      unvisited := ?_
      poll := .same rfl }
  · intro command member
    rw [uses, target_of_mem member]
  · intro other differs
    exact congrArg Request.core ((update_of_ne differs _ _).trans (update_of_ne differs _ _))
  · have marked : (((engine.issueTo direction ref tag).putTo (engine.pool tag).dmaQueue
        tag).pool tag).reqQueueType = some (engine.pool tag).dmaQueue := by
      simp [Engine.putTo]
    have flag : (((engine.issueTo direction ref tag).putTo (engine.pool tag).dmaQueue
        tag).pool tag).issuedFlag = true := by
      simpa [Engine.putTo] using flag_issueTo engine direction ref pos
    rcases (engine.pool tag).isDmaQueue_dmaQueue with nvmeDma | customCmd
    · exact .inl (marked.trans (congrArg some nvmeDma))
    · exact .inr ⟨marked.trans (congrArg some customCmd), flag⟩
  · rw [← walkDirection_of_direction direct]
    simp [Request.walkDirection, Engine.putTo, Engine.issueTo]
  · intro which _
    by_cases same : which = (engine.pool tag).dmaQueue
    · subst same
      exact .inr ⟨by simp [Engine.putTo, Engine.issueTo], absent _⟩
    · exact .inl (by simp [Engine.putTo, Engine.issueTo, same])
  · intro which remaining walk member
    have walked : remaining.reverse <+: engine.queue which := queues.walked walk
    exact absent which (walked.subset (List.mem_reverse.2 member))

theorem gives_issueWaiting {rest : List Tag} {done : Direction → Bool}
    {ref : BufferRef} (queues : Queues engine none) (tracks : Tracks engine none)
    (balanced : engine.ledger.Balanced) (walk : engine.poll = .customCmd (tag :: rest) done)
    (waiting : (engine.pool tag).issuedFlag = false)
    (direct : (engine.pool tag).direction = some direction)
    (uses : (engine.pool tag).dataBuf = some ref)
    (room : (engine.dma direction).accepts ((engine.pool tag).dmaCommands ref)) :
    Gives engine ({ engine with poll := .customCmd rest done }.issueTo direction ref tag) tag
      direction ((engine.pool tag).dmaCommands ref) := by
  have walked : (tag :: rest).reverse <+: engine.queue .customCmd :=
    queues.walked (by rw [walk]; rfl)
  have marked : (engine.pool tag).reqQueueType = some .customCmd :=
    queues.mem_iff.1 (walked.subset (by simp))
  have live : engine.Live none tag :=
    ⟨(tracks.customQueue tag marked).1, .inr (.inr (.inl marked))⟩
  have notGiven : ¬engine.Given tag := by
    rintro (given | ⟨_, given⟩)
    · rw [marked] at given
      cases given
    · rw [waiting] at given
      cases given
  obtain ⟨ofSlice, pos, nonempty, few⟩ := commands_of_live tracks balanced live ref
  obtain ⟨unfinished, distinct⟩ := slice_of_ungiven tracks live notGiven
  refine
    { notGiven := notGiven
      taken := by rw [marked]; decide
      unfinished := unfinished
      distinct := distinct
      ofSlice := ofSlice
      target := ?_
      pos := nonempty
      few := few
      accepted := room
      dma := rfl
      finished := rfl
      others := ?_
      given := ?_
      sliceNo := by simp [Engine.issueTo]
      dataBuf := by simp [Engine.issueTo]
      direct := ?_
      tail := by simp [Engine.issueTo]
      queue := fun _ _ => .inl rfl
      unvisited := ?_
      poll := .skipCustomCmd walk rfl }
  · intro command member
    rw [uses, target_of_mem member]
  · intro other differs
    exact congrArg Request.core (update_of_ne differs _ _)
  · refine .inr ⟨?_, flag_issueTo _ direction ref pos⟩
    simpa [Engine.issueTo] using marked
  · rw [← walkDirection_of_direction direct]
    simp [Request.walkDirection, Engine.issueTo]
  · rintro which remaining ⟨⟩ member
    have nodup := (queues.consistent.nodup .customCmd).sublist walked.sublist
    rw [List.nodup_reverse] at nodup
    exact (List.nodup_cons.1 nodup).1 member

/-- A walk removes the request that it visits.  The engine `ended` is the one in which the
end of the request was recorded. -/
theorem drops_of_walk {ended : Engine Tag} {which : ReqQueueType} {rest : List Tag}
    (queues : Queues engine none) (isDma : IsDmaQueue which)
    (walk : engine.poll.walk = some (which, tag :: rest)) (given : engine.Given tag)
    (answer : engine.poll.done (engine.pool tag).walkDirection = true ∨
      (engine.dma (engine.pool tag).walkDirection).partialDone (engine.pool tag).dmaTail = true)
    (dma : ended.dma = engine.dma) (pool : ended.pool = engine.pool)
    (queue : ended.queue = engine.queue)
    (finished : ended.finished = (engine.pool tag).sliceNo :: engine.finished)
    (walk' : ended.poll.walk = some (which, rest))
    (done' : ended.poll.done = update engine.poll.done (engine.pool tag).walkDirection true) :
    Drops engine ((ended.takeFrom which tag).putTo .free tag) tag which rest := by
  have walked := queues.walked walk
  have marked : (engine.pool tag).reqQueueType = some which :=
    queues.mem_iff.1 (walked.subset (by simp))
  refine
    { given := given
      isDma := isDma
      walk := walk
      inFront := walked
      nodup := queues.consistent.nodup which
      answer := answer
      dma := dma
      finished := finished
      others := ?_
      free := by simp [Engine.putTo]
      queue := ?_
      walk' := walk'
      done' := done' }
  · intro other differs
    rw [Fresh.pool_putTo_of_ne differs, Fresh.pool_takeFrom_of_ne differs, pool]
  · intro queue' isDma'
    have notFree : queue' ≠ .free := by
      rintro rfl
      rcases isDma' with ⟨⟨⟩⟩ | ⟨⟨⟩⟩
    by_cases same : queue' = which
    · subst same
      simp [Engine.putTo, Engine.takeFrom, notFree, queue]
    · have absent : tag ∉ engine.queue queue' := by
        rw [queues.mem_iff, marked]
        exact fun equal => same (Option.some.inj equal).symm
      rw [List.erase_of_not_mem absent]
      simp [Engine.putTo, Engine.takeFrom, notFree, same, queue]

end Changes

section Moves

variable {engine : Engine Tag} {tag : Tag} {allowed : Engine Tag → Event Tag → Prop}
  {Trusted : ReqQueueType → Direction → Prop}

theorem poll_main {after : Moment Tag} (move : MainMove allowed engine after) :
    after.engine.poll = engine.poll := by
  cases move with
  | accept _ _ accepted =>
    obtain ⟨_, _, rfl⟩ := accept_eq_some accepted
    rfl
  | prepareGcRead | prepareGc =>
    unfold Engine.prepareGc
    split <;> rfl
  | _ => rfl

theorem free_update {engine' : Engine Tag} {value : Request Tag}
    (pool : engine'.pool = update engine.pool tag value)
    (notFree : (engine.pool tag).reqQueueType ≠ some .free) (other : Tag)
    (free : (engine.pool other).reqQueueType = some .free) :
    (engine'.pool other).reqQueueType = some .free := by
  have differs : other ≠ tag := by
    rintro rfl
    exact notFree free
  rw [pool, update_of_ne differs]
  exact free

theorem free_release (target : Option Tag) {other : Tag}
    (free : (engine.pool other).reqQueueType = some .free) :
    ((Moment.release engine target).engine.pool other).reqQueueType = some .free := by
  apply Moment.release_cases (fun after _ => (after.pool other).reqQueueType = some .free) free
  intro blocked _ marked
  exact free_update rfl (by rw [marked]; decide) other free

/-- A visit of the custom queue gives a request only if none of the requests behind it was
given, in the directions that are trusted. -/
def Orderly (Trusted : ReqQueueType → Direction → Prop) (engine : Engine Tag) : Prop :=
  ∀ tag rest done, engine.poll = .customCmd (tag :: rest) done →
    (engine.pool tag).issuedFlag = false →
    ((engine.pool tag).reqCode ≠ .rxDma →
      (engine.customIoCmd (engine.pool tag).nvmeCmdSlotTag).notCompletedRxCount = 0) →
    Trusted .customCmd (engine.pool tag).walkDirection →
    ∀ front back, engine.queue .customCmd = front ++ tag :: back →
      ∀ other ∈ back, engine.Given other →
        (engine.pool other).walkDirection ≠ (engine.pool tag).walkDirection

/-- Putting a Tx request that waits for Rx requests into the custom queue gives nothing. -/
theorem dmaAside_wait (unmarked : (engine.pool tag).reqQueueType = none)
    (flag : (engine.pool tag).issuedFlag = false) :
    DmaAside engine (engine.putTo .customCmd tag) := by
  have notGiven : ¬(engine.putTo .customCmd tag).Given tag := by
    rintro (given | ⟨_, given⟩)
    · simp [Engine.putTo] at given
    · simp [Engine.putTo, flag] at given
  have others : ∀ other, other ≠ tag →
      ((engine.putTo .customCmd tag).pool other).core = (engine.pool other).core := by
    intro other differs
    rw [Fresh.pool_putTo_of_ne differs]
  have before : ¬engine.Given tag := not_given_of_mark unmarked (by simp) (by simp)
  refine ⟨rfl, rfl, ?_, ?_, ?_⟩
  · intro which _
    by_cases same : which = .customCmd
    · subst same
      refine ⟨[tag], by simp [Engine.putTo], ?_⟩
      intro new member
      rw [List.mem_singleton.1 member]
      exact notGiven
    · exact ⟨[], by simp [Engine.putTo, same], by simp⟩
  · intro other
    by_cases same : other = tag
    · rw [same]
      exact iff_of_false notGiven before
    · exact given_of_core (others other same)
  · intro other given
    apply others
    rintro rfl
    exact before given

omit [DecidableEq Tag] in
theorem back_eq_nil {queue front back : List Tag} (absent : tag ∉ queue)
    (split : queue ++ [tag] = front ++ tag :: back) : back = [] := by
  rcases List.eq_nil_or_concat back with empty | ⟨init, last, rfl⟩
  · exact empty
  · have shorter := congrArg List.dropLast split
    rw [List.concat_eq_append, ← List.cons_append, ← List.append_assoc, List.dropLast_concat,
      List.dropLast_concat] at shorter
    exact absurd (by rw [shorter]; simp) absent

theorem poll_release (engine : Engine Tag) (target : Option Tag) :
    (Moment.release engine target).engine.poll = engine.poll :=
  Moment.release_cases (fun after _ => after.poll = engine.poll) rfl fun _ _ _ => rfl

theorem dmaMove_unlink (engine : Engine Tag) (tag : Tag) (target : Option Tag) :
    DmaMove Trusted engine (Moment.release (engine.unlink tag) target).engine := by
  refine .aside ((DmaAside.unlink engine tag).trans (.release _ target)) ?_
    (.same (poll_release _ target))
  intro _ other free
  apply free_release
  rw [Queues.mark_unlinked]
  exact free

theorem dmaMoves_of_move {before after : Moment Tag}
    (queues : Queues before.engine before.inHand) (tracks : Tracks before.engine before.inHand)
    (balanced : before.engine.ledger.Balanced) (fresh : Fresh before.engine)
    (orderly : ∀ pass, allowed before.engine (.visit pass) → Orderly Trusted before.engine)
    (move : Move allowed before after) :
    ReflTransGen (DmaMove Trusted) before.engine after.engine := by
  have noQueue : ∀ {which : ReqQueueType}, which ≠ .nvmeDma → which ≠ .customCmd →
      ¬IsDmaQueue which := by
    rintro which first second (same | same)
    · exact first same
    · exact second same
  -- moves that change nothing but the poll
  have polls : ∀ {engine engine' : Engine Tag}, engine'.pool = engine.pool →
      engine'.dma = engine.dma → engine'.finished = engine.finished →
      engine'.queue = engine.queue → PollStep engine engine' →
      ReflTransGen (DmaMove Trusted) engine engine' := by
    intro engine engine' pool dma finished queue poll
    refine .single (.aside (.of_pool pool dma finished queue) ?_ poll)
    intro _ tag free
    rw [pool]
    exact free
  -- a request in hand goes into a queue that is not one of the DMA requests
  have puts : ∀ {engine : Engine Tag} {tag : Tag} {which : ReqQueueType},
      Queues engine (some tag) → ¬IsDmaQueue which →
      ReflTransGen (DmaMove Trusted) engine (engine.putTo which tag) := by
    intro engine tag which queues other
    have unmarked := queues.unmarked_of_inHand
    refine .single (.aside (.putTo other unmarked) (fun _ => ?_) (.same rfl))
    exact free_update rfl (by rw [unmarked]; decide)
  cases move with
  | serve served => exact .single (.serve served)
  | main quiet move =>
    refine .single (.aside (dmaAside_main queues move) ?_ (.same (poll_main move)))
    intro busy
    exact absurd quiet busy
  | block => exact puts queues (noQueue (by decide) (by decide))
  | toNand _ _ choice =>
    apply puts queues
    rcases choice with rfl | rfl <;> exact noQueue (by decide) (by decide)
  | @issue engine tag direction ref front dma direct uses ready room =>
    have unmarked := queues.unmarked_of_inHand
    have absent : ∀ which, tag ∉ engine.queue which := by
      intro which member
      rw [queues.mem_iff, unmarked] at member
      cases member
    have gives := gives_issue queues tracks balanced dma direct uses room
    refine .single (.give gives ?_)
    intro which front back isDma _ split other member
    -- the request is the last one of its queue
    rcases gives.queue which isDma with same | ⟨appended, _⟩
    · rw [same] at split
      exact absurd (by rw [split]; simp) (absent which)
    · rw [appended] at split
      rw [back_eq_nil (absent which) split] at member
      cases member
  | @wait engine tag front dma waits =>
    have unmarked := queues.unmarked_of_inHand
    have flag : (engine.pool tag).issuedFlag = false := by
      apply fresh.flag_of_unmarked unmarked (Fresh.spare_ne_inHand queues)
      rw [dma]
      decide
    refine .single (.aside (dmaAside_wait unmarked flag) (fun _ => ?_) (.same rfl))
    exact free_update rfl (by rw [unmarked]; decide)
  | startPoll quiet =>
    exact polls rfl rfl rfl rfl (.start quiet (fun _ => queues.mem_iff.2) rfl)
  | startCustomPoll walk => exact polls rfl rfl rfl rfl (.custom walk rfl)
  | startNand walk => exact polls rfl rfl rfl rfl (.nand walk rfl)
  | endPoll last => exact polls rfl rfl rfl rfl (.finish last rfl)
  | skipNvmeDma walk refused => exact polls rfl rfl rfl rfl (.skipNvmeDma walk refused rfl)
  | skipCustomCmd walk => exact polls rfl rfl rfl rfl (.skipCustomCmd walk rfl)
  | @dropNvmeDma engine tag rest done direction walk direct answer =>
    subst direct
    have walking : engine.poll.walk = some (.nvmeDma, tag :: rest) := by
      rw [walk]
      rfl
    have marked := queues.mem_iff.1 (queues.visited_mem walking)
    have drops : Drops engine ((({ engine with
        poll := .nvmeDma rest (update done (engine.pool tag).walkDirection true)
          }.markFinished tag).takeFrom .nvmeDma tag).putTo .free tag) tag .nvmeDma rest := by
      apply drops_of_walk queues (.inl rfl) walking (.inl marked)
      · rw [walk]
        exact answer
      · rfl
      · rfl
      · rfl
      · rfl
      · rfl
      · rw [walk]
        rfl
    exact .tail (.single (.drop drops)) (dmaMove_unlink _ tag _)
  | @dropCustomCmd engine tag rest done direction pass permitted walk direct noRx issued answer =>
    subst direct
    have walking : engine.poll.walk = some (.customCmd, tag :: rest) := by
      rw [walk]
      rfl
    have marked := queues.mem_iff.1 (queues.visited_mem walking)
    have drops : Drops engine (((({ engine with
        poll := .customCmd rest (update done (engine.pool tag).walkDirection true)
          }.markFinished tag).completeForCustomIoCmd tag).takeFrom .customCmd tag).putTo .free
            tag) tag .customCmd rest := by
      apply drops_of_walk queues (.inr rfl) walking (.inr ⟨marked, issued⟩)
      · rw [walk]
        exact answer
      · rfl
      · rfl
      · rfl
      · rfl
      · rfl
      · rw [walk]
        rfl
    exact .tail (.single (.drop drops)) (dmaMove_unlink _ tag _)
  | @issueWaiting engine tag rest done direction ref pass permitted walk noRx waiting front direct
      uses room =>
      have marked := queues.mem_iff.1 (queues.visited_mem
        (show engine.poll.walk = some (.customCmd, tag :: rest) by rw [walk]; rfl))
      refine .single (.give (gives_issueWaiting queues tracks balanced walk waiting direct uses
        room) ?_)
      intro which front back isDma trusted split other member given
      have split' : engine.queue which = front ++ tag :: back := split
      have custom : which = .customCmd := by
        have queued := queues.mem_iff.1 (show tag ∈ engine.queue which by rw [split']; simp)
        rw [marked] at queued
        exact (Option.some.inj queued).symm
      subst custom
      rw [← walkDirection_of_direction direct] at trusted ⊢
      exact orderly pass permitted tag rest done walk waiting noRx trusted front back split' other
        member given
  | @unlinkWaiting engine tag rest done walk waiting blocked =>
    have visited : ReflTransGen (DmaMove Trusted) engine
        { engine with poll := .customCmd rest done } :=
      polls rfl rfl rfl rfl (.skipCustomCmd walk rfl)
    exact visited.tail (dmaMove_unlink _ tag _)
  | @dropNand engine tag pass permitted quiet queued =>
    have marked := queues.mem_iff.1 queued
    have executed : ReflTransGen (DmaMove Trusted) engine { engine with
        memory := (engine.dropNand tag).memory
        flash := (engine.dropNand tag).flash
        handed := engine.handed.erase tag } := polls rfl rfl rfl rfl (.same rfl)
    have taken := executed.tail (.aside (.takeFrom (noQueue (by decide) (by decide)) marked)
      (fun _ => free_update rfl (by rw [marked]; decide)) (.same rfl))
    have unmarked : (({ engine with
        memory := (engine.dropNand tag).memory
        flash := (engine.dropNand tag).flash
        handed := engine.handed.erase tag }.takeFrom .nand tag).pool tag).reqQueueType = none := by
      simp [Engine.takeFrom]
    have freed : ReflTransGen (DmaMove Trusted) engine (engine.dropNand tag) :=
      taken.tail (.aside (.putTo (noQueue (by decide) (by decide)) unmarked)
        (fun _ => free_update rfl (by rw [unmarked]; decide)) (.same rfl))
    exact freed.tail (dmaMove_unlink _ tag _)
  | @rowAddrDepDone engine tag quiet queued =>
    have marked := queues.mem_iff.1 queued
    have taken : ReflTransGen (DmaMove Trusted) engine
        (engine.takeFrom .blockedByRowAddrDep tag) :=
      .single (.aside (.takeFrom (noQueue (by decide) (by decide)) marked)
        (fun _ => free_update rfl (by rw [marked]; decide)) (.same rfl))
    have unmarked : ((engine.takeFrom .blockedByRowAddrDep tag).pool tag).reqQueueType = none := by
      simp [Engine.takeFrom]
    exact taken.tail (.aside (.putTo (noQueue (by decide) (by decide)) unmarked)
      (fun _ => free_update rfl (by rw [unmarked]; decide)) (.same rfl))

end Moves

end Engine
end RwRbuf.Firmware.Requests
