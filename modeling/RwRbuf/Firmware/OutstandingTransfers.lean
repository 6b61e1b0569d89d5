import RwRbuf.Firmware.CustomCmdWalk
import RwRbuf.Firmware.DeviceImage
import RwRbuf.Firmware.DmaProgress

/-! # The transfers of the outstanding requests

The DMA engine and the flash do not serve the requests in the order in which they were handed
over.  But a request is served only if it is the first one on its buffer entry, so what the
device will hold when all of them are done stays the same.  The blocks of a write request come
one after the other; what came already is found again when the request is replayed.
-/

namespace RwRbuf.Firmware.Requests

open PendingOperations Function

variable {Tag : Type}

/-- The DMA commands for a slice that uses `entry`. -/
def Slice.dmaCommands (slice : Slice) (sliceNo : Nat) (entry : BufferRef) : List DmaCommand :=
  (List.range slice.numOfNvmeBlock).map fun index =>
    { cmdSlotTag := slice.nvmeCmdSlotTag
      cmd4KBOffset := slice.startIndex + index
      target := entry
      block := slice.nvmeBlockOffset + index
      sliceNo := sliceNo }

/-- The block that a command brings from the host. -/
def DmaCommand.data (command : DmaCommand) : HostBlock :=
  ⟨command.sliceNo, command.cmd4KBOffset⟩

namespace Request

variable {request : Request Tag} {ref : BufferRef}

theorem hostData_of_mem {command : DmaCommand} (member : command ∈ request.dmaCommands ref) :
    request.hostData command.block = some command.data := by
  obtain ⟨index, inside, rfl⟩ := List.mem_map.1 member
  have covers : request.Covers (request.nvmeBlockOffset + index) :=
    ⟨Nat.le_add_right _ _, Nat.add_lt_add_left (List.mem_range.1 inside) _⟩
  simp [hostData, covers, DmaCommand.data]

theorem exists_command {block : Nat} (covers : request.Covers block) (ref : BufferRef) :
    ∃ command ∈ request.dmaCommands ref, command.block = block := by
  obtain ⟨low, high⟩ := covers
  refine ⟨_, List.mem_map.2 ⟨block - request.nvmeBlockOffset, List.mem_range.2 ?_, rfl⟩, ?_⟩
  · omega
  · exact Nat.add_sub_of_le low

theorem Carries.dmaCommands {slice : Slice} (carries : request.Carries slice) (entry : BufferRef) :
    request.dmaCommands entry = slice.dmaCommands request.sliceNo entry := by
  unfold Request.dmaCommands Slice.dmaCommands
  rw [carries.count, carries.slot, carries.startIndex, carries.offset]

end Request

namespace Engine

def FirstOnFlash (engine : Engine Tag) (tag : Tag) : Prop :=
  ∀ front back, engine.handed = front ++ tag :: back → ∀ other ∈ front, ∀ lsa,
    (engine.transfer tag).Uses (.slice lsa) → ¬(engine.transfer other).Uses (.slice lsa)

/-- The flash carries out the requests for one logical slice in the order in which they were
handed over. -/
def FlashInOrder (engine : Engine Tag) : Event Tag → Prop
  | .nandDone tag _ => engine.FirstOnFlash tag
  | _ => True

/-! ## The commands of a slice -/

/-- The command is one of its slice, and all commands of this slice were given with it. -/
def Complete (engine : Engine Tag) (direction : Direction) (command : DmaCommand) : Prop :=
  ∃ slice, engine.slices[command.sliceNo]? = some slice ∧
    command ∈ slice.dmaCommands command.sliceNo command.target ∧
    slice.dmaCommands command.sliceNo command.target ⊆ (engine.dma direction).fifo

def Whole (engine : Engine Tag) : Prop :=
  ∀ direction, ∀ command ∈ (engine.dma direction).fifo, engine.Complete direction command

def received (engine : Engine Tag) : List DmaCommand :=
  (engine.dma .rx).fifo.take (engine.dma .rx).served

/-- The blocks that came are in the entries until the request of the slice is removed. -/
def Landed (engine : Engine Tag) : Prop :=
  ∀ command ∈ engine.received, command.sliceNo ∉ engine.finished →
    engine.memory command.target command.block = some command.data

/-- What is known when the DMA requests are issued in the order of their queues. -/
structure Serving (engine : Engine Tag) (inHand : Option Tag) : Prop where
  dma : DmaSound (fun _ _ => True) engine inHand
  flash : FlashQueued engine
  whole : Whole engine
  landed : Landed engine

section Requests

variable {engine engine' : Engine Tag} {inHand : Option Tag} {tag : Tag} {ref : BufferRef}

namespace Serving

theorem entry_of_given (serving : Serving engine inHand) (given : engine.Given tag)
    {direction : Direction} {command : DmaCommand} (member : command ∈ (engine.dma direction).fifo)
    (number : command.sliceNo = (engine.pool tag).sliceNo) :
    (engine.pool tag).dataBuf = some command.target := by
  have tracks := serving.dma.sound.tracks
  have live := given.live tracks
  rcases serving.dma.records.known _ command member with finished | ⟨owner, owns, same, target⟩
  · rw [number] at finished
    exact absurd finished (Ledger.mem_outstanding.1 (tracks.live tag live).1).2
  · rw [← tracks.distinct owner tag (owns.live tracks) live (same.trans number)]
    exact target

theorem mem_fifo_iff (serving : Serving engine inHand) (given : engine.Given tag)
    (uses : (engine.pool tag).dataBuf = some ref) (command : DmaCommand) :
    command ∈ (engine.pool tag).dmaCommands ref ↔
      command ∈ (engine.dma (engine.pool tag).walkDirection).fifo ∧
        command.sliceNo = (engine.pool tag).sliceNo := by
  have tracks := serving.dma.sound.tracks
  obtain ⟨_, slice, found, carries, _⟩ := tracks.live tag (given.live tracks)
  have same : ∀ other ∈ (engine.dma (engine.pool tag).walkDirection).fifo,
      other.sliceNo = (engine.pool tag).sliceNo → other ∈ (engine.pool tag).dmaCommands ref ∧
        (engine.pool tag).dmaCommands ref ⊆
          (engine.dma (engine.pool tag).walkDirection).fifo := by
    intro other member number
    obtain ⟨slice', found', whole⟩ := serving.whole _ other member
    rw [number, found] at found'
    cases found'
    have target : other.target = ref :=
      Option.some.inj ((serving.entry_of_given given member number).symm.trans uses)
    rw [number, target, ← carries.dmaCommands] at whole
    exact whole
  constructor
  · intro member
    obtain ⟨_, last, isLast, number, _⟩ := serving.dma.records.last tag given
    have all := (same last (List.mem_of_getElem? isLast) number).2 member
    obtain ⟨_, _, rfl⟩ := List.mem_map.1 member
    exact ⟨all, rfl⟩
  · rintro ⟨member, number⟩
    exact (same command member number).1

theorem owner_of_next (serving : Serving engine inHand) {direction : Direction}
    {command : DmaCommand}
    (next : (engine.dma direction).fifo[(engine.dma direction).served]? = some command) :
    ∃ owner, engine.Given owner ∧ (engine.pool owner).walkDirection = direction ∧
      (engine.pool owner).sliceNo = command.sliceNo ∧
      (engine.pool owner).dataBuf = some command.target ∧
      command ∈ (engine.pool owner).dmaCommands command.target := by
  have records := serving.dma.records
  have member := List.mem_of_getElem? next
  rcases records.known direction command member with finished | ⟨owner, given, number, uses⟩
  · have served := records.served direction (fun _ _ => trivial) _ command next finished
    exact absurd served (Nat.lt_irrefl _)
  · obtain ⟨direct, _⟩ := records.own owner given direction _ command next number.symm
    refine ⟨owner, given, direct.symm, number, uses, ?_⟩
    exact (serving.mem_fifo_iff given uses command).2 ⟨direct ▸ member, number.symm⟩

/-- A request that the DMA engine has is the first one on its entry. -/
theorem first_of_given (serving : Serving engine none) (given : engine.Given tag) :
    tag ∈ engine.handed ∧ (engine.pool tag).prevBlockingReq = none := by
  have sound := serving.dma.sound
  have listed := (given.live sound.tracks).mem_handed sound.chains
  exact ⟨listed, sound.chains.prev_of_served sound.queues listed (served_of_given given)⟩

end Serving

theorem rxDma_of_walkDirection {request : Request Tag} (rx : request.walkDirection = .rx) :
    request.reqCode = .rxDma := by
  unfold Request.walkDirection at rx
  split at rx
  next isRx => exact isRx
  · cases rx

theorem reqCode_of_given (serving : Serving engine inHand) (given : engine.Given tag)
    (tx : (engine.pool tag).walkDirection = .tx) : (engine.pool tag).reqCode = .txDma := by
  have tracks := serving.dma.sound.tracks
  obtain ⟨_, slice, _, _, code⟩ := tracks.live tag (given.live tracks)
  cases isCode : slice.code with
  | read => rw [code, isCode]; rfl
  | write =>
    have rx : (engine.pool tag).walkDirection = .rx := if_pos (by rw [code, isCode]; rfl)
    rw [rx] at tx
    cases tx

variable [DecidableEq Tag]

/-- When the DMA engine has passed the record of a write request, its data are in the entry. -/
theorem apply_of_passed (serving : Serving engine none) (given : engine.Given tag)
    (rx : (engine.pool tag).reqCode = .rxDma) (uses : (engine.pool tag).dataBuf = some ref)
    (passed : (engine.pool tag).dmaTail ≤ (engine.dma (engine.pool tag).walkDirection).served)
    (answers : Tag → Nat → Option HostBlock) :
    (engine.transfer tag).apply (engine.image answers) = engine.image answers := by
  have tracks := serving.dma.sound.tracks
  have live := given.live tracks
  have direct : (engine.pool tag).walkDirection = .rx := if_pos rx
  unfold transfer
  rw [Request.transfer_rx live.1 rx uses]
  refine update_eq_self_iff.2 (funext fun block => ?_)
  show ((engine.pool tag).hostData block).or (engine.memory ref block) = engine.memory ref block
  by_cases covers : (engine.pool tag).Covers block
  · obtain ⟨command, member, rfl⟩ := Request.exists_command covers ref
    obtain ⟨listed, number⟩ := (serving.mem_fifo_iff given uses command).1 member
    obtain ⟨index, found⟩ := List.mem_iff_getElem?.1 listed
    obtain ⟨_, inside⟩ := serving.dma.records.own tag given _ index _ found number
    have early := Nat.lt_of_lt_of_le inside passed
    rw [direct] at found early
    have came : command ∈ engine.received := List.mem_of_getElem?
      (show ((engine.dma .rx).fifo.take _)[index]? = _ by rwa [List.getElem?_take_of_lt early])
    have landed := serving.landed command came (by
      rw [number]
      exact (Ledger.mem_outstanding.1 (tracks.live tag live).1).2)
    rw [Request.hostData_of_mem member, ← landed, target_of_mem member]
    simp
  · simp [Request.hostData, covers]

end Requests

section Moves

variable [DecidableEq Tag] {allowed : Engine Tag → Event Tag → Prop} {engine engine' : Engine Tag}
  {tag : Tag} {ref : BufferRef}

theorem release_fields (engine : Engine Tag) (target : Option Tag) :
    (Moment.release engine target).engine.memory = engine.memory ∧
      (Moment.release engine target).engine.flash = engine.flash ∧
      (Moment.release engine target).engine.sent = engine.sent ∧
      (Moment.release engine target).engine.dma = engine.dma ∧
      (Moment.release engine target).engine.finished = engine.finished :=
  Moment.release_cases (fun after _ => after.memory = engine.memory ∧
    after.flash = engine.flash ∧ after.sent = engine.sent ∧ after.dma = engine.dma ∧
      after.finished = engine.finished)
    ⟨rfl, rfl, rfl, rfl, rfl⟩ fun _ _ _ => ⟨rfl, rfl, rfl, rfl, rfl⟩

variable {before after : Moment Tag}

/-- A move gives no commands to the DMA engine, or those of one request. -/
theorem gives_or_same (sound : Sound before.engine before.inHand)
    (move : Move allowed before after) :
    (∀ direction, (after.engine.dma direction).fifo = (before.engine.dma direction).fifo) ∨
      ∃ tag direction ref, before.engine.Live before.inHand tag ∧
        Gives before.engine after.engine tag direction
          ((before.engine.pool tag).dmaCommands ref) := by
  have released := fun engine target => (@release_fields Tag _ engine target).2.2.2.1
  cases move with
  | serve served => exact .inl fun direction => (Records.dma_serve served direction).1
  | main _ move => exact .inl fun direction => by rw [(dmaAside_main sound.queues move).dma]
  | @issue engine tag direction ref front dma direct uses ready room =>
    exact .inr ⟨tag, direction, ref, ⟨dma, .inr (.inr (.inr rfl))⟩,
      gives_issue sound.queues sound.tracks sound.balanced dma direct uses room⟩
  | @issueWaiting engine tag rest done direction ref pass permitted walk noRx waiting front direct
      uses room =>
      have marked := sound.queues.mem_iff.1 (sound.queues.visited_mem
        (show engine.poll.walk = some (.customCmd, tag :: rest) by rw [walk]; rfl))
      exact .inr ⟨tag, direction, ref,
        ⟨(sound.tracks.customQueue tag marked).1, .inr (.inr (.inl marked))⟩,
        gives_issueWaiting sound.queues sound.tracks sound.balanced walk waiting direct uses room⟩
  | dropNvmeDma | dropCustomCmd | unlinkWaiting | dropNand =>
    exact .inl fun direction => by rw [released]; rfl
  | _ => exact .inl fun _ => rfl

/-- The slices of the commands taken before stay in their places. -/
theorem slices_of_move (move : Move allowed before after)
    {sliceNo : Nat} {slice : Slice} (found : before.engine.slices[sliceNo]? = some slice) :
    after.engine.slices[sliceNo]? = some slice := by
  rcases aside_or_main move with aside | ⟨engine, rfl, _, move⟩
  · rw [aside.slices]
    exact found
  · exact slices_of_main move found

theorem Whole.move (whole : Whole before.engine)
    (sound : Sound before.engine before.inHand) (move : Move allowed before after) :
    Whole after.engine := by
  have old : ∀ direction command, command ∈ (before.engine.dma direction).fifo →
      (before.engine.dma direction).fifo ⊆ (after.engine.dma direction).fifo →
      after.engine.Complete direction command := by
    intro direction command member more
    obtain ⟨slice, found, own, all⟩ := whole direction command member
    exact ⟨slice, slices_of_move move found, own, List.Subset.trans all more⟩
  intro direction command member
  rcases gives_or_same sound move with same | ⟨tag, given, ref, live, gives⟩
  · rw [same] at member
    exact old direction command member (by rw [same]; exact List.Subset.refl _)
  · obtain ⟨_, appended, unchanged⟩ := Records.fifo_give gives direction
    by_cases isDirection : direction = given
    · rw [appended isDirection] at member
      rcases List.mem_append.1 member with before | new
      · exact old direction command before
          (by rw [appended isDirection]; exact List.subset_append_left _ _)
      · obtain ⟨_, slice, found, carries, _⟩ := sound.tracks.live tag live
        unfold Complete
        rw [appended isDirection, gives.ofSlice command new, target_of_mem new]
        refine ⟨slice, slices_of_move move found, ?_⟩
        rw [← carries.dmaCommands]
        exact ⟨new, List.subset_append_right _ _⟩
    · rw [unchanged isDirection] at member
      exact old direction command member (by rw [unchanged isDirection]; exact List.Subset.refl _)

theorem received_issueTo (wellFormed : (engine.dma .rx).WellFormed) (direction : Direction)
    (ref : BufferRef) : (engine.issueTo direction ref tag).received = engine.received := by
  unfold Engine.received Engine.issueTo
  cases direction with
  | rx =>
    simp only [update_self, AutoDma.issue]
    rw [List.take_append_of_le_length wellFormed.1]
  | tx => rfl

omit [DecidableEq Tag] in
theorem first_unique (sound : Sound engine none) {other : Tag}
    (first : tag ∈ engine.handed ∧ (engine.pool tag).prevBlockingReq = none)
    (first' : other ∈ engine.handed ∧ (engine.pool other).prevBlockingReq = none)
    (uses : (engine.pool tag).dataBuf = some ref) (uses' : (engine.pool other).dataBuf = some ref) :
    other = tag := by
  have chain := sound.chains.entryChain sound.queues ref
  have head : ∀ item, item ∈ engine.handed ∧ (engine.pool item).prevBlockingReq = none →
      (engine.pool item).dataBuf = some ref → (engine.chainOf ref).head? = some item := by
    rintro item ⟨listed, first⟩ uses
    exact (chain.head item ((chain.mem_iff item).2
      ⟨(sound.chains.outstanding item).1 listed, uses⟩)).1 first
  exact Option.some.inj ((head other first' uses').symm.trans (head tag first uses))

omit [DecidableEq Tag] in
theorem first_of_nand (sound : Sound engine none) (queued : tag ∈ engine.queue .nand) :
    tag ∈ engine.handed ∧ (engine.pool tag).prevBlockingReq = none := by
  have marked := sound.queues.mem_iff.1 queued
  have listed := (sound.chains.outstanding tag).2 (.inl ⟨.nand, marked, by decide, by decide⟩)
  exact ⟨listed, sound.chains.prev_of_served sound.queues listed ⟨.nand, marked, .inl rfl⟩⟩

theorem data_main {after : Moment Tag} (move : MainMove allowed engine after) :
    after.engine.memory = engine.memory ∧ after.engine.flash = engine.flash ∧
      after.engine.sent = engine.sent := by
  cases move with
  | accept _ _ accepted =>
    obtain ⟨_, _, rfl⟩ := accept_eq_some accepted
    exact ⟨rfl, rfl, rfl⟩
  | prepareGcRead | prepareGc =>
    unfold Engine.prepareGc
    split <;> exact ⟨rfl, rfl, rfl⟩
  | _ => exact ⟨rfl, rfl, rfl⟩

theorem image_dropNand (nand : (engine.pool tag).reqType = .nand)
    (answers : Tag → Nat → Option HostBlock) :
    (engine.dropNand tag).image answers = (engine.transfer tag).apply (engine.image answers) := by
  funext place
  unfold transfer Request.transfer
  simp only [nand]
  cases code : (engine.pool tag).reqCode <;> cases entry : nandEntry (engine.pool tag) <;>
    cases place <;>
      simp [dropNand, Engine.putTo, Engine.takeFrom, code, entry, image, Copy.apply,
        update_apply] <;> rintro rfl <;> rfl

namespace Landed

omit [DecidableEq Tag] in
theorem of_kept (landed : Landed engine)
    (memory : ∀ command ∈ engine.received, command.sliceNo ∉ engine.finished →
      engine'.memory command.target = engine.memory command.target)
    (received : engine'.received = engine.received)
    (finished : engine.finished ⊆ engine'.finished) : Landed engine' := by
  intro command came unfinished
  rw [received] at came
  have before : command.sliceNo ∉ engine.finished := fun done => unfinished (finished done)
  rw [memory command came before]
  exact landed command came before

omit [DecidableEq Tag] in
theorem serve (serving : Serving engine none) (served : engine.serve .rx = some engine') :
    Landed engine' := by
  obtain ⟨new, next, rfl⟩ := Option.map_eq_some_iff.1 served
  obtain ⟨owner, given, direct, _, uses, own⟩ := serving.owner_of_next next
  intro command came unfinished
  obtain ⟨inside, atIndex⟩ := List.getElem?_eq_some_iff.1 next
  replace came : command ∈ engine.received ++ [new] := by
    unfold Engine.received at came ⊢
    simp only [update_self] at came
    rwa [List.take_succ_eq_append_getElem inside, atIndex] at came
  simp only [if_true]
  by_cases place : command.target = new.target ∧ command.block = new.block
  · -- both are commands of the request that is first on the entry
    obtain ⟨entry, block⟩ := place
    have listed : command ∈ (engine.dma .rx).fifo := by
      rcases List.mem_append.1 came with old | isNew
      · exact List.mem_of_mem_take old
      · exact List.mem_singleton.1 isNew ▸ List.mem_of_getElem? next
    rcases serving.dma.records.known .rx command listed with
      finished | ⟨owner', given', number, uses'⟩
    · exact absurd finished unfinished
    · obtain rfl := first_unique serving.dma.sound (serving.first_of_given given)
        (serving.first_of_given given') uses (entry ▸ uses')
      have own' := (serving.mem_fifo_iff given uses command).2 ⟨direct ▸ listed, number.symm⟩
      have same := Request.hostData_of_mem own'
      rw [block, Request.hostData_of_mem own] at same
      rw [entry, block, update_self, update_self]
      exact same
  · have old : command ∈ engine.received := (List.mem_append.1 came).resolve_right fun isNew =>
      place (List.mem_singleton.1 isNew ▸ ⟨rfl, rfl⟩)
    rw [← serving.landed command old unfinished]
    by_cases entry : command.target = new.target
    · rw [entry, update_self, update_of_ne fun block => place ⟨entry, block⟩]
    · rw [update_of_ne entry]

theorem move (serving : Serving before.engine before.inHand)
    (move : Move allowed before after) : Landed after.engine := by
  have landed := serving.landed
  have sound := serving.dma.sound
  have issued := fun {engine : Engine Tag} {tag} direction ref wellFormed =>
    @received_issueTo Tag _ engine tag wellFormed direction ref
  have released : ∀ {engine ended : Engine Tag} (target : Option Tag), Landed engine →
      (∀ command ∈ engine.received, command.sliceNo ∉ engine.finished →
        ended.memory command.target = engine.memory command.target) →
      ended.dma = engine.dma → engine.finished ⊆ ended.finished →
      Landed (Moment.release ended target).engine := by
    intro engine ended target landed memory dma finished
    obtain ⟨memory', _, _, dma', finished'⟩ := release_fields ended target
    refine landed.of_kept (memory' ▸ memory) ?_ (finished' ▸ finished)
    unfold Engine.received
    rw [dma', dma]
  cases move with
  | @serve engine engine' direction served =>
    cases direction with
    | rx => exact serve serving served
    | tx =>
      obtain ⟨command, _, rfl⟩ := Option.map_eq_some_iff.1 served
      exact landed
  | main quiet move =>
    have aside := dmaAside_main sound.queues move
    refine landed.of_kept ?_ ?_ (by rw [aside.finished]; exact List.Subset.refl _)
    · intro command _ _
      rw [(data_main move).1]
    · unfold Engine.received
      rw [aside.dma]
  | @issue _ _ direction ref | @issueWaiting _ _ _ _ direction ref =>
    exact landed.of_kept (fun _ _ _ => rfl)
      (issued direction ref (serving.dma.records.wellFormed .rx)) (List.Subset.refl _)
  | dropNvmeDma | dropCustomCmd =>
    exact released _ landed (fun _ _ _ => rfl) rfl (List.subset_cons_self _ _)
  | unlinkWaiting => exact released _ landed (fun _ _ _ => rfl) rfl (List.Subset.refl _)
  | @dropNand engine tag pass permitted quiet queued =>
    refine released _ landed (fun command came unfinished => ?_) rfl (List.Subset.refl _)
    rcases serving.dma.records.known .rx command (List.mem_of_mem_take came) with
      finished | ⟨owner, given, _, uses⟩
    · exact absurd finished unfinished
    · have nand := serving.flash tag .nand (.inl rfl) (sound.queues.mem_iff.1 queued)
      apply (congrFun (image_dropNand nand fun _ _ => none) (.entry command.target)).trans
      apply Copy.apply_of_ne
      intro target
      rcases Request.uses_transfer (.inl target) with ⟨⟨⟩⟩ | ⟨_, ⟨⟩, uses'⟩ | ⟨_, ⟨⟩, _⟩
      have same := first_unique sound (serving.first_of_given given)
        (first_of_nand sound queued) uses uses'
      exact not_given_of_mark (sound.queues.mem_iff.1 queued) (by decide) (by decide)
        (same ▸ given)
  | _ => exact landed

end Landed

theorem Serving.move (serving : Serving before.engine before.inHand)
    (orderly : ∀ engine event, allowed engine event → engine.IssuesInOrder event)
    (move : Move allowed before after) : Serving after.engine after.inHand where
  dma := serving.dma.move (fun engine _ pass _ _ permitted =>
    orderly engine (.visit pass) permitted) move
  flash := serving.flash.move serving.dma.sound move
  whole := serving.whole.move serving.dma.sound move
  landed := .move serving move

/-! ## What the moves leave alone -/

def Settles (engine engine' : Engine Tag) : Prop :=
  ∀ answers, ∃ answers', engine'.settled answers' = engine.settled answers

/-- What the requests that are left will do with the data that stay. -/
theorem settled_eq {handed : List Tag} (memory : engine'.memory = engine.memory)
    (flash : engine'.flash = engine.flash) (answers : Tag → Nat → Option HostBlock)
    (fixed : ∀ tag ∈ handed, (engine'.pool tag).fixed = (engine.pool tag).fixed) :
    settle engine'.transfer handed (engine'.image answers) =
      settle engine.transfer handed (engine.image answers) := by
  have image : engine'.image answers = engine.image answers := by
    unfold Engine.image
    rw [memory, flash]
  have same : ∀ tag ∈ handed, engine'.transfer tag = engine.transfer tag := fun tag listed =>
    Request.transfer_of_fixed (fixed tag listed)
  rw [image, settle_congr same]

/-- Neither the data nor the requests that were handed over change. -/
theorem settles_of_same (handed : engine'.handed = engine.handed)
    (memory : engine'.memory = engine.memory) (flash : engine'.flash = engine.flash)
    (fixed : ∀ tag ∈ engine.handed, (engine'.pool tag).fixed = (engine.pool tag).fixed) :
    Settles engine engine' := by
  intro answers
  unfold settled
  rw [handed]
  exact ⟨answers, settled_eq memory flash answers fixed⟩

omit [DecidableEq Tag] in
/-- What the first request on an entry uses is used by no request before it, but for the
slices on the flash. -/
theorem apart_before (chains : Chains engine none)
    (first : (engine.pool tag).prevBlockingReq = none) {front back : List Tag}
    (split : engine.handed = front ++ tag :: back) {other : Tag} (member : other ∈ front)
    {place : Place Tag} (uses : (engine.transfer tag).Uses place)
    (shared : (engine.transfer other).Uses place) :
    ∃ lsa, place = .slice lsa ∧ (engine.pool tag).reqType = .nand := by
  rcases Request.uses_transfer uses with rfl | ⟨ref, rfl, own⟩ | slice
  · have nodup : engine.handed.Nodup := chains.chained.nodup
    rw [split] at nodup
    rcases Request.uses_transfer shared with same | ⟨_, ⟨⟩, _⟩ | ⟨_, ⟨⟩, _⟩
    cases same
    exact absurd rfl ((List.nodup_append.1 nodup).2.2 tag member tag List.mem_cons_self)
  · rcases Request.uses_transfer shared with ⟨⟨⟩⟩ | ⟨_, same, used⟩ | ⟨_, ⟨⟩, _⟩
    cases same
    exact absurd used (chains.chained.key_ne_of_earlier split own first member)
  · exact slice

theorem settles_of_removal (chains : Chains engine none)
    (first : tag ∈ engine.handed ∧ (engine.pool tag).prevBlockingReq = none)
    (handed : engine'.handed = engine.handed.erase tag)
    (image : ∀ answers, ∃ answers', engine'.image answers' =
      (engine.transfer tag).apply (engine.image answers))
    (fixed : ∀ other ∈ engine.handed, (engine'.pool other).fixed = (engine.pool other).fixed)
    (inOrder : (engine.pool tag).reqType = .nand → engine.FirstOnFlash tag) :
    Settles engine engine' := by
  obtain ⟨front, back, split, fresh⟩ := List.eq_append_cons_of_mem first.1
  have rest : engine'.handed = front ++ back := by
    rw [handed, split, List.erase_append_right _ fresh, List.erase_cons_head]
  have same : ∀ other ∈ front ++ back, engine'.transfer other = engine.transfer other := by
    intro other member
    apply Request.transfer_of_fixed (fixed other _)
    rw [split]
    exact (List.sublist_cons_self tag back).append_left front |>.subset member
  intro answers
  obtain ⟨answers', executed⟩ := image answers
  refine ⟨answers', ?_⟩
  unfold settled
  rw [rest, settle_congr same, executed, split]
  apply settle_execute
  intro other member place shared uses
  obtain ⟨lsa, rfl, nand⟩ := apart_before chains first.2 split member uses shared
  exact inOrder nand front back split other member lsa uses shared

theorem settles_serve (serving : Serving engine none) (served : engine.serve .rx = some engine') :
    Settles engine engine' := by
  obtain ⟨command, next, rfl⟩ := Option.map_eq_some_iff.1 served
  obtain ⟨owner, given, rx, _, uses, own⟩ := serving.owner_of_next next
  have sound := serving.dma.sound
  have first := serving.first_of_given given
  have dma := (given.live sound.tracks).1
  have transfer := @Request.transfer_rx _ _ owner _ dma (rxDma_of_walkDirection rx) uses
  obtain ⟨front, back, split, _⟩ := List.eq_append_cons_of_mem first.1
  set block : Transfer Tag := ⟨.entry command.target, .entry command.target,
    fun old => update old command.block (some command.data)⟩ with isBlock
  intro answers
  refine ⟨answers, Eq.trans (b := settle engine.transfer engine.handed
    (block.apply (engine.image answers))) (congrArg (settle engine.transfer engine.handed)
      (funext fun place => ?_)) ?_⟩
  · cases place <;>
      simp [isBlock, Engine.image, Copy.apply, update_apply, DmaCommand.data]
  unfold settled
  rw [split]
  apply settle_absorb
  · intro other member place shared uses'
    have used : (engine.transfer owner).Uses place := by
      unfold Engine.transfer
      rw [transfer]
      exact uses'
    obtain ⟨_, _, nand⟩ := apart_before sound.chains first.2 split member used shared
    rw [dma] at nand
    cases nand
  · intro state
    unfold Engine.transfer
    rw [transfer]
    simp only [Copy.apply, isBlock, update_self, update_idem]
    congr 1
    funext other
    by_cases same : other = command.block
    · rw [same, Request.hostData_of_mem own]
      rfl
    · rw [update_of_ne same]

/-- The first request on an entry finds what the entry holds now. -/
theorem answer_of_first (chains : Chains engine none)
    (first : tag ∈ engine.handed ∧ (engine.pool tag).prevBlockingReq = none)
    (transfer : engine.transfer tag = ⟨.answer tag, .entry ref, id⟩)
    (uses : (engine.pool tag).dataBuf = some ref) (answers : Tag → Nat → Option HostBlock) :
    engine.settled answers (.answer tag) = engine.memory ref := by
  obtain ⟨front, back, split, fresh⟩ := List.eq_append_cons_of_mem first.1
  have nodup : engine.handed.Nodup := chains.chained.nodup
  unfold settled
  rw [split, settle_split, settle_of_untouched, transfer]
  · rw [Copy.apply_self, id, settle_of_untouched]
    · rfl
    · intro other member same
      rcases Request.uses_transfer (.inl same) with ⟨⟨⟩⟩ | ⟨_, used, own⟩ | ⟨_, ⟨⟩, _⟩
      cases used
      exact chains.chained.key_ne_of_earlier split uses first.2 member own
  · intro other member same
    rw [split] at nodup
    rcases Request.uses_transfer (.inl same) with used | ⟨_, ⟨⟩, _⟩ | ⟨_, ⟨⟩, _⟩
    cases used
    exact (List.nodup_cons.1 (List.nodup_append.1 nodup).2.1).1 member

/-- What is sent to the host: nothing, or a block for a Tx request, as this request finds
it. -/
def Sends (engine engine' : Engine Tag) : Prop :=
  engine'.sent = engine.sent ∨ ∃ tag ∈ engine.handed, ∃ block slice,
    (engine.pool tag).reqCode = .txDma ∧
    engine.slices[(engine.pool tag).sliceNo]? = some slice ∧
    (engine.pool tag).logicalSliceAddr = slice.logicalSliceAddr ∧
    ∀ answers, engine'.sent = engine.sent ++
      [⟨(engine.pool tag).sliceNo, block, engine.settled answers (.answer tag) block⟩]

theorem sends_serve (serving : Serving engine none) (served : engine.serve .tx = some engine') :
    Sends engine engine' := by
  obtain ⟨command, next, rfl⟩ := Option.map_eq_some_iff.1 served
  obtain ⟨owner, given, direct, number, uses, _⟩ := serving.owner_of_next next
  have sound := serving.dma.sound
  have live := given.live sound.tracks
  obtain ⟨_, slice, found, carries, _⟩ := sound.tracks.live owner live
  have tx := reqCode_of_given serving given direct
  have first := serving.first_of_given given
  refine .inr ⟨owner, first.1, command.block, slice, tx, found, carries.lsa, fun answers => ?_⟩
  rw [answer_of_first sound.chains first (Request.transfer_tx live.1 tx uses) uses, number]
  rfl

/-- The end of a request whose data were moved: it is removed and its successor is released. -/
theorem settles_of_drop {ended : Engine Tag} {which : ReqQueueType} {target : Option Tag}
    (chains : Chains engine none)
    (first : tag ∈ engine.handed ∧ (engine.pool tag).prevBlockingReq = none)
    (pool : ended.pool = engine.pool) (handed : ended.handed = engine.handed.erase tag)
    (image : ∀ answers, ∃ answers', ended.image answers' =
      (engine.transfer tag).apply (engine.image answers))
    (inOrder : (engine.pool tag).reqType = .nand → engine.FirstOnFlash tag) :
    Settles engine (Moment.release (((ended.takeFrom which tag).putTo .free tag).unlink tag)
      target).engine := by
  obtain ⟨memory, flash, _⟩ :=
    release_fields (((ended.takeFrom which tag).putTo .free tag).unlink tag) target
  apply settles_of_removal chains first _ _ _ inOrder
  · rw [(handed_release _ target).1]
    exact handed
  · intro answers
    obtain ⟨answers', executed⟩ := image answers
    refine ⟨answers', Eq.trans ?_ executed⟩
    unfold Engine.image
    rw [memory, flash]
    rfl
  · intro other _
    rw [fixed_release, fixed_dropped, pool]

theorem settles_of_given {ended : Engine Tag} {which : ReqQueueType} {target : Option Tag}
    {rest : List Tag} (serving : Serving engine none) (given : engine.Given tag)
    (walk : engine.poll.walk = some (which, tag :: rest))
    (answer : engine.poll.done (engine.pool tag).walkDirection = true ∨
      (engine.dma (engine.pool tag).walkDirection).partialDone (engine.pool tag).dmaTail = true)
    (pool : ended.pool = engine.pool) (handed : ended.handed = engine.handed.erase tag)
    (memory : ended.memory = engine.memory) (flash : ended.flash = engine.flash) :
    Settles engine (Moment.release (((ended.takeFrom which tag).putTo .free tag).unlink tag)
      target).engine := by
  have sound := serving.dma.sound
  have dma := (given.live sound.tracks).1
  have passed := serving.dma.records.passed_of_answer walk given trivial answer
  have image : ∀ answers, ended.image answers = engine.image answers := by
    intro answers
    unfold Engine.image
    rw [memory, flash]
  apply settles_of_drop sound.chains (serving.first_of_given given) pool handed
  · intro answers
    obtain ⟨_, last, isLast, number, _⟩ := serving.dma.records.last tag given
    have uses := serving.entry_of_given given (List.mem_of_getElem? isLast) number
    cases direct : (engine.pool tag).walkDirection with
    | rx =>
      exact ⟨answers, (image answers).trans (apply_of_passed serving given
        (rxDma_of_walkDirection direct) uses passed answers).symm⟩
    | tx =>
      refine ⟨update answers tag (engine.memory last.target), funext fun place => ?_⟩
      unfold Engine.transfer
      rw [Request.transfer_tx dma (reqCode_of_given serving given direct) uses]
      cases place <;> simp [Engine.image, Copy.apply, update_apply, memory, flash]
  · intro nand
    rw [dma] at nand
    cases nand

/-- A move that does not belong to the main loop changes nothing of what the device will
hold. -/
theorem settles_or_main (serving : Serving before.engine before.inHand)
    (inOrder : ∀ engine event, allowed engine event → engine.FlashInOrder event)
    (move : Move allowed before after) :
    (Settles before.engine after.engine ∧ Sends before.engine after.engine) ∨
      ∃ engine, before = ⟨engine, none⟩ ∧ engine.poll = .idle ∧
        MainMove allowed engine after := by
  have sound := serving.dma.sound
  have fixed := (keeps_of_move sound.chains sound.queues sound.tracks move).fixed
  cases move with
  | main quiet move => exact .inr ⟨_, rfl, quiet, move⟩
  | @serve engine engine' direction served =>
    left
    cases direction with
    | rx =>
      refine ⟨settles_serve serving served, .inl ?_⟩
      obtain ⟨_, _, rfl⟩ := Option.map_eq_some_iff.1 served
      rfl
    | tx =>
      refine ⟨?_, sends_serve serving served⟩
      obtain ⟨_, _, rfl⟩ := Option.map_eq_some_iff.1 served
      exact settles_of_same rfl rfl rfl fixed
  | @unlinkWaiting engine tag rest done =>
    obtain ⟨memory, flash, sent, _⟩ := release_fields
      ({ engine with poll := .customCmd rest done }.unlink tag) (engine.pool tag).nextBlockingReq
    exact .inl ⟨settles_of_same (handed_release _ _).1 memory flash fixed, .inl sent⟩
  | @dropNvmeDma engine tag rest done direction walk direct answer =>
    subst direct
    have walking : engine.poll.walk = some (.nvmeDma, tag :: rest) := by rw [walk]; rfl
    have marked := sound.queues.mem_iff.1 (sound.queues.visited_mem walking)
    exact .inl ⟨settles_of_given serving (.inl marked) walking (by rw [walk]; exact answer)
      rfl rfl rfl rfl, .inl (release_fields _ _).2.2.1⟩
  | @dropCustomCmd engine tag rest done direction pass permitted walk direct noRx issued answer =>
    subst direct
    have walking : engine.poll.walk = some (.customCmd, tag :: rest) := by rw [walk]; rfl
    have marked := sound.queues.mem_iff.1 (sound.queues.visited_mem walking)
    exact .inl ⟨settles_of_given serving (.inr ⟨marked, issued⟩) walking
      (by rw [walk]; exact answer) rfl rfl rfl rfl, .inl (release_fields _ _).2.2.1⟩
  | @dropNand engine tag pass permitted quiet queued =>
    have nand := serving.flash tag .nand (.inl rfl) (sound.queues.mem_iff.1 queued)
    refine .inl ⟨?_, .inl (release_fields _ _).2.2.1⟩
    have ended : ∀ answers, ∃ answers', Engine.image { engine with
        memory := (engine.dropNand tag).memory
        flash := (engine.dropNand tag).flash
        handed := engine.handed.erase tag } answers' =
          (engine.transfer tag).apply (engine.image answers) :=
      fun answers => ⟨answers, image_dropNand nand answers⟩
    exact settles_of_drop sound.chains (first_of_nand sound queued) rfl rfl ended fun _ =>
      inOrder engine _ permitted
  | _ => exact .inl ⟨settles_of_same rfl rfl rfl fixed, .inl rfl⟩

/-! ## What the main loop hands over -/

theorem settles_main {after : Moment Tag} (sound : Sound engine none) (quiet : engine.poll = .idle)
    (move : MainMove allowed engine after) (answers : Tag → Nat → Option HostBlock) :
    (after.engine.handed = engine.handed → after.engine.settled answers = engine.settled answers) ∧
    ∀ new, after.engine.handed = engine.handed ++ [new] → after.engine.settled answers =
      (after.engine.transfer new).apply (engine.settled answers) := by
  obtain ⟨memory, flash, _⟩ := data_main move
  have same := settled_eq memory flash answers
    (keeps_of_move sound.chains sound.queues sound.tracks (.main quiet move)).fixed
  unfold settled
  constructor
  · intro handed
    rw [handed, ← same]
  · intro new handed
    rw [handed, settle_append, ← same]

end Moves

end Engine
end RwRbuf.Firmware.Requests
