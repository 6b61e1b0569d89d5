import RwRbuf.Firmware.DmaWalk

/-! # The Rx requests of a command before its Tx requests

A write-read command fetches the written page from the buffer of the host into which it then
sends the page it reads.  The counter of the slot keeps the Tx requests back: the written
slices come first, so they are all counted when a Tx request is about to be issued.
-/

namespace RwRbuf.Firmware.Requests

open Fallible

namespace Ledger

variable {ledger ledger' : Ledger} {sliceNo : Nat}

/-- If the slice belongs to a write-read command, then the written slices of the command are
finished. -/
def RxFinished (ledger : Ledger) (sliceNo : Nat) : Prop :=
  ∀ read, ledger.slices[sliceNo]? = some read → read.customCmd = true →
    ∀ other written, ledger.slices[other]? = some written → written.command = read.command →
      written.code = .write → other ∈ ledger.finished

section

variable (rxFinished : ledger.RxFinished sliceNo) (balanced : ledger.Balanced)
  (inside : sliceNo < ledger.slices.length)
include rxFinished balanced inside

theorem RxFinished.accept (cmd : NvmeIoCmd) : (ledger.accept cmd).RxFinished sliceNo := by
  intro read found custom other written foundOther same write
  have foundRead := getElem?_of_accept inside found
  rcases getElem?_accept foundOther with old | ⟨_, new⟩
  · exact rxFinished read foundRead custom other written old same write
  · have before := balanced.known read (List.mem_of_getElem? foundRead)
    rw [← same, (NvmeIoCmd.shares_of_mem_slices new).1] at before
    exact absurd before (Nat.lt_irrefl _)

theorem RxFinished.step {fresh : Ledger → NvmeIoCmd → Prop} {calm : Ledger → Slice → Prop}
    (step : Step fresh calm ledger ledger') : ledger'.RxFinished sliceNo := by
  cases step with
  | accept => exact rxFinished.accept balanced inside _
  | count => exact rxFinished
  | finish =>
    intro read found custom other written foundOther same write
    exact List.mem_cons_of_mem _
      (rxFinished read found custom other written foundOther same write)

end

end Ledger

variable {Tag : Type}

namespace Engine

/-- The commands of Tx requests that the DMA engine was given are for commands whose written
slices are finished. -/
def TxAfterRx (engine : Engine Tag) : Prop :=
  ∀ command ∈ (engine.dma .tx).fifo, engine.ledger.RxFinished command.sliceNo

theorem outstanding_le [Fintype Tag] {engine : Engine Tag} {inHand : Option Tag}
    (tracks : Tracks engine inHand) : engine.ledger.outstanding.length ≤ Fintype.card Tag := by
  have subset : engine.ledger.outstanding.toFinset ⊆
      Finset.univ.image fun tag => (engine.pool tag).sliceNo := by
    intro sliceNo member
    obtain ⟨tag, _, number⟩ := tracks.accounted sliceNo (List.mem_toFinset.1 member)
    exact Finset.mem_image.2 ⟨tag, Finset.mem_univ tag, number⟩
  calc engine.ledger.outstanding.length
      = engine.ledger.outstanding.toFinset.card :=
        (List.toFinset_card_of_nodup Ledger.nodup_outstanding).symm
    _ ≤ (Finset.univ.image fun tag => (engine.pool tag).sliceNo).card :=
        Finset.card_le_card subset
    _ ≤ Fintype.card Tag := Finset.card_image_le

namespace TxAfterRx

variable {engine engine' : Engine Tag} {inHand : Option Tag} {tag : Tag}

variable {Trusted : ReqQueueType → Direction → Prop}

/-- A slice of which the DMA engine has a command is one of the accepted ones. -/
theorem slice_lt (records : Records Trusted engine)
    (sound : Sound engine inHand) {direction : Direction} {command : DmaCommand}
    (member : command ∈ (engine.dma direction).fifo) : command.sliceNo < engine.slices.length := by
  have translated := sound.balanced.translated_le
  rcases records.known direction command member with finished | ⟨owner, given, same, _⟩
  · exact (sound.balanced.finished_lt _ finished).trans_le translated
  · obtain ⟨outstanding, _⟩ := sound.tracks.live owner (given.live sound.tracks)
    rw [← same]
    exact (Ledger.mem_outstanding.1 outstanding).1.trans_le translated

theorem rxFinished_of_issue [Fintype Tag] (few : Fintype.card Tag < 2 ^ 16)
    (tracks : Tracks engine inHand) (balanced : engine.ledger.Balanced)
    (live : engine.Live inHand tag) (tx : (engine.pool tag).direction = some .tx)
    (noRx : (engine.pool tag).customCmd = true →
      (engine.customIoCmd (engine.pool tag).nvmeCmdSlotTag).notCompletedRxCount = 0) :
    engine.ledger.RxFinished (engine.pool tag).sliceNo := by
  intro read found custom other written foundOther same write
  obtain ⟨outstanding, slice, found', carries, code⟩ := tracks.live tag live
  have equal : slice = read := Option.some.inj (found'.symm.trans found)
  subst equal
  have isRead : slice.code = .read := by
    unfold Request.direction at tx
    rw [code] at tx
    cases codes : slice.code with
    | write =>
      rw [codes] at tx
      cases tx
    | read => rfl
  apply balanced.written_finished ((outstanding_le tracks).trans_lt few) found
    (Ledger.mem_outstanding.1 outstanding).1 custom isRead _ foundOther same write
  rw [← carries.slot]
  exact noRx (carries.custom.trans custom)

theorem direction_eq_tx (direct : (engine.pool tag).direction = some .tx) :
    (engine.pool tag).reqCode = .txDma := by
  unfold Request.direction at direct
  split at direct
  · cases direct
  next tx => exact tx
  · cases direct

variable [DecidableEq Tag] {allowed : Engine Tag → Event Tag → Prop}

/-- What a move adds to the Tx commands: nothing, or those of a request whose slot has no
counted Rx request. -/
theorem fifo_of_move {before after : Moment Tag} (sound : Sound before.engine before.inHand)
    (move : Move allowed before after) :
    (after.engine.dma .tx).fifo = (before.engine.dma .tx).fifo ∨
      ∃ tag ref, before.engine.Live before.inHand tag ∧
        (before.engine.pool tag).direction = some .tx ∧
        ((before.engine.pool tag).customCmd = true → (before.engine.customIoCmd
          (before.engine.pool tag).nvmeCmdSlotTag).notCompletedRxCount = 0) ∧
        (after.engine.dma .tx).fifo =
          (before.engine.dma .tx).fifo ++ (before.engine.pool tag).dmaCommands ref := by
  have released : ∀ (engine : Engine Tag) (target : Option Tag),
      ((Moment.release engine target).engine.dma .tx).fifo = (engine.dma .tx).fifo :=
    fun engine target => by rw [(Ready.release_fields engine target).1]
  -- the commands of a request go to the list of its direction
  have issued : ∀ (engine : Engine Tag) (direction : Direction) (ref : BufferRef) (tag : Tag),
      ((engine.issueTo direction ref tag).dma .tx).fifo = (engine.dma .tx).fifo ∨
        (direction = .tx ∧ ((engine.issueTo direction ref tag).dma .tx).fifo =
          (engine.dma .tx).fifo ++ (engine.pool tag).dmaCommands ref) := by
    intro engine direction ref tag
    cases direction with
    | rx =>
      left
      simp [Engine.issueTo]
    | tx =>
      right
      simp [Engine.issueTo, AutoDma.issue]
  cases move with
  | serve served => exact .inl (Records.dma_serve served .tx).1
  | main quiet move =>
    left
    rw [(dmaAside_main sound.queues move).dma]
  | @issue engine tag direction ref front dma direct uses ready room =>
    have live : engine.Live (some tag) tag := ⟨dma, .inr (.inr (.inr rfl))⟩
    rcases issued engine direction ref tag with same | ⟨rfl, added⟩
    · exact .inl same
    · refine .inr ⟨tag, ref, live, direct, ?_, added⟩
      intro custom
      by_contra counted
      obtain ⟨_, pos, _⟩ := commands_of_live sound.tracks sound.balanced live ref
      exact ready ⟨direction_eq_tx direct, custom, pos, counted⟩
  | @issueWaiting engine tag rest done direction ref pass _ walk noRx _ _ direct =>
    have marked := sound.queues.mem_iff.1 (sound.queues.visited_mem
      (show engine.poll.walk = some (.customCmd, tag :: rest) by rw [walk]; rfl))
    have live : engine.Live none tag :=
      ⟨(sound.tracks.customQueue tag marked).1, .inr (.inr (.inl marked))⟩
    rcases issued { engine with poll := .customCmd rest done } direction ref tag with
      same | ⟨rfl, added⟩
    · exact .inl same
    · refine .inr ⟨tag, ref, live, direct, ?_, added⟩
      intro _
      apply noRx
      rw [direction_eq_tx direct]
      decide
  | dropNvmeDma | dropCustomCmd | unlinkWaiting | dropNand => exact .inl (released _ _)
  | _ => exact .inl rfl

theorem move [Fintype Tag] (few : Fintype.card Tag < 2 ^ 16) {before after : Moment Tag}
    (txAfterRx : TxAfterRx before.engine)
    (sound : DmaSound Trusted before.engine before.inHand) (move : Move allowed before after) :
    TxAfterRx after.engine := by
  have inside := fun command => @slice_lt Tag before.engine before.inHand Trusted
    sound.records sound.sound .tx command
  have permits : Tracks.Permits allowed (fun _ _ => True) fun _ _ => True :=
    ⟨fun _ _ _ _ => trivial, fun _ _ _ _ _ _ _ => trivial⟩
  obtain ⟨_, step⟩ := sound.sound.tracks.move permits sound.sound.queues sound.sound.balanced move
  have kept : ∀ sliceNo, sliceNo < before.engine.slices.length →
      before.engine.ledger.RxFinished sliceNo → after.engine.ledger.RxFinished sliceNo := by
    intro sliceNo known rxFinished
    rcases step with same | step
    · rw [same]
      exact rxFinished
    · exact rxFinished.step sound.sound.balanced known step
  intro command member
  rcases fifo_of_move sound.sound move with same | ⟨tag, ref, live, tx, noRx, added⟩
  · rw [same] at member
    exact kept _ (inside command member) (txAfterRx command member)
  · rw [added] at member
    rcases List.mem_append.1 member with old | new
    · exact kept _ (inside command old) (txAfterRx command old)
    · obtain ⟨ofSlice, _⟩ :=
        commands_of_live sound.sound.tracks sound.sound.balanced live ref
      rw [ofSlice command new]
      obtain ⟨_, slice, found, _⟩ := sound.sound.tracks.live tag live
      apply kept _ (List.getElem?_eq_some_iff.1 found).1
      exact rxFinished_of_issue few sound.sound.tracks sound.sound.balanced live tx noRx

end TxAfterRx

end Engine

/-- Whenever the DMA engine has a command of a Tx request of a write-read command, every Rx
request of the command is finished and the DMA engine has served all its commands. -/
theorem rx_complete_before_tx (config : Config) (engine : Engine config.Tag)
    (run : Relation.ReflTransGen (Fallible.EventStep Engine.step fun _ _ => True)
      config.initial engine) :
    ∀ command ∈ (engine.dma .tx).fifo, ∀ read, engine.slices[command.sliceNo]? = some read →
      read.customCmd = true → ∀ sliceNo written, engine.slices[sliceNo]? = some written →
      written.command = read.command → written.code = .write →
      sliceNo ∈ engine.finished ∧ ∀ index rx, (engine.dma .rx).fifo[index]? = some rx →
        rx.sliceNo = sliceNo → index < (engine.dma .rx).served := by
  have both := run_of_moves
    (fun engine inHand => engine.WalkSound inHand ∧ engine.TxAfterRx)
    ⟨config.initial_walkSound, fun _ member => absurd member List.not_mem_nil⟩
    (fun _ _ both move => ⟨both.1.move config.card_lt move,
      both.2.move config.card_lt both.1.dma move⟩) run
  intro command member read found custom sliceNo written foundOther same write
  have finished := both.2 command member read found custom sliceNo written foundOther same write
  refine ⟨finished, ?_⟩
  intro index rx foundRx number
  apply both.1.dma.records.served .rx (fun _ _ => .inr rfl) index rx foundRx
  rw [number]
  exact finished

/-- The DMA engine serves the Rx request of the command, and a poll removes it and issues the
Tx request. -/
def sameSliceSentEvents {Tag : Type} : List (Event Tag) :=
  List.replicate 4 (.serve .rx) ++ [.startPoll, .visit true, .visit true]

theorem sameSliceSentEvents_run :
    (runEvents Engine.step sameSliceSentEvents sameSliceEngine).isSome = true := by
  decide +kernel

def sameSliceSent : Engine Config.oneDie.Tag :=
  (runEvents Engine.step sameSliceSentEvents sameSliceEngine).get
    sameSliceSentEvents_run

/-- The DMA engine has the four commands of the Tx request, and the Rx request is finished. -/
theorem rx_complete_before_tx_sameSlice :
    ((sameSliceSent.dma .tx).fifo.map DmaCommand.sliceNo) = [1, 1, 1, 1] ∧
      0 ∈ sameSliceSent.finished := by
  have run : Relation.ReflTransGen (EventStep Engine.step fun _ _ => True)
      Config.oneDie.initial sameSliceSent :=
    (sameSliceEngine_reached trivial fun _ _ => trivial).trans
      (reaches_of_runEvents _ (fun _ _ _ => trivial)
        (Option.some_get sameSliceSentEvents_run).symm)
  have sent : ((sameSliceSent.dma .tx).fifo.map DmaCommand.sliceNo) = [1, 1, 1, 1] := by
    decide +kernel
  have slices : sameSliceSent.slices = (NvmeIoCmd.writeRead 0 0 3 0 3).slices 0 := by
    decide +kernel
  obtain ⟨command, member, number⟩ : ∃ command ∈ (sameSliceSent.dma .tx).fifo,
      command.sliceNo = 1 := by
    apply List.mem_map.1
    rw [sent]
    exact List.mem_cons_self
  obtain ⟨read, found, custom, readCommand⟩ : ∃ read,
      sameSliceSent.slices[command.sliceNo]? = some read ∧ read.customCmd = true ∧
        read.command = 0 := by
    rw [number, slices]
    exact ⟨_, rfl, rfl, rfl⟩
  obtain ⟨written, foundWritten, writtenCommand, write⟩ : ∃ written,
      sameSliceSent.slices[0]? = some written ∧ written.command = 0 ∧ written.code = .write := by
    rw [slices]
    exact ⟨_, rfl, rfl, rfl⟩
  exact ⟨sent, (rx_complete_before_tx Config.oneDie sameSliceSent run command member read found
    custom 0 written foundWritten (writtenCommand.trans readCommand.symm) write).1⟩

end RwRbuf.Firmware.Requests
