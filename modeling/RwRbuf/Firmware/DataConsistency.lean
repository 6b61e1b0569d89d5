import RwRbuf.Firmware.BufferCache

/-! # What the Tx requests find

A Tx request is handed over when its entry will hold what the host has stored in the slice so
far.  The requests that are handed over later do not change what it finds, in whatever order
the DMA engine and the flash carry them out.  So each block that is sent is the one that was
written last before its slice.
-/

namespace RwRbuf.Firmware.Requests

open PendingOperations WriteBackCache

variable {Tag : Type}

def SentBlock.Latest (sent : SentBlock) (slices : List Slice) : Prop :=
  ∃ slice, slices[sent.sliceNo]? = some slice ∧ ∀ data,
    contents slices sent.sliceNo slice.logicalSliceAddr sent.block = some data →
      sent.data = some data

namespace Engine

/-- What the Tx requests will find and what was sent is what the host has stored before. -/
structure Answers (engine : Engine Tag) (final : Image Tag) : Prop where
  finds : ∀ tag ∈ engine.handed, (engine.pool tag).reqCode = .txDma →
    (engine.pool tag).sliceNo < engine.slices.length ∧ Holds (final (.answer tag))
      (contents engine.slices (engine.pool tag).sliceNo (engine.pool tag).logicalSliceAddr)
  sent : ∀ block ∈ engine.sent, block.Latest engine.slices

variable [DecidableEq Tag] {engine engine' : Engine Tag} {tag : Tag} {ref : BufferRef}

theorem Answers.step {answers answers' : Tag → Nat → Option HostBlock}
    (answered : Answers engine (engine.settled answers)) (sends : Sends engine engine')
    (kept : ∀ {sliceNo : Nat} {slice : Slice}, engine.slices[sliceNo]? = some slice →
      engine'.slices[sliceNo]? = some slice)
    (finds : ∀ tag ∈ engine'.handed, (engine'.pool tag).reqCode = .txDma →
      (tag ∈ engine.handed ∧ (engine'.pool tag).fixed = (engine.pool tag).fixed ∧
        engine'.settled answers' (.answer tag) = engine.settled answers (.answer tag)) ∨
      (engine'.pool tag).sliceNo < engine.slices.length ∧
        Holds (engine'.settled answers' (.answer tag)) (contents engine.slices
          (engine'.pool tag).sliceNo (engine'.pool tag).logicalSliceAddr)) :
    Answers engine' (engine'.settled answers') := by
  have old : ∀ block ∈ engine.sent, block.Latest engine'.slices := by
    intro block member
    obtain ⟨slice, isSlice, right⟩ := answered.sent block member
    refine ⟨slice, kept isSlice, ?_⟩
    rw [contents_of_kept (Nat.le_of_lt (List.getElem?_eq_some_iff.1 isSlice).1) kept]
    exact right
  constructor
  · intro tag listed tx
    have right : (engine'.pool tag).sliceNo < engine.slices.length ∧
        Holds (engine'.settled answers' (.answer tag)) (contents engine.slices
          (engine'.pool tag).sliceNo (engine'.pool tag).logicalSliceAddr) := by
      rcases finds tag listed tx with ⟨before, fixed, same⟩ | right
      · rw [Request.field_of_fixed (·.reqCode) (fun _ => rfl) fixed] at tx
        rw [same, Request.field_of_fixed (·.sliceNo) (fun _ => rfl) fixed,
          Request.field_of_fixed (·.logicalSliceAddr) (fun _ => rfl) fixed]
        exact answered.finds tag before tx
      · exact right
    rw [contents_of_kept right.1.le kept]
    exact ⟨(List.getElem?_eq_some_iff.1 (kept (List.getElem?_eq_getElem right.1))).1, right.2⟩
  · rcases sends with same | ⟨tag, listed, block, slice, tx, isSlice, ofSlice, new⟩
    · rw [same]
      exact old
    · intro sent member
      rw [new answers] at member
      rcases List.mem_append.1 member with before | isNew
      · exact old sent before
      · rw [List.mem_singleton.1 isNew]
        obtain ⟨inside, finds⟩ := answered.finds tag listed tx
        refine ⟨slice, kept isSlice, ?_⟩
        intro data isStored
        rw [contents_of_kept inside.le kept, ← ofSlice] at isStored
        exact finds block data isStored

variable {allowed : Engine Tag → Event Tag → Prop}

variable {after : Moment Tag}

/-- A move of the main loop hands over one request at most.  A Tx request is the one that was
translated. -/
theorem handed_main (move : MainMove allowed engine after) :
    after.engine.handed = engine.handed ∨ ∃ new, after.engine.handed = engine.handed ++ [new] ∧
      ((after.engine.pool new).reqCode = .txDma → engine.stage = .finishing new ∧
        ∃ ref, (engine.pool new).dataBuf = some ref ∧ after.engine = engine.makeDma new ref) := by
  have gc : ∀ (engine : Engine Tag) gc new,
      ((engine.prepareGc gc new).pool new).reqCode ≠ .txDma := by
    intro engine gc new
    rw [Request.field_of_fixed (·.reqCode) (fun _ => rfl) (fixed_prepareGc_new engine gc new)]
    cases gc <;> exact fun tx => by cases tx
  cases move with
  | accept _ _ accepted => exact .inl (accept_eq accepted).2.2.2.2
  | prepareGcRead | prepareGc =>
    exact .inr ⟨_, handed_prepareGc _ _ _, fun tx => absurd tx (gc _ _ _)⟩
  | prepareWriteBack =>
    refine .inr ⟨_, rfl, fun tx => ?_⟩
    rw [Request.field_of_fixed (·.reqCode) (fun _ => rfl)
      (Buffered.fixed_prepareWriteBack ..)] at tx
    cases tx
  | prepareFetch =>
    refine .inr ⟨_, rfl, fun tx => ?_⟩
    rw [reqCode_prepareFetch] at tx
    cases tx
  | makeDma stage uses => exact .inr ⟨_, rfl, fun _ => ⟨stage, _, uses, rfl⟩⟩
  | _ => exact .inl rfl

/-- The requests that were handed over before find what they found. -/
theorem answer_main (sound : Sound engine none) (quiet : engine.poll = .idle)
    (move : MainMove allowed engine after) (answers : Tag → Nat → Option HostBlock)
    (listed : tag ∈ engine.handed) :
    after.engine.settled answers (.answer tag) = engine.settled answers (.answer tag) := by
  obtain ⟨same, handsOver⟩ := settles_main sound quiet move answers
  rcases handed_main move with handed | ⟨new, handed, _⟩
  · rw [same handed]
  · rw [handsOver new handed]
    apply Copy.apply_of_ne
    intro isTarget
    rcases Request.uses_transfer (.inl isTarget) with isNew | ⟨_, ⟨⟩, _⟩ | ⟨_, ⟨⟩, _⟩
    cases isNew
    have nodup : after.engine.handed.Nodup := (sound.move (.main quiet move)).chains.chained.nodup
    rw [handed] at nodup
    exact (List.nodup_append.1 nodup).2.2 tag listed tag (List.mem_singleton_self tag) rfl

/-- The Tx request of a slice finds what the host has stored in it. -/
theorem finds_makeDma {answers : Tag → Nat → Option HostBlock}
    (buffered : Buffered engine (engine.settled answers)) (sound : Sound engine none)
    (stage : engine.stage = .finishing tag) (uses : (engine.pool tag).dataBuf = some ref)
    (tx : ((engine.makeDma tag ref).pool tag).reqCode = .txDma) :
    ((engine.makeDma tag ref).pool tag).sliceNo < engine.slices.length ∧
      Holds (((engine.makeDma tag ref).transfer tag).apply (engine.settled answers) (.answer tag))
        (contents engine.slices ((engine.makeDma tag ref).pool tag).sliceNo
          ((engine.makeDma tag ref).pool tag).logicalSliceAddr) := by
  have fixed := fixed_makeDma engine tag ref
  obtain ⟨number, _, slice, found, carries, code⟩ := sound.tracks.current_slice
    (show engine.stage.current = some tag by rw [stage]; rfl)
  have busy := busy_of_fixed stage rfl rfl uses
  have transfer : (engine.makeDma tag ref).transfer tag = ⟨.answer tag, .entry ref, id⟩ :=
    Request.transfer_tx (reqType_makeDma engine tag ref) tx
      ((Request.field_of_fixed (·.dataBuf) (fun _ => rfl) fixed).trans uses)
  have notWrite : (engine.pool tag).reqCode ≠ .write := by
    intro write
    rw [Request.field_of_fixed (·.reqCode) (fun _ => rfl) fixed] at tx
    simp [Request.fillDma, cmdCode, write, CmdCode.dmaCode] at tx
  rw [transfer, Copy.apply_self, Request.field_of_fixed (·.sliceNo) (fun _ => rfl) fixed,
    Request.field_of_fixed (·.logicalSliceAddr) (fun _ => rfl) fixed]
  refine ⟨number ▸ (List.getElem?_eq_some_iff.1 found).1, ?_⟩
  refine number ▸ buffered.reached.faithful.held
    (buffered.reached.faithful.bound busy rfl) fun other => ?_
  show engine.busy ≠ _ ∧ engine.busy ≠ _
  simp [busy, Stage.phase, Request.whole, notWrite]

structure Coherent (engine : Engine Tag) (inHand : Option Tag) : Prop where
  serving : Serving engine inHand
  data : ∃ answers, Buffered engine (engine.settled answers) ∧
    Answers engine (engine.settled answers)

namespace Coherent

theorem main (coherent : Coherent engine none)
    (quiet : engine.poll = .idle) (move : MainMove allowed engine after) :
    ∃ answers, Buffered after.engine (after.engine.settled answers) ∧
      Answers after.engine (after.engine.settled answers) := by
  obtain ⟨serving, answers, buffered, answered⟩ := coherent
  have sound := serving.dma.sound
  have fixed := (keeps_of_move sound.chains sound.queues sound.tracks (.main quiet move)).fixed
  refine ⟨answers, buffered.main sound quiet move,
    answered.step (.inl (data_main move).2.2) (slices_of_main move) ?_⟩
  intro tag listed tx
  have handsOver := (settles_main sound quiet move answers).2
  have old := fun listed : tag ∈ engine.handed => And.intro listed
    (And.intro (fixed tag listed) (answer_main sound quiet move answers listed))
  rcases handed_main move with handed | ⟨new, handed, translated⟩
  · exact .inl (old (handed ▸ listed))
  · rw [handed, List.mem_append, List.mem_singleton] at listed
    rcases listed with before | rfl
    · exact .inl (old before)
    · obtain ⟨stage, ref, uses, made⟩ := translated tx
      rw [handsOver tag handed]
      rw [made] at tx ⊢
      exact .inr (finds_makeDma buffered sound stage uses tx)

theorem move {before after : Moment Tag} (coherent : Coherent before.engine before.inHand)
    (orderly : ∀ engine event, allowed engine event → engine.IssuesInOrder event)
    (inOrder : ∀ engine event, allowed engine event → engine.FlashInOrder event)
    (move : Move allowed before after) : Coherent after.engine after.inHand := by
  refine ⟨coherent.serving.move orderly move, ?_⟩
  rcases settles_or_main coherent.serving inOrder move with
    ⟨settles, sends⟩ | ⟨engine, rfl, quiet, main⟩
  · rcases aside_or_main move with aside | ⟨engine, rfl, quiet, main⟩
    · obtain ⟨answers, buffered, answered⟩ := coherent.data
      obtain ⟨answers', same⟩ := settles answers
      refine ⟨answers', same ▸ buffered.aside aside, ?_⟩
      apply answered.step sends (slices_of_move move)
      intro tag listed _
      exact .inl ⟨aside.handed listed, aside.fixed tag, by rw [same]⟩
    · exact coherent.main quiet main
  · exact coherent.main quiet main

end Coherent

end Engine

theorem Config.initial_coherent (config : Config) : config.initial.Coherent none where
  serving := by
    refine ⟨config.initial_dmaSound _, ?_, ?_, ?_⟩
    · rintro tag which (rfl | rfl) marked <;> cases marked
    · intro direction command member
      cases member
    · intro command member
      cases member
  data := by
    refine ⟨fun _ _ => none, ⟨⟨?_, ?_⟩, ?_⟩, ?_⟩
    · intro kind data
      cases kind with
      | dataBuf => exact .init _
      | ccmdDataBuf => exact .init _
      | tempDataBuf => exact absurd rfl data
    · intro evicts ref claimed
      cases claimed
    · have empty : config.initial.cache (config.initial.settled fun _ _ => none) = .empty := by
        refine Cache.ext (funext fun ref => ?_) (funext fun ref => ?_) rfl rfl rfl rfl rfl
        · obtain ⟨kind, entry⟩ := ref
          cases kind <;> simp [Cache.empty, Engine.cache, Engine.shown, Engine.entryOf,
            Config.initial, BufferMap.init]
        · obtain ⟨kind, entry⟩ := ref
          cases kind <;> rfl
      exact empty ▸ Relation.ReflTransGen.refl
    · constructor
      · intro tag listed
        cases listed
      · intro block member
        cases member

end RwRbuf.Firmware.Requests
