import RwRbuf.Firmware.DataConsistency

/-! # The host reads what it wrote

The device is a store of blocks: what it sends for a block is what the host wrote there last,
and at every moment the entries and the slices that no request is at work on hold what the
host has stored.  With read and write commands alone this needs an orderly flash and nothing
else.  Write-read commands also need the walks of the custom queue to issue the waiting
requests in the order of the queue.
-/

namespace RwRbuf.Firmware.Requests

open PendingOperations WriteBackCache Fallible Relation

variable {Tag : Type}

abbrev Engine.Unused (engine : Engine Tag) (place : Place Tag) : Prop :=
  ∀ tag ∈ engine.handed, ¬(engine.transfer tag).Uses place

/-- The device is a store of blocks, for all that the host has seen of it. -/
structure Engine.Remembers (engine : Engine Tag) : Prop where
  /-- A block that was sent for a slice is the one written last before that slice. -/
  sent : ∀ sent ∈ engine.sent, sent.Latest engine.slices
  /-- An entry on which no request is outstanding and that is not in use by the translation
  holds what the host has stored in its slice. -/
  held : ∀ ref lsa, engine.shown ref = some lsa → engine.Unused (.entry ref) →
    (∀ tag, engine.stage.current = some tag → (engine.pool tag).dataBuf ≠ some ref) →
      Holds (engine.memory ref) (contents engine.slices engine.translated lsa)
  /-- The flash has a slice that no outstanding request uses and no dirty entry shows. -/
  flushed : ∀ lsa, engine.Unused (.slice lsa) →
    (∀ ref, engine.shown ref = some lsa → (engine.entryOf ref).dirty = false) →
      ∀ block data, contents engine.slices engine.translated lsa block = some data →
        engine.mapped lsa = true ∧ engine.flash lsa block = some data

theorem Engine.Coherent.remembers [DecidableEq Tag] {engine : Engine Tag}
    (coherent : engine.Coherent none) : engine.Remembers := by
  obtain ⟨_, answers, ⟨_, reached⟩, answered⟩ := coherent
  have faithful := reached.faithful
  have settled : ∀ {place}, engine.Unused place →
      engine.settled answers place = engine.image answers place := fun unused =>
    settle_of_untouched fun tag listed target => unused tag listed (.inl target)
  refine ⟨answered.sent, ?_, ?_⟩
  · intro ref lsa shows unused free
    have unclaimed : ∀ phase other, engine.busy ≠ some (phase, ref, other) := by
      intro phase other busy
      obtain ⟨tag, current, busy⟩ := Option.bind_eq_some_iff.1 busy
      obtain ⟨entry, uses, same⟩ := Option.map_eq_some_iff.1 busy
      cases same
      exact free tag current uses
    have holds := faithful.held shows fun other => ⟨unclaimed _ other, unclaimed _ other⟩
    rwa [show (engine.cache (engine.settled answers)).held ref = engine.memory ref from
      settled unused] at holds
  · intro lsa unused clean block data stored
    have backed := faithful.backed (fun ref shows => .inl (clean ref shows)) block data stored
    rwa [show (engine.cache (engine.settled answers)).backing lsa = engine.flash lsa from
      settled unused] at backed

theorem coherent_of_run {config : Config} {engine : Engine config.Tag}
    (run : ReflTransGen (EventStep Engine.step fun engine event =>
      engine.IssuesInOrder event ∧ engine.FlashInOrder event) config.initial engine) :
    engine.Coherent none :=
  run_of_moves Engine.Coherent config.initial_coherent
    (fun _ _ coherent move => coherent.move (fun _ _ permitted => permitted.1)
      (fun _ _ permitted => permitted.2) move) run

/-! ## Read and write commands -/

/-- The host uses no write-read command. -/
def Event.Plain : Event Tag → Prop
  | .command cmd => cmd.customCmd = false
  | _ => True

namespace Engine

variable [DecidableEq Tag] {allowed : Engine Tag → Event Tag → Prop} {engine : Engine Tag}

theorem plain_slices_of_main {after : Moment Tag}
    (plain : ∀ engine event, allowed engine event → event.Plain)
    (slices : ∀ slice ∈ engine.slices, slice.customCmd = false)
    (move : MainMove allowed engine after) :
    ∀ slice ∈ after.engine.slices, slice.customCmd = false := by
  cases move with
  | accept permitted _ accepted =>
    rw [(accept_eq accepted).2.2.1]
    intro slice member
    rcases List.mem_append.1 member with old | new
    · exact slices slice old
    · rw [(NvmeIoCmd.shares_of_mem_slices new).2.2.1]
      exact plain _ _ permitted
  | prepareGcRead | prepareGc =>
    unfold Engine.prepareGc
    split <;> exact slices
  | _ => exact slices

omit [DecidableEq Tag] in
theorem customCmd_empty (sound : Sound engine none)
    (slices : ∀ slice ∈ engine.slices, slice.customCmd = false) : engine.queue .customCmd = [] := by
  apply List.eq_nil_iff_forall_not_mem.2
  intro tag queued
  have marked := sound.queues.mem_iff.1 queued
  obtain ⟨type, custom⟩ := sound.tracks.customQueue tag marked
  obtain ⟨_, slice, found, carries, _⟩ := sound.tracks.live tag ⟨type, by simp [marked]⟩
  have plain := slices slice (List.mem_of_getElem? found)
  rw [← carries.custom, custom] at plain
  cases plain

omit [DecidableEq Tag] in
theorem issuesInOrder_of_empty (empty : engine.queue .customCmd = []) (event : Event Tag) :
    engine.IssuesInOrder event := by
  cases event with
  | visit pass =>
    intro tag rest done _ _ _ _ front back queue
    rw [empty] at queue
    exact absurd queue.symm (List.append_ne_nil_of_right_ne_nil _ (List.cons_ne_nil _ _))
  | _ => trivial

end Engine

/-- A run without write-read commands issues the requests in order. -/
theorem issuesInOrder_of_plain {config : Config} {engine : Engine config.Tag}
    {allowed : Engine config.Tag → Event config.Tag → Prop}
    (run : ReflTransGen (EventStep Engine.step fun engine event =>
      event.Plain ∧ allowed engine event) config.initial engine) :
    ReflTransGen (EventStep Engine.step fun engine event =>
      engine.IssuesInOrder event ∧ allowed engine event) config.initial engine := by
  induction run with
  | refl => exact .refl
  | tail before last ih =>
    obtain ⟨event, ⟨_, permitted⟩, taken⟩ := last
    have known := run_of_moves (fun engine inHand => Engine.Sound engine inHand ∧
        ∀ slice ∈ engine.slices, slice.customCmd = false)
      ⟨config.initial_sound, fun _ member => by cases member⟩ ?_ before
    · have empty := Engine.customCmd_empty known.1 known.2
      exact ih.tail ⟨event, ⟨Engine.issuesInOrder_of_empty empty event, permitted⟩, taken⟩
    · rintro before after ⟨sound, slices⟩ move
      refine ⟨sound.move move, ?_⟩
      rcases Engine.aside_or_main move with aside | ⟨engine, rfl, _, main⟩
      · rw [aside.slices]
        exact slices
      · exact Engine.plain_slices_of_main (fun _ _ permitted => permitted.1) slices main

/-- If the walks issue the waiting requests in the order of the custom queue and the flash
carries out the requests for one slice in the order in which they were handed over, then the
host reads what it wrote, with all commands and in every order of the steps. -/
theorem remembers_of_run (config : Config) (engine : Engine config.Tag)
    (run : Relation.ReflTransGen (Fallible.EventStep Engine.step fun engine event =>
      engine.IssuesInOrder event ∧ engine.FlashInOrder event) config.initial engine) :
    engine.Remembers :=
  (coherent_of_run run).remembers

/-- Two blocks of a slice are written, the device takes them, and the slice is read. -/
def readBackEvents {Tag : Type} : List (Event Tag) :=
  List.flatten
    [ [.command (.write 0 1 1)], List.replicate 8 (.advance ⟨[], true⟩),
      List.replicate 2 (.serve .rx),
      [.startPoll], List.replicate 3 (.visit true), [.endPoll],
      [.command (.read 1 0 3)], List.replicate 5 (.advance ⟨[], true⟩),
      List.replicate 4 (.serve .tx) ]

theorem readBackEvents_run :
    (runEvents Engine.step readBackEvents Config.oneDie.initial).isSome = true := by
  decide +kernel

def readBackEngine : Engine Config.oneDie.Tag :=
  (runEvents Engine.step readBackEvents Config.oneDie.initial).get readBackEvents_run

theorem readBackEngine_reached :
    ReflTransGen (EventStep Engine.step fun engine event =>
      event.Plain ∧ engine.FlashInOrder event) Config.oneDie.initial readBackEngine := by
  apply reaches_of_runEvents readBackEvents _ (Option.some_get readBackEvents_run).symm
  intro event member engine
  simp only [readBackEvents, List.flatten_cons, List.flatten_nil, List.append_nil,
    List.mem_append, List.mem_singleton, List.mem_replicate] at member
  rcases member with rfl | ⟨_, rfl⟩ | ⟨_, rfl⟩ | rfl | ⟨_, rfl⟩ | rfl | rfl | ⟨_, rfl⟩ | ⟨_, rfl⟩
  all_goals exact ⟨by trivial, trivial⟩

theorem remembers_of_run_readBack :
    readBackEngine.sent.map SentBlock.data = [none, some ⟨0, 0⟩, some ⟨0, 1⟩, none] ∧
      readBackEngine.Remembers :=
  ⟨by decide +kernel, remembers_of_run Config.oneDie readBackEngine
    (issuesInOrder_of_plain readBackEngine_reached)⟩

/-- With read and write commands the host reads what it wrote if the flash carries out the
requests for one slice in the order in which they were handed over. -/
theorem remembers_of_plain_run (config : Config) (engine : Engine config.Tag)
    (run : Relation.ReflTransGen (Fallible.EventStep Engine.step fun engine event =>
      event.Plain ∧ engine.FlashInOrder event) config.initial engine) :
    engine.Remembers :=
  (coherent_of_run (issuesInOrder_of_plain run)).remembers

theorem remembers_of_plain_run_readBack :
    readBackEngine.sent.map SentBlock.block = [0, 1, 2, 3] ∧ readBackEngine.Remembers :=
  ⟨by decide +kernel, remembers_of_plain_run Config.oneDie readBackEngine readBackEngine_reached⟩

/-- The buffers and the flash are a write-back cache: whatever the DMA engine and the flash
still have to do, what they will hold in the end is what the steps of the cache lead to. -/
theorem cache_of_run (config : Config) (engine : Engine config.Tag)
    (run : Relation.ReflTransGen (Fallible.EventStep Engine.step fun engine event =>
      engine.IssuesInOrder event ∧ engine.FlashInOrder event) config.initial engine) :
    ∃ answers, WriteBackCache.Reached (engine.cache (engine.settled answers)) := by
  obtain ⟨answers, buffered, _⟩ := (coherent_of_run run).data
  exact ⟨answers, buffered.reached⟩

theorem cache_of_run_readBack :
    readBackEngine.shown ⟨.dataBuf, 46⟩ = some 0 ∧ ∃ answers,
      WriteBackCache.Reached (readBackEngine.cache (readBackEngine.settled answers)) :=
  ⟨by decide +kernel, cache_of_run Config.oneDie readBackEngine
    (issuesInOrder_of_plain readBackEngine_reached)⟩

end RwRbuf.Firmware.Requests
