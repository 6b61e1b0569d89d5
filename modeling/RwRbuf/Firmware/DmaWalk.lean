import RwRbuf.Firmware.DmaProgress
import Mathlib.Data.Fintype.Card

/-! # The walk over the NVMe-DMA queue

`CheckDoneNvmeDmaReq` compares the record of a request with a counter of 32 bits.  The answer
would be wrong for a record that is too old, but a request that is done is removed by the next
walk.  Until then a slot is not used twice, so the DMA engine gets only a few commands more.
-/

namespace RwRbuf.Firmware.Requests

open Function Fallible Relation

variable {Tag : Type}

namespace Engine

instance (engine : Engine Tag) (tag : Tag) : Decidable (engine.Given tag) :=
  inferInstanceAs (Decidable (_ ∨ _))

section Counts

variable [Fintype Tag] (engine : Engine Tag)

def ungiven : Finset Tag := Finset.univ.filter fun tag => ¬engine.Given tag

def unspent : Finset Tag :=
  engine.ungiven.filter fun tag => (engine.pool tag).reqQueueType ≠ some .free

variable {engine} {engine' : Engine Tag} {tag : Tag}

theorem mem_ungiven : tag ∈ engine.ungiven ↔ ¬engine.Given tag := by
  simp [ungiven]

theorem mem_unspent :
    tag ∈ engine.unspent ↔
      ¬engine.Given tag ∧ (engine.pool tag).reqQueueType ≠ some .free := by
  simp [unspent, mem_ungiven]

theorem card_unspent_le : engine.unspent.card ≤ engine.ungiven.card :=
  Finset.card_filter_le _ _

theorem card_ungiven_le : engine.ungiven.card ≤ Fintype.card Tag :=
  Finset.card_le_univ _

theorem ungiven_aside (still : DmaAside engine engine') : engine'.ungiven = engine.ungiven := by
  ext tag
  rw [mem_ungiven, mem_ungiven, still.given]

theorem unspent_aside (still : DmaAside engine engine')
    (free : ∀ tag, (engine.pool tag).reqQueueType = some .free →
      (engine'.pool tag).reqQueueType = some .free) : engine'.unspent ⊆ engine.unspent := by
  intro tag member
  rw [mem_unspent, still.given] at member
  rw [mem_unspent]
  exact ⟨member.1, fun before => member.2 (free tag before)⟩

variable [DecidableEq Tag] {direction : Direction} {commands : List DmaCommand}

theorem ungiven_give (gives : Gives engine engine' tag direction commands) :
    engine'.ungiven.card < engine.ungiven.card := by
  have member : tag ∈ engine.ungiven := mem_ungiven.2 gives.notGiven
  have subset : engine'.ungiven ⊆ engine.ungiven.erase tag := by
    intro other member'
    rw [mem_ungiven] at member'
    have differs : other ≠ tag := by
      rintro rfl
      exact member' gives.given
    rw [given_of_core (gives.others other differs)] at member'
    exact Finset.mem_erase.2 ⟨differs, mem_ungiven.2 member'⟩
  exact (Finset.card_le_card subset).trans_lt (Finset.card_erase_lt_of_mem member)

theorem unspent_give (gives : Gives engine engine' tag direction commands) :
    engine'.unspent.card < engine.unspent.card := by
  have member : tag ∈ engine.unspent := mem_unspent.2 ⟨gives.notGiven, gives.taken⟩
  have subset : engine'.unspent ⊆ engine.unspent.erase tag := by
    intro other member'
    rw [mem_unspent] at member'
    have differs : other ≠ tag := by
      rintro rfl
      exact member'.1 gives.given
    have same := gives.others other differs
    rw [given_of_core same, Request.field_of_core (·.reqQueueType) (fun _ => rfl) same] at member'
    exact Finset.mem_erase.2 ⟨differs, mem_unspent.2 member'⟩
  exact (Finset.card_le_card subset).trans_lt (Finset.card_erase_lt_of_mem member)

theorem unspent_drop {which : ReqQueueType} {rest : List Tag}
    (drops : Drops engine engine' tag which rest) : engine'.unspent ⊆ engine.unspent := by
  intro other member
  rw [mem_unspent] at member
  have differs : other ≠ tag := by
    rintro rfl
    exact member.2 drops.free
  have same := drops.others other differs
  rw [given_of_core (congrArg Request.core same), same] at member
  exact mem_unspent.2 member

end Counts

section Recent

variable [Fintype Tag] [DecidableEq Tag]

/-- How many requests can still be given before slots are used again, where the poll
stands. -/
def budget (engine : Engine Tag) : Nat :=
  match engine.poll with
  | .idle => engine.ungiven.card
  | _ => engine.unspent.card

def allowance (engine : Engine Tag) (tag : Tag) : Nat :=
  match engine.poll with
  | .idle => 2 * Fintype.card Tag
  | .nvmeDma remaining _ => if tag ∈ remaining then 2 * Fintype.card Tag else Fintype.card Tag
  | _ => Fintype.card Tag

/-- The DMA engine was not given many commands since a request of the NVMe-DMA queue. -/
def Recent (engine : Engine Tag) : Prop :=
  ∀ tag, (engine.pool tag).reqQueueType = some .nvmeDma →
    (engine.dma (engine.pool tag).walkDirection).issued + 4 * engine.budget ≤
      (engine.pool tag).dmaTail + 255 + 4 * engine.allowance tag

variable {engine engine' : Engine Tag} {tag : Tag}

namespace Recent

section

variable (recent : Recent engine) (few : Fintype.card Tag < 2 ^ 16)
include recent few

theorem recorded (queued : (engine.pool tag).reqQueueType = some .nvmeDma) :
    (engine.dma (engine.pool tag).walkDirection).issued / 256 <
      (engine.pool tag).dmaTail / 256 + 2 ^ 32 := by
  have bound := recent tag queued
  have allowed : engine.allowance tag ≤ 2 * Fintype.card Tag := by
    unfold allowance
    split
    · exact Nat.le_refl _
    · split <;> omega
    · omega
  omega

theorem waiting_of_refused (wellFormed : ∀ direction, (engine.dma direction).WellFormed)
    (queued : (engine.pool tag).reqQueueType = some .nvmeDma)
    (refused : (engine.dma (engine.pool tag).walkDirection).partialDone
      (engine.pool tag).dmaTail = false) :
    (engine.dma (engine.pool tag).walkDirection).served < (engine.pool tag).dmaTail := by
  by_contra passed
  have answer := AutoDma.partialDone_of_le_served (wellFormed _) (Nat.le_of_not_lt passed)
    (recent.recorded few queued)
  rw [answer] at refused
  cases refused

/-- A request that does not change, while the budget pays for what the DMA engine is given. -/
theorem pollStep (wellFormed : ∀ direction, (engine.dma direction).WellFormed)
    (poll : PollStep engine engine') (queued : (engine.pool tag).reqQueueType = some .nvmeDma)
    (core : (engine'.pool tag).core = (engine.pool tag).core)
    (idle : (engine'.dma (engine.pool tag).walkDirection).issued + 4 * engine'.ungiven.card ≤
      (engine.dma (engine.pool tag).walkDirection).issued + 4 * engine.ungiven.card)
    (busy : engine.poll ≠ .idle →
      (engine'.dma (engine.pool tag).walkDirection).issued + 4 * engine'.unspent.card ≤
        (engine.dma (engine.pool tag).walkDirection).issued + 4 * engine.unspent.card) :
    (engine'.dma (engine'.pool tag).walkDirection).issued + 4 * engine'.budget ≤
      (engine'.pool tag).dmaTail + 255 + 4 * engine'.allowance tag := by
  rw [Records.dmaTail_of_core core, Records.walkDirection_of_core core]
  have bound := recent tag queued
  have spent := @card_unspent_le Tag _ engine'
  have given := @card_ungiven_le Tag _ engine'
  unfold budget allowance at bound ⊢
  cases poll with
  | same poll =>
    rw [poll]
    cases before : engine.poll with
    | idle =>
      rw [before] at bound
      exact idle.trans bound
    | _ =>
      rw [before] at bound busy
      exact (busy (by simp)).trans bound
  | start before listed poll =>
    rw [before] at bound
    rw [poll]
    have member : tag ∈ (engine.queue .nvmeDma).reverse :=
      List.mem_reverse.2 (listed tag queued)
    simp only [member, if_true] at bound ⊢
    omega
  | custom before poll =>
    rw [before] at bound busy
    rw [poll]
    have paid := busy (by simp)
    simp only [List.not_mem_nil, if_false] at bound ⊢
    omega
  | nand before poll | skipCustomCmd before poll =>
    rw [before] at bound busy
    rw [poll]
    exact (busy (by simp)).trans bound
  | finish before poll =>
    rw [before] at bound busy
    rw [poll]
    have paid := busy (by simp)
    dsimp only at bound ⊢
    omega
  | @skipNvmeDma visited rest done before refused poll =>
    have paid := busy (Poll.ne_idle_of_walk (by rw [before]; rfl))
    rw [before] at bound
    rw [poll]
    have waits : visited = tag → (engine.dma (engine.pool tag).walkDirection).issued <
        (engine.pool tag).dmaTail + 255 := by
      rintro rfl
      have served := recent.waiting_of_refused few wellFormed queued refused
      have room := (wellFormed (engine.pool visited).walkDirection).room
      omega
    have unspent := (@card_unspent_le Tag _ engine).trans card_ungiven_le
    dsimp only at bound ⊢
    split
    next member =>
      rw [if_pos (List.mem_cons_of_mem _ member)] at bound
      omega
    next absent =>
      by_cases same : visited = tag
      · have := waits same
        omega
      · rw [if_neg (by simp [absent, Ne.symm same])] at bound
        omega

end

omit [Fintype Tag] in
/-- The commands that a request adds are paid by the slot that it uses. -/
theorem issued_give (direction' : Direction) {direction : Direction}
    {commands : List DmaCommand} (gives : Gives engine engine' tag direction commands) :
    (engine'.dma direction').issued ≤ (engine.dma direction').issued + 4 := by
  unfold AutoDma.issued
  by_cases same : direction' = direction
  · rw [(Records.fifo_give gives direction').2.1 same, List.length_append]
    exact Nat.add_le_add_left gives.few _
  · rw [(Records.fifo_give gives direction').2.2 same]
    exact Nat.le_add_right _ _

variable {Trusted : ReqQueueType → Direction → Prop}

theorem drop {which : ReqQueueType} {rest : List Tag} (recent : Recent engine)
    (drops : Drops engine engine' tag which rest) : Recent engine' := by
  intro other queued
  have given : engine'.Given other := .inl queued
  obtain ⟨differs, _, same⟩ := Records.given_drop drops given
  rw [same] at queued ⊢
  rw [drops.dma]
  have bound := recent other queued
  have fewer := Finset.card_le_card (unspent_drop drops)
  have walk := drops.walk
  have walk' := drops.walk'
  unfold budget allowance at bound ⊢
  cases before : engine.poll with
  | idle | nand =>
    rw [before] at walk
    cases walk
  | nvmeDma remaining done =>
    rw [before] at walk bound
    cases walk
    cases after : engine'.poll with
    | nvmeDma remaining' done' =>
      rw [after] at walk'
      cases walk'
      dsimp only at bound ⊢
      simp only [List.mem_cons, differs, false_or] at bound
      omega
    | _ =>
      rw [after] at walk'
      cases walk'
  | customCmd remaining done =>
    rw [before] at walk bound
    cases walk
    cases after : engine'.poll with
    | customCmd remaining' done' =>
      dsimp only at bound ⊢
      omega
    | _ =>
      rw [after] at walk'
      cases walk'

theorem step (recent : Recent engine) (few : Fintype.card Tag < 2 ^ 16)
    (wellFormed : ∀ direction, (engine.dma direction).WellFormed)
    (move : DmaMove Trusted engine engine') : Recent engine' := by
  cases move with
  | aside still free poll =>
    intro tag queued
    have given : engine.Given tag := (still.given tag).1 (.inl queued)
    have core := still.core tag given
    rw [Request.field_of_core (·.reqQueueType) (fun _ => rfl) core] at queued
    apply recent.pollStep few wellFormed poll queued core
    · rw [still.dma, ungiven_aside still]
    · intro busy
      rw [still.dma]
      have fewer := Finset.card_le_card (unspent_aside still (free busy))
      omega
  | serve served =>
    have dma := Records.dma_serve served
    obtain ⟨command, _, rfl⟩ := Option.map_eq_some_iff.1 served
    intro tag queued
    unfold AutoDma.issued
    rw [(dma _).1]
    exact recent tag queued
  | @give tag direction commands gives _ =>
    intro other queued
    by_cases same : other = tag
    · subst same
      have given := @card_ungiven_le Tag _ engine'
      have spent := @card_unspent_le Tag _ engine'
      rw [gives.direct, gives.tail]
      unfold budget allowance
      cases engine'.poll with
      | nvmeDma remaining done =>
        dsimp only
        split <;> omega
      | _ =>
        dsimp only
        omega
    · have core := gives.others other same
      rw [Request.field_of_core (·.reqQueueType) (fun _ => rfl) core] at queued
      have more := issued_give (engine.pool other).walkDirection gives
      apply recent.pollStep few wellFormed gives.poll queued core
      · have fewer := ungiven_give gives
        omega
      · intro _
        have fewer := unspent_give gives
        omega
  | drop drops => exact recent.drop drops

end Recent

end Recent

/-- Every command that the DMA engine was given for the request is served. -/
def DmaDone (engine : Engine Tag) (tag : Tag) : Prop :=
  ∀ index command, (engine.dma (engine.pool tag).walkDirection).fifo[index]? = some command →
    command.sliceNo = (engine.pool tag).sliceNo →
    index < (engine.dma (engine.pool tag).walkDirection).served

theorem Records.dmaDone_iff {Trusted : ReqQueueType → Direction → Prop} {engine : Engine Tag}
    {tag : Tag} (records : Records Trusted engine) (given : engine.Given tag) :
    engine.DmaDone tag ↔
      (engine.pool tag).dmaTail ≤ (engine.dma (engine.pool tag).walkDirection).served := by
  constructor
  · intro done
    obtain ⟨index, command, found, slice, last⟩ := records.last tag given
    rw [← last]
    exact done index command found slice
  · intro passed index command found slice
    exact (records.own tag given _ index command found slice).2.trans_le passed

/-- What can happen during a call of `CheckDoneNvmeDmaReq`: the DMA engine works, and the walk
visits the next request. -/
def InNvmeDmaWalk (engine : Engine Tag) : Event Tag → Prop
  | .serve _ => True
  | .visit _ => ∃ tag rest done, engine.poll = .nvmeDma (tag :: rest) done
  | _ => False

/-- The request was removed since the walk began, or the walk has still to visit it and the
DMA engine has passed its record. -/
def Settling (engine : Engine Tag) (tag : Tag) : Prop :=
  (engine.pool tag).reqQueueType = some .free ∨
    ∃ remaining done, engine.poll = .nvmeDma remaining done ∧ tag ∈ remaining ∧
      (engine.pool tag).reqQueueType = some .nvmeDma ∧
      (engine.pool tag).dmaTail ≤ (engine.dma (engine.pool tag).walkDirection).served

section Walk

variable [Fintype Tag] [DecidableEq Tag]

/-- What is known at every moment of a run about the requests of the NVMe-DMA queue. -/
structure WalkSound (engine : Engine Tag) (inHand : Option Tag) : Prop where
  dma : DmaSound InIssueOrder engine inHand
  recent : Recent engine
  lowLevel : LowLevel engine

variable {engine engine' : Engine Tag} {tag : Tag} {rest : List Tag} {done : Direction → Bool}
  {allowed : Engine Tag → Event Tag → Prop}

theorem Recent.steps {Trusted : ReqQueueType → Direction → Prop} (recent : Recent engine)
    (few : Fintype.card Tag < 2 ^ 16) (records : Records Trusted engine)
    (moves : ReflTransGen (DmaMove Trusted) engine engine') : Recent engine' := by
  have both : Records Trusted engine' ∧ Recent engine' := by
    induction moves with
    | refl => exact ⟨records, recent⟩
    | tail _ move ih => exact ⟨ih.1.step move, ih.2.step few ih.1.wellFormed move⟩
  exact both.2

theorem WalkSound.move (few : Fintype.card Tag < 2 ^ 16) {before after : Moment Tag}
    (sound : WalkSound before.engine before.inHand) (move : Move allowed before after) :
    WalkSound after.engine after.inHand := by
  have orderly : ∀ engine inHand pass, Queues engine inHand → RxGiven engine →
      allowed engine (.visit pass) → Orderly InIssueOrder engine :=
    fun _ _ _ queues rxGiven _ => orderly_of_rxGiven queues rxGiven
  exact ⟨sound.dma.move orderly move,
    sound.recent.steps few sound.dma.records (sound.dma.dmaMoves orderly move),
    sound.lowLevel.move sound.dma.sound move⟩

/-- An event of the call keeps the requests that were done on their way. -/
theorem Settling.step (settling : Settling engine tag) (few : Fintype.card Tag < 2 ^ 16)
    (sound : WalkSound engine none) {event : Event Tag} (inWalk : engine.InNvmeDmaWalk event)
    (taken : engine.step event = some engine') : Settling engine' tag := by
  cases event with
  | serve direction =>
    have dma := Records.dma_serve taken
    obtain ⟨command, _, rfl⟩ := Option.map_eq_some_iff.1 taken
    rcases settling with free | ⟨remaining, done, walk, member, queued, passed⟩
    · exact .inl free
    · exact .inr ⟨remaining, done, walk, member, queued, passed.trans (dma _).2.1⟩
  | visit pass =>
    obtain ⟨head, rest, done, walk⟩ := inWalk
    have visited : engine.visitNvmeDma head rest done pass = some engine' := by
      have taken' : engine.visit pass = some engine' := taken
      unfold Engine.visit at taken'
      rw [walk] at taken'
      exact taken'
    rcases visitNvmeDma_cases visited with ⟨_, spares⟩ | ⟨refused, rfl⟩
    · by_cases same : tag = head
      · subst same
        left
        have free : (({ engine with poll := .nvmeDma rest (update done
            (engine.pool tag).walkDirection true) }.dropNvmeDma tag).pool tag).reqQueueType =
              some .free := by
          simp [dropNvmeDma, Engine.putTo]
        rw [Request.field_of_core (·.reqQueueType) (fun _ => rfl)
          (spares.others tag (by rw [free]; decide))]
        exact free
      · have unchanged : ({ engine with poll := .nvmeDma rest (update done
            (engine.pool head).walkDirection true) }.dropNvmeDma head).pool tag =
              engine.pool tag :=
          (Fresh.pool_putTo_of_ne same).trans (Fresh.pool_takeFrom_of_ne same)
        have others := spares.others tag
        rw [unchanged] at others
        rcases settling with free | ⟨remaining, done', walk', member, queued, passed⟩
        · left
          rw [Request.field_of_core (·.reqQueueType) (fun _ => rfl)
            (others (by rw [free]; decide))]
          exact free
        · have core := others (by rw [queued]; decide)
          rw [walk] at walk'
          cases walk'
          refine .inr ⟨rest, _, spares.poll, List.mem_of_ne_of_mem same member, ?_, ?_⟩
          · rw [Request.field_of_core (·.reqQueueType) (fun _ => rfl) core]
            exact queued
          · rw [Records.dmaTail_of_core core, Records.walkDirection_of_core core, spares.served]
            exact passed
    · rcases settling with free | ⟨remaining, done', walk', member, queued, passed⟩
      · exact .inl free
      · rw [walk] at walk'
        cases walk'
        rcases List.mem_cons.1 member with rfl | later
        · have waits := sound.recent.waiting_of_refused few sound.dma.records.wellFormed queued
            (Bool.or_eq_false_iff.1 refused).2
          exact absurd passed (Nat.not_le_of_lt waits)
        · exact .inr ⟨rest, _, rfl, later, queued, passed⟩
  | _ => exact inWalk.elim

end Walk

end Engine

theorem Config.initial_walkSound (config : Config) : config.initial.WalkSound none where
  dma := config.initial_dmaSound _
  recent := by
    intro tag queued
    cases queued
  lowLevel := by
    intro tag listed
    cases listed

theorem Config.card_lt (config : Config) : Fintype.card config.Tag < 2 ^ 16 :=
  (Fintype.card_fin _).trans_lt config.poolSize_lt

theorem walkSound_of_run {config : Config}
    {allowed : Engine config.Tag → Event config.Tag → Prop} {engine : Engine config.Tag}
    (run : ReflTransGen (EventStep Engine.step allowed) config.initial engine) :
    engine.WalkSound none :=
  run_of_moves Engine.WalkSound config.initial_walkSound
    (fun _ _ sound move => sound.move config.card_lt move) run

section Call

variable {config : Config} {engine : Engine config.Tag} {tag : config.Tag}
  {rest : List config.Tag} {done : Direction → Bool}

theorem visitNvmeDma_of_step {pass : Bool} {engine' : Engine config.Tag}
    (walk : engine.poll = .nvmeDma (tag :: rest) done)
    (taken : engine.step (.visit pass) = some engine') :
    engine.visitNvmeDma tag rest done pass = some engine' := by
  have visited : engine.visit pass = some engine' := taken
  unfold Engine.visit at visited
  rw [walk] at visited
  exact visited

/-- A request that leaves the queue in a visit is the one that is visited. -/
theorem eq_of_gone {pass : Bool} {engine' : Engine config.Tag} {gone : config.Tag}
    (sound : engine.WalkSound none) (sound' : engine'.WalkSound none)
    (visited : engine.visitNvmeDma tag rest done pass = some engine')
    (queued : gone ∈ engine.queue .nvmeDma) (absent : gone ∉ engine'.queue .nvmeDma) :
    gone = tag ∧ engine.answered tag done = true := by
  have marked := sound.dma.sound.queues.mem_iff.1 queued
  rcases Engine.visitNvmeDma_cases visited with ⟨answered, spares⟩ | ⟨_, rfl⟩
  · refine ⟨?_, answered⟩
    by_contra differs
    have unchanged : ({ engine with poll := .nvmeDma rest (update done
        (engine.pool tag).walkDirection true) }.dropNvmeDma tag).pool gone = engine.pool gone :=
      (Engine.Fresh.pool_putTo_of_ne differs).trans (Engine.Fresh.pool_takeFrom_of_ne differs)
    have core := spares.others gone (by rw [unchanged, marked]; decide)
    rw [unchanged] at core
    apply absent
    rw [sound'.dma.sound.queues.mem_iff,
      Request.field_of_core (·.reqQueueType) (fun _ => rfl) core]
    exact marked
  · exact absurd queued absent

theorem reaches_of_serves {served : Engine config.Tag} (serves : engine.DmaServes served) :
    ReflTransGen (EventStep Engine.step fun _ _ => True) engine served := by
  induction serves with
  | refl => exact .refl
  | tail _ last ih =>
    obtain ⟨direction, served⟩ := last
    exact ih.tail ⟨.serve direction, trivial, served⟩

/-- The call of `CheckDoneNvmeDmaReq` begins. -/
theorem startPoll_eq {started : Engine config.Tag} (begun : engine.step .startPoll = some started) :
    engine.poll = .idle ∧ engine.polls = true ∧ started = { engine with
      poll := .nvmeDma (engine.queue .nvmeDma).reverse fun _ => false } := by
  unfold Engine.step at begun
  dsimp only at begun
  split at begun
  next idle =>
    split at begun
    next polls => exact ⟨idle, polls, (Option.some.inj begun).symm⟩
    · cases begun
  · cases begun

theorem settling_of_walk {started final : Engine config.Tag}
    (run : ReflTransGen (EventStep Engine.step fun _ _ => True)
      config.initial started)
    (settling : started.Settling tag)
    (call : ReflTransGen (EventStep Engine.step Engine.InNvmeDmaWalk)
      started final) :
    ReflTransGen (EventStep Engine.step fun _ _ => True)
      config.initial final ∧ final.Settling tag := by
  induction call with
  | refl => exact ⟨run, settling⟩
  | tail _ last ih =>
    obtain ⟨event, inWalk, taken⟩ := last
    obtain ⟨reached, before⟩ := ih
    exact ⟨reached.tail ⟨event, trivial, taken⟩,
      before.step config.card_lt (walkSound_of_run reached) inWalk taken⟩

end Call

/-- Two reads of one slice each that use one entry of R-Buf; the DMA engine serves the first
one. -/
def firstReadServedEvents {Tag : Type} : List (Event Tag) :=
  .command (.read 0 0 3) :: List.replicate 8 (.advance ⟨[], true⟩) ++
    .command (.read 1 4 3) :: List.replicate 8 (.advance ⟨[], true⟩) ++
    List.replicate 4 (.serve .tx)

theorem firstReadServedEvents_run :
    (runEvents Engine.step firstReadServedEvents Config.oneDie.initial).isSome =
      true := by
  decide

def firstReadServed : Engine Config.oneDie.Tag :=
  (runEvents Engine.step firstReadServedEvents Config.oneDie.initial).get
    firstReadServedEvents_run

theorem firstReadServed_polls : (firstReadServed.step .startPoll).isSome = true := by
  decide

/-- The call of `CheckDoneNvmeDmaReq` begins. -/
def firstReadStarted : Engine Config.oneDie.Tag :=
  (firstReadServed.step .startPoll).get firstReadServed_polls

theorem firstReadStarted_visits : (firstReadStarted.step (.visit true)).isSome = true := by
  decide

def firstReadWalked : Engine Config.oneDie.Tag :=
  (firstReadStarted.step (.visit true)).get firstReadStarted_visits

end RwRbuf.Firmware.Requests
