import RwRbuf.Firmware.DmaMoves
import RwRbuf.Firmware.RequestWaits

/-! # The order of the DMA requests

The commands of a request stand in the list of its direction, before the place that it
recorded.  In a queue whose requests are given when they are appended, the records grow along
the queue.  So one positive answer is good for all requests before the one that was asked
for, and a request that a walk removes was served.
-/

namespace RwRbuf.Firmware.Requests

open Function Relation

variable {Tag : Type}

namespace Engine

def InOrder (engine : Engine Tag) (direction : Direction) (first second : Tag) : Prop :=
  engine.Given first → engine.Given second → (engine.pool first).walkDirection = direction →
    (engine.pool second).walkDirection = direction →
    (engine.pool first).dmaTail ≤ (engine.pool second).dmaTail

/-- What the records of the requests say about the commands of the DMA engine.  `Trusted` are
the queues and directions in which the requests stand in the order in which they were given. -/
structure Records (Trusted : ReqQueueType → Direction → Prop) (engine : Engine Tag) : Prop where
  wellFormed : ∀ direction, (engine.dma direction).WellFormed
  tail_le : ∀ tag, engine.Given tag →
    (engine.pool tag).dmaTail ≤ (engine.dma (engine.pool tag).walkDirection).issued
  own : ∀ tag, engine.Given tag → ∀ direction index command,
    (engine.dma direction).fifo[index]? = some command →
    command.sliceNo = (engine.pool tag).sliceNo →
    direction = (engine.pool tag).walkDirection ∧ index < (engine.pool tag).dmaTail
  last : ∀ tag, engine.Given tag → ∃ index command,
    (engine.dma (engine.pool tag).walkDirection).fifo[index]? = some command ∧
      command.sliceNo = (engine.pool tag).sliceNo ∧ index + 1 = (engine.pool tag).dmaTail
  known : ∀ direction, ∀ command ∈ (engine.dma direction).fifo,
    command.sliceNo ∈ engine.finished ∨
      ∃ tag, engine.Given tag ∧ (engine.pool tag).sliceNo = command.sliceNo ∧
        (engine.pool tag).dataBuf = some command.target
  ordered : ∀ which direction, IsDmaQueue which → Trusted which direction →
    (engine.queue which).Pairwise (engine.InOrder direction)
  answered : ∀ which remaining direction, engine.poll.walk = some (which, remaining) →
    engine.poll.done direction = true → Trusted which direction →
    ∀ tag ∈ remaining, engine.Given tag → (engine.pool tag).walkDirection = direction →
      (engine.pool tag).dmaTail ≤ (engine.dma direction).served
  served : ∀ direction, (∀ which, IsDmaQueue which → Trusted which direction) →
    ∀ index command, (engine.dma direction).fifo[index]? = some command →
      command.sliceNo ∈ engine.finished → index < (engine.dma direction).served

namespace Records

variable {engine engine' : Engine Tag} {tag : Tag} {Trusted : ReqQueueType → Direction → Prop}

section

variable {request request' : Request Tag} (same : request'.core = request.core)
include same

theorem walkDirection_of_core : request'.walkDirection = request.walkDirection :=
  Request.field_of_core Request.walkDirection (fun _ => rfl) same

theorem dmaTail_of_core : request'.dmaTail = request.dmaTail :=
  Request.field_of_core (·.dmaTail) (fun _ => rfl) same

theorem sliceNo_of_core : request'.sliceNo = request.sliceNo :=
  Request.field_of_core (·.sliceNo) (fun _ => rfl) same

theorem dataBuf_of_core : request'.dataBuf = request.dataBuf :=
  Request.field_of_core (·.dataBuf) (fun _ => rfl) same

end

theorem inOrder_of_core {first second : Tag} {direction : Direction}
    (given : ∀ tag, tag = first ∨ tag = second → engine'.Given tag →
      engine.Given tag ∧ (engine'.pool tag).core = (engine.pool tag).core)
    (inOrder : engine.InOrder direction first second) : engine'.InOrder direction first second := by
  intro givenFirst givenSecond directFirst directSecond
  obtain ⟨before, same⟩ := given first (.inl rfl) givenFirst
  obtain ⟨before', same'⟩ := given second (.inr rfl) givenSecond
  rw [walkDirection_of_core same] at directFirst
  rw [walkDirection_of_core same'] at directSecond
  rw [dmaTail_of_core same, dmaTail_of_core same']
  exact inOrder before before' directFirst directSecond

theorem aside (records : Records Trusted engine) (still : DmaAside engine engine')
    (poll : PollStep engine engine') : Records Trusted engine' := by
  have given : ∀ tag, engine'.Given tag →
      engine.Given tag ∧ (engine'.pool tag).core = (engine.pool tag).core := by
    intro tag given
    have before := (still.given tag).1 given
    exact ⟨before, still.core tag before⟩
  constructor
  · intro direction
    rw [still.dma]
    exact records.wellFormed direction
  · intro tag after
    obtain ⟨before, same⟩ := given tag after
    rw [dmaTail_of_core same, walkDirection_of_core same, still.dma]
    exact records.tail_le tag before
  · intro tag after
    obtain ⟨before, same⟩ := given tag after
    rw [dmaTail_of_core same, walkDirection_of_core same, sliceNo_of_core same, still.dma]
    exact records.own tag before
  · intro tag after
    obtain ⟨before, same⟩ := given tag after
    rw [dmaTail_of_core same, walkDirection_of_core same, sliceNo_of_core same, still.dma]
    exact records.last tag before
  · intro direction command member
    rw [still.dma] at member
    rw [still.finished]
    rcases records.known direction command member with finished | ⟨tag, before, same, target⟩
    · exact .inl finished
    · have core := still.core tag before
      exact .inr ⟨tag, (still.given tag).2 before, (sliceNo_of_core core).trans same,
        (dataBuf_of_core core).trans target⟩
  · intro which direction isDma trusted
    obtain ⟨new, queue, fresh⟩ := still.queue which isDma
    rw [queue, List.pairwise_append]
    refine ⟨?_, ?_, ?_⟩
    · apply (records.ordered which direction isDma trusted).imp
      intro first second inOrder
      exact inOrder_of_core (fun tag _ => given tag) inOrder
    · apply List.pairwise_of_forall_mem_list
      intro first member second _ givenFirst
      exact absurd givenFirst (fresh first member)
    · intro first _ second member _ givenSecond
      exact absurd givenSecond (fresh second member)
  · intro which remaining direction walk done trusted tag member after direct
    obtain ⟨before, walk', done', subset⟩ := poll.answer walk done
    obtain ⟨givenBefore, same⟩ := given tag after
    rw [walkDirection_of_core same] at direct
    rw [dmaTail_of_core same, still.dma]
    exact records.answered which before direction walk' done' trusted tag (subset member)
      givenBefore direct
  · intro direction trusted
    rw [still.dma, still.finished]
    exact records.served direction trusted

section Serve

/-- The lists of the commands stay, and the number of served ones does not fall. -/
theorem dma_serve {direction : Direction} (served : engine.serve direction = some engine')
    (other : Direction) :
    (engine'.dma other).fifo = (engine.dma other).fifo ∧
      (engine.dma other).served ≤ (engine'.dma other).served ∧
      ((engine.dma other).WellFormed → (engine'.dma other).WellFormed) := by
  obtain ⟨command, found, rfl⟩ := Option.map_eq_some_iff.1 served
  by_cases same : other = direction
  · subst same
    dsimp only
    rw [update_self]
    refine ⟨rfl, Nat.le_succ _, fun wellFormed => ?_⟩
    constructor
    · exact (List.getElem?_eq_some_iff.1 found).1
    · exact wellFormed.room.trans (Nat.add_le_add_right (Nat.le_succ _) 255)
  · dsimp only
    rw [update_of_ne same]
    exact ⟨rfl, Nat.le_refl _, id⟩

theorem serve {direction : Direction} (records : Records Trusted engine)
    (served : engine.serve direction = some engine') : Records Trusted engine' := by
  have dma := dma_serve served
  obtain ⟨command, found, rfl⟩ := Option.map_eq_some_iff.1 served
  constructor
  · intro other
    exact (dma other).2.2 (records.wellFormed other)
  · intro tag given
    unfold AutoDma.issued
    rw [(dma _).1]
    exact records.tail_le tag given
  · intro tag given other index own
    rw [(dma other).1]
    exact records.own tag given other index own
  · intro tag given
    obtain ⟨index, own, member, slice, last⟩ := records.last tag given
    refine ⟨index, own, ?_, slice, last⟩
    rw [(dma _).1]
    exact member
  · intro other own member
    rw [(dma other).1] at member
    exact records.known other own member
  · exact records.ordered
  · intro which remaining other walk done trusted tag member given direct
    exact (records.answered which remaining other walk done trusted tag member given
      direct).trans (dma other).2.1
  · intro other trusted index own member finished
    rw [(dma other).1] at member
    exact (records.served other trusted index own member finished).trans_le (dma other).2.1

end Serve

section Give

variable [DecidableEq Tag] {direction : Direction} {commands : List DmaCommand}

section

variable (gives : Gives engine engine' tag direction commands)
include gives

theorem fifo_give (other : Direction) :
    (engine'.dma other).served = (engine.dma other).served ∧
      (other = direction → (engine'.dma other).fifo = (engine.dma other).fifo ++ commands) ∧
      (other ≠ direction → (engine'.dma other).fifo = (engine.dma other).fifo) := by
  rw [gives.dma]
  by_cases same : other = direction
  · subst same
    rw [update_self]
    exact ⟨rfl, fun _ => rfl, fun different => absurd rfl different⟩
  · rw [update_of_ne same]
    exact ⟨rfl, fun equal => absurd equal same, fun _ => rfl⟩

/-- A command was there before, or it is one of those that are given. -/
theorem command_give {other : Direction} {index : Nat} {command : DmaCommand}
    (found : (engine'.dma other).fifo[index]? = some command) :
    (engine.dma other).fifo[index]? = some command ∨
      (other = direction ∧ command ∈ commands ∧ index < (engine'.dma other).issued) := by
  have inside : index < (engine'.dma other).issued := (List.getElem?_eq_some_iff.1 found).1
  by_cases same : other = direction
  · rw [(fifo_give gives other).2.1 same] at found
    rcases Nat.lt_or_ge index (engine.dma other).fifo.length with old | new
    · rw [List.getElem?_append_left old] at found
      exact .inl found
    · rw [List.getElem?_append_right new] at found
      exact .inr ⟨same, List.mem_of_getElem? found, inside⟩
  · rw [(fifo_give gives other).2.2 same] at found
    exact .inl found

theorem issued_give (other : Direction) :
    (engine.dma other).issued ≤ (engine'.dma other).issued := by
  unfold AutoDma.issued
  by_cases same : other = direction
  · rw [(fifo_give gives other).2.1 same, List.length_append]
    exact Nat.le_add_right _ _
  · rw [(fifo_give gives other).2.2 same]

theorem old_command_give {other : Direction} {index : Nat} {command : DmaCommand}
    (found : (engine.dma other).fifo[index]? = some command) :
    (engine'.dma other).fifo[index]? = some command := by
  by_cases same : other = direction
  · rw [(fifo_give gives other).2.1 same,
      List.getElem?_append_left (List.getElem?_eq_some_iff.1 found).1]
    exact found
  · rw [(fifo_give gives other).2.2 same]
    exact found

theorem given_give {other : Tag} (differs : other ≠ tag) (given : engine'.Given other) :
    engine.Given other ∧ (engine'.pool other).core = (engine.pool other).core :=
  ⟨(given_of_core (gives.others other differs)).1 given, gives.others other differs⟩

end

theorem slice_fresh (records : Records Trusted engine)
    (gives : Gives engine engine' tag direction commands) {other : Direction}
    {command : DmaCommand} (member : command ∈ (engine.dma other).fifo) :
    command.sliceNo ≠ (engine.pool tag).sliceNo := by
  intro same
  rcases records.known other command member with finished | ⟨owner, given, slice, _⟩
  · rw [same] at finished
    exact gives.unfinished finished
  · exact gives.distinct owner given (slice.trans same)

theorem ordered_give (records : Records Trusted engine)
    (gives : Gives engine engine' tag direction commands)
    (orderly : ∀ which front back, IsDmaQueue which → Trusted which direction →
      engine'.queue which = front ++ tag :: back →
      ∀ other ∈ back, engine.Given other → (engine.pool other).walkDirection ≠ direction)
    {which : ReqQueueType} {other : Direction} (isDma : IsDmaQueue which)
    (trusted : Trusted which other) : (engine'.queue which).Pairwise (engine'.InOrder other) := by
  have before := records.ordered which other isDma trusted
  -- a request with an older record stands anywhere before the request
  have behind : ∀ first, first ≠ tag → engine'.InOrder other first tag := by
    intro first differs givenFirst _ directFirst directTag
    obtain ⟨given, same⟩ := given_give gives differs givenFirst
    rw [dmaTail_of_core same, gives.tail, ← gives.direct, directTag]
    rw [walkDirection_of_core same] at directFirst
    have tail := records.tail_le first given
    rw [directFirst] at tail
    exact tail.trans (issued_give gives other)
  have unchanged : ∀ {first second : Tag}, first ≠ tag → second ≠ tag →
      engine.InOrder other first second → engine'.InOrder other first second := by
    intro first second differs differs' inOrder
    apply inOrder_of_core _ inOrder
    rintro item (rfl | rfl) given
    · exact given_give gives differs given
    · exact given_give gives differs' given
  rw [List.pairwise_iff_forall_sublist]
  intro first second sublist
  by_cases isSecond : second = tag
  · rw [isSecond]
    by_cases isFirst : first = tag
    · rw [isFirst]
      exact fun _ _ _ _ => Nat.le_refl _
    · exact behind first isFirst
  · by_cases isFirst : first = tag
    · -- a request behind the one that is given was not given before
      subst isFirst
      intro _ givenSecond directTag directSecond
      obtain ⟨given, same⟩ := given_give gives isSecond givenSecond
      rw [gives.direct] at directTag
      rw [walkDirection_of_core same] at directSecond
      obtain ⟨front, back, split, member⟩ : ∃ front back,
          engine'.queue which = front ++ first :: back ∧ second ∈ back := by
        obtain ⟨init, last, split, member, sublist⟩ := List.cons_sublist_iff.1 sublist
        obtain ⟨front, back, rfl⟩ := List.append_of_mem member
        refine ⟨front, back ++ last, by rw [split]; simp, ?_⟩
        exact List.mem_append_right _ (List.singleton_sublist.1 sublist)
      exact absurd (directSecond.trans directTag.symm)
        (orderly which front back isDma (directTag ▸ trusted) split second member given)
    · apply unchanged isFirst isSecond
      rcases gives.queue which isDma with same | ⟨appended, _⟩
      · rw [same] at sublist
        exact List.pairwise_iff_forall_sublist.1 before sublist
      · have filtered := sublist.filter (fun item => decide (item ≠ tag))
        rw [appended] at filtered
        have inside : List.Sublist [first, second]
            ((engine.queue which).filter (fun item => item ≠ tag)) := by
          simpa [isFirst, isSecond] using filtered
        exact List.pairwise_iff_forall_sublist.1 before (inside.trans List.filter_sublist)

theorem last_give (gives : Gives engine engine' tag direction commands) :
    ∃ index command, (engine'.dma direction).fifo[index]? = some command ∧
      command.sliceNo = (engine.pool tag).sliceNo ∧ index + 1 = (engine'.dma direction).issued := by
  obtain ⟨init, command, rfl⟩ : ∃ init command, commands = init ++ [command] := by
    rcases List.eq_nil_or_concat commands with empty | ⟨init, command, concat⟩
    · exact absurd empty gives.pos
    · exact ⟨init, command, concat.trans List.concat_eq_append⟩
  have fifo : (engine'.dma direction).fifo =
      ((engine.dma direction).fifo ++ init) ++ [command] := by
    rw [(fifo_give gives direction).2.1 rfl, List.append_assoc]
  refine ⟨((engine.dma direction).fifo ++ init).length, command, ?_, ?_, ?_⟩
  · rw [fifo, List.getElem?_concat_length]
  · exact gives.ofSlice command (List.mem_append_right _ (List.mem_singleton_self command))
  · unfold AutoDma.issued
    rw [fifo, List.length_append, List.length_append, List.length_append, List.length_singleton]

theorem give (records : Records Trusted engine)
    (gives : Gives engine engine' tag direction commands)
    (orderly : ∀ which front back, IsDmaQueue which → Trusted which direction →
      engine'.queue which = front ++ tag :: back →
      ∀ other ∈ back, engine.Given other → (engine.pool other).walkDirection ≠ direction) :
    Records Trusted engine' := by
  constructor
  · intro other
    rw [gives.dma]
    by_cases same : other = direction
    · subst same
      rw [update_self]
      exact (records.wellFormed other).issue gives.accepted
    · rw [update_of_ne same]
      exact records.wellFormed other
  · intro other given
    by_cases same : other = tag
    · rw [same, gives.tail, gives.direct]
    · obtain ⟨before, core⟩ := given_give gives same given
      rw [dmaTail_of_core core, walkDirection_of_core core]
      exact (records.tail_le other before).trans (issued_give gives _)
  · intro other given direct index command found slice
    by_cases same : other = tag
    · subst same
      rw [gives.sliceNo] at slice
      rw [gives.direct, gives.tail]
      rcases command_give gives found with old | ⟨isDirection, _, inside⟩
      · exact absurd slice (slice_fresh records gives (List.mem_of_getElem? old))
      · exact ⟨isDirection, isDirection ▸ inside⟩
    · obtain ⟨before, core⟩ := given_give gives same given
      rw [sliceNo_of_core core] at slice
      rw [walkDirection_of_core core, dmaTail_of_core core]
      rcases command_give gives found with old | ⟨_, new, _⟩
      · exact records.own other before direct index command old slice
      · rw [gives.ofSlice command new] at slice
        exact absurd slice.symm (gives.distinct other before)
  · intro other given
    by_cases same : other = tag
    · rw [same, gives.direct, gives.sliceNo, gives.tail]
      exact last_give gives
    · obtain ⟨before, core⟩ := given_give gives same given
      rw [dmaTail_of_core core, walkDirection_of_core core, sliceNo_of_core core]
      obtain ⟨index, command, found, slice, last⟩ := records.last other before
      exact ⟨index, command, old_command_give gives found, slice, last⟩
  · intro direct command member
    rw [gives.finished]
    obtain ⟨index, found⟩ := List.mem_iff_getElem?.1 member
    rcases command_give gives found with old | ⟨_, new, _⟩
    · rcases records.known direct command (List.mem_of_getElem? old) with finished | known
      · exact .inl finished
      · obtain ⟨owner, given, slice, target⟩ := known
        have differs : owner ≠ tag := by
          rintro rfl
          exact gives.notGiven given
        have core := gives.others owner differs
        exact .inr ⟨owner, (given_of_core core).2 given, (sliceNo_of_core core).trans slice,
          (dataBuf_of_core core).trans target⟩
    · exact .inr ⟨tag, gives.given, gives.sliceNo.trans (gives.ofSlice command new).symm,
        gives.dataBuf.trans (gives.target command new)⟩
  · intro which direct isDma trusted
    exact ordered_give records gives orderly isDma trusted
  · intro which remaining direct walk done trusted other member given walks
    have differs : other ≠ tag := by
      rintro rfl
      exact gives.unvisited which remaining walk member
    obtain ⟨before, core⟩ := given_give gives differs given
    obtain ⟨remaining', walk', done', subset⟩ := gives.poll.answer walk done
    rw [walkDirection_of_core core] at walks
    rw [dmaTail_of_core core, (fifo_give gives direct).1]
    exact records.answered which remaining' direct walk' done' trusted other (subset member)
      before walks
  · intro direct trusted index command found finished
    rw [gives.finished] at finished
    rw [(fifo_give gives direct).1]
    rcases command_give gives found with old | ⟨_, new, _⟩
    · exact records.served direct trusted index command old finished
    · rw [gives.ofSlice command new] at finished
      exact absurd finished gives.unfinished

end Give

/-- The DMA engine has passed the record of a request that is visited, if the answer is
positive. -/
theorem passed_of_answer {which : ReqQueueType} {rest : List Tag}
    (records : Records Trusted engine) (walk : engine.poll.walk = some (which, tag :: rest))
    (given : engine.Given tag) (trusted : Trusted which (engine.pool tag).walkDirection)
    (answer : engine.poll.done (engine.pool tag).walkDirection = true ∨
      (engine.dma (engine.pool tag).walkDirection).partialDone (engine.pool tag).dmaTail = true) :
    (engine.pool tag).dmaTail ≤ (engine.dma (engine.pool tag).walkDirection).served := by
  rcases answer with done | answer
  · exact records.answered which _ _ walk done trusted tag List.mem_cons_self given rfl
  · exact AutoDma.le_served_of_partialDone (records.wellFormed _) (records.tail_le tag given)
      answer

section Drop

variable [DecidableEq Tag] {which : ReqQueueType} {rest : List Tag}

theorem given_drop (drops : Drops engine engine' tag which rest) {other : Tag}
    (given : engine'.Given other) :
    other ≠ tag ∧ engine.Given other ∧ engine'.pool other = engine.pool other := by
  have differs : other ≠ tag := by
    rintro rfl
    exact not_given_of_mark drops.free (by decide) (by decide) given
  have same := drops.others other differs
  refine ⟨differs, ?_, same⟩
  exact (given_of_core (congrArg Request.core same)).1 given

section

variable (records : Records Trusted engine) (drops : Drops engine engine' tag which rest)
include records drops

/-- The DMA engine has passed the record of a request that is removed. -/
theorem passed (trusted : Trusted which (engine.pool tag).walkDirection) :
    (engine.pool tag).dmaTail ≤ (engine.dma (engine.pool tag).walkDirection).served :=
  records.passed_of_answer drops.walk drops.given trusted drops.answer

/-- The requests that the walk has still to visit stand before the one that it removes. -/
theorem inOrder_rest (trusted : Trusted which (engine.pool tag).walkDirection) {other : Tag}
    (member : other ∈ rest) : engine.InOrder (engine.pool tag).walkDirection other tag := by
  have ordered := (records.ordered which _ drops.isDma trusted).sublist drops.inFront.sublist
  rw [List.reverse_cons, List.pairwise_append] at ordered
  exact ordered.2.2 other (List.mem_reverse.2 member) tag (List.mem_singleton_self tag)

theorem drop : Records Trusted engine' := by
  constructor
  · rw [drops.dma]
    exact records.wellFormed
  · intro other given
    obtain ⟨_, before, same⟩ := given_drop drops given
    rw [same, drops.dma]
    exact records.tail_le other before
  · intro other given
    obtain ⟨_, before, same⟩ := given_drop drops given
    rw [same, drops.dma]
    exact records.own other before
  · intro other given
    obtain ⟨_, before, same⟩ := given_drop drops given
    rw [same, drops.dma]
    exact records.last other before
  · intro direct command member
    rw [drops.dma] at member
    rw [drops.finished]
    rcases records.known direct command member with finished | ⟨owner, given, slice, target⟩
    · exact .inl (List.mem_cons_of_mem _ finished)
    · by_cases same : owner = tag
      · rw [← slice, same]
        exact .inl List.mem_cons_self
      · have kept := drops.others owner same
        refine .inr ⟨owner, (given_of_core (congrArg Request.core kept)).2 given, ?_⟩
        rw [kept]
        exact ⟨slice, target⟩
  · intro queue direct isDma trusted
    rw [drops.queue queue isDma]
    apply ((records.ordered queue direct isDma trusted).sublist List.erase_sublist).imp
    intro first second inOrder
    apply inOrder_of_core _ inOrder
    intro other _ given
    obtain ⟨_, before, same⟩ := given_drop drops given
    exact ⟨before, congrArg Request.core same⟩
  · intro queue remaining direct walk done trusted other member given walks
    obtain ⟨_, before, same⟩ := given_drop drops given
    rw [drops.walk'] at walk
    cases walk
    rw [same] at walks
    rw [same, drops.dma]
    rw [drops.done'] at done
    by_cases sameDirection : direct = (engine.pool tag).walkDirection
    · subst sameDirection
      exact (inOrder_rest records drops trusted member before drops.given walks rfl).trans
        (records.passed drops trusted)
    · rw [update_of_ne sameDirection] at done
      exact records.answered which _ direct drops.walk done trusted other
        (List.mem_cons_of_mem _ member) before walks
  · intro direct trusted index command found finished
    rw [drops.dma] at found ⊢
    rw [drops.finished] at finished
    rcases List.mem_cons.1 finished with new | old
    · obtain ⟨isDirection, inside⟩ := records.own tag drops.given direct index command found new
      subst isDirection
      exact inside.trans_le (records.passed drops (trusted which drops.isDma))
    · exact records.served direct trusted index command found old

end

end Drop

theorem step [DecidableEq Tag] (records : Records Trusted engine)
    (move : DmaMove Trusted engine engine') : Records Trusted engine' := by
  cases move with
  | aside still _ poll => exact records.aside still poll
  | serve served => exact records.serve served
  | give gives orderly => exact records.give gives orderly
  | drop drops => exact records.drop drops

theorem steps [DecidableEq Tag] (records : Records Trusted engine)
    (moves : ReflTransGen (DmaMove Trusted) engine engine') : Records Trusted engine' := by
  induction moves with
  | refl => exact records
  | tail _ move ih => exact ih.step move

end Records

section Main

variable [DecidableEq Tag] {engine : Engine Tag} {allowed : Engine Tag → Event Tag → Prop}

/-- The main loop takes requests from the free queue and the slice queue only, and it puts
none into another queue itself. -/
theorem queue_main {after : Moment Tag} (move : MainMove allowed engine after)
    {which : ReqQueueType} (notFree : which ≠ .free) (notSlice : which ≠ .slice) :
    after.engine.queue which = engine.queue which := by
  have collected : ∀ (stage : Stage Tag) (gc : GcRequest) (new : Tag),
      ({ engine with stage := stage }.prepareGc gc new).queue which = engine.queue which := by
    intro stage gc new
    unfold Engine.prepareGc
    split
    · simp [Engine.modify, Engine.takeFrom, notFree]
    · simp [Engine.updateEntryInfoBlockingReq, Engine.modify, Engine.takeFrom, notFree]
  cases move with
  | accept _ _ accepted =>
    obtain ⟨_, _, rfl⟩ := accept_eq_some accepted
    rfl
  | cutInto =>
    simp [Engine.cutInto, Engine.putTo, Engine.modify, Engine.takeFrom, notFree, notSlice]
  | hit | miss => simp [Engine.takeSlice, Engine.modify, Engine.takeFrom, notSlice]
  | holdWriteSlot => simp [Engine.holdWriteSlot, Engine.takeFrom, notFree]
  | prepareGcRead | prepareGc => exact collected _ _ _
  | prepareFetch =>
    simp [Engine.prepareFetch, Engine.updateEntryInfoBlockingReq, Engine.modify,
      Engine.takeFrom, notFree]
  | _ => rfl

end Main

/-- An Rx request goes into the custom queue only when it is given to the DMA engine. -/
def RxGiven (engine : Engine Tag) : Prop :=
  ∀ tag, (engine.pool tag).reqQueueType = some .customCmd →
    (engine.pool tag).reqCode = .rxDma → (engine.pool tag).issuedFlag = true

namespace RxGiven

variable {engine engine' : Engine Tag} {tag : Tag}

theorem of_core (rxGiven : RxGiven engine)
    (core : ∀ tag, (engine'.pool tag).core = (engine.pool tag).core ∨
      (engine'.pool tag).reqQueueType ≠ some .customCmd) : RxGiven engine' := by
  intro tag queued rx
  rcases core tag with same | elsewhere
  · rw [Request.field_of_core (·.reqQueueType) (fun _ => rfl) same] at queued
    rw [Request.field_of_core (·.reqCode) (fun _ => rfl) same] at rx
    rw [Request.field_of_core (·.issuedFlag) (fun _ => rfl) same]
    exact rxGiven tag queued rx
  · exact absurd queued elsewhere

variable [DecidableEq Tag] {allowed : Engine Tag → Event Tag → Prop}

section

variable (rxGiven : RxGiven engine)
include rxGiven

theorem touch (tag : Tag)
    (others : ∀ other, other ≠ tag → (engine'.pool other).core = (engine.pool other).core)
    (touched : (engine'.pool tag).reqQueueType = some .customCmd →
      (engine'.pool tag).reqCode = .rxDma → (engine'.pool tag).issuedFlag = true) :
    RxGiven engine' := by
  intro other queued rx
  by_cases which : other = tag
  · subst which
    exact touched queued rx
  · have same := others other which
    rw [Request.field_of_core (·.reqQueueType) (fun _ => rfl) same] at queued
    rw [Request.field_of_core (·.reqCode) (fun _ => rfl) same] at rx
    rw [Request.field_of_core (·.issuedFlag) (fun _ => rfl) same]
    exact rxGiven other queued rx

theorem putTo {which : ReqQueueType} (other : which ≠ .customCmd)
    (tag : Tag) : RxGiven (engine.putTo which tag) := by
  apply rxGiven.touch tag
  · intro other differs
    rw [Fresh.pool_putTo_of_ne differs]
  · intro queued
    simp [Engine.putTo, other] at queued

theorem takeFrom (which : ReqQueueType) (tag : Tag) : RxGiven (engine.takeFrom which tag) := by
  apply rxGiven.touch tag
  · intro other differs
    rw [Fresh.pool_takeFrom_of_ne differs]
  · intro queued
    simp [Engine.takeFrom] at queued

theorem unlinked (tag : Tag) (target : Option Tag) :
    RxGiven (Moment.release (engine.unlink tag) target).engine := by
  have linked : RxGiven (engine.unlink tag) :=
    rxGiven.of_core fun other => .inl (unlinkPool_core engine.pool tag other)
  exact Moment.release_cases (fun after _ => RxGiven after) linked fun _ _ _ =>
    linked.takeFrom _ _

/-- A request is removed from its queue and its successor is released. -/
theorem drop {ended : Engine Tag} (pool : ended.pool = engine.pool)
    (which : ReqQueueType) (tag : Tag) (target : Option Tag) :
    RxGiven (Moment.release (((ended.takeFrom which tag).putTo .free tag).unlink tag)
      target).engine := by
  have same : RxGiven ended := rxGiven.of_core fun other => .inl (by rw [pool])
  exact ((same.takeFrom which tag).putTo (by decide) tag).unlinked tag target

theorem main {after : Moment Tag} (sound : Sound engine none)
    (quiet : engine.poll = .idle) (move : MainMove allowed engine after) :
    RxGiven after.engine := by
  have still := dmaAside_main sound.queues move
  have queues : Queues after.engine after.inHand := sound.queues.move (.main quiet move)
  have keeps := keeps_of_move sound.chains sound.queues sound.tracks (.main quiet move)
  intro tag queued rx
  have before : (engine.pool tag).reqQueueType = some .customCmd := by
    rw [← queues.mem_iff, queue_main move (by decide) (by decide)] at queued
    exact sound.queues.mem_iff.1 queued
  have live : engine.Live none tag :=
    ⟨(sound.tracks.customQueue tag before).1, .inr (.inr (.inl before))⟩
  have fixed := keeps.fixed tag (live.mem_handed sound.chains)
  rw [Request.field_of_fixed (·.reqCode) (fun _ => rfl) fixed] at rx
  rcases (still.given tag).2 (.inr ⟨before, rxGiven tag before rx⟩) with other | ⟨_, flag⟩
  · rw [queued] at other
    cases other
  · exact flag

end

theorem move {before after : Moment Tag} (rxGiven : RxGiven before.engine)
    (sound : Sound before.engine before.inHand) (move : Move allowed before after) :
    RxGiven after.engine := by
  cases move with
  | serve served =>
    obtain ⟨command, _, rfl⟩ := Option.map_eq_some_iff.1 served
    exact rxGiven
  | main quiet move => exact rxGiven.main sound quiet move
  | block => exact rxGiven.putTo (by decide) _
  | toNand _ _ choice =>
    rcases choice with rfl | rfl <;> exact rxGiven.putTo (by decide) _
  | @issue engine tag direction ref _ dma direct uses _ room =>
    have gives := gives_issue sound.queues sound.tracks sound.balanced dma direct uses room
    apply rxGiven.touch tag gives.others
    intro queued _
    rcases gives.given with other | ⟨_, flag⟩
    · rw [queued] at other
      cases other
    · exact flag
  | @wait engine tag _ _ waits =>
    apply rxGiven.touch tag
    · intro other differs
      rw [Fresh.pool_putTo_of_ne differs]
    · intro _ rx
      have tx := waits.1
      rw [show ((engine.putTo .customCmd tag).pool tag).reqCode = _ from
        Request.field_of_fixed (·.reqCode) (fun _ => rfl) (fixed_putTo engine _ tag tag), tx] at rx
      cases rx
  | startPoll | startCustomPoll | startNand | endPoll | skipNvmeDma | skipCustomCmd => exact rxGiven
  | dropNvmeDma | dropCustomCmd | dropNand =>
    apply rxGiven.drop
    rfl
  | @issueWaiting engine tag rest done direction ref _ _ walk _ waiting _ direct uses room =>
    have gives := gives_issueWaiting sound.queues sound.tracks sound.balanced walk waiting direct
      uses room
    apply rxGiven.touch tag gives.others
    intro queued _
    rcases gives.given with other | ⟨_, flag⟩
    · rw [queued] at other
      cases other
    · exact flag
  | @unlinkWaiting engine tag rest done =>
    have moved : RxGiven { engine with poll := .customCmd rest done } := rxGiven
    exact moved.unlinked tag _
  | rowAddrDepDone => exact (rxGiven.takeFrom _ _).putTo (by decide) _

end RxGiven

structure DmaSound (Trusted : ReqQueueType → Direction → Prop) (engine : Engine Tag)
    (inHand : Option Tag) : Prop where
  sound : Sound engine inHand
  fresh : Fresh engine
  rxGiven : RxGiven engine
  records : Records Trusted engine

variable [DecidableEq Tag] {allowed : Engine Tag → Event Tag → Prop}
  {Trusted : ReqQueueType → Direction → Prop}

section

variable {before after : Moment Tag} (sound : DmaSound Trusted before.engine before.inHand)
  (orderly : ∀ engine inHand pass, Queues engine inHand → RxGiven engine →
    allowed engine (.visit pass) → Orderly Trusted engine)
include sound orderly

theorem DmaSound.dmaMoves (move : Move allowed before after) :
    ReflTransGen (DmaMove Trusted) before.engine after.engine :=
  dmaMoves_of_move sound.sound.queues sound.sound.tracks sound.sound.balanced sound.fresh
    (fun pass => orderly before.engine before.inHand pass sound.sound.queues sound.rxGiven) move

theorem DmaSound.move
    (move : Move allowed before after) : DmaSound Trusted after.engine after.inHand where
  sound := sound.sound.move move
  fresh := sound.fresh.move sound.sound.queues sound.sound.tracks move
  rxGiven := sound.rxGiven.move sound.sound move
  records := sound.records.steps (sound.dmaMoves orderly move)

end

/-- The requests of the NVMe-DMA queue and the Rx requests of the custom queue stand in the
order in which they were given. -/
def InIssueOrder (which : ReqQueueType) (direction : Direction) : Prop :=
  which = .nvmeDma ∨ direction = .rx

omit [DecidableEq Tag] in
theorem orderly_of_rxGiven {engine : Engine Tag} {inHand : Option Tag}
    (queues : Queues engine inHand) (rxGiven : RxGiven engine) : Orderly InIssueOrder engine := by
  intro tag rest done walk waiting _ trusted
  have walking : engine.poll.walk = some (.customCmd, tag :: rest) := by
    rw [walk]
    rfl
  have marked := queues.mem_iff.1 (queues.visited_mem walking)
  have rx : (engine.pool tag).reqCode = .rxDma := by
    rcases trusted with ⟨⟨⟩⟩ | direct
    unfold Request.walkDirection at direct
    split at direct
    next rx => exact rx
    · cases direct
  rw [rxGiven tag marked rx] at waiting
  cases waiting

end Engine

theorem Config.initial_dmaSound (config : Config)
    (Trusted : ReqQueueType → Direction → Prop) : config.initial.DmaSound Trusted none where
  sound := config.initial_sound
  fresh := by
    intro tag flag
    cases flag
  rxGiven := by
    intro tag queued
    cases queued
  records := by
    have none_given : ∀ tag, ¬config.initial.Given tag := by
      rintro tag (queued | ⟨queued, _⟩)
      · cases queued
      · cases queued
    constructor
    · intro direction
      exact ⟨Nat.le_refl _, Nat.zero_le _⟩
    · intro tag given
      exact absurd given (none_given tag)
    · intro tag given
      exact absurd given (none_given tag)
    · intro tag given
      exact absurd given (none_given tag)
    · intro direction command member
      cases member
    · rintro which direction (rfl | rfl) _
      · exact List.Pairwise.nil
      · exact List.Pairwise.nil
    · intro which remaining direction walk
      cases walk
    · intro direction _ index command found
      cases found

end RwRbuf.Firmware.Requests
