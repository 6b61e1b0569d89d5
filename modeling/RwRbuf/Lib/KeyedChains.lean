import RwRbuf.Lib.LinkedList

/-! # Chains of items by key

Items that use the same resource, their key, wait for one another in a chain.  All chains
share one table of links, and each resource knows the last item of its chain.  An item is
appended to the chain of its key and is removed when it is the first one.
-/

namespace KeyedChains

open LinkedList Function

variable {Item Key : Type*}

/-- `order` lists the items that are in use, in the order in which they were appended. -/
structure State (Item Key : Type*) where
  links : Links Item
  tail : Key → Option Item
  order : List Item
  key : Item → Option Key

namespace State

variable [DecidableEq Item] [DecidableEq Key] (state : State Item Key)

omit [DecidableEq Item] in
def chain (key : Key) : List Item := state.order.filter fun item => state.key item = some key

def append (item : Item) (key : Option Key) : State Item Key where
  links :=
    match key.bind state.tail with
    | none => state.links
    | some last => (state.links.setPrev item (some last)).setNext last (some item)
  tail :=
    match key with
    | none => state.tail
    | some key => update state.tail key (some item)
  order := state.order ++ [item]
  key := update state.key item key

def remove (item : Item) : State Item Key where
  links :=
    match state.links.next item with
    | none => state.links
    | some target => (state.links.setPrev target none).setNext item none
  tail :=
    match state.key item with
    | none => state.tail
    | some key =>
      if state.tail key = some item then update state.tail key none else state.tail
  order := state.order.erase item
  key := state.key

omit [DecidableEq Item] in
theorem mem_chain {key : Key} {item : Item} :
    item ∈ state.chain key ↔ item ∈ state.order ∧ state.key item = some key := by
  simp [chain]

/-- The links and the last items describe the chains, and an item without a chain has no
links. -/
structure Chained (state : State Item Key) : Prop where
  nodup : state.order.Nodup
  segment : ∀ key, Segment state.links none (state.chain key) none
  tail : ∀ key, state.tail key = (state.chain key).getLast?
  loose : ∀ item, (item ∈ state.order → state.key item = none) →
    state.links.prev item = none ∧ state.links.next item = none

namespace Chained

variable {state} {state' : State Item Key} {item : Item} {key : Key}

section

variable (chained : state.Chained)
include chained

omit [DecidableEq Item] in
theorem congr (links : state'.links = state.links)
    (tail : state'.tail = state.tail) (order : state'.order = state.order)
    (keys : ∀ item ∈ state.order, state'.key item = state.key item) : state'.Chained := by
  have chain : ∀ key, state'.chain key = state.chain key := by
    intro key
    unfold State.chain
    rw [order]
    apply List.filter_congr
    intro item listed
    rw [keys item listed]
  refine ⟨order ▸ chained.nodup, ?_, ?_, ?_⟩
  · intro key
    rw [links, chain]
    exact chained.segment key
  · intro key
    rw [tail, chain]
    exact chained.tail key
  · intro item outside
    rw [links]
    apply chained.loose
    intro listed
    rw [← keys item listed]
    exact outside (order ▸ listed)

omit [DecidableEq Item] in
theorem holds (key : Key) :
    Holds state.links ⟨(state.chain key).head?, state.tail key⟩ (state.chain key) :=
  ⟨chained.nodup.filter _, rfl, chained.tail key, chained.segment key⟩

omit [DecidableEq Item] in
theorem first_of_prev_none (member : item ∈ state.chain key)
    (first : state.links.prev item = none) : ∃ rest, state.chain key = item :: rest := by
  obtain ⟨front, back, split⟩ := List.append_of_mem member
  have held := chained.holds key
  rw [split] at held
  rw [held.neighbours.1, List.getLast?_eq_none_iff] at first
  exact ⟨back, by rw [split, first, List.nil_append]⟩

omit [DecidableEq Item] in
theorem key_ne_of_earlier {front back : List Item} {other : Item}
    (split : state.order = front ++ item :: back) (uses : state.key item = some key)
    (first : state.links.prev item = none) (member : other ∈ front) :
    state.key other ≠ some key := by
  intro uses'
  have chain : state.chain key = front.filter (fun item => state.key item = some key) ++
      item :: back.filter (fun item => state.key item = some key) := by
    unfold State.chain
    rw [split, List.filter_append, List.filter_cons_of_pos (by simpa using uses)]
  obtain ⟨rest, head⟩ := chained.first_of_prev_none
    (show item ∈ state.chain key by simp [chain]) first
  have nodup : (state.chain key).Nodup := (chained.holds key).nodup
  have kept : other ∈ front.filter fun item => state.key item = some key :=
    List.mem_filter.2 ⟨member, by simpa using uses'⟩
  cases filtered : front.filter fun item => state.key item = some key with
  | nil =>
    rw [filtered] at kept
    cases kept
  | cons earliest items =>
    rw [chain, filtered, List.cons_append] at head
    rw [chain, filtered, (List.cons.inj head).1] at nodup
    exact (List.nodup_append.1 nodup).2.2 item List.mem_cons_self item List.mem_cons_self rfl

omit [DecidableEq Item] in
/-- The predecessor of an item was appended to the same chain before it. -/
theorem prev_mem {before : Item} (linked : state.links.prev item = some before) :
    ∃ key front back, state.chain key = front ++ before :: item :: back := by
  have used : item ∈ state.order ∧ state.key item ≠ none := by
    by_contra unused
    have loose := (chained.loose item (by simpa using unused)).1
    rw [linked] at loose
    cases loose
  obtain ⟨key, keyEq⟩ := Option.ne_none_iff_exists'.1 used.2
  obtain ⟨front, back, split⟩ := List.append_of_mem (state.mem_chain.2 ⟨used.1, keyEq⟩)
  have held := chained.holds key
  rw [split] at held
  rw [held.neighbours.1] at linked
  obtain ⟨earlier, rfl⟩ := List.getLast?_eq_some_iff.1 linked
  exact ⟨key, earlier, back, by rw [split, List.append_assoc]; rfl⟩

end

end Chained

section Append

variable {state} {item : Item} (fresh : item ∉ state.order)
include fresh

theorem chain_append (key : Option Key) (other : Key) :
    (state.append item key).chain other =
      state.chain other ++ if key = some other then [item] else [] := by
  have before : ∀ used ∈ state.order, (state.append item key).key used = state.key used := by
    intro used listed
    have different : used ≠ item := fun same => fresh (same ▸ listed)
    exact update_of_ne different key state.key
  unfold chain
  rw [show (state.append item key).order = state.order ++ [item] from rfl, List.filter_append]
  congr 1
  · apply List.filter_congr
    intro used listed
    rw [before used listed]
  · have own : (state.append item key).key item = key := by
      simp [append]
    rw [List.filter_singleton, own]
    by_cases same : key = some other <;> simp [same]

theorem links_append (chained : state.Chained) (key : Key) :
    (state.append item (some key)).links =
      (pushBack state.links ⟨(state.chain key).head?, state.tail key⟩ item).1 := by
  obtain ⟨prevNone, nextNone⟩ := chained.loose item fun listed => absurd listed fresh
  have prevSame : state.links.setPrev item none = state.links := by
    unfold Links.setPrev
    rw [update_eq_self_iff.2 prevNone.symm]
  have nextSame : ∀ links : Links Item, links.next item = none →
      links.setNext item none = links := by
    intro links none
    unfold Links.setNext
    rw [update_eq_self_iff.2 none.symm]
  unfold append pushBack
  cases last : state.tail key with
  | none =>
    simp only [Option.bind_some, last]
    rw [prevSame, nextSame _ nextNone]
  | some last' =>
    simp only [Option.bind_some, last]
    rw [nextSame (state.links.setPrev item (some last')) nextNone]

end Append

namespace Chained

variable {state} {item : Item}

theorem append (chained : state.Chained) (fresh : item ∉ state.order) (key : Option Key) :
    (state.append item key).Chained := by
  have outside : ∀ other, item ∉ state.chain other := fun other member =>
    fresh (state.mem_chain.1 member).1
  have order : (state.order ++ [item]).Nodup := by
    rw [List.nodup_append]
    refine ⟨chained.nodup, List.nodup_singleton _, ?_⟩
    intro used listed new isNew same
    rw [List.mem_singleton.1 isNew] at same
    exact fresh (same ▸ listed)
  cases key with
  | none =>
    refine ⟨order, ?_, ?_, ?_⟩
    · intro other
      rw [chain_append fresh]
      show Segment state.links none _ none
      simpa using chained.segment other
    · intro other
      rw [chain_append fresh]
      show state.tail other = _
      simpa using chained.tail other
    · intro other unused
      by_cases same : other = item
      · exact chained.loose other fun listed => absurd (same ▸ listed) fresh
      · apply chained.loose
        intro listed
        have := unused (List.mem_append_left _ listed)
        rwa [show (state.append item none).key other = state.key other from
          update_of_ne same _ _] at this
  | some key =>
    have links := links_append fresh chained key
    have held := pushBack_holds (chained.holds key) (outside key)
    refine ⟨order, ?_, ?_, ?_⟩
    · intro other
      rw [chain_append fresh, links]
      by_cases same : other = key
      · subst same
        simpa using held.segment
      · simp only [Option.some.injEq, Ne.symm same, if_false, List.append_nil]
        refine (segment_congr ?_).2 (chained.segment other)
        intro used member
        apply pushBack_outside (chained.holds key)
        · intro inKey
          have keys := (state.mem_chain.1 member).2.symm.trans (state.mem_chain.1 inKey).2
          exact same (Option.some.inj keys)
        · rintro rfl
          exact outside other member
    · intro other
      rw [chain_append fresh]
      show update state.tail key (some item) other = _
      by_cases same : other = key
      · subst same
        simp
      · simpa [same, Ne.symm same] using chained.tail other
    · intro other unused
      have different : other ≠ item := by
        rintro rfl
        have := unused (List.mem_append_right _ List.mem_cons_self)
        rw [show (state.append other (some key)).key other = some key from
          update_self _ _ _] at this
        cases this
      have unused' : other ∈ state.order → state.key other = none := by
        intro listed
        have := unused (List.mem_append_left _ listed)
        rwa [show (state.append item (some key)).key other = state.key other from
          update_of_ne different _ _] at this
      have notInKey : other ∉ state.chain key := by
        intro inKey
        have := unused' (state.mem_chain.1 inKey).1
        rw [(state.mem_chain.1 inKey).2] at this
        cases this
      have same := pushBack_outside (chained.holds key) notInKey different
      rw [links, same.1, same.2]
      exact chained.loose other unused'

theorem chain_remove (chained : state.Chained) (other : Key) :
    (state.remove item).chain other = (state.chain other).erase item := by
  unfold State.chain
  rw [show (state.remove item).order = state.order.erase item from rfl,
    show (state.remove item).key = state.key from rfl, chained.nodup.erase_eq_filter,
    (chained.nodup.filter _).erase_eq_filter, List.filter_filter, List.filter_filter]
  simp only [Bool.and_comm]

/-- An item without a key is in no chain. -/
private theorem remove_keyless (chained : state.Chained) (keyless : state.key item = none) :
    (state.remove item).Chained := by
  have alone := chained.loose item fun _ => keyless
  have chains : ∀ other, (state.remove item).chain other = state.chain other := by
    intro other
    rw [chained.chain_remove, List.erase_of_not_mem]
    intro member
    rw [state.mem_chain, keyless] at member
    cases member.2
  have links : (state.remove item).links = state.links := by
    unfold State.remove
    simp [alone.2]
  refine ⟨chained.nodup.erase item, ?_, ?_, ?_⟩
  · intro other
    rw [chains, links]
    exact chained.segment other
  · intro other
    rw [chains, ← chained.tail]
    unfold State.remove
    simp [keyless]
  · intro other unused
    rw [links]
    apply chained.loose
    intro listed
    by_cases same : other = item
    · rw [same, keyless]
    · exact unused ((List.mem_erase_of_ne same).2 listed)

section Keyed

variable {key : Key} {rest : List Item} (chained : state.Chained)
  (split : state.chain key = item :: rest)
include chained split

omit [DecidableEq Item] chained in
private theorem key_of_split : state.key item = some key :=
  (state.mem_chain.1 (split ▸ List.mem_cons_self)).2

omit [DecidableEq Item] in
private theorem next_of_split : state.links.next item = rest.head? := by
  have held := chained.holds key
  rw [split, ← List.nil_append (item :: rest)] at held
  exact held.neighbours.2

/-- Outside the chain of the removed item the links stay as they are, and the removed item
has none. -/
private theorem links_remove (other : Item) (outside : other ∉ rest) :
    (state.remove item).links.prev other = state.links.prev other ∧
      (state.remove item).links.next other =
        if other = item then none else state.links.next other := by
  have next := next_of_split chained split
  unfold State.remove
  cases successor : state.links.next item with
  | none =>
    refine ⟨rfl, ?_⟩
    by_cases same : other = item
    · simp [same, successor]
    · simp [same]
  | some target =>
    have different : other ≠ target := by
      rintro rfl
      rw [successor] at next
      exact outside (List.mem_of_head? next.symm)
    refine ⟨by simp [different], ?_⟩
    simp

private theorem segment_remove : Segment (state.remove item).links none rest none := by
  have held := chained.holds key
  have nodup := held.nodup
  rw [split] at held nodup
  refine (segment_congr ?_).2 (popFront_holds held).segment
  intro other member
  have different : other ≠ item := by
    rintro rfl
    exact (List.nodup_cons.1 nodup).1 member
  unfold State.remove popFront
  cases state.links.next item with
  | none => exact ⟨rfl, rfl⟩
  | some target => exact ⟨rfl, by simp [different]⟩

private theorem tail_remove : (state.remove item).tail key = rest.getLast? := by
  have keyed := key_of_split split
  have last := chained.tail key
  have nodup := (chained.holds key).nodup
  rw [split] at last nodup
  unfold State.remove
  simp only [keyed]
  cases rest with
  | nil =>
    rw [if_pos (by rw [last]; rfl)]
    simp
  | cons second others =>
    have kept : state.tail key = (second :: others).getLast? := by
      rw [last, List.getLast?_cons_cons]
    rw [if_neg, kept]
    intro same
    rw [kept] at same
    exact (List.nodup_cons.1 nodup).1 (List.mem_of_getLast? same)

private theorem remove_keyed : (state.remove item).Chained := by
  have keyed := key_of_split split
  have inRest : ∀ {other}, other ∈ rest → other ∈ state.chain key := by
    intro other member
    rw [split]
    exact List.mem_cons_of_mem _ member
  have own : (state.remove item).chain key = rest := by
    rw [chained.chain_remove, split, List.erase_cons_head]
  have others : ∀ other ≠ key, (state.remove item).chain other = state.chain other := by
    intro other different
    rw [chained.chain_remove, List.erase_of_not_mem]
    intro member
    have keys := (state.mem_chain.1 member).2
    rw [keyed] at keys
    exact different (Option.some.inj keys).symm
  refine ⟨chained.nodup.erase item, ?_, ?_, ?_⟩
  · intro other
    by_cases same : other = key
    · subst same
      rw [own]
      exact segment_remove chained split
    · rw [others other same]
      refine (segment_congr ?_).2 (chained.segment other)
      intro used member
      have usedKey := (state.mem_chain.1 member).2
      have outside : used ∉ rest := by
        intro inKey
        have keys := (state.mem_chain.1 (inRest inKey)).2
        rw [usedKey] at keys
        exact same (Option.some.inj keys)
      have different : used ≠ item := by
        rintro rfl
        rw [keyed] at usedKey
        exact same (Option.some.inj usedKey).symm
      have kept := links_remove chained split used outside
      rwa [if_neg different] at kept
  · intro other
    by_cases same : other = key
    · subst same
      rw [own]
      exact tail_remove chained split
    · rw [others other same, ← chained.tail other]
      unfold State.remove
      simp only [keyed]
      split
      · exact update_of_ne same none state.tail
      · rfl
  · intro other unused
    have outside : other ∉ rest := by
      intro member
      obtain ⟨listed, keys⟩ := state.mem_chain.1 (inRest member)
      have nodup := (chained.holds key).nodup
      rw [split] at nodup
      have different : other ≠ item := by
        rintro rfl
        exact (List.nodup_cons.1 nodup).1 member
      have := unused ((List.mem_erase_of_ne different).2 listed)
      rw [show (state.remove item).key other = state.key other from rfl, keys] at this
      cases this
    obtain ⟨prevSame, nextSame⟩ := links_remove chained split other outside
    rw [prevSame, nextSame]
    by_cases same : other = item
    · subst same
      rw [if_pos rfl]
      refine ⟨?_, rfl⟩
      have segment := chained.segment key
      rw [split] at segment
      exact segment.1
    · rw [if_neg same]
      apply chained.loose
      intro listed
      exact unused ((List.mem_erase_of_ne same).2 listed)

end Keyed

theorem remove (chained : state.Chained) (used : item ∈ state.order)
    (first : state.links.prev item = none) : (state.remove item).Chained := by
  cases keyed : state.key item with
  | none => exact chained.remove_keyless keyed
  | some key =>
    obtain ⟨rest, split⟩ := chained.first_of_prev_none (state.mem_chain.2 ⟨used, keyed⟩) first
    exact remove_keyed chained split

end Chained
end State
end KeyedChains
