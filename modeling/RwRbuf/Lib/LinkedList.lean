import Mathlib.Data.List.Basic
import Mathlib.Data.List.Induction
import Mathlib.Data.List.Nodup
import Mathlib.Logic.Function.Basic

/-! # Intrusive doubly linked lists

Firmware keeps its queues in the nodes themselves: every node stores the index
of its predecessor and of its successor, and the list stores its two ends.  This
module describes such a list by the plain list of its nodes, and shows what
putting a node at either end, taking the head and unlinking an inner node do to that
description.
-/

namespace LinkedList

variable {Node : Type*}

structure Links (Node : Type*) where
  prev : Node → Option Node
  next : Node → Option Node

structure Ends (Node : Type*) where
  head : Option Node
  tail : Option Node
deriving DecidableEq

namespace Ends

def empty : Ends Node := ⟨none, none⟩

end Ends

namespace Links

variable [DecidableEq Node]

def setPrev (links : Links Node) (node : Node) (value : Option Node) : Links Node :=
  { links with prev := Function.update links.prev node value }

def setNext (links : Links Node) (node : Node) (value : Option Node) : Links Node :=
  { links with next := Function.update links.next node value }

@[simp] theorem setPrev_prev (links : Links Node) (node other : Node) (value : Option Node) :
    (links.setPrev node value).prev other = if other = node then value else links.prev other := by
  simp [setPrev, Function.update_apply]

@[simp] theorem setPrev_next (links : Links Node) (node : Node) (value : Option Node) :
    (links.setPrev node value).next = links.next := rfl

@[simp] theorem setNext_next (links : Links Node) (node other : Node) (value : Option Node) :
    (links.setNext node value).next other = if other = node then value else links.next other := by
  simp [setNext, Function.update_apply]

@[simp] theorem setNext_prev (links : Links Node) (node : Node) (value : Option Node) :
    (links.setNext node value).prev = links.prev := rfl

end Links

/-- The nodes `nodes`, in this order, are chained between `before` and `after`. -/
def Segment (links : Links Node) : Option Node → List Node → Option Node → Prop
  | _, [], _ => True
  | before, node :: nodes, after =>
    links.prev node = before ∧ links.next node = nodes.head?.or after ∧
      Segment links (some node) nodes after

theorem segment_append (links : Links Node) (before after : Option Node)
    (first second : List Node) :
    Segment links before (first ++ second) after ↔
      Segment links before first (second.head?.or after) ∧
        Segment links (first.getLast?.or before) second after := by
  induction first generalizing before with
  | nil => simp [Segment]
  | cons node first ih =>
    have headEq : (first ++ second).head?.or after =
        first.head?.or (second.head?.or after) := by
      cases first <;> simp
    have lastEq : ((node :: first).getLast?).or before = first.getLast?.or (some node) := by
      cases first with
      | nil => simp
      | cons next first => simp [List.getLast?_cons]
    simp only [List.cons_append, Segment, ih, headEq, lastEq, and_assoc]

theorem segment_congr {links links' : Links Node} {before after : Option Node} {nodes : List Node}
    (agree : ∀ node ∈ nodes, links'.prev node = links.prev node ∧
      links'.next node = links.next node) :
    Segment links' before nodes after ↔ Segment links before nodes after := by
  induction nodes generalizing before with
  | nil => simp [Segment]
  | cons node nodes ih =>
    have nodeAgree := agree node (by simp)
    have restAgree : Segment links' (some node) nodes after ↔
        Segment links (some node) nodes after :=
      ih fun other member => agree other (by simp [member])
    simp only [Segment, nodeAgree.1, nodeAgree.2, restAgree]

/-- The nodes are chained if each one names its neighbours by their places. -/
theorem segment_of_getElem? {links : Links Node} {before after : Option Node} {nodes : List Node}
    (neighbours : ∀ index node, nodes[index]? = some node →
      links.prev node = (if index = 0 then before else nodes[index - 1]?) ∧
        links.next node = nodes[index + 1]?.or after) :
    Segment links before nodes after := by
  induction nodes generalizing before with
  | nil => trivial
  | cons node nodes ih =>
    have first := neighbours 0 node rfl
    refine ⟨first.1, ?_, ?_⟩
    · rw [first.2, List.head?_eq_getElem?]
      rfl
    · apply ih
      intro index other place
      have next := neighbours (index + 1) other place
      refine ⟨?_, next.2⟩
      rw [next.1]
      cases index with
      | zero => rfl
      | succ index => rfl

/-- The header `ends` and the link fields `links` hold the list `nodes`. -/
structure Holds (links : Links Node) (ends : Ends Node) (nodes : List Node) : Prop where
  nodup : nodes.Nodup
  head : ends.head = nodes.head?
  tail : ends.tail = nodes.getLast?
  segment : Segment links none nodes none

theorem holds_empty (links : Links Node) : Holds links Ends.empty ([] : List Node) :=
  ⟨List.nodup_nil, rfl, rfl, trivial⟩

theorem Holds.congr {links links' : Links Node} {ends : Ends Node} {nodes : List Node}
    (holds : Holds links ends nodes)
    (agree : ∀ node ∈ nodes, links'.prev node = links.prev node ∧
      links'.next node = links.next node) :
    Holds links' ends nodes :=
  ⟨holds.nodup, holds.head, holds.tail, (segment_congr agree).mpr holds.segment⟩

variable {front back : List Node}

private theorem nodup_middle_facts {node : Node} (nodup : (front ++ node :: back).Nodup) :
    node ∉ front ∧ node ∉ back ∧ (∀ other ∈ front, other ∉ back) ∧ (front ++ back).Nodup := by
  have parts := List.nodup_append.mp nodup
  have backParts := List.nodup_cons.mp parts.2.1
  refine ⟨?_, backParts.1, ?_, ?_⟩
  · intro member
    exact parts.2.2 node member node (by simp) rfl
  · intro other inFront inBack
    exact parts.2.2 other inFront other (by simp [inBack]) rfl
  · refine List.nodup_append.mpr ⟨parts.1, backParts.2, ?_⟩
    intro other inFront same inBack
    exact parts.2.2 other inFront same (by simp [inBack])

theorem Holds.neighbours {links : Links Node} {ends : Ends Node}
    {node : Node} (holds : Holds links ends (front ++ node :: back)) :
    links.prev node = front.getLast? ∧ links.next node = back.head? := by
  have segment := ((segment_append links none none front (node :: back)).mp holds.segment).2
  exact ⟨by simpa using segment.1, by simpa using segment.2.1⟩

theorem Holds.next_mem {links : Links Node} {ends : Ends Node} {nodes : List Node}
    {node successor : Node} (holds : Holds links ends nodes) (member : node ∈ nodes)
    (next : links.next node = some successor) : successor ∈ nodes ∧ successor ≠ node := by
  obtain ⟨front, back, rfl⟩ := List.append_of_mem member
  rw [holds.neighbours.2] at next
  have inBack := List.mem_of_head? next
  refine ⟨by simp [inBack], ?_⟩
  rintro rfl
  exact (nodup_middle_facts holds.nodup).2.1 inBack

/-- The nodes that a walk from the head along the successors meets. -/
inductive Met (links : Links Node) (ends : Ends Node) : Node → Prop
  | head {node : Node} (first : ends.head = some node) : Met links ends node
  | next {node after : Node} (met : Met links ends node) (link : links.next node = some after) :
      Met links ends after

section

variable {links : Links Node} {ends : Ends Node} {nodes : List Node} {node : Node}
  (holds : Holds links ends nodes)
include holds

theorem Holds.mem_of_met (met : Met links ends node) : node ∈ nodes := by
  induction met with
  | head first =>
    rw [holds.head] at first
    exact List.mem_of_head? first
  | next _ link ih => exact (holds.next_mem ih link).1

theorem Holds.met_of_mem (member : node ∈ nodes) : Met links ends node := by
  obtain ⟨front, back, rfl⟩ := List.append_of_mem member
  induction front using List.reverseRecOn generalizing node back with
  | nil =>
    apply Met.head
    simpa using holds.head
  | append_singleton front before ih =>
    rw [List.append_assoc, List.singleton_append] at holds member
    apply Met.next (ih (node :: back) holds (by simp))
    exact holds.neighbours.2

end

section Operations

variable [DecidableEq Node]

/-- Append `node` at the tail. -/
def pushBack (links : Links Node) (ends : Ends Node) (node : Node) : Links Node × Ends Node :=
  match ends.tail with
  | some last =>
    (((links.setPrev node (some last)).setNext node none).setNext last (some node),
      { ends with tail := some node })
  | none => ((links.setPrev node none).setNext node none, ⟨some node, some node⟩)

/-- Put `node` before the head. -/
def pushFront (links : Links Node) (ends : Ends Node) (node : Node) : Links Node × Ends Node :=
  match ends.head with
  | some first =>
    (((links.setPrev node none).setNext node (some first)).setPrev first (some node),
      { ends with head := some node })
  | none => ((links.setPrev node none).setNext node none, ⟨some node, some node⟩)

/-- Take the node `first`, which is the head, out of the list.  The link fields of
`first` itself keep their old values. -/
def popFront (links : Links Node) (ends : Ends Node) (first : Node) : Links Node × Ends Node :=
  match links.next first with
  | some second => (links.setPrev second none, { ends with head := some second })
  | none => (links, Ends.empty)

/-- Unlink `node` from whatever position its own link fields say it has.  These fields
keep their old values. -/
def unlink (links : Links Node) (ends : Ends Node) (node : Node) : Links Node × Ends Node :=
  match links.next node, links.prev node with
  | some after, some before =>
    ((links.setNext before (some after)).setPrev after (some before), ends)
  | none, some before => (links.setNext before none, { ends with tail := some before })
  | some after, none => (links.setPrev after none, { ends with head := some after })
  | none, none => (links, Ends.empty)

/-- Appending changes the link fields of the new node and of the old tail only. -/
theorem pushBack_frame (links : Links Node) (ends : Ends Node) {node other : Node}
    (notNode : other ≠ node) (notTail : ends.tail ≠ some other) :
    (pushBack links ends node).1.prev other = links.prev other ∧
      (pushBack links ends node).1.next other = links.next other := by
  unfold pushBack
  cases tailEq : ends.tail with
  | none => simp [notNode]
  | some last =>
    have notLast : other ≠ last := by
      rintro rfl
      exact notTail tailEq
    simp [notNode, notLast]

section

variable {links : Links Node} {ends : Ends Node} {nodes : List Node} {node : Node}
  (holds : Holds links ends nodes) (fresh : node ∉ nodes)
include holds fresh

theorem pushBack_holds :
    Holds (pushBack links ends node).1 (pushBack links ends node).2 (nodes ++ [node]) := by
  rcases List.eq_nil_or_concat nodes with rfl | ⟨front, last, rfl⟩
  · have tailEq : ends.tail = none := by simpa using holds.tail
    constructor <;> simp [pushBack, tailEq, Segment]
  · rw [List.concat_eq_append] at holds fresh ⊢
    have tailEq : ends.tail = some last := by simpa using holds.tail
    have notLast : node ≠ last := by
      rintro rfl
      simp at fresh
    have lastNotFront : last ∉ front := by
      intro member
      have := List.nodup_append.mp holds.nodup
      exact this.2.2 last member last (by simp) rfl
    have segments := (segment_append links none none front [last]).mp holds.segment
    refine ⟨?_, ?_, ?_, ?_⟩
    · refine List.nodup_append.mpr ⟨holds.nodup, List.nodup_singleton node, ?_⟩
      rintro other member same sameMember rfl
      rw [List.mem_singleton] at sameMember
      exact fresh (sameMember ▸ member)
    · have headEq := holds.head
      cases front <;> simpa [pushBack, tailEq] using headEq
    · simp [pushBack, tailEq]
    · rw [List.append_assoc, segment_append]
      constructor
      · refine (segment_congr ?_).mpr segments.1
        intro other member
        refine pushBack_frame links ends ?_ ?_
        · rintro rfl
          exact fresh (by simp [member])
        · rw [tailEq]
          rintro ⟨⟩
          exact lastNotFront member
      · have lastPrev : links.prev last = front.getLast? := by
          have := segments.2.1
          simpa using this
        simp [pushBack, tailEq, Segment, lastPrev, notLast, notLast.symm]

theorem pushFront_holds :
    Holds (pushFront links ends node).1 (pushFront links ends node).2 (node :: nodes) := by
  cases nodes with
  | nil =>
    have headEq : ends.head = none := holds.head
    constructor <;> simp [pushFront, headEq, Segment]
  | cons first rest =>
    have headEq : ends.head = some first := holds.head
    have notFirst : node ≠ first := by
      rintro rfl
      simp at fresh
    have firstNotRest : first ∉ rest := (List.nodup_cons.mp holds.nodup).1
    refine ⟨List.nodup_cons.mpr ⟨fresh, holds.nodup⟩, ?_, ?_, ?_⟩
    · simp [pushFront, headEq]
    · simpa [pushFront, headEq, List.getLast?_cons_cons] using holds.tail
    · refine ⟨?_, ?_, ?_, ?_, ?_⟩
      · simp [pushFront, headEq, notFirst]
      · simp [pushFront, headEq]
      · simp [pushFront, headEq]
      · simpa [pushFront, headEq, notFirst.symm] using holds.segment.2.1
      · apply (segment_congr ?_).mpr holds.segment.2.2
        intro other member
        have notNode : other ≠ node := by
          rintro rfl
          exact fresh (by simp [member])
        have notHead : other ≠ first := by
          rintro rfl
          exact firstNotRest member
        simp [pushFront, headEq, notNode, notHead]

end

/-- Taking the head changes the link fields of the second node only. -/
theorem popFront_frame (links : Links Node) (ends : Ends Node) {first other : Node}
    (notSecond : links.next first ≠ some other) :
    (popFront links ends first).1.prev other = links.prev other ∧
      (popFront links ends first).1.next other = links.next other := by
  unfold popFront
  cases nextEq : links.next first with
  | none => simp
  | some second =>
    have : other ≠ second := by
      rintro rfl
      exact notSecond nextEq
    simp [this]

theorem popFront_holds {links : Links Node} {ends : Ends Node} {first : Node}
    {rest : List Node} (holds : Holds links ends (first :: rest)) :
    Holds (popFront links ends first).1 (popFront links ends first).2 rest := by
  have nextEq : links.next first = rest.head? := by
    have := holds.segment.2.1
    simpa using this
  cases rest with
  | nil =>
    have : links.next first = none := by simpa using nextEq
    simpa [popFront, this] using holds_empty links
  | cons second rest =>
    have nextSome : links.next first = some second := by simpa using nextEq
    have secondNotRest : second ∉ rest :=
      (List.nodup_cons.mp (List.nodup_cons.mp holds.nodup).2).1
    refine ⟨(List.nodup_cons.mp holds.nodup).2, ?_, ?_, ?_⟩
    · simp [popFront, nextSome]
    · simpa [popFront, nextSome, List.getLast?_cons_cons] using holds.tail
    · have segment := holds.segment.2.2
      refine ⟨by simp [popFront, nextSome], ?_, ?_⟩
      · simpa [popFront, nextSome] using segment.2.1
      · refine (segment_congr ?_).mpr segment.2.2
        intro other member
        refine popFront_frame links ends ?_
        rw [nextSome]
        rintro ⟨⟩
        exact secondNotRest member

/-- Unlinking changes the link fields of the two neighbours only. -/
theorem unlink_frame (links : Links Node) (ends : Ends Node) {node other : Node}
    (notNext : links.next node ≠ some other) (notPrev : links.prev node ≠ some other) :
    (unlink links ends node).1.prev other = links.prev other ∧
      (unlink links ends node).1.next other = links.next other := by
  have notAfter : ∀ after, links.next node = some after → other ≠ after := by
    rintro after nextEq rfl
    exact notNext nextEq
  have notBefore : ∀ before, links.prev node = some before → other ≠ before := by
    rintro before prevEq rfl
    exact notPrev prevEq
  unfold unlink
  cases nextEq : links.next node with
  | none =>
    cases prevEq : links.prev node with
    | none => simp
    | some before => simp [notBefore before prevEq]
  | some after =>
    cases prevEq : links.prev node with
    | none => simp [notAfter after nextEq]
    | some before => simp [notBefore before prevEq, notAfter after nextEq]

theorem unlink_holds {links : Links Node} {ends : Ends Node}
    {node : Node} (holds : Holds links ends (front ++ node :: back)) :
    Holds (unlink links ends node).1 (unlink links ends node).2 (front ++ back) := by
  obtain ⟨notFront, notBack, apart, nodup⟩ := nodup_middle_facts holds.nodup
  obtain ⟨prevEq, nextEq⟩ := holds.neighbours
  have segments := (segment_append links none none front (node :: back)).mp holds.segment
  have backSegment : Segment links (some node) back none := segments.2.2.2
  -- The four cases of the definition: no neighbour, one on either side, or both.
  rcases List.eq_nil_or_concat front with rfl | ⟨front, before, rfl⟩ <;>
    rcases back with _ | ⟨after, back⟩
  · simpa [unlink, prevEq, nextEq] using holds_empty links
  · have prevNone : links.prev node = none := by simpa using prevEq
    have popped := popFront_holds (by simpa using holds)
    have nextSome : links.next node = some after := by simpa using nextEq
    simpa [unlink, popFront, prevNone, nextSome] using popped
  · rw [List.concat_eq_append] at *
    have prevSome : links.prev node = some before := by simpa using prevEq
    have nextNone : links.next node = none := by simpa using nextEq
    have frontSegments := (segment_append links none (some node) front [before]).mp (by
      simpa using segments.1)
    have beforeNotFront : before ∉ front := by
      intro member
      have := List.nodup_append.mp (by simpa using nodup : (front ++ [before]).Nodup)
      exact this.2.2 before member before (by simp) rfl
    refine ⟨nodup, ?_, ?_, ?_⟩
    · have headEq := holds.head
      cases front <;> simpa [unlink, prevSome, nextNone] using headEq
    · simp [unlink, prevSome, nextNone]
    · rw [List.append_nil, segment_append]
      constructor
      · refine (segment_congr ?_).mpr frontSegments.1
        intro other member
        refine unlink_frame links ends (by simp [nextNone]) ?_
        rw [prevSome]
        rintro ⟨⟩
        exact beforeNotFront member
      · refine ⟨?_, ?_, trivial⟩
        · simpa [unlink, prevSome, nextNone] using frontSegments.2.1
        · simp [unlink, prevSome, nextNone]
  · rw [List.concat_eq_append] at *
    have prevSome : links.prev node = some before := by simpa using prevEq
    have nextSome : links.next node = some after := by simpa using nextEq
    have frontSegments := (segment_append links none (some node) front [before]).mp (by
      simpa using segments.1)
    have parts := List.nodup_append.mp nodup
    have beforeNotFront : before ∉ front := by
      intro member
      exact (List.nodup_append.mp parts.1).2.2 before member before (by simp) rfl
    have afterNotBack : after ∉ back := (List.nodup_cons.mp parts.2.1).1
    have beforeNeAfter : before ≠ after := parts.2.2 before (by simp) after (by simp)
    have changed : ∀ other, other ≠ before → other ≠ after →
        (unlink links ends node).1.prev other = links.prev other ∧
          (unlink links ends node).1.next other = links.next other := by
      intro other notBefore notAfter
      refine unlink_frame links ends ?_ ?_
      · rw [nextSome]
        rintro ⟨⟩
        exact notAfter rfl
      · rw [prevSome]
        rintro ⟨⟩
        exact notBefore rfl
    refine ⟨nodup, ?_, ?_, ?_⟩
    · have headEq := holds.head
      cases front <;> simpa [unlink, prevSome, nextSome] using headEq
    · have tailEq := holds.tail
      simpa [unlink, prevSome, nextSome, List.getLast?_append, List.getLast?_cons] using tailEq
    · rw [List.append_assoc, segment_append]
      constructor
      · refine (segment_congr ?_).mpr frontSegments.1
        intro other member
        refine changed other ?_ ?_
        · rintro rfl
          exact beforeNotFront member
        · rintro rfl
          exact apart other (by simp [member]) (by simp)
      · refine ⟨?_, ?_, ?_, ?_, ?_⟩
        · simpa [unlink, prevSome, nextSome, beforeNeAfter] using frontSegments.2.1
        · simp [unlink, prevSome, nextSome]
        · simp [unlink, prevSome, nextSome]
        · simpa [unlink, prevSome, nextSome, beforeNeAfter.symm] using backSegment.2.1
        · refine (segment_congr ?_).mpr backSegment.2.2
          intro other member
          refine changed other ?_ ?_
          · rintro rfl
            exact apart other (by simp) (by simp [member])
          · rintro rfl
            exact afterNotBack member

/-- Unlinking a member removes it from the list that the header holds. -/
theorem unlink_holds_erase {links : Links Node} {ends : Ends Node} {nodes : List Node}
    {node : Node} (holds : Holds links ends nodes) (member : node ∈ nodes) :
    Holds (unlink links ends node).1 (unlink links ends node).2 (nodes.erase node) := by
  obtain ⟨front, back, rfl⟩ := List.append_of_mem member
  have notFront := (nodup_middle_facts holds.nodup).1
  rw [List.erase_append_right _ notFront, List.erase_cons_head]
  exact unlink_holds holds

section Outside

variable {links : Links Node} {ends : Ends Node} {nodes : List Node} {node other : Node}

theorem pushBack_outside (holds : Holds links ends nodes) (outside : other ∉ nodes)
    (notNode : other ≠ node) :
    (pushBack links ends node).1.prev other = links.prev other ∧
      (pushBack links ends node).1.next other = links.next other := by
  refine pushBack_frame links ends notNode ?_
  rw [holds.tail]
  intro isLast
  exact outside (List.mem_of_getLast? isLast)

theorem popFront_outside (holds : Holds links ends (node :: nodes)) (outside : other ∉ nodes) :
    (popFront links ends node).1.prev other = links.prev other ∧
      (popFront links ends node).1.next other = links.next other := by
  refine popFront_frame links ends ?_
  have holdsAppend : Holds links ends ([] ++ node :: nodes) := by simpa using holds
  rw [holdsAppend.neighbours.2]
  intro isHead
  exact outside (List.mem_of_head? isHead)

theorem unlink_outside (holds : Holds links ends nodes) (member : node ∈ nodes)
    (outside : other ∉ nodes) :
    (unlink links ends node).1.prev other = links.prev other ∧
      (unlink links ends node).1.next other = links.next other := by
  obtain ⟨front, back, rfl⟩ := List.append_of_mem member
  obtain ⟨prevEq, nextEq⟩ := holds.neighbours
  refine unlink_frame links ends ?_ ?_
  · rw [nextEq]
    intro isHead
    exact outside (by simp [List.mem_of_head? isHead])
  · rw [prevEq]
    intro isLast
    exact outside (by simp [List.mem_of_getLast? isLast])

end Outside

end Operations

/-! ## Families of lists over one table of links

Several headers may share one table: a node is then on at most one of their lists,
and an operation on one list leaves the others as they are.
-/

/-- Every header holds its list, and no node is on two lists. -/
structure Family {Key : Type*} (links : Links Node) (ends : Key → Ends Node)
    (lists : Key → List Node) : Prop where
  holds : ∀ key, Holds links (ends key) (lists key)
  disjoint : ∀ key key' node, node ∈ lists key → node ∈ lists key' → key = key'

namespace Family

variable {Key : Type*} {links : Links Node} {ends : Key → Ends Node}
  {lists : Key → List Node}

variable {links' : Links Node}

theorem congr (family : Family links ends lists)
    (agree : ∀ key, ∀ node ∈ lists key, links'.prev node = links.prev node ∧
      links'.next node = links.next node) :
    Family links' ends lists :=
  ⟨fun key => (family.holds key).congr (agree key), family.disjoint⟩

variable [DecidableEq Key]

/-- Replacing one list by another keeps the family if the new list is held and its
nodes are on no other list, and the links of the other lists are untouched. -/
private theorem update {key : Key} {ends' : Ends Node}
    {nodes : List Node} (family : Family links ends lists) (held : Holds links' ends' nodes)
    (apart : ∀ key' ≠ key, ∀ node ∈ lists key', node ∉ nodes)
    (agree : ∀ key' ≠ key, ∀ node ∈ lists key', links'.prev node = links.prev node ∧
      links'.next node = links.next node) :
    Family links' (Function.update ends key ends') (Function.update lists key nodes) := by
  constructor
  · intro key'
    by_cases same : key' = key
    · subst same
      simpa using held
    · simpa [same] using (family.holds key').congr (agree key' same)
  · intro first second node inFirst inSecond
    by_cases firstSame : first = key <;> by_cases secondSame : second = key
    · rw [firstSame, secondSame]
    · subst firstSame
      simp only [Function.update_self, Function.update_of_ne secondSame] at inFirst inSecond
      exact absurd inFirst (apart second secondSame node inSecond)
    · subst secondSame
      simp only [Function.update_self, Function.update_of_ne firstSame] at inFirst inSecond
      exact absurd inSecond (apart first firstSame node inFirst)
    · simp only [Function.update_of_ne firstSame, Function.update_of_ne secondSame]
        at inFirst inSecond
      exact family.disjoint first second node inFirst inSecond

variable [DecidableEq Node]

theorem pushBack {node : Node} (family : Family links ends lists) (key : Key)
    (fresh : ∀ key', node ∉ lists key') :
    Family (LinkedList.pushBack links (ends key) node).1
      (Function.update ends key (LinkedList.pushBack links (ends key) node).2)
      (Function.update lists key (lists key ++ [node])) := by
  refine family.update (pushBack_holds (family.holds key) (fresh key)) ?_ ?_
  · intro key' different other inOther member
    rcases List.mem_append.mp member with inList | isNode
    · exact different (family.disjoint key' key other inOther inList)
    · rw [List.mem_singleton] at isNode
      exact fresh key' (isNode ▸ inOther)
  · intro key' different other inOther
    refine pushBack_outside (family.holds key) ?_ ?_
    · intro inList
      exact different (family.disjoint key' key other inOther inList)
    · rintro rfl
      exact fresh key' inOther

theorem popFront {node : Node} {rest : List Node} (family : Family links ends lists)
    (key : Key) (listEq : lists key = node :: rest) :
    Family (LinkedList.popFront links (ends key) node).1
      (Function.update ends key (LinkedList.popFront links (ends key) node).2)
      (Function.update lists key rest) := by
  have held := family.holds key
  rw [listEq] at held
  have elsewhere : ∀ key' ≠ key, ∀ other ∈ lists key', other ∉ rest := by
    intro key' different other inOther inRest
    exact different (family.disjoint key' key other inOther (by simp [listEq, inRest]))
  refine family.update (popFront_holds held) elsewhere ?_
  intro key' different other inOther
  exact popFront_outside held (elsewhere key' different other inOther)

theorem unlink {node : Node} (family : Family links ends lists) (key : Key)
    (member : node ∈ lists key) :
    Family (LinkedList.unlink links (ends key) node).1
      (Function.update ends key (LinkedList.unlink links (ends key) node).2)
      (Function.update lists key ((lists key).erase node)) := by
  have elsewhere : ∀ key' ≠ key, ∀ other ∈ lists key', other ∉ lists key := by
    intro key' different other inOther inList
    exact different (family.disjoint key' key other inOther inList)
  refine family.update (unlink_holds_erase (family.holds key) member) ?_ ?_
  · intro key' different other inOther inErased
    exact elsewhere key' different other inOther (List.mem_of_mem_erase inErased)
  · intro key' different other inOther
    exact unlink_outside (family.holds key) member (elsewhere key' different other inOther)

/-- The lists after `node` was unlinked from the list `key` and appended to the list `goal`. -/
def relisted (lists : Key → List Node) (key goal : Key) (node : Node) : Key → List Node :=
  let rest := Function.update lists key ((lists key).erase node)
  Function.update rest goal (rest goal ++ [node])

section

variable (family : Family links ends lists) {key : Key} {node : Node} (member : node ∈ lists key)
include family member

private theorem mem_unlisted (other : Node) (key' : Key) :
    other ∈ Function.update lists key ((lists key).erase node) key' ↔
      other ≠ node ∧ other ∈ lists key' := by
  by_cases same : key' = key
  · subst same
    rw [Function.update_self, (family.holds key').nodup.mem_erase_iff]
  · rw [Function.update_of_ne same]
    constructor
    · intro listed
      refine ⟨?_, listed⟩
      rintro rfl
      exact same (family.disjoint key' key other listed member)
    · exact And.right

theorem mem_relisted (goal : Key) (other : Node) (key' : Key) :
    other ∈ relisted lists key goal node key' ↔
      if other = node then key' = goal else other ∈ lists key' := by
  have unlisted := mem_unlisted family member
  unfold relisted
  by_cases target : key' = goal
  · subst target
    rw [Function.update_self, List.mem_append, unlisted, List.mem_singleton]
    by_cases moved : other = node <;> simp [moved]
  · rw [Function.update_of_ne target, unlisted]
    by_cases moved : other = node
    · simp [moved, target]
    · simp [moved]

end

theorem next_relisted {key goal : Key} {node : Node}
    {ends' : Key → Ends Node} (family : Family links' ends' (relisted lists key goal node)) :
    links'.next node = none := by
  have held := family.holds goal
  unfold relisted at held
  rw [Function.update_self] at held
  exact held.neighbours.2

theorem move {node : Node} (family : Family links ends lists) (key goal : Key)
    (member : node ∈ lists key) :
    let unlinked := LinkedList.unlink links (ends key) node
    let rest := Function.update ends key unlinked.2
    let pushed := LinkedList.pushBack unlinked.1 (rest goal) node
    Family pushed.1 (Function.update rest goal pushed.2) (relisted lists key goal node) := by
  refine (family.unlink key member).pushBack goal ?_
  intro key' listed
  exact ((mem_unlisted family member node key').1 listed).1 rfl

end Family

end LinkedList
