import Mathlib.Data.List.Basic

/-! # Caches that evict the least recently used key

The keys of a cache are listed from the most to the least recently used one.  A log of
accesses says when each key was used last.
-/

namespace LruCache

variable {Key : Type*} [DecidableEq Key]

/-- The keys that a cache holds after one more access. -/
def access (capacity : Nat) (held : List Key) (key : Key) : List Key :=
  (key :: held.erase key).take capacity

/-- The keys that a cache holds after the accesses of a log. -/
def run (capacity : Nat) (log : List Key) : List Key := log.foldl (access capacity) []

omit [DecidableEq Key] in
/-- The key that has to leave when a key comes in that is not held. -/
def victim (capacity : Nat) (held : List Key) : Option Key :=
  if held.length < capacity then none else held.getLast?

theorem run_append (capacity : Nat) (log : List Key) (key : Key) :
    run capacity (log ++ [key]) = access capacity (run capacity log) key := by
  simp [run]

theorem access_of_mem {capacity : Nat} {held : List Key} {key : Key} (member : key ∈ held)
    (fits : held.length ≤ capacity) : access capacity held key = key :: held.erase key := by
  unfold access
  apply List.take_of_length_le
  have erased := List.length_erase_of_mem member
  have positive := List.length_pos_of_mem member
  simp only [List.length_cons]
  omega

theorem access_of_room {capacity : Nat} {held : List Key} {key : Key} (absent : key ∉ held)
    (room : held.length < capacity) : access capacity held key = key :: held := by
  unfold access
  rw [List.erase_of_not_mem absent]
  apply List.take_of_length_le
  exact room

theorem access_of_full {capacity : Nat} {held : List Key} {key : Key} (absent : key ∉ held)
    (full : held.length = capacity) (positive : 0 < capacity) :
    access capacity held key = key :: held.dropLast := by
  unfold access
  rw [List.erase_of_not_mem absent, List.dropLast_eq_take, full]
  exact List.take_cons positive

/-- The place of the last use of a key in a log, counted from one; zero if there is none. -/
def lastUse (log : List Key) (key : Key) : Nat := log.length - log.reverse.idxOf key

theorem lastUse_append_self (log : List Key) (key : Key) :
    lastUse (log ++ [key]) key = log.length + 1 := by
  simp [lastUse]

theorem lastUse_append_of_ne (log : List Key) {key other : Key} (different : other ≠ key) :
    lastUse (log ++ [key]) other = lastUse log other := by
  simp [lastUse, List.idxOf_cons_ne _ different.symm]

theorem lastUse_le_length (log : List Key) (key : Key) : lastUse log key ≤ log.length :=
  Nat.sub_le _ _

def Ordered (log keys : List Key) : Prop :=
  keys.Pairwise fun newer older => lastUse log older ≤ lastUse log newer

theorem Ordered.use {log front back : List Key} {key : Key}
    (ordered : Ordered log (front ++ key :: back)) (absent : key ∉ front ++ back) :
    Ordered (log ++ [key]) (key :: (front ++ back)) := by
  have rest : Ordered log (front ++ back) :=
    ordered.sublist (List.Sublist.append_left (List.sublist_cons_self key back) front)
  have others : ∀ other ∈ front ++ back, lastUse (log ++ [key]) other = lastUse log other := by
    intro other member
    apply lastUse_append_of_ne
    rintro rfl
    exact absent member
  apply List.pairwise_cons.2
  constructor
  · intro older member
    rw [others older member, lastUse_append_self]
    exact Nat.le_succ_of_le (lastUse_le_length log older)
  · apply rest.imp_of_mem
    intro newer older newerMember olderMember
    rw [others newer newerMember, others older olderMember]
    exact id

end LruCache
