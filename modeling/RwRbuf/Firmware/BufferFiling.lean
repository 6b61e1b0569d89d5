import RwRbuf.Firmware.DataBuffer
import RwRbuf.Lib.LruCache
import Mathlib.Data.List.Nodup
import Mathlib.Data.List.Perm.Basic
import Mathlib.Data.List.Range

/-! # Where a buffer files its entries

Each entry with a logical slice is in the bucket of this slice, and no two entries have the
same one.  Between the eviction of an entry and its next slice the entry is in no bucket,
though it still shows its old slice.
-/

namespace RwRbuf.Firmware.Requests.BufferMap

open Function

variable {Tag : Type}

def address (map : BufferMap Tag) (entry : Nat) : Option Nat :=
  (map.dataBuf entry).logicalSliceAddr

/-- `loose` is the entry that was evicted and has no new slice yet. -/
structure Filed (map : BufferMap Tag) (loose : Option Nat) : Prop where
  lru : map.lru.Perm (List.range map.size)
  mem_iff : ∀ {bucket entry}, entry ∈ map.dataBufHash bucket ↔
    entry < map.size ∧ loose ≠ some entry ∧
      ∃ lsa, map.address entry = some lsa ∧ map.findHashTableEntry lsa = bucket
  nodup : ∀ bucket, (map.dataBufHash bucket).Nodup
  unique : ∀ {first second lsa}, first < map.size → second < map.size → loose ≠ some first →
    loose ≠ some second → map.address first = some lsa → map.address second = some lsa →
    first = second

namespace Filed

variable {map map' : BufferMap Tag} {loose : Option Nat} {entry lsa : Nat}

theorem init (size : Nat) : Filed (BufferMap.init size : BufferMap Tag) none where
  lru := List.Perm.refl _
  mem_iff := by
    intro bucket entry
    simp [BufferMap.init, address]
  nodup := fun _ => List.nodup_nil
  unique := by
    intro first second lsa _ _ _ _ filed
    cases filed

theorem mem_lru (filed : Filed map loose) : entry ∈ map.lru ↔ entry < map.size := by
  rw [filed.lru.mem_iff, List.mem_range]

theorem lru_nodup (filed : Filed map loose) : map.lru.Nodup :=
  filed.lru.nodup_iff.2 List.nodup_range

theorem lru_length (filed : Filed map loose) : map.lru.length = map.size := by
  rw [filed.lru.length_eq, List.length_range]

/-- The walk along a bucket finds exactly the entry of the slice. -/
theorem find_eq_some_iff (filed : Filed map loose) :
    map.find lsa = some entry ↔
      entry < map.size ∧ loose ≠ some entry ∧ map.address entry = some lsa := by
  unfold BufferMap.find
  constructor
  · intro found
    have holds : map.address entry = some lsa := by
      simpa [address] using List.find?_some found
    obtain ⟨inside, filedHere, _⟩ := filed.mem_iff.1 (List.mem_of_find?_eq_some found)
    exact ⟨inside, filedHere, holds⟩
  · rintro ⟨inside, filedHere, holds⟩
    have member : entry ∈ map.dataBufHash (map.findHashTableEntry lsa) :=
      filed.mem_iff.2 ⟨inside, filedHere, lsa, holds, rfl⟩
    have isSome : ((map.dataBufHash (map.findHashTableEntry lsa)).find? fun other =>
        (map.dataBuf other).logicalSliceAddr = some lsa).isSome = true := by
      rw [List.find?_isSome]
      exact ⟨entry, member, by simpa [address] using holds⟩
    obtain ⟨other, found⟩ := Option.isSome_iff_exists.1 isSome
    obtain ⟨inside', filedHere', _⟩ := filed.mem_iff.1 (List.mem_of_find?_eq_some found)
    have holds' : map.address other = some lsa := by
      simpa [address] using List.find?_some found
    rw [found, filed.unique inside' inside filedHere' filedHere holds' holds]

theorem find_eq_none_iff (filed : Filed map none) :
    map.find lsa = none ↔ ∀ entry < map.size, map.address entry ≠ some lsa := by
  rw [Option.eq_none_iff_forall_ne_some]
  constructor
  · intro absent entry inside holds
    exact absent entry (filed.find_eq_some_iff.2 ⟨inside, by simp, holds⟩)
  · intro absent entry found
    obtain ⟨inside, _, holds⟩ := filed.find_eq_some_iff.1 found
    exact absent entry inside holds

/-- The filing depends on the addresses, the hash table and the members of the list. -/
theorem congr (filed : Filed map loose) (size : map'.size = map.size)
    (address : ∀ entry, map'.address entry = map.address entry)
    (hash : map'.dataBufHash = map.dataBufHash) (lru : map'.lru.Perm map.lru) :
    Filed map' loose where
  lru := by
    rw [size]
    exact lru.trans filed.lru
  mem_iff := by
    intro bucket entry
    unfold findHashTableEntry
    rw [hash, size, address]
    exact filed.mem_iff
  nodup := by
    rw [hash]
    exact filed.nodup
  unique := by
    intro first second lsa
    rw [size, address, address]
    exact filed.unique

theorem touch (filed : Filed map loose) (inside : entry < map.size) :
    Filed (map.touch entry) loose := by
  refine filed.congr rfl (fun _ => rfl) rfl ?_
  exact (List.perm_cons_erase (filed.mem_lru.2 inside)).symm

theorem mem_selectiveGet (filed : Filed map none) {bucket other : Nat} :
    other ∈ (map.selectiveGetFromHashList entry).dataBufHash bucket ↔
      other ≠ entry ∧ other ∈ map.dataBufHash bucket := by
  unfold selectiveGetFromHashList
  split
  next unassigned =>
    -- an entry without a slice is in no bucket
    have outside : entry ∉ map.dataBufHash bucket := by
      intro member
      obtain ⟨_, _, lsa, holds, _⟩ := filed.mem_iff.1 member
      rw [address, unassigned] at holds
      cases holds
    constructor
    · intro member
      refine ⟨?_, member⟩
      rintro rfl
      exact outside member
    · exact And.right
  next lsa assigned =>
    by_cases here : bucket = map.findHashTableEntry lsa
    · subst here
      simp only [update_self]
      exact (filed.nodup _).mem_erase_iff
    · simp only [update_of_ne here]
      constructor
      · intro member
        refine ⟨?_, member⟩
        rintro rfl
        obtain ⟨_, _, lsa', holds, home⟩ := filed.mem_iff.1 member
        rw [address, assigned] at holds
        cases holds
        exact here home.symm
      · exact And.right

theorem selectiveGet_nodup (filed : Filed map none) (bucket : Nat) :
    ((map.selectiveGetFromHashList entry).dataBufHash bucket).Nodup := by
  unfold selectiveGetFromHashList
  split
  · exact filed.nodup bucket
  next lsa _ =>
    by_cases here : bucket = map.findHashTableEntry lsa
    · subst here
      simp only [update_self]
      exact (filed.nodup _).erase entry
    · simp only [update_of_ne here]
      exact filed.nodup bucket

end Filed

theorem selectiveGet_fields (map : BufferMap Tag) (entry : Nat) :
    (map.selectiveGetFromHashList entry).size = map.size ∧
      (map.selectiveGetFromHashList entry).dataBuf = map.dataBuf ∧
      (map.selectiveGetFromHashList entry).lru = map.lru := by
  unfold selectiveGetFromHashList
  split <;> exact ⟨rfl, rfl, rfl⟩

theorem allocate_eq {map map' : BufferMap Tag} {entry : Nat}
    (allocated : map.allocate = some (entry, map')) :
    ∃ front, map.lru = front ++ [entry] ∧
      map' = { map with lru := entry :: front }.selectiveGetFromHashList entry := by
  obtain ⟨evicted, last, same⟩ := Option.map_eq_some_iff.1 allocated
  cases same
  exact ⟨map.lru.dropLast, (List.dropLast_append_getLast? _ last).symm, rfl⟩

namespace Filed

variable {map map' : BufferMap Tag} {loose : Option Nat} {entry lsa : Nat}

theorem exists_allocate (filed : Filed map loose) (positive : 0 < map.size) :
    ∃ entry map', map.allocate = some (entry, map') := by
  have nonempty : map.lru ≠ [] := by
    apply List.ne_nil_of_length_pos
    rw [filed.lru_length]
    exact positive
  unfold allocate
  rw [List.getLast?_eq_some_getLast nonempty]
  exact ⟨_, _, rfl⟩

theorem allocate (filed : Filed map none) (allocated : map.allocate = some (entry, map')) :
    entry < map.size ∧ Filed map' (some entry) := by
  obtain ⟨front, lru, rfl⟩ := allocate_eq allocated
  have inside : entry < map.size := filed.mem_lru.1 (by simp [lru])
  have moved : (entry :: front).Perm map.lru := by
    rw [lru]
    exact (List.perm_append_singleton entry front).symm
  have before : Filed { map with lru := entry :: front } none :=
    filed.congr rfl (fun _ => rfl) rfl moved
  obtain ⟨size, dataBuf, order⟩ := selectiveGet_fields { map with lru := entry :: front } entry
  refine ⟨inside, ?_, ?_, before.selectiveGet_nodup, ?_⟩
  · rw [order, size]
    exact before.lru
  · intro bucket other
    rw [before.mem_selectiveGet, before.mem_iff]
    simp only [address, findHashTableEntry, size, dataBuf, ne_eq, reduceCtorEq, not_false_eq_true,
      true_and, Option.some.injEq]
    constructor
    · rintro ⟨different, inside, rest⟩
      exact ⟨inside, fun same => different same.symm, rest⟩
    · rintro ⟨inside, different, rest⟩
      exact ⟨fun same => different same.symm, inside, rest⟩
  · intro first second lsa inside inside' _ _ holds holds'
    rw [size] at inside inside'
    rw [address, dataBuf] at holds holds'
    exact before.unique inside inside' (by simp) (by simp) holds holds'

/-- The entry that has just been evicted gets a slice that no other entry has. -/
theorem bind (filed : Filed map (some entry)) (inside : entry < map.size)
    (absent : ∀ other < map.size, other ≠ entry → map.address other ≠ some lsa) :
    Filed (map.bind entry lsa) none := by
  have own : (map.bind entry lsa).address entry = some lsa := by
    simp [BufferMap.bind, putToHashList, setEntry, address]
  have others : ∀ other ≠ entry, (map.bind entry lsa).address other = map.address other := by
    intro other different
    simp [BufferMap.bind, putToHashList, setEntry, address, different]
  have outside : ∀ bucket, entry ∉ map.dataBufHash bucket := by
    intro bucket member
    exact (filed.mem_iff.1 member).2.1 rfl
  have mem : ∀ bucket other, other ∈ (map.bind entry lsa).dataBufHash bucket ↔
      other ∈ map.dataBufHash bucket ∨
        (other = entry ∧ bucket = map.findHashTableEntry lsa) := by
    intro bucket other
    by_cases here : bucket = map.findHashTableEntry lsa
    · subst here
      simp [BufferMap.bind, putToHashList, setEntry, findHashTableEntry]
    · have elsewhere : bucket ≠ lsa % map.size := here
      simp [BufferMap.bind, putToHashList, setEntry, findHashTableEntry, elsewhere]
  refine ⟨filed.lru, ?_, ?_, ?_⟩
  · intro bucket other
    rw [mem]
    by_cases same : other = entry
    · subst same
      constructor
      · rintro (member | ⟨_, rfl⟩)
        · exact absurd member (outside bucket)
        · exact ⟨inside, by simp, lsa, own, rfl⟩
      · rintro ⟨_, _, lsa', holds, home⟩
        rw [own] at holds
        cases holds
        exact .inr ⟨rfl, home.symm⟩
    · rw [filed.mem_iff, others other same]
      constructor
      · rintro (⟨inside', _, rest⟩ | ⟨same', _⟩)
        · exact ⟨inside', by simp, rest⟩
        · exact absurd same' same
      · rintro ⟨inside', _, rest⟩
        exact .inl ⟨inside', fun equal => same (Option.some.inj equal).symm, rest⟩
  · intro bucket
    by_cases here : bucket = map.findHashTableEntry lsa
    · subst here
      have appended : (map.bind entry lsa).dataBufHash (map.findHashTableEntry lsa) =
          map.dataBufHash (map.findHashTableEntry lsa) ++ [entry] := by
        simp [BufferMap.bind, putToHashList, setEntry, findHashTableEntry]
      rw [appended]
      apply List.Nodup.append (filed.nodup _) (List.nodup_singleton _)
      simpa using outside _
    · have elsewhere : bucket ≠ lsa % map.size := here
      have unchanged : (map.bind entry lsa).dataBufHash bucket = map.dataBufHash bucket := by
        simp [BufferMap.bind, putToHashList, setEntry, findHashTableEntry, elsewhere]
      rw [unchanged]
      exact filed.nodup bucket
  · intro first second lsa' insideFirst insideSecond _ _ holds holds'
    by_cases isFirst : first = entry
    · by_cases isSecond : second = entry
      · rw [isFirst, isSecond]
      · rw [isFirst, own] at holds
        cases holds
        rw [others second isSecond] at holds'
        exact absurd holds' (absent second insideSecond isSecond)
    · rw [others first isFirst] at holds
      by_cases isSecond : second = entry
      · rw [isSecond, own] at holds'
        cases holds'
        exact absurd holds (absent first insideFirst isFirst)
      · rw [others second isSecond] at holds'
        exact filed.unique insideFirst insideSecond
          (fun equal => isFirst (Option.some.inj equal).symm)
          (fun equal => isSecond (Option.some.inj equal).symm) holds holds'

end Filed

/-- The slices of the entries, from the most to the least recently used one. -/
def resident (map : BufferMap Tag) : List Nat := map.lru.filterMap map.address

/-- `uses` lists the entries that the slices so far have used, with the slices.  The list of
the entries is in the order of their last uses, and the buffer holds what an abstract cache
of its size holds after the same accesses. -/
structure Recent (map : BufferMap Tag) (uses : List (Nat × Nat)) : Prop where
  ordered : LruCache.Ordered (uses.map Prod.fst) map.lru
  resident : map.resident = LruCache.run map.size (uses.map Prod.snd)
  emptyLast : map.lru.Pairwise fun newer older =>
    map.address newer = none → map.address older = none

namespace Recent

variable {map map' : BufferMap Tag} {uses : List (Nat × Nat)} {entry lsa : Nat}

theorem init (size : Nat) : Recent (BufferMap.init size : BufferMap Tag) [] where
  ordered := List.pairwise_of_forall fun _ _ => Nat.le_refl _
  resident := List.filterMap_eq_nil_iff.2 fun _ _ => rfl
  emptyLast := List.pairwise_of_forall fun _ _ _ => rfl

theorem congr (recent : Recent map uses) (size : map'.size = map.size)
    (address : map'.address = map.address) (lru : map'.lru = map.lru) : Recent map' uses where
  ordered := by
    rw [lru]
    exact recent.ordered
  resident := by
    unfold BufferMap.resident
    rw [lru, address, size]
    exact recent.resident
  emptyLast := by
    rw [lru, address]
    exact recent.emptyLast

theorem resident_length_le (filed : Filed map none) : map.resident.length ≤ map.size := by
  rw [← filed.lru_length]
  exact List.length_filterMap_le _ _

theorem mem_resident (filed : Filed map none) :
    lsa ∈ map.resident ↔ ∃ entry < map.size, map.address entry = some lsa := by
  unfold BufferMap.resident
  rw [List.mem_filterMap]
  simp only [filed.mem_lru]

theorem touch (recent : Recent map uses) (filed : Filed map none)
    (found : map.find lsa = some entry) : Recent (map.touch entry) (uses ++ [(entry, lsa)]) := by
  obtain ⟨inside, _, holds⟩ := filed.find_eq_some_iff.1 found
  obtain ⟨front, back, split⟩ := List.append_of_mem (filed.mem_lru.2 inside)
  have apart := List.nodup_middle.1 (split ▸ filed.lru_nodup)
  have notFront : entry ∉ front := fun member => (List.nodup_cons.1 apart).1 (by simp [member])
  have erased : map.lru.erase entry = front ++ back := by
    rw [split, List.erase_append_right _ notFront, List.erase_cons_head]
  have lru : (map.touch entry).lru = entry :: (front ++ back) := by
    rw [← erased]
    rfl
  constructor
  · rw [lru, List.map_append]
    exact LruCache.Ordered.use (split ▸ recent.ordered) (List.nodup_cons.1 apart).1
  · have member : lsa ∈ map.resident := (mem_resident filed).2 ⟨entry, inside, holds⟩
    have whole : map.resident =
        front.filterMap map.address ++ lsa :: back.filterMap map.address := by
      unfold BufferMap.resident
      rw [split, List.filterMap_append, List.filterMap_cons_some holds]
    have notBefore : lsa ∉ front.filterMap map.address := by
      intro other
      obtain ⟨first, listed, holds'⟩ := List.mem_filterMap.1 other
      have inside' : first < map.size := filed.mem_lru.1 (by simp [split, listed])
      cases filed.unique inside' inside (by simp) (by simp) holds' holds
      exact notFront listed
    have after : (map.touch entry).resident = lsa :: map.resident.erase lsa := by
      rw [whole, List.erase_append_right _ notBefore, List.erase_cons_head]
      unfold BufferMap.resident
      rw [lru]
      show (entry :: (front ++ back)).filterMap map.address = _
      rw [List.filterMap_cons_some holds, List.filterMap_append]
    rw [after, List.map_append, List.map_singleton, LruCache.run_append]
    show _ = LruCache.access map.size (LruCache.run map.size _) lsa
    rw [← recent.resident]
    exact (LruCache.access_of_mem member (resident_length_le filed)).symm
  · rw [lru]
    have rest : (front ++ back).Pairwise fun newer older =>
        map.address newer = none → map.address older = none :=
      (split ▸ recent.emptyLast).sublist
        (List.Sublist.append_left (List.sublist_cons_self entry back) front)
    apply List.pairwise_cons.2
    refine ⟨?_, rest⟩
    intro older _ empty
    rw [show (map.touch entry).address entry = some lsa from holds] at empty
    cases empty

variable {front : List Nat}

theorem resident_split (lru : map.lru = front ++ [entry]) :
    map.resident = front.filterMap map.address ++ (map.address entry).toList := by
  unfold BufferMap.resident
  rw [lru, List.filterMap_append]
  cases holds : map.address entry <;> simp [holds]

/-- While the entry at the end of the list has no slice, the cache is not full. -/
theorem room_of_last (filed : Filed map none)
    (lru : map.lru = front ++ [entry]) (empty : map.address entry = none) :
    map.resident.length < map.size := by
  have length : front.length + 1 = map.size := by
    rw [← filed.lru_length, lru]
    simp
  have short := List.length_filterMap_le map.address front
  rw [resident_split lru, empty, Option.toList_none, List.append_nil]
  omega

section

variable (recent : Recent map uses) (filed : Filed map none)
include recent filed

/-- When the entry at the end of the list has a slice, all entries have one. -/
theorem resident_of_last {old : Nat} (lru : map.lru = front ++ [entry])
    (holds : map.address entry = some old) : map.resident.length = map.size := by
  have assigned : ∀ other ∈ map.lru, (map.address other).isSome = true := by
    intro other listed
    rw [lru, List.mem_append, List.mem_singleton] at listed
    rcases listed with before | rfl
    · have order := recent.emptyLast
      rw [lru] at order
      have implies := (List.pairwise_append.1 order).2.2 other before entry (by simp)
      cases empty : map.address other with
      | none =>
        rw [implies empty] at holds
        cases holds
      | some _ => rfl
    · rw [holds]
      rfl
  rw [← filed.lru_length]
  exact List.filterMap_length_eq_length.2 assigned

/-- The entry at the end of the list shows what the abstract cache would evict. -/
theorem victim (lru : map.lru = front ++ [entry]) :
    map.address entry = LruCache.victim map.size map.resident := by
  unfold LruCache.victim
  cases holds : map.address entry with
  | none => rw [if_pos (room_of_last filed lru holds)]
  | some old =>
    have full := recent.resident_of_last filed lru holds
    rw [if_neg (by omega), resident_split lru, holds]
    simp

/-- A miss brings a slice in at the place of the least recently used one. -/
theorem replace (absent : map.find lsa = none) (allocated : map.allocate = some (entry, map')) :
    Recent (map'.bind entry lsa) (uses ++ [(entry, lsa)]) := by
  obtain ⟨front, last, rfl⟩ := allocate_eq allocated
  obtain ⟨size, dataBuf, order⟩ := selectiveGet_fields { map with lru := entry :: front } entry
  let bound := ({ map with lru := entry :: front }.selectiveGetFromHashList entry).bind entry lsa
  have boundSize : bound.size = map.size := size
  have lru : bound.lru = entry :: front := order
  have apart : (entry :: front).Nodup := by
    have nodup := filed.lru_nodup
    rw [last] at nodup
    exact (List.perm_append_singleton entry front).nodup_iff.1 nodup
  have notFront : entry ∉ front := (List.nodup_cons.1 apart).1
  have own : bound.address entry = some lsa := by
    simp [bound, BufferMap.bind, putToHashList, setEntry, BufferMap.address]
  have others : ∀ other ∈ front, bound.address other = map.address other := by
    intro other listed
    have different : other ≠ entry := by
      rintro rfl
      exact notFront listed
    simp [bound, BufferMap.bind, putToHashList, setEntry, BufferMap.address, different, dataBuf]
  have unheld : lsa ∉ map.resident := by
    rw [mem_resident filed]
    rintro ⟨other, inside, holds⟩
    exact filed.find_eq_none_iff.1 absent other inside holds
  constructor
  · have before : LruCache.Ordered (uses.map Prod.fst) (front ++ entry :: []) :=
      last ▸ recent.ordered
    have used := before.use (by simpa using notFront)
    rw [List.append_nil] at used
    rw [lru, List.map_append]
    exact used
  · have after : bound.resident = lsa :: front.filterMap map.address := by
      unfold BufferMap.resident
      rw [lru, List.filterMap_cons_some own, List.filterMap_congr others]
    rw [after, List.map_append, List.map_singleton, LruCache.run_append, boundSize,
      ← recent.resident]
    cases holds : map.address entry with
    | none =>
      rw [LruCache.access_of_room unheld (room_of_last filed last holds), resident_split last,
        holds]
      simp
    | some old =>
      have full := recent.resident_of_last filed last holds
      have positive : 0 < map.size := by
        rw [← filed.lru_length, last]
        simp
      rw [LruCache.access_of_full unheld full positive, resident_split last, holds]
      simp
  · rw [lru]
    apply List.pairwise_cons.2
    constructor
    · intro older _ empty
      rw [own] at empty
      cases empty
    · have before := recent.emptyLast
      rw [last] at before
      apply (List.pairwise_append.1 before).1.imp_of_mem
      intro newer older newerListed olderListed
      rw [others newer newerListed, others older olderListed]
      exact id

end

end Recent
end RwRbuf.Firmware.Requests.BufferMap
