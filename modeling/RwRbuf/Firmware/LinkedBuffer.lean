import RwRbuf.Firmware.BufferFiling
import RwRbuf.Lib.LinkedList

/-! # The linked lists of a data buffer

`DATA_BUF_ENTRY` carries two pairs of links: one for the list by recency of use, one for the
bucket of the hash table.  The functions of `data_buffer.c` and their copies in
`data_buffer_ccmd.c` differ only in the buffer on which they work.  The fields for an entry
have 16 bits, of which the value `DATA_BUF_NONE` stands for no entry; here it is `none`.
`InitDataBuf` computes the numbers, and later they only go from one field to another.
-/

namespace RwRbuf.Firmware.Requests

open LinkedList Function

/-- One buffer with its links.  `entryLinks` has the fields `prevEntry` and `nextEntry`,
`hashLinks` the fields `hashPrevEntry` and `hashNextEntry`. -/
structure LinkedBuffer (Tag : Type) where
  size : Nat
  dataBuf : Nat → BufferEntry Tag
  entryLinks : Links Nat
  lruList : Ends Nat
  hashLinks : Links Nat
  dataBufHash : Nat → Ends Nat

namespace LinkedBuffer

variable {Tag : Type}

def entryField (number : Nat) : Option Nat :=
  if number % 2 ^ 16 = 0xffff then none else some (number % 2 ^ 16)

theorem entryField_of_lt {number : Nat} (fits : number + 1 < 2 ^ 16) :
    entryField number = some number := by
  have exact : number % 2 ^ 16 = number := Nat.mod_eq_of_lt (by omega)
  rw [entryField, exact, if_neg (by omega)]

/-- `InitDataBuf` and `InitCcmdDataBuf` for a buffer of `size` entries. -/
def init (size : Nat) : LinkedBuffer Tag where
  size := size
  dataBuf := fun _ =>
    { logicalSliceAddr := none
      dirty := false
      blockingReqTail := none }
  entryLinks :=
    { prev := fun bufEntry => if bufEntry = 0 then none else entryField (bufEntry - 1)
      next := fun bufEntry => if bufEntry + 1 = size then none else entryField (bufEntry + 1) }
  lruList := ⟨some 0, entryField (size - 1)⟩
  hashLinks := ⟨fun _ => none, fun _ => none⟩
  dataBufHash := fun _ => .empty

variable (buffer : LinkedBuffer Tag)

/-- `FindDataBufHashTableEntry` and `FindCcmdDataBufHashTableEntry`. -/
def findHashTableEntry (lsa : Nat) : Nat := lsa % buffer.size

/-- The loop of `CheckDataBufHit` and `CheckCcmdDataBufHit` along one bucket.  The value is
`none` if the loop takes more than the given number of rounds. -/
def walkHashList (lsa : Nat) : Nat → Option Nat → Option (Option Nat)
  | _, none => some none
  | 0, some _ => none
  | rounds + 1, some bufEntry =>
    if (buffer.dataBuf bufEntry).logicalSliceAddr = some lsa then some (some bufEntry)
    else walkHashList lsa rounds (buffer.hashLinks.next bufEntry)

/-- What a hit does: the entry leaves its place in the list and comes to the head. -/
def moveToHead (bufEntry : Nat) : LinkedBuffer Tag :=
  let unlinked := LinkedList.unlink buffer.entryLinks buffer.lruList bufEntry
  let front := LinkedList.pushFront unlinked.1 unlinked.2 bufEntry
  { buffer with
    entryLinks := front.1
    lruList := front.2 }

/-- `CheckDataBufHit` and `CheckCcmdDataBufHit`; the inner `none` is `DATA_BUF_FAIL`. -/
def checkHit (lsa : Nat) : Option (Option (Nat × LinkedBuffer Tag)) :=
  (buffer.walkHashList lsa buffer.size
    (buffer.dataBufHash (buffer.findHashTableEntry lsa)).head).map fun found =>
      found.map fun bufEntry => (bufEntry, buffer.moveToHead bufEntry)

/-- `SelectiveGetFromDataBufHashList` and `SelectiveGetFromCcmdDataBufHashList`. -/
def selectiveGetFromHashList (bufEntry : Nat) : LinkedBuffer Tag :=
  match (buffer.dataBuf bufEntry).logicalSliceAddr with
  | none => buffer
  | some lsa =>
    let hashEntry := buffer.findHashTableEntry lsa
    let unlinked := LinkedList.unlink buffer.hashLinks (buffer.dataBufHash hashEntry) bufEntry
    { buffer with
      hashLinks := unlinked.1
      dataBufHash := update buffer.dataBufHash hashEntry unlinked.2 }

/-- `AllocateDataBuf` and `AllocateCcmdDataBuf`.  The value is `none` on the assert, and
where a list with two entries or more has no head. -/
def allocate : Option (Nat × LinkedBuffer Tag) :=
  match buffer.lruList.tail with
  | none => none
  | some evictedEntry =>
    match buffer.entryLinks.prev evictedEntry, buffer.lruList.head with
    | some before, some first =>
      let cut := buffer.entryLinks.setNext before none
      let linked := ((cut.setPrev evictedEntry none).setNext evictedEntry (some first)).setPrev
        first (some evictedEntry)
      some (evictedEntry, { buffer with
        entryLinks := linked
        lruList := ⟨some evictedEntry, some before⟩ }.selectiveGetFromHashList evictedEntry)
    | some _, none => none
    | none, _ =>
      let linked := (buffer.entryLinks.setPrev evictedEntry none).setNext evictedEntry none
      some (evictedEntry, { buffer with
        entryLinks := linked
        lruList := ⟨some evictedEntry, some evictedEntry⟩ }.selectiveGetFromHashList
          evictedEntry)

def setEntry (bufEntry : Nat) (value : BufferEntry Tag) : LinkedBuffer Tag :=
  { buffer with dataBuf := update buffer.dataBuf bufEntry value }

def setDirty (bufEntry : Nat) : LinkedBuffer Tag :=
  buffer.setEntry bufEntry { buffer.dataBuf bufEntry with dirty := true }

/-- `PutToDataBufHashList` and `PutToCcmdDataBufHashList` of an entry whose slice is `lsa`. -/
def putToHashList (bufEntry lsa : Nat) : LinkedBuffer Tag :=
  let hashEntry := buffer.findHashTableEntry lsa
  let pushed := LinkedList.pushBack buffer.hashLinks (buffer.dataBufHash hashEntry) bufEntry
  { buffer with
    hashLinks := pushed.1
    dataBufHash := update buffer.dataBufHash hashEntry pushed.2 }

/-- The entry, clean after its eviction, takes over a new logical slice. -/
def bind (bufEntry lsa : Nat) : LinkedBuffer Tag :=
  (buffer.setEntry bufEntry
    { buffer.dataBuf bufEntry with
      logicalSliceAddr := some lsa
      dirty := false }).putToHashList bufEntry lsa

/-- The links hold the lists of `map`. -/
structure Represents (buffer : LinkedBuffer Tag) (map : BufferMap Tag) : Prop where
  size : buffer.size = map.size
  dataBuf : buffer.dataBuf = map.dataBuf
  lru : Holds buffer.entryLinks buffer.lruList map.lru
  hash : Family buffer.hashLinks buffer.dataBufHash map.dataBufHash

theorem Represents.findHashTableEntry {buffer : LinkedBuffer Tag} {map : BufferMap Tag}
    (represents : Represents buffer map) : buffer.findHashTableEntry = map.findHashTableEntry := by
  funext lsa
  unfold LinkedBuffer.findHashTableEntry BufferMap.findHashTableEntry
  rw [represents.size]

/-- The links that `InitDataBuf` writes chain the entries in the order of their numbers. -/
theorem init_segment {size : Nat} (fits : size < 2 ^ 16) (start count : Nat)
    (last : start + count = size) :
    Segment (init size : LinkedBuffer Tag).entryLinks (if start = 0 then none else some (start - 1))
      (List.range' start count) none := by
  induction count generalizing start with
  | zero => trivial
  | succ count ih =>
    refine ⟨?_, ?_, ?_⟩
    · show (if start = 0 then none else entryField (start - 1)) = _
      rw [entryField_of_lt (by omega)]
    · show (if start + 1 = size then none else entryField (start + 1)) = _
      cases count with
      | zero =>
        rw [if_pos last]
        rfl
      | succ count =>
        rw [if_neg (by omega), entryField_of_lt (by omega)]
        simp [List.range'_succ]
    · exact ih (start + 1) (by omega)

theorem init_represents {size : Nat} (positive : 0 < size) (fits : size < 2 ^ 16) :
    Represents (init size : LinkedBuffer Tag) (BufferMap.init size) where
  size := rfl
  dataBuf := rfl
  lru := by
    obtain ⟨count, rfl⟩ : ∃ count, size = count + 1 := ⟨size - 1, by omega⟩
    refine ⟨List.nodup_range, ?_, ?_, ?_⟩
    · simp [init, BufferMap.init, List.range_succ_eq_map]
    · simp [init, BufferMap.init, List.range_succ, entryField_of_lt fits]
    · show Segment (init (count + 1) : LinkedBuffer Tag).entryLinks none
        (List.range (count + 1)) none
      rw [List.range_eq_range']
      exact init_segment fits 0 (count + 1) (by omega)
  hash := by
    refine ⟨fun _ => holds_empty _, ?_⟩
    intro _ _ _ member
    cases member

variable {buffer : LinkedBuffer Tag} {map map' : BufferMap Tag} {bufEntry lsa : Nat}

/-- The loop goes along the entries of a bucket until it finds the slice. -/
theorem walkHashList_eq (buffer : LinkedBuffer Tag) (lsa : Nat) {nodes : List Nat}
    {before : Option Nat} (chained : Segment buffer.hashLinks before nodes none) {rounds : Nat}
    (enough : nodes.length ≤ rounds) :
    buffer.walkHashList lsa rounds nodes.head? =
      some (nodes.find? fun entry => (buffer.dataBuf entry).logicalSliceAddr = some lsa) := by
  induction nodes generalizing before rounds with
  | nil => cases rounds <;> rfl
  | cons node nodes ih =>
    obtain ⟨_, next, rest⟩ := chained
    cases rounds with
    | zero => cases enough
    | succ rounds =>
      rw [Option.or_none] at next
      rw [List.head?_cons, walkHashList]
      by_cases found : (buffer.dataBuf node).logicalSliceAddr = some lsa
      · rw [if_pos found, List.find?_cons_of_pos (by simpa using found)]
      · rw [if_neg found, next, List.find?_cons_of_neg (by simpa using found)]
        exact ih rest (Nat.le_of_succ_le_succ enough)

section

variable (represents : Represents buffer map)
include represents

/-- `CheckDataBufHit` ends, and it finds what the bucket holds. -/
theorem checkHit_eq (filed : map.Filed none) (lsa : Nat) :
    buffer.checkHit lsa =
      some ((map.find lsa).map fun entry => (entry, buffer.moveToHead entry)) := by
  have bucket := represents.hash.holds (map.findHashTableEntry lsa)
  have enough : (map.dataBufHash (map.findHashTableEntry lsa)).length ≤ buffer.size := by
    rw [represents.size, ← List.length_range (n := map.size)]
    apply List.Subperm.length_le
    apply List.subperm_of_subset (filed.nodup _)
    intro entry member
    exact List.mem_range.2 (filed.mem_iff.1 member).1
  unfold checkHit
  rw [represents.findHashTableEntry, bucket.head, buffer.walkHashList_eq lsa bucket.segment enough,
    represents.dataBuf]
  rfl

theorem moveToHead_represents (member : bufEntry ∈ map.lru) :
    Represents (buffer.moveToHead bufEntry) (map.touch bufEntry) where
  size := represents.size
  dataBuf := represents.dataBuf
  lru := by
    apply pushFront_holds (unlink_holds_erase represents.lru member)
    exact represents.lru.nodup.not_mem_erase
  hash := represents.hash

theorem selectiveGet_represents (filed : map.Filed none) (inside : bufEntry < map.size) :
    Represents (buffer.selectiveGetFromHashList bufEntry)
      (map.selectiveGetFromHashList bufEntry) := by
  unfold selectiveGetFromHashList BufferMap.selectiveGetFromHashList
  rw [represents.dataBuf, represents.findHashTableEntry]
  cases assigned : (map.dataBuf bufEntry).logicalSliceAddr with
  | none => exact represents
  | some lsa =>
    refine ⟨represents.size, rfl, represents.lru, ?_⟩
    apply represents.hash.unlink
    exact filed.mem_iff.2 ⟨inside, by simp, lsa, assigned, rfl⟩

/-- The links after `AllocateDataBuf` are those of an entry moved to the head. -/
theorem allocate_eq {front : List Nat} (last : map.lru = front ++ [bufEntry]) :
    buffer.allocate =
      some (bufEntry, (buffer.moveToHead bufEntry).selectiveGetFromHashList bufEntry) := by
  have listed : Holds buffer.entryLinks buffer.lruList (front ++ bufEntry :: []) :=
    last ▸ represents.lru
  obtain ⟨prev, next⟩ := listed.neighbours
  have tail : buffer.lruList.tail = some bufEntry := by
    rw [listed.tail]
    simp
  have head := listed.head
  unfold allocate
  rw [tail]
  rcases List.eq_nil_or_concat front with rfl | ⟨front, before, rfl⟩
  · have noPrev : buffer.entryLinks.prev bufEntry = none := by simpa using prev
    have noNext : buffer.entryLinks.next bufEntry = none := by simpa using next
    simp [noPrev, noNext, moveToHead, LinkedList.unlink, pushFront, Ends.empty]
  · have isPrev : buffer.entryLinks.prev bufEntry = some before := by simpa using prev
    have noNext : buffer.entryLinks.next bufEntry = none := by simpa using next
    obtain ⟨first, isFirst⟩ : ∃ first, buffer.lruList.head = some first := by
      rw [head]
      cases front with
      | nil => exact ⟨before, by simp⟩
      | cons first rest => exact ⟨first, by simp⟩
    simp [isPrev, noNext, isFirst, moveToHead, LinkedList.unlink, pushFront]

theorem allocate_represents (filed : map.Filed none)
    (allocated : map.allocate = some (bufEntry, map')) :
    ∃ buffer', buffer.allocate = some (bufEntry, buffer') ∧ Represents buffer' map' := by
  obtain ⟨front, last, rfl⟩ := BufferMap.allocate_eq allocated
  refine ⟨_, allocate_eq represents last, ?_⟩
  have member : bufEntry ∈ map.lru := by simp [last]
  have inside := filed.mem_lru.1 member
  have moved := moveToHead_represents represents member
  have erased : map.lru.erase bufEntry = front := by
    have nodup := filed.lru_nodup
    rw [last] at nodup ⊢
    have outside : bufEntry ∉ front := by
      intro listed
      exact (List.nodup_append.1 nodup).2.2 bufEntry listed bufEntry (by simp) rfl
    rw [List.erase_append_right _ outside]
    simp
  have touched : map.touch bufEntry = { map with lru := bufEntry :: front } := by
    unfold BufferMap.touch
    rw [erased]
  rw [← touched]
  exact selectiveGet_represents moved (filed.touch inside) inside

theorem setDirty_represents (bufEntry : Nat) :
    Represents (buffer.setDirty bufEntry) (map.setDirty bufEntry) where
  size := represents.size
  dataBuf := by
    unfold setDirty BufferMap.setDirty setEntry BufferMap.setEntry
    rw [represents.dataBuf]
  lru := represents.lru
  hash := represents.hash

theorem bind_represents (filed : map.Filed (some bufEntry)) (lsa : Nat) :
    Represents (buffer.bind bufEntry lsa) (map.bind bufEntry lsa) where
  size := represents.size
  dataBuf := by
    unfold bind BufferMap.bind putToHashList BufferMap.putToHashList setEntry BufferMap.setEntry
    rw [represents.dataBuf]
  lru := represents.lru
  hash := by
    have outside : ∀ bucket, bufEntry ∉ map.dataBufHash bucket := by
      intro bucket member
      exact (filed.mem_iff.1 member).2.1 rfl
    have pushed := represents.hash.pushBack (map.findHashTableEntry lsa) outside
    unfold bind putToHashList findHashTableEntry
    dsimp only [setEntry]
    rw [represents.size]
    exact pushed

end

end LinkedBuffer
end RwRbuf.Firmware.Requests
