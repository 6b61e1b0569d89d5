import RwRbuf.Firmware.LinkedBuffer

/-! # The two buffers as caches

This is what the loop of `ReqTransSliceToLowLevel` does to the data buffer and R-Buf for one
slice after another.  Both buffers stay what they are meant to be: two caches that hold no
slice twice and evict the least recently used one.
-/

namespace RwRbuf.Firmware.Requests

open LinkedList Function

variable {Tag : Type}

/-- The buffers between two slices.  `uses` is not in the source: it records the entry that
each slice has used, with the logical slice. -/
structure SliceBuffers (Tag : Type) where
  buffer : BufferKind → LinkedBuffer Tag
  uses : List (BufferRef × Nat)

namespace SliceBuffers

/-- The buffers after `InitDataBuf` and `InitCcmdDataBuf`. -/
def init (dataBufSize ccmdDataBufSize : Nat) : SliceBuffers Tag where
  buffer := fun
    | .dataBuf => .init dataBufSize
    | .ccmdDataBuf => .init ccmdDataBufSize
    | .tempDataBuf => .init 0
  uses := []

variable (buffers : SliceBuffers Tag)

def checkDataBufHit (lsa : Nat) : Option (Option (Nat × LinkedBuffer Tag)) :=
  (buffers.buffer .dataBuf).checkHit lsa

def checkCcmdDataBufHit (lsa : Nat) : Option (Option (Nat × LinkedBuffer Tag)) :=
  (buffers.buffer .ccmdDataBuf).checkHit lsa

def allocateDataBuf : Option (Nat × LinkedBuffer Tag) := (buffers.buffer .dataBuf).allocate

def allocateCcmdDataBuf : Option (Nat × LinkedBuffer Tag) :=
  (buffers.buffer .ccmdDataBuf).allocate

/-- The slice uses the entry `ref` of a buffer that has become `buffer`; a write makes the
entry dirty. -/
def use (slice : Slice) (ref : BufferRef) (buffer : LinkedBuffer Tag) : SliceBuffers Tag where
  buffer := update buffers.buffer ref.kind
    (if slice.code = .write then buffer.setDirty ref.entry else buffer)
  uses := buffers.uses ++ [(ref, slice.logicalSliceAddr)]

/-- One round of the loop of `ReqTransSliceToLowLevel`. -/
def transSlice (slice : Slice) : Option (SliceBuffers Tag) :=
  match buffers.checkDataBufHit slice.logicalSliceAddr with
  | none => none
  | some (some (entry, hit)) => some (buffers.use slice ⟨.dataBuf, entry⟩ hit)
  | some none =>
    match buffers.checkCcmdDataBufHit slice.logicalSliceAddr with
    | none => none
    | some (some (entry, hit)) => some (buffers.use slice ⟨.ccmdDataBuf, entry⟩ hit)
    | some none =>
      if slice.code = .read then
        buffers.allocateCcmdDataBuf.map fun (entry, allocated) =>
          buffers.use slice ⟨.ccmdDataBuf, entry⟩
            (allocated.bind entry slice.logicalSliceAddr)
      else
        buffers.allocateDataBuf.map fun (entry, allocated) =>
          buffers.use slice ⟨.dataBuf, entry⟩ (allocated.bind entry slice.logicalSliceAddr)

def transSlices : List Slice → SliceBuffers Tag → Option (SliceBuffers Tag)
  | [], buffers => some buffers
  | slice :: slices, buffers => (buffers.transSlice slice).bind (transSlices slices)

/-- The entries of a buffer that were used, in this order, with the logical slices. -/
def usesOf (uses : List (BufferRef × Nat)) (kind : BufferKind) : List (Nat × Nat) :=
  (uses.filter fun use => use.1.kind = kind).map fun use => (use.1.entry, use.2)

theorem usesOf_append_self (uses : List (BufferRef × Nat)) (ref : BufferRef) (lsa : Nat) :
    usesOf (uses ++ [(ref, lsa)]) ref.kind = usesOf uses ref.kind ++ [(ref.entry, lsa)] := by
  simp [usesOf]

theorem usesOf_append_of_ne (uses : List (BufferRef × Nat)) {ref : BufferRef}
    {kind : BufferKind} (lsa : Nat) (different : ref.kind ≠ kind) :
    usesOf (uses ++ [(ref, lsa)]) kind = usesOf uses kind := by
  simp [usesOf, different]

/-- The entry `ref` of the two buffers has the logical slice `lsa`. -/
structure Occupies (maps : BufferKind → BufferMap Tag) (ref : BufferRef) (lsa : Nat) : Prop where
  kind : ref.kind ≠ .tempDataBuf
  inside : ref.entry < (maps ref.kind).size
  address : (maps ref.kind).address ref.entry = some lsa

/-- The lists `maps` that the links hold, and what is known of them. -/
structure Cached (buffers : SliceBuffers Tag) (maps : BufferKind → BufferMap Tag) : Prop where
  represents : ∀ kind, kind ≠ .tempDataBuf → (buffers.buffer kind).Represents (maps kind)
  positive : ∀ kind, kind ≠ .tempDataBuf → 0 < (maps kind).size
  filed : ∀ kind, kind ≠ .tempDataBuf → (maps kind).Filed none
  recent : ∀ kind, kind ≠ .tempDataBuf → (maps kind).Recent (usesOf buffers.uses kind)
  exclusive : ∀ {first second lsa}, Occupies maps first lsa → Occupies maps second lsa →
    first = second

namespace Cached

variable {buffers : SliceBuffers Tag} {maps : BufferKind → BufferMap Tag}

theorem init {dataBufSize ccmdDataBufSize : Nat} (dataPos : 0 < dataBufSize)
    (dataFits : dataBufSize < 2 ^ 16) (ccmdPos : 0 < ccmdDataBufSize)
    (ccmdFits : ccmdDataBufSize < 2 ^ 16) :
    Cached (SliceBuffers.init dataBufSize ccmdDataBufSize : SliceBuffers Tag) fun
      | .dataBuf => .init dataBufSize
      | .ccmdDataBuf => .init ccmdDataBufSize
      | .tempDataBuf => .init 0 where
  represents := by
    intro kind cached
    cases kind with
    | dataBuf => exact LinkedBuffer.init_represents dataPos dataFits
    | ccmdDataBuf => exact LinkedBuffer.init_represents ccmdPos ccmdFits
    | tempDataBuf => exact absurd rfl cached
  positive := by
    intro kind cached
    cases kind with
    | dataBuf => exact dataPos
    | ccmdDataBuf => exact ccmdPos
    | tempDataBuf => exact absurd rfl cached
  filed := by
    intro kind _
    cases kind <;> exact .init _
  recent := by
    intro kind _
    cases kind <;> exact .init _
  exclusive := by
    intro first second lsa holds
    have address := holds.address
    cases kind : first.kind <;> simp [kind, BufferMap.address, BufferMap.init] at address

/-- The buffer of the slice changes: the entry of the slice has its address, the other
entries keep theirs. -/
structure Serves (buffers : SliceBuffers Tag) (maps : BufferKind → BufferMap Tag) (lsa : Nat)
    (ref : BufferRef) (buffer : LinkedBuffer Tag) (map : BufferMap Tag) : Prop where
  kind : ref.kind ≠ .tempDataBuf
  represents : buffer.Represents map
  size : map.size = (maps ref.kind).size
  filed : map.Filed none
  recent : map.Recent (usesOf buffers.uses ref.kind ++ [(ref.entry, lsa)])
  own : map.address ref.entry = some lsa
  others : ∀ entry ≠ ref.entry, map.address entry = (maps ref.kind).address entry
  unheld : ∀ other ≠ ref, ¬Occupies maps other lsa

variable {slice : Slice} {lsa : Nat} {ref : BufferRef} {buffer : LinkedBuffer Tag}
  {map : BufferMap Tag}

theorem Serves.setDirty (serves : Serves buffers maps lsa ref buffer map) :
    Serves buffers maps lsa ref (buffer.setDirty ref.entry) (map.setDirty ref.entry) := by
  have address : (map.setDirty ref.entry).address = map.address := by
    funext entry
    by_cases same : entry = ref.entry <;>
      simp [BufferMap.setDirty, BufferMap.setEntry, BufferMap.address, same]
  constructor
  · exact serves.kind
  · exact LinkedBuffer.setDirty_represents serves.represents ref.entry
  · exact serves.size
  · exact serves.filed.congr rfl (fun entry => congrFun address entry) rfl (List.Perm.refl _)
  · exact serves.recent.congr rfl address rfl
  · rw [address]
    exact serves.own
  · rw [address]
    exact serves.others
  · exact serves.unheld

theorem Serves.holds_cases (serves : Serves buffers maps lsa ref buffer map) {other : BufferRef}
    {lsa' : Nat} (holds : Occupies (update maps ref.kind map) other lsa') :
    (other = ref ∧ lsa' = lsa) ∨ (other ≠ ref ∧ Occupies maps other lsa') := by
  obtain ⟨kind, inside, address⟩ := holds
  by_cases same : other = ref
  · subst same
    rw [update_self, serves.own] at address
    exact .inl ⟨rfl, (Option.some.inj address).symm⟩
  · refine .inr ⟨same, kind, ?_, ?_⟩
    · by_cases here : other.kind = ref.kind
      · rw [here, update_self, serves.size] at inside
        rw [here]
        exact inside
      · rw [update_of_ne here] at inside
        exact inside
    · by_cases here : other.kind = ref.kind
      · have elsewhere : other.entry ≠ ref.entry := by
          intro entry
          apply same
          cases other
          cases ref
          cases here
          cases entry
          rfl
        rw [here, update_self, serves.others _ elsewhere] at address
        rw [here]
        exact address
      · rw [update_of_ne here] at address
        exact address

section

variable (cached : Cached buffers maps)
include cached

theorem serve (serves : Serves buffers maps lsa ref buffer map) {after : SliceBuffers Tag}
    (changed : after.buffer = update buffers.buffer ref.kind buffer)
    (uses : after.uses = buffers.uses ++ [(ref, lsa)]) :
    Cached after (update maps ref.kind map) where
  represents := by
    intro kind cachedKind
    rw [changed]
    by_cases here : kind = ref.kind
    · subst here
      simpa using serves.represents
    · simpa [here] using cached.represents kind cachedKind
  positive := by
    intro kind cachedKind
    by_cases here : kind = ref.kind
    · subst here
      rw [update_self, serves.size]
      exact cached.positive _ cachedKind
    · simpa [here] using cached.positive kind cachedKind
  filed := by
    intro kind cachedKind
    by_cases here : kind = ref.kind
    · subst here
      simpa using serves.filed
    · simpa [here] using cached.filed kind cachedKind
  recent := by
    intro kind cachedKind
    rw [uses]
    by_cases here : kind = ref.kind
    · subst here
      rw [update_self, usesOf_append_self]
      exact serves.recent
    · rw [update_of_ne here, usesOf_append_of_ne _ _ (Ne.symm here)]
      exact cached.recent kind cachedKind
  exclusive := by
    intro first second lsa' holds holds'
    rcases serves.holds_cases holds with ⟨rfl, rfl⟩ | ⟨elsewhere, before⟩
    · rcases serves.holds_cases holds' with ⟨same, _⟩ | ⟨elsewhere, before⟩
      · exact same.symm
      · exact absurd before (serves.unheld second elsewhere)
    · rcases serves.holds_cases holds' with ⟨_, rfl⟩ | ⟨_, before'⟩
      · exact absurd before (serves.unheld first elsewhere)
      · exact cached.exclusive before before'

theorem use (serves : Serves buffers maps slice.logicalSliceAddr ref buffer map) :
    ∃ maps', Cached (buffers.use slice ref buffer) maps' ∧
      ∀ kind, (maps' kind).size = (maps kind).size := by
  have sizes : ∀ map' : BufferMap Tag, map'.size = (maps ref.kind).size →
      ∀ kind, (update maps ref.kind map' kind).size = (maps kind).size := by
    intro map' size kind
    by_cases here : kind = ref.kind
    · subst here
      simpa using size
    · simp [here]
  by_cases write : slice.code = .write
  · refine ⟨_, cached.serve serves.setDirty ?_ rfl, sizes _ serves.setDirty.size⟩
    simp [SliceBuffers.use, write]
  · refine ⟨_, cached.serve serves ?_ rfl, sizes _ serves.size⟩
    simp [SliceBuffers.use, write]

theorem serves_of_hit (kind : BufferKind)
    (cachedKind : kind ≠ .tempDataBuf) {entry : Nat} (found : (maps kind).find lsa = some entry) :
    Serves buffers maps lsa ⟨kind, entry⟩ ((buffers.buffer kind).moveToHead entry)
      ((maps kind).touch entry) := by
  have filed := cached.filed kind cachedKind
  obtain ⟨inside, _, address⟩ := filed.find_eq_some_iff.1 found
  constructor
  · exact cachedKind
  · exact LinkedBuffer.moveToHead_represents (cached.represents kind cachedKind)
      (filed.mem_lru.2 inside)
  · rfl
  · exact filed.touch inside
  · exact (cached.recent kind cachedKind).touch filed found
  · exact address
  · intro other _
    rfl
  · intro other different holds
    have here : Occupies maps ⟨kind, entry⟩ lsa := ⟨cachedKind, inside, address⟩
    exact different (cached.exclusive holds here)

theorem serves_of_miss (kind : BufferKind)
    (cachedKind : kind ≠ .tempDataBuf) (absent : ∀ ref, ¬Occupies maps ref lsa) {entry : Nat}
    {map' : BufferMap Tag} (allocated : (maps kind).allocate = some (entry, map'))
    (represents : buffer.Represents map') :
    Serves buffers maps lsa ⟨kind, entry⟩ (buffer.bind entry lsa) (map'.bind entry lsa) := by
  have filed := cached.filed kind cachedKind
  obtain ⟨inside, evicted⟩ := filed.allocate allocated
  obtain ⟨front, last, same⟩ := BufferMap.allocate_eq allocated
  obtain ⟨size, dataBuf, _⟩ :=
    BufferMap.selectiveGet_fields { maps kind with lru := entry :: front } entry
  rw [← same] at size dataBuf
  have unheld : ∀ other < (maps kind).size, (maps kind).address other ≠ some lsa := by
    intro other inside' address
    exact absent ⟨kind, other⟩ ⟨cachedKind, inside', address⟩
  constructor
  · exact cachedKind
  · exact LinkedBuffer.bind_represents represents evicted lsa
  · exact size
  · apply evicted.bind
    · rw [size]
      exact inside
    · intro other inside' _
      rw [size] at inside'
      rw [BufferMap.address, dataBuf]
      exact unheld other inside'
  · exact (cached.recent kind cachedKind).replace filed (filed.find_eq_none_iff.2 unheld) allocated
  · simp [BufferMap.bind, BufferMap.putToHashList, BufferMap.setEntry, BufferMap.address]
  · intro other different
    simp only [BufferMap.bind, BufferMap.putToHashList, BufferMap.setEntry, BufferMap.address,
      update_of_ne different, dataBuf]
  · intro other _
    exact absent other

theorem absent_of_find (inData : (maps .dataBuf).find lsa = none)
    (inCcmd : (maps .ccmdDataBuf).find lsa = none) (ref : BufferRef) : ¬Occupies maps ref lsa := by
  obtain ⟨kind, entry⟩ := ref
  rintro ⟨cachedKind, inside, address⟩
  cases kind with
  | dataBuf => exact (cached.filed _ cachedKind).find_eq_none_iff.1 inData entry inside address
  | ccmdDataBuf =>
    exact (cached.filed _ cachedKind).find_eq_none_iff.1 inCcmd entry inside address
  | tempDataBuf => exact cachedKind rfl

theorem transSlice (slice : Slice) :
    ∃ buffers' maps', buffers.transSlice slice = some buffers' ∧ Cached buffers' maps' ∧
      (∀ kind, (maps' kind).size = (maps kind).size) ∧
      buffers'.uses.map Prod.snd = buffers.uses.map Prod.snd ++ [slice.logicalSliceAddr] := by
  have recorded : ∀ ref (buffer : LinkedBuffer Tag),
      (buffers.use slice ref buffer).uses.map Prod.snd =
        buffers.uses.map Prod.snd ++ [slice.logicalSliceAddr] := by
    intro ref buffer
    simp [SliceBuffers.use]
  have dataHit := LinkedBuffer.checkHit_eq (cached.represents .dataBuf BufferKind.noConfusion)
    (cached.filed .dataBuf BufferKind.noConfusion) slice.logicalSliceAddr
  have ccmdHit := LinkedBuffer.checkHit_eq
    (cached.represents .ccmdDataBuf BufferKind.noConfusion)
    (cached.filed .ccmdDataBuf BufferKind.noConfusion) slice.logicalSliceAddr
  unfold SliceBuffers.transSlice checkDataBufHit checkCcmdDataBufHit
  rw [dataHit, ccmdHit]
  cases inData : (maps .dataBuf).find slice.logicalSliceAddr with
  | some entry =>
    obtain ⟨maps', after⟩ := cached.use
      (cached.serves_of_hit .dataBuf BufferKind.noConfusion inData)
    exact ⟨_, maps', rfl, after.1, after.2, recorded _ _⟩
  | none =>
    cases inCcmd : (maps .ccmdDataBuf).find slice.logicalSliceAddr with
    | some entry =>
      obtain ⟨maps', after⟩ := cached.use
        (cached.serves_of_hit .ccmdDataBuf BufferKind.noConfusion inCcmd)
      exact ⟨_, maps', rfl, after.1, after.2, recorded _ _⟩
    | none =>
      have absent := cached.absent_of_find inData inCcmd
      have miss : ∀ kind, kind ≠ .tempDataBuf → ∃ entry allocated maps',
          (buffers.buffer kind).allocate = some (entry, allocated) ∧
          Cached (buffers.use slice ⟨kind, entry⟩
            (allocated.bind entry slice.logicalSliceAddr)) maps' ∧
          ∀ kind, (maps' kind).size = (maps kind).size := by
        intro kind cachedKind
        have filed := cached.filed kind cachedKind
        obtain ⟨entry, map', allocates⟩ :=
          filed.exists_allocate (cached.positive kind cachedKind)
        obtain ⟨allocated, linked, represents⟩ := LinkedBuffer.allocate_represents
          (cached.represents kind cachedKind) filed allocates
        obtain ⟨maps', after⟩ := cached.use
          (cached.serves_of_miss kind cachedKind absent allocates represents)
        exact ⟨entry, allocated, maps', linked, after⟩
      dsimp only [Option.map_none]
      split
      · obtain ⟨entry, allocated, maps', linked, after⟩ :=
          miss .ccmdDataBuf BufferKind.noConfusion
        rw [allocateCcmdDataBuf, linked]
        exact ⟨_, maps', rfl, after.1, after.2, recorded _ _⟩
      · obtain ⟨entry, allocated, maps', linked, after⟩ := miss .dataBuf BufferKind.noConfusion
        rw [allocateDataBuf, linked]
        exact ⟨_, maps', rfl, after.1, after.2, recorded _ _⟩

theorem transSlices (slices : List Slice) :
    ∃ buffers' maps', SliceBuffers.transSlices slices buffers = some buffers' ∧
      Cached buffers' maps' ∧ (∀ kind, (maps' kind).size = (maps kind).size) ∧
      buffers'.uses.map Prod.snd =
        buffers.uses.map Prod.snd ++ slices.map Slice.logicalSliceAddr := by
  induction slices generalizing buffers maps with
  | nil => exact ⟨buffers, maps, rfl, cached, fun _ => rfl, by simp⟩
  | cons slice slices ih =>
    obtain ⟨middle, middleMaps, first, middleCached, middleSizes, middleUses⟩ :=
      cached.transSlice slice
    obtain ⟨buffers', maps', rest, after, sizes, uses⟩ := ih middleCached
    refine ⟨buffers', maps', ?_, after, fun kind => (sizes kind).trans (middleSizes kind), ?_⟩
    · rw [SliceBuffers.transSlices, first]
      exact rest
    · rw [uses, middleUses]
      simp

end

end Cached

/-- The entry `ref` has the logical slice `lsa`. -/
def Contains (buffers : SliceBuffers Tag) (ref : BufferRef) (lsa : Nat) : Prop :=
  ref.entry < (buffers.buffer ref.kind).size ∧
    ((buffers.buffer ref.kind).dataBuf ref.entry).logicalSliceAddr = some lsa

def accesses (buffers : SliceBuffers Tag) (kind : BufferKind) : List Nat :=
  (usesOf buffers.uses kind).map Prod.snd

def entriesUsed (buffers : SliceBuffers Tag) (kind : BufferKind) : List Nat :=
  (usesOf buffers.uses kind).map Prod.fst

/-- One of the two buffers is a cache of its size with correct links. -/
structure IsCache (buffers : SliceBuffers Tag) (kind : BufferKind) : Prop where
  found : ∀ lsa, ∃ hit, (buffers.buffer kind).checkHit lsa = some hit ∧
    ∀ entry, hit.map Prod.fst = some entry ↔ buffers.Contains ⟨kind, entry⟩ lsa
  hashed : ∀ bucket, ∃ chain,
    LinkedList.Holds (buffers.buffer kind).hashLinks ((buffers.buffer kind).dataBufHash bucket)
      chain ∧
    ∀ entry, entry ∈ chain ↔ ∃ lsa, buffers.Contains ⟨kind, entry⟩ lsa ∧
      (buffers.buffer kind).findHashTableEntry lsa = bucket
  listed : ∃ order,
    LinkedList.Holds (buffers.buffer kind).entryLinks (buffers.buffer kind).lruList order ∧
    order.Perm (List.range (buffers.buffer kind).size) ∧
    LruCache.Ordered (buffers.entriesUsed kind) order ∧
    order.filterMap (fun entry => ((buffers.buffer kind).dataBuf entry).logicalSliceAddr) =
      LruCache.run (buffers.buffer kind).size (buffers.accesses kind)
  evicts : ∃ entry allocated, (buffers.buffer kind).allocate = some (entry, allocated) ∧
    entry < (buffers.buffer kind).size ∧
    ((buffers.buffer kind).dataBuf entry).logicalSliceAddr =
      LruCache.victim (buffers.buffer kind).size
        (LruCache.run (buffers.buffer kind).size (buffers.accesses kind)) ∧
    ∀ other < (buffers.buffer kind).size,
      LruCache.lastUse (buffers.entriesUsed kind) entry ≤
        LruCache.lastUse (buffers.entriesUsed kind) other

section

variable {buffers : SliceBuffers Tag} {maps : BufferKind → BufferMap Tag}
  (cached : Cached buffers maps)
include cached

theorem Cached.contains_iff {ref : BufferRef} (kind : ref.kind ≠ .tempDataBuf)
    {lsa : Nat} : buffers.Contains ref lsa ↔ Occupies maps ref lsa := by
  have represents := cached.represents ref.kind kind
  unfold Contains
  rw [represents.size, represents.dataBuf]
  exact ⟨fun here => ⟨kind, here.1, here.2⟩, fun here => ⟨here.inside, here.address⟩⟩

theorem Cached.isCache (kind : BufferKind) (cachedKind : kind ≠ .tempDataBuf) :
    buffers.IsCache kind := by
  have represents := cached.represents kind cachedKind
  have filed := cached.filed kind cachedKind
  have recent := cached.recent kind cachedKind
  have contains : ∀ entry lsa, buffers.Contains ⟨kind, entry⟩ lsa ↔
      entry < (maps kind).size ∧ (maps kind).address entry = some lsa := by
    intro entry lsa
    have occupies : buffers.Contains ⟨kind, entry⟩ lsa ↔ Occupies maps ⟨kind, entry⟩ lsa :=
      cached.contains_iff cachedKind
    rw [occupies]
    exact ⟨fun here => ⟨here.inside, here.address⟩, fun here => ⟨cachedKind, here.1, here.2⟩⟩
  constructor
  · intro lsa
    refine ⟨_, LinkedBuffer.checkHit_eq represents filed lsa, ?_⟩
    intro entry
    rw [Option.map_map, contains]
    show ((maps kind).find lsa).map id = some entry ↔ _
    rw [Option.map_id, id, filed.find_eq_some_iff]
    simp
  · intro bucket
    refine ⟨_, represents.hash.holds bucket, ?_⟩
    intro entry
    rw [filed.mem_iff, represents.findHashTableEntry]
    constructor
    · rintro ⟨inside, _, lsa, address, home⟩
      exact ⟨lsa, (contains entry lsa).2 ⟨inside, address⟩, home⟩
    · rintro ⟨lsa, here, home⟩
      obtain ⟨inside, address⟩ := (contains entry lsa).1 here
      exact ⟨inside, by simp, lsa, address, home⟩
  · refine ⟨_, represents.lru, ?_, recent.ordered, ?_⟩
    · rw [represents.size]
      exact filed.lru
    · rw [represents.size, represents.dataBuf]
      exact recent.resident
  · obtain ⟨entry, map', allocated⟩ := filed.exists_allocate (cached.positive kind cachedKind)
    obtain ⟨buffer', linked, _⟩ := LinkedBuffer.allocate_represents represents filed allocated
    obtain ⟨front, last, _⟩ := BufferMap.allocate_eq allocated
    refine ⟨entry, buffer', linked, ?_, ?_, ?_⟩
    · rw [represents.size]
      exact (filed.allocate allocated).1
    · rw [represents.size, represents.dataBuf]
      exact (recent.victim filed last).trans (by rw [recent.resident]; rfl)
    · intro other inside
      rw [represents.size] at inside
      have member := filed.mem_lru.2 inside
      have ordered := recent.ordered
      rw [last] at ordered member
      rcases List.mem_append.1 member with before | here
      · exact (List.pairwise_append.1 ordered).2.2 other before entry (by simp)
      · rw [List.mem_singleton.1 here]

end

end SliceBuffers

/-- After any sequence of slices both buffers are caches that evict the least recently used
slice, and no logical slice is in two entries, as long as the numbers of the entries are
below `DATA_BUF_NONE`. -/
theorem buffers_are_lru_caches (Tag : Type) {dataBufSize ccmdDataBufSize : Nat}
    (dataPos : 0 < dataBufSize) (dataFits : dataBufSize < 2 ^ 16)
    (ccmdPos : 0 < ccmdDataBufSize) (ccmdFits : ccmdDataBufSize < 2 ^ 16) (slices : List Slice) :
    ∃ buffers : SliceBuffers Tag,
      SliceBuffers.transSlices slices (.init dataBufSize ccmdDataBufSize) = some buffers ∧
      (buffers.buffer .dataBuf).size = dataBufSize ∧
      (buffers.buffer .ccmdDataBuf).size = ccmdDataBufSize ∧
      buffers.uses.map Prod.snd = slices.map Slice.logicalSliceAddr ∧
      buffers.IsCache .dataBuf ∧ buffers.IsCache .ccmdDataBuf ∧
      ∀ lsa first second, first.kind ≠ .tempDataBuf → second.kind ≠ .tempDataBuf →
        buffers.Contains first lsa → buffers.Contains second lsa → first = second := by
  have initial : SliceBuffers.Cached
      (.init dataBufSize ccmdDataBufSize : SliceBuffers Tag) _ :=
    .init dataPos dataFits ccmdPos ccmdFits
  obtain ⟨buffers, maps, taken, cached, sizes, uses⟩ := initial.transSlices slices
  refine ⟨buffers, taken, ?_, ?_, uses, cached.isCache _ BufferKind.noConfusion,
    cached.isCache _ BufferKind.noConfusion, ?_⟩
  · rw [(cached.represents .dataBuf BufferKind.noConfusion).size, sizes]
    rfl
  · rw [(cached.represents .ccmdDataBuf BufferKind.noConfusion).size, sizes]
    rfl
  · intro lsa first second kind kind' here here'
    exact cached.exclusive ((cached.contains_iff kind).1 here) ((cached.contains_iff kind').1 here')

/-- The slices of a write, of a read that brings another slice into R-Buf, and of a write that
finds it there. -/
def threeSlices : List Slice :=
  (NvmeIoCmd.write 0 0 3).slices 0 ++ (NvmeIoCmd.read 1 4 3).slices 1 ++
    (NvmeIoCmd.write 2 4 3).slices 2

/-- The third slice uses the entry of the second one. -/
theorem buffers_are_lru_caches_threeSlices :
    ∃ buffers : SliceBuffers Nat,
      SliceBuffers.transSlices threeSlices (.init 47 1) = some buffers ∧
      buffers.uses = [(⟨.dataBuf, 46⟩, 0), (⟨.ccmdDataBuf, 0⟩, 1), (⟨.ccmdDataBuf, 0⟩, 1)] ∧
      buffers.IsCache .dataBuf ∧ buffers.IsCache .ccmdDataBuf := by
  obtain ⟨buffers, taken, _, _, _, data, ccmd, _⟩ :=
    buffers_are_lru_caches Nat (by decide : 0 < 47) (by decide) (by decide : 0 < 1) (by decide)
      threeSlices
  refine ⟨buffers, taken, ?_, data, ccmd⟩
  have uses : (SliceBuffers.transSlices threeSlices (.init 47 1 : SliceBuffers Nat)).map
      SliceBuffers.uses =
        some [(⟨.dataBuf, 46⟩, 0), (⟨.ccmdDataBuf, 0⟩, 1), (⟨.ccmdDataBuf, 0⟩, 1)] := by
    decide
  rw [taken] at uses
  exact Option.some.inj uses

/-- The last entry of a data buffer with one entry more has the number `DATA_BUF_NONE`: the
first write finds no entry to evict. -/
theorem wide_buffer_evicts_nothing :
    SliceBuffers.transSlices threeSlices (.init (2 ^ 16) 1 : SliceBuffers Nat) = none := rfl

end RwRbuf.Firmware.Requests
