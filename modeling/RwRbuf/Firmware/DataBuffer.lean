import RwRbuf.Firmware.SliceRequests
import Mathlib.Logic.Function.Basic

/-! # The data buffers

The data buffer and the buffer of the custom command (R-Buf) have the same shape: entries in
a list by recency of use, and a hash table from logical slices to entries.  Each entry also
carries the last request of the chain of requests that wait for one another on it; the
temporary buffer of the garbage collector has only these chains.
-/

namespace RwRbuf.Firmware.Requests

open Function

structure BufferEntry (Tag : Type) where
  logicalSliceAddr : Option Nat
  dirty : Bool
  blockingReqTail : Option Tag

/-- One buffer.  `lru` lists the entries from the most to the least recently used one;
`dataBufHash` lists each bucket from its head to its tail. -/
structure BufferMap (Tag : Type) where
  size : Nat
  dataBuf : Nat → BufferEntry Tag
  lru : List Nat
  dataBufHash : Nat → List Nat

namespace BufferMap

variable {Tag : Type}

/-- `InitDataBuf` and `InitCcmdDataBuf` for a buffer of `size` entries. -/
def init (size : Nat) : BufferMap Tag where
  size := size
  dataBuf := fun _ =>
    { logicalSliceAddr := none
      dirty := false
      blockingReqTail := none }
  lru := List.range size
  dataBufHash := fun _ => []

variable (map : BufferMap Tag)

/-- `FindDataBufHashTableEntry` and `FindCcmdDataBufHashTableEntry`. -/
def findHashTableEntry (lsa : Nat) : Nat := lsa % map.size

/-- The walk along one bucket in `CheckDataBufHit` and `CheckCcmdDataBufHit`. -/
def find (lsa : Nat) : Option Nat :=
  (map.dataBufHash (map.findHashTableEntry lsa)).find? fun entry =>
    (map.dataBuf entry).logicalSliceAddr = some lsa

def touch (entry : Nat) : BufferMap Tag :=
  { map with lru := entry :: map.lru.erase entry }

/-- `SelectiveGetFromDataBufHashList` and `SelectiveGetFromCcmdDataBufHashList`. -/
def selectiveGetFromHashList (entry : Nat) : BufferMap Tag :=
  match (map.dataBuf entry).logicalSliceAddr with
  | none => map
  | some lsa =>
    { map with
      dataBufHash := update map.dataBufHash (map.findHashTableEntry lsa)
        ((map.dataBufHash (map.findHashTableEntry lsa)).erase entry) }

/-- `AllocateDataBuf` and `AllocateCcmdDataBuf`: the entry at the tail of the list moves to
its head and leaves the hash table.  The assert on an empty list is the value `none`. -/
def allocate : Option (Nat × BufferMap Tag) :=
  map.lru.getLast?.map fun evictedEntry =>
    (evictedEntry,
      { map with lru := evictedEntry :: map.lru.dropLast }.selectiveGetFromHashList evictedEntry)

def setEntry (entry : Nat) (value : BufferEntry Tag) : BufferMap Tag :=
  { map with dataBuf := update map.dataBuf entry value }

def setBlockingReqTail (entry : Nat) (tail : Option Tag) : BufferMap Tag :=
  map.setEntry entry { map.dataBuf entry with blockingReqTail := tail }

def setDirty (entry : Nat) : BufferMap Tag :=
  map.setEntry entry { map.dataBuf entry with dirty := true }

/-- `PutToDataBufHashList` and `PutToCcmdDataBufHashList` of the entry at `lsa`. -/
def putToHashList (entry lsa : Nat) : BufferMap Tag :=
  { map with
    dataBufHash := update map.dataBufHash (map.findHashTableEntry lsa)
      (map.dataBufHash (map.findHashTableEntry lsa) ++ [entry]) }

/-- The entry, clean after its eviction, takes over a new logical slice. -/
def bind (entry lsa : Nat) : BufferMap Tag :=
  (map.setEntry entry
    { map.dataBuf entry with
      logicalSliceAddr := some lsa
      dirty := false }).putToHashList entry lsa

end BufferMap
end RwRbuf.Firmware.Requests
