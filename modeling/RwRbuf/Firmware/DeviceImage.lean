import RwRbuf.Firmware.RequestOrder
import RwRbuf.Lib.PendingOperations

/-! # What the device holds

The data of the device are in the buffer entries and on the flash.  Each outstanding request
moves data in one way only: from the host into an entry, from an entry to the host, from the
flash into an entry or from an entry to the flash.  Replayed in the order in which the
requests were handed over, they give the data that the device will hold in the end.  What the
host has stored is told by the slices alone: each block has the data of the last slice that
writes it.
-/

namespace RwRbuf.Firmware.Requests

open PendingOperations

variable {Tag : Type}

/-- The places that hold data: the buffer entries, the logical slices on the flash and the
answers of the Tx requests. -/
inductive Place (Tag : Type)
  | entry (ref : BufferRef)
  | slice (lsa : Nat)
  | answer (tag : Tag)
deriving DecidableEq

abbrev Image (Tag : Type) := Place Tag → Nat → Option HostBlock

abbrev Transfer (Tag : Type) := Copy (Place Tag) (Nat → Option HostBlock)

namespace Request

def Covers (request : Request Tag) (block : Nat) : Prop :=
  request.nvmeBlockOffset ≤ block ∧ block < request.nvmeBlockOffset + request.numOfNvmeBlock

instance (request : Request Tag) (block : Nat) : Decidable (request.Covers block) :=
  inferInstanceAs (Decidable (_ ∧ _))

def hostData (request : Request Tag) (block : Nat) : Option HostBlock :=
  if request.Covers block then
    some ⟨request.sliceNo, request.startIndex + (block - request.nvmeBlockOffset)⟩
  else none

/-- What a request does with the data.  The requests of the garbage collector move data inside
the flash only. -/
def transfer (request : Request Tag) (tag : Tag) : Transfer Tag :=
  match request.reqType with
  | .slice => ⟨.answer tag, .answer tag, id⟩
  | .nvmeDma =>
    match request.reqCode, request.dataBuf with
    | .rxDma, some ref =>
      ⟨.entry ref, .entry ref, fun old block => (request.hostData block).or (old block)⟩
    | .txDma, some ref => ⟨.answer tag, .entry ref, id⟩
    | _, _ => ⟨.answer tag, .answer tag, id⟩
  | .nand =>
    match request.reqCode, Engine.nandEntry request with
    | .read, some ref => ⟨.entry ref, .slice request.logicalSliceAddr, id⟩
    | .write, some ref => ⟨.slice request.logicalSliceAddr, .entry ref, id⟩
    | _, _ => ⟨.answer tag, .answer tag, id⟩

variable {request : Request Tag} {tag : Tag} {ref : BufferRef}

theorem transfer_of_fixed {request' : Request Tag} (fixed : request'.fixed = request.fixed) :
    request'.transfer tag = request.transfer tag :=
  field_of_fixed (·.transfer tag) (fun _ => rfl) fixed

theorem nandEntry_eq_some : Engine.nandEntry request = some ref ↔
    request.dataBuf = some ref ∧ ref.kind ≠ .tempDataBuf := by
  unfold Engine.nandEntry
  rw [Option.filter_eq_some_iff, decide_eq_true_iff]

/-- A transfer uses the entry of its request, a slice on the flash if it is one of the flash,
and the answer of its request. -/
theorem uses_transfer {place : Place Tag} (uses : (request.transfer tag).Uses place) :
    place = .answer tag ∨ (∃ ref, place = .entry ref ∧ request.dataBuf = some ref) ∨
      ∃ lsa, place = .slice lsa ∧ request.reqType = .nand := by
  unfold transfer at uses
  split at uses
  · exact .inl (uses.elim id id)
  · split at uses
    next entry => exact .inr (.inl ⟨_, uses.elim id id, entry⟩)
    next entry => exact uses.imp id fun place => .inl ⟨_, place, entry⟩
    · exact .inl (uses.elim id id)
  next nand =>
    split at uses
    next entry =>
      exact .inr (uses.imp (⟨_, ·, (nandEntry_eq_some.1 entry).1⟩) (⟨_, ·, nand⟩))
    next entry =>
      exact .inr (uses.symm.imp (⟨_, ·, (nandEntry_eq_some.1 entry).1⟩) (⟨_, ·, nand⟩))
    · exact .inl (uses.elim id id)

theorem transfer_rx (dma : request.reqType = .nvmeDma) (rx : request.reqCode = .rxDma)
    (uses : request.dataBuf = some ref) : request.transfer tag =
      ⟨.entry ref, .entry ref, fun old block => (request.hostData block).or (old block)⟩ := by
  unfold transfer
  simp only [dma, rx, uses]

theorem transfer_tx (dma : request.reqType = .nvmeDma) (tx : request.reqCode = .txDma)
    (uses : request.dataBuf = some ref) : request.transfer tag = ⟨.answer tag, .entry ref, id⟩ := by
  unfold transfer
  simp only [dma, tx, uses]

theorem transfer_read (nand : request.reqType = .nand) (read : request.reqCode = .read)
    (uses : request.dataBuf = some ref) (data : ref.kind ≠ .tempDataBuf) :
    request.transfer tag = ⟨.entry ref, .slice request.logicalSliceAddr, id⟩ := by
  unfold transfer
  simp only [nand, read, nandEntry_eq_some.2 ⟨uses, data⟩]

theorem transfer_write (nand : request.reqType = .nand) (write : request.reqCode = .write)
    (uses : request.dataBuf = some ref) (data : ref.kind ≠ .tempDataBuf) :
    request.transfer tag = ⟨.slice request.logicalSliceAddr, .entry ref, id⟩ := by
  unfold transfer
  simp only [nand, write, nandEntry_eq_some.2 ⟨uses, data⟩]

end Request

namespace Engine

variable (engine : Engine Tag)

def transfer (tag : Tag) : Transfer Tag := (engine.pool tag).transfer tag

/-- What the device holds, with the answers of the Tx requests. -/
def image (answers : Tag → Nat → Option HostBlock) : Image Tag
  | .entry ref => engine.memory ref
  | .slice lsa => engine.flash lsa
  | .answer tag => answers tag

/-- What the device will hold when the outstanding requests are done. -/
def settled [DecidableEq Tag] (answers : Tag → Nat → Option HostBlock) : Image Tag :=
  settle engine.transfer engine.handed (engine.image answers)

end Engine

/-! ## What the host has stored -/

/-- The data that a slice writes to a block, if it writes it. -/
def Slice.written (slice : Slice) (sliceNo lsa block : Nat) : Option HostBlock :=
  if slice.code = .write ∧ slice.logicalSliceAddr = lsa ∧ slice.nvmeBlockOffset ≤ block ∧
      block < slice.nvmeBlockOffset + slice.numOfNvmeBlock then
    some ⟨sliceNo, slice.startIndex + (block - slice.nvmeBlockOffset)⟩
  else none

/-- What the blocks of the logical slices hold for the host after the first `count` slices. -/
def contents (slices : List Slice) : Nat → Nat → Nat → Option HostBlock
  | 0, _, _ => none
  | count + 1, lsa, block =>
    ((slices[count]?).bind fun slice => slice.written count lsa block).or
      (contents slices count lsa block)

section Contents

variable {slices : List Slice} {slice : Slice} {count lsa block : Nat}

theorem contents_succ (found : slices[count]? = some slice) :
    contents slices (count + 1) lsa block =
      (slice.written count lsa block).or (contents slices count lsa block) := by
  simp [contents, found]

theorem contents_of_kept {slices' : List Slice} (inside : count ≤ slices.length)
    (kept : ∀ {sliceNo : Nat} {slice : Slice}, slices[sliceNo]? = some slice →
      slices'[sliceNo]? = some slice) :
    contents slices' count = contents slices count := by
  induction count with
  | zero => rfl
  | succ count ih =>
    have found := List.getElem?_eq_getElem inside
    funext lsa block
    rw [contents_succ found, contents_succ (kept found), ih (Nat.le_of_succ_le inside)]

theorem contents_lt (wellFormed : ∀ slice ∈ slices, slice.WellFormed) {data : HostBlock}
    (stored : contents slices count lsa block = some data) : block < nvmeBlocksPerSlice := by
  induction count with
  | zero => cases stored
  | succ count ih =>
    simp only [contents, Option.or_eq_some_iff] at stored
    rcases stored with new | ⟨_, old⟩
    · obtain ⟨slice, found, writes⟩ := Option.bind_eq_some_iff.1 new
      unfold Slice.written at writes
      split at writes
      next range =>
        exact Nat.lt_of_lt_of_le range.2.2.2
          (wellFormed slice (List.mem_of_getElem? found)).fits
      · cases writes
    · exact ih old

end Contents

end RwRbuf.Firmware.Requests
