import RwRbuf.Lib.NandFlash
import RwRbuf.Firmware.BlockRoles

/-! # The translation layer as a store

The requests of `GarbageCollection` and the data of the evicted buffer entry go to a flash
memory in which the pages of a block are programmed in order.  Over every run of writes the
flash accepts all of them, and a read of a slice finds what was written last.
-/

namespace RwRbuf.Firmware

open Fallible Function

variable {Data : Type}

/-- The flash, by die and virtual block, and the entries of the temporary buffer. -/
structure Media (Data : Type) where
  flash : NandFlash.State (Nat × Nat) Data
  tempDataBuf : Nat → Option Data

namespace Media

variable (geo : Geometry) (media : Media Data)

def blockOf (virtualSliceAddr : Nat) : Nat × Nat :=
  (geo.vsa2Vdie virtualSliceAddr, geo.vsa2Vblock virtualSliceAddr)

def pageAt (virtualSliceAddr : Nat) : Option Data :=
  media.flash.page (blockOf geo virtualSliceAddr) (geo.vsa2Vpage virtualSliceAddr)

def programAt (virtualSliceAddr : Nat) (data : Data) : Option (Media Data) :=
  (media.flash.program (blockOf geo virtualSliceAddr) (geo.vsa2Vpage virtualSliceAddr)
    data).map fun flash => { media with flash := flash }

/-- The flash executes a request.  An erase has to name the number of pages that were
programmed: `CheckRowAddrDep` holds it back until then. -/
def exec (media : Media Data) : NandReq → Option (Media Data)
  | .read _ virtualSliceAddr tempEntry =>
    some { media with
      tempDataBuf := update media.tempDataBuf tempEntry
        (media.pageAt geo virtualSliceAddr) }
  | .write _ virtualSliceAddr tempEntry =>
    (media.tempDataBuf tempEntry).bind (media.programAt geo virtualSliceAddr)
  | .erase virtualSliceAddr programmedPageCnt =>
    if programmedPageCnt = media.flash.programmed (blockOf geo virtualSliceAddr) then
      some { media with flash := media.flash.erase (blockOf geo virtualSliceAddr) }
    else none

/-- After start-up all user blocks are erased. -/
def erased : Media Data := ⟨.erased, fun _ => none⟩

variable {geo media} {dieNo blockNo pageNo : Nat}

section

variable (dieBound : dieNo < geo.userDies) (pageBound : pageNo < geo.userPagesPerBlock)
include dieBound pageBound

theorem blockOf_vorg2Vsa : blockOf geo (geo.vorg2Vsa dieNo blockNo pageNo) = (dieNo, blockNo) := by
  simp [blockOf, dieBound, pageBound]

theorem pageAt_vorg2Vsa :
    media.pageAt geo (geo.vorg2Vsa dieNo blockNo pageNo) =
      media.flash.page (dieNo, blockNo) pageNo := by
  rw [pageAt, blockOf_vorg2Vsa dieBound pageBound, Geometry.vsa2Vpage_vorg2Vsa dieBound pageBound]

theorem programAt_next (next : media.flash.programmed (dieNo, blockNo) = pageNo) (data : Data) :
    media.programAt geo (geo.vorg2Vsa dieNo blockNo pageNo) data =
      some { media with flash := media.flash.append (dieNo, blockNo) data } := by
  rw [programAt, blockOf_vorg2Vsa dieBound pageBound,
    Geometry.vsa2Vpage_vorg2Vsa dieBound pageBound, NandFlash.State.program_next next]
  rfl

end

end Media

/-- The maps and the media that they describe. -/
structure Store (Data : Type) where
  maps : AddressMap
  media : Media Data

namespace Store

variable (geo : Geometry) (store : Store Data)

/-- The write of a slice: `AddrTransWrite`, the requests that it handed over, and then the
program of the data.  `none` means that the flash refuses a request. -/
def write (logicalSliceAddr : Nat) (data : Data) : Except FtlAssert (Option (Store Data)) := do
  let (maps, virtualSliceAddr) ← store.maps.addrTransWrite geo logicalSliceAddr
  let reqs := maps.nandReqs.drop store.maps.nandReqs.length
  .ok (((reqs.foldlM (Media.exec geo) store.media).bind
    (Media.programAt geo · virtualSliceAddr data)).map (⟨maps, ·⟩))

/-- The read of a slice; `none` if it is not mapped. -/
def read (logicalSliceAddr : Nat) : Except FtlAssert (Option Data) := do
  let virtualSliceAddr ← store.maps.addrTransRead geo logicalSliceAddr
  .ok (virtualSliceAddr.bind (store.media.pageAt geo))

end Store

theorem DieMap.sameBlocks_of_getFromFbList {die die' : DieMap} {option : GetFreeBlockOption}
    {evicted : Option Nat} (taken : die.getFromFbList option = .ok (die', evicted)) :
    die.SameBlocks die' := by
  have takes : ∀ blockNo, die.SameBlocks (die.takeFreeBlock blockNo) := fun _ =>
    ⟨fun _ => takeFreeBlock_bad _, fun _ => takeFreeBlock_currentPage _,
      fun _ => takeFreeBlock_invalidSliceCnt _⟩
  unfold getFromFbList at taken
  split at taken
  · split at taken
    · cases taken
      exact .refl _
    · split at taken
      · cases taken
      · cases taken
        exact takes _
  · split at taken
    · cases taken
      exact .refl _
    · cases taken
      exact takes _

namespace AddressMap

/-- The flash holds the contents of the mapped slices, and of every block as many pages are
programmed as were handed out. -/
structure Mirrors (geo : Geometry) (maps : AddressMap) (media : Media Data)
    (contents : Nat → Option Data) : Prop where
  programmed : ∀ dieNo < geo.userDies, ∀ blockNo, (maps.die dieNo).Usable geo blockNo →
    media.flash.programmed (dieNo, blockNo) = ((maps.die dieNo).block blockNo).currentPage
  mapped : ∀ logicalSliceAddr virtualSliceAddr,
    maps.logicalSlice logicalSliceAddr = some virtualSliceAddr →
      ∃ data, media.pageAt geo virtualSliceAddr = some data ∧
        contents logicalSliceAddr = some data
  unmapped : ∀ logicalSliceAddr, maps.logicalSlice logicalSliceAddr = none →
    contents logicalSliceAddr = none

variable {geo : Geometry} {maps : AddressMap} {media : Media Data}
  {contents : Nat → Option Data} {dieNo logicalSliceAddr : Nat}

namespace Mirrors

section

variable (mirrors : maps.Mirrors geo media contents)
include mirrors

theorem congr {maps' : AddressMap} (logicalEq : maps'.logicalSlice = maps.logicalSlice)
    (same : ∀ dieNo, (maps.die dieNo).SameBlocks (maps'.die dieNo)) :
    maps'.Mirrors geo media contents := by
  refine ⟨?_, ?_, ?_⟩
  · intro dieNo bound blockNo usable
    rw [(same dieNo).currentPage]
    exact mirrors.programmed dieNo bound blockNo (((same dieNo).usable blockNo).1 usable)
  · rw [logicalEq]
    exact mirrors.mapped
  · rw [logicalEq]
    exact mirrors.unmapped

theorem setDie {die : DieMap} (same : (maps.die dieNo).SameBlocks die) :
    (maps.setDie dieNo die).Mirrors geo media contents := by
  refine mirrors.congr rfl fun other => ?_
  rw [setDie_die]
  split
  next here =>
    subst here
    exact same
  · exact .refl _

theorem place (placement : maps.Placement geo) (dieBound : dieNo < geo.userDies)
    (usable : (maps.die dieNo).Usable geo (maps.die dieNo).currentBlock)
    (pageLeft : maps.currentPage dieNo < geo.userPagesPerBlock) (data : Data) :
    ∃ media', media.programAt geo (maps.takePage geo dieNo).2 data = some media' ∧
      (maps.placeSlice geo dieNo logicalSliceAddr).Mirrors geo media'
        (update contents logicalSliceAddr (some data)) := by
  have next : media.flash.programmed (dieNo, (maps.die dieNo).currentBlock) =
      maps.currentPage dieNo := mirrors.programmed dieNo dieBound _ usable
  refine ⟨_, Media.programAt_next dieBound pageLeft next data, ?_, ?_, ?_⟩
  · intro otherDie otherBound blockNo otherUsable
    rw [NandFlash.State.programmed_append]
    by_cases here : otherDie = dieNo
    · subst here
      rw [placeSlice_die, if_pos rfl] at otherUsable ⊢
      have wasUsable : (maps.die otherDie).Usable geo blockNo := by
        simpa [DieMap.Usable] using otherUsable
      rw [DieMap.bumpPage_currentPage]
      by_cases current : blockNo = (maps.die otherDie).currentBlock
      · subst current
        simpa [currentPage] using next
      · rw [if_neg (by simpa using current), if_neg current]
        exact mirrors.programmed otherDie otherBound blockNo wasUsable
    · rw [placeSlice_die, if_neg here] at otherUsable ⊢
      rw [if_neg (by simp [here])]
      exact mirrors.programmed otherDie otherBound blockNo otherUsable
  · intro other virtualSliceAddr mapped
    by_cases same : other = logicalSliceAddr
    · subst same
      rw [placeSlice_logicalSlice_self] at mapped
      cases mapped
      refine ⟨data, ?_, update_self _ _ _⟩
      rw [Media.pageAt_vorg2Vsa dieBound pageLeft]
      exact NandFlash.State.page_append_self next
    · rw [placeSlice_logicalSlice_of_ne same] at mapped
      obtain ⟨old, stored, content⟩ := mirrors.mapped other virtualSliceAddr mapped
      refine ⟨old, ?_, by rw [update_of_ne same]; exact content⟩
      obtain ⟨otherDie, blockNo, pageNo, handed, rfl⟩ := placement.placed _ _ mapped
      rw [Media.pageAt_vorg2Vsa handed.die_lt handed.page_lt] at stored ⊢
      rw [NandFlash.State.page_append_of_ne, stored]
      rintro ⟨here, last⟩
      cases here
      rw [next] at last
      exact absurd handed.page_handed (by rw [last]; exact Nat.lt_irrefl _)
  · intro other unmapped
    by_cases same : other = logicalSliceAddr
    · subst same
      rw [placeSlice_logicalSlice_self] at unmapped
      cases unmapped
    · rw [placeSlice_logicalSlice_of_ne same] at unmapped
      rw [update_of_ne same]
      exact mirrors.unmapped other unmapped

theorem erase {blockNo : Nat} (placement : maps.Placement geo) (dieBound : dieNo < geo.userDies)
    (usable : (maps.die dieNo).Usable geo blockNo)
    (dead : ∀ pageNo < geo.userPagesPerBlock,
      ¬ maps.Mapped (geo.vorg2Vsa dieNo blockNo pageNo)) :
    ∃ media', media.exec geo (.erase (geo.vorg2Vsa dieNo blockNo 0)
        ((maps.die dieNo).block blockNo).currentPage) = some media' ∧
      (maps.eraseBlock geo dieNo blockNo).Mirrors geo media' contents := by
  have count := mirrors.programmed dieNo dieBound blockNo usable
  have block := @Media.blockOf_vorg2Vsa geo dieNo blockNo 0 dieBound geo.pages_pos
  refine ⟨{ media with flash := media.flash.erase (dieNo, blockNo) }, ?_, ?_, ?_, ?_⟩
  · rw [Media.exec, block, if_pos count.symm]
  · intro otherDie otherBound otherBlock otherUsable
    rw [NandFlash.State.programmed_erase]
    by_cases here : otherDie = dieNo
    · subst here
      rw [eraseBlock_die, if_pos rfl] at otherUsable ⊢
      have wasUsable : (maps.die otherDie).Usable geo otherBlock := by
        simpa [DieMap.Usable] using otherUsable
      rw [DieMap.eraseBlock_block]
      by_cases erased : otherBlock = blockNo
      · simp [erased]
      · rw [if_neg (by simpa using erased), if_neg erased]
        exact mirrors.programmed otherDie otherBound otherBlock wasUsable
    · rw [eraseBlock_die, if_neg here] at otherUsable ⊢
      rw [if_neg (by simp [here])]
      exact mirrors.programmed otherDie otherBound otherBlock otherUsable
  · intro other virtualSliceAddr mapped
    rw [eraseBlock_logicalSlice] at mapped
    obtain ⟨data, stored, content⟩ := mirrors.mapped other virtualSliceAddr mapped
    refine ⟨data, ?_, content⟩
    obtain ⟨otherDie, otherBlock, pageNo, handed, rfl⟩ := placement.placed _ _ mapped
    rw [Media.pageAt_vorg2Vsa handed.die_lt handed.page_lt] at stored ⊢
    rw [NandFlash.State.page_erase_of_ne, stored]
    rintro here
    cases here
    exact dead pageNo handed.page_lt ⟨other, mapped⟩
  · rw [eraseBlock_logicalSlice]
    exact mirrors.unmapped

end

end Mirrors

/-! ## The requests of a collection -/

/-- The flash has executed the requests that were handed over since `start`, and it mirrors
the maps. -/
def Served (geo : Geometry) (start : AddressMap) (media : Media Data)
    (contents : Nat → Option Data) (maps : AddressMap) : Prop :=
  ∃ reqs media', maps.nandReqs = start.nandReqs ++ reqs ∧
    reqs.foldlM (Media.exec geo) media = some media' ∧ maps.Mirrors geo media' contents

variable {start : AddressMap}

namespace Served

theorem refl (mirrors : maps.Mirrors geo media contents) : Served geo maps media contents maps :=
  ⟨[], media, by simp, rfl, mirrors⟩

section

variable (served : Served geo start media contents maps)
include served

theorem setDie {die : DieMap} (same : (maps.die dieNo).SameBlocks die) :
    Served geo start media contents (maps.setDie dieNo die) := by
  obtain ⟨reqs, media', requests, executed, mirrors⟩ := served
  exact ⟨reqs, media', requests, executed, mirrors.setDie same⟩

theorem append {maps' : AddressMap} {new : List NandReq}
    (requests : maps'.nandReqs = maps.nandReqs ++ new)
    (next : ∀ media', maps.Mirrors geo media' contents →
      ∃ media'', new.foldlM (Media.exec geo) media' = some media'' ∧
        maps'.Mirrors geo media'' contents) : Served geo start media contents maps' := by
  obtain ⟨reqs, media', before, executed, mirrors⟩ := served
  obtain ⟨media'', later, mirrors'⟩ := next media' mirrors
  refine ⟨reqs ++ new, media'', ?_, ?_, mirrors'⟩
  · rw [requests, before, List.append_assoc]
  · rw [List.foldlM_append, executed]
    exact later

/-- A slice is read into the temporary buffer and programmed on the next page of the current
block. -/
theorem copy {die : DieMap} {virtualSliceAddr : Nat} {opened : AddressMap}
    (placement : maps.Placement geo) (dieBound : dieNo < geo.userDies)
    (mapped : maps.logicalSlice logicalSliceAddr = some virtualSliceAddr)
    (same : (maps.die dieNo).SameBlocks die) (usable : die.Usable geo die.currentBlock)
    (pageLeft : (die.block die.currentBlock).currentPage < geo.userPagesPerBlock)
    (openedEq : opened =
      (maps.emit (.read logicalSliceAddr virtualSliceAddr dieNo)).setDie dieNo die) :
    Served geo start media contents ((opened.placeSlice geo dieNo logicalSliceAddr).emit
      (.write logicalSliceAddr (opened.takePage geo dieNo).2 dieNo)) := by
  have emitted : (maps.emit (.read logicalSliceAddr virtualSliceAddr dieNo)).Placement geo :=
    placement.congr rfl rfl rfl
  have openedPlacement : opened.Placement geo := by
    rw [openedEq]
    exact emitted.setDie same
  have openedUsable : (opened.die dieNo).Usable geo (opened.die dieNo).currentBlock := by
    simpa [openedEq] using usable
  have openedLeft : opened.currentPage dieNo < geo.userPagesPerBlock := by
    simpa [openedEq, currentPage] using pageLeft
  have requests : ((opened.placeSlice geo dieNo logicalSliceAddr).emit
      (.write logicalSliceAddr (opened.takePage geo dieNo).2 dieNo)).nandReqs =
      maps.nandReqs ++ [.read logicalSliceAddr virtualSliceAddr dieNo,
        .write logicalSliceAddr (opened.takePage geo dieNo).2 dieNo] := by
    rw [openedEq]
    show (maps.nandReqs ++ [_]) ++ [_] = _
    rw [List.append_assoc]
    rfl
  refine served.append requests ?_
  intro media' mirrors
  obtain ⟨data, stored, content⟩ := mirrors.mapped _ _ mapped
  -- the read leaves the flash alone
  have readMirrors : opened.Mirrors geo { media' with
      tempDataBuf := update media'.tempDataBuf dieNo (some data) } contents := by
    rw [openedEq]
    have sameFlash : (maps.emit (.read logicalSliceAddr virtualSliceAddr dieNo)).Mirrors geo
        { media' with tempDataBuf := update media'.tempDataBuf dieNo (some data) }
        contents :=
      ⟨mirrors.programmed, mirrors.mapped, mirrors.unmapped⟩
    exact sameFlash.setDie same
  obtain ⟨media'', programmed, placed⟩ := readMirrors.place openedPlacement dieBound openedUsable
    openedLeft data
  refine ⟨media'', ?_, ?_⟩
  · simp [List.foldlM_cons, Media.exec, stored, programmed]
  · rw [update_eq_self_iff.2 content.symm] at placed
    exact placed.congr rfl fun _ => .refl _

theorem step {victimBlockNo pageNo : Nat} {before maps' : AddressMap}
    (collecting : Collecting geo before dieNo victimBlockNo pageNo maps)
    (dieBound : dieNo < geo.userDies)
    (stepped : gcCopyPage geo dieNo victimBlockNo maps pageNo = .ok maps') :
    Served geo start media contents maps' := by
  rcases @gcCopyPage_cases geo maps dieNo victimBlockNo collecting.placement pageNo with
    ⟨_, unchanged⟩ | ⟨logicalSliceAddr, mapped, copyEq⟩
  · rw [unchanged] at stepped
    cases stepped
    exact served
  · rw [copyEq, bind_eq_ok] at stepped
    obtain ⟨found, foundEq, finalEq⟩ := stepped
    obtain ⟨lists, collectable⟩ := collecting.collectable
    have emitted : Collectable geo ((maps.emit (.read logicalSliceAddr
      (geo.vorg2Vsa dieNo victimBlockNo pageNo) dieNo)).die dieNo) victimBlockNo lists :=
        collectable
    obtain ⟨die, lists', same, collectable', _, pageLeft, rfl⟩ :=
      findFreeVirtualSliceForGc_ok emitted foundEq
    cases finalEq
    exact served.copy collecting.placement dieBound mapped same
      collectable'.roles.current_usable pageLeft rfl

theorem garbageCollection {collected : AddressMap}
    {lists : Option (Fin geo.userPagesPerBlock) → List Nat} (consistent : maps.Consistent geo)
    (dieBound : dieNo < geo.userDies) (currentFull : maps.currentPage dieNo = geo.userPagesPerBlock)
    (listed : (maps.die dieNo).Listed geo none lists)
    (loose : (maps.die dieNo).Loose geo (lists none))
    (roles : (maps.die dieNo).Roles geo (lists none))
    (collects : maps.garbageCollection geo dieNo = .ok collected) :
    Served geo start media contents collected := by
  -- the victim is erased once no slice is mapped to it
  have erases : ∀ {victimBlockNo : Nat} {drained : AddressMap},
      Collecting geo maps dieNo victimBlockNo geo.userPagesPerBlock drained →
      Served geo start media contents drained →
      Served geo start media contents (drained.eraseBlock geo dieNo victimBlockNo) := by
    intro victimBlockNo drained collecting served
    obtain ⟨_, collectable⟩ := collecting.collectable
    refine served.append (eraseBlock_nandReqs) ?_
    intro media' mirrors
    obtain ⟨media'', executed, mirrors'⟩ := mirrors.erase collecting.placement dieBound
      collectable.victim_usable collecting.cleared
    exact ⟨media'', by simp [List.foldlM_cons, executed], mirrors'⟩
  rcases DieMap.getFromGcVictimList_cases listed geo.userPagesPerBlock le_rfl with
    ⟨index, victimBlockNo, rest, listEq, _, taken⟩ | ⟨_, failed⟩
  · obtain ⟨usable, invalidEq, _⟩ := (listed.victim_mem index victimBlockNo).mp (by simp [listEq])
    have full := (consistent.dies dieNo dieBound).victim_full currentFull usable (by omega)
    have victimHanded : ∀ pageNo < geo.userPagesPerBlock,
        maps.HandedOut geo dieNo victimBlockNo pageNo :=
      fun pageNo bound => ⟨dieBound, usable, bound, by omega⟩
    have begin := collecting_start consistent dieBound currentFull listed loose roles listEq
    have same : (maps.die dieNo).SameBlocks
        ((maps.die dieNo).takeVictimBlock (index + 1) victimBlockNo) :=
      ⟨fun _ => rfl, fun _ => rfl, fun _ => rfl⟩
    have begun := served.setDie same
    simp only [AddressMap.garbageCollection, taken, bind, Except.bind] at collects
    split at collects
    · cases loopEq : (List.range geo.userPagesPerBlock).foldlM
          (gcCopyPage geo dieNo victimBlockNo) (maps.setDie dieNo
            ((maps.die dieNo).takeVictimBlock (index + 1) victimBlockNo)) with
      | error stop =>
        rw [loopEq] at collects
        cases collects
      | ok drained =>
        rw [loopEq] at collects
        cases collects
        have drain := loop_invariant (fun pageNo maps' =>
          Collecting geo maps dieNo victimBlockNo pageNo maps' ∧
            Served geo start media contents maps') ⟨begin, begun⟩ ?_ loopEq
        · exact erases drain.1 drain.2
        · rintro pageNo bound state state' ⟨collecting, served⟩ stepped
          exact ⟨collecting.step victimHanded dieBound bound stepped,
            served.step collecting dieBound stepped⟩
    next wholeStale =>
      cases collects
      refine erases { begin with cleared := ?_ } begun
      intro pageNo bound
      exact consistent.not_mapped_of_stale dieBound usable full (not_not.mp wholeStale) pageNo
        bound
  · simp [AddressMap.garbageCollection, failed, bind, Except.bind] at collects

theorem openFreeBlock {option : GetFreeBlockOption} {opened : AddressMap}
    (opens : maps.openFreeBlock dieNo option = .ok opened) :
    Served geo start media contents opened := by
  rw [AddressMap.openFreeBlock, bind_eq_ok] at opens
  obtain ⟨⟨die, evicted⟩, taken, opens⟩ := opens
  cases evicted with
  | none => cases opens
  | some blockNo =>
    cases opens
    have same := DieMap.sameBlocks_of_getFromFbList taken
    exact served.setDie ⟨same.bad, same.currentPage, same.invalidSliceCnt⟩

/-- `FindFreeVirtualSlice` up to the page that it hands out. -/
theorem prepareCurrentBlock {prepared : AddressMap} (consistent : maps.Consistent geo)
    (dieBound : dieNo < geo.userDies)
    (prepares : maps.prepareCurrentBlock geo dieNo = .ok prepared) :
    Served geo start media contents prepared := by
  unfold AddressMap.prepareCurrentBlock at prepares
  split at prepares
  next full =>
    rw [bind_eq_ok] at prepares
    obtain ⟨⟨die, evicted⟩, taken, prepares⟩ := prepares
    cases evicted with
    | some blockNo =>
      cases prepares
      have same := DieMap.sameBlocks_of_getFromFbList taken
      exact served.setDie ⟨same.bad, same.currentPage, same.invalidSliceCnt⟩
    | none =>
      dsimp only at prepares
      rw [bind_eq_ok] at prepares
      obtain ⟨collected, collects, prepares⟩ := prepares
      obtain ⟨lists, listed, loose, roles⟩ := consistent.dies dieNo dieBound
      have served' := served.garbageCollection consistent dieBound full listed loose roles
        collects
      split at prepares
      · exact served'.openFreeBlock prepares
      · split at prepares
        · cases prepares
        · cases prepares
          exact served'
  · split at prepares
    · cases prepares
    · cases prepares
      exact served

end

end Served

/-! ## The whole write -/

theorem Mirrors.drop (mirrors : maps.Mirrors geo media contents) (consistent : maps.Consistent geo)
    (logicalSliceAddr : Nat) : (maps.invalidateOldVsa geo logicalSliceAddr).Mirrors geo media
      (update contents logicalSliceAddr none) := by
  rcases invalidateOldVsa_eq consistent.placement logicalSliceAddr with
    ⟨unmapped, unchanged⟩ | ⟨oldDie, oldBlock, _, _, _, dropped⟩
  · rw [unchanged, update_eq_self_iff.2 (mirrors.unmapped _ unmapped).symm]
    exact mirrors
  · rw [dropped]
    refine ⟨?_, ?_, ?_⟩
    · intro dieNo bound blockNo usable
      have before := mirrors.programmed dieNo bound blockNo
      rw [dropSlice_die] at usable ⊢
      by_cases here : dieNo = oldDie <;> simp_all [DieMap.Usable]
    · intro other virtualSliceAddr mapped
      by_cases isDropped : other = logicalSliceAddr
      · simp [isDropped] at mapped
      · simp only [dropSlice_logicalSlice, update_of_ne isDropped] at mapped ⊢
        exact mirrors.mapped other virtualSliceAddr mapped
    · intro other unmapped
      by_cases isDropped : other = logicalSliceAddr
      · simp [isDropped]
      · simp only [dropSlice_logicalSlice, update_of_ne isDropped] at unmapped ⊢
        exact mirrors.unmapped other unmapped

/-- The flash executes the requests of a write and takes its data. -/
theorem Mirrors.write {maps' : AddressMap} {virtualSliceAddr : Nat}
    (mirrors : maps.Mirrors geo media contents) (consistent : maps.Consistent geo)
    (written : maps.addrTransWrite geo logicalSliceAddr = .ok (maps', virtualSliceAddr))
    (data : Data) :
    ∃ reqs media' media'', maps'.nandReqs = maps.nandReqs ++ reqs ∧
      reqs.foldlM (Media.exec geo) media = some media' ∧
      media'.programAt geo virtualSliceAddr data = some media'' ∧
      maps'.Mirrors geo media'' (update contents logicalSliceAddr (some data)) := by
  obtain ⟨prepared, prepares, rfl, rfl⟩ := addrTransWrite_eq_ok written
  obtain ⟨droppedConsistent, same⟩ := consistent.invalidateOldVsa logicalSliceAddr
  have dieBound := droppedConsistent.target.die_lt
  obtain ⟨moves, erased, allocatable, pageLeft, _⟩ :=
    prepareCurrentBlock_ok droppedConsistent dieBound prepares
  obtain ⟨reqs, media', requests, executed, mirrors'⟩ :=
    (Served.refl (mirrors.drop consistent logicalSliceAddr)).prepareCurrentBlock
      droppedConsistent dieBound prepares
  obtain ⟨media'', programmed, placed⟩ := mirrors'.place allocatable.placement dieBound
    allocatable.current_usable pageLeft data
  refine ⟨reqs, media', media'', ?_, executed, programmed, ?_⟩
  · rw [← same.nandReqs, ← requests]
    simp [mapSlice, takePage]
  · rw [update_idem] at placed
    refine placed.congr ?_ ?_
    · simp [mapSlice, placeSlice]
    · intro other
      simp [mapSlice, placeSlice, DieMap.SameBlocks.refl]

end AddressMap

/-! ## Runs -/

namespace Store

variable {geo : Geometry} {store store' : Store Data} {contents : Nat → Option Data}

/-- One write that does not stop, together with the contents of the slices. -/
def WriteStep (geo : Geometry) (before after : Store Data × (Nat → Option Data)) : Prop :=
  ∃ logicalSliceAddr data, ¬ before.1.maps.ErasesCurrentBlock geo logicalSliceAddr ∧
    before.1.write geo logicalSliceAddr data = .ok (some after.1) ∧
    after.2 = update before.2 logicalSliceAddr (some data)

structure Faithful (geo : Geometry) (store : Store Data) (contents : Nat → Option Data) :
    Prop where
  consistent : store.maps.Consistent geo
  mirrors : store.maps.Mirrors geo store.media contents

theorem Faithful.write_eq {logicalSliceAddr virtualSliceAddr : Nat} {maps' : AddressMap}
    (faithful : Faithful geo store contents)
    (written : store.maps.addrTransWrite geo logicalSliceAddr = .ok (maps', virtualSliceAddr))
    (data : Data) :
    ∃ media', store.write geo logicalSliceAddr data = .ok (some ⟨maps', media'⟩) ∧
      maps'.Mirrors geo media' (update contents logicalSliceAddr (some data)) := by
  obtain ⟨reqs, media', media'', requests, executed, programmed, mirrors⟩ :=
    faithful.mirrors.write faithful.consistent written data
  refine ⟨media'', ?_, mirrors⟩
  have handed : maps'.nandReqs.drop store.maps.nandReqs.length = reqs := by
    rw [requests, List.drop_left]
  rw [write, written]
  simp [bind, Except.bind, handed, executed, programmed]

variable {before after : Store Data × (Nat → Option Data)}

theorem Faithful.step
    (faithful : Faithful geo before.1 before.2) (step : WriteStep geo before after) :
    Faithful geo after.1 after.2 := by
  obtain ⟨logicalSliceAddr, data, notInPlace, writes, contentsEq⟩ := step
  cases written : before.1.maps.addrTransWrite geo logicalSliceAddr with
  | error stop =>
    rw [write, written] at writes
    cases writes
  | ok result =>
    obtain ⟨maps', virtualSliceAddr⟩ := result
    obtain ⟨media', writesEq, mirrors⟩ := faithful.write_eq written data
    rw [writes] at writesEq
    have storeEq : after.1 = ⟨maps', media'⟩ := Option.some.inj (Except.ok.inj writesEq)
    rw [contentsEq, storeEq]
    exact ⟨faithful.consistent.write notInPlace written, mirrors⟩

theorem Faithful.initial {bad : Nat → Nat → Bool} {start : AddressMap}
    (initialised : AddressMap.initAddressMap geo bad = .ok start) :
    Faithful geo ⟨start, (Media.erased : Media Data)⟩ fun _ => none := by
  have fresh := AddressMap.initAddressMap_initialised initialised
  refine ⟨fresh.consistent, ?_, ?_, fun _ _ => rfl⟩
  · intro dieNo bound blockNo usable
    exact ((fresh.dies dieNo bound).noPages blockNo).symm
  · intro logicalSliceAddr virtualSliceAddr mapped
    rw [fresh.noSlices] at mapped
    cases mapped

/-- In every run of writes from start-up that does not collect the current block in place,
reading a slice gives what was written to it last, and the flash accepts every request of the
next write: pages are programmed in order, never twice without an erase between. -/
theorem store_of_run (geo : Geometry) (bad : Nat → Nat → Bool) (start : AddressMap)
    (initialised : AddressMap.initAddressMap geo bad = .ok start) (store : Store Data)
    (contents : Nat → Option Data)
    (run : Relation.ReflTransGen (WriteStep geo) (⟨start, Media.erased⟩, fun _ => none)
      (store, contents)) :
    (∀ logicalSliceAddr < geo.slicesPerSsd,
      store.read geo logicalSliceAddr = .ok (contents logicalSliceAddr)) ∧
    ∀ logicalSliceAddr data, store.write geo logicalSliceAddr data ≠ .ok none := by
  have faithful : Faithful geo store contents :=
    run_invariant (fun state : Store Data × (Nat → Option Data) => Faithful geo state.1 state.2)
      (Faithful.initial initialised) (fun _ _ faithful step => faithful.step step) run
  constructor
  · intro logicalSliceAddr inDevice
    have readEq : store.read geo logicalSliceAddr =
        .ok ((store.maps.logicalSlice logicalSliceAddr).bind (store.media.pageAt geo)) := by
      rw [read, AddressMap.addrTransRead, if_pos inDevice]
      rfl
    rw [readEq]
    cases mapped : store.maps.logicalSlice logicalSliceAddr with
    | none => rw [faithful.mirrors.unmapped _ mapped, Option.bind_none]
    | some virtualSliceAddr =>
      obtain ⟨data, stored, content⟩ := faithful.mirrors.mapped _ _ mapped
      rw [content, Option.bind_some, stored]
  · intro logicalSliceAddr data refused
    cases written : store.maps.addrTransWrite geo logicalSliceAddr with
    | error stop =>
      rw [write, written] at refused
      cases refused
    | ok result =>
      obtain ⟨_, writesEq, _⟩ := faithful.write_eq written data
      rw [refused] at writesEq
      cases Except.ok.inj writesEq

/-- A write of a slice with its data, if neither the maps nor the flash refuse it. -/
def writeEvent (geo : Geometry) (state : Store Data × (Nat → Option Data)) (event : Nat × Data) :
    Option (Store Data × (Nat → Option Data)) :=
  (state.1.write geo event.1 event.2).toOption.join.map fun store =>
    (store, update state.2 event.1 (some event.2))

theorem writeStep_of_event
    (taken : EventStep (writeEvent geo) (fun state event =>
      ¬ state.1.maps.ErasesCurrentBlock geo event.1) before after) :
    WriteStep geo before after := by
  obtain ⟨⟨logicalSliceAddr, data⟩, notInPlace, written⟩ := taken
  obtain ⟨store, found, rfl⟩ := Option.map_eq_some_iff.1 written
  exact ⟨logicalSliceAddr, data, notInPlace, ok_of_toOption (Option.join_eq_some_iff.1 found), rfl⟩

/-- The slices of a device at its reserve are written with their places in the run as data.
The last write copies slice 2 and erases its block; slice 0 was written twice. -/
theorem store_of_run_collection : ∃ store contents,
    Relation.ReflTransGen (WriteStep .tiny)
        ((⟨AddressMap.tinyMaps, Media.erased⟩ : Store Nat), fun _ => none) (store, contents) ∧
      store.maps.nandReqs = [.read 2 2 0, .write 2 12 0, .erase 0 2] ∧
      store.read .tiny 2 = .ok (some 2) ∧ store.read .tiny 0 = .ok (some 9) ∧
      ∀ logicalSliceAddr data, store.write .tiny logicalSliceAddr data ≠ .ok none := by
  have evaluated : ((runAllowed (writeEvent .tiny)
      (fun state event => ¬ state.1.maps.ErasesCurrentBlock .tiny event.1)
      (AddressMap.fillingSlices ++ [11]).zipIdx
      ((⟨AddressMap.tinyMaps, Media.erased⟩ : Store Nat), fun _ => none)).any fun final =>
        final.1.maps.nandReqs = [.read 2 2 0, .write 2 12 0, .erase 0 2] ∧
          final.2 2 = some 2 ∧ final.2 0 = some 9) = true := by
    decide +kernel
  obtain ⟨⟨store, contents⟩, taken, final⟩ := (Option.any_eq_true _ _).1 evaluated
  obtain ⟨requests, copied, rewritten⟩ := of_decide_eq_true final
  have run := Relation.ReflTransGen.mono (fun _ _ => writeStep_of_event) _ _
    (reaches_of_runAllowed _ taken)
  obtain ⟨reads, accepts⟩ := store_of_run .tiny _ AddressMap.tinyMaps
    AddressMap.initAddressMap_eq_tinyMaps store contents run
  refine ⟨store, contents, run, requests, ?_, ?_, accepts⟩
  · rw [reads 2 (by decide)]
    exact congrArg _ copied
  · rw [reads 0 (by decide)]
    exact congrArg _ rewritten

end Store

end RwRbuf.Firmware
