import RwRbuf.Firmware.WaySchedule
import Mathlib.Data.List.FinRange

/-! # Runs of the way scheduler

Whatever the flash controller answers and whatever requests arrive, the seven lists of a
channel stay well formed and hold each way once, a way stands on a list that agrees with
the state of its die and with the head of its NAND queue, and no assert is reached.
-/

namespace RwRbuf.Firmware.WaySchedule

open LinkedList Relation

/-- The list that `PutToNandWayPriorityTable` chooses for a code. -/
def wayListOf : NandReqCode → Option WayList
  | .read => some .readTrigger
  | .readTransfer => some .readTransfer
  | .write => some .write
  | .erase => some .erase
  | .reset => some .write
  | .setFeature => some .write
  | .other => none

/-- How a request in execution is asked for its status on the status check list. -/
def checkOpt : NandReqCode → Option StatusCheckOpt
  | .read => some .check
  | .readTransfer => none
  | .write => some .check
  | .erase => some .check
  | .reset => some .none
  | .setFeature => some .none
  | .other => none

/-- How a request in execution is asked for its status on the status report list. -/
def reportOpt : NandReqCode → Option StatusCheckOpt
  | .read => some .report
  | .readTransfer => some .completionFlag
  | .write => some .report
  | .erase => some .report
  | .reset => some .none
  | .setFeature => some .none
  | .other => none

namespace Die

variable {ways : Nat} {die : Die} {list : WayList}

/-- A way agrees with the list it is on: on the lists of ways to be served its die is idle
and the code of its next request is the one of the list; on the two status lists its next
request is in execution. -/
def Agrees (die : Die) : WayList → Prop
  | .idle => die.dieState = .idle
  | .statusReport =>
    die.dieState = .exe ∧
      ∃ req rest, die.nandReqQ = req :: rest ∧ reportOpt req.reqCode = some die.reqStatusCheckOpt
  | .statusCheck =>
    die.dieState = .exe ∧
      ∃ req rest, die.nandReqQ = req :: rest ∧ checkOpt req.reqCode = some die.reqStatusCheckOpt
  | list =>
    die.dieState = .idle ∧
      ∃ req rest, die.nandReqQ = req :: rest ∧ wayListOf req.reqCode = some list

/-- The triggers sent for the head of a queue and those it may still get stay within the
limit; the other requests of the queue are as they arrived. -/
structure Counted (die : Die) : Prop where
  limit : die.retryLimit ≤ maxRetries
  fresh : ∀ req ∈ die.nandReqQ.tail, req.Fresh
  code : ∀ req ∈ die.nandReqQ, req.reqCode ≠ .other
  head : ∀ req ∈ die.nandReqQ.head?,
    req.triggers + die.retryLimit +
      (if req.reqCode = .read ∧ die.dieState = .idle then 1 else 0) ≤ maxRetries + 1

structure Fits (die : Die) (list : WayList) : Prop extends Counted die where
  agrees : die.Agrees list

variable {req : NandReq}

theorem Counted.triggers_le (counted : die.Counted)
    (queued : req ∈ die.nandReqQ) : req.triggers ≤ maxRetries + 1 := by
  have bound := counted.head
  have fresh := counted.fresh
  cases queue : die.nandReqQ with
  | nil =>
    rw [queue] at queued
    cases queued
  | cons first rest =>
    rw [queue] at queued bound fresh
    rcases List.mem_cons.1 queued with rfl | later
    · have := bound req rfl
      omega
    · rw [(fresh req later).2]
      omega

/-- A request that arrives changes the head of an empty queue only. -/
theorem Counted.putToNandReqQ (counted : die.Counted) (fresh : req.Fresh) :
    (die.putToNandReqQ req).Counted := by
  obtain ⟨limit, tail, code, head⟩ := counted
  unfold Die.putToNandReqQ
  refine ⟨limit, ?_, ?_, ?_⟩
  · intro other queued
    cases queue : die.nandReqQ with
    | nil => simp [queue] at queued
    | cons first rest =>
      simp only [queue, List.cons_append, List.tail_cons, List.mem_append,
        List.mem_singleton] at queued tail
      rcases queued with before | rfl
      · exact tail other before
      · exact fresh
  · intro other queued
    rcases List.mem_append.1 queued with before | added
    · exact code other before
    · rw [List.mem_singleton.1 added]
      exact fresh.1
  · intro first isHead
    cases queue : die.nandReqQ with
    | nil =>
      simp only [queue, List.nil_append, List.head?_cons, Option.mem_some_iff] at isHead
      subst isHead
      dsimp only
      rw [fresh.2]
      split <;> omega
    | cons other rest =>
      apply head first
      simpa [queue] using isHead

theorem Agrees.putToNandReqQ (agrees : die.Agrees list) (req : NandReq) :
    (die.putToNandReqQ req).Agrees list := by
  cases list <;> first
    | exact agrees
    | (obtain ⟨state, first, rest, queue, opt⟩ := agrees
       exact ⟨state, first, rest ++ [req], by simp [Die.putToNandReqQ, queue], opt⟩)

theorem Fits.putToNandReqQ (fits : die.Fits list) (fresh : req.Fresh) :
    (die.putToNandReqQ req).Fits list :=
  ⟨fits.toCounted.putToNandReqQ fresh, fits.agrees.putToNandReqQ req⟩

variable {rest : List NandReq}

/-- A way whose die is idle and whose queue is not empty fits the list of its next request. -/
theorem Fits.of_idle (fits : die.Fits .idle) (queue : die.nandReqQ = req :: rest) :
    ∃ goal, wayListOf req.reqCode = some goal ∧ die.Fits goal := by
  have known : req.reqCode ≠ .other := fits.code req (by simp [queue])
  have idle : die.dieState = .idle := fits.agrees
  cases code : req.reqCode with
  | other => exact absurd code known
  | _ => exact ⟨_, rfl, fits.toCounted, idle, req, rest, queue, by rw [code]; rfl⟩

def issuedTo : WayList → WayList
  | .readTransfer => .statusReport
  | _ => .statusCheck

def issuedOpt : NandReqCode → StatusCheckOpt
  | .readTransfer => .completionFlag
  | .reset => .none
  | .setFeature => .none
  | _ => .check

def issuedReq (req : NandReq) : NandReq :=
  if req.reqCode = .read then { req with triggers := req.triggers + 1 } else req

theorem issuedReq_reqCode (req : NandReq) : (issuedReq req).reqCode = req.reqCode := by
  unfold issuedReq
  split <;> rfl

theorem executeNandReq_idle (idle : die.dieState = .idle)
    (queue : die.nandReqQ = req :: rest) (known : req.reqCode ≠ .other) (status : ReqStatus) :
    die.executeNandReq status =
      .ok ({ dieState := .exe
             reqStatusCheckOpt := issuedOpt req.reqCode
             retryLimit := die.retryLimit
             nandReqQ := issuedReq req :: rest }, none) := by
  unfold Die.executeNandReq Die.issueNandReq issuedReq
  rw [idle, queue]
  cases code : req.reqCode with
  | other => exact absurd code known
  | _ => simp [code, bind, Except.bind, pure, Except.pure, issuedOpt]

theorem Fits.issue (fits : die.Fits .idle)
    (queue : die.nandReqQ = req :: rest) (goal : wayListOf req.reqCode = some list) :
    ∃ issued, die.executeNandReq .running = .ok (issued, none) ∧ issued.Fits (issuedTo list) := by
  obtain ⟨⟨limit, fresh, code, head⟩, idle⟩ := fits
  have idle : die.dieState = .idle := idle
  rw [queue] at fresh code head
  have bound := head req rfl
  have known := code req List.mem_cons_self
  refine ⟨_, executeNandReq_idle idle queue known .running, ⟨limit, fresh, ?_, ?_⟩, ?_⟩
  · intro other queued
    rcases List.mem_cons.1 queued with rfl | later
    · rw [issuedReq_reqCode]
      exact known
    · exact code other (List.mem_cons_of_mem _ later)
  · intro first isHead
    cases isHead
    unfold issuedReq
    rw [idle] at bound
    split at bound
    next trigger =>
      simp only [trigger.1, if_true, reduceCtorEq, and_false, if_false]
      omega
    next other =>
      simp only [and_true] at other
      simp only [other, if_false, false_and]
      omega
  · cases reqCode : req.reqCode with
    | other => exact absurd reqCode known
    | _ =>
      rw [reqCode] at goal
      cases goal
      exact ⟨rfl, _, rest, rfl, by rw [issuedReq_reqCode, reqCode]; rfl⟩

theorem Counted.setOpt (counted : die.Counted) (opt : StatusCheckOpt) :
    { die with reqStatusCheckOpt := opt }.Counted :=
  ⟨counted.limit, counted.fresh, counted.code, counted.head⟩

/-- A way on the status check list is asked once and then waits for the report. -/
theorem Fits.check (fits : die.Fits .statusCheck) (wayNo : Nat) (answer : Answer ways) :
    ∃ checked status, die.checkReqStatus wayNo answer = .ok (checked, status) ∧
      checked.Fits .statusReport := by
  obtain ⟨counted, state, req, rest, queue, opt⟩ := fits
  unfold Die.checkReqStatus
  cases chosen : die.reqStatusCheckOpt with
  | none =>
    refine ⟨_, _, rfl, counted, state, req, rest, queue, ?_⟩
    cases code : req.reqCode <;> simp_all [checkOpt, reportOpt]
  | check =>
    refine ⟨_, _, rfl, counted.setOpt _, state, req, rest, queue, ?_⟩
    cases code : req.reqCode <;> simp_all [checkOpt, reportOpt]
  | report | completionFlag => cases code : req.reqCode <;> simp_all [checkOpt]

/-- What `CheckReqStatus` does with a way on the status report list: the request still
runs and the way stays or has to be asked again, or the request has ended. -/
inductive Reported (checked : Die) : ReqStatus → Prop
  | again (fits : checked.Fits .statusCheck) (opt : checked.reqStatusCheckOpt = .check) :
      Reported checked .running
  | waits (fits : checked.Fits .statusReport) (opt : checked.reqStatusCheckOpt ≠ .check) :
      Reported checked .running
  | ended {status : ReqStatus} (counted : checked.Counted) (exe : checked.dieState = .exe)
      (queued : checked.nandReqQ ≠ []) (running : status ≠ .running) (named : status ≠ .other) :
      Reported checked status

theorem Fits.report (fits : die.Fits .statusReport) (wayNo : Nat) (answer : Answer ways) :
    ∃ checked status, die.checkReqStatus wayNo answer = .ok (checked, status) ∧
      Reported checked status := by
  have whole := fits
  obtain ⟨counted, state, req, rest, queue, opt⟩ := fits
  have queued : die.nandReqQ ≠ [] := by simp [queue]
  unfold Die.checkReqStatus
  cases chosen : die.reqStatusCheckOpt with
  | none =>
    refine ⟨_, _, rfl, ?_⟩
    split
    · exact .ended counted state queued nofun nofun
    · exact .waits whole (by simp [chosen])
  | check => cases code : req.reqCode <;> simp_all [reportOpt]
  | report =>
    have again : checkOpt req.reqCode = some .check := by
      cases code : req.reqCode <;> simp_all [reportOpt, checkOpt]
    dsimp only
    split
    · split
      · split
        · exact ⟨_, _, rfl, .ended counted state queued nofun nofun⟩
        · exact ⟨_, _, rfl, .ended (counted.setOpt _) state queued nofun nofun⟩
      · exact ⟨_, _, rfl, .again ⟨counted.setOpt _, state, req, rest, queue, again⟩ rfl⟩
    · exact ⟨_, _, rfl, .waits whole (by simp [chosen])⟩
  | completionFlag =>
    dsimp only
    split
    · rw [queue]
      dsimp only
      split
      · split <;> exact ⟨_, _, rfl, .ended counted state queued nofun nofun⟩
      · exact ⟨_, _, rfl, .ended counted state queued nofun nofun⟩
    · exact ⟨_, _, rfl, .waits whole (by simp [chosen])⟩

theorem Counted.finishReq (counted : die.Counted) (queued : die.nandReqQ ≠ []) :
    ∃ idle req, die.finishReq = .ok (idle, some req) ∧ idle.Fits .idle ∧
      req.triggers ≤ maxRetries + 1 := by
  cases queue : die.nandReqQ with
  | nil => exact absurd queue queued
  | cons req rest =>
    have fresh := counted.fresh
    rw [queue] at fresh
    unfold Die.finishReq Die.getFromNandReqQ
    rw [queue]
    refine ⟨_, req, rfl, ⟨⟨le_rfl, ?_, ?_, ?_⟩, rfl⟩, counted.triggers_le (by simp [queue])⟩
    · exact fun other later => fresh other (List.mem_of_mem_tail later)
    · exact fun other later => (fresh other later).1
    · intro first isHead
      rw [(fresh first (List.mem_of_head? isHead)).2]
      dsimp only
      split <;> omega

/-- `ExecuteNandReq` of a request that has ended: it is finished, or it goes on as a read
transfer or with another trigger. -/
theorem Counted.execute (counted : die.Counted) (exe : die.dieState = .exe)
    (queued : die.nandReqQ ≠ []) {status : ReqStatus} (running : status ≠ .running)
    (named : status ≠ .other) :
    ∃ idle finished, die.executeNandReq status = .ok (idle, finished) ∧ idle.Fits .idle ∧
      ∀ req ∈ finished, req.triggers ≤ maxRetries + 1 := by
  have finish : ∃ idle finished, die.finishReq = .ok (idle, finished) ∧ idle.Fits .idle ∧
      ∀ req ∈ finished, req.triggers ≤ maxRetries + 1 := by
    obtain ⟨idle, req, finished, fits, bound⟩ := counted.finishReq queued
    exact ⟨idle, some req, finished, fits, by simpa using bound⟩
  cases queue : die.nandReqQ with
  | nil => exact absurd queue queued
  | cons req rest =>
    obtain ⟨limit, fresh, code, head⟩ := counted
    rw [queue] at fresh code head
    have bound := head req rfl
    unfold Die.executeNandReq
    rw [exe]
    cases status with
    | running => exact absurd rfl running
    | other => exact absurd rfl named
    | warning => exact finish
    | done =>
      rw [queue]
      dsimp only
      split
      · refine ⟨_, none, rfl, ⟨⟨limit, fresh, ?_, ?_⟩, rfl⟩, nofun⟩
        · intro other listed
          rcases List.mem_cons.1 listed with rfl | later
          · exact nofun
          · exact code other (List.mem_cons_of_mem _ later)
        · intro first isHead
          cases isHead
          simp only [reduceCtorEq, false_and, if_false]
          omega
      · exact finish
    | fail =>
      rw [queue]
      dsimp only
      split
      next retry =>
        refine ⟨_, none, rfl, ⟨⟨by dsimp only; omega, fresh, ?_, ?_⟩, rfl⟩, nofun⟩
        · intro other listed
          rcases List.mem_cons.1 listed with rfl | later
          · exact nofun
          · exact code other (List.mem_cons_of_mem _ later)
        · intro first isHead
          cases isHead
          rw [exe] at bound
          simp only [and_self, if_true, reduceCtorEq, and_false, if_false] at bound ⊢
          omega
      · exact finish

end Die

/-- The lists of a channel hold each way, and each way fits its list.  A way in the hand of
the firmware is still linked, but its die is already idle. -/
structure Listed {ways : Nat} (channel : Channel ways) (lists : WayList → List (Fin ways))
    (hand : Option (Fin ways)) : Prop where
  family : Family channel.link channel.wayPriority lists
  placed : ∀ wayNo, ∃ list, wayNo ∈ lists list
  fits : ∀ wayNo list, wayNo ∈ lists list →
    (channel.die wayNo).Fits (if hand = some wayNo then .idle else list)
  bounded : ∀ entry ∈ channel.finished, entry.1.triggers ≤ maxRetries + 1

namespace Listed

variable {ways : Nat} {channel : Channel ways} {lists : WayList → List (Fin ways)}
  {hand : Option (Fin ways)} {wayNo : Fin ways} {list goal : WayList}

theorem setDie (listed : Listed channel lists none) (member : wayNo ∈ lists list) {die : Die}
    (fits : die.Fits (if hand = some wayNo then .idle else list))
    (own : ∀ other ≠ wayNo, hand ≠ some other) : Listed (channel.setDie wayNo die) lists hand where
  family := listed.family
  placed := listed.placed
  bounded := listed.bounded
  fits := by
    intro other list' inList
    by_cases same : other = wayNo
    · subst same
      cases listed.family.disjoint list' list other inList member
      rw [Channel.setDie_die_self]
      exact fits
    · rw [channel.setDie_die_of_ne wayNo die same, if_neg (own other same)]
      exact listed.fits other list' inList

section

variable (listed : Listed channel lists hand)
include listed

theorem putToNandReqQ (target : Fin ways) {req : NandReq}
    (fresh : req.Fresh) : Listed (channel.putToNandReqQ target req) lists hand where
  family := listed.family
  placed := listed.placed
  bounded := listed.bounded
  fits := by
    intro other list inList
    have fits := listed.fits other list inList
    unfold Channel.putToNandReqQ
    by_cases same : other = target
    · subst same
      rw [Channel.setDie_die_self]
      exact fits.putToNandReqQ fresh
    · rw [channel.setDie_die_of_ne target _ same]
      exact fits

theorem releaseBlockedByBufDepReq
    {released : Option (Fin ways × NandReq)} (fresh : ∀ target ∈ released, target.2.Fresh) :
    Listed (channel.releaseBlockedByBufDepReq released) lists hand := by
  cases released with
  | none => exact listed
  | some target => exact listed.putToNandReqQ target.1 (fresh target rfl)

theorem releaseBlockedByRowAddrDepReq (wayNo : Fin ways)
    {released : List NandReq} (fresh : ∀ req ∈ released, req.Fresh) :
    Listed (channel.releaseBlockedByRowAddrDepReq wayNo released) lists hand := by
  unfold Channel.releaseBlockedByRowAddrDepReq
  induction released generalizing channel with
  | nil => exact listed
  | cons req rest ih =>
    apply ih (listed.putToNandReqQ wayNo (fresh req List.mem_cons_self))
    intro other later
    exact fresh other (List.mem_cons_of_mem _ later)

theorem refill (wayNo : Fin ways) {answer : Answer ways}
    (fresh : ∀ req ∈ answer.rowReleased, req.Fresh) :
    Listed (channel.refill wayNo answer) lists hand := by
  unfold Channel.refill
  split
  · exact listed.releaseBlockedByRowAddrDepReq wayNo fresh
  · exact listed

section

variable (member : wayNo ∈ lists list)
include member

/-- A way is moved, with a new entry in the die state table, to a list that this entry
fits. -/
theorem move (own : ∀ other ≠ wayNo, hand ≠ some other) {die : Die} (fits : die.Fits goal) :
    Listed (Channel.putToNandList goal
        (Channel.selectiveGetFromNandList list (channel.setDie wayNo die) wayNo) wayNo)
      (Family.relisted lists list goal wayNo) none where
  family := listed.family.move list goal member
  placed := by
    intro other
    by_cases same : other = wayNo
    · exact ⟨goal, (listed.family.mem_relisted member goal other goal).2 (by simp [same])⟩
    · obtain ⟨list', inList⟩ := listed.placed other
      exact ⟨list', (listed.family.mem_relisted member goal other list').2 (by simp [same, inList])⟩
  bounded := listed.bounded
  fits := by
    intro other list' inList
    rw [listed.family.mem_relisted member goal other list'] at inList
    change ((channel.setDie wayNo die).die other).Fits list'
    split at inList
    next same =>
      rw [same, inList, Channel.setDie_die_self]
      exact fits
    next different =>
      have := listed.fits other list' inList
      rwa [if_neg (own other different), ← channel.setDie_die_of_ne wayNo die different] at this

theorem moveSame (own : ∀ other ≠ wayNo, hand ≠ some other) (fits : (channel.die wayNo).Fits goal) :
    Listed (Channel.putToNandList goal (Channel.selectiveGetFromNandList list channel wayNo) wayNo)
      (Family.relisted lists list goal wayNo) none := by
  have moved := listed.move member own fits
  rwa [Channel.setDie_die] at moved

/-- `PutToNandWayPriorityTable` for a way whose die is idle. -/
theorem putToNandWayPriorityTable (fits : (channel.die wayNo).Fits .idle)
    (own : ∀ other ≠ wayNo, hand ≠ some other) {req : NandReq} {rest : List NandReq}
    (queue : (channel.die wayNo).nandReqQ = req :: rest) :
    ∃ goal moved,
      (Channel.selectiveGetFromNandList list channel wayNo).putToNandWayPriorityTable req wayNo =
        .ok moved ∧ Listed moved (Family.relisted lists list goal wayNo) none := by
  obtain ⟨goal, chosen, fitsGoal⟩ := fits.of_idle queue
  refine ⟨goal, _, ?_, listed.moveSame member own fitsGoal⟩
  unfold Channel.putToNandWayPriorityTable
  cases code : req.reqCode <;> rw [code] at chosen <;> cases chosen <;> rfl

/-- The way after a member of a list is a member of this list, also after the first one was
moved away. -/
theorem next_mem : ∀ next ∈ channel.link.next wayNo, next ∈ lists list ∧ next ≠ wayNo := by
  intro next linked
  exact (listed.family.holds list).next_mem member linked

theorem next_mem_relisted (goal : WayList) :
    ∀ next ∈ channel.link.next wayNo, next ∈ Family.relisted lists list goal wayNo list := by
  intro next linked
  obtain ⟨inList, different⟩ := listed.next_mem member next linked
  rw [listed.family.mem_relisted member, if_neg different]
  exact inList

end

theorem head_mem (list : WayList) :
    ∀ first ∈ (channel.wayPriority list).head, first ∈ lists list := by
  intro first isHead
  rw [(listed.family.holds list).head] at isHead
  exact List.mem_of_head? isHead

end

end Listed

namespace Channel

variable {ways : Nat} (channel : Channel ways) (wayNo : Fin ways) (answer : Answer ways)

theorem refill_selectiveGet (list : WayList) :
    (selectiveGetFromNandList list channel wayNo).refill wayNo answer =
      selectiveGetFromNandList list (channel.refill wayNo answer) wayNo := by
  unfold refill releaseBlockedByRowAddrDepReq
  have fold : ∀ released : List NandReq, ∀ channel : Channel ways,
      released.foldl (fun channel req => channel.putToNandReqQ wayNo req)
          (selectiveGetFromNandList list channel wayNo) =
        selectiveGetFromNandList list
          (released.foldl (fun channel req => channel.putToNandReqQ wayNo req) channel) wayNo := by
    intro released
    induction released with
    | nil => exact fun _ => rfl
    | cons req rest ih => exact fun channel => ih (channel.putToNandReqQ wayNo req)
  rw [selectiveGetFromNandList_die]
  split
  · exact fold answer.rowReleased channel
  · rfl

end Channel

namespace Scheduler

variable {ways : Nat} {channel : Channel ways} {lists : WayList → List (Fin ways)}
  {wayNo : Fin ways} {answer : Answer ways}

def OnList (lists : WayList → List (Fin ways)) : Position ways → Prop
  | .rest => True
  | .idleWalk wayNo _ => ∀ way ∈ wayNo, way ∈ lists .idle
  | .statusReportWalk _ wayNo _ => ∀ way ∈ wayNo, way ∈ lists .statusReport
  | .statusCheckWalk _ wayNo => ∀ way ∈ wayNo, way ∈ lists .statusCheck
  | .readTriggerWalk wayNo => ∀ way ∈ wayNo, way ∈ lists .readTrigger
  | .eraseWalk wayNo => ∀ way ∈ wayNo, way ∈ lists .erase
  | .writeWalk wayNo => ∀ way ∈ wayNo, way ∈ lists .write
  | .readTransferWalk wayNo => ∀ way ∈ wayNo, way ∈ lists .readTransfer

structure Scheduled (scheduler : Scheduler ways) (lists : WayList → List (Fin ways)) : Prop where
  listed : Listed scheduler.channel lists none
  onList : OnList lists scheduler.position

def Goes (result : Except SchedulerStop (Scheduler ways)) : Prop :=
  ∃ scheduler lists, result = .ok scheduler ∧ Scheduled scheduler lists

private theorem own_none (wayNo : Fin ways) :
    ∀ other ≠ wayNo, (none : Option (Fin ways)) ≠ some other := nofun

private theorem own_self (wayNo : Fin ways) : ∀ other ≠ wayNo, some wayNo ≠ some other :=
  fun _ different same => different (Option.some.inj same).symm

theorem idleTurn_goes (listed : Listed channel lists none) (member : wayNo ∈ lists .idle)
    (fresh : ∀ req ∈ answer.rowReleased, req.Fresh) (waitWayCnt : Nat) :
    Goes (idleTurn channel wayNo answer waitWayCnt) := by
  have refilled := listed.refill wayNo fresh
  have fits := refilled.fits wayNo .idle member
  unfold idleTurn
  dsimp only
  cases queue : ((channel.refill wayNo answer).die wayNo).nandReqQ with
  | nil =>
    exact ⟨_, lists, rfl, refilled, fun next linked => (refilled.next_mem member next linked).1⟩
  | cons req rest =>
    obtain ⟨goal, moved, movedEq, kept⟩ := refilled.putToNandWayPriorityTable member fits
      (own_none wayNo) queue
    dsimp only
    rw [movedEq]
    exact ⟨_, _, rfl, kept, refilled.next_mem_relisted member goal⟩

/-- `ExecuteNandReq` of a request that has ended takes the way in hand. -/
theorem executeNandReq_ended (listed : Listed channel lists none)
    (member : wayNo ∈ lists .statusReport) {die : Die} (counted : die.Counted)
    (exe : die.dieState = .exe) (queued : die.nandReqQ ≠ []) {status : ReqStatus}
    (running : status ≠ .running) (named : status ≠ .other)
    (fresh : ∀ target ∈ answer.bufReleased, target.2.Fresh) :
    ∃ executed, (channel.setDie wayNo die).executeNandReq wayNo status answer = .ok executed ∧
      Listed executed lists (some wayNo) := by
  obtain ⟨idle, finished, executedEq, fits, bound⟩ := counted.execute exe queued running named
  have taken : Listed (channel.setDie wayNo idle) lists (some wayNo) :=
    listed.setDie member (by simpa using fits) (own_self wayNo)
  unfold Channel.executeNandReq
  rw [Channel.setDie_die_self, executedEq]
  cases finished with
  | none =>
    refine ⟨_, rfl, ?_⟩
    rw [Channel.setDie_setDie]
    exact taken
  | some req =>
    refine ⟨_, rfl, Listed.releaseBlockedByBufDepReq ?_ fresh⟩
    rw [Channel.setDie_setDie]
    refine ⟨taken.family, taken.placed, taken.fits, ?_⟩
    intro entry logged
    rcases List.mem_append.1 logged with before | added
    · exact listed.bounded entry before
    · rw [List.mem_singleton.1 added]
      exact bound req rfl

theorem endedTurn_goes {executed : Channel ways} {status : ReqStatus}
    (executedEq : channel.executeNandReq wayNo status answer = .ok executed)
    (listed : Listed executed lists (some wayNo)) (member : wayNo ∈ lists .statusReport)
    (fresh : ∀ req ∈ answer.rowReleased, req.Fresh) (readyBusy : BitVec 32) (waitWayCnt : Nat) :
    Goes (endedTurn channel wayNo answer readyBusy waitWayCnt status) := by
  have refilled := listed.refill wayNo fresh
  have fits := refilled.fits wayNo .statusReport member
  rw [if_pos rfl] at fits
  unfold endedTurn
  rw [executedEq]
  dsimp only [bind, Except.bind, pure, Except.pure]
  rw [Channel.refill_selectiveGet, Channel.selectiveGetFromNandList_die]
  cases queue : ((executed.refill wayNo answer).die wayNo).nandReqQ with
  | nil =>
    exact ⟨_, _, rfl, refilled.moveSame member (own_self wayNo) fits,
      listed.next_mem_relisted member .idle⟩
  | cons req rest =>
    obtain ⟨goal, moved, movedEq, kept⟩ := refilled.putToNandWayPriorityTable member fits
      (own_self wayNo) queue
    dsimp only
    rw [movedEq]
    exact ⟨_, _, rfl, kept, listed.next_mem_relisted member goal⟩

theorem statusReportTurn_goes (listed : Listed channel lists none)
    (member : wayNo ∈ lists .statusReport) (fresh : (Event.turn answer).Proper)
    (readyBusy : BitVec 32) (waitWayCnt : Nat) :
    Goes (statusReportTurn channel wayNo answer readyBusy waitWayCnt) := by
  unfold statusReportTurn
  split
  · obtain ⟨die, status, checkedEq, reported⟩ :=
      (listed.fits wayNo .statusReport member).report wayNo answer
    rw [checkedEq]
    dsimp only [bind, Except.bind, pure, Except.pure]
    cases reported with
    | again fits opt =>
      rw [if_neg (by simp), if_pos opt]
      exact ⟨_, _, rfl, listed.move member (own_none wayNo) fits,
        listed.next_mem_relisted member .statusCheck⟩
    | waits fits opt =>
      rw [if_neg (by simp), if_neg opt]
      refine ⟨_, lists, rfl, listed.setDie member fits (own_none wayNo), ?_⟩
      exact fun next linked => (listed.next_mem member next linked).1
    | ended counted exe queued running named =>
      obtain ⟨executed, executedEq, taken⟩ := executeNandReq_ended listed member counted exe queued
        running named fresh.1
      rw [if_pos running]
      exact endedTurn_goes executedEq taken member fresh.2 readyBusy waitWayCnt
  · refine ⟨_, lists, rfl, listed, ?_⟩
    exact fun next linked => (listed.next_mem member next linked).1

variable {position : Option (Fin ways) → Position ways}

/-- After a way was moved, its loop is at the end of the list it was moved to. -/
theorem goOn_goes {list goal : WayList}
    (listed : Listed channel (Family.relisted lists list goal wayNo) none)
    (ends : ∀ lists : WayList → List (Fin ways), OnList lists (position none)) :
    Scheduled (goOn channel wayNo answer position) (Family.relisted lists list goal wayNo) := by
  refine ⟨listed, ?_⟩
  unfold goOn
  rw [Family.next_relisted listed.family]
  cases answer.controllerBusy with
  | true => trivial
  | false => exact ends _

theorem statusCheckTurn_goes (listed : Listed channel lists none)
    (member : wayNo ∈ lists .statusCheck) (readyBusy : BitVec 32) :
    Goes (statusCheckTurn channel wayNo answer readyBusy) := by
  unfold statusCheckTurn
  split
  · obtain ⟨die, status, checkedEq, fits⟩ :=
      (listed.fits wayNo .statusCheck member).check wayNo answer
    rw [checkedEq]
    exact ⟨_, _, rfl, goOn_goes (listed.move member (own_none wayNo) fits) fun _ => nofun⟩
  · refine ⟨_, lists, rfl, listed, ?_⟩
    exact fun next linked => (listed.next_mem member next linked).1

/-- A turn of the loop over the list `list`, one of the lists of ways to be served. -/
theorem issueTurn_goes {list : WayList}
    (listed : Listed channel lists none) (member : wayNo ∈ lists list)
    (served : ∀ die : Die, die.Agrees list → die.dieState = .idle ∧
      ∃ req rest, die.nandReqQ = req :: rest ∧ wayListOf req.reqCode = some list)
    (ends : ∀ lists : WayList → List (Fin ways), OnList lists (position none)) :
    Goes (issueTurn channel wayNo answer (Channel.selectiveGetFromNandList list)
      (Channel.putToNandList (Die.issuedTo list)) position) := by
  have fits := listed.fits wayNo list member
  obtain ⟨idle, req, rest, queue, goal⟩ := served _ fits.agrees
  obtain ⟨issued, issuedEq, fitsIssued⟩ := Die.Fits.issue ⟨fits.toCounted, idle⟩ queue goal
  unfold issueTurn Channel.executeNandReq
  rw [issuedEq]
  exact ⟨_, _, rfl, goOn_goes (listed.move member (own_none wayNo) fitsIssued) ends⟩

variable {scheduler : Scheduler ways}

theorem turn_goes (scheduled : Scheduled scheduler lists)
    (fresh : (Event.turn answer).Proper) : Goes (scheduler.turn answer) := by
  obtain ⟨channel, position⟩ := scheduler
  obtain ⟨listed, onList⟩ := scheduled
  have start := listed.head_mem
  cases position with
  | rest => exact ⟨_, lists, rfl, listed, start .idle⟩
  | idleWalk wayNo waitWayCnt =>
    cases wayNo with
    | none => exact ⟨_, lists, rfl, listed, start .statusReport⟩
    | some wayNo => exact idleTurn_goes listed (onList wayNo rfl) fresh.2 waitWayCnt
  | statusReportWalk readyBusy wayNo waitWayCnt =>
    cases wayNo with
    | none =>
      unfold turn
      dsimp only
      split
      · exact ⟨_, lists, rfl, listed, start .statusCheck⟩
      · exact ⟨_, lists, rfl, listed, trivial⟩
    | some wayNo =>
      exact statusReportTurn_goes listed (onList wayNo rfl) fresh readyBusy waitWayCnt
  | statusCheckWalk readyBusy wayNo =>
    cases wayNo with
    | none => exact ⟨_, lists, rfl, listed, start .readTrigger⟩
    | some wayNo => exact statusCheckTurn_goes listed (onList wayNo rfl) readyBusy
  | readTriggerWalk wayNo =>
    cases wayNo with
    | none => exact ⟨_, lists, rfl, listed, start .erase⟩
    | some wayNo =>
      exact issueTurn_goes listed (onList wayNo rfl) (fun _ agrees => agrees) fun _ => nofun
  | eraseWalk wayNo =>
    cases wayNo with
    | none => exact ⟨_, lists, rfl, listed, start .write⟩
    | some wayNo =>
      exact issueTurn_goes listed (onList wayNo rfl) (fun _ agrees => agrees) fun _ => nofun
  | writeWalk wayNo =>
    cases wayNo with
    | none => exact ⟨_, lists, rfl, listed, start .readTransfer⟩
    | some wayNo =>
      exact issueTurn_goes listed (onList wayNo rfl) (fun _ agrees => agrees) fun _ => nofun
  | readTransferWalk wayNo =>
    cases wayNo with
    | none => exact ⟨_, lists, rfl, listed, trivial⟩
    | some wayNo =>
      exact issueTurn_goes listed (onList wayNo rfl) (fun _ agrees => agrees) fun _ => nofun

theorem step_goes (scheduled : Scheduled scheduler lists)
    {event : Event ways} (proper : event.Proper) : Goes (scheduler.step event) := by
  cases event with
  | arrive wayNo req =>
    exact ⟨_, lists, rfl, scheduled.listed.putToNandReqQ wayNo proper, scheduled.onList⟩
  | turn answer => exact turn_goes scheduled proper

section Initial

variable (ways)

theorem wayAt_of_lt {number : Nat} (bound : number < ways) :
    wayAt ways number = some ⟨number, bound⟩ := dif_pos bound

/-- The links of `InitReqScheduler` chain the ways by number. -/
theorem initReqScheduler_segment (number : Nat) :
    Segment (initReqScheduler ways).channel.link
      (if number = 0 then none else wayAt ways (number - 1)) ((List.finRange ways).drop number)
      none := by
  induction left : ways - number generalizing number with
  | zero =>
    rw [List.drop_eq_nil_of_le (by rw [List.length_finRange]; omega)]
    trivial
  | succ left ih =>
    have bound : number < ways := by omega
    have later := ih (number + 1) (by omega)
    rw [List.drop_eq_getElem_cons (by simpa using bound), List.getElem_finRange]
    refine ⟨rfl, ?_, ?_⟩
    · change wayAt ways (number + 1) = _
      by_cases last : number + 1 < ways
      · rw [wayAt_of_lt ways last, List.drop_eq_getElem_cons (by simpa using last)]
        simp
      · rw [List.drop_eq_nil_of_le (by rw [List.length_finRange]; omega)]
        exact dif_neg last
    · simpa [wayAt_of_lt ways bound] using later

theorem initReqScheduler_scheduled :
    Scheduled (initReqScheduler ways) fun list =>
      if list = .idle then List.finRange ways else [] := by
  refine ⟨⟨⟨?_, ?_⟩, ?_, ?_, nofun⟩, trivial⟩
  · intro list
    by_cases idle : list = .idle
    · subst idle
      refine ⟨List.nodup_finRange ways, ?_, ?_, initReqScheduler_segment ways 0⟩
      · cases ways with
        | zero => rfl
        | succ count => simp [initReqScheduler, wayAt, List.finRange_succ]
      · cases ways with
        | zero => rfl
        | succ count => simp [initReqScheduler, wayAt, List.finRange_succ_last, Fin.last]
    · simp only [initReqScheduler, idle, if_false]
      exact holds_empty _
  · intro list list' wayNo inFirst inSecond
    by_cases first : list = .idle <;> by_cases second : list' = .idle
    · rw [first, second]
    · simp [second] at inSecond
    · simp [first] at inFirst
    · simp [first] at inFirst
  · exact fun wayNo => ⟨.idle, by simp⟩
  · intro wayNo list inList
    by_cases idle : list = .idle
    · subst idle
      exact ⟨⟨le_rfl, nofun, nofun, nofun⟩, rfl⟩
    · simp [idle] at inList

/-- Four bits tell the ways and `WAY_NONE` apart. -/
theorem wayField_injective {ways : Nat} (few : ways ≤ 8) :
    Function.Injective fun wayNo : Option (Fin ways) => wayField wayNo := by
  intro first second same
  have number : ∀ wayNo : Option (Fin ways),
      (wayField wayNo).toNat = (wayNo.map Fin.val).getD 15 := by
    intro wayNo
    cases wayNo with
    | none => rfl
    | some wayNo =>
      have bound := wayNo.isLt
      simp only [wayField, BitVec.toNat_ofNat, Option.map_some, Option.getD_some]
      omega
  have equal := congrArg BitVec.toNat same
  dsimp only at equal
  rw [number, number] at equal
  cases first with
  | none =>
    cases second with
    | none => rfl
    | some wayNo =>
      have bound := wayNo.isLt
      simp only [Option.map_none, Option.getD_none, Option.map_some, Option.getD_some] at equal
      omega
  | some wayNo =>
    cases second with
    | none =>
      have bound := wayNo.isLt
      simp only [Option.map_none, Option.getD_none, Option.map_some, Option.getD_some] at equal
      omega
    | some other => exact congrArg some (Fin.ext (by simpa using equal))

end Initial

theorem scheduled_of_run (run : ReflTransGen Step (initReqScheduler ways) scheduler) :
    ∃ lists, Scheduled scheduler lists := by
  refine Fallible.run_invariant (fun scheduler => ∃ lists, Scheduled scheduler lists)
    ⟨_, initReqScheduler_scheduled ways⟩ ?_ run
  rintro state state' ⟨lists, scheduled⟩ ⟨event, proper, taken⟩
  obtain ⟨next, lists', nextEq, kept⟩ := step_goes scheduled proper
  rw [nextEq] at taken
  cases taken
  exact ⟨lists', kept⟩

/-- For every number of ways that the controller supports, whatever requests arrive and
whatever the controller answers: the seven lists are well formed, hold each way once and
agree with the die of the way and the head of its NAND queue; the four bits of a link hold
it; no event leads to an assert; and no read is triggered more than `RETRY_LIMIT` times
after its first trigger. -/
theorem ways_scheduled (few : ways ≤ 8) {scheduler : Scheduler ways}
    (run : Relation.ReflTransGen Step (initReqScheduler ways) scheduler) :
    (∃ lists, Family scheduler.channel.link scheduler.channel.wayPriority lists ∧
      (∀ wayNo, ∃! list, wayNo ∈ lists list) ∧
      ∀ wayNo list, wayNo ∈ lists list → (scheduler.channel.die wayNo).Agrees list) ∧
    (Function.Injective fun wayNo : Option (Fin ways) => wayField wayNo) ∧
    (∀ event : Event ways, event.Proper → ∃ next, scheduler.step event = .ok next) ∧
    (∀ wayNo, ∀ req ∈ (scheduler.channel.die wayNo).nandReqQ, req.triggers ≤ maxRetries + 1) ∧
    ∀ entry ∈ scheduler.channel.finished, entry.1.triggers ≤ maxRetries + 1 := by
  obtain ⟨lists, scheduled⟩ := scheduled_of_run run
  have listed := scheduled.listed
  refine ⟨⟨lists, listed.family, ?_, ?_⟩, wayField_injective few, ?_, ?_, listed.bounded⟩
  · intro wayNo
    obtain ⟨list, inList⟩ := listed.placed wayNo
    refine ⟨list, inList, ?_⟩
    intro other inOther
    exact listed.family.disjoint other list wayNo inOther inList
  · intro wayNo list inList
    exact (listed.fits wayNo list inList).agrees
  · intro event proper
    obtain ⟨next, _, nextEq, _⟩ := step_goes scheduled proper
    exact ⟨next, nextEq⟩
  · intro wayNo req queued
    obtain ⟨list, inList⟩ := listed.placed wayNo
    exact (listed.fits wayNo list inList).triggers_le queued

/-- All ways ready, nothing reported, nothing released. -/
def quietAnswer (ways : Nat) : Answer ways where
  readyBusy := 0xff
  controllerBusy := false
  completeFlag := 0
  statusReport := 0
  errorInfo0 := 0
  errorInfo1 := 0
  bufReleased := none
  rowReleased := []

/-- A read that arrives at the first of two ways is put on the read trigger list in the
second turn. -/
theorem ways_scheduled_twoWays : ∃ scheduler : Scheduler 2,
    Relation.ReflTransGen Step (initReqScheduler 2) scheduler ∧
      (scheduler.channel.wayPriority .readTrigger).head = some 0 ∧
      (scheduler.channel.die 0).Agrees .readTrigger ∧
      ∃ next, scheduler.step (.turn (quietAnswer 2)) = .ok next := by
  have quiet : (Event.turn (quietAnswer 2)).Proper := ⟨nofun, nofun⟩
  obtain ⟨scheduler, run, head⟩ : ∃ scheduler : Scheduler 2,
      ReflTransGen Step (initReqScheduler 2) scheduler ∧
        (scheduler.channel.wayPriority .readTrigger).head = some 0 := by
    refine ⟨_, .head ⟨.arrive 0 ⟨.read, true, false, 0⟩, ⟨nofun, rfl⟩, rfl⟩ (.head
      ⟨.turn (quietAnswer 2), quiet, rfl⟩ (.single ⟨.turn (quietAnswer 2), quiet, rfl⟩)), rfl⟩
  obtain ⟨⟨lists, family, _, agrees⟩, _, goesOn, _⟩ := ways_scheduled (by decide) run
  refine ⟨scheduler, run, head, agrees 0 .readTrigger ?_, goesOn _ quiet⟩
  rw [(family.holds .readTrigger).head] at head
  exact List.mem_of_head? head

end Scheduler

end RwRbuf.Firmware.WaySchedule
