import NextLevelRTOS.Lib.Batch
import NextLevelRTOS.Process.Io

/-!
# Kernel Subtasks

`schedule_kernel_subtask` puts a function into the table `subtasks`, and the idle
task calls the functions it finds there. The table has three cells. All three loops
over it increment the index in the condition, so they begin at the second cell and
end behind the last.

The first cell is never used, and the word behind the table is set to the null
pointer when the idle task starts. It stays null, since the insertion does not
store there. So the table is a waiting line with room for two, served as a whole
and in order: a request made while two are pending is dropped.

`accesses` is history, and so are `calls`, `accepted` and `executed`. A request is
the call with a task number that stands for a subtask; its number is the number of
the call. `stat` itself writes and prints the statistic and is not part of the
machine.

## Main definitions

* `SubtaskSystem`: The kernel and the table.
* `scheduleSubtask`, `initSubtasks`, `drainSubtasks`: The three loops.
* `Kept`: A request made while fewer than three are pending is accepted.
* `ExecutesInOrder`: What is accepted is executed once and in order.
* `StandsFor`: The table stands for a waiting line.

## Theorems

* `scan_eq`: The first loop ends at the first free cell.
* `drainFrom_drained`: The last one calls what it finds, in order.
* `standsFor_step`: The table keeps standing for a waiting line.
* `subtasks_run`: What holds of every run.
-/

namespace NextLevelRTOS

open Batch Machine

/-- `maxNumOfWaitingKernelSubtasks` -/
def maxNumOfWaitingKernelSubtasks : Nat := 3

/-- `statisticManager` -/
def statisticManager : Word := 0#32

/-- The functions that are scheduled. -/
inductive Subtask where
  | stat
  deriving DecidableEq, Repr

/-- What lies in a cell: a function, and the number of the call that put it there. -/
structure ScheduledSubtask where
  subtask : Subtask
  number : Nat
  deriving DecidableEq, Repr

/-- The kernel, and memory from the beginning of the table on. -/
structure SubtaskSystem where
  kernel : Kernel
  subtasks : Nat → Option ScheduledSubtask
  /-- The indices with which the table has been read and written. -/
  accesses : List Nat
  calls : Nat
  accepted : List ScheduledSubtask
  executed : List ScheduledSubtask

/-- The `switch` of `schedule_kernel_subtask`. -/
def subtaskOf (taskNumber : Word) : Option Subtask :=
  if taskNumber = statisticManager then some .stat else none

/-- `while (idx++ < max && subtasks[idx]) {}`, with the rounds left. -/
def scan (subtasks : Nat → Option ScheduledSubtask) : Nat → Nat → List Nat → Nat × List Nat
  | 0, idx, accesses => (idx + 1, accesses)
  | rounds + 1, idx, accesses =>
    let idx := idx + 1
    let accesses := accesses ++ [idx]
    if (subtasks idx).isSome then scan subtasks rounds idx accesses else (idx, accesses)

/-- `schedule_kernel_subtask` -/
def scheduleSubtask (taskNumber : Word) (s : SubtaskSystem) : SubtaskSystem :=
  let (idx, accesses) := scan s.subtasks maxNumOfWaitingKernelSubtasks 0 s.accesses
  let subtask := (subtaskOf taskNumber).map fun subtask =>
    { subtask := subtask, number := s.calls }
  let s := { s with accesses := accesses, calls := s.calls + 1 }
  let s :=
    if idx < maxNumOfWaitingKernelSubtasks then
      { s with
        subtasks := Function.update s.subtasks idx subtask
        accesses := s.accesses ++ [idx]
        accepted := s.accepted ++ subtask.toList }
    else s
  { s with kernel := scheduleKernelSubtask s.kernel }

/-- `while (idx++ < max) subtasks[idx] = NULL`, with the rounds left. -/
def initSubtasks : Nat → Nat → SubtaskSystem → SubtaskSystem
  | 0, _, s => s
  | rounds + 1, idx, s =>
    let idx := idx + 1
    initSubtasks rounds idx
      { s with
        subtasks := Function.update s.subtasks idx none
        accesses := s.accesses ++ [idx] }

/-- `while (idx++ < max && subtasks[idx]) { subtasks[idx](); subtasks[idx] = NULL; }`,
    with the rounds left. -/
def drainFrom : Nat → Nat → SubtaskSystem → SubtaskSystem
  | 0, _, s => s
  | rounds + 1, idx, s =>
    let idx := idx + 1
    match s.subtasks idx with
    | none => { s with accesses := s.accesses ++ [idx] }
    | some subtask =>
      drainFrom rounds idx
        { s with
          subtasks := Function.update s.subtasks idx none
          accesses := s.accesses ++ [idx, idx, idx]
          executed := s.executed ++ [subtask] }

/-- The idle task drains the table. -/
def drainSubtasks (s : SubtaskSystem) : SubtaskSystem :=
  drainFrom maxNumOfWaitingKernelSubtasks 0 s

/-- What can happen to the table. -/
inductive SubtaskEvent where
  | schedule (taskNumber : Word)
  | drain
  deriving DecidableEq, Repr

/-- The transition function. -/
def subtaskStep (e : SubtaskEvent) (s : SubtaskSystem) : Option SubtaskSystem :=
  match e with
  | .schedule taskNumber => some (scheduleSubtask taskNumber s)
  | .drain => some (drainSubtasks s)

/-- The idle task has initialised the table, with anything at all in memory. -/
def startSubtasks (kernel : Kernel) (memory : Nat → Option ScheduledSubtask) : SubtaskSystem :=
  initSubtasks maxNumOfWaitingKernelSubtasks 0
    { kernel := kernel
      subtasks := memory
      accesses := []
      calls := 0
      accepted := []
      executed := [] }

namespace SubtaskSystem

variable (s : SubtaskSystem)

/-- The number of requests accepted and not executed yet. -/
def pending : Nat := s.accepted.length - s.executed.length

/-- Every access is to a cell of the table. -/
def InBounds : Prop := ∀ idx ∈ s.accesses, idx < maxNumOfWaitingKernelSubtasks

/-- A request made while fewer than three are pending is accepted. -/
def Kept : SubtaskEvent → Prop
  | .schedule taskNumber =>
    ∀ subtask, subtaskOf taskNumber = some subtask → s.pending < maxNumOfWaitingKernelSubtasks →
      { subtask := subtask, number := s.calls } ∈ (scheduleSubtask taskNumber s).accepted
  | .drain => True

/-- A request is not made while all cells but the first are taken. -/
def RoomLeft : SubtaskEvent → Prop
  | .schedule taskNumber =>
    ∀ subtask, subtaskOf taskNumber = some subtask → s.pending ≠ maxNumOfWaitingKernelSubtasks - 1
  | .drain => True

/-- What is accepted is executed once, in the order of acceptance and at the latest
    when the table is drained next. -/
structure ExecutesInOrder : Prop where
  distinct : s.accepted.Nodup
  order : s.executed <+: s.accepted
  drained : (drainSubtasks s).executed = s.accepted ∧ (drainSubtasks s).accepted = s.accepted

end SubtaskSystem

/-- What is expected of a run from `s₀` to `s`. -/
structure ServesRequests (es : List SubtaskEvent) (s₀ s : SubtaskSystem) : Prop where
  bounds : s.InBounds
  kept : Meets subtaskStep SubtaskSystem.Kept es s₀
  order : s.ExecutesInOrder

/-! ### The three loops -/

section Loops

variable {l : List ScheduledSubtask}

/-- The insertion ends at the first free cell. -/
theorem scan_eq {subtasks : Nat → Option ScheduledSubtask} {rounds idx : Nat}
    (accesses : List Nat) (hlength : l.length < rounds)
    (hcells : ∀ i < rounds, subtasks (idx + 1 + i) = l[i]?) :
    ∃ reads, scan subtasks rounds idx accesses = (idx + l.length + 1, accesses ++ reads) := by
  induction l generalizing rounds idx accesses with
  | nil =>
      rcases Nat.exists_eq_succ_of_ne_zero (Nat.ne_of_gt hlength) with ⟨r, rfl⟩
      have hfree : subtasks (idx + 1) = none := hcells 0 (Nat.succ_pos r)
      refine ⟨[idx + 1], ?_⟩
      simp only [scan, hfree, Option.isSome_none, Bool.false_eq_true, if_false, List.length_nil,
        Nat.add_zero]
  | cons w l ih =>
      rcases Nat.exists_eq_succ_of_ne_zero (Nat.ne_of_gt (Nat.zero_lt_of_lt hlength)) with ⟨r, rfl⟩
      have htaken : subtasks (idx + 1) = some w := hcells 0 (Nat.succ_pos r)
      have hrest : ∀ i < r, subtasks (idx + 1 + 1 + i) = l[i]? := fun i hi => by
        have hcell := hcells (i + 1) (Nat.succ_lt_succ hi)
        rwa [List.getElem?_cons_succ, Nat.add_comm i 1, ← Nat.add_assoc] at hcell
      rcases ih (accesses ++ [idx + 1]) (Nat.lt_of_succ_lt_succ hlength) hrest with
        ⟨reads, hscan⟩
      refine ⟨(idx + 1) :: reads, ?_⟩
      simp only [scan, htaken, Option.isSome_some, if_true]
      rw [hscan, List.append_assoc, List.singleton_append, List.length_cons]
      congr 1
      omega

/-- What the last loop leaves when it finds `l` in the cells behind `idx`. -/
structure Drained (l : List ScheduledSubtask) (rounds idx : Nat) (s s' : SubtaskSystem) :
    Prop where
  executed : s'.executed = s.executed ++ l
  accepted : s'.accepted = s.accepted
  calls : s'.calls = s.calls
  accesses : s.accesses ⊆ s'.accesses
  before : ∀ i ≤ idx, s'.subtasks i = s.subtasks i
  cleared : ∀ i < rounds, s'.subtasks (idx + 1 + i) = none

/-- The idle task calls what it finds, in order, and clears the cells. -/
theorem drainFrom_drained {rounds idx : Nat} {s : SubtaskSystem} (hlength : l.length < rounds)
    (hcells : ∀ i < rounds, s.subtasks (idx + 1 + i) = l[i]?) :
    Drained l rounds idx s (drainFrom rounds idx s) := by
  induction l generalizing rounds idx s with
  | nil =>
      rcases Nat.exists_eq_succ_of_ne_zero (Nat.ne_of_gt hlength) with ⟨r, rfl⟩
      have hfree : s.subtasks (idx + 1) = none := hcells 0 (Nat.succ_pos r)
      simp only [drainFrom, hfree]
      exact ⟨(List.append_nil _).symm, rfl, rfl, List.subset_append_left _ _, fun _ _ => rfl,
        hcells⟩
  | cons w l ih =>
      rcases Nat.exists_eq_succ_of_ne_zero (Nat.ne_of_gt (Nat.zero_lt_of_lt hlength)) with ⟨r, rfl⟩
      have htaken : s.subtasks (idx + 1) = some w := hcells 0 (Nat.succ_pos r)
      simp only [drainFrom, htaken]
      set s₁ : SubtaskSystem := { s with
        subtasks := Function.update s.subtasks (idx + 1) none
        accesses := s.accesses ++ [idx + 1, idx + 1, idx + 1]
        executed := s.executed ++ [w] } with hs₁
      have hrest : ∀ i < r, s₁.subtasks (idx + 1 + 1 + i) = l[i]? := fun i hi => by
        have hcell := hcells (i + 1) (Nat.succ_lt_succ hi)
        rw [List.getElem?_cons_succ, Nat.add_comm i 1, ← Nat.add_assoc] at hcell
        rw [← hcell]
        exact Function.update_of_ne (by omega) _ _
      have hd := ih (Nat.lt_of_succ_lt_succ hlength) hrest
      refine ⟨?_, hd.accepted, hd.calls, fun a ha => hd.accesses (List.mem_append_left _ ha),
        fun i hi => ?_, fun i hi => ?_⟩
      · rw [hd.executed]
        exact List.append_assoc s.executed [w] l
      · rw [hd.before i (Nat.le_succ_of_le hi)]
        exact Function.update_of_ne (by omega) _ _
      -- The first cell is cleared in this round, the others in the rest.
      · cases i with
        | zero =>
            rw [hd.before (idx + 1 + 0) (Nat.le_refl _)]
            exact Function.update_self ..
        | succ i =>
            rw [Nat.add_comm i 1, ← Nat.add_assoc]
            exact hd.cleared i (Nat.lt_of_succ_lt_succ hi)

/-- What the initialisation leaves. -/
structure Cleared (rounds idx : Nat) (s s' : SubtaskSystem) : Prop where
  histories : s'.accepted = s.accepted ∧ s'.executed = s.executed ∧ s'.calls = s.calls
  accesses : s.accesses ⊆ s'.accesses ∧ (0 < rounds → idx + rounds ∈ s'.accesses)
  before : ∀ i ≤ idx, s'.subtasks i = s.subtasks i
  cleared : ∀ i < rounds, s'.subtasks (idx + 1 + i) = none

/-- The initialisation ends with the word behind the last cell it counts. -/
theorem initSubtasks_cleared {rounds idx : Nat} {s : SubtaskSystem} :
    Cleared rounds idx s (initSubtasks rounds idx s) := by
  induction rounds generalizing idx s with
  | zero =>
      exact ⟨⟨rfl, rfl, rfl⟩, ⟨List.Subset.refl _, fun h => absurd h (Nat.lt_irrefl 0)⟩,
        fun _ _ => rfl, fun i hi => absurd hi (Nat.not_lt_zero i)⟩
  | succ r ih =>
      -- What the first round leaves; the rest of the loop keeps its cell.
      set s₁ : SubtaskSystem := { s with
        subtasks := Function.update s.subtasks (idx + 1) none
        accesses := s.accesses ++ [idx + 1] } with hs₁
      have hc : Cleared r (idx + 1) s₁ (initSubtasks (r + 1) idx s) := ih
      refine ⟨hc.histories, ⟨fun a ha => hc.accesses.1 (List.mem_append_left _ ha), fun _ => ?_⟩,
        fun i hi => ?_, fun i hi => ?_⟩
      -- The last index is that of the last round.
      · by_cases hr : 0 < r
        · have hlast := hc.accesses.2 hr
          rwa [show idx + 1 + r = idx + (r + 1) by omega] at hlast
        · rw [show idx + (r + 1) = idx + 1 by omega]
          exact hc.accesses.1 (List.mem_append_right _ List.mem_cons_self)
      · rw [hc.before i (Nat.le_succ_of_le hi)]
        exact Function.update_of_ne (by omega) _ _
      · cases i with
        | zero =>
            rw [hc.before (idx + 1 + 0) (Nat.le_refl _)]
            exact Function.update_self ..
        | succ i =>
            rw [Nat.add_comm i 1, ← Nat.add_assoc]
            exact hc.cleared i (Nat.lt_of_succ_lt_succ hi)

end Loops

/-! ### The table as a waiting line -/

/-- The table stands for the line. -/
structure StandsFor (s : SubtaskSystem) (q : Line ScheduledSubtask) : Prop where
  fair : q.Fair (maxNumOfWaitingKernelSubtasks - 1)
  cells : ∀ i < maxNumOfWaitingKernelSubtasks, s.subtasks (0 + 1 + i) = q.waiting[i]?
  accepted : s.accepted = q.accepted
  executed : s.executed = q.served
  numbers : ∀ w ∈ q.accepted, w.number < s.calls

section Line

variable {s : SubtaskSystem} {q : Line ScheduledSubtask}

/-- The last cell counted is free. -/
theorem standsFor_length (h : StandsFor s q) : q.waiting.length < maxNumOfWaitingKernelSubtasks :=
  Nat.lt_of_le_of_lt h.fair.bounded (by decide)

theorem standsFor_pending (h : StandsFor s q) : s.pending = q.waiting.length := by
  rw [SubtaskSystem.pending, h.accepted, h.executed, fair_waiting h.fair]

/-- Storing in the first free cell appends to the line. -/
theorem store_cells {subtasks : Nat → Option ScheduledSubtask} {l : List ScheduledSubtask}
    {w : ScheduledSubtask} {n : Nat} (hcells : ∀ i < n, subtasks (0 + 1 + i) = l[i]?) :
    ∀ i < n, Function.update subtasks (0 + l.length + 1) (some w) (0 + 1 + i) = (l ++ [w])[i]? := by
  intro i hi
  by_cases heq : i = l.length
  · rw [heq, List.getElem?_concat_length, show 0 + 1 + l.length = 0 + l.length + 1 by omega]
    exact Function.update_self ..
  · rw [Function.update_of_ne (by omega), hcells i hi]
    by_cases hlt : i < l.length
    · rw [List.getElem?_append_left hlt]
    · rw [List.getElem?_eq_none (by omega), List.getElem?_eq_none (by
        rw [List.length_append, List.length_singleton]; omega)]

/-- What a call of `schedule_kernel_subtask` leaves. -/
theorem scheduleSubtask_eq (h : StandsFor s q) (taskNumber : Word) :
    let subtask := (subtaskOf taskNumber).map fun subtask =>
      ({ subtask := subtask, number := s.calls } : ScheduledSubtask)
    ∃ reads, scheduleSubtask taskNumber s =
      if q.waiting.length < maxNumOfWaitingKernelSubtasks - 1 then
        { kernel := scheduleKernelSubtask s.kernel
          subtasks := Function.update s.subtasks (0 + q.waiting.length + 1) subtask
          accesses := s.accesses ++ reads ++ [0 + q.waiting.length + 1]
          calls := s.calls + 1
          accepted := s.accepted ++ subtask.toList
          executed := s.executed }
      else
        { s with
          kernel := scheduleKernelSubtask s.kernel
          accesses := s.accesses ++ reads
          calls := s.calls + 1 } := by
  intro subtask
  rcases scan_eq s.accesses (standsFor_length h) h.cells with ⟨reads, hscan⟩
  refine ⟨reads, ?_⟩
  have hfree : 0 + q.waiting.length + 1 < maxNumOfWaitingKernelSubtasks ↔
      q.waiting.length < maxNumOfWaitingKernelSubtasks - 1 := by omega
  unfold scheduleSubtask
  rw [hscan]
  -- The index that the search ends with is in bounds exactly if the line has room.
  by_cases hroom : q.waiting.length < maxNumOfWaitingKernelSubtasks - 1
  · simp only [if_pos (hfree.mpr hroom), if_pos hroom]
    rfl
  · simp only [if_neg fun hc => hroom (hfree.mp hc), if_neg hroom]

/-- A request is an offer to a line with room for one less than the table has cells. -/
theorem standsFor_request (h : StandsFor s q) {taskNumber : Word} {subtask : Subtask}
    (hsubtask : subtaskOf taskNumber = some subtask) :
    StandsFor (scheduleSubtask taskNumber s)
      (q.offer (maxNumOfWaitingKernelSubtasks - 1)
        { subtask := subtask, number := s.calls }) := by
  -- The number of a request is new, so it is not among those accepted before.
  have hnew : ({ subtask := subtask, number := s.calls } : ScheduledSubtask) ∉ q.accepted :=
    fun hc => Nat.lt_irrefl _ (h.numbers _ hc)
  have hfair := offer_fair h.fair hnew
  rcases scheduleSubtask_eq h taskNumber with ⟨reads, hcall⟩
  rw [hcall, hsubtask]
  by_cases hroom : q.waiting.length < maxNumOfWaitingKernelSubtasks - 1
  · rw [if_pos hroom]
    rw [offer_room hroom] at hfair ⊢
    refine ⟨hfair, store_cells h.cells, congrArg (· ++ _) h.accepted, h.executed, fun w hw => ?_⟩
    rcases List.mem_append.mp hw with hw | hw
    · exact Nat.lt_succ_of_lt (h.numbers w hw)
    · rw [List.mem_singleton.mp hw]
      exact Nat.lt_succ_self _
  · rw [if_neg hroom]
    rw [offer_full hroom] at hfair ⊢
    exact ⟨hfair, h.cells, h.accepted, h.executed, fun w hw => Nat.lt_succ_of_lt (h.numbers w hw)⟩

/-- A task number that stands for nothing changes nothing. -/
theorem standsFor_unknown (h : StandsFor s q) {taskNumber : Word}
    (hunknown : subtaskOf taskNumber = none) : StandsFor (scheduleSubtask taskNumber s) q := by
  have hnumbers : ∀ w ∈ q.accepted, w.number < s.calls + 1 :=
    fun w hw => Nat.lt_succ_of_lt (h.numbers w hw)
  rcases scheduleSubtask_eq h taskNumber with ⟨reads, hcall⟩
  rw [hcall, hunknown]
  by_cases hroom : q.waiting.length < maxNumOfWaitingKernelSubtasks - 1
  · rw [if_pos hroom]
    refine ⟨h.fair, fun i hi => ?_, (List.append_nil _).trans h.accepted, h.executed, hnumbers⟩
    -- The cell that is written was free.
    have hfree := h.cells q.waiting.length (standsFor_length h)
    rw [List.getElem?_eq_none (Nat.le_refl _),
      show 0 + 1 + q.waiting.length = 0 + q.waiting.length + 1 by omega] at hfree
    change Function.update s.subtasks (0 + q.waiting.length + 1) none (0 + 1 + i) = _
    rw [← hfree, Function.update_eq_self]
    exact h.cells i hi
  · rw [if_neg hroom]
    exact ⟨h.fair, h.cells, h.accepted, h.executed, hnumbers⟩

/-- A pass of the idle task serves the line. -/
theorem standsFor_drain (h : StandsFor s q) : StandsFor (drainSubtasks s) q.serve := by
  have hd := drainFrom_drained (standsFor_length h) h.cells
  refine ⟨serve_fair h.fair, fun i hi => ?_, hd.accepted.trans h.accepted, ?_, fun w hw => ?_⟩
  · exact hd.cleared i hi
  · exact hd.executed.trans (congrArg (· ++ _) h.executed)
  · have hcalls : (drainSubtasks s).calls = s.calls := hd.calls
    rw [hcalls]
    exact h.numbers w hw

/-- The table keeps standing for a line, and no access is forgotten. -/
theorem standsFor_step {e : SubtaskEvent} {s' : SubtaskSystem} (h : StandsFor s q)
    (hstep : subtaskStep e s = some s') : (∃ q', StandsFor s' q') ∧ s.accesses ⊆ s'.accesses := by
  cases e with
  | schedule taskNumber =>
      obtain rfl : scheduleSubtask taskNumber s = s' := Option.some.inj hstep
      constructor
      · cases hsubtask : subtaskOf taskNumber with
        | none => exact ⟨q, standsFor_unknown h hsubtask⟩
        | some subtask => exact ⟨_, standsFor_request h hsubtask⟩
      · rcases scheduleSubtask_eq h taskNumber with ⟨reads, hcall⟩
        rw [hcall]
        split
        · exact fun a ha => List.mem_append_left _ (List.mem_append_left _ ha)
        · exact List.subset_append_left _ _
  | drain =>
      obtain rfl : drainSubtasks s = s' := Option.some.inj hstep
      exact ⟨⟨_, standsFor_drain h⟩, (drainFrom_drained (standsFor_length h) h.cells).accesses⟩

/-- A request is accepted exactly if fewer are pending than the line has room for. -/
theorem kept_iff (h : StandsFor s q) (e : SubtaskEvent) : s.Kept e ↔ s.RoomLeft e := by
  cases e with
  | drain => exact Iff.rfl
  | schedule taskNumber =>
      refine forall_congr' fun subtask => forall_congr' fun hsubtask => ?_
      have hnew : ({ subtask := subtask, number := s.calls } : ScheduledSubtask) ∉ q.accepted :=
        fun hc => Nat.lt_irrefl _ (h.numbers _ hc)
      have hlength := standsFor_length h
      rw [(standsFor_request h hsubtask).accepted, offer_accepted_iff hnew, standsFor_pending h]
      omega

theorem standsFor_order (h : StandsFor s q) : s.ExecutesInOrder := by
  have hd := standsFor_drain h
  refine ⟨?_, ?_, ?_, ?_⟩
  · rw [h.accepted]
    exact h.fair.distinct
  · rw [h.accepted, h.executed]
    exact fair_prefix h.fair
  · rw [hd.executed, h.accepted]
    exact h.fair.balanced
  · rw [hd.accepted, h.accepted]
    rfl

/-- After the initialisation the line is empty. -/
theorem startSubtasks_standsFor (kernel : Kernel) (memory : Nat → Option ScheduledSubtask) :
    StandsFor (startSubtasks kernel memory) { waiting := [], accepted := [], served := [] } ∧
      maxNumOfWaitingKernelSubtasks ∈ (startSubtasks kernel memory).accesses := by
  have hc : Cleared maxNumOfWaitingKernelSubtasks 0
      { kernel := kernel, subtasks := memory, accesses := [], calls := 0, accepted := [],
        executed := [] } (startSubtasks kernel memory) := initSubtasks_cleared
  refine ⟨⟨⟨rfl, Nat.zero_le _, List.nodup_nil⟩, fun i hi => hc.cleared i hi, hc.histories.1,
    hc.histories.2.1, fun w hw => absurd hw List.not_mem_nil⟩, ?_⟩
  have hlast := hc.accesses.2 (by decide)
  rwa [Nat.zero_add] at hlast

end Line

theorem subtaskStep_total (e : SubtaskEvent) (s : SubtaskSystem) :
    ∃ s', subtaskStep e s = some s' := by
  cases e with
  | schedule taskNumber => exact ⟨_, rfl⟩
  | drain => exact ⟨_, rfl⟩

/-- Every run reaches behind the table, so none does all that is expected. Requests
    are kept exactly in the runs in which none is made while two are pending. What
    is accepted is executed in order in every run. -/
theorem subtasks_run (kernel : Kernel) (memory : Nat → Option ScheduledSubtask)
    (es : List SubtaskEvent) :
    Ends subtaskStep es (startSubtasks kernel memory) fun s =>
      ¬ ServesRequests es (startSubtasks kernel memory) s ∧
        (Meets subtaskStep SubtaskSystem.Kept es (startSubtasks kernel memory) ↔
          Meets subtaskStep SubtaskSystem.RoomLeft es (startSubtasks kernel memory)) ∧
        s.ExecutesInOrder := by
  rcases startSubtasks_standsFor kernel memory with ⟨hstart, hbehind⟩
  -- The index behind the table, once used, stays among the accesses.
  have hpres : ∀ s e s', ((∃ q, StandsFor s q) ∧ maxNumOfWaitingKernelSubtasks ∈ s.accesses) →
      subtaskStep e s = some s' →
      ((∃ q, StandsFor s' q) ∧ maxNumOfWaitingKernelSubtasks ∈ s'.accesses) := by
    rintro s e s' ⟨⟨q, hq⟩, hmem⟩ hstep
    rcases standsFor_step hq hstep with ⟨hq', hsub⟩
    exact ⟨hq', hsub hmem⟩
  rcases run_total subtaskStep subtaskStep_total es (startSubtasks kernel memory) with ⟨s, hrun⟩
  rcases run_preserves subtaskStep _ hpres es _ s ⟨⟨_, hstart⟩, hbehind⟩ hrun with
    ⟨⟨q, hq⟩, hmem⟩
  refine ⟨s, hrun, fun hserves => ?_, ?_, standsFor_order hq⟩
  · exact Nat.lt_irrefl _ (hserves.bounds _ hmem)
  · exact meets_congr subtaskStep (fun s => ∃ q, StandsFor s q)
      (fun s e s' ⟨q, hq⟩ hstep => (standsFor_step hq hstep).1) (fun s e ⟨q, hq⟩ => kept_iff hq e)
      ⟨_, hstart⟩

/-- Three requests, and no pass of the idle task. -/
def threeRequests : List SubtaskEvent :=
  [.schedule statisticManager, .schedule statisticManager, .schedule statisticManager]

/-- The third of three requests is dropped. -/
theorem subtasks_dropped :
    let s₀ := startSubtasks freshKernel fun _ => none
    Ends subtaskStep threeRequests s₀ fun s =>
      ¬ ServesRequests threeRequests s₀ s ∧ ¬ s.InBounds ∧
        ¬ Meets subtaskStep SubtaskSystem.Kept threeRequests s₀ := by
  refine ⟨_, rfl, fun h => ?_, fun h => ?_, fun h => ?_⟩
  · exact absurd (h.bounds 3 (by decide)) (by decide)
  · exact absurd (h 3 (by decide)) (by decide)
  · have hthird := h.2.2.1 .stat rfl (by decide)
    exact absurd hthird (by decide)

end NextLevelRTOS
