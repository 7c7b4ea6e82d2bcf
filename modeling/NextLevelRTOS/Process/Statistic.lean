import NextLevelRTOS.Process.Reachable

/-!
# The Process Statistic

`update_process_statistic` counts the tasks of the two queues. The waiting ones
are counted by the size of their queue. For the running queue the loop takes as
many rounds as there are tasks, but looks at the task that is currently running
in each of them. It counts all of them as finished when this one is, and none of
them when it is not.

So the report is right exactly if the tasks of the running queue are all finished
or all not, as the current one is. A single finished task that another task has
replaced is not reported.

The counters are bytes, so at most 255 tasks are counted as they are.

## Main definitions

* `ProcessLifetime`: The structure.
* `Kernel.updateProcessStatistic`: The function.
* `ReportsTasks`: What it ought to report.

## Theorems

* `countPending_eq`: What the loop counts.
* `process_reported_iff`: When the report is right.
-/

namespace NextLevelRTOS

open Machine

/-- The counters of `ProcessStats_t` that are reported. -/
structure ProcessStats where
  numOfFinishedTasks : BitVec 4
  numOfFailedTasks : BitVec 4
  deriving DecidableEq

/-- `ProcessLifetime_t`. A `char` is unsigned on this target. -/
structure ProcessLifetime where
  tasksCleanupPending : BitVec 8
  failedTasks : BitVec 8
  finishedTasks : BitVec 8
  waitingTasks : BitVec 8
  runningTasks : BitVec 8
  deriving DecidableEq

namespace Kernel

/-- `n` rounds of the loop of `update_process_statistic`. -/
def countPending (s : Kernel) (n : Nat) : BitVec 8 :=
  (List.range n).foldl
    (fun numOfPendingTasks _ =>
      if s.stateOf s.currentlyRunning = .FINISHED then numOfPendingTasks + 1#8
      else numOfPendingTasks)
    0#8

/-- `update_process_statistic` -/
def updateProcessStatistic (s : Kernel) (processStats : ProcessStats) : ProcessLifetime :=
  let numOfPendingTasks := s.countPending s.runningTasks.size
  { waitingTasks := BitVec.ofNat 8 s.waitingTasks.size
    tasksCleanupPending := numOfPendingTasks
    runningTasks := BitVec.ofNat 8 s.runningTasks.size - numOfPendingTasks
    finishedTasks := processStats.numOfFinishedTasks.setWidth 8
    failedTasks := processStats.numOfFailedTasks.setWidth 8 }

/-- The task has finished and is still to be cleaned up. -/
def Finished (s : Kernel) (t : Addr) : Prop := (s.tcb t).state = .FINISHED

instance (s : Kernel) (t : Addr) : Decidable (s.Finished t) := inferInstanceAs (Decidable (_ = _))

end Kernel

/-- The report counts the finished and the other tasks of the running queue, and
    the tasks of the waiting queue. -/
structure ReportsTasks (s : Kernel) (report : ProcessLifetime) : Prop where
  pending : report.tasksCleanupPending.toNat = (s.tasksIn s.runningTasks).countP (s.Finished ·)
  running : report.runningTasks.toNat = (s.tasksIn s.runningTasks).countP (¬ s.Finished ·)
  waiting : report.waitingTasks.toNat = (s.tasksIn s.waitingTasks).length

section Report

variable {s : Kernel}

/-- The loop counts every task or none, as the current one has finished or not. -/
theorem countPending_eq (s : Kernel) (n : Nat) :
    s.countPending n =
      if s.Finished (s.dataOf s.currentlyRunning) then BitVec.ofNat 8 n else 0#8 := by
  induction n with
  | zero => exact (ite_self _).symm
  | succ n ih =>
      have hround : s.countPending (n + 1) =
          if s.Finished (s.dataOf s.currentlyRunning) then s.countPending n + 1#8
          else s.countPending n := by
        rw [Kernel.countPending, List.range_succ, List.foldl_append]
        rfl
      rw [hround, ih]
      by_cases hfin : s.Finished (s.dataOf s.currentlyRunning)
      · rw [if_pos hfin, if_pos hfin, if_pos hfin, ← BitVec.ofNat_add]
      · rw [if_neg hfin, if_neg hfin, if_neg hfin]

/-- Fewer than 256 tasks are counted as they are. -/
theorem size_byte {queue : Queue} {l : List Addr} (h : Represents s.node queue l)
    (hfew : l.length < 256) : (BitVec.ofNat 8 queue.size).toNat = (s.tasksIn queue).length := by
  rw [BitVec.toNat_ofNat, h.size, Kernel.tasksIn, represents_members h, List.length_map]
  exact Nat.mod_eq_of_lt hfew

/-- All elements or none are counted exactly if each of them is like one that is
    chosen beforehand. -/
theorem countP_same_iff {α : Type} (p : α → Prop) [DecidablePred p] (P : Prop) [Decidable P]
    (l : List α) : l.countP (p ·) = (if P then l.length else 0) ↔ ∀ t ∈ l, (p t ↔ P) := by
  by_cases hP : P
  · rw [if_pos hP, List.countP_eq_length]
    refine forall₂_congr fun t _ => ?_
    rw [decide_eq_true_eq, iff_true_right hP]
  · rw [if_neg hP, List.countP_eq_zero]
    refine forall₂_congr fun t _ => ?_
    rw [decide_eq_true_eq, iff_false_right hP]

/-- What is reported about the running queue: it is all finished, or all not. -/
theorem updateProcessStatistic_counts (s : Kernel) (processStats : ProcessStats) {l : List Addr}
    (hrunning : Represents s.node s.runningTasks l) (hl : l.length < 256) :
    (s.updateProcessStatistic processStats).tasksCleanupPending.toNat =
        (if s.Finished (s.dataOf s.currentlyRunning) then (s.tasksIn s.runningTasks).length
          else 0) ∧
      (s.updateProcessStatistic processStats).runningTasks.toNat =
        (if ¬ s.Finished (s.dataOf s.currentlyRunning) then (s.tasksIn s.runningTasks).length
          else 0) := by
  have hsize := size_byte hrunning hl
  rw [Kernel.updateProcessStatistic, countPending_eq]
  by_cases hfin : s.Finished (s.dataOf s.currentlyRunning)
  · rw [if_pos hfin, if_pos hfin, if_neg (not_not_intro hfin), BitVec.sub_self]
    exact ⟨hsize, rfl⟩
  · rw [if_neg hfin, if_neg hfin, if_pos hfin, BitVec.sub_zero]
    exact ⟨rfl, hsize⟩

/-- The report is right exactly if the tasks of the running queue are finished or
    not as the current one is. -/
theorem reportsTasks_iff {l m : List Addr} (hrunning : Represents s.node s.runningTasks l)
    (hwaiting : Represents s.node s.waitingTasks m) (hl : l.length < 256) (hm : m.length < 256)
    (processStats : ProcessStats) :
    ReportsTasks s (s.updateProcessStatistic processStats) ↔
      ∀ t ∈ s.tasksIn s.runningTasks,
        (s.Finished t ↔ s.Finished (s.dataOf s.currentlyRunning)) := by
  rcases updateProcessStatistic_counts s processStats hrunning hl with ⟨hpending, hothers⟩
  constructor
  · intro hreport
    refine (countP_same_iff s.Finished _ _).mp ?_
    rw [← hreport.pending, hpending]
  · intro hsame
    -- If the finished ones are all or none, so are the others.
    have hnot : ∀ t ∈ s.tasksIn s.runningTasks,
        (¬ s.Finished t ↔ ¬ s.Finished (s.dataOf s.currentlyRunning)) :=
      fun t ht => not_congr (hsame t ht)
    refine ⟨?_, ?_, size_byte hwaiting hm⟩
    · rw [hpending, (countP_same_iff s.Finished _ _).mpr hsame]
    · rw [hothers, (countP_same_iff (fun t => ¬ s.Finished t) _ _).mpr hnot]

/-- Both queues together hold the tasks there are. -/
theorem inv_lengths {v : View} (h : Inv s v) :
    v.running.length + v.waiting.length = s.live.length := by
  rw [← h.consistent.tasks.length_eq, List.length_map, View.nodes, List.length_append]

end Report

/-- In every reachable state with fewer than 256 tasks the report is right exactly
    if the tasks of the running queue are finished or not as the current one is. -/
theorem process_reported_iff {es : List Event} {s₀ s : Kernel} (h : Initialized s₀)
    (hrun : run step es s₀ = some s) (hfew : s.live.length < 256) (processStats : ProcessStats) :
    ReportsTasks s (s.updateProcessStatistic processStats) ↔
      ∀ t ∈ s.tasksIn s.runningTasks,
        (s.Finished t ↔ s.Finished (s.dataOf s.currentlyRunning)) := by
  rcases reachable_inv h hrun with ⟨v, hinv⟩
  have hlengths := inv_lengths hinv
  exact reportsTasks_iff hinv.consistent.running hinv.consistent.waiting (by omega) (by omega)
    processStats

/-- No counters yet. -/
def noStats : ProcessStats := { numOfFinishedTasks := 0#4, numOfFailedTasks := 0#4 }

theorem process_reported_iff_startUp : Ends step startUp freshKernel fun s =>
    ReportsTasks s (s.updateProcessStatistic noStats) := by
  have hends : Ends step startUp freshKernel fun s => s.live.length < 256 ∧
      ∀ t ∈ s.tasksIn s.runningTasks,
        (s.Finished t ↔ s.Finished (s.dataOf s.currentlyRunning)) := by decide +kernel
  rcases hends with ⟨s, hrun, hfew, hsame⟩
  exact ⟨s, hrun, (process_reported_iff freshKernel_initialized hrun hfew noStats).mpr hsame⟩

/-- The idle task and another one, which has finished. -/
def finishedNeighbour : List Event :=
  startUp ++ [.createTask (chunksFrom 20) 3 0, .yieldTask, .pendsv 8, .finishTask blankTcb,
    .pendsv 8]

/-- The idle task runs again, and does not report the finished one. -/
theorem process_misreported : Ends step finishedNeighbour freshKernel fun s =>
    Thread s ∧ s.live.length < 256 ∧ ¬ ReportsTasks s (s.updateProcessStatistic noStats) := by
  have hends : Ends step finishedNeighbour freshKernel fun s => Thread s ∧ s.live.length < 256 ∧
      ¬ ∀ t ∈ s.tasksIn s.runningTasks,
        (s.Finished t ↔ s.Finished (s.dataOf s.currentlyRunning)) := by decide +kernel
  rcases hends with ⟨s, hrun, hthread, hfew, hdiffer⟩
  rcases reachable_inv freshKernel_initialized hrun with ⟨v, hinv⟩
  have hlengths := inv_lengths hinv
  exact ⟨s, hrun, hthread, hfew, fun hc => hdiffer ((reportsTasks_iff hinv.consistent.running
    hinv.consistent.waiting (by omega) (by omega) noStats).mp hc)⟩

end NextLevelRTOS
