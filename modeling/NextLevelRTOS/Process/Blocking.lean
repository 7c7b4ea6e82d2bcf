import Mathlib.Data.List.Find
import NextLevelRTOS.Data.Queues
import NextLevelRTOS.Process.Reachable

/-!
# Blocking and Yielding

A task that blocks leaves the running queue before the switch. So that the
search for the next task still begins at its successor, `block_current_task`
steps `currently_running` back to the predecessor, and since this is not the
task whose registers are to be saved, it keeps the blocked one in
`task_to_preserve` for PendSV.

The ring without the blocked task, searched from the predecessor, is met in the
order in which a yield meets it from the blocked task. So a block and a yield
choose the same task, whatever is dead in between and wherever the head of the
queue is, as long as there is another task to choose. With none, a yield goes on
with the task itself.

## Main definitions

* `RunningRing`: The queues are well formed and the current task runs.
* `BlocksLikeYield`: What a block and the switch after it do.

## Theorems

* `inv_runningRing`: The queues are like this whenever a task runs.
* `blockCurrentTask_search`: The search after a block.
* `block_then_switch`: A block and the switch after it.
-/

namespace NextLevelRTOS

open CircularList Machine

/-- The queues are well formed and share no node, the current task is in the
    running queue, and its nodes carry different tasks. -/
structure RunningRing (s : Kernel) : Prop where
  running : WellFormed s.node s.runningTasks
  waiting : WellFormed s.node s.waitingTasks
  apart : (s.runningTasks.members s.node).Disjoint (s.waitingTasks.members s.node)
  current : s.currentlyRunning ∈ s.runningTasks.members s.node
  tasks : ((s.runningTasks.members s.node).map s.dataOf).Nodup

/-- The queues are like this whenever a task runs. -/
theorem inv_runningRing {s : Kernel} {v : View} (h : Inv s v) (hthread : Thread s) :
    RunningRing s := by
  have hrunning := h.consistent.running
  have hwaiting := h.consistent.waiting
  have hdata := consistent_data_nodup h.consistent
  rw [View.nodes, List.map_append] at hdata
  refine ⟨represents_wellFormed hrunning, represents_wellFormed hwaiting, ?_, ?_, ?_⟩
  · rw [represents_members hrunning, represents_members hwaiting]
    exact consistent_disjoint h.consistent
  · rw [represents_members hrunning]
    exact inv_current_running h hthread
  · rw [represents_members hrunning]
    exact (List.nodup_append.mp hdata).1

/-- `block_current_task` and the PendSV after it, entered with the process stack
    pointer at `psp`: they choose the task that `switch_task` would have chosen,
    save the stack pointer in the blocked task and nowhere else, and take the
    blocked task out of the ring. -/
structure BlocksLikeYield (psp : Addr) (s : Kernel) : Prop where
  selected : (pendsvIsr psp (blockCurrentTask s)).currentlyRunning = (switchTask s).currentlyRunning
  preserved : (blockCurrentTask s).taskToPreserve = s.currentlyRunning
  saved : ((pendsvIsr psp (blockCurrentTask s)).tcb (s.dataOf s.currentlyRunning)).sp = psp
  others : ∀ t, t ≠ s.dataOf s.currentlyRunning →
    ((pendsvIsr psp (blockCurrentTask s)).tcb t).sp = (s.tcb t).sp
  order : (pendsvIsr psp (blockCurrentTask s)).runningTasks.members
      (pendsvIsr psp (blockCurrentTask s)).node =
    (s.runningTasks.members s.node).erase s.currentlyRunning

section Block

variable {s : Kernel} {a b m : List Addr}

theorem erase_middle {q : Addr} (h : (a ++ q :: b).Nodup) : (a ++ q :: b).erase q = a ++ b := by
  have hqa : q ∉ a := fun ha => List.disjoint_of_nodup_append h ha List.mem_cons_self
  rw [List.erase_append_right _ hqa, List.erase_cons_head]

/-- The search after a block begins at the predecessor and meets the others in
    the order in which they follow the blocked task. -/
theorem blockCurrentTask_search
    (hl : Represents s.node s.runningTasks (a ++ s.currentlyRunning :: b))
    (hm : Represents s.node s.waitingTasks m) (hdisj : (a ++ s.currentlyRunning :: b).Disjoint m)
    (hne : b ++ a ≠ []) :
    Represents (blockCurrentTask s).node (blockCurrentTask s).runningTasks (a ++ b) ∧
      ∃ z i, b ++ a = i ++ [z] ∧ (blockCurrentTask s).currentlyRunning = z ∧
        Ring (blockCurrentTask s).node.next (blockCurrentTask s).node.prev (z :: i) ∧
        (blockCurrentTask s).runningTasks.size = i.length + 1 := by
  have hcur : s.currentlyRunning ∈ a ++ s.currentlyRunning :: b :=
    List.mem_append_right _ List.mem_cons_self
  have hqueue : Represents (blockCurrentTask s).node (blockCurrentTask s).runningTasks
      (a ++ b) := by
    rw [blockCurrentTask_eq, ← erase_middle hl.nodup]
    exact (transfer_represents hl hm hdisj hcur).1
  -- The last of the others is the predecessor of the blocked task.
  rcases List.eq_nil_or_concat (b ++ a) with hnil | ⟨i, z, hi⟩
  · exact absurd hnil hne
  rw [List.concat_eq_append] at hi
  have hlength : (a ++ b).length = i.length + 1 := by
    rw [(List.perm_append_comm).length_eq, hi, List.length_append, List.length_singleton]
  have hsize := hqueue.size.trans hlength
  refine ⟨hqueue, z, i, hi, ?_, ?_, hsize⟩
  · -- The predecessor in the old ring.
    have hring : Ring s.node.next s.node.prev (s.currentlyRunning :: (b ++ a)) :=
      (ring_append_comm a (s.currentlyRunning :: b)).mp hl.ring
    have hprev := (ring_neighbours hring).2
    rw [hi, List.getLastD_concat] at hprev
    rw [blockCurrentTask_eq] at hsize ⊢
    dsimp only at hsize ⊢
    rw [if_pos (by omega), hprev]
  -- And in the new ring the search goes on from there.
  · have hring := (ring_append_comm a b).mp hqueue.ring
    rw [hi] at hring
    exact (ring_rotate z i).mpr hring

/-- A block leaves the states of the other tasks alone. -/
theorem blockCurrentTask_others (hnodup : (a ++ s.currentlyRunning :: b).Nodup)
    (htasks : ((a ++ s.currentlyRunning :: b).map s.dataOf).Nodup) {x : Addr} (hx : x ∈ b ++ a) :
    (blockCurrentTask s).stateOf x = s.stateOf x := by
  rw [stateOf_blockCurrentTask, if_neg]
  intro hdata
  have hmem : x ∈ a ++ s.currentlyRunning :: b := by
    simp only [List.mem_append, List.mem_cons] at hx ⊢
    tauto
  -- Nodes of one task are one node.
  have hcur := List.inj_on_of_nodup_map htasks hmem
    (List.mem_append_right _ List.mem_cons_self) hdata
  rw [hcur] at hx
  exact (List.nodup_middle.mp hnodup).notMem (List.mem_append.mpr (List.mem_append.mp hx).symm)

end Block

/-- Without an image to serve a switch chooses the next ready task. -/
theorem switchTask_next {s : Kernel} {n : Addr} (hcur : s.currentlyRunning ≠ NULL)
    (hdma : s.dmaInterruptAction &&& DmaTransferedExternalTask = 0)
    (hfound : nextReady s s.runningTasks.size s.currentlyRunning = some n) :
    switchTask s = { s with currentlyRunning := n, taskToPreserve := n } := by
  have hserve : serveDma s = s := if_pos hdma
  rw [switchTask_found hcur (by rw [hserve]; exact hfound), hserve]

/-- The state in which PendSV calls `switch_task` after a block. -/
def saveContext (psp : Addr) (s : Kernel) : Kernel :=
  { blockCurrentTask s with pendsv := false }.setTcb (s.dataOf s.currentlyRunning)
    { (blockCurrentTask s).tcb (s.dataOf s.currentlyRunning) with sp := psp }

theorem pendsvIsr_blocked (psp : Addr) (s : Kernel) :
    pendsvIsr psp (blockCurrentTask s) = switchTask (saveContext psp s) := by
  have hdata : (blockCurrentTask s).dataOf s.currentlyRunning = s.dataOf s.currentlyRunning :=
    congrFun (blockCurrentTask_frame s).data _
  rw [saveContext, ← hdata]
  rfl

theorem saveContext_stateOf (psp : Addr) (s : Kernel) (n : Addr) :
    (saveContext psp s).stateOf n = (blockCurrentTask s).stateOf n := by
  change (Function.update (blockCurrentTask s).tcb (s.dataOf s.currentlyRunning) _
    ((blockCurrentTask s).dataOf n)).state = _
  by_cases hn : (blockCurrentTask s).dataOf n = s.dataOf s.currentlyRunning
  · rw [hn, Function.update_self, Kernel.stateOf, hn]
  · rw [Function.update_of_ne hn]
    rfl

/-- Only the stack pointer of the blocked task is written. -/
theorem saveContext_sp (psp : Addr) (s : Kernel) (t : Addr) : ((saveContext psp s).tcb t).sp =
    if t = s.dataOf s.currentlyRunning then psp else (s.tcb t).sp := by
  change (Function.update (blockCurrentTask s).tcb (s.dataOf s.currentlyRunning) _ t).sp = _
  by_cases ht : t = s.dataOf s.currentlyRunning
  · rw [if_pos ht, ht, Function.update_self]
  · rw [if_neg ht, Function.update_of_ne ht]
    change (Function.update s.tcb (s.dataOf s.currentlyRunning) _ t).sp = _
    rw [Function.update_of_ne ht]

/-- The switch after a block chooses the first of the others that is ready. -/
theorem pendsvIsr_block {s : Kernel} {a b m : List Addr} {q : Addr} (psp : Addr)
    (hl : Represents s.node s.runningTasks (a ++ s.currentlyRunning :: b))
    (hm : Represents s.node s.waitingTasks m) (hdisj : (a ++ s.currentlyRunning :: b).Disjoint m)
    (htasks : ((a ++ s.currentlyRunning :: b).map s.dataOf).Nodup)
    (hdma : s.dmaInterruptAction &&& DmaTransferedExternalTask = 0)
    (hq : (b ++ a).find? (fun x => s.stateOf x = .READY) = some q) :
    pendsvIsr psp (blockCurrentTask s) =
      { saveContext psp s with currentlyRunning := q, taskToPreserve := q } := by
  have hnil := List.ne_nil_of_mem (List.mem_of_find?_eq_some hq)
  rcases blockCurrentTask_search hl hm hdisj hnil with
    ⟨hqueue, z, i, hi, hcurrent, hring, hsize⟩
  -- The state of the blocked task has changed, those of the others have not.
  have hstates : ∀ x ∈ i ++ [z], (saveContext psp s).stateOf x = s.stateOf x := fun x hx => by
    rw [saveContext_stateOf]
    exact blockCurrentTask_others hl.nodup htasks (by rwa [hi])
  have hz : (blockCurrentTask s).currentlyRunning ≠ NULL := by
    have hza : z ∈ a ++ b := by
      rw [(List.perm_append_comm).mem_iff, hi]
      exact List.mem_append_right _ List.mem_cons_self
    exact fun hc => hqueue.nonnull (by rwa [← hc, hcurrent])
  rw [pendsvIsr_blocked]
  refine switchTask_next hz hdma ?_
  change nextReady (saveContext psp s) (blockCurrentTask s).runningTasks.size
    (blockCurrentTask s).currentlyRunning = some q
  rw [hsize, hcurrent, nextReady_ring (s := saveContext psp s) hring, ← hq, hi]
  exact List.find?_congr fun x hx => by rw [hstates x hx]

/-- A block and the switch after it, with another task to choose and no image to
    serve: the task a yield would have chosen runs, the blocked task's stack
    pointer is saved, and the others stay in order. -/
theorem block_then_switch {s : Kernel} (psp : Addr) (h : RunningRing s)
    (hready : ∃ n ∈ s.runningTasks.members s.node,
      n ≠ s.currentlyRunning ∧ s.stateOf n = .READY)
    (hdma : s.dmaInterruptAction &&& DmaTransferedExternalTask = 0) : BlocksLikeYield psp s := by
  have hl := wellFormed_represents h.running
  have hm := wellFormed_represents h.waiting
  have hdisj := h.apart
  have htasks := h.tasks
  have hnull : s.currentlyRunning ≠ NULL := fun hc => hl.nonnull (by rw [← hc]; exact h.current)
  rcases List.append_of_mem h.current with ⟨a, b, hsplit⟩
  rw [hsplit] at hl hdisj hready htasks
  rcases hready with ⟨n, hn, hne, hstate⟩
  have hnba : n ∈ b ++ a := by
    simp only [List.mem_append, List.mem_cons] at hn ⊢
    tauto
  -- Both searches look through the others first, in the same order.
  obtain ⟨q, hq⟩ : ∃ q, (b ++ a).find? (fun x => s.stateOf x = .READY) = some q :=
    Option.isSome_iff_exists.mp (List.find?_isSome.mpr ⟨n, hnba, decide_eq_true hstate⟩)
  have hyield : switchTask s = { s with currentlyRunning := q, taskToPreserve := q } := by
    refine switchTask_next hnull hdma ?_
    rw [nextReady_eq hl, List.find?_append, hq]
    rfl
  have hblock := pendsvIsr_block psp hl hm hdisj htasks hdma hq
  have hqueue := (blockCurrentTask_search hl hm hdisj (List.ne_nil_of_mem hnba)).1
  refine ⟨by rw [hblock, hyield], rfl, ?_, fun t ht => ?_, ?_⟩
  · rw [hblock]
    exact (saveContext_sp psp s _).trans (if_pos rfl)
  · rw [hblock]
    exact (saveContext_sp psp s t).trans (if_neg ht)
  · rw [hblock, hsplit, erase_middle hl.nodup]
    exact represents_members hqueue

/-- The idle task and three others; the first of these has faulted, and the
    second runs. -/
def faultedNeighbour : List Event :=
  startUp ++ [.createTask (chunksFrom 20) 3 0, .createTask (chunksFrom 30) 3 0,
    .createTask (chunksFrom 40) 3 0, .yieldTask, .pendsv 8, .invalidateCurrentTask, .pendsv 8]

theorem block_then_switch_faultedNeighbour :
    Ends step faultedNeighbour freshKernel (BlocksLikeYield 8) := by
  have hends : Ends step faultedNeighbour freshKernel fun s => Thread s ∧
      (∃ n ∈ s.runningTasks.members s.node, n ≠ s.currentlyRunning ∧ s.stateOf n = .READY) ∧
      s.dmaInterruptAction &&& DmaTransferedExternalTask = 0 := by
    decide +kernel
  rcases hends with ⟨s, hrun, hthread, hready, hdma⟩
  rcases reachable_inv freshKernel_initialized hrun with ⟨v, hinv⟩
  exact ⟨s, hrun, block_then_switch 8 (inv_runningRing hinv hthread) hready hdma⟩

end NextLevelRTOS
