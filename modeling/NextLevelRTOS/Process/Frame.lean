import NextLevelRTOS.Process.System

/-!
# What Scheduling Leaves Alone

Every scheduler function moves nodes between the two queues, changes task
states, and sets the pointers to the current task. None of them creates or
frees anything and none of them changes what a task is: its identifier, its
chunks, its parent. `Frame` says so, once for each function, without any
assumption on the state. What the functions do to the queues is stated
elsewhere and needs well-formed queues; what they leave alone does not.

The equations `wakeNode_eq`, `blockCurrentTask_eq` and the three outcomes of
`switch_task` give the result of each function as one record, so no later
proof unfolds one.

## Main definitions

* `SameTask`: Two control blocks of one task.
* `Frame`: Only queues, task states and control fields differ.
* `KeptBySwitch`: A relation that every part of a switch keeps.

## Theorems

* `wakeNode_eq`, `blockCurrentTask_eq`: The two moves as records.
* `serveDma_eq`: The two outcomes of serving the DMA.
* `switchTask_null`, `switchTask_found`, `switchTask_idle`: The three ways
  through `switch_task`.
* `KeptBySwitch.switchTask`: The whole switch keeps it.
* `wakeupPid_frame` and its siblings: The frame of each function.
* `step_frame`: The frame of an event that only schedules.
-/

namespace NextLevelRTOS

open Machine

/-- Everything about a task that its life in the queues does not change. -/
structure SameTask (t t' : Tcb) : Prop where
  pid : t'.pid = t.pid
  isExternal : t'.isExternal = t.isExternal
  stack : t'.stacksectionLowerBound = t.stacksectionLowerBound
  codeSection : t'.codeSection = t.codeSection
  parentTask : t'.parentTask = t.parentTask
  childTasks : t'.childTasks = t.childTasks

theorem sameTask_refl (t : Tcb) : SameTask t t := ⟨rfl, rfl, rfl, rfl, rfl, rfl⟩

/-- The parts of the kernel that scheduling leaves alone. -/
structure Frame (s s' : Kernel) : Prop where
  data : s'.node.data = s.node.data
  tcb : ∀ t, SameTask (s.tcb t) (s'.tcb t)
  list : s'.list = s.list
  snode : s'.snode = s.snode
  occupied : s'.occupied = s.occupied
  idleTask : s'.idleTask = s.idleTask
  images : s'.images = s.images
  live : s'.live = s.live

theorem frame_refl (s : Kernel) : Frame s s :=
  ⟨rfl, fun _ => sameTask_refl _, rfl, rfl, rfl, rfl, rfl, rfl⟩

theorem frame_trans {s s' s'' : Kernel} (h : Frame s s') (h' : Frame s' s'') : Frame s s'' :=
  ⟨h'.data.trans h.data,
    fun t =>
      have a := h.tcb t
      have b := h'.tcb t
      ⟨b.pid.trans a.pid, b.isExternal.trans a.isExternal, b.stack.trans a.stack,
        b.codeSection.trans a.codeSection, b.parentTask.trans a.parentTask,
        b.childTasks.trans a.childTasks⟩,
    h'.list.trans h.list, h'.snode.trans h.snode, h'.occupied.trans h.occupied,
    h'.idleTask.trans h.idleTask, h'.images.trans h.images, h'.live.trans h.live⟩

theorem frame_setTcb {s : Kernel} {t : Addr} {tcb : Tcb} (h : SameTask (s.tcb t) tcb) :
    Frame s (s.setTcb t tcb) := by
  refine ⟨rfl, fun u => ?_, rfl, rfl, rfl, rfl, rfl, rfl⟩
  by_cases hu : u = t
  · rw [hu]
    simpa only [Kernel.setTcb, Function.update_self] using h
  · simpa only [Kernel.setTcb, Function.update_of_ne hu] using sameTask_refl _

theorem frame_setState (s : Kernel) (t : Addr) (state : TaskState) :
    Frame s (s.setState t state) :=
  frame_setTcb (show SameTask (s.tcb t) { s.tcb t with state := state } from
    ⟨rfl, rfl, rfl, rfl, rfl, rfl⟩)

theorem wakeNode_eq (q : Addr) (s : Kernel) : wakeNode q s =
    { s with
      node := (moveNode (isolateNode s.node s.waitingTasks q).1 s.runningTasks q).1
      waitingTasks := (isolateNode s.node s.waitingTasks q).2
      runningTasks := (moveNode (isolateNode s.node s.waitingTasks q).1 s.runningTasks q).2
      tcb := Function.update s.tcb (s.dataOf q) { s.tcb (s.dataOf q) with state := .READY } } := by
  have hdata : (moveNode (isolateNode s.node s.waitingTasks q).1 s.runningTasks q).1.data q
      = s.node.data q := by rw [moveNode_data, isolateNode_data]
  simp only [wakeNode, Kernel.setState, Kernel.dataOf, hdata]

theorem blockCurrentTask_eq (s : Kernel) : blockCurrentTask s =
    { s with
      tcb := Function.update s.tcb (s.dataOf s.currentlyRunning)
        { s.tcb (s.dataOf s.currentlyRunning) with state := .WAITING }
      node := (moveNode (isolateNode s.node s.runningTasks s.currentlyRunning).1 s.waitingTasks
        s.currentlyRunning).1
      runningTasks := (isolateNode s.node s.runningTasks s.currentlyRunning).2
      waitingTasks := (moveNode (isolateNode s.node s.runningTasks s.currentlyRunning).1
        s.waitingTasks s.currentlyRunning).2
      taskToPreserve := s.currentlyRunning
      currentlyRunning :=
        if 0 < (isolateNode s.node s.runningTasks s.currentlyRunning).2.size then
          s.node.prev s.currentlyRunning
        else NULL
      pendsv := true } :=
  rfl

theorem wakeNode_frame (q : Addr) (s : Kernel) : Frame s (wakeNode q s) := by
  have hst := frame_setState s (s.dataOf q) .READY
  rw [wakeNode_eq]
  refine ⟨?_, hst.tcb, rfl, rfl, rfl, rfl, rfl, rfl⟩
  rw [moveNode_data, isolateNode_data]

theorem blockCurrentTask_frame (s : Kernel) : Frame s (blockCurrentTask s) := by
  have hst := frame_setState s (s.dataOf s.currentlyRunning) .WAITING
  rw [blockCurrentTask_eq]
  refine ⟨?_, hst.tcb, rfl, rfl, rfl, rfl, rfl, rfl⟩
  rw [moveNode_data, isolateNode_data]

/-- Writing the control fields alone keeps the frame. -/
theorem frame_control {s s' : Kernel} (h : Frame s s') (cur preserve : Addr)
    (pendsv booted : Bool) (requests dma : Nat) :
    Frame s { s' with
      currentlyRunning := cur
      taskToPreserve := preserve
      pendsv := pendsv
      booted := booted
      cleanUpRequests := requests
      dmaInterruptAction := dma } :=
  ⟨h.data, h.tcb, h.list, h.snode, h.occupied, h.idleTask, h.images, h.live⟩

/-- Without an image nothing happens, and with one the idle task is woken. -/
theorem serveDma_eq (s : Kernel) :
    serveDma s = s ∨ serveDma s = (wakeupPid (toUnsigned s.idleTask) s).2 := by
  by_cases hdma : s.dmaInterruptAction &&& DmaTransferedExternalTask = 0
  · exact Or.inl (if_pos hdma)
  · exact Or.inr (if_neg hdma)

/-- The outcome of `switch_task` when no task is current. -/
theorem switchTask_null {s : Kernel} (h : s.currentlyRunning = NULL) :
    switchTask s =
      let w := wakeupPid (toUnsigned s.idleTask) s
      let s₁ : Kernel := { w.2 with currentlyRunning := w.1 }
      let s₂ := if w.1 = NULL then forcePid0IntoRunning s₁ else s₁
      { s₂ with taskToPreserve := s₂.currentlyRunning } := by
  unfold switchTask
  rw [if_pos h]

/-- The outcome of `switch_task` when the ring search succeeds. -/
theorem switchTask_found {s : Kernel} (h : s.currentlyRunning ≠ NULL) {q : Addr}
    (hq : nextReady (serveDma s) (serveDma s).runningTasks.size (serveDma s).currentlyRunning
      = some q) :
    switchTask s = { serveDma s with currentlyRunning := q, taskToPreserve := q } := by
  unfold switchTask
  rw [if_neg h]
  simp only [hq]

/-- The outcome of `switch_task` when the ring holds no ready task. -/
theorem switchTask_idle {s : Kernel} (h : s.currentlyRunning ≠ NULL)
    (hq : nextReady (serveDma s) (serveDma s).runningTasks.size (serveDma s).currentlyRunning
      = none) :
    switchTask s =
      let w := wakeupPid (toUnsigned (serveDma s).idleTask) (serveDma s)
      let s₁ : Kernel := { w.2 with currentlyRunning := w.1, taskToPreserve := w.1 }
      if w.1 = NULL then forcePid0IntoRunning s₁ else s₁ := by
  unfold switchTask
  rw [if_neg h]
  simp only [hq]

/-! ### What a switch keeps -/

/-- A relation that every part of a switch keeps. -/
structure KeptBySwitch (R : Kernel → Kernel → Prop) : Prop where
  refl : ∀ s, R s s
  trans : ∀ {s s' s''}, R s s' → R s' s'' → R s s''
  wake : ∀ q s, R s (wakeNode q s)
  ready : ∀ t s, R s (s.setState t .READY)
  choose : ∀ cur preserve s, R s { s with currentlyRunning := cur, taskToPreserve := preserve }

section Keeps

variable {R : Kernel → Kernel → Prop}

/-- A wakeup wakes one node or none. -/
theorem wakeupPid_keeps (hrefl : ∀ s, R s s) (hwake : ∀ q s, R s (wakeNode q s)) (pid : Nat)
    (s : Kernel) : R s (wakeupPid pid s).2 := by
  unfold wakeupPid
  by_cases hhead : s.waitingTasks.head = NULL
  · rw [if_pos hhead]
    exact hrefl s
  · rw [if_neg hhead]
    cases findNode s.node (fun q => s.pidOf q = pid) s.waitingTasks.size s.waitingTasks.head with
    | none => exact hrefl s
    | some q => exact hwake q s

theorem serveDma_keeps (hrefl : ∀ s, R s s) (hwake : ∀ q s, R s (wakeNode q s)) (s : Kernel) :
    R s (serveDma s) := by
  rcases serveDma_eq s with heq | heq
  · rw [heq]
    exact hrefl s
  · rw [heq]
    exact wakeupPid_keeps hrefl hwake _ s

theorem KeptBySwitch.forcePid0IntoRunning (h : KeptBySwitch R) (s : Kernel) :
    R s (forcePid0IntoRunning s) := by
  unfold NextLevelRTOS.forcePid0IntoRunning
  cases findNode s.node (fun q => s.pidOf q = 0) s.runningTasks.size s.runningTasks.head with
  | none => exact h.refl s
  | some q => exact h.trans (h.ready (s.dataOf q) s) (h.choose q q _)

/-- The relation is kept by the whole. -/
theorem KeptBySwitch.switchTask (h : KeptBySwitch R) (s : Kernel) : R s (switchTask s) := by
  -- The workaround ends two of the three ways through the function.
  have hend : ∀ {s₀ s₁ : Kernel} {c : Prop} [Decidable c], R s₀ s₁ →
      R s₀ (if c then NextLevelRTOS.forcePid0IntoRunning s₁ else s₁) := by
    intro s₀ s₁ c _ h₁
    by_cases hc : c
    · rw [if_pos hc]
      exact h.trans h₁ (h.forcePid0IntoRunning s₁)
    · rw [if_neg hc]
      exact h₁
  by_cases hcur : s.currentlyRunning = NULL
  · rw [switchTask_null hcur]
    have hw := wakeupPid_keeps h.refl h.wake (toUnsigned s.idleTask) s
    exact h.trans (hend (h.trans hw (h.choose _ _ _))) (h.choose _ _ _)
  · have hdma := serveDma_keeps h.refl h.wake s
    cases hq : nextReady (serveDma s) (serveDma s).runningTasks.size
        (serveDma s).currentlyRunning with
    | some q =>
        rw [switchTask_found hcur hq]
        exact h.trans hdma (h.choose q q _)
    | none =>
        rw [switchTask_idle hcur hq]
        have hw := wakeupPid_keeps h.refl h.wake (toUnsigned (serveDma s).idleTask) (serveDma s)
        exact hend (h.trans (h.trans hdma hw) (h.choose _ _ _))

end Keeps

theorem wakeupPid_frame (pid : Nat) (s : Kernel) : Frame s (wakeupPid pid s).2 :=
  wakeupPid_keeps frame_refl wakeNode_frame pid s

theorem switchTask_frame (s : Kernel) : Frame s (switchTask s) := by
  refine KeptBySwitch.switchTask ⟨frame_refl, frame_trans, wakeNode_frame, fun t s => ?_,
    fun cur preserve s => ?_⟩ s
  · exact frame_setState s t .READY
  · exact frame_control (frame_refl s) ..

theorem pendsvIsr_frame (psp : Addr) (s : Kernel) : Frame s (pendsvIsr psp s) := by
  have hclear : Frame s { s with pendsv := false } := frame_control (frame_refl s) ..
  refine frame_trans (frame_trans hclear (frame_setTcb ?_)) (switchTask_frame _)
  exact ⟨rfl, rfl, rfl, rfl, rfl, rfl⟩

theorem wakeJoiningParent_frame (stale : Tcb) (t : Addr) (s : Kernel) :
    Frame s (wakeJoiningParent stale t s) := by
  unfold wakeJoiningParent
  dsimp only
  split
  · exact wakeupPid_frame _ s
  · exact frame_refl s

theorem finishTask_frame (stale : Tcb) (s : Kernel) : Frame s (finishTask stale s) :=
  frame_control (frame_trans (frame_setState s _ .FINISHED) (wakeJoiningParent_frame stale _ _)) ..

theorem invalidateCurrentTask_frame (s : Kernel) : Frame s (invalidateCurrentTask s) :=
  frame_control (frame_setState s _ .INVALID) ..

theorem joinTask_frame (pid : Nat) (s : Kernel) : Frame s (joinTask pid s) := by
  unfold joinTask
  by_cases h : checkTasksAvailability pid s
  · rw [if_pos h]
    refine frame_trans (frame_setTcb ?_) (blockCurrentTask_frame _)
    exact ⟨rfl, rfl, rfl, rfl, rfl, rfl⟩
  · rw [if_neg h]
    exact frame_refl s

theorem ensureRunning_frame {s s' : Kernel} (h : ensureRunning s = some s') : Frame s s' := by
  unfold ensureRunning at h
  split at h
  · split at h
    · exact absurd h (by simp only [reduceCtorEq, not_false_eq_true])
    · rw [← Option.some.inj h]
      exact wakeupPid_frame _ s
  · rw [← Option.some.inj h]
    exact frame_refl s

theorem runScheduler_frame (s : Kernel) : Frame s (runScheduler s).2 := by
  unfold runScheduler
  cases h : ensureRunning s with
  | none => exact frame_refl s
  | some s' =>
      have hf := ensureRunning_frame h
      dsimp only
      split
      · exact frame_control hf ..
      · exact frame_control hf ..

/-- The event creates nothing and frees nothing. -/
def OnlySchedules : Event → Prop
  | .createTask .. | .createIdle .. | .allocateImage _ | .searchInvalidateTasks => False
  | _ => True

theorem step_frame {e : Event} {s s' : Kernel} (h : step e s = some s') (he : OnlySchedules e) :
    Frame s s' := by
  have heffect := (step_enabled h).2
  cases e with
  | createTask | createIdle | allocateImage | searchInvalidateTasks => exact absurd he not_false
  | runScheduler => exact Option.some.inj heffect ▸ runScheduler_frame s
  | blockCurrentTask => exact Option.some.inj heffect ▸ blockCurrentTask_frame s
  | wakeupPid pid => exact Option.some.inj heffect ▸ wakeupPid_frame pid s
  -- A yield only asks for a switch, and the DMA interrupt only sets its flag.
  | yieldTask => exact Option.some.inj heffect ▸ frame_control (frame_refl s) ..
  | dmaInterrupt action => exact Option.some.inj heffect ▸ frame_control (frame_refl s) ..
  | pendsv psp => exact Option.some.inj heffect ▸ pendsvIsr_frame psp s
  | finishTask stale => exact Option.some.inj heffect ▸ finishTask_frame stale s
  | invalidateCurrentTask => exact Option.some.inj heffect ▸ invalidateCurrentTask_frame s
  | joinTask pid => exact Option.some.inj heffect ▸ joinTask_frame pid s

end NextLevelRTOS
