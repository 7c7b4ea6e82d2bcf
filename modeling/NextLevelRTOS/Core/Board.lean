import NextLevelRTOS.Core.Mirror
import NextLevelRTOS.Process.Regions

/-!
# The Board

Two machines describe one system. The kernel on its allocator has queues, control
blocks and chunks, but no registers. The processor has registers, memory and stacks,
but which task a switch selects is up to its events, and so is the promise that a new
task gets words that nobody uses.

The board is both of them, side by side. At an event of the kernel the processor does
its part: a creation puts the first context into the chunk that the allocator has
handed out, `block_current_task` issues the supervisor call, a task that dies enters
the exception, and `pendsv_isr` saves and loads the registers of the tasks that the
kernel says. What a task computes it does on the processor alone, and a supervisor call
that requests a switch is the kernel's `yieldTask`. A wakeup that a task asks for is
the kernel's event after the call.

With that, nothing is promised any more. The words of a task lie in the chunk of its
stack, which is a live block of the allocator, so those of a new task are nobody
else's, and every guard of the processor holds when the kernel gets to it. What is left
out is the context in a stack for which there was no control block, since nobody will
ever load it.

## Main definitions

* `Board`, `BoardEvent`, `boardStep`: The machine.
* `lifeEvents`: What the processor does at an event of the kernel.
* `BoardBalanced`: The condition on an event.
* `OnStack`: The words of a task lie in a live block.
* `Obeys`: The processor can do its part.
* `BoardInv`: The invariant.

## Theorems

* `stack_free`: The stack of a new task is used by nobody.
* `kernel_obeyed`: The processor can do its part of every event.
* `boardStep_cases`: What a step of the board can be.
* `created_boardInv`, `boardStep_inv`: Every step keeps the invariant.
* `board_runs`: The kernel and the processor in a run.
-/

namespace NextLevelRTOS

open Machine

/-! ### The board -/

/-- The kernel on its allocator, and the processor. -/
structure Board where
  hosted : Hosted
  life : Life Addr

/-- What can happen. -/
inductive BoardEvent where
  /-- An event of the kernel. A task that is created is for that function. -/
  | kernel (e : HostedEvent) (taskFunction : Word)
  /-- The task that runs computes, stores a word or issues a supervisor call. -/
  | run (e : TaskEvent Addr)

/-- What the processor does at an event that has taken the kernel from `s` to `s'`. The
    trap that starts the first task follows `run_scheduler` at once. -/
def lifeEvents (taskFunction : Word) (s s' : Kernel) : Event → List (LifeEvent Addr)
  | .createTask c _ _ | .createIdle c _ =>
    if c.stack = NULL ∨ c.tcb = NULL then []
    else [.createTask c.tcb ((c.stack / 4 : Nat) : Int) taskFunction]
  | .runScheduler =>
    if s'.booted then [.runScheduler (s'.dataOf s'.currentlyRunning), .start] else []
  | .blockCurrentTask => [.task (.blockCurrentTask (currentTask s'))]
  | .joinTask pid =>
    if checkTasksAvailability pid s then [.task (.blockCurrentTask (currentTask s'))] else []
  | .pendsv _ => [.task (.pendsv (s'.dataOf s'.currentlyRunning))]
  | .yieldTask => [.task .svc]
  | .finishTask _ | .invalidateCurrentTask => [.task .finishTask]
  | .allocateImage _ | .wakeupPid _ | .searchInvalidateTasks | .dmaInterrupt _ => []

/-- What the processor does at an event of the hosted kernel. -/
def hostedLifeEvents (taskFunction : Word) (h h' : Hosted) (e : HostedEvent) :
    List (LifeEvent Addr) :=
  (kernelEvent e h).toList.flatMap (lifeEvents taskFunction h.kernel h'.kernel)

/-- Some events of the kernel are up to the processor: `pendsv_isr` finds its stack pointer
    and loads that of a task, and a task yields by a supervisor call. -/
def Accompanied (l : Life Addr) (s : Kernel) : Event → Prop
  | .pendsv psp => (psp : Int) = 4 * l.cpu.psp ∧ (pendsvIsr psp s).currentlyRunning ≠ NULL
  | .yieldTask => False
  | _ => True

instance (l : Life Addr) (s : Kernel) : DecidablePred (Accompanied l s)
  | .pendsv psp => inferInstanceAs (Decidable
      ((psp : Int) = 4 * l.cpu.psp ∧ (pendsvIsr psp s).currentlyRunning ≠ NULL))
  | .yieldTask => isFalse id
  | .createTask .. | .createIdle .. | .runScheduler | .allocateImage _ | .blockCurrentTask
  | .wakeupPid _ | .finishTask _ | .invalidateCurrentTask | .searchInvalidateTasks
  | .joinTask _ | .dmaInterrupt _ => isTrue trivial

/-- The events of a task that are none of the kernel's. -/
def TaskEvent.isOwn {τ : Type} : TaskEvent τ → Bool
  | .compute .. | .write .. | .svc => true
  | .blockCurrentTask _ | .finishTask | .pendsv _ => false

section Step

variable (P : Platform Addr) (finishTask : Word)

/-- The transition function. A supervisor call that requests a switch is the kernel's
    `yieldTask`. -/
def boardStep (e : BoardEvent) (b : Board) : Option Board :=
  match e with
  | .kernel e taskFunction =>
    if ∀ e' ∈ kernelEvent e b.hosted, Accompanied b.life b.hosted.kernel e' then
      match hostedStep e b.hosted with
      | none => none
      | some h =>
        (run (lifeStep P finishTask) (hostedLifeEvents taskFunction b.hosted h e) b.life).map
          fun l => { hosted := h, life := l }
    else none
  | .run e =>
    if Thread b.hosted.kernel ∧ e.isOwn = true then
      match lifeStep P finishTask (.task e) b.life with
      | none => none
      | some l =>
        if l.cpu.pendsv then
          (hostedStep (.schedule .yieldTask) b.hosted).map fun h => { hosted := h, life := l }
        else some { b with life := l }
    else none

/-- The condition on an event of the kernel: no switch revives a dead task, and a task that
    blocks or dies has room for the frames on its own stack. -/
def KernelBalanced (l : Life Addr) (s : Kernel) : Event → Prop
  | .pendsv _ => ¬ Revives s
  | .blockCurrentTask => Room (P.over l.owner) 16 l.cpu
  | .finishTask _ | .invalidateCurrentTask => Room (P.over l.owner) 8 l.cpu
  | _ => True

instance (l : Life Addr) (s : Kernel) : DecidablePred (KernelBalanced P l s)
  | .pendsv _ => inferInstanceAs (Decidable (¬ Revives s))
  | .blockCurrentTask => inferInstanceAs (Decidable (Room (P.over l.owner) 16 l.cpu))
  | .finishTask _ | .invalidateCurrentTask =>
    inferInstanceAs (Decidable (Room (P.over l.owner) 8 l.cpu))
  | .createTask .. | .createIdle .. | .runScheduler | .allocateImage _ | .wakeupPid _
  | .yieldTask | .searchInvalidateTasks | .joinTask _ | .dmaInterrupt _ => isTrue trivial

/-- The condition on an event. -/
def BoardBalanced (b : Board) : BoardEvent → Prop
  | .kernel e _ => SmallRequest e ∧
      ∀ e' ∈ kernelEvent e b.hosted, KernelBalanced P b.life b.hosted.kernel e'
  | .run e => Balanced (P.over b.life.owner) b.life.cpu e

end Step

/-! ### Stacks -/

section Stacks

variable {h h' : Hosted} {c : Chunks}

/-- The stack of a new task is a block of the size asked for. -/
theorem answered_stack (hanswered : Answered h h' c) (hstack : c.stack ≠ NULL) :
    IsBlock h'.client (c.stack, sizeofCpuRegister + STACK_SIZE) := by
  rcases hanswered with ⟨answers, blocks, rfl, hgrants⟩
  by_cases hcur : h.kernel.currentlyRunning = NULL
  · simp only [chunksOf, if_pos hcur] at hstack ⊢
    exact grants_isBlock hgrants 0 (by simp only [creationSizes]; rfl) hstack
  · simp only [chunksOf, if_neg hcur] at hstack ⊢
    exact grants_isBlock hgrants 0 (by simp only [creationSizes]; rfl) hstack

/-- No byte belongs to two blocks that are apart. -/
theorem apart_byte {b d : Block} (hapart : Apart b d) {x : Nat} (hb : b.1.toNat ≤ x)
    (hb' : x < b.1.toNat + b.2) (hd : d.1.toNat ≤ x) (hd' : x < d.1.toNat + d.2) : False := by
  have hbyte : ∀ p : Word, p.toNat ≤ x → p + BitVec.ofNat 32 (x - p.toNat) = BitVec.ofNat 32 x := by
    intro p hp
    rw [← BitVec.toNat_inj, BitVec.toNat_add, BitVec.toNat_ofNat, BitVec.toNat_ofNat]
    omega
  refine hapart (x - b.1.toNat) (by omega) (x - d.1.toNat) (by omega) ?_
  rw [hbyte b.1 hb, hbyte d.1 hd]

/-- The words of a task lie in a live block: that of its stack while the task is live, and a
    leaked one if its creation failed. -/
structure OnStack (h : Hosted) (v : View) (l : Life Addr) (t : Addr) (b : Block) : Prop where
  live : b ∈ h.client.live
  size : b.2 = sizeofCpuRegister + STACK_SIZE
  words : ∀ a, l.owner a = some t →
    (b.1.toNat : Int) ≤ 4 * a ∧ 4 * a + 4 ≤ (b.1.toNat + b.2 : Nat)
  own : t ∈ h.kernel.live → b.1.toNat = (h.kernel.tcb t).stacksectionLowerBound
  leaked : t ∉ h.kernel.live → b.1.toNat ∈ v.leaked

variable {v v' : View} {l l' : Life Addr} {t : Addr} {b : Block}

/-- The chunk of a live task's stack is in use. -/
theorem stack_occupied {s : Kernel} (hcons : Consistent s v) (ht : t ∈ s.live) :
    (s.tcb t).stacksectionLowerBound ∈ s.occupied := by
  rcases (consistent_live_iff hcons t).mp ht with ⟨n, hn, rfl⟩
  refine consistent_owns_occupied hcons hn ?_
  exact List.mem_cons_of_mem _ (List.mem_cons_of_mem _ List.mem_cons_self)

/-- The block of a task is one of the kernel's. -/
theorem OnStack.occupied (hcons : Consistent h.kernel v) (hb : OnStack h v l t b) :
    b.1.toNat ∈ h.kernel.occupied := by
  by_cases hlive : t ∈ h.kernel.live
  · rw [hb.own hlive]
    exact stack_occupied hcons hlive
  · exact consistent_leaked_occupied hcons (hb.leaked hlive)

/-- The block of a task that stays is kept. -/
theorem OnStack.kept (hb : OnStack h v l t b) (hcons : Consistent h.kernel v)
    (hcons' : Consistent h'.kernel v') (hretains : Retains h h')
    (howner : ∀ a, l'.owner a = some t → l.owner a = some t)
    (hlive : t ∈ h'.kernel.live ↔ t ∈ h.kernel.live)
    (hstack : t ∈ h.kernel.live → (h'.kernel.tcb t).stacksectionLowerBound =
      (h.kernel.tcb t).stacksectionLowerBound)
    (hleaked : ∀ a ∈ v.leaked, a ∈ v'.leaked) : OnStack h' v' l' t b := by
  have hown : t ∈ h'.kernel.live → b.1.toNat = (h'.kernel.tcb t).stacksectionLowerBound :=
    fun ht => (hb.own (hlive.mp ht)).trans (hstack (hlive.mp ht)).symm
  have hleak : t ∉ h'.kernel.live → b.1.toNat ∈ v'.leaked :=
    fun ht => hleaked _ (hb.leaked fun hc => ht (hlive.mpr hc))
  refine ⟨hretains b hb.live (hb.occupied hcons) ?_, hb.size,
    fun a ha => hb.words a (howner a ha), hown, hleak⟩
  by_cases ht : t ∈ h'.kernel.live
  · rw [hown ht]
    exact stack_occupied hcons' ht
  · exact consistent_leaked_occupied hcons' (hleak ht)

/-- Nobody who is alive has a word in the stack of a new task. -/
theorem stack_free {address : Int}
    (hstacks : ∀ t, l.cpu.finished t = false → ∃ b, OnStack h v l t b)
    (hcons : Consistent h.kernel v) (hanswered : Answered h h' c) (hsep : Separate h'.client)
    (hstack : c.stack ≠ NULL) (hfree : c.stack ∉ h.kernel.occupied)
    (haddress : (c.stack : Int) = 4 * address) (i : Fin (cpuRegisterWords + stackWords)) :
    l.free (address + i.val) = true := by
  rcases answered_stack hanswered hstack with ⟨new, hnew, heq⟩
  have hat : new.1.toNat = c.stack := congrArg Prod.fst heq
  have hsize : new.2 = 1600 := congrArg Prod.snd heq
  have hi : i.val < 400 := i.isLt
  rw [Life.free]
  cases howner : l.owner (address + i.val) with
  | none => rfl
  | some t =>
      by_contra halive
      rcases hstacks t (Bool.eq_false_iff.mpr halive) with ⟨b, hb⟩
      rcases hb.words _ howner with ⟨hlow, hhigh⟩
      have hlive : b ∈ h'.client.live := by
        rcases hanswered with ⟨answers, blocks, _, hgrants⟩
        rw [hgrants.live]
        exact List.mem_append_right _ hb.live
      -- The block of the other task is in use already, so it is another one.
      have hne : b ≠ new := by
        rintro rfl
        exact hfree (hat ▸ hb.occupied hcons)
      exact apart_byte (hsep.1.forall hlive hnew hne) (x := c.stack + 4 * i.val) (by omega)
        (by omega) (by omega) (by omega)

end Stacks

/-! ### One step -/

section Obeying

variable (P : Platform Addr) (finishTask : Word)

/-- The processor can do its part of an event that has taken the kernel from `s` to `s'`
    and has created no task, and agrees with the kernel afterwards. -/
structure Obeys (ls : List (LifeEvent Addr)) (l l' : Life Addr) (s s' : Kernel)
    (v v' : View) : Prop where
  run : run (lifeStep P finishTask) ls l = some l'
  balanced : Meets (lifeStep P finishTask) (LifeBalanced P) ls l
  inv : Inv s' v'
  mirrors : Mirrors l' s' v'
  owner : l'.owner = l.owner
  alive : ∀ t, l'.cpu.finished t = false → l.cpu.finished t = false ∧ (t ∈ s.live → t ∈ s'.live)
  live : ∀ t ∈ s'.live, t ∈ s.live
  stack : ∀ t ∈ s'.live, (s'.tcb t).stacksectionLowerBound = (s.tcb t).stacksectionLowerBound
  leaked : ∀ a ∈ v.leaked, a ∈ v'.leaked

variable {P finishTask} {l l' : Life Addr} {s s' : Kernel} {v v' : View}

/-- Tasks have moved, and nobody has come to life. -/
theorem obeys_moved {ls : List (LifeEvent Addr)} (hmoved : Moved s s' v v')
    (hrun : run (lifeStep P finishTask) ls l = some l')
    (hbalanced : Meets (lifeStep P finishTask) (LifeBalanced P) ls l) (hinv : Inv s' v')
    (hmirrors : Mirrors l' s' v') (howner : l'.owner = l.owner)
    (halive : ∀ t, l'.cpu.finished t = false → l.cpu.finished t = false) :
    Obeys P finishTask ls l l' s s' v v' :=
  ⟨hrun, hbalanced, hinv, hmirrors, howner, fun t ht => ⟨halive t ht, fun hc =>
    hmoved.frame.live ▸ hc⟩, fun _ ht => hmoved.frame.live ▸ ht,
    fun t _ => (hmoved.frame.tcb t).stack, fun _ ha => hmoved.leaked ▸ ha⟩

/-- The processor has nothing to do with it. -/
theorem obeys_nothing (hmoved : Moved s s' v v') (hinv : Inv s' v') (hmirrors : Mirrors l s' v') :
    Obeys P finishTask [] l l s s' v v' :=
  obeys_moved hmoved rfl trivial hinv hmirrors rfl fun _ ht => ht

/-- Only a scheduler that has found a task is booted. -/
theorem runScheduler_booted (hinv : Inv s v) (hboot : s.booted = false)
    (hrun : (runScheduler s).2.booted = true) : (runScheduler s).1 = 0 := by
  unfold runScheduler at hrun ⊢
  cases hens : ensureRunning s with
  | none =>
      simp only [hens] at hrun
      exact Bool.noConfusion (hboot.symm.trans hrun)
  | some s₁ =>
      rcases ensureRunning_moved hinv hens with ⟨_, _, _, _, hcontrol⟩
      simp only [hens] at hrun
      dsimp only
      by_cases hhead : s₁.runningTasks.head = NULL
      · rw [if_pos hhead] at hrun
        exact Bool.noConfusion ((hcontrol.booted.trans hboot).symm.trans hrun)
      · rw [if_neg hhead]

/-- The scheduler starts, or finds nobody. -/
theorem obeys_runScheduler (h : Mirrors l s v) (hinv : Inv s v) (hboot : s.booted = false)
    (f : Word) : ∃ l' v', Obeys P finishTask
      (lifeEvents f s (runScheduler s).2 .runScheduler) l l' s (runScheduler s).2 v v' := by
  rcases runScheduler_inv hinv hboot with ⟨v', hmoved, _, hinv', hok⟩
  have hmove := runScheduler_rearranged hinv.consistent
  have hpend : s.pendsv = false := (hinv.boot hboot).1
  rw [lifeEvents]
  by_cases hbooted : (runScheduler s).2.booted = true
  · rcases hok (runScheduler_booted hinv hboot hbooted) with ⟨hchosen, _, hpend'⟩
    set t := (runScheduler s).2.dataOf (runScheduler s).2.currentlyRunning with ht
    have hcurrent : currentTask (runScheduler s).2 = some t := if_neg hchosen.nonnull
    have halive : l.cpu.finished t = false := mirrors_ready h hmove.dead hmoved.consistent
      (List.mem_append_left _ hchosen.member) hchosen.ready
    have hstarted : l.started = false := h.started.trans hboot
    -- The two steps of the processor.
    set chosen : Life Addr :=
      { l with cpu := { l.cpu with currentlyRunning := some t, taskToPreserve := t } } with hc
    have hfirst : lifeStep P finishTask (.runScheduler t) l = some chosen :=
      if_pos ⟨hstarted, halive⟩
    rcases Option.ne_none_iff_exists'.mp (show chosen.start P ≠ none by
      rw [start_eq, hc, Option.map_some]
      exact Option.some_ne_none _) with ⟨l', hstart⟩
    have hsecond : lifeStep P finishTask .start chosen = some l' := (if_pos hstarted).trans hstart
    rw [if_pos hbooted]
    rw [start_eq, hc, Option.map_some, Option.some.injEq] at hstart
    refine ⟨l', v', obeys_moved hmoved ?_ ?_ hinv' ?_ ?_ ?_⟩
    · simp only [run, hfirst, hsecond]
    · refine ⟨trivial, ?_⟩
      rw [hfirst]
      exact meets_one _ hsecond trivial
    · rw [← hstart]
      refine mirrors_rearranged h hmove hmoved.leaked rfl rfl hbooted.symm
        ((h.pendsv.trans hpend).trans hpend'.symm) hcurrent.symm fun _ => ?_
      rw [hchosen.preserve]
    · rw [← hstart]
    · rw [← hstart]
      exact fun _ hu => hu
  · rw [if_neg hbooted]
    have hboot' := Bool.eq_false_iff.mpr hbooted
    refine ⟨l, v', obeys_nothing hmoved hinv' (mirrors_rearranged h hmove hmoved.leaked rfl rfl
      (h.started.trans (hboot.trans hboot'.symm))
      (h.pendsv.trans (hpend.trans (hinv'.boot hboot').1.symm)) ?_
      fun hc => absurd hc hbooted)⟩
    rw [h.current, currentTask, currentTask, if_pos (hinv.boot hboot).2.1,
      if_pos (hinv'.boot hboot').2.1]

/-- A task that is executing runs on the processor. -/
theorem mirrors_thread (h : Mirrors l s v) (hthread : Thread s) :
    l.started = true ∧ l.cpu.pendsv = false :=
  ⟨h.started.trans hthread.1, h.pendsv.trans hthread.2.1⟩

/-- A step of the task that runs. -/
theorem lifeStep_own {e : TaskEvent Addr} {c : Cpu Addr} (hstarted : l.started = true)
    (hnone : e.selected = none) (hstep : taskStep (P.over l.owner) e l.cpu = some c) :
    lifeStep P finishTask (.task e) l = some { l with cpu := c } := by
  rw [lifeStep, if_pos hstarted, hstep, hnone, Option.map_some]

/-- The current task waits. -/
theorem obeys_blockCurrentTask (h : Mirrors l s v) (hinv : Inv s v) (hthread : Thread s)
    (hroom : Room (P.over l.owner) 16 l.cpu) (f : Word) : ∃ l' v', Obeys P finishTask
      (lifeEvents f s (blockCurrentTask s) .blockCurrentTask) l l' s (blockCurrentTask s) v v' := by
  rcases blockCurrentTask_inv hinv hthread with ⟨hmoved, hinv'⟩
  rcases mirrors_thread h hthread with ⟨hstarted, hpend⟩
  rcases mirrors_executing h hinv hthread with ⟨hself, hcurrent⟩
  have hmove := blockCurrentTask_rearranged hinv hthread
  have hpreserve : (blockCurrentTask s).taskToPreserve = s.currentlyRunning := by
    rw [blockCurrentTask_eq]
  set c : Cpu Addr := { l.cpu.setR6 2#32 with
    taskToPreserve := s.dataOf s.currentlyRunning
    currentlyRunning := currentTask (blockCurrentTask s)
    primask := false } with hc
  have htrap : TrapType.ofWord c.r6 = some .yieldTask := by
    rw [Cpu.r6]
    simp only [hc, Cpu.setR6, Function.update_self]
    rfl
  rcases svc_yields (P := P.over l.owner) htrap with ⟨c', hsvc⟩
  have hsuspended := svc_yield htrap hsvc
  have hstep : lifeStep P finishTask (.task (.blockCurrentTask (currentTask (blockCurrentTask s))))
      l = some { l with cpu := c' } := by
    refine lifeStep_own hstarted rfl ?_
    rw [taskStep, hpend, hcurrent]
    exact hsvc
  refine ⟨_, _, obeys_moved hmoved (run_one _ hstep) (meets_one _ hstep hroom) hinv' ?_ rfl
    fun t ht => ?_⟩
  · refine mirrors_rearranged h hmove hmoved.leaked hsuspended.sp hsuspended.finished
      (hstarted.trans hthread.1.symm) hsuspended.pendsv hsuspended.current fun _ => ?_
    rw [hpreserve, rearranged_dataOf hmove]
    exact hsuspended.preserve
  · exact (congrFun hsuspended.finished t).symm.trans ht

/-- The switch goes where the kernel says. -/
theorem obeys_pendsv (h : Mirrors l s v) (hinv : Inv s v) {psp : Addr} (hpend : s.pendsv = true)
    (hpsp : (psp : Int) = 4 * l.cpu.psp) (hfound : (pendsvIsr psp s).currentlyRunning ≠ NULL)
    (hno : ¬ Revives s) (f : Word) : ∃ l' v', Obeys P finishTask
      (lifeEvents f s (pendsvIsr psp s) (.pendsv psp)) l l' s (pendsvIsr psp s) v v' := by
  rcases pendsvIsr_inv hinv psp hpend with ⟨v', hmoved, _, hinv', hsteer⟩
  rcases pendsvIsr_moved hinv psp with ⟨_, _, _, _, hclear, _⟩
  have hboot : s.booted = true := by
    by_contra hc
    exact Bool.noConfusion (hpend.symm.trans (hinv.boot (Bool.eq_false_iff.mpr hc)).1)
  have hchosen : Chosen (pendsvIsr psp s) v' := by
    rcases (hsteer hboot).control with hpend' | ⟨_, hpend'⟩ | hchosen | hstuck
    · exact Bool.noConfusion (hclear.symm.trans hpend')
    · exact Bool.noConfusion (hclear.symm.trans (hpend'.trans hpend))
    · exact hchosen
    · exact absurd hstuck.current hfound
  have halive := mirrors_ready h (pendsvIsr_sameDead hinv psp hno) hmoved.consistent
    (List.mem_append_left _ hchosen.member) hchosen.ready
  set next := (pendsvIsr psp s).dataOf (pendsvIsr psp s).currentlyRunning
  have hstep : lifeStep P finishTask (.task (.pendsv next)) l = some { l with
      cpu := (l.cpu.pendsvIsr next).leaveException
      entry := Function.update l.entry next none } := by
    rw [lifeStep, if_pos (h.started.trans hboot), taskStep,
      if_pos ⟨h.pendsv.trans hpend, halive⟩, Option.map_some]
    rfl
  exact ⟨_, v', obeys_moved hmoved (run_one _ hstep) (meets_one _ hstep trivial) hinv'
    (mirrors_pendsv h hinv hpsp hpend hno hchosen hmoved.leaked _) rfl fun _ ht => ht⟩

/-- The current task dies. -/
theorem obeys_dies (h : Mirrors l s v) (hinv : Inv s v) (hthread : Thread s)
    (hmoved : Moved s s' v v') (hinv' : Inv s' v') (hdies : Dies s s')
    (hroom : Room (P.over l.owner) 8 l.cpu) :
    ∃ l' v', Obeys P finishTask [.task .finishTask] l l' s s' v v' := by
  rcases mirrors_thread h hthread with ⟨hstarted, hpend⟩
  have hstep : lifeStep P finishTask (.task .finishTask) l = some { l with
      cpu := { l.cpu.proceed.enterException with
        finished := Function.update l.cpu.finished l.cpu.taskToPreserve true
        pendsv := true } } := by
    refine lifeStep_own hstarted rfl ?_
    rw [taskStep, hpend]
    rfl
  refine ⟨_, v', obeys_moved hmoved (run_one _ hstep) (meets_one _ hstep hroom) hinv'
    (mirrors_dies h hinv hthread hdies hmoved.leaked) rfl fun t ht => ?_⟩
  by_cases hself : t = l.cpu.taskToPreserve
  · rw [hself] at ht
    exact Bool.noConfusion ((Function.update_self ..).symm.trans ht)
  · exact (Function.update_of_ne hself _ _).symm.trans ht

/-- The idle task cleans up, and the processor does nothing. -/
theorem obeys_reaped (h : Mirrors l s v) (hinv : Inv s v) (hinv' : Inv s' v')
    (hreaped : Reaped s s' v v') : Obeys P finishTask [] l l s s' v v' := by
  refine ⟨rfl, trivial, hinv', mirrors_reaped h hinv.consistent hreaped, rfl,
    fun t ht => ⟨ht, fun hlive => ?_⟩, fun t ht => hreaped.live.subset ht, fun t _ => ?_,
    hreaped.leaked⟩
  · exact reaped_live hinv.consistent hreaped hlive ((h.dead t hlive).symm.trans ht)
  · rw [hreaped.tcb]

/-- A chunk is taken for an image. -/
theorem obeys_allocateImage (h : Mirrors l s v) (hinv : Inv s v) {image : Addr}
    (hfree : FreeChunk image s) : Obeys P finishTask [] l l s
      { s.allocate image with images := image :: s.images } v v := by
  have hinv' := allocateImage_inv hinv hfree
  rw [allocate_eq] at hinv' ⊢
  exact ⟨rfl, trivial, hinv', ⟨⟨h.started, h.pendsv, h.current, h.preserve, h.sp, h.dead⟩, h.used⟩,
    rfl, fun _ ht => ⟨ht, id⟩, fun _ ht => ht, fun _ _ => rfl, fun _ ha => ha⟩

/-- A creation that fails before the context is in place. -/
theorem obeys_notCreated (h : Mirrors l s v) (hinv : Inv s v) (hinv' : Inv s' v') {c : Chunks}
    (hkeep : Untouched c s s') (hthread : s.booted = false ∨ Thread s)
    (hnot : NotCreated s s' v v') : Obeys P finishTask [] l l s s' v v' := by
  refine ⟨rfl, trivial, hinv', mirrors_notCreated h hinv hkeep hthread hnot, rfl,
    fun _ ht => ⟨ht, fun hc => hnot.live ▸ hc⟩, fun _ ht => hnot.live ▸ ht, fun t ht => ?_,
    fun a ha => ?_⟩
  · rw [hkeep.tcb t (hnot.live ▸ ht)]
  · rcases hnot.leaked with ⟨taken, hleaked⟩
    rw [hleaked]
    exact List.mem_append_right _ ha

/-- Every event that creates no task is followed. -/
theorem kernel_obeyed (h : Mirrors l s v) (hinv : Inv s v) {e : Event}
    (hstep : step e s = some s') (hnew : e.creates = none) (haccompanied : Accompanied l s e)
    (hC : KernelBalanced P l s e) (f : Word) :
    ∃ l' v', Obeys P finishTask (lifeEvents f s s' e) l l' s s' v v' := by
  rcases step_enabled hstep with ⟨hen, heff⟩
  cases e with
  | createTask c slot ramLocation => exact absurd hnew (Option.some_ne_none _)
  | createIdle c slot => exact absurd hnew (Option.some_ne_none _)
  | runScheduler =>
      rw [← Option.some.inj heff]
      exact obeys_runScheduler h hinv hen f
  | allocateImage image =>
      rw [← Option.some.inj heff]
      exact ⟨l, v, obeys_allocateImage h hinv hen.2⟩
  | blockCurrentTask =>
      rw [← Option.some.inj heff]
      exact obeys_blockCurrentTask h hinv hen hC f
  | wakeupPid pid =>
      rw [← Option.some.inj heff]
      rcases wakeupPid_inv hinv pid with ⟨v', hmoved, _, hinv'⟩
      exact ⟨l, v', obeys_nothing hmoved hinv'
        (mirrors_wakeupPid h hinv.consistent pid hmoved.leaked)⟩
  | yieldTask => exact absurd haccompanied id
  | pendsv psp =>
      rw [← Option.some.inj heff]
      exact obeys_pendsv h hinv hen haccompanied.1 haccompanied.2 hC f
  | finishTask stale =>
      rw [← Option.some.inj heff]
      rcases finishTask_inv hinv hen stale with ⟨v', hmoved, _, hinv', _⟩
      exact obeys_dies h hinv hen hmoved hinv' (finishTask_dies hinv hen stale) hC
  | invalidateCurrentTask =>
      rw [← Option.some.inj heff]
      rcases invalidateCurrentTask_inv hinv hen with ⟨hmoved, hinv'⟩
      exact obeys_dies h hinv hen hmoved hinv' (invalidateCurrentTask_dies s) hC
  | searchInvalidateTasks =>
      rw [← Option.some.inj heff]
      rcases searchInvalidateTasks_inv hinv hen.1 with ⟨v', hreaped, hinv'⟩
      exact ⟨l, v', obeys_reaped h hinv hinv' hreaped⟩
  | joinTask pid =>
      rw [← Option.some.inj heff, joinTask_id hinv.consistent, lifeEvents,
        checkTasksAvailability_none hinv.consistent pid]
      exact ⟨l, v, obeys_nothing (moved_refl hinv.consistent) hinv h⟩
  | dmaInterrupt action =>
      rw [← Option.some.inj heff]
      have hmoved := moved_control (moved_refl hinv.consistent) s.currentlyRunning
        s.taskToPreserve s.pendsv s.booted s.cleanUpRequests action
      refine ⟨l, v, obeys_nothing hmoved ⟨hmoved.consistent, hinv.boot, hinv.current,
        hinv.preserve, hinv.thread, hinv.pending⟩ ?_⟩
      exact ⟨⟨h.started, h.pendsv, h.current, h.preserve, h.sp, h.dead⟩, h.used⟩

end Obeying

/-! ### The board in a run -/

section Board

variable {P : Platform Addr} {finishTask : Word}

/-- The invariant: the kernel is grounded, the processor agrees with it, and whoever is
    alive has a stack of its own. -/
structure BoardInv (P : Platform Addr) (finishTask : Word) (b : Board) (v : View) : Prop where
  grounded : Grounded b.hosted v
  mirrors : Mirrors b.life b.hosted.kernel v
  inv : LifeInv finishTask P b.life
  stack : ∀ t, b.life.cpu.finished t = false → ∃ d, OnStack b.hosted v b.life t d

variable {b : Board} {h' : Hosted} {l' : Life Addr} {v v' : View}

/-- The stacks stay where they are when nobody is created. -/
theorem obeys_boardInv (h : BoardInv P finishTask b v) {ls : List (LifeEvent Addr)}
    (hobeys : Obeys P finishTask ls b.life l' b.hosted.kernel h'.kernel v v')
    (hcovered : ∃ k, Covered h'.client k) (hbacked : Backed h'.client h'.kernel)
    (hretains : Retains b.hosted h') :
    BoardInv P finishTask { hosted := h', life := l' } v' := by
  refine ⟨⟨hobeys.inv, hcovered, hbacked⟩, hobeys.mirrors,
    lifeInv_run h.inv hobeys.balanced hobeys.run, fun t ht => ?_⟩
  rcases hobeys.alive t ht with ⟨halive, hstays⟩
  rcases h.stack t halive with ⟨d, hd⟩
  have hlive : t ∈ h'.kernel.live ↔ t ∈ b.hosted.kernel.live := ⟨hobeys.live t, hstays⟩
  refine ⟨d, hd.kept h.grounded.inv.consistent hobeys.inv.consistent hretains (fun a ha => ?_)
    hlive (fun hc => hobeys.stack t (hstays hc)) hobeys.leaked⟩
  rwa [← hobeys.owner]

/-- A task is created, and gets a stack that is nobody else's. -/
theorem created_boardInv (h : BoardInv P finishTask b v) {e : Event} {c : Chunks}
    {ramLocation : Addr} (he : e.creates = some (c, ramLocation))
    (hstep : step e b.hosted.kernel = some h'.kernel) (hanswered : Answered b.hosted h' c)
    (hcovered : ∃ k, Covered h'.client k) (hbacked : Backed h'.client h'.kernel)
    (hretains : Retains b.hosted h') (hstack : c.stack ≠ NULL) (htcb : c.tcb ≠ NULL)
    (f : Word) :
    ∃ l' v', lifeStep P finishTask (.createTask c.tcb ((c.stack / 4 : Nat) : Int) f) b.life =
        some l' ∧ BoardInv P finishTask { hosted := h', life := l' } v' := by
  have hcons := h.grounded.inv.consistent
  rcases creation_enabled he (step_enabled hstep).1 with ⟨hthread, hfree⟩
  rcases creation_outcome h.grounded.inv he hstep with ⟨v', hinv', hkeep, hout⟩
  have hnewStack : c.stack ∉ b.hosted.kernel.occupied :=
    hfree.2 _ (mem_granted.mpr ⟨Or.inl rfl, hstack⟩)
  have hnewTcb : c.tcb ∉ b.hosted.kernel.occupied :=
    hfree.2 _ (mem_granted.mpr ⟨Or.inr (Or.inl rfl), htcb⟩)
  rcases hcovered with ⟨k, hk⟩
  have hsep := covered_separate hk
  rcases answered_stack hanswered hstack with ⟨new, hnew, heq⟩
  have hat : new.1.toNat = c.stack := congrArg Prod.fst heq
  have hsize : new.2 = 1600 := congrArg Prod.snd heq
  -- The stack is aligned, so it is counted in words.
  have haddress : (c.stack : Int) = 4 * ((c.stack / 4 : Nat) : Int) := by
    have haligned := hsep.2 new hnew
    omega
  set l' := b.life.createTask finishTask c.tcb ((c.stack / 4 : Nat) : Int) f with hl'
  have hpend : b.life.cpu.pendsv = false := by
    rw [h.mirrors.pendsv]
    rcases hthread with hboot | hthread
    · exact (h.grounded.inv.boot hboot).1
    · exact hthread.2.1
  have hstep' : lifeStep P finishTask (.createTask c.tcb ((c.stack / 4 : Nat) : Int) f) b.life =
      some l' :=
    if_pos ⟨hpend, mirrors_free h.mirrors hcons hnewTcb,
      stack_free h.stack hcons hanswered hsep hstack hnewStack haddress⟩
  have hsettled := creation_settled hcons hkeep hout (creates_takes he hstep hstack htcb) hnewStack
    hnewTcb
  have hlife : LifeInv finishTask P l' :=
    (lifeStep_kept h.inv (show LifeBalanced P b.life (.createTask ..) from trivial) hstep').1
  refine ⟨l', v', hstep', ⟨hinv', ⟨k, hk⟩, hbacked⟩, ?_, hlife, fun t ht => ?_⟩
  · exact mirrors_context h.mirrors h.grounded.inv hkeep hthread haddress hnewTcb hsettled
  · by_cases htc : t = c.tcb
    · subst htc
      refine ⟨new, hnew, hsize, fun a ha => ?_, fun hc => ?_, fun hc => ?_⟩
      · rcases createTask_owner_self ha with ⟨hlow, hhigh⟩
        constructor <;> omega
      · rw [hsettled.task hc]
        exact hat
      · rw [hat]
        exact (hsettled.failed hc).2
    · have hold : b.life.cpu.finished t = false := (Function.update_of_ne htc _ _).symm.trans ht
      rcases h.stack t hold with ⟨d, hd⟩
      have hmem : t ∈ h'.kernel.live ↔ t ∈ b.hosted.kernel.live := by
        rcases hsettled.live with hsame | happend
        · rw [hsame]
        · rw [happend, List.mem_append, List.mem_singleton, or_iff_left htc]
      exact ⟨d, hd.kept hcons hinv'.consistent hretains (fun a ha => createTask_owner_other htc ha)
        hmem (fun hc => by rw [hkeep.tcb t hc]) hsettled.leaked⟩

theorem lifeEvents_creates {e : Event} {c : Chunks} {ramLocation : Addr} {s s' : Kernel}
    (he : e.creates = some (c, ramLocation)) (f : Word) : lifeEvents f s s' e =
      if c.stack = NULL ∨ c.tcb = NULL then []
      else [.createTask c.tcb ((c.stack / 4 : Nat) : Int) f] := by
  cases e with
  | createTask c' slot ramLocation' =>
      rw [lifeEvents, (Prod.mk.inj (Option.some.inj he)).1]
  | createIdle c' slot =>
      rw [lifeEvents, (Prod.mk.inj (Option.some.inj he)).1]
  | _ => exact absurd he (by simp only [Event.creates, reduceCtorEq, not_false_eq_true])

/-- What the kernel can do next, the processor can do with it. -/
theorem kernel_boardInv (h : BoardInv P finishTask b v) {e : HostedEvent} {f : Word}
    (haccompanied : ∀ e' ∈ kernelEvent e b.hosted, Accompanied b.life b.hosted.kernel e')
    (hC : BoardBalanced P b (.kernel e f)) (hstep : hostedStep e b.hosted = some h')
    (hbytes : h'.client.heap.usedBytes < 65536) : ∃ l' v',
      run (lifeStep P finishTask) (hostedLifeEvents f b.hosted h' e) b.life = some l' ∧
        Meets (lifeStep P finishTask) (LifeBalanced P) (hostedLifeEvents f b.hosted h' e) b.life ∧
        BoardInv P finishTask { hosted := h', life := l' } v' := by
  rcases hosted_step h.grounded hstep hC.1 hbytes with ⟨v₁, hg', hretains, hout⟩
  cases hout with
  | own hnone hkernel hv =>
      have hevents : hostedLifeEvents f b.hosted h' e = [] := by
        rw [hostedLifeEvents, hnone]
        rfl
      have hobeys : Obeys P finishTask [] b.life b.life b.hosted.kernel h'.kernel v v := by
        rw [hkernel]
        exact obeys_nothing (moved_refl h.grounded.inv.consistent) h.grounded.inv h.mirrors
      rw [hevents]
      exact ⟨b.life, v, rfl, trivial,
        obeys_boardInv h hobeys hg'.covered hg'.backed hretains⟩
  | kernel e' hsome hkstep _ hanswered =>
      have hevents : hostedLifeEvents f b.hosted h' e =
          lifeEvents f b.hosted.kernel h'.kernel e' := by
        rw [hostedLifeEvents, hsome, Option.toList_some, List.flatMap_singleton]
      rw [hevents]
      cases he : e'.creates with
      | none =>
          rcases kernel_obeyed h.mirrors h.grounded.inv hkstep he (haccompanied e' hsome)
            (hC.2 e' hsome) f with ⟨l', v', hobeys⟩
          exact ⟨l', v', hobeys.run, hobeys.balanced,
            obeys_boardInv h hobeys hg'.covered hg'.backed hretains⟩
      | some r =>
          rcases r with ⟨c, ramLocation⟩
          rw [lifeEvents_creates he]
          by_cases hnull : c.stack = NULL ∨ c.tcb = NULL
          · rw [if_pos hnull]
            rcases creation_outcome h.grounded.inv he hkstep with ⟨v', hinv', hkeep, hnot | hnew⟩
            · have hthread := (creation_enabled he (step_enabled hkstep).1).1
              exact ⟨b.life, v', rfl, trivial, obeys_boardInv h (obeys_notCreated h.mirrors
                h.grounded.inv hinv' hkeep hthread hnot) hg'.covered hg'.backed hretains⟩
            · exact (hnull.elim hnew.granted.stack hnew.granted.tcb).elim
          · rw [if_neg hnull]
            rcases not_or.mp hnull with ⟨hstack, htcb⟩
            rcases created_boardInv h he hkstep (hanswered c ramLocation he) hg'.covered hg'.backed
              hretains hstack htcb f with ⟨l', v', hcreate, hinv'⟩
            refine ⟨l', v', run_one _ hcreate, meets_one _ hcreate ?_, hinv'⟩
            trivial

/-- What a step of its own leaves alone. -/
structure OwnFrame (c c' : Cpu Addr) : Prop where
  sp : c'.sp = c.sp
  current : c'.currentlyRunning = c.currentlyRunning
  preserve : c'.taskToPreserve = c.taskToPreserve
  finished : c'.finished = c.finished

theorem own_frame {Q : Platform Addr} {c c' : Cpu Addr} {e : TaskEvent Addr}
    (hown : e.isOwn = true) (hC : Balanced Q c e) (hstep : taskStep Q e c = some c') :
    OwnFrame c c' := by
  cases e with
  | compute high low psp =>
      rw [taskStep, Option.ite_none_left_eq_some] at hstep
      rw [← Option.some.inj hstep.2]
      exact ⟨rfl, rfl, rfl, rfl⟩
  | write a w =>
      rw [taskStep, Option.ite_none_left_eq_some] at hstep
      rw [← Option.some.inj hstep.2]
      exact ⟨rfl, rfl, rfl, rfl⟩
  | svc =>
      rw [taskStep, Option.ite_none_left_eq_some, Bool.not_eq_true] at hstep
      rcases svc_cases hstep.1 hC.1 hC.2 hstep.2 with hret | hsusp
      · exact ⟨hret.sp, hret.current, hret.preserve, hret.finished⟩
      · exact ⟨hsusp.sp, hsusp.current, hsusp.preserve, hsusp.finished⟩
  | blockCurrentTask _ => exact Bool.noConfusion hown
  | finishTask => exact Bool.noConfusion hown
  | pendsv _ => exact Bool.noConfusion hown

theorem isOwn_selected {e : TaskEvent Addr} (hown : e.isOwn = true) : e.selected = none := by
  cases e with
  | pendsv _ => exact Bool.noConfusion hown
  | _ => rfl

/-- The task that runs has made a step, and the kernel has yielded if it asked for that. -/
theorem own_obeyed {l : Life Addr} {s : Kernel} (h : Mirrors l s v) (hinv : Inv s v)
    (hthread : Thread s) {e : TaskEvent Addr} (hown : e.isOwn = true)
    (hC : Balanced (P.over l.owner) l.cpu e)
    (hstep : lifeStep P finishTask (.task e) l = some l') :
    Obeys P finishTask [.task e] l l' s
      (if l'.cpu.pendsv then svcallYieldTask s else s) v v := by
  have hstarted := (mirrors_thread h hthread).1
  have hrun := run_one _ hstep
  have hbalanced : Meets (lifeStep P finishTask) (LifeBalanced P) [.task e] l :=
    meets_one _ hstep hC
  rw [lifeStep, if_pos hstarted, isOwn_selected hown, Option.map_eq_some_iff] at hstep
  rcases hstep with ⟨c', htask, rfl⟩
  have hframe := own_frame hown hC htask
  have hfinished : ∀ t, c'.finished t = false → l.cpu.finished t = false := by
    rw [hframe.finished]
    exact fun _ ht => ht
  have hmirrors : ∀ s', Moved s s' v v → Rearranged s s' → s'.booted = s.booted →
      c'.pendsv = s'.pendsv → s'.currentlyRunning = s.currentlyRunning →
      s'.taskToPreserve = s.taskToPreserve → Mirrors { l with cpu := c' } s' v := by
    intro s' hmoved hmove hbooted hpendsv hcurrent hpreserve
    refine mirrors_rearranged h hmove rfl hframe.sp hframe.finished (h.started.trans hbooted.symm)
      hpendsv ?_ fun _ => ?_
    · rw [currentTask_congr hcurrent fun _ => rearranged_dataOf hmove _]
      exact hframe.current.trans h.current
    · rw [hpreserve, rearranged_dataOf hmove]
      exact hframe.preserve.trans (h.preserve hthread.1)
  by_cases hpend : c'.pendsv = true
  · have hyield := svcallYieldTask_inv hinv hthread
    simp only [if_pos hpend]
    exact obeys_moved hyield.1 hrun hbalanced hyield.2 (hmirrors _ hyield.1
      ⟨fun _ => rfl, ⟨rfl, fun _ _ => rfl, rfl⟩, rfl⟩ rfl hpend rfl rfl) rfl hfinished
  · have hsame := moved_refl hinv.consistent
    simp only [if_neg hpend]
    exact obeys_moved hsame hrun hbalanced hinv (hmirrors s hsame (rearranged_refl s) rfl
      ((Bool.eq_false_iff.mpr hpend).trans hthread.2.1.symm) rfl rfl) rfl hfinished

/-- What a step of the board can be. -/
theorem boardStep_cases {b' : Board} {e : BoardEvent}
    (hstep : boardStep P finishTask e b = some b') :
    (∃ e' f h l, e = .kernel e' f ∧
      (∀ k ∈ kernelEvent e' b.hosted, Accompanied b.life b.hosted.kernel k) ∧
      hostedStep e' b.hosted = some h ∧
      run (lifeStep P finishTask) (hostedLifeEvents f b.hosted h e') b.life = some l ∧
      b' = { hosted := h, life := l }) ∨
    ∃ e' l, e = .run e' ∧ Thread b.hosted.kernel ∧ e'.isOwn = true ∧
      lifeStep P finishTask (.task e') b.life = some l ∧
      (l.cpu.pendsv = true ∧ (∃ h, hostedStep (.schedule .yieldTask) b.hosted = some h ∧
          b' = { hosted := h, life := l }) ∨
        ¬ l.cpu.pendsv = true ∧ b' = { b with life := l }) := by
  cases e with
  | kernel e f =>
      rw [boardStep, Option.ite_none_right_eq_some] at hstep
      rcases hstep with ⟨haccompanied, hstep⟩
      cases hhosted : hostedStep e b.hosted with
      | none => simp only [hhosted, reduceCtorEq] at hstep
      | some h =>
          simp only [hhosted] at hstep
          rcases Option.map_eq_some_iff.mp hstep with ⟨l, hl, hb'⟩
          exact Or.inl ⟨e, f, h, l, rfl, haccompanied, hhosted, hl, hb'.symm⟩
  | run e =>
      rw [boardStep, Option.ite_none_right_eq_some] at hstep
      rcases hstep with ⟨⟨hthread, hown⟩, hstep⟩
      cases hlife : lifeStep P finishTask (.task e) b.life with
      | none => simp only [hlife, reduceCtorEq] at hstep
      | some l =>
          simp only [hlife] at hstep
          refine Or.inr ⟨e, l, rfl, hthread, hown, hlife, ?_⟩
          by_cases hpend : l.cpu.pendsv = true
          · rw [if_pos hpend] at hstep
            rcases Option.map_eq_some_iff.mp hstep with ⟨h, hyield, hb'⟩
            exact Or.inl ⟨hpend, h, hyield, hb'.symm⟩
          · rw [if_neg hpend, Option.some.injEq] at hstep
            exact Or.inr ⟨hpend, hstep.symm⟩

/-- The events of the hosted kernel in a step of the board. -/
theorem boardStep_hosted {b' : Board} {e : BoardEvent}
    (hstep : boardStep P finishTask e b = some b') :
    ∃ hs, run hostedStep hs b.hosted = some b'.hosted ∧
      (BoardBalanced P b e → ∀ e' ∈ hs, SmallRequest e') := by
  rcases boardStep_cases hstep with ⟨e', f, h, l, rfl, _, hhosted, _, rfl⟩ |
    ⟨e', l, rfl, _, _, _, ⟨_, h, hyield, rfl⟩ | ⟨_, rfl⟩⟩
  · refine ⟨[e'], run_one _ hhosted, fun hC d hd => ?_⟩
    rw [List.mem_singleton.mp hd]
    exact hC.1
  · refine ⟨[.schedule .yieldTask], run_one _ hyield, fun _ d hd => ?_⟩
    rw [List.mem_singleton.mp hd]
    trivial
  · exact ⟨[], rfl, fun _ _ hc => absurd hc List.not_mem_nil⟩

/-- Every step of the board is one of the processor's runs and keeps the invariant. -/
theorem boardStep_inv {b' : Board} {e : BoardEvent} (h : BoardInv P finishTask b v)
    (hC : BoardBalanced P b e) (hstep : boardStep P finishTask e b = some b')
    (hbytes : b'.hosted.client.heap.usedBytes < 65536) :
    (∃ ls, run (lifeStep P finishTask) ls b.life = some b'.life ∧
      Meets (lifeStep P finishTask) (LifeBalanced P) ls b.life) ∧
      ∃ v', BoardInv P finishTask b' v' := by
  rcases boardStep_cases hstep with ⟨e', f, h₁, l, rfl, haccompanied, hhosted, hl, rfl⟩ |
    ⟨e', l, rfl, hthread, hown, hlife, hrest⟩
  · rcases kernel_boardInv h haccompanied hC hhosted hbytes with ⟨l', v', hrun, hmeets, hinv'⟩
    rcases Option.some.inj (hrun.symm.trans hl) with rfl
    exact ⟨⟨_, hrun, hmeets⟩, v', hinv'⟩
  · have hobeys := own_obeyed h.mirrors h.grounded.inv hthread hown hC hlife
    set s' := if l.cpu.pendsv then svcallYieldTask b.hosted.kernel else b.hosted.kernel with hs'
    have hbacked : Backed b.hosted.client s' := by
      rw [hs']
      split
      · exact h.grounded.backed
      · exact h.grounded.backed
    have hb' : b' = { hosted := { b.hosted with kernel := s' }, life := l } := by
      rcases hrest with ⟨hpend, h₁, hyield, rfl⟩ | ⟨hpend, rfl⟩
      · have heff : some { b.hosted with kernel := svcallYieldTask b.hosted.kernel } =
          some h₁ := (hostedStep_enabled hyield).2
        rw [hs', if_pos hpend, ← Option.some.inj heff]
      · rw [hs', if_neg hpend]
    rw [hb']
    refine ⟨⟨_, hobeys.run, hobeys.balanced⟩, v, ?_⟩
    exact obeys_boardInv h hobeys h.grounded.covered hbacked fun _ hd _ _ => hd

/-- The kernel's part of a run. -/
theorem boardRun_hosted {b' : Board} {es : List BoardEvent}
    (hC : Meets (boardStep P finishTask) (BoardBalanced P) es b)
    (hrun : run (boardStep P finishTask) es b = some b') :
    ∃ hs, run hostedStep hs b.hosted = some b'.hosted ∧ ∀ e ∈ hs, SmallRequest e := by
  induction es generalizing b with
  | nil => exact ⟨[], by rw [← Option.some.inj hrun]; rfl, fun _ hc => absurd hc List.not_mem_nil⟩
  | cons e es ih =>
      rcases run_cons _ hrun with ⟨b₁, hstep, hrest⟩
      rcases hC with ⟨hCe, hCes⟩
      rw [hstep] at hCes
      rcases boardStep_hosted hstep with ⟨hs, hfirst, hsmall⟩
      rcases ih hCes hrest with ⟨hs', hsecond, hsmall'⟩
      refine ⟨hs ++ hs', by rw [run_append, hfirst, Option.bind_some, hsecond], fun e' he' => ?_⟩
      exact (List.mem_append.mp he').elim (hsmall hCe e') (hsmall' e')

/-- The processor's part of a run, and what holds at its end. -/
theorem boardRun_inv {b' : Board} {es : List BoardEvent} (h : BoardInv P finishTask b v)
    (hC : Meets (boardStep P finishTask) (BoardBalanced P) es b)
    (hrun : run (boardStep P finishTask) es b = some b')
    (hbytes : b'.hosted.client.heap.usedBytes < 65536) :
    (∃ ls, run (lifeStep P finishTask) ls b.life = some b'.life ∧
      Meets (lifeStep P finishTask) (LifeBalanced P) ls b.life) ∧
      ∃ v', BoardInv P finishTask b' v' := by
  induction es generalizing b v with
  | nil =>
      rw [← Option.some.inj hrun]
      exact ⟨⟨[], rfl, trivial⟩, v, h⟩
  | cons e es ih =>
      rcases run_cons _ hrun with ⟨b₁, hstep, hrest⟩
      rcases hC with ⟨hCe, hCes⟩
      rw [hstep] at hCes
      rcases boardStep_hosted hstep with ⟨hs₀, hhosted₀, hsmall₀⟩
      -- What was carved at the end bounds what was carved before.
      have hpacked₁ := hosted_packed_run h.grounded.packed (hsmall₀ hCe) hhosted₀
      rcases boardRun_hosted hCes hrest with ⟨hs, hhosted, hsmall⟩
      have hbytes₁ := Nat.lt_of_le_of_lt (hosted_usedBytes hpacked₁ hsmall hhosted) hbytes
      rcases boardStep_inv h hCe hstep hbytes₁ with ⟨⟨ls, hfirst, hmeets⟩, v₁, h₁⟩
      rcases ih h₁ hCes hrest with ⟨⟨ls', hsecond, hmeets'⟩, hend⟩
      refine ⟨⟨ls ++ ls', ?_, ?_⟩, hend⟩
      · rw [run_append, hfirst, Option.bind_some, hsecond]
      · exact meets_join _ hmeets hfirst hmeets'

/-- The words of every task that is alive lie in the chunk that `create_task` got for its
    stack. -/
def StacksKept (b : Board) : Prop :=
  ∀ t ∈ b.hosted.kernel.live, (b.hosted.kernel.tcb t).state.isDead = false →
    ∀ a, b.life.owner a = some t →
      ((b.hosted.kernel.tcb t).stacksectionLowerBound : Int) ≤ 4 * a ∧ 4 * a + 4 ≤
        ((b.hosted.kernel.tcb t).stacksectionLowerBound + (sizeofCpuRegister + STACK_SIZE) : Nat)

theorem boardInv_stacksKept (h : BoardInv P finishTask b v) : StacksKept b := by
  intro t ht halive a ha
  rcases h.stack t ((h.mirrors.dead t ht).trans halive) with ⟨d, hd⟩
  rw [← hd.own ht, ← hd.size]
  exact hd.words a ha

/-- Before the start the kernel has no task, and nobody is alive. -/
theorem initialized_boardInv (hinitialized : Initialized b.hosted.kernel)
    (hgrounded : Grounded b.hosted v) (hnodes : v.nodes = []) (hblank : Blank b.life) :
    BoardInv P finishTask b v := by
  rcases initScheduler_inv hinitialized with ⟨_, _, _, hboot⟩
  have hinv := hgrounded.inv
  have hnobody : ∀ t, t ∉ b.hosted.kernel.live := by
    intro t ht
    rcases (consistent_live_iff hinv.consistent t).mp ht with ⟨n, hn, _⟩
    rw [hnodes] at hn
    exact absurd hn List.not_mem_nil
  have hdead : ∀ t, b.life.cpu.finished t ≠ false := fun t hc =>
    Bool.noConfusion ((hblank.finished t).symm.trans hc)
  refine ⟨hgrounded, ⟨⟨hblank.started.trans hboot.symm, ?_, ?_, fun hc => ?_,
    fun t ht => absurd ht (hnobody t), fun t ht => absurd ht (hnobody t)⟩,
    fun t ht => absurd ht (hdead t)⟩, blank_inv hblank, fun t ht => absurd ht (hdead t)⟩
  · rw [hblank.pendsv, (hinv.boot hboot).1]
  · rw [hblank.current, currentTask, if_pos (hinv.boot hboot).2.1]
  · exact Bool.noConfusion (hboot.symm.trans hc)

/-- In every run of the board from the boot on whose events meet the condition, with the
    kernel on its allocator and the registers, the memory and the stacks of the tasks:
    the kernel's part is a run of the kernel, and the processor's part is a run of the
    processor that meets its condition; in the end the two agree, the words of each live
    task lie in the chunk of its stack, and a task that goes on after a supervisor call
    has the registers it had; and whatever the kernel can do next, the processor can do
    its part of. -/
theorem board_runs {b₀ b : Board} {es : List BoardEvent} (hinit : HostedInitialized b₀.hosted)
    (hblank : Blank b₀.life) (hmeets : Meets (boardStep P finishTask) (BoardBalanced P) es b₀)
    (hrun : run (boardStep P finishTask) es b₀ = some b)
    (hbytes : b.hosted.client.heap.usedBytes < 65536) :
    (∃ hs, run hostedStep hs b₀.hosted = some b.hosted ∧ ∀ e ∈ hs, SmallRequest e) ∧
      (∃ ls, run (lifeStep P finishTask) ls b₀.life = some b.life ∧
        Meets (lifeStep P finishTask) (LifeBalanced P) ls b₀.life) ∧
      Accords b.life b.hosted.kernel ∧ StacksKept b ∧
      (b.life.started = true → Resumed b.life.cpu) ∧
      ∀ e f h', (∀ e' ∈ kernelEvent e b.hosted, Accompanied b.life b.hosted.kernel e') →
        BoardBalanced P b (.kernel e f) → hostedStep e b.hosted = some h' →
        h'.client.heap.usedBytes < 65536 →
        ∃ l', boardStep P finishTask (.kernel e f) b = some { hosted := h', life := l' } := by
  rcases boardRun_hosted hmeets hrun with ⟨hs, hhosted, hsmall⟩
  rcases hosted_start hinit hsmall hhosted hbytes with ⟨hinitialized, hg₀⟩
  rcases boardRun_inv (initialized_boardInv hinitialized hg₀ rfl hblank) hmeets hrun hbytes with
    ⟨hlife, v, hinv'⟩
  refine ⟨⟨hs, hhosted, hsmall⟩, hlife, hinv'.mirrors.toAccords, boardInv_stacksKept hinv',
    fun hstarted => (hinv'.inv.running hstarted).inv.resumed,
    fun e f h' haccompanied hC hstep hbytes' => ?_⟩
  rcases kernel_boardInv hinv' haccompanied hC hstep hbytes' with ⟨l', _, hl', _, _⟩
  refine ⟨l', ?_⟩
  rw [boardStep, if_pos haccompanied, hstep]
  dsimp only
  rw [hl', Option.map_some]

end Board

section Example

/-- What `execPriv` calls here does nothing. -/
def stillPlatform : Platform Addr :=
  { owner := fun _ => none, privileged := fun _ c => c, rxState := 0x20000040#32, systick := true }

/-- The condition when whatever `execPriv` may call is ordinary. -/
def BoardPlain (b : Board) : BoardEvent → Prop
  | .kernel e _ => SmallRequest e ∧
      ∀ e' ∈ kernelEvent e b.hosted, KernelBalanced stillPlatform b.life b.hosted.kernel e'
  | .run e => Plain (stillPlatform.over b.life.owner) b.life.cpu e

instance (b : Board) : DecidablePred (BoardPlain b)
  | .kernel e _ => inferInstanceAs (Decidable (SmallRequest e ∧
      ∀ e' ∈ kernelEvent e b.hosted, KernelBalanced stillPlatform b.life b.hosted.kernel e'))
  | .run e => inferInstanceAs (Decidable (Plain (stillPlatform.over b.life.owner) b.life.cpu e))

theorem boardBalanced_of_plain (b : Board) (e : BoardEvent) (h : BoardPlain b e) :
    BoardBalanced stillPlatform b e := by
  cases e with
  | kernel e f => exact h
  | run e => exact balanced_of_plain (fun _ c => ordinary_refl c) b.life.cpu e h

/-- The board before the first task is created. -/
def blankBoard : Board :=
  { hosted := freshHosted
    life :=
      { cpu :=
          { mem := fun _ => 0#32
            psp := 0
            high := fun _ => 0#32
            low := fun _ => 0#32
            pendsv := false
            sysTick := false
            primask := false
            ioHandler := 0#32
            sp := fun _ => 0
            currentlyRunning := none
            taskToPreserve := NULL
            finished := fun _ => true
            issued := fun _ => none }
        owner := fun _ => none
        started := false
        entry := fun _ => none } }

/-- A task yields to the idle task, goes on after that and finishes. The idle task reaps it
    and creates another one. -/
def boardRound : List BoardEvent :=
  [.kernel (.createIdle 7#32 3) 0x08000400#32, .kernel (.createTask 7#32 3 0) 0x08000800#32,
    .kernel (.schedule .runScheduler) 0#32,
    .run (.compute (trapRegisters 2#32) (fun _ => 7#32) 134219620), .run .svc,
    .kernel (.schedule (.wakeupPid 0)) 0#32, .kernel (.schedule (.pendsv 536878416)) 0#32,
    .run (.compute (trapRegisters 2#32) (fun _ => 8#32) 134219200), .run .svc,
    .kernel (.schedule (.pendsv 536876736)) 0#32,
    .kernel (.schedule (.finishTask blankTcb)) 0#32,
    .kernel (.schedule (.pendsv 536878448)) 0#32, .kernel (.searchInvalidateTasks 7#32) 0#32,
    .kernel (.createTask 7#32 3 0) 0x08000C00#32]

theorem board_runs_round :
    Ends (boardStep stillPlatform 0x08000200#32) boardRound blankBoard fun b =>
      Accords b.life b.hosted.kernel ∧ StacksKept b ∧ Resumed b.life.cpu ∧
        ∃ b', boardStep stillPlatform 0x08000200#32
          (.kernel (.createTask 7#32 3 0) 0x08001000#32) b = some b' := by
  have hmeets : Meets (boardStep stillPlatform 0x08000200#32) (BoardBalanced stillPlatform)
      boardRound blankBoard := by
    refine meets_mono _ boardBalanced_of_plain ?_
    decide +kernel
  have hends : Ends (boardStep stillPlatform 0x08000200#32) boardRound blankBoard fun b =>
      b.hosted.client.heap.usedBytes < 65536 ∧ b.life.started = true ∧
        (∀ e' ∈ kernelEvent (.createTask 7#32 3 0) b.hosted,
          Accompanied b.life b.hosted.kernel e') ∧
        BoardPlain b (.kernel (.createTask 7#32 3 0) 0x08001000#32) ∧
        Ends hostedStep [.createTask 7#32 3 0] b.hosted fun h =>
          h.client.heap.usedBytes < 65536 := by decide +kernel
  have hblank : Blank blankBoard.life :=
    ⟨rfl, fun _ => rfl, fun _ => rfl, rfl, rfl, fun _ => rfl⟩
  rcases hends with ⟨b, hrun, hbytes, hstarted, haccompanied, hplain, h', hcreate, hbytes'⟩
  rcases board_runs freshHosted_initialized hblank hmeets hrun hbytes with
    ⟨_, _, hagrees, hstacks, hresumed, hnext⟩
  rcases run_cons hostedStep hcreate with ⟨h₁, hstep, hlast⟩
  rw [← Option.some.inj hlast] at hbytes'
  rcases hnext _ 0x08001000#32 h₁ haccompanied (boardBalanced_of_plain b _ hplain) hstep hbytes'
    with ⟨l', hboard⟩
  exact ⟨b, hrun, hagrees, hstacks, hresumed hstarted, _, hboard⟩

end Example

end NextLevelRTOS
