import NextLevelRTOS.Core.Start
import NextLevelRTOS.Process.Requests

/-!
# The Kernel Behind the Switch

The machine of registers and stacks leaves open which task a switch selects,
and takes the task it saves to be the one that runs. The kernel of queues and
control blocks decides both. This module ties them together: `Mirrors` says
that the processor and the kernel agree on the stored stack pointers, on who
is dead and on the two pointers of the scheduler, and each event of the kernel
keeps the agreement when the processor does its part.

The kernel counts the stack pointer in bytes, the processor in words. What it
takes that a control block may be used again is that everybody the processor
thinks alive has a chunk: the control block of a task, or of one whose
creation failed when its context was in place already.

## Main definitions

* `currentTask`: The task of `currently_running`, if there is one.
* `Accords`: The processor accords with the kernel.
* `Mirrors`: They agree, and whoever is alive has a chunk.
* `Rearranged`: Tasks have moved between the queues.
* `Settled`: A creation got as far as the context.
* `Dies`: The current task has finished or is invalid.

## Theorems

* `switchTask_sp`, `blockCurrentTask_sp`: Stored stack pointers are left alone.
* `pendsvIsr_sp`: The one that is written is that of the task to preserve.
* `mirrors_ready`: A task that the kernel finds ready is alive.
* `mirrors_rearranged`, `mirrors_context`, `mirrors_reaped`, `mirrors_dies`,
  `mirrors_pendsv`: The agreement is kept.
-/

namespace NextLevelRTOS

open Machine

/-- The task of `currently_running`, if there is one. -/
def currentTask (s : Kernel) : Option Addr :=
  if s.currentlyRunning = NULL then none else some (s.dataOf s.currentlyRunning)

/-- The processor accords with the kernel: whether tasks run, the pointers of the scheduler and,
    of each live task, its stack pointer and whether it is dead. -/
structure Accords (l : Life Addr) (s : Kernel) : Prop where
  started : l.started = s.booted
  pendsv : l.cpu.pendsv = s.pendsv
  current : l.cpu.currentlyRunning = currentTask s
  preserve : s.booted = true → l.cpu.taskToPreserve = s.dataOf s.taskToPreserve
  sp : ∀ t ∈ s.live, ((s.tcb t).sp : Int) = 4 * l.cpu.sp t
  dead : ∀ t ∈ s.live, l.cpu.finished t = (s.tcb t).state.isDead

/-- The processor accords with the kernel, and whoever it takes to be alive has a chunk. -/
structure Mirrors (l : Life Addr) (s : Kernel) (v : View) : Prop extends Accords l s where
  used : ∀ t, l.cpu.finished t = false → t ∈ s.live ∨ t ∈ v.leaked

section StackPointers

/-- No stored stack pointer differs. -/
def SameSp (s s' : Kernel) : Prop := ∀ t, (s'.tcb t).sp = (s.tcb t).sp

theorem setState_sp (s : Kernel) (t : Addr) (state : TaskState) :
    SameSp s (s.setState t state) := by
  intro u
  by_cases hu : u = t
  · simp only [Kernel.setState, hu, Function.update_self]
  · simp only [Kernel.setState, Function.update_of_ne hu]

theorem wakeNode_sp (q : Addr) (s : Kernel) : SameSp s (wakeNode q s) := by
  rw [wakeNode_eq]
  exact setState_sp s (s.dataOf q) .READY

theorem blockCurrentTask_sp (s : Kernel) : SameSp s (blockCurrentTask s) := by
  rw [blockCurrentTask_eq]
  exact setState_sp s (s.dataOf s.currentlyRunning) .WAITING

theorem wakeupPid_sp (pid : Nat) (s : Kernel) : SameSp s (wakeupPid pid s).2 :=
  wakeupPid_keeps (fun _ _ => rfl) wakeNode_sp pid s

theorem wakeJoiningParent_sp (stale : Tcb) (t : Addr) (s : Kernel) :
    SameSp s (wakeJoiningParent stale t s) := by
  unfold wakeJoiningParent
  dsimp only
  split
  · exact wakeupPid_sp _ s
  · exact fun _ => rfl

theorem ensureRunning_sp {s s' : Kernel} (h : ensureRunning s = some s') : SameSp s s' := by
  unfold ensureRunning at h
  split at h
  · split at h
    · exact absurd h (by simp only [reduceCtorEq, not_false_eq_true])
    · rw [← Option.some.inj h]
      exact wakeupPid_sp _ s
  · rw [← Option.some.inj h]
    exact fun _ => rfl

theorem runScheduler_sp (s : Kernel) : SameSp s (runScheduler s).2 := by
  unfold runScheduler
  cases h : ensureRunning s with
  | none => exact fun _ => rfl
  | some s₁ =>
      have hsp := ensureRunning_sp h
      dsimp only
      split
      · exact hsp
      · exact hsp

/-- Stored stack pointers are left alone by `switch_task`. -/
theorem switchTask_sp (s : Kernel) : SameSp s (switchTask s) := by
  refine KeptBySwitch.switchTask ⟨fun _ _ => rfl, fun h h' t => ?_, wakeNode_sp, fun t s => ?_,
    fun _ _ _ _ => rfl⟩ s
  · exact (h' t).trans (h t)
  · exact setState_sp s t .READY

theorem setTcb_sp (s : Kernel) (t : Addr) (psp : Addr) (u : Addr) :
    ((s.setTcb t { s.tcb t with sp := psp }).tcb u).sp =
      Function.update (fun u => (s.tcb u).sp) t psp u := by
  by_cases hu : u = t
  · simp only [Kernel.setTcb, hu, Function.update_self]
  · simp only [Kernel.setTcb, Function.update_of_ne hu]

/-- The one block `pendsv_isr` writes is that of the task to preserve. -/
theorem pendsvIsr_sp (psp : Addr) (s : Kernel) (t : Addr) : ((pendsvIsr psp s).tcb t).sp =
    Function.update (fun t => (s.tcb t).sp) (s.dataOf s.taskToPreserve) psp t :=
  (switchTask_sp _ t).trans (setTcb_sp { s with pendsv := false } _ psp t)

end StackPointers

/-! ### Moves between the queues -/

/-- Tasks have moved between the queues. -/
structure Rearranged (s s' : Kernel) : Prop where
  sp : SameSp s s'
  dead : SameDead s s'
  data : s'.node.data = s.node.data

section Moves

variable {s s' s'' : Kernel} {v v' : View} {l l' : Life Addr}

theorem rearranged_refl (s : Kernel) : Rearranged s s :=
  ⟨fun _ => rfl, sameDead_refl s, rfl⟩

theorem wakeupPid_rearranged (h : Consistent s v) (pid : Nat) :
    Rearranged s (wakeupPid pid s).2 :=
  ⟨wakeupPid_sp pid s, wakeupPid_sameDead h pid, (wakeupPid_frame pid s).data⟩

theorem blockCurrentTask_rearranged (h : Inv s v) (hthread : Thread s) :
    Rearranged s (blockCurrentTask s) :=
  ⟨blockCurrentTask_sp s, blockCurrentTask_sameDead h hthread, (blockCurrentTask_frame s).data⟩

theorem runScheduler_rearranged (h : Consistent s v) : Rearranged s (runScheduler s).2 :=
  ⟨runScheduler_sp s, runScheduler_sameDead h, (runScheduler_frame s).data⟩

theorem wakeJoiningParent_rearranged (h : Consistent s v) (stale : Tcb) (t : Addr) :
    Rearranged s (wakeJoiningParent stale t s) := by
  refine ⟨wakeJoiningParent_sp stale t s, ?_, (wakeJoiningParent_frame stale t s).data⟩
  unfold wakeJoiningParent
  dsimp only
  split
  · exact wakeupPid_sameDead h _
  · exact sameDead_refl s

theorem rearranged_dataOf (h : Rearranged s s') (n : Addr) : s'.dataOf n = s.dataOf n :=
  congrFun h.data n

/-- The current task is that of the current node. -/
theorem currentTask_congr (hcurrent : s'.currentlyRunning = s.currentlyRunning)
    (hdata : s.currentlyRunning ≠ NULL →
      s'.dataOf s.currentlyRunning = s.dataOf s.currentlyRunning) :
    currentTask s' = currentTask s := by
  rw [currentTask, currentTask, hcurrent]
  by_cases h : s.currentlyRunning = NULL
  · rw [if_pos h, if_pos h]
  · rw [if_neg h, if_neg h, hdata h]

/-- Where nobody dies and no stack pointer is stored, the pointers of the
    scheduler are what there is to check. -/
theorem mirrors_rearranged (h : Mirrors l s v) (hmove : Rearranged s s')
    (hleaked : v'.leaked = v.leaked) (hsp : l'.cpu.sp = l.cpu.sp)
    (hfinished : l'.cpu.finished = l.cpu.finished) (hstarted : l'.started = s'.booted)
    (hpendsv : l'.cpu.pendsv = s'.pendsv) (hcurrent : l'.cpu.currentlyRunning = currentTask s')
    (hpreserve : s'.booted = true → l'.cpu.taskToPreserve = s'.dataOf s'.taskToPreserve) :
    Mirrors l' s' v' := by
  refine ⟨⟨hstarted, hpendsv, hcurrent, hpreserve, fun t ht => ?_, fun t ht => ?_⟩, fun t ht => ?_⟩
  · rw [hmove.dead.live] at ht
    rw [hmove.sp t, hsp]
    exact h.sp t ht
  · rw [hmove.dead.live] at ht
    rw [hmove.dead.state t ht, hfinished]
    exact h.dead t ht
  · rw [hfinished] at ht
    rw [hmove.dead.live, hleaked]
    exact h.used t ht

/-- A wakeup is nothing to the processor. -/
theorem mirrors_wakeupPid (h : Mirrors l s v) (hcons : Consistent s v) (pid : Nat)
    (hleaked : v'.leaked = v.leaked) : Mirrors l (wakeupPid pid s).2 v' := by
  have hmove := wakeupPid_rearranged hcons pid
  have hcontrol := wakeupPid_control pid s
  refine mirrors_rearranged h hmove hleaked rfl rfl (h.started.trans hcontrol.booted.symm)
    (h.pendsv.trans hcontrol.pendsv.symm) (h.current.trans ?_) fun hb => ?_
  · exact (currentTask_congr hcontrol.current fun _ => rearranged_dataOf hmove _).symm
  · rw [hcontrol.booted] at hb
    rw [hcontrol.preserve, rearranged_dataOf hmove]
    exact h.preserve hb

/-- In thread code the task to preserve is the current one. -/
theorem mirrors_executing (h : Mirrors l s v) (hinv : Inv s v) (hthread : Thread s) :
    l.cpu.taskToPreserve = s.dataOf s.currentlyRunning ∧
      l.cpu.currentlyRunning = some (s.dataOf s.currentlyRunning) := by
  constructor
  · rw [h.preserve hthread.1, (hinv.thread hthread).2]
  · rw [h.current, currentTask, if_neg hthread.2.2]

end Moves

/-! ### Births and deaths -/

section Births

variable {s s' : Kernel} {v v' : View} {l : Life Addr} {c : Chunks} {ramLocation : Addr}

theorem consistent_leaked_occupied (h : Consistent s v) {a : Addr} (ha : a ∈ v.leaked) :
    a ∈ s.occupied :=
  h.heap.mem_iff.mpr (List.mem_append_left _ (List.mem_append_right _ ha))

/-- Nobody is alive with a control block that is not in use. -/
theorem mirrors_free (h : Mirrors l s v) (hcons : Consistent s v) {t : Addr}
    (ht : t ∉ s.occupied) : l.cpu.finished t = true := by
  by_contra hc
  rcases h.used t (Bool.eq_false_iff.mpr hc) with hlive | hleaked
  · exact ht (consistent_live_occupied hcons hlive)
  · exact ht (consistent_leaked_occupied hcons hleaked)

/-- A creation leaves the pointers of the scheduler alone. -/
theorem untouched_currentTask (hinv : Inv s v) (hkeep : Untouched c s s') :
    currentTask s' = currentTask s :=
  currentTask_congr hkeep.current fun hne => hkeep.data _
    (consistent_node_occupied hinv.consistent (List.mem_append_left _ (hinv.current hne)))

theorem untouched_preserve (hinv : Inv s v) (hkeep : Untouched c s s')
    (hthread : s.booted = false ∨ Thread s) (hb : s.booted = true) :
    s'.dataOf s'.taskToPreserve = s.dataOf s.taskToPreserve := by
  rcases hthread with hboot | hthread
  · exact Bool.noConfusion (hboot.symm.trans hb)
  · rw [hkeep.preserve]
    exact hkeep.data _ (consistent_node_occupied hinv.consistent
      (inv_preserve_current hinv hthread).2)

/-- The stack that is prepared for a new task. -/
theorem createTask_sp (finishTask : Word) {address : Int} (f : Word) (s : Kernel)
    (haddress : (c.stack : Int) = 4 * address) :
    ((newTcb c ramLocation s).sp : Int) =
      4 * (l.createTask finishTask c.tcb address f).cpu.sp c.tcb := by
  have hwords : (l.createTask finishTask c.tcb address f).cpu.sp c.tcb = address + 368 :=
    (freshContext_createTask l c.tcb address f).sp
  have hbytes : (newTcb c ramLocation s).sp = c.stack + 1536 - 64 := rfl
  rw [hwords, hbytes]
  omega

/-- A chunk that a failed creation has taken is leaked. -/
theorem notCreated_leaked (hcons : Consistent s v) (hkeep : Untouched c s s')
    (h : NotCreated s s' v v') {a : Addr} (ha : a ∈ s'.occupied) (hnew : a ∉ s.occupied) :
    a ∈ v'.leaked := by
  have hnodes : v'.nodes = v.nodes := by rw [View.nodes, View.nodes, h.running, h.waiting]
  rcases List.mem_append.mp (h.consistent.heap.mem_iff.mp ha) with ha | ha
  · rcases List.mem_append.mp ha with ha | ha
    · rw [h.images] at ha
      exact absurd (hcons.heap.mem_iff.mpr
        (List.mem_append_left _ (List.mem_append_left _ ha))) hnew
    · exact ha
  · -- What a task owns it has owned before.
    rcases List.mem_flatMap.mp ha with ⟨n, hn, ha⟩
    rw [hnodes] at hn
    have hlive := (consistent_live_iff hcons _).mpr ⟨n, hn, rfl⟩
    have hdata := hkeep.data n (consistent_node_occupied hcons hn)
    rw [Kernel.owns, hdata, hkeep.tcb _ hlive] at ha
    exact absurd (consistent_owns_occupied hcons hn ha) hnew

/-- A creation that fails before the context is in place. -/
theorem mirrors_notCreated (h : Mirrors l s v) (hinv : Inv s v) (hkeep : Untouched c s s')
    (hthread : s.booted = false ∨ Thread s) (hnot : NotCreated s s' v v') : Mirrors l s' v' := by
  refine ⟨⟨h.started.trans hkeep.booted.symm, h.pendsv.trans hkeep.pendsv.symm,
    h.current.trans (untouched_currentTask hinv hkeep).symm, fun hb => ?_, fun t ht => ?_,
    fun t ht => ?_⟩, fun t ht => ?_⟩
  · rw [hkeep.booted] at hb
    rw [untouched_preserve hinv hkeep hthread hb]
    exact h.preserve hb
  · rw [hnot.live] at ht
    rw [hkeep.tcb t ht]
    exact h.sp t ht
  · rw [hnot.live] at ht
    rw [hkeep.tcb t ht]
    exact h.dead t ht
  · rcases hnot.leaked with ⟨taken, hleaked⟩
    rw [hnot.live, hleaked]
    exact (h.used t ht).imp_right (List.mem_append_right _)

/-- A creation that got as far as the context: the task is in a queue, or its chunks are
    leaked. -/
structure Settled (c : Chunks) (ramLocation : Addr) (s s' : Kernel) (v v' : View) : Prop where
  live : s'.live = s.live ∨ s'.live = s.live ++ [c.tcb]
  task : c.tcb ∈ s'.live → s'.tcb c.tcb = newTcb c ramLocation s
  leaked : ∀ a ∈ v.leaked, a ∈ v'.leaked
  failed : c.tcb ∉ s'.live → c.tcb ∈ v'.leaked ∧ c.stack ∈ v'.leaked

theorem creation_settled (hcons : Consistent s v) (hkeep : Untouched c s s')
    (hout : NotCreated s s' v v' ∨ Created c ramLocation s s' v v')
    (htakes : c.stack ∈ s'.occupied ∧ c.tcb ∈ s'.occupied) (hstack : c.stack ∉ s.occupied)
    (htcb : c.tcb ∉ s.occupied) : Settled c ramLocation s s' v v' := by
  rcases hout with hnot | hnew
  · refine ⟨Or.inl hnot.live, fun hc => ?_, fun a ha => ?_, fun _ => ⟨?_, ?_⟩⟩
    · exact absurd (consistent_live_occupied hcons (hnot.live ▸ hc)) htcb
    · rcases hnot.leaked with ⟨taken, hleaked⟩
      rw [hleaked]
      exact List.mem_append_right _ ha
    · exact notCreated_leaked hcons hkeep hnot htakes.2 htcb
    · exact notCreated_leaked hcons hkeep hnot htakes.1 hstack
  · refine ⟨Or.inr hnew.live, fun _ => hnew.tcb, fun a ha => ?_, fun hc => ?_⟩
    · rw [hnew.view, insert_leaked]
      exact List.mem_append_right _ ha
    · rw [hnew.live] at hc
      exact absurd (List.mem_append_right _ List.mem_cons_self) hc

/-- The context of a task is in place, whether it gets into a queue or not. -/
theorem mirrors_context (h : Mirrors l s v) (hinv : Inv s v) (hkeep : Untouched c s s')
    (hthread : s.booted = false ∨ Thread s) {finishTask f : Word} {address : Int}
    (haddress : (c.stack : Int) = 4 * address) (hnew : c.tcb ∉ s.occupied)
    (hsettled : Settled c ramLocation s s' v v') :
    Mirrors (l.createTask finishTask c.tcb address f) s' v' := by
  have hcases : ∀ t ∈ s'.live, t ∈ s.live ∨ t = c.tcb := by
    intro t ht
    rcases hsettled.live with hsame | happend
    · exact Or.inl (hsame ▸ ht)
    · rw [happend] at ht
      exact (List.mem_append.mp ht).imp_right List.mem_singleton.mp
  have hstay : ∀ t ∈ s.live, t ∈ s'.live := by
    intro t ht
    rcases hsettled.live with hsame | happend
    · rwa [hsame]
    · rw [happend]
      exact List.mem_append_left _ ht
  have hne : ∀ t ∈ s.live, t ≠ c.tcb := by
    rintro t ht rfl
    exact hnew (consistent_live_occupied hinv.consistent ht)
  refine ⟨⟨h.started.trans hkeep.booted.symm, h.pendsv.trans hkeep.pendsv.symm,
    h.current.trans (untouched_currentTask hinv hkeep).symm, fun hb => ?_, fun t ht => ?_,
    fun t ht => ?_⟩, fun t ht => ?_⟩
  · rw [hkeep.booted] at hb
    rw [untouched_preserve hinv hkeep hthread hb]
    exact h.preserve hb
  · rcases hcases t ht with hold | rfl
    · rw [hkeep.tcb t hold, h.sp t hold]
      exact congrArg (4 * ·) (Function.update_of_ne (hne t hold) _ _).symm
    · rw [hsettled.task ht]
      exact createTask_sp finishTask f s haddress
  · rcases hcases t ht with hold | rfl
    · rw [hkeep.tcb t hold, ← h.dead t hold]
      exact Function.update_of_ne (hne t hold) _ _
    · -- A new task is ready or waits.
      have halive : (newTcb c ramLocation s).state.isDead = false := by
        rcases newTcb_state c ramLocation s with hst | hst <;> rw [hst] <;> rfl
      rw [hsettled.task ht, halive]
      exact Function.update_self ..
  · by_cases htc : t = c.tcb
    · rw [htc]
      by_cases hlive : c.tcb ∈ s'.live
      · exact Or.inl hlive
      · exact Or.inr (hsettled.failed hlive).1
    · have hold : l.cpu.finished t = false := (Function.update_of_ne htc _ _).symm.trans ht
      exact (h.used t hold).imp (hstay t) (hsettled.leaked t)

/-- The idle task cleans up. -/
theorem mirrors_reaped (h : Mirrors l s v) (hcons : Consistent s v) (hreaped : Reaped s s' v v') :
    Mirrors l s' v' := by
  have hdata : ∀ n, s'.dataOf n = s.dataOf n := congrFun hreaped.data
  refine ⟨⟨h.started.trans hreaped.booted.symm, h.pendsv.trans hreaped.pendsv.symm,
    h.current.trans (currentTask_congr hreaped.current fun _ => hdata _).symm, fun hb => ?_,
    fun t ht => ?_, fun t ht => ?_⟩, fun t ht => ?_⟩
  · rw [hreaped.booted] at hb
    rw [hreaped.preserve, hdata]
    exact h.preserve hb
  · rw [hreaped.tcb]
    exact h.sp t (hreaped.live.subset ht)
  · rw [hreaped.tcb]
    exact h.dead t (hreaped.live.subset ht)
  · rcases h.used t ht with hlive | hleaked
    · exact Or.inl (reaped_live hcons hreaped hlive ((h.dead t hlive).symm.trans ht))
    · exact Or.inr (hreaped.leaked t hleaked)

/-- The current task has finished or is invalid, and a switch is requested. -/
structure Dies (s s' : Kernel) : Prop where
  booted : s'.booted = s.booted
  pendsv : s'.pendsv = true
  current : s'.currentlyRunning = s.currentlyRunning
  preserve : s'.taskToPreserve = s.taskToPreserve
  data : s'.node.data = s.node.data
  live : s'.live = s.live
  sp : SameSp s s'
  dead : ∀ t ∈ s.live, (s'.tcb t).state.isDead =
    if t = s.dataOf s.currentlyRunning then true else (s.tcb t).state.isDead

theorem setState_dead (s : Kernel) (t u : Addr) {state : TaskState} (hdead : state.isDead = true) :
    ((s.setState t state).tcb u).state.isDead =
      if u = t then true else (s.tcb u).state.isDead := by
  rw [setState_state]
  by_cases h : u = t
  · rw [if_pos h, if_pos h, hdead]
  · rw [if_neg h, if_neg h]

theorem finishTask_dies (hinv : Inv s v) (hthread : Thread s) (stale : Tcb) :
    Dies s (finishTask stale s) := by
  have hset := (setState_current_moved hinv hthread
    (show TaskState.FINISHED ≠ .WAITING from fun hc => TaskState.noConfusion hc)).consistent
  have hwake := wakeJoiningParent_rearranged hset stale (s.dataOf s.currentlyRunning)
  have hcontrol : SameControl (s.setState (s.dataOf s.currentlyRunning) .FINISHED)
      (wakeJoiningParent stale (s.dataOf s.currentlyRunning)
        (s.setState (s.dataOf s.currentlyRunning) .FINISHED)) := by
    unfold wakeJoiningParent
    dsimp only
    split
    · exact wakeupPid_control _ _
    · exact sameControl_refl _
  refine ⟨hcontrol.booted, rfl, hcontrol.current, hcontrol.preserve, hwake.data, hwake.dead.live,
    fun t => (hwake.sp t).trans (setState_sp s _ .FINISHED t), fun t ht => ?_⟩
  exact (hwake.dead.state t ht).trans (setState_dead s _ t rfl)

theorem invalidateCurrentTask_dies (s : Kernel) : Dies s (invalidateCurrentTask s) :=
  ⟨rfl, rfl, rfl, rfl, rfl, rfl, setState_sp s _ .INVALID, fun t _ => setState_dead s _ t rfl⟩

/-- The processor has entered the exception of a task that is dead. -/
theorem mirrors_dies (h : Mirrors l s v) (hinv : Inv s v) (hthread : Thread s) (hdies : Dies s s')
    (hleaked : v'.leaked = v.leaked) :
    Mirrors { l with cpu := { l.cpu.proceed.enterException with
      finished := Function.update l.cpu.finished l.cpu.taskToPreserve true
      pendsv := true } } s' v' := by
  have hdata : ∀ n, s'.dataOf n = s.dataOf n := congrFun hdies.data
  have hself := (mirrors_executing h hinv hthread).1
  refine ⟨⟨h.started.trans hdies.booted.symm, hdies.pendsv.symm,
    h.current.trans (currentTask_congr hdies.current fun _ => hdata _).symm, fun hb => ?_,
    fun t ht => ?_, fun t ht => ?_⟩, fun t ht => ?_⟩
  · rw [hdies.booted] at hb
    rw [hdies.preserve, hdata]
    exact h.preserve hb
  · rw [hdies.live] at ht
    rw [hdies.sp t]
    exact h.sp t ht
  · rw [hdies.live] at ht
    rw [hdies.dead t ht, hself]
    by_cases hcur : t = s.dataOf s.currentlyRunning
    · rw [if_pos hcur, hcur]
      exact Function.update_self ..
    · rw [if_neg hcur, ← h.dead t ht]
      exact Function.update_of_ne hcur _ _
  · rw [hdies.live, hleaked]
    by_cases hcur : t = l.cpu.taskToPreserve
    · rw [hcur] at ht
      exact Bool.noConfusion ((Function.update_self ..).symm.trans ht)
    · exact h.used t ((Function.update_of_ne hcur _ _).symm.trans ht)

end Births

/-! ### The switch -/

section Switch

variable {s : Kernel} {v v' : View} {l : Life Addr}

/-- A task that the kernel finds ready is alive. -/
theorem mirrors_ready {s' : Kernel} (h : Mirrors l s v) (hsame : SameDead s s')
    (hcons : Consistent s' v') {n : Addr} (hn : n ∈ v'.nodes) (hready : s'.stateOf n = .READY) :
    l.cpu.finished (s'.dataOf n) = false := by
  have hlive := (consistent_live_iff hcons _).mpr ⟨n, hn, rfl⟩
  have hstate : (s'.tcb (s'.dataOf n)).state = .READY := hready
  rw [hsame.live] at hlive
  rw [h.dead _ hlive, ← hsame.state _ hlive, hstate]
  rfl

/-- The switch saves and resumes the tasks that the kernel says. -/
theorem mirrors_pendsv (h : Mirrors l s v) (hinv : Inv s v) {psp : Addr}
    (hpsp : (psp : Int) = 4 * l.cpu.psp) (hpend : s.pendsv = true) (hno : ¬ Revives s)
    (hchosen : Chosen (pendsvIsr psp s) v') (hleaked : v'.leaked = v.leaked)
    (entry : Addr → Option Word) :
    Mirrors { l with
      cpu := (l.cpu.pendsvIsr ((pendsvIsr psp s).dataOf
        (pendsvIsr psp s).currentlyRunning)).leaveException
      entry := entry } (pendsvIsr psp s) v' := by
  rcases pendsvIsr_moved hinv psp with ⟨_, _, _, _, hclear, hbooted⟩
  have hsame := pendsvIsr_sameDead hinv psp hno
  have hboot : s.booted = true := by
    by_contra hc
    exact Bool.noConfusion (hpend.symm.trans (hinv.boot (Bool.eq_false_iff.mpr hc)).1)
  refine ⟨⟨h.started.trans hbooted.symm, hclear.symm, (if_neg hchosen.nonnull).symm, fun _ => ?_,
    fun t ht => ?_, fun t ht => ?_⟩, fun t ht => ?_⟩
  · rw [hchosen.preserve]
    rfl
  · rw [hsame.live] at ht
    rw [pendsvIsr_sp]
    simp only [Cpu.leaveException, Cpu.pendsvIsr, h.preserve hboot]
    by_cases hself : t = s.dataOf s.taskToPreserve
    · rw [hself, Function.update_self, Function.update_self]
      exact hpsp
    · rw [Function.update_of_ne hself, Function.update_of_ne hself]
      exact h.sp t ht
  · rw [hsame.live] at ht
    rw [hsame.state t ht]
    exact h.dead t ht
  · rw [hsame.live, hleaked]
    exact h.used t ht

end Switch

end NextLevelRTOS
