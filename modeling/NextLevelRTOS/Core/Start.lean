import NextLevelRTOS.Core.Resume

/-!
# The First Run of a Task

`create_task` gives a new task a stack and a context at its upper end, as if the task had
been switched out: `prepare_cpu_register` clears the sixteen registers and sets the
address of the function, the status word, and the link register, through which the
function returns to `finish_task`. The first task is started by the trap `execPspTask`
at the end of the boot, every other one by the first switch that selects it. Until then
other tasks run, are switched, create more tasks and finish, and the memory of those that
have finished is used again.

The block has room for the context behind the stack, but the context is put into the
stack, so the upper sixteen words are never used.

## Main definitions

* `prepareCpuRegister`: The function.
* `Life`, `lifeStep`: The processor, with tasks that are created.
* `FreshContext`: A task that has not run yet.
* `StartsAt`: A task that runs for the first time.

## Theorems

* `prepareCpuRegister_word`: What is in memory afterwards.
* `taskStep_foreign`: A step leaves the other tasks alone.
* `lifeStep_kept`: The invariant is preserved.
* `tasks_start`: The first run of every task, and what it finds after its calls.
-/

namespace NextLevelRTOS

open Machine

/-- `STACK_SIZE`, in words. -/
def stackWords : Nat := 384

/-- The size of `CpuRegister_t`, in words. -/
def cpuRegisterWords : Nat := 16

/-- `THUMB_STATE` -/
def THUMB_STATE : Word := 1#32 <<< 24

/-- `prepare_cpu_register`: the pointer that it returns, and the memory. Addresses and sizes
    are in words. -/
def prepareCpuRegister (finishTask : Word) (address : Int) (bufferSize : Nat)
    (taskFunction : Word) (mem : Int → Word) : Int × (Int → Word) :=
  let cpuRegister := address + bufferSize - cpuRegisterWords
  let mem := Block.store mem cpuRegister fun _ : Fin cpuRegisterWords => 0#32
  let mem := Block.store mem address
    fun _ : Fin (stackWords - cpuRegisterWords) => 0xA5A5A5A5#32
  let mem := Function.update mem (cpuRegister + 15) THUMB_STATE
  let mem := Function.update mem (cpuRegister + 14) taskFunction
  let mem := Function.update mem (cpuRegister + 13) finishTask
  (cpuRegister, mem)

/-- The registers that the processor pops: all are zero but the last three. -/
def startFrame (finishTask taskFunction : Word) : Registers := fun i =>
  if i.val = 5 then finishTask
  else if i.val = 6 then taskFunction
  else if i.val = 7 then THUMB_STATE
  else 0#32

/-- The link register in the handler of an exception that `bootstrap` takes. -/
def EXC_RETURN_MSP : Word := 0xFFFFFFF9#32

/-- The processor, whose stack a word belongs to, whether the first task has been started,
    and the functions of the tasks that have not run yet. -/
structure Life (τ : Type) where
  cpu : Cpu τ
  owner : Int → Option τ
  started : Bool
  entry : τ → Option Word

/-- What can happen. -/
inductive LifeEvent (τ : Type) where
  /-- `create_task`, with the block of the stack. -/
  | createTask (t : τ) (address : Int) (taskFunction : Word)
  /-- The end of `run_scheduler`, with the task at the head of the queue. -/
  | runScheduler (t : τ)
  /-- `svcall(execPspTask)` at the end of `bootstrap`. -/
  | start
  | task (e : TaskEvent τ)

/-- The task that a switch selects. -/
def TaskEvent.selected {τ : Type} : TaskEvent τ → Option τ
  | pendsv next => some next
  | _ => none

/-- The platform with the stacks as they are. -/
def Platform.over {τ : Type} (P : Platform τ) (owner : Int → Option τ) : Platform τ :=
  { P with owner := owner }

namespace Life

variable {τ : Type} [DecidableEq τ] (s : Life τ)

omit [DecidableEq τ] in
/-- The word is not in use. -/
def free (a : Int) : Bool :=
  match s.owner a with
  | none => true
  | some t => s.cpu.finished t

/-- The context of a new task. -/
def createTask (finishTask : Word) (t : τ) (address : Int) (taskFunction : Word) : Life τ :=
  let prepared := prepareCpuRegister finishTask address stackWords taskFunction s.cpu.mem
  { cpu := { s.cpu.proceed with
      mem := prepared.2
      sp := Function.update s.cpu.sp t prepared.1
      finished := Function.update s.cpu.finished t false
      issued := Function.update s.cpu.proceed.issued t none }
    owner := fun a =>
      if address ≤ a ∧ a < address + (cpuRegisterWords + stackWords : Nat) then some t
      else if s.owner a = some t then none
      else s.owner a
    started := s.started
    entry := Function.update s.entry t (some taskFunction) }

/-- The first task is started from the main stack. -/
def start (P : Platform τ) : Option (Life τ) :=
  ((s.cpu.setR6 0#32).svcallIsr P EXC_RETURN_MSP).map fun c =>
    { s with
      cpu := c.leaveException
      started := true
      entry := Function.update s.entry s.cpu.taskToPreserve none }

end Life

section Step

variable {τ : Type} [DecidableEq τ] (P : Platform τ) (finishTask : Word)

/-- The effect of an event. A task is created while no switch is pending, with an identity
    and a block of memory that are not in use. -/
def lifeStep (e : LifeEvent τ) (s : Life τ) : Option (Life τ) :=
  match e with
  | .createTask t address taskFunction =>
    if s.cpu.pendsv = false ∧ s.cpu.finished t = true ∧
        ∀ i : Fin (cpuRegisterWords + stackWords), s.free (address + i.val) = true then
      some (s.createTask finishTask t address taskFunction)
    else none
  | .runScheduler t =>
    if s.started = false ∧ s.cpu.finished t = false then
      some { s with cpu := { s.cpu with currentlyRunning := some t, taskToPreserve := t } }
    else none
  | .start => if s.started = false then s.start P else none
  | .task e =>
    if s.started = true then
      (taskStep (P.over s.owner) e s.cpu).map fun c =>
        { s with
          cpu := c
          entry := match e.selected with
            | some next => Function.update s.entry next none
            | none => s.entry }
    else none

/-- The condition on an event. -/
def LifeBalanced (s : Life τ) : LifeEvent τ → Prop
  | .task e => Balanced (P.over s.owner) s.cpu e
  | _ => True

/-- The event is the first that lets the task run. -/
def Selects (s : Life τ) (t : τ) : LifeEvent τ → Prop
  | .start => s.cpu.taskToPreserve = t
  | .task e => e.selected = some t
  | _ => False

end Step

section Contexts

variable {τ : Type} (finishTask : Word)

/-- The task has its context and a stack that nobody has used yet. -/
structure FreshContext (s : Life τ) (t : τ) (f : Word) (address : Int) : Prop where
  sp : s.cpu.sp t = address + 368
  own : ∀ a, address ≤ a → a < address + 400 → s.owner a = some t
  high : Block.load 8 s.cpu.mem (address + 368) = fun _ => 0#32
  low : Block.load 8 s.cpu.mem (address + 376) = startFrame finishTask f
  stack : ∀ a, address ≤ a → a < address + 368 → s.cpu.mem a = 0xA5A5A5A5#32

/-- The task runs, from the beginning of its function and with an empty stack of 384 words
    of its own. The function returns to `finish_task`. -/
structure StartsAt (s : Life τ) (t : τ) (f : Word) : Prop where
  current : s.cpu.taskToPreserve = t
  high : s.cpu.high = fun _ => 0#32
  low : s.cpu.low = startFrame finishTask f
  stack : ∃ address, s.cpu.psp = address + 384 ∧
    (∀ a, address ≤ a → a < address + 400 → s.owner a = some t) ∧
    ∀ a, address ≤ a → a < address + 368 → s.cpu.mem a = 0xA5A5A5A5#32

/-- Before the first task is started. -/
structure Booting (s : Life τ) : Prop where
  pendsv : s.cpu.pendsv = false
  entry : ∀ t, s.cpu.finished t = false → s.entry t ≠ none
  issued : ∀ t, s.cpu.issued t = none
  chosen : ∀ t, s.cpu.currentlyRunning = some t →
    s.cpu.taskToPreserve = t ∧ s.cpu.finished t = false

/-- While tasks run. -/
structure Running (P : Platform τ) (s : Life τ) : Prop where
  inv : TaskInv (P.over s.owner) s.cpu
  entry : s.entry s.cpu.taskToPreserve = none
  alive : s.cpu.pendsv = false → s.cpu.finished s.cpu.taskToPreserve = false

/-- The invariant. -/
structure LifeInv (P : Platform τ) (s : Life τ) : Prop where
  fresh : ∀ t f, s.entry t = some f →
    s.cpu.finished t = false ∧ ∃ address, FreshContext finishTask s t f address
  booting : s.started = false → Booting s
  running : s.started = true → Running P s

/-- The states that runs start from: there is no task. -/
structure Blank (s : Life τ) : Prop where
  pendsv : s.cpu.pendsv = false
  finished : ∀ t, s.cpu.finished t = true
  issued : ∀ t, s.cpu.issued t = none
  current : s.cpu.currentlyRunning = none
  started : s.started = false
  entry : ∀ t, s.entry t = none

variable {finishTask}

theorem blank_inv {P : Platform τ} {s : Life τ} (h : Blank s) : LifeInv finishTask P s := by
  refine ⟨fun t f hf => ?_, fun _ => ⟨h.pendsv, fun t ht => ?_, h.issued, fun t ht => ?_⟩,
    fun hs => ?_⟩
  · rw [h.entry t] at hf
    exact absurd hf (by simp only [reduceCtorEq, not_false_eq_true])
  · rw [h.finished t] at ht
    exact Bool.noConfusion ht
  · rw [h.current] at ht
    exact absurd ht (by simp only [reduceCtorEq, not_false_eq_true])
  · rw [h.started] at hs
    exact Bool.noConfusion hs

end Contexts

/-! ### Creation -/

section Creation

variable {τ : Type} {finishTask : Word}

/-- What is in memory when the registers are prepared. -/
theorem prepareCpuRegister_word (address : Int) (f : Word) (mem : Int → Word) (a : Int) :
    (prepareCpuRegister finishTask address stackWords f mem).2 a =
      if a = address + 381 then finishTask
      else if a = address + 382 then f
      else if a = address + 383 then THUMB_STATE
      else if address ≤ a ∧ a < address + 368 then 0xA5A5A5A5#32
      else if address + 368 ≤ a ∧ a < address + 384 then 0#32
      else mem a := by
  dsimp only [prepareCpuRegister]
  rw [show address + (stackWords : Nat) - (cpuRegisterWords : Nat) = address + 368 by
    simp only [stackWords, cpuRegisterWords]
    omega]
  by_cases hlr : a = address + 381
  · rw [if_pos hlr, hlr, show address + 368 + 13 = address + 381 by omega, Function.update_self]
  by_cases hpc : a = address + 382
  · rw [if_neg hlr, if_pos hpc, Function.update_of_ne (by omega), hpc,
      show address + 368 + 14 = address + 382 by omega, Function.update_self]
  by_cases hpsr : a = address + 383
  · rw [if_neg hlr, if_neg hpc, if_pos hpsr, Function.update_of_ne (by omega),
      Function.update_of_ne (by omega), hpsr, show address + 368 + 15 = address + 383 by omega,
      Function.update_self]
  -- Elsewhere is what the two loops have left.
  rw [if_neg hlr, if_neg hpc, if_neg hpsr, Function.update_of_ne (by omega),
    Function.update_of_ne (by omega), Function.update_of_ne (by omega)]
  by_cases hstack : address ≤ a ∧ a < address + 368
  · rw [if_pos hstack, Block.store,
      dif_pos (by simp only [stackWords, cpuRegisterWords]; omega)]
  · rw [if_neg hstack, Block.store_outside _ _ (by simp only [stackWords, cpuRegisterWords]; omega)]
    by_cases hregister : address + 368 ≤ a ∧ a < address + 384
    · rw [if_pos hregister, Block.store, dif_pos (by simp only [cpuRegisterWords]; omega)]
    · rw [if_neg hregister, Block.store_outside _ _ (by simp only [cpuRegisterWords]; omega)]

theorem prepareCpuRegister_outside (address : Int) (f : Word) (mem : Int → Word) {a : Int}
    (h : a < address ∨ address + 384 ≤ a) :
    (prepareCpuRegister finishTask address stackWords f mem).2 a = mem a := by
  rw [prepareCpuRegister_word, if_neg (by omega), if_neg (by omega), if_neg (by omega),
    if_neg (by omega), if_neg (by omega)]

variable {s : Life τ} {t : τ} {address : Int}

/-- The block of a new task is taken from none that is alive. -/
theorem free_apart (hfree : ∀ i : Fin (cpuRegisterWords + stackWords),
    s.free (address + i.val) = true) {u : τ} (hu : s.cpu.finished u = false) {a : Int}
    (ha : s.owner a = some u) : a < address ∨ address + 400 ≤ a := by
  by_contra hin
  have hword := hfree ⟨(a - address).toNat, by simp only [stackWords, cpuRegisterWords]; omega⟩
  rw [show address + ((a - address).toNat : Int) = a by omega, Life.free, ha] at hword
  exact Bool.noConfusion (hword.symm.trans hu)

/-- A task that has not run is kept by whatever leaves its words alone. -/
theorem FreshContext.frame {s' : Life τ} {f : Word} (h : FreshContext finishTask s t f address)
    (hsp : s'.cpu.sp t = s.cpu.sp t)
    (hown : ∀ a, s.owner a = some t → s'.owner a = some t ∧ s'.cpu.mem a = s.cpu.mem a) :
    FreshContext finishTask s' t f address := by
  have hmem : ∀ a, address ≤ a → a < address + 400 → s'.cpu.mem a = s.cpu.mem a :=
    fun a hlow hhigh => (hown a (h.own a hlow hhigh)).2
  refine ⟨hsp.trans h.sp, fun a hlow hhigh => (hown a (h.own a hlow hhigh)).1, ?_, ?_,
    fun a hlow hhigh => (hmem a hlow (by omega)).trans (h.stack a hlow hhigh)⟩
  · rw [← h.high]
    exact Block.load_congr fun i => hmem _ (by omega) (by have hi := i.isLt; omega)
  · rw [← h.low]
    exact Block.load_congr fun i => hmem _ (by omega) (by have hi := i.isLt; omega)

/-- A task that has not run can be resumed, like any task that does not run. -/
theorem FreshContext.saved {P : Platform τ} {f : Word}
    (h : FreshContext finishTask s t f address) (hissued : s.cpu.issued t = none) :
    SavedContext (P.over s.owner) s.cpu t (s.cpu.sp t) := by
  refine ⟨fun a hlow hhigh => h.own a ?_ ?_, fun r hr => ?_⟩
  · rw [h.sp] at hlow
    omega
  · rw [h.sp] at hhigh
    omega
  · rw [hissued] at hr
    exact absurd hr (by simp only [reduceCtorEq, not_false_eq_true])

/-- A saved context is kept by whatever leaves the words of its task alone. -/
theorem savedContext_over {P : Platform τ} {c c' : Cpu τ} {owner owner' : Int → Option τ}
    {base : Int} (h : SavedContext (P.over owner) c t base) (hissued : c'.issued t = c.issued t)
    (hown : ∀ a, owner a = some t → owner' a = some t ∧ c'.mem a = c.mem a) :
    SavedContext (P.over owner') c' t base := by
  have hmem : ∀ a, base ≤ a → a < base + 16 → c'.mem a = c.mem a :=
    fun a hlow hhigh => (hown a (h.own a hlow hhigh)).2
  refine ⟨fun a hlow hhigh => (hown a (h.own a hlow hhigh)).1, fun r hr => ?_⟩
  rw [hissued] at hr
  rcases h.resumes r hr with ⟨hpsp, hhigh, hlow⟩
  refine ⟨hpsp, ?_, ?_⟩
  · rw [← hhigh]
    exact Block.load_congr fun i => hmem _ (by omega) (by have hi := i.isLt; omega)
  · rw [← hlow]
    exact Block.load_congr fun i => hmem _ (by omega) (by have hi := i.isLt; omega)

variable [DecidableEq τ]

/-- A new task is one that has not run. -/
theorem freshContext_createTask (s : Life τ) (t : τ) (address : Int) (f : Word) :
    FreshContext finishTask (s.createTask finishTask t address f) t f address := by
  refine ⟨?_, fun a hlow hhigh => ?_, ?_, ?_, fun a hlow hhigh => ?_⟩
  · simp only [Life.createTask, Function.update_self, prepareCpuRegister, stackWords,
      cpuRegisterWords]
    omega
  · exact if_pos ⟨hlow, by simp only [stackWords, cpuRegisterWords]; omega⟩
  · funext i
    have hi := i.isLt
    change (prepareCpuRegister finishTask address stackWords f s.cpu.mem).2 _ = _
    rw [prepareCpuRegister_word, if_neg (by omega), if_neg (by omega), if_neg (by omega),
      if_neg (by omega), if_pos (by omega)]
  · funext i
    change (prepareCpuRegister finishTask address stackWords f s.cpu.mem).2 _ = _
    rw [prepareCpuRegister_word]
    have hi := i.isLt
    rw [startFrame]
    by_cases hlr : i.val = 5
    · rw [if_pos (by omega), if_pos hlr]
    by_cases hpc : i.val = 6
    · rw [if_neg (by omega), if_pos (by omega), if_neg hlr, if_pos hpc]
    by_cases hpsr : i.val = 7
    · rw [if_neg (by omega), if_neg (by omega), if_pos (by omega), if_neg hlr, if_neg hpc,
        if_pos hpsr]
    · rw [if_neg (by omega), if_neg (by omega), if_neg (by omega), if_neg (by omega),
        if_pos (by omega), if_neg hlr, if_neg hpc, if_neg hpsr]
  · change (prepareCpuRegister finishTask address stackWords f s.cpu.mem).2 _ = _
    rw [prepareCpuRegister_word, if_neg (by omega), if_neg (by omega), if_neg (by omega),
      if_pos ⟨hlow, hhigh⟩]

/-- A creation leaves the words of the tasks that are alive as they were. -/
theorem createTask_others (hfree : ∀ i : Fin (cpuRegisterWords + stackWords),
      s.free (address + i.val) = true) (f : Word) {u : τ} (hne : u ≠ t)
    (hu : s.cpu.finished u = false) {a : Int} (ha : s.owner a = some u) :
    (s.createTask finishTask t address f).owner a = some u ∧
      (s.createTask finishTask t address f).cpu.mem a = s.cpu.mem a := by
  have hout := free_apart hfree hu ha
  constructor
  · change (if _ then _ else _) = _
    rw [if_neg (by simp only [stackWords, cpuRegisterWords]; omega), if_neg, ha]
    rw [ha]
    exact fun hc => hne (Option.some.inj hc)
  · exact prepareCpuRegister_outside address f s.cpu.mem (by omega)

/-- The words of a new task are those of its block. -/
theorem createTask_owner_self {f : Word} {a : Int}
    (h : (s.createTask finishTask t address f).owner a = some t) :
    address ≤ a ∧ a < address + 400 := by
  by_contra hout
  have howner : (s.createTask finishTask t address f).owner a =
      if s.owner a = some t then none else s.owner a := if_neg hout
  rw [howner] at h
  by_cases ht : s.owner a = some t
  · rw [if_pos ht] at h
    exact absurd h (by simp only [reduceCtorEq, not_false_eq_true])
  · rw [if_neg ht] at h
    exact ht h

/-- The words of the others were theirs. -/
theorem createTask_owner_other {f : Word} {u : τ} {a : Int} (hne : u ≠ t)
    (h : (s.createTask finishTask t address f).owner a = some u) : s.owner a = some u := by
  unfold Life.createTask at h
  dsimp only at h
  split at h
  · exact absurd (Option.some.inj h).symm hne
  · split at h
    · exact absurd h (by simp only [reduceCtorEq, not_false_eq_true])
    · exact h

/-- A task is created. -/
theorem createTask_kept {P : Platform τ} (h : LifeInv finishTask P s)
    (hpend : s.cpu.pendsv = false) (hdead : s.cpu.finished t = true)
    (hfree : ∀ i : Fin (cpuRegisterWords + stackWords), s.free (address + i.val) = true)
    (f : Word) : LifeInv finishTask P (s.createTask finishTask t address f) := by
  have hnew : FreshContext finishTask (s.createTask finishTask t address f) t f address :=
    freshContext_createTask s t address f
  have hfinished : ∀ u, u ≠ t →
      (s.createTask finishTask t address f).cpu.finished u = s.cpu.finished u :=
    fun u hne => Function.update_of_ne hne _ _
  have hissued : (s.createTask finishTask t address f).cpu.issued t = none :=
    Function.update_self ..
  have hentry : (s.createTask finishTask t address f).entry t = some f :=
    Function.update_self ..
  have hothers : ∀ u, u ≠ t →
      (s.createTask finishTask t address f).entry u = s.entry u :=
    fun u hne => Function.update_of_ne hne _ _
  -- The identity was that of no task that is alive.
  have hne_of_alive : ∀ u, s.cpu.finished u = false → u ≠ t := by
    rintro u hu rfl
    exact Bool.noConfusion (hdead.symm.trans hu)
  refine ⟨fun u g hg => ?_, fun hs => ?_, fun hs => ?_⟩
  · by_cases hut : u = t
    · subst hut
      rw [← Option.some.inj (hentry.symm.trans hg)]
      exact ⟨Function.update_self .., address, hnew⟩
    · rw [hothers u hut] at hg
      rcases h.fresh u g hg with ⟨hu, address', hfresh⟩
      exact ⟨(hfinished u hut).trans hu, address', hfresh.frame (Function.update_of_ne hut _ _)
        fun a ha => createTask_others hfree f hut hu ha⟩
  · have hboot := h.booting hs
    refine ⟨hpend, fun u hu => ?_, fun u => ?_, fun u hu => ?_⟩
    · by_cases hut : u = t
      · rw [hut, hentry]
        exact Option.some_ne_none f
      · rw [hfinished u hut] at hu
        rw [hothers u hut]
        exact hboot.entry u hu
    · by_cases hut : u = t
      · rw [hut]
        exact hissued
      · refine (Function.update_of_ne hut _ _).trans ?_
        by_cases hup : u = s.cpu.taskToPreserve
        · rw [hup]
          exact Function.update_self ..
        · exact (Function.update_of_ne hup _ _).trans (hboot.issued u)
    · rcases hboot.chosen u hu with ⟨hpreserve, halive⟩
      exact ⟨hpreserve, (hfinished u (hne_of_alive u halive)).trans halive⟩
  · have hrun := h.running hs
    have hself : s.cpu.taskToPreserve ≠ t := hne_of_alive _ (hrun.alive hpend)
    refine ⟨⟨fun _ => hrun.inv.current hpend, fun u hne hu => ?_, fun hc => ?_, fun _ r hr => ?_⟩,
      (hothers _ hself).trans hrun.entry, fun _ =>
        (hfinished _ hself).trans (hrun.alive hpend)⟩
    · by_cases hut : u = t
      · rw [hut]
        exact hnew.saved hissued
      · rw [hfinished u hut] at hu
        rw [show (s.createTask finishTask t address f).cpu.sp u = s.cpu.sp u from
          Function.update_of_ne hut _ _]
        exact savedContext_over (hrun.inv.waiting u hne hu)
          ((Function.update_of_ne hut _ _).trans (Function.update_of_ne hne _ _))
          fun a ha => createTask_others hfree f hut hu ha
    · exact Bool.noConfusion (hc.symm.trans hpend)
    · -- To create a task is no supervisor call.
      have hnone : (s.createTask finishTask t address f).cpu.issued s.cpu.taskToPreserve = none :=
        (Function.update_of_ne hself _ _).trans (Function.update_self ..)
      exact absurd (hnone.symm.trans hr) (by simp only [reduceCtorEq, not_false_eq_true])

end Creation

/-! ### The first task -/

section Boot

variable {τ : Type} [DecidableEq τ] {finishTask : Word} {P : Platform τ} {s s' : Life τ}

/-- What the trap does that starts the first task. -/
theorem start_eq (s : Life τ) (P : Platform τ) :
    s.start P = s.cpu.currentlyRunning.map fun t =>
      { s with
        cpu := { s.cpu with
          high := Block.load 8 s.cpu.mem (s.cpu.sp t)
          low := Block.load 8 s.cpu.mem (s.cpu.sp t + 8)
          psp := s.cpu.sp t + 8 + 8
          sysTick := if P.systick then false else s.cpu.sysTick }
        started := true
        entry := Function.update s.entry s.cpu.taskToPreserve none } := by
  set d : Cpu τ := s.cpu.setR6 0#32 with hd
  have hr6 : d.r6 = 0#32 := by simp only [hd, Cpu.r6, Cpu.setR6, Function.update_self]
  have hsave : d.savePspIfThreadmode EXC_RETURN_MSP = d := if_neg (by decide)
  have hcurrent : (if P.systick then { d with sysTick := false } else d).currentlyRunning =
      s.cpu.currentlyRunning := by
    cases P.systick <;> rfl
  rw [Life.start, ← hd, Cpu.svcallIsr, hr6,
    show TrapType.ofWord 0#32 = some .execPspTask by rfl]
  simp only [hsave, Cpu.handleTrap, hcurrent]
  cases s.cpu.currentlyRunning with
  | none => rfl
  | some t => cases P.systick <;> rfl

/-- A task that is selected has run, and the others wait as before. -/
theorem entry_of_selected {entry : τ → Option Word} {t u : τ} {f : Word}
    (h : Function.update entry t none u = some f) : entry u = some f := by
  by_cases hu : u = t
  · rw [hu, Function.update_self] at h
    exact absurd h (by simp only [reduceCtorEq, not_false_eq_true])
  · rwa [Function.update_of_ne hu] at h

/-- The first task is started. -/
theorem start_kept (h : LifeInv finishTask P s) (hs : s.started = false)
    (hstart : s.start P = some s') :
    LifeInv finishTask P s' ∧ ∀ f, s.entry s.cpu.taskToPreserve = some f →
      StartsAt finishTask s' s.cpu.taskToPreserve f := by
  have hboot := h.booting hs
  rw [start_eq, Option.map_eq_some_iff] at hstart
  rcases hstart with ⟨t, ht, rfl⟩
  rcases hboot.chosen t ht with ⟨hpreserve, halive⟩
  refine ⟨⟨fun u g hg => ?_, fun hc => Bool.noConfusion hc, fun _ => ⟨⟨fun _ => ?_,
    fun u hne hu => ?_, fun hc => ?_, fun _ r hr => ?_⟩, ?_, fun _ => ?_⟩⟩, fun f hf => ?_⟩
  · -- Of those that wait, nothing is touched.
    rcases h.fresh u g (entry_of_selected hg) with ⟨hu, address, hfresh⟩
    exact ⟨hu, address, hfresh.frame rfl fun a ha => ⟨ha, rfl⟩⟩
  · rw [hpreserve]
    exact ht
  · have hu : s.cpu.finished u = false := hu
    rcases Option.ne_none_iff_exists'.mp (hboot.entry u hu) with ⟨g, hg⟩
    rcases h.fresh u g hg with ⟨-, address, hfresh⟩
    exact savedContext_over (hfresh.saved (hboot.issued u)) rfl fun a ha => ⟨ha, rfl⟩
  · exact absurd (hc.symm.trans hboot.pendsv) Bool.noConfusion
  · exact absurd ((hboot.issued _).symm.trans hr) (by simp only [reduceCtorEq, not_false_eq_true])
  · exact Function.update_self ..
  · exact (congrArg s.cpu.finished hpreserve).trans halive
  · rcases h.fresh _ f hf with ⟨-, address, hfresh⟩
    rw [hpreserve] at hfresh ⊢
    refine ⟨hpreserve, ?_, ?_, address, ?_, hfresh.own, hfresh.stack⟩
    · rw [← hfresh.high, hfresh.sp]
    · rw [← hfresh.low, hfresh.sp]
      dsimp only
      rw [show address + 368 + 8 = address + 376 by omega]
    · rw [hfresh.sp]
      dsimp only
      omega

end Boot

/-! ### The steps of the tasks -/

section Tasks

variable {τ : Type} [DecidableEq τ] {finishTask : Word} {P : Platform τ}

/-- What a step of the task that runs does to the pointers of the scheduler. -/
structure OwnStep (c c' : Cpu τ) : Prop where
  before : c.pendsv = false
  sp : c'.sp = c.sp
  preserve : c'.taskToPreserve = c.taskToPreserve
  finished : ∀ u, u ≠ c.taskToPreserve → c'.finished u = c.finished u
  alive : c'.pendsv = false → c'.finished c.taskToPreserve = c.finished c.taskToPreserve

omit [DecidableEq τ] in
theorem ownStep_of_kept {c d c' : Cpu τ} (hpend : c.pendsv = false) (h : Kept P d c')
    (hsp : d.sp = c.sp) (hpreserve : d.taskToPreserve = c.taskToPreserve)
    (hfinished : d.finished = c.finished) : OwnStep c c' := by
  refine ⟨hpend, h.sp.trans hsp, h.preserve.trans hpreserve, fun u _ => ?_, fun _ => ?_⟩
  · rw [h.finished, hfinished]
  · rw [h.finished, hfinished]

/-- A step is one of the task that runs, or a switch. -/
theorem taskStep_foreign {c c' : Cpu τ} (h : TaskInv P c) {e : TaskEvent τ}
    (hC : Balanced P c e) (hstep : taskStep P e c = some c') :
    OwnStep c c' ∧ e.selected = none ∨
      ∃ next, e.selected = some next ∧ c.finished next = false ∧
        c' = (c.pendsvIsr next).leaveException := by
  cases e with
  | compute high low psp =>
      rw [taskStep, Option.ite_none_left_eq_some, Bool.not_eq_true] at hstep
      rcases hstep with ⟨hpend, hstep⟩
      rw [← Option.some.inj hstep]
      exact Or.inl ⟨⟨hpend, rfl, rfl, fun _ _ => rfl, fun _ => rfl⟩, rfl⟩
  | write a w =>
      rw [taskStep, Option.ite_none_left_eq_some, not_or, Bool.not_eq_true] at hstep
      rcases hstep with ⟨⟨hpend, -⟩, hstep⟩
      rw [← Option.some.inj hstep]
      exact Or.inl ⟨⟨hpend, rfl, rfl, fun _ _ => rfl, fun _ => rfl⟩, rfl⟩
  | svc =>
      rw [taskStep, Option.ite_none_left_eq_some, Bool.not_eq_true] at hstep
      rcases hstep with ⟨hpend, hstep⟩
      rcases hC with ⟨hroom, htrap⟩
      refine Or.inl ⟨?_, rfl⟩
      rcases svc_cases hpend hroom htrap hstep with hret | hsusp
      · exact ownStep_of_kept hpend hret.toKept rfl rfl rfl
      · exact ownStep_of_kept hpend hsusp.toKept rfl rfl rfl
  | blockCurrentTask predecessor =>
      rw [taskStep, Option.ite_none_left_eq_some, Bool.not_eq_true] at hstep
      rcases hstep with ⟨hpend, hstep⟩
      rw [h.current hpend] at hstep
      refine Or.inl ⟨ownStep_of_kept hpend (svc_yield ?_ hstep).toKept rfl rfl rfl, rfl⟩
      rw [Cpu.r6]
      simp only [Function.update_self]
      rfl
  | finishTask =>
      rw [taskStep, Option.ite_none_left_eq_some, Bool.not_eq_true] at hstep
      rcases hstep with ⟨hpend, hstep⟩
      rw [← Option.some.inj hstep]
      exact Or.inl ⟨⟨hpend, rfl, rfl, fun u hne => Function.update_of_ne hne _ _,
        fun hc => Bool.noConfusion hc⟩, rfl⟩
  | pendsv next =>
      rw [taskStep, Option.ite_none_right_eq_some] at hstep
      rcases hstep with ⟨⟨-, hfinished⟩, hstep⟩
      exact Or.inr ⟨next, rfl, hfinished, (Option.some.inj hstep).symm⟩

variable {s s' : Life τ}

omit [DecidableEq τ] in
/-- The task goes on, or asks for a switch. -/
theorem ownStep_kept (h : LifeInv finishTask P s) (hs : s.started = true) {c' : Cpu τ}
    (hown : OwnStep s.cpu c') (hinv : TaskInv (P.over s.owner) c')
    (hmem : ∀ a t, s.owner a = some t → t ≠ s.cpu.taskToPreserve → c'.mem a = s.cpu.mem a) :
    LifeInv finishTask P { s with cpu := c' } := by
  have hrun := h.running hs
  refine ⟨fun u g hg => ?_, fun hc => Bool.noConfusion (hs.symm.trans hc),
    fun _ => ⟨hinv, ?_, fun hpend => ?_⟩⟩
  · -- It is not one of those that have not run.
    have hne : u ≠ s.cpu.taskToPreserve := by
      rintro rfl
      exact absurd (hrun.entry.symm.trans hg) (by simp only [reduceCtorEq, not_false_eq_true])
    rcases h.fresh u g hg with ⟨hu, address, hfresh⟩
    exact ⟨(hown.finished u hne).trans hu, address, hfresh.frame (congrFun hown.sp u)
      fun a ha => ⟨ha, hmem a u ha hne⟩⟩
  · exact (congrArg s.entry hown.preserve).trans hrun.entry
  · dsimp only at hpend ⊢
    rw [hown.preserve, hown.alive hpend]
    exact hrun.alive hown.before

/-- Another task is selected, perhaps for the first time. -/
theorem switch_kept (h : LifeInv finishTask P s) (hs : s.started = true) {next : τ}
    (hnext : s.cpu.finished next = false)
    (hinv : TaskInv (P.over s.owner) (s.cpu.pendsvIsr next).leaveException)
    (hs' : s' = { s with
      cpu := (s.cpu.pendsvIsr next).leaveException
      entry := Function.update s.entry next none }) :
    LifeInv finishTask P s' ∧ ∀ f, s.entry next = some f → StartsAt finishTask s' next f := by
  have hrun := h.running hs
  have hsp : ∀ u f, s.entry u = some f →
      Function.update s.cpu.sp s.cpu.taskToPreserve s.cpu.psp u = s.cpu.sp u := by
    intro u f hf
    refine Function.update_of_ne ?_ _ _
    rintro rfl
    exact absurd (hrun.entry.symm.trans hf) (by simp only [reduceCtorEq, not_false_eq_true])
  rw [hs']
  refine ⟨⟨fun u g hg => ?_, fun hc => Bool.noConfusion (hs.symm.trans hc),
    fun _ => ⟨hinv, Function.update_self .., fun _ => hnext⟩⟩, fun f hf => ?_⟩
  · have hg := entry_of_selected hg
    rcases h.fresh u g hg with ⟨hu, address, hfresh⟩
    exact ⟨hu, address, hfresh.frame (hsp u g hg) fun a ha => ⟨ha, rfl⟩⟩
  · rcases h.fresh next f hf with ⟨-, address, hfresh⟩
    have hbase : Function.update s.cpu.sp s.cpu.taskToPreserve s.cpu.psp next = address + 368 :=
      (hsp next f hf).trans hfresh.sp
    refine ⟨rfl, ?_, ?_, address, ?_, hfresh.own, hfresh.stack⟩
    · simp only [Cpu.leaveException, Cpu.pendsvIsr, hbase]
      exact hfresh.high
    · simp only [Cpu.leaveException, Cpu.pendsvIsr, hbase]
      rw [show address + 368 + 8 = address + 376 by omega]
      exact hfresh.low
    · simp only [Cpu.leaveException, Cpu.pendsvIsr, hbase]
      omega

/-- What a step keeps, and where a task starts that is selected. -/
theorem lifeStep_kept (h : LifeInv finishTask P s) {e : LifeEvent τ}
    (hC : LifeBalanced P s e) (hstep : lifeStep P finishTask e s = some s') :
    LifeInv finishTask P s' ∧ ∀ t f, Selects s t e → s.entry t = some f →
      StartsAt finishTask s' t f := by
  cases e with
  | createTask t address f =>
      rw [lifeStep, Option.ite_none_right_eq_some, Option.some.injEq] at hstep
      rcases hstep with ⟨⟨hpend, hdead, hfree⟩, rfl⟩
      exact ⟨createTask_kept h hpend hdead hfree f, fun _ _ hselects _ => hselects.elim⟩
  | runScheduler t =>
      rw [lifeStep, Option.ite_none_right_eq_some, Option.some.injEq] at hstep
      rcases hstep with ⟨⟨hs, halive⟩, rfl⟩
      have hboot := h.booting hs
      refine ⟨⟨fun u g hg => ?_, fun _ => ⟨hboot.pendsv, hboot.entry, hboot.issued, fun u hu => ?_⟩,
        fun hc => Bool.noConfusion (hs.symm.trans hc)⟩, fun _ _ hselects _ => hselects.elim⟩
      · rcases h.fresh u g hg with ⟨hu, address, hfresh⟩
        exact ⟨hu, address, hfresh.frame rfl fun a ha => ⟨ha, rfl⟩⟩
      · rw [← Option.some.inj hu]
        exact ⟨rfl, halive⟩
  | start =>
      rw [lifeStep, Option.ite_none_right_eq_some] at hstep
      rcases start_kept h hstep.1 hstep.2 with ⟨hinv, hstarts⟩
      refine ⟨hinv, fun t f hselects hf => ?_⟩
      rw [← show s.cpu.taskToPreserve = t from hselects] at hf ⊢
      exact hstarts f hf
  | task e =>
      rw [lifeStep, Option.ite_none_right_eq_some, Option.map_eq_some_iff] at hstep
      rcases hstep with ⟨hs, c', hstep, hs'⟩
      have hrun := h.running hs
      rcases taskInv_step hrun.inv hC hstep with ⟨hinv, hmem⟩
      rcases taskStep_foreign hrun.inv hC hstep with ⟨hown, hnone⟩ | ⟨next, hnext, hfinished, rfl⟩
      · rw [hnone] at hs'
        rw [← hs']
        refine ⟨ownStep_kept h hs hown hinv hmem, fun t f hselects _ => ?_⟩
        exact absurd (hnone.symm.trans hselects) (by simp only [reduceCtorEq, not_false_eq_true])
      · rw [hnext] at hs'
        rcases switch_kept h hs hfinished hinv hs'.symm with ⟨hinv', hstarts⟩
        refine ⟨hinv', fun t f hselects hf => ?_⟩
        rw [← Option.some.inj (hnext.symm.trans hselects)] at hf ⊢
        exact hstarts f hf

/-- Every run keeps the invariant. -/
theorem lifeInv_run {es : List (LifeEvent τ)} (h : LifeInv finishTask P s)
    (hmeets : Meets (lifeStep P finishTask) (LifeBalanced P) es s)
    (hrun : run (lifeStep P finishTask) es s = some s') : LifeInv finishTask P s' :=
  run_invariant (lifeStep P finishTask) (LifeInv finishTask P)
    (fun _ _ _ hs hC hst => (lifeStep_kept hs hC hst).1) es s s' h hmeets hrun

/-- In every run from the boot on whose events are balanced, whatever is created, switched
    and finished in the meantime: a task that is selected for the first time starts at its
    function, and a task that goes on after a supervisor call has the registers it had. -/
theorem tasks_start {s₀ : Life τ} {es : List (LifeEvent τ)} {e : LifeEvent τ}
    (hstart : Blank s₀)
    (hmeets : Meets (lifeStep P finishTask) (LifeBalanced P) (es ++ [e]) s₀)
    (hrun : run (lifeStep P finishTask) es s₀ = some s)
    (hstep : lifeStep P finishTask e s = some s') :
    (∀ t f, Selects s t e → s.entry t = some f → StartsAt finishTask s' t f) ∧
      (s'.started = true → Resumed s'.cpu) := by
  rcases meets_append (lifeStep P finishTask) hmeets hrun with ⟨hfirst, hlast⟩
  have hinv := lifeInv_run (blank_inv hstart) hfirst hrun
  rcases lifeStep_kept hinv hlast.1 hstep with ⟨hinv', hstarts⟩
  exact ⟨hstarts, fun hs => (hinv'.running hs).inv.resumed⟩

end Tasks

section TwoTasks

/-- What `execPriv` calls here does nothing. -/
def quietPlatform : Platform Bool :=
  { owner := fun _ => none, privileged := fun _ c => c, rxState := 0x20000040#32, systick := true }

/-- The condition when whatever `execPriv` may call is ordinary. -/
def LifePlain (s : Life Bool) : LifeEvent Bool → Prop
  | .task e => Plain (quietPlatform.over s.owner) s.cpu e
  | _ => True

instance (s : Life Bool) (e : LifeEvent Bool) : Decidable (LifePlain s e) :=
  match e with
  | .createTask _ _ _ => isTrue trivial
  | .runScheduler _ => isTrue trivial
  | .start => isTrue trivial
  | .task e => inferInstanceAs (Decidable (Plain (quietPlatform.over s.owner) s.cpu e))

theorem lifeBalanced_of_plain (s : Life Bool) (e : LifeEvent Bool) (h : LifePlain s e) :
    LifeBalanced quietPlatform s e := by
  cases e with
  | task e => exact balanced_of_plain (fun _ c => ordinary_refl c) s.cpu e h
  | createTask t address f => trivial
  | runScheduler t => trivial
  | start => trivial

/-- No task has been created. -/
def blankLife : Life Bool :=
  { cpu :=
      { mem := fun a => BitVec.ofInt 32 a
        psp := 0
        high := fun _ => 0#32
        low := fun _ => 0#32
        pendsv := false
        sysTick := false
        primask := false
        ioHandler := 0#32
        sp := fun _ => 0
        currentlyRunning := none
        taskToPreserve := false
        finished := fun _ => true
        issued := fun _ => none }
    owner := fun _ => none
    started := false
    entry := fun _ => none }

/-- The first task creates a second one and yields. -/
def firstCreatesSecond : List (LifeEvent Bool) :=
  [.createTask false 0 0x08000400#32, .runScheduler false, .start,
    .createTask true 400 0x08000800#32,
    .task (.compute (trapRegisters 2#32) (fun _ => 7#32) 380), .task .svc]

/-- The second task starts. -/
theorem tasks_start_second :
    Ends (lifeStep quietPlatform 0x08000200#32) firstCreatesSecond blankLife fun s =>
      ∃ s', lifeStep quietPlatform 0x08000200#32 (.task (.pendsv true)) s = some s' ∧
        StartsAt 0x08000200#32 s' true 0x08000800#32 ∧ Resumed s'.cpu := by
  have hends : Ends (lifeStep quietPlatform 0x08000200#32) firstCreatesSecond blankLife fun s =>
      s.cpu.pendsv = true ∧ s.cpu.finished true = false ∧ s.started = true ∧
        s.entry true = some 0x08000800#32 := by
    decide +kernel
  have hmeets : Meets (lifeStep quietPlatform 0x08000200#32) (LifeBalanced quietPlatform)
      (firstCreatesSecond ++ [.task (.pendsv true)]) blankLife := by
    refine meets_mono (lifeStep quietPlatform 0x08000200#32) lifeBalanced_of_plain ?_
    decide +kernel
  have hblank : Blank blankLife := ⟨rfl, fun _ => rfl, fun _ => rfl, rfl, rfl, fun _ => rfl⟩
  rcases hends with ⟨s, hrun, hpend, hfinished, hs, hentry⟩
  have hstep : lifeStep quietPlatform 0x08000200#32 (.task (.pendsv true)) s =
      some { s with
        cpu := (s.cpu.pendsvIsr true).leaveException
        entry := Function.update s.entry true none } := by
    rw [lifeStep, if_pos hs, taskStep, if_pos ⟨hpend, hfinished⟩]
    rfl
  rcases tasks_start hblank hmeets hrun hstep with ⟨hstarts, hresumed⟩
  exact ⟨s, hrun, _, hstep, hstarts true _ rfl hentry, hresumed hs⟩

end TwoTasks

end NextLevelRTOS
