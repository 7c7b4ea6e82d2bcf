import NextLevelRTOS.Core.Exception

/-!
# Resuming after a Supervisor Call

What a task finds when it goes on after `svc`. The frame of the processor and
the eight registers `svcall_isr` saves take sixteen words below the stack
pointer. Either the trap pops them again, in the same call, or they stay where
they are until `pendsv_isr` pops them, however many switches later; nobody
writes to them in between, because they lie in the task's own stack.

Two traps break the pairing. `getIoBuffer` returns without popping what
`svcall_isr` pushed, so the processor takes `r4` to `r11` for its own frame.
`execPspTask`, which starts the first task, loads the registers a task had
when it was last switched out, or created. Besides these, sixteen words of the
task's own stack have to be free, and code called by `execPriv` has to leave
the tasks alone. `Balanced` is the conjunction.

## Main definitions

* `Resumed`: A task that goes on has the registers it had.
* `Room`, `Ordinary`, `Balanced`: The condition on an event.
* `framed`: The memory with the two frames of a supervisor call.
* `Returned`, `Suspended`: The two ways a supervisor call ends.
* `SavedContext`, `TaskInv`: The invariant.
* `Started`: The states runs start from.

## Theorems

* `svc_cases`: A balanced call returns or suspends the task.
* `taskInv_step`: The invariant is preserved.
* `foreign_step`: A step writes to no other task's stack.
* `resumes_after_svc`: Both hold along every balanced run.
* `getIoBuffer_corrupts`: A task that asks for the IO buffer.
-/

namespace NextLevelRTOS

open Machine

variable {τ : Type}

/-- A task that goes on after a supervisor call has the stack pointer, `r4` to
    `r11` and the other registers it had. -/
def Resumed (c : Cpu τ) : Prop :=
  c.pendsv = false → ∀ r, c.issued c.taskToPreserve = some r →
    c.psp = r.psp ∧ c.high = r.high ∧ c.low = r.low

section Condition

variable (P : Platform τ)

/-- The next `n` words of the stack belong to the task that runs. -/
def Room (n : Nat) (c : Cpu τ) : Prop :=
  ∀ i : Fin n, P.owner (c.psp - 1 - i.val) = some c.taskToPreserve

/-- Stacks, stack pointers and the scheduler are left alone. -/
structure Ordinary (c c' : Cpu τ) : Prop where
  psp : c'.psp = c.psp
  pendsv : c'.pendsv = c.pendsv
  sp : c'.sp = c.sp
  current : c'.currentlyRunning = c.currentlyRunning
  preserve : c'.taskToPreserve = c.taskToPreserve
  finished : c'.finished = c.finished
  issued : c'.issued = c.issued
  mem : ∀ a t, P.owner a = some t → c'.mem a = c.mem a

/-- The trap pops what it pushed, or has it popped by the switch. -/
def BalancedTrap (c : Cpu τ) (trap : TrapType) : Prop :=
  trap ≠ .execPspTask ∧ trap ≠ .getIoBuffer ∧
    (trap = .execPriv → Ordinary P c (P.privileged (c.r9 ||| 1#32) c))

/-- The condition on an event. -/
def Balanced [DecidableEq τ] (c : Cpu τ) : TaskEvent τ → Prop
  | .svc => Room P 16 c ∧ ∀ trap, TrapType.ofWord c.r6 = some trap →
      BalancedTrap P (c.issue.enterException.savePspIfThreadmode EXC_RETURN) trap
  | .blockCurrentTask _ => Room P 16 c
  | .finishTask => Room P 8 c
  | _ => True

end Condition

/-- The memory with the two frames of a supervisor call. -/
def framed (c : Cpu τ) : Int → Word :=
  Block.store (Block.store c.mem (c.psp - 8) c.low) (c.psp - 8 - 8) c.high

section Frames

variable {P : Platform τ} {c d : Cpu τ}

theorem savePsp_enter (c : Cpu τ) : c.enterException.savePspIfThreadmode EXC_RETURN =
    { c with mem := framed c, psp := c.psp - 8 - 8 } :=
  if_pos (by decide)

theorem load_framed_high (c : Cpu τ) : Block.load 8 (framed c) (c.psp - 8 - 8) = c.high :=
  Block.load_store _ _ _

theorem load_framed_low (c : Cpu τ) : Block.load 8 (framed c) (c.psp - 8) = c.low := by
  rw [framed, Block.load_store_apart _ _ (Or.inr (by omega))]
  exact Block.load_store _ _ _

theorem framed_outside (c : Cpu τ) {a : Int} (h : a < c.psp - 8 - 8 ∨ c.psp ≤ a) :
    framed c a = c.mem a := by
  rw [framed, Block.store_outside _ _ (by omega), Block.store_outside _ _ (by omega)]

theorem room_owner {n : Nat} (h : Room P n c) {a : Int} (hlow : c.psp - n ≤ a)
    (hhigh : a < c.psp) : P.owner a = some c.taskToPreserve := by
  have howner := h ⟨(c.psp - 1 - a).toNat, by omega⟩
  rwa [show c.psp - 1 - ((c.psp - 1 - a).toNat : Int) = a by omega] at howner

/-- The frames are written to the stack of the task itself. -/
theorem framed_foreign (h : Room P 16 c) {a : Int} {t : τ} (ha : P.owner a = some t)
    (hne : t ≠ c.taskToPreserve) : framed c a = c.mem a := by
  refine framed_outside c ?_
  by_contra hin
  have howner := room_owner h (a := a) (by omega) (by omega)
  rw [ha] at howner
  exact hne (Option.some.inj howner)

/-- Popping both frames gives back all registers. -/
theorem pop_frames (hroom : Room P 16 c) (hpsp : d.psp = c.psp - 8 - 8)
    (hmem : ∀ a t, P.owner a = some t → d.mem a = framed c a) :
    d.restorePsp.leaveException.psp = c.psp ∧ d.restorePsp.leaveException.high = c.high ∧
      d.restorePsp.leaveException.low = c.low := by
  have hown : ∀ a, c.psp - 8 - 8 ≤ a → a < c.psp → d.mem a = framed c a := fun a hlow hhigh =>
    hmem a _ (room_owner hroom (by omega) hhigh)
  refine ⟨?_, ?_, ?_⟩
  · simp only [Cpu.restorePsp, Cpu.leaveException]
    omega
  · simp only [Cpu.restorePsp, Cpu.leaveException]
    rw [← load_framed_high c, hpsp]
    exact Block.load_congr fun i => hown _ (by omega) (by have hi := i.isLt; omega)
  · simp only [Cpu.restorePsp, Cpu.leaveException]
    rw [← load_framed_low c, hpsp, Int.sub_add_cancel]
    exact Block.load_congr fun i => hown _ (by omega) (by have hi := i.isLt; omega)

end Frames

/-- What a supervisor call leaves alone. -/
structure Kept (P : Platform τ) (c c' : Cpu τ) : Prop where
  sp : c'.sp = c.sp
  current : c'.currentlyRunning = c.currentlyRunning
  preserve : c'.taskToPreserve = c.taskToPreserve
  finished : c'.finished = c.finished
  issued : c'.issued = c.issued
  mem : ∀ a t, P.owner a = some t → c'.mem a = framed c a

/-- The call returned, and the task goes on. -/
structure Returned (P : Platform τ) (c c' : Cpu τ) : Prop extends Kept P c c' where
  pendsv : c'.pendsv = false
  psp : c'.psp = c.psp
  high : c'.high = c.high
  low : c'.low = c.low

/-- The call requested a switch, and both frames are on the stack. -/
structure Suspended (P : Platform τ) (c c' : Cpu τ) : Prop extends Kept P c c' where
  pendsv : c'.pendsv = true
  psp : c'.psp = c.psp - 8 - 8

section Calls

variable {P : Platform τ} {c c' d : Cpu τ}

/-- A trap that ends with `restore_psp`. -/
theorem returned_of_restore (hroom : Room P 16 c) (hpend : c.pendsv = false)
    (hd : Ordinary P { c with mem := framed c, psp := c.psp - 8 - 8 } d) :
    Returned P c d.restorePsp.leaveException := by
  rcases pop_frames hroom hd.psp hd.mem with ⟨hpsp, hhigh, hlow⟩
  exact ⟨⟨hd.sp, hd.current, hd.preserve, hd.finished, hd.issued, hd.mem⟩,
    hd.pendsv.trans hpend, hpsp, hhigh, hlow⟩

theorem returned_of_restored (hroom : Room P 16 c) (hpend : c.pendsv = false)
    (hd : Ordinary P { c with mem := framed c, psp := c.psp - 8 - 8 } d)
    (h : c' = if d.restorePsp.pendsv then d.restorePsp else d.restorePsp.leaveException) :
    Returned P c c' := by
  have hreturned := returned_of_restore hroom hpend hd
  rw [h, if_neg (by rw [show d.restorePsp.pendsv = d.pendsv from rfl, hd.pendsv, hpend]; decide)]
  exact hreturned

theorem ordinary_refl (c : Cpu τ) : Ordinary P c c :=
  ⟨rfl, rfl, rfl, rfl, rfl, rfl, rfl, fun _ _ _ => rfl⟩

/-- A balanced trap returns to the task or suspends it. -/
theorem svcallIsr_cases (hroom : Room P 16 c) (hpend : c.pendsv = false)
    (htrap : ∀ trap, TrapType.ofWord c.r6 = some trap →
      BalancedTrap P (c.enterException.savePspIfThreadmode EXC_RETURN) trap)
    (hd : c.enterException.svcallIsr P EXC_RETURN = some d)
    (h : c' = if d.pendsv then d else d.leaveException) : Returned P c c' ∨ Suspended P c c' := by
  rw [savePsp_enter] at htrap
  rw [Cpu.svcallIsr, savePsp_enter, show c.enterException.r6 = c.r6 from rfl] at hd
  cases htr : TrapType.ofWord c.r6 with
  | none =>
      rw [htr] at hd
      exact absurd hd (by simp only [reduceCtorEq, not_false_eq_true])
  | some trap =>
      rw [htr] at hd
      rcases htrap trap htr with ⟨hstart, hbuffer, hpriv⟩
      -- The task with both frames on its stack. Every trap starts from here.
      set saved : Cpu τ := { c with mem := framed c, psp := c.psp - 8 - 8 } with hsaved
      have hrestored : ∀ x : Cpu τ, Ordinary P saved x → x.restorePsp = d →
          Returned P c c' ∨ Suspended P c c' := by
        rintro x hx rfl
        exact Or.inl (returned_of_restored hroom hpend hx h)
      -- What was pushed stays where it is; the switch follows at once.
      have hswitch : { saved with pendsv := true } = d → Returned P c c' ∨ Suspended P c c' := by
        rintro rfl
        rw [if_pos rfl] at h
        rw [h]
        exact Or.inr ⟨⟨rfl, rfl, rfl, rfl, rfl, fun _ _ _ => rfl⟩, rfl, rfl⟩
      -- One case for each trap. Two of them are not balanced, and a reset has no successor.
      cases trap with
      | execPspTask => exact absurd rfl hstart
      | printMsg => exact hswitch (Option.some.inj hd)
      | yieldTask => exact hswitch (Option.some.inj hd)
      | std =>
          refine hrestored _ ?_ (Option.some.inj hd)
          split
          · exact ⟨rfl, rfl, rfl, rfl, rfl, rfl, rfl, fun _ _ _ => rfl⟩
          · exact ordinary_refl saved
      | ste =>
          refine hrestored _ ?_ (Option.some.inj hd)
          split
          · exact ⟨rfl, rfl, rfl, rfl, rfl, rfl, rfl, fun _ _ _ => rfl⟩
          · exact ordinary_refl saved
      | reset => exact absurd hd (by simp only [Cpu.handleTrap, reduceCtorEq, not_false_eq_true])
      | execPriv => exact hrestored _ (hpriv rfl) (Option.some.inj hd)
      | wakeupPid => exact hrestored _ (ordinary_refl saved) (Option.some.inj hd)
      | setExtIoCallback =>
          exact hrestored { saved with ioHandler := saved.r9 }
            ⟨rfl, rfl, rfl, rfl, rfl, rfl, rfl, fun _ _ _ => rfl⟩ (Option.some.inj hd)
      | getIoBuffer => exact absurd rfl hbuffer
      | wakeupIoHandler =>
          refine hrestored _ (ordinary_refl saved) ?_
          rw [← Option.some.inj hd, Cpu.restorePspIfThreadmode, if_pos (by decide)]
      | disableIrReception =>
          exact hrestored { saved with primask := true }
            ⟨rfl, rfl, rfl, rfl, rfl, rfl, rfl, fun _ _ _ => rfl⟩ (Option.some.inj hd)
      | enableIrReception =>
          exact hrestored { saved with primask := false }
            ⟨rfl, rfl, rfl, rfl, rfl, rfl, rfl, fun _ _ _ => rfl⟩ (Option.some.inj hd)

/-- A balanced call returns or suspends the task. -/
theorem svc_cases [DecidableEq τ] (hpend : c.pendsv = false) (hroom : Room P 16 c)
    (htrap : ∀ trap, TrapType.ofWord c.r6 = some trap →
      BalancedTrap P (c.issue.enterException.savePspIfThreadmode EXC_RETURN) trap)
    (h : c.svc P = some c') : Returned P c.issue c' ∨ Suspended P c.issue c' := by
  rcases Option.map_eq_some_iff.mp h with ⟨d, hd, hc'⟩
  exact svcallIsr_cases hroom hpend htrap hd hc'.symm

/-- A yield suspends the task. -/
theorem svc_yield [DecidableEq τ] (htrap : TrapType.ofWord c.r6 = some .yieldTask)
    (h : c.svc P = some c') : Suspended P c.issue c' := by
  rcases Option.map_eq_some_iff.mp h with ⟨d, hd, hc'⟩
  rw [Cpu.svcallIsr, savePsp_enter, show c.issue.enterException.r6 = c.r6 from rfl, htrap] at hd
  rw [← Option.some.inj hd, if_pos rfl] at hc'
  rw [← hc']
  exact ⟨⟨rfl, rfl, rfl, rfl, rfl, fun _ _ _ => rfl⟩, rfl, rfl⟩

/-- A yield is always possible. -/
theorem svc_yields [DecidableEq τ] (htrap : TrapType.ofWord c.r6 = some .yieldTask) :
    ∃ c', c.svc P = some c' := by
  have hhandled : c.issue.enterException.svcallIsr P EXC_RETURN =
      some { c.issue.enterException.savePspIfThreadmode EXC_RETURN with pendsv := true } := by
    rw [Cpu.svcallIsr, show c.issue.enterException.r6 = c.r6 from rfl, htrap]
    rfl
  rw [Cpu.svc, hhandled]
  exact ⟨_, rfl⟩

end Calls

section Invariant

variable {P : Platform τ}

/-- A task that is not running can be resumed: its context lies in its own
    stack and is that of its last supervisor call. -/
structure SavedContext (P : Platform τ) (c : Cpu τ) (t : τ) (base : Int) : Prop where
  own : ∀ a, base ≤ a → a < base + 16 → P.owner a = some t
  resumes : ∀ r, c.issued t = some r →
    base + 16 = r.psp ∧ Block.load 8 c.mem base = r.high ∧ Block.load 8 c.mem (base + 8) = r.low

/-- The tasks that do not run can all be resumed. -/
def Waiting (P : Platform τ) (c : Cpu τ) : Prop :=
  ∀ t, t ≠ c.taskToPreserve → c.finished t = false → SavedContext P c t (c.sp t)

/-- The invariant between any two events. -/
structure TaskInv (P : Platform τ) (c : Cpu τ) : Prop where
  current : c.pendsv = false → c.currentlyRunning = some c.taskToPreserve
  waiting : Waiting P c
  pending : c.pendsv = true → c.finished c.taskToPreserve = false →
    SavedContext P c c.taskToPreserve c.psp
  resumed : Resumed c

/-- The states runs start from: one task runs, the others have a context to
    start with, and nobody has issued a supervisor call. -/
structure Started (P : Platform τ) (c : Cpu τ) : Prop where
  pendsv : c.pendsv = false
  current : c.currentlyRunning = some c.taskToPreserve
  own : ∀ t, t ≠ c.taskToPreserve → ∀ a, c.sp t ≤ a → a < c.sp t + 16 → P.owner a = some t
  issued : ∀ t, c.issued t = none

theorem started_inv {c : Cpu τ} (h : Started P c) : TaskInv P c where
  current _ := h.current
  waiting t hne _ := ⟨h.own t hne, fun r hr => by
    rw [h.issued t] at hr
    exact absurd hr (by simp only [reduceCtorEq, not_false_eq_true])⟩
  pending hpend := absurd (h.pendsv.symm.trans hpend) (by decide)
  resumed _ r hr := by
    rw [h.issued] at hr
    exact absurd hr (by simp only [reduceCtorEq, not_false_eq_true])

/-- A context is kept by whatever leaves the stack of its task alone. -/
theorem savedContext_frame {c c' : Cpu τ} {t : τ} {base : Int} (h : SavedContext P c t base)
    (hissued : c'.issued t = c.issued t)
    (hmem : ∀ a, P.owner a = some t → c'.mem a = c.mem a) : SavedContext P c' t base := by
  refine ⟨h.own, fun r hr => ?_⟩
  rw [hissued] at hr
  rcases h.resumes r hr with ⟨hpsp, hhigh, hlow⟩
  refine ⟨hpsp, ?_, ?_⟩
  · rw [← hhigh]
    exact Block.load_congr fun i => hmem _ (h.own _ (by omega) (by have hi := i.isLt; omega))
  · rw [← hlow]
    exact Block.load_congr fun i => hmem _ (h.own _ (by omega) (by have hi := i.isLt; omega))

/-- What a step of the running task leaves alone. -/
structure LocalTo (P : Platform τ) (c c' : Cpu τ) : Prop where
  sp : c'.sp = c.sp
  preserve : c'.taskToPreserve = c.taskToPreserve
  finished : ∀ t, t ≠ c.taskToPreserve → c'.finished t = c.finished t
  issued : ∀ t, t ≠ c.taskToPreserve → c'.issued t = c.issued t
  mem : ∀ a t, P.owner a = some t → t ≠ c.taskToPreserve → c'.mem a = c.mem a

/-- The contexts of the other tasks are kept by a step of the running one. -/
theorem waiting_of_local {c c' : Cpu τ} (h : Waiting P c) (hlocal : LocalTo P c c') :
    Waiting P c' := by
  intro t hne hfinished
  rw [hlocal.preserve] at hne
  rw [hlocal.finished t hne] at hfinished
  rw [hlocal.sp]
  exact savedContext_frame (h t hne hfinished) (hlocal.issued t hne)
    fun a ha => hlocal.mem a t ha hne

/-- A step that is not a supervisor call and does not suspend the task. -/
theorem proceed_inv {c c' : Cpu τ} (h : TaskInv P c) (hpend : c.pendsv = false)
    (hlocal : LocalTo P c c')
    (hpend' : c'.pendsv = c.pendsv) (hcurrent : c'.currentlyRunning = c.currentlyRunning)
    (hissued : c'.issued c.taskToPreserve = none) : TaskInv P c' := by
  refine ⟨fun _ => ?_, waiting_of_local h.waiting hlocal, fun hc => ?_, fun _ r hr => ?_⟩
  · rw [hcurrent, hlocal.preserve]
    exact h.current hpend
  · rw [hpend', hpend] at hc
    exact absurd hc (by decide)
  · rw [hlocal.preserve, hissued] at hr
    exact absurd hr (by simp only [reduceCtorEq, not_false_eq_true])

end Invariant

section Steps

variable [DecidableEq τ] {P : Platform τ} {c c' : Cpu τ}

theorem local_of_kept (hroom : Room P 16 c) (hkept : Kept P c.issue c') : LocalTo P c c' where
  sp := hkept.sp
  preserve := hkept.preserve
  finished t _ := congrFun hkept.finished t
  issued t hne := by
    rw [hkept.issued]
    exact Function.update_of_ne hne _ _
  mem a t ha hne := by
    rw [hkept.mem a t ha]
    exact framed_foreign hroom ha hne

theorem issued_of_kept (hkept : Kept P c.issue c') :
    c'.issued c'.taskToPreserve = some ⟨c.psp, c.high, c.low⟩ := by
  rw [hkept.issued, hkept.preserve]
  exact Function.update_self ..

theorem returned_inv (h : TaskInv P c) (hpend : c.pendsv = false) (hroom : Room P 16 c)
    (hret : Returned P c.issue c') : LocalTo P c c' ∧ TaskInv P c' := by
  have hlocal := local_of_kept hroom hret.toKept
  refine ⟨hlocal, fun _ => ?_, waiting_of_local h.waiting hlocal, fun hc => ?_, fun _ r hr => ?_⟩
  · rw [hret.current, hret.preserve]
    exact h.current hpend
  · rw [hret.pendsv] at hc
    exact absurd hc (by decide)
  · rw [issued_of_kept hret.toKept] at hr
    rw [← Option.some.inj hr]
    exact ⟨hret.psp, hret.high, hret.low⟩

theorem suspended_inv (h : Waiting P c) (hroom : Room P 16 c) (hsusp : Suspended P c.issue c') :
    LocalTo P c c' ∧ TaskInv P c' := by
  have hlocal := local_of_kept hroom hsusp.toKept
  have hpsp : c'.psp = c.psp - 8 - 8 := hsusp.psp
  -- The two frames below the stack pointer lie in the task's own room.
  have hmem : ∀ a, c.psp - 8 - 8 ≤ a → a < c.psp → c'.mem a = framed c a := fun a hlow hhigh =>
    hsusp.mem a _ (room_owner hroom (by omega) hhigh)
  refine ⟨hlocal, fun hc => ?_, waiting_of_local h hlocal, fun _ _ => ⟨fun a hlow hhigh => ?_,
    fun r hr => ?_⟩, fun hc => ?_⟩
  · rw [hsusp.pendsv] at hc
    exact absurd hc (by decide)
  · rw [hsusp.preserve]
    exact room_owner hroom (by omega) (by omega)
  · rw [issued_of_kept hsusp.toKept] at hr
    rw [← Option.some.inj hr, hpsp]
    refine ⟨by simp only; omega, ?_, ?_⟩
    -- What the task will get back is read from the upper frame, and the pushed
    -- registers from the lower one.
    · rw [← load_framed_high c]
      exact Block.load_congr fun i => hmem _ (by omega) (by have hi := i.isLt; omega)
    · rw [← load_framed_low c, Int.sub_add_cancel]
      exact Block.load_congr fun i => hmem _ (by omega) (by have hi := i.isLt; omega)
  · rw [hsusp.pendsv] at hc
    exact absurd hc (by decide)

theorem finishTask_local (hroom : Room P 8 c) : LocalTo P c
    { c.proceed.enterException with
      finished := Function.update c.finished c.taskToPreserve true
      pendsv := true } where
  sp := rfl
  preserve := rfl
  finished t hne := Function.update_of_ne hne _ _
  issued t hne := Function.update_of_ne hne _ _
  mem a t ha hne := by
    refine Block.store_outside _ _ ?_
    by_contra hin
    have hpsp : c.proceed.psp = c.psp := rfl
    have howner := room_owner hroom (a := a) (by omega) (by omega)
    rw [ha] at howner
    exact hne (Option.some.inj howner)

/-- Every unfinished task can be resumed from what a switch has saved. -/
theorem pendsv_context (h : TaskInv P c) (hpend : c.pendsv = true) (t : τ)
    (hfinished : c.finished t = false) :
    SavedContext P c t (Function.update c.sp c.taskToPreserve c.psp t) := by
  by_cases heq : t = c.taskToPreserve
  · rw [heq] at hfinished ⊢
    rw [Function.update_self]
    exact h.pending hpend hfinished
  · rw [Function.update_of_ne heq]
    exact h.waiting t heq hfinished

theorem pendsv_inv (h : TaskInv P c) (hpend : c.pendsv = true) {next : τ}
    (hfinished : c.finished next = false) : TaskInv P (c.pendsvIsr next).leaveException := by
  refine ⟨fun _ => rfl, fun t _ ht => ?_, fun hc => ?_, fun _ r hr => ?_⟩
  · exact savedContext_frame (pendsv_context h hpend t ht) rfl fun _ _ => rfl
  · exact absurd hc (by simp only [Cpu.leaveException, Cpu.pendsvIsr, Bool.false_eq_true,
      not_false_eq_true])
  · rcases (pendsv_context h hpend next hfinished).resumes r hr with ⟨hpsp, hhigh, hlow⟩
    refine ⟨?_, hhigh, hlow⟩
    rw [← hpsp]
    simp only [Cpu.leaveException, Cpu.pendsvIsr]
    omega

/-- A balanced event keeps the invariant and writes to no stack but that of
    the running task. -/
theorem taskInv_step (h : TaskInv P c) {e : TaskEvent τ} (hC : Balanced P c e)
    (hstep : taskStep P e c = some c') :
    TaskInv P c' ∧ ∀ a t, P.owner a = some t → t ≠ c.taskToPreserve → c'.mem a = c.mem a := by
  cases e with
  | compute high low psp =>
      simp only [taskStep] at hstep
      split at hstep
      · exact absurd hstep (by simp only [reduceCtorEq, not_false_eq_true])
      · rename_i hpend
        rw [← Option.some.inj hstep]
        refine ⟨proceed_inv h (Bool.eq_false_iff.mpr hpend) ⟨rfl, rfl, fun _ _ => rfl, fun t hne =>
          Function.update_of_ne hne _ _, fun _ _ _ _ => rfl⟩ rfl rfl (Function.update_self ..),
          fun _ _ _ _ => rfl⟩
  | write a w =>
      simp only [taskStep] at hstep
      split at hstep
      · exact absurd hstep (by simp only [reduceCtorEq, not_false_eq_true])
      · rename_i hcond
        rcases not_or.mp hcond with ⟨hpend, howner⟩
        have hforeign : ∀ b t, P.owner b = some t → t ≠ c.taskToPreserve →
            Function.update c.mem a w b = c.mem b := by
          intro b t hb hne
          refine Function.update_of_ne (fun hba => ?_) _ _
          rw [hba] at hb
          rcases not_not.mp howner with hnone | hself
          · rw [hnone] at hb
            exact absurd hb (by simp only [reduceCtorEq, not_false_eq_true])
          · rw [hself] at hb
            exact hne (Option.some.inj hb).symm
        rw [← Option.some.inj hstep]
        exact ⟨proceed_inv h (Bool.eq_false_iff.mpr hpend) ⟨rfl, rfl, fun _ _ => rfl, fun t hne =>
          Function.update_of_ne hne _ _, hforeign⟩ rfl rfl (Function.update_self ..), hforeign⟩
  | svc =>
      simp only [taskStep] at hstep
      split at hstep
      · exact absurd hstep (by simp only [reduceCtorEq, not_false_eq_true])
      · rename_i hpend
        have hpend : c.pendsv = false := Bool.eq_false_iff.mpr hpend
        rcases hC with ⟨hroom, htrap⟩
        rcases svc_cases hpend hroom htrap hstep with hret | hsusp
        · rcases returned_inv h hpend hroom hret with ⟨hlocal, hinv⟩
          exact ⟨hinv, hlocal.mem⟩
        · rcases suspended_inv h.waiting hroom hsusp with ⟨hlocal, hinv⟩
          exact ⟨hinv, hlocal.mem⟩
  | blockCurrentTask predecessor =>
      simp only [taskStep] at hstep
      split at hstep
      · exact absurd hstep (by simp only [reduceCtorEq, not_false_eq_true])
      · rename_i hpend
        rw [h.current (Bool.eq_false_iff.mpr hpend)] at hstep
        -- The task that blocks is the one to preserve already.
        set blocked : Cpu τ :=
          { c with
            taskToPreserve := c.taskToPreserve
            currentlyRunning := predecessor
            primask := false
            high := Function.update c.high 2 2#32 } with hblocked
        have htrap : TrapType.ofWord blocked.r6 = some .yieldTask := by
          have hr6 : blocked.r6 = 2#32 := by
            simp only [hblocked, Cpu.r6, Function.update_self]
          rw [hr6]
          rfl
        have hroom : Room P 16 blocked := hC
        have hwaiting : Waiting P blocked := fun t hne hfinished =>
          savedContext_frame (h.waiting t hne hfinished) rfl fun _ _ => rfl
        rcases suspended_inv hwaiting hroom (svc_yield htrap hstep) with ⟨hlocal, hinv⟩
        exact ⟨hinv, hlocal.mem⟩
  | finishTask =>
      simp only [taskStep] at hstep
      split at hstep
      · exact absurd hstep (by simp only [reduceCtorEq, not_false_eq_true])
      · have hlocal := finishTask_local hC
        rw [← Option.some.inj hstep]
        refine ⟨⟨fun hc => ?_, waiting_of_local h.waiting hlocal, fun _ hc => ?_, fun hc => ?_⟩,
          hlocal.mem⟩
        · exact Bool.noConfusion hc
        · exact Bool.noConfusion ((Function.update_self ..).symm.trans hc)
        · exact Bool.noConfusion hc
  | pendsv next =>
      simp only [taskStep] at hstep
      split at hstep
      · rename_i hcond
        rw [← Option.some.inj hstep]
        exact ⟨pendsv_inv h hcond.1 hcond.2, fun _ _ _ _ => rfl⟩
      · exact absurd hstep (by simp only [reduceCtorEq, not_false_eq_true])

/-- Along every run whose events are balanced, a task that goes on after a
    supervisor call has the registers it had, and no step writes to the stack
    of a task that is not running. -/
theorem resumes_after_svc {c₀ : Cpu τ} {es : List (TaskEvent τ)} {e : TaskEvent τ}
    (hstart : Started P c₀) (hmeets : Meets (taskStep P) (Balanced P) (es ++ [e]) c₀)
    (hrun : run (taskStep P) es c₀ = some c) (hstep : taskStep P e c = some c') :
    Resumed c' ∧ ∀ a t, P.owner a = some t → t ≠ c.taskToPreserve → c'.mem a = c.mem a := by
  rcases meets_append (taskStep P) hmeets hrun with ⟨hfirst, hlast⟩
  have hinv : TaskInv P c := run_invariant (taskStep P) (TaskInv P)
    (fun s e s' hs hC hst => (taskInv_step hs hC hst).1) es c₀ c (started_inv hstart) hfirst hrun
  rcases taskInv_step hinv hlast.1 hstep with ⟨hinv', hforeign⟩
  exact ⟨hinv'.resumed, hforeign⟩

end Steps

section TwoStacks

/-- The condition when whatever `execPriv` may call is ordinary. -/
def Plain [DecidableEq τ] (P : Platform τ) (c : Cpu τ) : TaskEvent τ → Prop
  | .svc => Room P 16 c ∧ TrapType.ofWord c.r6 ≠ some .execPspTask ∧
      TrapType.ofWord c.r6 ≠ some .getIoBuffer
  | .blockCurrentTask _ => Room P 16 c
  | .finishTask => Room P 8 c
  | _ => True

instance [DecidableEq τ] (P : Platform τ) (n : Nat) (c : Cpu τ) : Decidable (Room P n c) :=
  inferInstanceAs (Decidable (∀ _ : Fin n, _ = _))

instance [DecidableEq τ] (P : Platform τ) (c : Cpu τ) (e : TaskEvent τ) : Decidable (Plain P c e) :=
  match e with
  | .svc => inferInstanceAs (Decidable (_ ∧ _ ∧ _))
  | .blockCurrentTask _ => inferInstanceAs (Decidable (Room P 16 c))
  | .finishTask => inferInstanceAs (Decidable (Room P 8 c))
  | .compute _ _ _ => isTrue trivial
  | .write _ _ => isTrue trivial
  | .pendsv _ => isTrue trivial

theorem balanced_of_plain [DecidableEq τ] {P : Platform τ}
    (hpriv : ∀ f c, Ordinary P c (P.privileged f c)) (c : Cpu τ) (e : TaskEvent τ)
    (h : Plain P c e) : Balanced P c e := by
  cases e with
  | svc =>
      refine ⟨h.1, fun trap htrap => ⟨?_, ?_, fun _ => hpriv _ _⟩⟩
      · rintro rfl
        exact h.2.1 htrap
      · rintro rfl
        exact h.2.2 htrap
  | blockCurrentTask _ => exact h
  | finishTask => exact h
  | compute _ _ _ => trivial
  | write _ _ => trivial
  | pendsv _ => trivial

/-- Two tasks with stacks of 64 words, and a device whose register privileged
    code writes. -/
def twoStacks : Platform Bool :=
  { owner := fun a =>
      if 0 ≤ a ∧ a < 64 then some false else if 64 ≤ a ∧ a < 128 then some true else none
    privileged := fun f c => { c with mem := Function.update c.mem 200 f }
    rxState := 0x20000040#32
    systick := true }

theorem twoStacks_ordinary (f : Word) (c : Cpu Bool) :
    Ordinary twoStacks c (twoStacks.privileged f c) := by
  refine ⟨rfl, rfl, rfl, rfl, rfl, rfl, rfl, fun a t ha => Function.update_of_ne ?_ _ _⟩
  rintro rfl
  have hnone : twoStacks.owner 200 = none := by decide
  rw [hnone] at ha
  exact absurd ha (by simp only [reduceCtorEq, not_false_eq_true])

/-- The first task runs, the second has a context to start with. -/
def firstRuns : Cpu Bool :=
  { mem := fun a => BitVec.ofInt 32 a
    psp := 60
    high := fun i => BitVec.ofNat 32 i.val
    low := fun i => BitVec.ofNat 32 i.val
    pendsv := false
    sysTick := false
    primask := false
    ioHandler := 0#32
    sp := fun t => if t then 100 else 20
    currentlyRunning := some false
    taskToPreserve := false
    finished := fun _ => false
    issued := fun _ => none }

theorem firstRuns_started : Started twoStacks firstRuns where
  pendsv := rfl
  current := rfl
  own t hne a hlow hhigh := by
    cases t with
    | false => exact absurd rfl hne
    | true =>
        have hlow : (100 : Int) ≤ a := hlow
        have hhigh : a < 100 + 16 := hhigh
        simp only [twoStacks]
        rw [if_neg (by omega), if_pos (by omega)]
  issued _ := rfl

/-- Registers with this trap number in `r6`. -/
def trapRegisters (trap : Word) : Registers := fun i => if i.val = 2 then trap else 0xA5A5A5A5#32

/-- The first task calls privileged code and yields, the second enables
    interrupts and blocks. -/
def thereAndBack : List (TaskEvent Bool) :=
  [.compute (trapRegisters 6#32) (fun _ => 7#32) 50,
   .svc,
   .compute (trapRegisters 2#32) (fun _ => 8#32) 40,
   .svc,
   .pendsv true,
   .compute (trapRegisters 12#32) (fun _ => 9#32) 90,
   .svc,
   .blockCurrentTask (some false)]

theorem resumes_after_svc_thereAndBack :
    Ends (taskStep twoStacks) thereAndBack firstRuns fun c =>
      ∃ c', taskStep twoStacks (.pendsv false) c = some c' ∧
        c'.pendsv = false ∧ c'.taskToPreserve = false ∧ (c'.issued false).isSome = true ∧
        Resumed c' ∧
        ∀ a t, twoStacks.owner a = some t → t ≠ c.taskToPreserve → c'.mem a = c.mem a := by
  have hends : Ends (taskStep twoStacks) thereAndBack firstRuns fun c =>
      c.pendsv = true ∧ c.finished false = false ∧ (c.issued false).isSome = true := by
    decide +kernel
  have hmeets : Meets (taskStep twoStacks) (Balanced twoStacks) (thereAndBack ++ [.pendsv false])
      firstRuns := by
    refine meets_mono (taskStep twoStacks) (balanced_of_plain twoStacks_ordinary) ?_
    decide +kernel
  rcases hends with ⟨c, hrun, hpend, hfinished, hissued⟩
  have hstep : taskStep twoStacks (.pendsv false) c = some (c.pendsvIsr false).leaveException :=
    if_pos ⟨hpend, hfinished⟩
  rcases resumes_after_svc firstRuns_started hmeets hrun hstep with ⟨hresumed, hforeign⟩
  exact ⟨c, hrun, _, hstep, rfl, rfl, hissued, hresumed, hforeign⟩

/-- A task asks for the IO buffer, with the address of its next instruction in
    `r10` and its status word in `r11`. -/
def askForBuffer : List (TaskEvent Bool) :=
  [.compute
      (fun i => if i.val = 2 then 9#32 else if i.val = 5 then 800#32
        else if i.val = 6 then 0x08001234#32 else if i.val = 7 then 0x01000000#32 else 0#32)
      (fun i => if i.val = 6 then 0x08001234#32 else if i.val = 7 then 0x01000000#32 else 0#32)
      50,
   .svc]

/-- A task issues the call that starts the first task. -/
def startAgain : List (TaskEvent Bool) :=
  [.compute (trapRegisters 0#32) (fun _ => 7#32) 50, .svc]

/-- A task goes on after a supervisor call with another stack pointer. -/
def Astray (c : Cpu Bool) : Prop :=
  c.pendsv = false ∧ (c.issued c.taskToPreserve).any (fun r => c.psp ≠ r.psp) = true

instance (c : Cpu Bool) : Decidable (Astray c) := inferInstanceAs (Decidable (_ ∧ _))

theorem astray_not_resumed {c : Cpu Bool} (h : Astray c) : ¬ Resumed c := by
  rcases h with ⟨hpend, hany⟩
  intro hc
  cases hissued : c.issued c.taskToPreserve with
  | none =>
      rw [hissued] at hany
      exact Bool.noConfusion hany
  | some r =>
      rw [hissued] at hany
      exact of_decide_eq_true hany (hc hpend r hissued).1

/-- The task that asked for the buffer is at its next instruction, and the one
    that started again is where it was created; neither has its stack back. -/
theorem svc_corrupts :
    Ends (taskStep twoStacks) askForBuffer firstRuns (fun c =>
        c.low 6 = 0x08001234#32 ∧ c.low 7 = 0x01000000#32 ∧ ¬ Resumed c) ∧
      Ends (taskStep twoStacks) startAgain firstRuns fun c => ¬ Resumed c := by
  have hbuffer : Ends (taskStep twoStacks) askForBuffer firstRuns fun c =>
      c.low 6 = 0x08001234#32 ∧ c.low 7 = 0x01000000#32 ∧ Astray c := by decide +kernel
  have hstart : Ends (taskStep twoStacks) startAgain firstRuns Astray := by decide +kernel
  rcases hbuffer with ⟨c, hrun, hpc, hpsr, hastray⟩
  rcases hstart with ⟨d, hrun', hastray'⟩
  exact ⟨⟨c, hrun, hpc, hpsr, astray_not_resumed hastray⟩, d, hrun', astray_not_resumed hastray'⟩

end TwoStacks

end NextLevelRTOS
