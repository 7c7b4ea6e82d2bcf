import NextLevelRTOS.Process.Placement

/-!
# Process Identifiers

`create_task` numbers a task by how many there are, so the identifier depends
on what has been created and reaped before. Nothing compares it with the
identifiers in use: once an older task has been reaped, the next number may be
one that a later task still has.

The identifiers stay distinct exactly as long as this does not happen. The
condition is one on the state a creation starts in, that no live task's
identifier is the number of live tasks, and the invariant needs nothing else:
no other event changes an identifier or the set of live tasks except by taking
tasks out.

## Main definitions

* `DistinctPids`: No two live tasks share an identifier.
* `FreshPid`: The next number is nobody's identifier.

## Theorems

* `step_distinctPids`: Every event keeps the identifiers distinct.
* `created_duplicate`: A creation without the condition makes a duplicate.
* `pids_distinct`: Identifiers are distinct and waking is exact, as long as
  every creation meets the condition.
-/

namespace NextLevelRTOS

open Machine

/-- No two live tasks share an identifier. -/
def DistinctPids (s : Kernel) : Prop :=
  ∀ t ∈ s.live, ∀ u ∈ s.live, (s.tcb t).pid = (s.tcb u).pid → t = u

/-- When an event creates a task, no live task's identifier is the number of
    live tasks. -/
def FreshPid (s : Kernel) (e : Event) : Prop :=
  e.creates.isSome = true → ∀ t ∈ s.live, (s.tcb t).pid ≠ s.live.length % 256

instance (s : Kernel) : Decidable (DistinctPids s) :=
  inferInstanceAs (Decidable (∀ t ∈ s.live, _))

instance (s : Kernel) (e : Event) : Decidable (FreshPid s e) :=
  inferInstanceAs (Decidable (_ → _))

/-- The number a new task gets. -/
theorem newTcb_pid {s : Kernel} {v : View} (h : Consistent s v) (c : Chunks)
    (ramLocation : Addr) : (newTcb c ramLocation s).pid = s.live.length % 256 := by
  simp only [newTcb, initTcb, h.running.size, h.waiting.size, ← h.tasks.length_eq,
    List.length_map, View.nodes, List.length_append]

theorem distinctPids_of_sublist {s s' : Kernel} (h : DistinctPids s)
    (hlive : ∀ t ∈ s'.live, t ∈ s.live) (hpid : ∀ t ∈ s'.live, (s'.tcb t).pid = (s.tcb t).pid) :
    DistinctPids s' := by
  intro t ht u hu hpids
  rw [hpid t ht, hpid u hu] at hpids
  exact h t (hlive t ht) u (hlive u hu) hpids

theorem created_distinctPids {s s' : Kernel} {v v' : View} {c : Chunks} {ramLocation : Addr}
    (hcons : Consistent s v) (h : DistinctPids s) (hkeep : Untouched c s s')
    (hnew : Created c ramLocation s s' v v')
    (hfresh : ∀ t ∈ s.live, (s.tcb t).pid ≠ s.live.length % 256) : DistinctPids s' := by
  have hself : (s'.tcb c.tcb).pid = s.live.length % 256 := by
    rw [hnew.tcb, newTcb_pid hcons]
  intro t ht u hu hpids
  rw [hnew.live] at ht hu
  rcases List.mem_append.mp ht with ht | ht
  · rcases List.mem_append.mp hu with hu | hu
    · rw [hkeep.tcb t ht, hkeep.tcb u hu] at hpids
      exact h t ht u hu hpids
    · rw [hkeep.tcb t ht, List.mem_singleton.mp hu, hself] at hpids
      exact absurd hpids (hfresh t ht)
  · rcases List.mem_append.mp hu with hu | hu
    · rw [hkeep.tcb u hu, List.mem_singleton.mp ht, hself] at hpids
      exact absurd hpids.symm (hfresh u hu)
    · rw [List.mem_singleton.mp ht, List.mem_singleton.mp hu]

/-- A creation without the condition makes a duplicate. -/
theorem created_duplicate {s s' : Kernel} {v v' : View} {c : Chunks} {ramLocation t : Addr}
    (hcons : Consistent s v) (hkeep : Untouched c s s') (hnew : Created c ramLocation s s' v v')
    (ht : t ∈ s.live) (hpid : (s.tcb t).pid = s.live.length % 256) : ¬ DistinctPids s' := by
  intro h
  have htc : t = c.tcb := by
    refine h t ?_ c.tcb ?_ ?_
    · rw [hnew.live]
      exact List.mem_append_left _ ht
    · rw [hnew.live]
      exact List.mem_append_right _ List.mem_cons_self
    · rw [hkeep.tcb t ht, hnew.tcb, newTcb_pid hcons, hpid]
  exact hnew.new (htc ▸ ht)

/-- Every event keeps the identifiers distinct, a creation if it finds the next
    number free. -/
theorem step_distinctPids {e : Event} {s s' : Kernel} {v : View} (hinv : Inv s v)
    (h : DistinctPids s) (hfresh : FreshPid s e) (hstep : step e s = some s') :
    ∃ v', Inv s' v' ∧ DistinctPids s' := by
  rcases step_outcome hinv hstep with ⟨v', hinv', hout⟩
  refine ⟨v', hinv', ?_⟩
  cases hout with
  | moved hm _ _ =>
      refine distinctPids_of_sublist h (fun t ht => ?_) (fun t _ => (hm.frame.tcb t).pid)
      rwa [hm.frame.live] at ht
  | image a _ hs' _ =>
      rw [hs', allocate_eq]
      exact h
  | notCreated c ramLocation _ hkeep hnot =>
      refine distinctPids_of_sublist h (fun t ht => ?_) (fun t ht => ?_)
      · rwa [hnot.live] at ht
      · rw [hnot.live] at ht
        rw [hkeep.tcb t ht]
  | created c ramLocation he hkeep hnew =>
      exact created_distinctPids hinv.consistent h hkeep hnew (hfresh (by rw [he]; rfl))
  | reaped _ hr =>
      refine distinctPids_of_sublist h (fun t ht => hr.live.subset ht) (fun t _ => ?_)
      rw [hr.tcb]

/-- With distinct identifiers, waking writes to no task but the one that has
    the identifier. -/
theorem wakeupPid_exact {s : Kernel} {v : View} (hcons : Consistent s v) (h : DistinctPids s)
    {t u : Addr} (ht : t ∈ s.live) (hne : u ≠ t) :
    (wakeupPid (s.tcb t).pid s).2.tcb u = s.tcb u := by
  rcases wakeupPid_cases hcons (s.tcb t).pid with ⟨_, heq⟩ | ⟨n, hn, _, hpid, heq⟩
  · rw [heq]
  · rw [heq, wakeNode_eq]
    refine Function.update_of_ne (fun hc => hne ?_) _ _
    have hlive := (consistent_live_iff hcons (s.dataOf n)).mpr
      ⟨n, List.mem_append_right _ hn, rfl⟩
    rw [hc]
    exact h _ hlive t ht hpid

/-- In every run whose creations all find the next number free, the live tasks
    have distinct identifiers in every state reached, and waking an identifier
    affects no task but the one that has it. -/
theorem pids_distinct (s₀ s : Kernel) (es : List Event) (hinit : Initialized s₀)
    (hfresh : Meets step FreshPid es s₀) (hrun : run step es s₀ = some s) :
    DistinctPids s ∧ ∀ t ∈ s.live, ∀ u, u ≠ t →
      (wakeupPid (s.tcb t).pid s).2.tcb u = s.tcb u := by
  have hstart : ∃ v, Inv s₀ v ∧ DistinctPids s₀ := by
    rcases initScheduler_inv hinit with ⟨hinv, hlive, _⟩
    refine ⟨_, hinv, fun t ht => ?_⟩
    rw [hlive] at ht
    exact absurd ht List.not_mem_nil
  have hend : ∃ v, Inv s v ∧ DistinctPids s := by
    refine run_invariant step (fun s => ∃ v, Inv s v ∧ DistinctPids s) ?_ es s₀ s hstart
      hfresh hrun
    rintro s e s' ⟨v, hinv, hpids⟩ hC hstep
    exact step_distinctPids hinv hpids hC hstep
  rcases hend with ⟨v, hinv, hpids⟩
  exact ⟨hpids, fun t ht u hne => wakeupPid_exact hinv.consistent hpids ht hne⟩

theorem pids_distinct_comeAndGo : Ends step comeAndGo freshKernel fun s =>
    DistinctPids s ∧ ∀ t ∈ s.live, ∀ u, u ≠ t →
      (wakeupPid (s.tcb t).pid s).2.tcb u = s.tcb u := by
  have hends : Ends step comeAndGo freshKernel fun _ => True := by decide +kernel
  rcases hends with ⟨s, hs, _⟩
  exact ⟨s, hs, pids_distinct freshKernel s comeAndGo freshKernel_initialized
    (by decide +kernel) hs⟩

/-- Two tasks are created, the older one finishes and is reaped, and the next
    task gets the identifier of the younger one. -/
def reapThenCreate : List Event :=
  startUp ++ [.createTask (chunksFrom 20) 3 0, .createTask (chunksFrom 30) 3 0, .yieldTask,
    .pendsv 8, .finishTask blankTcb, .pendsv 8, .yieldTask, .pendsv 8, .searchInvalidateTasks,
    .createTask (chunksFrom 40) 3 0]

theorem pids_collide : Ends step reapThenCreate freshKernel fun s =>
    s.live.length ≤ 255 ∧ ¬ DistinctPids s := by
  decide +kernel

end NextLevelRTOS
