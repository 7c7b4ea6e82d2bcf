import NextLevelRTOS.Process.Placement

/-!
# What Outlives a Task

Two things stay behind when a task is reaped: chunks and pointers.

`clean_up_task` gives back the code image, the stack, the control block and
the queue node. The child list that every task gets at its creation is given
back by nobody, and neither is the list node that stands for the task in its
parent's child list. So every task that is reaped leaves at least one chunk
in use for good, and a system that goes back to the tasks it had has more
chunks in use than before.

The pointers are those to the parent and to the children. A task created by a
task that is running points to it, and nothing clears the pointer when the
parent is reaped first. What its creation pushes onto the parent's child list
is the address of a local variable, which is no control block. Only as long as
nothing is pushed, which means that tasks are created before any task runs,
do all references point to live tasks.

## Main definitions

* `ownedChunks`: The chunks that images and live tasks account for.
* `reapCount`: How many tasks a run reaps.
* `LiveRefs`: Every reference the kernel holds points to a live object.
* `CreatesAtStartUp`: No task is created by a task.

## Theorems

* `step_leaks`: Every reaped task leaves a chunk.
* `reaped_childList_occupied`: A reaped task's child list stays in use, and the
  chunks in use grow by one at least for each reaped task.
* `references_live`: References are live in runs without parents.
-/

namespace NextLevelRTOS

open Machine

section Chunks

/-- The chunks that images and live tasks account for: a node, a control block
    and what the control block points to. -/
def ownedChunks (s : Kernel) : Nat :=
  s.images.length + s.live.foldr (fun t n => (s.tcb t).chunks.length + 2 + n) 0

/-- How many tasks a run reaps. -/
def reapCount : List Event → Kernel → Nat
  | [], _ => 0
  | e :: es, s => match step e s with
    | none => 0
    | some s' => (s.live.length - s'.live.length) + reapCount es s'

/-- Every chunk in use is accounted for or leaked. -/
theorem occupied_length {s : Kernel} {v : View} (h : Consistent s v) :
    s.occupied.length = ownedChunks s + v.leaked.length := by
  have hflat : (v.nodes.flatMap s.owns).length =
      s.live.foldr (fun t n => (s.tcb t).chunks.length + 2 + n) 0 := by
    rw [← List.foldr_map, ← List.sum_eq_foldr, List.length_flatMap, ← (h.tasks.map _).sum_nat,
      List.map_map]
    rfl
  rw [h.heap.length_eq, List.length_append, List.length_append, hflat, ownedChunks]
  omega

theorem occupied_of_leaked {s : Kernel} {v : View} (h : Consistent s v) {a : Addr}
    (ha : a ∈ v.leaked) : a ∈ s.occupied :=
  h.heap.mem_iff.mpr (List.mem_append_left _ (List.mem_append_right _ ha))

/-- What is leaked stays leaked, every reaped task adds its child list, and the
    number of leaked chunks grows with each of them. -/
structure Leaks (s s' : Kernel) (v v' : View) : Prop where
  kept : ∀ a ∈ v.leaked, a ∈ v'.leaked
  child : ∀ t ∈ s.live, (t ∈ s'.live ∧ (s'.tcb t).childTasks = (s.tcb t).childTasks) ∨
    (s.tcb t).childTasks ∈ v'.leaked
  count : v.leaked.length + (s.live.length - s'.live.length) ≤ v'.leaked.length

/-- Every event leaves the leaked chunks in use. -/
theorem step_leaks {e : Event} {s s' : Kernel} {v : View} (hinv : Inv s v)
    (hstep : step e s = some s') : ∃ v', Inv s' v' ∧ Leaks s s' v v' := by
  rcases step_outcome hinv hstep with ⟨v', hinv', hout⟩
  refine ⟨v', hinv', ?_⟩
  cases hout with
  | moved hm _ _ =>
      refine ⟨fun a ha => ?_, fun t ht => Or.inl ⟨?_, (hm.frame.tcb t).childTasks⟩, ?_⟩
      · rwa [hm.leaked]
      · rwa [hm.frame.live]
      · rw [hm.leaked, hm.frame.live]
        omega
  | image a _ hs' hv =>
      rw [hs', hv, allocate_eq]
      exact ⟨fun a ha => ha, fun t ht => Or.inl ⟨ht, rfl⟩, by dsimp only; omega⟩
  | notCreated c ramLocation _ hkeep hnot =>
      rcases hnot.leaked with ⟨l, hl⟩
      refine ⟨fun a ha => ?_, fun t ht => Or.inl ⟨?_, ?_⟩, ?_⟩
      · rw [hl]
        exact List.mem_append_right _ ha
      · rwa [hnot.live]
      · rw [hkeep.tcb t ht]
      · rw [hl, hnot.live, List.length_append]
        omega
  | created c ramLocation _ hkeep hnew =>
      have hl : v'.leaked = c.entry s ++ v.leaked := by
        rw [hnew.view, insert_leaked]
      refine ⟨fun a ha => ?_, fun t ht => Or.inl ⟨?_, ?_⟩, ?_⟩
      · rw [hl]
        exact List.mem_append_right _ ha
      · rw [hnew.live]
        exact List.mem_append_left _ ht
      · rw [hkeep.tcb t ht]
      · rw [hl, hnew.live, List.length_append, List.length_append]
        omega
  | reaped _ hr =>
      -- The child list of a task that has been reaped stays in use.
      refine ⟨hr.leaked, fun t ht => ?_, ?_⟩
      · by_cases hlive : t ∈ s'.live
        · refine Or.inl ⟨hlive, ?_⟩
          rw [hr.tcb]
        · exact Or.inr (hr.children t ht hlive)
      · have hcount := hr.count
        have hle := hr.live.length_le
        omega

theorem run_leaks {es : List Event} : ∀ {s s' : Kernel} {v : View}, Inv s v →
    run step es s = some s' → ∃ v', Inv s' v' ∧ (∀ a ∈ v.leaked, a ∈ v'.leaked) ∧
      (∀ t ∈ s.live, (t ∈ s'.live ∧ (s'.tcb t).childTasks = (s.tcb t).childTasks) ∨
        (s.tcb t).childTasks ∈ v'.leaked) ∧
      v.leaked.length + reapCount es s ≤ v'.leaked.length := by
  induction es with
  | nil =>
      intro s s' v hinv hrun
      simp only [run, Option.some.injEq] at hrun
      subst hrun
      exact ⟨v, hinv, fun a ha => ha, fun t ht => Or.inl ⟨ht, rfl⟩, Nat.le_refl _⟩
  | cons e es ih =>
      intro s s' v hinv hrun
      rcases run_cons step hrun with ⟨s₁, hstep, hrest⟩
      rcases step_leaks hinv hstep with ⟨v₁, hinv₁, hleak⟩
      rcases ih hinv₁ hrest with ⟨v', hinv', hkept, hchild, hcount⟩
      -- What leaked stays so, and a list that is still owned may leak later.
      refine ⟨v', hinv', fun a ha => hkept a (hleak.kept a ha), fun t ht => ?_, ?_⟩
      · rcases hleak.child t ht with ⟨hlive, hsame⟩ | hleaked
        · rcases hchild t hlive with ⟨hlive', hsame'⟩ | hleaked'
          · exact Or.inl ⟨hlive', hsame'.trans hsame⟩
          · exact Or.inr (hsame ▸ hleaked')
        · exact Or.inr (hkept _ hleaked)
      · have hstepCount := hleak.count
        simp only [reapCount, hstep]
        omega

/-- From any reachable state on: a task reaped since then has left its child
    list in use, and a run that comes back to what images and tasks there were
    has at least one chunk more in use for each task it has reaped. -/
theorem reaped_childList_occupied (s₀ s s' : Kernel) (es fs : List Event)
    (hinit : Initialized s₀) (hrun : run step es s₀ = some s) (hrun' : run step fs s = some s') :
    (∀ t ∈ s.live, t ∉ s'.live → (s.tcb t).childTasks ∈ s'.occupied) ∧
    (ownedChunks s' = ownedChunks s → s.occupied.length + reapCount fs s ≤ s'.occupied.length) := by
  rcases reachable_inv hinit hrun with ⟨v, hinv⟩
  rcases run_leaks hinv hrun' with ⟨v', hinv', _, hchild, hcount⟩
  refine ⟨fun t ht hdead => ?_, fun howned => ?_⟩
  · rcases hchild t ht with ⟨hlive, _⟩ | hleaked
    · exact absurd hlive hdead
    · exact occupied_of_leaked hinv'.consistent hleaked
  · rw [occupied_length hinv.consistent, occupied_length hinv'.consistent, howned]
    omega

/-- A round: a task is created by the idle task, finishes and is reaped. -/
def oneRound (a : Addr) : List Event :=
  [.createTask (chunksFrom a) 3 0, .yieldTask, .pendsv 8, .finishTask blankTcb, .pendsv 8,
    .searchInvalidateTasks]

theorem reaped_childList_occupied_oneRound : Ends step startUp freshKernel fun s =>
    Ends step (oneRound 20) s fun s' => reapCount (oneRound 20) s = 1 ∧
      (∀ t ∈ s.live, t ∉ s'.live → (s.tcb t).childTasks ∈ s'.occupied) ∧
      s.occupied.length + 1 ≤ s'.occupied.length := by
  have hends : Ends step startUp freshKernel fun s => Ends step (oneRound 20) s fun s' =>
      reapCount (oneRound 20) s = 1 ∧ ownedChunks s' = ownedChunks s := by decide +kernel
  rcases hends with ⟨s, hs, s', hs', hcount, howned⟩
  have h := reaped_childList_occupied freshKernel s s' startUp (oneRound 20)
    freshKernel_initialized hs hs'
  refine ⟨s, hs, s', hs', hcount, h.1, ?_⟩
  rw [← hcount]
  exact h.2 howned

/-- One round leaves two chunks more in use than there were: the child list of
    the task and the node that stood for it in the child list of the idle
    task. -/
theorem oneRound_leaks : Ends step startUp freshKernel fun s =>
    Ends step (oneRound 20) s fun s' => s'.live = s.live ∧
      s'.occupied.length = s.occupied.length + 2 ∧
      (chunksFrom 20).childList ∈ s'.occupied ∧ (chunksFrom 20).childNode ∈ s'.occupied := by
  decide +kernel

end Chunks

section References

/-- The data pointers in a task's child list. -/
def Kernel.childData (s : Kernel) (t : Addr) : List Addr :=
  (s.list (s.tcb t).childTasks).contents s.snode

/-- A node in one of the queues that carries a live task. -/
def IsLiveNode (s : Kernel) (n : Addr) : Prop :=
  n ∈ s.runningTasks.members s.node ++ s.waitingTasks.members s.node ∧ s.dataOf n ∈ s.live

instance (s : Kernel) (n : Addr) : Decidable (IsLiveNode s n) :=
  inferInstanceAs (Decidable (_ ∧ _))

/-- Every reference the kernel holds points to a live object. -/
structure LiveRefs (s : Kernel) : Prop where
  parent : ∀ t ∈ s.live, (s.tcb t).parentTask = NULL ∨ (s.tcb t).parentTask ∈ s.live
  child : ∀ t ∈ s.live, ∀ d ∈ s.childData t, d ∈ s.live ∧ (s.tcb d).parentTask = t
  once : ∀ t ∈ s.live, ∀ d ∈ s.live, (s.tcb d).parentTask = t → (s.childData t).count d = 1
  current : s.currentlyRunning = NULL ∨ IsLiveNode s s.currentlyRunning
  preserve : s.taskToPreserve = NULL ∨ IsLiveNode s s.taskToPreserve

instance (s : Kernel) : Decidable (LiveRefs s) :=
  decidable_of_iff
    ((∀ t ∈ s.live, (s.tcb t).parentTask = NULL ∨ (s.tcb t).parentTask ∈ s.live) ∧
      (∀ t ∈ s.live, ∀ d ∈ s.childData t, d ∈ s.live ∧ (s.tcb d).parentTask = t) ∧
      (∀ t ∈ s.live, ∀ d ∈ s.live, (s.tcb d).parentTask = t → (s.childData t).count d = 1) ∧
      (s.currentlyRunning = NULL ∨ IsLiveNode s s.currentlyRunning) ∧
      (s.taskToPreserve = NULL ∨ IsLiveNode s s.taskToPreserve))
    ⟨fun ⟨a, b, c, d, e⟩ => ⟨a, b, c, d, e⟩, fun ⟨a, b, c, d, e⟩ => ⟨a, b, c, d, e⟩⟩

/-- No task is created by a task: at every creation no task is current, or
    there is no memory for the stack or the control block. -/
def CreatesAtStartUp (s : Kernel) (e : Event) : Prop :=
  ∀ c ∈ e.creates, PushesNothing c.1 s

instance (s : Kernel) (e : Event) : Decidable (CreatesAtStartUp s e) :=
  inferInstanceAs (Decidable (∀ c ∈ e.creates, _))

/-- No live task has a parent or a child. -/
def Orphans (s : Kernel) : Prop :=
  ∀ t ∈ s.live, (s.tcb t).parentTask = NULL ∧
    s.list (s.tcb t).childTasks = { size := 0, head := NULL }

theorem childTasks_occupied {s : Kernel} {v : View} (h : Consistent s v) {t : Addr}
    (ht : t ∈ s.live) : (s.tcb t).childTasks ∈ s.occupied := by
  rcases (consistent_live_iff h t).mp ht with ⟨n, hn, rfl⟩
  refine consistent_owns_occupied h hn ?_
  exact List.mem_cons_of_mem _ (List.mem_cons_of_mem _ (List.mem_cons_of_mem _ List.mem_cons_self))

theorem untouched_orphans {s s' : Kernel} {v : View} {c : Chunks} (hcons : Consistent s v)
    (h : Orphans s) (hkeep : Untouched c s s') (hnone : PushesNothing c s) {t : Addr}
    (ht : t ∈ s.live) : (s'.tcb t).parentTask = NULL ∧
      s'.list (s'.tcb t).childTasks = { size := 0, head := NULL } := by
  rw [hkeep.tcb t ht, hkeep.lists hnone _ (childTasks_occupied hcons ht)]
  exact h t ht

/-- Every event leaves the tasks without parents, a creation if no task is
    current. -/
theorem step_orphans {e : Event} {s s' : Kernel} {v : View} (hinv : Inv s v) (h : Orphans s)
    (hboot : CreatesAtStartUp s e) (hstep : step e s = some s') :
    ∃ v', Inv s' v' ∧ Orphans s' := by
  rcases step_outcome hinv hstep with ⟨v', hinv', hout⟩
  refine ⟨v', hinv', fun t ht => ?_⟩
  cases hout with
  | moved hm _ _ =>
      rw [hm.frame.live] at ht
      rw [(hm.frame.tcb t).parentTask, (hm.frame.tcb t).childTasks, hm.frame.list]
      exact h t ht
  | image a _ hs' _ =>
      rw [hs', allocate_eq] at ht ⊢
      exact h t ht
  | notCreated c ramLocation he hkeep hnot =>
      rw [hnot.live] at ht
      exact untouched_orphans hinv.consistent h hkeep (hboot _ he) ht
  | created c ramLocation he hkeep hnew =>
      rw [hnew.live] at ht
      rcases List.mem_append.mp ht with ht | ht
      · exact untouched_orphans hinv.consistent h hkeep (hboot _ he) ht
      -- A task that is created at start-up has no parent to point to.
      · have hcur : s.currentlyRunning = NULL := by
          rcases hboot _ he with hcur | hc | hc
          · exact hcur
          · exact absurd hc hnew.granted.stack
          · exact absurd hc hnew.granted.tcb
        rw [List.mem_singleton.mp ht, hnew.tcb]
        refine ⟨?_, hnew.list⟩
        simp only [newTcb, initTcb, if_pos hcur]
  | reaped _ hr =>
      rw [hr.tcb, hr.list]
      exact h t (hr.live.subset ht)

theorem liveNode_of_mem {s : Kernel} {v : View} (h : Consistent s v) {n : Addr}
    (hn : n ∈ v.nodes) : IsLiveNode s n := by
  refine ⟨?_, (consistent_live_iff h _).mpr ⟨n, hn, rfl⟩⟩
  rw [represents_members h.running, represents_members h.waiting]
  exact hn

theorem orphans_liveRefs {s : Kernel} {v : View} (hinv : Inv s v) (h : Orphans s) :
    LiveRefs s := by
  have hcons := hinv.consistent
  have hempty : ∀ t ∈ s.live, s.childData t = [] := by
    intro t ht
    rw [Kernel.childData, (h t ht).2]
    rfl
  refine ⟨fun t ht => Or.inl (h t ht).1, fun t ht d hd => ?_, fun t ht d hd hparent => ?_, ?_, ?_⟩
  · rw [hempty t ht] at hd
    exact absurd hd List.not_mem_nil
  · have hocc := consistent_live_occupied hcons ht
    rw [← hparent, (h d hd).1] at hocc
    exact absurd hocc hcons.nonnull
  · by_cases hcur : s.currentlyRunning = NULL
    · exact Or.inl hcur
    · exact Or.inr (liveNode_of_mem hcons (List.mem_append_left _ (hinv.current hcur)))
  · by_cases hpres : s.taskToPreserve = NULL
    · exact Or.inl hpres
    · exact Or.inr (liveNode_of_mem hcons (hinv.preserve hpres))

/-- In every run in which no task is created by a task, every reference the
    kernel holds points to a live object, in every state reached. -/
theorem references_live (s₀ s : Kernel) (es : List Event) (hinit : Initialized s₀)
    (hboot : Meets step CreatesAtStartUp es s₀) (hrun : run step es s₀ = some s) :
    LiveRefs s := by
  have hstart : ∃ v, Inv s₀ v ∧ Orphans s₀ := by
    rcases initScheduler_inv hinit with ⟨hinv, hlive, _⟩
    refine ⟨_, hinv, fun t ht => ?_⟩
    rw [hlive] at ht
    exact absurd ht List.not_mem_nil
  have hend : ∃ v, Inv s v ∧ Orphans s := by
    refine run_invariant step (fun s => ∃ v, Inv s v ∧ Orphans s) ?_ es s₀ s hstart
      hboot hrun
    rintro s e s' ⟨v, hinv, horphans⟩ hC hstep
    exact step_orphans hinv horphans hC hstep
  rcases hend with ⟨v, hinv, horphans⟩
  exact orphans_liveRefs hinv horphans

/-- A task created before any runs finishes and is reaped; in between it tries
    to create another one and gets no memory. -/
def createdAtStartUp : List Event :=
  [.createIdle (chunksFrom 10) 3, .createTask (chunksFrom 20) 3 0,
    .createTask (chunksFrom 30) 3 0, .runScheduler,
    .createTask { chunksFrom 40 with stack := NULL } 3 0, .finishTask blankTcb, .pendsv 8,
    .blockCurrentTask, .pendsv 8, .searchInvalidateTasks]

theorem references_live_createdAtStartUp : Ends step createdAtStartUp freshKernel LiveRefs := by
  have hends : Ends step createdAtStartUp freshKernel fun _ => True := by decide +kernel
  rcases hends with ⟨s, hs, _⟩
  exact ⟨s, hs, references_live freshKernel s createdAtStartUp freshKernel_initialized
    (by decide +kernel) hs⟩

/-- A task creates a second one, finishes and is reaped by the idle task; the
    second one runs. -/
def parentDies : List Event :=
  startUp ++ [.createTask (chunksFrom 20) 3 0, .yieldTask, .pendsv 8,
    .createTask (chunksFrom 30) 3 0, .finishTask blankTcb, .pendsv 8, .yieldTask, .pendsv 8,
    .searchInvalidateTasks, .yieldTask, .pendsv 8]

/-- One creation by the idle task leaves a data pointer in its child list that
    is no control block, and a task that outlives its parent is about to read
    the reaped parent's `join_pid`. -/
theorem references_dangle :
    (Ends step (startUp ++ [.createTask (chunksFrom 20) 3 0]) freshKernel fun s =>
      ¬ LiveRefs s ∧ 3 ∈ s.childData (chunksFrom 10).tcb ∧ 3 ∉ s.live) ∧
    (Ends step parentDies freshKernel fun s => ¬ LiveRefs s ∧ Thread s ∧
      (s.tcb (s.dataOf s.currentlyRunning)).parentTask = (chunksFrom 20).tcb ∧
      (chunksFrom 20).tcb ∉ s.live) := by
  decide +kernel

end References

end NextLevelRTOS
