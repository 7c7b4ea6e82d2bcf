import NextLevelRTOS.Process.Lifetime

/-!
# Failing Creations

`create_task` has five allocations and no rollback. What a creation that fails
leaves behind depends on which allocation failed. Before the stack nothing has
happened. After it every answer stays in use: the functions of
`process/task.c` return without freeing, so without a control block the stack
is lost, and without a queue node the stack, the control block, the child list
and the new entry of the parent's child list are. Where the chunk of
`single_list_push` or of `new_list` is missing the creation does not even
return, because both write through the null pointer.

So the only failure that leaves the system as it was is the first one.

## Main definitions

* `Fails`: One of the allocations a creation makes is not answered.
* `Unchanged`: Chunks, queues and the parent's child list are as before.
* `RollsBack`: A creation returns `-1` and leaves no trace.

## Theorems

* `failed_leaks`: A creation that fails after the stack keeps the stack.
* `createTask_rollsBack_iff`: No trace is left exactly without a stack.
-/

namespace NextLevelRTOS

open Machine

/-- One of the allocations that the creation makes is answered with the null
    pointer. The entry in the parent's child list is only asked for if there
    is a parent. -/
def Fails (c : Chunks) (s : Kernel) : Prop :=
  c.stack = NULL ∨ c.tcb = NULL ∨ (s.currentlyRunning ≠ NULL ∧ c.childNode = NULL) ∨
    c.childList = NULL ∨ c.queueNode = NULL

instance (c : Chunks) (s : Kernel) : Decidable (Fails c s) :=
  inferInstanceAs (Decidable (_ ∨ _ ∨ _ ∨ _ ∨ _))

/-- The set of chunks in use, both queues with their nodes and tasks, and the
    child list of the current task are the same in both states. -/
structure Unchanged (s s' : Kernel) : Prop where
  kept : ∀ a ∈ s.occupied, a ∈ s'.occupied
  noneNew : ∀ a ∈ s'.occupied, a ∈ s.occupied
  runningTasks : s'.runningTasks = s.runningTasks
  waitingTasks : s'.waitingTasks = s.waitingTasks
  running : s'.runningTasks.members s'.node = s.runningTasks.members s.node
  waiting : s'.waitingTasks.members s'.node = s.waitingTasks.members s.node
  runningData : s'.tasksIn s'.runningTasks = s.tasksIn s.runningTasks
  waitingData : s'.tasksIn s'.waitingTasks = s.tasksIn s.waitingTasks
  children : s.currentlyRunning ≠ NULL →
    s'.childData (s.dataOf s.currentlyRunning) = s.childData (s.dataOf s.currentlyRunning)

instance (s s' : Kernel) : Decidable (Unchanged s s') :=
  decidable_of_iff
    ((∀ a ∈ s.occupied, a ∈ s'.occupied) ∧ (∀ a ∈ s'.occupied, a ∈ s.occupied) ∧
      s'.runningTasks = s.runningTasks ∧ s'.waitingTasks = s.waitingTasks ∧
      s'.runningTasks.members s'.node = s.runningTasks.members s.node ∧
      s'.waitingTasks.members s'.node = s.waitingTasks.members s.node ∧
      s'.tasksIn s'.runningTasks = s.tasksIn s.runningTasks ∧
      s'.tasksIn s'.waitingTasks = s.tasksIn s.waitingTasks ∧
      (s.currentlyRunning ≠ NULL →
        s'.childData (s.dataOf s.currentlyRunning) = s.childData (s.dataOf s.currentlyRunning)))
    ⟨fun ⟨a, b, c, d, e, f, g, h, i⟩ => ⟨a, b, c, d, e, f, g, h, i⟩,
      fun ⟨a, b, c, d, e, f, g, h, i⟩ => ⟨a, b, c, d, e, f, g, h, i⟩⟩

theorem unchanged_refl (s : Kernel) : Unchanged s s :=
  ⟨fun _ h => h, fun _ h => h, rfl, rfl, rfl, rfl, rfl, rfl, fun _ => rfl⟩

/-- The creation returns `-1` and leaves no trace. -/
def RollsBack (c : Chunks) (slot ramLocation : Addr) (s : Kernel) : Prop :=
  ∃ r ∈ createTask c slot ramLocation s, r.1 = -1 ∧ Unchanged s r.2

instance (c : Chunks) (slot ramLocation : Addr) (s : Kernel) :
    Decidable (RollsBack c slot ramLocation s) :=
  inferInstanceAs (Decidable (∃ r ∈ createTask c slot ramLocation s, _))

/-- A creation that fails once it has a stack keeps the stack in use, wherever
    it fails. -/
theorem failed_leaks {c : Chunks} {slot ramLocation : Addr} {s s' : Kernel} {result : Int}
    (hfails : Fails c s) (hstack : c.stack ≠ NULL)
    (hrun : createTask c slot ramLocation s = some (result, s')) : c.stack ∈ s'.occupied := by
  rcases createTask_cases hrun with ⟨_, hnull, _⟩ | ⟨_, _, _, rfl⟩ |
    ⟨hgranted, list, snode, _, ⟨_, _, rfl⟩ | ⟨_, hnode, _⟩⟩
  · exact absurd hnull hstack
  · rw [allocate_eq, if_neg hstack]
    exact List.mem_cons_self
  · simp only [prepared, List.mem_cons, List.mem_append, true_or, or_true]
  -- A new task means that every allocation was answered.
  · rcases hfails with hc | hc | ⟨hcur, hc⟩ | hc | hc
    · exact absurd hc hgranted.stack
    · exact absurd hc hgranted.tcb
    · exact absurd hc (hgranted.childNode hcur)
    · exact absurd hc hgranted.childList
    · exact absurd hc hnode

/-- A creation that fails returns `-1` and leaves the chunks in use, the queues
    and the parent's child list as they were if and only if the allocation that
    fails is the first one, the stack's. Nothing is asked of the state but that
    the answers are not in use there. -/
theorem createTask_rollsBack_iff (c : Chunks) (slot ramLocation : Addr) (s : Kernel)
    (hfree : c.Free s) (hfails : Fails c s) :
    RollsBack c slot ramLocation s ↔ c.stack = NULL := by
  constructor
  · rintro ⟨⟨result, s'⟩, hrun, _, hsame⟩
    by_contra hstack
    -- The stack was free before and is in use now.
    have hleak := failed_leaks hfails hstack (Option.mem_def.mp hrun)
    have hgranted : c.stack ∈ c.granted := mem_granted.mpr ⟨Or.inl rfl, hstack⟩
    exact hfree.2 _ hgranted (hsame.noneNew _ hleak)
  · intro hstack
    have hrun : createTask c slot ramLocation s = some (-1, s) := by
      unfold createTask
      simp only [if_pos hstack, Kernel.allocate]
    exact ⟨(-1, s), hrun, rfl, unchanged_refl s⟩

/-- The idle task creates a task and gets no queue node, at the end of all
    that is allocated, or no stack. -/
theorem createTask_rollsBack_iff_startUp : Ends step startUp freshKernel fun s =>
    (RollsBack { chunksFrom 20 with queueNode := NULL } 3 0 s ↔ (20 : Addr) = NULL) ∧
    (RollsBack { chunksFrom 20 with stack := NULL } 3 0 s ↔ NULL = NULL) := by
  have hends : Ends step startUp freshKernel fun s =>
      (Chunks.Free { chunksFrom 20 with queueNode := NULL } s ∧
        Fails { chunksFrom 20 with queueNode := NULL } s) ∧
      (Chunks.Free { chunksFrom 20 with stack := NULL } s ∧
        Fails { chunksFrom 20 with stack := NULL } s) := by
    decide +kernel
  rcases hends with ⟨s, hs, ⟨hfree, hfails⟩, ⟨hfree', hfails'⟩⟩
  exact ⟨s, hs, createTask_rollsBack_iff _ 3 0 s hfree hfails,
    createTask_rollsBack_iff _ 3 0 s hfree' hfails'⟩

/-- The idle task asks for a task and one of the later allocations fails.
    Without a control block the stack stays in use; without a list node or a
    child list the creation does not return; without a queue node four chunks
    stay in use and the child list of the idle task has an entry for a task
    that is in no queue. -/
theorem createTask_leaves_traces : Ends step startUp freshKernel fun s =>
    (∃ r ∈ createTask { chunksFrom 20 with tcb := NULL } 3 0 s,
      r.1 = -1 ∧ 20 ∉ s.occupied ∧ 20 ∈ r.2.occupied ∧ ¬ Unchanged s r.2) ∧
    createTask { chunksFrom 20 with childNode := NULL } 3 0 s = none ∧
    createTask { chunksFrom 20 with childList := NULL } 3 0 s = none ∧
    (∃ r ∈ createTask { chunksFrom 20 with queueNode := NULL } 3 0 s,
      r.1 = -1 ∧ r.2.occupied = 23 :: 22 :: 21 :: 20 :: s.occupied ∧
        s.childData (s.dataOf s.currentlyRunning) = [] ∧
        r.2.childData (s.dataOf s.currentlyRunning) = [3] ∧ ¬ Unchanged s r.2) ∧
    Enabled (.createTask { chunksFrom 20 with tcb := NULL } 3 0) s ∧
    Fails { chunksFrom 20 with tcb := NULL } s ∧
    ¬ RollsBack { chunksFrom 20 with tcb := NULL } 3 0 s := by
  decide +kernel

end NextLevelRTOS
