import NextLevelRTOS.Memory.Allocator

/-!
# The Mutex and the Timer

Every function of the allocator locks the mutex first and has several returns.
A return is in order when the mutex is released there and the SysTick timer is
as it was on entry.

Of the returns of `allocate`, the rejection of a size releases nothing and
starts the timer on none, the reuse of a freed chunk releases the mutex but
leaves the timer stopped, and the other two start the timer whether or not it
was running. `deallocate` and `defrag` do not touch the timer and release the
mutex on every return.

So a call is in order on a condition that can be read off the arguments and
the state on entry, and on no other. What a missed release costs depends on
the register `r1`: `lock_mutex` stores it in the mutex, and when it holds
`locked` no later call comes back.

## Main definitions

* `MemoryEvent`, `memoryStep`: Calls, and what happens between them.
* `Restored`: A return is in order.
* `Reuses`: A request is served by a freed chunk.
* `Restores`: The condition on entry.

## Theorems

* `allocate_restored_iff`: The returns of `allocate`.
* `restored_mutex`: Calls in order leave the mutex released.
* `calls_restored`: In every reachable state, calls are in order exactly on the
  condition, and if all of them meet it none ever spins.
* `calls_spin`: A rejected size locks the allocator for good.
-/

namespace NextLevelRTOS

open Machine

/-- The allocator is called, a task writes to the memory behind the table, or
    the timer is started or stopped elsewhere. -/
inductive MemoryEvent where
  | call (c : Call)
  | write (index : Nat) (w : Word)
  | setSysTick (enable : Bool)
  deriving DecidableEq

/-- The effect of an event. -/
def memoryStep : MemoryEvent → Allocator → Option Allocator
  | MemoryEvent.call c, m => (m.call c).map Prod.fst
  | MemoryEvent.write index w, m => if numOfSlots ≤ index then some (m.store index w) else none
  | MemoryEvent.setSysTick enable, m => some { m with sysTick := enable }

/-- The mutex is released and the timer is as it was. -/
def Restored (m m' : Allocator) : Prop := m'.mutex = unlocked ∧ m'.sysTick = m.sysTick

instance (m m' : Allocator) : Decidable (Restored m m') := inferInstanceAs (Decidable (_ ∧ _))

/-- The first entry that can serve the request is that of a freed chunk. -/
def Reuses (m : Allocator) (size : Nat) : Prop :=
  ∃ i < numOfSlots, FirstFit m.mem (roundUp 4 size) i ∧ chunkSize (m.mem i) ≠ 0x7FFF

instance (m : Allocator) (size : Nat) : Decidable (Reuses m size) :=
  inferInstanceAs (Decidable (∃ i < numOfSlots, _ ∧ _))

/-- When a call will be in order. A rejected size needs a caller whose `r1`
    does not lock the mutex. It and a freed chunk need a timer that is stopped
    on entry, any other return of `allocate` a timer that is running. -/
def Restores (m : Allocator) : MemoryEvent → Prop
  | MemoryEvent.call (Call.allocate r1 size) =>
    if Allocator.Rejected size then r1 = unlocked ∧ m.sysTick = false
    else if Reuses m size then m.sysTick = false
    else m.sysTick = true
  | _ => True

instance (m : Allocator) (e : MemoryEvent) : Decidable (Restores m e) :=
  match e with
  | MemoryEvent.call (Call.allocate r1 size) =>
    inferInstanceAs (Decidable (if Allocator.Rejected size then r1 = unlocked ∧ m.sysTick = false
      else if Reuses m size then m.sysTick = false else m.sysTick = true))
  | MemoryEvent.call (Call.deallocate _ _) => isTrue trivial
  | MemoryEvent.call (Call.defrag _) => isTrue trivial
  | MemoryEvent.write _ _ => isTrue trivial
  | MemoryEvent.setSysTick _ => isTrue trivial

section Returns

variable {m m' : Allocator} {r1 p : Word}

theorem not_reuses_of_none {size : Nat}
    (h : ∀ i < numOfSlots, ¬ Fits (roundUp 4 size) (m.mem i)) : ¬ Reuses m size :=
  fun ⟨i, hi, hfirst, _⟩ => h i hi hfirst.2.1

theorem not_reuses_of_unused {size i : Nat} (hfirst : FirstFit m.mem (roundUp 4 size) i)
    (hunused : chunkSize (m.mem i) = 0x7FFF) : ¬ Reuses m size := by
  rintro ⟨j, _, hfirstj, hused⟩
  rw [hfirstj.unique hfirst] at hused
  exact hused hunused

theorem allocate_restored_iff {size : Nat} (h : m.allocate r1 size = some (m', p)) :
    Restored m m' ↔ Restores m (MemoryEvent.call (Call.allocate r1 size)) := by
  rcases Allocator.allocate_cases h with ⟨_, hspec⟩
  cases hspec with
  | rejected hrej =>
      simp only [Restored, Restores, if_pos hrej, eq_comm]
  | reuse i hrej hfirst hused =>
      have hreuses : Reuses m size := ⟨i, hfirst.1, hfirst, hused⟩
      simp only [Restored, Restores, if_neg hrej, if_pos hreuses, true_and, eq_comm]
  | carve i offset hrej hfirst hunused _ =>
      have hreuses : ¬ Reuses m size := not_reuses_of_unused hfirst hunused
      simp only [Restored, Restores, if_neg hrej, if_neg hreuses, true_and, eq_comm]
  | full hrej hno =>
      have hreuses : ¬ Reuses m size := not_reuses_of_none hno
      simp only [Restored, Restores, if_neg hrej, if_neg hreuses, true_and, eq_comm]

theorem deallocate_restored {address : Word} (h : m.deallocate r1 address = some (m', p)) :
    Restored m m' := by
  rcases Allocator.deallocate_cases h with ⟨_, hspec⟩
  cases hspec with
  | found i => exact ⟨rfl, rfl⟩
  | missed => exact ⟨rfl, rfl⟩

theorem defrag_restored (h : m.defrag r1 = some m') : Restored m m' := by
  rcases Allocator.defrag_cases h with ⟨_, mem, rfl⟩
  exact ⟨rfl, rfl⟩

/-- A return is in order exactly when the condition held on entry. -/
theorem call_restored_iff {c : Call} (h : m.call c = some (m', p)) :
    Restored m m' ↔ Restores m (MemoryEvent.call c) := by
  cases c with
  | allocate r1 size => exact allocate_restored_iff h
  | deallocate r1 address => exact iff_of_true (deallocate_restored h) trivial
  | defrag r1 =>
      simp only [Allocator.call, Option.map_eq_some_iff] at h
      rcases h with ⟨m₁, hdefrag, heq⟩
      rw [Prod.mk.injEq] at heq
      rw [heq.1] at hdefrag
      exact iff_of_true (defrag_restored hdefrag) trivial

end Returns

/-- An event that meets the condition leaves the mutex released. -/
theorem restored_mutex (m : Allocator) (e : MemoryEvent) (m' : Allocator)
    (hmutex : m.mutex = unlocked) (hC : Restores m e) (h : memoryStep e m = some m') :
    m'.mutex = unlocked := by
  cases e with
  | call c =>
      simp only [memoryStep, Option.map_eq_some_iff] at h
      rcases h with ⟨⟨m₁, p⟩, hcall, rfl⟩
      exact ((call_restored_iff hcall).mpr hC).1
  | write index w =>
      simp only [memoryStep] at h
      split at h
      · rw [← Option.some.inj h]
        exact hmutex
      · exact absurd h (by simp only [reduceCtorEq, not_false_eq_true])
  | setSysTick enable =>
      rw [← Option.some.inj h]
      exact hmutex

/-- Whatever the memory was before `init_allocator`, and whatever has been
    called since: a call is in order exactly when it meets the condition, and
    if every call so far has met it then the next one does not spin. -/
theorem calls_restored {raw m : Allocator} {startOsSection ramSize : Word}
    {es : List MemoryEvent}
    (hrun : run memoryStep es (raw.initAllocator startOsSection ramSize) = some m) :
    (∀ c m' p, m.call c = some (m', p) → (Restored m m' ↔ Restores m (MemoryEvent.call c))) ∧
      (Meets memoryStep Restores es (raw.initAllocator startOsSection ramSize) →
        ∀ r1, m.lockMutex r1 ≠ none) := by
  refine ⟨fun c m' p hcall => call_restored_iff hcall, fun hmeets r1 hspin => ?_⟩
  have hmutex : m.mutex = unlocked :=
    run_invariant memoryStep (fun m => m.mutex = unlocked) restored_mutex es _ m rfl hmeets hrun
  have hfree : m.mutex ≠ locked := by
    rw [hmutex]
    decide
  rw [Allocator.lockMutex_free r1 hfree] at hspin
  exact absurd hspin (by simp only [reduceCtorEq, not_false_eq_true])

/-- The memory after `init_allocator`. -/
def freshMemory : Allocator := blankMemory.initAllocator 0x20001000#32 0x10000#32

/-- A chunk is taken while the timer runs, given back, and taken again while
    the timer is stopped. -/
def takeTwice : List MemoryEvent :=
  [MemoryEvent.setSysTick true,
   MemoryEvent.call (Call.allocate 7#32 24),
   MemoryEvent.call (Call.deallocate 7#32 0x20001100#32),
   MemoryEvent.setSysTick false,
   MemoryEvent.call (Call.allocate 7#32 20)]

theorem calls_restored_takeTwice :
    Meets memoryStep Restores takeTwice freshMemory ∧
      Ends memoryStep takeTwice freshMemory fun m =>
        (∀ c m' p, m.call c = some (m', p) → (Restored m m' ↔ Restores m (MemoryEvent.call c))) ∧
          ∀ r1, m.lockMutex r1 ≠ none := by
  have hmeets : Meets memoryStep Restores takeTwice freshMemory := by decide +kernel
  have hends : Ends memoryStep takeTwice freshMemory fun _ => True := by decide +kernel
  rcases hends with ⟨m, hrun, _⟩
  rcases calls_restored hrun with ⟨hcalls, hspins⟩
  exact ⟨hmeets, m, hrun, hcalls, hspins hmeets⟩

/-- A request for nothing, by a caller that has `locked` in `r1`. -/
def requestNothing : List MemoryEvent :=
  [MemoryEvent.setSysTick true, MemoryEvent.call (Call.allocate 1#32 0)]

theorem calls_spin :
    Ends memoryStep requestNothing freshMemory fun m =>
      m.mutex ≠ unlocked ∧ m.sysTick = false ∧ ∀ c, m.call c = none := by
  have hends : Ends memoryStep requestNothing freshMemory fun m =>
      m.mutex = locked ∧ m.sysTick = false := by decide +kernel
  rcases hends with ⟨m, hrun, hlocked, htick⟩
  refine ⟨m, hrun, by rw [hlocked]; decide, htick, fun c => ?_⟩
  cases c with
  | allocate r1 size =>
      cases hcall : m.allocate r1 size with
      | none => exact hcall
      | some r => exact absurd hlocked (Allocator.allocate_cases hcall).1
  | deallocate r1 address =>
      cases hcall : m.deallocate r1 address with
      | none => exact hcall
      | some r => exact absurd hlocked (Allocator.deallocate_cases hcall).1
  | defrag r1 =>
      rw [Allocator.call]
      cases hcall : m.defrag r1 with
      | none => rfl
      | some m' => exact absurd hlocked (Allocator.defrag_cases hcall).1

end NextLevelRTOS
