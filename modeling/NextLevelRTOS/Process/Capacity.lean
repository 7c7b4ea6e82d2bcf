import NextLevelRTOS.Process.Regions
import NextLevelRTOS.Process.Lifetime

/-!
# How Many Tasks a System Can Have

The table of the allocator has 64 entries, and an entry is used for as long as
its chunk is not given back. The two queues take two of them for good, and a
live task takes at least four. What a task leaves behind when it is reaped adds
up: its child list, and the node that stands for it in the child list of the
task that created it, stay in use.

So there is a limit to the number of tasks that can ever be created, whatever
is reaped in between and however much memory is left. Running tasks create 27
tasks at most in the system's life.

## Main definitions

* `creationCount`: How many tasks a run creates, before a task runs or by tasks.
* `Budget`: What the tasks that were created have taken.

## Theorems

* `occupied_slots`: The kernel has no more chunks than there are entries.
* `budget_step`: Every creation takes what it takes, and reaping gives back less.
* `creations_bounded`: The number of tasks that tasks create is bounded.
-/

namespace NextLevelRTOS

open Machine Allocator

/-- How many tasks a run creates, with a task running or without. -/
def creationCount (byTask : Bool) : List HostedEvent → Hosted → Nat
  | [], _ => 0
  | e :: es, h =>
    match hostedStep e h with
    | none => 0
    | some h' =>
      (if decide (h.kernel.currentlyRunning ≠ NULL) = byTask then
        h'.kernel.live.length - h.kernel.live.length else 0) + creationCount byTask es h'

/-- What has been taken for good or by a live task, when so many tasks were created
    before a task ran and so many by tasks. -/
structure Budget (boot byTask : Nat) (h : Hosted) (v : View) : Prop where
  taken : 2 + boot + 2 * byTask ≤ v.leaked.length + h.kernel.live.length
  first : h.kernel.live ≠ [] → 1 ≤ boot
  bound : byTask ≤ 27

section Slots

variable {h h' : Hosted} {v v' : View} {e : HostedEvent}

/-- Every live block has an entry of its own. -/
theorem live_slots {c : Client} {k : Nat} (hcovered : Covered c k) : c.live.length ≤ k := by
  have hsub : c.live.map Prod.fst ⊆
      (List.range k).map fun i => c.heap.addressOf (Tiling.start c.heap.sizes i) := by
    intro a ha
    rcases List.mem_map.mp ha with ⟨b, hb, rfl⟩
    rcases hcovered.entry b hb with ⟨i, hi, hcov⟩
    exact List.mem_map.mpr ⟨i, List.mem_range.mpr hi, hcov.address.symm⟩
  have hle := (List.subperm_of_subset hcovered.distinct hsub).length_le
  rwa [List.length_map, List.length_map, List.length_range] at hle

/-- The kernel has no more chunks in use than the table has entries. -/
theorem occupied_slots (hg : Grounded h v) : h.kernel.occupied.length ≤ numOfSlots := by
  rcases hg.covered with ⟨k, hk⟩
  have hsub : h.kernel.occupied ⊆ h.client.live.map fun b => b.1.toNat := fun a ha =>
    let ⟨b, hb, hba⟩ := hg.backed a ha
    List.mem_map.mpr ⟨b, hb, hba⟩
  have hle := (List.subperm_of_subset hg.inv.consistent.chunks hsub).length_le
  rw [List.length_map] at hle
  exact Nat.le_trans hle (Nat.le_trans (live_slots hk) hk.tiled.bound)

/-- A live task has at least four chunks. -/
theorem ownedChunks_ge (s : Kernel) : s.images.length + 4 * s.live.length ≤ ownedChunks s := by
  have hfold : ∀ l : List Addr,
      4 * l.length ≤ l.foldr (fun t n => (s.tcb t).chunks.length + 2 + n) 0 := by
    intro l
    induction l with
    | nil => exact Nat.le_refl 0
    | cons t l ih =>
        have hchunks : 2 ≤ (s.tcb t).chunks.length := by
          rw [Tcb.chunks, List.length_cons, List.length_cons]
          omega
        rw [List.foldr_cons, List.length_cons]
        omega
  have hlive := hfold s.live
  rw [ownedChunks]
  omega

/-- What is taken fits the table. -/
theorem taken_slots (hg : Grounded h v) : h.kernel.images.length + 4 * h.kernel.live.length +
    v.leaked.length ≤ 64 := by
  have hslots := occupied_slots hg
  rw [occupied_length hg.inv.consistent, numOfSlots] at hslots
  have howned := ownedChunks_ge h.kernel
  omega

/-- Every event keeps the account. A creation by a task takes two entries more than
    the task itself, one of which its parent's child list keeps. -/
theorem budget_step {boot byTask : Nat} (hg : Grounded h v) (hg' : Grounded h' v')
    (hout : HostedOutcome e h h' v v') (hbudget : Budget boot byTask h v) :
    Budget
      (boot + if decide (h.kernel.currentlyRunning ≠ NULL) = false then
        h'.kernel.live.length - h.kernel.live.length else 0)
      (byTask + if decide (h.kernel.currentlyRunning ≠ NULL) = true then
        h'.kernel.live.length - h.kernel.live.length else 0) h' v' := by
  rcases hbudget with ⟨htaken, hfirst, hbound⟩
  -- All events but a creation leave the number of tasks and what is taken together.
  have hsame : v.leaked.length + h.kernel.live.length ≤
      v'.leaked.length + h'.kernel.live.length → h'.kernel.live.Sublist h.kernel.live →
      Budget
        (boot + if decide (h.kernel.currentlyRunning ≠ NULL) = false then
          h'.kernel.live.length - h.kernel.live.length else 0)
        (byTask + if decide (h.kernel.currentlyRunning ≠ NULL) = true then
          h'.kernel.live.length - h.kernel.live.length else 0) h' v' := by
    intro hle hsub
    have hzero : h'.kernel.live.length - h.kernel.live.length = 0 :=
      Nat.sub_eq_zero_of_le hsub.length_le
    simp only [hzero, ite_self, Nat.add_zero]
    refine ⟨Nat.le_trans htaken hle, fun hne => hfirst fun hc => hne ?_, hbound⟩
    exact List.sublist_nil.mp (hc ▸ hsub)
  cases hout with
  | own _ hkernel hv =>
      rw [hkernel, hv] at hsame ⊢
      exact hsame (Nat.le_refl _) (List.Sublist.refl _)
  | kernel e' _ _ hout _ =>
      cases hout with
      | moved hm _ _ =>
          exact hsame (by rw [hm.leaked, hm.frame.live]) (by rw [hm.frame.live])
      | image a _ hs' hv =>
          exact hsame (by rw [hs', hv, allocate_eq]) (by rw [hs', allocate_eq])
      | notCreated c ramLocation _ hkeep hnot =>
          rcases hnot.leaked with ⟨l, hl⟩
          refine hsame ?_ (by rw [hnot.live])
          rw [hl, hnot.live, List.length_append]
          omega
      | created c ramLocation _ hkeep hnew =>
          have hleaked : v'.leaked = c.entry h.kernel ++ v.leaked := by
            rw [hnew.view, insert_leaked]
          have hlive : h'.kernel.live.length = h.kernel.live.length + 1 := by
            rw [hnew.live, List.length_append, List.length_singleton]
          by_cases hcur : h.kernel.currentlyRunning = NULL
          · have hentry : v'.leaked.length = v.leaked.length := by
              rw [hleaked, Chunks.entry, if_pos hcur, List.nil_append]
            simp only [hcur, ne_eq, not_true, decide_false, if_true, Bool.false_eq_true, if_false]
            exact ⟨by omega, fun _ => by omega, hbound⟩
          · have hentry : v'.leaked.length = v.leaked.length + 1 := by
              rw [hleaked, Chunks.entry, if_neg hcur, List.length_append, List.length_singleton,
                Nat.add_comm]
            have hparent : h.kernel.live ≠ [] := by
              have hmem := (consistent_live_iff hg.inv.consistent _).mpr
                ⟨_, List.mem_append_left _ (hg.inv.current hcur), rfl⟩
              exact List.ne_nil_of_mem hmem
            have hboot := hfirst hparent
            have hpos := List.length_pos_iff.mpr hparent
            have hslots := taken_slots hg'
            simp only [hcur, ne_eq, not_false_eq_true, decide_true, Bool.true_eq_false, if_false,
              if_true]
            exact ⟨by omega, fun _ => by omega, by omega⟩
      | reaped _ hr =>
          exact hsame (by rw [hr.count]) hr.live

/-- `init_scheduler` has allocated the two queues. -/
theorem initialized_occupied {s : Kernel} (hinit : Initialized s) : s.occupied.length = 2 := by
  rcases hinit with ⟨node, tcb, list, snode, rq, wq, _, heq⟩
  rcases initScheduler_cases rq wq (Kernel.reset node tcb list snode) with hfail | ⟨_, _, hcase⟩
  · rw [heq] at hfail
    exact absurd (show (0 : Int) = -1 from hfail) (by decide)
  · rw [heq, Prod.mk.injEq] at hcase
    rw [hcase.2]
    rfl

end Slots

/-- In every run of a hosted kernel: the tasks that were created, those created by a
    task counted twice, with three for each task that lives and one for each image,
    fit the table besides the queues. And no more than 27 tasks are ever created by
    tasks, however many of them are reaped. -/
theorem creations_bounded {h₀ h : Hosted} {es : List HostedEvent} (hinit : HostedInitialized h₀)
    (hrun : run hostedStep es h₀ = some h) (hsmall : ∀ e ∈ es, SmallRequest e)
    (hbytes : h.client.heap.usedBytes < 65536) :
    2 + creationCount false es h₀ + 2 * creationCount true es h₀ + 3 * h.kernel.live.length +
        h.kernel.images.length ≤ 64 ∧
      creationCount true es h₀ ≤ 27 := by
  rcases hosted_start hinit hsmall hrun hbytes with ⟨hinitialized, hg₀⟩
  let P : List HostedEvent → Hosted → View → Prop := fun fs g u =>
    ∃ boot byTask, boot + creationCount false fs g = creationCount false es h₀ ∧
      byTask + creationCount true fs g = creationCount true es h₀ ∧ Budget boot byTask g u
  have hP : ∀ f fs g g' u u', Grounded g u → Grounded g' u' → Retains g g' → SmallRequest f →
      hostedStep f g = some g' → HostedOutcome f g g' u u' → P (f :: fs) g u → P fs g' u' := by
    rintro f fs g g' u u' hg hg' _ _ hstep hout ⟨boot, byTask, hboot, hbyTask, hbudget⟩
    simp only [creationCount, hstep] at hboot hbyTask
    refine ⟨_, _, ?_, ?_, budget_step hg hg' hout hbudget⟩
    · rw [Nat.add_assoc]
      exact hboot
    · rw [Nat.add_assoc]
      exact hbyTask
  have hstart : P es h₀ { running := [], waiting := [], leaked := h₀.kernel.occupied } := by
    refine ⟨0, 0, Nat.zero_add _, Nat.zero_add _, ?_,
      fun hne => absurd (initScheduler_inv hinitialized).2.1 hne, Nat.zero_le _⟩
    rw [initialized_occupied hinitialized]
    omega
  rcases hosted_induction hP hg₀ hstart hsmall hrun hbytes with
    ⟨v, hg, boot, byTask, hboot, hbyTask, hbudget⟩
  have hslots := taken_slots hg
  have htaken := hbudget.taken
  have hbound := hbudget.bound
  simp only [creationCount, Nat.add_zero] at hboot hbyTask
  omega

theorem creations_bounded_round : Ends hostedStep hostedRound freshHosted fun h =>
    creationCount true hostedRound freshHosted = 1 ∧
      2 + creationCount false hostedRound freshHosted + 2 * 1 + 3 * h.kernel.live.length +
        h.kernel.images.length ≤ 64 := by
  have hends : Ends hostedStep hostedRound freshHosted fun h =>
      h.client.heap.usedBytes < 65536 ∧ creationCount true hostedRound freshHosted = 1 := by
    decide +kernel
  rcases hends with ⟨h, hrun, hbytes, hcount⟩
  have hbound := (creations_bounded freshHosted_initialized hrun hostedRound_small hbytes).1
  rw [hcount] at hbound
  exact ⟨h, hrun, hcount, hbound⟩

end NextLevelRTOS
