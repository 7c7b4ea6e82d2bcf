import NextLevelRTOS.Process.Blocking

/-!
# How Far the Search Gets

`search_invalidate_tasks` counts the nodes it has looked at and stops when it
has looked at as many as there are left. So with every node it removes it gives
up on one that it has not looked at: the last ones, going round from
`currently_running`. It finds all dead tasks if there are enough live ones behind
the last of them.

`reapedNodes` is what the loop does, as a function of the list it walks, and
`searchLoop_swept` says that the loop does it. What is left is about lists.

## Main definitions

* `Kernel.dead`: The task of a node is finished or invalid.
* `Kernel.freedWith`: The chunks that go with a node.
* `ReapsDead`: What the search is for.
* `reapedNodes`: The nodes that the loop removes.
* `Swept`: What removing some nodes leaves.

## Theorems

* `reapedNodes_eq_iff`: When the loop removes all dead nodes.
* `searchLoop_swept`: The loop removes these nodes and changes nothing else.
-/

namespace NextLevelRTOS

open CircularList Machine

namespace Kernel

variable (s : Kernel)

/-- The task of a node is finished or invalid. -/
def dead (n : Addr) : Bool := s.stateOf n = .FINISHED ∨ s.stateOf n = .INVALID

/-- The chunks that are freed with a node: the code image of an external task, the
    stack, the control block and the node. -/
def freedWith (n : Addr) : List Addr :=
  let t := s.tcb (s.dataOf n)
  (if t.isExternal then [t.codeSection] else []) ++ [t.stacksectionLowerBound, s.dataOf n, n]

/-- The running ring from the current node on. -/
def ring : List Addr := walk s.node.next s.runningTasks.size s.currentlyRunning

end Kernel

/-- What `search_invalidate_tasks` is for: the dead nodes are gone and the others
    in order, their chunks are free and no others are, and `clean_up_requests`,
    which has four bits, is lower by their number. -/
structure ReapsDead (s s' : Kernel) : Prop where
  wellFormed : WellFormed s'.node s'.runningTasks
  order : s'.runningTasks.members s'.node =
    (s.runningTasks.members s.node).filter fun n => !s.dead n
  freed : ∀ a, a ∈ s'.occupied ↔
    a ∈ s.occupied ∧ ∀ n ∈ s.runningTasks.members s.node, s.dead n → a ∉ s.freedWith n
  requests : (s'.cleanUpRequests + (s.runningTasks.members s.node).countP s.dead) % 16 =
    s.cleanUpRequests % 16

/-! ### The loop on lists -/

section Lists

variable {dead : Addr → Bool}

/-- The nodes that the loop removes from the nodes in front of it, when it has
    looked at `j` nodes and `size` are left. -/
def reapedNodes (dead : Addr → Bool) : Nat → Nat → List Addr → List Addr
  | _, _, [] => []
  | j, size, q :: rest =>
    if j < size then
      if dead q then q :: reapedNodes dead (j + 1) (size - 1) rest
      else reapedNodes dead (j + 1) size rest
    else []

theorem reapedNodes_sublist : ∀ (l : List Addr) (j size : Nat),
    (reapedNodes dead j size l).Sublist (l.filter dead) := by
  intro l
  induction l with
  | nil => exact fun _ _ => List.Sublist.refl _
  | cons q rest ih =>
      intro j size
      rw [reapedNodes]
      split
      · split
        · rename_i hdead
          rw [List.filter_cons_of_pos hdead]
          exact (ih _ _).cons_cons q
        · rename_i halive
          rw [List.filter_cons_of_neg halive]
          exact ih _ _
      · exact List.nil_sublist _

/-- There is a dead node at some place. -/
theorem exists_dead {l : List Addr} (h : 0 < l.countP dead) :
    ∃ (i : Nat) (a : Addr), l[i]? = some a ∧ dead a = true := by
  rcases List.countP_pos_iff.mp h with ⟨a, ha, hdead⟩
  rcases List.getElem?_of_mem ha with ⟨i, hi⟩
  exact ⟨i, a, hi, hdead⟩

/-- At each dead node the count has not come down to where it is. -/
def EarlyEnough (dead : Addr → Bool) (l : List Addr) (j size : Nat) : Prop :=
  ∀ (i : Nat) (a : Addr), l[i]? = some a → dead a = true → j + i + l.countP dead ≤ size

theorem earlyEnough_none {l : List Addr} {j size : Nat} (h : l.countP dead = 0) :
    EarlyEnough dead l j size := by
  intro i a hi ha
  exact absurd ha (List.countP_eq_zero.mp h a (List.mem_of_getElem? hi))

/-- A dead node in front makes the others come closer and the count go down. -/
theorem earlyEnough_dead {q : Addr} {rest : List Addr} {j size : Nat} (hj : j < size)
    (hdead : dead q = true) :
    EarlyEnough dead (q :: rest) j size ↔ EarlyEnough dead rest (j + 1) (size - 1) := by
  have hcount : (q :: rest).countP dead = rest.countP dead + 1 := List.countP_cons_of_pos hdead
  constructor
  · intro h i a hi ha
    have hle := h (i + 1) a hi ha
    omega
  · intro h i a hi ha
    cases i with
    | zero =>
        -- With no other dead node there is one to spare, and with another that one
        -- is further on.
        rcases Nat.eq_zero_or_pos (rest.countP dead) with hzero | hpos
        · omega
        · rcases exists_dead hpos with ⟨i', a', hi', ha'⟩
          have hle := h i' a' hi' ha'
          omega
    | succ i =>
        have hle := h i a hi ha
        omega

theorem earlyEnough_alive {q : Addr} {rest : List Addr} {j size : Nat} (halive : dead q ≠ true) :
    EarlyEnough dead (q :: rest) j size ↔ EarlyEnough dead rest (j + 1) size := by
  have hcount : (q :: rest).countP dead = rest.countP dead := List.countP_cons_of_neg halive
  constructor
  · intro h i a hi ha
    have hle := h (i + 1) a hi ha
    omega
  · intro h i a hi ha
    cases i with
    | zero =>
        obtain rfl : q = a := Option.some.inj hi
        exact absurd ha halive
    | succ i =>
        have hle := h i a hi ha
        omega

/-- Where the loop stops no dead node is early enough. -/
theorem earlyEnough_stop {l : List Addr} {j size : Nat} (hj : ¬ j < size) :
    EarlyEnough dead l j size ↔ l.countP dead = 0 := by
  refine ⟨fun h => ?_, earlyEnough_none⟩
  by_contra hsome
  rcases exists_dead (Nat.pos_of_ne_zero hsome) with ⟨i, a, hi, ha⟩
  have hle := h i a hi ha
  omega

/-- The loop removes all dead nodes exactly if all of them are early enough. -/
theorem reapedNodes_eq_iff : ∀ (l : List Addr) (j size : Nat),
    reapedNodes dead j size l = l.filter dead ↔ EarlyEnough dead l j size := by
  intro l
  induction l with
  | nil => exact fun j size => iff_of_true rfl (earlyEnough_none rfl)
  | cons q rest ih =>
      intro j size
      rw [reapedNodes]
      by_cases hj : j < size
      · rw [if_pos hj]
        by_cases hdead : dead q = true
        · rw [if_pos hdead, List.filter_cons_of_pos hdead, List.cons.injEq, and_iff_right rfl, ih,
            earlyEnough_dead hj hdead]
        · rw [if_neg hdead, List.filter_cons_of_neg hdead, ih, earlyEnough_alive hdead]
      · rw [if_neg hj, earlyEnough_stop hj, List.countP_eq_length_filter,
          List.length_eq_zero_iff, eq_comm]

end Lists

/-! ### The loop -/

/-- What removing some nodes from the running queue, which stood for the list `l`,
    leaves. -/
structure Swept (s s' : Kernel) (l removed : List Addr) : Prop where
  running : Represents s'.node s'.runningTasks (l.filter fun n => n ∉ removed)
  data : s'.node.data = s.node.data
  tcb : s'.tcb = s.tcb
  occupied : s'.occupied = s.occupied.diff (removed.flatMap s.freedWith)
  requests : (s'.cleanUpRequests + removed.length) % 16 = s.cleanUpRequests % 16

section Loop

variable {s s' s'' : Kernel} {l removed : List Addr}

theorem dead_congr (hdata : s'.node.data = s.node.data) (htcb : s'.tcb = s.tcb) :
    s'.dead = s.dead := by
  funext n
  simp only [Kernel.dead, Kernel.stateOf, Kernel.dataOf, hdata, htcb]
  rfl

theorem freedWith_congr (hdata : s'.node.data = s.node.data) (htcb : s'.tcb = s.tcb) :
    s'.freedWith = s.freedWith := by
  funext n
  simp only [Kernel.freedWith, Kernel.dataOf, hdata, htcb]
  rfl

theorem swept_refl (h : Represents s.node s.runningTasks l) : Swept s s l [] := by
  refine ⟨?_, rfl, rfl, rfl, rfl⟩
  have hall : (l.filter fun n => n ∉ ([] : List Addr)) = l :=
    List.filter_eq_self.mpr fun n _ => decide_eq_true List.not_mem_nil
  rwa [hall]

theorem afterCleanUp_eq (n : Addr) (occupied : List Addr) :
    afterCleanUp (s.tcb (s.dataOf n)) (s.dataOf n) n occupied =
      occupied.diff (s.freedWith n) := by
  unfold afterCleanUp Kernel.freedWith
  by_cases hext : (s.tcb (s.dataOf n)).isExternal = true
  · simp only [hext, if_true, List.cons_append, List.nil_append, List.diff_cons, List.diff_nil]
  · simp only [hext, Bool.false_eq_true, if_false, List.nil_append, List.diff_cons, List.diff_nil]

theorem filter_notMem_singleton (h : l.Nodup) (n : Addr) :
    (l.filter fun m => m ∉ [n]) = l.erase n := by
  rw [h.erase_eq_filter]
  refine List.filter_congr fun m _ => Bool.eq_iff_iff.mpr ?_
  simp only [List.mem_singleton, decide_eq_true_eq, bne_iff_ne, ne_eq]

/-- Removing one node from among others. -/
theorem reap_swept (h : Represents s.node s.runningTasks l) {n : Addr} (hn : n ∈ l)
    (hlen : 1 < l.length) : Swept s (reap n s) l [n] := by
  refine ⟨?_, ?_, ?_, ?_, ?_⟩
  · rw [reap_eq, filter_notMem_singleton h.nodup]
    exact dequeueElement_represents h hn hlen
  · rw [reap_eq]
    exact dequeueElement_data s.node s.runningTasks n
  · rw [reap_eq]
  · rw [reap_eq, List.flatMap_singleton]
    exact afterCleanUp_eq n s.occupied
  · rw [reap_eq]
    simp only [List.length_singleton]
    omega

theorem swept_trans {more : List Addr} (h : Swept s s' l removed)
    (h' : Swept s' s'' (l.filter fun n => n ∉ removed) more) :
    Swept s s'' l (removed ++ more) := by
  have hfreed := freedWith_congr h.data h.tcb
  refine ⟨?_, h'.data.trans h.data, h'.tcb.trans h.tcb, ?_, ?_⟩
  · have hboth : (l.filter fun n => n ∉ removed ++ more) =
        (l.filter fun n => n ∉ removed).filter fun n => n ∉ more := by
      rw [List.filter_filter]
      refine List.filter_congr fun n _ => Bool.eq_iff_iff.mpr ?_
      simp only [List.mem_append, Bool.and_eq_true, decide_eq_true_eq]
      tauto
    rw [hboth]
    exact h'.running
  · rw [h'.occupied, hfreed, h.occupied, List.flatMap_append, List.diff_append]
  · have hfirst := h.requests
    have hsecond := h'.requests
    rw [List.length_append]
    omega

theorem searchLoop_stop {fuel j : Nat} {q : Addr} (h : s.runningTasks.size ≤ j) :
    searchLoop fuel j q s = s := by
  cases fuel with
  | zero => rfl
  | succ fuel => rw [searchLoop, if_neg (Nat.not_lt.mpr h)]

theorem searchLoop_dead {fuel j : Nat} {q : Addr} (hj : j < s.runningTasks.size)
    (hdead : s.dead q = true) : searchLoop (fuel + 1) j q s =
      searchLoop fuel (j + 1) ((reap q s).node.next q) (reap q s) := by
  have hstate : s.stateOf q = .FINISHED ∨ s.stateOf q = .INVALID := of_decide_eq_true hdead
  simp only [searchLoop, if_pos hj, if_pos hstate]

theorem searchLoop_alive {fuel j : Nat} {q : Addr} (hj : j < s.runningTasks.size)
    (halive : s.dead q ≠ true) : searchLoop (fuel + 1) j q s =
      searchLoop fuel (j + 1) (s.node.next q) s := by
  have hstate : ¬ (s.stateOf q = .FINISHED ∨ s.stateOf q = .INVALID) :=
    fun hc => halive (decide_eq_true hc)
  simp only [searchLoop, if_pos hj, if_neg hstate]

/-- The loop, with `front` before it and `kept` behind. The induction is on what
    is before it: the list never is longer than what the loop has looked at and
    what it has fuel for, and what it has kept it has looked at. -/
theorem searchLoop_swept : ∀ (front kept : List Addr) (fuel j : Nat) (q : Addr) (s : Kernel)
    (l : List Addr), Represents s.node s.runningTasks l → l.IsRotated (front ++ kept) →
    (∀ r, front.head? = some r → q = r) → l.length ≤ j + fuel → kept.length ≤ j →
    (1 < l.length ∨ 0 < j ∨ s.dead q ≠ true) →
    Swept s (searchLoop fuel j q s) l (reapedNodes s.dead j l.length front) := by
  intro front
  induction front with
  | nil =>
      intro kept fuel j q s l h hrotated _ _ hkept _
      have hlength : l.length = kept.length := hrotated.perm.length_eq
      rw [searchLoop_stop (by rw [h.size]; omega)]
      exact swept_refl h
  | cons r front ih =>
      intro kept fuel j q s l h hrotated hhead hfuel hkept hothers
      obtain rfl : q = r := hhead r rfl
      have hq : q ∈ l := hrotated.mem_iff.mpr List.mem_cons_self
      have hnext : ∀ r, front.head? = some r → s.node.next q = r := fun r hr => by
        rcases List.head?_eq_some_iff.mp hr with ⟨m, rfl⟩
        exact (ring_neighbours (ring_rotated h.ring hrotated)).1
      rw [reapedNodes]
      by_cases hj : j < l.length
      -- The size is read again in each round, and shrinks with each removal.
      · obtain ⟨fuel, rfl⟩ : ∃ n, fuel = n + 1 := ⟨fuel - 1, by omega⟩
        have hsize : j < s.runningTasks.size := by rwa [h.size]
        rw [if_pos hj]
        by_cases hdead : s.dead q = true
        · have hlen : 1 < l.length := by
            rcases hothers with hlen | hpos | halive
            · exact hlen
            · omega
            · exact absurd hdead halive
          have hstep := reap_swept h hq hlen
          have herase := filter_notMem_singleton h.nodup q
          have hgone : (l.filter fun n => n ∉ [q]).IsRotated (front ++ kept) := by
            rw [herase]
            exact erase_rotated h.nodup hrotated
          have hlength : (l.filter fun n => n ∉ [q]).length = l.length - 1 := by
            rw [herase, List.length_erase_of_mem hq]
          have hrest := ih kept fuel (j + 1) (s.node.next q) (reap q s) _ hstep.running hgone hnext
            (by omega) (by omega) (Or.inr (Or.inl (Nat.succ_pos j)))
          -- The node that has been removed still points at the one behind it.
          have hfrom : (reap q s).node.next q = s.node.next q := by
            rw [reap_eq]
            exact dequeueElement_next h hq
          rw [if_pos hdead, searchLoop_dead hsize hdead, hfrom]
          rw [dead_congr hstep.data hstep.tcb, hlength] at hrest
          exact swept_trans hstep hrest
        · rw [if_neg hdead, searchLoop_alive hsize hdead]
          -- A live node is passed, and comes to stand behind those still ahead.
          refine ih (kept ++ [q]) fuel (j + 1) _ s l h ?_ hnext (by omega) ?_
            (Or.inr (Or.inl (Nat.succ_pos j)))
          · rw [← List.append_assoc]
            exact hrotated.trans List.IsRotated.cons_append_singleton
          · rw [List.length_append, List.length_singleton]
            omega
      · rw [if_neg hj, searchLoop_stop (by rw [h.size]; omega)]
        exact swept_refl h

end Loop

/-! ### When all dead tasks are removed -/

/-- Enough live tasks are behind the last dead one: some task is alive, and at the
    place of each dead one, counted from the current node on, so many nodes are
    still to come as there are dead ones. -/
def EnoughBehind (s : Kernel) : Prop :=
  (∃ n ∈ s.ring, s.dead n = false) ∧
    ∀ i < s.ring.length, ∀ n ∈ s.ring[i]?, s.dead n = true →
      i + s.ring.countP s.dead ≤ s.ring.length

instance (s : Kernel) : Decidable (EnoughBehind s) := inferInstanceAs (Decidable (_ ∧ _))

section Search

variable {s : Kernel} {a b l : List Addr}

theorem ring_eq (h : Represents s.node s.runningTasks (a ++ s.currentlyRunning :: b)) :
    s.ring = s.currentlyRunning :: (b ++ a) := by
  have hring : Ring s.node.next s.node.prev (s.currentlyRunning :: (b ++ a)) :=
    (ring_append_comm a (s.currentlyRunning :: b)).mp h.ring
  have hsize : s.runningTasks.size = (b ++ a).length + 1 := by
    rw [h.size]
    simp only [List.length_append, List.length_cons]
    omega
  rw [Kernel.ring, hsize, walk_ring hring]

theorem ring_isRotated (h : Represents s.node s.runningTasks l) (hcur : s.currentlyRunning ∈ l) :
    l.IsRotated s.ring ∧ s.ring.head? = some s.currentlyRunning := by
  rcases List.append_of_mem hcur with ⟨a, b, rfl⟩
  rw [ring_eq h]
  exact ⟨List.isRotated_append, rfl⟩

/-- The whole search, unless it removes the only node. -/
theorem searchInvalidateTasks_swept (h : Represents s.node s.runningTasks l)
    (hcur : s.currentlyRunning ∈ l) (hothers : 1 < l.length ∨ s.dead s.currentlyRunning ≠ true) :
    Swept s (searchInvalidateTasks s) l (reapedNodes s.dead 0 s.ring.length s.ring) := by
  rcases ring_isRotated h hcur with ⟨hrotated, hhead⟩
  rw [← hrotated.perm.length_eq]
  refine searchLoop_swept s.ring [] _ 0 _ s l h ?_ (fun r hr => ?_) ?_ (Nat.le_refl 0) ?_
  · rwa [List.append_nil]
  · exact Option.some.inj (hhead.symm.trans hr)
  · rw [h.size, Nat.zero_add]
  · rcases hothers with hlen | halive
    · exact Or.inl hlen
    · exact Or.inr (Or.inr halive)

/-- The nodes that are left are the live ones exactly if all dead ones have been
    removed. -/
theorem filter_reapedNodes_iff (h : Represents s.node s.runningTasks l)
    (hcur : s.currentlyRunning ∈ l) :
    (l.filter fun n => n ∉ reapedNodes s.dead 0 s.ring.length s.ring) =
        (l.filter fun n => !s.dead n) ↔
      reapedNodes s.dead 0 s.ring.length s.ring = s.ring.filter s.dead := by
  have hrotated := (ring_isRotated h hcur).1
  have hsub := @reapedNodes_sublist s.dead s.ring 0 s.ring.length
  generalize reapedNodes s.dead 0 s.ring.length s.ring = removed at hsub ⊢
  constructor
  · intro heq
    -- The nodes removed are some of the dead ones; if no dead node is left they are
    -- all.
    have hnodup : (s.ring.filter s.dead).Nodup :=
      (hrotated.nodup_iff.mp h.nodup).filter _
    refine hsub.eq_of_length_le (hnodup.subperm fun n hn => ?_).length_le
    rcases List.mem_filter.mp hn with ⟨hring, hdead⟩
    by_contra hkept
    have hmem : n ∈ l.filter fun n => n ∉ removed :=
      List.mem_filter.mpr ⟨hrotated.mem_iff.mpr hring, decide_eq_true hkept⟩
    rw [heq, List.mem_filter, hdead] at hmem
    exact absurd hmem.2 Bool.false_ne_true
  · rintro rfl
    refine List.filter_congr fun n hn => Bool.eq_iff_iff.mpr ?_
    have hring : n ∈ s.ring := hrotated.mem_iff.mp hn
    simp only [List.mem_filter, hring, true_and, decide_eq_true_eq, Bool.not_eq_true',
      Bool.not_eq_true]

/-- All dead nodes are removed exactly if there are enough live ones behind them,
    and this includes one, unless the queue has one node. -/
theorem enoughBehind_iff (h : Represents s.node s.runningTasks l)
    (hcur : s.currentlyRunning ∈ l) (hothers : 1 < l.length ∨ s.dead s.currentlyRunning ≠ true) :
    EnoughBehind s ↔ reapedNodes s.dead 0 s.ring.length s.ring = s.ring.filter s.dead := by
  rcases ring_isRotated h hcur with ⟨hrotated, hhead⟩
  have hlength := hrotated.perm.length_eq
  rw [reapedNodes_eq_iff]
  constructor
  · rintro ⟨-, hplaces⟩ i n hi hdead
    rw [Nat.zero_add]
    exact hplaces i (List.getElem?_eq_some_iff.mp hi).1 n hi hdead
  · intro hplaces
    refine ⟨?_, fun i _ n hn hdead => ?_⟩
    · by_contra hnone
      have hall : ∀ n ∈ s.ring, s.dead n = true := fun n hn => by
        by_contra halive
        exact hnone ⟨n, hn, Bool.eq_false_iff.mpr halive⟩
      have hcount : s.ring.countP s.dead = s.ring.length := List.countP_eq_length.mpr hall
      rcases hothers with hlen | halive
      · -- The last node is dead like all the others.
        have hlast : s.ring.length - 1 < s.ring.length := by omega
        have hle := hplaces (s.ring.length - 1) _ (List.getElem?_eq_getElem hlast)
          (hall _ (List.getElem_mem hlast))
        omega
      · exact halive (hall _ (List.mem_of_mem_head? hhead))
    · have hle := hplaces i n hn hdead
      rwa [Nat.zero_add] at hle

/-- A search that removes the only node leaves the head of the queue where it
    was. -/
theorem search_last (h : Represents s.node s.runningTasks [s.currentlyRunning])
    (hdead : s.dead s.currentlyRunning = true) :
    (searchInvalidateTasks s).runningTasks.size = 0 ∧
      (searchInvalidateTasks s).runningTasks.head = s.currentlyRunning := by
  have hsize : s.runningTasks.size = 1 := h.size
  have hhead : s.runningTasks.head = s.currentlyRunning := h.head
  have hnext : s.node.next s.currentlyRunning = s.currentlyRunning := h.ring.1
  rw [searchInvalidateTasks, hsize, searchLoop_dead (by omega) hdead, searchLoop, reap_eq]
  simp only [dequeueElement, hhead, if_true, hsize, hnext, and_self, Nat.sub_self]

theorem not_reapsDead_last (h : Represents s.node s.runningTasks [s.currentlyRunning])
    (hdead : s.dead s.currentlyRunning = true) : ¬ ReapsDead s (searchInvalidateTasks s) := by
  intro hreaps
  rcases search_last h hdead with ⟨hsize, hhead⟩
  have hnull := (hreaps.wellFormed.empty hsize).1
  rw [hhead] at hnull
  exact h.nonnull (by rw [hnull]; exact List.mem_cons_self)

theorem not_enoughBehind_last (h : Represents s.node s.runningTasks [s.currentlyRunning])
    (hdead : s.dead s.currentlyRunning = true) : ¬ EnoughBehind s := by
  rintro ⟨⟨n, hn, halive⟩, -⟩
  rw [← (ring_isRotated h List.mem_cons_self).1.mem_iff, List.mem_singleton] at hn
  rw [hn, hdead] at halive
  exact Bool.noConfusion halive

/-- When the search does what it is for. -/
theorem search_reaps_iff (hrunning : WellFormed s.node s.runningTasks)
    (hcur : s.currentlyRunning ∈ s.runningTasks.members s.node) (hchunks : s.occupied.Nodup) :
    ReapsDead s (searchInvalidateTasks s) ↔ EnoughBehind s := by
  have h := wellFormed_represents hrunning
  set l := s.runningTasks.members s.node with hl
  rcases ring_isRotated h hcur with ⟨hrotated, -⟩
  by_cases hothers : 1 < l.length ∨ s.dead s.currentlyRunning ≠ true
  -- The order is right exactly if all dead nodes were taken out; the rest follows.
  · have hswept := searchInvalidateTasks_swept h hcur hothers
    have hmembers := represents_members hswept.running
    rw [enoughBehind_iff h hcur hothers, ← filter_reapedNodes_iff h hcur]
    constructor
    · intro hreaps
      rw [← hmembers]
      exact hreaps.order
    · intro heq
      have hremoved := (filter_reapedNodes_iff h hcur).mp heq
      refine ⟨represents_wellFormed hswept.running, hmembers.trans heq, fun x => ?_, ?_⟩
      · rw [hswept.occupied, hchunks.mem_sdiff_iff, hremoved, List.mem_flatMap, not_exists]
        refine and_congr_right fun _ => forall_congr' fun n => ?_
        rw [List.mem_filter, ← hrotated.mem_iff]
        tauto
      · have hrequests := hswept.requests
        rw [hremoved, ← List.countP_eq_length_filter, ← hrotated.perm.countP_eq] at hrequests
        exact hrequests
  · -- The current node is the only one, and its task is dead.
    push Not at hothers
    rcases hothers with ⟨hlen, hdead⟩
    have hone : l = [s.currentlyRunning] := by
      rcases List.length_eq_one_iff.mp (Nat.le_antisymm hlen (List.length_pos_of_mem hcur)) with
        ⟨n, hn⟩
      rw [hn, List.mem_singleton] at hcur
      rw [hn, hcur]
    rw [hone] at h hcur
    exact iff_of_false (not_reapsDead_last h hdead) (not_enoughBehind_last h hdead)

end Search

/-- The idle task and five others, two of which fault one after the other, those
    before and behind a third. -/
def deadApart : List Event :=
  startUp ++ [.createTask (chunksFrom 20) 3 0, .createTask (chunksFrom 30) 3 0,
    .createTask (chunksFrom 40) 3 0, .createTask (chunksFrom 50) 3 0,
    .createTask (chunksFrom 60) 3 0, .yieldTask, .pendsv 8, .invalidateCurrentTask, .pendsv 8,
    .yieldTask, .pendsv 8, .invalidateCurrentTask, .pendsv 8, .yieldTask, .pendsv 8,
    .yieldTask, .pendsv 8]

theorem search_reaps_iff_deadApart : Ends step deadApart freshKernel fun s =>
    s.ring.countP s.dead = 2 ∧ ReapsDead s (searchInvalidateTasks s) := by
  have hends : Ends step deadApart freshKernel fun s =>
      Thread s ∧ s.ring.countP s.dead = 2 ∧ EnoughBehind s := by decide +kernel
  rcases hends with ⟨s, hrun, hthread, hcount, henough⟩
  rcases reachable_inv freshKernel_initialized hrun with ⟨v, hinv⟩
  have hring := inv_runningRing hinv hthread
  exact ⟨s, hrun, hcount, (search_reaps_iff hring.running hring.current
    hinv.consistent.chunks).mpr henough⟩

/-- The idle task and two others, which have both faulted. -/
def deadTogether : List Event :=
  startUp ++ [.createTask (chunksFrom 20) 3 0, .createTask (chunksFrom 30) 3 0, .yieldTask,
    .pendsv 8, .invalidateCurrentTask, .pendsv 8, .invalidateCurrentTask, .pendsv 8]

/-- The second is left in the queue. -/
theorem search_leaves_dead : Ends step deadTogether freshKernel fun s =>
    RunningRing s ∧ s.pidOf s.currentlyRunning = 0 ∧ ¬ ReapsDead s (searchInvalidateTasks s) := by
  have hends : Ends step deadTogether freshKernel fun s =>
      Thread s ∧ s.pidOf s.currentlyRunning = 0 ∧
        (searchInvalidateTasks s).runningTasks.members (searchInvalidateTasks s).node ≠
          (s.runningTasks.members s.node).filter fun n => !s.dead n := by decide +kernel
  rcases hends with ⟨s, hrun, hthread, hidle, hne⟩
  rcases reachable_inv freshKernel_initialized hrun with ⟨v, hinv⟩
  exact ⟨s, hrun, inv_runningRing hinv hthread, hidle, fun hreaps => hne hreaps.order⟩

end NextLevelRTOS
