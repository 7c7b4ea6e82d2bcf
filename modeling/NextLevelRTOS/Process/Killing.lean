import Mathlib.Data.Fintype.EquivFin
import Mathlib.Logic.Relation
import NextLevelRTOS.Process.Requests

/-!
# Killing Descendants

Both functions that kill follow child lists. On lists that hold what they should,
the control blocks of the children, `kill_all_child_tasksR` finds every
descendant of the task it is called for, and no other.

`kill_all_child_tasks` does not call it for the current task but for what the
first entry of the child list points to. So the children themselves are spared,
and all that is below the others; with no entry there is nothing at the address
that is read. `kill_child_task` was meant to search the list of `parent`, or of
the current task without one. The `!` binds to `parent` alone, so whenever the
current task has a list the one that is searched is at address 0 or 1, where
nothing is.

What is read where nothing is can be anything, so the functions do what they are
for only if they do it whatever a `Stray` holds.

## Main definitions

* `Below`: The proper descendants.
* `ChildList`, `TaskTree`: Child lists that hold control blocks of a tree.
* `KillsDescendants`, `KillsChild`: What the two functions are for.

## Theorems

* `childrenR_below`: `kill_all_child_tasksR` finds the proper descendants.
* `killsDescendants_iff`, `killsChild_iff`: When the two functions do what they
  are for.
-/

namespace NextLevelRTOS

open Machine

/-- `d` is a proper descendant of `t`. -/
def Below (children : Addr → List Addr) (t d : Addr) : Prop :=
  Relation.TransGen (fun p c => c ∈ children p) t d

theorem below_iff {children : Addr → List Addr} {t d : Addr} :
    Below children t d ↔ ∃ c ∈ children t, d = c ∨ Below children c d := by
  rw [Below, Relation.TransGen.head'_iff]
  refine exists_congr fun c => and_congr_right fun _ => ?_
  rw [Relation.reflTransGen_iff_eq_or_transGen]
  rfl

/-- The nodes from `q` on hold these control blocks. -/
def Chain (s : Kernel) : Addr → List Addr → Prop
  | q, [] => q = NULL
  | q, c :: cs =>
    q ≠ NULL ∧ q ∈ s.occupied ∧ (s.snode q).data = c ∧ Chain s (s.snode q).next cs

/-- The task has a list, which holds these control blocks. -/
structure ChildList (s : Kernel) (t : Addr) (cs : List Addr) : Prop where
  list : (s.tcb t).childTasks ∈ s.occupied
  size : (s.list (s.tcb t).childTasks).size = cs.length
  chain : Chain s (s.list (s.tcb t).childTasks).head cs

/-- The current task. -/
def Kernel.caller (s : Kernel) : Addr := s.dataOf s.currentlyRunning

/-- The live tasks have lists that hold the control blocks of their children,
    which are live and of finite descent; the current task may have none. Nothing
    is at the addresses 0 and 1. -/
structure TaskTree (s : Kernel) (children : Addr → List Addr) : Prop where
  current : s.caller ∈ s.live
  list : ∀ t ∈ s.live, ChildList s t (children t) ∨
    t = s.caller ∧ (s.tcb t).childTasks = NULL ∧ children t = []
  live : ∀ t ∈ s.live, ∀ c ∈ children t, c ∈ s.live
  finite : ∀ t ∈ s.live, Acc (fun c p => c ∈ children p) t
  nothing : NULL ∉ s.occupied ∧ 1 ∉ s.occupied ∧ NULL ∉ s.live

/-- Exactly the control blocks with the property are marked. -/
def Marks (s s' : Kernel) (P : Addr → Prop) : Prop :=
  ∀ t, (P t → (s'.tcb t).state = .INVALID) ∧ (¬ P t → (s'.tcb t).state = (s.tcb t).state)

/-- What `kill_all_child_tasks` is for: whatever memory holds where nothing is, it
    ends and has marked the proper descendants of the current task. -/
def KillsDescendants (s : Kernel) (children : Addr → List Addr) : Prop :=
  ∀ stray, ∃ fuel s', killAllChildTasks stray s fuel = some s' ∧
    Marks s s' (Below children s.caller)

/-- What `kill_child_task` is for: it ends and has marked the child with the
    identifier, of the parent or, without one, of the current task. -/
def KillsChild (s : Kernel) (children : Addr → List Addr) (pidOfChild : Nat) (parent : Addr) :
    Prop :=
  ∀ stray, ∃ fuel s', killChildTask stray s pidOfChild parent fuel = some s' ∧
    Marks s s' fun t => (children (if parent = NULL then s.caller else parent)).find?
      (fun c => (s.tcb c).pid = pidOfChild) = some t

section Walks

variable {stray : Stray} {s : Kernel} {children : Addr → List Addr}

theorem childrenR_succ (fuel : Nat) (t : Addr) : childrenR stray s (fuel + 1) t =
    if (listAt stray s (tcbAt stray s t).childTasks).size = 0 then some []
    else childrenLoop stray s fuel (listAt stray s (tcbAt stray s t).childTasks).head := by
  rw [childrenR]

/-- A round of the loop that ends. -/
theorem childrenLoop_some {fuel : Nat} {q : Addr} {found : List Addr} (hq : q ≠ NULL) :
    childrenLoop stray s (fuel + 1) q = some found ↔
      ∃ below rest, childrenR stray s fuel (snodeAt stray s q).data = some below ∧
        childrenLoop stray s fuel (snodeAt stray s q).next = some rest ∧
        found = below ++ (snodeAt stray s q).data :: rest := by
  rw [childrenLoop, if_neg hq]
  constructor
  · intro h
    split at h
    · rename_i below rest hbelow hrest
      exact ⟨below, rest, hbelow, hrest, (Option.some.inj h).symm⟩
    · exact absurd h (by simp only [reduceCtorEq, not_false_eq_true])
  · rintro ⟨below, rest, hbelow, hrest, rfl⟩
    rw [hbelow, hrest]

/-- With more fuel the walk finds the same. -/
theorem children_mono (fuel : Nat) :
    (∀ t found, childrenR stray s fuel t = some found →
      childrenR stray s (fuel + 1) t = some found) ∧
    ∀ q found, childrenLoop stray s fuel q = some found →
      childrenLoop stray s (fuel + 1) q = some found := by
  -- Both functions at once, since each calls the other.
  induction fuel with
  | zero =>
      refine ⟨fun t found h => ?_, fun q found h => ?_⟩
      · rw [childrenR] at h
        exact absurd h (by simp only [reduceCtorEq, not_false_eq_true])
      · rw [childrenLoop] at h
        exact absurd h (by simp only [reduceCtorEq, not_false_eq_true])
  | succ fuel ih =>
      refine ⟨fun t found h => ?_, fun q found h => ?_⟩
      · rw [childrenR_succ] at h ⊢
        by_cases hsize : (listAt stray s (tcbAt stray s t).childTasks).size = 0
        · rwa [if_pos hsize] at h ⊢
        · rw [if_neg hsize] at h ⊢
          exact ih.2 _ _ h
      · by_cases hq : q = NULL
        · rw [childrenLoop, if_pos hq] at h ⊢
          exact h
        · rcases (childrenLoop_some hq).mp h with ⟨below, rest, hbelow, hrest, rfl⟩
          exact (childrenLoop_some hq).mpr
            ⟨below, rest, ih.1 _ _ hbelow, ih.2 _ _ hrest, rfl⟩

theorem childrenR_mono {fuel fuel' : Nat} (h : fuel ≤ fuel') {t : Addr} {found : List Addr}
    (hfound : childrenR stray s fuel t = some found) : childrenR stray s fuel' t = some found := by
  induction fuel', h using Nat.le_induction with
  | base => exact hfound
  | succ fuel' _ ih => exact (children_mono fuel').1 t found ih

theorem childrenLoop_mono {fuel fuel' : Nat} (h : fuel ≤ fuel') {q : Addr} {found : List Addr}
    (hfound : childrenLoop stray s fuel q = some found) :
    childrenLoop stray s fuel' q = some found := by
  induction fuel', h using Nat.le_induction with
  | base => exact hfound
  | succ fuel' _ ih => exact (children_mono fuel').2 q found ih

/-- What the walk finds does not depend on the fuel. -/
theorem childrenR_unique {fuel fuel' : Nat} {t : Addr} {found found' : List Addr}
    (h : childrenR stray s fuel t = some found) (h' : childrenR stray s fuel' t = some found') :
    found = found' := by
  have hmax := childrenR_mono (Nat.le_max_left fuel fuel') h
  rw [childrenR_mono (Nat.le_max_right fuel fuel') h'] at hmax
  exact (Option.some.inj hmax).symm

/-- What the walk reads of a live task that has a list. -/
theorem ChildList.listAt_eq {t : Addr} {cs : List Addr} (h : ChildList s t cs) (ht : t ∈ s.live) :
    listAt stray s (tcbAt stray s t).childTasks = s.list (s.tcb t).childTasks := by
  rw [tcbAt, readTcb, if_pos ht, listAt, if_pos h.list]

/-- The loop over a chain, when the walk below each of its control blocks ends. -/
theorem childrenLoop_below (cs : List Addr) : ∀ q, Chain s q cs →
    (∀ c ∈ cs, ∃ fuel found, childrenR stray s fuel c = some found ∧
      ∀ d, d ∈ found ↔ Below children c d) →
    ∃ fuel found, childrenLoop stray s fuel q = some found ∧
      ∀ d, d ∈ found ↔ ∃ c ∈ cs, d = c ∨ Below children c d := by
  induction cs with
  | nil =>
      intro q hq _
      refine ⟨1, [], ?_, fun d => ?_⟩
      · rw [childrenLoop, if_pos (show q = NULL from hq)]
      · simp only [List.not_mem_nil, false_and, exists_false]
  | cons c cs ih =>
      rintro q ⟨hq, hnode, hdata, hchain⟩ hall
      -- The entry is an object of the kernel, so nothing stray is read.
      have hread : snodeAt stray s q = s.snode q := if_pos hnode
      rcases hall c List.mem_cons_self with ⟨fuel₁, below, hbelow, hmem₁⟩
      rcases ih _ hchain fun c hc => hall c (List.mem_cons_of_mem _ hc) with
        ⟨fuel₂, rest, hrest, hmem₂⟩
      -- Both calls get the larger of the two depths they need.
      refine ⟨max fuel₁ fuel₂ + 1, below ++ c :: rest, (childrenLoop_some hq).mpr ?_, fun d => ?_⟩
      · rw [hread, hdata]
        exact ⟨below, rest, childrenR_mono (Nat.le_max_left _ _) hbelow,
          childrenLoop_mono (Nat.le_max_right _ _) hrest, rfl⟩
      · simp only [List.mem_append, List.mem_cons, hmem₁, hmem₂, exists_eq_or_imp]
        rw [← or_assoc, @or_comm (Below children c d)]

/-- `kill_all_child_tasksR` finds the proper descendants of a live task other than
    the current one: by induction on its descent. -/
theorem childrenR_below (h : TaskTree s children) {t : Addr} (ht : t ∈ s.live)
    (hlist : ∀ d, d = t ∨ Below children t d → d ≠ s.caller) :
    ∃ fuel found, childrenR stray s fuel t = some found ∧
      ∀ d, d ∈ found ↔ Below children t d := by
  have hacc := h.finite t ht
  induction hacc with
  | intro t _ ih =>
      have hown : ChildList s t (children t) := by
        rcases h.list t ht with hown | ⟨hcur, -, -⟩
        · exact hown
        · exact absurd hcur (hlist t (Or.inl rfl))
      -- The current task may lack a list, but it is not below itself.
      have hread : listAt stray s (tcbAt stray s t).childTasks = _ := hown.listAt_eq ht
      have hbelow : ∀ c ∈ children t, ∃ fuel found, childrenR stray s fuel c = some found ∧
          ∀ d, d ∈ found ↔ Below children c d := fun c hc =>
        ih c hc (h.live t ht c hc) fun d hd => hlist d (Or.inr (below_iff.mpr ⟨c, hc, hd⟩))
      by_cases hsize : (s.list (s.tcb t).childTasks).size = 0
      · have hnone : children t = [] := List.eq_nil_of_length_eq_zero (hown.size ▸ hsize)
        refine ⟨1, [], ?_, fun d => ?_⟩
        · rw [childrenR_succ, hread, if_pos hsize]
        · rw [below_iff, hnone]
          simp only [List.not_mem_nil, false_and, exists_false]
      · rcases childrenLoop_below _ _ hown.chain hbelow with ⟨fuel, found, hfound, hmem⟩
        refine ⟨fuel + 1, found, ?_, fun d => ?_⟩
        · rw [childrenR_succ, hread, if_neg hsize, hfound]
        · rw [hmem, below_iff]

end Walks

/-! ### What is marked -/

theorem markInvalid_tcb (targets : List Addr) : ∀ (s : Kernel) (t : Addr),
    ((markInvalid targets s).tcb t).state =
      if t ∈ targets then .INVALID else (s.tcb t).state := by
  induction targets with
  | nil => exact fun s t => (if_neg List.not_mem_nil).symm
  | cons d targets ih =>
      intro s t
      rw [markInvalid, List.foldl_cons]
      change ((markInvalid targets (s.setState d .INVALID)).tcb t).state = _
      rw [ih]
      by_cases ht : t ∈ targets
      · rw [if_pos ht, if_pos (List.mem_cons_of_mem d ht)]
      · rw [if_neg ht]
        by_cases htd : t = d
        · rw [htd, if_pos List.mem_cons_self]
          simp only [Kernel.setState, Function.update_self]
        · rw [if_neg (by simp only [List.mem_cons, htd, ht, or_self, not_false_eq_true])]
          simp only [Kernel.setState, Function.update_of_ne htd]

theorem marks_markInvalid {s : Kernel} {targets : List Addr} {P : Addr → Prop}
    (h : ∀ t, t ∈ targets ↔ P t) : Marks s (markInvalid targets s) P := by
  intro t
  rw [markInvalid_tcb, ← h t]
  exact ⟨fun ht => if_pos ht, fun ht => if_neg ht⟩

/-! ### Where nothing is -/

/-- Memory that looks like a list with an endless chain, wherever it is read. -/
def strayLoop (z pid : Addr) : Stray :=
  { tcb := fun _ => { blankTcb with pid := pid }
    list := fun _ => { size := 1, head := z }
    snode := fun _ => { next := z, data := NULL } }

section Nothing

variable {s : Kernel} {children : Addr → List Addr} {z pid : Addr}

/-- There is an address where nothing is. -/
theorem exists_nothing (s : Kernel) : ∃ z, z ≠ NULL ∧ z ∉ s.occupied := by
  rcases Infinite.exists_notMem_finset (insert NULL s.occupied.toFinset) with ⟨z, hz⟩
  rw [Finset.mem_insert, List.mem_toFinset, not_or] at hz
  exact ⟨z, hz.1, hz.2⟩

theorem childrenLoop_stuck (hz : z ≠ NULL) (hfree : z ∉ s.occupied) (fuel : Nat) :
    childrenLoop (strayLoop z pid) s fuel z = none := by
  have hread : snodeAt (strayLoop z pid) s z = { next := z, data := NULL } := if_neg hfree
  induction fuel with
  | zero => rw [childrenLoop]
  | succ fuel ih =>
      refine Option.eq_none_iff_forall_ne_some.mpr fun found hfound => ?_
      rcases (childrenLoop_some hz).mp hfound with ⟨_, rest, _, hrest, _⟩
      rw [hread, ih] at hrest
      exact absurd hrest (by simp only [reduceCtorEq, not_false_eq_true])

/-- The walk below what is not a task does not end. -/
theorem childrenR_stuck (h : TaskTree s children) (hz : z ≠ NULL) (hfree : z ∉ s.occupied)
    (fuel : Nat) : childrenR (strayLoop z pid) s fuel NULL = none := by
  have htcb : tcbAt (strayLoop z pid) s NULL = { blankTcb with pid := pid } :=
    if_neg h.nothing.2.2
  have hlist : listAt (strayLoop z pid) s NULL = { size := 1, head := z } := if_neg h.nothing.1
  cases fuel with
  | zero => rw [childrenR]
  | succ fuel =>
      rw [childrenR_succ, htcb]
      change (if (listAt (strayLoop z pid) s NULL).size = 0 then some []
        else childrenLoop (strayLoop z pid) s fuel (listAt (strayLoop z pid) s NULL).head) = none
      rw [hlist, if_neg Nat.one_ne_zero]
      exact childrenLoop_stuck hz hfree fuel

theorem searchChild_stuck (h : TaskTree s children) (hz : z ≠ NULL) (hfree : z ∉ s.occupied)
    {pidOfChild : Nat} (hpid : pid ≠ pidOfChild) (fuel : Nat) :
    searchChild (strayLoop z pid) s pidOfChild fuel z = none := by
  have hread : snodeAt (strayLoop z pid) s z = { next := z, data := NULL } := if_neg hfree
  have htcb : tcbAt (strayLoop z pid) s NULL = { blankTcb with pid := pid } :=
    if_neg h.nothing.2.2
  induction fuel with
  | zero => rfl
  | succ fuel ih =>
      rw [searchChild, if_neg hz, hread, htcb, if_neg hpid]
      exact ih

end Nothing

/-! ### When they do what they are for -/

/-- The current task has a child, and what is not below the first is marked
    already. -/
def OnlyBelowFirst (s : Kernel) (children : Addr → List Addr) : Prop :=
  ∃ c ∈ (children s.caller).head?, ∀ d, Below children s.caller d → ¬ Below children c d →
    (s.tcb d).state = .INVALID

section Trees

variable {s : Kernel} {children : Addr → List Addr}

/-- No task is below itself. -/
theorem not_below_self {t : Addr} (h : Acc (fun c p => c ∈ children p) t) :
    ¬ Below children t t := by
  induction h with
  | intro t _ ih =>
      intro hbelow
      rcases below_iff.mp hbelow with ⟨c, hc, heq | hct⟩
      · exact ih c hc (by rwa [← heq])
      · exact ih c hc (Relation.TransGen.tail hct hc)

/-- The walk of `kill_all_child_tasks` begins at the first child. -/
theorem childrenToKill_first {c : Addr} {cs : List Addr} (stray : Stray) (fuel : Nat)
    (h : ChildList s s.caller (c :: cs)) :
    childrenToKill stray s fuel = childrenR stray s fuel c := by
  rcases h.chain with ⟨_, hnode, hdata, _⟩
  have hlist : listAt stray s (s.tcb (s.dataOf s.currentlyRunning)).childTasks =
      s.list (s.tcb s.caller).childTasks := if_pos h.list
  rw [childrenToKill]
  simp only [hlist]
  rw [snodeAt, if_pos hnode, hdata]

/-- Without a child it begins nowhere. -/
theorem childrenToKill_none (h : TaskTree s children) (hnone : children s.caller = []) {z : Addr}
    (hz : z ≠ NULL) (hfree : z ∉ s.occupied) (fuel : Nat) :
    childrenToKill (strayLoop z 0) s fuel = none := by
  have hread : ∀ a, a ∉ s.occupied → (snodeAt (strayLoop z 0) s a).data = NULL := fun a ha => by
    rw [snodeAt, if_neg ha]
    rfl
  have hhead : (listAt (strayLoop z 0) s (s.tcb s.caller).childTasks).head ∉ s.occupied := by
    -- An empty list ends at NULL, and without a list NULL itself is read as one.
    rcases h.list s.caller h.current with hown | ⟨-, hnull, -⟩
    · have hend := hown.chain
      rw [hnone] at hend
      rw [listAt, if_pos hown.list, show (s.list (s.tcb s.caller).childTasks).head = NULL from hend]
      exact h.nothing.1
    · rw [hnull, listAt, if_neg h.nothing.1]
      exact hfree
  rw [childrenToKill]
  change childrenR (strayLoop z 0) s fuel (snodeAt (strayLoop z 0) s
    (listAt (strayLoop z 0) s (s.tcb s.caller).childTasks).head).data = none
  rw [hread _ hhead]
  exact childrenR_stuck h hz hfree fuel

/-- Without a child `kill_all_child_tasks` may not end. -/
theorem not_killsDescendants (h : TaskTree s children) (hnone : children s.caller = []) :
    ¬ KillsDescendants s children := by
  intro hkills
  rcases exists_nothing s with ⟨z, hz, hfree⟩
  rcases hkills (strayLoop z 0) with ⟨fuel, s', hkill, _⟩
  rw [killAllChildTasks, childrenToKill_none h hnone hz hfree fuel] at hkill
  exact absurd hkill (by simp only [Option.map_none, reduceCtorEq, not_false_eq_true])

/-- The walk below a child of the current task finds all that is below it. -/
theorem childrenR_child (h : TaskTree s children) {c : Addr} (hc : c ∈ children s.caller)
    (stray : Stray) : ∃ fuel found, childrenR stray s fuel c = some found ∧
      ∀ d, d ∈ found ↔ Below children c d := by
  refine childrenR_below h (h.live _ h.current c hc) fun d hd heq => ?_
  -- The current task, whose list may be missing, is not below its own child.
  have hbelow : Below children s.caller d := below_iff.mpr ⟨c, hc, hd⟩
  rw [heq] at hbelow
  exact not_below_self (h.finite _ h.current) hbelow

/-- When `kill_all_child_tasks` does what it is for. -/
theorem killsDescendants_iff (h : TaskTree s children) :
    KillsDescendants s children ↔ OnlyBelowFirst s children := by
  cases hchildren : children s.caller with
  | nil =>
      refine iff_of_false (not_killsDescendants h hchildren) fun ⟨c, hc, _⟩ => ?_
      rw [hchildren] at hc
      exact absurd hc (by simp only [List.head?_nil, Option.mem_def, reduceCtorEq,
        not_false_eq_true])
  | cons c cs =>
      have hown : ChildList s s.caller (c :: cs) := by
        rcases h.list s.caller h.current with hown | ⟨-, -, hnone⟩
        · rwa [hchildren] at hown
        · rw [hchildren] at hnone
          exact absurd hnone (List.cons_ne_nil c cs)
      have hc : c ∈ children s.caller := by
        rw [hchildren]
        exact List.mem_cons_self
      constructor
      · intro hkills
        refine ⟨c, by rw [hchildren]; rfl, fun d hbelow hother => ?_⟩
        rcases childrenR_child h hc (strayLoop 0 0) with ⟨fuel₁, found, hfound, hmem⟩
        rcases hkills (strayLoop 0 0) with ⟨fuel, s', hkill, hmarks⟩
        rw [killAllChildTasks, childrenToKill_first _ _ hown, Option.map_eq_some_iff] at hkill
        rcases hkill with ⟨found', hfound', rfl⟩
        -- What is marked is what the walk below the first child has found.
        rw [childrenR_unique hfound' hfound] at hmarks
        have hmarked := (hmarks d).1 hbelow
        rwa [markInvalid_tcb, if_neg (by rw [hmem]; exact hother)] at hmarked
      · rintro ⟨c', hc', hothers⟩ stray
        rw [hchildren] at hc'
        obtain rfl : c = c' := Option.some.inj hc'
        rcases childrenR_child h hc stray with ⟨fuel, found, hfound, hmem⟩
        refine ⟨fuel, markInvalid found s, ?_, fun t => ⟨fun hbelow => ?_, fun hnot => ?_⟩⟩
        · rw [killAllChildTasks, childrenToKill_first _ _ hown, hfound, Option.map_some]
        · rw [markInvalid_tcb]
          split
          · rfl
          · rename_i hother
            exact hothers t hbelow (by rwa [← hmem])
        · rw [markInvalid_tcb, if_neg]
          rw [hmem]
          exact fun hbelow => hnot (below_iff.mpr ⟨c, hc, Or.inr hbelow⟩)

/-- The loop of `kill_child_task` finds the first control block of a chain that has
    the identifier. -/
theorem searchChild_chain (stray : Stray) (pidOfChild : Nat) (cs : List Addr) :
    ∀ q, Chain s q cs → (∀ c ∈ cs, c ∈ s.live) →
      searchChild stray s pidOfChild (cs.length + 1) q =
        some (cs.find? fun c => (s.tcb c).pid = pidOfChild) := by
  induction cs with
  | nil =>
      intro q hq _
      exact if_pos (show q = NULL from hq)
  | cons c cs ih =>
      rintro q ⟨hq, hnode, hdata, hchain⟩ hlive
      have htcb : tcbAt stray s c = s.tcb c := if_pos (hlive c List.mem_cons_self)
      rw [List.length_cons, searchChild, if_neg hq, snodeAt, if_pos hnode, hdata, htcb,
        List.find?_cons]
      by_cases hpid : (s.tcb c).pid = pidOfChild
      · rw [if_pos hpid, decide_eq_true hpid]
      · rw [if_neg hpid, decide_eq_false hpid]
        exact ih _ hchain fun c' hc' => hlive c' (List.mem_cons_of_mem c hc')

/-- A search of a list that is nowhere does not end. -/
theorem childToKill_none (h : TaskTree s children) {pidOfChild : Nat} {parent z : Addr}
    (hz : z ≠ NULL) (hfree : z ∉ s.occupied) (fuel : Nat)
    (hlist : searchedList (strayLoop z (pidOfChild + 1)) s parent ∉ s.occupied) :
    childToKill (strayLoop z (pidOfChild + 1)) s pidOfChild parent fuel = none := by
  have hread : listAt (strayLoop z (pidOfChild + 1)) s
      (searchedList (strayLoop z (pidOfChild + 1)) s parent) = { size := 1, head := z } :=
    if_neg hlist
  rw [childToKill]
  simp only [hread]
  rw [if_neg Nat.one_ne_zero, searchChild_stuck h hz hfree (Nat.succ_ne_self pidOfChild) fuel,
    Option.map_none]

/-- Unless the current task has no list and the parent is another task, the list that
    is searched is nowhere. -/
theorem searchedList_nothing (h : TaskTree s children) (stray : Stray) {parent : Addr}
    (hparent : parent = NULL ∨ parent ∈ s.live)
    (hcond : ¬ ((s.tcb s.caller).childTasks = NULL ∧ parent ≠ NULL ∧ parent ≠ s.caller))
    (hstray : (stray.tcb NULL).childTasks = NULL) : searchedList stray s parent ∉ s.occupied := by
  rw [searchedList]
  by_cases hnull : (s.tcb (s.dataOf s.currentlyRunning)).childTasks = NULL
  · rw [if_neg (not_not.mpr hnull)]
    rcases hparent with rfl | hlive
    -- The list of the null pointer: what is read is not the kernel's.
    · rw [tcbAt, readTcb, if_neg h.nothing.2.2, hstray]
      exact h.nothing.1
    · have hne : parent ≠ NULL := fun hc => h.nothing.2.2 (hc ▸ hlive)
      have hcaller : parent = s.caller := by
        by_contra hother
        exact hcond ⟨hnull, hne, hother⟩
      rw [tcbAt, readTcb, if_pos hlive, hcaller,
        show (s.tcb s.caller).childTasks = NULL from hnull]
      exact h.nothing.1
  -- `!parent`
  · rw [if_pos hnull]
    split
    · exact h.nothing.2.1
    · exact h.nothing.1

/-- Without a list of its own the current task kills the child of another. -/
theorem killChildTask_other (h : TaskTree s children) (pidOfChild : Nat) {parent : Addr}
    (hlive : parent ∈ s.live) (hnull : (s.tcb s.caller).childTasks = NULL)
    (hother : parent ≠ s.caller) (stray : Stray) :
    killChildTask stray s pidOfChild parent ((children parent).length + 1) =
      some (markInvalid
        ((children parent).find? fun c => (s.tcb c).pid = pidOfChild).toList s) := by
  have hown : ChildList s parent (children parent) := by
    rcases h.list parent hlive with hown | ⟨hcaller, -⟩
    · exact hown
    · exact absurd hcaller hother
  -- Without a list of the current task the conditional takes the branch of the parent.
  have hsearched : searchedList stray s parent = (tcbAt stray s parent).childTasks :=
    if_neg (not_not.mpr hnull)
  have hlist : listAt stray s (searchedList stray s parent) = s.list (s.tcb parent).childTasks := by
    rw [hsearched]
    exact hown.listAt_eq hlive
  rw [killChildTask, childToKill]
  simp only [hlist, hown.size]
  by_cases hsize : (children parent).length = 0
  · rw [if_pos hsize, List.eq_nil_of_length_eq_zero hsize]
    rfl
  · rw [if_neg hsize, searchChild_chain stray pidOfChild _ _ hown.chain (h.live parent hlive)]
    rfl

/-- When `kill_child_task` does what it is for. -/
theorem killsChild_iff (h : TaskTree s children) (pidOfChild : Nat) {parent : Addr}
    (hparent : parent = NULL ∨ parent ∈ s.live) :
    KillsChild s children pidOfChild parent ↔
      (s.tcb s.caller).childTasks = NULL ∧ parent ≠ NULL ∧ parent ≠ s.caller := by
  constructor
  · intro hkills
    by_contra hcond
    rcases exists_nothing s with ⟨z, hz, hfree⟩
    have hlist := searchedList_nothing h (strayLoop z (pidOfChild + 1)) hparent hcond rfl
    rcases hkills (strayLoop z (pidOfChild + 1)) with ⟨fuel, s', hkill, _⟩
    rw [killChildTask, childToKill_none h hz hfree fuel hlist] at hkill
    exact absurd hkill (by simp only [Option.map_none, reduceCtorEq, not_false_eq_true])
  · rintro ⟨hnull, hne, hother⟩ stray
    have hlive := hparent.resolve_left hne
    refine ⟨_, _, killChildTask_other h pidOfChild hlive hnull hother stray, ?_⟩
    rw [if_neg hne]
    exact marks_markInvalid fun t => Option.mem_toList

end Trees

/-- On every task tree: `kill_all_child_tasks` marks the proper descendants of the
    current task exactly if it has a child and all others than those below the
    first are marked already; `kill_child_task` marks the child of a parent exactly
    if the current task has no list and the parent is another task. -/
theorem killing_iff {s : Kernel} {children : Addr → List Addr} (h : TaskTree s children) :
    (KillsDescendants s children ↔ OnlyBelowFirst s children) ∧
    ∀ pidOfChild parent, parent = NULL ∨ parent ∈ s.live →
      (KillsChild s children pidOfChild parent ↔
        (s.tcb s.caller).childTasks = NULL ∧ parent ≠ NULL ∧ parent ≠ s.caller) :=
  ⟨killsDescendants_iff h, fun pidOfChild _ hparent => killsChild_iff h pidOfChild hparent⟩

/-- Three tasks at 10, 11 and 12, each the only child of the one before. The
    first one runs; its list is at `own`, those of the others at 21 and 22. -/
def family (own : Addr) (childState : TaskState) : Kernel :=
  { freshKernel with
    node := fun _ => { next := 1, prev := 1, data := 10 }
    tcb := fun t =>
      { blankTcb with
        pid := t - 10
        state := if t = 11 then childState else .READY
        childTasks := if t = 10 then own else t + 10 }
    list := fun a => if a = 22 then { size := 0, head := NULL } else { size := 1, head := a + 10 }
    snode := fun a => { next := NULL, data := a - 19 }
    occupied := [20, 21, 22, 30, 31]
    live := [10, 11, 12]
    currentlyRunning := 1 }

/-- Without a list the first task has no child. -/
def familyChildren (own : Addr) : Addr → List Addr
  | 10 => if own = NULL then [] else [11]
  | 11 => [12]
  | _ => []

theorem family_tree {own : Addr} (childState : TaskState) (hown : own = NULL ∨ own = 20) :
    TaskTree (family own childState) (familyChildren own) where
  current := List.mem_cons_self
  list t ht := by
    have hoccupied : ∀ a ∈ [20, 21, 22, 30, 31], a ∈ (family own childState).occupied :=
      fun _ ha => ha
    -- The task at 12 has an empty list, that of the first is missing if `own` is NULL.
    have hsecond : ChildList (family own childState) 11 [12] :=
      ⟨hoccupied 21 (by decide), rfl, Nat.succ_ne_zero _, hoccupied 31 (by decide), rfl, rfl⟩
    have hthird : ChildList (family own childState) 12 [] := ⟨hoccupied 22 (by decide), rfl, rfl⟩
    simp only [family, List.mem_cons, List.not_mem_nil, or_false] at ht
    rcases ht with rfl | rfl | rfl
    · rcases hown with rfl | rfl
      · exact Or.inr ⟨rfl, rfl, rfl⟩
      · exact Or.inl ⟨hoccupied 20 (by decide), rfl, Nat.succ_ne_zero _,
          hoccupied 30 (by decide), rfl, rfl⟩
    · exact Or.inl hsecond
    · exact Or.inl hthird
  live t ht c hc := by
    simp only [family, List.mem_cons, List.not_mem_nil, or_false] at ht ⊢
    rcases ht with rfl | rfl | rfl
    · rcases hown with rfl | rfl
      · exact absurd hc List.not_mem_nil
      · exact Or.inr (Or.inl (List.mem_singleton.mp hc))
    · exact Or.inr (Or.inr (List.mem_singleton.mp hc))
    · exact absurd hc List.not_mem_nil
  finite t ht := by
    -- From the leaf upwards: nobody is his own descendant.
    have hthird : Acc (fun c p => c ∈ familyChildren own p) 12 :=
      Acc.intro 12 fun c hc => absurd hc List.not_mem_nil
    have hsecond : Acc (fun c p => c ∈ familyChildren own p) 11 :=
      Acc.intro 11 fun c hc => List.mem_singleton.mp hc ▸ hthird
    have hfirst : Acc (fun c p => c ∈ familyChildren own p) 10 := by
      refine Acc.intro 10 fun c hc => ?_
      rcases hown with rfl | rfl
      · exact absurd hc List.not_mem_nil
      · exact List.mem_singleton.mp hc ▸ hsecond
    simp only [family, List.mem_cons, List.not_mem_nil, or_false] at ht
    rcases ht with rfl | rfl | rfl
    · exact hfirst
    · exact hsecond
    · exact hthird
  nothing := by
    change 0 ∉ [20, 21, 22, 30, 31] ∧ 1 ∉ [20, 21, 22, 30, 31] ∧ 0 ∉ [10, 11, 12]
    decide

/-- The child has been marked before; and a task without a list kills a child of
    another. -/
theorem killing_iff_family :
    KillsDescendants (family 20 .INVALID) (familyChildren 20) ∧
      KillsChild (family NULL .READY) (familyChildren NULL) 2 11 := by
  refine ⟨(killing_iff (family_tree .INVALID (Or.inr rfl))).1.mpr
    ⟨11, rfl, fun d hbelow hother => ?_⟩,
    ((killing_iff (family_tree .READY (Or.inl rfl))).2 2 11 (Or.inr (by decide))).mpr
      ⟨rfl, by decide, by decide⟩⟩
  rcases below_iff.mp hbelow with ⟨c, hc, hd⟩
  rw [List.mem_singleton.mp hc] at hd
  rw [hd.resolve_right hother]
  rfl

/-- A child that is ready is not marked, neither as a descendant nor by its
    identifier. -/
theorem killing_fails :
    ¬ KillsDescendants (family 20 .READY) (familyChildren 20) ∧
      ¬ KillsChild (family 20 .READY) (familyChildren 20) 1 NULL := by
  have htree := @family_tree 20 .READY (Or.inr rfl)
  refine ⟨fun hkills => ?_, fun hkills => ?_⟩
  · rcases (killsDescendants_iff htree).mp hkills with ⟨c, hc, hothers⟩
    obtain rfl : 11 = c := Option.some.inj hc
    have hstate := hothers 11 (below_iff.mpr ⟨11, List.mem_cons_self, Or.inl rfl⟩)
      (not_below_self (htree.finite 11 (by decide)))
    exact absurd hstate (by decide)
  · exact absurd ((killsChild_iff htree 1 (Or.inl rfl)).mp hkills).1 (by decide)

end NextLevelRTOS
