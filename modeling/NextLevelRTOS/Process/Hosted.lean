import NextLevelRTOS.Memory.Calls
import NextLevelRTOS.Process.Sweep

/-!
# The Kernel on Its Allocator

The kernel of queues and control blocks gets its chunks from outside: the
answers of `allocate` come in with the events, and `Enabled` demands that they
keep a contract. Here they come from the allocator. A hosted kernel is the
kernel together with the allocator and the blocks its callers hold, and each of
its events makes the calls of `allocate` and `deallocate` that the code makes,
in that order and with the sizes of the source.

Tasks call the allocator too. What they do with it is not restricted, apart from
giving back a chunk that belongs to the kernel.

No call is compared with the contract here. That the allocator keeps it is what
`hosted_step` shows, for as long as the chunks that were ever carved end before
offsets no longer fit their field.

## Main definitions

* `allocateAll`: The calls of `allocate` of one kernel function.
* `Hosted`, `HostedEvent`, `hostedStep`: The machine.
* `kernelEvents`: The events of the kernel in a run.
* `HostedInitialized`: The allocator and the queues are set up.
* `Grounded`: The invariant.

## Theorems

* `allocateAll_run`: What the calls of one kernel function get.
* `chunksOf_free`: The answers keep the contract.
* `hosted_step`: Every event is one of the kernel's, and keeps the invariant.
* `hosted_refines_kernel`: Every run of the hosted kernel is one of the kernel.
-/

namespace NextLevelRTOS

open Machine

/-! ### Calls -/

/-- `sizeof(Queue_t)` -/
def sizeofQueue : Nat := 12

/-- `sizeof(Node_t)` -/
def sizeofNode : Nat := 12

/-- `sizeof(List_t)` -/
def sizeofList : Nat := 8

/-- `sizeof(SingleLinkedNode_t)` -/
def sizeofSingleLinkedNode : Nat := 8

/-- `sizeof(Tcb_t)`: `lifetime_info` has an element in debug builds only. -/
def sizeofTcb (debug : Bool) : Nat := if debug then 52 else 40

/-- `allocate`, with the answer as the kernel sees it. -/
def Client.allocate (r1 : Word) (size : Nat) (s : Client) : Option (Client × Addr) :=
  match s.heap.allocate r1 size with
  | none => none
  | some (m, p) => some
      ({ heap := m, live := if p = 0#32 then s.live else (p, size) :: s.live }, p.toNat)

/-- Calls of `allocate` in a row, up to the first that finds no memory. -/
def allocateAll (r1 : Word) : List Nat → Client → Option (Client × List Addr)
  | [], s => some (s, [])
  | size :: sizes, s =>
    match s.allocate r1 size with
    | none => none
    | some (s, a) =>
      if a = NULL then some (s, [])
      else
        match allocateAll r1 sizes s with
        | none => none
        | some (s, l) => some (s, a :: l)

/-- What `create_task` asks for: the stack, the control block, the node in the
    child list of the current task, the child list, the queue node. -/
def creationSizes (debug : Bool) (s : Kernel) : List Nat :=
  [sizeofCpuRegister + STACK_SIZE, sizeofTcb debug] ++
    (if s.currentlyRunning = NULL then [] else [sizeofSingleLinkedNode]) ++
    [sizeofList, sizeofNode]

/-- The answers as `create_task` gets them. What is not asked for is null. -/
def chunksOf (s : Kernel) (answers : List Addr) : Chunks :=
  if s.currentlyRunning = NULL then
    { stack := answers.getD 0 NULL
      tcb := answers.getD 1 NULL
      childNode := NULL
      childList := answers.getD 2 NULL
      queueNode := answers.getD 3 NULL }
  else
    { stack := answers.getD 0 NULL
      tcb := answers.getD 1 NULL
      childNode := answers.getD 2 NULL
      childList := answers.getD 3 NULL
      queueNode := answers.getD 4 NULL }

/-- The calls of `deallocate` for some chunks. -/
def giveBack (r1 : Word) (l : List Addr) : List Request :=
  l.map fun a => Request.deallocate r1 (BitVec.ofNat 32 a)

/-! ### The machine -/

/-- The kernel, the allocator below it, and the blocks that are live. -/
structure Hosted where
  client : Client
  kernel : Kernel

namespace Hosted

/-- `create_task`, which the allocator answers. -/
def createTask (r1 : Word) (slot ramLocation : Addr) (h : Hosted) : Option Hosted :=
  match allocateAll r1 (creationSizes h.client.heap.debug h.kernel) h.client with
  | none => none
  | some (client, answers) =>
    match NextLevelRTOS.createTask (chunksOf h.kernel answers) slot ramLocation h.kernel with
    | none => none
    | some (_, kernel) => some { client := client, kernel := kernel }

/-- `kernel_pids.idle_task = create_task(&idle_runner, 0)` -/
def createIdle (r1 : Word) (slot : Addr) (h : Hosted) : Option Hosted :=
  match allocateAll r1 (creationSizes h.client.heap.debug h.kernel) h.client with
  | none => none
  | some (client, answers) =>
    match NextLevelRTOS.createIdle (chunksOf h.kernel answers) slot h.kernel with
    | none => none
    | some kernel => some { client := client, kernel := kernel }

/-- `tInfo.start_adress = allocate(tInfo.task_size)` -/
def allocateImage (r1 : Word) (size : Nat) (h : Hosted) : Option Hosted :=
  match h.client.allocate r1 size with
  | none => none
  | some (client, image) => some
      { client := client
        kernel := if image = NULL then h.kernel
          else { h.kernel.allocate image with images := image :: h.kernel.images } }

/-- `clean_up_task` and the decrement behind it. -/
def reap (r1 : Word) (n : Addr) (h : Hosted) : Option Hosted :=
  match run clientStep (giveBack r1 (h.kernel.freedWith n)) h.client with
  | none => none
  | some client => some { client := client, kernel := NextLevelRTOS.reap n h.kernel }

/-- The loop of `search_invalidate_tasks`. -/
def searchLoop (r1 : Word) : Nat → Nat → Addr → Hosted → Option Hosted
  | 0, _, _, h => some h
  | fuel + 1, j, q, h =>
    if j < h.kernel.runningTasks.size then
      if h.kernel.stateOf q = .FINISHED ∨ h.kernel.stateOf q = .INVALID then
        match h.reap r1 q with
        | none => none
        | some h => searchLoop r1 fuel (j + 1) (h.kernel.node.next q) h
      else searchLoop r1 fuel (j + 1) (h.kernel.node.next q) h
    else some h

/-- `search_invalidate_tasks` -/
def searchInvalidateTasks (r1 : Word) (h : Hosted) : Option Hosted :=
  h.searchLoop r1 h.kernel.runningTasks.size 0 h.kernel.currentlyRunning

end Hosted

instance : DecidablePred OnlySchedules
  | .createTask .. | .createIdle .. | .allocateImage _ | .searchInvalidateTasks => isFalse id
  | .runScheduler | .blockCurrentTask | .wakeupPid _ | .yieldTask | .pendsv _ | .finishTask _
  | .invalidateCurrentTask | .joinTask _ | .dmaInterrupt _ => isTrue trivial

/-- What can happen to the hosted kernel. `r1` is what the callers of
    `lock_mutex` have in that register. -/
inductive HostedEvent where
  /-- An event of the kernel that allocates and frees nothing. -/
  | schedule (e : Event)
  | createTask (r1 : Word) (slot ramLocation : Addr)
  | createIdle (r1 : Word) (slot : Addr)
  | allocateImage (r1 : Word) (size : Nat)
  | searchInvalidateTasks (r1 : Word)
  /-- A call of the allocator that a task makes for itself. -/
  | request (r : Request)
  deriving DecidableEq

/-- A task gives back no chunk of the kernel. -/
def SparesKernel (s : Kernel) : Request → Prop
  | Request.allocate _ _ => True
  | Request.deallocate _ address => address.toNat ∉ s.occupied

instance (s : Kernel) : DecidablePred (SparesKernel s)
  | Request.allocate _ _ => isTrue trivial
  | Request.deallocate _ address => inferInstanceAs (Decidable (address.toNat ∉ s.occupied))

/-- When an event can happen. -/
def HostedEnabled (e : HostedEvent) (h : Hosted) : Prop :=
  match e with
  | .schedule e => OnlySchedules e ∧ Enabled e h.kernel
  | .createTask _ _ ramLocation => (h.kernel.booted = false ∨ Thread h.kernel) ∧
      (ramLocation = 0 ∨ ramLocation ∈ h.kernel.images)
  | .createIdle _ _ => h.kernel.booted = false
  | .allocateImage _ _ => Thread h.kernel
  | .searchInvalidateTasks _ => Thread h.kernel ∧
      h.kernel.pidOf h.kernel.currentlyRunning = toUnsigned h.kernel.idleTask
  | .request r => SparesKernel h.kernel r

instance : ∀ (e : HostedEvent) (h : Hosted), Decidable (HostedEnabled e h)
  | .schedule e, h => inferInstanceAs (Decidable (OnlySchedules e ∧ Enabled e h.kernel))
  | .createTask _ _ ramLocation, h => inferInstanceAs (Decidable
      ((h.kernel.booted = false ∨ Thread h.kernel) ∧
        (ramLocation = 0 ∨ ramLocation ∈ h.kernel.images)))
  | .createIdle _ _, h => inferInstanceAs (Decidable (h.kernel.booted = false))
  | .allocateImage _ _, h => inferInstanceAs (Decidable (Thread h.kernel))
  | .searchInvalidateTasks _, h => inferInstanceAs (Decidable
      (Thread h.kernel ∧ h.kernel.pidOf h.kernel.currentlyRunning = toUnsigned h.kernel.idleTask))
  | .request r, h => inferInstanceAs (Decidable (SparesKernel h.kernel r))

/-- What an event does. -/
def hostedEffect (e : HostedEvent) (h : Hosted) : Option Hosted :=
  match e with
  | .schedule e => (effect e h.kernel).map fun kernel => { h with kernel := kernel }
  | .createTask r1 slot ramLocation => h.createTask r1 slot ramLocation
  | .createIdle r1 slot => h.createIdle r1 slot
  | .allocateImage r1 size => h.allocateImage r1 size
  | .searchInvalidateTasks r1 => h.searchInvalidateTasks r1
  | .request r => (clientStep r h.client).map fun client => { h with client := client }

/-- The transition function. -/
def hostedStep (e : HostedEvent) (h : Hosted) : Option Hosted :=
  if HostedEnabled e h then hostedEffect e h else none

/-- The event of the kernel that happens, if any: a creation with the answers it
    got, an image if there was memory for one. -/
def kernelEvent (e : HostedEvent) (h : Hosted) : Option Event :=
  match e with
  | .schedule e => some e
  | .createTask r1 slot ramLocation =>
    (allocateAll r1 (creationSizes h.client.heap.debug h.kernel) h.client).map fun r =>
      Event.createTask (chunksOf h.kernel r.2) slot ramLocation
  | .createIdle r1 slot =>
    (allocateAll r1 (creationSizes h.client.heap.debug h.kernel) h.client).map fun r =>
      Event.createIdle (chunksOf h.kernel r.2) slot
  | .allocateImage r1 size =>
    (h.client.allocate r1 size).bind fun r =>
      if r.2 = NULL then none else some (.allocateImage r.2)
  | .searchInvalidateTasks _ => some .searchInvalidateTasks
  | .request _ => none

/-- The events of the kernel in a run. -/
def kernelEvents : List HostedEvent → Hosted → List Event
  | [], _ => []
  | e :: es, h =>
    match hostedStep e h with
    | none => []
    | some h' => (kernelEvent e h).toList ++ kernelEvents es h'

/-- The state `init_scheduler` leaves, on an allocator that was just initialized
    in memory with anything at all in it. -/
def HostedInitialized (h : Hosted) : Prop :=
  ∃ raw startOsSection ramSize r1 node tcb list snode runningQueue waitingQueue,
    allocateAll r1 [sizeofQueue, sizeofQueue] (initialClient raw startOsSection ramSize) =
        some (h.client, [runningQueue, waitingQueue]) ∧
      initScheduler runningQueue waitingQueue (Kernel.reset node tcb list snode) = (0, h.kernel)

/-- What is asked for in an event is small enough for an entry of the table. -/
def SmallRequest : HostedEvent → Prop
  | .allocateImage _ size => size ≤ 32760
  | .request (Request.allocate _ size) => size ≤ 32760
  | _ => True

instance : DecidablePred SmallRequest
  | .allocateImage _ size => inferInstanceAs (Decidable (size ≤ 32760))
  | .request (Request.allocate _ size) => inferInstanceAs (Decidable (size ≤ 32760))
  | .request (Request.deallocate ..) | .schedule _ | .createTask .. | .createIdle ..
  | .searchInvalidateTasks _ => isTrue trivial

/-! ### What the calls of one function get -/

section Calls

variable {s s' : Client} {r1 : Word} {k : Nat}

theorem client_allocate {size : Nat} {a : Addr} (h : s.allocate r1 size = some (s', a)) :
    clientStep (Request.allocate r1 size) s = some s' ∧ ∃ p : Word, a = p.toNat ∧
      s'.live = if p = 0#32 then s.live else (p, size) :: s.live := by
  cases hcall : s.heap.allocate r1 size with
  | none => simp only [Client.allocate, hcall, reduceCtorEq] at h
  | some r =>
      rcases r with ⟨m, p⟩
      simp only [Client.allocate, hcall, Option.some.injEq, Prod.mk.injEq] at h
      rcases h with ⟨rfl, rfl⟩
      exact ⟨by simp only [clientStep, hcall], p, rfl, rfl⟩

/-- The answers are the addresses of new live blocks of the sizes asked for, and
    there are fewer than that if memory ran out. -/
structure Grants (sizes : List Nat) (s s' : Client) (l : List Addr) (blocks : List Block) :
    Prop where
  answers : l = blocks.map fun b => b.1.toNat
  sizes : blocks.map Prod.snd <+: sizes
  nonnull : NULL ∉ l
  live : s'.live = blocks.reverse ++ s.live

theorem grants_nil (sizes : List Nat) (h : s'.live = s.live) : Grants sizes s s' [] [] :=
  ⟨rfl, List.nil_prefix, List.not_mem_nil, h⟩

/-- The calls of one function are a run of the allocator, and what they get. -/
theorem allocateAll_run (r1 : Word) (sizes : List Nat) : ∀ (s s' : Client) (l : List Addr),
    allocateAll r1 sizes s = some (s', l) → ∃ es, run clientStep es s = some s' ∧
      (∀ r size, Request.allocate r size ∈ es → size ∈ sizes) ∧
      ∃ blocks, Grants sizes s s' l blocks := by
  induction sizes with
  | nil =>
      intro s s' l h
      simp only [allocateAll, Option.some.injEq, Prod.mk.injEq] at h
      rcases h with ⟨rfl, rfl⟩
      exact ⟨[], rfl, fun _ _ hc => absurd hc List.not_mem_nil, [], grants_nil [] rfl⟩
  | cons size sizes ih =>
      intro s s' l h
      cases hcall : s.allocate r1 size with
      | none => simp only [allocateAll, hcall, reduceCtorEq] at h
      | some r =>
          rcases r with ⟨s₁, a⟩
          simp only [allocateAll, hcall] at h
          rcases client_allocate hcall with ⟨hstep, p, rfl, hlive⟩
          by_cases hnull : p.toNat = NULL
          · simp only [hnull, if_true, Option.some.injEq, Prod.mk.injEq] at h
            rcases h with ⟨rfl, rfl⟩
            rw [if_pos (BitVec.eq_of_toNat_eq hnull)] at hlive
            refine ⟨[Request.allocate r1 size], by simp only [run, hstep], fun r size' hmem => ?_,
              [], grants_nil _ hlive⟩
            rcases Request.allocate.inj (List.mem_singleton.mp hmem) with ⟨-, rfl⟩
            exact List.mem_cons_self
          · simp only [hnull, if_false] at h
            cases hrest : allocateAll r1 sizes s₁ with
            | none => simp only [hrest, reduceCtorEq] at h
            | some r =>
                rcases r with ⟨s₂, l'⟩
                simp only [hrest, Option.some.injEq, Prod.mk.injEq] at h
                rcases h with ⟨rfl, rfl⟩
                rcases ih s₁ s₂ l' hrest with ⟨es, hrun, hsizes, blocks, hgrants⟩
                have hword : p ≠ 0#32 := fun hc => hnull (congrArg BitVec.toNat hc)
                rw [if_neg hword] at hlive
                refine ⟨Request.allocate r1 size :: es, by simp only [run, hstep, hrun],
                  fun r size' hmem => ?_, (p, size) :: blocks, ?_, ?_, ?_, ?_⟩
                · rcases List.mem_cons.mp hmem with heq | hmem
                  · rcases Request.allocate.inj heq with ⟨-, rfl⟩
                    exact List.mem_cons_self
                  · exact List.mem_cons_of_mem _ (hsizes r size' hmem)
                · rw [hgrants.answers, List.map_cons]
                · exact List.cons_prefix_cons.mpr ⟨rfl, hgrants.sizes⟩
                · exact fun hc => (List.mem_cons.mp hc).elim (fun hc => hnull hc.symm)
                    hgrants.nonnull
                · rw [hgrants.live, hlive, List.reverse_cons, List.append_assoc,
                    List.singleton_append]

/-- A run of small requests keeps the invariant of the allocator while offsets
    fit. -/
theorem covered_run {es : List Request} (h : Covered s k) (hrun : run clientStep es s = some s')
    (hsmall : ∀ r size, Request.allocate r size ∈ es → size ≤ 32760)
    (hbytes : s'.heap.usedBytes < 65536) : ∃ k', Covered s' k' :=
  run_invariant clientStep (fun s => ∃ k, Covered s k) covered_step es s s' ⟨k, h⟩
    (meets_withinFields ⟨k, h.tiled.packed⟩ hsmall hrun hbytes) hrun

/-- What is left after some chunks have been given back. -/
theorem giveBack_live (l : List Addr) : ∀ (s s' : Client),
    run clientStep (giveBack r1 l) s = some s' →
      ∀ b, b ∈ s'.live ↔ b ∈ s.live ∧ ∀ a ∈ l, b.1 ≠ BitVec.ofNat 32 a := by
  induction l with
  | nil =>
      intro s s' h b
      rw [← Option.some.inj h]
      exact (and_iff_left fun _ hc => absurd hc List.not_mem_nil).symm
  | cons a l ih =>
      intro s s' h b
      rcases run_cons clientStep h with ⟨s₁, hstep, hrest⟩
      have hlive : s₁.live = s.live.filter fun b => b.1 ≠ BitVec.ofNat 32 a := by
        rcases clientStep_cases hstep with ⟨r, size, m, p, he, _⟩ | ⟨r, address, m, p, he, _, rfl⟩
        · exact Request.noConfusion he
        · rw [(Request.deallocate.inj he).2]
      rw [ih s₁ s' hrest b, hlive, List.mem_filter, List.forall_mem_cons, and_assoc,
        decide_eq_true_eq]

end Calls

/-! ### The answers keep the contract -/

/-- Every chunk the kernel has in use is the address of a live block. -/
def Backed (c : Client) (s : Kernel) : Prop := ∀ a ∈ s.occupied, ∃ b ∈ c.live, b.1.toNat = a

/-- The chunks handed out are the answers. -/
theorem chunksOf_granted {s : Kernel} {debug : Bool} {l : List Addr}
    (hlen : l.length ≤ (creationSizes debug s).length) (hnull : NULL ∉ l) :
    (chunksOf s l).granted = l := by
  have hfilter : l.filter (fun a => a ≠ NULL) = l :=
    List.filter_eq_self.mpr fun a ha => decide_eq_true fun hc => hnull (hc ▸ ha)
  by_cases hcur : s.currentlyRunning = NULL
  · simp only [creationSizes, if_pos hcur, List.append_nil, List.cons_append, List.nil_append,
      List.length_cons, List.length_nil] at hlen
    simp only [Chunks.granted, chunksOf, if_pos hcur]
    rcases l with _ | ⟨a, _ | ⟨b, _ | ⟨c, _ | ⟨d, _ | ⟨e, l⟩⟩⟩⟩⟩
    · rfl
    · exact hfilter
    · exact hfilter
    · exact hfilter
    · exact hfilter
    · simp only [List.length_cons] at hlen
      omega
  · simp only [creationSizes, if_neg hcur, List.cons_append, List.nil_append,
      List.length_cons, List.length_nil] at hlen
    simp only [Chunks.granted, chunksOf, if_neg hcur]
    rcases l with _ | ⟨a, _ | ⟨b, _ | ⟨c, _ | ⟨d, _ | ⟨e, _ | ⟨f, l⟩⟩⟩⟩⟩⟩
    · rfl
    · exact hfilter
    · exact hfilter
    · exact hfilter
    · exact hfilter
    · exact hfilter
    · simp only [List.length_cons] at hlen
      omega

/-- The allocator keeps the contract: what it hands out for a creation differs
    from what the kernel has in use. -/
theorem chunksOf_free {s : Kernel} {c c' : Client} {debug : Bool} {l : List Addr}
    {blocks : List Block} {k : Nat} (hbacked : Backed c s)
    (hgrants : Grants (creationSizes debug s) c c' l blocks) (hcovered : Covered c' k) :
    (chunksOf s l).Free s := by
  have hlen : l.length ≤ (creationSizes debug s).length := by
    rw [hgrants.answers, List.length_map, ← List.length_map Prod.snd]
    exact hgrants.sizes.length_le
  have hnodup : (c'.live.map fun b => b.1.toNat).Nodup := by
    have hmap := hcovered.distinct.map fun _ _ heq => BitVec.eq_of_toNat_eq heq
    rwa [List.map_map] at hmap
  rw [hgrants.live, List.map_append, List.map_reverse, ← hgrants.answers] at hnodup
  rw [Chunks.Free, chunksOf_granted hlen hgrants.nonnull]
  refine ⟨List.nodup_reverse.mp (List.nodup_append.mp hnodup).1, fun a ha hocc => ?_⟩
  rcases hbacked a hocc with ⟨b, hb, rfl⟩
  exact (List.nodup_append'.mp hnodup).2.2 (List.mem_reverse.mpr ha)
    (List.mem_map.mpr ⟨b, hb, rfl⟩)

/-- Of the blocks that were live, those the kernel still has in use stay live. -/
def Retains (h h' : Hosted) : Prop :=
  ∀ b ∈ h.client.live, b.1.toNat ∈ h.kernel.occupied → b.1.toNat ∈ h'.kernel.occupied →
    b ∈ h'.client.live

/-- The invariant: the kernel's own, the allocator's, and every chunk the kernel
    has in use is a live block. -/
structure Grounded (h : Hosted) (v : View) : Prop where
  inv : Inv h.kernel v
  covered : ∃ k, Covered h.client k
  backed : Backed h.client h.kernel

/-! ### Reaping -/

theorem freedWith_subset (s : Kernel) (n : Addr) : s.freedWith n ⊆ s.owns n := by
  intro a ha
  unfold Kernel.owns Tcb.chunks
  unfold Kernel.freedWith at ha
  by_cases hext : (s.tcb (s.dataOf n)).isExternal = true
  · simp only [if_pos hext, List.cons_append, List.nil_append, List.mem_cons, List.not_mem_nil,
      or_false] at ha ⊢
    tauto
  · simp only [if_neg hext, List.nil_append, List.mem_cons, List.not_mem_nil, or_false] at ha ⊢
    tauto

/-- Some chunks have gone out of use: they have been given back, and no others
    have. -/
structure GivesBack (h h' : Hosted) : Prop where
  backed : Backed h'.client h'.kernel
  retains : Retains h h'
  occupied : h'.kernel.occupied ⊆ h.kernel.occupied

theorem givesBack_refl {h : Hosted} (hbacked : Backed h.client h.kernel) : GivesBack h h :=
  ⟨hbacked, fun _ hb _ _ => hb, List.Subset.refl _⟩

theorem givesBack_trans {h h' h'' : Hosted} (hg : GivesBack h h') (hg' : GivesBack h' h'') :
    GivesBack h h'' := by
  refine ⟨hg'.backed, fun b hb hin hout => ?_, fun a ha => hg.occupied (hg'.occupied ha)⟩
  have hmid := hg'.occupied hout
  exact hg'.retains b (hg.retains b hb hin hmid) hmid hout

section Reap

variable {h h' : Hosted} {v : View} {r1 : Word} {n : Addr}

/-- Reaping gives back chunks of the task, which are live blocks, and nothing
    else. -/
theorem hosted_reap (hcons : Consistent h.kernel v) (hn : n ∈ v.running)
    (hbacked : Backed h.client h.kernel) (hreap : h.reap r1 n = some h') :
    h'.kernel = reap n h.kernel ∧ GivesBack h h' := by
  cases hrun : run clientStep (giveBack r1 (h.kernel.freedWith n)) h.client with
  | none => simp only [Hosted.reap, hrun, reduceCtorEq] at hreap
  | some client =>
      simp only [Hosted.reap, hrun, Option.some.injEq] at hreap
      subst hreap
      have hocc : (reap n h.kernel).occupied =
          h.kernel.occupied.diff (h.kernel.freedWith n) := by
        rw [reap_eq, afterCleanUp_eq]
      -- An address that stays in use is none of those given back: these are addresses
      -- of live blocks, so no two of them have the same word.
      have hkeep : ∀ b ∈ h.client.live, b.1.toNat ∈ (reap n h.kernel).occupied →
          b ∈ client.live := by
        intro b hb hin
        rw [hocc, hcons.chunks.mem_sdiff_iff] at hin
        refine (giveBack_live _ _ _ hrun b).mpr ⟨hb, fun a ha heq => hin.2 ?_⟩
        have hused : a ∈ h.kernel.occupied := consistent_owns_occupied hcons
          (List.mem_append_left _ hn) (freedWith_subset h.kernel n ha)
        rcases hbacked a hused with ⟨b', _, rfl⟩
        rwa [heq, BitVec.ofNat_toNat, BitVec.setWidth_eq]
      have hsubset : (reap n h.kernel).occupied ⊆ h.kernel.occupied := by
        rw [hocc]
        exact List.diff_subset _ _
      refine ⟨rfl, fun a ha => ?_, fun b hb _ hin => hkeep b hb hin, hsubset⟩
      rcases hbacked a (hsubset ha) with ⟨b, hb, rfl⟩
      exact ⟨b, hkeep b hb ha, rfl⟩

/-- The search loop does to the kernel what the kernel's own does. The induction
    is on the fuel; the loop's node stays in the running queue. -/
theorem hosted_searchLoop (r1 : Word) (fuel : Nat) : ∀ (j : Nat) (q : Addr) (h h' : Hosted)
    (v : View), Consistent h.kernel v → q ∈ v.running → h.kernel.currentlyRunning ∈ v.running →
    h.kernel.stateOf h.kernel.currentlyRunning = .READY → Backed h.client h.kernel →
    h.searchLoop r1 fuel j q = some h' →
      h'.kernel = searchLoop fuel j q h.kernel ∧ GivesBack h h' := by
  induction fuel with
  | zero =>
      intro j q h h' v _ _ _ _ hbacked hloop
      rw [← Option.some.inj hloop]
      exact ⟨rfl, givesBack_refl hbacked⟩
  | succ fuel ih =>
      intro j q h h' v hcons hq hcur hready hbacked hloop
      rw [Hosted.searchLoop] at hloop
      rw [searchLoop]
      by_cases hj : j < h.kernel.runningTasks.size
      · rw [if_pos hj] at hloop ⊢
        by_cases hdead : h.kernel.stateOf q = .FINISHED ∨ h.kernel.stateOf q = .INVALID
        · rw [if_pos hdead] at hloop
          simp only [if_pos hdead]
          cases hreap : h.reap r1 q with
          | none => simp only [hreap, reduceCtorEq] at hloop
          | some h₁ =>
              simp only [hreap] at hloop
              rcases hosted_reap hcons hq hbacked hreap with ⟨hkernel, hgives⟩
              rcases reap_round hcons hq hcur hready hdead with ⟨hstep, hnext, hcur', hready'⟩
              rw [← hkernel] at hstep hnext hcur' hready' ⊢
              rcases ih (j + 1) _ h₁ h' _ hstep.consistent hnext hcur' hready' hgives.backed hloop
                with ⟨hrest, hgives'⟩
              exact ⟨hrest, givesBack_trans hgives hgives'⟩
        · rw [if_neg hdead] at hloop
          simp only [if_neg hdead]
          exact ih (j + 1) _ h h' v hcons (represents_next_mem hcons.running hq) hcur hready
            hbacked hloop
      · rw [if_neg hj] at hloop ⊢
        rw [← Option.some.inj hloop]
        exact ⟨rfl, givesBack_refl hbacked⟩

/-- The calls of the search loop. -/
theorem searchLoop_calls (r1 : Word) (fuel : Nat) : ∀ (j : Nat) (q : Addr) (h h' : Hosted),
    h.searchLoop r1 fuel j q = some h' → ∃ es, run clientStep es h.client = some h'.client ∧
      ∀ r size, Request.allocate r size ∉ es := by
  induction fuel with
  | zero =>
      intro j q h h' hloop
      exact ⟨[], Option.some.inj hloop ▸ rfl, fun _ _ => List.not_mem_nil⟩
  | succ fuel ih =>
      intro j q h h' hloop
      rw [Hosted.searchLoop] at hloop
      by_cases hj : j < h.kernel.runningTasks.size
      · rw [if_pos hj] at hloop
        by_cases hdead : h.kernel.stateOf q = .FINISHED ∨ h.kernel.stateOf q = .INVALID
        · rw [if_pos hdead, Hosted.reap] at hloop
          cases hrun : run clientStep (giveBack r1 (h.kernel.freedWith q)) h.client with
          | none => simp only [hrun, reduceCtorEq] at hloop
          | some client =>
              simp only [hrun] at hloop
              rcases ih (j + 1) _ _ h' hloop with ⟨es, hrest, hno⟩
              refine ⟨_ ++ es, by rw [run_append, hrun, Option.bind_some, hrest],
                fun r size hmem => ?_⟩
              rcases List.mem_append.mp hmem with hmem | hmem
              · rcases List.mem_map.mp hmem with ⟨a, _, heq⟩
                exact Request.noConfusion heq
              · exact hno r size hmem
        · rw [if_neg hdead] at hloop
          exact ih (j + 1) _ h h' hloop
      · rw [if_neg hj] at hloop
        exact ⟨[], Option.some.inj hloop ▸ rfl, fun _ _ => List.not_mem_nil⟩

end Reap

/-! ### Every event -/

theorem hostedStep_enabled {e : HostedEvent} {h h' : Hosted} (hstep : hostedStep e h = some h') :
    HostedEnabled e h ∧ hostedEffect e h = some h' := by
  unfold hostedStep at hstep
  by_cases hen : HostedEnabled e h
  · exact ⟨hen, by rwa [if_pos hen] at hstep⟩
  · simp only [if_neg hen, reduceCtorEq] at hstep

/-- A creation, and the answers it got. -/
theorem hosted_createTask {h h' : Hosted} {r1 : Word} {slot ramLocation : Addr}
    (heff : h.createTask r1 slot ramLocation = some h') : ∃ answers result,
      allocateAll r1 (creationSizes h.client.heap.debug h.kernel) h.client =
          some (h'.client, answers) ∧
        createTask (chunksOf h.kernel answers) slot ramLocation h.kernel =
          some (result, h'.kernel) := by
  unfold Hosted.createTask at heff
  cases hall : allocateAll r1 (creationSizes h.client.heap.debug h.kernel) h.client with
  | none => simp only [hall, reduceCtorEq] at heff
  | some r =>
      cases hcreate : createTask (chunksOf h.kernel r.2) slot ramLocation h.kernel with
      | none => simp only [hall, hcreate, reduceCtorEq] at heff
      | some t =>
          simp only [hall, hcreate, Option.some.injEq] at heff
          exact ⟨r.2, t.1, by rw [← heff], by rw [hcreate, ← heff]⟩

theorem hosted_createIdle {h h' : Hosted} {r1 : Word} {slot : Addr}
    (heff : h.createIdle r1 slot = some h') : ∃ answers,
      allocateAll r1 (creationSizes h.client.heap.debug h.kernel) h.client =
          some (h'.client, answers) ∧
        createIdle (chunksOf h.kernel answers) slot h.kernel = some h'.kernel := by
  unfold Hosted.createIdle at heff
  cases hall : allocateAll r1 (creationSizes h.client.heap.debug h.kernel) h.client with
  | none => simp only [hall, reduceCtorEq] at heff
  | some r =>
      cases hcreate : createIdle (chunksOf h.kernel r.2) slot h.kernel with
      | none => simp only [hall, hcreate, reduceCtorEq] at heff
      | some t =>
          simp only [hall, hcreate, Option.some.injEq] at heff
          exact ⟨r.2, by rw [← heff], by rw [hcreate, ← heff]⟩

/-- A creation takes none but the chunks it was handed. -/
theorem createTask_occupied {c : Chunks} {slot ramLocation : Addr} {s s' : Kernel} {result : Int}
    (hrun : createTask c slot ramLocation s = some (result, s')) {a : Addr}
    (ha : a ∈ s'.occupied) : a ∈ c.granted ∨ a ∈ s.occupied := by
  have hprepared : ∀ {list snode}, Granted c s →
      a ∈ (prepared c ramLocation list snode s).occupied → a ∈ c.granted ∨ a ∈ s.occupied := by
    intro list snode hgranted hmem
    have htaken : a ∈ c.taken s ++ s.occupied := by
      rw [taken_append]
      exact hmem
    exact (List.mem_append.mp htaken).imp (taken_granted hgranted) id
  rcases createTask_cases hrun with ⟨_, _, rfl⟩ | ⟨_, hstack, _, rfl⟩ |
    ⟨hgranted, list, snode, _, ⟨_, _, rfl⟩ | ⟨_, hnode, rfl⟩⟩
  · exact Or.inr ha
  · rw [allocate_eq, if_neg hstack] at ha
    rcases List.mem_cons.mp ha with rfl | ha
    · exact Or.inl (mem_granted.mpr ⟨Or.inl rfl, hstack⟩)
    · exact Or.inr ha
  · exact hprepared hgranted ha
  · have hstate := newTcb_state c ramLocation s
    rw [← prepared_tcb c ramLocation list snode s] at hstate
    rw [insertScheduledTask_some hnode hstate] at ha
    rcases List.mem_cons.mp ha with rfl | ha
    · exact Or.inl (mem_granted.mpr ⟨Or.inr (Or.inr (Or.inr (Or.inr rfl))), hnode⟩)
    · exact hprepared hgranted ha

theorem creationSizes_small (debug : Bool) (s : Kernel) {size : Nat}
    (hsize : size ∈ creationSizes debug s) : size ≤ 32760 := by
  have htcb : sizeofTcb debug ≤ 52 := by cases debug <;> decide
  unfold creationSizes at hsize
  by_cases hcur : s.currentlyRunning = NULL
  · simp only [if_pos hcur, List.append_nil, List.cons_append, List.nil_append, List.mem_cons,
      List.not_mem_nil, or_false, sizeofCpuRegister, STACK_SIZE, sizeofList, sizeofNode] at hsize
    omega
  · simp only [if_neg hcur, List.cons_append, List.nil_append, List.mem_cons, List.not_mem_nil,
      or_false, sizeofCpuRegister, STACK_SIZE, sizeofSingleLinkedNode, sizeofList,
      sizeofNode] at hsize
    omega

/-- The allocator's part of an event is a run of small requests. -/
theorem hosted_calls {e : HostedEvent} {h h' : Hosted} (hstep : hostedStep e h = some h')
    (hsmall : SmallRequest e) : ∃ es, run clientStep es h.client = some h'.client ∧
      ∀ r size, Request.allocate r size ∈ es → size ≤ 32760 := by
  have hcreate : ∀ {r1 answers},
      allocateAll r1 (creationSizes h.client.heap.debug h.kernel) h.client =
        some (h'.client, answers) → ∃ es, run clientStep es h.client = some h'.client ∧
          ∀ r size, Request.allocate r size ∈ es → size ≤ 32760 := fun hall =>
    let ⟨es, hrun, hsizes, _⟩ := allocateAll_run _ _ _ _ _ hall
    ⟨es, hrun, fun r size hmem => creationSizes_small _ _ (hsizes r size hmem)⟩
  have heff := (hostedStep_enabled hstep).2
  cases e with
  | schedule e =>
      rcases Option.map_eq_some_iff.mp heff with ⟨kernel, _, rfl⟩
      exact ⟨[], rfl, fun _ _ hc => absurd hc List.not_mem_nil⟩
  | createTask r1 slot ramLocation =>
      rcases hosted_createTask heff with ⟨answers, result, hall, _⟩
      exact hcreate hall
  | createIdle r1 slot =>
      rcases hosted_createIdle heff with ⟨answers, hall, _⟩
      exact hcreate hall
  | allocateImage r1 size =>
      cases hcall : h.client.allocate r1 size with
      | none => simp only [hostedEffect, Hosted.allocateImage, hcall, reduceCtorEq] at heff
      | some r =>
          simp only [hostedEffect, Hosted.allocateImage, hcall, Option.some.injEq] at heff
          rw [← heff]
          refine ⟨[Request.allocate r1 size], by simp only [run, (client_allocate hcall).1],
            fun r size' hmem => ?_⟩
          rcases Request.allocate.inj (List.mem_singleton.mp hmem) with ⟨-, rfl⟩
          exact hsmall
  | searchInvalidateTasks r1 =>
      rcases searchLoop_calls r1 _ _ _ h h' heff with ⟨es, hrun, hno⟩
      exact ⟨es, hrun, fun r size hmem => absurd hmem (hno r size)⟩
  | request r =>
      rcases Option.map_eq_some_iff.mp heff with ⟨client, hcall, rfl⟩
      refine ⟨[r], by simp only [run, hcall], fun r1 size hmem => ?_⟩
      rw [← List.mem_singleton.mp hmem] at hsmall
      exact hsmall

/-- No call changes what the allocator was compiled for. -/
theorem clientStep_debug (s : Client) (r : Request) (s' : Client) (h : clientStep r s = some s') :
    s'.heap.debug = s.heap.debug := by
  rcases clientStep_cases h with ⟨r1, size, m, p, _, hcall, rfl⟩ |
    ⟨r1, address, m, p, _, hcall, rfl⟩
  · cases hcall <;> rfl
  · cases hcall <;> rfl

theorem hosted_debug {e : HostedEvent} {h h' : Hosted} (hstep : hostedStep e h = some h')
    (hsmall : SmallRequest e) : h'.client.heap.debug = h.client.heap.debug := by
  rcases hosted_calls hstep hsmall with ⟨es, hrun, _⟩
  exact run_preserves clientStep (fun s => s.heap.debug = h.client.heap.debug)
    (fun s r s' hs hr => (clientStep_debug s r s' hr).trans hs) es _ _ rfl hrun

/-- What `create_task` got for its calls. -/
def Answered (h h' : Hosted) (c : Chunks) : Prop :=
  ∃ answers blocks, c = chunksOf h.kernel answers ∧
    Grants (creationSizes h.client.heap.debug h.kernel) h.client h'.client answers blocks

/-- What an event is for the kernel: nothing, or an event of its own, with
    answers that the allocator has given. -/
def ServesKernel (e : HostedEvent) (h h' : Hosted) : Prop :=
  (kernelEvent e h = none ∧ h'.kernel = h.kernel) ∨
    ∃ e', kernelEvent e h = some e' ∧ step e' h.kernel = some h'.kernel ∧
      ∀ c ramLocation, e'.creates = some (c, ramLocation) → Answered h h' c

section Events

variable {e : HostedEvent} {h h' : Hosted} {v : View} {k : Nat}

theorem step_of_enabled {e : Event} {s s' : Kernel} (hen : Enabled e s)
    (heff : effect e s = some s') : step e s = some s' := by
  rw [step, if_pos hen, heff]

/-- A creation, of whatever task, on chunks that the allocator has handed out. -/
theorem hosted_creation {r1 : Word} {answers : List Addr} {slot ramLocation : Addr} {result : Int}
    {s₁ : Kernel} (hg : Grounded h v) (hcovered : Covered h'.client k)
    (hall : allocateAll r1 (creationSizes h.client.heap.debug h.kernel) h.client =
      some (h'.client, answers))
    (hcreate : createTask (chunksOf h.kernel answers) slot ramLocation h.kernel =
      some (result, s₁)) (hocc : h'.kernel.occupied = s₁.occupied) :
    (chunksOf h.kernel answers).Free h.kernel ∧ Answered h h' (chunksOf h.kernel answers) ∧
      Backed h'.client h'.kernel ∧ Retains h h' := by
  rcases allocateAll_run _ _ _ _ _ hall with ⟨_, _, _, blocks, hgrants⟩
  have hlen : answers.length ≤ (creationSizes h.client.heap.debug h.kernel).length := by
    rw [hgrants.answers, List.length_map, ← List.length_map Prod.snd]
    exact hgrants.sizes.length_le
  refine ⟨chunksOf_free hg.backed hgrants hcovered, ⟨answers, blocks, rfl, hgrants⟩,
    fun a ha => ?_, fun b hb _ _ => ?_⟩
  · rw [hocc] at ha
    rcases createTask_occupied hcreate ha with ha | ha
    · rw [chunksOf_granted hlen hgrants.nonnull, hgrants.answers] at ha
      rcases List.mem_map.mp ha with ⟨b, hb, rfl⟩
      exact ⟨b, hgrants.live ▸ List.mem_append_left _ (List.mem_reverse.mpr hb), rfl⟩
    · rcases hg.backed a ha with ⟨b, hb, rfl⟩
      exact ⟨b, hgrants.live ▸ List.mem_append_right _ hb, rfl⟩
  · rw [hgrants.live]
    exact List.mem_append_right _ hb

/-- Every event is one of the kernel's or none, and leaves every chunk that the
    kernel has in use a live block. -/
theorem hosted_event (hg : Grounded h v) (hcovered : Covered h'.client k)
    (hstep : hostedStep e h = some h') :
    ServesKernel e h h' ∧ Backed h'.client h'.kernel ∧ Retains h h' := by
  rcases hostedStep_enabled hstep with ⟨hen, heff⟩
  cases e with
  | schedule e =>
      rcases Option.map_eq_some_iff.mp heff with ⟨kernel, hkernel, rfl⟩
      have hkstep := step_of_enabled hen.2 hkernel
      refine ⟨Or.inr ⟨e, rfl, hkstep, fun c ramLocation hc => ?_⟩, fun a ha => hg.backed a ?_,
        fun b hb _ _ => hb⟩
      · cases e with
        | createTask | createIdle => exact absurd hen.1 not_false
        | _ => exact absurd hc (Option.some_ne_none _).symm
      · rwa [← (step_frame hkstep hen.1).occupied]
  | createTask r1 slot ramLocation =>
      rcases hosted_createTask heff with ⟨answers, result, hall, hcreate⟩
      rcases hosted_creation hg hcovered hall hcreate rfl with ⟨hfree, hanswered, hrest⟩
      refine ⟨Or.inr ⟨.createTask (chunksOf h.kernel answers) slot ramLocation, ?_,
        step_of_enabled ⟨hen.1, hfree, hen.2⟩ ?_, fun c ram hc => ?_⟩, hrest⟩
      · rw [kernelEvent, hall, Option.map_some]
      · rw [effect, hcreate, Option.map_some]
      · rw [← (Prod.mk.inj (Option.some.inj hc)).1]
        exact hanswered
  | createIdle r1 slot =>
      rcases hosted_createIdle heff with ⟨answers, hall, hidle⟩
      rcases createIdle_some hidle with ⟨result, s₁, hcreate, hs₁⟩
      rcases hosted_creation hg hcovered hall hcreate (by rw [hs₁]) with
        ⟨hfree, hanswered, hrest⟩
      refine ⟨Or.inr ⟨.createIdle (chunksOf h.kernel answers) slot, ?_,
        step_of_enabled ⟨hen, hfree⟩ hidle, fun c ram hc => ?_⟩, hrest⟩
      · rw [kernelEvent, hall, Option.map_some]
      · rw [← (Prod.mk.inj (Option.some.inj hc)).1]
        exact hanswered
  | allocateImage r1 size =>
      cases hcall : h.client.allocate r1 size with
      | none => simp only [hostedEffect, Hosted.allocateImage, hcall, reduceCtorEq] at heff
      | some r =>
          rcases r with ⟨client, image⟩
          simp only [hostedEffect, Hosted.allocateImage, hcall, Option.some.injEq] at heff
          subst heff
          rcases client_allocate hcall with ⟨_, p, rfl, hlive⟩
          by_cases hnull : p.toNat = NULL
          · rw [if_pos (BitVec.eq_of_toNat_eq hnull)] at hlive
            simp only [if_pos hnull, Retains, hlive]
            refine ⟨Or.inl ⟨?_, rfl⟩, fun a ha => ?_, fun b hb _ _ => hb⟩
            · simp only [kernelEvent, hcall, Option.bind_some, if_pos hnull]
            · simpa only [hlive] using hg.backed a ha
          · have hword : p ≠ 0#32 := fun hc => hnull (congrArg BitVec.toNat hc)
            rw [if_neg hword] at hlive
            -- What is handed out begins at none of the blocks that were live.
            have hfresh : p.toNat ∉ h.kernel.occupied := fun hocc => by
              rcases hg.backed _ hocc with ⟨b, hb, heq⟩
              have hdistinct := hcovered.distinct
              rw [hlive, List.map_cons, List.nodup_cons] at hdistinct
              exact hdistinct.1 (List.mem_map.mpr ⟨b, hb, BitVec.eq_of_toNat_eq heq⟩)
            simp only [if_neg hnull, Retains, hlive]
            refine ⟨Or.inr ⟨.allocateImage p.toNat, ?_, step_of_enabled ⟨hen, hnull, hfresh⟩ ?_,
              fun c ram hc => absurd hc (Option.some_ne_none _).symm⟩, fun a ha => ?_,
              fun b hb _ _ => List.mem_cons_of_mem _ hb⟩
            · simp only [kernelEvent, hcall, Option.bind_some, if_neg hnull]
            · rw [effect]
            · rw [hlive]
              simp only [Kernel.allocate, if_neg hnull] at ha
              rcases List.mem_cons.mp ha with rfl | ha
              · exact ⟨_, List.mem_cons_self, rfl⟩
              · rcases hg.backed a ha with ⟨b, hb, rfl⟩
                exact ⟨b, List.mem_cons_of_mem _ hb, rfl⟩
  | searchInvalidateTasks r1 =>
      rcases hosted_searchLoop r1 _ 0 _ h h' v hg.inv.consistent
        (inv_current_running hg.inv hen.1) (inv_current_running hg.inv hen.1)
        (hg.inv.thread hen.1).1 hg.backed heff with ⟨hkernel, hgives⟩
      refine ⟨Or.inr ⟨.searchInvalidateTasks, rfl, step_of_enabled hen ?_,
        fun c ram hc => absurd hc (Option.some_ne_none _).symm⟩, hgives.backed, hgives.retains⟩
      rw [effect, hkernel]
      rfl
  | request r =>
      rcases Option.map_eq_some_iff.mp heff with ⟨client, hcall, rfl⟩
      have hkeep : ∀ b ∈ h.client.live, b.1.toNat ∈ h.kernel.occupied → b ∈ client.live := by
        intro b hb hocc
        rcases clientStep_cases hcall with ⟨r1, size, m, p, _, _, rfl⟩ |
          ⟨r1, address, m, p, rfl, _, rfl⟩
        · by_cases hnull : p = 0#32
          · simpa only [if_pos hnull] using hb
          · simpa only [if_neg hnull] using List.mem_cons_of_mem _ hb
        · refine List.mem_filter.mpr ⟨hb, decide_eq_true fun heq => hen ?_⟩
          rwa [← heq]
      refine ⟨Or.inl ⟨rfl, rfl⟩, fun a ha => ?_, fun b hb hocc _ => hkeep b hb hocc⟩
      rcases hg.backed a ha with ⟨b, hb, rfl⟩
      exact ⟨b, hkeep b hb ha, rfl⟩

/-- What an event does to the tasks, if it is one of the kernel's. -/
inductive HostedOutcome (e : HostedEvent) (h h' : Hosted) (v v' : View) : Prop where
  | own (hnone : kernelEvent e h = none) (hkernel : h'.kernel = h.kernel) (hv : v' = v)
  | kernel (e' : Event) (hsome : kernelEvent e h = some e')
      (hstep : step e' h.kernel = some h'.kernel) (hout : Outcome e' h.kernel h'.kernel v v')
      (hanswered : ∀ c ramLocation, e'.creates = some (c, ramLocation) → Answered h h' c)

/-- Every event keeps the invariant and has an outcome, while offsets fit. -/
theorem hosted_step (hg : Grounded h v) (hstep : hostedStep e h = some h')
    (hsmall : SmallRequest e) (hbytes : h'.client.heap.usedBytes < 65536) :
    ∃ v', Grounded h' v' ∧ Retains h h' ∧ HostedOutcome e h h' v v' := by
  rcases hg.covered with ⟨k, hk⟩
  rcases hosted_calls hstep hsmall with ⟨es, hrun, hes⟩
  rcases covered_run hk hrun hes hbytes with ⟨k', hk'⟩
  rcases hosted_event hg hk' hstep with
    ⟨⟨hnone, hkernel⟩ | ⟨e', hsome, hkstep, hanswered⟩, hbacked, hretains⟩
  · exact ⟨v, ⟨hkernel ▸ hg.inv, ⟨k', hk'⟩, hbacked⟩, hretains, .own hnone hkernel rfl⟩
  · rcases step_outcome hg.inv hkstep with ⟨v', hinv, hout⟩
    exact ⟨v', ⟨hinv, ⟨k', hk'⟩, hbacked⟩, hretains, .kernel e' hsome hkstep hout hanswered⟩

theorem hosted_packed (hpacked : ∃ k, Packed h.client.heap k) (hstep : hostedStep e h = some h')
    (hsmall : SmallRequest e) : ∃ k, Packed h'.client.heap k := by
  rcases hosted_calls hstep hsmall with ⟨fs, hcalls, _⟩
  exact run_preserves clientStep (fun s => ∃ k, Packed s.heap k) packed_step fs _ _ hpacked hcalls

theorem hosted_packed_run {es : List HostedEvent} (hpacked : ∃ k, Packed h.client.heap k)
    (hsmall : ∀ e ∈ es, SmallRequest e) (hrun : run hostedStep es h = some h') :
    ∃ k, Packed h'.client.heap k := by
  induction es generalizing h with
  | nil => rwa [← Option.some.inj hrun]
  | cons e es ih =>
      rcases run_cons hostedStep hrun with ⟨h₁, hstep, hrest⟩
      exact ih (hosted_packed hpacked hstep (hsmall e List.mem_cons_self))
        (fun e' he' => hsmall e' (List.mem_cons_of_mem e he')) hrest

/-- The chunks that were ever carved do not become fewer. -/
theorem hosted_usedBytes {es : List HostedEvent} (hpacked : ∃ k, Packed h.client.heap k)
    (hsmall : ∀ e ∈ es, SmallRequest e) (hrun : run hostedStep es h = some h') :
    h.client.heap.usedBytes ≤ h'.client.heap.usedBytes := by
  induction es generalizing h with
  | nil => exact Nat.le_of_eq (Option.some.inj hrun ▸ rfl)
  | cons e es ih =>
      rcases run_cons hostedStep hrun with ⟨h₁, hstep, hrest⟩
      rcases hosted_calls hstep (hsmall e List.mem_cons_self) with ⟨fs, hcalls, _⟩
      have hpacked₁ := hosted_packed hpacked hstep (hsmall e List.mem_cons_self)
      exact Nat.le_trans (usedBytes_run hpacked hcalls)
        (ih hpacked₁ (fun e' he' => hsmall e' (List.mem_cons_of_mem e he')) hrest)

theorem Grounded.packed (hg : Grounded h v) : ∃ k, Packed h.client.heap k :=
  let ⟨k, hk⟩ := hg.covered
  ⟨k, hk.tiled.packed⟩

/-- What holds at the start of a run and is kept by the steps of hosted kernels holds
    at its end. The property may speak of the events to come. The last state bounds what
    was carved before, so each step of the run meets the condition of `hosted_step`. -/
theorem hosted_induction {P : List HostedEvent → Hosted → View → Prop}
    (hP : ∀ e es h h' v v', Grounded h v → Grounded h' v' → Retains h h' →
      SmallRequest e → hostedStep e h = some h' → HostedOutcome e h h' v v' →
      P (e :: es) h v → P es h' v')
    {es : List HostedEvent} (hg : Grounded h v) (hstart : P es h v)
    (hsmall : ∀ e ∈ es, SmallRequest e) (hrun : run hostedStep es h = some h')
    (hbytes : h'.client.heap.usedBytes < 65536) : ∃ v', Grounded h' v' ∧ P [] h' v' := by
  induction es generalizing h v with
  | nil =>
      rw [← Option.some.inj hrun]
      exact ⟨v, hg, hstart⟩
  | cons e es ih =>
      rcases run_cons hostedStep hrun with ⟨h₁, hstep, hrest⟩
      have hsmall' : ∀ e' ∈ es, SmallRequest e' := fun e' he' =>
        hsmall e' (List.mem_cons_of_mem e he')
      have hpacked₁ := hosted_packed hg.packed hstep (hsmall e List.mem_cons_self)
      have hbytes₁ := Nat.lt_of_le_of_lt (hosted_usedBytes hpacked₁ hsmall' hrest) hbytes
      rcases hosted_step hg hstep (hsmall e List.mem_cons_self) hbytes₁ with
        ⟨v₁, hg₁, hretains, hout⟩
      exact ih hg₁ (hP e es h h₁ v v₁ hg hg₁ hretains (hsmall e List.mem_cons_self) hstep hout
        hstart) hsmall' hrest

/-- A run keeps the invariant and is a run of the kernel: what the kernel has still to
    do ends where the run of the kernel ends. -/
theorem hosted_run {es : List HostedEvent} (hg : Grounded h v)
    (hsmall : ∀ e ∈ es, SmallRequest e) (hrun : run hostedStep es h = some h')
    (hbytes : h'.client.heap.usedBytes < 65536) :
    (∃ v', Grounded h' v') ∧ run step (kernelEvents es h) h.kernel = some h'.kernel := by
  let P : List HostedEvent → Hosted → View → Prop := fun fs g _ =>
    run step (kernelEvents fs g) g.kernel = run step (kernelEvents es h) h.kernel
  have hP : ∀ f fs g g' u u', Grounded g u → Grounded g' u' → Retains g g' →
      SmallRequest f → hostedStep f g = some g' → HostedOutcome f g g' u u' →
      P (f :: fs) g u → P fs g' u' := by
    intro f fs g g' u u' _ _ _ _ hstep hout hhere
    simp only [P, kernelEvents, hstep] at hhere ⊢
    rw [← hhere, run_append]
    cases hout with
    | own hnone hsame _ =>
        rw [hnone, Option.toList_none, run, Option.bind_some, ← hsame]
    | kernel e' hsome hkstep _ _ =>
        simp only [hsome, Option.toList_some, run, hkstep, Option.bind_some]
  rcases hosted_induction hP hg rfl hsmall hrun hbytes with ⟨v', hg', hend⟩
  exact ⟨⟨v', hg'⟩, hend.symm⟩

/-- The state after `init_scheduler`. -/
theorem hostedInitialized_grounded (hinit : HostedInitialized h)
    (hbytes : h.client.heap.usedBytes < 65536) :
    Initialized h.kernel ∧
      Grounded h { running := [], waiting := [], leaked := h.kernel.occupied } := by
  rcases hinit with ⟨raw, startOsSection, ramSize, r1, node, tcb, list, snode, rq, wq, hall, hok⟩
  rcases allocateAll_run _ _ _ _ _ hall with ⟨es, hrun, hsizes, blocks, hgrants⟩
  rcases covered_run (covered_initialClient raw startOsSection ramSize) hrun
    (fun r size hmem => by
      have hsize := hsizes r size hmem
      simp only [sizeofQueue, List.mem_cons, List.not_mem_nil, or_false] at hsize
      omega) hbytes with ⟨k, hk⟩
  have hanswers := hgrants.answers
  have hnodup : (h.client.live.map fun b => b.1.toNat).Nodup := by
    have hmap := hk.distinct.map fun _ _ heq => BitVec.eq_of_toNat_eq heq
    rwa [List.map_map] at hmap
  rw [hgrants.live, List.map_append, List.map_reverse, ← hanswers] at hnodup
  have hne : rq ≠ wq := fun hc => by
    have hpair := List.nodup_reverse.mp (List.nodup_append.mp hnodup).1
    rw [hc] at hpair
    exact (List.nodup_cons.mp hpair).1 (List.mem_singleton_self wq)
  have hinit : Initialized h.kernel := ⟨node, tcb, list, snode, rq, wq, hne, hok⟩
  refine ⟨hinit, (initScheduler_inv hinit).1, ⟨k, hk⟩, fun a ha => ?_⟩
  rcases initScheduler_cases rq wq (Kernel.reset node tcb list snode) with
    hfail | ⟨_, _, hinitial⟩
  · rw [hok] at hfail
    exact absurd (show (0 : Int) = -1 from hfail) (by decide)
  · rw [hok, Prod.mk.injEq] at hinitial
    rw [hinitial.2] at ha
    -- In use are the two queue headers, which are the two answers.
    have hmem : a ∈ blocks.map fun b => b.1.toNat := by
      rw [← hanswers]
      have ha' : a ∈ [wq, rq] := ha
      simp only [List.mem_cons, List.not_mem_nil, or_false] at ha' ⊢
      exact ha'.symm
    rcases List.mem_map.mp hmem with ⟨b, hb, rfl⟩
    exact ⟨b, hgrants.live ▸ List.mem_append_left _ (List.mem_reverse.mpr hb), rfl⟩

/-- The state a run starts in keeps the invariant: no less was carved at its end. -/
theorem hosted_start {h₀ : Hosted} {es : List HostedEvent} (hinit : HostedInitialized h₀)
    (hsmall : ∀ e ∈ es, SmallRequest e) (hrun : run hostedStep es h₀ = some h)
    (hbytes : h.client.heap.usedBytes < 65536) : Initialized h₀.kernel ∧
      Grounded h₀ { running := [], waiting := [], leaked := h₀.kernel.occupied } := by
  have hpacked : ∃ k, Packed h₀.client.heap k := by
    rcases hinit with ⟨_, _, _, _, _, _, _, _, _, _, hall, _⟩
    rcases allocateAll_run _ _ _ _ _ hall with ⟨fs, hcalls, _⟩
    exact packed_reachable hcalls
  exact hostedInitialized_grounded hinit
    (Nat.lt_of_le_of_lt (hosted_usedBytes hpacked hsmall hrun) hbytes)

end Events

/-- Every run of the hosted kernel is a run of the kernel, with answers that keep
    the contract of `allocate`. What the kernel has in use in the end are live blocks,
    each with an occupied entry of the table whose chunk begins at its address and is
    as large as what was asked for. -/
theorem hosted_refines_kernel {h₀ h : Hosted} {es : List HostedEvent}
    (hinit : HostedInitialized h₀) (hrun : run hostedStep es h₀ = some h)
    (hsmall : ∀ e ∈ es, SmallRequest e) (hbytes : h.client.heap.usedBytes < 65536) :
    Initialized h₀.kernel ∧ run step (kernelEvents es h₀) h₀.kernel = some h.kernel ∧
      ∀ a ∈ h.kernel.occupied, ∃ b ∈ h.client.live, b.1.toNat = a ∧
        ∃ i, GrantedChunk h.client.heap b i := by
  rcases hosted_start hinit hsmall hrun hbytes with ⟨hinitialized, hg₀⟩
  rcases hosted_run hg₀ hsmall hrun hbytes with ⟨⟨v, hg⟩, hkernel⟩
  rcases hg.covered with ⟨k, hk⟩
  refine ⟨hinitialized, hkernel, fun a ha => ?_⟩
  rcases hg.backed a ha with ⟨b, hb, hba⟩
  rcases hk.granted hb with ⟨i, _, hgranted⟩
  exact ⟨b, hb, hba, i, hgranted⟩

/-- The hosted kernel on memory full of zeros. -/
def freshHosted : Hosted :=
  match allocateAll 7#32 [sizeofQueue, sizeofQueue] freshClient with
  | none => { client := freshClient, kernel := freshKernel }
  | some (client, answers) =>
    { client := client
      kernel := (initScheduler (answers.getD 0 NULL) (answers.getD 1 NULL)
        (Kernel.reset (fun _ => { next := 0, prev := 0, data := 0 })
          (fun _ => blankTcb) (fun _ => { size := 0, head := NULL })
          (fun _ => { next := NULL, data := NULL }))).2 }

theorem freshHosted_initialized : HostedInitialized freshHosted := by
  refine ⟨blankMemory, 0x20001001#32, 0x10000#32, 7#32,
    fun _ => { next := 0, prev := 0, data := 0 }, fun _ => blankTcb,
    fun _ => { size := 0, head := NULL }, fun _ => { next := NULL, data := NULL }, _, _, rfl, rfl⟩

/-- A boot, and a task that is created by the idle task, finishes and is reaped. -/
def hostedRound : List HostedEvent :=
  [.createIdle 7#32 3, .schedule .runScheduler, .createTask 7#32 3 0, .schedule .yieldTask,
    .schedule (.pendsv 8), .schedule (.finishTask blankTcb), .schedule (.pendsv 8),
    .searchInvalidateTasks 7#32]

theorem hostedRound_small : ∀ e ∈ hostedRound, SmallRequest e := by
  simp only [hostedRound, List.forall_mem_cons, SmallRequest, true_and]
  exact fun _ hc => absurd hc List.not_mem_nil

theorem hosted_refines_kernel_round : Ends hostedStep hostedRound freshHosted fun h =>
    run step (kernelEvents hostedRound freshHosted) freshHosted.kernel = some h.kernel ∧
      h.kernel.occupied.length = 8 ∧
      ∀ a ∈ h.kernel.occupied, ∃ b ∈ h.client.live, b.1.toNat = a ∧
        ∃ i, GrantedChunk h.client.heap b i := by
  have hends : Ends hostedStep hostedRound freshHosted fun h =>
      h.client.heap.usedBytes < 65536 ∧ h.kernel.occupied.length = 8 := by decide +kernel
  rcases hends with ⟨h, hrun, hbytes, hlen⟩
  rcases hosted_refines_kernel freshHosted_initialized hrun hostedRound_small hbytes with
    ⟨_, hkernel, hlive⟩
  exact ⟨h, hrun, hkernel, hlen, hlive⟩

end NextLevelRTOS
