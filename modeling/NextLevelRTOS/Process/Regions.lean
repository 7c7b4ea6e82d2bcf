import NextLevelRTOS.Process.Hosted

/-!
# The Memory of a Task

A task lives in five chunks: its queue node, its control block, its stack, its
child list and, when it was loaded, its code. The kernel knows their addresses
only. How long they are is what `create_task` asked `allocate` for, and that they
stay as long as they are for the task's whole life is nobody's field.

In a hosted kernel they do. Each of the four chunks that every task has is a
live block of the size that the source asks for, and the code of a loaded task is
a live block of the size of its image, whether a task runs it yet or not. Two of
them, of the same task or of different ones, share no byte. Neither do they with
what a task has allocated for itself. So no task overwrites another by staying
within its stack.

## Main definitions

* `Kernel.regionsOf`: The four chunks with their sizes.
* `Kernel.queued`: The nodes of both queues.
* `Kernel.codeSections`: The images, loaded or running.
* `Sized`: The invariant.

## Theorems

* `sized_step`: Every event of the hosted kernel keeps it.
* `tasks_apart`: The chunks of all tasks are live and apart.
-/

namespace NextLevelRTOS

open Machine

/-- The chunks of the task in a node, with what `create_task` asks for. -/
def Kernel.regionsOf (s : Kernel) (debug : Bool) (n : Addr) : List (Addr × Nat) :=
  let t := s.tcb (s.dataOf n)
  [(n, sizeofNode), (s.dataOf n, sizeofTcb debug),
    (t.stacksectionLowerBound, sizeofCpuRegister + STACK_SIZE), (t.childTasks, sizeofList)]

/-- The nodes of both queues. -/
def Kernel.queued (s : Kernel) : List Addr :=
  s.runningTasks.members s.node ++ s.waitingTasks.members s.node

/-- The image of the task in a node, if it was loaded. -/
def Kernel.codeOf (s : Kernel) (n : Addr) : List Addr :=
  if (s.tcb (s.dataOf n)).isExternal then [(s.tcb (s.dataOf n)).codeSection] else []

/-- The images that no task runs yet, and those of the tasks. -/
def Kernel.codeSections (s : Kernel) : List Addr := s.images ++ s.queued.flatMap s.codeOf

/-- The chunk is a live block of that size. -/
def IsBlock (c : Client) (r : Addr × Nat) : Prop := ∃ b ∈ c.live, (b.1.toNat, b.2) = r

/-- All chunks of the tasks are blocks of their sizes. -/
def Sized (h : Hosted) (v : View) : Prop :=
  ∀ n ∈ v.nodes, ∀ r ∈ h.kernel.regionsOf h.client.heap.debug n, IsBlock h.client r

section Regions

variable {s s' : Kernel} {v v' : View} {h h' : Hosted} {e : HostedEvent}

/-- A task owns the four chunks and its image. -/
theorem owns_eq (s : Kernel) (debug : Bool) (n : Addr) :
    s.owns n = (s.regionsOf debug n).map Prod.fst ++ s.codeOf n := rfl

theorem regionsOf_owns (s : Kernel) (debug : Bool) (n : Addr) :
    ((s.regionsOf debug n).map Prod.fst).Sublist (s.owns n) := by
  rw [owns_eq s debug n]
  exact List.sublist_append_left _ _

theorem regionsOf_congr {debug : Bool} {n : Addr} (hdata : s'.dataOf n = s.dataOf n)
    (hstack : (s'.tcb (s.dataOf n)).stacksectionLowerBound =
      (s.tcb (s.dataOf n)).stacksectionLowerBound)
    (hchild : (s'.tcb (s.dataOf n)).childTasks = (s.tcb (s.dataOf n)).childTasks) :
    s'.regionsOf debug n = s.regionsOf debug n := by
  simp only [Kernel.regionsOf, hdata, hstack, hchild]

/-- A chunk that a task has before and after is a block after when it was one. -/
theorem isBlock_retained {n : Addr} {debug : Bool} (hcons : Consistent h.kernel v)
    (hcons' : Consistent h'.kernel v') (hretains : Retains h h') (hn : n ∈ v.nodes)
    (hn' : n ∈ v'.nodes)
    (hsame : h'.kernel.regionsOf debug n = h.kernel.regionsOf debug n) {r : Addr × Nat}
    (hr : r ∈ h'.kernel.regionsOf debug n) (hblock : IsBlock h.client r) :
    IsBlock h'.client r := by
  have hafter : r.1 ∈ h'.kernel.owns n :=
    (regionsOf_owns _ debug n).subset (List.mem_map.mpr ⟨r, hr, rfl⟩)
  have hbefore : r.1 ∈ h.kernel.owns n :=
    (regionsOf_owns _ debug n).subset (List.mem_map.mpr ⟨r, hsame ▸ hr, rfl⟩)
  rcases hblock with ⟨b, hb, rfl⟩
  exact ⟨b, hretains b hb (consistent_owns_occupied hcons hn hbefore)
    (consistent_owns_occupied hcons' hn' hafter), rfl⟩

/-- An answer that is not null is a block of the size asked for. -/
theorem grants_isBlock {c c' : Client} {sizes : List Nat} {l : List Addr} {blocks : List Block}
    (hgrants : Grants sizes c c' l blocks) (i : Nat) {size : Nat} (hsize : sizes[i]? = some size)
    (hnull : l.getD i NULL ≠ NULL) : IsBlock c' (l.getD i NULL, size) := by
  rcases hgrants.sizes with ⟨rest, hprefix⟩
  cases hb : blocks[i]? with
  | none =>
      refine absurd ?_ hnull
      rw [hgrants.answers, List.getD_eq_getElem?_getD, List.getElem?_map, hb, Option.map_none,
        Option.getD_none]
  | some b =>
      have hlive : b ∈ c'.live := by
        rw [hgrants.live]
        exact List.mem_append_left _ (List.mem_reverse.mpr (List.mem_of_getElem? hb))
      have hasked : (blocks.map Prod.snd)[i]? = some b.2 := by
        rw [List.getElem?_map, hb, Option.map_some]
      rw [← hprefix, List.getElem?_append_left (List.getElem?_eq_some_iff.mp hasked).1, hasked,
        Option.some.injEq] at hsize
      refine ⟨b, hlive, Prod.ext ?_ hsize⟩
      rw [hgrants.answers, List.getD_eq_getElem?_getD, List.getElem?_map, hb, Option.map_some,
        Option.getD_some]

/-- The chunks of a task that has just been created. Without a current task the
    third call is for the child list, otherwise the fourth. -/
theorem created_isBlock {c : Chunks} {ramLocation : Addr} (hanswered : Answered h h' c)
    (hnode : c.queueNode ≠ NULL) (hnew : Created c ramLocation h.kernel h'.kernel v v')
    {r : Addr × Nat} (hr : r ∈ h'.kernel.regionsOf h.client.heap.debug c.queueNode) :
    IsBlock h'.client r := by
  have hstack : (newTcb c ramLocation h.kernel).stacksectionLowerBound = c.stack := rfl
  have hchild : (newTcb c ramLocation h.kernel).childTasks = c.childList := rfl
  simp only [Kernel.regionsOf, hnew.node, hnew.tcb, hstack, hchild, List.mem_cons,
    List.not_mem_nil, or_false] at hr
  have hgranted := hnew.granted
  rcases hanswered with ⟨answers, blocks, rfl, hgrants⟩
  have hgot := And.intro hgranted.stack (And.intro hgranted.tcb hgranted.childList)
  by_cases hcur : h.kernel.currentlyRunning = NULL
  · simp only [creationSizes, if_pos hcur] at hgrants
    simp only [chunksOf, if_pos hcur] at hr hnode hgot
    rcases hr with rfl | rfl | rfl | rfl
    · exact grants_isBlock hgrants 3 rfl hnode
    · exact grants_isBlock hgrants 1 rfl hgot.2.1
    · exact grants_isBlock hgrants 0 rfl hgot.1
    · exact grants_isBlock hgrants 2 rfl hgot.2.2
  · simp only [creationSizes, if_neg hcur] at hgrants
    simp only [chunksOf, if_neg hcur] at hr hnode hgot
    rcases hr with rfl | rfl | rfl | rfl
    · exact grants_isBlock hgrants 4 rfl hnode
    · exact grants_isBlock hgrants 1 rfl hgot.2.1
    · exact grants_isBlock hgrants 0 rfl hgot.1
    · exact grants_isBlock hgrants 3 rfl hgot.2.2

/-- Every event leaves the chunks of all tasks blocks of their sizes. -/
theorem sized_step (hg : Grounded h v) (hg' : Grounded h' v') (hretains : Retains h h')
    (hdebug : h'.client.heap.debug = h.client.heap.debug) (hout : HostedOutcome e h h' v v')
    (hsized : Sized h v) : Sized h' v' := by
  have hcons := hg.inv.consistent
  have hcons' := hg'.inv.consistent
  rw [Sized, hdebug]
  -- A task that was there keeps its chunks, so they stay what they are.
  have hold : ∀ n ∈ v.nodes, n ∈ v'.nodes →
      h'.kernel.regionsOf h.client.heap.debug n = h.kernel.regionsOf h.client.heap.debug n →
      ∀ r ∈ h'.kernel.regionsOf h.client.heap.debug n, IsBlock h'.client r :=
    fun n hn hn' hsame r hr =>
      isBlock_retained hcons hcons' hretains hn hn' hsame hr (hsized n hn r (hsame ▸ hr))
  have hlive : ∀ n ∈ v.nodes, h.kernel.dataOf n ∈ h.kernel.live := fun n hn =>
    (consistent_live_iff hcons _).mpr ⟨n, hn, rfl⟩
  cases hout with
  | own _ hkernel hv =>
      exact fun n hn => hold n (hv ▸ hn) hn (by rw [hkernel])
  | kernel e' _ _ hout hanswered =>
      cases hout with
      | moved hm _ _ =>
          exact fun n hn => hold n (hm.nodes.mem_iff.mp hn) hn (regionsOf_congr
            (congrFun hm.frame.data n) (hm.frame.tcb _).stack (hm.frame.tcb _).childTasks)
      | image a _ hs' hv =>
          exact fun n hn => hold n (hv ▸ hn) hn (by rw [hs', allocate_eq]; rfl)
      | notCreated c ramLocation _ hkeep hnot =>
          have hnodes : v'.nodes = v.nodes := by
            rw [View.nodes, View.nodes, hnot.running, hnot.waiting]
          refine fun n hn => ?_
          rw [hnodes] at hn
          have htcb := hkeep.tcb _ (hlive n hn)
          exact hold n hn (hnodes ▸ hn) (regionsOf_congr
            (hkeep.data n (consistent_node_occupied hcons hn)) (by rw [htcb]) (by rw [htcb]))
      | created c ramLocation he hkeep hnew =>
          intro n hn
          have hnode : n = c.queueNode ∨ n ∈ v.nodes := by
            rw [hnew.view] at hn
            exact List.mem_cons.mp ((insert_nodes_perm _ _ _ _).mem_iff.mp hn)
          rcases hnode with rfl | hbefore
          · exact fun r hr => created_isBlock (hanswered c ramLocation he)
              (consistent_node_ne_null hcons' hn) hnew hr
          · have htcb := hkeep.tcb _ (hlive n hbefore)
            exact hold n hbefore hn (regionsOf_congr
              (hkeep.data n (consistent_node_occupied hcons hbefore)) (by rw [htcb]) (by rw [htcb]))
      | reaped _ hr =>
          refine fun n hn => hold n ?_ hn (regionsOf_congr ?_ (by rw [hr.tcb]) (by rw [hr.tcb]))
          · rw [View.nodes, hr.waiting] at hn
            rcases List.mem_append.mp hn with hn | hn
            · exact List.mem_append_left _ (hr.running.subset hn)
            · exact List.mem_append_right _ hn
          · rw [Kernel.dataOf, hr.data]
            rfl

end Regions

/-- The chunks of all tasks, as blocks. -/
def Kernel.regions (s : Kernel) (debug : Bool) : List Block :=
  (s.queued.flatMap (s.regionsOf debug)).map fun r => (BitVec.ofNat 32 r.1, r.2)

instance : Std.Symm Apart where
  symm _ _ hapart i hi j hj heq := hapart j hj i hi heq.symm

theorem isBlock_mem {c : Client} {r : Addr × Nat} (hblock : IsBlock c r) :
    (BitVec.ofNat 32 r.1, r.2) ∈ c.live ∧ (BitVec.ofNat 32 r.1).toNat = r.1 := by
  rcases hblock with ⟨b, hb, rfl⟩
  rw [BitVec.ofNat_toNat, BitVec.setWidth_eq]
  exact ⟨hb, rfl⟩

/-- Live blocks at different addresses are apart when all live blocks are. -/
theorem blocks_pairwise {c : Client} (hsep : Separate c) {l : List Block}
    (hlive : ∀ b ∈ l, b ∈ c.live) (hnodup : (l.map fun b => b.1.toNat).Nodup) :
    l.Pairwise Apart := by
  refine (List.pairwise_map.mp hnodup).imp_of_mem fun {b d} hb hd hne => ?_
  refine hsep.1.forall (hlive b hb) (hlive d hd) fun heq => hne ?_
  rw [heq]

/-- Chunks in use are the addresses of live blocks. -/
theorem backed_blocks {c : Client} {l : List Addr}
    (hbacked : ∀ a ∈ l, ∃ b ∈ c.live, b.1.toNat = a) :
    ∃ blocks : List Block, blocks.map (fun b => b.1.toNat) = l ∧ ∀ b ∈ blocks, b ∈ c.live := by
  induction l with
  | nil => exact ⟨[], rfl, fun _ hc => absurd hc List.not_mem_nil⟩
  | cons a l ih =>
      rcases hbacked a List.mem_cons_self with ⟨b, hb, rfl⟩
      rcases ih fun a' ha' => hbacked a' (List.mem_cons_of_mem _ ha') with ⟨blocks, hmap, hlive⟩
      exact ⟨b :: blocks, by rw [List.map_cons, hmap], List.forall_mem_cons.mpr ⟨hb, hlive⟩⟩

/-- The four chunks of all tasks and the images are different chunks in use. -/
theorem regions_codeSections {s : Kernel} {v : View} (hcons : Consistent s v) (debug : Bool) :
    let addresses := (s.queued.flatMap (s.regionsOf debug)).map Prod.fst ++ s.codeSections
    addresses.Nodup ∧ ∀ a ∈ addresses, a ∈ s.occupied := by
  have hqueued : s.queued = v.nodes := by
    rw [Kernel.queued, represents_members hcons.running, represents_members hcons.waiting]
    rfl
  have howns : ((v.nodes.flatMap (s.regionsOf debug)).map Prod.fst ++
      v.nodes.flatMap s.codeOf).Perm (v.nodes.flatMap s.owns) := by
    rw [List.map_flatMap]
    exact List.flatMap_append_perm _ _ _
  have hperm : ((v.nodes.flatMap (s.regionsOf debug)).map Prod.fst ++ s.codeSections).Perm
      (s.images ++ v.nodes.flatMap s.owns) := by
    rw [Kernel.codeSections, hqueued]
    refine (List.perm_append_comm_assoc _ _ _).trans ?_
    exact howns.append_left _
  have hsub : (s.images ++ v.nodes.flatMap s.owns).Subperm s.occupied := by
    refine List.Subperm.trans (List.Sublist.subperm ?_) hcons.heap.symm.subperm
    rw [List.append_assoc]
    exact (List.sublist_append_right _ _).append_left _
  dsimp only
  rw [hqueued]
  refine ⟨hperm.nodup_iff.mpr ?_, fun a ha => hsub.subset (hperm.mem_iff.mp ha)⟩
  rcases hsub with ⟨l, hl, hsublist⟩
  exact hl.nodup_iff.mp (hcons.chunks.sublist hsublist)

/-- In every state of a hosted kernel the chunks of the tasks are live blocks of
    the sizes that `create_task` asks for, the images are live blocks too, no two of
    all these share a byte, and neither do they share one with any other block. -/
theorem tasks_apart {h₀ h : Hosted} {es : List HostedEvent} (hinit : HostedInitialized h₀)
    (hrun : run hostedStep es h₀ = some h) (hsmall : ∀ e ∈ es, SmallRequest e)
    (hbytes : h.client.heap.usedBytes < 65536) :
    ∃ images : List Block, images.map (fun b => b.1.toNat) = h.kernel.codeSections ∧
      let blocks := h.kernel.regions h.client.heap.debug ++ images
      (∀ b ∈ blocks, b ∈ h.client.live) ∧ blocks.Pairwise Apart ∧
        ∀ b ∈ blocks, ∀ d ∈ h.client.live, b ≠ d → Apart b d := by
  rcases hosted_start hinit hsmall hrun hbytes with ⟨_, hg₀⟩
  rcases hosted_induction (fun e _ g g' u u' hg hg' hretains hsmall hstep hout hsized =>
      sized_step hg hg' hretains (hosted_debug hstep hsmall) hout hsized) hg₀
    (fun n hn => absurd hn List.not_mem_nil) hsmall hrun hbytes with ⟨v, hg, hsized⟩
  have hcons := hg.inv.consistent
  have hqueued : h.kernel.queued = v.nodes := by
    rw [Kernel.queued, represents_members hcons.running, represents_members hcons.waiting]
    rfl
  rcases regions_codeSections hcons h.client.heap.debug with ⟨hnodup, hoccupied⟩
  rcases backed_blocks fun a ha => hg.backed a (hoccupied a (List.mem_append_right _ ha)) with
    ⟨images, himages, himagesLive⟩
  have hblock : ∀ r ∈ h.kernel.queued.flatMap (h.kernel.regionsOf h.client.heap.debug),
      IsBlock h.client r := by
    rw [hqueued]
    intro r hr
    rcases List.mem_flatMap.mp hr with ⟨n, hn, hr⟩
    exact hsized n hn r hr
  have haddresses : (h.kernel.regions h.client.heap.debug).map (fun b => b.1.toNat) =
      (h.kernel.queued.flatMap (h.kernel.regionsOf h.client.heap.debug)).map Prod.fst := by
    rw [Kernel.regions, List.map_map]
    exact List.map_congr_left fun r hr => (isBlock_mem (hblock r hr)).2
  have hlive : ∀ b ∈ h.kernel.regions h.client.heap.debug ++ images, b ∈ h.client.live := by
    refine List.forall_mem_append.mpr ⟨fun b hb => ?_, himagesLive⟩
    rcases List.mem_map.mp hb with ⟨r, hr, rfl⟩
    exact (isBlock_mem (hblock r hr)).1
  rcases hg.covered with ⟨k, hk⟩
  have hsep := covered_separate hk
  refine ⟨images, himages, hlive, blocks_pairwise hsep hlive ?_,
    fun b hb d hd hne => hsep.1.forall (hlive b hb) hd hne⟩
  rw [List.map_append, haddresses, himages]
  exact hnodup

/-- The tasks of a round before the second one is reaped, with an image that the idle task
    has loaded. -/
def roundWithImage : List HostedEvent :=
  (hostedRound.take 2) ++ .allocateImage 7#32 100 :: (hostedRound.drop 2).take 1

theorem tasks_apart_round : Ends hostedStep roundWithImage freshHosted fun h =>
    h.kernel.queued.length = 2 ∧ ∃ images : List Block, images.length = 1 ∧
      (∀ b ∈ h.kernel.regions false ++ images, b ∈ h.client.live) ∧
      (h.kernel.regions false ++ images).Pairwise Apart := by
  have hends : Ends hostedStep roundWithImage freshHosted fun h =>
      h.client.heap.usedBytes < 65536 ∧ h.client.heap.debug = false ∧
        h.kernel.queued.length = 2 ∧ h.kernel.codeSections.length = 1 := by decide +kernel
  rcases hends with ⟨h, hrun, hbytes, hdebug, hlen, hcount⟩
  have hsmall : ∀ e ∈ roundWithImage, SmallRequest e := by
    simp only [roundWithImage, hostedRound, List.take, List.drop, List.cons_append,
      List.nil_append, List.forall_mem_cons, SmallRequest, true_and, Nat.reduceLeDiff]
    exact fun _ hc => absurd hc List.not_mem_nil
  rcases tasks_apart freshHosted_initialized hrun hsmall hbytes with
    ⟨images, himages, hlive, hapart, _⟩
  rw [hdebug] at hlive hapart
  refine ⟨h, hrun, hlen, images, ?_, hlive, hapart⟩
  rw [← hcount, ← himages, List.length_map]

end NextLevelRTOS
