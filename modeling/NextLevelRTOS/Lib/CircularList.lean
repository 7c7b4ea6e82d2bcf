import Mathlib.Data.List.Nodup
import Mathlib.Data.List.Rotate
import Mathlib.Logic.Function.Basic

/-!
# Circular Doubly Linked Lists

The links of a circular doubly linked list, given by two functions: where a
node points forward and where it points back. Nothing here knows what a node
carries or how the links are stored; a program supplies the two functions and
gets back what its pointer surgery did to the list of members.

`Path` is the open form, a path whose neighbours point at each other.
`Ring` closes it: the last member links to the first. A ring has no
distinguished first member, which `ring_rotate` and `ring_append_comm` state,
and which is what every edit below uses. To remove a member, rotate it to the
front; to see what a walk from a member meets, rotate that member to the
front.

`ring_unlink` and `ring_link` are the two edits. Each is stated for the exact
updates a program makes, two pointer writes to remove and four to append, so
an implementation only has to show that its writes are those.

`walk` follows the forward links a given number of times. On a ring it meets
every member once, which turns a counted pointer loop into a list function.

## Main definitions

* `Path`: Neighbours of a path point at each other.
* `Ring`: The last member of a path also links to the first.
* `walk`: The nodes met by following forward links.

## Theorems

* `path_append`: A path splits at any node.
* `path_congr`: A path reads no forward link of its last node and no back
  link of its first.
* `ring_append_comm`: A ring may be cut anywhere.
* `ring_next_mem`, `ring_prev_mem`: Neighbours of members are members.
* `ring_ends`: The first and the last member are neighbours.
* `head_bypass`, `last_bypass`: The ends once a member is bypassed.
* `ring_unlink`: Bypassing a member leaves a ring of the others.
* `ring_link`: Splicing a node in behind the last member extends the ring.
* `ring_rotated`, `erase_rotated`: A ring read from another member.
* `walk_ring`: A full walk from a member meets the ring from there on.
* `ring_walk`: A walk that comes back to its start is a ring.
-/

namespace CircularList

universe u

variable {α : Type u}

/-- Neighbours point at each other. -/
def Path (next prev : α → α) : List α → Prop
  | [] => True
  | [_] => True
  | x :: y :: l => next x = y ∧ prev y = x ∧ Path next prev (y :: l)

/-- A closed path: the last member links to the first. -/
def Ring (next prev : α → α) : List α → Prop
  | [] => True
  | x :: l => Path next prev (x :: l ++ [x])

/-- The nodes met by following the forward link `n` times from `x`. -/
def walk (next : α → α) : Nat → α → List α
  | 0, _ => []
  | n + 1, x => x :: walk next n (next x)

section Paths

variable {next prev next' prev' : α → α}

theorem path_cons_cons {x y : α} {l : List α} :
    Path next prev (x :: y :: l) ↔ next x = y ∧ prev y = x ∧ Path next prev (y :: l) :=
  Iff.rfl

/-- A path splits at any node, which belongs to both halves. -/
theorem path_append (l : List α) (x : α) (m : List α) :
    Path next prev (l ++ x :: m) ↔ Path next prev (l ++ [x]) ∧ Path next prev (x :: m) := by
  induction l with
  | nil => exact (iff_and_self.mpr fun _ => trivial)
  | cons a l ih =>
      cases l with
      | nil =>
          simp only [List.cons_append, List.nil_append, path_cons_cons]
          constructor
          · rintro ⟨h1, h2, h3⟩
            exact ⟨⟨h1, h2, trivial⟩, h3⟩
          · rintro ⟨⟨h1, h2, _⟩, h3⟩
            exact ⟨h1, h2, h3⟩
      | cons b l =>
          simp only [List.cons_append, path_cons_cons] at ih ⊢
          rw [ih]
          simp only [and_assoc]

/-- The forward link of the last node and the back link of the first are not
    part of a path, so they may change freely. -/
theorem path_congr {l : List α} (h : Path next prev l)
    (hnext : ∀ a ∈ l.dropLast, next' a = next a) (hprev : ∀ a ∈ l.tail, prev' a = prev a) :
    Path next' prev' l := by
  induction l with
  | nil => trivial
  | cons x l ih =>
      cases l with
      | nil => trivial
      | cons y l =>
          rcases h with ⟨h1, h2, h3⟩
          simp only [List.dropLast_cons_cons, List.tail_cons, List.mem_cons, forall_eq_or_imp]
            at hnext hprev
          refine ⟨by rw [hnext.1, h1], by rw [hprev.1, h2], ih h3 hnext.2 ?_⟩
          exact fun a ha => hprev.2 a ha

/-- Agreement on every member is more than enough. -/
theorem ring_congr {l : List α} (h : Ring next prev l)
    (hnext : ∀ a ∈ l, next' a = next a) (hprev : ∀ a ∈ l, prev' a = prev a) :
    Ring next' prev' l := by
  cases l with
  | nil => trivial
  | cons x l =>
      refine path_congr h (fun a ha => hnext a ?_) (fun a ha => hprev a ?_)
      · rwa [List.dropLast_concat] at ha
      · simp only [List.cons_append, List.tail_cons, List.mem_append, List.mem_singleton] at ha
        rcases ha with ha | ha
        · exact List.mem_cons_of_mem _ ha
        · rw [ha]
          exact List.mem_cons_self

theorem ring_rotate (x : α) (l : List α) :
    Ring next prev (x :: l) ↔ Ring next prev (l ++ [x]) := by
  cases l with
  | nil => exact Iff.rfl
  | cons y m =>
      have hsplit : y :: m ++ [x] ++ [y] = (y :: m) ++ x :: [y] := by
        rw [List.append_assoc, List.singleton_append]
      -- Both sides hold the same edges; the one from `x` to `y` changes its place.
      change Path next prev (x :: y :: (m ++ [x])) ↔ Path next prev (y :: m ++ [x] ++ [y])
      rw [hsplit, path_append]
      simp only [path_cons_cons, List.cons_append]
      constructor
      · rintro ⟨h1, h2, h3⟩
        exact ⟨h3, h1, h2, trivial⟩
      · rintro ⟨h3, h1, h2, _⟩
        exact ⟨h1, h2, h3⟩

/-- A ring may be cut anywhere. -/
theorem ring_append_comm (l m : List α) :
    Ring next prev (l ++ m) ↔ Ring next prev (m ++ l) := by
  -- One member at a time is rotated from the front of `l` to the end of `m`.
  induction l generalizing m with
  | nil => rw [List.nil_append, List.append_nil]
  | cons x l ih =>
      rw [List.cons_append, ring_rotate, List.append_assoc, ih, List.append_assoc,
        List.singleton_append]

/-- The links a ring gives at its first member, and the path left over. -/
theorem ring_cons_append {x y : α} {m : List α} :
    Ring next prev (x :: m ++ [y]) ↔
      Path next prev (x :: m ++ [y]) ∧ next y = x ∧ prev x = y := by
  have hsplit : x :: (m ++ [y]) ++ [x] = (x :: m) ++ y :: [x] := by
    rw [List.cons_append, List.cons_append, List.append_assoc, List.singleton_append]
  change Path next prev (x :: (m ++ [y]) ++ [x]) ↔ _
  rw [hsplit, path_append]
  simp only [path_cons_cons]
  constructor
  · rintro ⟨h1, h2, h3, _⟩
    exact ⟨h1, h2, h3⟩
  · rintro ⟨h1, h2, h3⟩
    exact ⟨h1, h2, h3, trivial⟩

end Paths

section Members

variable {next prev : α → α}

/-- What a ring says about one member `x` and the others `m`, in order from
    `x` on: forward lies the first of `m`, back lies the last. -/
theorem ring_neighbours {x : α} {m : List α} (h : Ring next prev (x :: m)) :
    next x = m.headD x ∧ prev x = m.getLastD x := by
  rcases List.eq_nil_or_concat m with rfl | ⟨i, z, rfl⟩
  · exact ⟨h.1, h.2.1⟩
  · rw [List.concat_eq_append] at h ⊢
    have hback := (ring_cons_append.mp h).2.2
    refine ⟨?_, by rw [hback, List.getLastD_concat]⟩
    cases i with
    | nil => exact h.1
    | cons a i => exact h.1

/-- Each member can be brought to the front. -/
theorem ring_at {l : List α} (h : Ring next prev l) {x : α} (hx : x ∈ l) :
    ∃ a b, l = a ++ x :: b ∧ Ring next prev (x :: (b ++ a)) := by
  rcases List.append_of_mem hx with ⟨a, b, rfl⟩
  exact ⟨a, b, rfl, (ring_append_comm a (x :: b)).mp h⟩

theorem ring_next_mem {l : List α} (h : Ring next prev l) {x : α} (hx : x ∈ l) :
    next x ∈ l := by
  rcases ring_at h hx with ⟨a, b, rfl, hr⟩
  rw [(ring_neighbours hr).1]
  cases hm : b ++ a with
  | nil => exact hx
  | cons y m =>
      have hy : y ∈ b ++ a := by rw [hm]; exact List.mem_cons_self
      simp only [List.mem_append] at hy
      simp only [List.headD_cons, List.mem_append, List.mem_cons]
      tauto

theorem ring_prev_mem {l : List α} (h : Ring next prev l) {x : α} (hx : x ∈ l) :
    prev x ∈ l := by
  rcases ring_at h hx with ⟨a, b, rfl, hr⟩
  rw [(ring_neighbours hr).2]
  rcases List.eq_nil_or_concat (b ++ a) with hm | ⟨i, z, hm⟩
  · rw [hm]
    exact hx
  · rw [List.concat_eq_append] at hm
    have hz : z ∈ b ++ a := by rw [hm]; simp only [List.mem_append, List.mem_singleton, or_true]
    rw [hm, List.getLastD_concat]
    simp only [List.mem_append, List.mem_cons] at hz ⊢
    tauto

/-- A member with other members is not its own neighbour, and its
    neighbours are among the others. -/
theorem ring_neighbours_mem {x : α} {m : List α} (h : Ring next prev (x :: m)) (hm : m ≠ []) :
    next x ∈ m ∧ prev x ∈ m := by
  rcases ring_neighbours h with ⟨hnext, hprev⟩
  rw [hnext, hprev, List.headD_eq_head?_getD, List.getLastD_eq_getLast?,
    List.head?_eq_some_head hm, List.getLast?_eq_some_getLast hm]
  exact ⟨List.head_mem hm, List.getLast_mem hm⟩

/-- The first and the last member are neighbours across the gap. -/
theorem ring_ends {l : List α} (h : Ring next prev l) (hl : l ≠ []) :
    prev (l.head hl) = l.getLast hl ∧ next (l.getLast hl) = l.head hl := by
  rcases List.eq_nil_or_concat l with rfl | ⟨i, z, rfl⟩
  · exact absurd rfl hl
  simp only [List.concat_eq_append] at h hl ⊢
  rw [List.getLast_append_singleton]
  cases i with
  | nil => exact ⟨h.2.1, h.1⟩
  | cons y i =>
      rcases ring_cons_append.mp h with ⟨_, hnext, hprev⟩
      exact ⟨hprev, hnext⟩

end Members

section Rotations

variable {next prev : α → α}

/-- A list read from one of its members on. -/
theorem rotated_split {l m : List α} {x : α} (h : l.IsRotated (x :: m)) :
    ∃ a b, l = a ++ x :: b ∧ m = b ++ a := by
  rcases List.isRotated_iff_mod.mp h with ⟨n, hn, hrotate⟩
  rw [List.rotate_eq_drop_append_take hn] at hrotate
  cases hdrop : l.drop n with
  | nil =>
      rw [hdrop, List.nil_append, List.take_of_length_le (List.drop_eq_nil_iff.mp hdrop)] at hrotate
      exact ⟨[], m, hrotate, (List.append_nil m).symm⟩
  | cons y b =>
      rw [hdrop, List.cons_append, List.cons.injEq] at hrotate
      refine ⟨l.take n, b, ?_, hrotate.2.symm⟩
      rw [← hrotate.1, ← hdrop, List.take_append_drop]

theorem ring_rotated {l m : List α} (h : Ring next prev l) (hrotated : l.IsRotated m) :
    Ring next prev m := by
  rcases List.isRotated_iff_mod.mp hrotated with ⟨n, hn, rfl⟩
  rw [List.rotate_eq_drop_append_take hn, ring_append_comm, List.take_append_drop]
  exact h

/-- Without the member, it is read from the one behind it. -/
theorem erase_rotated [DecidableEq α] {l m : List α} {x : α} (hnd : l.Nodup)
    (h : l.IsRotated (x :: m)) : (l.erase x).IsRotated m := by
  rcases rotated_split h with ⟨a, b, rfl, rfl⟩
  have hxa : x ∉ a := fun ha => List.disjoint_of_nodup_append hnd ha List.mem_cons_self
  rw [List.erase_append_right _ hxa, List.erase_cons_head]
  exact List.isRotated_append

end Rotations

section Ends

variable [DecidableEq α]

/-- Who comes first once `x` is gone: the one after it if `x` came first. -/
theorem head_bypass {x : α} {a b : List α} (hx : x ∉ a) (hne : b ++ a ≠ []) (d : α) :
    (a ++ b).head?.getD d = if x = (a ++ x :: b).head?.getD d then (b ++ a).headD x
      else (a ++ x :: b).head?.getD d := by
  cases a with
  | nil =>
      cases b with
      | nil => exact absurd rfl hne
      | cons y b => exact (if_pos rfl).symm
  | cons y a => exact (if_neg (fun hc : x = y => hx (by rw [hc]; exact List.mem_cons_self))).symm

/-- Who comes last once `x` is gone: the one before it if `x` came last. -/
theorem last_bypass {x : α} {a b : List α} (hx : x ∉ b) (hne : b ++ a ≠ []) (d : α) :
    (a ++ b).getLast?.getD d = if x = (a ++ x :: b).getLast?.getD d then (b ++ a).getLastD x
      else (a ++ x :: b).getLast?.getD d := by
  rcases List.eq_nil_or_concat b with rfl | ⟨i, z, rfl⟩
  · rw [List.nil_append] at hne
    rw [List.getLast?_concat, Option.getD_some, if_pos rfl, List.append_nil, List.nil_append,
      List.getLastD_eq_getLast?, List.getLast?_eq_some_getLast hne]
    rfl
  · rw [List.concat_eq_append] at hx ⊢
    have hxz : x ≠ z := fun hc => hx (by rw [hc]; exact List.mem_append_right _ List.mem_cons_self)
    rw [← List.cons_append, ← List.append_assoc, ← List.append_assoc, List.getLast?_concat,
      List.getLast?_concat, Option.getD_some, if_neg hxz]

end Ends

section Edits

variable [DecidableEq α] {next prev : α → α}

/-- Bypassing a member: its two neighbours are made to point at each other.
    The links among the others are not touched, because the forward link that
    changes belongs to the last of them and the back link to the first. -/
theorem ring_unlink {x : α} {m : List α} (h : Ring next prev (x :: m))
    (hnd : m.Nodup) (hm : m ≠ []) :
    Ring (Function.update next (prev x) (next x)) (Function.update prev (next x) (prev x)) m := by
  rcases List.eq_nil_or_concat m with rfl | ⟨i, z, rfl⟩
  · exact absurd rfl hm
  rw [List.concat_eq_append] at h hnd ⊢
  rcases ring_cons_append.mp h with ⟨hpath, hzx, hxz⟩
  cases i with
  -- A single other member is both neighbours at once and ends up linked to itself.
  | nil =>
      have hx : next x = z := hpath.1
      refine ⟨?_, ?_, trivial⟩
      · rw [hxz, hx, Function.update_self]
      · rw [hxz, hx, Function.update_self]
  | cons y i =>
      rcases hpath with ⟨hxy, hyx, hrest⟩
      rw [hxz, hxy, ring_cons_append]
      have hlast : z ∉ y :: i :=
        fun hc => List.disjoint_of_nodup_append hnd hc (List.mem_singleton.mpr rfl)
      have hfirst : y ∉ i ++ [z] := (List.nodup_cons.mp hnd).1
      -- The forward link that changes is the last one, the back link the first.
      refine ⟨path_congr hrest (fun a ha => ?_) (fun a ha => ?_), ?_, ?_⟩
      · rw [List.dropLast_concat] at ha
        exact Function.update_of_ne (ne_of_mem_of_not_mem ha hlast) _ _
      · exact Function.update_of_ne (ne_of_mem_of_not_mem ha hfirst) _ _
      · exact Function.update_self ..
      · exact Function.update_self ..

/-- Splicing a new node in behind the last member: the node points back at
    the last member and forward at the first, and both point at the node. -/
theorem ring_link {x h t : α} {l : List α} (hr : Ring next prev l) (hnd : l.Nodup)
    (hx : x ∉ l) (hh : l.head? = some h) (ht : l.getLast? = some t) :
    Ring (Function.update (Function.update next x h) t x)
      (Function.update (Function.update prev x t) h x) (l ++ [x]) := by
  rcases List.eq_nil_or_concat l with rfl | ⟨i, z, rfl⟩
  · simp only [List.head?_nil, reduceCtorEq] at hh
  rw [List.concat_eq_append] at hr hnd hx hh ht ⊢
  rw [List.getLast?_append, List.getLast?_singleton, Option.some_or, Option.some.injEq] at ht
  subst ht
  have hxz : x ≠ z := fun hc => hx (by rw [hc]; exact List.mem_append_right _ List.mem_cons_self)
  cases i with
  -- On a ring of one, `h` and `t` are the same node and each gets two writes.
  | nil =>
      simp only [List.nil_append, List.head?_cons, Option.some.injEq] at hh
      subst hh
      refine ⟨?_, ?_, ?_, ?_, trivial⟩
      · exact Function.update_self ..
      · rw [Function.update_of_ne hxz, Function.update_self]
      · rw [Function.update_of_ne hxz, Function.update_self]
      · exact Function.update_self ..
  | cons y i =>
      simp only [List.cons_append, List.head?_cons, Option.some.injEq] at hh
      subst hh
      have hxy : x ≠ y := fun hc => hx (by rw [hc]; exact List.mem_cons_self)
      rcases ring_cons_append.mp hr with ⟨hpath, _, _⟩
      have hlast : z ∉ y :: i :=
        fun hc => List.disjoint_of_nodup_append hnd hc (List.mem_singleton.mpr rfl)
      have hfirst : y ∉ i ++ [z] := (List.nodup_cons.mp hnd).1
      have hsplit : y :: i ++ [z] ++ [x] = (y :: i) ++ z :: [x] := by
        rw [List.append_assoc, List.singleton_append]
      have hassoc : y :: i ++ [z] ++ [x] = y :: (i ++ [z]) ++ [x] := rfl
      -- The old path, one more edge from `z` to `x`, and the closing edge.
      rw [hassoc, ring_cons_append, ← hassoc, hsplit, path_append]
      refine ⟨⟨path_congr hpath (fun a ha => ?_) (fun a ha => ?_), ?_, ?_, trivial⟩, ?_, ?_⟩
      · rw [List.dropLast_concat] at ha
        rw [Function.update_of_ne (ne_of_mem_of_not_mem ha hlast),
          Function.update_of_ne (ne_of_mem_of_not_mem (List.mem_append_left _ ha) hx)]
      · rw [List.cons_append, List.tail_cons] at ha
        rw [Function.update_of_ne (ne_of_mem_of_not_mem ha hfirst),
          Function.update_of_ne (ne_of_mem_of_not_mem (List.mem_cons_of_mem _ ha) hx)]
      · exact Function.update_self ..
      · rw [Function.update_of_ne hxy, Function.update_self]
      · rw [Function.update_of_ne hxz, Function.update_self]
      · exact Function.update_self ..

end Edits

section Walks

variable {next prev : α → α}

-- What lies behind the walked part, `m`, is never looked at.
theorem walk_path {x : α} {l m : List α} (h : Path next prev (x :: l ++ m)) :
    walk next (l.length + 1) x = x :: l := by
  induction l generalizing x with
  | nil => rfl
  | cons y l ih =>
      rcases h with ⟨hxy, _, hrest⟩
      rw [List.length_cons, walk, hxy, ih hrest]

/-- Walking as many steps as the ring has members, starting at a member,
    meets them all in order from there on. -/
theorem walk_ring {x : α} {m : List α} (h : Ring next prev (x :: m)) :
    walk next (m.length + 1) x = x :: m :=
  walk_path h

/-- Starting one link further the walk ends at the member itself. -/
theorem walk_next_ring {x : α} {m : List α} (h : Ring next prev (x :: m)) :
    walk next (m.length + 1) (next x) = m ++ [x] := by
  have hrot := (ring_rotate x m).mp h
  rw [(ring_neighbours h).1]
  cases m with
  | nil => rfl
  | cons y m =>
      have hlen : (m ++ [x]).length + 1 = (y :: m).length + 1 := by
        rw [List.length_append, List.length_singleton, List.length_cons]
      rw [← hlen]
      exact walk_ring hrot

theorem length_walk (next : α → α) (n : Nat) : ∀ x, (walk next n x).length = n := by
  induction n with
  | zero => exact fun _ => rfl
  | succ n ih => exact fun x => by rw [walk, List.length_cons, ih]

/-- A walk whose nodes are pointed back at from where they point is a path to the
    node after the last. -/
theorem path_walk (n : Nat) : ∀ x, (∀ a ∈ walk next n x, prev (next a) = a) →
    Path next prev (walk next n x ++ [next^[n] x]) := by
  induction n with
  | zero => exact fun _ _ => trivial
  | succ n ih =>
      intro x hback
      have hrest := ih (next x) fun a ha => hback a (List.mem_cons_of_mem _ ha)
      have hx : prev (next x) = x := hback x List.mem_cons_self
      rw [walk, Function.iterate_succ_apply]
      cases n with
      | zero => exact ⟨rfl, hx, trivial⟩
      | succ n => exact ⟨rfl, hx, hrest⟩

/-- A walk that is pointed back along and comes back to where it started is a ring. -/
theorem ring_walk {n : Nat} {x : α} (hback : ∀ a ∈ walk next n x, prev (next a) = a)
    (hcloses : next^[n] x = x) : Ring next prev (walk next n x) := by
  cases n with
  | zero => trivial
  | succ n =>
      have hpath := path_walk (n + 1) x hback
      rw [hcloses] at hpath
      exact hpath

theorem iterate_path {x y : α} {l : List α} (h : Path next prev (x :: l ++ [y])) :
    next^[l.length + 1] x = y := by
  induction l generalizing x with
  | nil => exact h.1
  | cons z l ih =>
      rcases h with ⟨hxz, _, hrest⟩
      rw [List.length_cons, Function.iterate_succ_apply, hxz]
      exact ih hrest

/-- The back link of where a member points is the member. -/
theorem ring_prev_next {l : List α} (h : Ring next prev l) {x : α} (hx : x ∈ l) :
    prev (next x) = x := by
  rcases ring_at h hx with ⟨a, b, rfl, hring⟩
  cases hm : b ++ a with
  | nil =>
      rw [hm] at hring
      rw [hring.1, hring.2.1]
  | cons y m =>
      rw [hm] at hring
      rw [hring.1, hring.2.1]

end Walks

end CircularList
