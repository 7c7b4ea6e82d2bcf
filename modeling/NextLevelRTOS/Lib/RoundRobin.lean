import Mathlib.Data.List.Nodup
import Mathlib.Data.List.TakeWhile
import Mathlib.Data.List.Infix

/-!
# Round Robin

Taking turns in a ring with a pointer. `turns p l` is the order in which the
members of the ring `l` are tried from the pointer `p` on: those behind `p`,
those in front of it, and `p` itself last. `ahead b l` are the members tried
before `b` in such an order.

Who is ahead of `b` can change in three ways only. Choosing somebody puts
those passed over, and the chosen one, behind `b`. Taking members out shortens
the order. A new member goes to the end of the ring, which is in the middle of
the order: it gets ahead of `b` exactly if `b` is not between the pointer and
the end.

## Main definitions

* `turns`: The order in which members are tried.
* `ahead`: Who is tried before a member.

## Theorems

* `turns_rotation`: The order is the rotation that ends with the pointer.
* `ahead_append`: Members behind `b` do not matter.
* `find?_ahead`: The first member to pass a test is ahead of those that pass.
* `ahead_choose`: Choosing somebody ahead puts nobody else ahead.
* `turns_erase`: Taking the pointer out puts nobody ahead.
* `ahead_sublist`, `turns_sublist`: Taking others out puts nobody ahead.
* `ahead_join`: Who gets ahead by joining the ring.
-/

namespace RoundRobin

universe u

variable {α : Type u} [DecidableEq α]

/-- The members of `l` in the order they are tried from `p` on. -/
def turns (p : α) (l : List α) : List α :=
  (l.dropWhile (· ≠ p)).tail ++ l.takeWhile (· ≠ p) ++ [p]

/-- The members tried before `b`. -/
def ahead (b : α) (l : List α) : List α := l.takeWhile (· ≠ b)

theorem takeWhile_cut {p : α} {x : List α} (hp : p ∉ x) (y : List α) :
    (x ++ p :: y).takeWhile (· ≠ p) = x := by
  have hx : ∀ a ∈ x, decide (a ≠ p) = true := fun a ha => decide_eq_true fun hc => hp (hc ▸ ha)
  rw [List.takeWhile_append_of_pos hx,
    List.takeWhile_cons_of_neg (by simp only [ne_eq, not_true_eq_false, decide_false,
      Bool.false_eq_true, not_false_eq_true]), List.append_nil]

theorem dropWhile_cut {p : α} {x : List α} (hp : p ∉ x) (y : List α) :
    (x ++ p :: y).dropWhile (· ≠ p) = p :: y := by
  have hx : ∀ a ∈ x, decide (a ≠ p) = true := fun a ha => decide_eq_true fun hc => hp (hc ▸ ha)
  rw [List.dropWhile_append_of_pos hx,
    List.dropWhile_cons_of_neg (by simp only [ne_eq, not_true_eq_false, decide_false,
      Bool.false_eq_true, not_false_eq_true])]

theorem turns_cut {p : α} {x : List α} (hp : p ∉ x) (y : List α) :
    turns p (x ++ p :: y) = y ++ x ++ [p] := by
  unfold turns
  rw [takeWhile_cut hp, dropWhile_cut hp, List.tail_cons]

/-- The order does not depend on where the ring is cut open. -/
theorem turns_comm {n : α} {x y : List α} (hnodup : (x ++ y).Nodup) (hn : n ∈ x ++ y) :
    turns n (x ++ y) = turns n (y ++ x) := by
  have hleft : ∀ {x y : List α}, (x ++ y).Nodup → n ∈ x → turns n (x ++ y) = turns n (y ++ x) := by
    intro x y hnd hmem
    rcases List.append_of_mem hmem with ⟨x₁, x₂, rfl⟩
    have hx₁ : n ∉ x₁ := by
      rw [List.append_assoc] at hnd
      exact fun hc => (List.nodup_append.mp hnd).2.2 n hc n List.mem_cons_self rfl
    have hy : n ∉ y := fun hc => (List.nodup_append.mp hnd).2.2 n hmem n hc rfl
    have hyx : n ∉ y ++ x₁ := fun hc => (List.mem_append.mp hc).elim hy hx₁
    rw [List.append_assoc, List.cons_append, turns_cut hx₁, ← List.append_assoc y, turns_cut hyx]
    simp only [List.append_assoc]
  rcases List.mem_append.mp hn with hx | hy
  · exact hleft hnodup hx
  · exact (hleft (List.nodup_append_comm.mp hnodup) hy).symm

/-- The order is the one rotation of the ring that ends with the pointer. -/
theorem turns_rotation {p : α} {x y r : List α} (hnodup : (x ++ y).Nodup)
    (h : y ++ x = r ++ [p]) : turns p (x ++ y) = y ++ x := by
  have hnd : (r ++ [p]).Nodup := h ▸ List.nodup_append_comm.mp hnodup
  have hp : p ∉ r := fun hc =>
    (List.nodup_append.mp hnd).2.2 p hc p (List.mem_singleton_self p) rfl
  have hmem : p ∈ x ++ y := by
    have hin : p ∈ y ++ x := h ▸ List.mem_append_right _ (List.mem_singleton_self p)
    exact List.mem_append.mpr (List.mem_append.mp hin).symm
  rw [turns_comm hnodup hmem, h, turns_cut hp]
  rfl

theorem turns_perm {p : α} {l : List α} (hp : p ∈ l) (hnodup : l.Nodup) :
    (turns p l).Perm l := by
  rcases List.append_of_mem hp with ⟨x, y, rfl⟩
  have hx : p ∉ x := fun hc =>
    (List.nodup_append.mp hnodup).2.2 p hc p List.mem_cons_self rfl
  rw [turns_cut hx, List.append_assoc]
  refine List.perm_append_comm.trans ?_
  rw [List.append_assoc, List.singleton_append]

section Ahead

variable {a b : α} {l m : List α}

theorem not_mem_ahead (b : α) (l : List α) : b ∉ ahead b l := by
  intro hc
  have htest := List.mem_takeWhile_imp (show b ∈ l.takeWhile (· ≠ b) from hc)
  exact of_decide_eq_true htest rfl

/-- Members tried after `b` do not matter. -/
theorem ahead_append (hb : b ∈ l) (m : List α) : ahead b (l ++ m) = ahead b l := by
  rcases List.append_of_mem hb with ⟨x, y, rfl⟩
  unfold ahead
  rw [List.append_assoc]
  induction x with
  | nil =>
      rw [List.nil_append, List.nil_append, List.cons_append]
      simp only [ne_eq, List.takeWhile_cons, not_true_eq_false, decide_false, Bool.false_eq_true,
        if_false]
  | cons c x ih =>
      have hih := ih (List.mem_append_right _ List.mem_cons_self)
      simp only [List.cons_append, List.takeWhile_cons] at hih ⊢
      rw [hih]

/-- Without `b` everybody is ahead of it. -/
theorem ahead_append_of_not_mem (hb : b ∉ l) (m : List α) :
    ahead b (l ++ m) = l ++ ahead b m :=
  List.takeWhile_append_of_pos fun _ hc => decide_eq_true fun hcb => hb (hcb ▸ hc)

/-- Taking members out puts nobody ahead of `b`. -/
theorem ahead_sublist (h : List.Sublist l m) (hnodup : m.Nodup) (hb : b ∈ l)
    (ha : a ∈ ahead b l) : a ∈ ahead b m := by
  induction h with
  | slnil => exact absurd hb List.not_mem_nil
  | @cons l m c hsub ih =>
      rcases List.nodup_cons.mp hnodup with ⟨hc, hrest⟩
      have hne : c ≠ b := fun hcb => hc (hcb ▸ hsub.subset hb)
      unfold ahead
      rw [List.takeWhile_cons, if_pos (decide_eq_true hne)]
      exact List.mem_cons_of_mem _ (ih hrest hb ha)
  | cons_cons c hsub ih =>
      rcases List.nodup_cons.mp hnodup with ⟨_, hrest⟩
      unfold ahead at ha ⊢
      by_cases hne : c ≠ b
      · rw [List.takeWhile_cons, if_pos (decide_eq_true hne)] at ha ⊢
        rcases List.mem_cons.mp ha with ha | ha
        · rw [ha]
          exact List.mem_cons_self
        · have hbl := (List.mem_cons.mp hb).resolve_left fun hc => hne hc.symm
          exact List.mem_cons_of_mem _ (ih hrest hbl ha)
      · rw [List.takeWhile_cons, if_neg fun hc => hne (of_decide_eq_true hc)] at ha
        exact absurd ha List.not_mem_nil

/-- The first member to pass a test is ahead of every other that passes. -/
theorem find?_ahead {test : α → Bool} {n : α} (hfind : l.find? test = some n) (hb : b ∈ l)
    (htest : test b = true) (hne : n ≠ b) : n ∈ ahead b l := by
  rcases List.find?_eq_some_iff_append.mp hfind with ⟨_, x, y, rfl, hx⟩
  have hbx : b ∉ x := by
    intro hc
    have hnot := hx b hc
    rw [htest] at hnot
    exact absurd hnot (by decide)
  rw [ahead_append_of_not_mem hbx]
  refine List.mem_append_right _ ?_
  unfold ahead
  rw [List.takeWhile_cons, if_pos (decide_eq_true hne)]
  exact List.mem_cons_self

/-- Somebody ahead of `b` is chosen and becomes the pointer: who is ahead of
    `b` afterwards was so before. -/
theorem ahead_rotate {n : α} {x y : List α} (hnodup : (x ++ n :: y).Nodup)
    (hb : b ∈ x ++ n :: y) (hn : n ∈ ahead b (x ++ n :: y)) :
    b ∈ y ∧ ∀ c ∈ ahead b (y ++ (x ++ [n])), c ∈ ahead b (x ++ n :: y) := by
  -- Since `n` is ahead of `b`, the latter has its place behind the cut.
  have hne : n ≠ b := fun hc => not_mem_ahead b _ (hc ▸ hn)
  have hbx : b ∉ x := by
    intro hc
    rw [ahead_append hc] at hn
    have hnx := (List.takeWhile_sublist _).subset hn
    exact (List.nodup_append.mp hnodup).2.2 n hnx n List.mem_cons_self rfl
  have hby : b ∈ y :=
    (List.mem_cons.mp ((List.mem_append.mp hb).resolve_left hbx)).resolve_left fun hc => hne hc.symm
  refine ⟨hby, fun c hc => ?_⟩
  rw [ahead_append hby] at hc
  rw [ahead_append_of_not_mem hbx]
  refine List.mem_append_right _ ?_
  unfold ahead at hc ⊢
  rw [List.takeWhile_cons, if_pos (decide_eq_true hne)]
  exact List.mem_cons_of_mem _ hc

end Ahead

section Edits

variable {a b n p : α} {l m : List α}

theorem mem_turns (hp : p ∈ l) (hnodup : l.Nodup) : a ∈ turns p l ↔ a ∈ l :=
  (turns_perm hp hnodup).mem_iff

theorem turns_nodup (hp : p ∈ l) (hnodup : l.Nodup) : (turns p l).Nodup :=
  (turns_perm hp hnodup).nodup_iff.mpr hnodup

/-- The pointer moves to somebody ahead of `b`: nobody gets ahead. -/
theorem ahead_choose (hp : p ∈ l) (hnodup : l.Nodup) (hb : b ∈ l)
    (hn : n ∈ ahead b (turns p l)) (ha : a ∈ ahead b (turns n l)) : a ∈ ahead b (turns p l) := by
  rcases List.append_of_mem hp with ⟨x, y, rfl⟩
  have hx : p ∉ x := fun hc =>
    (List.nodup_append.mp hnodup).2.2 p hc p List.mem_cons_self rfl
  have horder := turns_nodup hp hnodup
  have hbo := (mem_turns hp hnodup).mpr hb
  have hno : n ∈ x ++ p :: y :=
    (mem_turns hp hnodup).mp ((List.takeWhile_sublist _).subset hn)
  -- The ring is cut where the old order starts, and then at the new pointer.
  have hsame : turns n (x ++ p :: y) = turns n (turns p (x ++ p :: y)) := by
    have hassoc : x ++ p :: y = (x ++ [p]) ++ y := by simp only [List.append_assoc,
      List.singleton_append]
    rw [turns_cut hx, List.append_assoc y, hassoc]
    exact turns_comm (hassoc ▸ hnodup) (hassoc ▸ hno)
  rw [hsame] at ha
  generalize turns p (x ++ p :: y) = o at *
  rcases List.append_of_mem ((List.takeWhile_sublist _).subset hn) with ⟨o₁, o₂, rfl⟩
  have hn₁ : n ∉ o₁ := fun hc =>
    (List.nodup_append.mp horder).2.2 n hc n List.mem_cons_self rfl
  rw [turns_cut hn₁, List.append_assoc] at ha
  exact (ahead_rotate horder hbo hn).2 a ha

/-- The pointer is taken out and steps back: the others keep their order. -/
theorem turns_erase {q : α} {x y r : List α} (hnodup : (x ++ p :: y).Nodup)
    (h : y ++ x = r ++ [q]) : turns p (x ++ p :: y) = turns q (x ++ y) ++ [p] := by
  have hx : p ∉ x := fun hc =>
    (List.nodup_append.mp hnodup).2.2 p hc p List.mem_cons_self rfl
  have hnd : (x ++ y).Nodup := hnodup.sublist
    (List.Sublist.append_left (List.sublist_cons_self p y) x)
  rw [turns_cut hx, turns_rotation hnd h]

/-- Somebody joins at the end of the ring, and gets ahead of `b` if `b` is not
    behind the pointer. -/
theorem ahead_join (hp : p ∈ l) (hnodup : l.Nodup) (hb : b ∈ l)
    (ha : a ∈ ahead b (turns p (l ++ [n]))) :
    a ∈ ahead b (turns p l) ∨ (a = n ∧ b ∉ (l.dropWhile (· ≠ p)).tail) := by
  rcases List.append_of_mem hp with ⟨x, y, rfl⟩
  have hx : p ∉ x := fun hc =>
    (List.nodup_append.mp hnodup).2.2 p hc p List.mem_cons_self rfl
  rw [List.append_assoc, List.cons_append, turns_cut hx] at ha
  rw [turns_cut hx, dropWhile_cut hx, List.tail_cons]
  -- The new element stands before the turn of those behind the pointer.
  by_cases hby : b ∈ y
  · rw [List.append_assoc, List.append_assoc, ahead_append hby] at ha
    rw [List.append_assoc, ahead_append hby]
    exact Or.inl ha
  · rw [List.append_assoc, List.append_assoc, ahead_append_of_not_mem hby, List.mem_append] at ha
    rw [List.append_assoc, ahead_append_of_not_mem hby, List.mem_append]
    rcases ha with ha | ha
    · exact Or.inl (Or.inl ha)
    · unfold ahead at ha ⊢
      rw [List.singleton_append, List.takeWhile_cons] at ha
      by_cases hnb : n ≠ b
      · rw [if_pos (decide_eq_true hnb)] at ha
        rcases List.mem_cons.mp ha with ha | ha
        · exact Or.inr ⟨ha, hby⟩
        · exact Or.inl (Or.inr ha)
      · rw [if_neg fun hc => hnb (of_decide_eq_true hc)] at ha
        exact absurd ha List.not_mem_nil

/-- Members other than the pointer are taken out. -/
theorem turns_sublist (h : List.Sublist m l) (hp : p ∈ m) (hnodup : l.Nodup) :
    List.Sublist (turns p m) (turns p l) := by
  rcases List.append_of_mem (h.subset hp) with ⟨x, y, rfl⟩
  have hx : p ∉ x := fun hc =>
    (List.nodup_append.mp hnodup).2.2 p hc p List.mem_cons_self rfl
  have hy : p ∉ y := (List.nodup_cons.mp (List.nodup_append.mp hnodup).2.1).1
  rcases List.sublist_append_iff.mp h with ⟨x', z, rfl, hx', hz⟩
  have hpx' : p ∉ x' := fun hc => hx (hx'.subset hc)
  have hpz : p ∈ z := (List.mem_append.mp hp).resolve_left hpx'
  rcases List.sublist_cons_iff.mp hz with hz | ⟨y', rfl, hy'⟩
  · exact absurd (hz.subset hpz) hy
  · rw [turns_cut hx, turns_cut hpx']
    exact (hy'.append hx').append (List.Sublist.refl _)

end Edits

end RoundRobin
