import Mathlib.Tactic.Common

/-!
# Streams Cut by Marks

A stream in which some items are marks. The marks cut it into stretches, each of
which is read in groups of `n`; what is left over at the end of a stretch is no
group. The other way round, the items that are no marks cut it into runs of marks.

A reader of such a stream keeps the group it has begun and whether the last item was
a mark. `groupsAfter` and `runsAfter` say what there is to come for a reader in the
middle of a stream, and how this changes with the next item.

## Main definitions

* `groups`: The complete groups of `n`.
* `stretchGroups`: The groups of all stretches.
* `markRuns`: The maximal runs of marks.
* `groupsAfter`, `runsAfter`: What is to come.

## Theorems

* `groupsAfter_item`, `groupsAfter_mark`, `groupsAfter_full`: The next item of a
  group.
* `runsAfter_item`, `runsAfter_mark`: The next item of a run.
-/

namespace Stretches

universe u v

variable {α : Type u} {β : Type v}

/-- The complete groups of `n`, one after the other. -/
def groups (n : Nat) (l : List β) : List (List β) :=
  (List.range (l.length / n)).map fun i => (l.drop (i * n)).take n

/-- The groups of `n` in the stretches between the marks. -/
def stretchGroups (n : Nat) (mark : α → Bool) (value : α → β) (l : List α) : List (List β) :=
  (l.splitOnP mark).flatMap fun stretch => groups n (stretch.map value)

/-- The maximal runs of marks. -/
def markRuns (mark : α → Bool) (l : List α) : List (List α) :=
  (l.splitOnP fun x => !mark x).filter fun r => !r.isEmpty

theorem groups_of_lt {n : Nat} {l : List β} (h : l.length < n) : groups n l = [] := by
  rw [groups, Nat.div_eq_of_lt h, List.range_zero, List.map_nil]

theorem groups_append {n : Nat} {begun : List β} (hn : 0 < n) (h : begun.length = n)
    (l : List β) : groups n (begun ++ l) = begun :: groups n l := by
  have hlength : (begun ++ l).length / n = l.length / n + 1 := by
    rw [List.length_append, h, Nat.add_comm, Nat.add_div_right _ hn]
  rw [groups, hlength, List.range_succ_eq_map, List.map_cons, List.map_map]
  congr 1
  · rw [Nat.zero_mul, List.drop_zero]
    exact List.take_left' h
  · refine List.map_congr_left fun i _ => ?_
    change ((begun ++ l).drop ((i + 1) * n)).take n = _
    rw [Nat.succ_mul, Nat.add_comm, ← List.drop_drop, List.drop_left' h]

/-! ### Groups to come -/

section Groups

variable {n : Nat} {mark : α → Bool} {value : α → β} {begun : List β}

/-- The groups to come for a reader that has begun one. -/
def groupsAfter (n : Nat) (mark : α → Bool) (value : α → β) (begun : List β) (l : List α) :
    List (List β) :=
  match l.splitOnP mark with
  | [] => []
  | first :: rest =>
    groups n (begun ++ first.map value) ++ rest.flatMap fun stretch => groups n (stretch.map value)

theorem groupsAfter_start (l : List α) :
    groupsAfter n mark value [] l = stretchGroups n mark value l := by
  unfold groupsAfter stretchGroups
  cases hsplit : l.splitOnP mark with
  | nil => rfl
  | cons first rest =>
      dsimp only
      rw [List.nil_append, List.flatMap_cons]

theorem groupsAfter_nil (h : begun.length < n) : groupsAfter n mark value begun [] = [] := by
  rw [groupsAfter, List.splitOnP_nil]
  dsimp only
  rw [List.map_nil, List.append_nil, groups_of_lt h]
  rfl

/-- A mark throws away what has been begun. -/
theorem groupsAfter_mark (h : begun.length < n) {x : α} (hx : mark x = true) (l : List α) :
    groupsAfter n mark value begun (x :: l) = groupsAfter n mark value [] l := by
  rw [groupsAfter, List.splitOnP_cons_eq_if_modifyHead, if_pos hx, groupsAfter_start, stretchGroups]
  dsimp only
  rw [List.map_nil, List.append_nil, groups_of_lt h, List.nil_append]

/-- Anything else goes on with it. -/
theorem groupsAfter_item {x : α} (hx : mark x = false) (l : List α) :
    groupsAfter n mark value begun (x :: l) = groupsAfter n mark value (begun ++ [value x]) l := by
  rw [groupsAfter, List.splitOnP_cons_eq_if_modifyHead,
    if_neg (by rw [hx]; exact Bool.false_ne_true), groupsAfter]
  cases hsplit : l.splitOnP mark with
  | nil => rfl
  | cons first rest =>
      rw [List.modifyHead_cons]
      dsimp only
      rw [List.map_cons, List.append_assoc, List.singleton_append]

/-- A complete group is read. -/
theorem groupsAfter_full (hn : 0 < n) (h : begun.length = n) (l : List α) :
    groupsAfter n mark value begun l = begun :: groupsAfter n mark value [] l := by
  unfold groupsAfter
  cases hsplit : l.splitOnP mark with
  | nil => exact absurd hsplit (List.splitOnP_ne_nil mark l)
  | cons first rest =>
      dsimp only
      rw [groups_append hn h, List.nil_append, List.cons_append]

end Groups

/-! ### Runs to come -/

section Runs

variable {mark : α → Bool}

/-- The number of runs of marks to come, where a run that goes on is not counted. -/
def runsAfter (mark : α → Bool) (marked : Bool) (l : List α) : Nat :=
  let pieces := l.splitOnP fun x => !mark x
  ((if marked then pieces.tail else pieces).filter fun r => !r.isEmpty).length

theorem runsAfter_start (l : List α) : runsAfter mark false l = (markRuns mark l).length := rfl

theorem runsAfter_nil (marked : Bool) : runsAfter mark marked [] = 0 := by
  cases marked with
  | false => rfl
  | true => rfl

/-- A mark begins a run unless one goes on. -/
theorem runsAfter_mark {x : α} (hx : mark x = true) (marked : Bool) (l : List α) :
    runsAfter mark marked (x :: l) = (if marked then 0 else 1) + runsAfter mark true l := by
  unfold runsAfter
  rw [List.splitOnP_cons_eq_if_modifyHead, if_neg (by rw [hx]; exact Bool.false_ne_true)]
  cases hsplit : l.splitOnP fun x => !mark x with
  | nil => exact absurd hsplit (List.splitOnP_ne_nil _ l)
  | cons first rest =>
      rw [List.modifyHead_cons]
      cases marked with
      | false =>
          dsimp only
          rw [if_neg Bool.false_ne_true, if_neg Bool.false_ne_true, if_pos rfl, List.tail_cons,
            List.filter_cons_of_pos rfl, List.length_cons, Nat.add_comm]
      | true =>
          dsimp only
          rw [if_pos rfl, if_pos rfl, if_pos rfl, List.tail_cons, List.tail_cons, Nat.zero_add]

/-- Anything else ends it. -/
theorem runsAfter_item {x : α} (hx : mark x = false) (marked : Bool) (l : List α) :
    runsAfter mark marked (x :: l) = runsAfter mark false l := by
  unfold runsAfter
  rw [List.splitOnP_cons_eq_if_modifyHead, if_pos (by rw [hx]; rfl)]
  cases marked with
  | false => rfl
  | true => rfl

end Runs

end Stretches
