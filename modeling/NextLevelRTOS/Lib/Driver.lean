import Mathlib.Algebra.Ring.Nat
import Mathlib.Data.List.Basic

/-!
# Drivers of Devices That Move

A driver reads and writes a device through its registers, and between any two
accesses the device goes on by itself: it sends, receives, counts. A driver is
run along a schedule, which says for each of its accesses what the device has
done before it. A property that holds along every schedule holds whatever the
timing is.

A busy wait that has used up its schedule is still waiting, so a driver need not
come to an end. `Triple` says what holds where it waits and where it ends, and
`Completes` that it does end, along every schedule in which the device goes on
often enough. In between it may do nothing, or anything else, for as long as it
likes; the busy waits wait.

## Main definitions

* `Driver`: What a driver does along a schedule.
* `access`, `poll`, `each`: A single access, a busy wait, a loop over a list.
* `Triple`: Partial correctness, with an invariant for the waiting.
* `Maintains`: A property that holds all the time.
* `Completes`: Termination where the device goes on often enough.

## Theorems

* `triple_bind`, `triple_access`, `triple_poll`, `triple_each`: The rules of
  partial correctness.
* `completes_bind`, `completes_access`, `completes_poll`, `completes_each`: The
  rules of termination.
-/

namespace Polling

variable {ε σ α β : Type}

/-- The driver has ended, with what is left of the schedule, or it waits. -/
inductive Progress (ε σ α : Type) where
  | done (a : α) (rest : List (List ε)) (s : σ)
  | waiting (s : σ)

/-- The state a driver has got to. -/
def Progress.state : Progress ε σ α → σ
  | .done _ _ s => s
  | .waiting s => s

/-- A driver, run along a schedule. -/
def Driver (ε σ α : Type) := List (List ε) → σ → Progress ε σ α

instance : Monad (Driver ε σ) where
  pure a := fun sched s => .done a sched s
  bind m f := fun sched s =>
    match m sched s with
    | .done a rest s => f a rest s
    | .waiting s => .waiting s

section Device

variable (move : ε → σ → σ)

/-- The device goes on by itself. -/
def settle (es : List ε) (s : σ) : σ := es.foldl (fun s e => move e s) s

/-- An access of the device. -/
def access (f : σ → α × σ) : Driver ε σ α
  | [], s => .waiting s
  | es :: rest, s => .done (f (settle move es s)).1 rest (f (settle move es s)).2

/-- An access that is repeated until its answer is as wanted. -/
def poll (f : σ → α × σ) (p : α → Bool) : Driver ε σ α
  | [], s => .waiting s
  | es :: rest, s =>
    if p (f (settle move es s)).1 then
      .done (f (settle move es s)).1 rest (f (settle move es s)).2
    else poll f p rest (f (settle move es s)).2

/-- Something is noted that the device does not see. -/
def note (f : σ → σ) : Driver ε σ Unit := fun sched s => .done () sched (f s)

/-- A loop over a list. -/
def each (body : β → Driver ε σ Unit) : List β → Driver ε σ Unit
  | [] => pure ()
  | b :: bs => do
    body b
    each body bs

/-- A property that the device keeps by itself. -/
def Stable (P : σ → Prop) : Prop := ∀ e s, P s → P (move e s)

theorem stable_settle {P : σ → Prop} (h : Stable move P) (es : List ε) {s : σ} (hs : P s) :
    P (settle move es s) := by
  induction es generalizing s with
  | nil => exact hs
  | cons e es ih => exact ih (h e s hs)

variable {move}

theorem stable_and {P Q : σ → Prop} (hP : Stable move P) (hQ : Stable move Q) :
    Stable move fun s => P s ∧ Q s :=
  fun e s hs => ⟨hP e s hs.1, hQ e s hs.2⟩

theorem settle_append (es fs : List ε) (s : σ) :
    settle move (es ++ fs) s = settle move fs (settle move es s) :=
  List.foldl_append

/-- After an event with which a property begins to hold, it holds. -/
theorem settle_of_mem {P Q : σ → Prop} (hP : Stable move P) (hQ : Stable move Q) {e : ε}
    (h : ∀ s, P s → Q (move e s)) {es : List ε} (he : e ∈ es) {s : σ} (hs : P s) :
    Q (settle move es s) := by
  rcases List.append_of_mem he with ⟨before, after, rfl⟩
  rw [settle_append]
  exact stable_settle move hQ after (h _ (stable_settle move hP before hs))

end Device

/-! ### Partial correctness -/

/-- From a state of `P` the driver ends in one of `Q` or waits in one of `I`. -/
def Triple (I P : σ → Prop) (m : Driver ε σ α) (Q : α → σ → Prop) : Prop :=
  ∀ sched s, P s →
    match m sched s with
    | .done a _ s' => Q a s'
    | .waiting s' => I s'

section Rules

variable {I P P' : σ → Prop} {Q Q' : α → σ → Prop} {move : ε → σ → σ}

theorem triple_mono {m : Driver ε σ α} (h : Triple I P m Q) (hP : ∀ s, P' s → P s)
    (hQ : ∀ a s, Q a s → Q' a s) : Triple I P' m Q' := by
  intro sched s hs
  have hrun := h sched s (hP s hs)
  cases hm : m sched s with
  | done a rest s' =>
      rw [hm] at hrun
      exact hQ a s' hrun
  | waiting s' =>
      rw [hm] at hrun
      exact hrun

theorem triple_wait {I' : σ → Prop} {m : Driver ε σ α} (h : Triple I P m Q)
    (hI : ∀ s, I s → I' s) : Triple I' P m Q := by
  intro sched s hs
  have hrun := h sched s hs
  cases hm : m sched s with
  | done a rest s' =>
      rw [hm] at hrun
      exact hrun
  | waiting s' =>
      rw [hm] at hrun
      exact hI s' hrun

/-- What is assumed of something else than the state. -/
theorem triple_assume {φ : Prop} {m : Driver ε σ α} (h : φ → Triple I P m Q) :
    Triple I (fun s => φ ∧ P s) m Q :=
  fun sched s hs => h hs.1 sched s hs.2

/-- Where a driver has got to, when it waits and ends in states of one kind. -/
theorem triple_state {m : Driver ε σ α} (h : Triple I P m fun _ => I) (sched : List (List ε))
    {s : σ} (hs : P s) : I (m sched s).state := by
  have hrun := h sched s hs
  cases hm : m sched s with
  | done a rest s' =>
      rw [hm] at hrun
      exact hrun
  | waiting s' =>
      rw [hm] at hrun
      exact hrun

theorem triple_pure {a : α} (h : ∀ s, P s → Q a s) :
    Triple I P (pure a : Driver ε σ α) Q :=
  fun _ s hs => h s hs

theorem triple_bind {R : β → σ → Prop} {m : Driver ε σ α} {f : α → Driver ε σ β}
    (hm : Triple I P m Q) (hf : ∀ a, Triple I (Q a) (f a) R) : Triple I P (m >>= f) R := by
  intro sched s hs
  have hrun := hm sched s hs
  simp only [bind]
  cases hmid : m sched s with
  | done a rest s' =>
      rw [hmid] at hrun
      exact hf a rest s' hrun
  | waiting s' =>
      rw [hmid] at hrun
      exact hrun

theorem triple_access {f : σ → α × σ} (hstable : Stable move P) (hI : ∀ s, P s → I s)
    (h : ∀ s, P s → Q (f s).1 (f s).2) : Triple I P (access move f) Q := by
  intro sched s hs
  cases sched with
  | nil => exact hI s hs
  | cons es rest => exact h _ (stable_settle move hstable es hs)

theorem triple_note {Q : Unit → σ → Prop} {f : σ → σ} (h : ∀ s, P s → Q () (f s)) :
    Triple I P (note f : Driver ε σ Unit) Q :=
  fun _ s hs => h s hs

/-- A busy wait keeps `P` while the answer is not as wanted. -/
theorem triple_poll {f : σ → α × σ} {p : α → Bool} (hstable : Stable move P)
    (hI : ∀ s, P s → I s) (hagain : ∀ s, P s → p (f s).1 = false → P (f s).2)
    (h : ∀ s, P s → p (f s).1 = true → Q (f s).1 (f s).2) :
    Triple I P (poll move f p) Q := by
  intro sched
  induction sched with
  | nil => exact fun s hs => hI s hs
  | cons es rest ih =>
      intro s hs
      have hP := stable_settle move hstable es hs
      rw [poll]
      cases hp : p (f (settle move es s)).1 with
      | true => exact h _ hP hp
      | false => exact ih _ (hagain _ hP hp)

/-- The invariant of a loop speaks of what is done and what is to do. -/
theorem triple_each {body : β → Driver ε σ Unit} (Inv : List β → List β → σ → Prop)
    (h : ∀ before b after, Triple I (Inv before (b :: after)) (body b)
      fun _ => Inv (before ++ [b]) after) (before l : List β) :
    Triple I (Inv before l) (each body l) fun _ => Inv (before ++ l) [] := by
  induction l generalizing before with
  | nil =>
      rw [List.append_nil]
      exact triple_pure fun _ hs => hs
  | cons b l ih =>
      have hrest := ih (before ++ [b])
      rw [List.append_assoc, List.singleton_append] at hrest
      exact triple_bind (h before b l) fun _ => hrest

end Rules

/-- A driver that starts in `P` is never found outside of it. -/
def Maintains (P : σ → Prop) (m : Driver ε σ α) : Prop := Triple P P m fun _ => P

section Maintained

variable {P : σ → Prop} {move : ε → σ → σ}

theorem maintains_pure {a : α} : Maintains P (pure a : Driver ε σ α) :=
  triple_pure fun _ hs => hs

theorem maintains_bind {m : Driver ε σ α} {f : α → Driver ε σ β} (hm : Maintains P m)
    (hf : ∀ a, Maintains P (f a)) : Maintains P (m >>= f) :=
  triple_bind hm hf

theorem maintains_access {f : σ → α × σ} (hstable : Stable move P) (h : ∀ s, P s → P (f s).2) :
    Maintains P (access move f) :=
  triple_access hstable (fun _ hs => hs) h

theorem maintains_poll {f : σ → α × σ} {p : α → Bool} (hstable : Stable move P)
    (h : ∀ s, P s → P (f s).2) : Maintains P (poll move f p) :=
  triple_poll hstable (fun _ hs => hs) (fun s hs _ => h s hs) fun s hs _ => h s hs

theorem maintains_each {body : β → Driver ε σ Unit} {l : List β}
    (h : ∀ b ∈ l, Maintains P (body b)) : Maintains P (each body l) := by
  induction l with
  | nil => exact maintains_pure
  | cons b l ih =>
      exact maintains_bind (h b List.mem_cons_self) fun _ =>
        ih fun c hc => h c (List.mem_cons_of_mem b hc)

end Maintained

/-! ### Termination -/

/-- Along every schedule with `n` times in which the device goes on, the driver ends in
    a state of `Q` and has used up `n` of these at most. -/
def Completes (goesOn : List ε → Prop) [DecidablePred goesOn] (n : Nat) (P : σ → Prop)
    (m : Driver ε σ α) (Q : α → σ → Prop) : Prop :=
  ∀ sched s, P s → n ≤ sched.countP (goesOn ·) →
    ∃ a rest s', m sched s = .done a rest s' ∧ Q a s' ∧
      sched.countP (goesOn ·) ≤ rest.countP (goesOn ·) + n

section Termination

variable {goesOn : List ε → Prop} [DecidablePred goesOn] {P P' : σ → Prop}
variable {Q Q' : α → σ → Prop} {move : ε → σ → σ} {n k : Nat}

theorem completes_mono {m : Driver ε σ α} (h : Completes goesOn n P m Q) (hn : n ≤ k)
    (hP : ∀ s, P' s → P s) (hQ : ∀ a s, Q a s → Q' a s) : Completes goesOn k P' m Q' := by
  intro sched s hs hlen
  rcases h sched s (hP s hs) (Nat.le_trans hn hlen) with ⟨a, rest, s', hm, hq, hleft⟩
  exact ⟨a, rest, s', hm, hQ a s' hq, by omega⟩

theorem completes_assume {φ : Prop} {m : Driver ε σ α} (h : φ → Completes goesOn n P m Q) :
    Completes goesOn n (fun s => φ ∧ P s) m Q :=
  fun sched s hs => h hs.1 sched s hs.2

theorem completes_pure {a : α} (h : ∀ s, P s → Q a s) :
    Completes goesOn 0 P (pure a : Driver ε σ α) Q :=
  fun sched s hs _ => ⟨a, sched, s, rfl, h s hs, Nat.le_refl _⟩

theorem completes_bind {R : β → σ → Prop} {m : Driver ε σ α} {f : α → Driver ε σ β}
    (hm : Completes goesOn n P m Q) (hf : ∀ a, Completes goesOn k (Q a) (f a) R) :
    Completes goesOn (n + k) P (m >>= f) R := by
  intro sched s hs hlen
  rcases hm sched s hs (by omega) with ⟨a, rest, s', hmid, hq, hleft⟩
  rcases hf a rest s' hq (by omega) with ⟨b, rest', s'', hend, hr, hleft'⟩
  refine ⟨b, rest', s'', ?_, hr, by omega⟩
  simp only [bind, hmid, hend]

/-- Where the device goes on in all times, what counts is how many there are. -/
theorem countP_all (sched : List (List ε)) : sched.countP (fun _ => decide True) = sched.length :=
  List.countP_eq_length.mpr fun _ _ => decide_eq_true trivial

/-- One time fewer is left at most. -/
theorem countP_cons_le (es : List ε) (rest : List (List ε)) :
    (es :: rest).countP (goesOn ·) ≤ rest.countP (goesOn ·) + 1 := by
  rw [List.countP_cons]
  split <;> omega

theorem completes_access {f : σ → α × σ} (hstable : Stable move P)
    (h : ∀ s, P s → Q (f s).1 (f s).2) : Completes goesOn 1 P (access move f) Q := by
  intro sched s hs hlen
  cases sched with
  | nil => exact absurd hlen (Nat.not_succ_le_zero 0)
  | cons es rest =>
      exact ⟨_, rest, _, rfl, h _ (stable_settle move hstable es hs), countP_cons_le es rest⟩

/-- A busy wait ends when a measure that nothing increases gets smaller in every time in
    which the device goes on. The induction is on the schedule. -/
theorem completes_poll {f : σ → α × σ} {p : α → Bool} (measure : σ → Nat)
    (hstable : Stable move P) (hkept : ∀ k, Stable move fun s => measure s ≤ k)
    (hagain : ∀ s, P s → p (f s).1 = false → P (f s).2 ∧ measure (f s).2 ≤ measure s)
    (hcloser : ∀ es s, P s → goesOn es → p (f (settle move es s)).1 = false →
      measure (settle move es s) < measure s)
    (h : ∀ s, P s → p (f s).1 = true → Q (f s).1 (f s).2) :
    Completes goesOn (n + 1) (fun s => P s ∧ measure s ≤ n) (poll move f p) Q := by
  intro sched
  induction sched generalizing n with
  | nil => exact fun _ _ hlen => absurd hlen (Nat.not_succ_le_zero n)
  | cons es rest ih =>
      rintro s ⟨hs, hmeasure⟩ hlen
      have hP := stable_settle move hstable es hs
      cases hp : p (f (settle move es s)).1 with
      | true =>
          have hleft : (es :: rest).countP (goesOn ·) ≤ _ := countP_cons_le es rest
          exact ⟨_, rest, _, by rw [poll, if_pos hp], h _ hP hp, by omega⟩
      | false =>
          rcases hagain _ hP hp with ⟨hP', hle⟩
          have hcount : (es :: rest).countP (goesOn ·) =
              rest.countP (goesOn ·) + if goesOn es then 1 else 0 := by
            rw [List.countP_cons]
            simp only [decide_eq_true_eq]
          rw [hcount] at hlen ⊢
          rw [poll, hp, if_neg Bool.false_ne_true]
          by_cases hgoes : goesOn es
          · have hless := hcloser es s hs hgoes hp
            rw [if_pos hgoes] at hlen ⊢
            rcases ih (n := n - 1) _ ⟨hP', by omega⟩ (by omega) with ⟨a, left, s', hrun, hq, hleft⟩
            exact ⟨a, left, s', hrun, hq, by omega⟩
          · have hsame := stable_settle move (hkept n) es hmeasure
            rw [if_neg hgoes] at hlen ⊢
            exact ih _ ⟨hP', Nat.le_trans hle hsame⟩ hlen

theorem completes_each {body : β → Driver ε σ Unit} (cost : β → Nat)
    (h : ∀ b, Completes goesOn (cost b) P (body b) fun _ => P) (l : List β) :
    Completes goesOn (l.map cost).sum P (each body l) fun _ => P := by
  induction l with
  | nil => exact completes_pure fun _ hs => hs
  | cons b l ih =>
      rw [List.map_cons, List.sum_cons]
      exact completes_bind (h b) fun _ => ih

end Termination

end Polling
