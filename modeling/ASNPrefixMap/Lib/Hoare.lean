import Mathlib.Order.Basic

/-!
# Pre- and postconditions with exceptions

For a program over a state that can throw (`EStateM`), `Triple P x Q E` says:
from a state with `P`, `x` returns a value and a state with `Q`, or throws with
a state that has `E`. There is one rule for each way such programs are built; a
property that holds in between is named in the triple of the first half.
`attempt` is a `try` block: what it throws becomes its value, and the state
stays as the throw left it.

`Std.Do` has a program logic as well; this one is kept small because its
postcondition for a throw speaks of the state, which is what the exception
guarantees here are about. A triple is total in the sense that every program of
this kind ends: loops carry a bound, and what they do when it is used up is part
of their value. Old values are named by a condition such as `fun s' => s' = s`.
-/

namespace ASNPrefixMap.Lib

variable {ε σ α β : Type}

/-- What `x` makes of the states with `P`: a value and a state with `Q`, or an
exception and a state with `E`. -/
def Triple (P : σ → Prop) (x : EStateM ε σ α) (Q : α → σ → Prop) (E : ε → σ → Prop) : Prop :=
  ∀ s, P s → match x.run s with
    | .ok a s' => Q a s'
    | .error e s' => E e s'

/-- A `try` block around `x` that catches everything. -/
def attempt (x : EStateM ε σ Unit) : EStateM ε σ (Option ε) :=
  tryCatch (do x; return none) fun e => return some e

/-- How a `try` block runs: the outcome of the block becomes its value. -/
theorem run_attempt (x : EStateM ε σ Unit) (s : σ) :
    (attempt x).run s =
      match x.run s with
      | .ok _ s' => .ok none s'
      | .error e s' => .ok (some e) s' := by
  simp only [attempt, tryCatch, tryCatchThe, MonadExceptOf.tryCatch, EStateM.tryCatch, EStateM.run,
    bind, EStateM.bind]
  cases x s with
  | ok a s' => rfl
  | error e s' => rfl

section Rules

variable {P P' : σ → Prop} {Q Q' : α → σ → Prop} {E E' : ε → σ → Prop}

/-- From a triple about what was run: a program that returned is in its
postcondition. -/
theorem Triple.ok {x : EStateM ε σ α} (h : Triple P x Q E) {s s' : σ} {a : α} (hs : P s)
    (hx : x.run s = .ok a s') : Q a s' := by
  have hrun := h s hs
  rw [hx] at hrun
  exact hrun

/-- And one that threw is in its postcondition for exceptions. -/
theorem Triple.error {x : EStateM ε σ α} (h : Triple P x Q E) {s s' : σ} {e : ε} (hs : P s)
    (hx : x.run s = .error e s') : E e s' := by
  have hrun := h s hs
  rw [hx] at hrun
  exact hrun

/-- The rule of consequence: a triple stays true with a stronger precondition
and weaker postconditions. -/
theorem Triple.conseq {x : EStateM ε σ α} (h : Triple P x Q E) (hP : ∀ s, P' s → P s)
    (hQ : ∀ a s, Q a s → Q' a s) (hE : ∀ e s, E e s → E' e s) : Triple P' x Q' E' := by
  intro s hs
  have hrun := h s (hP s hs)
  cases hx : x.run s with
  | ok a s' =>
    rw [hx] at hrun
    exact hQ a s' hrun
  | error e s' =>
    rw [hx] at hrun
    exact hE e s' hrun

/-- Two triples about one program hold together, each with its own
conditions. -/
theorem Triple.and {x : EStateM ε σ α} (h : Triple P x Q E) (h' : Triple P' x Q' E') :
    Triple (fun s => P s ∧ P' s) x (fun a s => Q a s ∧ Q' a s) fun e s => E e s ∧ E' e s := by
  intro s ⟨hs, hs'⟩
  have hrun := h s hs
  have hrun' := h' s hs'
  cases hx : x.run s with
  | ok a s' =>
    rw [hx] at hrun hrun'
    exact ⟨hrun, hrun'⟩
  | error e s' =>
    rw [hx] at hrun hrun'
    exact ⟨hrun, hrun'⟩

/-- Returning a value leaves the state, so the postcondition has to hold
already. -/
theorem Triple.pure {a : α} (h : ∀ s, P s → Q a s) : Triple P (pure a : EStateM ε σ α) Q E :=
  fun s hs => h s hs

/-- Throwing leaves the state, so the postcondition for exceptions has to hold
already. -/
theorem Triple.throw {e : ε} (h : ∀ s, P s → E e s) : Triple P (throw e : EStateM ε σ α) Q E :=
  fun s hs => h s hs

/-- An update, from what it makes of the states with `P`. -/
theorem Triple.modify {f : σ → σ} {Q : Unit → σ → Prop} (h : ∀ s, P s → Q () (f s)) :
    Triple P (modify f : EStateM ε σ Unit) Q E :=
  fun s hs => h s hs

/-- Reading the state: the rest runs with the state as it was read. -/
theorem Triple.get_bind {f : σ → EStateM ε σ α}
    (h : ∀ s, P s → Triple (fun s' => s' = s) (f s) Q E) :
    Triple P (do f (← get)) Q E := by
  intro s hs
  exact h s hs s rfl

/-- Reading the state for what does not change: the rest is started with what
was read as a constant. -/
theorem Triple.get_bind_of_forall {f : σ → EStateM ε σ α} (h : ∀ s, P s → Triple P (f s) Q E) :
    Triple P (do f (← get)) Q E := by
  intro s hs
  exact h s hs s hs

/-- A sequence: what the first half returns with is what the second half starts
from, and both may throw in the same way. -/
theorem Triple.bind {x : EStateM ε σ β} {f : β → EStateM ε σ α} {R : β → σ → Prop}
    (hx : Triple P x R E) (hf : ∀ b, Triple (R b) (f b) Q E) : Triple P (x >>= f) Q E := by
  intro s hs
  have hrun := hx s hs
  rw [EStateM.run_bind]
  cases hxs : x.run s with
  | ok b s' =>
    rw [hxs] at hrun
    exact hf b s' hrun
  | error e s' =>
    rw [hxs] at hrun
    exact hrun

/-- A condition that says which of several properties holds. The program does
not depend on which. -/
theorem Triple.exists {ι : Type} {P : ι → σ → Prop} {x : EStateM ε σ α}
    (h : ∀ i, Triple (P i) x Q E) : Triple (fun s => ∃ i, P i s) x Q E :=
  fun s ⟨i, hs⟩ => h i s hs

/-- A condition with two cases, and the same outcome in both. -/
theorem Triple.or {x : EStateM ε σ α} (h : Triple P x Q E) (h' : Triple P' x Q E) :
    Triple (fun s => P s ∨ P' s) x Q E :=
  fun s hs => hs.elim (h s) (h' s)

/-- A condition that says something about values and not about the state. -/
theorem Triple.of_and {p : Prop} {x : EStateM ε σ α} (h : p → Triple P x Q E) :
    Triple (fun s => p ∧ P s) x Q E :=
  fun s ⟨hp, hs⟩ => h hp s hs

/-- A branch: each side may use which one it is. -/
theorem Triple.ite {c : Prop} [Decidable c] {x y : EStateM ε σ α} (hx : c → Triple P x Q E)
    (hy : ¬ c → Triple P y Q E) : Triple P (if c then x else y) Q E := by
  by_cases h : c
  · rw [if_pos h]
    exact hx h
  · rw [if_neg h]
    exact hy h

/-- A `try` block never throws: its value says which way the block ended, and
its state is the one the throw left. So there is nothing to say about
exceptions. -/
theorem Triple.attempt {x : EStateM ε σ Unit} {Q : Option ε → σ → Prop}
    (h : Triple P x (fun _ => Q none) fun e => Q (some e)) : Triple P (attempt x) Q E := by
  intro s hs
  have hrun := h s hs
  rw [run_attempt]
  cases hx : x.run s with
  | ok a s' =>
    rw [hx] at hrun
    exact hrun
  | error e s' =>
    rw [hx] at hrun
    exact hrun

end Rules

end ASNPrefixMap.Lib
