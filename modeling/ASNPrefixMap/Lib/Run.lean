import Mathlib.Data.List.Basic

/-!
# Runs of a machine

A machine is a step function; a run folds it over a list of inputs. A side
condition that every state passed through must meet is `Along`; a condition on
each step, on the state before it and its input, is `EachStep`. Three rules
carry a step lemma to a whole run: `run_simulation` (two machines stay related),
`EachStep.invariant` (one machine keeps a property, at every point of the run)
and `EachStep.between` (it keeps it from one point of the run to a later one).

The step is total: a machine that can fail has its failures among its states, or
a condition on the steps that excludes them. Inputs are a list, oldest first, so
a point of the run is a number of inputs taken.
-/

namespace ASNPrefixMap.Lib

variable {σ τ ι : Type}

/-- Every state of the run, the first and the last included, satisfies `P`. -/
def Along (step : σ → ι → σ) (P : σ → Prop) (s : σ) (l : List ι) : Prop :=
  ∀ n, P ((l.take n).foldl step s)

/-- The state a run starts from is one of it. -/
theorem Along.head {step : σ → ι → σ} {P : σ → Prop} {s : σ} {l : List ι}
    (h : Along step P s l) : P s := by
  have h0 := h 0
  rw [List.take_zero, List.foldl_nil] at h0
  exact h0

/-- After the first step, the rest is a run too. -/
theorem Along.tail {step : σ → ι → σ} {P : σ → Prop} {s : σ} {i : ι} {l : List ι}
    (h : Along step P s (i :: l)) : Along step P (step s i) l := by
  intro n
  have hn := h (n + 1)
  rw [List.take_succ_cons, List.foldl_cons] at hn
  exact hn

/-- Related states stay related along a run. The relation need be kept only
where the next state satisfies `P`, which is how a bound on a counter enters. -/
theorem run_simulation {step : σ → ι → σ} {astep : τ → ι → τ} {P : σ → Prop}
    {R : σ → τ → Prop}
    (hstep : ∀ s a i, R s a → P (step s i) → R (step s i) (astep a i)) :
    ∀ (l : List ι) (s : σ) (a : τ), R s a → Along step P s l →
      R (l.foldl step s) (l.foldl astep a) := by
  intro l
  induction l with
  | nil => exact fun s a h _ => h
  | cons i l ih =>
    intro s a h hP
    rw [List.foldl_cons, List.foldl_cons]
    exact ih _ _ (hstep s a i h hP.tail.head) hP.tail

/-! ## Conditions on the steps -/

/-- Every step of the run, as the state before it and its input, satisfies `Q`.
Of the state after it nothing is said. -/
def EachStep (step : σ → ι → σ) (Q : σ → ι → Prop) (s : σ) (l : List ι) : Prop :=
  ∀ n i, l[n]? = some i → Q ((l.take n).foldl step s) i

theorem foldl_take_succ {l : List ι} {n : Nat} {i : ι} (h : l[n]? = some i) (step : σ → ι → σ)
    (s : σ) : (l.take (n + 1)).foldl step s = step ((l.take n).foldl step s) i := by
  rw [List.take_add_one, h, List.foldl_append]
  rfl

/-- What each step keeps, as long as its input is one of the `R`s, still holds
at a later point of the run when only such inputs came in between. -/
theorem EachStep.between {step : σ → ι → σ} {Q : σ → ι → Prop} {Inv : σ → Prop} {R : ι → Prop}
    (hstep : ∀ s i, Inv s → Q s i → R i → Inv (step s i)) {s : σ} {l : List ι}
    (hQ : EachStep step Q s l) {n : Nat} (h : Inv ((l.take n).foldl step s)) :
    ∀ m, n ≤ m → (∀ k i, n ≤ k → k < m → l[k]? = some i → R i) →
      Inv ((l.take m).foldl step s) := by
  intro m
  induction m with
  | zero =>
    intro hnm _
    rw [Nat.le_zero.mp hnm] at h
    exact h
  | succ m ih =>
    intro hnm hR
    by_cases hnm' : n ≤ m
    · have hm := ih hnm' fun k i hk hkm => hR k i hk (by omega)
      cases hi : l[m]? with
      | none =>
        rw [List.take_add_one, hi, Option.toList_none, List.append_nil]
        exact hm
      | some i =>
        rw [foldl_take_succ hi]
        exact hstep _ i hm (hQ m i hi) (hR m i hnm' (by omega) hi)
    · have heq : n = m + 1 := by omega
      rw [heq] at h
      exact h

/-- An invariant that each such step preserves holds at every point of the run.
The steps may use `Q`. -/
theorem EachStep.invariant {step : σ → ι → σ} {Q : σ → ι → Prop} {Inv : σ → Prop}
    (hstep : ∀ s i, Inv s → Q s i → Inv (step s i)) {s : σ} {l : List ι} (h : Inv s)
    (hQ : EachStep step Q s l) (n : Nat) : Inv ((l.take n).foldl step s) :=
  hQ.between (R := fun _ => True) (n := 0) (fun s i hs hq _ => hstep s i hs hq) h n
    (Nat.zero_le n) fun _ _ _ _ _ => trivial

end ASNPrefixMap.Lib
