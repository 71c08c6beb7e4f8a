import ASNPrefixMap.Lib.Exception

/-!
# Programs that agree on a view of their states

Two programs over states of their own may differ in much and still agree on what
a view of these states shows: run from states that look alike, they return the
same value or throw the same exception, in states that look alike (`Agree`). A
program that agrees with itself under a view makes nothing visible of what the
view hides. There is one rule for each way programs are built.

The two programs may have different state types: `view` and `view'` only have to
end in one type. Exceptions are compared as they are, so two programs that throw
at different moments agree if the states they leave look alike. Nothing is said
of states that look different to begin with.

`Agree` is used here for what a program hides from the outside (statistics, the
counters of single messages); it is no bisimulation, for only the end of a run
is compared.
-/

namespace ASNPrefixMap.Lib

variable {ε σ τ ρ α β : Type}

/-- What a view shows of an outcome: the value or the exception as they are, and
of the state no more than the view. -/
def seen (view : σ → ρ) : EStateM.Result ε σ α → EStateM.Result ε ρ α
  | .ok a s => .ok a (view s)
  | .error e s => .error e (view s)

/-- From states that look alike the programs end alike: both return the same
value, or both throw the same exception, in states that look alike again. -/
def Agree (view : σ → ρ) (view' : τ → ρ) (x : EStateM ε σ α) (y : EStateM ε τ α) : Prop :=
  ∀ s t, view s = view' t → seen view (x.run s) = seen view' (y.run t)

variable {view : σ → ρ} {view' : τ → ρ}

/-- Returning a value touches no state, so both sides end as they began. -/
theorem Agree.pure (a : α) : Agree view view' (pure a : EStateM ε σ α) (pure a : EStateM ε τ α) :=
  fun _ _ h => congrArg (EStateM.Result.ok a) h

/-- Throwing touches no state either: both sides throw the same exception where
they stand. -/
theorem Agree.throw (e : ε) : Agree view view' (throw e : EStateM ε σ α) (throw e : EStateM ε τ α) :=
  fun _ _ h => congrArg (EStateM.Result.error e) h

/-- Two updates agree when they lead states that look alike to states that look
alike. -/
theorem Agree.modify {f : σ → σ} {g : τ → τ} (h : ∀ s t, view s = view' t → view (f s) = view' (g t)) :
    Agree view view' (modify f : EStateM ε σ Unit) (modify g : EStateM ε τ Unit) :=
  fun s t hst => congrArg (EStateM.Result.ok ()) (h s t hst)

/-- Sequences agree when their parts do. The second parts are started with one
value, since the first ones have returned the same. -/
theorem Agree.bind {x : EStateM ε σ β} {y : EStateM ε τ β} {f : β → EStateM ε σ α}
    {g : β → EStateM ε τ α} (hx : Agree view view' x y) (hf : ∀ b, Agree view view' (f b) (g b)) :
    Agree view view' (x >>= f) (y >>= g) := by
  intro s t h
  have hrun := hx s t h
  rw [EStateM.run_bind, EStateM.run_bind]
  cases hs : x.run s with
  | ok b s' =>
    cases ht : y.run t with
    | ok b' t' =>
      rw [hs, ht] at hrun
      injection hrun with hb hview
      rw [← hb]
      exact hf b s' t' hview
    | error e t' =>
      rw [hs, ht] at hrun
      cases hrun
  | error e s' =>
    cases ht : y.run t with
    | ok b' t' =>
      rw [hs, ht] at hrun
      cases hrun
    | error e' t' =>
      rw [hs, ht] at hrun
      injection hrun with he hview
      rw [← he]
      exact congrArg (EStateM.Result.error e) hview

/-- A program that can be run on what the view shows agrees with itself. Here
the view is a map into the same states that forgets something (`normal`). -/
theorem Agree.of_view {x : EStateM ε σ α} {normal : σ → σ}
    (h : ∀ s, x.run (normal s) = seen normal (x.run s)) : Agree normal normal x x := by
  intro s t hst
  rw [← h, hst, h]

/-- Reading states that look alike: the rest may use all of what was read, as
long as what it makes of it looks alike. -/
theorem Agree.get_bind {f : σ → EStateM ε σ α} {g : τ → EStateM ε τ α}
    (h : ∀ s t, view s = view' t → seen view ((f s).run s) = seen view' ((g t).run t)) :
    Agree view view' (do f (← get)) (do g (← get)) :=
  h

/-- A branch both sides take together. The condition must not depend on what the
view hides. -/
theorem Agree.ite {c : Prop} [Decidable c] {x x' : EStateM ε σ α} {y y' : EStateM ε τ α}
    (hx : Agree view view' x y) (hx' : Agree view view' x' y') :
    Agree view view' (if c then x else x') (if c then y else y') := by
  by_cases h : c
  · rw [if_pos h, if_pos h]
    exact hx
  · rw [if_neg h, if_neg h]
    exact hx'

/-- Loops over one list agree when their bodies do. -/
theorem Agree.forM {f : β → EStateM ε σ Unit} {g : β → EStateM ε τ Unit}
    (h : ∀ b, Agree view view' (f b) (g b)) : ∀ bs : List β, Agree view view' (forM bs f) (forM bs g) := by
  intro bs
  induction bs with
  | nil => exact Agree.pure ()
  | cons b bs ih =>
    rw [List.forM_cons, List.forM_cons]
    exact (h b).bind fun _ => ih

end ASNPrefixMap.Lib
