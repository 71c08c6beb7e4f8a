import Mathlib.Data.List.Induction

/-!
# Properties of a trace

A trace is what happened, oldest first, and grows at its end. `EveryEvent P t`
says that each event of `t` is as `P` demands of it, given what had happened
before; one event more adds one demand (`everyEvent_concat`).

Events are appended and never taken back, so a condition on the past of an event
stays true. What holds of the whole trace is proved one event at a time, as the
program appends them.
-/

namespace ASNPrefixMap.Lib

variable {A : Type}

/-- Every event of a trace meets `P`, a condition on what came before it and the
event. -/
def EveryEvent (P : List A → A → Prop) (trace : List A) : Prop :=
  ∀ before event after, trace = before ++ event :: after → P before event

theorem everyEvent_nil (P : List A → A → Prop) : EveryEvent P [] := by
  intro before event after h
  exact absurd h (by simp)

/-- A trace with one more event: the trace before is as it should be, and so is
the event. -/
theorem everyEvent_concat {P : List A → A → Prop} {trace : List A} {event : A} :
    EveryEvent P (trace ++ [event]) ↔ EveryEvent P trace ∧ P trace event := by
  constructor
  · intro h
    refine ⟨fun before e after heq => ?_, h trace event [] rfl⟩
    refine h before e (after ++ [event]) ?_
    rw [heq, List.append_assoc, List.cons_append]
  · intro ⟨htrace, hevent⟩ before e after heq
    -- the event is the last one, or one of those before
    rcases List.eq_nil_or_concat after with rfl | ⟨after', last, rfl⟩
    · obtain ⟨h₁, h₂⟩ := List.append_inj' heq rfl
      cases h₂
      exact h₁ ▸ hevent
    · have hsplit : trace ++ [event] = (before ++ e :: after') ++ [last] := by
        rw [heq, List.concat_eq_append, List.append_assoc, List.cons_append]
      exact htrace before e after' (List.append_inj' hsplit rfl).1

end ASNPrefixMap.Lib
