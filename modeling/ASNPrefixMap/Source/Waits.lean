import ASNPrefixMap.Lib.Trace
import ASNPrefixMap.Source.WebSocket

/-!
# The waits between two successes

The log lines of `reconnect_with_backoff` and the sleeps between them tell how
long each connect attempt was waited for. `period` reads this off a trace: the
waits since the latest success, the attempt made last, and the wait that is
going on. `schedule` is the backoff as it is configured, in unbounded
arithmetic. The code keeps one delay, and `nextDelay` is what it holds after an
attempt. `onSchedule_iff` compares the two: a trace whose waits are those of the
code follows the schedule exactly as long as no failed attempt leaves a delay
off it behind (`LeavesNext`).

The trace is the only witness here: nothing in it tells what the code keeps in
its variables, so the two readings are independent of each other. `schedule` is
in natural numbers, without the wrap-around of `std::size_t`.
-/

namespace ASNPrefixMap.Source

open Lib

/-! ## Reading a trace -/

/-- The attempt made last since the latest success: none, one without a wait
before it, or one with its number within the call and how long was slept for
it. -/
inductive Attempt
  | none
  | unwaited
  | waited (number : UInt64) (sleptMs : Nat)
  deriving DecidableEq

/-- The waits since the latest success, as a reader of the trace would keep
them. -/
structure Period where
  /-- The waits that led to an attempt. -/
  waits : Nat := 0
  last : Attempt := .none
  /-- The wait for the next attempt: its number and what has been slept. -/
  pending : Option (UInt64 × Nat) := none
  deriving DecidableEq

/-- An attempt begins, with the wait for it if there was one. -/
def Period.connect (p : Period) : Period :=
  match p.pending with
  | none => { p with last := .unwaited }
  | some (number, sleptMs) => { waits := p.waits + 1, last := .waited number sleptMs }

/-- A chunk of the wait that is going on. -/
def Period.sleep (p : Period) (chunkMs : UInt64) : Period :=
  { p with pending := p.pending.map fun wait => (wait.1, wait.2 + chunkMs.toNat) }

/-- What an event makes of the period. A success starts a new one. -/
def Period.step (p : Period) : Event → Period
  | .announceWait number _ => { p with pending := some (number, 0) }
  | .sleep chunkMs => p.sleep chunkMs
  | .connect _ _ _ => p.connect
  -- a subscription that was written is a success, after which all starts again
  | .write _ _ true => {}
  | _ => p

/-- The period at the end of a trace. -/
def period (trace : List Event) : Period := trace.foldl Period.step {}

theorem period_append (trace events : List Event) :
    period (trace ++ events) = events.foldl Period.step (period trace) :=
  List.foldl_append

/-- The period one event later: what a run lemma about waits is carried by. -/
theorem period_concat (trace : List Event) (event : Event) :
    period (trace ++ [event]) = (period trace).step event :=
  period_append trace [event]

/-- The events that tell nothing about the waits. -/
def Event.quiet : Event → Bool
  | .announceWait _ _ => false
  | .sleep _ => false
  | .connect _ _ _ => false
  | .write _ _ succeeded => !succeeded
  | _ => true

theorem Period.step_quiet {event : Event} (h : event.quiet = true) (p : Period) :
    p.step event = p := by
  cases event with
  | announceWait => cases h
  | sleep => cases h
  | connect => cases h
  | write stream request succeeded =>
    cases succeeded with
    | false => rfl
    | true => cases h
  | _ => rfl

/-! ## The schedule -/

section Schedule

variable (initialMs maxMs maxAttempts : UInt64)

/-- The wait number `k`, counted from 0. -/
def schedule (k : Nat) : Nat :=
  min (initialMs.toNat * 2 ^ k) (max initialMs.toNat maxMs.toNat)

/-- An attempt that was waited for was waited for as long as the schedule
says. -/
def OnSchedule (past : List Event) : Event → Prop
  | .connect _ _ _ => ∀ number sleptMs, (period past).pending = some (number, sleptMs) →
      sleptMs = schedule initialMs maxMs (period past).waits
  | _ => True

/-- The first wait is the initial delay, even if it is more than the largest. -/
theorem schedule_zero : schedule initialMs maxMs 0 = initialMs.toNat := by
  unfold schedule
  omega

/-- The waits of the schedule never decrease. -/
theorem schedule_mono {j k : Nat} (h : j ≤ k) :
    schedule initialMs maxMs j ≤ schedule initialMs maxMs k := by
  unfold schedule
  have hpow : 2 ^ j ≤ 2 ^ k := Nat.pow_le_pow_right (by omega) h
  have hmul : initialMs.toNat * 2 ^ j ≤ initialMs.toNat * 2 ^ k := Nat.mul_le_mul_left _ hpow
  omega

/-- No wait is longer than the two delays that are configured, whichever is the
larger. -/
theorem schedule_le (k : Nat) : schedule initialMs maxMs k ≤ max initialMs.toNat maxMs.toNat :=
  Nat.min_le_right _ _

/-! ## What the code waits -/

/-- The test after which the loop gives up. -/
def GivesUp (number : UInt64) : Prop := maxAttempts ≠ 0 ∧ number ≥ maxAttempts

instance (number : UInt64) : Decidable (GivesUp maxAttempts number) :=
  inferInstanceAs (Decidable (_ ∧ _))

/-- What a failed attempt makes of the delay: nothing when the loop gives up,
and else its double in 64 bits under the cap. -/
def afterFailure (number : UInt64) (delayMs : Nat) : Nat :=
  if GivesUp maxAttempts number then delayMs
  else min (delayMs * 2 % 2 ^ 64) (max initialMs.toNat maxMs.toNat)

/-- The delay the code holds after its last attempt. -/
def nextDelay : Attempt → Nat
  | .none => initialMs.toNat
  | .unwaited => afterFailure initialMs maxMs maxAttempts 1 initialMs.toNat
  | .waited number sleptMs => afterFailure initialMs maxMs maxAttempts number sleptMs

/-- The waits are those of the code, and only the first attempt goes without
one. -/
def Exact (past : List Event) : Event → Prop
  | .connect _ _ _ =>
    match (period past).pending with
    | none => (period past).last = .none
    | some (_, sleptMs) => sleptMs = nextDelay initialMs maxMs maxAttempts (period past).last
  | _ => True

/-- The last attempt leaves the delay behind that the schedule has next. An
attempt that was not waited for has to leave the delay alone: by giving up, or
because doubling it under the cap changes nothing. A wait has to be doubled: it
is short enough for 64 bits, or the loop gives up and there is nothing to
double. -/
def LeavesNext (p : Period) : Prop :=
  match p.last with
  | .none => True
  | .unwaited =>
    GivesUp maxAttempts 1 ∨ initialMs = 0 ∨ (maxMs ≤ initialMs ∧ initialMs.toNat < 2 ^ 63)
  | .waited number _ =>
    if GivesUp maxAttempts number then
      initialMs = 0 ∨ max initialMs.toNat maxMs.toNat ≤ initialMs.toNat * 2 ^ (p.waits - 1)
    else
      schedule initialMs maxMs (p.waits - 1) < 2 ^ 63

/-- An attempt that is waited for comes after one that leaves the right delay
behind. -/
def KeepsSchedule (past : List Event) : Event → Prop
  | .connect _ _ _ => (period past).pending.isSome = true →
      LeavesNext initialMs maxMs maxAttempts (period past)
  | _ => True

end Schedule

section Compare

variable {initialMs maxMs maxAttempts : UInt64}

theorem toNat_eq_zero_iff {a : UInt64} : a.toNat = 0 ↔ a = 0 :=
  ⟨fun h => UInt64.toNat_inj.mp h, fun h => by rw [h]; rfl⟩

/-- Without a wait before it, a failed attempt must not change the delay. -/
theorem afterFailure_unwaited :
    afterFailure initialMs maxMs maxAttempts 1 initialMs.toNat = schedule initialMs maxMs 0 ↔
      GivesUp maxAttempts 1 ∨ initialMs = 0 ∨ (maxMs ≤ initialMs ∧ initialMs.toNat < 2 ^ 63) := by
  rw [schedule_zero]
  unfold afterFailure
  by_cases hup : GivesUp maxAttempts 1
  · rw [if_pos hup]
    exact ⟨fun _ => Or.inl hup, fun _ => rfl⟩
  · rw [if_neg hup, ← toNat_eq_zero_iff, UInt64.le_iff_toNat_le]
    have hlt := initialMs.toNat_lt
    constructor
    · intro h
      refine Or.inr ?_
      omega
    · intro h
      have h' := h.resolve_left hup
      omega

/-- After the wait number `k`, it must double it. -/
theorem afterFailure_waited (number : UInt64) (k : Nat) :
    afterFailure initialMs maxMs maxAttempts number (schedule initialMs maxMs k) =
        schedule initialMs maxMs (k + 1) ↔
      if GivesUp maxAttempts number then
        initialMs = 0 ∨ max initialMs.toNat maxMs.toNat ≤ initialMs.toNat * 2 ^ k
      else
        schedule initialMs maxMs k < 2 ^ 63 := by
  have hlt := initialMs.toNat_lt
  have hmax := maxMs.toNat_lt
  have hdouble : initialMs.toNat * 2 ^ (k + 1) = 2 * (initialMs.toNat * 2 ^ k) := by
    rw [Nat.pow_succ, Nat.mul_comm 2, Nat.mul_assoc]
  have hle : initialMs.toNat ≤ initialMs.toNat * 2 ^ k := Nat.le_mul_of_pos_right _ (Nat.two_pow_pos k)
  unfold afterFailure
  by_cases hup : GivesUp maxAttempts number
  · rw [if_pos hup, if_pos hup, ← toNat_eq_zero_iff]
    unfold schedule
    rw [hdouble]
    have hzero : initialMs.toNat = 0 → initialMs.toNat * 2 ^ k = 0 := by
      intro h
      rw [h, Nat.zero_mul]
    omega
  · rw [if_neg hup, if_neg hup]
    unfold schedule
    rw [hdouble]
    omega

/-- As long as the schedule is kept, the last attempt is as the number of waits
says. -/
def Period.Kept (initialMs maxMs : UInt64) (p : Period) : Prop :=
  match p.last with
  | .waited _ sleptMs => ∃ k, p.waits = k + 1 ∧ sleptMs = schedule initialMs maxMs k
  | _ => p.waits = 0

/-- One wait is on the schedule if the attempt before it leaves the right
delay. -/
theorem leavesNext_iff {p : Period} (hkept : p.Kept initialMs maxMs) :
    nextDelay initialMs maxMs maxAttempts p.last = schedule initialMs maxMs p.waits ↔
      LeavesNext initialMs maxMs maxAttempts p := by
  unfold Period.Kept at hkept
  unfold LeavesNext
  cases hlast : p.last with
  | none =>
    rw [hlast] at hkept
    rw [hkept, schedule_zero]
    exact ⟨fun _ => trivial, fun _ => rfl⟩
  | unwaited =>
    rw [hlast] at hkept
    rw [hkept]
    exact afterFailure_unwaited
  | waited number sleptMs =>
    rw [hlast] at hkept
    obtain ⟨k, hwaits, hslept⟩ := hkept
    rw [hwaits, hslept, Nat.add_sub_cancel]
    exact afterFailure_waited number k

/-- As long as the delay that is kept is the one on the schedule, an event is on
it exactly if it leaves no other behind. -/
theorem onSchedule_step {past : List Event} {event : Event}
    (hexact : Exact initialMs maxMs maxAttempts past event)
    (hkept : (period past).Kept initialMs maxMs) :
    OnSchedule initialMs maxMs past event ↔
      KeepsSchedule initialMs maxMs maxAttempts past event := by
  cases event with
  | connect =>
    unfold Exact at hexact
    unfold OnSchedule KeepsSchedule
    rw [← leavesNext_iff hkept]
    cases hpending : (period past).pending with
    | none => simp
    | some wait =>
      obtain ⟨number, sleptMs⟩ := wait
      rw [hpending] at hexact
      rw [← hexact]
      constructor
      · intro h _
        exact h number sleptMs rfl
      · intro h number' sleptMs' hsome
        cases hsome
        exact h rfl
  | _ => exact Iff.rfl

theorem kept_step {past : List Event} {event : Event}
    (hexact : Exact initialMs maxMs maxAttempts past event)
    (hkept : (period past).Kept initialMs maxMs) (hon : OnSchedule initialMs maxMs past event) :
    (period (past ++ [event])).Kept initialMs maxMs := by
  rw [period_concat]
  cases event with
  | connect =>
    unfold Exact at hexact
    unfold OnSchedule at hon
    show (period past).connect.Kept initialMs maxMs
    unfold Period.connect
    cases hpending : (period past).pending with
    | none =>
      -- only the first attempt of a period is not waited for
      rw [hpending] at hexact
      unfold Period.Kept at hkept
      rw [hexact] at hkept
      exact hkept
    | some wait => exact ⟨_, rfl, hon wait.1 wait.2 hpending⟩
  | write stream request succeeded =>
    cases succeeded with
    | false => exact hkept
    | true => exact rfl
  | _ => exact hkept

/-- A trace with the waits of the code follows the schedule if and only if no
attempt that is waited for comes after one that leaves another delay behind. -/
theorem onSchedule_iff {trace : List Event} :
    EveryEvent (Exact initialMs maxMs maxAttempts) trace →
      (EveryEvent (OnSchedule initialMs maxMs) trace ↔
        EveryEvent (KeepsSchedule initialMs maxMs maxAttempts) trace) ∧
      (EveryEvent (OnSchedule initialMs maxMs) trace → (period trace).Kept initialMs maxMs) := by
  induction trace using List.reverseRecOn with
  | nil =>
    intro _
    exact ⟨⟨fun _ => everyEvent_nil _, fun _ => everyEvent_nil _⟩, fun _ => rfl⟩
  | append_singleton past event ih =>
    rw [everyEvent_concat, everyEvent_concat, everyEvent_concat]
    intro ⟨hexact, hevent⟩
    obtain ⟨hiff, hkept⟩ := ih hexact
    refine ⟨?_, fun ⟨hpast, hon⟩ => kept_step hevent (hkept hpast) hon⟩
    constructor
    · intro ⟨hpast, hon⟩
      exact ⟨hiff.mp hpast, (onSchedule_step hevent (hkept hpast)).mp hon⟩
    · intro ⟨hpast, hkeeps⟩
      have hpast' := hiff.mpr hpast
      exact ⟨hpast', (onSchedule_step hevent (hkept hpast')).mpr hkeeps⟩

end Compare

end ASNPrefixMap.Source
