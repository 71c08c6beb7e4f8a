import ASNPrefixMap.Source.Reconnect

/-!
# Stops are heard

A call of `next_message` may loop for as long as the network fails, but each
turn of its loops asks once whether to stop. So from the moment the answer stays
yes, it returns: a bound above the number of questions left until then is never
used up (`nextMessage_returns`). Of the machine only the flag and the number of
its readings matter here (`Past`).

The answers to the shutdown request are taken to stay yes once they are
(`StopsAt`), as they do for the flags of `main`, which nothing clears. That a
network operation returns is part of the model, see
`ASNPrefixMap.Source.WebSocket`.
-/

namespace ASNPrefixMap.Source

open Lib

/-- The flag is this one, and has been read so many times or more. -/
structure Past (shutdown : Nat → Bool) (checks : Nat) (machine : Machine) : Prop where
  flag : machine.env.shutdown = shutdown
  read : checks ≤ machine.checks

variable {shutdown : Nat → Bool} {stop checks : Nat} {E : Exception → Machine → Prop}

theorem Past.weaken {machine : Machine} (h : Past shutdown (checks + 1) machine) :
    Past shutdown checks machine := ⟨h.flag, Nat.le_of_succ_le h.read⟩

/-- Only a reading of the flag counts. -/
theorem past_calm : Calm (Past shutdown checks) :=
  ⟨fun _ h => ⟨h.flag, h.read⟩, fun _ _ h => ⟨h.flag, h.read⟩⟩

/-- From `stop` on the flag is set. -/
def StopsAt (shutdown : Nat → Bool) (stop : Nat) : Prop := ∀ n, stop ≤ n → shutdown n = true

/-- A check reads the flag once. It answers no only if the stop is still to
come, and this is where the bound on the loops comes from. -/
theorem shutdownRequested_past (hstop : StopsAt shutdown stop) :
    Triple (Past shutdown checks) shutdownRequested
      (fun requested machine => (requested = false → checks < stop) ∧ Past shutdown (checks + 1) machine)
      E := by
  intro machine h
  refine ⟨fun hunset => ?_, h.flag, Nat.succ_le_succ h.read⟩
  have hflag : shutdown machine.checks = false := h.flag ▸ hunset
  by_contra hpast
  have hset := hstop machine.checks (Nat.le_trans (Nat.le_of_not_lt hpast) h.read)
  rw [hset] at hflag
  cases hflag

theorem shutdownRequested_keeps : Triple (Past shutdown checks) shutdownRequested
    (fun _ => Past shutdown checks) E :=
  fun _ h => ⟨h.flag, Nat.le_succ_of_le h.read⟩

theorem emit_past (event : Event) :
    Triple (Past shutdown checks) (emit event) (fun _ => Past shutdown checks) E :=
  Triple.modify fun _ h => ⟨h.flag, h.read⟩

/-- A network operation reads no flag, and it returns or throws: both leave the
number of readings as it was. -/
theorem operate_past (event : NetworkAnswer → Event) (what : NetworkAnswer → Bytes) :
    Triple (Past shutdown checks) (operate event what) (fun _ => Past shutdown checks)
      (fun _ => Past shutdown checks) := by
  intro machine h
  rw [operate_run]
  dsimp only
  cases (machine.env.network machine.operations).succeeds with
  | false => exact ⟨h.flag, h.read⟩
  | true => exact ⟨h.flag, h.read⟩

/-- A wait reads the flag before each chunk and once at its end; for the bound
it is enough that no reading is taken back. -/
theorem sleepWithStop_past (remaining : UInt64) :
    Triple (Past shutdown checks) (sleepWithStop remaining) (fun _ => Past shutdown checks) E := by
  induction remaining using sleepWithStop.induct with
  | case1 =>
    rw [sleepWithStop, dif_pos rfl]
    exact shutdownRequested_keeps.bind fun _ => Triple.pure fun _ h => h
  | case2 remaining hne ih =>
    rw [sleepWithStop, dif_neg hne]
    refine shutdownRequested_keeps.bind fun _ => Triple.ite (fun _ => ?_) fun _ => ?_
    · exact Triple.pure fun _ h => h
    · exact (emit_past _).bind fun _ => ih

/-- The wait before an attempt, with or without a delay, takes no reading
back. -/
theorem waitBeforeAttempt_past (delayBeforeAttempt : Bool) (attempt delayMs : UInt64) :
    Triple (Past shutdown checks) (waitBeforeAttempt delayBeforeAttempt attempt delayMs)
      (fun _ => Past shutdown checks) E := by
  unfold waitBeforeAttempt
  refine Triple.ite (fun _ => ?_) fun _ => ?_
  · exact (emit_past _).bind fun _ => sleepWithStop_past delayMs
  · exact Triple.pure fun _ h => h

/-- An attempt to connect reads no flag. -/
theorem tryConnect_past :
    Triple (Past shutdown checks) tryConnect (fun _ => Past shutdown checks) E := by
  have hcalm : Calm (Past shutdown checks) := past_calm
  unfold tryConnect
  refine Triple.attempt (Triple.bind (R := fun _ => Past shutdown checks) ?_ fun _ => ?_)
  · unfold connect
    refine Triple.get_bind_of_forall fun machine _ => (emit_past _).bind fun _ => ?_
    refine (operate_past _ _).bind fun _ => ?_
    refine Triple.bind (R := fun _ => Past shutdown checks) ?_ fun _ => ?_
    · exact (createStream_free hcalm.streamFree).conseq (fun _ h => h) (fun _ _ ⟨_, h, _⟩ => h)
        fun _ _ h => h
    exact (stream_free hcalm.streamFree).bind fun _ => (operate_past _ _).bind fun _ =>
      (operate_past _ _).bind fun _ => (operate_past _ _).bind fun _ =>
        (operate_past _ _).bind fun _ => modifySource_calm hcalm fun _ => by rfl
  · unfold sendSubscribe
    refine Triple.get_bind_of_forall fun machine _ => Triple.ite (fun _ => ?_) fun _ => ?_
    · exact Triple.throw fun _ h => h
    · exact (stream_free hcalm.streamFree).bind fun _ => operate_past _ _

/-- A read asks nobody but the network, so it may fail as often as it likes. -/
theorem readMessage_past :
    Triple (Past shutdown checks) readMessage (fun _ => Past shutdown checks)
      (fun _ => Past shutdown checks) := by
  have hcalm : Calm (Past shutdown checks) := past_calm
  unfold readMessage
  refine (modifySource_calm hcalm fun _ => by rfl).bind fun _ => ?_
  refine (stream_free hcalm.streamFree).bind fun _ => ?_
  refine Triple.get_bind_of_forall fun machine _ => ?_
  exact (modifySource_calm hcalm fun _ => by rfl).bind fun _ => operate_past _ _

/-! ## The loops -/

/-- A call that has returned has not used up its bound. -/
theorem returned_ne_running {α : Type} (result : α) : Progress.returned result ≠ .running := nofun

/-- What a loop leaves whose bound is not used up. -/
def Returned {α : Type} (shutdown : Nat → Bool) (checks : Nat) (result : Progress α)
    (machine : Machine) : Prop :=
  result ≠ .running ∧ Past shutdown checks machine

/-- The retry loop returns before its bound is used up, by induction on the
bound: each turn asks once whether to stop, so at most as many turns are left as
there are questions before the stop. -/
theorem backoffLoop_returns (hstop : StopsAt shutdown stop) : ∀ (fuel checks : Nat)
    (attempts delayMs : UInt64) (delayBeforeAttempt : Bool), stop - checks < fuel →
    Triple (Past shutdown checks) (backoffLoop fuel attempts delayMs delayBeforeAttempt)
      (Returned shutdown checks) E := by
  intro fuel
  induction fuel with
  | zero => exact fun checks _ _ _ h => absurd h (Nat.not_lt_zero _)
  | succ fuel ih =>
    intro checks attempts delayMs delayBeforeAttempt hfuel
    have hcalm : Calm (Past shutdown (checks + 1)) := past_calm
    have hdone : ∀ (connected : Bool) (machine : Machine), Past shutdown (checks + 1) machine →
        Returned shutdown checks (.returned connected) machine := fun _ _ h => ⟨returned_ne_running _, h.weaken⟩
    unfold backoffLoop
    refine (shutdownRequested_past hstop).bind fun requested => Triple.of_and fun hgoing => ?_
    refine Triple.ite (fun _ => Triple.pure (hdone _)) fun hunset => ?_
    -- this question was one of those before the stop
    have hbefore : checks < stop := hgoing (Bool.not_eq_true _ ▸ hunset)
    refine (waitBeforeAttempt_past _ _ _).bind fun _ => Triple.ite (fun _ => ?_) fun _ => ?_
    · exact Triple.pure (hdone _)
    refine tryConnect_past.bind fun failure => ?_
    cases failure with
    | none => exact (modifySource_calm hcalm fun _ => by rfl).bind fun _ => Triple.pure (hdone _)
    | some e =>
      refine (resetConnection_calm hcalm).bind fun _ => Triple.get_bind_of_forall fun machine _ =>
        Triple.ite (fun _ => Triple.pure (hdone _)) fun _ => ?_
      refine (modifySource_calm hcalm fun _ => by rfl).bind fun _ => ?_
      exact (ih (checks + 1) _ _ _ (by omega)).conseq (fun _ h => h) (fun _ _ h => ⟨h.1, h.2.weaken⟩)
        fun _ _ h => h

/-- `ensure_connected` returns, at once without reconnect, through the retry
loop with it. -/
theorem ensureConnected_returns (hstop : StopsAt shutdown stop) {fuel : Nat}
    (hfuel : stop - checks < fuel) :
    Triple (Past shutdown checks) (ensureConnected fuel) (Returned shutdown checks) E := by
  have hcalm : Calm (Past shutdown checks) := past_calm
  have hdone : ∀ (connected : Bool) (machine : Machine), Past shutdown checks machine →
      Returned shutdown checks (.returned connected) machine := fun _ _ h => ⟨returned_ne_running _, h⟩
  unfold ensureConnected
  refine Triple.get_bind_of_forall fun machine _ =>
    Triple.ite (fun _ => Triple.pure (hdone _)) fun _ => ?_
  refine shutdownRequested_keeps.bind fun _ => Triple.ite (fun _ => Triple.pure (hdone _)) fun _ => ?_
  refine Triple.ite (fun _ => ?_) fun _ => ?_
  · refine tryConnect_past.bind fun failure => ?_
    cases failure with
    | none => exact (modifySource_calm hcalm fun _ => by rfl).bind fun _ => Triple.pure (hdone _)
    | some e => exact (resetConnection_calm hcalm).bind fun _ => Triple.pure (hdone _)
  · unfold reconnectWithBackoff
    exact Triple.get_bind_of_forall fun machine _ => backoffLoop_returns hstop _ _ _ _ _ hfuel

/-- **A call returns once a stop is asked for**, if not before, whatever the
network does. -/
theorem nextMessage_returns (hstop : StopsAt shutdown stop) : ∀ (fuel checks : Nat),
    stop - checks < fuel →
    Triple (Past shutdown checks) (nextMessage fuel) (Returned shutdown checks) E := by
  intro fuel
  induction fuel with
  | zero => exact fun checks h => absurd h (Nat.not_lt_zero _)
  | succ fuel ih =>
    intro checks hfuel
    have hcalm : Calm (Past shutdown (checks + 1)) := past_calm
    have hdone : ∀ (json : Option Bytes) (machine : Machine), Past shutdown (checks + 1) machine →
        Returned shutdown checks (.returned json) machine := fun _ _ h => ⟨returned_ne_running _, h.weaken⟩
    unfold nextMessage
    refine (shutdownRequested_past hstop).bind fun requested => Triple.of_and fun hgoing => ?_
    refine Triple.ite (fun _ => Triple.pure (hdone _)) fun hunset => ?_
    have hbefore : checks < stop := hgoing (Bool.not_eq_true _ ▸ hunset)
    have hleft : stop - (checks + 1) < fuel := by omega
    refine (ensureConnected_returns hstop hleft).bind fun result => Triple.of_and fun hended => ?_
    cases result with
    | running => exact absurd rfl hended
    | returned connected =>
      cases connected with
      | false => exact Triple.pure (hdone _)
      | true =>
        refine (Triple.attempt (Q := fun _ => Past shutdown (checks + 1)) readMessage_past).bind
          fun failure => ?_
        cases failure with
        | none => exact Triple.get_bind_of_forall fun machine _ => Triple.pure (hdone _)
        | some e =>
          refine (resetConnection_calm hcalm).bind fun _ => ?_
          exact (ih (checks + 1) hleft).conseq (fun _ h => h) (fun _ _ h => ⟨h.1, h.2.weaken⟩)
            fun _ _ h => h

end ASNPrefixMap.Source
