import ASNPrefixMap.Source.Reconnect
import ASNPrefixMap.Source.Waits

/-!
# When backoff follows its schedule

The delay of the next wait is a member of the source, and
`reconnect_with_backoff` works on a copy of it. `Holds` carries what the two and
the trace have to do with each other through a run; its phases are named after
the places in the loop (`Between` calls, `Looping` at its head, `Sleeping`,
`Ready` for an attempt, `Tried` after it). What comes out is that each wait is
the one `nextDelay` names, and `backoff_on_schedule_iff` says what that means
for the configured schedule.

The proof for the schedule itself is in `ASNPrefixMap.Source.Waits` and knows
nothing of the code. Here each lemma says what a function of the source makes of
the phase, and a run is the induction over calls in `nextMessages_holds`. The
last section is a source that waits twice its first delay before the first
reconnect.
-/

namespace ASNPrefixMap.Source

open Lib

/-- The settings of a source that reconnects. -/
structure Configured (initialMs maxMs maxAttempts : UInt64) (source : RisLiveWebSocketSource) :
    Prop where
  enabled : source.reconnectEnabled = true
  initial : source.reconnectInitialDelayMs = initialMs
  cap : source.reconnectMaxDelayMs = max initialMs maxMs
  attempts : source.reconnectMaxAttempts = maxAttempts

/-- A phase relates the delay the source holds, its flag and the waits so
far. -/
abbrev Phase := UInt64 → Bool → Period → Prop

/-- The invariant: what the source keeps, what the trace says, and the phase
that ties them together. The three settings of the backoff never change. -/
structure Holds (initialMs maxMs maxAttempts : UInt64) (phase : Phase) (machine : Machine) :
    Prop where
  configured : Configured initialMs maxMs maxAttempts machine.source
  exact : EveryEvent (Exact initialMs maxMs maxAttempts) machine.trace
  phase : phase machine.source.nextReconnectDelayMs machine.source.delayBeforeReconnect
    (period machine.trace)

section Phases

variable (initialMs maxMs maxAttempts : UInt64)

/-- Between two calls, and wherever no wait is going on. -/
def Between : Phase := fun nextMs before p =>
  nextMs.toNat = nextDelay initialMs maxMs maxAttempts p.last ∧
    (before = true ∨ (p.last = .none ∧ p.pending = none))

/-- At the head of the loop, with its three local variables. -/
def Looping (attempts delayMs : UInt64) (delayBeforeAttempt : Bool) : Phase := fun nextMs before p =>
  nextMs = delayMs ∧ before = delayBeforeAttempt ∧
    delayMs.toNat = nextDelay initialMs maxMs maxAttempts p.last ∧
    (before = true ∨ (attempts = 0 ∧ p.last = .none ∧ p.pending = none))

/-- In the wait for an attempt. -/
def Sleeping (number delayMs remaining : UInt64) : Phase := fun nextMs before p =>
  nextMs = delayMs ∧ before = true ∧
    delayMs.toNat = nextDelay initialMs maxMs maxAttempts p.last ∧
    ∃ sleptMs, p.pending = some (number, sleptMs) ∧ sleptMs + remaining.toNat = delayMs.toNat

/-- An attempt is next, the first one of all without a wait. -/
def Ready (number delayMs : UInt64) : Phase := fun nextMs _ p =>
  nextMs = delayMs ∧ delayMs.toNat = nextDelay initialMs maxMs maxAttempts p.last ∧
    (p.pending = some (number, delayMs.toNat) ∨
      (number = 1 ∧ p.last = .none ∧ p.pending = none))

/-- An attempt has begun and not succeeded. -/
def Tried (number delayMs : UInt64) : Phase := fun nextMs _ p =>
  nextMs = delayMs ∧ p.pending = none ∧
    nextDelay initialMs maxMs maxAttempts p.last =
      afterFailure initialMs maxMs maxAttempts number delayMs.toNat

end Phases

/-- The subscription has just been written. -/
def Succeeded : Phase := fun _ _ p => p = {}

section Steps

variable {initialMs maxMs maxAttempts : UInt64} {phase phase' : Phase}
  {E : Exception → Machine → Prop}

/-- One event, with the source as it was. -/
theorem Holds.after {machine machine' : Machine} {event : Event}
    (h : Holds initialMs maxMs maxAttempts phase machine) (ha : After machine machine' event)
    (hexact : Exact initialMs maxMs maxAttempts machine.trace event)
    (hphase : ∀ nextMs before, phase nextMs before (period machine.trace) →
      phase' nextMs before ((period machine.trace).step event)) :
    Holds initialMs maxMs maxAttempts phase' machine' := by
  refine ⟨?_, ?_, ?_⟩
  · rw [ha.source]
    exact h.configured
  · rw [ha.trace, everyEvent_concat]
    exact ⟨h.exact, hexact⟩
  · rw [ha.trace, ha.source, period_concat]
    exact hphase _ _ h.phase

theorem exact_of_not_connect {past : List Event} {event : Event} (h : isConnect event = false) :
    Exact initialMs maxMs maxAttempts past event := by
  cases event with
  | connect => cases h
  | _ => trivial

theorem Event.not_connect_of_quiet {event : Event} (h : event.quiet = true) :
    isConnect event = false := by
  cases event with
  | connect => cases h
  | _ => rfl

/-- A quiet event changes nothing of the period, and the phase stays. -/
theorem Holds.quiet {machine machine' : Machine} {event : Event}
    (h : Holds initialMs maxMs maxAttempts phase machine) (ha : After machine machine' event)
    (hquiet : event.quiet = true) : Holds initialMs maxMs maxAttempts phase machine' := by
  refine h.after ha (exact_of_not_connect (Event.not_connect_of_quiet hquiet)) fun _ _ hp => ?_
  rw [Period.step_quiet hquiet]
  exact hp

/-- A change of the source between two events that keeps the settings. -/
theorem modifySource_holds {f : RisLiveWebSocketSource → RisLiveWebSocketSource}
    (hf : ∀ source, f source =
      { source with
        nextReconnectDelayMs := (f source).nextReconnectDelayMs
        delayBeforeReconnect := (f source).delayBeforeReconnect
        websocket := (f source).websocket
        buffer := (f source).buffer
        connected := (f source).connected })
    (hphase : ∀ source p, Configured initialMs maxMs maxAttempts source →
      phase source.nextReconnectDelayMs source.delayBeforeReconnect p →
        phase' (f source).nextReconnectDelayMs (f source).delayBeforeReconnect p) :
    Triple (Holds initialMs maxMs maxAttempts phase) (modifySource f)
      (fun _ => Holds initialMs maxMs maxAttempts phase') E := by
  refine Triple.modify fun machine h => ⟨?_, h.exact, hphase _ _ h.configured h.phase⟩
  show Configured initialMs maxMs maxAttempts (f machine.source)
  rw [hf]
  exact ⟨h.configured.enabled, h.configured.initial, h.configured.cap, h.configured.attempts⟩

/-- A change that has nothing to do with the delays either. -/
theorem modifySource_same {f : RisLiveWebSocketSource → RisLiveWebSocketSource}
    (hf : ∀ source, f source =
      { source with
        websocket := (f source).websocket
        buffer := (f source).buffer
        connected := (f source).connected }) :
    Triple (Holds initialMs maxMs maxAttempts phase) (modifySource f)
      (fun _ => Holds initialMs maxMs maxAttempts phase) E := by
  have hnext : ∀ source, (f source).nextReconnectDelayMs = source.nextReconnectDelayMs :=
    fun source => by rw [hf]
  have hbefore : ∀ source, (f source).delayBeforeReconnect = source.delayBeforeReconnect :=
    fun source => by rw [hf]
  refine modifySource_holds (fun source => ?_) fun source p _ hp => ?_
  · rw [hnext, hbefore]
    exact hf source
  · rw [hnext, hbefore]
    exact hp

/-- An event that is no connect moves the phase as it moves the period. -/
theorem emit_holds {event : Event} (hconnect : isConnect event = false)
    (hphase : ∀ nextMs before p, phase nextMs before p → phase' nextMs before (p.step event)) :
    Triple (Holds initialMs maxMs maxAttempts phase) (emit event)
      (fun _ => Holds initialMs maxMs maxAttempts phase') E :=
  Triple.modify fun _ h =>
    h.after ⟨rfl, rfl, rfl⟩ (exact_of_not_connect hconnect) fun _ _ hp => hphase _ _ _ hp

theorem shutdownRequested_holds :
    Triple (Holds initialMs maxMs maxAttempts phase) shutdownRequested
      (fun _ => Holds initialMs maxMs maxAttempts phase) E := by
  intro machine h
  have ha : After machine (machine.emit (.shutdownCheck (machine.env.shutdown machine.checks)))
      (.shutdownCheck (machine.env.shutdown machine.checks)) := ⟨rfl, rfl, rfl⟩
  have hafter := h.quiet ha rfl
  exact ⟨hafter.configured, hafter.exact, hafter.phase⟩

/-- A network operation with a quiet event keeps any phase, whether or not it
succeeds. -/
theorem operate_same {event : NetworkAnswer → Event} {what : NetworkAnswer → Bytes}
    (hquiet : ∀ answer, (event answer).quiet = true) :
    Triple (Holds initialMs maxMs maxAttempts phase) (operate event what)
      (fun _ => Holds initialMs maxMs maxAttempts phase)
      (fun _ => Holds initialMs maxMs maxAttempts phase) :=
  operate_triple (fun _ _ answer _ ha h => h.quiet ha (hquiet answer))
    fun _ _ answer _ _ ha h => h.quiet ha (hquiet answer)

theorem holds_streamFree : StreamFree (Holds initialMs maxMs maxAttempts phase) := by
  refine ⟨fun _ _ h => ⟨⟨h.configured.enabled, h.configured.initial, h.configured.cap,
    h.configured.attempts⟩, h.exact, h.phase⟩, fun {machine event} hevent h => ?_⟩
  have ha : After machine (machine.emit event) event := ⟨rfl, rfl, rfl⟩
  refine h.quiet ha ?_
  cases event with
  | create => rfl
  | release => rfl
  | nullDereference => rfl
  | _ => cases hevent

/-- The flag is set, whatever it was. -/
theorem resetConnection_holds
    (hphase : ∀ nextMs before p, phase nextMs before p → phase' nextMs true p) :
    Triple (Holds initialMs maxMs maxAttempts phase) resetConnection
      (fun _ => Holds initialMs maxMs maxAttempts phase') E := by
  unfold resetConnection
  refine Triple.bind (R := fun _ => Holds initialMs maxMs maxAttempts phase')
    (modifySource_holds (fun _ => rfl) fun _ _ _ hp => hphase _ _ _ hp) fun _ => ?_
  exact (releaseStream_free holds_streamFree).bind fun _ => modifySource_same fun _ => rfl

end Steps

/-! ## One attempt -/

section Attempt

variable {initialMs maxMs maxAttempts number delayMs : UInt64} {E : Exception → Machine → Prop}

/-- The wait of a connect is the one the code has announced. -/
theorem Ready.connect {nextMs : UInt64} {before : Bool} {past : List Event}
    (h : Ready initialMs maxMs maxAttempts number delayMs nextMs before (period past))
    (host port target : Bytes) :
    Exact initialMs maxMs maxAttempts past (.connect host port target) ∧
      Tried initialMs maxMs maxAttempts number delayMs nextMs before (period past).connect := by
  obtain ⟨hnext, hdelay, hpending | ⟨hnumber, hlast, hpending⟩⟩ := h
  · unfold Exact Tried Period.connect
    rw [hpending]
    exact ⟨hdelay, hnext, rfl, rfl⟩
  · unfold Exact Tried Period.connect
    rw [hpending]
    refine ⟨hlast, hnext, rfl, ?_⟩
    rw [hlast] at hdelay
    rw [hnumber, hdelay]
    rfl

/-- A connect is made when the wait is over, and an attempt has been tried from
then on, whatever becomes of it. -/
theorem connect_holds :
    Triple (Holds initialMs maxMs maxAttempts (Ready initialMs maxMs maxAttempts number delayMs))
      connect
      (fun _ =>
        Holds initialMs maxMs maxAttempts (Tried initialMs maxMs maxAttempts number delayMs))
      fun _ =>
        Holds initialMs maxMs maxAttempts (Tried initialMs maxMs maxAttempts number delayMs) := by
  unfold connect
  refine Triple.get_bind_of_forall fun machine _ => ?_
  refine Triple.bind (R := fun _ =>
    Holds initialMs maxMs maxAttempts (Tried initialMs maxMs maxAttempts number delayMs))
    (Triple.modify fun m h => ?_) fun _ => ?_
  · exact h.after ⟨rfl, rfl, rfl⟩ (h.phase.connect _ _ _).1 fun _ _ hp => (hp.connect [] [] []).2
  -- what follows in `connect` asks for nothing but an answer
  refine (operate_same fun _ => by rfl).bind fun _ => ?_
  refine Triple.bind (R := fun _ =>
    Holds initialMs maxMs maxAttempts (Tried initialMs maxMs maxAttempts number delayMs)) ?_ fun _ => ?_
  · exact (createStream_free holds_streamFree).conseq (fun _ h => h) (fun _ _ ⟨_, h, _⟩ => h)
      fun _ _ h => h
  refine (stream_free holds_streamFree).bind fun ws => ?_
  exact (operate_same fun _ => by rfl).bind fun _ => (operate_same fun _ => by rfl).bind fun _ =>
    (operate_same fun _ => by rfl).bind fun _ => (operate_same fun _ => by rfl).bind fun _ =>
      modifySource_same fun _ => rfl

theorem sendSubscribe_holds {phase : Phase} :
    Triple (Holds initialMs maxMs maxAttempts phase) sendSubscribe
      (fun _ => Holds initialMs maxMs maxAttempts Succeeded)
      (fun _ => Holds initialMs maxMs maxAttempts phase) := by
  unfold sendSubscribe
  refine Triple.get_bind_of_forall fun machine _ => Triple.ite (fun _ => ?_) fun _ => ?_
  · exact Triple.throw fun _ h => h
  · refine (stream_free holds_streamFree).bind fun ws => operate_triple ?_ ?_
    · intro m m' answer hsucceeds ha h
      refine h.after ha trivial fun _ _ _ => ?_
      rw [hsucceeds]
      rfl
    · intro m m' answer _ hfails ha h
      refine h.quiet ha ?_
      rw [hfails]
      rfl

theorem tryConnect_holds :
    Triple (Holds initialMs maxMs maxAttempts (Ready initialMs maxMs maxAttempts number delayMs))
      tryConnect
      (fun failure =>
        match failure with
        | none => Holds initialMs maxMs maxAttempts Succeeded
        | some _ =>
          Holds initialMs maxMs maxAttempts (Tried initialMs maxMs maxAttempts number delayMs)) E := by
  unfold tryConnect
  exact Triple.attempt (connect_holds.bind fun _ => sendSubscribe_holds)

/-- After a success the delay is the initial one again. -/
theorem connected_holds {α : Type} (a : α) :
    Triple (Holds initialMs maxMs maxAttempts Succeeded)
      (do
        modifySource fun source =>
          { source with
            nextReconnectDelayMs := source.reconnectInitialDelayMs
            delayBeforeReconnect := false }
        return a)
      (fun _ => Holds initialMs maxMs maxAttempts (Between initialMs maxMs maxAttempts)) E := by
  refine Triple.bind (modifySource_holds (fun _ => rfl) fun source p hc hp => ?_)
    fun _ => Triple.pure fun _ h => h
  rw [hp]
  exact ⟨congrArg UInt64.toNat hc.initial, Or.inr ⟨rfl, rfl⟩⟩

end Attempt

/-! ## The wait -/

section Wait

variable {initialMs maxMs maxAttempts number delayMs : UInt64} {E : Exception → Machine → Prop}

/-- A wait that is broken off leaves the source as between calls; the delay is
still the one to come. -/
theorem Sleeping.between {remaining nextMs : UInt64} {before : Bool} {p : Period}
    (h : Sleeping initialMs maxMs maxAttempts number delayMs remaining nextMs before p) :
    Between initialMs maxMs maxAttempts nextMs before p := by
  obtain ⟨hnext, hbefore, hdelay, _⟩ := h
  rw [hnext]
  exact ⟨hdelay, Or.inl hbefore⟩

/-- A wait that is over has slept for the whole delay. -/
theorem Sleeping.ready {nextMs : UInt64} {before : Bool} {p : Period}
    (h : Sleeping initialMs maxMs maxAttempts number delayMs 0 nextMs before p) :
    Ready initialMs maxMs maxAttempts number delayMs nextMs before p := by
  obtain ⟨hnext, _, hdelay, sleptMs, hpending, hslept⟩ := h
  have hall : sleptMs = delayMs.toNat := hslept
  rw [hall] at hpending
  exact ⟨hnext, hdelay, Or.inl hpending⟩

theorem Sleeping.sleep {remaining nextMs : UInt64} {before : Bool} {p : Period}
    (h : Sleeping initialMs maxMs maxAttempts number delayMs remaining nextMs before p) :
    Sleeping initialMs maxMs maxAttempts number delayMs (remaining - min remaining 100) nextMs before
      (p.sleep (min remaining 100)) := by
  obtain ⟨hnext, hbefore, hdelay, sleptMs, hpending, hslept⟩ := h
  refine ⟨hnext, hbefore, hdelay, sleptMs + (min remaining 100).toNat, ?_, ?_⟩
  · unfold Period.sleep
    rw [hpending]
    rfl
  · rw [Nat.add_assoc, toNat_chunk_add]
    exact hslept

/-- A wait goes on to its end, unless a shutdown is requested. -/
theorem sleepWithStop_holds (remaining : UInt64) :
    Triple
      (Holds initialMs maxMs maxAttempts
        (Sleeping initialMs maxMs maxAttempts number delayMs remaining))
      (sleepWithStop remaining)
      (fun slept => Holds initialMs maxMs maxAttempts
        (if slept = true then Ready initialMs maxMs maxAttempts number delayMs
          else Between initialMs maxMs maxAttempts)) E := by
  induction remaining using sleepWithStop.induct with
  | case1 =>
    rw [sleepWithStop, dif_pos rfl]
    refine shutdownRequested_holds.bind fun requested => Triple.pure fun machine h => ?_
    cases requested with
    | false => exact ⟨h.configured, h.exact, h.phase.ready⟩
    | true => exact ⟨h.configured, h.exact, h.phase.between⟩
  | case2 remaining hne ih =>
    rw [sleepWithStop, dif_neg hne]
    refine shutdownRequested_holds.bind fun _ => Triple.ite (fun _ => ?_) fun _ => ?_
    · exact Triple.pure fun _ h => ⟨h.configured, h.exact, h.phase.between⟩
    · exact (emit_holds rfl fun _ _ _ hp => hp.sleep).bind fun _ => ih

/-- The wait before an attempt: complete, or broken off by a shutdown. -/
theorem waitBeforeAttempt_holds (attempts : UInt64) (delayBeforeAttempt : Bool) :
    Triple
      (Holds initialMs maxMs maxAttempts
        (Looping initialMs maxMs maxAttempts attempts delayMs delayBeforeAttempt))
      (waitBeforeAttempt delayBeforeAttempt (attempts + 1) delayMs)
      (fun slept => Holds initialMs maxMs maxAttempts
        (if slept = true then Ready initialMs maxMs maxAttempts (attempts + 1) delayMs
          else Between initialMs maxMs maxAttempts)) E := by
  unfold waitBeforeAttempt
  refine Triple.ite (fun hbefore => ?_) fun hno => ?_
  · refine (emit_holds rfl fun nextMs before p hp => ?_).bind fun _ => sleepWithStop_holds delayMs
    obtain ⟨hnext, hflag, hdelay, _⟩ := hp
    exact ⟨hnext, hflag.trans hbefore, hdelay, 0, rfl, Nat.zero_add _⟩
  · refine Triple.pure fun machine h => ⟨h.configured, h.exact, ?_⟩
    obtain ⟨hnext, hflag, hdelay, hfirst⟩ := h.phase
    -- without the flag this is the first attempt of the call and of the period
    obtain ⟨hattempts, hlast, hpending⟩ := hfirst.resolve_left fun e => hno (hflag.symm.trans e)
    rw [hattempts]
    exact ⟨hnext, hdelay, Or.inr ⟨rfl, hlast, hpending⟩⟩

end Wait

/-! ## The loops -/

section Loops

variable {initialMs maxMs maxAttempts : UInt64} {E : Exception → Machine → Prop}

/-- The last attempt allowed leaves the delay as it is. -/
theorem Tried.between {number delayMs nextMs : UInt64} {p : Period}
    (h : Tried initialMs maxMs maxAttempts number delayMs nextMs true p)
    (hup : GivesUp maxAttempts number) :
    Between initialMs maxMs maxAttempts nextMs true p := by
  obtain ⟨hnext, _, hdelay⟩ := h
  unfold afterFailure at hdelay
  rw [if_pos hup] at hdelay
  rw [hnext]
  exact ⟨hdelay.symm, Or.inl rfl⟩

/-- Any other doubles it. -/
theorem Tried.looping {number delayMs : UInt64} {nextMs : UInt64} {p : Period}
    (h : Tried initialMs maxMs maxAttempts number delayMs nextMs true p)
    (hup : ¬ GivesUp maxAttempts number) :
    Looping initialMs maxMs maxAttempts number (min (delayMs * 2) (max initialMs maxMs)) true
      (min (delayMs * 2) (max initialMs maxMs)) true p := by
  obtain ⟨_, _, hdelay⟩ := h
  unfold afterFailure at hdelay
  rw [if_neg hup] at hdelay
  refine ⟨rfl, rfl, ?_, Or.inl rfl⟩
  rw [hdelay, toNat_min, toNat_max, UInt64.toNat_mul]
  rfl

/-- The retry loop, by induction on its bound: each turn leaves the delay for
the next one behind. -/
theorem backoffLoop_holds : ∀ (fuel : Nat) (attempts delayMs : UInt64) (delayBeforeAttempt : Bool),
    Triple
      (Holds initialMs maxMs maxAttempts
        (Looping initialMs maxMs maxAttempts attempts delayMs delayBeforeAttempt))
      (backoffLoop fuel attempts delayMs delayBeforeAttempt)
      (fun _ => Holds initialMs maxMs maxAttempts (Between initialMs maxMs maxAttempts)) E := by
  have hleave : ∀ attempts delayMs delayBeforeAttempt machine,
      Holds initialMs maxMs maxAttempts
        (Looping initialMs maxMs maxAttempts attempts delayMs delayBeforeAttempt) machine →
      Holds initialMs maxMs maxAttempts (Between initialMs maxMs maxAttempts) machine := by
    intro attempts delayMs delayBeforeAttempt machine h
    obtain ⟨hnext, _, hdelay, hfirst⟩ := h.phase
    refine ⟨h.configured, h.exact, ?_, hfirst.imp_right fun hf => hf.2⟩
    rw [hnext]
    exact hdelay
  intro fuel
  induction fuel with
  | zero => exact fun _ _ _ => Triple.pure fun _ h => hleave _ _ _ _ h
  | succ fuel ih =>
    intro attempts delayMs delayBeforeAttempt
    unfold backoffLoop
    refine shutdownRequested_holds.bind fun _ => Triple.ite (fun _ => ?_) fun _ => ?_
    · exact Triple.pure fun _ h => hleave _ _ _ _ h
    refine (waitBeforeAttempt_holds attempts delayBeforeAttempt).bind fun slept => ?_
    cases slept with
    | false => exact Triple.pure fun _ h => h
    | true =>
      refine tryConnect_holds.bind fun failure => ?_
      cases failure with
      | none => exact connected_holds _
      | some e =>
        refine Triple.bind (R := fun _ => Holds initialMs maxMs maxAttempts fun nextMs before p =>
          before = true ∧ Tried initialMs maxMs maxAttempts (attempts + 1) delayMs nextMs before p)
          (resetConnection_holds fun _ _ _ hp => ⟨rfl, hp⟩) fun _ => ?_
        refine Triple.get_bind_of_forall fun machine hm => ?_
        dsimp only
        rw [hm.configured.attempts, hm.configured.cap]
        refine Triple.ite (fun hup => ?_) fun hup => ?_
        · refine Triple.pure fun m h => ⟨h.configured, h.exact, ?_⟩
          obtain ⟨hflag, htried⟩ := h.phase
          rw [hflag] at htried ⊢
          exact htried.between hup
        · refine Triple.bind (modifySource_holds (fun _ => rfl)
            fun source p _ hp => ?_) fun _ => ih _ _ _
          obtain ⟨hflag, htried⟩ := hp
          rw [hflag] at htried ⊢
          exact htried.looping hup

theorem ensureConnected_holds (fuel : Nat) :
    Triple (Holds initialMs maxMs maxAttempts (Between initialMs maxMs maxAttempts))
      (ensureConnected fuel)
      (fun _ => Holds initialMs maxMs maxAttempts (Between initialMs maxMs maxAttempts)) E := by
  unfold ensureConnected
  refine Triple.get_bind_of_forall fun machine hm => Triple.ite (fun _ => ?_) fun _ => ?_
  · exact Triple.pure fun _ h => h
  refine shutdownRequested_holds.bind fun _ => Triple.ite (fun _ => ?_) fun _ => ?_
  · exact Triple.pure fun _ h => h
  refine Triple.ite (fun hoff => ?_) fun _ => ?_
  · exact absurd (hoff.symm.trans hm.configured.enabled) (by simp)
  · -- the loop starts from what the last call has left in the source
    unfold reconnectWithBackoff
    refine Triple.get_bind fun m h => (backoffLoop_holds fuel 0 _ _).conseq (fun m' heq => ?_)
      (fun _ _ h => h) fun _ _ h => h
    rw [heq]
    obtain ⟨hdelay, hfirst⟩ := h.phase
    exact ⟨h.configured, h.exact, rfl, rfl, hdelay, hfirst.imp_right fun hf => ⟨rfl, hf⟩⟩

theorem readMessage_holds {phase : Phase} :
    Triple (Holds initialMs maxMs maxAttempts phase) readMessage
      (fun _ => Holds initialMs maxMs maxAttempts phase)
      (fun _ => Holds initialMs maxMs maxAttempts phase) := by
  unfold readMessage
  refine Triple.bind (R := fun _ => Holds initialMs maxMs maxAttempts phase)
    (modifySource_same fun _ => rfl) fun _ => ?_
  refine (stream_free holds_streamFree).bind fun _ => Triple.get_bind_of_forall fun machine _ => ?_
  refine Triple.bind (R := fun _ => Holds initialMs maxMs maxAttempts phase)
    (modifySource_same fun _ => rfl) fun _ => ?_
  exact operate_same fun _ => rfl

/-- A call of `next_message`, by induction on its bound. -/
theorem nextMessage_holds : ∀ (fuel : Nat),
    Triple (Holds initialMs maxMs maxAttempts (Between initialMs maxMs maxAttempts))
      (nextMessage fuel)
      (fun _ => Holds initialMs maxMs maxAttempts (Between initialMs maxMs maxAttempts)) E := by
  intro fuel
  induction fuel with
  | zero => exact Triple.pure fun _ h => h
  | succ fuel ih =>
    unfold nextMessage
    refine shutdownRequested_holds.bind fun _ => Triple.ite (fun _ => ?_) fun _ => ?_
    · exact Triple.pure fun _ h => h
    refine (ensureConnected_holds fuel).bind fun result => ?_
    cases result with
    | running => exact Triple.pure fun _ h => h
    | returned connected =>
      cases connected with
      | false => exact Triple.pure fun _ h => h
      | true =>
        refine (Triple.attempt (Q := fun _ =>
          Holds initialMs maxMs maxAttempts (Between initialMs maxMs maxAttempts))
          readMessage_holds).bind fun failure => ?_
        cases failure with
        | none => exact Triple.get_bind_of_forall fun machine _ => Triple.pure fun _ h => h
        | some e =>
          exact (resetConnection_holds fun _ _ _ hp => ⟨hp.1, Or.inl rfl⟩).bind fun _ => ih

theorem nextMessages_holds : ∀ (fuels : List Nat),
    Triple (Holds initialMs maxMs maxAttempts (Between initialMs maxMs maxAttempts))
      (nextMessages fuels)
      (fun _ => Holds initialMs maxMs maxAttempts (Between initialMs maxMs maxAttempts)) E := by
  intro fuels
  induction fuels with
  | nil => exact Triple.pure fun _ h => h
  | cons fuel fuels ih =>
    unfold nextMessages
    refine (nextMessage_holds fuel).bind fun result => ?_
    cases result with
    | running => exact Triple.pure fun _ h => h
    | returned json => exact ih.bind fun rest => Triple.pure fun _ h => h

/-- A new source. -/
theorem holds_start (host port target : Bytes) (initialMs maxMs maxAttempts : UInt64)
    (env : Environment) :
    Holds initialMs maxMs maxAttempts (Between initialMs maxMs maxAttempts)
      (.start (.new host port target true initialMs maxMs maxAttempts) env) :=
  ⟨⟨rfl, rfl, rfl, rfl⟩, everyEvent_nil _, rfl, Or.inr ⟨rfl, rfl⟩⟩

end Loops

/-! ## The theorem -/

/-- **When backoff follows its schedule.** In any calls of `next_message` of a
new source with reconnect, whatever the network and the operator do, the `k`-th
wait since the latest success is `min(I * 2^(k-1), max(I, M))` milliseconds, for
every wait of the run, if and only if no wait comes after an attempt that leaves
another delay behind: one without a wait that failed and changed the delay, one
that gave up below the cap, or one whose delay is too long to be doubled in 64
bits. -/
theorem backoff_on_schedule_iff (host port target : Bytes)
    (initialDelayMs maxDelayMs maxAttempts : UInt64) (env : Environment) (fuels : List Nat) :
    ∃ results machine, (nextMessages fuels).run (.start (.new host port target true initialDelayMs
        maxDelayMs maxAttempts) env) = .ok results machine ∧
      (EveryEvent (OnSchedule initialDelayMs maxDelayMs) machine.trace ↔
        EveryEvent (KeepsSchedule initialDelayMs maxDelayMs maxAttempts) machine.trace) := by
  have hstart := holds_start host port target initialDelayMs maxDelayMs maxAttempts env
  cases hrun : (nextMessages fuels).run (.start (.new host port target true initialDelayMs
      maxDelayMs maxAttempts) env) with
  | ok results machine =>
    have hholds := (nextMessages_holds (E := fun _ _ => False) fuels).ok hstart hrun
    exact ⟨results, machine, rfl, (onSchedule_iff hholds.exact).1⟩
  | error e machine =>
    exact ((nextMessages_holds (E := fun _ _ => False) fuels).error hstart hrun).elim

/-! ## A first wait that is too long -/

/-- The delays of the shipped configuration, and two attempts for each call. -/
def reconnectingSource : RisLiveWebSocketSource :=
  .new (bytes "ris-live.ripe.net") (bytes "443") (bytes "/v1/ws/") true 1000 30000 2

/-- Nobody requests a shutdown, and every name lookup fails. -/
def networkDown : Environment where
  shutdown := fun _ => false
  network := fun _ => { succeeds := false }

/-- A source while the network is down, with the waits so far. -/
structure Offline (source : RisLiveWebSocketSource) (p : Period) (machine : Machine) : Prop where
  source_eq : machine.source = source
  env_eq : machine.env = networkDown
  period_eq : period machine.trace = p

section Offline

variable {source : RisLiveWebSocketSource} {p : Period} {E : Exception → Machine → Prop}

theorem shutdownRequested_offline :
    Triple (Offline source p) shutdownRequested
      (fun requested machine => requested = false ∧ Offline source p machine) E := by
  intro machine h
  refine ⟨?_, h.source_eq, h.env_eq, (period_concat _ _).trans h.period_eq⟩
  show machine.env.shutdown machine.checks = false
  rw [h.env_eq]
  rfl

theorem emit_offline (event : Event) :
    Triple (Offline source p) (emit event) (fun _ => Offline source (p.step event)) E :=
  Triple.modify fun machine h => ⟨h.source_eq, h.env_eq, by
    rw [← h.period_eq]
    exact period_concat machine.trace event⟩

theorem sleepWithStop_offline (waits : Nat) (last : Attempt) (number remaining : UInt64) :
    ∀ sleptMs, Triple (Offline source ⟨waits, last, some (number, sleptMs)⟩)
      (sleepWithStop remaining)
      (fun slept machine => slept = true ∧
        Offline source ⟨waits, last, some (number, sleptMs + remaining.toNat)⟩ machine) E := by
  induction remaining using sleepWithStop.induct with
  | case1 =>
    intro sleptMs
    rw [sleepWithStop, dif_pos rfl]
    refine shutdownRequested_offline.bind fun requested => Triple.of_and fun hno => ?_
    rw [hno]
    exact Triple.pure fun machine h => ⟨rfl, h⟩
  | case2 remaining hne ih =>
    intro sleptMs
    rw [sleepWithStop, dif_neg hne]
    refine shutdownRequested_offline.bind fun requested => Triple.of_and fun hno => ?_
    rw [if_neg (by rw [hno]; simp)]
    refine (emit_offline _).bind fun _ => (ih (sleptMs + (min remaining 100).toNat)).conseq
      (fun _ h => h) (fun slept machine h => ?_) fun _ _ h => h
    rw [Nat.add_assoc, toNat_chunk_add] at h
    exact h

theorem operate_offline {event : NetworkAnswer → Event} {what : NetworkAnswer → Bytes}
    (hquiet : ∀ answer, (event answer).quiet = true) :
    Triple (Offline source p) (operate event what) (fun _ _ => False)
      fun _ => Offline source p := by
  intro machine h
  have hfails : (machine.env.network machine.operations).succeeds = false := by
    rw [h.env_eq]
    rfl
  rw [operate_run]
  dsimp only
  rw [hfails, if_neg (by simp)]
  refine ⟨h.source_eq, h.env_eq, ?_⟩
  rw [period_concat, Period.step_quiet (hquiet _)]
  exact h.period_eq

/-- An attempt fails at its first step. -/
theorem connect_offline :
    Triple (Offline source p) connect (fun _ _ => False) fun _ => Offline source p.connect := by
  unfold connect
  refine Triple.get_bind_of_forall fun machine _ => (emit_offline _).bind fun _ => ?_
  exact (operate_offline fun _ => rfl).bind fun _ _ h => h.elim

theorem tryConnect_offline :
    Triple (Offline source p) tryConnect
      (fun failure machine => failure ≠ none ∧ Offline source p.connect machine) E := by
  unfold tryConnect
  refine Triple.attempt (Triple.conseq (connect_offline.bind fun _ _ h => h.elim)
    (fun _ h => h) (fun _ _ h => h) fun _ _ h => ⟨by simp, h⟩)

/-- What `reset_connection` leaves of a source without a stream. -/
theorem resetConnection_offline (hws : source.websocket = none) :
    Triple (Offline source p) resetConnection
      (fun _ => Offline
        { source with
          connected := false
          delayBeforeReconnect := true
          buffer := [] } p) E := by
  intro machine h
  unfold resetConnection releaseStream modifySource
  rw [EStateM.run_bind, EStateM.run_modify]
  dsimp only
  rw [EStateM.run_bind, EStateM.run_bind, EStateM.run_get]
  dsimp only
  rw [h.source_eq, hws]
  exact ⟨rfl, h.env_eq, h.period_eq⟩

/-- A turn of the loop fails, and the next one waits. -/
theorem backoffLoop_offline (fuel : Nat) (attempts delayMs : UInt64)
    (delayBeforeAttempt : Bool) {q : Period} (hws : source.websocket = none)
    {Q : Progress Bool → Machine → Prop}
    (hwait : Triple (Offline source p)
      (waitBeforeAttempt delayBeforeAttempt (attempts + 1) delayMs)
      (fun slept machine => slept = true ∧ Offline source q machine) E)
    (hrest : Triple (Offline
        { source with
          connected := false
          delayBeforeReconnect := true
          buffer := [] } q.connect)
      (if source.reconnectMaxAttempts ≠ 0 ∧ attempts + 1 ≥ source.reconnectMaxAttempts then
        return .returned false
      else do
        let nextDelayMs := min (delayMs * 2) source.reconnectMaxDelayMs
        modifySource fun source => { source with nextReconnectDelayMs := nextDelayMs }
        backoffLoop fuel (attempts + 1) nextDelayMs true) Q E) :
    Triple (Offline source p) (backoffLoop (fuel + 1) attempts delayMs delayBeforeAttempt) Q E := by
  unfold backoffLoop
  refine shutdownRequested_offline.bind fun requested => Triple.of_and fun hno => ?_
  rw [if_neg (by rw [hno]; simp)]
  refine hwait.bind fun slept => Triple.of_and fun hslept => ?_
  rw [if_neg (by rw [hslept]; simp)]
  refine tryConnect_offline.bind fun failure => Triple.of_and fun hfailure => ?_
  cases failure with
  | none => exact absurd rfl hfailure
  | some e =>
    refine (resetConnection_offline hws).bind fun _ => Triple.get_bind_of_forall fun machine hm => ?_
    dsimp only
    rw [hm.source_eq]
    exact hrest

end Offline

/-- One wait, of 2000 ms, and the attempt after it. -/
def WaitedDouble (machine : Machine) : Prop := period machine.trace = ⟨1, .waited 2 2000, none⟩

/-- The loop makes two attempts and waits once. -/
theorem backoffLoop_networkDown {E : Exception → Machine → Prop} :
    Triple (Offline reconnectingSource {}) (backoffLoop 2 0 1000 false)
      (fun result machine => result = .returned false ∧ WaitedDouble machine) E := by
  refine backoffLoop_offline 1 0 1000 false (q := {}) rfl (Triple.pure fun _ h => ⟨rfl, h⟩) ?_
  refine Triple.ite (fun hup => absurd hup (by decide)) fun _ => ?_
  have hdelay : min (1000 * 2) reconnectingSource.reconnectMaxDelayMs = 2000 := by decide
  dsimp only
  rw [hdelay]
  refine Triple.bind (R := fun _ => Offline
    { reconnectingSource with
      nextReconnectDelayMs := 2000
      delayBeforeReconnect := true } { last := .unwaited })
    (Triple.modify fun machine h => ⟨by rw [h.source_eq]; rfl, h.env_eq, h.period_eq⟩) fun _ => ?_
  -- the second turn waits for twice the initial delay, and is the last
  refine backoffLoop_offline 0 1 2000 true (q := ⟨0, .unwaited, some (2, 0 + UInt64.toNat 2000)⟩) rfl
    ((emit_offline _).bind fun _ => sleepWithStop_offline 0 .unwaited 2 2000 0) ?_
  refine Triple.ite (fun _ => Triple.pure fun machine h => ⟨rfl, h.period_eq⟩) fun hup => ?_
  exact absurd (by decide) hup

/-- With the network down from the start, the first wait that is announced is
twice the initial delay. -/
theorem nextMessages_networkDown {E : Exception → Machine → Prop} :
    Triple (Offline reconnectingSource {}) (nextMessages [3])
      (fun _ => WaitedDouble) E := by
  have hloop : Triple (Offline reconnectingSource {}) (ensureConnected 2)
      (fun result machine => result = .returned false ∧ WaitedDouble machine) E := by
    unfold ensureConnected
    refine Triple.get_bind_of_forall fun machine hm => ?_
    rw [hm.source_eq, if_neg (by decide)]
    refine shutdownRequested_offline.bind fun requested => Triple.of_and fun hno => ?_
    rw [if_neg (by rw [hno]; simp), if_neg (by decide)]
    unfold reconnectWithBackoff
    refine Triple.get_bind_of_forall fun machine hm => ?_
    rw [hm.source_eq]
    exact backoffLoop_networkDown
  unfold nextMessages nextMessage
  refine Triple.bind (R := fun result machine => result = .returned none ∧ WaitedDouble machine) ?_ fun result => Triple.of_and fun hresult => ?_
  · refine shutdownRequested_offline.bind fun requested => Triple.of_and fun hno => ?_
    rw [if_neg (by rw [hno]; simp)]
    refine hloop.bind fun result => Triple.of_and fun hresult => ?_
    rw [hresult]
    exact Triple.pure fun _ h => ⟨rfl, h⟩
  · rw [hresult]
    exact (Triple.pure (Q := fun _ => WaitedDouble) fun _ h => h).bind fun _ =>
      Triple.pure fun _ h => h

/-- The first wait is the initial delay doubled: the attempt before it failed
without a wait, and the code doubles its delay after every failure. -/
theorem first_wait_is_doubled :
    ¬ ∃ results machine,
      (nextMessages [3]).run (.start reconnectingSource networkDown) = .ok results machine ∧
        EveryEvent (OnSchedule 1000 30000) machine.trace := by
  rintro ⟨results, machine, hrun, hon⟩
  have hperiod : WaitedDouble machine := (nextMessages_networkDown (E := fun _ _ => False)).ok ⟨rfl, rfl, rfl⟩ hrun
  have hholds := (nextMessages_holds (E := fun _ _ => False) [3]).ok
    (holds_start _ _ _ _ _ _ networkDown) hrun
  -- had the first wait been on the schedule, it would have been the initial delay
  have hkept := (onSchedule_iff hholds.exact).2 hon
  rw [hperiod] at hkept
  obtain ⟨k, hwaits, hslept⟩ := hkept
  obtain rfl : 0 = k := Nat.succ.inj hwaits
  exact absurd hslept (by decide)

end ASNPrefixMap.Source
