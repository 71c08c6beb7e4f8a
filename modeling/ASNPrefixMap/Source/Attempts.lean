import ASNPrefixMap.Source.Backoff

/-!
# One call of `reconnect_with_backoff`

What one call does to the outside is counted in a `Tally`: the shutdown checks,
the connect attempts, whether a request was seen, whether a subscription was
written, and the wait that is going on. `Disciplined` is what every event of the
call needs of those before it: a connect comes after no request, no success and
a wait that is complete. `InCall` carries this through the loop together with
what the phases say about the source, for any state in which `ensure_connected`
enters the loop and any answers of the network and of the shutdown request.
`reconnectWithBackoff_bounded` reads the outcome off the tally.
-/

namespace ASNPrefixMap.Source

open Lib

/-! ## Counting -/

/-- What some events of a call amount to. It is all that the bounds on a call
depend on. -/
structure Tally where
  checks : Nat := 0
  attempts : Nat := 0
  /-- A check has seen a shutdown request. -/
  requested : Bool := false
  /-- A subscription has been written, which makes an attempt a success. -/
  succeeded : Bool := false
  /-- The wait for the next attempt: what was announced and what has been slept,
  in ms. -/
  wait : Option (UInt64 × Nat) := none
  deriving DecidableEq

/-- What an event adds to a tally. A success takes back nothing: the counts are
those of the whole call. -/
def Tally.step (t : Tally) : Event → Tally
  | .shutdownCheck requested =>
    { t with checks := t.checks + 1, requested := t.requested || requested }
  | .announceWait _ delayMs => { t with wait := some (delayMs, 0) }
  | .sleep chunkMs => { t with wait := t.wait.map fun w => (w.1, w.2 + chunkMs.toNat) }
  | .connect _ _ _ => { t with attempts := t.attempts + 1, wait := none }
  | .write _ _ true => { t with succeeded := true }
  | _ => t

/-- The tally of a list of events. -/
def tally (events : List Event) : Tally := events.foldl Tally.step {}

theorem tally_concat (events : List Event) (event : Event) :
    tally (events ++ [event]) = (tally events).step event :=
  List.foldl_append

/-- No wait is going on, or all of it has been slept. -/
def Tally.WaitOver (t : Tally) : Prop :=
  ∀ announcedMs sleptMs, t.wait = some (announcedMs, sleptMs) → sleptMs = announcedMs.toNat

theorem tally_attempts (events : List Event) : (tally events).attempts = connects events := by
  induction events using List.reverseRecOn with
  | nil => rfl
  | append_singleton events event ih =>
    unfold connects at ih ⊢
    rw [tally_concat, List.countP_append, List.countP_singleton, ← ih]
    cases event with
    | write stream request succeeded => cases succeeded <;> rfl
    | _ => rfl

/-- A request has been seen if some check was answered with yes. -/
theorem tally_requested (events : List Event) :
    (tally events).requested = true ↔ .shutdownCheck true ∈ events := by
  induction events using List.reverseRecOn with
  | nil => exact ⟨fun h => (nomatch h), fun h => absurd h List.not_mem_nil⟩
  | append_singleton events event ih =>
    rw [tally_concat, List.mem_append, List.mem_singleton, ← ih]
    cases event with
    | shutdownCheck requested =>
      show ((tally events).requested || requested) = true ↔ _
      rw [Bool.or_eq_true, Event.shutdownCheck.injEq, eq_comm (a := true)]
    | write stream request succeeded =>
      cases succeeded <;> exact ⟨Or.inl, fun h => h.elim id fun e => (nomatch e)⟩
    | _ => exact ⟨Or.inl, fun h => h.elim id fun e => (nomatch e)⟩

/-- An attempt has succeeded if a subscription has been written. -/
theorem tally_succeeded (events : List Event) :
    (tally events).succeeded = true ↔ ∃ stream request, .write stream request true ∈ events := by
  induction events using List.reverseRecOn with
  | nil => exact ⟨fun h => (nomatch h), fun ⟨_, _, h⟩ => absurd h List.not_mem_nil⟩
  | append_singleton events event ih =>
    have hmem : (∃ stream request, .write stream request true ∈ events ++ [event]) ↔
        (∃ stream request, .write stream request true ∈ events) ∨
          ∃ stream request, event = .write stream request true := by
      constructor
      · rintro ⟨stream, request, h⟩
        rcases List.mem_append.mp h with h | h
        · exact Or.inl ⟨stream, request, h⟩
        · exact Or.inr ⟨stream, request, (List.mem_singleton.mp h).symm⟩
      · rintro (⟨stream, request, h⟩ | ⟨stream, request, rfl⟩)
        · exact ⟨stream, request, List.mem_append_left _ h⟩
        · exact ⟨stream, request, List.mem_append_right _ List.mem_cons_self⟩
    rw [tally_concat, hmem, ← ih]
    cases event with
    | write stream request succeeded =>
      cases succeeded with
      | true => exact ⟨fun _ => Or.inr ⟨stream, request, rfl⟩, fun _ => rfl⟩
      | false => exact ⟨Or.inl, fun h => h.elim id fun ⟨_, _, e⟩ => (nomatch e)⟩
    | _ => exact ⟨Or.inl, fun h => h.elim id fun ⟨_, _, e⟩ => (nomatch e)⟩

/-! ## Calls -/

/-- There is a connection messages can be read from. -/
def RisLiveWebSocketSource.Live (source : RisLiveWebSocketSource) : Prop :=
  source.connected = true ∧ source.websocket.isSome = true

/-- What an event of a call needs of the events of the call before it, for a
call from `start`. -/
def Disciplined (start : Machine) (t : Tally) : Event → Prop
  | .shutdownCheck requested => requested = start.env.shutdown (start.checks + t.checks)
  | .connect _ _ _ => t.requested = false ∧ t.succeeded = false ∧ t.WaitOver
  | .sleep chunkMs => chunkMs ≤ 100
  | _ => True

/-- What is known in the middle of a call. -/
abbrev CallPhase := Tally → RisLiveWebSocketSource → Prop

/-- The machine after some events of a call from `start`. The settings are as
they were, and each event was in order when it came. -/
structure InCall (start : Machine) (phase : CallPhase) (machine : Machine) : Prop where
  env : machine.env = start.env
  maxAttempts : machine.source.reconnectMaxAttempts = start.source.reconnectMaxAttempts
  initial : machine.source.reconnectInitialDelayMs = start.source.reconnectInitialDelayMs
  events : ∃ events, machine.trace = start.trace ++ events ∧
    machine.checks = start.checks + (tally events).checks ∧
    EveryEvent (fun past => Disciplined start (tally past)) events ∧
    phase (tally events) machine.source

section Steps

variable {start : Machine} {phase phase' : CallPhase} {E : Exception → Machine → Prop}

/-- A phase may be forgotten for a weaker one. -/
theorem InCall.weaken {machine : Machine} (h : InCall start phase machine)
    (hphase : ∀ t source, phase t source → phase' t source) : InCall start phase' machine := by
  obtain ⟨events, htrace, hchecks, hevery, hp⟩ := h.events
  exact ⟨h.env, h.maxAttempts, h.initial, events, htrace, hchecks, hevery, hphase _ _ hp⟩

/-- One event that is not a check, with the source as it was. -/
theorem InCall.event {machine machine' : Machine} {event : Event} (h : InCall start phase machine)
    (htrace' : machine'.trace = machine.trace ++ [event]) (hsource : machine'.source = machine.source)
    (henv : machine'.env = machine.env) (hchecks' : machine'.checks = machine.checks)
    (hcheck : ∀ t : Tally, (t.step event).checks = t.checks)
    (hphase : ∀ t source, phase t source → Disciplined start t event ∧ phase' (t.step event) source) :
    InCall start phase' machine' := by
  obtain ⟨events, htrace, hchecks, hevery, hp⟩ := h.events
  obtain ⟨hdisciplined, hp'⟩ := hphase _ _ hp
  refine ⟨henv.trans h.env, by rw [hsource, h.maxAttempts], by rw [hsource, h.initial],
    events ++ [event], ?_, ?_, everyEvent_concat.mpr ⟨hevery, hdisciplined⟩, ?_⟩
  · rw [htrace', htrace, List.append_assoc]
  · rw [hchecks', hchecks, tally_concat, hcheck]
  · rw [tally_concat, hsource]
    exact hp'

theorem emit_inCall {event : Event} (hcheck : ∀ t : Tally, (t.step event).checks = t.checks)
    (hphase : ∀ t source, phase t source →
      Disciplined start t event ∧ phase' (t.step event) source) :
    Triple (InCall start phase) (emit event) (fun _ => InCall start phase') E :=
  Triple.modify fun _ h => h.event rfl rfl rfl rfl hcheck hphase

/-- A check counts, and its answer is the environment's. -/
theorem shutdownRequested_inCall {phase' : Bool → CallPhase}
    (hphase : ∀ requested t source, phase t source →
      phase' requested (t.step (.shutdownCheck requested)) source) :
    Triple (InCall start phase) shutdownRequested (fun requested => InCall start (phase' requested))
      E := by
  intro machine h
  obtain ⟨events, htrace, hchecks, hevery, hp⟩ := h.events
  have hanswer : Disciplined start (tally events)
      (.shutdownCheck (machine.env.shutdown machine.checks)) := by
    unfold Disciplined
    rw [h.env, hchecks]
  refine ⟨h.env, h.maxAttempts, h.initial,
    events ++ [.shutdownCheck (machine.env.shutdown machine.checks)], ?_, ?_,
    everyEvent_concat.mpr ⟨hevery, hanswer⟩, ?_⟩
  · show machine.trace ++ [_] = _
    rw [htrace, List.append_assoc]
  · rw [tally_concat]
    show machine.checks + 1 = start.checks + ((tally events).checks + 1)
    rw [hchecks, Nat.add_assoc]
  · rw [tally_concat]
    exact hphase _ _ _ hp

/-- The events that do not count. -/
def Event.uncounted : Event → Bool
  | .shutdownCheck _ => false
  | .announceWait _ _ => false
  | .sleep _ => false
  | .connect _ _ _ => false
  | .write _ _ succeeded => !succeeded
  | _ => true

/-- Events that are not counted leave the tally alone. -/
theorem Event.step_of_uncounted {event : Event} (h : event.uncounted = true) (t : Tally) :
    t.step event = t := by
  cases event with
  | shutdownCheck => cases h
  | announceWait => cases h
  | sleep => cases h
  | connect => cases h
  | write stream request succeeded =>
    cases succeeded with
    | false => rfl
    | true => cases h
  | _ => rfl

theorem Event.disciplined_of_uncounted {event : Event} (h : event.uncounted = true)
    (start : Machine) (t : Tally) : Disciplined start t event := by
  cases event with
  | shutdownCheck => cases h
  | announceWait => cases h
  | sleep => cases h
  | connect => cases h
  | write stream request succeeded =>
    cases succeeded with
    | false => exact trivial
    | true => cases h
  | _ => exact trivial

theorem InCall.uncounted {machine machine' : Machine} {event : Event} (h : InCall start phase machine)
    (htrace : machine'.trace = machine.trace ++ [event]) (hsource : machine'.source = machine.source)
    (henv : machine'.env = machine.env) (hchecks : machine'.checks = machine.checks)
    (hevent : event.uncounted = true) : InCall start phase machine' := by
  have hstep := Event.step_of_uncounted hevent
  refine h.event htrace hsource henv hchecks (fun t => by rw [hstep]) fun t source hp => ?_
  rw [hstep]
  exact ⟨Event.disciplined_of_uncounted hevent start t, hp⟩

/-- An operation that succeeds or fails; only a successful write counts. -/
theorem operate_inCall {event : NetworkAnswer → Event} {what : NetworkAnswer → Bytes}
    (hevent : ∀ answer, (event answer).uncounted = true) :
    Triple (InCall start phase) (operate event what) (fun _ => InCall start phase)
      (fun _ => InCall start phase) := by
  intro machine h
  rw [operate_run]
  dsimp only
  cases (machine.env.network machine.operations).succeeds with
  | false => exact h.uncounted rfl rfl rfl rfl (hevent _)
  | true => exact h.uncounted rfl rfl rfl rfl (hevent _)

/-- A change of the source that keeps the settings the loop reads. -/
theorem modifySource_inCall {f : RisLiveWebSocketSource → RisLiveWebSocketSource}
    (hmax : ∀ source, (f source).reconnectMaxAttempts = source.reconnectMaxAttempts)
    (hinitial : ∀ source, (f source).reconnectInitialDelayMs = source.reconnectInitialDelayMs)
    (hphase : ∀ t source, phase t source → phase' t (f source)) :
    Triple (InCall start phase) (modifySource f) (fun _ => InCall start phase') E := by
  refine Triple.modify fun machine h => ?_
  obtain ⟨events, htrace, hchecks, hevery, hp⟩ := h.events
  exact ⟨h.env, (hmax _).trans h.maxAttempts, (hinitial _).trans h.initial, events, htrace, hchecks,
    hevery, hphase _ _ hp⟩

/-- A phase that says nothing about the source. -/
theorem inCall_streamFree {counted : Tally → Prop} :
    StreamFree (InCall start fun t _ => counted t) := by
  refine ⟨fun _ _ h => ⟨h.env, h.maxAttempts, h.initial, h.events⟩, fun {machine event} hevent h => ?_⟩
  refine h.uncounted rfl rfl rfl rfl ?_
  cases event with
  | create => rfl
  | release => rfl
  | nullDereference => rfl
  | _ => cases hevent

end Steps

/-! ## The phases of a call -/

/-- `n` attempts have failed, and nobody has seen a request. -/
structure Going (n : Nat) (t : Tally) : Prop where
  attempts : t.attempts = n
  requested : t.requested = false
  succeeded : t.succeeded = false

/-- There is no connection, and nothing left of one that an attempt has
begun. -/
structure Unconnected (n : Nat) (source : RisLiveWebSocketSource) : Prop where
  notLive : ¬ source.Live
  dropped : n ≠ 0 → source.connected = false ∧ source.websocket = none

/-- At the head of the loop, after at least one check for each attempt. -/
def AtHead (n : Nat) : CallPhase := fun t source =>
  Going n t ∧ t.wait = none ∧ n ≤ t.checks ∧ Unconnected n source

/-- After the check at the head. -/
def Checked (n : Nat) : CallPhase := fun t source =>
  Going n t ∧ t.wait = none ∧ n < t.checks ∧ Unconnected n source

/-- In a wait of `delayMs`, of which `remaining` is left. -/
def Asleep (n : Nat) (delayMs remaining : UInt64) : CallPhase := fun t source =>
  Going n t ∧ (∃ sleptMs, t.wait = some (delayMs, sleptMs) ∧
    sleptMs + remaining.toNat = delayMs.toNat) ∧ n < t.checks ∧ Unconnected n source

/-- The next attempt may begin. -/
def Rested (n : Nat) : CallPhase := fun t source =>
  Going n t ∧ t.WaitOver ∧ n < t.checks ∧ Unconnected n source

/-- A request was seen, and the call is over. -/
def Stopped (n : Nat) : CallPhase := fun t source =>
  t.attempts = n ∧ t.requested = true ∧ t.succeeded = false ∧ Unconnected n source

/-- An attempt has begun and not succeeded. -/
def Attempting (n : Nat) (t : Tally) : Prop := Going n t ∧ t.wait = none ∧ n ≤ t.checks

/-- The subscription has been written on the connection. -/
def Subscribing (n : Nat) : CallPhase := fun t source =>
  t.attempts = n ∧ t.succeeded = true ∧ source.Live

section Phases

variable {start : Machine} {n : Nat} {E : Exception → Machine → Prop}

theorem Going.check {t : Tally} (h : Going n t) : Going n (t.step (.shutdownCheck false)) :=
  ⟨h.attempts, (Bool.or_false _).trans h.requested, h.succeeded⟩

/-- A check that was answered with yes ends the call, without a connection. -/
theorem Going.stop {t : Tally} {source : RisLiveWebSocketSource} (h : Going n t)
    (hsource : Unconnected n source) : Stopped n (t.step (.shutdownCheck true)) source :=
  ⟨h.attempts, Bool.or_true _, h.succeeded, hsource⟩

/-- A check ends the call or lets it go on. -/
theorem shutdownRequested_stops {phase phase' : CallPhase}
    (hgoing : ∀ t source, phase t source → Going n t ∧ Unconnected n source)
    (hon : ∀ t source, phase t source → phase' (t.step (.shutdownCheck false)) source) :
    Triple (InCall start phase) shutdownRequested
      (fun requested => InCall start (if requested = true then Stopped n else phase')) E := by
  refine @shutdownRequested_inCall start phase E
    (fun requested => if requested = true then Stopped n else phase') fun requested t source hp => ?_
  cases requested with
  | true => exact (hgoing t source hp).1.stop (hgoing t source hp).2
  | false => exact hon t source hp

/-- A chunk of the wait, which is at most 100 ms and no more than what is
left. -/
theorem Asleep.sleep {delayMs remaining : UInt64} {t : Tally} {source : RisLiveWebSocketSource}
    (h : Asleep n delayMs remaining t source) :
    Disciplined start t (.sleep (min remaining 100)) ∧
      Asleep n delayMs (remaining - min remaining 100) (t.step (.sleep (min remaining 100))) source := by
  obtain ⟨hgoing, ⟨sleptMs, hwait, hslept⟩, hchecks, hsource⟩ := h
  refine ⟨?_, ⟨hgoing.attempts, hgoing.requested, hgoing.succeeded⟩,
    ⟨sleptMs + (min remaining 100).toNat, ?_, ?_⟩, hchecks, hsource⟩
  · show min remaining 100 ≤ 100
    rw [UInt64.le_iff_toNat_le, toNat_min]
    exact Nat.min_le_right _ _
  · show t.wait.map _ = _
    rw [hwait]
    rfl
  · rw [Nat.add_assoc, toNat_chunk_add]
    exact hslept

/-- A wait that has nothing left is over. -/
theorem Asleep.rested {delayMs : UInt64} {t : Tally} {source : RisLiveWebSocketSource}
    (h : Asleep n delayMs 0 t source) : Rested n t source := by
  obtain ⟨hgoing, ⟨sleptMs, hwait, hslept⟩, hchecks, hsource⟩ := h
  refine ⟨hgoing, fun announcedMs sleptMs' hw => ?_, hchecks, hsource⟩
  rw [hwait] at hw
  cases hw
  exact hslept

theorem Rested.check {t : Tally} {source : RisLiveWebSocketSource} (h : Rested n t source) :
    Rested n (t.step (.shutdownCheck false)) source := by
  obtain ⟨hgoing, hover, hchecks, hsource⟩ := h
  exact ⟨hgoing.check, hover, Nat.lt_succ_of_lt hchecks, hsource⟩

/-- A wait ends with all of it slept, or because a request was seen. -/
theorem sleepWithStop_inCall (delayMs remaining : UInt64) :
    Triple (InCall start (Asleep n delayMs remaining)) (sleepWithStop remaining)
      (fun slept => InCall start (if slept = true then Rested n else Stopped n)) E := by
  induction remaining using sleepWithStop.induct with
  | case1 =>
    rw [sleepWithStop, dif_pos rfl]
    refine (@shutdownRequested_stops start n E _ (Rested n) (fun t source hp => ⟨hp.1, hp.2.2.2⟩)
      fun t source hp => ?_).bind fun requested => Triple.pure fun machine h => ?_
    · exact hp.rested.check
    · cases requested with
      | true => exact h
      | false => exact h
  | case2 remaining hne ih =>
    rw [sleepWithStop, dif_neg hne]
    refine (@shutdownRequested_stops start n E _ (Asleep n delayMs remaining)
      (fun t source hp => ⟨hp.1, hp.2.2.2⟩) fun t source hp => ?_).bind fun requested => ?_
    · obtain ⟨hgoing, hwait, hchecks, hsource⟩ := hp
      exact ⟨hgoing.check, hwait, Nat.lt_succ_of_lt hchecks, hsource⟩
    · cases requested with
      | true => exact Triple.pure fun _ h => h
      | false => exact (emit_inCall (fun _ => rfl) fun t source hp => hp.sleep).bind fun _ => ih

/-- The wait before an attempt ends rested, or with a request. -/
theorem waitBeforeAttempt_inCall (delayBeforeAttempt : Bool) (attempt delayMs : UInt64) :
    Triple (InCall start (Checked n)) (waitBeforeAttempt delayBeforeAttempt attempt delayMs)
      (fun slept => InCall start (if slept = true then Rested n else Stopped n)) E := by
  unfold waitBeforeAttempt
  refine Triple.ite (fun _ => ?_) fun _ => ?_
  · refine (@emit_inCall start (Checked n) (Asleep n delayMs delayMs) E _ (fun _ => rfl)
      fun t source hp => ⟨by trivial, ?_⟩).bind fun _ => sleepWithStop_inCall delayMs delayMs
    obtain ⟨hgoing, _, hchecks, hsource⟩ := hp
    exact ⟨⟨hgoing.attempts, hgoing.requested, hgoing.succeeded⟩, ⟨0, rfl, Nat.zero_add _⟩, hchecks,
      hsource⟩
  · refine Triple.pure fun machine h => h.weaken fun t source hp => ?_
    obtain ⟨hgoing, hwait, hchecks, hsource⟩ := hp
    refine ⟨hgoing, fun announcedMs sleptMs hw => ?_, hchecks, hsource⟩
    rw [hwait] at hw
    cases hw

/-- `connect` counts as an attempt from its start. -/
theorem connect_inCall :
    Triple (InCall start (Rested n)) connect (fun _ => InCall start fun t _ => Attempting (n + 1) t)
      (fun _ => InCall start fun t _ => Attempting (n + 1) t) := by
  unfold connect
  refine Triple.get_bind_of_forall fun machine _ => ?_
  refine Triple.bind (R := fun _ => InCall start fun t _ => Attempting (n + 1) t)
    (emit_inCall (fun _ => rfl) fun t source hp => ?_) fun _ => ?_
  · obtain ⟨hgoing, hover, hchecks, _⟩ := hp
    exact ⟨⟨hgoing.requested, hgoing.succeeded, hover⟩,
      ⟨congrArg (· + 1) hgoing.attempts, hgoing.requested, hgoing.succeeded⟩, rfl, hchecks⟩
  refine (operate_inCall fun _ => by rfl).bind fun _ => ?_
  refine Triple.bind (R := fun _ => InCall start fun t _ => Attempting (n + 1) t) ?_ fun _ => ?_
  · exact (createStream_free inCall_streamFree).conseq (fun _ h => h) (fun _ _ ⟨_, h, _⟩ => h)
      fun _ _ h => h
  refine (stream_free inCall_streamFree).bind fun ws => ?_
  exact (operate_inCall fun _ => by rfl).bind fun _ => (operate_inCall fun _ => by rfl).bind fun _ =>
    (operate_inCall fun _ => by rfl).bind fun _ => (operate_inCall fun _ => by rfl).bind fun _ =>
      modifySource_inCall (fun _ => rfl) (fun _ => rfl) fun _ _ hp => hp

/-- A subscription is written on a connection only. -/
theorem sendSubscribe_inCall :
    Triple (InCall start fun t _ => Attempting n t) sendSubscribe
      (fun _ => InCall start (Subscribing n)) (fun _ => InCall start fun t _ => Attempting n t) := by
  unfold sendSubscribe
  refine Triple.get_bind fun machine h => Triple.ite (fun _ => ?_) fun hlive => ?_
  · exact Triple.throw fun machine' heq => heq ▸ h
  have hlive' : machine.source.Live := by
    rw [not_or, Bool.not_eq_false] at hlive
    exact ⟨hlive.1, Option.isSome_iff_ne_none.mpr hlive.2⟩
  obtain ⟨s, hs⟩ := Option.isSome_iff_exists.mp hlive'.2
  refine (stream_triple (s := s) fun machine' heq => by rw [heq]; exact hs).bind fun ws =>
    Triple.of_and fun _ => ?_
  intro machine' heq
  rw [heq, operate_run]
  dsimp only
  cases hanswer : (machine.env.network machine.operations).succeeds with
  | false => exact h.uncounted rfl rfl rfl rfl rfl
  | true =>
    -- the phase gets to know the source that the guard has looked at
    have h' : InCall start (fun t source => Attempting n t ∧ source = machine.source) machine := by
      obtain ⟨events, htrace, hchecks, hevery, hp⟩ := h.events
      exact ⟨h.env, h.maxAttempts, h.initial, events, htrace, hchecks, hevery, hp, rfl⟩
    refine h'.event rfl rfl rfl rfl (fun _ => rfl) fun t source hp => ⟨trivial, ?_⟩
    obtain ⟨⟨hgoing, _, _⟩, hsource⟩ := hp
    exact ⟨hgoing.attempts, rfl, hsource ▸ hlive'⟩

/-- An attempt made at rest is one more, and leaves the subscription or an
exception. -/
theorem tryConnect_inCall :
    Triple (InCall start (Rested n)) tryConnect
      (fun failure => InCall start
        (match failure with
        | none => Subscribing (n + 1)
        | some _ => fun t _ => Attempting (n + 1) t)) E := by
  unfold tryConnect
  exact Triple.attempt (connect_inCall.bind fun _ => sendSubscribe_inCall)

/-- After a failed attempt nothing is left of the connection. -/
theorem resetConnection_inCall :
    Triple (InCall start fun t _ => Attempting (n + 1) t) resetConnection
      (fun _ => InCall start (AtHead (n + 1))) E := by
  have hcounts : Triple (InCall start fun t _ => Attempting (n + 1) t) resetConnection
      (fun _ => InCall start fun t _ => Attempting (n + 1) t) E := by
    unfold resetConnection
    refine Triple.bind (R := fun _ => InCall start fun t _ => Attempting (n + 1) t)
      (modifySource_inCall (fun _ => by rfl) (fun _ => by rfl) fun _ _ hp => by exact hp) fun _ => ?_
    exact (releaseStream_free inCall_streamFree).bind fun _ =>
      modifySource_inCall (fun _ => by rfl) (fun _ => by rfl) fun _ _ hp => by exact hp
  refine (hcounts.and (resetConnection_down (E := E))).conseq (fun _ h => ⟨h, trivial⟩)
    (fun _ machine h => ?_) fun _ _ h => h.1
  obtain ⟨hcall, hdown⟩ := h
  obtain ⟨events, htrace, hchecks, hevery, hgoing, hwait, hle⟩ := hcall.events
  refine ⟨hcall.env, hcall.maxAttempts, hcall.initial, events, htrace, hchecks, hevery, hgoing, hwait,
    hle, fun hlive => ?_, fun _ => ⟨hdown.connected, hdown.websocket⟩⟩
  exact absurd (hdown.connected.symm.trans hlive.1) Bool.false_ne_true

end Phases

/-! ## The loop -/

/-- How a call ends, or how far it has got when its bound of `turns` is used
up. -/
def CallEnds (start : Machine) (turns : Nat) (result : Progress Bool) : CallPhase := fun t source =>
  (start.source.reconnectMaxAttempts ≠ 0 →
    t.attempts ≤ start.source.reconnectMaxAttempts.toNat) ∧
  match result with
  | .returned true =>
    t.succeeded = true ∧ source.Live ∧
      source.nextReconnectDelayMs = source.reconnectInitialDelayMs ∧
      source.delayBeforeReconnect = false
  | .returned false =>
    t.succeeded = false ∧ Unconnected t.attempts source ∧
      (t.requested = true ∨ (start.source.reconnectMaxAttempts ≠ 0 ∧
        t.attempts = start.source.reconnectMaxAttempts.toNat))
  | .running =>
    Going turns t ∧ turns ≤ t.checks ∧
      (start.source.reconnectMaxAttempts ≠ 0 →
        turns < start.source.reconnectMaxAttempts.toNat)

/-- The local counter of the loop is the number of attempts, as far as there is
a limit. -/
def Counted (start : Machine) (attempts : UInt64) (n : Nat) : Prop :=
  start.source.reconnectMaxAttempts ≠ 0 →
    attempts.toNat = n ∧ n < start.source.reconnectMaxAttempts.toNat

section Loop

variable {start : Machine} {n : Nat} {attempts : UInt64} {E : Exception → Machine → Prop}

/-- Below a limit the counter does not wrap. -/
theorem toNat_succ_of_lt {limit : UInt64} (h : attempts.toNat < limit.toNat) :
    (attempts + 1).toNat = attempts.toNat + 1 := by
  have hlimit := limit.toNat_lt
  have hone : (1 : UInt64).toNat = 1 := rfl
  rw [UInt64.toNat_add, hone]
  omega

/-- The counter of the loop does not wrap around before a limit is reached. -/
theorem Counted.toNat_succ (h : Counted start attempts n)
    (hlimit : start.source.reconnectMaxAttempts ≠ 0) : (attempts + 1).toNat = n + 1 := by
  obtain ⟨hattempts, hlt⟩ := h hlimit
  rw [← hattempts] at hlt
  rw [toNat_succ_of_lt hlt, hattempts]

theorem Counted.le (h : Counted start attempts n) (hlimit : start.source.reconnectMaxAttempts ≠ 0) :
    n ≤ start.source.reconnectMaxAttempts.toNat :=
  Nat.le_of_lt (h hlimit).2

/-- A request is one of the ways in which a call ends. -/
theorem Stopped.callEnds {turns : Nat} (hcounted : Counted start attempts n) {t : Tally}
    {source : RisLiveWebSocketSource} (h : Stopped n t source) :
    CallEnds start turns (.returned false) t source := by
  obtain ⟨hattempts, hrequested, hsucceeded, hsource⟩ := h
  refine ⟨fun hlimit => ?_, hsucceeded, hattempts ▸ hsource, Or.inl hrequested⟩
  rw [hattempts]
  exact hcounted.le hlimit

/-- The attempt that failed was the last one allowed. -/
theorem AtHead.callEnds {turns : Nat} (hcounted : Counted start attempts n)
    (hlast : start.source.reconnectMaxAttempts ≠ 0 ∧
      attempts + 1 ≥ start.source.reconnectMaxAttempts)
    {t : Tally} {source : RisLiveWebSocketSource} (h : AtHead (n + 1) t source) :
    CallEnds start turns (.returned false) t source := by
  obtain ⟨hgoing, _, _, hsource⟩ := h
  -- the counter has reached the limit, and was below it before
  obtain ⟨hlimit, hge⟩ := hlast
  have hge' := UInt64.le_iff_toNat_le.mp hge
  rw [hcounted.toNat_succ hlimit] at hge'
  have hlt := (hcounted hlimit).2
  have hall : t.attempts = start.source.reconnectMaxAttempts.toNat := by
    rw [hgoing.attempts]
    omega
  exact ⟨fun _ => Nat.le_of_eq hall, hgoing.succeeded, hgoing.attempts ▸ hsource,
    Or.inr ⟨hlimit, hall⟩⟩

/-- Below the limit there is room for one attempt more. -/
theorem Counted.succ (h : Counted start attempts n)
    (hmore : ¬ (start.source.reconnectMaxAttempts ≠ 0 ∧
      attempts + 1 ≥ start.source.reconnectMaxAttempts)) :
    Counted start (attempts + 1) (n + 1) := by
  intro hlimit
  refine ⟨h.toNat_succ hlimit, ?_⟩
  by_contra hge
  refine hmore ⟨hlimit, UInt64.le_iff_toNat_le.mpr ?_⟩
  rw [h.toNat_succ hlimit]
  omega

/-- One turn more for each attempt that fails and is not the last one
allowed. -/
theorem backoffLoop_inCall : ∀ (fuel n : Nat) (attempts delayMs : UInt64) (delayBeforeAttempt : Bool),
    Counted start attempts n →
    Triple (InCall start (AtHead n)) (backoffLoop fuel attempts delayMs delayBeforeAttempt)
      (fun result => InCall start (CallEnds start (n + fuel) result)) E := by
  intro fuel
  induction fuel with
  | zero =>
    intro n attempts _ _ hcounted
    refine Triple.pure fun machine h => h.weaken fun t source hp => ?_
    obtain ⟨hgoing, _, hchecks, _⟩ := hp
    refine ⟨fun hlimit => ?_, hgoing, hchecks, fun hlimit => (hcounted hlimit).2⟩
    rw [hgoing.attempts]
    exact hcounted.le hlimit
  | succ fuel ih =>
    intro n attempts delayMs delayBeforeAttempt hcounted
    unfold backoffLoop
    refine (@shutdownRequested_stops start n E _ (Checked n) (fun t source hp => ⟨hp.1, hp.2.2.2⟩)
      fun t source hp => ?_).bind fun requested => ?_
    · obtain ⟨hgoing, hwait, hchecks, hsource⟩ := hp
      exact ⟨hgoing.check, hwait, Nat.lt_succ_of_le hchecks, hsource⟩
    cases requested with
    | true => exact Triple.pure fun _ h => h.weaken fun _ _ hp => hp.callEnds hcounted
    | false =>
      refine (waitBeforeAttempt_inCall delayBeforeAttempt (attempts + 1) delayMs).bind fun slept => ?_
      cases slept with
      | false => exact Triple.pure fun _ h => h.weaken fun _ _ hp => hp.callEnds hcounted
      | true =>
        refine tryConnect_inCall.bind fun failure => ?_
        cases failure with
        | none =>
          refine Triple.bind (R := fun _ => InCall start (CallEnds start (n + (fuel + 1)) (.returned true)))
            (modifySource_inCall (fun _ => rfl) (fun _ => rfl) fun t source hp => ?_)
            fun _ => Triple.pure fun _ h => h
          obtain ⟨hattempts, hsucceeded, hlive⟩ := hp
          refine ⟨fun hlimit => ?_, hsucceeded, hlive, rfl, rfl⟩
          rw [hattempts]
          exact (hcounted hlimit).2
        | some e =>
          refine resetConnection_inCall.bind fun _ => Triple.get_bind_of_forall fun machine hm => ?_
          dsimp only
          rw [hm.maxAttempts]
          refine Triple.ite (fun hlast => ?_) fun hmore => ?_
          · exact Triple.pure fun _ h => h.weaken fun _ _ hp => hp.callEnds hcounted hlast
          · have hturns : n + (fuel + 1) = n + 1 + fuel := by omega
            rw [hturns]
            refine Triple.bind (R := fun _ => InCall start (AtHead (n + 1)))
              (modifySource_inCall (fun _ => by rfl) (fun _ => by rfl) fun t source hp => ?_)
              fun _ => ih (n + 1) _ _ _ (hcounted.succ hmore)
            obtain ⟨hgoing, hwait, hchecks, hsource⟩ := hp
            exact ⟨hgoing, hwait, hchecks, hsource.notLive, hsource.dropped⟩

end Loop

/-! ## The theorem -/

/-- What one call has done when it returns, or when its bound is used up, and
the trace of it. -/
structure OneCall (start : Machine) (fuel : Nat) (result : Progress Bool) (events : List Event)
    (machine : Machine) : Prop where
  trace : machine.trace = start.trace ++ events
  /-- At most as many attempts as configured. -/
  bounded : start.source.reconnectMaxAttempts ≠ 0 →
    connects events ≤ start.source.reconnectMaxAttempts.toNat
  /-- True for a success and nothing else. -/
  true_iff : result = .returned true ↔
    ∃ stream request, .write stream request true ∈ events
  /-- Nothing is tried after it, -/
  no_attempt_after : ∀ before stream request after,
    events = before ++ .write stream request true :: after → connects after = 0
  /-- and the delay starts again. -/
  connected : result = .returned true → machine.source.Live ∧
    machine.source.nextReconnectDelayMs = start.source.reconnectInitialDelayMs ∧
    machine.source.delayBeforeReconnect = false
  /-- False leaves no connection, and nothing of one that was tried. -/
  down : result = .returned false → ¬ machine.source.Live ∧
    (connects events ≠ 0 → machine.source.connected = false ∧ machine.source.websocket = none)
  /-- False before the last attempt allowed is the answer to a request. -/
  early : result = .returned false →
    (start.source.reconnectMaxAttempts ≠ 0 →
      connects events < start.source.reconnectMaxAttempts.toNat) →
    .shutdownCheck true ∈ events
  /-- The checks have seen what was requested, -/
  answers : ∀ before requested after, events = before ++ .shutdownCheck requested :: after →
    requested = start.env.shutdown (start.checks + (tally before).checks)
  /-- and nothing is tried once one has seen a request. -/
  stops : ∀ before host port target after, events = before ++ .connect host port target :: after →
    .shutdownCheck true ∉ before
  chunks : ∀ chunkMs, .sleep chunkMs ∈ events → chunkMs ≤ 100
  /-- A wait that led to an attempt has slept what was announced. -/
  waits : ∀ before host port target after, events = before ++ .connect host port target :: after →
    (tally before).WaitOver
  /-- As many turns as attempts are enough, -/
  returns : start.source.reconnectMaxAttempts ≠ 0 →
    start.source.reconnectMaxAttempts.toNat ≤ fuel → result ≠ .running
  /-- and a request that stays ends the call however many attempts there are
  left. -/
  returns_of_request : ∀ k, (∀ i, k ≤ i → start.env.shutdown i = true) →
    fuel ≠ 0 → k < start.checks + fuel → result ≠ .running

/-- Checks that have seen no request have had negative answers. -/
theorem shutdown_of_not_requested {start : Machine} {events : List Event}
    (h : EveryEvent (fun past => Disciplined start (tally past)) events)
    (hno : (tally events).requested = false) {i : Nat} (hi : i < (tally events).checks) :
    start.env.shutdown (start.checks + i) = false := by
  induction events using List.reverseRecOn with
  | nil => cases hi
  | append_singleton events event ih =>
    obtain ⟨hevents, hevent⟩ := everyEvent_concat.mp h
    rw [tally_concat] at hno hi
    cases event with
    | shutdownCheck requested =>
      have hboth : (tally events).requested = false ∧ requested = false := Bool.or_eq_false_iff.mp hno
      have hle : i ≤ (tally events).checks := Nat.le_of_lt_succ hi
      rcases Nat.lt_or_eq_of_le hle with hlt | rfl
      · exact ih hevents hboth.1 hlt
      · exact (show requested = _ from hevent).symm.trans hboth.2
    | write stream request succeeded =>
      cases succeeded with
      | true => exact ih hevents hno hi
      | false => exact ih hevents hno hi
    | _ => exact ih hevents hno hi

section Trace

variable {start : Machine} {events : List Event}

/-- An attempt comes before any success. -/
theorem connects_after_success (h : EveryEvent (fun past => Disciplined start (tally past)) events)
    {before after : List Event} {stream : Nat} {request : Bytes}
    (hevents : events = before ++ .write stream request true :: after) : connects after = 0 := by
  refine List.countP_eq_zero.mpr fun event hmem hconnect => ?_
  obtain ⟨middle, rest, rfl⟩ := List.append_of_mem hmem
  cases event with
  | connect host port target =>
    have hdisciplined := h (before ++ .write stream request true :: middle)
      (.connect host port target) rest (by rw [hevents, List.append_assoc, List.cons_append])
    have hsucceeded := (tally_succeeded (before ++ .write stream request true :: middle)).mpr
      ⟨stream, request, List.mem_append_right _ List.mem_cons_self⟩
    exact absurd (hdisciplined.2.1.symm.trans hsucceeded) Bool.false_ne_true
  | _ => cases hconnect

/-- An attempt comes before any request is seen. -/
theorem no_request_before_connect
    (h : EveryEvent (fun past => Disciplined start (tally past)) events)
    {before after : List Event} {host port target : Bytes}
    (hevents : events = before ++ .connect host port target :: after) :
    .shutdownCheck true ∉ before := by
  intro hmem
  have hdisciplined := h before _ after hevents
  exact absurd (hdisciplined.1.symm.trans ((tally_requested before).mpr hmem)) Bool.false_ne_true

end Trace

/-- **Retries are bounded and stop on shutdown.** One call of
`reconnect_with_backoff`, from any state without a live connection, whatever the
network and the operator do: the attempts are no more than configured, none
comes after a success or after a request was seen, a wait that led to one was
slept in full, and the call returns true for a success and nothing else. -/
theorem reconnectWithBackoff_bounded (fuel : Nat) (start : Machine) (hstart : ¬ start.source.Live) :
    ∃ result machine events, (reconnectWithBackoff fuel).run start = .ok result machine ∧
      OneCall start fuel result events machine := by
  have hcounted : Counted start 0 0 := by
    intro hlimit
    exact ⟨rfl, Nat.pos_of_ne_zero fun h => hlimit (UInt64.toNat_inj.mp h)⟩
  have hhead : InCall start (AtHead 0) start := by
    refine ⟨rfl, rfl, rfl, [], (List.append_nil _).symm, rfl, everyEvent_nil _, ⟨rfl, rfl, rfl⟩, rfl,
      Nat.le_refl 0, hstart, fun h => absurd rfl h⟩
  have hloop := backoffLoop_inCall (E := fun _ _ => False) fuel 0 0
    start.source.nextReconnectDelayMs start.source.delayBeforeReconnect hcounted
  rw [Nat.zero_add] at hloop
  have hrun : (reconnectWithBackoff fuel).run start =
      (backoffLoop fuel 0 start.source.nextReconnectDelayMs start.source.delayBeforeReconnect).run
        start := rfl
  rw [hrun]
  cases hx : (backoffLoop fuel 0 start.source.nextReconnectDelayMs
      start.source.delayBeforeReconnect).run start with
  | error e machine => exact (hloop.error hhead hx).elim
  | ok result machine =>
    have hcall := hloop.ok hhead hx
    obtain ⟨events, htrace, -, hevery, hbounded, hends⟩ := hcall.events
    have hattempts := tally_attempts events
    refine ⟨result, machine, events, rfl, ?_⟩
    refine
      { trace := htrace, bounded := ?_, true_iff := ?_, no_attempt_after := ?_, connected := ?_,
        down := ?_, early := ?_, answers := ?_, stops := ?_, chunks := ?_, waits := ?_, returns := ?_,
        returns_of_request := ?_ }
    · rw [← hattempts]
      exact hbounded
    · rw [← tally_succeeded]
      match result with
      | .returned true => exact ⟨fun _ => hends.1, fun _ => rfl⟩
      | .returned false =>
        exact ⟨fun h => (nomatch h), fun h => absurd (hends.1.symm.trans h) Bool.false_ne_true⟩
      | .running =>
        exact ⟨fun h => (nomatch h),
          fun h => absurd (hends.1.succeeded.symm.trans h) Bool.false_ne_true⟩
    · exact fun _ _ _ _ hwritten => connects_after_success hevery hwritten
    · intro hresult
      rw [hresult] at hends
      exact ⟨hends.2.1, hends.2.2.1.trans hcall.initial, hends.2.2.2⟩
    · intro hresult
      rw [hresult] at hends
      rw [← hattempts]
      exact ⟨hends.2.1.notLive, hends.2.1.dropped⟩
    · intro hresult hbefore
      rw [hresult] at hends
      rw [← hattempts] at hbefore
      rcases hends.2.2 with hrequested | ⟨hlimit, hall⟩
      · exact (tally_requested events).mp hrequested
      · exact absurd (hbefore hlimit) (by rw [hall]; exact Nat.lt_irrefl _)
    · intro before requested after hevents
      exact hevery before _ after hevents
    · exact fun _ _ _ _ _ hconnect => no_request_before_connect hevery hconnect
    · intro chunkMs hmem
      obtain ⟨before, after, hevents⟩ := List.append_of_mem hmem
      exact hevery before _ after hevents
    · intro before host port target after hevents
      exact (hevery before _ after hevents).2.2
    · intro hlimit hfuel hresult
      rw [hresult] at hends
      exact absurd (hends.2.2 hlimit) (Nat.not_lt_of_le hfuel)
    · intro k hrequest hfuel hk hresult
      rw [hresult] at hends
      obtain ⟨hgoing, hchecks, -⟩ := hends
      -- the check at the head of the last turn came after the request
      have hlast : fuel - 1 < (tally events).checks := by omega
      have hno := shutdown_of_not_requested hevery hgoing.requested hlast
      rw [hrequest _ (by omega)] at hno
      cases hno

/-- A call with two attempts while the network is down. -/
theorem reconnectWithBackoff_bounded_networkDown :
    ∃ result machine events,
      (reconnectWithBackoff 2).run (.start reconnectingSource networkDown) = .ok result machine ∧
        OneCall (.start reconnectingSource networkDown) 2 result events machine :=
  reconnectWithBackoff_bounded 2 (.start reconnectingSource networkDown)
    fun hlive => absurd hlive.1 Bool.false_ne_true

end ASNPrefixMap.Source
