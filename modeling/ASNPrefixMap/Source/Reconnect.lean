import ASNPrefixMap.Source.Session

/-!
# Reconnecting with reconnect disabled

`reconnect_enabled` is consulted in `ensure_connected` only, to choose between
one connect attempt and the retry loop. It does not keep `next_message` from
going round its own loop: after a read error the connection is reset and the
next iteration connects again, unless one of the two shutdown checks on the way
answers true. `noReconnect_iff` says that this is the only way in which a source
without reconnect connects twice. The proof follows a run of such a source,
which has no choices: `Entry` is where a call starts, and `nextMessage_disabled`
lists how it can end.
-/

namespace ASNPrefixMap.Source

open Lib

/-- Whether `connect()` starts here. The event stands before anything that may
throw, so failed attempts count. -/
def isConnect : Event → Bool
  | .connect _ _ _ => true
  | _ => false

/-- The number of calls of `connect()`. -/
def connects (trace : List Event) : Nat := trace.countP isConnect

/-- The event of a network operation that has thrown. -/
def Event.failed : Event → Bool
  | .resolve _ _ succeeded => !succeeded
  | .setHostName _ _ succeeded => !succeeded
  | .tcpConnect _ succeeded => !succeeded
  | .tlsHandshake _ succeeded => !succeeded
  | .webSocketHandshake _ _ _ succeeded => !succeeded
  | .write _ _ succeeded => !succeeded
  | .read _ _ succeeded => !succeeded
  | _ => false

/-- Calls of `next_message` up to and including the first that does not return a
text. -/
def receive : List Nat → NetM (List (Progress (Option Bytes)))
  | [] => return []
  | fuel :: fuels => do
    match ← nextMessage fuel with
    | .returned (some json) => do
      let rest ← receive fuels
      return .returned (some json) :: rest
    | result => return [result]

/-- At most one connect, and a call in which an operation fails returns false.
Two iterations are enough for a call to return. -/
structure OneConnection (fuels : List Nat) (results : List (Progress (Option Bytes)))
    (machine : Machine) : Prop where
  once : connects machine.trace ≤ 1
  stops : (∀ fuel ∈ fuels, 2 ≤ fuel) → (∃ event ∈ machine.trace, event.failed = true) →
    results.getLast? = some (.returned none)

/-- However many calls are made, until one returns false they make do with one
connection. -/
def NoReconnect (source : RisLiveWebSocketSource) (env : Environment) : Prop :=
  ∀ fuels, ∃ results machine, (receive fuels).run (.start source env) = .ok results machine ∧
    OneConnection fuels results machine

/-- Up to the read number `k`, counted from 0, nothing has failed and no
shutdown was requested: the first call makes two checks and six operations
before its read, each further call one check. -/
structure UntilRead (env : Environment) (k : Nat) : Prop where
  shutdown : ∀ i < k + 2, env.shutdown i = false
  network : ∀ i < k + 6, (env.network i).succeeds = true

/-- The read number `k` is the first to fail. -/
structure FailedRead (env : Environment) (k : Nat) : Prop where
  before : UntilRead env k
  fails : (env.network (k + 6)).succeeds = false

/-- Whenever a read fails, a shutdown is requested at one of the next two
checks. -/
def ShutdownAfterFailedRead (env : Environment) : Prop :=
  ∀ k, FailedRead env k → env.shutdown (k + 2) = true ∨ env.shutdown (k + 3) = true

/-! ## Steps that ask nothing of the environment -/

/-- A property that a change of the source leaves alone, if it keeps the
reconnect setting, and that an event leaves alone, if it is neither a connect
nor a failure. -/
structure Calm (I : Machine → Prop) : Prop where
  withSource : ∀ {machine : Machine} {source : RisLiveWebSocketSource} {streams : Nat},
    source.reconnectEnabled = machine.source.reconnectEnabled → I machine →
      I { machine with source := source, streams := streams }
  emit : ∀ {machine : Machine} {event : Event}, event.failed = false → isConnect event = false →
    I machine → I (machine.emit event)

/-- The events of taking, dropping and missing a stream. -/
def Event.handling : Event → Bool
  | .create _ => true
  | .release _ => true
  | .nullDereference => true
  | _ => false

/-- A property that does not depend on which stream is held. -/
structure StreamFree (I : Machine → Prop) : Prop where
  hold : ∀ {machine : Machine} (websocket : Option Nat) (streams : Nat), I machine →
    I { machine with source := { machine.source with websocket := websocket }, streams := streams }
  emit : ∀ {machine : Machine} {event : Event}, event.handling = true → I machine →
    I (machine.emit event)

/-- In particular it does not depend on the stream. -/
theorem Calm.streamFree {I : Machine → Prop} (hI : Calm I) : StreamFree I := by
  refine ⟨fun _ _ h => hI.withSource rfl h, fun {machine event} hevent h => ?_⟩
  cases event with
  | create => exact hI.emit rfl rfl h
  | release => exact hI.emit rfl rfl h
  | nullDereference => exact hI.emit rfl rfl h
  | _ => cases hevent

section StreamFree

variable {I : Machine → Prop} {E : Exception → Machine → Prop}

theorem releaseStream_free (hI : StreamFree I) : Triple I releaseStream (fun _ => I) E := by
  unfold releaseStream
  refine Triple.get_bind_of_forall fun machine _ => ?_
  cases machine.source.websocket with
  | none => exact Triple.pure fun _ h => h
  | some s =>
    exact Triple.bind (R := fun _ => I) (Triple.modify fun _ h => hI.emit rfl h) fun _ =>
      Triple.modify fun m h => hI.hold none m.streams h

/-- After `connect` has created a stream, `websocket_` holds one. -/
theorem createStream_free (hI : StreamFree I) :
    Triple I createStream (fun _ machine => ∃ s, I machine ∧ machine.source.websocket = some s) E := by
  unfold createStream
  refine Triple.get_bind_of_forall fun machine _ => ?_
  refine Triple.bind (R := fun _ => I) (Triple.modify fun _ h => hI.emit rfl h) fun _ => ?_
  refine Triple.bind (R := fun _ => I)
    (Triple.modify fun m h => hI.hold m.source.websocket (m.streams + 1) h) fun _ => ?_
  refine (releaseStream_free hI).bind fun _ => Triple.modify fun m h => ?_
  exact ⟨machine.streams, hI.hold (some machine.streams) m.streams h, rfl⟩

/-- Looking at the stream keeps it, also when there is none. -/
theorem stream_free (hI : StreamFree I) : Triple I stream (fun _ => I) fun _ => I := by
  unfold stream
  refine Triple.get_bind_of_forall fun machine _ => ?_
  cases machine.source.websocket with
  | none =>
    exact Triple.bind (R := fun _ => I) (Triple.modify fun _ h => hI.emit rfl h) fun _ =>
      Triple.throw fun _ h => h
  | some s => exact Triple.pure fun _ h => h

end StreamFree

section Calm

variable {I : Machine → Prop} {E : Exception → Machine → Prop}

/-- Assignments to members keep it, but for one to the reconnect setting. -/
theorem modifySource_calm (hI : Calm I) {f : RisLiveWebSocketSource → RisLiveWebSocketSource}
    (hf : ∀ source, (f source).reconnectEnabled = source.reconnectEnabled) :
    Triple I (modifySource f) (fun _ => I) E :=
  Triple.modify fun machine h => hI.withSource (hf machine.source) h

theorem resetConnection_calm (hI : Calm I) : Triple I resetConnection (fun _ => I) E := by
  unfold resetConnection
  exact (modifySource_calm hI fun _ => by rfl).bind fun _ => (releaseStream_free hI.streamFree).bind fun _ =>
    modifySource_calm hI fun _ => by rfl

end Calm

/-! ## Connects are never taken back -/

section Growing

variable {n : Nat} {E : Exception → Machine → Prop}

/-- There have been at least `n` connects. -/
def AtLeast (n : Nat) (machine : Machine) : Prop := n ≤ connects machine.trace

theorem AtLeast.concat {trace : List Event} (h : n ≤ connects trace) (event : Event) :
    n ≤ connects (trace ++ [event]) := by
  unfold connects at h ⊢
  rw [List.countP_append]
  omega

/-- A lower bound on the connects survives any event. -/
theorem atLeast_stable (n : Nat) : Stable (AtLeast n) := by
  intro machine machine' event _ _ ha h
  unfold AtLeast
  rw [ha.trace]
  exact AtLeast.concat h event

/-- It does not depend on the source at all. -/
theorem atLeast_calm (n : Nat) : Calm (AtLeast n) :=
  ⟨fun _ h => h, fun _ _ h => AtLeast.concat h _⟩

/-- Network operations keep it, whether or not they succeed. -/
theorem operate_atLeast (event : NetworkAnswer → Event) (what : NetworkAnswer → Bytes) :
    Triple (AtLeast n) (operate event what) (fun _ => AtLeast n) (fun _ => AtLeast n) := by
  have hgrow : ∀ machine machine' e, After machine machine' e → AtLeast n machine →
      AtLeast n machine' := by
    intro machine machine' e ha h
    unfold AtLeast
    rw [ha.trace]
    exact AtLeast.concat h e
  exact operate_triple (fun machine machine' answer _ ha h => hgrow machine machine' _ ha h)
    fun machine machine' answer e _ ha h => hgrow machine machine' _ ha h

/-- `connect()` counts from its start, also when it throws. -/
theorem connect_atLeast :
    Triple (AtLeast n) connect (fun _ => AtLeast (n + 1)) (fun _ => AtLeast (n + 1)) := by
  have hcalm : Calm (AtLeast (n + 1)) := atLeast_calm (n + 1)
  unfold connect
  refine Triple.get_bind_of_forall fun machine _ => ?_
  refine Triple.bind (R := fun _ => AtLeast (n + 1)) (Triple.modify fun machine h => ?_) fun _ => ?_
  · unfold AtLeast connects at h ⊢
    show n + 1 ≤ (machine.trace ++ [_]).countP isConnect
    rw [List.countP_append]
    exact Nat.add_le_add_right h 1
  refine (operate_atLeast _ _).bind fun _ => ?_
  refine Triple.bind (R := fun _ => AtLeast (n + 1)) ?_ fun _ => ?_
  · exact (createStream_free hcalm.streamFree).conseq (fun _ h => h) (fun _ _ ⟨_, h, _⟩ => h) fun _ _ h => h
  exact (stream_free hcalm.streamFree).bind fun ws => (operate_atLeast _ _).bind fun _ =>
    (operate_atLeast _ _).bind fun _ => (operate_atLeast _ _).bind fun _ =>
      (operate_atLeast _ _).bind fun _ => modifySource_calm hcalm fun _ => by rfl

theorem sendSubscribe_atLeast :
    Triple (AtLeast n) sendSubscribe (fun _ => AtLeast n) (fun _ => AtLeast n) := by
  unfold sendSubscribe
  refine Triple.get_bind_of_forall fun machine _ => Triple.ite (fun _ => ?_) fun _ => ?_
  · exact Triple.throw fun _ h => h
  · exact (stream_free (atLeast_calm n).streamFree).bind fun _ => operate_atLeast _ _

/-- An attempt is one connect more, whatever comes of it. -/
theorem tryConnect_atLeast : Triple (AtLeast n) tryConnect (fun _ => AtLeast (n + 1)) E := by
  unfold tryConnect
  exact Triple.attempt (connect_atLeast.bind fun _ => sendSubscribe_atLeast)

/-- Where the exact number does not matter, an attempt keeps the bound. -/
theorem tryConnect_keeps : Triple (AtLeast n) tryConnect (fun _ => AtLeast n) E :=
  tryConnect_atLeast.conseq (fun _ h => h) (fun _ _ h => Nat.le_of_succ_le h) fun _ _ h => h

theorem backoffLoop_atLeast : ∀ (fuel : Nat) (attempts delayMs : UInt64) (delayBeforeAttempt : Bool),
    Triple (AtLeast n) (backoffLoop fuel attempts delayMs delayBeforeAttempt)
      (fun _ => AtLeast n) E := by
  have hcalm : Calm (AtLeast n) := atLeast_calm n
  intro fuel
  induction fuel with
  | zero => exact fun _ _ _ => Triple.pure fun _ h => h
  | succ fuel ih =>
    intro attempts delayMs delayBeforeAttempt
    unfold backoffLoop
    refine (shutdownRequested_triple (atLeast_stable n)).bind fun _ => Triple.ite (fun _ => ?_) fun _ => ?_
    · exact Triple.pure fun _ h => h
    refine (waitBeforeAttempt_triple (atLeast_stable n) _ _ _).bind fun _ =>
      Triple.ite (fun _ => ?_) fun _ => ?_
    · exact Triple.pure fun _ h => h
    refine tryConnect_keeps.bind fun failure => ?_
    cases failure with
    | none => exact (modifySource_calm hcalm fun _ => by rfl).bind fun _ => Triple.pure fun _ h => h
    | some e =>
      refine (resetConnection_calm hcalm).bind fun _ => Triple.get_bind_of_forall fun machine _ =>
        Triple.ite (fun _ => ?_) fun _ => ?_
      · exact Triple.pure fun _ h => h
      · exact (modifySource_calm hcalm fun _ => by rfl).bind fun _ => ih _ _ _

theorem ensureConnected_atLeast (fuel : Nat) :
    Triple (AtLeast n) (ensureConnected fuel) (fun _ => AtLeast n) E := by
  have hcalm : Calm (AtLeast n) := atLeast_calm n
  unfold ensureConnected
  refine Triple.get_bind_of_forall fun machine _ => Triple.ite (fun _ => ?_) fun _ => ?_
  · exact Triple.pure fun _ h => h
  refine (shutdownRequested_triple (atLeast_stable n)).bind fun _ => Triple.ite (fun _ => ?_) fun _ => ?_
  · exact Triple.pure fun _ h => h
  refine Triple.ite (fun _ => ?_) fun _ => ?_
  · refine tryConnect_keeps.bind fun failure => ?_
    cases failure with
    | none => exact (modifySource_calm hcalm fun _ => by rfl).bind fun _ => Triple.pure fun _ h => h
    | some e => exact (resetConnection_calm hcalm).bind fun _ => Triple.pure fun _ h => h
  · unfold reconnectWithBackoff
    exact Triple.get_bind_of_forall fun machine _ => backoffLoop_atLeast _ _ _ _

theorem readMessage_atLeast :
    Triple (AtLeast n) readMessage (fun _ => AtLeast n) (fun _ => AtLeast n) := by
  have hcalm : Calm (AtLeast n) := atLeast_calm n
  unfold readMessage
  refine (modifySource_calm hcalm fun _ => by rfl).bind fun _ => (stream_free hcalm.streamFree).bind fun _ => ?_
  refine Triple.get_bind_of_forall fun machine _ => ?_
  exact (modifySource_calm hcalm fun _ => by rfl).bind fun _ => operate_atLeast _ _

/-- A call of `next_message` keeps the bound. With this, a second connect found
anywhere in a run is there at its end. -/
theorem nextMessage_atLeast : ∀ (fuel : Nat),
    Triple (AtLeast n) (nextMessage fuel) (fun _ => AtLeast n) E := by
  intro fuel
  induction fuel with
  | zero => exact Triple.pure fun _ h => h
  | succ fuel ih =>
    unfold nextMessage
    refine (shutdownRequested_triple (atLeast_stable n)).bind fun _ => Triple.ite (fun _ => ?_) fun _ => ?_
    · exact Triple.pure fun _ h => h
    refine (ensureConnected_atLeast fuel).bind fun result => ?_
    cases result with
    | running => exact Triple.pure fun _ h => h
    | returned connected =>
      cases connected with
      | false => exact Triple.pure fun _ h => h
      | true =>
        refine (Triple.attempt (Q := fun _ => AtLeast n) readMessage_atLeast).bind fun failure => ?_
        cases failure with
        | none => exact Triple.get_bind_of_forall fun machine _ => Triple.pure fun _ h => h
        | some e => exact (resetConnection_calm (atLeast_calm n)).bind fun _ => ih

end Growing

/-! ## A run without reconnect -/

section Disabled

variable {env : Environment} {checks operations n : Nat} {E : Exception → Machine → Prop}

/-- No operation of the trace has failed. -/
def AllSucceeded (trace : List Event) : Prop := ∀ event ∈ trace, event.failed = false

theorem AllSucceeded.concat {trace : List Event} (h : AllSucceeded trace) {event : Event}
    (hevent : event.failed = false) : AllSucceeded (trace ++ [event]) := by
  intro e he
  rcases List.mem_append.mp he with he | he
  · exact h e he
  · rw [List.mem_singleton.mp he]
    exact hevent

/-- A source without reconnect, how many answers it has asked for and how often
it has connected. The answers come in order, so these numbers say where in its
run the source is. -/
structure Track (env : Environment) (checks operations n : Nat) (machine : Machine) : Prop where
  env_eq : machine.env = env
  disabled : machine.source.reconnectEnabled = false
  checks_eq : machine.checks = checks
  operations_eq : machine.operations = operations
  connects_eq : connects machine.trace = n

/-- Nothing has failed so far. -/
structure Quiet (env : Environment) (checks operations n : Nat) (machine : Machine) : Prop where
  track : Track env checks operations n machine
  network : ∀ i < operations, (env.network i).succeeds = true
  trace : AllSucceeded machine.trace

/-- The latest operation has failed, the first to do so. -/
structure Failed (env : Environment) (checks operations n : Nat) (machine : Machine) : Prop where
  track : Track env checks (operations + 1) n machine
  network : ∀ i < operations, (env.network i).succeeds = true
  fails : (env.network operations).succeeds = false

/-- What `ensure_connected` looks at first. -/
def Linked (source : RisLiveWebSocketSource) : Prop :=
  source.connected = true ∧ source.websocket.isSome = true

/-- Linked, through the stream `s`. -/
def LinkedBy (s : Nat) (source : RisLiveWebSocketSource) : Prop :=
  source.connected = true ∧ source.websocket = some s

theorem LinkedBy.linked {s : Nat} {source : RisLiveWebSocketSource} (h : LinkedBy s source) :
    Linked source :=
  ⟨h.1, by rw [h.2]; rfl⟩

theorem Down.not_linked {machine : Machine} (h : Down machine) : ¬ Linked machine.source := by
  intro hlinked
  have hfalse : false = true := h.connected.symm.trans hlinked.1
  cases hfalse

theorem connects_concat {event : Event} (h : isConnect event = false) (trace : List Event) :
    connects (trace ++ [event]) = connects trace := by
  unfold connects
  rw [List.countP_append, List.countP_singleton, h]
  rfl

/-- What is tracked depends on the source by its reconnect setting alone. -/
theorem track_calm : Calm (Track env checks operations n) := by
  refine ⟨fun hsource h => ?_, fun _ hconnect h => ?_⟩
  · exact ⟨h.env_eq, hsource.trans h.disabled, h.checks_eq, h.operations_eq, h.connects_eq⟩
  · exact ⟨h.env_eq, h.disabled, h.checks_eq, h.operations_eq,
      (connects_concat hconnect _).trans h.connects_eq⟩

theorem quiet_calm : Calm (Quiet env checks operations n) := by
  refine ⟨fun hsource h => ?_, fun hfailed hconnect h => ?_⟩
  · exact ⟨track_calm.withSource hsource h.track, h.network, h.trace⟩
  · exact ⟨track_calm.emit hfailed hconnect h.track, h.network, h.trace.concat hfailed⟩

theorem failed_calm : Calm (Failed env checks operations n) := by
  refine ⟨fun hsource h => ?_, fun hfailed hconnect h => ?_⟩
  · exact ⟨track_calm.withSource hsource h.track, h.network, h.fails⟩
  · exact ⟨track_calm.emit hfailed hconnect h.track, h.network, h.fails⟩

/-- A shutdown check is answered by the next answer of the environment. -/
theorem Track.shutdownRequested_run {machine : Machine} (h : Track env checks operations n machine) :
    ∃ machine', shutdownRequested.run machine = .ok (env.shutdown checks) machine' ∧
      Track env (checks + 1) operations n machine' ∧
      After machine machine' (.shutdownCheck (env.shutdown checks)) := by
  have hanswer : machine.env.shutdown machine.checks = env.shutdown checks := by
    rw [h.env_eq, h.checks_eq]
  rw [← hanswer]
  refine ⟨_, rfl, ⟨h.env_eq, h.disabled, congrArg (· + 1) h.checks_eq, h.operations_eq, ?_⟩,
    rfl, rfl, rfl⟩
  exact (connects_concat rfl _).trans h.connects_eq

/-- A shutdown check takes one answer and does not count as a failure. -/
theorem shutdownRequested_quiet (p : RisLiveWebSocketSource → Prop) :
    Triple (fun machine => Quiet env checks operations n machine ∧ p machine.source)
      shutdownRequested
      (fun requested machine => requested = env.shutdown checks ∧
        Quiet env (checks + 1) operations n machine ∧ p machine.source) E := by
  intro machine ⟨h, hp⟩
  obtain ⟨machine', hrun, htrack, hafter⟩ := h.track.shutdownRequested_run
  have htrace : AllSucceeded machine'.trace := by
    rw [hafter.trace]
    exact h.trace.concat rfl
  rw [hrun]
  exact ⟨rfl, ⟨htrack, h.network, htrace⟩, by rw [hafter.source]; exact hp⟩

theorem shutdownRequested_failed (p : RisLiveWebSocketSource → Prop) :
    Triple (fun machine => Failed env checks operations n machine ∧ p machine.source)
      shutdownRequested
      (fun requested machine => requested = env.shutdown checks ∧
        Failed env (checks + 1) operations n machine ∧ p machine.source) E := by
  intro machine ⟨h, hp⟩
  obtain ⟨machine', hrun, htrack, hafter⟩ := h.track.shutdownRequested_run
  rw [hrun]
  exact ⟨rfl, ⟨htrack, h.network, h.fails⟩, by rw [hafter.source]; exact hp⟩

/-- An operation succeeds or fails as the environment has it; `p` says what
holds of the source. -/
theorem operate_quiet (p : RisLiveWebSocketSource → Prop) {event : NetworkAnswer → Event}
    {what : NetworkAnswer → Bytes}
    (hevent : ∀ answer, (event answer).failed = !answer.succeeds ∧ isConnect (event answer) = false)
    (hE : ∀ e machine, Failed env checks operations n machine → E e machine) :
    Triple (fun machine => Quiet env checks operations n machine ∧ p machine.source)
      (operate event what)
      (fun _ machine => Quiet env checks (operations + 1) n machine ∧ p machine.source) E := by
  intro machine ⟨h, hp⟩
  have hanswer : machine.env.network machine.operations = env.network operations := by
    rw [h.track.env_eq, h.track.operations_eq]
  have htrack : Track env checks (operations + 1) n
      { machine with
        operations := machine.operations + 1
        trace := machine.trace ++ [event (env.network operations)] } :=
    ⟨h.track.env_eq, h.track.disabled, h.track.checks_eq, congrArg (· + 1) h.track.operations_eq,
      (connects_concat (hevent _).2 _).trans h.track.connects_eq⟩
  rw [operate_run, hanswer]
  dsimp only
  cases hs : (env.network operations).succeeds with
  | false => exact hE _ _ ⟨htrack, h.network, hs⟩
  | true =>
    refine ⟨⟨htrack, fun i hi => ?_, h.trace.concat ?_⟩, hp⟩
    · rcases Nat.lt_succ_iff_lt_or_eq.mp hi with hlt | rfl
      · exact h.network i hlt
      · exact hs
    · rw [(hevent _).1, hs]
      rfl

/-- `connect` makes five operations. -/
theorem connect_quiet :
    Triple (Quiet env checks operations n) connect
      (fun _ machine => ∃ s, Quiet env checks (operations + 5) (n + 1) machine ∧
        LinkedBy s machine.source)
      (fun _ machine => ∃ i < operations + 5, Failed env checks i (n + 1) machine) := by
  unfold connect
  refine Triple.get_bind_of_forall fun machine _ => ?_
  -- the log line counts as the connect, and each step below as one operation
  refine Triple.bind (R := fun _ machine => Quiet env checks operations (n + 1) machine ∧ True)
    (Triple.modify fun machine h => ⟨⟨?_, h.network, h.trace.concat rfl⟩, trivial⟩) fun _ => ?_
  · refine ⟨h.track.env_eq, h.track.disabled, h.track.checks_eq, h.track.operations_eq, ?_⟩
    show (machine.trace ++ [_]).countP isConnect = n + 1
    rw [List.countP_append]
    exact congrArg (· + 1) h.track.connects_eq
  refine (operate_quiet (fun _ => True) (fun _ => ⟨rfl, rfl⟩)
    fun e m h => ⟨operations, by omega, h⟩).bind fun _ => ?_
  refine Triple.bind ((createStream_free quiet_calm.streamFree).conseq (fun _ h => h.1) (fun _ _ h => h)
    fun _ _ h => h) fun _ => Triple.exists fun s => ?_
  refine (stream_triple fun machine h => h.2).bind fun ws => Triple.of_and fun hws => ?_
  refine (operate_quiet (fun source => source.websocket = some s) (fun _ => ⟨rfl, rfl⟩)
    fun e m h => ⟨operations + 1, by omega, h⟩).bind fun _ => ?_
  refine (operate_quiet (fun source => source.websocket = some s) (fun _ => ⟨rfl, rfl⟩)
    fun e m h => ⟨operations + 2, by omega, h⟩).bind fun _ => ?_
  refine (operate_quiet (fun source => source.websocket = some s) (fun _ => ⟨rfl, rfl⟩)
    fun e m h => ⟨operations + 3, by omega, h⟩).bind fun _ => ?_
  refine (operate_quiet (fun source => source.websocket = some s) (fun _ => ⟨rfl, rfl⟩)
    fun e m h => ⟨operations + 4, by omega, h⟩).bind fun _ => ?_
  exact Triple.modify fun machine ⟨h, hws⟩ => ⟨s, quiet_calm.withSource rfl h, rfl, hws⟩

/-- `send_subscribe` makes one more. -/
theorem sendSubscribe_quiet (s : Nat) :
    Triple (fun machine => Quiet env checks operations n machine ∧ LinkedBy s machine.source)
      sendSubscribe
      (fun _ machine => ∃ s, Quiet env checks (operations + 1) n machine ∧ LinkedBy s machine.source)
      (fun _ machine => Failed env checks operations n machine) := by
  unfold sendSubscribe
  refine Triple.get_bind_of_forall fun machine h => Triple.ite (fun hc => ?_) fun _ => ?_
  · rcases hc with hc | hc
    · exact absurd (h.2.1.symm.trans hc) (by simp)
    · exact absurd (h.2.2.symm.trans hc) (by simp)
  refine (stream_triple fun machine h => h.2.2).bind fun ws => Triple.of_and fun hws => ?_
  exact (operate_quiet (LinkedBy s) (fun _ => ⟨rfl, rfl⟩) fun e m h => h).conseq (fun _ h => h)
    (fun _ _ h => ⟨s, h⟩) fun _ _ h => h

/-- How the attempt to connect ends: linked, or with one of its operations
failed. -/
def Attempted (env : Environment) (checks operations n : Nat) (machine : Machine) :
    Option Exception → Prop
  | none => ∃ s, Quiet env checks (operations + 6) (n + 1) machine ∧ LinkedBy s machine.source
  | some _ => ∃ i < operations + 6, Failed env checks i (n + 1) machine

theorem tryConnect_quiet :
    Triple (Quiet env checks operations n) tryConnect
      (fun failure machine => Attempted env checks operations n machine failure) E := by
  unfold tryConnect
  refine Triple.attempt (Triple.bind (connect_quiet.conseq (fun _ h => h) (fun _ _ h => h) ?_)
    fun _ => Triple.exists fun s => (sendSubscribe_quiet s).conseq (fun _ h => h) (fun _ _ h => h) ?_)
  · intro e machine ⟨i, hi, h⟩
    exact ⟨i, by omega, h⟩
  · intro e machine h
    exact ⟨operations + 5, by omega, h⟩

/-- When the source is linked, `ensure_connected` returns at once and asks
nobody. -/
theorem ensureConnected_linked {P : Machine → Prop} (hP : ∀ machine, P machine → Linked machine.source)
    (fuel : Nat) :
    Triple P (ensureConnected fuel) (fun result machine => result = .returned true ∧ P machine) E := by
  unfold ensureConnected
  refine Triple.get_bind fun machine h => Triple.ite (fun _ => ?_) fun hno => ?_
  · refine Triple.pure fun machine' heq => ?_
    rw [heq]
    exact ⟨rfl, h⟩
  · exact absurd (hP machine h) hno

/-- What is left of `ensure_connected` for a source that is not linked and does
not reconnect. -/
def connectOnce : NetM (Progress Bool) := do
  if ← shutdownRequested then
    return .returned false
  else
    match ← tryConnect with
    | none => do
      modifySource fun source =>
        { source with
          nextReconnectDelayMs := source.reconnectInitialDelayMs
          delayBeforeReconnect := false }
      return .returned true
    | some _ => do
      resetConnection
      return .returned false

/-- When it is not, and reconnect is disabled, `ensure_connected` comes down to
one attempt after a shutdown check. -/
theorem ensureConnected_once {P : Machine → Prop} {Q : Progress Bool → Machine → Prop}
    (hP : ∀ machine, P machine → ¬ Linked machine.source ∧ machine.source.reconnectEnabled = false)
    (h : Triple P connectOnce Q E) (fuel : Nat) : Triple P (ensureConnected fuel) Q E := by
  unfold ensureConnected
  refine Triple.get_bind fun machine hm => Triple.ite (fun hyes => ?_) fun _ => ?_
  · exact absurd hyes (hP machine hm).1
  simp only [(hP machine hm).2, if_true]
  exact h.conseq (fun machine' heq => by rw [heq]; exact hm) (fun _ _ h => h) fun _ _ h => h

/-- How the first `ensure_connected` ends. -/
def EnsuredOnce (env : Environment) (checks operations n : Nat) (machine : Machine) :
    Progress Bool → Prop
  | .running => False
  | .returned true => env.shutdown checks = false ∧
    ∃ s, Quiet env (checks + 1) (operations + 6) (n + 1) machine ∧ LinkedBy s machine.source
  | .returned false => connects machine.trace ≤ n + 1 ∧
    (env.shutdown checks = true ∨ ∃ i < operations + 6, (env.network i).succeeds = false)

/-- That attempt, with the three ways in which it can end. -/
theorem connectOnce_quiet (p : RisLiveWebSocketSource → Prop) :
    Triple (fun machine => Quiet env checks operations n machine ∧ p machine.source) connectOnce
      (fun result machine => EnsuredOnce env checks operations n machine result) E := by
  unfold connectOnce
  refine (shutdownRequested_quiet p).bind fun requested => Triple.of_and fun heq =>
    Triple.ite (fun hyes => ?_) fun hno => ?_
  · refine Triple.pure fun machine h => ⟨?_, Or.inl (heq.symm.trans hyes)⟩
    rw [h.1.track.connects_eq]
    omega
  have hrunning : env.shutdown checks = false := heq.symm.trans (eq_false_of_ne_true hno)
  refine (tryConnect_quiet.conseq (fun _ h => h.1) (fun _ _ h => h) fun _ _ h => h).bind
    fun failure => ?_
  cases failure with
  | none =>
    refine Triple.exists fun s => Triple.bind
      (R := fun _ machine => Quiet env (checks + 1) (operations + 6) (n + 1) machine ∧
        LinkedBy s machine.source)
      (Triple.modify fun machine ⟨h, hs⟩ => ⟨quiet_calm.withSource rfl h, hs⟩) fun _ => ?_
    exact Triple.pure fun machine h => ⟨hrunning, s, h⟩
  | some e =>
    refine Triple.exists fun i => Triple.of_and fun hi =>
      (resetConnection_calm failed_calm).bind fun _ => Triple.pure fun machine h => ?_
    exact ⟨Nat.le_of_eq h.track.connects_eq, Or.inr ⟨i, hi, h.fails⟩⟩

/-- After a failure, `connectOnce` gives up at its shutdown check or
connects. -/
theorem connectOnce_failed (p : RisLiveWebSocketSource → Prop) :
    Triple (fun machine => Failed env checks operations n machine ∧ p machine.source) connectOnce
      (fun result machine =>
        (result = .returned false ∧ env.shutdown checks = true ∧ connects machine.trace = n) ∨
        (env.shutdown checks = false ∧ AtLeast (n + 1) machine)) E := by
  have hcalm : Calm (AtLeast (n + 1)) := atLeast_calm (n + 1)
  unfold connectOnce
  refine (shutdownRequested_failed p).bind fun requested => Triple.of_and fun heq =>
    Triple.ite (fun hyes => ?_) fun hno => ?_
  · exact Triple.pure fun machine h => Or.inl ⟨rfl, heq.symm.trans hyes, h.1.track.connects_eq⟩
  have hrunning : env.shutdown checks = false := heq.symm.trans (eq_false_of_ne_true hno)
  have htry : Triple (fun machine => Failed env (checks + 1) operations n machine ∧ p machine.source)
      tryConnect (fun _ => AtLeast (n + 1)) E :=
    tryConnect_atLeast.conseq (fun _ h => Nat.le_of_eq h.1.track.connects_eq.symm) (fun _ _ h => h)
      fun _ _ h => h
  refine htry.bind fun failure => ?_
  cases failure with
  | none => exact (modifySource_calm hcalm fun _ => by rfl).bind fun _ =>
      Triple.pure fun _ h => Or.inr ⟨hrunning, h⟩
  | some e => exact (resetConnection_calm hcalm).bind fun _ =>
      Triple.pure fun _ h => Or.inr ⟨hrunning, h⟩

/-- A read takes one answer, and is the first failure if it throws. -/
theorem readMessage_quiet (s : Nat) :
    Triple (fun machine => Quiet env checks operations n machine ∧ LinkedBy s machine.source)
      readMessage
      (fun _ machine => Quiet env checks (operations + 1) n machine ∧ LinkedBy s machine.source)
      (fun _ machine => Failed env checks operations n machine) := by
  unfold readMessage
  refine Triple.bind (R := fun _ machine => Quiet env checks operations n machine ∧
      LinkedBy s machine.source)
    (Triple.modify fun machine ⟨h, hs⟩ => ⟨quiet_calm.withSource rfl h, hs⟩) fun _ => ?_
  refine (stream_triple fun machine h => h.2.2).bind fun ws => Triple.of_and fun _ => ?_
  refine Triple.get_bind_of_forall fun machine _ => ?_
  refine Triple.bind (R := fun _ machine => Quiet env checks operations n machine ∧
      LinkedBy s machine.source)
    (Triple.modify fun machine ⟨h, hs⟩ => ⟨quiet_calm.withSource rfl h, hs⟩) fun _ => ?_
  exact operate_quiet (LinkedBy s) (fun _ => ⟨rfl, rfl⟩) fun e m h => h

end Disabled

/-! ## One call without reconnect -/

section Calls

variable {env : Environment} {E : Exception → Machine → Prop}

/-- Where the call number `j` starts. -/
def Entry (env : Environment) : Nat → Machine → Prop
  | 0, machine => Quiet env 0 0 0 machine ∧ ¬ Linked machine.source
  | j + 1, machine => (∀ i < j + 2, env.shutdown i = false) ∧
    ∃ s, Quiet env (j + 2) (j + 7) 1 machine ∧ LinkedBy s machine.source

/-- How the call number `j` can end. -/
inductive Outcome (env : Environment) (j fuel : Nat) (machine : Machine) :
    Progress (Option Bytes) → Prop
  | delivered (json : Bytes) (next : Entry env (j + 1) machine) :
    Outcome env j fuel machine (.returned (some json))
  | stopped (once : connects machine.trace ≤ 1) (why : UntilRead env j →
      FailedRead env j ∧ (env.shutdown (j + 2) = true ∨ env.shutdown (j + 3) = true)) :
    Outcome env j fuel machine (.returned none)
  | unfinished (once : connects machine.trace ≤ 1) (short : fuel < 2) :
    Outcome env j fuel machine .running
  | again (result : Progress (Option Bytes)) (twice : 2 ≤ connects machine.trace)
      (read : FailedRead env j) (first : env.shutdown (j + 2) = false)
      (second : env.shutdown (j + 3) = false) : Outcome env j fuel machine result

/-- Going round the loop after the failed read: nothing but a shutdown request
at one of the next two checks keeps it from connecting again. -/
theorem nextMessage_failed {j : Nat} (hread : FailedRead env j) (fuel : Nat) :
    Triple (fun machine => Failed env (j + 2) (j + 6) 1 machine ∧ ¬ Linked machine.source)
      (nextMessage fuel) (fun result machine => Outcome env j (fuel + 1) machine result) E := by
  cases fuel with
  | zero => exact Triple.pure fun machine h =>
      .unfinished (Nat.le_of_eq h.1.track.connects_eq) Nat.one_lt_two
  | succ fuel =>
    unfold nextMessage
    refine (shutdownRequested_failed fun source => ¬ Linked source).bind fun requested =>
      Triple.of_and fun heq => Triple.ite (fun hyes => ?_) fun hno => ?_
    · exact Triple.pure fun machine h => .stopped (Nat.le_of_eq h.1.track.connects_eq) fun _ =>
        ⟨hread, Or.inl (heq.symm.trans hyes)⟩
    have hfirst : env.shutdown (j + 2) = false := heq.symm.trans (eq_false_of_ne_true hno)
    refine (ensureConnected_once (fun machine h => ⟨h.2, h.1.track.disabled⟩)
      (connectOnce_failed fun source => ¬ Linked source) fuel).bind fun result => Triple.or ?_ ?_
    · refine Triple.of_and fun hresult => Triple.of_and fun hsecond => ?_
      rw [hresult]
      exact Triple.pure fun machine h => .stopped (Nat.le_of_eq h) fun _ =>
        ⟨hread, Or.inr hsecond⟩
    · refine Triple.of_and fun hsecond => ?_
      -- whatever the rest of the call does, it has connected twice
      have hagain : ∀ r machine, AtLeast 2 machine → Outcome env j (fuel + 1 + 1) machine r :=
        fun r machine h => .again r h hread hfirst hsecond
      cases result with
      | running => exact Triple.pure (hagain _)
      | returned connected =>
        cases connected with
        | false => exact Triple.pure (hagain _)
        | true =>
          refine (Triple.attempt (Q := fun _ => AtLeast 2) readMessage_atLeast).bind fun failure => ?_
          cases failure with
          | none => exact Triple.get_bind_of_forall fun machine _ => Triple.pure (hagain _)
          | some e =>
            exact ((resetConnection_calm (atLeast_calm 2)).bind fun _ =>
              nextMessage_atLeast fuel).conseq (fun _ h => h) hagain fun _ _ h => h

/-- The read of the call number `j`, and what follows it. -/
theorem read_or_retry {j : Nat} (hshutdown : ∀ i < j + 2, env.shutdown i = false) (s fuel : Nat) :
    Triple (fun machine => Quiet env (j + 2) (j + 6) 1 machine ∧ LinkedBy s machine.source)
      (do
        match ← attempt readMessage with
        | none => do
          let machine ← get
          return .returned (some machine.source.buffer)
        | some _ => do
          resetConnection
          nextMessage fuel)
      (fun result machine => Outcome env j (fuel + 1) machine result) E := by
  refine Triple.bind (Triple.attempt (Q := fun failure machine =>
    match failure with
    | none => Quiet env (j + 2) (j + 7) 1 machine ∧ LinkedBy s machine.source
    | some _ => Failed env (j + 2) (j + 6) 1 machine) (readMessage_quiet s)) fun failure => ?_
  cases failure with
  | none =>
    refine Triple.get_bind fun machine h => Triple.pure fun machine' heq => ?_
    rw [heq]
    exact .delivered _ ⟨hshutdown, s, h⟩
  | some e =>
    -- the reset leaves the source without a stream, and adds nothing the environment decides
    refine Triple.bind (R := fun _ machine => FailedRead env j ∧
      Failed env (j + 2) (j + 6) 1 machine ∧ ¬ Linked machine.source) ?_ fun _ =>
        Triple.of_and fun hread => nextMessage_failed hread fuel
    refine ((resetConnection_calm failed_calm).and (resetConnection_down (E := E))).conseq
      (fun _ h => ⟨h, trivial⟩) (fun _ machine h => ?_) fun _ _ h => h.1
    exact ⟨⟨⟨hshutdown, h.1.network⟩, h.1.fails⟩, h.1, h.2.not_linked⟩

/-- A shutdown requested too early keeps a read from being reached. -/
theorem not_untilRead_of_shutdown {j i : Nat} (hi : i < j + 2) (h : env.shutdown i = true) :
    ¬ UntilRead env j := by
  intro huntil
  exact absurd (h.symm.trans (huntil.shutdown i hi)) (by simp)

theorem not_untilRead_of_network {j i : Nat} (hi : i < j + 6)
    (h : (env.network i).succeeds = false) : ¬ UntilRead env j := by
  intro huntil
  exact absurd ((huntil.network i hi).symm.trans h) (by simp)

theorem shutdown_lt_succ {c : Nat} (h : ∀ i < c, env.shutdown i = false)
    (hc : env.shutdown c = false) : ∀ i < c + 1, env.shutdown i = false := by
  intro i hi
  rcases Nat.lt_succ_iff_lt_or_eq.mp hi with hlt | rfl
  · exact h i hlt
  · exact hc

/-- The first call connects. -/
theorem nextMessage_first (fuel : Nat) :
    Triple (Entry env 0) (nextMessage fuel)
      (fun result machine => Outcome env 0 fuel machine result) E := by
  cases fuel with
  | zero => exact Triple.pure fun machine h =>
      .unfinished (by rw [h.1.track.connects_eq]; omega) Nat.two_pos
  | succ fuel =>
    unfold nextMessage
    refine (shutdownRequested_quiet fun source => ¬ Linked source).bind fun requested =>
      Triple.of_and fun heq => Triple.ite (fun hyes => ?_) fun hno => ?_
    · refine Triple.pure fun machine h => .stopped (by rw [h.1.track.connects_eq]; omega) fun huntil => ?_
      exact absurd huntil (not_untilRead_of_shutdown (by omega) (heq.symm.trans hyes))
    have hfirst : env.shutdown 0 = false := heq.symm.trans (eq_false_of_ne_true hno)
    refine (ensureConnected_once (fun machine h => ⟨h.2, h.1.track.disabled⟩)
      (connectOnce_quiet fun source => ¬ Linked source) fuel).bind fun result => ?_
    cases result with
    | running => exact fun machine h => h.elim
    | returned connected =>
      cases connected with
      | false =>
        -- a call that returns here has met a request or a failure before its read
        refine Triple.pure fun machine h => .stopped h.1 fun huntil => ?_
        rcases h.2 with hsecond | ⟨i, hi, hfails⟩
        · exact absurd huntil (not_untilRead_of_shutdown (by omega) hsecond)
        · exact absurd huntil (not_untilRead_of_network (by omega) hfails)
      | true =>
        refine Triple.of_and fun hsecond => Triple.exists fun s => read_or_retry (j := 0) ?_ s fuel
        exact shutdown_lt_succ (shutdown_lt_succ (fun i hi => absurd hi (by omega)) hfirst) hsecond

/-- The next calls find the connection in place. -/
theorem nextMessage_next (j fuel : Nat) :
    Triple (Entry env (j + 1)) (nextMessage fuel)
      (fun result machine => Outcome env (j + 1) fuel machine result) E := by
  refine Triple.of_and fun hshutdown => Triple.exists fun s => ?_
  cases fuel with
  | zero => exact Triple.pure fun machine h =>
      .unfinished (Nat.le_of_eq h.1.track.connects_eq) Nat.two_pos
  | succ fuel =>
    unfold nextMessage
    refine (shutdownRequested_quiet (LinkedBy s)).bind fun requested =>
      Triple.of_and fun heq => Triple.ite (fun hyes => ?_) fun hno => ?_
    · refine Triple.pure fun machine h => .stopped (Nat.le_of_eq h.1.track.connects_eq) fun huntil => ?_
      exact absurd huntil (not_untilRead_of_shutdown (by omega) (heq.symm.trans hyes))
    have hrunning : env.shutdown (j + 2) = false := heq.symm.trans (eq_false_of_ne_true hno)
    refine (ensureConnected_linked (fun machine h => h.2.linked) fuel).bind fun result =>
      Triple.of_and fun hresult => ?_
    rw [hresult]
    exact read_or_retry (shutdown_lt_succ hshutdown hrunning) s fuel

/-- **A call without reconnect has one of the outcomes listed.** There are no
choices in it: the environment says which. -/
theorem nextMessage_disabled (j fuel : Nat) :
    Triple (Entry env j) (nextMessage fuel)
      (fun result machine => Outcome env j fuel machine result) E := by
  cases j with
  | zero => exact nextMessage_first fuel
  | succ j => exact nextMessage_next j fuel

/-- Where a call starts there has been one connect at most. -/
theorem Entry.connects_le {j : Nat} {machine : Machine} (h : Entry env j machine) :
    connects machine.trace ≤ 1 := by
  cases j with
  | zero =>
    rw [h.1.track.connects_eq]
    omega
  | succ j =>
    obtain ⟨_, s, hquiet, _⟩ := h
    exact Nat.le_of_eq hquiet.track.connects_eq

theorem Entry.allSucceeded {j : Nat} {machine : Machine} (h : Entry env j machine) :
    AllSucceeded machine.trace := by
  cases j with
  | zero => exact h.1.trace
  | succ j =>
    obtain ⟨_, s, hquiet, _⟩ := h
    exact hquiet.trace

/-- The read of the call before has succeeded. -/
theorem Entry.not_failedRead {j : Nat} {machine : Machine} (h : Entry env (j + 1) machine) :
    ¬ FailedRead env j := by
  intro hread
  obtain ⟨_, s, hquiet, _⟩ := h
  exact absurd ((hquiet.network (j + 6) (by omega)).symm.trans hread.fails) (by simp)

end Calls

/-! ## Runs without reconnect -/

section Runs

variable {env : Environment} {E : Exception → Machine → Prop}

/-- If a failed read is always followed by a shutdown, the loop never gets to a
second connect. -/
theorem ShutdownAfterFailedRead.not_again (h : ShutdownAfterFailedRead env) {j : Nat}
    (hread : FailedRead env j) (hfirst : env.shutdown (j + 2) = false)
    (hsecond : env.shutdown (j + 3) = false) : False := by
  rcases h j hread with hs | hs
  · exact absurd (hs.symm.trans hfirst) (by simp)
  · exact absurd (hs.symm.trans hsecond) (by simp)

/-- A call that returns a text goes before the others. -/
theorem OneConnection.cons {fuel : Nat} {fuels : List Nat} {results : List (Progress (Option Bytes))}
    {machine : Machine} (h : OneConnection fuels results machine)
    (result : Progress (Option Bytes)) : OneConnection (fuel :: fuels) (result :: results) machine := by
  refine ⟨h.once, fun hfuels hfailed => ?_⟩
  have hlast := h.stops (fun f hf => hfuels f (List.mem_cons_of_mem _ hf)) hfailed
  rw [List.getLast?_cons, hlast]
  rfl

/-- A call that returned no text is the last. -/
theorem Outcome.oneConnection (hshutdown : ShutdownAfterFailedRead env) {j fuel : Nat}
    {fuels : List Nat} {machine : Machine} {result : Progress (Option Bytes)}
    (h : Outcome env j fuel machine result) (hnone : ∀ json, result ≠ .returned (some json)) :
    OneConnection (fuel :: fuels) [result] machine := by
  cases h with
  | delivered json => exact absurd rfl (hnone json)
  | stopped once => exact ⟨once, fun _ _ => rfl⟩
  | unfinished once short =>
    exact ⟨once, fun hfuels _ => absurd (hfuels fuel List.mem_cons_self) (by omega)⟩
  | again _ _ hread hfirst hsecond => exact (hshutdown.not_again hread hfirst hsecond).elim

/-- One direction, by induction on the calls: if each failed read is followed by
a shutdown, one connection is all there is. -/
theorem receive_once (hshutdown : ShutdownAfterFailedRead env) : ∀ (fuels : List Nat) (j : Nat),
    Triple (Entry env j) (receive fuels) (OneConnection fuels) E := by
  intro fuels
  induction fuels with
  | nil =>
    intro j
    refine Triple.pure fun machine h => ⟨h.connects_le, fun _ ⟨event, hmem, hfailed⟩ => ?_⟩
    exact absurd ((h.allSucceeded event hmem).symm.trans hfailed) (by simp)
  | cons fuel fuels ih =>
    intro j
    unfold receive
    refine (nextMessage_disabled j fuel).bind fun result => ?_
    match result with
    | .running => exact Triple.pure fun machine h => h.oneConnection hshutdown (by simp)
    | .returned none => exact Triple.pure fun machine h => h.oneConnection hshutdown (by simp)
    | .returned (some json) =>
      refine Triple.conseq ((ih (j + 1)).bind fun rest => Triple.pure fun machine h => h.cons _)
        (fun machine h => ?_) (fun _ _ h => h) fun _ _ h => h
      cases h with
      | delivered _ next => exact next
      | again _ _ hread hfirst hsecond => exact (hshutdown.not_again hread hfirst hsecond).elim

/-! ### The other direction -/

theorem FailedRead.untilRead {j k : Nat} (h : FailedRead env k) (hjk : j ≤ k) : UntilRead env j :=
  ⟨fun i hi => h.before.shutdown i (by omega), fun i hi => h.before.network i (by omega)⟩

theorem FailedRead.not_earlier {j k : Nat} (h : FailedRead env k) (hjk : j < k) :
    ¬ FailedRead env j := by
  intro hj
  exact absurd ((h.before.network (j + 6) (by omega)).symm.trans hj.fails) (by simp)

/-- Before the failed read, every call returns its text. -/
theorem Outcome.delivered_of_lt {j k : Nat} {machine : Machine} {result : Progress (Option Bytes)}
    (h : Outcome env j 2 machine result) (hread : FailedRead env k) (hjk : j < k) :
    (∃ json, result = .returned (some json)) ∧ Entry env (j + 1) machine := by
  cases h with
  | delivered json next => exact ⟨⟨json, rfl⟩, next⟩
  | stopped _ why => exact absurd (why (hread.untilRead (by omega))).1 (hread.not_earlier hjk)
  | unfinished _ short => exact absurd short (by omega)
  | again _ _ hj => exact absurd hj (hread.not_earlier hjk)

/-- The call with the failed read connects again if it is let. -/
theorem Outcome.twice {k : Nat} {machine : Machine} {result : Progress (Option Bytes)}
    (h : Outcome env k 2 machine result) (hread : FailedRead env k)
    (hfirst : env.shutdown (k + 2) = false) (hsecond : env.shutdown (k + 3) = false) :
    AtLeast 2 machine := by
  cases h with
  | delivered _ next => exact absurd hread next.not_failedRead
  | stopped _ why =>
    rcases (why hread.before).2 with hs | hs
    · exact absurd (hs.symm.trans hfirst) (by simp)
    · exact absurd (hs.symm.trans hsecond) (by simp)
  | unfinished _ short => exact absurd short (by omega)
  | again _ htwice => exact htwice

/-- The other direction: a failed read without a shutdown after it is reached by
enough calls, and the last of them connects twice. -/
theorem receive_twice {k : Nat} (hread : FailedRead env k) (hfirst : env.shutdown (k + 2) = false)
    (hsecond : env.shutdown (k + 3) = false) : ∀ (d j : Nat), j + d = k →
    Triple (Entry env j) (receive (List.replicate (d + 1) 2)) (fun _ => AtLeast 2) E := by
  intro d
  -- on the number of calls that still return a text before the one whose read fails
  induction d with
  | zero =>
    intro j hj
    obtain rfl : j = k := hj
    show Triple (Entry env j) (receive [2]) (fun _ => AtLeast 2) E
    unfold receive
    refine Triple.bind ((nextMessage_disabled j 2).conseq (fun _ h => h)
      (fun _ _ h => h.twice hread hfirst hsecond) fun _ _ h => h) fun result => ?_
    match result with
    | .running => exact Triple.pure fun _ h => h
    | .returned none => exact Triple.pure fun _ h => h
    | .returned (some json) =>
      exact (Triple.pure (Q := fun _ => AtLeast 2) fun _ h => h).bind fun _ => Triple.pure fun _ h => h
  | succ d ih =>
    intro j hj
    show Triple (Entry env j) (receive (2 :: List.replicate (d + 1) 2)) (fun _ => AtLeast 2) E
    unfold receive
    refine Triple.bind ((nextMessage_disabled j 2).conseq (fun _ h => h)
      (fun _ _ h => h.delivered_of_lt hread (by omega)) fun _ _ h => h) fun result =>
        Triple.of_and fun hresult => ?_
    obtain ⟨json, hresult⟩ := hresult
    rw [hresult]
    exact (ih (j + 1) (by omega)).bind fun rest => Triple.pure fun _ h => h

end Runs

/-! ## The theorem -/

/-- **When a source without reconnect does not reconnect.** For a source built
with `reconnect_enabled` false, one connection is all there is, and a failure
ends the calls, if and only if a shutdown is requested right after the first
failed read, should a read be the first to fail. -/
theorem noReconnect_iff (host port target : Bytes) (initialDelayMs maxDelayMs maxAttempts : UInt64)
    (env : Environment) :
    NoReconnect (.new host port target false initialDelayMs maxDelayMs maxAttempts) env ↔
      ShutdownAfterFailedRead env := by
  have hstart : Entry env 0 (.start (.new host port target false initialDelayMs maxDelayMs
      maxAttempts) env) :=
    ⟨⟨⟨rfl, rfl, rfl, rfl, rfl⟩, fun i hi => absurd hi (by omega),
      fun event hmem => absurd hmem List.not_mem_nil⟩, fun h => (by cases h.1)⟩
  constructor
  · intro h k hread
    by_contra hno
    rw [not_or, Bool.not_eq_true, Bool.not_eq_true] at hno
    obtain ⟨results, machine, hrun, hone⟩ := h (List.replicate (k + 1) 2)
    have htwice : 2 ≤ connects machine.trace :=
      (receive_twice (E := fun _ _ => True) hread hno.1 hno.2 k 0 (Nat.zero_add k)).ok hstart hrun
    have honce := hone.once
    -- one connect and two of them
    omega
  · intro hshutdown fuels
    cases hrun : (receive fuels).run (.start (.new host port target false initialDelayMs maxDelayMs
        maxAttempts) env) with
    | ok results machine =>
      exact ⟨results, machine, rfl,
        (receive_once (E := fun _ _ => False) hshutdown fuels 0).ok hstart hrun⟩
    | error e machine =>
      exact ((receive_once (E := fun _ _ => False) hshutdown fuels 0).error hstart hrun).elim

/-- The source as the default configuration sets it up, with reconnect
disabled. -/
def risLiveSource : RisLiveWebSocketSource :=
  .new (bytes "ris-live.ripe.net") (bytes "443") (bytes "/v1/ws/") false 1000 30000 0

/-- Nobody requests a shutdown, and the second read fails. -/
def secondReadFails : Environment where
  shutdown := fun _ => false
  network := fun i => { succeeds := i != 7 }

/-- The second call connects again and then returns a text. Its first read
fails, and `next_message` goes round its loop without looking at
`reconnect_enabled_`. -/
theorem second_read_reconnects : ¬ NoReconnect risLiveSource secondReadFails := by
  intro h
  obtain ⟨results, machine, hrun, hone⟩ := h [2, 2]
  have htwice : (match (receive [2, 2]).run (.start risLiveSource secondReadFails) with
    | .ok _ machine => connects machine.trace
    | .error _ _ => 0) = 2 := by decide +kernel
  rw [hrun] at htwice
  have honce : connects machine.trace ≤ 1 := hone.once
  exact absurd (htwice.symm.trans_le honce) (by omega)

end ASNPrefixMap.Source
