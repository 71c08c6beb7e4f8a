import ASNPrefixMap.Lib.Custody
import ASNPrefixMap.Source.Session

/-!
# Streams are given back

A `RisLiveWebSocketSource` makes a stream for each attempt to connect, and
`websocket_` owns it. Over the life of a source, to its destructor and through
any failures, no two streams exist at a time, a stream is used only while it
exists, and each is destroyed once (`streams_destroyed`). The destructor closes
the connection there is, and no other. The invariant says that the stream which
is out in the trace is the one in `websocket_` (`Ledger`).

The ledger is an instance of `ASNPrefixMap.Lib.Custody`: `streamRole` says what
an event is to a stream, and custody is what the library makes of it.
-/

namespace ASNPrefixMap.Source

open Lib

/-! ## The destructor -/

/-- `websocket_->close(...)` in its `try` block: the stream that was closed, and
whether this went without an exception. The trace has no event for it. -/
def closeWebSocket : NetM (Option (Nat × Bool)) := do
  let machine ← get
  if machine.source.connected = false ∨ machine.source.websocket = none then
    return none
  else do
    let ws ← stream
    let answer := machine.env.network machine.operations
    modify fun machine => { machine with operations := machine.operations + 1 }
    return some (ws, answer.succeeds)

/-- `~RisLiveWebSocketSource`, and then the members: `websocket_` destroys its
stream. -/
def destroy : NetM (Option (Nat × Bool)) := do
  let closed ← closeWebSocket
  releaseStream
  return closed

/-! ## The ledger -/

/-- What an event is to a stream. -/
def streamRole : Event → Role Nat
  | .create s => .takes s
  | .release s => .givesBack s
  | event => match event.stream with
    | some s => .uses s
    | none => .unrelated

/-- The invariant: the trace is in order, and the stream that is out in it is
the one in `websocket_`. -/
structure Ledger (machine : Machine) : Prop where
  orderly : Orderly streamRole machine.trace
  owned : holder streamRole machine.trace = machine.source.websocket
  numbered : ∀ s, .create s ∈ machine.trace ↔ s < machine.streams

/-- The ledger, with the state of the connection between two calls. -/
def AtRest (machine : Machine) : Prop :=
  Ledger machine ∧ machine.source.connected = machine.source.websocket.isSome

/-- The ledger, with a stream that is out. -/
def Owning (s : Nat) (machine : Machine) : Prop :=
  Ledger machine ∧ machine.source.websocket = some s

/-- Connected. -/
def Serving (machine : Machine) : Prop :=
  ∃ s, Owning s machine ∧ machine.source.connected = true

/-- The ledger, with no stream out. -/
def Vacant (machine : Machine) : Prop := Ledger machine ∧ Down machine

theorem streamRole_takes {event : Event} {s : Nat} : streamRole event = .takes s ↔ event = .create s := by
  cases event with
  | create s' =>
    show Role.takes s' = Role.takes s ↔ _
    rw [Role.takes.injEq, Event.create.injEq]
  | _ => exact ⟨nofun, nofun⟩

theorem streamRole_givesBack {event : Event} {s : Nat} :
    streamRole event = .givesBack s ↔ event = .release s := by
  cases event with
  | release s' =>
    show Role.givesBack s' = Role.givesBack s ↔ _
    rw [Role.givesBack.injEq, Event.release.injEq]
  | _ => exact ⟨nofun, nofun⟩

theorem streamRole_unrelated {event : Event} (h : event.stream = none) :
    streamRole event = .unrelated := by
  cases event with
  | shutdownCheck => rfl
  | connect => rfl
  | resolve => rfl
  | announceWait => rfl
  | sleep => rfl
  | nullDereference => rfl
  | _ => cases h

section Steps

variable {machine machine' : Machine} {event : Event}

theorem Ledger.withSource (h : Ledger machine) {source : RisLiveWebSocketSource}
    (hws : source.websocket = machine.source.websocket) : Ledger { machine with source := source } :=
  ⟨h.orderly, h.owned.trans hws.symm, h.numbered⟩

/-- An event that neither makes nor destroys a stream. -/
theorem Ledger.after (h : Ledger machine) (ha : After machine machine' event)
    (hpermitted : Permitted streamRole machine.trace event)
    (hnext : (streamRole event).next (holder streamRole machine.trace) =
      holder streamRole machine.trace) (hcreate : ∀ s, event ≠ .create s) : Ledger machine' := by
  refine ⟨?_, ?_, fun s => ?_⟩
  · rw [ha.trace]
    exact orderly_concat.mpr ⟨h.orderly, hpermitted⟩
  · rw [ha.trace, ha.source, holder_concat, hnext]
    exact h.owned
  · rw [ha.trace, ha.streams, List.mem_append, List.mem_singleton, h.numbered s]
    exact or_iff_left fun heq => hcreate s heq.symm

/-- An event about no stream keeps the ledger: the trace grows, and what is out
in it stays. -/
theorem Ledger.afterUnrelated (h : Ledger machine) (ha : After machine machine' event)
    (hs : event.stream = none) : Ledger machine' := by
  have hrole := streamRole_unrelated hs
  refine h.after ha ?_ ?_ fun s heq => ?_
  · unfold Permitted
    rw [hrole]
    trivial
  · rw [hrole]
    rfl
  · rw [heq] at hs
    cases hs

theorem Owning.after {s : Nat} (h : Owning s machine) (ha : After machine machine' event)
    (hrole : streamRole event = .uses s) : Owning s machine' := by
  refine ⟨h.1.after ha ?_ ?_ fun s' heq => ?_, ?_⟩
  · unfold Permitted
    rw [hrole]
    exact h.1.owned.trans h.2
  · rw [hrole]
    rfl
  · rw [streamRole_takes.mpr heq] at hrole
    cases hrole
  · rw [ha.source]
    exact h.2

end Steps

/-- The ledger is not touched by events about no stream. -/
theorem ledger_stable : Stable Ledger := fun _ _ _ hs _ ha h => h.afterUnrelated ha hs

theorem atRest_stable : Stable AtRest := by
  intro machine machine' event hs _ ha h
  refine ⟨h.1.afterUnrelated ha hs, ?_⟩
  rw [ha.source]
  exact h.2

theorem vacant_stable : Stable Vacant := ledger_stable.and down_stable

theorem Vacant.atRest {machine : Machine} (h : Vacant machine) : AtRest machine := by
  refine ⟨h.1, ?_⟩
  rw [h.2.connected, h.2.websocket]
  rfl

theorem Serving.atRest {machine : Machine} (h : Serving machine) : AtRest machine := by
  obtain ⟨s, howning, hconnected⟩ := h
  refine ⟨howning.1, ?_⟩
  rw [howning.2, hconnected]
  rfl

theorem AtRest.serving {machine : Machine} (h : AtRest machine)
    (hconnected : machine.source.connected = true) : Serving machine := by
  cases hws : machine.source.websocket with
  | none =>
    have hsame := h.2
    rw [hconnected, hws] at hsame
    cases hsame
  | some s => exact ⟨s, ⟨h.1, hws⟩, hconnected⟩

theorem AtRest.vacant {machine : Machine} (h : AtRest machine)
    (hconnected : ¬ (machine.source.connected = true ∧ machine.source.websocket.isSome = true)) :
    Vacant machine := by
  have hsame := h.2
  cases hws : machine.source.websocket with
  | none =>
    rw [hws] at hsame
    exact ⟨h.1, hsame, hws⟩
  | some s =>
    rw [hws] at hsame
    exact absurd ⟨hsame, hws ▸ rfl⟩ hconnected

/-! ## Making and destroying -/

section Handling

variable {E : Exception → Machine → Prop}

/-- A new stream is taken where there was none: its number is one the trace does
not know, and the pointer had nothing to give back. -/
theorem createStream_ledger :
    Triple Vacant createStream (fun _ machine => ∃ s, Owning s machine) E := by
  intro machine h
  obtain ⟨h, hdown⟩ := h
  have hrun : createStream.run machine = .ok ()
      { machine with
        source := { machine.source with websocket := some machine.streams }
        streams := machine.streams + 1
        trace := machine.trace ++ [.create machine.streams] } := by
    unfold createStream releaseStream emit modifySource
    simp only [EStateM.run_bind, EStateM.run_get, EStateM.run_modify, Machine.emit, hdown.websocket]
    rfl
  rw [hrun]
  refine ⟨machine.streams, ⟨?_, ?_, fun s => ?_⟩, rfl⟩
  · refine orderly_concat.mpr ⟨h.orderly, h.owned.trans hdown.websocket, fun earlier hmem hrole => ?_⟩
    -- a stream made before has a smaller number
    rw [streamRole_takes.mp hrole] at hmem
    exact Nat.lt_irrefl _ ((h.numbered _).mp hmem)
  · exact holder_concat _ _
  · show .create s ∈ machine.trace ++ [Event.create machine.streams] ↔ s < machine.streams + 1
    rw [List.mem_append, List.mem_singleton, h.numbered s, Event.create.injEq, Nat.lt_succ_iff_lt_or_eq]

/-- `websocket_.reset()` leaves no stream. -/
theorem releaseStream_ledger : Triple Ledger releaseStream
    (fun _ machine => Ledger machine ∧ machine.source.websocket = none) E := by
  intro machine h
  unfold releaseStream
  rw [EStateM.run_bind, EStateM.run_get]
  dsimp only
  cases hws : machine.source.websocket with
  | none => exact ⟨h, hws⟩
  | some s =>
    refine ⟨⟨orderly_concat.mpr ⟨h.orderly, h.owned.trans hws⟩, holder_concat _ _, fun s' => ?_⟩, rfl⟩
    show .create s' ∈ machine.trace ++ [Event.release s] ↔ s' < machine.streams
    rw [List.mem_append, List.mem_singleton, h.numbered s']
    exact or_iff_left (by simp)

/-- `reset_connection` gives back the stream there is, in whatever state its
connection was, and leaves none. -/
theorem resetConnection_ledger : Triple Ledger resetConnection (fun _ => Vacant) E := by
  have hledger : Triple Ledger resetConnection (fun _ => Ledger) E := by
    unfold resetConnection
    refine Triple.bind (R := fun _ => Ledger) (Triple.modify fun machine h => h.withSource rfl) fun _ => ?_
    exact releaseStream_ledger.bind fun _ => Triple.modify fun machine h => h.1.withSource rfl
  exact (hledger.and (resetConnection_down (E := E))).conseq (fun _ h => ⟨h, trivial⟩)
    (fun _ _ h => h) fun _ _ h => h.1

end Handling

section Connecting

variable {E : Exception → Machine → Prop}

/-- A network operation on the stream that is out, whichever way it ends. -/
theorem operate_ledger {s : Nat} {event : NetworkAnswer → Event} {what : NetworkAnswer → Bytes}
    (hrole : ∀ answer, streamRole (event answer) = .uses s) :
    Triple (Owning s) (operate event what) (fun _ => Owning s) (fun _ => Ledger) :=
  operate_triple (fun _ _ answer _ ha h => h.after ha (hrole answer))
    fun _ _ answer _ _ ha h => (h.after ha (hrole answer)).1

theorem stream_ledger {s : Nat} : Triple (Owning s) stream (fun ws machine => ws = s ∧ Owning s machine) E :=
  stream_triple fun _ h => h.2

/-- `connect` takes a stream and uses it. If an operation throws, the stream is
not lost: it stays behind in `websocket_` for `reset_connection`. -/
theorem connect_ledger : Triple Vacant connect (fun _ => Serving) (fun _ => Ledger) := by
  unfold connect
  refine Triple.get_bind_of_forall fun machine _ => ?_
  refine (emit_triple vacant_stable rfl (by simp)).bind fun _ => ?_
  refine Triple.bind (R := fun _ => Vacant) ?_ fun _ => createStream_ledger.bind fun _ =>
    Triple.exists fun s => stream_ledger.bind fun ws => Triple.of_and fun hws => ?_
  · exact operate_triple (fun m m' _ _ ha h => vacant_stable m m' _ rfl (by simp) ha h)
      fun _ _ _ _ _ ha h => h.1.afterUnrelated ha rfl
  rw [hws]
  refine (operate_ledger fun _ => rfl).bind fun _ => (operate_ledger fun _ => rfl).bind fun _ => ?_
  refine (operate_ledger fun _ => rfl).bind fun _ => (operate_ledger fun _ => rfl).bind fun _ => ?_
  exact Triple.modify fun machine h => ⟨s, ⟨h.1.withSource rfl, h.2⟩, rfl⟩

theorem sendSubscribe_ledger : Triple Serving sendSubscribe (fun _ => Serving) (fun _ => Ledger) := by
  refine Triple.exists fun s => ?_
  unfold sendSubscribe
  refine Triple.get_bind_of_forall fun machine _ => Triple.ite (fun _ => ?_) fun _ => ?_
  · exact Triple.throw fun _ h => h.1.1
  refine (stream_triple fun _ h => h.1.2).bind fun ws => Triple.of_and fun hws => ?_
  rw [hws]
  refine operate_triple (fun m m' answer _ ha h => ⟨s, h.1.after ha rfl, ?_⟩) fun m m' answer _ _ ha h => ?_
  · rw [ha.source]
    exact h.2
  · exact (h.1.after ha rfl).1

/-- What a `try` block leaves: a connection, or an exception with the ledger
right all the same. -/
def AfterAttempt : Option Exception → Machine → Prop
  | none => Serving
  | some _ => Ledger

/-- An attempt leaves a stream that is being served, or a failed one that is
still in `websocket_`. -/
theorem tryConnect_ledger : Triple Vacant tryConnect AfterAttempt E :=
  Triple.attempt (connect_ledger.bind fun _ => sendSubscribe_ledger)

/-- What `ensure_connected` leaves: a connection if it returned true. -/
def Provided (result : Progress Bool) (machine : Machine) : Prop :=
  AtRest machine ∧ (result = .returned true → Serving machine)

/-- Without a stream, any result but true is right. -/
theorem Vacant.provided {result : Progress Bool} (hresult : result ≠ .returned true) {machine : Machine}
    (h : Vacant machine) : Provided result machine :=
  ⟨h.atRest, fun heq => absurd heq hresult⟩

/-- After a success the delay starts again, whatever it was. -/
theorem connected_ledger {f : RisLiveWebSocketSource → RisLiveWebSocketSource}
    (hws : ∀ source, (f source).websocket = source.websocket)
    (hconnected : ∀ source, (f source).connected = source.connected) :
    Triple Serving (do modifySource f; return .returned true) Provided E := by
  refine Triple.bind (R := fun _ => Serving) (Triple.modify fun machine h => ?_) fun _ =>
    Triple.pure fun _ h => ⟨h.atRest, fun _ => h⟩
  obtain ⟨s, howning, hup⟩ := h
  exact ⟨s, ⟨howning.1.withSource (hws _), (hws _).trans howning.2⟩, (hconnected _).trans hup⟩

/-- The retry loop, by induction on its bound: each failed attempt gives its
stream back before the next one takes another. -/
theorem backoffLoop_ledger : ∀ (fuel : Nat) (attempts delayMs : UInt64) (delayBeforeAttempt : Bool),
    Triple Vacant (backoffLoop fuel attempts delayMs delayBeforeAttempt) Provided E := by
  intro fuel
  induction fuel with
  | zero => exact fun _ _ _ => Triple.pure fun _ h => h.provided (by simp)
  | succ fuel ih =>
    intro attempts delayMs delayBeforeAttempt
    unfold backoffLoop
    refine (shutdownRequested_triple vacant_stable).bind fun _ => Triple.ite (fun _ => ?_) fun _ => ?_
    · exact Triple.pure fun _ h => h.provided (by simp)
    refine (waitBeforeAttempt_triple vacant_stable _ _ _).bind fun _ => Triple.ite (fun _ => ?_) fun _ => ?_
    · exact Triple.pure fun _ h => h.provided (by simp)
    refine tryConnect_ledger.bind fun failure => ?_
    cases failure with
    | none => exact connected_ledger (fun _ => rfl) fun _ => rfl
    | some e =>
      refine resetConnection_ledger.bind fun _ => Triple.get_bind_of_forall fun machine _ =>
        Triple.ite (fun _ => Triple.pure fun _ h => h.provided (by simp)) fun _ => ?_
      exact (Triple.modify fun _ h => ⟨h.1.withSource rfl, h.2.connected, h.2.websocket⟩).bind
        fun _ => ih _ _ _

/-- `ensure_connected` from at rest: serving if it returned true. -/
theorem ensureConnected_ledger (fuel : Nat) :
    Triple AtRest (ensureConnected fuel) Provided E := by
  unfold ensureConnected
  refine Triple.get_bind fun machine h => Triple.ite (fun hup => ?_) fun hdown => ?_
  · refine Triple.pure fun machine' heq => ?_
    rw [heq]
    exact ⟨h, fun _ => h.serving hup.1⟩
  refine Triple.conseq (P := Vacant) ?_ (fun machine' heq => by rw [heq]; exact h.vacant hdown)
    (fun _ _ h => h) fun _ _ h => h
  refine (shutdownRequested_triple vacant_stable).bind fun _ => Triple.ite (fun _ => ?_) fun _ => ?_
  · exact Triple.pure fun _ h => h.provided (by simp)
  refine Triple.ite (fun _ => ?_) fun _ => ?_
  · refine tryConnect_ledger.bind fun failure => ?_
    cases failure with
    | none => exact connected_ledger (fun _ => rfl) fun _ => rfl
    | some e =>
      exact resetConnection_ledger.bind fun _ => Triple.pure fun _ h => h.provided (by simp)
  · unfold reconnectWithBackoff
    exact Triple.get_bind_of_forall fun machine _ => backoffLoop_ledger _ _ _ _

end Connecting

/-! ## Calls -/

section Calls

variable {E : Exception → Machine → Prop}

/-- A read uses the stream that is out. -/
theorem readMessage_ledger : Triple Serving readMessage (fun _ => Serving) (fun _ => Ledger) := by
  intro machine h
  obtain ⟨s, howning, hup⟩ := h
  rw [readMessage_run howning.2]
  dsimp only
  cases hs : (machine.env.network machine.operations).succeeds with
  | false =>
    have ha : After machine (machine.emit
        (.read s (machine.env.network machine.operations).received false)) _ := ⟨rfl, rfl, rfl⟩
    have hafter := howning.after ha rfl
    exact ⟨hafter.1.orderly, hafter.1.owned, hafter.1.numbered⟩
  | true =>
    have ha : After machine (machine.emit
        (.read s (machine.env.network machine.operations).received true)) _ := ⟨rfl, rfl, rfl⟩
    have hafter := howning.after ha rfl
    exact ⟨s, ⟨⟨hafter.1.orderly, hafter.1.owned, hafter.1.numbered⟩, howning.2⟩, hup⟩

/-- A call of `next_message`, by induction on its bound: it ends with no stream,
or with one that is subscribed. -/
theorem nextMessage_ledger : ∀ (fuel : Nat),
    Triple AtRest (nextMessage fuel) (fun _ => AtRest) E := by
  intro fuel
  induction fuel with
  | zero => exact Triple.pure fun _ h => h
  | succ fuel ih =>
    unfold nextMessage
    refine (shutdownRequested_triple atRest_stable).bind fun _ =>
      Triple.ite (fun _ => Triple.pure fun _ h => h) fun _ => ?_
    refine (ensureConnected_ledger fuel).bind fun result => ?_
    rcases result with _ | _ | _
    · exact Triple.pure fun _ h => h.1
    · exact Triple.pure fun _ h => h.1
    · refine (Triple.attempt (P := fun machine => Provided (.returned true) machine) (Q := AfterAttempt)
        (readMessage_ledger.conseq (fun _ h => h.2 rfl) (fun _ _ h => h) fun _ _ h => h)).bind
          fun failure => ?_
      cases failure with
      | none => exact Triple.get_bind_of_forall fun machine _ => Triple.pure fun _ h => h.atRest
      | some e =>
        exact resetConnection_ledger.bind fun _ =>
          ih.conseq (fun _ h => h.atRest) (fun _ _ h => h) fun _ _ h => h

/-- A run of calls, each of which begins where the one before has ended. -/
theorem nextMessages_ledger : ∀ (fuels : List Nat),
    Triple AtRest (nextMessages fuels) (fun _ => AtRest) E := by
  intro fuels
  induction fuels with
  | nil => exact Triple.pure fun _ h => h
  | cons fuel fuels ih =>
    unfold nextMessages
    refine (nextMessage_ledger fuel).bind fun result => ?_
    cases result with
    | running => exact Triple.pure fun _ h => h
    | returned json => exact ih.bind fun _ => Triple.pure fun _ h => h

/-- The destructor closes the stream there is, and destroys it. -/
theorem destroy_ledger (websocket : Option Nat) :
    Triple (fun machine => AtRest machine ∧ machine.source.websocket = websocket) destroy
      (fun closed machine => (Ledger machine ∧ machine.source.websocket = none) ∧
        closed.map Prod.fst = websocket) E := by
  unfold destroy
  refine Triple.bind (R := fun closed machine => closed.map Prod.fst = websocket ∧ Ledger machine) ?_
    fun closed => Triple.of_and fun hclosed => releaseStream_ledger.bind fun _ =>
      Triple.pure fun _ h => ⟨h, hclosed⟩
  intro machine h
  obtain ⟨hrest, hws⟩ := h
  unfold closeWebSocket
  rw [EStateM.run_bind, EStateM.run_get]
  dsimp only
  cases websocket with
  | none =>
    rw [if_pos (Or.inr hws)]
    exact ⟨rfl, hrest.1⟩
  | some s =>
    have hup : ¬ (machine.source.connected = false ∨ machine.source.websocket = none) := by
      rw [hrest.2, hws]
      simp
    have hstream : stream.run machine = .ok s machine := by
      unfold stream
      rw [EStateM.run_bind, EStateM.run_get]
      dsimp only
      rw [hws]
      rfl
    rw [if_neg hup, run_bind_ok hstream]
    exact ⟨rfl, hrest.1.orderly, hrest.1.owned, hrest.1.numbered⟩

end Calls

/-! ## The theorem -/

/-- How often a stream is taken, counted in the trace. -/
theorem taken_eq_count (trace : List Event) (s : Nat) :
    taken streamRole trace s = trace.count (.create s) := by
  unfold taken
  rw [List.count_eq_countP]
  refine List.countP_congr fun event _ => ?_
  rw [decide_eq_true_eq, streamRole_takes, beq_iff_eq]

theorem returned_eq_count (trace : List Event) (s : Nat) :
    returned streamRole trace s = trace.count (.release s) := by
  unfold returned
  rw [List.count_eq_countP]
  refine List.countP_congr fun event _ => ?_
  rw [decide_eq_true_eq, streamRole_givesBack, beq_iff_eq]

/-- Every stream is made once, while there is no other, and used and destroyed
while it exists. -/
structure Accounted (trace : List Event) (streams : Nat) : Prop where
  made : ∀ s, trace.count (.create s) = if s < streams then 1 else 0
  alone : ∀ before s after, trace = before ++ .create s :: after →
    ∀ other, before.count (.release other) = before.count (.create other)
  used : ∀ before event after s, trace = before ++ event :: after → event.stream = some s →
    event ≠ .create s → before.count (.create s) = 1 ∧ before.count (.release s) = 0

/-- What the ledger says in plain numbers: how often each stream has been made,
used and destroyed. -/
theorem Ledger.accounted {machine : Machine} (h : Ledger machine) :
    Accounted machine.trace machine.streams := by
  refine ⟨fun s => ?_, fun before s after htrace other => ?_,
    fun before event after s htrace hs hcreate => ?_⟩
  · have hone := h.orderly.taken_le_one s
    rw [taken_eq_count] at hone
    have hmade := h.numbered s
    rw [← List.count_pos_iff] at hmade
    by_cases hs : s < machine.streams
    · have hpos := hmade.mpr hs
      rw [if_pos hs]
      omega
    · have hnone := mt hmade.mp hs
      rw [if_neg hs]
      omega
  · obtain ⟨hbefore, hpermitted⟩ := h.orderly.permitted htrace
    rw [← returned_eq_count, ← taken_eq_count]
    exact hbefore.allBack hpermitted.1 other
  · obtain ⟨hbefore, hpermitted⟩ := h.orderly.permitted htrace
    have hout : holder streamRole before = some s := by
      cases event with
      | create s' =>
        cases hs
        exact absurd rfl hcreate
      | setHostName => cases hs; exact hpermitted
      | tcpConnect => cases hs; exact hpermitted
      | tlsHandshake => cases hs; exact hpermitted
      | webSocketHandshake => cases hs; exact hpermitted
      | write => cases hs; exact hpermitted
      | read => cases hs; exact hpermitted
      | release => cases hs; exact hpermitted
      | _ => cases hs
    rw [← returned_eq_count, ← taken_eq_count]
    exact hbefore.out hout

/-- A new source has made no stream. -/
theorem start_ledger (source : RisLiveWebSocketSource) (hws : source.websocket = none)
    (hconnected : source.connected = false) (env : Environment) :
    AtRest (.start source env) ∧ Safe [] (.start source env) ∧ Idle (.start source env) := by
  refine ⟨⟨⟨everyEvent_nil _, hws.symm, fun s => ?_⟩, ?_⟩, ?_, Or.inl ⟨hconnected, hws⟩⟩
  · exact ⟨fun h => absurd h List.not_mem_nil, fun h => absurd h (Nat.not_lt_zero s)⟩
  · show source.connected = source.websocket.isSome
    rw [hconnected, hws]
    rfl
  · refine ⟨everyEvent_nil _, rfl, fun _ h => absurd h List.not_mem_nil, fun s hs => ?_⟩
    rw [show source.websocket = some s from hs] at hws
    cases hws

/-- **No stream is leaked, destroyed twice or used after that.** From the
constructor through any calls of `next_message` to the destructor, whatever the
network and the operator do: streams are made one at a time and each once,
everything that is done with one is done while it exists, in the end each has
been destroyed once, and the connection the destructor closes is the one that
still exists, which is subscribed. -/
theorem streams_destroyed (host port target : Bytes) (reconnectEnabled : Bool)
    (initialDelayMs maxDelayMs maxAttempts : UInt64) (env : Environment) (fuels : List Nat) :
    ∃ results before closed machine,
      (nextMessages fuels).run (.start (.new host port target reconnectEnabled initialDelayMs
        maxDelayMs maxAttempts) env) = .ok results before ∧
      destroy.run before = .ok closed machine ∧
      Accounted machine.trace machine.streams ∧
      (∀ s, machine.trace.count (.release s) = machine.trace.count (.create s)) ∧
      (∀ s, (∃ succeeded, closed = some (s, succeeded)) ↔
        .create s ∈ before.trace ∧ .release s ∉ before.trace) ∧
      ∀ s succeeded, closed = some (s, succeeded) → Subscribed before.trace s := by
  have hstart := start_ledger (.new host port target reconnectEnabled initialDelayMs maxDelayMs
    maxAttempts) rfl rfl env
  have hcalls := @nextMessages_ledger (fun _ _ => False) fuels _ hstart.1
  have hsession := @nextMessages_triple (fun _ _ => False) fuels [] _ hstart.2
  cases hrun : (nextMessages fuels).run (.start (.new host port target reconnectEnabled
      initialDelayMs maxDelayMs maxAttempts) env) with
  | error e before =>
    rw [hrun] at hcalls
    exact hcalls.elim
  | ok results before =>
    rw [hrun] at hcalls hsession
    have hend := @destroy_ledger (fun _ _ => False) before.source.websocket before ⟨hcalls, rfl⟩
    cases hdestroy : destroy.run before with
    | error e machine =>
      rw [hdestroy] at hend
      exact hend.elim
    | ok closed machine =>
      rw [hdestroy] at hend
      obtain ⟨⟨hledger, hgone⟩, hclosed⟩ := hend
      have hsome : ∀ s, (∃ succeeded, closed = some (s, succeeded)) ↔
          before.source.websocket = some s := by
        intro s
        rw [← hclosed, Option.map_eq_some_iff]
        exact ⟨fun ⟨succeeded, heq⟩ => ⟨_, heq, rfl⟩, fun ⟨pair, heq, hs⟩ => ⟨pair.2, hs ▸ heq⟩⟩
      refine ⟨results, before, closed, machine, rfl, hdestroy, hledger.accounted, fun s => ?_,
        fun s => ?_, fun s succeeded heq => ?_⟩
      · rw [← returned_eq_count, ← taken_eq_count]
        exact hledger.orderly.allBack (hledger.owned.trans hgone) s
      · rw [hsome s, ← hcalls.1.owned, hcalls.1.orderly.out_iff, taken_eq_count, returned_eq_count,
          List.count_pos_iff, List.count_eq_zero]
      · have hws := (hsome s).mp ⟨succeeded, heq⟩
        rcases hsession.2 with hdown | ⟨s', hup⟩
        · rw [hdown.websocket] at hws
          cases hws
        · rw [hup.websocket] at hws
          cases hws
          exact hup.subscribed

end ASNPrefixMap.Source
