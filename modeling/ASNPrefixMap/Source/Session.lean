import ASNPrefixMap.Lib.Trace
import ASNPrefixMap.Source.WebSocket

/-!
# Reads and the connection they are made on

Whatever the network does and whenever a shutdown is requested, a read is
performed on the stream of the latest connect, after its handshakes and after
exactly one successful subscribe on it (`Subscribed`), and a text is returned
for each successful read and for nothing else (`reads_live_subscribed`). The
invariant has a part that always holds (`Safe`) and three phases of the
connection: `Down`, `Opening` while `connect` runs, and `Up` once the
subscription is written. Every failure on the way leads through
`reset_connection`, which needs `Safe` only and ends `Down`.

The lemmas come in the order of the calls: first what an event changes
(`Safe.after` and its like), then one triple for each operation, up to
`nextMessages_triple`. `Stable` is what lets a phase pass through the code
between two network operations.
-/

namespace ASNPrefixMap.Source

open Lib

/-! ## What a trace tells about a stream -/

/-- The stream an event is about. -/
def Event.stream : Event → Option Nat
  | .create s => some s
  | .setHostName s _ _ => some s
  | .tcpConnect s _ => some s
  | .tlsHandshake s _ => some s
  | .webSocketHandshake s _ _ _ => some s
  | .write s _ _ => some s
  | .read s _ _ => some s
  | .release s => some s
  | _ => none

/-- The stream an event has created, if it has. -/
def createdStream : Event → Option Nat
  | .create s => some s
  | _ => none

/-- The stream the latest connect has created. -/
def latestStream (trace : List Event) : Option Nat := (trace.filterMap createdStream).getLast?

/-- The text of a successful read. -/
def readPayload : Event → Option Bytes
  | .read _ received true => some received
  | _ => none

/-- The stream of the latest connect, held, with `n` successful subscribes on
it. -/
structure Held (trace : List Event) (stream n : Nat) : Prop where
  latest : latestStream trace = some stream
  created : trace.count (.create stream) = 1
  held : .release stream ∉ trace
  subscribes : trace.count (.write stream subscribeRequest true) = n

/-- Both handshakes on the stream have completed. -/
structure Handshaken (trace : List Event) (stream : Nat) : Prop where
  tls : .tlsHandshake stream true ∈ trace
  webSocket : ∃ host target, .webSocketHandshake stream host target true ∈ trace

/-- A stream messages can be read from: the latest one, still held, with both
handshakes done and one subscription written. -/
structure Subscribed (trace : List Event) (stream : Nat) : Prop where
  once : Held trace stream 1
  handshaken : Handshaken trace stream

/-- What an event needs of the past. -/
def Allowed (past : List Event) : Event → Prop
  | .read stream _ _ => Subscribed past stream
  | .nullDereference => False
  | _ => True

/-- The stream stays the latest one, held and as often subscribed, unless the
event makes or releases a stream or writes the subscription. -/
theorem Held.concat {trace : List Event} {stream n : Nat} (h : Held trace stream n) {event : Event}
    (hcreate : createdStream event = none) (hrelease : event ≠ .release stream)
    (hwrite : event ≠ .write stream subscribeRequest true) :
    Held (trace ++ [event]) stream n := by
  have hne : event ≠ .create stream := by
    intro e
    rw [e] at hcreate
    cases hcreate
  refine ⟨?_, ?_, ?_, ?_⟩
  · rw [latestStream, List.filterMap_append, List.filterMap_cons, hcreate, List.filterMap_nil,
      List.append_nil]
    exact h.latest
  · rw [List.count_append, h.created, List.count_singleton, if_neg (by simpa using hne)]
  · rw [List.mem_append, List.mem_singleton, not_or]
    exact ⟨h.held, fun e => hrelease e.symm⟩
  · rw [List.count_append, h.subscribes, List.count_singleton, if_neg (by simpa using hwrite),
      Nat.add_zero]

theorem Held.subscribe {trace : List Event} {stream n : Nat} (h : Held trace stream n) :
    Held (trace ++ [.write stream subscribeRequest true]) stream (n + 1) := by
  refine ⟨?_, ?_, ?_, ?_⟩
  · rw [latestStream, List.filterMap_append]
    exact (List.append_nil _).symm ▸ h.latest
  · rw [List.count_append, h.created, List.count_singleton, if_neg (by simp)]
  · rw [List.mem_append, List.mem_singleton, not_or]
    exact ⟨h.held, by simp⟩
  · rw [List.count_append, h.subscribes, List.count_singleton, if_pos (by simp)]

theorem Handshaken.concat {trace : List Event} {stream : Nat} (h : Handshaken trace stream)
    (event : Event) : Handshaken (trace ++ [event]) stream := by
  obtain ⟨host, target, hws⟩ := h.webSocket
  exact ⟨List.mem_append_left _ h.tls, host, target, List.mem_append_left _ hws⟩

/-- A stream number no event of the trace is about is held once it is
created. -/
theorem held_create {trace : List Event} {stream : Nat}
    (hfresh : ∀ event ∈ trace, event.stream ≠ some stream) :
    Held (trace ++ [.create stream]) stream 0 := by
  have hcount : ∀ event : Event, event.stream = some stream → trace.count event = 0 := by
    intro event hs
    rw [List.count_eq_zero]
    exact fun hmem => hfresh event hmem hs
  refine ⟨?_, ?_, ?_, ?_⟩
  · rw [latestStream, List.filterMap_append]
    exact List.getLast?_concat
  · rw [List.count_append, hcount _ rfl, List.count_singleton, if_pos (by simp)]
  · rw [List.mem_append, List.mem_singleton, not_or]
    exact ⟨fun hmem => hfresh _ hmem rfl, by simp⟩
  · rw [List.count_append, hcount _ rfl, List.count_singleton, if_neg (by simp)]

/-! ## The invariant -/

/-- What holds at any time; `texts` is what has been returned so far. Streams
are numbered, so a new one is none of those the trace knows. -/
structure Safe (texts : List Bytes) (machine : Machine) : Prop where
  allowed : EveryEvent Allowed machine.trace
  payloads : machine.trace.filterMap readPayload = texts
  numbered : ∀ event ∈ machine.trace, ∀ s, event.stream = some s → s < machine.streams
  owned : ∀ s, machine.source.websocket = some s → s < machine.streams

/-- Without a connection: neither the flag nor the stream is there. -/
structure Down (machine : Machine) : Prop where
  connected : machine.source.connected = false
  websocket : machine.source.websocket = none

/-- While `connect` runs: the stream is there, the flag is not. -/
structure Opening (stream : Nat) (machine : Machine) : Prop where
  connected : machine.source.connected = false
  websocket : machine.source.websocket = some stream
  held : Held machine.trace stream 0

/-- After `connect`, before the subscription. -/
structure Connected (stream : Nat) (machine : Machine) : Prop where
  connected : machine.source.connected = true
  websocket : machine.source.websocket = some stream
  held : Held machine.trace stream 0
  handshaken : Handshaken machine.trace stream

/-- After `send_subscribe`: messages can be read. -/
structure Up (stream : Nat) (machine : Machine) : Prop where
  connected : machine.source.connected = true
  websocket : machine.source.websocket = some stream
  subscribed : Subscribed machine.trace stream

/-- Between two calls: without a connection, or with one that is subscribed.
Nothing in between is left behind. -/
def Idle (machine : Machine) : Prop := Down machine ∨ ∃ stream, Up stream machine

/-! ## One event more -/

/-- The machine after an event that leaves the source alone. Most steps are of
this kind, and a property of the source then only has to be checked against the
trace. -/
structure After (machine machine' : Machine) (event : Event) : Prop where
  trace : machine'.trace = machine.trace ++ [event]
  streams : machine'.streams = machine.streams
  source : machine'.source = machine.source

/-- The step lemma: an event that is allowed, and of a stream that has been
numbered, keeps what holds at any time. -/
theorem Safe.after {texts texts' : List Bytes} {machine machine' : Machine} {event : Event}
    (h : Safe texts machine) (ha : After machine machine' event)
    (hallowed : Allowed machine.trace event)
    (hnumbered : ∀ s, event.stream = some s → s < machine.streams)
    (htexts : texts ++ [event].filterMap readPayload = texts') : Safe texts' machine' := by
  refine ⟨?_, ?_, ?_, ?_⟩
  · rw [ha.trace, everyEvent_concat]
    exact ⟨h.allowed, hallowed⟩
  · rw [ha.trace, List.filterMap_append, h.payloads, htexts]
  · intro e he s hs
    rw [ha.trace, List.mem_append, List.mem_singleton] at he
    rw [ha.streams]
    rcases he with he | rfl
    · exact h.numbered e he s hs
    · exact hnumbered s hs
  · intro s hs
    rw [ha.streams]
    rw [ha.source] at hs
    exact h.owned s hs

theorem Down.after {machine machine' : Machine} {event : Event} (h : Down machine)
    (ha : After machine machine' event) : Down machine' :=
  ⟨by rw [ha.source]; exact h.connected, by rw [ha.source]; exact h.websocket⟩

/-- An event of another kind leaves a stream that is being opened as it is. -/
theorem Opening.after {stream : Nat} {machine machine' : Machine} {event : Event}
    (h : Opening stream machine) (ha : After machine machine' event)
    (hcreate : createdStream event = none) (hrelease : event ≠ .release stream)
    (hwrite : event ≠ .write stream subscribeRequest true) : Opening stream machine' :=
  ⟨by rw [ha.source]; exact h.connected, by rw [ha.source]; exact h.websocket,
    by rw [ha.trace]; exact h.held.concat hcreate hrelease hwrite⟩

/-- An event of another kind leaves a subscribed stream as it is. -/
theorem Up.after {stream : Nat} {machine machine' : Machine} {event : Event}
    (h : Up stream machine) (ha : After machine machine' event)
    (hcreate : createdStream event = none) (hrelease : event ≠ .release stream)
    (hwrite : event ≠ .write stream subscribeRequest true) : Up stream machine' :=
  ⟨by rw [ha.source]; exact h.connected, by rw [ha.source]; exact h.websocket,
    by rw [ha.trace]; exact ⟨h.subscribed.once.concat hcreate hrelease hwrite,
      h.subscribed.handshaken.concat event⟩⟩

/-- A property that events about no stream do not touch. -/
def Stable (I : Machine → Prop) : Prop :=
  ∀ machine machine' event, event.stream = none → event ≠ .nullDereference →
    After machine machine' event → I machine → I machine'

/-- What holds at any time is not touched by events about no stream. -/
theorem safe_stable (texts : List Bytes) : Stable (Safe texts) := by
  intro machine machine' event hs hn ha h
  have hpayload : [event].filterMap readPayload = [] := by
    cases event with
    | read => cases hs
    | _ => rfl
  refine h.after ha ?_ (fun s hs' => ?_) (by rw [hpayload, List.append_nil])
  · cases event with
    | read => cases hs
    | nullDereference => exact hn rfl
    | _ => trivial
  · rw [hs] at hs'
    cases hs'

theorem down_stable : Stable Down := fun _ _ _ _ _ ha h => h.after ha

theorem up_stable (stream : Nat) : Stable (Up stream) := by
  intro machine machine' event hs _ ha h
  refine h.after ha ?_ ?_ ?_
  · cases event with
    | create => cases hs
    | _ => rfl
  · intro e
    rw [e] at hs
    cases hs
  · intro e
    rw [e] at hs
    cases hs

theorem Stable.and {I J : Machine → Prop} (hI : Stable I) (hJ : Stable J) :
    Stable fun machine => I machine ∧ J machine :=
  fun machine machine' event hs hn ha h =>
    ⟨hI machine machine' event hs hn ha h.1, hJ machine machine' event hs hn ha h.2⟩

/-- What holds wherever the code waits for the network or the clock. -/
theorem safe_down_stable (texts : List Bytes) :
    Stable fun machine => Safe texts machine ∧ Down machine :=
  (safe_stable texts).and down_stable

/-- What holds between two calls is of this kind too. -/
theorem idle_stable : Stable Idle := by
  intro machine machine' event hs hn ha h
  rcases h with h | ⟨stream, h⟩
  · exact Or.inl (down_stable machine machine' event hs hn ha h)
  · exact Or.inr ⟨stream, up_stable stream machine machine' event hs hn ha h⟩

/-! ## The outside -/

section Outside

variable {I : Machine → Prop} {E : Exception → Machine → Prop}

/-- An event about no stream keeps a stable property. -/
theorem emit_triple (hI : Stable I) {event : Event} (hs : event.stream = none)
    (hn : event ≠ .nullDereference) : Triple I (emit event) (fun _ => I) E :=
  Triple.modify fun machine => hI machine (machine.emit event) event hs hn ⟨rfl, rfl, rfl⟩

theorem shutdownRequested_triple (hI : Stable I) :
    Triple I shutdownRequested (fun _ => I) E := by
  intro machine h
  exact hI machine _ (.shutdownCheck (machine.env.shutdown machine.checks)) rfl (by simp)
    ⟨rfl, rfl, rfl⟩ h

/-- A network operation, computed: the next answer decides how it ends, and its
event is left in either case. -/
theorem operate_run (event : NetworkAnswer → Event) (what : NetworkAnswer → Bytes)
    (machine : Machine) :
    (operate event what).run machine =
      let answer := machine.env.network machine.operations
      let machine' :=
        { machine with
          operations := machine.operations + 1
          trace := machine.trace ++ [event answer] }
      if answer.succeeds then .ok () machine' else .error (.runtimeError (what answer)) machine' := by
  unfold operate emit
  simp only [EStateM.run_bind, EStateM.run_get, EStateM.run_modify, Machine.emit]
  cases hs : (machine.env.network machine.operations).succeeds with
  | false => simp
  | true => simp

/-- The rule for a network operation, with what its event makes of the
precondition when it succeeds and when it fails. -/
theorem operate_triple {P : Machine → Prop} {event : NetworkAnswer → Event}
    {what : NetworkAnswer → Bytes} {Q : Unit → Machine → Prop}
    (hok : ∀ machine machine' answer, answer.succeeds = true → After machine machine' (event answer) →
      P machine → Q () machine')
    (herror : ∀ machine machine' answer e, answer.succeeds = false →
      After machine machine' (event answer) → P machine → E e machine') :
    Triple P (operate event what) Q E := by
  intro machine h
  rw [operate_run]
  dsimp only
  cases hs : (machine.env.network machine.operations).succeeds with
  | false => exact herror machine _ _ _ hs ⟨rfl, rfl, rfl⟩ h
  | true => exact hok machine _ _ hs ⟨rfl, rfl, rfl⟩ h

/-- `*websocket_` when it is set. -/
theorem stream_triple {P : Machine → Prop} {s : Nat}
    (hws : ∀ machine, P machine → machine.source.websocket = some s) :
    Triple P stream (fun ws machine => ws = s ∧ P machine) E := by
  intro machine h
  have hrun : stream.run machine = .ok s machine := by
    unfold stream
    rw [EStateM.run_bind, EStateM.run_get]
    dsimp only
    rw [hws machine h]
    rfl
  rw [hrun]
  exact ⟨rfl, h⟩

/-- A wait keeps a stable property, however long it is and however it ends. -/
theorem sleepWithStop_triple (hI : Stable I) (remaining : UInt64) :
    Triple I (sleepWithStop remaining) (fun _ => I) E := by
  induction remaining using sleepWithStop.induct with
  | case1 =>
    rw [sleepWithStop, dif_pos rfl]
    exact (shutdownRequested_triple hI).bind fun _ => Triple.pure fun _ h => h
  | case2 remaining hne ih =>
    rw [sleepWithStop, dif_neg hne]
    refine (shutdownRequested_triple hI).bind fun _ => Triple.ite (fun _ => ?_) fun _ => ?_
    · exact Triple.pure fun _ h => h
    · exact (emit_triple hI rfl (by simp)).bind fun _ => ih

/-- So does the wait before an attempt, announced or left out. -/
theorem waitBeforeAttempt_triple (hI : Stable I) (delayBeforeAttempt : Bool)
    (attempt delayMs : UInt64) :
    Triple I (waitBeforeAttempt delayBeforeAttempt attempt delayMs) (fun _ => I) E := by
  unfold waitBeforeAttempt
  refine Triple.ite (fun _ => ?_) fun _ => ?_
  · exact (emit_triple hI rfl (by simp)).bind fun _ => sleepWithStop_triple hI delayMs
  · exact Triple.pure fun _ h => h

end Outside

/-! ## Connecting -/

section Connecting

variable {texts : List Bytes}

/-- A change of the source that lets go of no stream and takes none. -/
theorem Safe.withSource {machine : Machine} (h : Safe texts machine)
    {source : RisLiveWebSocketSource} (hws : ∀ s, source.websocket = some s →
      machine.source.websocket = some s) : Safe texts { machine with source := source } :=
  ⟨h.allowed, h.payloads, h.numbered, fun s hs => h.owned s (hws s hs)⟩

/-- An event about the stream that is held. -/
theorem Safe.afterHeld {machine machine' : Machine} {event : Event} (h : Safe texts machine)
    (ha : After machine machine' event) {s : Nat} (hws : machine.source.websocket = some s)
    (hs : event.stream = some s) (hallowed : Allowed machine.trace event)
    (hpayload : readPayload event = none) : Safe texts machine' := by
  refine h.after ha hallowed (fun s' hs' => ?_) ?_
  · rw [hs] at hs'
    cases hs'
    exact h.owned s hws
  · rw [List.filterMap_cons, hpayload, List.filterMap_nil, List.append_nil]

/-- A stream made where there was none is fresh: no event has been about it. -/
theorem createStream_triple {E : Exception → Machine → Prop} :
    Triple (fun machine => Safe texts machine ∧ Down machine) createStream
      (fun _ machine => ∃ s, Safe texts machine ∧ Opening s machine) E := by
  intro machine ⟨h, hdown⟩
  have hrun : createStream.run machine = .ok ()
      { machine with
        source := { machine.source with websocket := some machine.streams }
        streams := machine.streams + 1
        trace := machine.trace ++ [.create machine.streams] } := by
    unfold createStream releaseStream emit modifySource
    simp only [EStateM.run_bind, EStateM.run_get, EStateM.run_modify, Machine.emit, hdown.websocket]
    rfl
  have hfresh : ∀ event ∈ machine.trace, event.stream ≠ some machine.streams := by
    intro event hmem hs
    exact Nat.lt_irrefl _ (h.numbered event hmem _ hs)
  rw [hrun]
  -- the number of the new stream is past all that occur in the trace
  refine ⟨machine.streams, ⟨?_, ?_, ?_, ?_⟩, hdown.connected, rfl, held_create hfresh⟩
  · exact everyEvent_concat.mpr ⟨h.allowed, trivial⟩
  · show (machine.trace ++ [Event.create machine.streams]).filterMap readPayload = texts
    rw [List.filterMap_append, h.payloads]
    exact List.append_nil texts
  · intro event hmem s hs
    rcases List.mem_append.mp hmem with hmem | hmem
    · exact Nat.lt_succ_of_lt (h.numbered event hmem s hs)
    · rw [List.mem_singleton.mp hmem] at hs
      cases hs
      exact Nat.lt_succ_self _
  · intro s hs
    cases hs
    exact Nat.lt_succ_self _

/-- The events that say how far the opening of a stream has got. -/
inductive OpeningEvent (s : Nat) : Event → Prop
  | setHostName (host : Bytes) (succeeded : Bool) : OpeningEvent s (.setHostName s host succeeded)
  | tcpConnect (succeeded : Bool) : OpeningEvent s (.tcpConnect s succeeded)
  | tlsHandshake (succeeded : Bool) : OpeningEvent s (.tlsHandshake s succeeded)
  | webSocketHandshake (host target : Bytes) (succeeded : Bool) :
    OpeningEvent s (.webSocketHandshake s host target succeeded)

/-- A step of opening the stream that is held keeps both parts of the
invariant. -/
theorem Safe.afterOpening {machine machine' : Machine} {event : Event} {s : Nat}
    (h : Safe texts machine) (hopen : Opening s machine) (ha : After machine machine' event)
    (he : OpeningEvent s event) : Safe texts machine' ∧ Opening s machine' := by
  cases he with
  | setHostName =>
    exact ⟨h.afterHeld ha hopen.websocket rfl trivial rfl, hopen.after ha rfl (by simp) (by simp)⟩
  | tcpConnect =>
    exact ⟨h.afterHeld ha hopen.websocket rfl trivial rfl, hopen.after ha rfl (by simp) (by simp)⟩
  | tlsHandshake =>
    exact ⟨h.afterHeld ha hopen.websocket rfl trivial rfl, hopen.after ha rfl (by simp) (by simp)⟩
  | webSocketHandshake =>
    exact ⟨h.afterHeld ha hopen.websocket rfl trivial rfl, hopen.after ha rfl (by simp) (by simp)⟩

/-- A step of `connect` on the new stream; `R` becomes `S` when it succeeds. -/
theorem operate_opening {s : Nat} {R S : List Event → Prop} {event : NetworkAnswer → Event}
    {what : NetworkAnswer → Bytes} (hevent : ∀ answer, OpeningEvent s (event answer))
    (hR : ∀ trace answer, answer.succeeds = true → R trace → S (trace ++ [event answer])) :
    Triple (fun machine => Safe texts machine ∧ Opening s machine ∧ R machine.trace)
      (operate event what)
      (fun _ machine => Safe texts machine ∧ Opening s machine ∧ S machine.trace)
      (fun _ machine => Safe texts machine) := by
  refine operate_triple ?_ ?_
  · intro machine machine' answer hsucceeds ha ⟨h, hopen, hr⟩
    obtain ⟨h', hopen'⟩ := h.afterOpening hopen ha (hevent answer)
    refine ⟨h', hopen', ?_⟩
    rw [ha.trace]
    exact hR _ _ hsucceeds hr
  · intro machine machine' answer e _ ha ⟨h, hopen, _⟩
    exact (h.afterOpening hopen ha (hevent answer)).1

/-- The steps of `connect` on the stream it has created. -/
theorem connect_stream_triple (s : Nat) (source : RisLiveWebSocketSource) :
    Triple (fun machine => Safe texts machine ∧ Opening s machine)
      (do
        let ws ← stream
        operate (fun answer => .setHostName ws source.host answer.succeeds)
          fun _ => bytes "Failed to set TLS SNI hostname"
        operate (fun answer => .tcpConnect ws answer.succeeds) NetworkAnswer.what
        operate (fun answer => .tlsHandshake ws answer.succeeds) NetworkAnswer.what
        operate (fun answer => .webSocketHandshake ws source.host source.target answer.succeeds)
          NetworkAnswer.what
        modifySource fun source => { source with connected := true })
      (fun _ machine => ∃ s, Safe texts machine ∧ Connected s machine)
      (fun _ machine => Safe texts machine) := by
  refine (stream_triple fun machine h => h.2.websocket).bind fun ws => Triple.of_and fun hws => ?_
  rw [hws]
  refine Triple.conseq (P := fun machine => Safe texts machine ∧ Opening s machine ∧ True) ?_
    (fun machine h => ⟨h.1, h.2, trivial⟩) (fun _ _ h => h) fun _ _ h => h
  -- the trace shows the TLS handshake after the third step and both handshakes after the fourth
  refine (operate_opening (R := fun _ => True) (S := fun _ => True)
    (fun answer => .setHostName _ answer.succeeds) fun _ _ _ _ => trivial).bind fun _ => ?_
  refine (operate_opening (R := fun _ => True) (S := fun _ => True)
    (fun answer => .tcpConnect answer.succeeds) fun _ _ _ _ => trivial).bind fun _ => ?_
  refine (operate_opening (R := fun _ => True) (S := fun trace => .tlsHandshake s true ∈ trace)
    (fun answer => .tlsHandshake answer.succeeds) fun trace answer hsucceeds _ => ?_).bind fun _ => ?_
  · rw [hsucceeds]
    exact List.mem_append_right _ List.mem_cons_self
  refine (operate_opening (R := fun trace => .tlsHandshake s true ∈ trace)
    (S := fun trace => Handshaken trace s) (fun answer => .webSocketHandshake _ _ answer.succeeds)
    fun trace answer hsucceeds htls => ?_).bind fun _ => ?_
  · rw [hsucceeds]
    exact ⟨List.mem_append_left _ htls, _, _, List.mem_append_right _ List.mem_cons_self⟩
  refine Triple.modify fun machine ⟨h, hopen, hshaken⟩ => ⟨s, h.withSource fun s' hs' => hs', ?_⟩
  exact ⟨rfl, hopen.websocket, hopen.held, hshaken⟩

/-- `connect` opens a new stream and completes both handshakes on it, or
throws. -/
theorem connect_triple :
    Triple (fun machine => Safe texts machine ∧ Down machine) connect
      (fun _ machine => ∃ s, Safe texts machine ∧ Connected s machine)
      (fun _ machine => Safe texts machine) := by
  unfold connect
  refine Triple.get_bind_of_forall fun machine _ => ?_
  refine (emit_triple (safe_down_stable texts) rfl (by simp)).bind fun _ => ?_
  refine Triple.bind (R := fun _ machine => Safe texts machine ∧ Down machine) ?_ fun _ => ?_
  · refine operate_triple ?_ ?_
    · intro m m' answer _ ha h
      exact safe_down_stable texts m m' _ rfl (by simp) ha h
    · intro m m' answer e _ ha h
      exact (safe_down_stable texts m m' _ rfl (by simp) ha h).1
  exact createStream_triple.bind fun _ => Triple.exists fun s => connect_stream_triple s machine.source

/-- `send_subscribe` writes the subscription on the connection, or throws. -/
theorem sendSubscribe_triple (s : Nat) :
    Triple (fun machine => Safe texts machine ∧ Connected s machine) sendSubscribe
      (fun _ machine => ∃ s, Safe texts machine ∧ Up s machine)
      (fun _ machine => Safe texts machine) := by
  unfold sendSubscribe
  refine Triple.get_bind_of_forall fun machine hm => Triple.ite (fun hc => ?_) fun _ => ?_
  · -- the guard of the code cannot fail here
    rw [hm.2.connected, hm.2.websocket] at hc
    rcases hc with hc | hc
    · cases hc
    · cases hc
  refine (stream_triple fun machine h => h.2.websocket).bind fun ws => Triple.of_and fun hws => ?_
  rw [hws]
  refine operate_triple ?_ ?_
  · intro m m' answer hsucceeds ha ⟨h, hconn⟩
    refine ⟨s, h.afterHeld ha hconn.websocket rfl trivial rfl, ?_, ?_, ?_, ?_⟩
    · rw [ha.source]
      exact hconn.connected
    · rw [ha.source]
      exact hconn.websocket
    · rw [ha.trace, hsucceeds]
      exact hconn.held.subscribe
    · rw [ha.trace]
      exact hconn.handshaken.concat _
  · intro m m' answer e _ ha ⟨h, hconn⟩
    exact h.afterHeld ha hconn.websocket rfl trivial rfl

/-- `reset_connection` drops the stream, whatever state the connection is in. -/
theorem resetConnection_down {E : Exception → Machine → Prop} :
    Triple (fun _ => True) resetConnection (fun _ => Down) E := by
  unfold resetConnection
  refine Triple.bind (R := fun _ machine => machine.source.connected = false)
    (Triple.modify fun machine _ => rfl) fun _ => ?_
  refine Triple.bind (R := fun _ => Down) ?_ fun _ =>
    Triple.modify fun machine hdown => ⟨hdown.connected, hdown.websocket⟩
  unfold releaseStream
  refine Triple.get_bind fun machine hconn => ?_
  cases hws : machine.source.websocket with
  | none =>
    refine Triple.pure fun machine' heq => ?_
    rw [heq]
    exact ⟨hconn, hws⟩
  | some s =>
    refine Triple.bind (R := fun _ machine' => machine'.source = machine.source)
      (Triple.modify fun machine' heq => by rw [heq]; rfl) fun _ => Triple.modify fun machine' hs => ?_
    refine ⟨?_, rfl⟩
    show machine'.source.connected = false
    rw [hs]
    exact hconn

theorem resetConnection_safe {E : Exception → Machine → Prop} :
    Triple (Safe texts) resetConnection (fun _ => Safe texts) E := by
  unfold resetConnection
  refine Triple.bind (R := fun _ => Safe texts)
    (Triple.modify fun machine h => h.withSource fun s hs => hs) fun _ => ?_
  refine Triple.bind (R := fun _ => Safe texts) ?_ fun _ =>
    Triple.modify fun machine h => h.withSource fun s hs => hs
  intro machine h
  unfold releaseStream
  rw [EStateM.run_bind, EStateM.run_get]
  dsimp only
  cases hws : machine.source.websocket with
  | none => exact h
  | some s =>
    have ha : After machine (machine.emit (.release s)) (.release s) := ⟨rfl, rfl, rfl⟩
    exact (h.afterHeld ha hws rfl trivial rfl).withSource fun s' hs' => (by cases hs')

theorem resetConnection_triple {E : Exception → Machine → Prop} :
    Triple (Safe texts) resetConnection
      (fun _ machine => Safe texts machine ∧ Down machine) E :=
  (resetConnection_safe.and (resetConnection_down (E := E))).conseq (fun _ h => ⟨h, trivial⟩)
    (fun _ _ h => h) fun _ _ h => h.1

/-- `connect(); send_subscribe();`: a subscribed connection, or an exception. -/
theorem tryConnect_triple {E : Exception → Machine → Prop} :
    Triple (fun machine => Safe texts machine ∧ Down machine) tryConnect
      (fun failure machine =>
        match failure with
        | none => ∃ s, Safe texts machine ∧ Up s machine
        | some _ => Safe texts machine) E := by
  unfold tryConnect
  refine Triple.attempt ?_
  exact connect_triple.bind fun _ => Triple.exists sendSubscribe_triple

end Connecting

/-! ## The two loops -/

section Loops

variable {texts : List Bytes}

/-- What `ensure_connected` leaves: a subscribed connection if it returned
true. -/
def Ensured (texts : List Bytes) (result : Progress Bool) (machine : Machine) : Prop :=
  match result with
  | .returned true => ∃ s, Safe texts machine ∧ Up s machine
  | _ => Safe texts machine ∧ Idle machine

/-- After a success the delay starts again, which plays no part in the state of
the connection. -/
theorem connected_triple {E : Exception → Machine → Prop} :
    Triple (fun machine => ∃ s, Safe texts machine ∧ Up s machine)
      (do
        modifySource fun source =>
          { source with
            nextReconnectDelayMs := source.reconnectInitialDelayMs
            delayBeforeReconnect := false }
        return .returned true)
      (Ensured texts) E := by
  refine Triple.exists fun s => ?_
  refine Triple.bind (R := fun _ machine => Safe texts machine ∧ Up s machine)
    (Triple.modify fun machine ⟨h, hup⟩ => ?_) fun _ => Triple.pure fun machine h => ⟨s, h⟩
  exact ⟨h.withSource fun s' hs' => hs', hup.connected, hup.websocket, hup.subscribed⟩

/-- Without a connection, any result but true is right. -/
theorem ensured_of_down {result : Progress Bool} (hr : result ≠ .returned true)
    (machine : Machine) (h : Safe texts machine ∧ Down machine) :
    Ensured texts result machine := by
  match result with
  | .running => exact ⟨h.1, Or.inl h.2⟩
  | .returned false => exact ⟨h.1, Or.inl h.2⟩
  | .returned true => exact absurd rfl hr

/-- The retry loop, by induction on its bound: an attempt succeeds, or it is
reset and the loop goes on without a connection. -/
theorem backoffLoop_triple {E : Exception → Machine → Prop} :
    ∀ (fuel : Nat) (attempts delayMs : UInt64) (delayBeforeAttempt : Bool),
      Triple (fun machine => Safe texts machine ∧ Down machine)
        (backoffLoop fuel attempts delayMs delayBeforeAttempt) (Ensured texts) E := by
  intro fuel
  induction fuel with
  | zero => exact fun _ _ _ => Triple.pure (ensured_of_down (by simp))
  | succ fuel ih =>
    intro attempts delayMs delayBeforeAttempt
    unfold backoffLoop
    refine (shutdownRequested_triple (safe_down_stable texts)).bind fun _ =>
      Triple.ite (fun _ => ?_) fun _ => ?_
    · exact Triple.pure (ensured_of_down (by simp))
    -- the wait ends early when a shutdown is requested
    refine (waitBeforeAttempt_triple (safe_down_stable texts) _ _ _).bind fun _ =>
      Triple.ite (fun _ => ?_) fun _ => ?_
    · exact Triple.pure (ensured_of_down (by simp))
    refine tryConnect_triple.bind fun failure => ?_
    cases failure with
    | none => exact connected_triple
    | some e =>
      -- a failed attempt ends down: the last one allowed, or the next turn of the loop
      refine resetConnection_triple.bind fun _ => Triple.get_bind_of_forall fun machine _ =>
        Triple.ite (fun _ => ?_) fun _ => ?_
      · exact Triple.pure (ensured_of_down (by simp))
      · exact (Triple.modify fun machine ⟨h, hd⟩ =>
          ⟨h.withSource fun s hs => hs, hd.connected, hd.websocket⟩).bind fun _ => ih _ _ _

theorem ensureConnected_triple {E : Exception → Machine → Prop} (fuel : Nat) :
    Triple (fun machine => Safe texts machine ∧ Idle machine) (ensureConnected fuel)
      (Ensured texts) E := by
  unfold ensureConnected
  -- between two calls `connected_` tells the two phases apart
  refine Triple.get_bind fun machine ⟨h, hidle⟩ => Triple.ite (fun hup => ?_) fun hno => ?_
  · refine Triple.pure fun machine' heq => ?_
    rw [heq]
    rcases hidle with hdown | hs
    · exact absurd hup.1 (by rw [hdown.connected]; decide)
    · obtain ⟨s, hs⟩ := hs
      exact ⟨s, h, hs⟩
  · have hd : Down machine := by
      rcases hidle with hdown | ⟨s, hs⟩
      · exact hdown
      · exact absurd ⟨hs.connected, by rw [hs.websocket]; rfl⟩ hno
    refine Triple.conseq (P := fun machine => Safe texts machine ∧ Down machine) ?_
      (fun machine' heq => by rw [heq]; exact ⟨h, hd⟩) (fun _ _ h => h) fun _ _ h => h
    refine (shutdownRequested_triple (safe_down_stable texts)).bind fun _ =>
      Triple.ite (fun _ => ?_) fun _ => ?_
    · exact Triple.pure (ensured_of_down (by simp))
    refine Triple.ite (fun _ => ?_) fun _ => ?_
    · refine tryConnect_triple.bind fun failure => ?_
      cases failure with
      | none => exact connected_triple
      | some e => exact resetConnection_triple.bind fun _ => Triple.pure (ensured_of_down (by simp))
    · unfold reconnectWithBackoff
      exact Triple.get_bind_of_forall fun machine _ => backoffLoop_triple _ _ _ _

/-- A read on a stream that is there, computed: what it has received is in the
buffer, and nothing else. -/
theorem readMessage_run {machine : Machine} {s : Nat} (hws : machine.source.websocket = some s) :
    readMessage.run machine =
      let answer := machine.env.network machine.operations
      let machine' :=
        { machine with
          source := { machine.source with buffer := answer.received }
          operations := machine.operations + 1
          trace := machine.trace ++ [.read s answer.received answer.succeeds] }
      if answer.succeeds then .ok () machine' else .error (.runtimeError answer.what) machine' := by
  unfold readMessage stream operate emit modifySource
  simp only [EStateM.run_bind, EStateM.run_modify, EStateM.run_get, Machine.emit, hws]
  cases hs : (machine.env.network machine.operations).succeeds with
  | false => simp [hs]
  | true => simp [hs]

/-- A read leaves its text in the buffer, or throws; either way nothing older is
in it. -/
theorem readMessage_triple (s : Nat) :
    Triple (fun machine => Safe texts machine ∧ Up s machine) readMessage
      (fun _ machine => Safe (texts ++ [machine.source.buffer]) machine ∧ Up s machine)
      (fun _ machine => Safe texts machine) := by
  intro machine ⟨h, hup⟩
  rw [readMessage_run hup.websocket]
  dsimp only
  have howned := h.owned s hup.websocket
  cases hs : (machine.env.network machine.operations).succeeds with
  | false =>
    have ha : After machine (machine.emit
        (.read s (machine.env.network machine.operations).received false)) _ := ⟨rfl, rfl, rfl⟩
    have hsafe := h.after ha hup.subscribed (fun s' hs' => by cases hs'; exact howned)
      (List.append_nil texts)
    exact ⟨hsafe.allowed, hsafe.payloads, hsafe.numbered, hsafe.owned⟩
  | true =>
    have ha : After machine (machine.emit
        (.read s (machine.env.network machine.operations).received true)) _ := ⟨rfl, rfl, rfl⟩
    have hsafe := h.after ha hup.subscribed (fun s' hs' => by cases hs'; exact howned) rfl
    have hup' := hup.after ha rfl (by simp) (by simp)
    exact ⟨⟨hsafe.allowed, hsafe.payloads, hsafe.numbered, hsafe.owned⟩,
      hup'.connected, hup'.websocket, hup'.subscribed⟩

/-- What a call of `next_message` leaves: one text more if it returned one. -/
def Delivered (texts : List Bytes) (result : Progress (Option Bytes)) (machine : Machine) : Prop :=
  match result with
  | .returned (some json) => Safe (texts ++ [json]) machine ∧ Idle machine
  | _ => Safe texts machine ∧ Idle machine

/-- One call of `next_message`, by induction on its bound: a read that fails is
reset and goes round the loop. -/
theorem nextMessage_triple {E : Exception → Machine → Prop} : ∀ (fuel : Nat),
    Triple (fun machine => Safe texts machine ∧ Idle machine) (nextMessage fuel)
      (Delivered texts) E := by
  intro fuel
  induction fuel with
  | zero => exact Triple.pure fun machine h => h
  | succ fuel ih =>
    unfold nextMessage
    refine (shutdownRequested_triple ((safe_stable texts).and idle_stable)).bind fun _ =>
      Triple.ite (fun _ => Triple.pure fun machine h => h) fun _ => ?_
    refine (ensureConnected_triple fuel).bind fun result => ?_
    match result with
    | .running => exact Triple.pure fun machine h => h
    | .returned false => exact Triple.pure fun machine h => h
    | .returned true =>
      refine Triple.exists fun s => ?_
      refine Triple.bind (Triple.attempt (Q := fun failure machine =>
        match failure with
        | none => Safe (texts ++ [machine.source.buffer]) machine ∧ Up s machine
        | some _ => Safe texts machine) (readMessage_triple s)) fun failure => ?_
      cases failure with
      | none =>
        refine Triple.get_bind fun machine h => Triple.pure fun machine' heq => ?_
        rw [heq]
        exact ⟨h.1, Or.inr ⟨s, h.2⟩⟩
      | some e =>
        -- back to the top of the loop, down and with no text more
        refine resetConnection_triple.bind fun _ => ih.conseq ?_ (fun _ _ h => h) fun _ _ h => h
        exact fun machine h => ⟨h.1, Or.inl h.2⟩

/-- A run of calls delivers what they return, one after the other. -/
theorem nextMessages_triple {E : Exception → Machine → Prop} : ∀ (fuels : List Nat)
    (texts : List Bytes),
    Triple (fun machine => Safe texts machine ∧ Idle machine) (nextMessages fuels)
      (fun results machine => Safe (texts ++ results.filterMap id) machine ∧ Idle machine) E := by
  intro fuels
  induction fuels with
  | nil =>
    intro texts
    refine Triple.pure fun machine h => ?_
    rw [List.filterMap_nil, List.append_nil]
    exact h
  | cons fuel fuels ih =>
    intro texts
    unfold nextMessages
    refine (nextMessage_triple fuel).bind fun result => ?_
    match result with
    | .running =>
      refine Triple.pure fun machine h => ?_
      rw [List.filterMap_nil, List.append_nil]
      exact h
    | .returned none =>
      exact (ih texts).bind fun rest => Triple.pure fun machine h => h
    | .returned (some json) =>
      refine (ih (texts ++ [json])).bind fun rest => Triple.pure fun machine h => ?_
      rw [List.append_assoc] at h
      exact h

end Loops

/-! ## The theorem -/

/-- **Messages are read from live, subscribed connections only.** After any
calls of `next_message` of a new source, whatever the network and the operator
do: each read was made on the stream of the latest connect, with both handshakes
completed and exactly one subscribe written before; the texts returned are those
of the successful reads, in order; `connected_` says whether there is a stream,
which then is subscribed; and no empty pointer was dereferenced and no exception
got out. -/
theorem reads_live_subscribed (host port target : Bytes) (reconnectEnabled : Bool)
    (initialDelayMs maxDelayMs maxAttempts : UInt64) (env : Environment) (fuels : List Nat) :
    ∃ results machine, (nextMessages fuels).run (.start (.new host port target reconnectEnabled
        initialDelayMs maxDelayMs maxAttempts) env) = .ok results machine ∧
      (∀ before stream received succeeded after,
        machine.trace = before ++ .read stream received succeeded :: after →
          Subscribed before stream) ∧
      results.filterMap id = machine.trace.filterMap readPayload ∧
      (machine.source.connected = true ↔ machine.source.websocket.isSome = true) ∧
      (∀ stream, machine.source.websocket = some stream → Subscribed machine.trace stream) ∧
      .nullDereference ∉ machine.trace := by
  have hstart : Safe [] (.start (.new host port target reconnectEnabled initialDelayMs maxDelayMs
      maxAttempts) env) :=
    ⟨everyEvent_nil _, rfl, fun event hmem => absurd hmem List.not_mem_nil, fun s hs => (by cases hs)⟩
  have hrun := @nextMessages_triple (fun _ _ => False) fuels [] _ ⟨hstart, Or.inl ⟨rfl, rfl⟩⟩
  cases hx : (nextMessages fuels).run (.start (.new host port target reconnectEnabled
      initialDelayMs maxDelayMs maxAttempts) env) with
  | error e machine =>
    rw [hx] at hrun
    cases hrun
  | ok results machine =>
    rw [hx] at hrun
    obtain ⟨hsafe, hidle⟩ := hrun
    refine ⟨results, machine, rfl, ?_, hsafe.payloads.symm, ?_, ?_, ?_⟩
    · intro before stream received succeeded after htrace
      exact hsafe.allowed before _ after htrace
    · rcases hidle with hdown | ⟨s, hup⟩
      · rw [hdown.connected, hdown.websocket]
        decide
      · rw [hup.connected, hup.websocket]
        exact ⟨fun _ => rfl, fun _ => rfl⟩
    · intro stream hws
      rcases hidle with hdown | ⟨s, hup⟩
      · rw [hdown.websocket] at hws
        cases hws
      · rw [hup.websocket] at hws
        cases hws
        exact hup.subscribed
    · intro hmem
      obtain ⟨before, after, htrace⟩ := List.append_of_mem hmem
      exact hsafe.allowed before _ after htrace

end ASNPrefixMap.Source
