import ASNPrefixMap.Parser.RisLive
import ASNPrefixMap.Prefix.Cidr
import ASNPrefixMap.Stats.Growth

/-!
# The ingest loop

`src/main.cpp`: what the body of the main loop does with one raw message. The
parser calls back for every event; the first event of a message resolves the
peer, the id is kept for the rest of the message, and `applyEvent` parses the
prefix text and updates the routing state and the counters. Nothing here catches
an exception: a prefix text that does not parse ends the whole loop, with all
objects as they are at that moment.

`ingestMessage_eq` puts the streaming step in closed form: the events of the
text, applied one after the other, and the counters of the loop.

Mirroring notes:

- The local variables of `main` that the loop changes are the record `World`;
  the callback captures them by reference, together with the two variables
  declared inside the loop body, which are `MessageScope`.

- Exceptions are those of `EStateM`: they keep the state at the moment they are
  thrown, as the objects of `main` are still there for the destructors that run
  then.

- The two checks of the stop flags, the sampling and the message limit also
  belong to the loop of the source. They are in `Ingest.Sampling` and
  `Program.Loop`; this module is what happens to one message.

- The counters are `Nat`. They are of type `std::size_t`, and count things that
  happen one by one.
-/

namespace ASNPrefixMap.Ingest

open Lib Prefix Peer Routing Stats
open ASNPrefixMap.Parser

/-- `IngestionStats` of `src/main.cpp`, printed at the end of a run. -/
structure IngestionStats where
  rawMessagesReceived : Nat := 0
  parsedEventsTotal : Nat := 0
  announcesApplied : Nat := 0
  withdrawsApplied : Nat := 0
  ignoredMessages : Nat := 0
  deriving DecidableEq

/-- The objects of `main` that the loop changes. The source, the clocks and the
statistics file are not among them, see `Sampler` and
`ASNPrefixMap.Program.Main`. -/
structure World where
  registry : PeerRegistry := {}
  state : RoutingState := {}
  stats : IngestionStats := {}
  growthStats : GrowthStatsTracker

/-- What the callback captures: the objects, and the two variables of one
message. The peer is resolved at the first event, so a message without events
leaves the registry alone. -/
structure MessageScope where
  world : World
  peerResolved : Bool := false
  cachedPeerId : PeerId := 0

variable (jsonParse : JsonParse) (net : Inet) (ord : HashOrders)

/-- `apply_event` after its prefix text has been parsed. The visitor over the
two prefix types is inside the called functions; the routing state, the counter
and the tracker are updated in the order of the source. -/
def World.apply (world : World) (type : EventType) (peerId : PeerId) (pfx : BinaryPrefix)
    (originAsn : UInt32) (timestamp : UInt64) : World :=
  match type with
  | .announce =>
    { world with
      state := world.state.announce ord peerId pfx originAsn timestamp
      stats := { world.stats with announcesApplied := world.stats.announcesApplied + 1 }
      growthStats := world.growthStats.onAnnounce originAsn pfx }
  | .withdraw =>
    { world with
      state := world.state.withdraw ord peerId pfx
      stats := { world.stats with withdrawsApplied := world.stats.withdrawsApplied + 1 }
      growthStats := world.growthStats.onWithdraw pfx }

/-- `apply_event`: a prefix text that does not parse throws before anything is
changed. -/
def applyEvent (event : BgpEvent) (peerId : PeerId) : EStateM Exception World Unit :=
  match parsePrefix net event.prefixText with
  | .error e => throw e
  | .ok pfx => modify fun world => world.apply ord event.type peerId pfx event.asn event.timestamp

/-- The peer of a message, looked up or added: the call of `get_or_add`. -/
def World.resolvePeer (world : World) (peer : PeerInfo) : PeerId × World :=
  ((world.registry.getOrAdd peer).1, { world with registry := (world.registry.getOrAdd peer).2 })

/-- The callback `main` hands to the parser. Between two of its calls the scope
lives on, so the id is that of the first event. -/
def onEvent : EventSink MessageScope := fun event => do
  let scope ← get
  -- only the first event of a message looks its peer up
  if scope.peerResolved = false then
    set { scope with
      world := (scope.world.resolvePeer event.peer).2
      peerResolved := true
      cachedPeerId := (scope.world.resolvePeer event.peer).1 }
  let scope ← get
  match (applyEvent net ord event scope.cachedPeerId).run scope.world with
  | .ok _ world => set { scope with world := world }
  | .error e world => do
    -- nothing is rolled back: a peer just added stays in the registry
    set { scope with world := world }
    throw e

/-- The counters at the end of a message: the lines between the call of the
parser and the sampling. -/
def World.countMessage (world : World) (emittedEvents : Nat) : World :=
  let world :=
    { world with
      stats :=
        { world.stats with parsedEventsTotal := world.stats.parsedEventsTotal + emittedEvents }
      growthStats := world.growthStats.onParsedEvents emittedEvents }
  if emittedEvents = 0 then
    -- no event has touched the tables, so the active counts are those of the last message
    { world with
      stats := { world.stats with ignoredMessages := world.stats.ignoredMessages + 1 } }
  else
    { world with
      growthStats := world.growthStats.setActivePrefixCounts world.state.activePrefixesV4Count
        world.state.activePrefixesV6Count }

/-- The counters at the start of a message. -/
def World.receiveMessage (world : World) : World :=
  { world with
    stats := { world.stats with rawMessagesReceived := world.stats.rawMessagesReceived + 1 }
    growthStats := world.growthStats.onMessageReceived }

/-- The body of the main loop, from the first counter to the sampling. -/
def ingestMessage (text : Bytes) : EStateM Exception World Unit := do
  modify World.receiveMessage
  let world ← get
  match (parseRisLiveMessage jsonParse text (onEvent net ord)).run { world := world } with
  | .ok emittedEvents scope => set (scope.world.countMessage emittedEvents)
  | .error e scope => do
    -- the loop has no handler: the counters below the parser call are not reached
    set scope.world
    throw e

/-- The main loop over a sequence of messages. The first exception ends it, with
the messages behind it unread. -/
def ingest (messages : List Bytes) : EStateM Exception World Unit :=
  forM messages (ingestMessage jsonParse net ord)

/-! ## The step in closed form -/

/-- Some events applied one after the other with one peer id. -/
def applyEvents (peerId : PeerId) (events : List BgpEvent) : EStateM Exception World Unit :=
  forM events fun event => applyEvent net ord event peerId

variable {jsonParse net ord}

/-- An event whose prefix text is accepted is applied. -/
theorem applyEvent_of_ok {event : BgpEvent} {pfx : BinaryPrefix}
    (h : parsePrefix net event.prefixText = .ok pfx) (peerId : PeerId) (world : World) :
    (applyEvent net ord event peerId).run world =
      .ok () (world.apply ord event.type peerId pfx event.asn event.timestamp) := by
  rw [applyEvent, h]
  rfl

/-- An event whose prefix text is not accepted throws, and leaves the objects as
they were. -/
theorem applyEvent_of_error {event : BgpEvent} {e : Exception}
    (h : parsePrefix net event.prefixText = .error e) (peerId : PeerId) (world : World) :
    (applyEvent net ord event peerId).run world = .error e world := by
  rw [applyEvent, h]
  rfl

/-- Applying an event changes no peer. -/
theorem apply_registry (world : World) (type : EventType) (peerId : PeerId) (pfx : BinaryPrefix)
    (asn : UInt32) (t : UInt64) :
    (world.apply ord type peerId pfx asn t).registry = world.registry := by
  cases type <;> rfl

theorem applyEvents_cons (event : BgpEvent) (events : List BgpEvent) (peerId : PeerId) :
    applyEvents net ord peerId (event :: events) =
      (do applyEvent net ord event peerId
          applyEvents net ord peerId events) := by
  rw [applyEvents, List.forM_cons, applyEvents]

/-- Once the peer is resolved an event is applied with the cached id. -/
theorem onEvent_resolved (world : World) (peerId : PeerId) (event : BgpEvent) :
    (onEvent net ord event).run ⟨world, true, peerId⟩ =
      match (applyEvent net ord event peerId).run world with
      | .ok _ world => .ok () ⟨world, true, peerId⟩
      | .error e world => .error e ⟨world, true, peerId⟩ := by
  unfold onEvent
  simp only [EStateM.run_bind, EStateM.run_get, Bool.true_eq_false, if_false]
  cases (applyEvent net ord event peerId).run world with
  | error e world => rfl
  | ok _ world => rfl

/-- The first event of a message resolves its peer, and goes on as a resolved
one. -/
theorem onEvent_unresolved (world : World) (event : BgpEvent) :
    (onEvent net ord event).run { world := world } =
      (onEvent net ord event).run
        ⟨(world.resolvePeer event.peer).2, true, (world.resolvePeer event.peer).1⟩ := by
  unfold onEvent
  simp only [EStateM.run_bind, EStateM.run_get, if_true, EStateM.run_set, Bool.true_eq_false,
    if_false]

/-- Once the peer is resolved, the callback run over events is the events
applied with the cached id. The induction is on the events; an exception keeps
the scope. -/
theorem emitAll_onEvent (peerId : PeerId) : ∀ (events : List BgpEvent) (world : World) (n : Nat),
    (emitAll (onEvent net ord) events n).run ⟨world, true, peerId⟩ =
      match (applyEvents net ord peerId events).run world with
      | .ok _ world => .ok (n + events.length) ⟨world, true, peerId⟩
      | .error e world => .error e ⟨world, true, peerId⟩ := by
  intro events
  induction events with
  | nil =>
    intro world n
    rw [emitAll_nil]
    rfl
  | cons event events ih =>
    intro world n
    have hrun := @onEvent_resolved net ord world peerId event
    have hlen : n + (event :: events).length = n + 1 + events.length := by
      rw [List.length_cons]
      omega
    rw [emitAll_cons, applyEvents_cons, hlen]
    cases ha : (applyEvent net ord event peerId).run world with
    | error e world' =>
      rw [ha] at hrun
      rw [run_bind_error hrun, run_bind_error ha]
    | ok _ world' =>
      rw [ha] at hrun
      rw [run_bind_ok hrun, run_bind_ok ha]
      exact ih world' (n + 1)

/-- What a message does, given its events: with none it is only counted;
otherwise its peer is resolved once and the events are applied in order. -/
theorem ingestMessage_eq (text : Bytes) (world : World) :
    (ingestMessage jsonParse net ord text).run world =
      match messageEvents jsonParse text with
      | .error e => .error e world.receiveMessage
      | .ok [] => .ok () (world.receiveMessage.countMessage 0)
      | .ok (event :: rest) =>
        match (applyEvents net ord (world.receiveMessage.resolvePeer event.peer).1
            (event :: rest)).run (world.receiveMessage.resolvePeer event.peer).2 with
        | .ok _ world => .ok () (world.countMessage (event :: rest).length)
        | .error e world => .error e world := by
  unfold ingestMessage
  simp only [EStateM.run_bind, EStateM.run_modify, EStateM.run_get, parseRisLiveMessage_eq]
  cases messageEvents jsonParse text with
  | error e => rfl
  | ok events =>
    cases events with
    | nil => rfl
    | cons event rest =>
      -- the first event resolves the peer; from there on the id is cached
      have hfirst : (emitAll (onEvent net ord) (event :: rest) 0).run
            { world := world.receiveMessage } =
          (emitAll (onEvent net ord) (event :: rest) 0).run
            ⟨(world.receiveMessage.resolvePeer event.peer).2, true,
              (world.receiveMessage.resolvePeer event.peer).1⟩ := by
        rw [emitAll_cons, EStateM.run_bind, EStateM.run_bind, onEvent_unresolved]
      dsimp only
      rw [hfirst, emitAll_onEvent, Nat.zero_add]
      cases (applyEvents net ord (world.receiveMessage.resolvePeer event.peer).1
          (event :: rest)).run (world.receiveMessage.resolvePeer event.peer).2 with
      | error e world => rfl
      | ok _ world => rfl

end ASNPrefixMap.Ingest
