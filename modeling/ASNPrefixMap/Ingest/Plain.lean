import ASNPrefixMap.Peer.RegistryInv
import ASNPrefixMap.Ingest.Loop

/-!
# Streaming against collecting

The main loop feeds events straight from the parser into `applyEvent`, with the
peer looked up once and its id cached. The plain path written down here does it
in two phases: it first collects the events of the message in a list, and then
looks the peer of every event up on its own. `ingestMessage_eq_plainMessage`
says that the two are the same program: same final objects, and on a failure the
same exception with the same objects at that moment. What carries it: looking a
peer up twice is looking it up once, in any registry (`lookup_byInfo_getOrAdd`),
and applying events does not touch the registry (`apply_registry`).

The plain path is a specification, not code of the repository: the source's own
comments say that the temporary vector of events it describes was removed.
-/

namespace ASNPrefixMap.Ingest

open Lib Prefix Peer Routing Stats
open ASNPrefixMap.Parser

/-! ## The plain path -/

section Plain

variable (jsonParse : JsonParse) (net : Inet) (ord : HashOrders)

/-- One event on its own: its peer is looked up or added, its prefix parsed,
the event applied. A peer stays added when its prefix text throws, as in the
loop. -/
def processEvent (event : BgpEvent) : EStateM Exception World Unit := do
  let world ← get
  set (world.resolvePeer event.peer).2
  applyEvent net ord event (world.resolvePeer event.peer).1

/-- The step of the main loop with the events of the message collected first.
The parser throws before it has called back, so what it throws is thrown before
any event is applied. -/
def plainMessage (text : Bytes) : EStateM Exception World Unit := do
  modify World.receiveMessage
  match (parseRisLiveMessage jsonParse text collectEvent).run [] with
  | .error e _ => throw e
  | .ok emittedEvents events => do
    forM events (processEvent net ord)
    modify fun world => world.countMessage emittedEvents

end Plain

variable {jsonParse : JsonParse} {net : Inet} {ord : HashOrders}

/-! ## Looking a peer up again -/

/-- A peer that was looked up or added is found from then on, in any
registry. -/
theorem lookup_byInfo_getOrAdd (registry : PeerRegistry) (peer : PeerInfo) :
    (registry.getOrAdd peer).2.byInfo.lookup peer = some (registry.getOrAdd peer).1 := by
  unfold PeerRegistry.getOrAdd
  cases h : registry.byInfo.lookup peer with
  | some peerId => exact h
  | none => exact Finmap.lookup_insert _

theorem resolvePeer_of_known {world : World} {peer : PeerInfo} {peerId : PeerId}
    (h : world.registry.byInfo.lookup peer = some peerId) :
    world.resolvePeer peer = (peerId, world) := by
  unfold World.resolvePeer
  rw [getOrAdd_of_some h]

/-! ## Processing event by event -/

/-- An event on its own, as a look-up and an application. -/
theorem processEvent_run (event : BgpEvent) (world : World) :
    (processEvent net ord event).run world =
      (applyEvent net ord event (world.resolvePeer event.peer).1).run
        (world.resolvePeer event.peer).2 := rfl

/-- Once the peer is known, an event on its own is the event applied with that
id. -/
theorem processEvent_of_known {world : World} {event : BgpEvent} {peerId : PeerId}
    (h : world.registry.byInfo.lookup event.peer = some peerId) :
    (processEvent net ord event).run world = (applyEvent net ord event peerId).run world := by
  rw [processEvent_run, resolvePeer_of_known h]

/-- Events of one known peer: none of them changes the registry, so every
further look-up gives the id the first one gave. -/
theorem forM_processEvent (peer : PeerInfo) (peerId : PeerId) :
    ∀ (events : List BgpEvent) (world : World), (∀ event ∈ events, event.peer = peer) →
      world.registry.byInfo.lookup peer = some peerId →
      (forM events (processEvent net ord)).run world =
        (applyEvents net ord peerId events).run world := by
  intro events
  induction events with
  | nil =>
    intro world _ _
    rw [applyEvents, List.forM_nil, List.forM_nil]
  | cons event events ih =>
    intro world hpeer hknown
    have hfirst : (processEvent net ord event).run world = (applyEvent net ord event peerId).run world :=
      processEvent_of_known (by rw [hpeer event List.mem_cons_self, hknown])
    rw [List.forM_cons, applyEvents_cons]
    cases hp : parsePrefix net event.prefixText with
    | error e =>
      have happly : (applyEvent net ord event peerId).run world = .error e world :=
        applyEvent_of_error hp peerId world
      rw [run_bind_error (hfirst.trans happly), run_bind_error happly]
    | ok pfx =>
      have happly : (applyEvent net ord event peerId).run world =
          .ok () (world.apply ord event.type peerId pfx event.asn event.timestamp) :=
        applyEvent_of_ok hp peerId world
      rw [run_bind_ok (hfirst.trans happly), run_bind_ok happly]
      refine ih _ (fun event h => hpeer event (List.mem_cons_of_mem _ h)) ?_
      rw [apply_registry, hknown]

/-- The events of a message one by one, from the objects at its start. -/
theorem forM_processEvent_first {event : BgpEvent} {rest : List BgpEvent} (world : World)
    (hpeer : ∀ e ∈ event :: rest, e.peer = event.peer) :
    (forM (event :: rest) (processEvent net ord)).run world =
      (applyEvents net ord (world.resolvePeer event.peer).1 (event :: rest)).run
        (world.resolvePeer event.peer).2 := by
  have hknown : (world.resolvePeer event.peer).2.registry.byInfo.lookup event.peer =
      some (world.resolvePeer event.peer).1 := lookup_byInfo_getOrAdd world.registry event.peer
  -- the first look-up can be made beforehand
  have hfirst : (processEvent net ord event).run world =
      (processEvent net ord event).run (world.resolvePeer event.peer).2 := by
    rw [processEvent_of_known hknown, processEvent_run]
  rw [← forM_processEvent event.peer _ (event :: rest) _ hpeer hknown, List.forM_cons,
    EStateM.run_bind, EStateM.run_bind, hfirst]

/-- The events of a text come from one peer. This is what the cached id rests
on, as the comment in the source says. -/
theorem peer_eq_of_messageEvents {text : Bytes} {event : BgpEvent} {rest : List BgpEvent}
    (h : messageEvents jsonParse text = .ok (event :: rest)) :
    ∀ e ∈ event :: rest, e.peer = event.peer := by
  intro e he
  unfold messageEvents at h
  split at h
  next => cases h
  next => cases h
  next outer houter =>
    have hevents := Except.ok.inj h
    rw [← hevents] at he
    obtain ⟨data, hdata, hpeer⟩ := peer_of_mem_documentEvents he
    have hfirst : event ∈ documentEvents outer := by
      rw [hevents]
      exact List.mem_cons_self
    obtain ⟨data', hdata', hpeer'⟩ := peer_of_mem_documentEvents hfirst
    rw [hdata] at hdata'
    rw [hpeer, hpeer', Option.some.inj hdata']

/-! ## The two paths -/

/-- The plain path in the closed form of the streaming one. -/
theorem plainMessage_eq (text : Bytes) (world : World) :
    (plainMessage jsonParse net ord text).run world =
      match messageEvents jsonParse text with
      | .error e => .error e world.receiveMessage
      | .ok events =>
        match (forM events (processEvent net ord)).run world.receiveMessage with
        | .ok _ world => .ok () (world.countMessage events.length)
        | .error e world => .error e world := by
  unfold plainMessage
  rw [EStateM.run_bind, EStateM.run_modify]
  dsimp only
  rw [collect_eq]
  cases messageEvents jsonParse text with
  | error e => rfl
  | ok events =>
    dsimp only
    cases hrun : (forM events (processEvent net ord)).run world.receiveMessage with
    | ok _ world => rw [run_bind_ok hrun, EStateM.run_modify]
    | error e world => rw [run_bind_error hrun]

/-- **The streaming step is the plain step**, from every registry, routing state
and counters: same objects afterwards, and on a failure the same exception with
the same objects. So are whole runs, and a message without events leaves the
registry alone. -/
theorem ingestMessage_eq_plainMessage (jsonParse : JsonParse) (net : Inet) (ord : HashOrders) :
    (∀ (text : Bytes) (world : World), (ingestMessage jsonParse net ord text).run world =
      (plainMessage jsonParse net ord text).run world) ∧
    (∀ (messages : List Bytes) (world : World), (ingest jsonParse net ord messages).run world =
      (forM messages (plainMessage jsonParse net ord)).run world) ∧
    ∀ (text : Bytes) (emittedEvents : Nat) (world : World),
      (parseRisLiveMessage jsonParse text collectEvent).run [] = .ok emittedEvents [] →
      ∃ world', (ingestMessage jsonParse net ord text).run world = .ok () world' ∧
        world'.registry = world.registry := by
  have hstep : ∀ (text : Bytes) (world : World), (ingestMessage jsonParse net ord text).run world =
      (plainMessage jsonParse net ord text).run world := by
    intro text world
    rw [ingestMessage_eq, plainMessage_eq]
    cases hevents : messageEvents jsonParse text with
    | error e => rfl
    | ok events =>
      cases events with
      | nil => rfl
      | cons event rest =>
        dsimp only
        rw [forM_processEvent_first _ (peer_eq_of_messageEvents hevents)]
        cases (applyEvents net ord (world.receiveMessage.resolvePeer event.peer).1
            (event :: rest)).run (world.receiveMessage.resolvePeer event.peer).2 with
        | ok _ world => rfl
        | error e world => rfl
  refine ⟨hstep, fun messages world => ?_, fun text emittedEvents world hnone => ?_⟩
  · have hfun : ingestMessage jsonParse net ord = plainMessage jsonParse net ord := by
      funext text world
      exact hstep text world
    rw [ingest, hfun]
  · have hevents : messageEvents jsonParse text = .ok [] := by
      rw [collect_eq] at hnone
      split at hnone
      next => cases hnone
      next events hevents =>
        cases hnone
        exact hevents
    refine ⟨world.receiveMessage.countMessage 0, ?_, rfl⟩
    rw [ingestMessage_eq, hevents]

end ASNPrefixMap.Ingest
