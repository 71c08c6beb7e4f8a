import ASNPrefixMap.Ingest.PeerView
import ASNPrefixMap.Prefix.InetText

/-!
# Which messages end the ingest

Of everything that can throw below the loop body, the parser catches one
exception, the syntax error of `json::parse`. The other exception of
`json::parse` and everything `parsePrefix` throws pass through the callback, the
parser and the loop. So a message is survived exactly when neither occurs
(`ingestMessage_survives_iff`), in any world, and a run is when each of its
messages is (`ingest_survives_iff`).

"Survived" asks for more than an end without an exception: the events that can
be applied must have been applied (`tolerantState`). The two coincide, since an
event that cannot be applied throws.
-/

namespace ASNPrefixMap.Ingest

open Lib Prefix Peer Routing Stats
open ASNPrefixMap.Parser

variable (jsonParse : JsonParse) (net : Inet) (ord : HashOrders)

/-- The state after the events whose prefix text is accepted, the others being
ignored. -/
def acceptedState (peerId : PeerId) : List BgpEvent → RoutingState → RoutingState
  | [], state => state
  | event :: rest, state =>
    match parsePrefix net event.prefixText with
    | .error _ => acceptedState peerId rest state
    | .ok pfx =>
      match event.type with
      | .announce =>
        acceptedState peerId rest (state.announce ord peerId pfx event.asn event.timestamp)
      | .withdraw => acceptedState peerId rest (state.withdraw ord peerId pfx)

/-- The routing state a message should leave: unusable texts and entries
ignored, every other event applied. -/
def tolerantState (text : Bytes) (world : World) : RoutingState :=
  match messageEvents jsonParse text with
  | .error _ => world.state
  | .ok [] => world.state
  | .ok (event :: rest) =>
    acceptedState net ord (world.registry.getOrAdd event.peer).1 (event :: rest) world.state

/-- The loop body returns, and has applied all events of the message that can be
applied. -/
def Survives (text : Bytes) (world : World) : Prop :=
  ∃ world', (ingestMessage jsonParse net ord text).run world = .ok () world' ∧
    world'.state = tolerantState jsonParse net ord text world

variable {jsonParse net ord}

/-- When every prefix text is accepted all events are applied. -/
theorem applyEvents_accepted (peerId : PeerId) : ∀ (events : List BgpEvent) (world : World),
    (∀ event ∈ events, Returns (parsePrefix net event.prefixText)) →
    ∃ world', (applyEvents net ord peerId events).run world = .ok () world' ∧
      world'.state = acceptedState net ord peerId events world.state := by
  intro events
  induction events with
  | nil => exact fun world _ => ⟨world, rfl, rfl⟩
  | cons event events ih =>
    intro world hall
    obtain ⟨pfx, hpfx⟩ := hall event List.mem_cons_self
    obtain ⟨world', hrun, hstate⟩ := ih
      (world.apply ord event.type peerId pfx event.asn event.timestamp)
      fun e he => hall e (List.mem_cons_of_mem _ he)
    refine ⟨world', ?_, ?_⟩
    · rw [applyEvents_cons, run_bind_ok (applyEvent_of_ok hpfx peerId world), hrun]
    · rw [hstate]
      simp only [acceptedState, hpfx]
      cases event.type with
      | announce => rfl
      | withdraw => rfl

/-- Events that were all applied had accepted prefix texts. -/
theorem accepted_of_applyEvents_ok (peerId : PeerId) : ∀ {events : List BgpEvent}
    {world world' : World}, (applyEvents net ord peerId events).run world = .ok () world' →
    ∀ event ∈ events, Returns (parsePrefix net event.prefixText) := by
  intro events
  induction events with
  | nil =>
    intro _ _ _ event hmem
    cases hmem
  | cons e events ih =>
    intro world world' h event hmem
    rw [applyEvents_cons] at h
    -- a rejected text ends the run at its event
    cases hpfx : parsePrefix net e.prefixText with
    | error ex =>
      rw [run_bind_error (applyEvent_of_error hpfx peerId world)] at h
      cases h
    | ok pfx =>
      rw [run_bind_ok (applyEvent_of_ok hpfx peerId world)] at h
      rcases List.mem_cons.mp hmem with rfl | hmem
      · exact ⟨pfx, hpfx⟩
      · exact ih h event hmem

/-- The loop body returns only on messages without an overflow or a rejected
prefix text. -/
theorem usable_of_ingestMessage_ok {text : Bytes} {world world' : World}
    (h : (ingestMessage jsonParse net ord text).run world = .ok () world') :
    ¬ Overflows jsonParse text ∧ PrefixesAccepted jsonParse net text := by
  rw [ingestMessage_eq] at h
  constructor
  · intro hover
    obtain ⟨e, he⟩ := messageEvents_of_overflows hover
    rw [he] at h
    cases h
  · intro events hev event hmem
    rw [hev] at h
    cases events with
    | nil => cases hmem
    | cons first rest =>
      dsimp only at h
      cases hrun : (applyEvents net ord (world.receiveMessage.resolvePeer first.peer).1
          (first :: rest)).run (world.receiveMessage.resolvePeer first.peer).2 with
      | error e world₁ =>
        rw [hrun] at h
        cases h
      | ok _ world₁ => exact accepted_of_applyEvents_ok _ hrun event hmem

/-- Without such a text and such a prefix the loop body returns, with all events
applied. -/
theorem survives_of_usable {text : Bytes} (hover : ¬ Overflows jsonParse text)
    (hacc : PrefixesAccepted jsonParse net text) (world : World) :
    Survives jsonParse net ord text world := by
  obtain ⟨events, hev⟩ := messageEvents_of_not_overflows hover
  unfold Survives tolerantState
  rw [ingestMessage_eq, hev]
  cases events with
  | nil => exact ⟨_, rfl, countMessage_state _ _⟩
  | cons event rest =>
    obtain ⟨world', hrun, hstate⟩ := @applyEvents_accepted net ord
      (world.receiveMessage.resolvePeer event.peer).1 (event :: rest)
      (world.receiveMessage.resolvePeer event.peer).2 (hacc _ hev)
    dsimp only
    rw [hrun]
    refine ⟨_, rfl, ?_⟩
    rw [countMessage_state, hstate]
    rfl

/-- **A message is survived iff `json::parse` does not throw past the parser
and `parse_prefix` accepts every prefix text the message emits**, whatever the
registry, state and counters. The callback can throw at any event, and what has
been applied by then stays; whether it throws depends on the prefix texts
alone. -/
theorem ingestMessage_survives_iff (text : Bytes) (world : World) :
    Survives jsonParse net ord text world ↔
      ¬ Overflows jsonParse text ∧ PrefixesAccepted jsonParse net text := by
  constructor
  · intro ⟨world', h, _⟩
    exact usable_of_ingestMessage_ok h
  · intro ⟨hover, hacc⟩
    exact survives_of_usable hover hacc world

/-- A run reaches its end iff every message of it is survived. -/
theorem ingest_survives_iff : ∀ (messages : List Bytes) (world : World),
    (∃ world', (ingest jsonParse net ord messages).run world = .ok () world') ↔
      ∀ text ∈ messages, ¬ Overflows jsonParse text ∧ PrefixesAccepted jsonParse net text := by
  intro messages
  induction messages with
  | nil =>
    intro world
    refine ⟨fun _ text hmem => ?_, fun _ => ⟨world, rfl⟩⟩
    cases hmem
  | cons m messages ih =>
    intro world
    rw [ingest_cons]
    constructor
    · intro ⟨world', h⟩ text hmem
      cases hm : (ingestMessage jsonParse net ord m).run world with
      | error e world₁ =>
        rw [run_bind_error hm] at h
        cases h
      | ok _ world₁ =>
        rw [run_bind_ok hm] at h
        rcases List.mem_cons.mp hmem with rfl | hmem
        · exact usable_of_ingestMessage_ok hm
        · exact (ih world₁).mp ⟨world', h⟩ text hmem
    · -- surviving a message does not depend on what the messages before it have left
      intro hall
      obtain ⟨hover, hacc⟩ := hall m List.mem_cons_self
      obtain ⟨world₁, hm, -⟩ := @survives_of_usable jsonParse net ord m hover hacc world
      obtain ⟨world', h⟩ := (ih world₁).mpr fun text hmem => hall text (List.mem_cons_of_mem _ hmem)
      exact ⟨world', by rw [run_bind_ok hm, h]⟩

/-- An ingest into an empty store that returned has kept the invariant and
performed the writes of its messages. -/
theorem ingest_reached {S : Finset PeerInfo} (hcard : S.card < 2 ^ 32) {messages : List Bytes}
    (hS : ∀ text ∈ messages, ∀ peer, messagePeer jsonParse text = some peer → peer ∈ S)
    {growth : GrowthStatsTracker} {world : World}
    (hrun : (ingest jsonParse net ord messages).run { growthStats := growth } = .ok () world) :
    StoreInv S S.card world.registry world.state ∧
      peerMap world.registry world.state =
        applyWrites (peerMap {} {}) (messages.flatMap (messageWrites jsonParse net)) := by
  have husable := (ingest_survives_iff messages _).mp ⟨world, hrun⟩
  obtain ⟨world', hrun', hinv, hmap⟩ :=
    ingest_spec messages { growthStats := growth } (storeInv_empty hcard) hS
      (fun text hmem => (husable text hmem).2) fun text hmem => (husable text hmem).1
  rw [hrun] at hrun'
  cases hrun'
  exact ⟨hinv, hmap⟩

/-! ## A prefix without a length -/

def missingLengthText : Bytes :=
  bytes "\x7b\"type\":\"ris_message\",\"data\":\x7b\"type\":\"UPDATE\",\"host\":\"rrc00\"," ++
  bytes "\"peer\":\"192.0.2.1\",\"peer_asn\":64500,\"timestamp\":1710000000," ++
  bytes "\"path\":[64500,15169],\"announcements\":[\x7b\"prefixes\":[\"8.8.8.0\"]\x7d]," ++
  bytes "\"withdrawals\":[\"9.9.9.0/24\"]\x7d\x7d"

/-- The document of that text. -/
def missingLengthDocument : Json :=
  updateDocument "rrc00" "192.0.2.1" 64500 1710000000 15169 ["8.8.8.0"] ["9.9.9.0/24"]

/-- One announced prefix without a length ends the run it is in. `parse_prefix`
throws inside the callback, and the parser catches only what `json::parse`
throws. -/
theorem missing_length_ends_ingest :
    ¬ ∀ (messages : List Bytes) (world : World),
      (ingest (parseListed [(missingLengthText, missingLengthDocument)]) Inet.standard
        .ascending messages).run { growthStats := .start {} 0 } = .ok () world →
      ∀ text, Survives (parseListed [(missingLengthText, missingLengthDocument)]) Inet.standard
        .ascending text world := by
  intro h
  obtain ⟨-, hacc⟩ :=
    usable_of_ingestMessage_ok (h [] _ rfl missingLengthText).choose_spec.1
  have hev : messageEvents (parseListed [(missingLengthText, missingLengthDocument)])
      missingLengthText = .ok (documentEvents missingLengthDocument) := by
    rw [messageEvents, parseListed_cons_self]
  have hreject : ¬ ∀ event ∈ documentEvents missingLengthDocument,
      Returns (parsePrefix Inet.standard event.prefixText) := by decide
  exact hreject (hacc _ hev)

end ASNPrefixMap.Ingest
