import ASNPrefixMap.Ingest.Loop

/-!
# Runs of the main loop and their record

A run of the main loop is a sequence of messages ingested without error, with
samples of the growth statistics taken in between. `Loop` is the relation
between the objects at the start, what happened, and the objects at a loop head:
the log lists the texts received, the events as they reached the tables
(`RoutedEvent`: the peer resolved, the prefix parsed) and the samples.
`ingestMessage_routed` says what one message adds; `Recorded` reads all objects
off the log.

`Loop` is wider than `main`: it lets samples be taken at any loop head, and on
any clock. What is shown of all its runs holds of those of `main` in particular,
which `Program` connects to it.
-/

namespace ASNPrefixMap.Ingest

open Lib Prefix Peer Routing Stats
open ASNPrefixMap.Parser

/-! ## Events as they reach the tables -/

/-- An event as it reaches the tables: the peer is an id, the prefix is parsed.
A withdrawal keeps the fields it does not use. -/
structure RoutedEvent where
  type : EventType
  peerId : PeerId
  pfx : BinaryPrefix
  asn : UInt32
  timestamp : UInt64

/-- The call on the routing state that an event is. A message restores nothing
and clears nothing. -/
def RoutedEvent.op (event : RoutedEvent) : Op :=
  match event.type with
  | .announce => .announce event.peerId event.pfx event.asn event.timestamp
  | .withdraw => .withdraw event.peerId event.pfx

/-- Some events, each under the iteration orders its loops meet. -/
abbrev Routed := List (HashOrders × RoutedEvent)

namespace Routed

/-- The calls that some events are, with their orders. -/
def calls (routed : Routed) : List (HashOrders × Op) := routed.map fun entry => (entry.1, entry.2.op)

/-- How many of the events are announcements. -/
def announces (routed : Routed) : Nat := routed.countP fun entry => entry.2.type = .announce

/-- How many of the events are withdrawals. -/
def withdraws (routed : Routed) : Nat := routed.countP fun entry => entry.2.type = .withdraw

/-- The origins of the announcements. -/
def announcedAsns (routed : Routed) : List UInt32 :=
  (routed.filter fun entry => entry.2.type = .announce).map fun entry => entry.2.asn

/-- The prefixes of the events, announced or withdrawn. -/
def prefixes (routed : Routed) : List BinaryPrefix := routed.map fun entry => entry.2.pfx

theorem announces_add_withdraws (routed : Routed) :
    routed.announces + routed.withdraws = routed.length := by
  unfold announces withdraws
  rw [List.length_eq_countP_add_countP (fun entry => decide (entry.2.type = .announce)) (l := routed)]
  congr 1
  apply List.countP_congr
  rintro ⟨ord, event⟩ -
  cases event.type <;> decide

end Routed

/-- One event applied to the objects. -/
def World.route (world : World) (entry : HashOrders × RoutedEvent) : World :=
  world.apply entry.1 entry.2.type entry.2.peerId entry.2.pfx entry.2.asn entry.2.timestamp

/-! ## What some events do -/

/-- Prefixes of both families as one set. -/
def bothFamilies (v4 : Finset PrefixV4) (v6 : Finset PrefixV6) : Finset BinaryPrefix :=
  v4.image .v4 ∪ v6.image .v6

theorem card_bothFamilies (v4 : Finset PrefixV4) (v6 : Finset PrefixV6) :
    (bothFamilies v4 v6).card = v4.card + v6.card := by
  unfold bothFamilies
  rw [Finset.card_union_of_disjoint, Finset.card_image_of_injective _ fun _ _ => BinaryPrefix.v4.inj,
    Finset.card_image_of_injective _ fun _ _ => BinaryPrefix.v6.inj]
  rw [Finset.disjoint_left]
  intro p h₄ h₆
  obtain ⟨q, -, rfl⟩ := Finset.mem_image.mp h₄
  obtain ⟨r, -, hr⟩ := Finset.mem_image.mp h₆
  cases hr

/-- The prefixes a tracker has ever seen. -/
def seenPrefixes (tracker : GrowthStatsTracker) : Finset BinaryPrefix :=
  bothFamilies tracker.everSeenPrefixesV4 tracker.everSeenPrefixesV6

/-- Seeing a prefix inserts it, in whichever family it is. -/
theorem seenPrefixes_seePrefix (tracker : GrowthStatsTracker) (pfx : BinaryPrefix) :
    seenPrefixes (tracker.seePrefix pfx) = insert pfx (seenPrefixes tracker) := by
  cases pfx with
  | v4 p =>
    show (insert p tracker.everSeenPrefixesV4).image BinaryPrefix.v4 ∪ _ = _
    rw [Finset.image_insert, Finset.insert_union]
    rfl
  | v6 p =>
    show _ ∪ (insert p tracker.everSeenPrefixesV6).image BinaryPrefix.v6 = _
    rw [Finset.image_insert, Finset.union_insert]
    rfl

/-- What changes between two states of the objects when some events are applied,
and nothing else is: the calls on the routing state, the counters of applied
events in both places, and the two ever-seen sets. -/
structure Applied (before : World) (routed : Routed) (after : World) : Prop where
  registry : after.registry = before.registry
  state : after.state = routed.calls.foldl stepOp before.state
  stats : after.stats =
    { before.stats with
      announcesApplied := before.stats.announcesApplied + routed.announces
      withdrawsApplied := before.stats.withdrawsApplied + routed.withdraws }
  asns : after.growthStats.everSeenAsns =
    before.growthStats.everSeenAsns ∪ routed.announcedAsns.toFinset
  prefixes : seenPrefixes after.growthStats =
    seenPrefixes before.growthStats ∪ routed.prefixes.toFinset
  growth : ∃ asns v4 v6, after.growthStats =
    { before.growthStats with
      everSeenAsns := asns
      everSeenPrefixesV4 := v4
      everSeenPrefixesV6 := v6
      announcesApplied := before.growthStats.announcesApplied + routed.announces
      withdrawsApplied := before.growthStats.withdrawsApplied + routed.withdraws }

theorem applied_nil (world : World) : Applied world [] world where
  registry := rfl
  state := rfl
  stats := rfl
  asns := (Finset.union_empty _).symm
  prefixes := (Finset.union_empty _).symm
  growth := ⟨_, _, _, rfl⟩

private theorem insert_eq_union {A : Type} [DecidableEq A] (a : A) (s : Finset A) :
    insert a s = s ∪ {a} := by
  rw [Finset.insert_eq, Finset.union_comm]

theorem applied_singleton (world : World) (entry : HashOrders × RoutedEvent) :
    Applied world [entry] (world.route entry) := by
  obtain ⟨ord, type, peerId, pfx, asn, timestamp⟩ := entry
  cases type with
  | announce =>
    refine ⟨rfl, rfl, rfl, ?_, ?_, ?_⟩
    · cases pfx <;> exact insert_eq_union asn _
    · exact (seenPrefixes_seePrefix _ pfx).trans (insert_eq_union pfx _)
    · cases pfx <;> exact ⟨_, _, _, rfl⟩
  | withdraw =>
    refine ⟨rfl, rfl, rfl, ?_, ?_, ?_⟩
    · cases pfx <;> exact (Finset.union_empty _).symm
    · exact (seenPrefixes_seePrefix _ pfx).trans (insert_eq_union pfx _)
    · cases pfx <;> exact ⟨_, _, _, rfl⟩

namespace Routed

theorem calls_append (r₁ r₂ : Routed) : calls (r₁ ++ r₂) = calls r₁ ++ calls r₂ := List.map_append

theorem announces_append (r₁ r₂ : Routed) : announces (r₁ ++ r₂) = announces r₁ + announces r₂ :=
  List.countP_append

theorem withdraws_append (r₁ r₂ : Routed) : withdraws (r₁ ++ r₂) = withdraws r₁ + withdraws r₂ :=
  List.countP_append

theorem announcedAsns_append (r₁ r₂ : Routed) :
    announcedAsns (r₁ ++ r₂) = announcedAsns r₁ ++ announcedAsns r₂ := by
  unfold announcedAsns
  rw [List.filter_append, List.map_append]

theorem prefixes_append (r₁ r₂ : Routed) : prefixes (r₁ ++ r₂) = prefixes r₁ ++ prefixes r₂ :=
  List.map_append

end Routed

/-- Events applied after others add up with them. -/
theorem Applied.trans {w₁ w₂ w₃ : World} {r₁ r₂ : Routed} (h₁ : Applied w₁ r₁ w₂)
    (h₂ : Applied w₂ r₂ w₃) : Applied w₁ (r₁ ++ r₂) w₃ where
  registry := h₂.registry.trans h₁.registry
  state := by rw [h₂.state, h₁.state, Routed.calls_append, List.foldl_append]
  stats := by
    rw [h₂.stats, h₁.stats, Routed.announces_append, Routed.withdraws_append, ← Nat.add_assoc,
      ← Nat.add_assoc]
  asns := by
    rw [h₂.asns, h₁.asns, Routed.announcedAsns_append, List.toFinset_append, Finset.union_assoc]
  prefixes := by
    rw [h₂.prefixes, h₁.prefixes, Routed.prefixes_append, List.toFinset_append, Finset.union_assoc]
  growth := by
    obtain ⟨asns₁, v4₁, v6₁, h₁⟩ := h₁.growth
    obtain ⟨asns₂, v4₂, v6₂, h₂⟩ := h₂.growth
    refine ⟨asns₂, v4₂, v6₂, ?_⟩
    rw [h₂, h₁, Routed.announces_append, Routed.withdraws_append, ← Nat.add_assoc, ← Nat.add_assoc]

/-- Events applied one after the other: the run lemma of this section. -/
theorem applied_foldl : ∀ (routed : Routed) (world : World),
    Applied world routed (routed.foldl World.route world) := by
  intro routed
  induction routed with
  | nil => exact applied_nil
  | cons entry routed ih =>
    intro world
    exact (applied_singleton world entry).trans (ih (world.route entry))

/-! ## What one message does -/

section Message

variable (jsonParse : JsonParse) (net : Inet) (ord : HashOrders)

/-- The events of a message as they reach the tables; a prefix text that does
not parse does not reach them. -/
def routedEvents (peerId : PeerId) (events : List BgpEvent) : List RoutedEvent :=
  events.filterMap fun event =>
    match parsePrefix net event.prefixText with
    | .ok pfx => some ⟨event.type, peerId, pfx, event.asn, event.timestamp⟩
    | .error _ => none

/-- What a message brings to the tables when it is received with the given
objects. -/
def messageRouted (world : World) (text : Bytes) : Routed :=
  match messageEvents jsonParse text with
  | .ok (event :: rest) =>
    (routedEvents net (world.resolvePeer event.peer).1 (event :: rest)).map (Prod.mk ord)
  | _ => []

/-- The message stands for at least one event. -/
def emitsEvents (text : Bytes) : Bool :=
  match messageEvents jsonParse text with
  | .ok (_ :: _) => true
  | _ => false

end Message

variable {jsonParse : JsonParse} {net : Inet} {ord : HashOrders}

/-- If applying events returns, all of them have reached the tables, one after
the other. -/
theorem applyEvents_routed {peerId : PeerId} : ∀ (events : List BgpEvent) {world world' : World},
    (applyEvents net ord peerId events).run world = .ok () world' →
    world' = ((routedEvents net peerId events).map (Prod.mk ord)).foldl World.route world ∧
      (routedEvents net peerId events).length = events.length := by
  intro events
  induction events with
  | nil =>
    intro world world' h
    cases h
    exact ⟨rfl, rfl⟩
  | cons event events ih =>
    intro world world' h
    rw [applyEvents_cons] at h
    cases hp : parsePrefix net event.prefixText with
    | error e =>
      rw [run_bind_error (applyEvent_of_error hp peerId world)] at h
      cases h
    | ok pfx =>
      rw [run_bind_ok (applyEvent_of_ok hp peerId world)] at h
      obtain ⟨hworld, hlen⟩ := ih h
      have hrouted : routedEvents net peerId (event :: events) =
          ⟨event.type, peerId, pfx, event.asn, event.timestamp⟩ :: routedEvents net peerId events := by
        unfold routedEvents
        rw [List.filterMap_cons, hp]
      rw [hrouted, List.length_cons, List.length_cons, hlen]
      exact ⟨hworld, rfl⟩

/-- The objects after a message, given those before it and what it brought to
the tables. All counters are exact, and the active counts are refreshed where an
event has reached the tables. -/
structure Received (before : World) (routed : Routed) (after : World) : Prop where
  state : after.state = routed.calls.foldl stepOp before.state
  stats : after.stats =
    { rawMessagesReceived := before.stats.rawMessagesReceived + 1
      parsedEventsTotal := before.stats.parsedEventsTotal + routed.length
      announcesApplied := before.stats.announcesApplied + routed.announces
      withdrawsApplied := before.stats.withdrawsApplied + routed.withdraws
      ignoredMessages := before.stats.ignoredMessages + if routed = [] then 1 else 0 }
  asns : after.growthStats.everSeenAsns =
    before.growthStats.everSeenAsns ∪ routed.announcedAsns.toFinset
  prefixes : seenPrefixes after.growthStats =
    seenPrefixes before.growthStats ∪ routed.prefixes.toFinset
  growth : ∃ asns v4 v6, after.growthStats =
    { before.growthStats with
      everSeenAsns := asns
      everSeenPrefixesV4 := v4
      everSeenPrefixesV6 := v6
      rawMessagesReceived := before.growthStats.rawMessagesReceived + 1
      parsedEventsTotal := before.growthStats.parsedEventsTotal + routed.length
      announcesApplied := before.growthStats.announcesApplied + routed.announces
      withdrawsApplied := before.growthStats.withdrawsApplied + routed.withdraws
      activePrefixesV4 := if routed = [] then before.growthStats.activePrefixesV4
        else after.state.activePrefixesV4Count
      activePrefixesV6 := if routed = [] then before.growthStats.activePrefixesV6
        else after.state.activePrefixesV6Count }

/-- A message without events is only counted. -/
theorem received_nil (world : World) :
    Received world [] (world.receiveMessage.countMessage 0) where
  state := rfl
  stats := rfl
  asns := (Finset.union_empty _).symm
  prefixes := (Finset.union_empty _).symm
  growth := ⟨_, _, _, rfl⟩

/-- A message with events: its peer is resolved, they are applied, then it is
counted. Resolving a peer changes none of the objects that are spoken of
here. -/
theorem received_cons {world after : World} {routed : Routed} (hne : routed ≠ []) (peer : PeerInfo)
    (h : Applied (world.receiveMessage.resolvePeer peer).2 routed after) :
    Received world routed (after.countMessage routed.length) := by
  have hlen : routed.length ≠ 0 := fun h => hne (List.length_eq_zero_iff.mp h)
  have hcount : after.countMessage routed.length =
      { after with
        stats := { after.stats with
          parsedEventsTotal := after.stats.parsedEventsTotal + routed.length }
        growthStats := (after.growthStats.onParsedEvents routed.length).setActivePrefixCounts
          after.state.activePrefixesV4Count after.state.activePrefixesV6Count } := if_neg hlen
  rw [hcount]
  refine ⟨h.state, ?_, h.asns, h.prefixes, ?_⟩
  · rw [h.stats, if_neg hne]
    rfl
  · obtain ⟨asns, v4, v6, hgrowth⟩ := h.growth
    refine ⟨asns, v4, v6, ?_⟩
    rw [if_neg hne, if_neg hne, hgrowth]
    rfl

/-- **What a message adds.** A message ingested without error brings its events
to the tables, in order, with the id of its one peer, and is counted. -/
theorem ingestMessage_routed {text : Bytes} {world world' : World}
    (h : (ingestMessage jsonParse net ord text).run world = .ok () world') :
    Received world (messageRouted jsonParse net ord world text) world' ∧
      (emitsEvents jsonParse text = true ↔ messageRouted jsonParse net ord world text ≠ []) := by
  rw [ingestMessage_eq] at h
  unfold messageRouted emitsEvents
  cases hevents : messageEvents jsonParse text with
  | error e =>
    rw [hevents] at h
    cases h
  | ok events =>
    rw [hevents] at h
    cases events with
    | nil =>
      cases h
      exact ⟨received_nil world, fun hf => absurd hf Bool.false_ne_true, fun hne => absurd rfl hne⟩
    | cons event rest =>
      dsimp only at h ⊢
      cases hrun : (applyEvents net ord (world.receiveMessage.resolvePeer event.peer).1
          (event :: rest)).run (world.receiveMessage.resolvePeer event.peer).2 with
      | error e after =>
        rw [hrun] at h
        cases h
      | ok _ after =>
        rw [hrun] at h
        obtain ⟨hafter, hlen⟩ := applyEvents_routed _ hrun
        have hid : (world.receiveMessage.resolvePeer event.peer).1 = (world.resolvePeer event.peer).1 :=
          rfl
        rw [hid] at hafter hlen
        have hne : (routedEvents net (world.resolvePeer event.peer).1 (event :: rest)).map
            (Prod.mk ord) ≠ [] := by
          intro hnil
          rw [List.map_eq_nil_iff.mp hnil] at hlen
          cases hlen
        have happlied := applied_foldl ((routedEvents net (world.resolvePeer event.peer).1
          (event :: rest)).map (Prod.mk ord)) (world.receiveMessage.resolvePeer event.peer).2
        rw [← hafter] at happlied
        have hreceived := received_cons hne event.peer happlied
        rw [List.length_map, hlen] at hreceived
        cases h
        exact ⟨hreceived, fun _ => hne, fun _ => rfl⟩

/-- No more events reach the tables than the message stands for. -/
theorem length_messageRouted_le {text : Bytes} {events : List BgpEvent}
    (h : messageEvents jsonParse text = .ok events) (world : World) :
    (messageRouted jsonParse net ord world text).length ≤ events.length := by
  unfold messageRouted
  rw [h]
  cases events with
  | nil => exact Nat.le_refl 0
  | cons event rest =>
    dsimp only
    rw [List.length_map]
    exact List.length_filterMap_le _ _

/-! ## Runs -/

/-- What has happened since the start: the texts received, the events that
reached the tables and the samples taken. A ghost variable: no code reads it. -/
structure LoopLog where
  texts : List Bytes := []
  routed : Routed := []
  samples : List GrowthSample := []

/-- The sample a world gives. -/
def World.sample (world : World) (now : Rat) (timestampMs : UInt64) : GrowthSample :=
  (world.growthStats.sampleNow now timestampMs).1

/-- The objects after a sample. -/
def World.sampled (world : World) (now : Rat) (timestampMs : UInt64) : World :=
  { world with growthStats := (world.growthStats.sampleNow now timestampMs).2 }

/-- The loop heads that can be reached from some objects, each with what led
there: messages ingested without error, and samples at any moments in
between. -/
inductive Loop (jsonParse : JsonParse) (net : Inet) (start : World) : LoopLog → World → Prop
  | start : Loop jsonParse net start {} start
  | message {log : LoopLog} {world world' : World} (ord : HashOrders) (text : Bytes) :
    Loop jsonParse net start log world →
    (ingestMessage jsonParse net ord text).run world = .ok () world' →
    Loop jsonParse net start
      { log with
        texts := log.texts ++ [text]
        routed := log.routed ++ messageRouted jsonParse net ord world text } world'
  | sample {log : LoopLog} {world : World} (now : Rat) (timestampMs : UInt64) :
    Loop jsonParse net start log world →
    Loop jsonParse net start
      { log with samples := log.samples ++ [world.sample now timestampMs] }
      (world.sampled now timestampMs)

/-- A sample changes the tracker's window and its last counts, nothing else. -/
theorem sampled_eq (world : World) (now : Rat) (timestampMs : UInt64) :
    ∃ rates sum detected detectedAt onLast, world.sampled now timestampMs =
      { world with growthStats :=
        { world.growthStats with
          recentPrefixRates := rates
          recentPrefixRateSum := sum
          plateauDetected := detected
          plateauUptimeSec := detectedAt
          plateauDetectedOnLastSample := onLast
          lastSampleAsnCount := world.growthStats.everSeenAsns.card
          lastSamplePrefixCount := (seenPrefixes world.growthStats).card
          lastSampleAt := now } } := by
  obtain ⟨rates, sum, detected, detectedAt, onLast, h⟩ := detectPlateau_fields world.growthStats
    (now - world.growthStats.startedAt) (world.sample now timestampMs).newPrefixesPerSec
  refine ⟨rates, sum, detected, detectedAt, onLast, ?_⟩
  rw [seenPrefixes, card_bothFamilies]
  show ({ world with growthStats := _ } : World) = _
  congr 1
  exact congrArg (fun tracker : GrowthStatsTracker =>
    { tracker with
      lastSampleAsnCount := world.growthStats.everSeenAsns.card
      lastSamplePrefixCount :=
        world.growthStats.everSeenPrefixesV4.card + world.growthStats.everSeenPrefixesV6.card
      lastSampleAt := now }) h

/-- Everything at a loop head that the log determines. The log is what the loop
has been fed, with what became of it; the objects are functions of it. -/
structure Recorded (jsonParse : JsonParse) (start : World) (log : LoopLog) (world : World) : Prop where
  state : world.state = log.routed.calls.foldl stepOp start.state
  raw : world.stats.rawMessagesReceived = start.stats.rawMessagesReceived + log.texts.length
  parsed : world.stats.parsedEventsTotal = start.stats.parsedEventsTotal + log.routed.length
  announces : world.stats.announcesApplied = start.stats.announcesApplied + log.routed.announces
  withdraws : world.stats.withdrawsApplied = start.stats.withdrawsApplied + log.routed.withdraws
  ignored : world.stats.ignoredMessages + log.texts.countP (emitsEvents jsonParse) =
    start.stats.ignoredMessages + log.texts.length
  trackerRaw : world.growthStats.rawMessagesReceived =
    start.growthStats.rawMessagesReceived + log.texts.length
  trackerParsed : world.growthStats.parsedEventsTotal =
    start.growthStats.parsedEventsTotal + log.routed.length
  trackerAnnounces : world.growthStats.announcesApplied =
    start.growthStats.announcesApplied + log.routed.announces
  trackerWithdraws : world.growthStats.withdrawsApplied =
    start.growthStats.withdrawsApplied + log.routed.withdraws
  asns : world.growthStats.everSeenAsns =
    start.growthStats.everSeenAsns ∪ log.routed.announcedAsns.toFinset
  prefixes : seenPrefixes world.growthStats =
    seenPrefixes start.growthStats ∪ log.routed.prefixes.toFinset

theorem recorded_start (start : World) : Recorded jsonParse start {} start where
  state := rfl
  raw := rfl
  parsed := rfl
  announces := rfl
  withdraws := rfl
  ignored := rfl
  trackerRaw := rfl
  trackerParsed := rfl
  trackerAnnounces := rfl
  trackerWithdraws := rfl
  asns := (Finset.union_empty _).symm
  prefixes := (Finset.union_empty _).symm

/-- A message adds its text, its events and one to the counters. -/
theorem Recorded.message {start world world' : World} {log : LoopLog} {text : Bytes} {routed : Routed}
    (h : Recorded jsonParse start log world) (hrec : Received world routed world')
    (hemits : emitsEvents jsonParse text = true ↔ routed ≠ []) :
    Recorded jsonParse start
      { log with texts := log.texts ++ [text], routed := log.routed ++ routed } world' := by
  have hlen : (log.texts ++ [text]).length = log.texts.length + 1 := by
    rw [List.length_append, List.length_singleton]
  obtain ⟨asns, v4, v6, hgrowth⟩ := hrec.growth
  refine
    { state := ?_, raw := ?_, parsed := ?_, announces := ?_, withdraws := ?_, ignored := ?_,
      trackerRaw := ?_, trackerParsed := ?_, trackerAnnounces := ?_, trackerWithdraws := ?_,
      asns := ?_, prefixes := ?_ }
  · rw [hrec.state, h.state, Routed.calls_append, List.foldl_append]
  · rw [hrec.stats, hlen, ← Nat.add_assoc, ← h.raw]
  · rw [hrec.stats, List.length_append, ← Nat.add_assoc, ← h.parsed]
  · rw [hrec.stats, Routed.announces_append, ← Nat.add_assoc, ← h.announces]
  · rw [hrec.stats, Routed.withdraws_append, ← Nat.add_assoc, ← h.withdraws]
  · -- a message is ignored exactly when it emits nothing
    have hignored := h.ignored
    have hone : (if routed = [] then 1 else 0) + [text].countP (emitsEvents jsonParse) = 1 := by
      rw [List.countP_singleton]
      by_cases hr : routed = []
      · rw [if_pos hr, if_neg fun he => hemits.mp he hr]
      · rw [if_neg hr, if_pos (hemits.mpr hr)]
    rw [hrec.stats, hlen, List.countP_append]
    dsimp only
    omega
  · rw [hgrowth, hlen, ← Nat.add_assoc, ← h.trackerRaw]
  · rw [hgrowth, List.length_append, ← Nat.add_assoc, ← h.trackerParsed]
  · rw [hgrowth, Routed.announces_append, ← Nat.add_assoc, ← h.trackerAnnounces]
  · rw [hgrowth, Routed.withdraws_append, ← Nat.add_assoc, ← h.trackerWithdraws]
  · rw [hrec.asns, h.asns, Routed.announcedAsns_append, List.toFinset_append, Finset.union_assoc]
  · rw [hrec.prefixes, h.prefixes, Routed.prefixes_append, List.toFinset_append, Finset.union_assoc]

/-- A sample adds itself to the log and changes no total. -/
theorem Recorded.sample {start world : World} {log : LoopLog} (h : Recorded jsonParse start log world)
    (now : Rat) (timestampMs : UInt64) (samples : List GrowthSample) :
    Recorded jsonParse start { log with samples := samples } (world.sampled now timestampMs) := by
  obtain ⟨rates, sum, detected, detectedAt, onLast, hsampled⟩ := sampled_eq world now timestampMs
  rw [hsampled]
  exact
    { state := h.state, raw := h.raw, parsed := h.parsed, announces := h.announces,
      withdraws := h.withdraws, ignored := h.ignored, trackerRaw := h.trackerRaw,
      trackerParsed := h.trackerParsed, trackerAnnounces := h.trackerAnnounces,
      trackerWithdraws := h.trackerWithdraws, asns := h.asns, prefixes := h.prefixes }

/-- At every loop head the objects are what the log says. -/
theorem Loop.recorded {start world : World} {log : LoopLog} (h : Loop jsonParse net start log world) :
    Recorded jsonParse start log world := by
  induction h with
  | start => exact recorded_start start
  | message ord text _ hrun ih =>
    obtain ⟨hreceived, hemits⟩ := ingestMessage_routed hrun
    exact ih.message hreceived hemits
  | sample now timestampMs _ ih => exact ih.sample now timestampMs _

end ASNPrefixMap.Ingest
