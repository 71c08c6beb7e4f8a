import ASNPrefixMap.Ingest.PeerView
import ASNPrefixMap.Ingest.Record
import ASNPrefixMap.Routing.Provenance

/-!
# Growth statistics lose and repeat nothing

The tracker is seeded once from the routing state and then told of every applied
event; samples are taken in between. At every loop head (`Loop`) its ever-seen
sets are exactly the origins and prefixes of the initial observations and of the
applied events, the counts remembered from the last sample are below the current
ones, and the differences reported so far add up (`SampledSoFar`). Whatever the
routing state holds or selects was written by something the tracker was told of,
so active prefixes and selected ASNs are among the ever-seen
(`growthStatistics_exact`).

A sample subtracts the counts of the last sample from the current ones in
`std::size_t`. That nothing wraps is part of `SampledSoFar`, which every loop
head satisfies.
-/

namespace ASNPrefixMap.Ingest

open Lib Prefix Peer Routing Stats
open ASNPrefixMap.Parser

/-! ## Seeding -/

/-- The origins of some stored observations. -/
def storedAsns (stored : List StoredObservation) : List UInt32 :=
  stored.map fun o => o.observation.originAsn

/-- The prefixes of some stored observations. -/
def storedPrefixes (stored : List StoredObservation) : List BinaryPrefix :=
  stored.map StoredObservation.pfx

/-- The loop of `seed_from_state` adds every origin and every prefix it
meets. -/
theorem foldl_seed : ∀ (stored : List StoredObservation) (tracker : GrowthStatsTracker),
    let seeded := stored.foldl
      (fun tracker stored => (tracker.seeAsn stored.observation.originAsn).seePrefix stored.pfx) tracker
    seeded.everSeenAsns = tracker.everSeenAsns ∪ (storedAsns stored).toFinset ∧
      seenPrefixes seeded = seenPrefixes tracker ∪ (storedPrefixes stored).toFinset := by
  intro stored
  induction stored with
  | nil => exact fun _ => ⟨(Finset.union_empty _).symm, (Finset.union_empty _).symm⟩
  | cons o stored ih =>
    intro tracker
    obtain ⟨hasns, hprefixes⟩ := ih ((tracker.seeAsn o.observation.originAsn).seePrefix o.pfx)
    dsimp only at hasns hprefixes ⊢
    rw [List.foldl_cons, hasns, hprefixes, seenPrefixes_seePrefix]
    have hseen : ((tracker.seeAsn o.observation.originAsn).seePrefix o.pfx).everSeenAsns =
        insert o.observation.originAsn tracker.everSeenAsns := by
      cases o.pfx <;> rfl
    have hasns' : (storedAsns (o :: stored)).toFinset =
        insert o.observation.originAsn (storedAsns stored).toFinset := List.toFinset_cons
    have hprefixes' : (storedPrefixes (o :: stored)).toFinset =
        insert o.pfx (storedPrefixes stored).toFinset := List.toFinset_cons
    rw [hseen, hasns', hprefixes', Finset.insert_union, Finset.union_insert, Finset.insert_union,
      Finset.union_insert]
    exact ⟨rfl, rfl⟩

/-- The objects at the start of the loop: some routing state, the tracker seeded
from it. -/
def seededWorld (registry : PeerRegistry) (state : RoutingState) (stats : IngestionStats)
    (settings : PlateauSettings) (startedAt : Rat) (ord : HashOrders) : World where
  registry := registry
  state := state
  stats := stats
  growthStats := (GrowthStatsTracker.start settings startedAt).seedFromState ord state

section Seeded

variable {registry : PeerRegistry} {state : RoutingState} {stats : IngestionStats}
  {settings : PlateauSettings} {startedAt : Rat} {ord : HashOrders}

/-- A seeded tracker has seen the origins of the initial observations, and no
others. -/
theorem everSeenAsns_seeded :
    (seededWorld registry state stats settings startedAt ord).growthStats.everSeenAsns =
      (storedAsns (state.storedObservations ord)).toFinset :=
  (foldl_seed (state.storedObservations ord) (.start settings startedAt)).1.trans (Finset.empty_union _)

theorem seenPrefixes_seeded :
    seenPrefixes (seededWorld registry state stats settings startedAt ord).growthStats =
      (storedPrefixes (state.storedObservations ord)).toFinset :=
  (foldl_seed (state.storedObservations ord) (.start settings startedAt)).2.trans (Finset.empty_union _)

/-- Seeding counts nothing as received or applied. -/
theorem counters_seeded :
    let tracker := (seededWorld registry state stats settings startedAt ord).growthStats
    tracker.rawMessagesReceived = 0 ∧ tracker.parsedEventsTotal = 0 ∧ tracker.announcesApplied = 0 ∧
      tracker.withdrawsApplied = 0 := by
  obtain ⟨asns, v4, v6, activeV4, activeV6, hseeded⟩ :=
    seedFromState_fields ord state (.start settings startedAt)
  have hworld : (seededWorld registry state stats settings startedAt ord).growthStats =
      (GrowthStatsTracker.start settings startedAt).seedFromState ord state := rfl
  dsimp only
  rw [hworld, hseeded]
  exact ⟨rfl, rfl, rfl, rfl⟩

end Seeded

/-! ## Samples add up -/

variable {jsonParse : JsonParse} {net : Inet}

/-- The differences reported so far add up to the counts of the last sample,
which are not above the current ones. This is what keeps the subtractions of
`sample_now` from wrapping around. -/
structure SampledSoFar (start : World) (log : LoopLog) (world : World) : Prop where
  asns : start.growthStats.lastSampleAsnCount +
    (log.samples.map GrowthSample.newAsnsInInterval).sum = world.growthStats.lastSampleAsnCount
  prefixes : start.growthStats.lastSamplePrefixCount +
    (log.samples.map GrowthSample.newPrefixesInInterval).sum = world.growthStats.lastSamplePrefixCount
  asns_le : world.growthStats.lastSampleAsnCount ≤ world.growthStats.everSeenAsns.card
  prefixes_le : world.growthStats.lastSamplePrefixCount ≤ (seenPrefixes world.growthStats).card

/-- A sample reports the current counts and, without wrapping, what is new since
the last. -/
theorem SampledSoFar.sample_eq {start world : World} {log : LoopLog}
    (h : SampledSoFar start log world) (now : Rat) (timestampMs : UInt64) :
    (world.sample now timestampMs).totalUniqueAsnsEverSeen = world.growthStats.everSeenAsns.card ∧
      (world.sample now timestampMs).totalUniquePrefixesEverSeen =
        (seenPrefixes world.growthStats).card ∧
      world.growthStats.lastSampleAsnCount + (world.sample now timestampMs).newAsnsInInterval =
        world.growthStats.everSeenAsns.card ∧
      world.growthStats.lastSamplePrefixCount +
        (world.sample now timestampMs).newPrefixesInInterval = (seenPrefixes world.growthStats).card := by
  have hasns := h.asns_le
  have hprefixes := h.prefixes_le
  rw [seenPrefixes, card_bothFamilies] at hprefixes ⊢
  refine ⟨rfl, rfl, ?_, ?_⟩
  · show _ + sizeSub _ world.growthStats.lastSampleAsnCount = _
    rw [sizeSub_of_le hasns, Nat.add_sub_cancel' hasns]
  · show _ + sizeSub _ world.growthStats.lastSamplePrefixCount = _
    rw [sizeSub_of_le hprefixes, Nat.add_sub_cancel' hprefixes]

/-- A sample adds its differences to the sum. They do not wrap, since the counts
of the last sample are not above the current ones. -/
theorem SampledSoFar.sample {start world : World} {log : LoopLog} (h : SampledSoFar start log world)
    (now : Rat) (timestampMs : UInt64) :
    SampledSoFar start { log with samples := log.samples ++ [world.sample now timestampMs] }
      (world.sampled now timestampMs) := by
  obtain ⟨-, -, hasns, hprefixes⟩ := h.sample_eq now timestampMs
  obtain ⟨rates, sum, detected, detectedAt, onLast, hsampled⟩ := sampled_eq world now timestampMs
  rw [hsampled]
  refine ⟨?_, ?_, Nat.le_refl _, Nat.le_refl _⟩
  · rw [List.map_append, List.sum_append, ← Nat.add_assoc, h.asns, List.map_singleton,
      List.sum_singleton]
    exact hasns
  · rw [List.map_append, List.sum_append, ← Nat.add_assoc, h.prefixes, List.map_singleton,
      List.sum_singleton]
    exact hprefixes

/-- A message only adds to the ever-seen sets. -/
theorem SampledSoFar.message {start world world' : World} {log : LoopLog} {routed : Routed}
    (h : SampledSoFar start log world) (hrec : Received world routed world') (texts : List Bytes)
    (routed' : Routed) :
    SampledSoFar start { log with texts := texts, routed := routed' } world' := by
  obtain ⟨asns, v4, v6, hgrowth⟩ := hrec.growth
  have hlastAsns : world'.growthStats.lastSampleAsnCount = world.growthStats.lastSampleAsnCount := by
    rw [hgrowth]
  have hlastPrefixes : world'.growthStats.lastSamplePrefixCount =
      world.growthStats.lastSamplePrefixCount := by
    rw [hgrowth]
  refine ⟨h.asns.trans hlastAsns.symm, h.prefixes.trans hlastPrefixes.symm, ?_, ?_⟩
  · rw [hlastAsns, hrec.asns]
    exact Nat.le_trans h.asns_le (Finset.card_le_card Finset.subset_union_left)
  · rw [hlastPrefixes, hrec.prefixes]
    exact Nat.le_trans h.prefixes_le (Finset.card_le_card Finset.subset_union_left)

/-- At every loop head the differences reported so far add up, by induction on
the run. -/
theorem Loop.sampledSoFar {start world : World} {log : LoopLog}
    (hasns : start.growthStats.lastSampleAsnCount ≤ start.growthStats.everSeenAsns.card)
    (hprefixes : start.growthStats.lastSamplePrefixCount ≤ (seenPrefixes start.growthStats).card)
    (h : Loop jsonParse net start log world) : SampledSoFar start log world := by
  induction h with
  | start => exact ⟨rfl, rfl, hasns, hprefixes⟩
  | message ord text _ hrun ih => exact ih.message (ingestMessage_routed hrun).1 _ _
  | sample now timestampMs _ ih => exact ih.sample now timestampMs

/-! ## The cached active counts -/

/-- The tracker's active counts are those of the routing state. They are a copy,
refreshed after each message with events, and read by a sample much later. -/
structure ActiveFresh (world : World) : Prop where
  v4 : world.growthStats.activePrefixesV4 = world.state.activePrefixesV4Count
  v6 : world.growthStats.activePrefixesV6 = world.state.activePrefixesV6Count

/-- They are refreshed after every message that has changed the state. -/
theorem Loop.activeFresh {start world : World} {log : LoopLog} (hstart : ActiveFresh start)
    (h : Loop jsonParse net start log world) : ActiveFresh world := by
  induction h with
  | start => exact hstart
  | @message log world world' ord text _ hrun ih =>
    have hrec := (ingestMessage_routed hrun).1
    obtain ⟨asns, v4, v6, hgrowth⟩ := hrec.growth
    by_cases hr : messageRouted jsonParse net ord world text = []
    · -- nothing reached the tables: both sides are as they were
      have hstate : world'.state = world.state := by
        rw [hrec.state, hr]
        rfl
      rw [if_pos hr, if_pos hr] at hgrowth
      refine ⟨?_, ?_⟩
      · rw [hgrowth, hstate]
        exact ih.v4
      · rw [hgrowth, hstate]
        exact ih.v6
    · rw [if_neg hr, if_neg hr] at hgrowth
      exact ⟨by rw [hgrowth], by rw [hgrowth]⟩
  | @sample log world now timestampMs _ ih =>
    obtain ⟨rates, sum, detected, detectedAt, onLast, hsampled⟩ := sampled_eq world now timestampMs
    rw [hsampled]
    exact ⟨ih.v4, ih.v6⟩

/-! ## The state at a loop head -/

section Run

variable {calls₀ : List (HashOrders × Op)} {registry : PeerRegistry} {stats : IngestionStats}
  {settings : PlateauSettings} {startedAt : Rat} {ord : HashOrders} {log : LoopLog} {world : World}

/-- The routing state is the one after the initial history and the applied
events. -/
theorem Loop.state_eq (h : Loop jsonParse net
    (seededWorld registry (runOps calls₀) stats settings startedAt ord) log world) :
    world.state = runOps (calls₀ ++ log.routed.calls) := by
  rw [h.recorded.state, runOps_append]
  rfl

/-- A call of a log is one of its events. -/
theorem mem_calls {routed : Routed} {call : HashOrders × Op} (h : call ∈ routed.calls) :
    ∃ entry ∈ routed, call = (entry.1, entry.2.op) := by
  obtain ⟨entry, hmem, rfl⟩ := List.mem_map.mp h
  exact ⟨entry, hmem, rfl⟩

/-- An event that writes is an announcement of what it writes. -/
theorem RoutedEvent.writes {event : RoutedEvent} {key : BinaryPrefix × PeerId}
    {value : UInt32 × UInt64} (h : event.op.Writes key value) :
    event.type = .announce ∧ event.peerId = key.2 ∧ event.pfx = key.1 ∧ event.asn = value.1 := by
  obtain ⟨type, peerId, pfx, asn, timestamp⟩ := event
  cases type with
  | announce =>
    obtain ⟨rfl, rfl⟩ := h
    exact ⟨rfl, rfl, rfl, rfl⟩
  | withdraw => cases h

/-- The tracker has been told of everything the state holds. -/
theorem Loop.seen_of_live (h : Loop jsonParse net
    (seededWorld registry (runOps calls₀) stats settings startedAt ord) log world)
    (hfull : NeverFull (calls₀ ++ log.routed.calls)) {key : BinaryPrefix × PeerId}
    {value : UInt32 × UInt64} (hlive : live world.state key = some value) :
    key.1 ∈ seenPrefixes world.growthStats ∧ value.1 ∈ world.growthStats.everSeenAsns := by
  have hrec := h.recorded
  rw [hrec.prefixes, hrec.asns, seenPrefixes_seeded, everSeenAsns_seeded, Finset.mem_union,
    Finset.mem_union]
  rw [h.state_eq] at hlive
  rcases live_provenance hfull hlive with hinit | ⟨call, hcall, hwrites⟩
  · -- held since the start: one of the observations the tracker was seeded with
    have hstored : (⟨key.1, ⟨key.2, value.1⟩, value.2⟩ : StoredObservation) ∈
        (runOps calls₀).storedObservations ord :=
      (mem_storedObservations (runOps_spec hfull.of_append).1 ord _).mpr hinit
    exact ⟨Or.inl (List.mem_toFinset.mpr (List.mem_map.mpr ⟨_, hstored, rfl⟩)),
      Or.inl (List.mem_toFinset.mpr (List.mem_map.mpr ⟨_, hstored, rfl⟩))⟩
  · obtain ⟨entry, hentry, rfl⟩ := mem_calls hcall
    obtain ⟨htype, -, hpfx, hasn⟩ := RoutedEvent.writes hwrites
    have hannounced : entry ∈ log.routed.filter fun entry => entry.2.type = .announce :=
      List.mem_filter.mpr ⟨hentry, decide_eq_true htype⟩
    exact ⟨Or.inr (List.mem_toFinset.mpr (List.mem_map.mpr ⟨entry, hentry, hpfx⟩)),
      Or.inr (List.mem_toFinset.mpr (List.mem_map.mpr ⟨entry, hannounced, hasn⟩))⟩

/-- The active prefixes are the keys of the aggregated tables. -/
theorem active_le_seen {state : RoutingState} {seen : Finset BinaryPrefix}
    (h : ∀ pfx asn, state.selected pfx = some asn → pfx ∈ seen) :
    state.activePrefixesV4Count + state.activePrefixesV6Count ≤ seen.card := by
  have hcard := card_bothFamilies state.v4.aggregated.keys state.v6.aggregated.keys
  show FiniteMap.size _ + FiniteMap.size _ ≤ _
  rw [FiniteMap.size, FiniteMap.size, ← hcard]
  apply Finset.card_le_card
  intro pfx hpfx
  rcases Finset.mem_union.mp hpfx with hpfx | hpfx
  · obtain ⟨p, hp, rfl⟩ := Finset.mem_image.mp hpfx
    obtain ⟨asn, hasn⟩ := Option.isSome_iff_exists.mp ((mem_keys_iff _ p).mp hp)
    exact h (.v4 p) asn hasn
  · obtain ⟨p, hp, rfl⟩ := Finset.mem_image.mp hpfx
    obtain ⟨asn, hasn⟩ := Option.isSome_iff_exists.mp ((mem_keys_iff _ p).mp hp)
    exact h (.v6 p) asn hasn

/-- Seeding takes the active counts from the state it reads. -/
theorem activeFresh_seeded : ActiveFresh
    (seededWorld registry (runOps calls₀) stats settings startedAt ord) := ⟨rfl, rfl⟩

/-- **Growth statistics lose, repeat and underflow nothing.** From any reachable
routing state the tracker is seeded with, at every loop head, a sample reports
the numbers of distinct origins and prefixes of the initial observations and the
applied events; both differences are taken from counts that are not larger; with
the seeded counts they add up to the totals; every prefix with an observation or
a selected ASN has been seen, and so has that ASN; and no more prefixes are
active than were ever seen. -/
theorem growthStatistics_exact
    (hloop : Loop jsonParse net
      (seededWorld registry (runOps calls₀) stats settings startedAt ord) log world)
    (hfull : NeverFull (calls₀ ++ log.routed.calls)) (now : Rat) (timestampMs : UInt64) :
    let initial := (runOps calls₀).storedObservations ord
    let sample := world.sample now timestampMs
    sample.totalUniqueAsnsEverSeen =
        (storedAsns initial ++ log.routed.announcedAsns).toFinset.card ∧
      sample.totalUniquePrefixesEverSeen =
        (storedPrefixes initial ++ log.routed.prefixes).toFinset.card ∧
      world.growthStats.lastSampleAsnCount ≤ sample.totalUniqueAsnsEverSeen ∧
      world.growthStats.lastSamplePrefixCount ≤ sample.totalUniquePrefixesEverSeen ∧
      (storedAsns initial).toFinset.card +
          ((log.samples ++ [sample]).map GrowthSample.newAsnsInInterval).sum =
        sample.totalUniqueAsnsEverSeen ∧
      (storedPrefixes initial).toFinset.card +
          ((log.samples ++ [sample]).map GrowthSample.newPrefixesInInterval).sum =
        sample.totalUniquePrefixesEverSeen ∧
      (∀ ord, ∀ o ∈ world.state.storedObservations ord, o.pfx ∈ seenPrefixes world.growthStats) ∧
      (∀ pfx asn, world.state.selected pfx = some asn →
        pfx ∈ seenPrefixes world.growthStats ∧ asn ∈ world.growthStats.everSeenAsns) ∧
      sample.totalActivePrefixes ≤ sample.totalUniquePrefixesEverSeen := by
  have hrec := hloop.recorded
  have hstate : StateInv world.state := by
    rw [hloop.state_eq]
    exact (runOps_spec hfull).1
  have hseedAsns := @everSeenAsns_seeded registry (runOps calls₀) stats settings startedAt ord
  have hseedPrefixes := @seenPrefixes_seeded registry (runOps calls₀) stats settings startedAt ord
  -- seeding remembers the counts it leaves
  have hlastAsns : (seededWorld registry (runOps calls₀) stats settings startedAt
      ord).growthStats.lastSampleAsnCount =
        (storedAsns ((runOps calls₀).storedObservations ord)).toFinset.card :=
    congrArg Finset.card hseedAsns
  have hlastPrefixes : (seededWorld registry (runOps calls₀) stats settings startedAt
      ord).growthStats.lastSamplePrefixCount =
        (storedPrefixes ((runOps calls₀).storedObservations ord)).toFinset.card := by
    rw [← hseedPrefixes, seenPrefixes, card_bothFamilies]
    rfl
  have hsampled := hloop.sampledSoFar (Nat.le_of_eq (by rw [hlastAsns, hseedAsns]))
    (Nat.le_of_eq (by rw [hlastPrefixes, hseedPrefixes]))
  obtain ⟨htotalAsns, htotalPrefixes, hnewAsns, hnewPrefixes⟩ := hsampled.sample_eq now timestampMs
  have hselected : ∀ pfx asn, world.state.selected pfx = some asn →
      pfx ∈ seenPrefixes world.growthStats ∧ asn ∈ world.growthStats.everSeenAsns := by
    intro pfx asn hpfx
    obtain ⟨j, t, hlive⟩ := exists_live_of_selected hstate hpfx
    exact hloop.seen_of_live hfull hlive
  have hactive := hloop.activeFresh activeFresh_seeded
  refine ⟨?_, ?_, ?_, ?_, ?_, ?_, ?_, hselected, ?_⟩
  · rw [htotalAsns, hrec.asns, hseedAsns, List.toFinset_append]
  · rw [htotalPrefixes, hrec.prefixes, hseedPrefixes, List.toFinset_append]
  · rw [htotalAsns]
    exact hsampled.asns_le
  · rw [htotalPrefixes]
    exact hsampled.prefixes_le
  · rw [htotalAsns, ← hnewAsns, ← hsampled.asns, hlastAsns, List.map_append, List.sum_append,
      List.map_singleton, List.sum_singleton, Nat.add_assoc]
  · rw [htotalPrefixes, ← hnewPrefixes, ← hsampled.prefixes, hlastPrefixes, List.map_append,
      List.sum_append, List.map_singleton, List.sum_singleton, Nat.add_assoc]
  · intro ord' o ho
    exact (hloop.seen_of_live hfull ((mem_storedObservations hstate ord' o).mp ho)).1
  · rw [htotalPrefixes]
    show world.growthStats.activePrefixesV4 + world.growthStats.activePrefixesV6 ≤ _
    rw [hactive.v4, hactive.v6]
    exact active_le_seen fun pfx asn hpfx => (hselected pfx asn hpfx).1

end Run

/-- The loop head after one message, from the empty state. -/
theorem exists_loop_rrc10 : ∃ log world,
    Loop twoPeersParse Inet.standard (seededWorld {} (runOps []) {} {} 0 .ascending) log world ∧
      log.texts = [rrc10Text] ∧ log.routed.calls.length < 2 ^ 32 := by
  have hevents : messageEvents twoPeersParse rrc10Text = .ok (documentEvents rrc10Document) := by
    unfold messageEvents
    rw [twoPeersParse_rrc10]
  obtain ⟨hover, hacc⟩ := twoPeers_usable rrc10Text (List.mem_cons_of_mem _ List.mem_cons_self)
  obtain ⟨world, hrun, -⟩ := @ingestMessage_spec twoPeersParse Inet.standard .ascending
    {⟨bytes "rrc10", bytes "198.51.100.2", 64510⟩} _
    (seededWorld {} (runOps []) {} {} 0 .ascending) rrc10Text (storeInv_empty (by decide))
    (fun peer hpeer => by
      rw [messagePeer_rrc10] at hpeer
      exact Finset.mem_singleton.mpr (Option.some.inj hpeer).symm) hacc _ hevents
  refine ⟨_, world, .message .ascending rrc10Text .start hrun, rfl, ?_⟩
  have hle := @length_messageRouted_le _ Inet.standard .ascending _ _ hevents
    (seededWorld {} (runOps []) {} {} 0 .ascending)
  have htwo : (documentEvents rrc10Document).length = 2 := by decide
  rw [Routed.calls, List.length_map]
  refine Nat.lt_of_le_of_lt (Nat.le_trans (Nat.le_of_eq List.length_append)
    (Nat.add_le_add_left hle _)) ?_
  rw [htwo]
  decide

/-- The theorem at the loop head after one message. -/
theorem growthStatistics_exact_rrc10 : ∃ log world,
    Loop twoPeersParse Inet.standard (seededWorld {} (runOps []) {} {} 0 .ascending) log world ∧
      log.texts = [rrc10Text] ∧
      (world.sample 1 1710000100000).totalUniqueAsnsEverSeen =
        (storedAsns ((runOps []).storedObservations .ascending) ++
          log.routed.announcedAsns).toFinset.card := by
  obtain ⟨log, world, hloop, htexts, hlen⟩ := exists_loop_rrc10
  exact ⟨log, world, hloop, htexts,
    (growthStatistics_exact hloop (neverFull_of_length _ hlen) 1 1710000100000).1⟩

end ASNPrefixMap.Ingest
