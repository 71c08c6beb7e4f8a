import ASNPrefixMap.Ingest.Discovery
import ASNPrefixMap.Snapshot.RoundTrip

/-!
# The counters of a run add up

The main loop starts from nothing or from a loaded snapshot (`Started`), with
the tracker seeded from the state. The counters of the loop, those of the
tracker and the active counts it caches are all read off the log of the run
(`Loop.recorded`, `Loop.activeFresh`); and every id the routing state stores is
one that was registered before it was written (`PeersKnown`), by the load or by
the message it came with, so saving does not meet an unknown id
(`counters_add_up`).

That every stored id is registered is an invariant of two objects that do not
know each other: the state stores what it is told, and it is `main` that asks
the registry first.
-/

namespace ASNPrefixMap.Snapshot

open Lib Prefix Peer Routing Stats Ingest
open ASNPrefixMap.Parser

/-! ## Where a run starts -/

section Load

variable (net : Inet) (ord : HashOrders)

/-- The call that restores an observation line. -/
def restoreCall (o : SnapshotObservation) : Option (HashOrders × Op) :=
  match o.parse net with
  | .ok pfx => some (ord, .restore o.peerId pfx o.originAsn o.timestamp)
  | .error _ => none

/-- The calls a load makes on the routing state. -/
def loadCalls (text : Bytes) : List (HashOrders × Op) :=
  match readSnapshot text with
  | .error _ => []
  | .ok reading =>
    if reading.sawAnyContent = false then [(ord, .clear)]
    else
      (ord, .clear) :: (sortObservations reading.observations).filterMap (restoreCall net ord) ++
        [(ord, .rebuild)]

end Load

/-- The objects before the first message, with the history of the routing state:
nothing was loaded, or a snapshot was. A loaded snapshot counts as
announcements, in the order of its lines. -/
inductive Started (net : Inet) : List (HashOrders × Op) → World → Prop
  | fresh (settings : PlateauSettings) (startedAt : Rat) (ord : HashOrders) :
    Started net [] (seededWorld {} {} {} settings startedAt ord)
  | loaded {ord : HashOrders} {peerOrd : IterOrder PeerId PeerInfo} {path text : Bytes}
    {stats : SnapshotStats} {store : Store} (settings : PlateauSettings) (startedAt : Rat)
    (seedOrd : HashOrders) :
    (loadSnapshot net ord peerOrd path (some text)).run {} = .ok stats store →
    Started net (loadCalls net ord text)
      (seededWorld store.registry store.state {} settings startedAt seedOrd)

variable {net : Inet} {ord : HashOrders} {peerOrd : IterOrder PeerId PeerInfo}

theorem restoreAll_eq_foldl : ∀ (observations : List SnapshotObservation) (state : RoutingState),
    restoreAll net ord state observations =
      (observations.filterMap (restoreCall net ord)).foldl stepOp state := by
  intro observations
  induction observations with
  | nil => exact fun _ => rfl
  | cons o observations ih =>
    intro state
    rw [List.filterMap_cons]
    show restoreAll net ord (restoredState net ord state o) observations = _
    rw [ih]
    unfold restoredState restoreCall
    cases o.parse net with
    | error e => rfl
    | ok pfx => rfl

/-- A loaded state is the one after the calls of the load. -/
theorem loaded_state {path text : Bytes} {stats : SnapshotStats} {store : Store}
    (h : (loadSnapshot net ord peerOrd path (some text)).run {} = .ok stats store) :
    store.state = runOps (loadCalls net ord text) := by
  obtain ⟨text', reading, htext, hread, -, rfl⟩ := loadSnapshot_eq_ok h
  cases htext
  unfold loadCalls
  rw [hread]
  dsimp only
  split
  next => rfl
  next =>
    rw [runOps, List.cons_append, List.foldl_cons, List.foldl_append, ← restoreAll_eq_foldl]
    rfl

/-- The initial state is the one after the calls of the load. -/
theorem Started.state_eq {calls₀ : List (HashOrders × Op)} {start : World}
    (h : Started net calls₀ start) : start.state = runOps calls₀ := by
  cases h with
  | fresh settings startedAt ord => rfl
  | loaded settings startedAt seedOrd hload => exact loaded_state hload

/-! ## Ids are registered before they are written -/

/-- Every id the registry gives out is in it, and so is every id the calls have
written. With it `save_snapshot` finds the peer of each observation. -/
structure PeersKnown (calls : List (HashOrders × Op)) (registry : PeerRegistry) : Prop where
  infos : ∀ peer peerId, registry.byInfo.lookup peer = some peerId →
    registry.contains peerId = true
  written : ∀ call ∈ calls, ∀ key value, call.2.Writes key value →
    registry.contains key.2 = true

/-- A load restores observations of ids it has registered. -/
theorem peersKnown_of_load {path text : Bytes} {stats : SnapshotStats} {store : Store}
    (h : (loadSnapshot net ord peerOrd path (some text)).run {} = .ok stats store) :
    PeersKnown (loadCalls net ord text) store.registry := by
  obtain ⟨text', reading, htext, hread, hrest, rfl⟩ := loadSnapshot_eq_ok h
  cases htext
  unfold loadCalls
  rw [hread]
  dsimp only
  split
  next =>
    refine ⟨fun peer peerId hp => (by cases hp), fun call hcall key value hw => ?_⟩
    rw [List.mem_singleton.mp hcall] at hw
    cases hw
  next =>
    have hfresh := (@freshFor_entries_iff peerOrd reading).mpr hrest.identities
    refine ⟨fun peer peerId hp => (inverse_insertAll inverse_empty hfresh).contains hp,
      fun call hcall key value hw => ?_⟩
    simp only [List.cons_append, List.mem_cons, List.mem_append, List.mem_filterMap,
      List.not_mem_nil, or_false] at hcall
    rcases hcall with rfl | ⟨o, ho, hcall⟩ | rfl
    · cases hw
    · -- a restored line names a peer that was read
      unfold restoreCall at hcall
      split at hcall
      next pfx hpfx =>
        cases hcall
        obtain ⟨rfl, -⟩ := hw
        exact (contains_insertAll_iff hfresh _).mpr (hrest.known o (mem_sortObservations.mp ho))
      next => cases hcall
    · cases hw

/-- At the start every id in the state is registered. -/
theorem Started.peersKnown {calls₀ : List (HashOrders × Op)} {start : World}
    (h : Started net calls₀ start) : PeersKnown calls₀ start.registry := by
  cases h with
  | fresh settings startedAt ord =>
    exact ⟨fun peer peerId hp => (by cases hp), fun call hcall => absurd hcall List.not_mem_nil⟩
  | loaded settings startedAt seedOrd hload => exact peersKnown_of_load hload

/-- Looking a peer up or adding it loses no id. -/
theorem contains_getOrAdd {registry : PeerRegistry} (peer : PeerInfo) {i : PeerId}
    (h : registry.contains i = true) : (registry.getOrAdd peer).2.contains i = true := by
  cases hp : registry.byInfo.lookup peer with
  | some peerId =>
    rw [getOrAdd_of_some hp]
    exact h
  | none =>
    rw [getOrAdd_of_none hp]
    exact (contains_bind ..).mpr (Or.inr h)

/-- The id it returns is registered, also when the counter has wrapped. -/
theorem PeersKnown.getOrAdd {calls : List (HashOrders × Op)} {registry : PeerRegistry}
    (h : PeersKnown calls registry) (peer : PeerInfo) :
    PeersKnown calls (registry.getOrAdd peer).2 ∧
      (registry.getOrAdd peer).2.contains (registry.getOrAdd peer).1 = true := by
  have hwritten : ∀ call ∈ calls, ∀ key value, call.2.Writes key value →
      (registry.getOrAdd peer).2.contains key.2 = true := fun call hcall key value hw =>
    contains_getOrAdd peer (h.written call hcall key value hw)
  cases hp : registry.byInfo.lookup peer with
  | some peerId =>
    rw [getOrAdd_of_some hp] at hwritten ⊢
    exact ⟨⟨h.infos, hwritten⟩, h.infos peer peerId hp⟩
  | none =>
    rw [getOrAdd_of_none hp] at hwritten ⊢
    refine ⟨⟨fun q i hq => ?_, hwritten⟩, (contains_bind ..).mpr (Or.inl rfl)⟩
    have hq' : (registry.byInfo.insert peer registry.nextPeerId).lookup q = some i := hq
    rw [lookup_insert_eq] at hq'
    split at hq'
    next => exact (contains_bind ..).mpr (Or.inl (Option.some.inj hq').symm)
    next => exact (contains_bind ..).mpr (Or.inr (h.infos q i hq'))

/-- A message registers at most its own peer, and writes under that peer's id
only. -/
theorem ingestMessage_registry {jsonParse : JsonParse} {text : Bytes} {world world' : World}
    (h : (ingestMessage jsonParse net ord text).run world = .ok () world') :
    (messageRouted jsonParse net ord world text = [] ∧ world'.registry = world.registry) ∨
      ∃ peer, world'.registry = (world.registry.getOrAdd peer).2 ∧
        ∀ entry ∈ messageRouted jsonParse net ord world text,
          entry.2.peerId = (world.registry.getOrAdd peer).1 := by
  rw [ingestMessage_eq] at h
  unfold messageRouted
  cases hevents : messageEvents jsonParse text with
  | error e =>
    rw [hevents] at h
    cases h
  | ok events =>
    rw [hevents] at h
    cases events with
    | nil =>
      cases h
      exact Or.inl ⟨rfl, rfl⟩
    | cons event rest =>
      dsimp only at h ⊢
      cases hrun : (applyEvents net ord (world.receiveMessage.resolvePeer event.peer).1
          (event :: rest)).run (world.receiveMessage.resolvePeer event.peer).2 with
      | error e after =>
        rw [hrun] at h
        cases h
      | ok _ after =>
        rw [hrun] at h
        cases h
        refine Or.inr ⟨event.peer, ?_, fun entry hentry => ?_⟩
        · rw [countMessage_registry, (applyEvents_routed _ hrun).1, (applied_foldl _ _).registry]
          rfl
        · obtain ⟨routed, hrouted, rfl⟩ := List.mem_map.mp hentry
          obtain ⟨e, -, he⟩ := List.mem_filterMap.mp hrouted
          split at he
          next pfx hpfx =>
            rw [← Option.some.inj he]
            rfl
          next => cases he

/-- A message keeps this: it registers its peer, if it is new, before it
writes. -/
theorem PeersKnown.message {jsonParse : JsonParse} {calls : List (HashOrders × Op)} {text : Bytes}
    {world world' : World} (h : PeersKnown calls world.registry)
    (hrun : (ingestMessage jsonParse net ord text).run world = .ok () world') :
    PeersKnown (calls ++ (messageRouted jsonParse net ord world text).calls) world'.registry := by
  rcases ingestMessage_registry hrun with ⟨hnil, hreg⟩ | ⟨peer, hreg, hids⟩
  · rw [hnil, hreg]
    show PeersKnown (calls ++ []) world.registry
    rw [List.append_nil]
    exact h
  · obtain ⟨hknown, hid⟩ := h.getOrAdd peer
    rw [hreg]
    refine ⟨hknown.infos, fun call hcall key value hw => ?_⟩
    rcases List.mem_append.mp hcall with hcall | hcall
    · exact hknown.written call hcall key value hw
    · obtain ⟨entry, hentry, rfl⟩ := mem_calls hcall
      obtain ⟨-, hpeer, -, -⟩ := RoutedEvent.writes hw
      rw [← hpeer, hids entry hentry]
      exact hid

/-! ## At a loop head -/

section Run

variable {jsonParse : JsonParse} {calls₀ : List (HashOrders × Op)} {start world : World}
  {log : LoopLog}

theorem Started.loop_peersKnown (hstart : Started net calls₀ start)
    (h : Loop jsonParse net start log world) :
    PeersKnown (calls₀ ++ log.routed.calls) world.registry := by
  induction h with
  | start =>
    show PeersKnown (calls₀ ++ []) start.registry
    rw [List.append_nil]
    exact hstart.peersKnown
  | message ord text _ hrun ih =>
    rw [Routed.calls_append, ← List.append_assoc]
    exact ih.message hrun
  | sample now timestampMs _ ih => exact ih

/-- Whoever an observation is of is registered. -/
theorem Started.contains_of_stored (hstart : Started net calls₀ start)
    (h : Loop jsonParse net start log world) (hfull : NeverFull (calls₀ ++ log.routed.calls))
    {o : StoredObservation} (ho : o ∈ world.state.storedObservations ord) :
    world.registry.contains o.observation.peerId = true := by
  have hstate : world.state = runOps (calls₀ ++ log.routed.calls) := by
    rw [h.recorded.state, hstart.state_eq, runOps_append]
  have hlive : live (runOps (calls₀ ++ log.routed.calls)) o.key = some o.value := by
    rw [← hstate]
    exact (mem_storedObservations (hstate ▸ (runOps_spec hfull).1) ord o).mp ho
  -- the calls from the start on, with none before them
  rw [← List.nil_append (calls₀ ++ log.routed.calls)] at hfull hlive
  rcases live_provenance hfull hlive with hempty | ⟨call, hcall, hw⟩
  · rw [runOps, List.foldl_nil, live_empty] at hempty
    cases hempty
  · exact (hstart.loop_peersKnown h).written call hcall _ _ hw

/-- At the start the active counts are those of the state, as the tracker was
seeded from it. -/
theorem Started.activeFresh (h : Started net calls₀ start) : ActiveFresh start := by
  cases h with
  | fresh settings startedAt ord => exact ⟨rfl, rfl⟩
  | loaded settings startedAt seedOrd hload => exact ⟨rfl, rfl⟩

end Run

/-! ## Saving -/

/-- What `save_snapshot` reports about an id that is in the state and not in the
registry. -/
def unknownPeerError (peerId : PeerId) : Exception :=
  .runtimeError (bytes "Routing state references unknown peer_id " ++ toDec peerId.toNat)

/-- Its text starts with an `R`; those of the other errors do not. -/
theorem unknownPeerError_ne {peerId : PeerId} {text : Bytes} (h : text.head? = some 70) :
    unknownPeerError peerId ≠ .runtimeError text := by
  intro heq
  have htext := Exception.runtimeError.inj heq
  have hhead : bytes "Routing state references unknown peer_id " =
      82 :: (bytes "Routing state references unknown peer_id ").tail := by decide
  rw [← htext, hhead] at h
  exact absurd (Option.some.inj h) (by decide)

/-- A failed conversion of an address throws its own text. -/
theorem toStringWith_error {failed : String} {buffer : Option CString} {length : UInt8}
    {e : Exception} (h : toStringWith failed buffer length = .error e) :
    e = .runtimeError (bytes failed) := by
  unfold toStringWith at h
  split at h
  next =>
    cases h
    rfl
  next => cases h

/-- Printing a prefix never throws the exception for an unknown id. -/
theorem snapshotObservation_error {entry : StoredObservation} {e : Exception}
    (h : snapshotObservation net entry = .error e) (peerId : PeerId) : unknownPeerError peerId ≠ e := by
  unfold snapshotObservation at h
  cases hprint : entry.pfx.toString net with
  | ok prefixText =>
    rw [hprint] at h
    cases h
  | error e' =>
    rw [hprint, error_bind] at h
    cases h
    cases hpfx : entry.pfx with
    | v4 p =>
      rw [hpfx] at hprint
      rw [toStringWith_error hprint]
      exact unknownPeerError_ne (by decide)
    | v6 p =>
      rw [hpfx] at hprint
      rw [toStringWith_error hprint]
      exact unknownPeerError_ne (by decide)

/-- With all ids registered the peer check passes, and no other step throws its
exception. -/
theorem saveSnapshot_of_known {store : Store}
    (h : ∀ o ∈ store.state.storedObservations ord,
      store.registry.contains o.observation.peerId = true) (path : Bytes) (opens : Bool) :
    Returns ((usedPeerIds (store.state.storedObservations ord)).mapM (snapshotPeer store.registry)) ∧
      ∀ peerId, saveSnapshot net ord path opens store ≠ .error (unknownPeerError peerId) := by
  obtain ⟨peers, hpeers, -⟩ := @exists_mapM_ok _ _ _ (snapshotPeer store.registry) (fun _ _ => True)
    (usedPeerIds (store.state.storedObservations ord)) fun i hi => by
      obtain ⟨o, ho, rfl⟩ := mem_usedPeerIds.mp hi
      obtain ⟨p, hp⟩ := Option.isSome_iff_exists.mp (h o ho)
      exact ⟨_, snapshotPeer_of_lookup hp, trivial⟩
  refine ⟨⟨peers, hpeers⟩, fun peerId hsave => ?_⟩
  unfold saveSnapshot at hsave
  dsimp only at hsave
  rw [hpeers, ok_bind] at hsave
  cases hlines : (store.state.storedObservations ord).mapM (snapshotObservation net) with
  | error e =>
    rw [hlines, error_bind] at hsave
    obtain ⟨entry, -, he⟩ := exists_of_mapM_error hlines
    exact snapshotObservation_error he peerId (Except.error.inj hsave).symm
  | ok lines =>
    rw [hlines, ok_bind] at hsave
    cases opens with
    | true => cases hsave
    | false => exact unknownPeerError_ne (by rfl) (Except.error.inj hsave).symm

/-! ## The counters -/

/-- The active counts of a state are the numbers of prefixes that have an
observation. -/
theorem activeCounts_eq {state : RoutingState} (h : StateInv state) (ord : HashOrders) :
    state.activePrefixesV4Count =
        {p | ∃ o ∈ state.storedObservations ord, o.pfx = .v4 p}.ncard ∧
      state.activePrefixesV6Count =
        {p | ∃ o ∈ state.storedObservations ord, o.pfx = .v6 p}.ncard := by
  -- an entry of the table is an observation in the list, and the other way round
  have hmem : ∀ pfx : BinaryPrefix, (∃ o ∈ state.storedObservations ord, o.pfx = pfx) ↔
      ∃ j, live state (pfx, j) ≠ none := by
    intro pfx
    constructor
    · rintro ⟨o, ho, rfl⟩
      exact ⟨o.observation.peerId, live_ne_none_of_mem h ho⟩
    · rintro ⟨j, hj⟩
      obtain ⟨o, ho, hpfx, -⟩ := @exists_mem_of_live ord state h pfx j hj
      exact ⟨o, ho, hpfx⟩
  simp only [hmem]
  exact ⟨size_aggregated h.v4, size_aggregated h.v6⟩

/-- **The counters of a run add up.** From nothing or any loaded snapshot, at
every loop head: parsed events are announcements and withdrawals; every message
was ignored or emitted events; the tracker counts what the loop counts; its
cached active counts are the numbers of prefixes with an observation; and every
stored id is registered, so that saving does not end with the error for an
unknown id. -/
theorem counters_add_up {jsonParse : JsonParse} {calls₀ : List (HashOrders × Op)}
    {start world : World} {log : LoopLog} (hstart : Started net calls₀ start)
    (hloop : Loop jsonParse net start log world)
    (hfull : NeverFull (calls₀ ++ log.routed.calls)) :
    world.stats.parsedEventsTotal = world.stats.announcesApplied + world.stats.withdrawsApplied ∧
      world.stats.rawMessagesReceived =
        world.stats.ignoredMessages + log.texts.countP (emitsEvents jsonParse) ∧
      world.growthStats.rawMessagesReceived = world.stats.rawMessagesReceived ∧
      world.growthStats.parsedEventsTotal = world.stats.parsedEventsTotal ∧
      world.growthStats.announcesApplied = world.stats.announcesApplied ∧
      world.growthStats.withdrawsApplied = world.stats.withdrawsApplied ∧
      (∀ ord, world.growthStats.activePrefixesV4 =
        {p | ∃ o ∈ world.state.storedObservations ord, o.pfx = .v4 p}.ncard) ∧
      (∀ ord, world.growthStats.activePrefixesV6 =
        {p | ∃ o ∈ world.state.storedObservations ord, o.pfx = .v6 p}.ncard) ∧
      (∀ ord, ∀ o ∈ world.state.storedObservations ord,
        world.registry.contains o.observation.peerId = true) ∧
      ∀ ord path opens peerId,
        saveSnapshot net ord path opens ⟨world.registry, world.state⟩ ≠
          .error (unknownPeerError peerId) := by
  have hrec := hloop.recorded
  have hactive := hloop.activeFresh hstart.activeFresh
  have hstate : StateInv world.state := by
    rw [hrec.state, hstart.state_eq, ← runOps_append]
    exact (runOps_spec hfull).1
  -- the counters start at zero
  have hzero : start.stats = {} ∧ start.growthStats.rawMessagesReceived = 0 ∧
      start.growthStats.parsedEventsTotal = 0 ∧ start.growthStats.announcesApplied = 0 ∧
      start.growthStats.withdrawsApplied = 0 := by
    cases hstart with
    | fresh settings startedAt ord => exact ⟨rfl, counters_seeded⟩
    | loaded settings startedAt seedOrd hload => exact ⟨rfl, counters_seeded⟩
  obtain ⟨hstats, hraw, hparsed, hannounces, hwithdraws⟩ := hzero
  have hsum := log.routed.announces_add_withdraws
  have hignored := hrec.ignored
  have hknown : ∀ ord, ∀ o ∈ world.state.storedObservations ord,
      world.registry.contains o.observation.peerId = true := fun ord o ho =>
    hstart.contains_of_stored hloop hfull ho
  refine ⟨?_, ?_, ?_, ?_, ?_, ?_, fun ord => ?_, fun ord => ?_, hknown, fun ord path opens =>
    (@saveSnapshot_of_known net ord ⟨world.registry, world.state⟩ (hknown ord) path opens).2⟩
  · rw [hrec.parsed, hrec.announces, hrec.withdraws, hstats]
    dsimp only
    omega
  · rw [hrec.raw]
    rw [hstats] at hignored ⊢
    dsimp only at hignored ⊢
    omega
  · rw [hrec.trackerRaw, hrec.raw, hraw, hstats]
  · rw [hrec.trackerParsed, hrec.parsed, hparsed, hstats]
  · rw [hrec.trackerAnnounces, hrec.announces, hannounces, hstats]
  · rw [hrec.trackerWithdraws, hrec.withdraws, hwithdraws, hstats]
  · rw [hactive.v4]
    exact (activeCounts_eq hstate ord).1
  · rw [hactive.v6]
    exact (activeCounts_eq hstate ord).2

/-- The theorem at the loop head after one message. -/
theorem counters_add_up_rrc10 : ∃ log world,
    Loop twoPeersParse Inet.standard (seededWorld {} (runOps []) {} {} 0 .ascending) log world ∧
      log.texts = [rrc10Text] ∧
      world.stats.parsedEventsTotal = world.stats.announcesApplied + world.stats.withdrawsApplied := by
  obtain ⟨log, world, hloop, htexts, hlen⟩ := exists_loop_rrc10
  exact ⟨log, world, hloop, htexts,
    (counters_add_up (.fresh {} 0 .ascending) hloop (neverFull_of_length _ hlen)).1⟩

end ASNPrefixMap.Snapshot
