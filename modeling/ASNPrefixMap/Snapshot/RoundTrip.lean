import ASNPrefixMap.Ingest.Failure
import ASNPrefixMap.Routing.AnyHistory
import ASNPrefixMap.Snapshot.Restoring

/-!
# Saving and loading back

`Written` is what a snapshot records of a store: the peers that observations
use, and one line for each observation whose text parses back to the prefix it
was printed from. `saveSnapshot_spec` says that saving writes this,
`loadSnapshot_written` that loading it restores every entry under its old id,
provided the strings of the peers survive the line format. They do unless one of
them holds a tab or a newline, since nothing is escaped:
`snapshot_roundTrips_iff`.

The condition is on the state that is saved. It holds of every state whose peers
come from hosts and addresses without control characters, but neither the parser
nor the registry checks that they do.
-/

namespace ASNPrefixMap.Snapshot

open Lib Prefix Peer Routing Ingest
open ASNPrefixMap.Parser

/-! ## What is written -/

/-- The write an observation line stands for. -/
def lineWrite (net : Inet) (o : SnapshotObservation) :
    Option (Write (BinaryPrefix × PeerId) (UInt32 × UInt64)) :=
  match o.parse net with
  | .ok pfx => some ⟨(pfx, o.peerId), some (o.originAsn, o.timestamp)⟩
  | .error _ => none

/-- The write that makes a stored observation. -/
def storedWrite (o : StoredObservation) : Write (BinaryPrefix × PeerId) (UInt32 × UInt64) :=
  ⟨o.key, some o.value⟩

/-- What a snapshot's records say about the store it was taken of: which peers,
which observations, and that each line can be read. The lines are permuted, as
saving sorts them. -/
structure Written (net : Inet) (ord : HashOrders) (store : Store)
    (peers : List (PeerId × PeerInfo)) (observations : List SnapshotObservation) : Prop where
  ids : (peers.map Prod.fst).Nodup
  peers_iff : ∀ i p, (i, p) ∈ peers ↔
    (∃ pfx, live store.state (pfx, i) ≠ none) ∧ store.registry.byId.lookup i = some p
  plain : ∀ o ∈ observations, PlainText o
  parses : ∀ o ∈ observations, ∃ pfx, o.parse net = .ok pfx ∧
    live store.state (pfx, o.peerId) ≠ none
  writes : (observations.filterMap (lineWrite net)).Perm
    ((store.state.storedObservations ord).map storedWrite)

variable {net : Inet} {ord ord' : HashOrders}

/-- A line stands for a write if its prefix text parses. -/
theorem lineWrite_eq_some {o : SnapshotObservation}
    {w : Write (BinaryPrefix × PeerId) (UInt32 × UInt64)} :
    lineWrite net o = some w ↔ ∃ pfx, o.parse net = .ok pfx ∧
      w = ⟨(pfx, o.peerId), some (o.originAsn, o.timestamp)⟩ := by
  unfold lineWrite
  cases o.parse net with
  | error e => simp
  | ok pfx => simp [eq_comm]

/-- The printed text of a key is read back by the parser of its family. -/
theorem parse_toString (hnet : net.RoundTrips) {pfx : BinaryPrefix} (hc : pfx.Canonical) :
    ∃ t, pfx.toString net = .ok t ∧ tab ∉ t ∧ newline ∉ t ∧ ∀ peerId asn time,
      SnapshotObservation.parse net ⟨familyOf pfx, t, peerId, asn, time⟩ = .ok pfx := by
  cases pfx with
  | v4 p =>
    obtain ⟨t, hprint, hparse, htab, hnl⟩ := parsePrefixV4_toString hnet hc
    refine ⟨t, hprint, htab, hnl, fun _ _ _ => ?_⟩
    show (parsePrefixV4 net t >>= fun q => pure (BinaryPrefix.v4 q)) = _
    rw [hparse, ok_bind, pure_eq_ok]
  | v6 p =>
    obtain ⟨t, hprint, hparse, htab, hnl⟩ := parsePrefixV6_toString hnet hc
    refine ⟨t, hprint, htab, hnl, fun _ _ _ => ?_⟩
    show (parsePrefixV6 net t >>= fun q => pure (BinaryPrefix.v6 q)) = _
    rw [hparse, ok_bind, pure_eq_ok]

/-- An observation of a canonical prefix gets a line that stands for it. -/
theorem snapshotObservation_spec (hnet : net.RoundTrips) {entry : StoredObservation}
    (hc : entry.pfx.Canonical) :
    ∃ o, snapshotObservation net entry = .ok o ∧ PlainText o ∧
      lineWrite net o = some (storedWrite entry) := by
  obtain ⟨t, hprint, htab, hnl, hparse⟩ := parse_toString hnet hc
  refine ⟨⟨familyOf entry.pfx, t, entry.observation.peerId, entry.observation.originAsn,
    entry.timestamp⟩, ?_, ⟨htab, hnl⟩, ?_⟩
  · rw [snapshotObservation, hprint, ok_bind, pure_eq_ok]
  · exact lineWrite_eq_some.mpr ⟨entry.pfx, hparse _ _ _, rfl⟩

theorem snapshotPeer_of_lookup {registry : PeerRegistry} {peerId : PeerId} {peer : PeerInfo}
    (h : registry.byId.lookup peerId = some peer) :
    snapshotPeer registry peerId = .ok (peerId, peer) := by
  have hc : ¬ registry.contains peerId = false := by
    rw [contains_eq_false, h]
    exact Option.some_ne_none peer
  rw [snapshotPeer, if_neg hc, get_eq_ok.mpr h, ok_bind, pure_eq_ok]

/-- The ids in use are those of the observations. -/
theorem mem_usedPeerIds {stored : List StoredObservation} {i : PeerId} :
    i ∈ usedPeerIds stored ↔ ∃ entry ∈ stored, entry.observation.peerId = i := by
  unfold usedPeerIds
  rw [List.mem_insertionSort, List.mem_dedup, List.mem_map]

theorem nodup_usedPeerIds (stored : List StoredObservation) : (usedPeerIds stored).Nodup :=
  (List.perm_insertionSort _ _).nodup_iff.mpr (List.nodup_dedup _)

/-- The peers that are written have the ids asked for, and are what the registry
says. -/
theorem map_fst_of_forall₂ {registry : PeerRegistry} {ids : List PeerId}
    {peers : List (PeerId × PeerInfo)}
    (h : List.Forall₂ (fun i peer => peer.1 = i ∧ registry.byId.lookup peer.1 = some peer.2) ids peers) :
    peers.map Prod.fst = ids ∧ ∀ peer ∈ peers, registry.byId.lookup peer.1 = some peer.2 := by
  induction h with
  | nil => exact ⟨rfl, fun _ hmem => (by cases hmem)⟩
  | cons hhead _ ih =>
    refine ⟨by rw [List.map_cons, hhead.1, ih.1], fun peer hmem => ?_⟩
    rcases List.mem_cons.mp hmem with rfl | hmem
    · exact hhead.2
    · exact ih.2 peer hmem

/-- The lines that are written stand for the observations one by one. -/
theorem filterMap_of_forall₂ {stored : List StoredObservation}
    {observations : List SnapshotObservation}
    (h : List.Forall₂ (fun entry o => PlainText o ∧ lineWrite net o = some (storedWrite entry)) stored
      observations) :
    observations.filterMap (lineWrite net) = stored.map storedWrite ∧
      ∀ o ∈ observations, PlainText o ∧ ∃ entry ∈ stored, lineWrite net o = some (storedWrite entry) := by
  induction h with
  | nil => exact ⟨rfl, fun _ hmem => (by cases hmem)⟩
  | cons hhead _ ih =>
    refine ⟨by rw [List.filterMap_cons, hhead.2, List.map_cons, ih.1], fun o hmem => ?_⟩
    rcases List.mem_cons.mp hmem with rfl | hmem
    · exact ⟨hhead.1, _, List.mem_cons_self, hhead.2⟩
    · obtain ⟨hplain, entry, hentry, hw⟩ := ih.2 o hmem
      exact ⟨hplain, entry, List.mem_cons_of_mem _ hentry, hw⟩

/-- A stored observation is an entry of the state. -/
theorem live_ne_none_of_mem {state : RoutingState} (h : StateInv state) {entry : StoredObservation}
    (hmem : entry ∈ state.storedObservations ord) :
    live state (entry.pfx, entry.observation.peerId) ≠ none := by
  have hlive := (mem_storedObservations h ord entry).mp hmem
  rw [StoredObservation.key] at hlive
  rw [hlive]
  exact Option.some_ne_none _

theorem exists_mem_of_live {state : RoutingState} (h : StateInv state) {pfx : BinaryPrefix}
    {i : PeerId} (hl : live state (pfx, i) ≠ none) :
    ∃ entry ∈ state.storedObservations ord, entry.pfx = pfx ∧ entry.observation.peerId = i := by
  obtain ⟨value, hvalue⟩ := Option.ne_none_iff_exists'.mp hl
  exact ⟨⟨pfx, ⟨i, value.1⟩, value.2⟩, (mem_storedObservations h ord _).mpr hvalue, rfl, rfl⟩

/-- The peers in use, with their ids, are the peers under the ids in use. -/
theorem mem_peers_iff {state : RoutingState} (h : StateInv state) {registry : PeerRegistry}
    {peers : List (PeerId × PeerInfo)}
    (hids : peers.map Prod.fst = usedPeerIds (state.storedObservations ord))
    (hlookup : ∀ peer ∈ peers, registry.byId.lookup peer.1 = some peer.2) (i : PeerId)
    (p : PeerInfo) : (i, p) ∈ peers ↔
      (∃ pfx, live state (pfx, i) ≠ none) ∧ registry.byId.lookup i = some p := by
  constructor
  · intro hmem
    have hi : i ∈ usedPeerIds (state.storedObservations ord) := by
      rw [← hids]
      exact List.mem_map_of_mem hmem
    obtain ⟨entry, hentry, rfl⟩ := mem_usedPeerIds.mp hi
    exact ⟨⟨entry.pfx, live_ne_none_of_mem h hentry⟩, hlookup _ hmem⟩
  · intro ⟨⟨pfx, hl⟩, hp⟩
    obtain ⟨entry, hentry, -, hid⟩ := @exists_mem_of_live ord _ h _ _ hl
    have hi : i ∈ peers.map Prod.fst := by
      rw [hids]
      exact mem_usedPeerIds.mpr ⟨entry, hentry, hid⟩
    obtain ⟨⟨j, q⟩, hmem, rfl⟩ := List.mem_map.mp hi
    have hq := hlookup _ hmem
    rw [hp] at hq
    rw [Option.some.inj hq]
    exact hmem

/-- **Saving writes the peers in use and all observations.** -/
theorem saveSnapshot_spec (hnet : net.RoundTrips) {S : Finset PeerInfo} {limit : Nat} {store : Store}
    (h : StoreInv S limit store.registry store.state) (path : Bytes) :
    ∃ peers observations stats,
      saveSnapshot net ord path true store = .ok (snapshotText peers observations, stats) ∧
        Written net ord store peers observations := by
  obtain ⟨peers, hpeers, hpeersR⟩ := @exists_mapM_ok _ _ _ (snapshotPeer store.registry)
    (fun i peer => peer.1 = i ∧ store.registry.byId.lookup peer.1 = some peer.2)
    (usedPeerIds (store.state.storedObservations ord)) fun i hi => by
      obtain ⟨entry, hentry, rfl⟩ := mem_usedPeerIds.mp hi
      obtain ⟨p, hp⟩ := Option.isSome_iff_exists.mp
        (h.registered _ _ (live_ne_none_of_mem h.stored hentry))
      exact ⟨_, snapshotPeer_of_lookup hp, rfl, hp⟩
  obtain ⟨lines, hlines, hlinesR⟩ := @exists_mapM_ok _ _ _ (snapshotObservation net)
    (fun entry o => PlainText o ∧ lineWrite net o = some (storedWrite entry))
    (store.state.storedObservations ord) fun entry hentry =>
      snapshotObservation_spec hnet (h.canonical _ _ (live_ne_none_of_mem h.stored hentry))
  obtain ⟨hids, hlookup⟩ := map_fst_of_forall₂ hpeersR
  obtain ⟨hwrites, hrows⟩ := filterMap_of_forall₂ hlinesR
  have hsort : (sortObservations lines).Perm lines := List.perm_insertionSort _ _
  refine ⟨peers, sortObservations lines, ⟨peers.length, (sortObservations lines).length⟩, ?_,
    hids ▸ nodup_usedPeerIds _, mem_peers_iff h.stored hids hlookup, ?_, ?_, ?_⟩
  · unfold saveSnapshot
    dsimp only
    rw [hpeers, ok_bind, hlines, ok_bind, if_neg (by decide), pure_eq_ok]
  · intro o ho
    exact (hrows o (hsort.mem_iff.mp ho)).1
  · intro o ho
    obtain ⟨-, entry, hentry, hw⟩ := hrows o (hsort.mem_iff.mp ho)
    obtain ⟨pfx, hpfx, heq⟩ := lineWrite_eq_some.mp hw
    refine ⟨pfx, hpfx, ?_⟩
    have hkey : entry.key = (pfx, o.peerId) := congrArg Write.key heq
    rw [← hkey]
    exact live_ne_none_of_mem h.stored hentry
  · exact (hsort.filterMap _).trans (List.Perm.of_eq hwrites)

/-! ## What is loaded -/

/-- The lines, in whatever order, make the entries they were written for. -/
theorem applyWrites_written {store : Store} {peers : List (PeerId × PeerInfo)}
    {observations : List SnapshotObservation} (h : StateInv store.state)
    (hw : Written net ord store peers observations)
    {ws : List (Write (BinaryPrefix × PeerId) (UInt32 × UInt64))}
    (hperm : ws.Perm (observations.filterMap (lineWrite net))) :
    applyWrites (fun _ => none) ws = live store.state := by
  have hall := hperm.trans hw.writes
  have hnodup : (ws.map Write.key).Nodup := by
    rw [(hall.map Write.key).nodup_iff, List.map_map]
    exact nodup_keys_storedObservations h ord
  funext key
  refine Option.ext fun value => ?_
  rw [applyWrites_eq_some_iff hnodup, hall.mem_iff, List.mem_map]
  constructor
  · rintro ⟨entry, hentry, heq⟩
    have hlive := (mem_storedObservations h ord entry).mp hentry
    obtain ⟨hkey, hvalue⟩ := Write.mk.inj heq
    rwa [hkey, hvalue] at hlive
  · intro hlive
    exact ⟨⟨key.1, ⟨key.2, value.1⟩, value.2⟩, (mem_storedObservations h ord _).mpr hlive, rfl⟩

/-- One line is a write, or nothing if its text does not parse. -/
theorem restoredState_live {state : RoutingState} (h : state.RowsKept) (o : SnapshotObservation) :
    (restoredState net ord state o).RowsKept ∧
      live (restoredState net ord state o) =
        applyWrites (live state) ((lineWrite net o).toList) := by
  unfold restoredState lineWrite
  cases o.parse net with
  | error e => exact ⟨h, rfl⟩
  | ok pfx =>
    dsimp only
    rw [restoreObservation_eq]
    exact h.announce ord o.peerId pfx o.originAsn o.timestamp

/-- The lines are writes, and the last one to a key stays. -/
theorem restoreAll_live : ∀ (observations : List SnapshotObservation) (state : RoutingState),
    state.RowsKept →
    (restoreAll net ord state observations).RowsKept ∧
      live (restoreAll net ord state observations) =
        applyWrites (live state) (observations.filterMap (lineWrite net)) := by
  intro observations
  induction observations with
  | nil => exact fun _ h => ⟨h, rfl⟩
  | cons o observations ih =>
    intro state h
    obtain ⟨hstep, hlive⟩ := @restoredState_live net ord _ h o
    obtain ⟨hrows, hrest⟩ := ih _ hstep
    refine ⟨hrows, ?_⟩
    show live (restoreAll net ord (restoredState net ord state o) observations) = _
    rw [hrest, hlive, ← applyWrites_append, List.filterMap_cons]
    cases lineWrite net o <;> rfl

/-- Restoring lines of registered peers performs the writes they stand for. -/
theorem restoreAll_spec {T : Finset PeerInfo} {limit : Nat} {registry : PeerRegistry} :
    ∀ (observations : List SnapshotObservation) (state : RoutingState),
      StoreInv T limit registry state →
      (∀ o ∈ observations, registry.contains o.peerId = true ∧
        ∃ pfx, o.parse net = .ok pfx ∧ pfx.Canonical) →
      StoreInv T limit registry (restoreAll net ord state observations) ∧
        live (restoreAll net ord state observations) =
          applyWrites (live state) (observations.filterMap (lineWrite net)) := by
  intro observations state h hall
  refine ⟨?_, (restoreAll_live observations state h.stored.rowsKept).2⟩
  induction observations generalizing state with
  | nil => exact h
  | cons o observations ih =>
    obtain ⟨hreg, pfx, hparse, hc⟩ := hall o List.mem_cons_self
    have hstate : restoredState net ord state o =
        state.announce ord o.peerId pfx o.originAsn o.timestamp := by
      unfold restoredState
      rw [hparse]
      exact restoreObservation_eq ..
    obtain ⟨hs, hlive⟩ := announce_spec ord h.stored (h.hasRoom hreg pfx) o.originAsn o.timestamp
    obtain ⟨peer, hpeer⟩ := Option.isSome_iff_exists.mp hreg
    have hinv := (h.write ((h.numbered.inverse _ _).mp hpeer) hc hs hlive).1
    exact ih _ (hstate.symm ▸ hinv) fun o' ho' => hall o' (List.mem_cons_of_mem _ ho')

/-- What was written is restorable, once it has been read. -/
theorem Written.restorable {S : Finset PeerInfo} {limit : Nat} {store : Store}
    (h : StoreInv S limit store.registry store.state) {peers : List (PeerId × PeerInfo)}
    {observations : List SnapshotObservation} (hw : Written net ord store peers observations)
    {reading : Reading} (hread : HasRead .observations peers observations reading) :
    Restorable net reading := by
  refine ⟨?_, ?_, ?_⟩
  · intro i j p hi hj
    have hi' := ((hw.peers_iff i p).mp ((hread.peers_iff i p).mp hi)).2
    have hj' := ((hw.peers_iff j p).mp ((hread.peers_iff j p).mp hj)).2
    exact h.numbered.inverse.peer_injective hi' hj'
  · intro o ho
    rw [hread.observations_eq] at ho
    obtain ⟨pfx, -, hl⟩ := hw.parses o ho
    obtain ⟨p, hp⟩ := Option.isSome_iff_exists.mp (h.registered pfx _ hl)
    rw [(hread.peers_iff _ p).mpr ((hw.peers_iff _ p).mpr ⟨⟨pfx, hl⟩, hp⟩)]
    exact Option.some_ne_none p
  · intro o ho
    rw [hread.observations_eq] at ho
    obtain ⟨pfx, hparse, -⟩ := hw.parses o ho
    exact ⟨pfx, hparse⟩

/-- The registry a load builds from the peers that were written. -/
theorem Written.registry_spec {S T : Finset PeerInfo} {limit : Nat} {store : Store}
    (h : StoreInv S limit store.registry store.state) {peers : List (PeerId × PeerInfo)}
    {observations : List SnapshotObservation} (hw : Written net ord store peers observations)
    {reading : Reading} (hread : HasRead .observations peers observations reading)
    (hlimit : limit + T.card < 2 ^ 32 - 1) (peerOrd : IterOrder PeerId PeerInfo) :
    Numbered T (limit + T.card) (insertAll {} (peerOrd.entries reading.peers)) ∧
      ∀ i p, (insertAll {} (peerOrd.entries reading.peers)).byId.lookup i = some p ↔
        (i, p) ∈ peers := by
  have hfresh := (@freshFor_entries_iff peerOrd reading).mpr (hw.restorable h hread).identities
  have hlisting := peerOrd.listing reading.peers
  constructor
  · refine numbered_insertAll h.numbered hlimit hfresh fun peer hmem => ?_
    exact ((hw.peers_iff _ _).mp ((hread.peers_iff _ _).mp ((hlisting.mem_iff _ _).mp hmem))).2
  · intro i p
    rw [lookup_byId_insertAll i p hfresh, hlisting.mem_iff, hread.peers_iff]
    exact or_iff_left fun hl => (by cases hl)

/-- **Loading what was written restores every entry**, with the used peers under
their ids and with room for any peers `T` still to come. -/
theorem loadSnapshot_written {S T : Finset PeerInfo} {limit : Nat} {store : Store}
    (h : StoreInv S limit store.registry store.state) {peers : List (PeerId × PeerInfo)}
    {observations : List SnapshotObservation} (hw : Written net ord store peers observations)
    (hplain : ∀ peer ∈ peers, Plain peer.2) (hlimit : limit + T.card < 2 ^ 32 - 1)
    (peerOrd : IterOrder PeerId PeerInfo) (path : Bytes) (store₀ : Store) :
    ∃ stats store', (loadSnapshot net ord' peerOrd path
        (some (snapshotText peers observations))).run store₀ = .ok stats store' ∧
      StoreInv T (limit + T.card) store'.registry store'.state ∧
      live store'.state = live store.state ∧
      ∀ i p, store'.registry.byId.lookup i = some p ↔ (i, p) ∈ peers := by
  obtain ⟨reading, hreading, hread⟩ := readSnapshot_snapshotText hw.ids hplain hw.plain
  obtain ⟨hnum, hlookup⟩ := hw.registry_spec h hread hlimit peerOrd
  obtain ⟨hinv, hlive⟩ := @restoreAll_spec net ord' T (limit + T.card)
    (insertAll {} (peerOrd.entries reading.peers)) (sortObservations reading.observations) {}
    (storeInv_of_numbered hnum) fun o ho => by
      rw [mem_sortObservations, hread.observations_eq] at ho
      obtain ⟨pfx, hparse, hl⟩ := hw.parses o ho
      refine ⟨?_, pfx, hparse, h.canonical _ _ hl⟩
      obtain ⟨p, hp⟩ := Option.isSome_iff_exists.mp (h.registered pfx _ hl)
      unfold PeerRegistry.contains
      rw [(hlookup _ p).mpr ((hw.peers_iff _ p).mpr ⟨⟨pfx, hl⟩, hp⟩)]
      rfl
  -- the loader sorts the lines again; with distinct keys their order is of no account
  have hperm : ((sortObservations reading.observations).filterMap (lineWrite net)).Perm
      (observations.filterMap (lineWrite net)) := by
    rw [← hread.observations_eq]
    exact (List.perm_insertionSort _ _).filterMap _
  rw [live_empty, applyWrites_written h.stored hw hperm] at hlive
  refine ⟨⟨reading.peers.size, reading.observations.length⟩,
    ⟨insertAll {} (peerOrd.entries reading.peers),
      (restoreAll net ord' {} (sortObservations reading.observations)).rebuildAggregated ord'⟩,
    ?_, ?_, ?_, hlookup⟩
  · rw [loadSnapshot_of_content hreading hread.saw.1,
      run_bind_ok (restoreSnapshot_of_restorable (hw.restorable h hread) store₀)]
    rfl
  · show StoreInv T (limit + T.card) _ (RoutingState.rebuildAggregated ord' _)
    rw [rebuildAggregated_eq hinv.stored]
    exact hinv
  · show live (RoutingState.rebuildAggregated ord' _) = live store.state
    rw [rebuildAggregated_eq hinv.stored]
    exact hlive

/-! ## The round trip -/

/-- Saving and loading back, into any registry and state, gives the same
observations, the same aggregated table and the same peer under every id in
use. Nothing is said of the timing, the hash orders or what the target held
before. -/
def SurvivesSnapshot (net : Inet) (ord ord' : HashOrders) (peerOrd : IterOrder PeerId PeerInfo)
    (path : Bytes) (store₀ store : Store) : Prop :=
  ∃ text saved loaded store', saveSnapshot net ord path true store = .ok (text, saved) ∧
    (loadSnapshot net ord' peerOrd path (some text)).run store₀ = .ok loaded store' ∧
    (∀ o, o ∈ store'.state.storedObservations ord' ↔ o ∈ store.state.storedObservations ord) ∧
    store'.state.selected = store.state.selected ∧
    ∀ o ∈ store.state.storedObservations ord,
      store'.registry.get o.observation.peerId = store.registry.get o.observation.peerId

/-- No peer of an observation has a tab or a newline in its strings. -/
def UsedPeersPlain (ord : HashOrders) (store : Store) : Prop :=
  ∀ o ∈ store.state.storedObservations ord, ∀ peer,
    store.registry.get o.observation.peerId = .ok peer → Plain peer

/-- The entries determine the aggregated table. The records behind them may have
been built in another order. -/
theorem selected_eq_of_live_eq {s₁ s₂ : RoutingState} (h₁ : StateInv s₁) (h₂ : StateInv s₂)
    (h : live s₁ = live s₂) : s₁.selected = s₂.selected := by
  refine @selected_eq_of_renaming s₁ s₂ h₁ h₂ PeerId id id (fun _ _ _ _ _ e => e)
    (fun _ _ _ _ _ e => e) ?_
  intro p m a t
  rw [h]

/-- The peers that are written are peers of observations. -/
theorem Written.plain_of_used {S : Finset PeerInfo} {limit : Nat} {store : Store}
    (h : StoreInv S limit store.registry store.state) {peers : List (PeerId × PeerInfo)}
    {observations : List SnapshotObservation} (hw : Written net ord store peers observations)
    (hplain : UsedPeersPlain ord store) {peer : PeerId × PeerInfo} (hmem : peer ∈ peers) :
    Plain peer.2 := by
  obtain ⟨⟨pfx, hl⟩, hlook⟩ := (hw.peers_iff _ _).mp hmem
  obtain ⟨entry, hentry, -, hid⟩ := @exists_mem_of_live ord _ h.stored _ _ hl
  refine hplain entry hentry peer.2 ?_
  rw [hid]
  exact get_eq_ok.mpr hlook

/-- Where the peers in use are plain, what is saved is loaded back. -/
theorem survives_of_plain (hnet : net.RoundTrips) {S : Finset PeerInfo} {limit : Nat}
    {store : Store} (h : StoreInv S limit store.registry store.state) (hlimit : limit < 2 ^ 32 - 1)
    (hplain : UsedPeersPlain ord store) (peerOrd : IterOrder PeerId PeerInfo) (path : Bytes)
    (store₀ : Store) : SurvivesSnapshot net ord ord' peerOrd path store₀ store := by
  obtain ⟨peers, observations, saved, hsave, hw⟩ := @saveSnapshot_spec net ord hnet S limit store h path
  have hpeers : ∀ peer ∈ peers, Plain peer.2 := fun peer => hw.plain_of_used h hplain
  obtain ⟨loaded, store', hload, hinv, hlive, hlookup⟩ := @loadSnapshot_written net ord ord' S ∅
    limit store h peers observations hw hpeers (by simpa using hlimit) peerOrd path store₀
  refine ⟨_, saved, loaded, store', hsave, hload, ?_, ?_, ?_⟩
  · intro o
    rw [mem_storedObservations hinv.stored, mem_storedObservations h.stored, hlive]
  · exact selected_eq_of_live_eq hinv.stored h.stored hlive
  · intro o ho
    have hl := live_ne_none_of_mem h.stored ho
    obtain ⟨p, hp⟩ := Option.isSome_iff_exists.mp (h.registered _ _ hl)
    rw [get_eq_ok.mpr hp, get_eq_ok, hlookup, hw.peers_iff]
    exact ⟨⟨_, hl⟩, hp⟩

/-- Every peer a load has registered has plain strings, whatever the file. -/
theorem plain_of_loadSnapshot_ok {peerOrd : IterOrder PeerId PeerInfo} {path : Bytes}
    {input : Option Bytes} {store₀ store' : Store} {stats : SnapshotStats}
    (h : (loadSnapshot net ord peerOrd path input).run store₀ = .ok stats store') {i : PeerId}
    {p : PeerInfo} (hp : store'.registry.byId.lookup i = some p) : Plain p := by
  cases input with
  | none => cases h
  | some text =>
    cases hread : readSnapshot text with
    | error e =>
      rw [loadSnapshot_of_error hread] at h
      cases h
    | ok reading =>
      cases hsaw : reading.sawAnyContent with
      | false =>
        rw [loadSnapshot_of_blank hread hsaw] at h
        cases h
        cases hp
      | true =>
        rw [loadSnapshot_of_content hread hsaw] at h
        by_cases hrest : Restorable net reading
        · rw [run_bind_ok (restoreSnapshot_of_restorable hrest store₀)] at h
          cases h
          have hfresh := (@freshFor_entries_iff peerOrd reading).mpr hrest.identities
          -- the registry was cleared, so the peer is one of those read
          rcases (lookup_byId_insertAll i p hfresh).mp hp with hmem | hnone
          · exact (readSnapshot_inv hread).plain i p
              (((peerOrd.listing reading.peers).mem_iff i p).mp hmem)
          · cases hnone
        · obtain ⟨e, store₁, he⟩ := @restoreSnapshot_of_not_restorable net ord peerOrd _ hrest
          rw [run_bind_error (he store₀)] at h
          cases h

/-- Conversely, what survives has been registered by a load, and a load
registers plain strings only. -/
theorem plain_of_survives {peerOrd : IterOrder PeerId PeerInfo} {path : Bytes} {store₀ store : Store}
    (hs : SurvivesSnapshot net ord ord' peerOrd path store₀ store) : UsedPeersPlain ord store := by
  obtain ⟨text, saved, loaded, store', -, hload, -, -, hget⟩ := hs
  intro o ho peer hpeer
  have hpeer' : store'.registry.get o.observation.peerId = .ok peer := (hget o ho).trans hpeer
  exact plain_of_loadSnapshot_ok hload (get_eq_ok.mp hpeer')

/-! ## After an ingest -/

section Reached

variable {jsonParse : JsonParse} {growth : Stats.GrowthStatsTracker}

/-- The peers of the observations are peers of the messages. -/
theorem usedPeersPlain_of_messages {S : Finset PeerInfo} {limit : Nat} {store : Store}
    (h : StoreInv S limit store.registry store.state) {messages : List Bytes}
    (hmap : peerMap store.registry store.state =
      applyWrites (peerMap {} {}) (messages.flatMap (messageWrites jsonParse net)))
    (hplain : ∀ text ∈ messages, ∀ peer, messagePeer jsonParse text = some peer → Plain peer) :
    UsedPeersPlain ord store := by
  intro o ho peer hget
  have hentry : peerMap store.registry store.state (o.pfx, peer) = some o.value :=
    (peerMap_eq_some h _ _ _).mpr
      ⟨o.observation.peerId, get_eq_ok.mp hget, (mem_storedObservations h.stored ord o).mp ho⟩
  by_contra hnot
  have hnone : applyWrites (peerMap {} {}) (messages.flatMap (messageWrites jsonParse net))
      (o.pfx, peer) = peerMap {} {} (o.pfx, peer) := by
    refine applyWrites_of_notMem (fun w hw hkey => hnot ?_) _
    obtain ⟨text, htext, hmem⟩ := List.mem_flatMap.mp hw
    have hpeer := peer_of_mem_messageWrites hmem
    rw [hkey] at hpeer
    exact hplain text htext peer hpeer
  rw [hmap, hnone] at hentry
  cases hentry

theorem twoPeers_plain : ∀ text ∈ [rrc00Text, rrc10Text], ∀ peer,
    messagePeer twoPeersParse text = some peer → Plain peer := by
  intro text hmem peer hp
  simp only [List.mem_cons, List.not_mem_nil, or_false] at hmem
  rcases hmem with h | h
  · rw [h, messagePeer_rrc00] at hp
    cases hp
    exact ⟨by decide, by decide, by decide, by decide⟩
  · rw [h, messagePeer_rrc10] at hp
    cases hp
    exact ⟨by decide, by decide, by decide, by decide⟩

/-- **The state an ingest has reached survives a snapshot iff no peer of an
observation has a tab or a newline in its host or address.** Surviving is to be
saved and loaded back, with the same peers under the same ids and the same
observations. The condition is about the state before it is saved. -/
theorem snapshot_roundTrips_iff (hnet : net.RoundTrips) {messages : List Bytes} {world : World}
    (hrun : (ingest jsonParse net ord messages).run { growthStats := growth } = .ok () world)
    (hpeers : (namedPeers jsonParse messages).card < 2 ^ 32 - 1) (ordSave ordLoad : HashOrders)
    (peerOrd : IterOrder PeerId PeerInfo) (path : Bytes) (store₀ : Store) :
    SurvivesSnapshot net ordSave ordLoad peerOrd path store₀ ⟨world.registry, world.state⟩ ↔
      UsedPeersPlain ordSave ⟨world.registry, world.state⟩ := by
  obtain ⟨hinv, -⟩ := ingest_reached (by omega) (fun _ hmem _ hp => mem_namedPeers hmem hp) hrun
  constructor
  · exact plain_of_survives
  · intro hplain
    exact @survives_of_plain net ordSave ordLoad hnet _ _ ⟨world.registry, world.state⟩ hinv hpeers
      hplain peerOrd path store₀

/-- The peers of the two messages are plain, so their observations survive. -/
theorem snapshot_roundTrips_two_peers : ∃ world,
    (ingest twoPeersParse Inet.standard .ascending [rrc00Text, rrc10Text]).run
        { growthStats := .start {} 0 } = .ok () world ∧
      SurvivesSnapshot Inet.standard .ascending .ascending
        (.byKey UInt32.toNat fun _ _ => UInt32.toNat_inj.mp) (bytes "snapshot.txt") {}
        ⟨world.registry, world.state⟩ := by
  obtain ⟨world, hrun⟩ := (@ingest_survives_iff twoPeersParse Inet.standard .ascending
    [rrc00Text, rrc10Text] { growthStats := .start {} 0 }).mpr twoPeers_usable
  have hpeers : (namedPeers twoPeersParse [rrc00Text, rrc10Text]).card ≤ 2 := card_namedPeers_le _
  obtain ⟨hinv, hmap⟩ := ingest_reached (by omega) (fun _ hmem _ hp => mem_namedPeers hmem hp) hrun
  refine ⟨world, hrun, (snapshot_roundTrips_iff standard_roundTrips hrun (by omega) _ _ _ _ _).mpr ?_⟩
  exact usedPeersPlain_of_messages hinv hmap twoPeers_plain

/-! ## A tab in a host name -/

/-- A message in which the host has an escaped tab. -/
def tabHostText : Bytes :=
  bytes "\x7b\"type\":\"ris_message\",\"data\":\x7b\"type\":\"UPDATE\",\"host\":\"rrc\\t00\"," ++
  bytes "\"peer\":\"192.0.2.1\",\"peer_asn\":64500,\"timestamp\":1710000000," ++
  bytes "\"path\":[64500,15169],\"announcements\":[\x7b\"prefixes\":[\"8.8.8.0/24\"]\x7d]," ++
  bytes "\"withdrawals\":[]\x7d\x7d"

/-- The document of that text, with the tab itself. -/
def tabHostDocument : Json :=
  updateDocument "rrc\t00" "192.0.2.1" 64500 1710000000 15169 ["8.8.8.0/24"] []

/-- The host `rrc\t00` is stored with its tab, and the line of the peer then has
five fields. The load refuses it, so the snapshot is lost to the next run. -/
theorem tab_in_host_breaks_snapshot :
    ¬ ∀ (messages : List Bytes) (world : World),
      (ingest (parseListed [(tabHostText, tabHostDocument)]) Inet.standard .ascending messages).run
        { growthStats := .start {} 0 } = .ok () world →
      (namedPeers (parseListed [(tabHostText, tabHostDocument)]) messages).card < 2 ^ 32 - 1 →
      SurvivesSnapshot Inet.standard .ascending .ascending
        (.byKey UInt32.toNat fun _ _ => UInt32.toNat_inj.mp) (bytes "snapshot.txt") {}
        ⟨world.registry, world.state⟩ := by
  intro h
  have hparse := parseListed_cons_self tabHostText tabHostDocument []
  have husable := @usable_of_parsed (parseListed [(tabHostText, tabHostDocument)]) Inet.standard _ _
    hparse (by decide)
  obtain ⟨world, hrun⟩ := (@ingest_survives_iff (parseListed [(tabHostText, tabHostDocument)])
    Inet.standard .ascending [tabHostText] { growthStats := .start {} 0 }).mpr fun text hmem => by
      rw [List.mem_singleton.mp hmem]
      exact husable
  have hpeers : (namedPeers (parseListed [(tabHostText, tabHostDocument)]) [tabHostText]).card ≤ 1 :=
    card_namedPeers_le _
  obtain ⟨hinv, hmap⟩ := ingest_reached (by omega) (fun _ hmem _ hp => mem_namedPeers hmem hp) hrun
  have hwrites : [tabHostText].flatMap (messageWrites (parseListed [(tabHostText, tabHostDocument)])
      Inet.standard) = [⟨(.v4 ⟨0x08080800, 24⟩, ⟨bytes "rrc\t00", bytes "192.0.2.1", 64500⟩),
        some (15169, 1710000000)⟩] := by
    rw [List.flatMap_singleton, messageWrites, messageEvents, hparse]
    rfl
  -- the one observation of the run, and its peer
  have hentry : peerMap world.registry world.state
      (.v4 ⟨0x08080800, 24⟩, ⟨bytes "rrc\t00", bytes "192.0.2.1", 64500⟩) =
        some (15169, 1710000000) := by
    rw [hmap, hwrites, applyWrites_singleton, applyWrite_apply, if_pos rfl]
  obtain ⟨peerId, hpeer, hlive⟩ := (peerMap_eq_some hinv _ _ _).mp hentry
  have hplain := plain_of_survives (h [tabHostText] world hrun (by omega))
    ⟨.v4 ⟨0x08080800, 24⟩, ⟨peerId, 15169⟩, 1710000000⟩
    ((mem_storedObservations hinv.stored _ _).mpr hlive) _ (get_eq_ok.mpr hpeer)
  exact hplain.host_tab (by decide)

end Reached

end ASNPrefixMap.Snapshot
