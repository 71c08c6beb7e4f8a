import ASNPrefixMap.Peer.InsertAll
import ASNPrefixMap.Prefix.InetText
import ASNPrefixMap.Snapshot.Reading

/-!
# Restoring: the second half of a load

`load_snapshot` works in two halves. The first reads the lines into local
containers and finds everything that is wrong with a single line; the second
clears the registry and the state and inserts the records in the order of the
containers. This file is about the second. `Restorable` says of the containers
what the insertions check: no identity under two ids, no observation of an
unknown id, no prefix text that does not parse. If it holds, the second half
returns and what it leaves is written down (`restoreSnapshot_of_restorable`); if
not, it throws, and leaves the same objects whatever there was before
(`restoreSnapshot_of_not_restorable`).

The order in which C++ walks the map of peers is a parameter, `peerOrd`. The
containers of the code are maps and a vector; here they are the fields of
`Reading`, an association list and a list.
-/

namespace ASNPrefixMap.Snapshot

open Lib Prefix Peer Routing

variable (net : Inet) (ord : HashOrders)

/-- The records fit together: no identity under two ids, no observation of an
unknown id, and every prefix text parses. These are the three checks that come
after everything has been cleared. -/
structure Restorable (reading : Reading) : Prop where
  identities : ∀ i j peer, reading.peers.lookup i = some peer →
    reading.peers.lookup j = some peer → i = j
  known : ∀ o ∈ reading.observations, reading.peers.lookup o.peerId ≠ none
  accepted : ∀ o ∈ reading.observations, Returns (o.parse net)

/-- The state after one observation line whose prefix text parses. -/
def restoredState (state : RoutingState) (o : SnapshotObservation) : RoutingState :=
  match o.parse net with
  | .ok pfx => state.restoreObservation ord o.peerId pfx o.originAsn o.timestamp
  | .error _ => state

/-- The state after some observation lines. -/
def restoreAll (state : RoutingState) (observations : List SnapshotObservation) : RoutingState :=
  observations.foldl (restoredState net ord) state

variable {net ord}

theorem mem_sortObservations {observations : List SnapshotObservation} {o : SnapshotObservation} :
    o ∈ sortObservations observations ↔ o ∈ observations := by
  unfold sortObservations
  rw [List.mem_insertionSort]

/-! ## Peers -/

/-- What restoring one peer does to both objects: the registry becomes what
`insert_with_id` makes of it, whether that throws or not, and the state is not
touched. -/
theorem restorePeer_run (peer : PeerId × PeerInfo) (store : Store) :
    (restorePeer peer).run store =
      match (PeerRegistry.insertWithId peer.1 peer.2).run store.registry with
      | .ok _ registry => .ok () { store with registry := registry }
      | .error e registry => .error e { store with registry := registry } := by
  unfold restorePeer
  rw [EStateM.run_bind, EStateM.run_get]
  dsimp only
  cases (PeerRegistry.insertWithId peer.1 peer.2).run store.registry with
  | ok _ registry => rfl
  | error e registry => rfl

/-- The loop over the peers returns for a fresh list and throws for any other.
The induction is on the list: a peer is accepted if its id and its identity are
free, and takes both. -/
theorem restorePeers_run : ∀ (peers : List (PeerId × PeerInfo)) (store : Store),
    (FreshFor store.registry peers → (forM peers restorePeer : EStateM _ _ _).run store =
      .ok () { store with registry := insertAll store.registry peers }) ∧
    (¬ FreshFor store.registry peers →
      ∃ e store', (forM peers restorePeer : EStateM _ _ _).run store = .error e store') := by
  intro peers
  induction peers with
  | nil =>
    intro store
    refine ⟨fun _ => rfl, fun h => absurd ?_ h⟩
    exact ⟨List.nodup_nil, List.nodup_nil, fun _ hq => (by cases hq), fun _ hq => (by cases hq)⟩
  | cons peer peers ih =>
    intro store
    have hcons := @freshFor_cons store.registry peer peers (store.registry.counterPast peer.1)
    rw [List.forM_cons]
    by_cases hfree : store.registry.byId.lookup peer.1 = none ∧
        store.registry.byInfo.lookup peer.2 = none
    · -- both checks pass: the list is fresh iff its rest is, after this peer
      have hrun := restorePeer_run peer store
      rw [insertWithId_of_none hfree.1 hfree.2] at hrun
      obtain ⟨hok, herror⟩ := ih { store with
        registry := store.registry.bind peer.1 peer.2 (store.registry.counterPast peer.1) }
      rw [run_bind_ok hrun]
      exact ⟨fun h => hok (hcons.mp h).2, fun h => herror fun hrest => h (hcons.mpr ⟨hfree, hrest⟩)⟩
    · obtain ⟨e, he⟩ := insertWithId_of_some (Decidable.not_and_iff_or_not.mp hfree)
      have hrun := restorePeer_run peer store
      rw [he] at hrun
      refine ⟨fun h => absurd (hcons.mp h).1 hfree, fun _ => ⟨e, store, ?_⟩⟩
      rw [run_bind_error hrun]

/-! ## Observations -/

/-- One observation is restored if its id is registered and its text parses;
otherwise the call throws and changes nothing. -/
theorem restoreLine_run (o : SnapshotObservation) (store : Store) :
    (store.registry.contains o.peerId = true ∧ Returns (o.parse net) →
      (restoreLine net ord o).run store =
        .ok () { store with state := restoredState net ord store.state o }) ∧
    (¬ (store.registry.contains o.peerId = true ∧ Returns (o.parse net)) →
      ∃ e, (restoreLine net ord o).run store = .error e store) := by
  unfold restoreLine restoredState
  rw [EStateM.run_bind, EStateM.run_get]
  dsimp only
  cases hc : store.registry.contains o.peerId with
  | false =>
    refine ⟨fun h => absurd h.1 Bool.false_ne_true, fun _ => ⟨_, rfl⟩⟩
  | true =>
    rw [if_neg (by decide)]
    cases hp : o.parse net with
    | error e =>
      refine ⟨fun h => ?_, fun _ => ⟨e, rfl⟩⟩
      obtain ⟨pfx, hpfx⟩ := h.2
      cases hpfx
    | ok pfx => exact ⟨fun _ => rfl, fun h => absurd ⟨rfl, pfx, rfl⟩ h⟩

/-- The loop over the observations returns iff every id is registered and every
text parses. -/
theorem restoreLines_run : ∀ (observations : List SnapshotObservation) (store : Store),
    ((∀ o ∈ observations, store.registry.contains o.peerId = true ∧ Returns (o.parse net)) →
      (forM observations (restoreLine net ord) : EStateM _ _ _).run store =
        .ok () { store with state := restoreAll net ord store.state observations }) ∧
    (¬ (∀ o ∈ observations, store.registry.contains o.peerId = true ∧ Returns (o.parse net)) →
      ∃ e store',
        (forM observations (restoreLine net ord) : EStateM _ _ _).run store = .error e store') := by
  intro observations
  induction observations with
  | nil =>
    intro store
    exact ⟨fun _ => rfl, fun h => absurd (fun _ ho => (by cases ho)) h⟩
  | cons o observations ih =>
    intro store
    obtain ⟨hgood, hbad⟩ := @restoreLine_run net ord o store
    rw [List.forM_cons]
    by_cases ho : store.registry.contains o.peerId = true ∧ Returns (o.parse net)
    · obtain ⟨hok, herror⟩ := ih { store with state := restoredState net ord store.state o }
      rw [run_bind_ok (hgood ho)]
      refine ⟨fun h => hok fun o' ho' => h o' (List.mem_cons_of_mem _ ho'), fun h => herror ?_⟩
      intro hrest
      refine h fun o' ho' => ?_
      rcases List.mem_cons.mp ho' with rfl | ho'
      · exact ho
      · exact hrest o' ho'
    · obtain ⟨e, he⟩ := hbad ho
      refine ⟨fun h => absurd (h o List.mem_cons_self) ho, fun _ => ⟨e, store, ?_⟩⟩
      rw [run_bind_error he]

/-! ## The second half of a load -/

variable {peerOrd : IterOrder PeerId PeerInfo}

/-- The two objects are cleared first, so what they held does not matter. -/
theorem restoreSnapshot_run (reading : Reading) (store : Store) :
    (restoreSnapshot net ord peerOrd reading).run store =
      (restoreSnapshot net ord peerOrd reading).run {} := by
  unfold restoreSnapshot
  rfl

/-- The pairs that were read are fresh for the cleared registry iff no identity
occurs twice. -/
theorem freshFor_entries_iff (reading : Reading) :
    FreshFor {} (peerOrd.entries reading.peers) ↔ ∀ i j peer, reading.peers.lookup i = some peer →
      reading.peers.lookup j = some peer → i = j := by
  have hlisting := peerOrd.listing reading.peers
  constructor
  · intro h i j peer hi hj
    have hmi := (hlisting.mem_iff i peer).mpr hi
    have hmj := (hlisting.mem_iff j peer).mpr hj
    exact congrArg Prod.fst (List.inj_on_of_nodup_map h.infos hmi hmj rfl)
  · intro h
    refine freshFor_empty hlisting.nodup ?_
    refine List.Nodup.map_on ?_ hlisting.nodup_entries
    intro ⟨i, p⟩ hi ⟨j, q⟩ hj heq
    obtain rfl : p = q := heq
    rw [h i j p ((hlisting.mem_iff i p).mp hi) ((hlisting.mem_iff j p).mp hj)]

/-- After the first loop the ids in the registry are those that were read. -/
theorem contains_insertAll_iff {reading : Reading}
    (h : FreshFor {} (peerOrd.entries reading.peers)) (i : PeerId) :
    (insertAll {} (peerOrd.entries reading.peers)).contains i = true ↔
      reading.peers.lookup i ≠ none := by
  unfold PeerRegistry.contains
  rw [Option.isSome_iff_exists, Option.ne_none_iff_exists']
  refine exists_congr fun p => ?_
  rw [lookup_byId_insertAll i p h, (peerOrd.listing reading.peers).mem_iff]
  exact or_iff_left fun hl => (by cases hl)

/-- Restorable records are restored, whatever the order the peers come in. The
rebuild at the end is part of what is left. -/
theorem restoreSnapshot_of_restorable {reading : Reading} (h : Restorable net reading)
    (store : Store) :
    (restoreSnapshot net ord peerOrd reading).run store =
      .ok () ⟨insertAll {} (peerOrd.entries reading.peers),
        (restoreAll net ord {} (sortObservations reading.observations)).rebuildAggregated ord⟩ := by
  have hfresh := (@freshFor_entries_iff peerOrd reading).mpr h.identities
  have hpeers := (restorePeers_run (peerOrd.entries reading.peers) {}).1 hfresh
  have hlines := (@restoreLines_run net ord (sortObservations reading.observations)
    ⟨insertAll {} (peerOrd.entries reading.peers), {}⟩).1 fun o ho => by
      have hmem := mem_sortObservations.mp ho
      exact ⟨(contains_insertAll_iff hfresh _).mpr (h.known o hmem), h.accepted o hmem⟩
  have hclear : clearStore.run store = .ok () {} := rfl
  unfold restoreSnapshot
  rw [run_bind_ok hclear, run_bind_ok hpeers, run_bind_ok hlines]
  rfl

/-- Records that are not restorable make the second half throw, and it leaves
the same objects whatever there was before. -/
theorem restoreSnapshot_of_not_restorable {reading : Reading} (h : ¬ Restorable net reading) :
    ∃ e store', ∀ store,
      (restoreSnapshot net ord peerOrd reading).run store = .error e store' := by
  suffices hthrows : ∃ e store', (restoreSnapshot net ord peerOrd reading).run {} =
      .error e store' by
    obtain ⟨e, store', he⟩ := hthrows
    exact ⟨e, store', fun store => (restoreSnapshot_run reading store).trans he⟩
  have hclear : clearStore.run {} = .ok () {} := rfl
  unfold restoreSnapshot
  rw [run_bind_ok hclear]
  by_cases hfresh : FreshFor {} (peerOrd.entries reading.peers)
  · rw [run_bind_ok ((restorePeers_run (peerOrd.entries reading.peers) {}).1 hfresh)]
    obtain ⟨e, store', he⟩ := (@restoreLines_run net ord (sortObservations reading.observations)
      ⟨insertAll {} (peerOrd.entries reading.peers), {}⟩).2 fun hall => h
        { identities := (@freshFor_entries_iff peerOrd reading).mp hfresh
          known := fun o ho => (contains_insertAll_iff hfresh _).mp
            (hall o (mem_sortObservations.mpr ho)).1
          accepted := fun o ho => (hall o (mem_sortObservations.mpr ho)).2 }
    exact ⟨e, store', by rw [run_bind_error he]⟩
  · obtain ⟨e, store', he⟩ := (restorePeers_run (peerOrd.entries reading.peers) {}).2 hfresh
    exact ⟨e, store', by rw [run_bind_error he]⟩

/-! ## A whole load -/

/-- What is wrong with the header or a single line is found before anything is
cleared: the exception of the reading, and the objects as they were. -/
theorem loadSnapshot_of_error {text : Bytes} {e : Exception} (h : readSnapshot text = .error e)
    (path : Bytes) (store : Store) :
    (loadSnapshot net ord peerOrd path (some text)).run store = .error e store := by
  unfold loadSnapshot
  dsimp only
  rw [h]
  rfl

/-- With a header read, what is left is the second half. -/
theorem loadSnapshot_of_content {text : Bytes} {reading : Reading}
    (h : readSnapshot text = .ok reading) (hsaw : reading.sawAnyContent = true) (path : Bytes) :
    loadSnapshot net ord peerOrd path (some text) = (do
      restoreSnapshot net ord peerOrd reading
      return ⟨reading.peers.size, reading.observations.length⟩) := by
  have hheader := (readSnapshot_inv h).header hsaw
  unfold loadSnapshot
  dsimp only
  rw [h]
  dsimp only
  rw [if_neg (by rw [hsaw]; decide), if_neg (by rw [hheader]; decide)]

/-- A file of blank lines is a snapshot of nothing: both objects are emptied,
and the counts are zero. -/
theorem loadSnapshot_of_blank {text : Bytes} {reading : Reading}
    (h : readSnapshot text = .ok reading) (hblank : reading.sawAnyContent = false) (path : Bytes)
    (store : Store) :
    (loadSnapshot net ord peerOrd path (some text)).run store = .ok {} {} := by
  unfold loadSnapshot
  dsimp only
  rw [h]
  dsimp only
  rw [if_pos hblank]
  rfl

/-- Whatever can be read of a file without content is restorable. -/
theorem restorable_of_blank {text : Bytes} {reading : Reading}
    (h : readSnapshot text = .ok reading) (hblank : reading.sawAnyContent = false) :
    Restorable net reading := by
  obtain ⟨hpeers, hobs⟩ := (readSnapshot_inv h).empty hblank
  refine ⟨?_, ?_, ?_⟩
  · intro i j peer hi
    rw [hpeers] at hi
    cases hi
  · intro o ho
    rw [hobs] at ho
    cases ho
  · intro o ho
    rw [hobs] at ho
    cases ho

/-- What a load that returns has read, and what it leaves: the empty store for a
blank file, else the records, which fit together. It is the inversion lemma that
the round trip and the restart start from. -/
theorem loadSnapshot_eq_ok {path : Bytes} {input : Option Bytes} {store store' : Store}
    {stats : SnapshotStats}
    (h : (loadSnapshot net ord peerOrd path input).run store = .ok stats store') :
    ∃ text reading, input = some text ∧ readSnapshot text = .ok reading ∧ Restorable net reading ∧
      store' = if reading.sawAnyContent = false then {} else
        ⟨insertAll {} (peerOrd.entries reading.peers),
          (restoreAll net ord {} (sortObservations reading.observations)).rebuildAggregated ord⟩ := by
  cases input with
  | none => cases h
  | some text =>
    cases hread : readSnapshot text with
    | error e =>
      rw [loadSnapshot_of_error hread] at h
      cases h
    | ok reading =>
      refine ⟨text, reading, rfl, hread, ?_⟩
      cases hsaw : reading.sawAnyContent with
      | false =>
        rw [loadSnapshot_of_blank hread hsaw] at h
        cases h
        exact ⟨restorable_of_blank hread hsaw, rfl⟩
      | true =>
        rw [loadSnapshot_of_content hread hsaw] at h
        by_cases hrest : Restorable net reading
        · rw [run_bind_ok (restoreSnapshot_of_restorable hrest store)] at h
          cases h
          exact ⟨hrest, rfl⟩
        · obtain ⟨e, store₁, hthrows⟩ := @restoreSnapshot_of_not_restorable net ord peerOrd reading hrest
          rw [run_bind_error (hthrows store)] at h
          cases h

end ASNPrefixMap.Snapshot
