import ASNPrefixMap.Lib.Naming
import ASNPrefixMap.Program.Deployment
import ASNPrefixMap.Program.Recording
import ASNPrefixMap.Snapshot.Names

/-!
# Ids across restarts

A snapshot is read by others too, who know a peer by its id. A run registers
what its snapshot names, takes no id away, and names in its own snapshot what is
registered, so one snapshot is consistent with the next (`names_consistent`). A
peer that has nothing announced is left out of a snapshot, and after that it may
get another id and its id another peer. But as long as a peer is in the
snapshots it has one id, and as long as an id is in use it is that of one peer
(`ids_stay`).
-/

namespace ASNPrefixMap.Program

open Lib Prefix Peer Routing Stats Ingest Snapshot Source
open ASNPrefixMap.Parser

variable {cfg : Config} {jsonParse : JsonParse} {net : Inet}

/-! ## One snapshot -/

/-- The snapshot that has been left names what the store under it has
registered. -/
theorem Holds.names (hnet : net.RoundTrips) {texts : List Bytes} {store : Store}
    (h : Holds jsonParse net texts store.registry store.state)
    (hplain : ∀ text ∈ texts, ∀ peer, messagePeer jsonParse text = some peer → Plain peer)
    {ord : HashOrders} {path : Bytes} {saved : Bytes × SnapshotStats}
    (hsave : saveSnapshot net ord path true store = .ok saved) {i : PeerId} {peer : PeerInfo}
    (hnames : Names saved.1 i peer) : store.registry.byId.lookup i = some peer := by
  obtain ⟨S, limit, -, hinv, hmap⟩ := h
  exact ((names_of_save hnet hinv (usedPeersPlain_of_messages hinv hmap hplain) hsave).mp hnames).2

/-- In a registry that has grown by messages, ids and peers belong to each
other. -/
theorem Holds.inverse {texts : List Bytes} {registry : PeerRegistry} {state : RoutingState}
    (h : Holds jsonParse net texts registry state) : registry.Inverse := by
  obtain ⟨S, limit, -, hinv, -⟩ := h
  exact hinv.numbered.inverse

/-- Pairs of one registry are consistent. -/
theorem consistent_of_registered {registry : PeerRegistry} (h : registry.Inverse)
    {naming naming' : PeerId → PeerInfo → Prop}
    (hnaming : ∀ i p, naming i p → registry.byId.lookup i = some p)
    (hnaming' : ∀ i p, naming' i p → registry.byId.lookup i = some p) : Consistent naming naming' := by
  intro i p j q hp hq
  have hi := hnaming i p hp
  have hj := hnaming' j q hq
  constructor
  · intro heq
    rw [heq, hj] at hi
    exact (Option.some.inj hi).symm
  · intro heq
    rw [← heq] at hj
    exact h.peer_injective hi hj

/-- What a deployment has left is consistent with itself. -/
theorem Deployment.names_consistent (hnet : net.RoundTrips) (htells : net.TellsApart)
    {texts : List Bytes} {files : Files} (h : Deployment jsonParse net texts cfg files)
    (hlen : texts.length < 2 ^ 32 - 1)
    (hplain : ∀ text ∈ texts, ∀ peer, messagePeer jsonParse text = some peer → Plain peer)
    {snapshot : Bytes} (hsnapshot : files.content cfg.snapshotOutput = some snapshot) :
    Consistent (Names snapshot) (Names snapshot) := by
  obtain ⟨⟨stored, ord, saved, hholds, hsave, hcontent⟩, -⟩ := h.left hnet htells hlen hplain
  rw [hsnapshot] at hcontent
  cases hcontent
  have hnames : ∀ i p, Names saved.1 i p → stored.registry.byId.lookup i = some p :=
    fun i p => Holds.names hnet hholds hplain hsave
  exact consistent_of_registered (Holds.inverse hholds) hnames hnames

/-! ## From one snapshot to the next -/

/-- A run that goes on from a snapshot has loaded it. -/
theorem loaded_of_goesOn {s : Surroundings} {files : Files} {snapshot : Bytes} {store : Store}
    (h : GoesOn cfg files (some snapshot)) (hload : loadStore s cfg files = .ok store) :
    ∃ stats, (loadSnapshot s.net s.orders.load s.orders.peers cfg.snapshotInput (some snapshot)).run {} =
      .ok stats store := by
  cases hloaded : (loadSnapshot s.net s.orders.load s.orders.peers cfg.snapshotInput
      (some snapshot)).run {} with
  | error e store' =>
    obtain ⟨hne, -, hopened⟩ := h
    unfold loadStore at hload
    split at hload
    next =>
      rw [hopened, hloaded] at hload
      cases hload
    next hnot => exact absurd ⟨hne, exist_of_opened hopened⟩ hnot
  | ok stats store' =>
    rw [loadStore_of_goesOn h hloaded] at hload
    cases hload
    exact ⟨stats, rfl⟩

/-- **No id changes from one snapshot to the next.** -/
theorem Follows.names_consistent (hnet : net.RoundTrips) (htells : net.TellsApart)
    {before texts : List Bytes} {cfg₀ : Config} {files₀ files' : Files}
    (h : Deployment jsonParse net before cfg₀ files₀) {snapshot snapshot' : Bytes}
    (hsnapshot : files₀.content cfg₀.snapshotOutput = some snapshot)
    (hnext : Follows jsonParse net snapshot texts cfg files')
    (hsnapshot' : files'.content cfg.snapshotOutput = some snapshot')
    (hlen : (before ++ texts).length < 2 ^ 32 - 1)
    (hplain : ∀ text ∈ before ++ texts, ∀ peer, messagePeer jsonParse text = some peer → Plain peer) :
    Consistent (Names snapshot') (Names snapshot) := by
  obtain ⟨⟨s, fuel, files, store, state, rfl, rfl, hrun, hingested, hgoes⟩, hapart⟩ := hnext
  rw [List.length_append] at hlen
  have hplain₀ := fun text hmem => hplain text (List.mem_append_left texts hmem)
  obtain ⟨⟨stored, ord, saved, hholds, hsave, hcontent⟩, -⟩ := h.left hnet htells (by omega) hplain₀
  rw [hsnapshot] at hcontent
  cases hcontent
  obtain ⟨hwritten, hload⟩ := hingested.outputsWritten hrun
  have hstart : StartsFrom s before texts store :=
    startsFrom_of_goesOn hnet hholds hplain₀ hsave hlen hgoes hload
  have hholds' := hingested.reached.holds hstart
  obtain ⟨saved', hsave', hcontent'⟩ := hwritten.snapshot
  rw [hcontent' hapart.snapshot_prefix hapart.snapshot_asn] at hsnapshot'
  cases hsnapshot'
  refine consistent_of_registered (Holds.inverse hholds')
    (fun i p => @Holds.names _ _ hnet _ (storeOf state.sampler) hholds' hplain _ _ _ hsave' i p)
    fun i p hnames => ?_
  -- what the snapshot names has been loaded, and has stayed
  obtain ⟨limit, -, hinv⟩ := hstart.room
  obtain ⟨stats, hloaded⟩ := loaded_of_goesOn hgoes hload
  rw [hingested.reached.registry_eq]
  exact registryAfter_keeps hinv.numbered (fun text hmem peer => mem_namedPeers hmem)
    ((names_of_load hloaded).mp hnames)

/-! ## All snapshots -/

/-- The last snapshots of a deployment, the newest first: that of some run, and
those of all runs after it. -/
inductive Snapshots (jsonParse : JsonParse) (net : Inet) :
    List Bytes → Config → Files → Bytes → List Bytes → Prop
  | oldest {texts : List Bytes} {cfg : Config} {files : Files} {snapshot : Bytes} :
    Deployment jsonParse net texts cfg files →
    files.content cfg.snapshotOutput = some snapshot →
    Snapshots jsonParse net texts cfg files snapshot []
  | next {before texts : List Bytes} {cfg₀ cfg : Config} {files₀ files : Files}
    {snapshot snapshot' : Bytes} {older : List Bytes} :
    Snapshots jsonParse net before cfg₀ files₀ snapshot older →
    Follows jsonParse net snapshot texts cfg files →
    files.content cfg.snapshotOutput = some snapshot' →
    Snapshots jsonParse net (before ++ texts) cfg files snapshot' (snapshot :: older)

theorem Snapshots.deployment {texts : List Bytes} {files : Files} {snapshot : Bytes}
    {older : List Bytes} (h : Snapshots jsonParse net texts cfg files snapshot older) :
    Deployment jsonParse net texts cfg files ∧ files.content cfg.snapshotOutput = some snapshot := by
  induction h with
  | oldest hdeployment hsnapshot => exact ⟨hdeployment, hsnapshot⟩
  | next _ hfollows hsnapshot' ih => exact ⟨ih.1.follow ih.2 hfollows, hsnapshot'⟩

/-- Each snapshot is consistent with the one before, by induction on the
runs. -/
theorem Snapshots.inStep (hnet : net.RoundTrips) (htells : net.TellsApart) {texts : List Bytes}
    {files : Files} {snapshot : Bytes} {older : List Bytes}
    (h : Snapshots jsonParse net texts cfg files snapshot older) (hlen : texts.length < 2 ^ 32 - 1)
    (hplain : ∀ text ∈ texts, ∀ peer, messagePeer jsonParse text = some peer → Plain peer) :
    InStep Names (snapshot :: older) := by
  induction h with
  | oldest hdeployment hsnapshot =>
    refine ⟨fun text hmem => ?_, List.IsChain.singleton _⟩
    rw [List.mem_singleton.mp hmem]
    exact hdeployment.names_consistent hnet htells hlen hplain hsnapshot
  | @next before texts cfg₀ cfg files₀ files snapshot snapshot' older hbefore hfollows hsnapshot' ih =>
    obtain ⟨hdeployment, hsnapshot⟩ := hbefore.deployment
    have hshorter : before.length < 2 ^ 32 - 1 := by
      rw [List.length_append] at hlen
      omega
    obtain ⟨hone, hchain⟩ := ih hshorter fun text hmem => hplain text (List.mem_append_left _ hmem)
    refine ⟨fun text hmem => ?_, List.isChain_cons_cons.mpr ⟨?_, hchain⟩⟩
    · rcases List.mem_cons.mp hmem with rfl | hmem
      · exact (hdeployment.follow hsnapshot hfollows).names_consistent hnet htells hlen hplain hsnapshot'
      · exact hone text hmem
    · exact hfollows.names_consistent hnet htells hdeployment hsnapshot hsnapshot' hlen hplain

/-- **Ids stay.** A peer that is in all of some successive snapshots has one id
in them, and an id that is in all of them stands for one peer. Out of one
snapshot only, either may come back as something else. -/
theorem ids_stay (hnet : net.RoundTrips) (htells : net.TellsApart) {texts : List Bytes}
    {files : Files} {snapshot : Bytes} {older : List Bytes}
    (h : Snapshots jsonParse net texts cfg files snapshot older) (hlen : texts.length < 2 ^ 32 - 1)
    (hplain : ∀ text ∈ texts, ∀ peer, messagePeer jsonParse text = some peer → Plain peer) :
    (∀ peer, (∀ text ∈ snapshot :: older, ∃ i, Names text i peer) →
      ∃ i, ∀ text ∈ snapshot :: older, ∀ j, Names text j peer ↔ j = i) ∧
    ∀ i, (∀ text ∈ snapshot :: older, ∃ peer, Names text i peer) →
      ∃ peer, ∀ text ∈ snapshot :: older, ∀ other, Names text i other ↔ other = peer := by
  have hstep := h.inStep hnet htells hlen hplain
  exact ⟨fun _ hnamed => hstep.one_name hnamed, fun _ hnamed => hstep.swap.one_name hnamed⟩

theorem ids_stay_two_runs : ∃ snapshot snapshot',
    (∀ peer, (∀ text ∈ [snapshot', snapshot], ∃ i, Names text i peer) →
      ∃ i, ∀ text ∈ [snapshot', snapshot], ∀ j, Names text j peer ↔ j = i) ∧
    ∀ i, (∀ text ∈ [snapshot', snapshot], ∃ peer, Names text i peer) →
      ∃ peer, ∀ text ∈ [snapshot', snapshot], ∀ other, Names text i other ↔ other = peer := by
  obtain ⟨files, snapshot, files', hdeployment, hsnapshot, hfollows⟩ := two_quiet_runs
  obtain ⟨⟨_, _, saved, _, _, hsnapshot'⟩, -⟩ := (hdeployment.follow hsnapshot hfollows).left
    standard_roundTrips standard_prints.tellsApart (by decide) twoPeers_plain
  exact ⟨snapshot, saved.1, ids_stay standard_roundTrips standard_prints.tellsApart
    (.next (.oldest hdeployment hsnapshot) hfollows hsnapshot') (by decide) twoPeers_plain⟩

end ASNPrefixMap.Program
