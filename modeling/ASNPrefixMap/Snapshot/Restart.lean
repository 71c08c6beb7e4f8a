import ASNPrefixMap.Snapshot.RoundTrip

/-!
# Restarting

A run of `main` loads the snapshot if there is one, ingests, and saves. Stopping
after `A` and going on with `B` from the snapshot ends like one run over `A ++
B` (`restart_invisible`): with the same map from peer and prefix to origin and
timestamp and the same aggregated table, or with the same exception. The ids do
not agree, since a snapshot drops peers without observations and the counter
starts again behind the ids that are left; what agrees is `peerMap`, which the
second run starts from as the first one left it (`restart_spec`).

`MainRun` is `main` with its files reduced to one snapshot and its loop to a
list of messages. What it leaves out (the other outputs, samples, the source,
stop flags and the message limit) is in `Program`, whose runs of several starts
rest on the lemmas of this module.
-/

namespace ASNPrefixMap.Snapshot

open Lib Prefix Peer Routing Stats Ingest
open ASNPrefixMap.Parser

/-- What a run of `main` brings along: the orders its loops meet, its settings,
its start time. -/
structure MainRun where
  ord : HashOrders
  peerOrd : IterOrder PeerId PeerInfo
  plateauSettings : PlateauSettings
  now : Rat

variable (jsonParse : JsonParse) (net : Inet) (path : Bytes)

/-- The snapshot is loaded if the file exists. -/
def MainRun.load (run : MainRun) (input : Option Bytes) : Except Exception Store :=
  match input with
  | none => .ok {}
  | some text =>
    match (loadSnapshot net run.ord run.peerOrd path (some text)).run {} with
    | .ok _ store => .ok store
    | .error e _ => .error e

/-- The ingest loop, with fresh counters and the ever-seen sets seeded from the
state. -/
def MainRun.ingest (run : MainRun) (messages : List Bytes) (store : Store) :
    Except Exception Store :=
  let growthStats :=
    (GrowthStatsTracker.start run.plateauSettings run.now).seedFromState run.ord store.state
  match (Ingest.ingest jsonParse net run.ord messages).run
      { registry := store.registry, state := store.state, growthStats := growthStats } with
  | .ok _ world => .ok ⟨world.registry, world.state⟩
  | .error e _ => .error e

/-- `main`, with the registry and the state at its end and the snapshot it has
saved. -/
def MainRun.main (run : MainRun) (input : Option Bytes) (messages : List Bytes) :
    Except Exception (Store × Bytes) := do
  let store ← run.load net path input
  let store ← run.ingest jsonParse net messages store
  let saved ← saveSnapshot net run.ord path true store
  return (store, saved.1)

/-- What can be seen of a store: the map by peer identity and the aggregated
table. -/
def view (ord : HashOrders) (store : Store) :
    Set (PeerKey × UInt32 × UInt64) × (BinaryPrefix → Option UInt32) :=
  (peerView ord store.registry store.state, store.state.selected)

/-- What the first text that `json::parse` does not accept makes of a run. -/
def firstError (messages : List Bytes) : Option Exception :=
  messages.findSome? fun text =>
    match messageEvents jsonParse text with
    | .ok _ => none
    | .error e => some e

variable {jsonParse net path}

/-! ## Where a run ends -/

/-- The first error is that of the first message that has one. -/
theorem firstError_cons (text : Bytes) (messages : List Bytes) :
    firstError jsonParse (text :: messages) =
      match messageEvents jsonParse text with
      | .ok _ => firstError jsonParse messages
      | .error e => some e := by
  unfold firstError
  rw [List.findSome?_cons]
  cases messageEvents jsonParse text with
  | ok events => rfl
  | error e => rfl

theorem firstError_append (A B : List Bytes) :
    firstError jsonParse (A ++ B) = (firstError jsonParse A).or (firstError jsonParse B) :=
  List.findSome?_append

/-- Without an error no text makes `json::parse` throw past the parser. -/
theorem firstError_eq_none {messages : List Bytes} :
    firstError jsonParse messages = none ↔ ∀ text ∈ messages, ¬ Overflows jsonParse text := by
  unfold firstError
  rw [List.findSome?_eq_none_iff]
  refine forall₂_congr fun text _ => ?_
  constructor
  · intro h hover
    obtain ⟨e, he⟩ := messageEvents_of_overflows hover
    rw [he] at h
    cases h
  · intro hover
    obtain ⟨events, hev⟩ := messageEvents_of_not_overflows hover
    rw [hev]

/-- The first such text ends the ingest with its exception, whatever came
before. -/
theorem ingest_of_firstError {S : Finset PeerInfo} {limit : Nat} {e : Exception} :
    ∀ (messages : List Bytes) (world : World), StoreInv S limit world.registry world.state →
    (∀ text ∈ messages, ∀ peer, messagePeer jsonParse text = some peer → peer ∈ S) →
    (∀ text ∈ messages, PrefixesAccepted jsonParse net text) →
    firstError jsonParse messages = some e → ∀ {ord : HashOrders},
    ∃ world', (Ingest.ingest jsonParse net ord messages).run world = .error e world' := by
  intro messages
  induction messages with
  | nil =>
    intro _ _ _ _ h
    cases h
  | cons text messages ih =>
    intro world hinv hS hacc h ord
    rw [firstError_cons] at h
    rw [ingest_cons]
    cases hev : messageEvents jsonParse text with
    | error e' =>
      rw [hev] at h
      cases h
      exact ⟨_, by rw [run_bind_error (ingestMessage_error hev world)]⟩
    | ok events =>
      rw [hev] at h
      obtain ⟨world₁, hrun, hinv₁, -⟩ := @ingestMessage_spec jsonParse net ord S limit world text hinv
        (hS text List.mem_cons_self) (hacc text List.mem_cons_self) events hev
      rw [run_bind_ok hrun]
      exact ih world₁ hinv₁ (fun t ht => hS t (List.mem_cons_of_mem _ ht))
        (fun t ht => hacc t (List.mem_cons_of_mem _ ht)) h

/-- The same for the ingest of a run, from the store it has loaded. -/
theorem MainRun.ingest_of_firstError (run : MainRun) {S : Finset PeerInfo} {limit : Nat}
    {store : Store} {messages : List Bytes} (h : StoreInv S limit store.registry store.state)
    (hS : ∀ text ∈ messages, ∀ peer, messagePeer jsonParse text = some peer → peer ∈ S)
    (hacc : ∀ text ∈ messages, PrefixesAccepted jsonParse net text) {e : Exception}
    (hfirst : firstError jsonParse messages = some e) :
    run.ingest jsonParse net messages store = .error e := by
  unfold MainRun.ingest
  obtain ⟨world', hrun⟩ := @Snapshot.ingest_of_firstError jsonParse net S limit e messages
    { registry := store.registry, state := store.state, growthStats := _ } h hS hacc hfirst run.ord
  dsimp only
  rw [hrun]

/-- Without an error an ingest performs the writes of its messages. -/
theorem MainRun.ingest_of_none (run : MainRun) {S : Finset PeerInfo} {limit : Nat}
    {store : Store} {messages : List Bytes} (h : StoreInv S limit store.registry store.state)
    (hS : ∀ text ∈ messages, ∀ peer, messagePeer jsonParse text = some peer → peer ∈ S)
    (hacc : ∀ text ∈ messages, PrefixesAccepted jsonParse net text)
    (hfirst : firstError jsonParse messages = none) :
    ∃ store', run.ingest jsonParse net messages store = .ok store' ∧
      StoreInv S limit store'.registry store'.state ∧
      peerMap store'.registry store'.state =
        applyWrites (peerMap store.registry store.state)
          (messages.flatMap (messageWrites jsonParse net)) := by
  unfold MainRun.ingest
  obtain ⟨world', hrun, hinv, hmap⟩ := @ingest_spec jsonParse net run.ord S limit messages
    { registry := store.registry, state := store.state, growthStats := _ } h hS hacc
    (firstError_eq_none.mp hfirst)
  refine ⟨⟨world'.registry, world'.state⟩, ?_, hinv, hmap⟩
  dsimp only
  rw [hrun]

/-! ## The restart -/

/-- Stores with the same entries and the same peers under the ids in use have
the same map. -/
theorem peerMap_eq_of_live_eq {S T : Finset PeerInfo} {limit limit' : Nat} {store store' : Store}
    (h : StoreInv S limit store.registry store.state)
    (h' : StoreInv T limit' store'.registry store'.state)
    (hlive : live store'.state = live store.state)
    (hpeers : ∀ i p, store'.registry.byId.lookup i = some p ↔
      (∃ pfx, live store.state (pfx, i) ≠ none) ∧ store.registry.byId.lookup i = some p) :
    peerMap store'.registry store'.state = peerMap store.registry store.state := by
  funext ⟨pfx, p⟩
  apply Option.ext
  intro value
  rw [peerMap_eq_some h', peerMap_eq_some h, hlive]
  refine exists_congr fun i => ?_
  rw [hpeers]
  constructor
  · intro ⟨⟨_, hp⟩, hl⟩
    exact ⟨hp, hl⟩
  · intro ⟨hp, hl⟩
    exact ⟨⟨⟨pfx, by rw [hl]; exact Option.some_ne_none _⟩, hp⟩, hl⟩

/-- **A restart keeps the map**, and leaves room for any peers `T` to come. -/
theorem restart_spec (hnet : net.RoundTrips) {S T : Finset PeerInfo} {limit : Nat} {store : Store}
    (h : StoreInv S limit store.registry store.state) (hlimit : limit + T.card < 2 ^ 32 - 1)
    {ord : HashOrders} (hplain : UsedPeersPlain ord store) (path : Bytes) (run : MainRun) :
    ∃ saved store', saveSnapshot net ord path true store = .ok saved ∧
      run.load net path (some saved.1) = .ok store' ∧
      StoreInv T (limit + T.card) store'.registry store'.state ∧
      peerMap store'.registry store'.state = peerMap store.registry store.state := by
  obtain ⟨peers, observations, stats, hsave, hw⟩ := @saveSnapshot_spec net ord hnet S limit store h path
  have hpeers : ∀ peer ∈ peers, Plain peer.2 := fun peer => hw.plain_of_used h hplain
  obtain ⟨loaded, store', hload, hinv, hlive, hlookup⟩ := @loadSnapshot_written net ord run.ord S T
    limit store h peers observations hw hpeers hlimit run.peerOrd path {}
  refine ⟨(snapshotText peers observations, stats), store', hsave, ?_, hinv, ?_⟩
  · unfold MainRun.load
    dsimp only
    rw [hload]
  · exact peerMap_eq_of_live_eq h hinv hlive fun i p => (hlookup i p).trans (hw.peers_iff i p)

/-- A run of `main` ends with the first error. -/
theorem MainRun.main_of_firstError (run : MainRun) {input : Option Bytes} {loaded : Store}
    (hload : run.load net path input = .ok loaded) {S : Finset PeerInfo} {limit : Nat}
    (h : StoreInv S limit loaded.registry loaded.state) {messages : List Bytes}
    (hS : ∀ text ∈ messages, ∀ peer, messagePeer jsonParse text = some peer → peer ∈ S)
    (hacc : ∀ text ∈ messages, PrefixesAccepted jsonParse net text) {e : Exception}
    (hfirst : firstError jsonParse messages = some e) :
    run.main jsonParse net path input messages = .error e := by
  unfold MainRun.main
  rw [hload, ok_bind, run.ingest_of_firstError h hS hacc hfirst, error_bind]

/-- Without an error it saves the store it has loaded after the writes of its
messages. -/
theorem MainRun.main_of_none (hnet : net.RoundTrips) (run : MainRun) {input : Option Bytes}
    {loaded : Store} (hload : run.load net path input = .ok loaded) {S : Finset PeerInfo}
    {limit : Nat} (h : StoreInv S limit loaded.registry loaded.state) {messages : List Bytes}
    (hS : ∀ text ∈ messages, ∀ peer, messagePeer jsonParse text = some peer → peer ∈ S)
    (hacc : ∀ text ∈ messages, PrefixesAccepted jsonParse net text)
    (hfirst : firstError jsonParse messages = none) :
    ∃ store saved, run.main jsonParse net path input messages = .ok (store, saved.1) ∧
      saveSnapshot net run.ord path true store = .ok saved ∧
      StoreInv S limit store.registry store.state ∧
      peerMap store.registry store.state =
        applyWrites (peerMap loaded.registry loaded.state)
          (messages.flatMap (messageWrites jsonParse net)) := by
  obtain ⟨store, hrun, hinv, hmap⟩ := run.ingest_of_none h hS hacc hfirst
  obtain ⟨peers, observations, stats, hsave, -⟩ :=
    @saveSnapshot_spec net run.ord hnet S limit store hinv path
  refine ⟨store, (snapshotText peers observations, stats), ?_, hsave, hinv, hmap⟩
  unfold MainRun.main
  rw [hload, ok_bind, hrun, ok_bind, hsave, ok_bind, pure_eq_ok]

/-- **A restart is invisible.** A run over `A` and a second run over `B` from
the snapshot the first one has saved end like one run over `A ++ B`: with the
same map and the same aggregated table, or with the same exception; and the one
run returns unless `json::parse` throws past the parser. Peers without
observations are not saved, so the second run may number its peers otherwise. -/
theorem restart_invisible (hnet : net.RoundTrips) {A B : List Bytes}
    (haccepted : ∀ text ∈ A ++ B, PrefixesAccepted jsonParse net text)
    (hplain : ∀ text ∈ A ++ B, ∀ peer, messagePeer jsonParse text = some peer → Plain peer)
    (hpeers : (namedPeers jsonParse (A ++ B)).card < 2 ^ 31) (path : Bytes)
    (whole first second : MainRun) (ord : HashOrders) :
    ((do let stopped ← first.main jsonParse net path none A
         let resumed ← second.main jsonParse net path (some stopped.2) B
         return view ord resumed.1) =
      (do let ended ← whole.main jsonParse net path none (A ++ B)
          return view ord ended.1)) ∧
    (Returns (whole.main jsonParse net path none (A ++ B)) ↔
      ∀ text ∈ A ++ B, ¬ Overflows jsonParse text) := by
  have hS : ∀ text ∈ A ++ B, ∀ peer, messagePeer jsonParse text = some peer →
      peer ∈ namedPeers jsonParse (A ++ B) := fun text hmem peer hp => mem_namedPeers hmem hp
  have hSA := fun text hmem => hS text (List.mem_append_left B hmem)
  have hSB := fun text hmem => hS text (List.mem_append_right A hmem)
  have haccA := fun text hmem => haccepted text (List.mem_append_left B hmem)
  have haccB := fun text hmem => haccepted text (List.mem_append_right A hmem)
  have hempty : StoreInv (namedPeers jsonParse (A ++ B)) (namedPeers jsonParse (A ++ B)).card
    (Store.registry {}) (Store.state {}) := storeInv_empty (by omega)
  have hnew : ∀ run : MainRun, run.load net path none = .ok {} := fun _ => rfl
  have hfirst := @firstError_append jsonParse A B
  rw [← firstError_eq_none]
  cases hA : firstError jsonParse A with
  | some e =>
    -- the first run ends early, and so does the whole one
    rw [hA, Option.some_or] at hfirst
    rw [first.main_of_firstError (hnew first) hempty hSA haccA hA,
      whole.main_of_firstError (hnew whole) hempty hS haccepted hfirst, hfirst]
    exact ⟨rfl, fun ⟨_, hok⟩ => (by cases hok), fun hnone => (by cases hnone)⟩
  | none =>
    rw [hA, Option.none_or] at hfirst
    obtain ⟨storeA, saved, hmainA, hsave, hinvA, hmapA⟩ :=
      first.main_of_none hnet (hnew first) hempty hSA haccA hA
    have husedA : UsedPeersPlain first.ord storeA :=
      usedPeersPlain_of_messages hinvA hmapA fun text hmem => hplain text (List.mem_append_left B hmem)
    obtain ⟨saved', loaded, hsave', hload, hinvL, hmapL⟩ := @restart_spec net hnet _
      (namedPeers jsonParse (A ++ B)) _ storeA hinvA (by omega) first.ord husedA path second
    rw [hsave] at hsave'
    cases hsave'
    rw [hmainA, ok_bind]
    cases hB : firstError jsonParse B with
    | some e =>
      -- the second run meets the error, after a restart that went well
      rw [hB] at hfirst
      rw [second.main_of_firstError hload hinvL hSB haccB hB,
        whole.main_of_firstError (hnew whole) hempty hS haccepted hfirst, hfirst]
      exact ⟨rfl, fun ⟨_, hok⟩ => (by cases hok), fun hnone => (by cases hnone)⟩
    | none =>
      rw [hB] at hfirst
      obtain ⟨storeB, savedB, hmainB, -, hinvB, hmapB⟩ :=
        second.main_of_none hnet hload hinvL hSB haccB hB
      obtain ⟨store, savedAB, hmain, -, hinv, hmap⟩ :=
        whole.main_of_none hnet (hnew whole) hempty hS haccepted hfirst
      -- both have performed the writes of `A` and then those of `B`
      have hsame : peerMap storeB.registry storeB.state = peerMap store.registry store.state := by
        rw [hmapB, hmapL, hmapA, hmap, List.flatMap_append, applyWrites_append]
      obtain ⟨hview, hselected⟩ := view_eq_of_peerMap_eq hinvB hinv hsame ord ord
      rw [hmainB, hmain, ok_bind, ok_bind]
      unfold view
      rw [hview, hselected]
      exact ⟨rfl, fun _ => hfirst, fun _ => ⟨_, rfl⟩⟩

/-- A run with the default settings. -/
def sampleRun : MainRun where
  ord := .ascending
  peerOrd := .byKey UInt32.toNat fun _ _ => UInt32.toNat_inj.mp
  plateauSettings := {}
  now := 0

/-- One message before the restart and one of another peer, on the same prefix,
after it. -/
theorem restart_invisible_two_peers : ∃ stopped resumed ended,
    MainRun.main twoPeersParse Inet.standard (bytes "snapshot.txt") sampleRun none [rrc00Text] =
        .ok stopped ∧
      MainRun.main twoPeersParse Inet.standard (bytes "snapshot.txt") sampleRun (some stopped.2)
        [rrc10Text] = .ok resumed ∧
      MainRun.main twoPeersParse Inet.standard (bytes "snapshot.txt") sampleRun none
        [rrc00Text, rrc10Text] = .ok ended ∧
      view .ascending resumed.1 = view .ascending ended.1 := by
  have hpeers : (namedPeers twoPeersParse ([rrc00Text] ++ [rrc10Text])).card ≤ 2 :=
    card_namedPeers_le _
  obtain ⟨hsame, hreturns⟩ := @restart_invisible twoPeersParse Inet.standard standard_roundTrips
    [rrc00Text] [rrc10Text] (fun text hmem => (twoPeers_usable text hmem).2) twoPeers_plain (by omega)
    (bytes "snapshot.txt") sampleRun sampleRun sampleRun .ascending
  obtain ⟨ended, hended⟩ := hreturns.mpr fun text hmem => (twoPeers_usable text hmem).1
  rw [hended, ok_bind] at hsame
  obtain ⟨stopped, hstopped, hrest⟩ := bind_eq_ok.mp hsame
  obtain ⟨resumed, hresumed, hview⟩ := bind_eq_ok.mp hrest
  exact ⟨stopped, resumed, ended, hstopped, hresumed, hended, Except.ok.inj hview⟩

end ASNPrefixMap.Snapshot
