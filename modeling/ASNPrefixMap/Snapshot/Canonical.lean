import ASNPrefixMap.Lib.Sorting
import ASNPrefixMap.Routing.AnyHistory
import ASNPrefixMap.Snapshot.RoundTrip

/-!
# Snapshots are canonical

What `save_snapshot` writes depends on the set of stored observations and on the
peers under their ids, and on nothing else: the ids are sorted, and the
comparison of the observations is a strict order on all five fields
(`before_strict`), so sorting forgets the order in which they were collected
(`saveSnapshot_congr`). Loading a snapshot brings back the same observations and
the same peers under the ids in use, and so saving again writes the same text
(`snapshots_are_canonical`).

`before` is a lexicographic comparison of five fields, each of them compared by
a strict order, so it is one itself (`Lib`'s `lexBetter`). That a sort of the
library is not stable is then of no account.
-/

namespace ASNPrefixMap.Snapshot

open Lib Prefix Peer Routing Ingest
open ASNPrefixMap.Parser

/-! ## The order of the observations -/

/-- The fields in the order they are compared in. -/
def SnapshotObservation.sortKey (o : SnapshotObservation) : Nat × Bytes × UInt32 × UInt32 × UInt64 :=
  (familyRank o.family, o.prefixText, o.peerId, o.originAsn, o.timestamp)

theorem familyRank_injective : Function.Injective familyRank := by
  intro f g h
  cases f <;> cases g <;> first | rfl | cases h

/-- An observation is determined by its fields, in any order of them. -/
theorem sortKey_injective : Function.Injective SnapshotObservation.sortKey := by
  intro ⟨f, t, i, a, s⟩ ⟨g, u, j, b, r⟩ h
  simp only [SnapshotObservation.sortKey, Prod.mk.injEq] at h
  obtain ⟨hf, rfl, rfl, rfl, rfl⟩ := h
  rw [familyRank_injective hf]

theorem before_eq (left right : SnapshotObservation) :
    left.before right = lexBetter (fun a b : Nat => decide (a < b))
      (lexBetter (fun a b : Bytes => decide (a < b))
        (lexBetter (fun a b : UInt32 => decide (a < b))
          (lexBetter (fun a b : UInt32 => decide (a < b)) fun a b : UInt64 => decide (a < b))))
      left.sortKey right.sortKey := by
  unfold SnapshotObservation.before lexBetter SnapshotObservation.sortKey
  dsimp only
  by_cases h : left.family = right.family
  · rw [if_neg (not_not.mpr h), if_neg (not_not.mpr (congrArg familyRank h))]
  · rw [if_pos h, if_pos (fun e => h (familyRank_injective e))]

/-- No two different observations are taken for equal. -/
theorem before_strict : StrictPreference SnapshotObservation.before := by
  have hkeys := strictPreference_lt (α := Nat) |>.lex (strictPreference_lt (α := Bytes) |>.lex
    (strictPreference_lt (α := UInt32) |>.lex (strictPreference_lt (α := UInt32) |>.lex
      (strictPreference_lt (α := UInt64)))))
  have hcomap := hkeys.comap sortKey_injective
  have heq : SnapshotObservation.before = _ := funext fun a => funext fun b => before_eq a b
  rw [heq]
  exact hcomap

/-- Sorting forgets the order the observations were in. -/
theorem sortObservations_perm {l₁ l₂ : List SnapshotObservation} (h : l₁.Perm l₂) :
    sortObservations l₁ = sortObservations l₂ := sortBy_perm before_strict h

/-! ## Saving -/

variable {net : Inet}

/-- The ids in use do not depend on the order of the observations. -/
theorem usedPeerIds_perm {l₁ l₂ : List StoredObservation} (h : l₁.Perm l₂) :
    usedPeerIds l₁ = usedPeerIds l₂ := by
  have hperm := ((h.map fun entry => entry.observation.peerId).dedup)
  unfold usedPeerIds
  exact List.Perm.eq_of_pairwise (fun a b _ _ hab hba => UInt32.le_antisymm hab hba)
    (List.pairwise_insertionSort _ _) (List.pairwise_insertionSort _ _)
    (((List.perm_insertionSort _ _).trans hperm).trans (List.perm_insertionSort _ _).symm)

/-- Two registries that give the same answer about an id write the same peer for
it. -/
theorem snapshotPeer_congr {registry₁ registry₂ : PeerRegistry} {i : PeerId}
    (h : registry₁.get i = registry₂.get i) : snapshotPeer registry₁ i = snapshotPeer registry₂ i := by
  have hcontains : registry₁.contains i = registry₂.contains i := by
    unfold PeerRegistry.get at h
    unfold PeerRegistry.contains
    cases h₁ : registry₁.byId.lookup i with
    | none =>
      cases h₂ : registry₂.byId.lookup i with
      | none => rfl
      | some p =>
        rw [h₁, h₂] at h
        cases h
    | some p =>
      cases h₂ : registry₂.byId.lookup i with
      | none =>
        rw [h₁, h₂] at h
        cases h
      | some q => rfl
  unfold snapshotPeer
  rw [h, hcontains]

/-- Every prefix can be printed. -/
theorem exists_snapshotObservation (hnet : net.RoundTrips) (entry : StoredObservation) :
    ∃ o, snapshotObservation net entry = .ok o := by
  have hprint : ∃ t, entry.pfx.toString net = .ok t := by
    cases entry.pfx with
    | v4 p =>
      obtain ⟨c, hc, -⟩ := hnet.v4 p.network
      exact ⟨_, by rw [BinaryPrefix.toString, PrefixV4.toString, hc]; rfl⟩
    | v6 p =>
      obtain ⟨c, hc, -⟩ := hnet.v6 p.network
      exact ⟨_, by rw [BinaryPrefix.toString, PrefixV6.toString, hc]; rfl⟩
  obtain ⟨t, ht⟩ := hprint
  exact ⟨_, by rw [snapshotObservation, ht, ok_bind, pure_eq_ok]⟩

/-- **Saving depends on the stored observations and the peers under their ids
only.** -/
theorem saveSnapshot_congr (hnet : net.RoundTrips) {ord₁ ord₂ : HashOrders} {store₁ store₂ : Store}
    (hstored : (store₁.state.storedObservations ord₁).Perm (store₂.state.storedObservations ord₂))
    (hpeers : ∀ o ∈ store₁.state.storedObservations ord₁,
      store₁.registry.get o.observation.peerId = store₂.registry.get o.observation.peerId)
    (path : Bytes) (opens : Bool) :
    saveSnapshot net ord₁ path opens store₁ = saveSnapshot net ord₂ path opens store₂ := by
  choose line hline using exists_snapshotObservation hnet
  have hids := usedPeerIds_perm hstored
  have hread : (usedPeerIds (store₁.state.storedObservations ord₁)).mapM
      (snapshotPeer store₁.registry) =
      (usedPeerIds (store₂.state.storedObservations ord₂)).mapM (snapshotPeer store₂.registry) := by
    rw [← hids]
    refine mapM_congr fun i hi => ?_
    obtain ⟨o, ho, rfl⟩ := mem_usedPeerIds.mp hi
    exact snapshotPeer_congr (hpeers o ho)
  have hlines := sortObservations_perm (hstored.map line)
  unfold saveSnapshot
  dsimp only
  rw [hread, mapM_eq_ok fun entry _ => hline entry, mapM_eq_ok fun entry _ => hline entry]
  simp only [ok_bind, hlines]

/-! ## Saving, loading, saving -/

/-- Loading a saved snapshot, into any registry and state and under any
iteration orders, and saving again writes the same text and counts. -/
def SavesAgain (net : Inet) (ordSave ordLoad ordAgain : HashOrders)
    (peerOrd : IterOrder PeerId PeerInfo) (path : Bytes) (store₀ store : Store) : Prop :=
  ∃ text saved loaded store', saveSnapshot net ordSave path true store = .ok (text, saved) ∧
    (loadSnapshot net ordLoad peerOrd path (some text)).run store₀ = .ok loaded store' ∧
    saveSnapshot net ordAgain path true store' = .ok (text, saved)

/-- A state with plain peers is saved to the same text after it was loaded
back. -/
theorem savesAgain_of_plain (hnet : net.RoundTrips) {S : Finset PeerInfo} {limit : Nat}
    {store : Store} (h : StoreInv S limit store.registry store.state) (hlimit : limit < 2 ^ 32 - 1)
    {ordSave : HashOrders} (hplain : UsedPeersPlain ordSave store) (ordLoad ordAgain : HashOrders)
    (peerOrd : IterOrder PeerId PeerInfo) (path : Bytes) (store₀ : Store) :
    SavesAgain net ordSave ordLoad ordAgain peerOrd path store₀ store := by
  obtain ⟨peers, observations, saved, hsave, hw⟩ :=
    @saveSnapshot_spec net ordSave hnet S limit store h path
  have hpeers : ∀ peer ∈ peers, Plain peer.2 := fun peer => hw.plain_of_used h hplain
  obtain ⟨loaded, store', hload, hinv, hlive, hlookup⟩ := @loadSnapshot_written net ordSave ordLoad
    S ∅ limit store h peers observations hw hpeers (by simpa using hlimit) peerOrd path store₀
  refine ⟨_, saved, loaded, store', hsave, hload, ?_⟩
  have hmem : ∀ o, o ∈ store'.state.storedObservations ordAgain ↔
      o ∈ store.state.storedObservations ordSave := by
    intro o
    rw [mem_storedObservations hinv.stored, mem_storedObservations h.stored, hlive]
  have hstored : (store'.state.storedObservations ordAgain).Perm
      (store.state.storedObservations ordSave) :=
    (List.perm_ext_iff_of_nodup ((nodup_keys_storedObservations hinv.stored ordAgain).of_map _)
      ((nodup_keys_storedObservations h.stored ordSave).of_map _)).mpr hmem
  rw [← hsave]
  refine saveSnapshot_congr hnet hstored (fun o ho => ?_) path true
  have hl := live_ne_none_of_mem h.stored ((hmem o).mp ho)
  obtain ⟨p, hp⟩ := Option.isSome_iff_exists.mp (h.registered _ _ hl)
  rw [get_eq_ok.mpr hp, get_eq_ok, hlookup, hw.peers_iff]
  exact ⟨⟨_, hl⟩, hp⟩

variable {jsonParse : JsonParse} {growth : Stats.GrowthStatsTracker} {ord : HashOrders}

/-- **Snapshots are canonical.** Histories that end with the same stored
observations, over registries that agree on the ids of their peers, are saved to
the same text; and the state an ingest has reached, if no peer of an observation
has a tab or a newline in its strings, is saved to the same text again after it
was loaded back. -/
theorem snapshots_are_canonical (hnet : net.RoundTrips) :
    (∀ (calls₁ calls₂ : List (HashOrders × Op)) (registry₁ registry₂ : PeerRegistry)
      (ord₁ ord₂ : HashOrders),
      (∀ o, o ∈ (runOps calls₁).storedObservations ord₁ ↔
        o ∈ (runOps calls₂).storedObservations ord₂) →
      (∀ o ∈ (runOps calls₁).storedObservations ord₁,
        registry₁.get o.observation.peerId = registry₂.get o.observation.peerId) →
      ∀ path opens, saveSnapshot net ord₁ path opens ⟨registry₁, runOps calls₁⟩ =
        saveSnapshot net ord₂ path opens ⟨registry₂, runOps calls₂⟩) ∧
    ∀ (messages : List Bytes) (world : World),
      (ingest jsonParse net ord messages).run { growthStats := growth } = .ok () world →
      (namedPeers jsonParse messages).card < 2 ^ 32 - 1 →
      ∀ ordSave, UsedPeersPlain ordSave ⟨world.registry, world.state⟩ →
      ∀ ordLoad ordAgain peerOrd path store₀,
        SavesAgain net ordSave ordLoad ordAgain peerOrd path store₀ ⟨world.registry, world.state⟩ := by
  constructor
  · intro calls₁ calls₂ registry₁ registry₂ ord₁ ord₂ hsame hpeers path opens
    have hstored := (List.perm_ext_iff_of_nodup (nodup_storedObservations calls₁ ord₁)
      (nodup_storedObservations calls₂ ord₂)).mpr hsame
    exact @saveSnapshot_congr net hnet ord₁ ord₂ ⟨registry₁, runOps calls₁⟩
      ⟨registry₂, runOps calls₂⟩ hstored hpeers path opens
  · intro messages world hrun hcard ordSave hplain ordLoad ordAgain peerOrd path store₀
    obtain ⟨hinv, -⟩ := ingest_reached (by omega) (fun _ hmem _ hp => mem_namedPeers hmem hp) hrun
    exact @savesAgain_of_plain net hnet _ _ ⟨world.registry, world.state⟩ hinv hcard ordSave hplain
      ordLoad ordAgain peerOrd path store₀

/-- Two peers announce a prefix. -/
def plainHistory : List (HashOrders × Op) :=
  [(.ascending, .announce 1 (.v4 ⟨0x0A000000, 8⟩) 65001 100),
    (.ascending, .announce 2 (.v4 ⟨0x0A000000, 8⟩) 65002 101)]

/-- A third peer is there first, and goes again: the last observation moves into
its place. -/
def swapHistory : List (HashOrders × Op) :=
  [(.ascending, .announce 3 (.v4 ⟨0x0A000000, 8⟩) 65003 99),
    (.ascending, .announce 1 (.v4 ⟨0x0A000000, 8⟩) 65001 100),
    (.ascending, .announce 2 (.v4 ⟨0x0A000000, 8⟩) 65002 101),
    (.ascending, .withdraw 3 (.v4 ⟨0x0A000000, 8⟩))]

/-- The registry of the two peers, by their ids. -/
def plainPeers : PeerRegistry :=
  insertAll {} [(1, ⟨bytes "rrc00", bytes "192.0.2.1", 64500⟩),
    (2, ⟨bytes "rrc10", bytes "192.0.2.2", 64501⟩)]

/-- A registry with a third peer, filled in another order. -/
def swapPeers : PeerRegistry :=
  insertAll {} [(3, ⟨bytes "rrc21", bytes "192.0.2.3", 64502⟩),
    (2, ⟨bytes "rrc10", bytes "192.0.2.2", 64501⟩),
    (1, ⟨bytes "rrc00", bytes "192.0.2.1", 64500⟩)]

/-- The two histories are saved to one text, and the two messages to a text that
comes back. -/
theorem snapshots_are_canonical_two_peers :
    (∀ path, saveSnapshot Inet.standard .ascending path true ⟨plainPeers, runOps plainHistory⟩ =
      saveSnapshot Inet.standard .ascending path true ⟨swapPeers, runOps swapHistory⟩) ∧
    ∃ world, (ingest twoPeersParse Inet.standard .ascending [rrc00Text, rrc10Text]).run
        { growthStats := .start {} 0 } = .ok () world ∧
      SavesAgain Inet.standard .ascending .ascending .ascending
        (.byKey UInt32.toNat fun _ _ => UInt32.toNat_inj.mp) (bytes "snapshot.txt") {}
        ⟨world.registry, world.state⟩ := by
  obtain ⟨world, hrun⟩ := (@ingest_survives_iff twoPeersParse Inet.standard .ascending
    [rrc00Text, rrc10Text] { growthStats := .start {} 0 }).mpr twoPeers_usable
  have hcard : (namedPeers twoPeersParse [rrc00Text, rrc10Text]).card ≤ 2 := card_namedPeers_le _
  obtain ⟨hinv, hmap⟩ := ingest_reached (by omega) (fun _ hmem _ hp => mem_namedPeers hmem hp) hrun
  have hcanonical := @snapshots_are_canonical Inet.standard twoPeersParse (.start {} 0) .ascending
    standard_roundTrips
  have hplain : (runOps plainHistory).storedObservations .ascending =
      [⟨.v4 ⟨0x0A000000, 8⟩, ⟨1, 65001⟩, 100⟩, ⟨.v4 ⟨0x0A000000, 8⟩, ⟨2, 65002⟩, 101⟩] := by
    decide +kernel
  have hswap : (runOps swapHistory).storedObservations .ascending =
      [⟨.v4 ⟨0x0A000000, 8⟩, ⟨2, 65002⟩, 101⟩, ⟨.v4 ⟨0x0A000000, 8⟩, ⟨1, 65001⟩, 100⟩] := by
    decide +kernel
  have hsame : ∀ o, o ∈ (runOps plainHistory).storedObservations .ascending ↔
      o ∈ (runOps swapHistory).storedObservations .ascending := by
    intro o
    rw [hplain, hswap]
    simp only [List.mem_cons, List.not_mem_nil, or_false]
    exact or_comm
  have hpeers : ∀ o ∈ (runOps plainHistory).storedObservations .ascending,
      plainPeers.get o.observation.peerId = swapPeers.get o.observation.peerId := by
    rw [hplain]
    decide +kernel
  exact ⟨fun path => hcanonical.1 _ _ _ _ _ _ hsame hpeers path true, world, hrun,
    hcanonical.2 _ world hrun (by omega) .ascending
      (usedPeersPlain_of_messages hinv hmap twoPeers_plain) _ _ _ _ _⟩

end ASNPrefixMap.Snapshot
