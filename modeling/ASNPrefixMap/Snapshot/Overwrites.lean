import ASNPrefixMap.Snapshot.Lines
import ASNPrefixMap.Snapshot.RoundTrip

/-!
# Observation lines that overwrite each other

A load checks the ids and the identities of its peer lines for duplicates and
replays its observation lines as announcements. Two of them that name one peer
and, after masking, one prefix are two announcements of one route: the later one
in the order of the texts is kept. Restoring is a last-writer-wins run over the
lines (`restoreAll_live`, for any number of lines), so every line keeps its
observation exactly when no (prefix, peer) occurs on two of them
(`linesKept_iff`).

The counts that a load returns are taken from the lines, not from what is
stored, so they do not tell that a line was overwritten.
-/

namespace ASNPrefixMap.Snapshot

open Lib Prefix Peer Routing

/-- The stored observation has the data of the line, its prefix as the parser of
the family reads it. -/
def StoredFrom (net : Inet) (line : Bytes) (entry : StoredObservation) : Prop :=
  ∃ o, observationRecord line = some o ∧ o.parse net = .ok entry.pfx ∧
    entry.observation = ⟨o.peerId, o.originAsn⟩ ∧ entry.timestamp = o.timestamp

/-- The (prefix, peer) of every observation line, in order. -/
def observationKeys (net : Inet) (text : Bytes) : List (BinaryPrefix × PeerId) :=
  ((observationRecords .none (bodyLines text)).filterMap (lineWrite net)).map Write.key

/-- What an accepted load leaves: one stored observation for each observation
line, and the counts of the file; and no peer id stands on two peer lines, no
(prefix, peer) on two observation lines. -/
structure Kept (net : Inet) (ord : HashOrders) (text : Bytes) (stats : SnapshotStats)
    (store : Store) : Prop where
  stored : ∃ entries, List.Forall₂ (StoredFrom net) (observationLines text) entries ∧
    (store.state.storedObservations ord).Perm entries
  observations : stats.observations = (store.state.storedObservations ord).length
  peers : stats.peers = FiniteMap.size store.registry.byId
  peerLines : ((peerRecords .none (bodyLines text)).map Prod.fst).Nodup
  observationLines : (observationKeys net text).Nodup

/-- No observation line is silently overwritten, whatever the load starts
from. -/
def LinesKept (net : Inet) (ord : HashOrders) (peerOrd : IterOrder PeerId PeerInfo)
    (path text : Bytes) : Prop :=
  ∀ store stats store', (loadSnapshot net ord peerOrd path (some text)).run store =
    .ok stats store' → Kept net ord text stats store'

variable {net : Inet} {ord : HashOrders} {peerOrd : IterOrder PeerId PeerInfo}

/-! ## Lines and what they store -/

/-- The observations that lines store are the writes of their records. -/
theorem map_storedWrite_of_forall₂ {lines : List Bytes} {entries : List StoredObservation}
    (h : List.Forall₂ (StoredFrom net) lines entries) :
    entries.map storedWrite = (lines.filterMap observationRecord).filterMap (lineWrite net) := by
  induction h with
  | nil => rfl
  | @cons line entry lines entries hline _ ih =>
    obtain ⟨o, ho, hparse, hobs, htime⟩ := hline
    have hwrite : lineWrite net o = some (storedWrite entry) := by
      refine lineWrite_eq_some.mpr ⟨entry.pfx, hparse, ?_⟩
      rw [storedWrite, StoredObservation.key, StoredObservation.value, hobs, htime]
    rw [List.map_cons, ih, List.filterMap_cons, ho, List.filterMap_cons, hwrite]

theorem length_observationRecords {lines : List Bytes} {entries : List StoredObservation}
    (h : List.Forall₂ (StoredFrom net) lines entries) :
    (lines.filterMap observationRecord).length = entries.length := by
  induction h with
  | nil => rfl
  | @cons line entry lines entries hline _ ih =>
    obtain ⟨o, ho, -⟩ := hline
    rw [List.filterMap_cons, ho, List.length_cons, List.length_cons, ih]

/-- Lines that are read and parsed store an observation each. -/
theorem exists_storedFrom : ∀ (lines : List Bytes),
    (∀ line ∈ lines, observationRecord line ≠ none) →
    (∀ o ∈ lines.filterMap observationRecord, Returns (o.parse net)) →
    ∃ entries, List.Forall₂ (StoredFrom net) lines entries := by
  intro lines
  induction lines with
  | nil => exact fun _ _ => ⟨[], .nil⟩
  | cons line lines ih =>
    intro hrecord haccepted
    obtain ⟨o, ho⟩ := Option.ne_none_iff_exists'.mp (hrecord line List.mem_cons_self)
    rw [List.filterMap_cons, ho] at haccepted
    obtain ⟨pfx, hparse⟩ := haccepted o List.mem_cons_self
    obtain ⟨entries, hentries⟩ := ih (fun l hl => hrecord l (List.mem_cons_of_mem _ hl))
      fun o' ho' => haccepted o' (List.mem_cons_of_mem _ ho')
    exact ⟨⟨pfx, ⟨o.peerId, o.originAsn⟩, o.timestamp⟩ :: entries,
      .cons ⟨o, ho, hparse, rfl, rfl⟩ hentries⟩

theorem key_storedWrite (entries : List StoredObservation) :
    (entries.map storedWrite).map Write.key = entries.map StoredObservation.key := by
  rw [List.map_map]
  rfl

/-- The keys of the lines are those of the observations they store. -/
theorem observationKeys_of_forall₂ {text : Bytes} {entries : List StoredObservation}
    (h : List.Forall₂ (StoredFrom net) (observationLines text) entries) :
    observationKeys net text = entries.map StoredObservation.key := by
  rw [← key_storedWrite, map_storedWrite_of_forall₂ h]
  rfl

theorem storedWrite_injective : Function.Injective storedWrite := by
  intro ⟨pfx, ⟨peerId, asn⟩, t⟩ ⟨pfx', ⟨peerId', asn'⟩, t'⟩ h
  cases h
  rfl

/-- A state in which the writes of some observations, to different keys, have
been made lists these observations. -/
theorem storedObservations_perm_entries {state : RoutingState} (hrows : state.RowsKept)
    {entries : List StoredObservation} (hnodup : (entries.map StoredObservation.key).Nodup)
    {ws : List (Write (BinaryPrefix × PeerId) (UInt32 × UInt64))}
    (hperm : ws.Perm (entries.map storedWrite)) (hlive : live state = applyWrites (fun _ => none) ws) :
    (state.storedObservations ord).Perm entries := by
  have hkeys : (ws.map Write.key).Nodup := by
    rw [(hperm.map Write.key).nodup_iff, key_storedWrite]
    exact hnodup
  rw [List.perm_ext_iff_of_nodup ((hrows.nodup_keys ord).of_map _) (hnodup.of_map _)]
  intro entry
  rw [hrows.mem_storedObservations, hlive, applyWrites_eq_some_iff hkeys, hperm.mem_iff]
  exact List.mem_map_of_injective storedWrite_injective

/-! ## Accepted loads -/

/-- The counts a load returns are those of the observation lines and of the
registered peers. -/
theorem loadSnapshot_stats {path text : Bytes} {store store' : Store} {stats : SnapshotStats}
    (h : (loadSnapshot net ord peerOrd path (some text)).run store = .ok stats store') :
    stats.observations = (observationRecords .none (bodyLines text)).length ∧
      stats.peers = FiniteMap.size store'.registry.byId := by
  rcases readSnapshot_spec text with ⟨-, -, reading, hread, hpeers, hobs⟩ | ⟨-, e, he⟩
  · have hlookup : store'.registry.byId = reading.peers := by
      apply Finmap.ext_lookup
      intro i
      rcases @loadSnapshot_spec net ord peerOrd text path store with ⟨-, _, _, hok, hiff, -⟩ |
        ⟨-, _, _, hthrows⟩
      · rw [h] at hok
        cases hok
        ext p
        exact (hiff i p).trans (hpeers i p).symm
      · rw [h] at hthrows
        cases hthrows
    rw [hlookup, ← hobs]
    cases hsaw : reading.sawAnyContent with
    | false =>
      obtain ⟨hnoPeers, hnoObs⟩ := (readSnapshot_inv hread).empty hsaw
      rw [loadSnapshot_of_blank hread hsaw] at h
      cases h
      rw [hnoObs, hnoPeers]
      exact ⟨rfl, size_empty.symm⟩
    | true =>
      rw [loadSnapshot_of_content hread hsaw] at h
      by_cases hr : Restorable net reading
      · rw [run_bind_ok (restoreSnapshot_of_restorable hr store)] at h
        cases h
        exact ⟨rfl, rfl⟩
      · obtain ⟨e, store₁, hthrows⟩ := @restoreSnapshot_of_not_restorable net ord peerOrd reading hr
        rw [run_bind_error (hthrows store)] at h
        cases h
  · rw [loadSnapshot_of_error he] at h
    cases h

/-- What an accepted load leaves, as the result of its lines one after the
other. No bound on their number is needed. -/
theorem loaded_rowsKept {path text : Bytes} {store store' : Store} {stats : SnapshotStats}
    (h : (loadSnapshot net ord peerOrd path (some text)).run store = .ok stats store') :
    store'.state.RowsKept ∧ live store'.state = applyWrites (fun _ => none)
      ((sortObservations (observationRecords .none (bodyLines text))).filterMap (lineWrite net)) := by
  rcases @loadSnapshot_spec net ord peerOrd text path store with ⟨-, _, _, hok, -, hstate⟩ |
    ⟨-, _, _, hthrows⟩
  · rw [h] at hok
    cases hok
    obtain ⟨hrows, hlive⟩ := @restoreAll_live net ord
      (sortObservations (observationRecords .none (bodyLines text))) {} rowsKept_empty
    obtain ⟨hrows', hsame⟩ := hrows.rebuildAggregated ord
    rw [hstate]
    refine ⟨hrows', ?_⟩
    rw [hsame, hlive, live_empty]
  · rw [h] at hthrows
    cases hthrows

/-- **Observation lines are kept exactly when they are about different routes.**
A load leaves one stored observation for each observation line, and rejects what
would not, if and only if the text is refused on other grounds or no two of its
observation lines name one peer and one prefix. -/
theorem linesKept_iff (path text : Bytes) :
    LinesKept net ord peerOrd path text ↔ (Loadable net text → (observationKeys net text).Nodup) := by
  constructor
  · intro hkept hl
    rcases @loadSnapshot_spec net ord peerOrd text path {} with ⟨-, stats, store, hok, -⟩ | ⟨hl', -⟩
    · exact (hkept _ _ _ hok).observationLines
    · exact absurd hl hl'
  · intro hnodup store stats store' hok
    rcases @loadSnapshot_spec net ord peerOrd text path store with ⟨hl, -⟩ |
      ⟨-, _, _, hthrows⟩
    · obtain ⟨entries, hentries⟩ := exists_storedFrom _ hl.readable.observations hl.accepted
      obtain ⟨hrows, hlive⟩ := loaded_rowsKept hok
      have hkeys := hnodup hl
      rw [observationKeys_of_forall₂ hentries] at hkeys
      have hperm : (store'.state.storedObservations ord).Perm entries := by
        refine storedObservations_perm_entries hrows hkeys ?_ hlive
        rw [map_storedWrite_of_forall₂ hentries]
        exact (List.perm_insertionSort _ _).filterMap _
      obtain ⟨hobs, hpeers⟩ := loadSnapshot_stats hok
      refine ⟨⟨entries, hentries, hperm⟩, ?_, hpeers, hl.readable.ids, hnodup hl⟩
      rw [hobs, hperm.length_eq]
      exact length_observationRecords hentries
    · rw [hok] at hthrows
      cases hthrows

/-- Two observations of one peer, of one prefix under two texts. -/
def overwritingText : Bytes :=
  bytes "# ASNPrefixMap snapshot v1\n\n[peers]\n1\trrc00\t192.0.2.1\t64500\n\n[observations]\n" ++
  bytes "v4\t10.0.0.0/8\t1\t65001\t200\nv4\t10.1.2.3/8\t1\t65002\t100\n"

/-- Two texts of one prefix, under one peer: two lines are counted, and one
observation is stored. Both are accepted by `parse_prefix`, which clears the
host bits of the second. -/
theorem not_linesKept_mixed : ¬ LinesKept Inet.standard .ascending
    (.byKey UInt32.toNat fun _ _ => UInt32.toNat_inj.mp) (bytes "snapshot.txt") overwritingText := by
  intro hkept
  rcases @loadSnapshot_spec Inet.standard .ascending
    (.byKey UInt32.toNat fun _ _ => UInt32.toNat_inj.mp) overwritingText (bytes "snapshot.txt") {} with
    ⟨-, stats, store, hok, -⟩ | ⟨hnot, -⟩
  · -- the stored observations have different keys, the lines have not
    obtain ⟨entries, hentries, hperm⟩ := (hkept _ _ _ hok).stored
    have hkeys := (hperm.map StoredObservation.key).nodup_iff.mp ((loaded_rowsKept hok).1.nodup_keys _)
    rw [← observationKeys_of_forall₂ hentries] at hkeys
    exact absurd hkeys (by decide +kernel)
  · exact hnot (by decide +kernel)

end ASNPrefixMap.Snapshot
