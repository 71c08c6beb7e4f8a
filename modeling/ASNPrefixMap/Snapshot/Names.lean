import ASNPrefixMap.Ingest.LastWords
import ASNPrefixMap.Snapshot.RoundTrip

/-!
# The ids in a snapshot

Which peer a snapshot names under which id, by the reader of the program. A load
registers just these pairs (`names_of_load`), and what is saved names the
registered peers that have an observation (`names_of_save`).

A snapshot drops the peers without observations, so an id can be free after a
restart that was taken before it. `Program.Ids` uses these two facts to say
which ids stay.

Both facts are about the text alone: a name is a line of the peer section with
that id and that peer, as the program reads it.
-/

namespace ASNPrefixMap.Snapshot

open Lib Prefix Peer Routing Ingest

/-- A snapshot names a peer under an id. -/
def Names (snapshot : Bytes) (peerId : PeerId) (peer : PeerInfo) : Prop :=
  ∃ reading, readSnapshot snapshot = .ok reading ∧ reading.peers.lookup peerId = some peer

variable {net : Inet} {ord : HashOrders} {peerOrd : IterOrder PeerId PeerInfo} {path : Bytes}

/-- A snapshot that can be read names what its reader has collected. -/
theorem names_iff {snapshot : Bytes} {reading : Reading} (h : readSnapshot snapshot = .ok reading)
    {peerId : PeerId} {peer : PeerInfo} :
    Names snapshot peerId peer ↔ reading.peers.lookup peerId = some peer := by
  constructor
  · rintro ⟨reading', hread, hlookup⟩
    rw [h] at hread
    cases hread
    exact hlookup
  · exact fun hlookup => ⟨reading, h, hlookup⟩

/-- A load that returns registers what the snapshot names. -/
theorem names_of_load {snapshot : Bytes} {stats : SnapshotStats} {store₀ store : Store}
    (h : (loadSnapshot net ord peerOrd path (some snapshot)).run store₀ = .ok stats store)
    {peerId : PeerId} {peer : PeerInfo} :
    Names snapshot peerId peer ↔ store.registry.byId.lookup peerId = some peer := by
  obtain ⟨text, reading, htext, hread, hrestorable, hstore⟩ := loadSnapshot_eq_ok h
  cases htext
  rw [names_iff hread, hstore]
  split
  next hblank =>
    rw [((readSnapshot_inv hread).empty hblank).1]
  next =>
    have hfresh := (@freshFor_entries_iff peerOrd reading).mpr hrestorable.identities
    rw [lookup_byId_insertAll peerId peer hfresh, (peerOrd.listing reading.peers).mem_iff]
    exact (or_iff_left fun hnone => by cases hnone).symm

/-- A snapshot names the peers that have said something, as the registry
does. -/
theorem names_of_save (hnet : net.RoundTrips) {S : Finset PeerInfo} {limit : Nat} {store : Store}
    (h : StoreInv S limit store.registry store.state) (hplain : UsedPeersPlain ord store)
    {saved : Bytes × SnapshotStats} (hsave : saveSnapshot net ord path true store = .ok saved)
    {peerId : PeerId} {peer : PeerInfo} :
    Names saved.1 peerId peer ↔ (∃ pfx, live store.state (pfx, peerId) ≠ none) ∧
      store.registry.byId.lookup peerId = some peer := by
  obtain ⟨peers, observations, stats, hsave', hw⟩ := @saveSnapshot_spec net ord hnet S limit store h path
  rw [hsave] at hsave'
  cases hsave'
  obtain ⟨reading, hread, hread'⟩ := readSnapshot_snapshotText hw.ids
    (fun peer => hw.plain_of_used h hplain) hw.plain
  rw [names_iff hread, hread'.peers_iff, hw.peers_iff]

end ASNPrefixMap.Snapshot
