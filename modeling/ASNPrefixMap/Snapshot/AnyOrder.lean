import ASNPrefixMap.Snapshot.LineOrder

/-!
# Saving and loading in any iteration order

What is saved is sorted first, so the order in which the maps are walked does
not show in a snapshot (`saveSnapshot_order`). Loading walks over the peers it
has read in the order of a hash map, and one thing there depends on the order:
`insert_with_id` pulls the counter past each id, and past the last one it starts
again, so the counter a snapshot with that id leaves depends on what came after
it. Without it, whatever is loaded is loaded the same in any order
(`loadSnapshot_order`).
-/

namespace ASNPrefixMap.Snapshot

open Lib Prefix Peer Routing

variable {net : Inet} {path : Bytes}

/-! ## Saving -/

/-- Saving in another order writes the same text and returns the same counts. -/
theorem saveSnapshot_order {ord : HashOrders} {opens : Bool} {store : Store}
    {saved : Bytes × SnapshotStats} (h : saveSnapshot net ord path opens store = .ok saved)
    (ord' : HashOrders) : saveSnapshot net ord' path opens store = .ok saved := by
  have hstored := storedObservations_perm ord ord' store.state
  unfold saveSnapshot at h ⊢
  obtain ⟨peers, hpeers, hrest⟩ := bind_eq_ok.mp h
  obtain ⟨observations, hobservations, hwrite⟩ := bind_eq_ok.mp hrest
  obtain ⟨observations', hobservations', hperm⟩ := mapM_perm hstored hobservations
  dsimp only
  rw [← usedPeerIds_perm hstored, hpeers, ok_bind, hobservations', ok_bind,
    ← sortObservations_perm hperm]
  exact hwrite

/-! ## Loading -/

/-- The peers of a reading are registered the same in any order. -/
theorem insertAll_entries {reading : Reading} {peerOrd : IterOrder PeerId PeerInfo}
    (hfresh : FreshFor {} (peerOrd.entries reading.peers))
    (hlast : (insertAll {} (peerOrd.entries reading.peers)).contains lastPeerId = false)
    (peerOrd' : IterOrder PeerId PeerInfo) :
    insertAll {} (peerOrd.entries reading.peers) = insertAll {} (peerOrd'.entries reading.peers) := by
  refine insertAll_perm ((peerOrd.listing _).perm (peerOrd'.listing _)) hfresh fun peer hpeer heq => ?_
  have hlookup := (lookup_byId_insertAll peer.1 peer.2 hfresh).mpr (Or.inl hpeer)
  rw [heq] at hlookup
  unfold PeerRegistry.contains at hlast
  rw [hlookup] at hlast
  cases hlast

/-- A load that leaves the last id free ends the same in any order, with the
same registry, state and counter. -/
theorem loadSnapshot_order {ord : HashOrders} {peerOrd : IterOrder PeerId PeerInfo}
    {input : Option Bytes} {stats : SnapshotStats} {store₀ store : Store}
    (h : (loadSnapshot net ord peerOrd path input).run store₀ = .ok stats store)
    (hlast : store.registry.contains lastPeerId = false) (ord' : HashOrders)
    (peerOrd' : IterOrder PeerId PeerInfo) :
    (loadSnapshot net ord' peerOrd' path input).run store₀ = .ok stats store := by
  obtain ⟨text, reading, rfl, hread, hrestorable, hstore⟩ := loadSnapshot_eq_ok h
  cases hsaw : reading.sawAnyContent with
  | false =>
    rw [loadSnapshot_of_blank hread hsaw] at h ⊢
    exact h
  | true =>
    rw [loadSnapshot_of_content hread hsaw,
      run_bind_ok (restoreSnapshot_of_restorable hrestorable store₀)] at h ⊢
    cases h
    have hfresh := (@freshFor_entries_iff peerOrd reading).mpr hrestorable.identities
    rw [insertAll_entries hfresh hlast peerOrd', restoreAll_order_irrel ord ord',
      rebuildAggregated_order_irrel ord ord']
    rfl

/-- A load that throws does so in any order. -/
theorem loadSnapshot_order_error {ord : HashOrders} {peerOrd : IterOrder PeerId PeerInfo}
    {input : Option Bytes} {e : Exception} {store₀ store : Store}
    (h : (loadSnapshot net ord peerOrd path input).run store₀ = .error e store) (ord' : HashOrders)
    (peerOrd' : IterOrder PeerId PeerInfo) :
    ∃ e' store', (loadSnapshot net ord' peerOrd' path input).run store₀ = .error e' store' := by
  cases input with
  | none => exact ⟨_, _, rfl⟩
  | some text =>
    rcases @loadSnapshot_spec net ord peerOrd text path store₀ with
      ⟨-, stats, store', hok, -⟩ | ⟨hnot, -⟩
    · rw [hok] at h
      cases h
    · rcases @loadSnapshot_spec net ord' peerOrd' text path store₀ with ⟨hl, -⟩ | ⟨-, hthrows⟩
      · exact absurd hl hnot
      · exact hthrows

/-! ## The last id -/

/-- The last id shows the order: after it the counter starts again, and the next
id is pulled past the others only if they come later. -/
example :
    (insertAll {} [(7, ⟨bytes "rrc00", bytes "192.0.2.1", 64500⟩),
        (lastPeerId, ⟨bytes "rrc10", bytes "192.0.2.2", 64501⟩)]).nextPeerId = 0 ∧
      (insertAll {} [(lastPeerId, ⟨bytes "rrc10", bytes "192.0.2.2", 64501⟩),
        (7, ⟨bytes "rrc00", bytes "192.0.2.1", 64500⟩)]).nextPeerId = 8 := by
  decide

end ASNPrefixMap.Snapshot
