import ASNPrefixMap.Ingest.LastWords
import ASNPrefixMap.Lib.Redelivery
import ASNPrefixMap.Snapshot.Canonical

/-!
# The same messages again

What two runs over the same messages have in common, whatever orders their hash
maps are walked in and whenever they are sampled. The ids are the same, as they
are given in the order of the messages (`Loop.registry_eq`); with the ids the
observations are, so both are saved to the same text (`saveSnapshot_eq`). Rows
of tables that are the vote of the same peers differ in their order only
(`TablesOf.perm`), and messages that are delivered more than once make no other
tables (`TablesOf.of_delivered`).

"The same messages" is made precise in three steps: the same peers in the same
order give the same ids, the same ids and words give the same saved text, and
the same votes give the same tables. A replay of a recording, a restart and a
redelivery each come in at one of them.
-/

namespace ASNPrefixMap.Ingest

open Lib Prefix Peer Routing Snapshot
open ASNPrefixMap.Parser

/-! ## Ids -/

section Peers

variable (jsonParse : JsonParse)

/-- The peer that a message makes the loop look up. -/
def resolvedPeer (text : Bytes) : Option PeerInfo :=
  match messageEvents jsonParse text with
  | .ok (event :: _) => some event.peer
  | _ => none

/-- The registry after a message. -/
def registryAfter (registry : PeerRegistry) (text : Bytes) : PeerRegistry :=
  match resolvedPeer jsonParse text with
  | none => registry
  | some peer => (registry.getOrAdd peer).2

end Peers

variable {jsonParse : JsonParse} {net : Inet}

/-- The iteration orders play no part in the ids. -/
theorem ingestMessage_registry {ord : HashOrders} {text : Bytes} {world world' : World}
    (h : (ingestMessage jsonParse net ord text).run world = .ok () world') :
    world'.registry = registryAfter jsonParse world.registry text := by
  rw [ingestMessage_eq] at h
  unfold registryAfter resolvedPeer
  cases hevents : messageEvents jsonParse text with
  | error e =>
    rw [hevents] at h
    cases h
  | ok events =>
    rw [hevents] at h
    cases events with
    | nil =>
      cases h
      exact countMessage_registry _ 0
    | cons event rest =>
      dsimp only at h ⊢
      cases hrun : (applyEvents net ord (world.receiveMessage.resolvePeer event.peer).1
          (event :: rest)).run (world.receiveMessage.resolvePeer event.peer).2 with
      | error e after =>
        rw [hrun] at h
        cases h
      | ok _ after =>
        rw [hrun] at h
        cases h
        rw [countMessage_registry, (applyEvents_routed _ hrun).1, (applied_foldl _ _).registry]
        rfl

/-- The registry at a loop head is a function of the texts received: each one
looks its peer up. -/
theorem Loop.registry_eq {start world : World} {log : LoopLog} (h : Loop jsonParse net start log world) :
    world.registry = log.texts.foldl (registryAfter jsonParse) start.registry := by
  induction h with
  | start => rfl
  | message ord text _ hrun ih =>
    rw [ingestMessage_registry hrun, ih, List.foldl_append]
    rfl
  | sample now timestampMs _ ih => exact ih

/-- Whoever is looked up is named by the message. -/
theorem messagePeer_of_resolvedPeer {text : Bytes} {peer : PeerInfo}
    (h : resolvedPeer jsonParse text = some peer) : messagePeer jsonParse text = some peer := by
  unfold resolvedPeer at h
  cases hevents : messageEvents jsonParse text with
  | error e =>
    rw [hevents] at h
    cases h
  | ok events =>
    rw [hevents] at h
    cases events with
    | nil => cases h
    | cons event rest =>
      cases h
      exact messagePeer_of_mem hevents List.mem_cons_self

/-- While there is room for the peers to come, messages take no id away. -/
theorem registryAfter_keeps {S : Finset PeerInfo} {limit : Nat} : ∀ {texts : List Bytes}
    {registry : PeerRegistry}, Numbered S limit registry →
    (∀ text ∈ texts, ∀ peer, messagePeer jsonParse text = some peer → peer ∈ S) →
    ∀ {peerId : PeerId} {peer : PeerInfo}, registry.byId.lookup peerId = some peer →
      (texts.foldl (registryAfter jsonParse) registry).byId.lookup peerId = some peer := by
  intro texts
  induction texts with
  | nil => exact fun _ _ _ _ h => h
  | cons text texts ih =>
    intro registry h hS peerId peer hlookup
    rw [List.foldl_cons]
    have hS' : ∀ text ∈ texts, ∀ peer, messagePeer jsonParse text = some peer → peer ∈ S :=
      fun text hmem => hS text (List.mem_cons_of_mem _ hmem)
    unfold registryAfter
    cases hresolved : resolvedPeer jsonParse text with
    | none => exact ih h hS' hlookup
    | some added =>
      have hmem := hS text List.mem_cons_self added (messagePeer_of_resolvedPeer hresolved)
      refine ih (h.getOrAdd hmem) hS' ?_
      cases hknown : registry.byInfo.lookup added with
      | some i =>
        rw [getOrAdd_of_some hknown]
        exact hlookup
      | none =>
        rw [getOrAdd_of_none hknown]
        exact lookup_byId_bind (h.next_free hmem hknown) hlookup _

/-! ## Observations -/

section Store

variable {S S' : Finset PeerInfo} {limit limit' : Nat} {registry : PeerRegistry}
  {state state' : RoutingState}

/-- Under the same ids, what the peers have said is all there is. -/
theorem StoreInv.live_of_peerMap (h : StoreInv S limit registry state)
    (h' : StoreInv S' limit' registry state')
    (hmap : peerMap registry state = peerMap registry state') {pfx : BinaryPrefix} {peerId : PeerId}
    {value : UInt32 × UInt64} (hlive : live state (pfx, peerId) = some value) :
    live state' (pfx, peerId) = some value := by
  have hknown : registry.contains peerId = true :=
    h.registered pfx peerId (by rw [hlive]; exact Option.some_ne_none _)
  obtain ⟨peer, hpeer⟩ := Option.isSome_iff_exists.mp hknown
  have hword := (peerMap_eq_some h pfx peer value).mpr ⟨peerId, hpeer, hlive⟩
  rw [hmap] at hword
  obtain ⟨other, hother, hlive'⟩ := (peerMap_eq_some h' pfx peer value).mp hword
  rwa [h.numbered.inverse.peer_injective hpeer hother]

/-- Two such states list the same observations, in some order. -/
theorem StoreInv.storedObservations_perm (h : StoreInv S limit registry state)
    (h' : StoreInv S' limit' registry state')
    (hmap : peerMap registry state = peerMap registry state') (ord ord' : HashOrders) :
    (state.storedObservations ord).Perm (state'.storedObservations ord') := by
  refine (List.perm_ext_iff_of_nodup ((nodup_keys_storedObservations h.stored ord).of_map _)
    ((nodup_keys_storedObservations h'.stored ord').of_map _)).mpr fun o => ?_
  rw [mem_storedObservations h.stored, mem_storedObservations h'.stored]
  exact ⟨h.live_of_peerMap h' hmap, h'.live_of_peerMap h hmap.symm⟩

/-- The path only occurs in the text of an exception. -/
theorem saveSnapshot_path {ord : HashOrders} {store : Store} {path : Bytes}
    {saved : Bytes × SnapshotStats} (h : saveSnapshot net ord path true store = .ok saved)
    (path' : Bytes) : saveSnapshot net ord path' true store = .ok saved := h

/-- Two stores with the same ids that hold the same words are saved to the same
text. -/
theorem StoreInv.saveSnapshot_eq (hnet : net.RoundTrips) (h : StoreInv S limit registry state)
    (h' : StoreInv S' limit' registry state')
    (hmap : peerMap registry state = peerMap registry state') {ord ord' : HashOrders}
    {path path' : Bytes} {saved saved' : Bytes × SnapshotStats}
    (hsave : saveSnapshot net ord path true ⟨registry, state⟩ = .ok saved)
    (hsave' : saveSnapshot net ord' path' true ⟨registry, state'⟩ = .ok saved') : saved = saved' := by
  have hsame := @saveSnapshot_congr net hnet ord ord' ⟨registry, state⟩ ⟨registry, state'⟩
    (h.storedObservations_perm h' hmap ord ord') (fun _ _ => rfl) path true
  rw [hsave, saveSnapshot_path hsave' path] at hsame
  exact Except.ok.inj hsame

end Store

/-! ## Tables -/

section Rows

variable {texts : List Bytes} {prefixRows prefixRows' : List (Bytes × UInt32)}
  {asnRows asnRows' : List (UInt32 × List Bytes)}

/-- A row of the one prefix table is in the other, since an origin that wins a
vote is the only one. -/
theorem TablesOf.mem_prefixRows (hnet : net.TellsApart)
    (h : TablesOf jsonParse net texts prefixRows asnRows)
    (h' : TablesOf jsonParse net texts prefixRows' asnRows') {row : Bytes × UInt32}
    (hrow : row ∈ prefixRows) : row ∈ prefixRows' := by
  obtain ⟨pfx, hpfx, hwins⟩ := h.elected row hrow
  have hannounced := (h.announced pfx row.1 hpfx).mp (List.mem_map_of_mem hrow)
  obtain ⟨row', hrow', htext⟩ := List.mem_map.mp ((h'.announced pfx row.1 hpfx).mpr hannounced)
  obtain ⟨pfx', hpfx', hwins'⟩ := h'.elected row' hrow'
  -- the line of the same prefix shows the winner of the same vote
  obtain rfl := hnet.toString_inj hpfx (htext ▸ hpfx')
  rwa [← Prod.ext htext (hwins'.unique hwins)]

/-- A prefix stands in the row of its origin. -/
theorem TablesOf.mem_asnRow (h : TablesOf jsonParse net texts prefixRows asnRows)
    {row : UInt32 × List Bytes} (hrow : row ∈ asnRows) (text : Bytes) :
    text ∈ row.2 ↔ (text, row.1) ∈ prefixRows := by
  rw [h.inverse]
  constructor
  · exact fun hmem => ⟨row, hrow, rfl, hmem⟩
  · rintro ⟨other, hother, heq, hmem⟩
    rwa [← List.inj_on_of_nodup_map h.asnOnce hother hrow heq]

/-- A row of the one ASN table is in the other: it has the same prefixes, and
both are in ascending order. -/
theorem TablesOf.mem_asnRows (hnet : net.TellsApart)
    (h : TablesOf jsonParse net texts prefixRows asnRows)
    (h' : TablesOf jsonParse net texts prefixRows' asnRows') {row : UInt32 × List Bytes}
    (hrow : row ∈ asnRows) : row ∈ asnRows' := by
  obtain ⟨text, htext⟩ := List.exists_mem_of_ne_nil _ (h.asnUsed row hrow)
  obtain ⟨row', hrow', hasn, -⟩ :=
    (h'.inverse text row.1).mp (h.mem_prefixRows hnet h' ((h.mem_asnRow hrow text).mp htext))
  have hsame : row'.2 = row.2 := by
    refine increasing_unique (h'.increasing row' hrow') (h.increasing row hrow) fun text => ?_
    rw [h'.mem_asnRow hrow', h.mem_asnRow hrow, hasn]
    exact ⟨h'.mem_prefixRows hnet h, h.mem_prefixRows hnet h'⟩
  rwa [← show row' = row from Prod.ext hasn hsame]

/-- **Some messages have one pair of tables**, but for the order of the
lines. -/
theorem TablesOf.perm (hnet : net.TellsApart) (h : TablesOf jsonParse net texts prefixRows asnRows)
    (h' : TablesOf jsonParse net texts prefixRows' asnRows') :
    prefixRows.Perm prefixRows' ∧ asnRows.Perm asnRows' :=
  ⟨(List.perm_ext_iff_of_nodup (h.once.of_map _) (h'.once.of_map _)).mpr fun _ =>
      ⟨h.mem_prefixRows hnet h', h'.mem_prefixRows hnet h⟩,
    (List.perm_ext_iff_of_nodup (h.asnOnce.of_map _) (h'.asnOnce.of_map _)).mpr fun _ =>
      ⟨h.mem_asnRows hnet h', h'.mem_asnRows hnet h⟩⟩

end Rows

/-! ## Messages delivered again -/

section Delivered

variable {log delivered : List Bytes}

/-- Messages delivered again say no new last word: the words behind the last one
sent are repeated in order. -/
theorem lastWords_delivered (h : Delivers log delivered log.length) :
    lastWords jsonParse net delivered = lastWords jsonParse net log :=
  applyWrites_delivered h _ _

theorem namedPeers_delivered (h : Delivers log delivered log.length) :
    namedPeers jsonParse delivered = namedPeers jsonParse log := by
  ext peer
  unfold namedPeers
  rw [List.mem_toFinset, List.mem_toFinset, List.mem_filterMap, List.mem_filterMap]
  exact exists_congr fun text => and_congr_left fun _ => h.mem_iff

/-- The tables are those of the log. -/
theorem TablesOf.of_delivered (hdelivers : Delivers log delivered log.length)
    {prefixRows : List (Bytes × UInt32)} {asnRows : List (UInt32 × List Bytes)}
    (h : TablesOf jsonParse net delivered prefixRows asnRows) :
    TablesOf jsonParse net log prefixRows asnRows := by
  have hwords := @lastWords_delivered jsonParse net log delivered hdelivers
  have hvotes : peerVotes jsonParse net delivered = peerVotes jsonParse net log := by
    unfold peerVotes
    rw [hwords, namedPeers_delivered hdelivers]
  exact
    { announced := hwords ▸ h.announced
      once := h.once
      elected := hvotes ▸ h.elected
      inverse := h.inverse
      asnOnce := h.asnOnce
      asnUsed := h.asnUsed
      increasing := h.increasing }

end Delivered

end ASNPrefixMap.Ingest
