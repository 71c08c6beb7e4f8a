import Mathlib.Order.Interval.Finset.Nat
import ASNPrefixMap.Ingest.Loop
import ASNPrefixMap.Peer.RegistryInv
import ASNPrefixMap.Prefix.InetText
import ASNPrefixMap.Routing.Renaming

/-!
# What the ingest stores, by peer identity

Peer ids are an internal matter: which id a peer gets depends on who came first.
Seen from outside, a registry and a routing state hold a map from (prefix, peer)
to (origin, timestamp), `peerMap`, and a message is a list of writes to it,
`messageWrites`. The main lemma `ingestMessage_spec` says that the loop body
performs exactly these writes, under an invariant (`StoreInv`) that it keeps:
ids are handed out consecutively, every observation's id is registered, and no
prefix can fill up because its observations have distinct ids.

`peerView` is the same map read off the code's own accessors, and
`view_eq_of_peerMap_eq` says that the map also determines the aggregated table.

`StoreInv` is indexed by the set `S` of peers the ingest may still name and a
bound on the ids given so far. Both are there for one reason: ids are 32-bit
numbers that are handed out without a check, and a run that names fewer than `2
^ 32` peers never hands one out twice.
-/

namespace ASNPrefixMap.Ingest

open Lib Prefix Peer Routing
open ASNPrefixMap.Parser

/-- A key of the abstract map. -/
abbrev PeerKey := BinaryPrefix × PeerInfo

/-- Origin and timestamp stored for a prefix and a peer. -/
def peerMap (registry : PeerRegistry) (state : RoutingState) :
    PeerKey → Option (UInt32 × UInt64) :=
  fun key => (registry.byInfo.lookup key.2).bind fun peerId => live state (key.1, peerId)

/-- The map from (peer, prefix) to (origin, timestamp), as the rows of
`stored_observations` with their ids resolved by `get`. -/
def peerView (ord : HashOrders) (registry : PeerRegistry) (state : RoutingState) :
    Set (PeerKey × UInt32 × UInt64) :=
  {row | ∃ o ∈ state.storedObservations ord,
    registry.get o.observation.peerId = .ok row.1.2 ∧ o.pfx = row.1.1 ∧ o.value = row.2}

/-- What a registry and a routing state are at any time, for an ingest that
names the peers `S`. Prefixes are canonical since `parsePrefix` clears the bits
behind the length. -/
structure StoreInv (S : Finset PeerInfo) (limit : Nat) (registry : PeerRegistry)
    (state : RoutingState) : Prop where
  numbered : Numbered S limit registry
  stored : StateInv state
  registered : ∀ pfx peerId, live state (pfx, peerId) ≠ none → registry.contains peerId = true
  canonical : ∀ pfx peerId, live state (pfx, peerId) ≠ none → pfx.Canonical

/-- A registry without observations. -/
theorem storeInv_of_numbered {S : Finset PeerInfo} {limit : Nat} {registry : PeerRegistry}
    (h : Numbered S limit registry) : StoreInv S limit registry {} where
  numbered := h
  stored := stateInv_empty
  registered pfx peerId hl := by
    rw [live_empty] at hl
    exact absurd rfl hl
  canonical pfx peerId hl := by
    rw [live_empty] at hl
    exact absurd rfl hl

/-- The empty store, for an ingest with fewer than `2 ^ 32` peers. -/
theorem storeInv_empty {S : Finset PeerInfo} (h : S.card < 2 ^ 32) : StoreInv S S.card {} {} :=
  storeInv_of_numbered (numbered_empty h)

/-! ## The map and its views -/

/-- Under the invariant the map can be read from the ids as well, since the two
maps of the registry are inverse. -/
theorem peerMap_eq_some {S : Finset PeerInfo} {limit : Nat} {registry : PeerRegistry} {state : RoutingState}
    (h : StoreInv S limit registry state) (pfx : BinaryPrefix) (peer : PeerInfo)
    (value : UInt32 × UInt64) :
    peerMap registry state (pfx, peer) = some value ↔
      ∃ peerId, registry.byId.lookup peerId = some peer ∧
        live state (pfx, peerId) = some value := by
  unfold peerMap
  rw [Option.bind_eq_some_iff]
  constructor
  · intro ⟨peerId, hp, hl⟩
    exact ⟨peerId, (h.numbered.inverse peerId peer).mpr hp, hl⟩
  · intro ⟨peerId, hp, hl⟩
    exact ⟨peerId, (h.numbered.inverse peerId peer).mp hp, hl⟩

/-- What the accessors show is the map. `get` does not throw on the id of a
stored observation. -/
theorem mem_peerView {S : Finset PeerInfo} {limit : Nat} {registry : PeerRegistry} {state : RoutingState}
    (h : StoreInv S limit registry state) (ord : HashOrders) (key : PeerKey) (value : UInt32 × UInt64) :
    (key, value) ∈ peerView ord registry state ↔ peerMap registry state key = some value := by
  obtain ⟨pfx, peer⟩ := key
  rw [peerMap_eq_some h]
  constructor
  · intro ⟨o, ho, hget, hpfx, hval⟩
    refine ⟨o.observation.peerId, get_eq_ok.mp hget, ?_⟩
    have hlive := (mem_storedObservations h.stored ord o).mp ho
    obtain rfl : o.pfx = pfx := hpfx
    obtain rfl : o.value = value := hval
    exact hlive
  · intro ⟨peerId, hp, hl⟩
    refine ⟨⟨pfx, ⟨peerId, value.1⟩, value.2⟩, ?_, get_eq_ok.mpr hp, rfl, rfl⟩
    rw [mem_storedObservations h.stored]
    exact hl

/-- Two stores with the same map have the same rows and the same aggregated
table. -/
theorem view_eq_of_peerMap_eq {S₁ S₂ : Finset PeerInfo} {limit₁ limit₂ : Nat} {registry₁ registry₂ : PeerRegistry}
    {state₁ state₂ : RoutingState} (h₁ : StoreInv S₁ limit₁ registry₁ state₁)
    (h₂ : StoreInv S₂ limit₂ registry₂ state₂)
    (heq : peerMap registry₁ state₁ = peerMap registry₂ state₂) (ord₁ ord₂ : HashOrders) :
    peerView ord₁ registry₁ state₁ = peerView ord₂ registry₂ state₂ ∧
      state₁.selected = state₂.selected := by
  constructor
  · ext ⟨key, value⟩
    rw [mem_peerView h₁, mem_peerView h₂, heq]
  · -- the peers' names stand for the ids, and no two ids in use have one name
    have hinj : ∀ {S : Finset PeerInfo} {limit : Nat} {registry : PeerRegistry} {state : RoutingState},
        StoreInv S limit registry state → ∀ p i j, live state (p, i) ≠ none → live state (p, j) ≠ none →
          registry.byId.lookup i = registry.byId.lookup j → i = j := by
      intro S limit registry state h p i j hi _ hij
      obtain ⟨peer, hp⟩ := Option.isSome_iff_exists.mp (h.registered p i hi)
      exact h.numbered.inverse.peer_injective hp (hij ▸ hp)
    have hname : ∀ {S : Finset PeerInfo} {limit : Nat} {registry : PeerRegistry} {state : RoutingState},
        StoreInv S limit registry state → ∀ p m a t,
          (∃ j, registry.byId.lookup j = m ∧ live state (p, j) = some (a, t)) ↔
            ∃ peer, m = some peer ∧ peerMap registry state (p, peer) = some (a, t) := by
      intro S limit registry state h p m a t
      constructor
      · intro ⟨j, hj, hl⟩
        obtain ⟨peer, hp⟩ := Option.isSome_iff_exists.mp
          (h.registered p j (by rw [hl]; exact Option.some_ne_none _))
        exact ⟨peer, hj.symm.trans hp, (peerMap_eq_some h p peer (a, t)).mpr ⟨j, hp, hl⟩⟩
      · intro ⟨peer, hm, hmap⟩
        obtain ⟨j, hj, hl⟩ := (peerMap_eq_some h p peer (a, t)).mp hmap
        exact ⟨j, hj.trans hm.symm, hl⟩
    refine selected_eq_of_renaming h₁.stored h₂.stored (hinj h₁) (hinj h₂) ?_
    intro p m a t
    rw [hname h₁, hname h₂, heq]

/-! ## Room -/

/-- Distinct ids between 1 and `n` are at most `n`. -/
theorem length_le_of_ids {n : Nat} {ids : List PeerId} (hnd : ids.Nodup)
    (hids : ∀ i ∈ ids, 1 ≤ i.toNat ∧ i.toNat ≤ n) : ids.length ≤ n := by
  have hnd' : (ids.map UInt32.toNat).Nodup := hnd.map fun _ _ => UInt32.toNat_inj.mp
  have hsub : (ids.map UInt32.toNat).toFinset ⊆ Finset.Icc 1 n := by
    intro k hk
    rw [List.mem_toFinset, List.mem_map] at hk
    obtain ⟨i, hi, rfl⟩ := hk
    exact Finset.mem_Icc.mpr (hids i hi)
  have hle := Finset.card_le_card hsub
  rw [List.toFinset_card_of_nodup hnd', List.length_map, Nat.card_Icc] at hle
  omega

/-- Where all observations of a prefix have ids between 1 and `n`, there are at
most `n` of them, and so there is room. -/
theorem hasRoom_of_ids {P : Type} [DecidableEq P] {tables : FamilyTables P} (h : TablesInv tables)
    {n : Nat} (hn : n < 2 ^ 32) {p : P} {peerId : PeerId}
    (hid : 1 ≤ peerId.toNat ∧ peerId.toNat ≤ n)
    (hids : ∀ j, tableEntry tables p j ≠ none → 1 ≤ j.toNat ∧ j.toNat ≤ n) :
    HasRoom tables p peerId := by
  intro record hr hnone
  have hlive := h.live p record hr
  have hnew := hlive.inv.rowsInv.peerEntry_eq_none.mp hnone
  -- the ids of the record and the new one are distinct ids of registered peers
  have hle := @length_le_of_ids n (peerId :: record.observations.map Observation.peerId) ?_ ?_
  · rw [List.length_cons, List.length_map] at hle
    omega
  · refine List.nodup_cons.mpr ⟨?_, hlive.inv.distinct⟩
    intro hmem
    obtain ⟨o, ho, heq⟩ := List.mem_map.mp hmem
    exact hnew o ho heq
  · intro i hi
    rcases List.mem_cons.mp hi with rfl | hi
    · exact hid
    · obtain ⟨o, ho, rfl⟩ := List.mem_map.mp hi
      refine hids o.peerId ?_
      rw [tableEntry_of_lookup hr, ne_eq, hlive.inv.rowsInv.peerEntry_eq_none]
      exact fun hall => hall o ho rfl

/-- A registered peer always has room at a prefix. -/
theorem StoreInv.hasRoom {S : Finset PeerInfo} {limit : Nat} {registry : PeerRegistry} {state : RoutingState}
    (h : StoreInv S limit registry state) {peerId : PeerId} (hreg : registry.contains peerId = true)
    (pfx : BinaryPrefix) : state.HasRoom peerId pfx := by
  obtain ⟨n, -, hids, hroom⟩ := h.numbered.counter
  have hn : n < 2 ^ 32 := Nat.lt_of_le_of_lt (Nat.le_of_add_right_le hroom) h.numbered.limit_lt
  cases pfx with
  | v4 p =>
    exact hasRoom_of_ids h.stored.v4 hn (hids peerId hreg)
      fun j hj => hids j (h.registered (.v4 p) j hj)
  | v6 p =>
    exact hasRoom_of_ids h.stored.v6 hn (hids peerId hreg)
      fun j hj => hids j (h.registered (.v6 p) j hj)

/-! ## One event -/

/-- Resolving a peer gives it an id and changes nothing that is stored. -/
theorem StoreInv.getOrAdd {S : Finset PeerInfo} {limit : Nat} {registry : PeerRegistry} {state : RoutingState}
    (h : StoreInv S limit registry state) {peer : PeerInfo} (hS : peer ∈ S) :
    StoreInv S limit (registry.getOrAdd peer).2 state ∧
      (registry.getOrAdd peer).2.byInfo.lookup peer = some (registry.getOrAdd peer).1 ∧
      peerMap (registry.getOrAdd peer).2 state = peerMap registry state := by
  have hnum := h.numbered.getOrAdd hS
  cases hp : registry.byInfo.lookup peer with
  | some peerId =>
    rw [getOrAdd_of_some hp]
    exact ⟨h, hp, rfl⟩
  | none =>
    have hfree := h.numbered.next_free hS hp
    rw [getOrAdd_of_none hp] at hnum ⊢
    refine ⟨⟨hnum, h.stored, ?_, h.canonical⟩, ?_, ?_⟩
    · intro pfx peerId hl
      exact (contains_bind ..).mpr (Or.inr (h.registered pfx peerId hl))
    · exact Finmap.lookup_insert _
    · funext ⟨pfx, q⟩
      show ((registry.byInfo.insert peer registry.nextPeerId).lookup q).bind _ = _
      rw [lookup_insert_eq]
      by_cases hq : q = peer
      · -- nothing is stored under the new id
        have hnone : live state (pfx, registry.nextPeerId) = none := by
          by_contra hl
          have hc := h.registered pfx _ hl
          rw [contains_eq_false.mpr hfree] at hc
          cases hc
        rw [if_pos hq, Option.bind_some, hnone, peerMap, hq, hp, Option.bind_none]
      · rw [if_neg hq]
        rfl

/-- Two peers are the same iff their ids are. -/
theorem byInfo_eq_iff {registry : PeerRegistry} (h : registry.Inverse)
    {peer q : PeerInfo} {i j : PeerId} (hp : registry.byInfo.lookup peer = some i)
    (hq : registry.byInfo.lookup q = some j) : j = i ↔ q = peer := by
  constructor
  · intro hj
    have hq' := (h j q).mpr hq
    rw [hj, (h i peer).mpr hp] at hq'
    exact (Option.some.inj hq').symm
  · intro hqp
    rw [hqp, hp] at hq
    exact (Option.some.inj hq).symm

/-- A write to the entry of a registered peer's id is a write to the entry of
the peer. -/
theorem peerMap_write {registry : PeerRegistry} {state state' : RoutingState}
    (h : registry.Inverse) {peer : PeerInfo} {peerId : PeerId}
    (hp : registry.byInfo.lookup peer = some peerId) {pfx : BinaryPrefix}
    {value : Option (UInt32 × UInt64)}
    (hlive : live state' = applyWrite (live state) ⟨(pfx, peerId), value⟩) :
    peerMap registry state' = applyWrite (peerMap registry state) ⟨(pfx, peer), value⟩ := by
  funext ⟨p, q⟩
  rw [applyWrite_apply, peerMap, peerMap, hlive]
  dsimp only
  cases hq : registry.byInfo.lookup q with
  | none =>
    have hne : (p, q) ≠ (pfx, peer) := by
      intro e
      rw [(Prod.mk.inj e).2, hp] at hq
      cases hq
    rw [if_neg hne, Option.bind_none, Option.bind_none]
  | some j =>
    rw [Option.bind_some, Option.bind_some, applyWrite_apply]
    have hiff : (p, j) = (pfx, peerId) ↔ (p, q) = (pfx, peer) := by
      rw [Prod.mk.injEq, Prod.mk.injEq]
      exact and_congr_right fun _ => byInfo_eq_iff h hp hq
    by_cases hk : (p, j) = (pfx, peerId)
    · rw [if_pos hk, if_pos (hiff.mp hk)]
    · rw [if_neg hk, if_neg fun e => hk (hiff.mpr e)]

/-- A write for a registered peer keeps the invariant and is a write of the map.
The routing state is only known through its `live` here. -/
theorem StoreInv.write {S : Finset PeerInfo} {limit : Nat} {registry : PeerRegistry}
    {state state' : RoutingState} (h : StoreInv S limit registry state) {peer : PeerInfo}
    {peerId : PeerId} (hp : registry.byInfo.lookup peer = some peerId) {pfx : BinaryPrefix}
    (hc : pfx.Canonical) {value : Option (UInt32 × UInt64)} (hs : StateInv state')
    (hlive : live state' = applyWrite (live state) ⟨(pfx, peerId), value⟩) :
    StoreInv S limit registry state' ∧
      peerMap registry state' = applyWrite (peerMap registry state) ⟨(pfx, peer), value⟩ := by
  -- an entry is the one written, or one from before
  have hcases : ∀ p j, live state' (p, j) ≠ none → (p = pfx ∧ j = peerId) ∨
      live state (p, j) ≠ none := by
    intro p j hl
    rw [hlive, applyWrite_apply] at hl
    by_cases hk : (p, j) = (pfx, peerId)
    · exact Or.inl (Prod.mk.inj hk)
    · rw [if_neg hk] at hl
      exact Or.inr hl
  refine ⟨⟨h.numbered, hs, ?_, ?_⟩, peerMap_write h.numbered.inverse hp hlive⟩
  · intro p j hl
    rcases hcases p j hl with ⟨-, rfl⟩ | hold
    · exact h.numbered.inverse.contains hp
    · exact h.registered p j hold
  · intro p j hl
    rcases hcases p j hl with ⟨rfl, -⟩ | hold
    · exact hc
    · exact h.canonical p j hold

/-! ## One message -/

section Message

variable (jsonParse : JsonParse) (net : Inet) (ord : HashOrders)

/-- What an event writes: the origin and timestamp announced, or nothing. -/
def eventValue (event : BgpEvent) : Option (UInt32 × UInt64) :=
  match event.type with
  | .announce => some (event.asn, event.timestamp)
  | .withdraw => none

/-- An event as a write, if its prefix text can be read. -/
def eventWrite (event : BgpEvent) : Option (Write PeerKey (UInt32 × UInt64)) :=
  match parsePrefix net event.prefixText with
  | .ok pfx => some ⟨(pfx, event.peer), eventValue event⟩
  | .error _ => none

/-- The writes of a message, in order. A text without a document writes
nothing. -/
def messageWrites (text : Bytes) : List (Write PeerKey (UInt32 × UInt64)) :=
  match messageEvents jsonParse text with
  | .ok events => events.filterMap (eventWrite net)
  | .error _ => []

/-- The peer a message comes from, when it is an UPDATE. -/
def messagePeer (text : Bytes) : Option PeerInfo :=
  match jsonParse text with
  | .ok outer => (updateData outer).map buildPeerInfo
  | .error _ => none

/-- The peers some messages name. -/
def namedPeers (messages : List Bytes) : Finset PeerInfo :=
  (messages.filterMap (messagePeer jsonParse)).toFinset

/-- `parse_prefix` accepts every prefix text the message emits. -/
def PrefixesAccepted (text : Bytes) : Prop :=
  ∀ events, messageEvents jsonParse text = .ok events →
    ∀ event ∈ events, Returns (parsePrefix net event.prefixText)

variable {jsonParse net ord}

/-- The peer of an event is the one the message names. -/
theorem messagePeer_of_mem {text : Bytes} {events : List BgpEvent}
    (h : messageEvents jsonParse text = .ok events) {event : BgpEvent} (hmem : event ∈ events) :
    messagePeer jsonParse text = some event.peer := by
  unfold messageEvents at h
  unfold messagePeer
  cases hj : jsonParse text with
  | error e =>
    rw [hj] at h
    cases e with
    | parseError what =>
      cases h
      cases hmem
    | outOfRange what => cases h
  | ok outer =>
    rw [hj] at h
    cases h
    obtain ⟨data, hd, hpeer⟩ := peer_of_mem_documentEvents hmem
    dsimp only
    rw [hd, hpeer, Option.map_some]

theorem card_namedPeers_le (messages : List Bytes) :
    (namedPeers jsonParse messages).card ≤ messages.length :=
  Nat.le_trans (List.toFinset_card_le _) (List.length_filterMap_le _ _)

/-- The peer of a message is among those named. -/
theorem mem_namedPeers {messages : List Bytes} {text : Bytes} (hmem : text ∈ messages)
    {peer : PeerInfo} (hp : messagePeer jsonParse text = some peer) :
    peer ∈ namedPeers jsonParse messages := by
  unfold namedPeers
  rw [List.mem_toFinset, List.mem_filterMap]
  exact ⟨text, hmem, hp⟩

/-- Every write of a message is to a key of the message's peer. -/
theorem peer_of_mem_messageWrites {text : Bytes} {w : Write PeerKey (UInt32 × UInt64)}
    (h : w ∈ messageWrites jsonParse net text) : messagePeer jsonParse text = some w.key.2 := by
  unfold messageWrites at h
  cases he : messageEvents jsonParse text with
  | error e =>
    rw [he] at h
    cases h
  | ok events =>
    rw [he] at h
    obtain ⟨event, hmem, hw⟩ := List.mem_filterMap.mp h
    rw [messagePeer_of_mem he hmem]
    unfold eventWrite at hw
    cases hpfx : parsePrefix net event.prefixText with
    | error e =>
      rw [hpfx] at hw
      cases hw
    | ok pfx =>
      rw [hpfx] at hw
      cases hw
      rfl

/-- One event with a parsed prefix is one write. -/
theorem apply_spec {S : Finset PeerInfo} {limit : Nat} {world : World}
    (h : StoreInv S limit world.registry world.state) {event : BgpEvent} {peerId : PeerId}
    (hp : world.registry.byInfo.lookup event.peer = some peerId) {pfx : BinaryPrefix}
    (hc : pfx.Canonical) :
    StoreInv S limit world.registry
        (world.apply ord event.type peerId pfx event.asn event.timestamp).state ∧
      peerMap world.registry
          (world.apply ord event.type peerId pfx event.asn event.timestamp).state =
        applyWrite (peerMap world.registry world.state) ⟨(pfx, event.peer), eventValue event⟩ := by
  unfold eventValue
  cases event.type with
  | announce =>
    have hroom := h.hasRoom (h.numbered.inverse.contains hp) pfx
    obtain ⟨hs, hlive⟩ := announce_spec ord h.stored hroom event.asn event.timestamp
    exact h.write hp hc hs hlive
  | withdraw =>
    obtain ⟨hs, hlive⟩ := withdraw_spec ord h.stored peerId pfx
    exact h.write hp hc hs hlive

/-- Events of one known peer are their writes. The induction is on the events,
and each of them keeps the registry as it is. -/
theorem applyEvents_spec {S : Finset PeerInfo} {limit : Nat} (peer : PeerInfo) (peerId : PeerId) :
    ∀ (events : List BgpEvent) (world : World), StoreInv S limit world.registry world.state →
    world.registry.byInfo.lookup peer = some peerId →
    (∀ event ∈ events, event.peer = peer ∧ Returns (parsePrefix net event.prefixText)) →
    ∃ world', (applyEvents net ord peerId events).run world = .ok () world' ∧
      StoreInv S limit world'.registry world'.state ∧
      peerMap world'.registry world'.state =
        applyWrites (peerMap world.registry world.state) (events.filterMap (eventWrite net)) := by
  intro events
  induction events with
  | nil =>
    intro world h _ _
    exact ⟨world, rfl, h, rfl⟩
  | cons event events ih =>
    intro world h hp hall
    obtain ⟨hpeer, pfx, hpfx⟩ := hall event List.mem_cons_self
    have hp' : world.registry.byInfo.lookup event.peer = some peerId := hpeer ▸ hp
    obtain ⟨hinv, hmap⟩ := @apply_spec ord S limit world h event peerId hp' pfx
      (parsePrefix_canonical hpfx)
    have hwrite : eventWrite net event = some ⟨(pfx, event.peer), eventValue event⟩ := by
      rw [eventWrite, hpfx]
    have hreg := @apply_registry ord world event.type peerId pfx event.asn event.timestamp
    rw [applyEvents_cons, run_bind_ok (applyEvent_of_ok hpfx peerId world)]
    obtain ⟨world', hrun, hinv', hmap'⟩ := ih
      (world.apply ord event.type peerId pfx event.asn event.timestamp) (hreg.symm ▸ hinv)
      (hreg.symm ▸ hp) fun e he => hall e (List.mem_cons_of_mem _ he)
    refine ⟨world', hrun, hinv', ?_⟩
    rw [hmap', hreg, hmap, List.filterMap_cons, hwrite]
    rfl

theorem countMessage_registry (world : World) (n : Nat) :
    (world.countMessage n).registry = world.registry := by
  unfold World.countMessage
  dsimp only
  split <;> rfl

theorem countMessage_state (world : World) (n : Nat) :
    (world.countMessage n).state = world.state := by
  unfold World.countMessage
  dsimp only
  split <;> rfl

/-- **One message is its list of writes.** Unless `json::parse` throws, the loop
body returns, keeps the invariant and performs the writes of the message. -/
theorem ingestMessage_spec {S : Finset PeerInfo} {limit : Nat} {world : World} {text : Bytes}
    (h : StoreInv S limit world.registry world.state)
    (hS : ∀ peer, messagePeer jsonParse text = some peer → peer ∈ S)
    (hacc : PrefixesAccepted jsonParse net text) {events : List BgpEvent}
    (hev : messageEvents jsonParse text = .ok events) :
    ∃ world', (ingestMessage jsonParse net ord text).run world = .ok () world' ∧
      StoreInv S limit world'.registry world'.state ∧
      peerMap world'.registry world'.state =
        applyWrites (peerMap world.registry world.state) (messageWrites jsonParse net text) := by
  have hwrites : messageWrites jsonParse net text = events.filterMap (eventWrite net) := by
    rw [messageWrites, hev]
  rw [ingestMessage_eq, hev, hwrites]
  cases events with
  | nil =>
    refine ⟨_, rfl, ?_, ?_⟩
    · rw [countMessage_registry, countMessage_state]
      exact h
    · rw [countMessage_registry, countMessage_state]
      rfl
  | cons event rest =>
    -- one id for the whole message is right because all its events are of one peer
    have hpeer : ∀ e ∈ event :: rest, e.peer = event.peer := by
      intro e he
      have hfirst := messagePeer_of_mem hev List.mem_cons_self
      have hother := messagePeer_of_mem hev he
      rw [hfirst] at hother
      exact (Option.some.inj hother).symm
    obtain ⟨hinv, hlook, hmap⟩ := h.getOrAdd
      (hS event.peer (messagePeer_of_mem hev List.mem_cons_self))
    obtain ⟨world', hrun, hinv', hmap'⟩ := @applyEvents_spec net ord S limit event.peer
      (world.receiveMessage.resolvePeer event.peer).1 (event :: rest)
      (world.receiveMessage.resolvePeer event.peer).2 hinv hlook
      fun e he => ⟨hpeer e he, hacc _ hev e he⟩
    dsimp only
    rw [hrun]
    refine ⟨_, rfl, ?_, ?_⟩
    · rw [countMessage_registry, countMessage_state]
      exact hinv'
    · rw [countMessage_registry, countMessage_state, hmap']
      exact congrArg (applyWrites · _) hmap

/-- A text `json::parse` does not swallow ends the loop. -/
theorem ingestMessage_error {text : Bytes} {e : Exception}
    (hev : messageEvents jsonParse text = .error e) (world : World) :
    (ingestMessage jsonParse net ord text).run world = .error e world.receiveMessage := by
  rw [ingestMessage_eq, hev]

end Message

/-! ## A run -/

section Run

variable (jsonParse : JsonParse) (net : Inet) (ord : HashOrders)

/-- `json::parse` throws the one exception on the text that the parser does not
catch. -/
def Overflows (text : Bytes) : Prop := ∃ what, jsonParse text = .error (.outOfRange what)

variable {jsonParse net ord}

/-- A text that does not make `json::parse` throw past the parser has a list of
events, perhaps empty. -/
theorem messageEvents_of_not_overflows {text : Bytes} (h : ¬ Overflows jsonParse text) :
    ∃ events, messageEvents jsonParse text = .ok events := by
  unfold messageEvents
  cases hj : jsonParse text with
  | ok outer => exact ⟨_, rfl⟩
  | error e =>
    cases e with
    | parseError what => exact ⟨_, rfl⟩
    | outOfRange what => exact absurd ⟨what, hj⟩ h

theorem messageEvents_of_overflows {text : Bytes} (h : Overflows jsonParse text) :
    ∃ e, messageEvents jsonParse text = .error e := by
  obtain ⟨what, hw⟩ := h
  exact ⟨.jsonOutOfRange what, by rw [messageEvents, hw]⟩

/-- A text whose document emits accepted prefix texts only. -/
theorem usable_of_parsed {text : Bytes} {document : Json} (hparse : jsonParse text = .ok document)
    (hacc : ∀ event ∈ documentEvents document, Returns (parsePrefix net event.prefixText)) :
    ¬ Overflows jsonParse text ∧ PrefixesAccepted jsonParse net text := by
  constructor
  · intro ⟨what, hw⟩
    rw [hparse] at hw
    cases hw
  · intro events hev
    rw [messageEvents, hparse] at hev
    cases hev
    exact hacc

/-- A run is its first message and the run of the others. -/
theorem ingest_cons (text : Bytes) (messages : List Bytes) :
    ingest jsonParse net ord (text :: messages) =
      (do ingestMessage jsonParse net ord text
          ingest jsonParse net ord messages) := by
  rw [ingest, List.forM_cons, ingest]

/-- **A run is the writes of its messages.** Without overflows it returns, keeps
the invariant and leaves the map its writes make of the one it found. -/
theorem ingest_spec {S : Finset PeerInfo} {limit : Nat} : ∀ (messages : List Bytes) (world : World),
    StoreInv S limit world.registry world.state →
    (∀ text ∈ messages, ∀ peer, messagePeer jsonParse text = some peer → peer ∈ S) →
    (∀ text ∈ messages, PrefixesAccepted jsonParse net text) →
    (∀ text ∈ messages, ¬ Overflows jsonParse text) →
    ∃ world', (ingest jsonParse net ord messages).run world = .ok () world' ∧
      StoreInv S limit world'.registry world'.state ∧
      peerMap world'.registry world'.state =
        applyWrites (peerMap world.registry world.state)
          (messages.flatMap (messageWrites jsonParse net)) := by
  intro messages
  induction messages with
  | nil =>
    intro world h _ _ _
    exact ⟨world, rfl, h, rfl⟩
  | cons text messages ih =>
    intro world h hS hacc hover
    obtain ⟨events, hev⟩ := messageEvents_of_not_overflows (hover text List.mem_cons_self)
    obtain ⟨world₁, hrun, h₁, hmap⟩ := @ingestMessage_spec jsonParse net ord S limit world text h
      (hS text List.mem_cons_self) (hacc text List.mem_cons_self) events hev
    obtain ⟨world', hrun', h', hmap'⟩ := ih world₁ h₁
      (fun t ht => hS t (List.mem_cons_of_mem _ ht))
      (fun t ht => hacc t (List.mem_cons_of_mem _ ht))
      (fun t ht => hover t (List.mem_cons_of_mem _ ht))
    refine ⟨world', ?_, h', ?_⟩
    · rw [ingest_cons, run_bind_ok hrun, hrun']
    · rw [hmap', hmap, List.flatMap_cons, applyWrites_append]

end Run

/-! ## Two messages -/

/-- A `json::parse` for the messages of two peers. -/
def twoPeersParse : JsonParse :=
  parseListed [(rrc00Text, rrc00Document), (rrc10Text, rrc10Document)]

theorem twoPeersParse_rrc00 : twoPeersParse rrc00Text = .ok rrc00Document :=
  parseListed_cons_self _ _ _

theorem twoPeersParse_rrc10 : twoPeersParse rrc10Text = .ok rrc10Document := by
  have hne : rrc10Text ≠ rrc00Text := by decide +kernel
  unfold twoPeersParse
  rw [parseListed_cons_ne hne, parseListed_cons_self]

theorem messagePeer_rrc00 : messagePeer twoPeersParse rrc00Text =
    some ⟨bytes "rrc00", bytes "192.0.2.1", 64500⟩ := by
  rw [messagePeer, twoPeersParse_rrc00]
  decide

theorem messagePeer_rrc10 : messagePeer twoPeersParse rrc10Text =
    some ⟨bytes "rrc10", bytes "198.51.100.2", 64510⟩ := by
  rw [messagePeer, twoPeersParse_rrc10]
  decide

/-- Both messages can be ingested. -/
theorem twoPeers_usable : ∀ text ∈ [rrc00Text, rrc10Text],
    ¬ Overflows twoPeersParse text ∧ PrefixesAccepted twoPeersParse Inet.standard text := by
  intro text hmem
  simp only [List.mem_cons, List.not_mem_nil, or_false] at hmem
  rcases hmem with h | h
  · rw [h]
    exact usable_of_parsed twoPeersParse_rrc00 (by decide)
  · rw [h]
    exact usable_of_parsed twoPeersParse_rrc10 (by decide)

end ASNPrefixMap.Ingest
