import ASNPrefixMap.Ingest.Failure
import ASNPrefixMap.Ingest.Record
import ASNPrefixMap.Routing.Export

/-!
# What the tables say about the messages

The exported tables need not be explained by ids, records and counters: they are
a vote of the peers. The last word of a peer on a prefix is the announcement or
withdrawal it sent last (`lastWords`), and a peer whose last word announces the
prefix has one vote, for the origin it names (`peerVotes`). A store that holds
the last words of some messages (`Holds`) exports the winners, and nothing else
(`Holds.exportTables`).

This is the specification of the program as a whole, in terms of its input:
`TablesOf` mentions messages, peers and rows, and nothing that the program
keeps.
-/

namespace ASNPrefixMap.Ingest

open Lib Prefix Peer Routing
open ASNPrefixMap.Parser

section Words

variable (jsonParse : JsonParse) (net : Inet)

/-- What the peers have said last, of each prefix. -/
def lastWords (texts : List Bytes) : PeerKey → Option (UInt32 × UInt64) :=
  applyWrites (fun _ => none) (texts.flatMap (messageWrites jsonParse net))

/-- The peers whose last word on the prefix names the origin. -/
def peerVotes (texts : List Bytes) (pfx : BinaryPrefix) (asn : UInt32) : Nat :=
  ((namedPeers jsonParse texts).filter fun peer =>
    (lastWords jsonParse net texts (pfx, peer)).map Prod.fst = some asn).card

/-- The rows of the two tables that some messages make: which prefixes are on
them, with which origin, and that the second table is the first one read the
other way. -/
structure TablesOf (texts : List Bytes) (prefixRows : List (Bytes × UInt32))
    (asnRows : List (UInt32 × List Bytes)) : Prop where
  /-- A prefix that is announced by the last word of a peer is on one line, and
  no other is, -/
  announced : ∀ pfx text, pfx.toString net = .ok text →
    (text ∈ prefixRows.map Prod.fst ↔ ∃ peer, lastWords jsonParse net texts (pfx, peer) ≠ none)
  once : (prefixRows.map Prod.fst).Nodup
  /-- with the origin that most of these peers name, the smallest one among
  equals. -/
  elected : ∀ row ∈ prefixRows, ∃ pfx, pfx.toString net = .ok row.1 ∧
    Wins (peerVotes jsonParse net texts pfx) row.2
  inverse : ∀ text asn, (text, asn) ∈ prefixRows ↔ ∃ row ∈ asnRows, row.1 = asn ∧ text ∈ row.2
  asnOnce : (asnRows.map Prod.fst).Nodup
  asnUsed : ∀ row ∈ asnRows, row.2 ≠ []
  increasing : ∀ row ∈ asnRows, row.2.Pairwise (· < ·)

/-- A store that holds the last words in some messages, with fewer ids than
messages. -/
def Holds (texts : List Bytes) (registry : PeerRegistry) (state : RoutingState) : Prop :=
  ∃ S limit, limit ≤ texts.length ∧ StoreInv S limit registry state ∧
    peerMap registry state = lastWords jsonParse net texts

variable {jsonParse net}

theorem lastWords_append (texts texts' : List Bytes) :
    lastWords jsonParse net (texts ++ texts') =
      applyWrites (lastWords jsonParse net texts) (texts'.flatMap (messageWrites jsonParse net)) := by
  unfold lastWords
  rw [List.flatMap_append, applyWrites_append]

/-- Who has said something was named. -/
theorem named_of_lastWords {texts : List Bytes} {key : PeerKey}
    (h : lastWords jsonParse net texts key ≠ none) : key.2 ∈ namedPeers jsonParse texts := by
  by_contra hunnamed
  refine h (applyWrites_of_notMem (fun w hw hkey => hunnamed ?_) _)
  obtain ⟨text, htext, hmem⟩ := List.mem_flatMap.mp hw
  exact mem_namedPeers htext (hkey ▸ peer_of_mem_messageWrites hmem)

end Words

section Store

variable {jsonParse : JsonParse} {net : Inet} {texts : List Bytes} {S : Finset PeerInfo} {limit : Nat}
  {registry : PeerRegistry} {state : RoutingState}

/-- The loop performs the writes of the messages it ingests. -/
theorem Loop.storeInv {start world : World} {log : LoopLog} (h : Loop jsonParse net start log world)
    (hstart : StoreInv S limit start.registry start.state)
    (hS : namedPeers jsonParse log.texts ⊆ S) :
    StoreInv S limit world.registry world.state ∧
      peerMap world.registry world.state = applyWrites (peerMap start.registry start.state)
        (log.texts.flatMap (messageWrites jsonParse net)) := by
  induction h with
  | start => exact ⟨hstart, rfl⟩
  | @message log world world' ord text _ hrun ih =>
    have hbefore : namedPeers jsonParse log.texts ⊆ S := by
      refine Finset.Subset.trans (fun peer hpeer => ?_) hS
      obtain ⟨text', htext', hp⟩ := List.mem_filterMap.mp (List.mem_toFinset.mp hpeer)
      exact mem_namedPeers (List.mem_append_left _ htext') hp
    obtain ⟨hinv, hmap⟩ := ih hbefore
    have hnamed : ∀ peer, messagePeer jsonParse text = some peer → peer ∈ S := fun peer hp =>
      hS (mem_namedPeers (List.mem_append_right _ (List.mem_singleton_self text)) hp)
    -- a message that was ingested without error has events with accepted prefix texts
    obtain ⟨hover, hacc⟩ := usable_of_ingestMessage_ok hrun
    obtain ⟨events, hev⟩ := messageEvents_of_not_overflows hover
    obtain ⟨world₁, hrun₁, hinv₁, hmap₁⟩ :=
      @ingestMessage_spec jsonParse net ord S limit world text hinv hnamed hacc events hev
    rw [hrun] at hrun₁
    cases hrun₁
    refine ⟨hinv₁, ?_⟩
    dsimp only
    rw [hmap₁, hmap, List.flatMap_append, applyWrites_append, List.flatMap_singleton]
  | sample now timestampMs _ ih => exact ih hS

/-- What the loop has ingested could be ingested. -/
theorem Loop.usable {start world : World} {log : LoopLog} (h : Loop jsonParse net start log world) :
    ∀ text ∈ log.texts, ¬ Overflows jsonParse text ∧ PrefixesAccepted jsonParse net text := by
  induction h with
  | start => exact fun text hmem => absurd hmem List.not_mem_nil
  | message ord text _ hrun ih =>
    intro text' hmem
    rcases List.mem_append.mp hmem with hmem | hmem
    · exact ih text' hmem
    · rw [List.mem_singleton.mp hmem]
      exact usable_of_ingestMessage_ok hrun
  | sample now timestampMs _ ih => exact ih

/-- Going on from a store that has room for the peers to come. -/
theorem Loop.holds {before : List Bytes} {start world : World} {log : LoopLog}
    (h : Loop jsonParse net start log world)
    (hstart : StoreInv (namedPeers jsonParse log.texts) limit start.registry start.state)
    (hlimit : limit ≤ before.length + log.texts.length)
    (hmap : peerMap start.registry start.state = lastWords jsonParse net before) :
    Holds jsonParse net (before ++ log.texts) world.registry world.state := by
  obtain ⟨hinv, hwritten⟩ := h.storeInv hstart (Finset.Subset.refl _)
  refine ⟨_, limit, ?_, hinv, ?_⟩
  · rw [List.length_append]
    exact hlimit
  · rw [hwritten, hmap, lastWords_append]

theorem peerMap_empty : peerMap {} {} = lastWords jsonParse net [] := rfl

/-- The stored observations of a prefix are the last words of the peers. -/
theorem StoreInv.mem_votes (h : StoreInv S limit registry state)
    (hmap : peerMap registry state = lastWords jsonParse net texts) (pfx : BinaryPrefix)
    (asn : UInt32) (peer : PeerInfo) :
    (lastWords jsonParse net texts (pfx, peer)).map Prod.fst = some asn ↔
      ∃ peerId, registry.byId.lookup peerId = some peer ∧
        ∃ t, live state (pfx, peerId) = some (asn, t) := by
  rw [← hmap, Option.map_eq_some_iff]
  constructor
  · rintro ⟨⟨a, t⟩, hvalue, rfl⟩
    obtain ⟨peerId, hpeer, hlive⟩ := (peerMap_eq_some h pfx peer (a, t)).mp hvalue
    exact ⟨peerId, hpeer, t, hlive⟩
  · rintro ⟨peerId, hpeer, t, hlive⟩
    exact ⟨(asn, t), (peerMap_eq_some h pfx peer (asn, t)).mpr ⟨peerId, hpeer, hlive⟩, rfl⟩

/-- The peers of the stored observations of a prefix with an origin, looked up
by their ids. -/
def voters (ord : HashOrders) (registry : PeerRegistry) (state : RoutingState) (pfx : BinaryPrefix)
    (asn : UInt32) : List (Option PeerInfo) :=
  ((state.storedObservations ord).filter fun o => o.pfx = pfx ∧ o.observation.originAsn = asn).map
    fun o => registry.byId.lookup o.observation.peerId

/-- Every stored observation is an entry of the map, and its id is that of a
peer. -/
theorem StoreInv.exists_peer (h : StoreInv S limit registry state) {ord : HashOrders}
    {o : StoredObservation} (ho : o ∈ state.storedObservations ord) :
    live state (o.pfx, o.observation.peerId) = some o.value ∧
      ∃ peer, registry.byId.lookup o.observation.peerId = some peer := by
  have hlive : live state (o.pfx, o.observation.peerId) = some o.value :=
    (mem_storedObservations h.stored ord o).mp ho
  refine ⟨hlive, Option.isSome_iff_exists.mp (h.registered o.pfx o.observation.peerId ?_)⟩
  rw [hlive]
  exact Option.some_ne_none _

/-- Nobody votes twice. -/
theorem StoreInv.nodup_voters (h : StoreInv S limit registry state) (ord : HashOrders)
    (pfx : BinaryPrefix) (asn : UInt32) : (voters ord registry state pfx asn).Nodup := by
  have hkeys := nodup_keys_storedObservations h.stored ord
  unfold voters
  refine List.Nodup.map_on (fun o ho o' ho' hname => ?_) (hkeys.of_map _ |>.filter _)
  obtain ⟨hmem, hcond⟩ := List.mem_filter.mp ho
  obtain ⟨hmem', hcond'⟩ := List.mem_filter.mp ho'
  have hpfx := (of_decide_eq_true hcond).1.trans (of_decide_eq_true hcond').1.symm
  obtain ⟨-, peer, hpeer⟩ := h.exists_peer hmem
  have hid := h.numbered.inverse.peer_injective hpeer (hname ▸ hpeer)
  exact List.inj_on_of_nodup_map hkeys hmem hmem' (Prod.ext hpfx hid)

/-- The voters for an origin are the peers whose last word names it. -/
theorem StoreInv.mem_voters (h : StoreInv S limit registry state)
    (hmap : peerMap registry state = lastWords jsonParse net texts) (ord : HashOrders)
    (pfx : BinaryPrefix) (asn : UInt32) (name : Option PeerInfo) :
    name ∈ voters ord registry state pfx asn ↔
      ∃ peer, (lastWords jsonParse net texts (pfx, peer)).map Prod.fst = some asn ∧
        some peer = name := by
  unfold voters
  rw [List.mem_map]
  constructor
  · rintro ⟨o, ho, rfl⟩
    obtain ⟨hmem, hcond⟩ := List.mem_filter.mp ho
    obtain ⟨rfl, rfl⟩ := of_decide_eq_true hcond
    obtain ⟨hlive, peer, hpeer⟩ := h.exists_peer hmem
    exact ⟨peer, (h.mem_votes hmap o.pfx o.observation.originAsn peer).mpr ⟨_, hpeer, _, hlive⟩,
      hpeer.symm⟩
  · rintro ⟨peer, hword, rfl⟩
    obtain ⟨peerId, hid, t, hlive⟩ := (h.mem_votes hmap pfx asn peer).mp hword
    have hmem : (⟨pfx, ⟨peerId, asn⟩, t⟩ : StoredObservation) ∈ state.storedObservations ord :=
      (mem_storedObservations h.stored ord _).mpr hlive
    exact ⟨_, List.mem_filter.mpr ⟨hmem, decide_eq_true ⟨rfl, rfl⟩⟩, hid⟩

/-- **One peer, one vote.** The observations stored for a prefix and an origin
are as many as the peers whose last word says so. -/
theorem StoreInv.votes_eq (h : StoreInv S limit registry state)
    (hmap : peerMap registry state = lastWords jsonParse net texts) (ord : HashOrders)
    (pfx : BinaryPrefix) (asn : UInt32) :
    votes (state.storedObservations ord) pfx asn = peerVotes jsonParse net texts pfx asn := by
  have hvotes : votes (state.storedObservations ord) pfx asn =
      (voters ord registry state pfx asn).length := by
    unfold votes voters
    rw [List.length_map, List.countP_eq_length_filter]
  have hnames : (voters ord registry state pfx asn).toFinset =
      ((namedPeers jsonParse texts).filter fun peer =>
        (lastWords jsonParse net texts (pfx, peer)).map Prod.fst = some asn).map .some := by
    ext name
    rw [List.mem_toFinset, h.mem_voters hmap, Finset.mem_map]
    refine exists_congr fun peer => and_congr_left fun _ => ?_
    rw [Finset.mem_filter]
    refine (and_iff_right_of_imp fun hword => ?_).symm
    have hspoken : lastWords jsonParse net texts (pfx, peer) ≠ none := fun hnone => by
      rw [hnone] at hword
      cases hword
    exact named_of_lastWords hspoken
  rw [hvotes, ← List.toFinset_card_of_nodup (h.nodup_voters ord pfx asn), hnames, Finset.card_map]
  rfl

/-- The aggregated origin of a prefix is the peers' choice. -/
theorem StoreInv.selected_iff (h : StoreInv S limit registry state)
    (hmap : peerMap registry state = lastWords jsonParse net texts) (pfx : BinaryPrefix)
    (asn : UInt32) : state.selected pfx = some asn ↔ Wins (peerVotes jsonParse net texts pfx) asn := by
  have hvotes : votes (state.storedObservations .ascending) pfx = peerVotes jsonParse net texts pfx :=
    funext (h.votes_eq hmap .ascending pfx)
  rw [h.stored.selected_iff .ascending, PluralityOrigin, hvotes]

/-- A prefix has an aggregated origin iff the last word of a peer announces
it. -/
theorem StoreInv.exists_selected_iff (h : StoreInv S limit registry state)
    (hmap : peerMap registry state = lastWords jsonParse net texts) (pfx : BinaryPrefix) :
    (∃ asn, state.selected pfx = some asn) ↔
      ∃ peer, lastWords jsonParse net texts (pfx, peer) ≠ none := by
  constructor
  · rintro ⟨asn, hselected⟩
    have hvoted : 0 < peerVotes jsonParse net texts pfx asn :=
      ((h.selected_iff hmap pfx asn).mp hselected).voted
    obtain ⟨peer, hpeer⟩ := Finset.card_pos.mp hvoted
    refine ⟨peer, fun hnone => ?_⟩
    have hword := (Finset.mem_filter.mp hpeer).2
    rw [hnone] at hword
    cases hword
  · rintro ⟨peer, hword⟩
    obtain ⟨⟨asn, t⟩, hvalue⟩ := Option.ne_none_iff_exists'.mp hword
    rw [← hmap] at hvalue
    obtain ⟨peerId, -, hlive⟩ := (peerMap_eq_some h pfx peer (asn, t)).mp hvalue
    have hstored : (⟨pfx, ⟨peerId, asn⟩, t⟩ : StoredObservation) ∈ state.storedObservations .ascending :=
      (mem_storedObservations h.stored .ascending _).mpr hlive
    exact h.stored.exists_selected hstored

/-- **The tables are the vote of the peers**, by their last words. -/
theorem Holds.exportTables (hnet : net.TellsApart) (h : Holds jsonParse net texts registry state)
    (ord : ExportOrders) :
    ∃ prefixRows asnRows,
      state.exportTables net ord = .ok (unlines (prefixRows.map prefixLine),
        unlines (asnRows.map fun row => asnLine row.1 row.2)) ∧
      TablesOf jsonParse net texts prefixRows asnRows := by
  obtain ⟨S, limit, -, hinv, hmap⟩ := h
  choose printed hprinted using hnet.toString_eq_ok
  have hinjective : Function.Injective printed := fun p q heq =>
    hnet.toString_inj (hprinted p) (heq ▸ hprinted q)
  have hnodup := nodup_exportedPairs hinjective ord state
  refine ⟨_, _, exportTables_eq hprinted ord state,
    { announced := ?_, once := hnodup, elected := ?_, inverse := fun _ _ => mem_pairs_iff_asnTable,
      asnOnce := nodup_asnTable, asnUsed := ?_, increasing := increasing_asnTable hnodup }⟩
  · intro pfx text hpfx
    obtain rfl : printed pfx = text := Except.ok.inj ((hprinted pfx).symm.trans hpfx)
    rw [← hinv.exists_selected_iff hmap, List.mem_map]
    constructor
    · rintro ⟨⟨text, asn⟩, hrow, htext⟩
      obtain ⟨q, rfl, hasn⟩ := mem_exportedPairs.mp hrow
      exact ⟨asn, hinjective htext ▸ hasn⟩
    · rintro ⟨asn, hasn⟩
      exact ⟨(printed pfx, asn), mem_exportedPairs.mpr ⟨pfx, rfl, hasn⟩, rfl⟩
  · rintro ⟨text, asn⟩ hrow
    obtain ⟨pfx, rfl, hasn⟩ := mem_exportedPairs.mp hrow
    exact ⟨pfx, hprinted pfx, (hinv.selected_iff hmap pfx asn).mp hasn⟩
  · intro row hrow
    obtain ⟨hsorted, hne⟩ := mem_asnTable.mp hrow
    obtain ⟨text, htext⟩ := List.exists_mem_of_ne_nil _ hne
    rw [hsorted]
    exact List.ne_nil_of_mem (mem_sortTexts.mpr htext)

end Store

end ASNPrefixMap.Ingest
