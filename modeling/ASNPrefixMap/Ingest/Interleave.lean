import ASNPrefixMap.Ingest.Failure

/-!
# Interleavings of the peers' streams

Two message sequences that differ only in how the streams of different peers are
interleaved leave the same map and the same aggregated table
(`ingest_interleaving`), although the peers may get other ids. A key of the map
belongs to one peer, so the writes to it are those of that peer's stream
(`writesTo_flatMap`), and a last-writer-wins map depends on nothing else.

The ids of the two runs differ, and so do their records, whose arrays are filled
in another order. The statement is therefore about what does not show them: the
map by peer and the aggregated table.
-/

namespace ASNPrefixMap.Ingest

open Lib Prefix Peer Routing Stats
open ASNPrefixMap.Parser

variable {jsonParse : JsonParse} {net : Inet}

/-- The messages of one peer. -/
def streamOf (jsonParse : JsonParse) (peer : PeerInfo) (messages : List Bytes) : List Bytes :=
  messages.filter fun text => messagePeer jsonParse text = some peer

/-- A peer's stream is the messages that name it. -/
theorem mem_streamOf {peer : PeerInfo} {messages : List Bytes} {text : Bytes} :
    text ∈ streamOf jsonParse peer messages ↔
      text ∈ messages ∧ messagePeer jsonParse text = some peer := by
  unfold streamOf
  rw [List.mem_filter, decide_eq_true_eq]

/-- The writes to a peer's key come from the peer's stream. -/
theorem writesTo_flatMap (key : PeerKey) : ∀ (messages : List Bytes),
    writesTo key (messages.flatMap (messageWrites jsonParse net)) =
      writesTo key ((streamOf jsonParse key.2 messages).flatMap (messageWrites jsonParse net)) := by
  intro messages
  induction messages with
  | nil => rfl
  | cons text messages ih =>
    unfold streamOf at ih ⊢
    by_cases hp : messagePeer jsonParse text = some key.2
    · rw [List.filter_cons_of_pos (by simpa using hp), List.flatMap_cons, List.flatMap_cons, writesTo,
        writesTo, List.filter_append, List.filter_append]
      exact congrArg _ ih
    · -- no write of this message is to the key
      have hnone : writesTo key (messageWrites jsonParse net text) = [] := by
        unfold writesTo
        rw [List.filter_eq_nil_iff]
        intro w hw heq
        have hwp := peer_of_mem_messageWrites hw
        rw [of_decide_eq_true heq] at hwp
        exact hp hwp
      rw [List.filter_cons_of_neg (by simpa using hp), List.flatMap_cons, writesTo,
        List.filter_append]
      show writesTo key (messageWrites jsonParse net text) ++ _ = _
      rw [hnone, List.nil_append]
      exact ih

/-- Where every prefix text is accepted, a run returns iff no text makes
`json::parse` throw past the parser. -/
theorem ingest_returns_iff {ord : HashOrders} {messages : List Bytes} {world : World}
    (hacc : ∀ text ∈ messages, PrefixesAccepted jsonParse net text) :
    (∃ world', (ingest jsonParse net ord messages).run world = .ok () world') ↔
      ∀ text ∈ messages, ¬ Overflows jsonParse text := by
  rw [ingest_survives_iff]
  exact forall₂_congr fun text hmem => and_iff_left (hacc text hmem)

/-- **The interleaving does not matter.** For two sequences with the same stream
for each peer, an ingest from an empty registry and state returns exactly when
`json::parse` does not throw past the parser, and two that return leave the same
map from peer and prefix to origin and timestamp and the same aggregated table.
The ids of the peers may differ, for they are given out in the order of arrival;
the winners do not depend on them. -/
theorem ingest_interleaving {A B : List Bytes}
    (hstreams : ∀ peer, streamOf jsonParse peer A = streamOf jsonParse peer B)
    (haccepted : ∀ text ∈ A, PrefixesAccepted jsonParse net text)
    (hpeers : (namedPeers jsonParse A).card < 2 ^ 32)
    (ordA ordB ord : HashOrders) (growthA growthB : GrowthStatsTracker) :
    ((∃ world, (ingest jsonParse net ordA A).run { growthStats := growthA } = .ok () world) ↔
        ∀ text ∈ A, ¬ Overflows jsonParse text) ∧
      ((∃ world, (ingest jsonParse net ordB B).run { growthStats := growthB } = .ok () world) ↔
        ∀ text ∈ B, ¬ Overflows jsonParse text) ∧
      ∀ worldA worldB,
        (ingest jsonParse net ordA A).run { growthStats := growthA } = .ok () worldA →
        (ingest jsonParse net ordB B).run { growthStats := growthB } = .ok () worldB →
        peerView ord worldA.registry worldA.state = peerView ord worldB.registry worldB.state ∧
          worldA.state.selected = worldB.state.selected := by
  -- a message of `B` with a peer is a message of `A`
  have hBA : ∀ text ∈ B, ∀ peer, messagePeer jsonParse text = some peer → text ∈ A := by
    intro text hB peer hp
    have hmem : text ∈ streamOf jsonParse peer B := mem_streamOf.mpr ⟨hB, hp⟩
    rw [← hstreams peer] at hmem
    exact (mem_streamOf.mp hmem).1
  have hSA : ∀ text ∈ A, ∀ peer, messagePeer jsonParse text = some peer →
      peer ∈ namedPeers jsonParse A := fun text hA peer hp => mem_namedPeers hA hp
  have hSB : ∀ text ∈ B, ∀ peer, messagePeer jsonParse text = some peer →
      peer ∈ namedPeers jsonParse A := fun text hB peer hp =>
    mem_namedPeers (hBA text hB peer hp) hp
  have haccB : ∀ text ∈ B, PrefixesAccepted jsonParse net text := by
    intro text hB events hev event hmem
    have hA := hBA text hB event.peer (messagePeer_of_mem hev hmem)
    exact haccepted text hA events hev event hmem
  refine ⟨ingest_returns_iff haccepted, ingest_returns_iff haccB, ?_⟩
  intro worldA worldB hA hB
  obtain ⟨hinvA, hmapA⟩ := ingest_reached hpeers hSA hA
  obtain ⟨hinvB, hmapB⟩ := ingest_reached hpeers hSB hB
  -- the ids may differ, the writes to each peer's key do not
  have hwrites : applyWrites (peerMap {} {}) (A.flatMap (messageWrites jsonParse net)) =
      applyWrites (peerMap {} {}) (B.flatMap (messageWrites jsonParse net)) := by
    refine applyWrites_congr ?_ _
    intro key
    rw [writesTo_flatMap, writesTo_flatMap key B, hstreams]
  exact view_eq_of_peerMap_eq hinvA hinvB (hmapA.trans (hwrites.trans hmapB.symm)) ord ord

/-! ## Two peers -/

theorem ingest_interleaving_two_peers : ∃ worldA worldB,
    (ingest twoPeersParse Inet.standard .ascending [rrc00Text, rrc10Text]).run
        { growthStats := .start {} 0 } = .ok () worldA ∧
      (ingest twoPeersParse Inet.standard .ascending [rrc10Text, rrc00Text]).run
        { growthStats := .start {} 0 } = .ok () worldB ∧
      peerView .ascending worldA.registry worldA.state =
        peerView .ascending worldB.registry worldB.state ∧
      worldA.state.selected = worldB.state.selected := by
  have hstreams : ∀ peer, streamOf twoPeersParse peer [rrc00Text, rrc10Text] =
      streamOf twoPeersParse peer [rrc10Text, rrc00Text] := by
    intro peer
    have hdistinct : ¬ (messagePeer twoPeersParse rrc00Text = some peer ∧
        messagePeer twoPeersParse rrc10Text = some peer) := by
      rw [messagePeer_rrc00, messagePeer_rrc10]
      intro ⟨h₀, h₁⟩
      exact absurd (h₀.trans h₁.symm) (by decide)
    unfold streamOf
    simp only [List.filter_cons, List.filter_nil, decide_eq_true_eq]
    by_cases h₀ : messagePeer twoPeersParse rrc00Text = some peer
    · have h₁ : ¬ messagePeer twoPeersParse rrc10Text = some peer := fun h₁ => hdistinct ⟨h₀, h₁⟩
      simp only [if_pos h₀, if_neg h₁]
    · simp only [if_neg h₀]
  have hpeers : (namedPeers twoPeersParse [rrc00Text, rrc10Text]).card < 2 ^ 32 :=
    Nat.lt_of_le_of_lt (card_namedPeers_le _) (by decide)
  obtain ⟨hA, hB, hsame⟩ := ingest_interleaving hstreams
    (fun text hmem => (twoPeers_usable text hmem).2) hpeers .ascending .ascending
    .ascending (.start {} 0) (.start {} 0)
  obtain ⟨worldA, hworldA⟩ := hA.mpr fun text hmem => (twoPeers_usable text hmem).1
  obtain ⟨worldB, hworldB⟩ := hB.mpr fun text hmem =>
    (twoPeers_usable text ((List.Perm.swap _ _ []).mem_iff.mp hmem)).1
  exact ⟨worldA, worldB, hworldA, hworldB, hsame worldA worldB hworldA hworldB⟩

end ASNPrefixMap.Ingest
