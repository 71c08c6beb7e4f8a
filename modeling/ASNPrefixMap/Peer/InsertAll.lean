import ASNPrefixMap.Peer.RegistryInv

/-!
# Registering a list of peers

A snapshot is loaded by one `insert_with_id` after the other. `FreshFor` is the
condition under which none of them throws, `insertAll` the registry they leave:
it holds the old pairs and the new ones (`lookup_byId_insertAll`), its maps stay
inverse to each other, and its counter stays one past the largest id
(`counter_insertAll`), so peers that are added afterwards get ids that no pair
of the list has (`numbered_insertAll`).

The loop of the source inserts one pair after the other and ends with the first
exception; here the registry it leaves is written down for a list of which every
pair is accepted. The order of the list is the order in which the loader walks
its map of peers, so `insertAll_perm` is what makes it immaterial. The counter
is the one thing that can tell two orders apart: past the last id it starts
again at 0.
-/

namespace ASNPrefixMap.Peer

open Lib

/-- No id and no peer occurs twice in the list, and none is registered.
`insert_with_id` checks just this, one pair at a time. -/
structure FreshFor (registry : PeerRegistry) (peers : List (PeerId × PeerInfo)) : Prop where
  ids : (peers.map Prod.fst).Nodup
  infos : (peers.map Prod.snd).Nodup
  newIds : ∀ peer ∈ peers, registry.byId.lookup peer.1 = none
  newInfos : ∀ peer ∈ peers, registry.byInfo.lookup peer.2 = none

/-- The registry after `insert_with_id` with each pair, if none of them
throws. -/
def insertAll (registry : PeerRegistry) (peers : List (PeerId × PeerInfo)) : PeerRegistry :=
  peers.foldl (fun registry peer => registry.bind peer.1 peer.2 (registry.counterPast peer.1))
    registry

/-- For an empty registry the list only has to be free of repetitions. -/
theorem freshFor_empty {peers : List (PeerId × PeerInfo)} (hids : (peers.map Prod.fst).Nodup)
    (hinfos : (peers.map Prod.snd).Nodup) : FreshFor {} peers :=
  ⟨hids, hinfos, fun _ _ => rfl, fun _ _ => rfl⟩

theorem byId_bind_eq_none {registry : PeerRegistry} {peerId i : PeerId} {peer : PeerInfo}
    {next : PeerId} : (registry.bind peerId peer next).byId.lookup i = none ↔
      i ≠ peerId ∧ registry.byId.lookup i = none := by
  show (registry.byId.insert peerId peer).lookup i = none ↔ _
  rw [lookup_insert_eq]
  by_cases hi : i = peerId
  · simp [hi]
  · simp [hi]

theorem byInfo_bind_eq_none {registry : PeerRegistry} {peerId : PeerId} {peer p : PeerInfo}
    {next : PeerId} : (registry.bind peerId peer next).byInfo.lookup p = none ↔
      p ≠ peer ∧ registry.byInfo.lookup p = none := by
  show (registry.byInfo.insert peer peerId).lookup p = none ↔ _
  rw [lookup_insert_eq]
  by_cases hp : p = peer
  · simp [hp]
  · simp [hp]

/-- The first pair has to be free, and the rest has to be fresh after it. The
induction over the list goes by this. -/
theorem freshFor_cons {registry : PeerRegistry} {peer : PeerId × PeerInfo}
    {peers : List (PeerId × PeerInfo)} (next : PeerId) :
    FreshFor registry (peer :: peers) ↔
      (registry.byId.lookup peer.1 = none ∧ registry.byInfo.lookup peer.2 = none) ∧
        FreshFor (registry.bind peer.1 peer.2 next) peers := by
  constructor
  · intro h
    have hids := List.nodup_cons.mp h.ids
    have hinfos := List.nodup_cons.mp h.infos
    refine ⟨⟨h.newIds peer List.mem_cons_self, h.newInfos peer List.mem_cons_self⟩,
      hids.2, hinfos.2, ?_, ?_⟩
    · intro q hq
      refine byId_bind_eq_none.mpr ⟨?_, h.newIds q (List.mem_cons_of_mem _ hq)⟩
      intro e
      exact hids.1 (e ▸ List.mem_map_of_mem hq)
    · intro q hq
      refine byInfo_bind_eq_none.mpr ⟨?_, h.newInfos q (List.mem_cons_of_mem _ hq)⟩
      intro e
      exact hinfos.1 (e ▸ List.mem_map_of_mem hq)
  · intro ⟨⟨hid, hinfo⟩, h⟩
    refine ⟨List.nodup_cons.mpr ⟨?_, h.ids⟩, List.nodup_cons.mpr ⟨?_, h.infos⟩, ?_, ?_⟩
    · intro hmem
      obtain ⟨q, hq, he⟩ := List.mem_map.mp hmem
      exact (byId_bind_eq_none.mp (h.newIds q hq)).1 he
    · intro hmem
      obtain ⟨q, hq, he⟩ := List.mem_map.mp hmem
      exact (byInfo_bind_eq_none.mp (h.newInfos q hq)).1 he
    · intro q hq
      rcases List.mem_cons.mp hq with rfl | hq
      · exact hid
      · exact (byId_bind_eq_none.mp (h.newIds q hq)).2
    · intro q hq
      rcases List.mem_cons.mp hq with rfl | hq
      · exact hinfo
      · exact (byInfo_bind_eq_none.mp (h.newInfos q hq)).2

theorem insertAll_cons (registry : PeerRegistry) (peer : PeerId × PeerInfo)
    (peers : List (PeerId × PeerInfo)) :
    insertAll registry (peer :: peers) =
      insertAll (registry.bind peer.1 peer.2 (registry.counterPast peer.1)) peers := rfl

/-- The id after which the counter starts again at 0, the greatest of its
type. -/
def lastPeerId : PeerId := 4294967295

/-- The counter is pulled past an id, unless the id is the last one; as a number
it does not wrap then. -/
theorem counterPast_toNat (registry : PeerRegistry) {peerId : PeerId} (h : peerId ≠ lastPeerId) :
    (registry.counterPast peerId).toNat = max registry.nextPeerId.toNat (peerId.toNat + 1) := by
  have hsucc : (peerId + 1).toNat = peerId.toNat + 1 := by
    rcases toNat_succ_or_top peerId with htop | hsucc
    · exact absurd htop h
    · exact hsucc
  unfold PeerRegistry.counterPast
  by_cases hge : peerId ≥ registry.nextPeerId
  · have hle : registry.nextPeerId.toNat ≤ peerId.toNat := UInt32.le_iff_toNat_le.mp hge
    rw [if_pos hge, hsucc]
    omega
  · have hlt : peerId.toNat < registry.nextPeerId.toNat :=
      UInt32.lt_iff_toNat_lt.mp (UInt32.not_le.mp hge)
    rw [if_neg hge]
    omega

/-- The order of the list does not matter, unless the counter is pulled past the
last id. -/
theorem insertAll_perm {registry : PeerRegistry} {peers peers' : List (PeerId × PeerInfo)}
    (h : peers.Perm peers') (hfresh : FreshFor registry peers)
    (hlast : ∀ peer ∈ peers, peer.1 ≠ lastPeerId) :
    insertAll registry peers = insertAll registry peers' := by
  refine h.foldl_eq' (fun a ha b hb registry => ?_) registry
  by_cases heq : a = b
  · rw [heq]
  · have hid : a.1 ≠ b.1 := fun hid => heq (List.inj_on_of_nodup_map hfresh.ids ha hb hid)
    have hinfo : a.2 ≠ b.2 := fun hinfo => heq (List.inj_on_of_nodup_map hfresh.infos ha hb hinfo)
    have hcounter : ((registry.bind a.1 a.2 (registry.counterPast a.1)).counterPast b.1) =
        (registry.bind b.1 b.2 (registry.counterPast b.1)).counterPast a.1 := by
      refine UInt32.toNat_inj.mp ?_
      rw [counterPast_toNat _ (hlast b hb), counterPast_toNat _ (hlast a ha)]
      show max (registry.counterPast a.1).toNat (b.1.toNat + 1) =
        max (registry.counterPast b.1).toNat (a.1.toNat + 1)
      rw [counterPast_toNat _ (hlast a ha), counterPast_toNat _ (hlast b hb)]
      omega
    rw [hcounter]
    unfold PeerRegistry.bind
    dsimp only
    rw [Finmap.insert_insert_of_ne _ hid, Finmap.insert_insert_of_ne _ hinfo]

/-- Fresh pairs keep the two maps inverse to each other. -/
theorem inverse_insertAll : ∀ {peers : List (PeerId × PeerInfo)} {registry : PeerRegistry},
    registry.Inverse → FreshFor registry peers → (insertAll registry peers).Inverse := by
  intro peers
  induction peers with
  | nil => exact fun h _ => h
  | cons peer peers ih =>
    intro registry h hfresh
    obtain ⟨⟨hid, hinfo⟩, hrest⟩ := (freshFor_cons (registry.counterPast peer.1)).mp hfresh
    rw [insertAll_cons]
    exact ih (h.bind hid hinfo _) hrest

/-- The pairs afterwards are those of the list and those from before. -/
theorem lookup_byId_insertAll (i : PeerId) (p : PeerInfo) :
    ∀ {peers : List (PeerId × PeerInfo)} {registry : PeerRegistry}, FreshFor registry peers →
      ((insertAll registry peers).byId.lookup i = some p ↔
        (i, p) ∈ peers ∨ registry.byId.lookup i = some p) := by
  intro peers
  induction peers with
  | nil =>
    intro registry _
    simp [insertAll]
  | cons peer peers ih =>
    intro registry hfresh
    obtain ⟨⟨hid, hinfo⟩, hrest⟩ := (freshFor_cons (registry.counterPast peer.1)).mp hfresh
    have hbind : (registry.bind peer.1 peer.2 (registry.counterPast peer.1)).byId.lookup i = some p ↔
        (i, p) = peer ∨ registry.byId.lookup i = some p := by
      show (registry.byId.insert peer.1 peer.2).lookup i = some p ↔ _
      rw [lookup_insert_eq, Prod.ext_iff]
      by_cases hi : i = peer.1
      · rw [if_pos hi, hi, hid]
        simp [eq_comm]
      · simp [hi]
    rw [insertAll_cons, ih hrest, hbind, List.mem_cons]
    exact or_left_comm.trans or_assoc.symm

/-- The counter is one past the largest id, which is at most `n`. This is what
`Numbered` says of a counter, without the peers. -/
def CountsTo (n : Nat) (registry : PeerRegistry) : Prop :=
  ∃ m ≤ n, registry.nextPeerId = UInt32.ofNat (m + 1) ∧
    ∀ i, registry.contains i = true → 1 ≤ i.toNat ∧ i.toNat ≤ m

/-- `insert_with_id` pulls the counter past an id that is not below it, and
leaves it otherwise. -/
theorem CountsTo.bind {n : Nat} (hn : n + 1 < 2 ^ 32) {registry : PeerRegistry}
    (h : CountsTo n registry) {peerId : PeerId} (hid : 1 ≤ peerId.toNat ∧ peerId.toNat ≤ n)
    (peer : PeerInfo) : CountsTo n (registry.bind peerId peer (registry.counterPast peerId)) := by
  obtain ⟨m, hm, hnext, hreg⟩ := h
  -- below `2^32` the counter does not wrap
  have hval : (UInt32.ofNat (m + 1)).toNat = m + 1 :=
    UInt32.toNat_ofNat_of_lt' (show m + 1 < 2 ^ 32 by omega)
  show ∃ m ≤ n, registry.counterPast peerId = UInt32.ofNat (m + 1) ∧ _
  unfold PeerRegistry.counterPast
  by_cases hge : peerId ≥ registry.nextPeerId
  · have hle : registry.nextPeerId.toNat ≤ peerId.toNat := UInt32.le_iff_toNat_le.mp hge
    rw [hnext, hval] at hle
    refine ⟨peerId.toNat, hid.2, ?_, ?_⟩
    · rw [if_pos hge, UInt32.ofNat_add, UInt32.ofNat_toNat]
      rfl
    · intro i hi
      rcases (contains_bind ..).mp hi with he | hi
      · rw [he]
        exact ⟨hid.1, Nat.le_refl _⟩
      · have := hreg i hi
        omega
  · have hlt : peerId.toNat < registry.nextPeerId.toNat :=
      UInt32.lt_iff_toNat_lt.mp (UInt32.not_le.mp hge)
    rw [hnext, hval] at hlt
    refine ⟨m, hm, ?_, ?_⟩
    · rw [if_neg hge, hnext]
    · intro i hi
      rcases (contains_bind ..).mp hi with he | hi
      · rw [he]
        omega
      · exact hreg i hi

/-- Ids up to `n`, in any order, leave the counter one past the largest of
them. -/
theorem counter_insertAll {n : Nat} (hn : n + 1 < 2 ^ 32) :
    ∀ {peers : List (PeerId × PeerInfo)} {registry : PeerRegistry},
      (∀ peer ∈ peers, 1 ≤ peer.1.toNat ∧ peer.1.toNat ≤ n) → CountsTo n registry →
      CountsTo n (insertAll registry peers) := by
  intro peers
  induction peers with
  | nil => exact fun _ h => h
  | cons peer peers ih =>
    intro registry hids h
    rw [insertAll_cons]
    exact ih (fun q hq => hids q (List.mem_cons_of_mem _ hq))
      (h.bind hn (hids peer List.mem_cons_self) peer.2)

/-- A registry rebuilt from some pairs of a numbered one is numbered again, for
any peers `T` that are still to come. So a run can go on from a snapshot as if
it had not been interrupted, as long as ids last. -/
theorem numbered_insertAll {S T : Finset PeerInfo} {limit : Nat} {registry : PeerRegistry}
    (h : Numbered S limit registry) (hlimit : limit + T.card < 2 ^ 32 - 1)
    {peers : List (PeerId × PeerInfo)} (hfresh : FreshFor {} peers)
    (hsub : ∀ peer ∈ peers, registry.byId.lookup peer.1 = some peer.2) :
    Numbered T (limit + T.card) (insertAll {} peers) where
  inverse := inverse_insertAll inverse_empty hfresh
  counter := by
    obtain ⟨n, -, hids, hroom⟩ := h.counter
    have hpeers : ∀ peer ∈ peers, 1 ≤ peer.1.toNat ∧ peer.1.toNat ≤ n := by
      intro peer hmem
      refine hids peer.1 ?_
      rw [PeerRegistry.contains, hsub peer hmem]
      rfl
    have hempty : CountsTo n {} := by
      refine ⟨0, Nat.zero_le _, rfl, fun i hi => ?_⟩
      have hnone : PeerRegistry.contains {} i = false := rfl
      rw [hnone] at hi
      cases hi
    obtain ⟨m, hm, hnext, hreg⟩ := counter_insertAll (show n + 1 < 2 ^ 32 by omega) hpeers hempty
    have hcard : (T \ (insertAll {} peers).byInfo.keys).card ≤ T.card :=
      Finset.card_le_card Finset.sdiff_subset
    exact ⟨m, hnext, hreg, by omega⟩
  limit_lt := by omega

end ASNPrefixMap.Peer
