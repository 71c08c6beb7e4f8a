import ASNPrefixMap.Lib.Run
import ASNPrefixMap.Peer.Registry

/-!
# What a registry guarantees over its history

`insertWithId` checks both directions before it writes, `getOrAdd` only one: the
id it hands out is whatever the counter holds. So everything a registry promises
(`RegistrySound`) rests on the counter being off every registered id when a peer
is added (`CounterFree`), and `registrySound_iff_counterFree` says that it rests
on nothing else. Behind `getOrAdd` and ascending ids the counter stays above all
ids; it comes down to them only by wrapping to 0, once the last id of the type
has been registered. `registry_id_wraps` is such a history.

A history is any sequence of calls, also one the program would not make; an
exception of `insert_with_id` is caught by the caller, who goes on. `AddsOffIds`
is a condition on the registry before a call, so the equivalence can be read as
the exact precondition of `get_or_add`. The last part (`Numbered`) is about the
registries of real runs, where ids are handed out upwards from 1.
-/

namespace ASNPrefixMap.Peer

open Lib

/-! ## Single calls -/

/-- The registry with one more pair and another counter, which is what both
calls write. -/
def PeerRegistry.bind (registry : PeerRegistry) (peerId : PeerId) (peer : PeerInfo)
    (next : PeerId) : PeerRegistry where
  byInfo := registry.byInfo.insert peer peerId
  byId := registry.byId.insert peerId peer
  nextPeerId := next

/-- A known peer keeps its id, and nothing is written. -/
theorem getOrAdd_of_some {registry : PeerRegistry} {peer : PeerInfo} {peerId : PeerId}
    (h : registry.byInfo.lookup peer = some peerId) :
    registry.getOrAdd peer = (peerId, registry) := by
  rw [PeerRegistry.getOrAdd, h]

/-- A new peer takes the counter for its id, and the counter moves on, past the
last id to 0. -/
theorem getOrAdd_of_none {registry : PeerRegistry} {peer : PeerInfo}
    (h : registry.byInfo.lookup peer = none) :
    registry.getOrAdd peer = (registry.nextPeerId,
      registry.bind registry.nextPeerId peer (registry.nextPeerId + 1)) := by
  rw [PeerRegistry.getOrAdd, h]
  rfl

/-- The counter after `insert_with_id`: past the id if it was not above it. -/
def PeerRegistry.counterPast (registry : PeerRegistry) (peerId : PeerId) : PeerId :=
  if peerId ≥ registry.nextPeerId then peerId + 1 else registry.nextPeerId

/-- An id and a peer that are both free are bound to each other. -/
theorem insertWithId_of_none {registry : PeerRegistry} {peerId : PeerId} {peer : PeerInfo}
    (hid : registry.byId.lookup peerId = none) (hpeer : registry.byInfo.lookup peer = none) :
    (PeerRegistry.insertWithId peerId peer).run registry =
      .ok () (registry.bind peerId peer (registry.counterPast peerId)) := by
  rw [PeerRegistry.insertWithId, run_bind_ok (EStateM.run_get registry), hid, hpeer]
  rfl

/-- A duplicate of either kind makes `insert_with_id` throw, and nothing is
written. -/
theorem insertWithId_of_some {registry : PeerRegistry} {peerId : PeerId} {peer : PeerInfo}
    (h : registry.byId.lookup peerId ≠ none ∨ registry.byInfo.lookup peer ≠ none) :
    ∃ e, (PeerRegistry.insertWithId peerId peer).run registry = .error e registry := by
  rw [PeerRegistry.insertWithId, run_bind_ok (EStateM.run_get registry)]
  by_cases hid : (registry.byId.lookup peerId).isSome = true
  · rw [if_pos hid]
    exact ⟨_, rfl⟩
  · rw [if_neg hid]
    rw [Option.not_isSome_iff_eq_none] at hid
    have hpeer : (registry.byInfo.lookup peer).isSome = true :=
      Option.isSome_iff_ne_none.mpr (h.resolve_left fun hne => hne hid)
    rw [if_pos hpeer]
    exact ⟨_, rfl⟩

/-! ## The two maps -/

/-- The two maps hold the same pairs, each in its direction. -/
def PeerRegistry.Inverse (registry : PeerRegistry) : Prop :=
  ∀ peerId peer, registry.byId.lookup peerId = some peer ↔
    registry.byInfo.lookup peer = some peerId

theorem inverse_empty : PeerRegistry.Inverse {} := by
  intro peerId peer
  show (∅ : FiniteMap PeerId PeerInfo).lookup peerId = some peer ↔
    (∅ : FiniteMap PeerInfo PeerId).lookup peer = some peerId
  simp

/-- A free id bound to a free peer keeps the maps inverse. If the id were taken,
the old pair would stay in one map and be lost in the other. -/
theorem PeerRegistry.Inverse.bind {registry : PeerRegistry} (h : registry.Inverse)
    {peerId : PeerId} {peer : PeerInfo} (hid : registry.byId.lookup peerId = none)
    (hpeer : registry.byInfo.lookup peer = none) (next : PeerId) :
    (registry.bind peerId peer next).Inverse := by
  intro i p
  show (registry.byId.insert peerId peer).lookup i = some p ↔
    (registry.byInfo.insert peer peerId).lookup p = some i
  rw [lookup_insert_eq, lookup_insert_eq]
  by_cases hi : i = peerId
  · rw [if_pos hi]
    by_cases hp : p = peer
    · simp [hi, hp]
    · rw [if_neg hp, hi, ← h peerId p, hid, Option.some.injEq]
      simp [Ne.symm hp]
  · rw [if_neg hi]
    by_cases hp : p = peer
    · rw [if_pos hp, hp, h i peer, hpeer, Option.some.injEq]
      simp [Ne.symm hi]
    · rw [if_neg hp]
      exact h i p

/-- Two ids of one registry never stand for the same peer. -/
theorem PeerRegistry.Inverse.peer_injective {registry : PeerRegistry} (h : registry.Inverse)
    {i j : PeerId} {peer : PeerInfo} (hi : registry.byId.lookup i = some peer)
    (hj : registry.byId.lookup j = some peer) : i = j := by
  rw [h] at hi hj
  rw [hi] at hj
  exact Option.some.inj hj

/-- A bound pair survives the binding of another id. -/
theorem lookup_byId_bind {registry : PeerRegistry} {peerId i : PeerId} {peer p : PeerInfo}
    (hid : registry.byId.lookup peerId = none) (h : registry.byId.lookup i = some p)
    (next : PeerId) : (registry.bind peerId peer next).byId.lookup i = some p := by
  show (registry.byId.insert peerId peer).lookup i = some p
  have hne : i ≠ peerId := by
    intro e
    rw [e, hid] at h
    cases h
  rw [lookup_insert_eq, if_neg hne, h]

theorem get_eq_ok {registry : PeerRegistry} {peerId : PeerId} {peer : PeerInfo} :
    registry.get peerId = .ok peer ↔ registry.byId.lookup peerId = some peer := by
  unfold PeerRegistry.get
  cases registry.byId.lookup peerId with
  | none => simp
  | some p => simp

/-- An id that is not in use has no peer. -/
theorem contains_eq_false {registry : PeerRegistry} {peerId : PeerId} :
    registry.contains peerId = false ↔ registry.byId.lookup peerId = none := by
  unfold PeerRegistry.contains
  rw [Option.isSome_eq_false_iff, Option.isNone_iff_eq_none]

/-! ## Histories -/

/-- The calls that may change a registry. -/
inductive RegistryOp
  | getOrAdd (peer : PeerInfo)
  | insertWithId (peerId : PeerId) (peer : PeerInfo)
  | clear
  deriving DecidableEq

/-- One call; `insert_with_id` may throw, and the caller goes on with what it
left. -/
def stepRegistry (registry : PeerRegistry) : RegistryOp → PeerRegistry
  | .getOrAdd peer => (registry.getOrAdd peer).2
  | .insertWithId peerId peer =>
    match (PeerRegistry.insertWithId peerId peer).run registry with
    | .ok _ registry => registry
    | .error _ registry => registry
  | .clear => registry.clear

/-- The registry after a history, from the empty one. -/
def registryAfter (ops : List RegistryOp) : PeerRegistry := ops.foldl stepRegistry {}

/-- The registry before call number `n`, counted from 0. -/
def registryAt (ops : List RegistryOp) (n : Nat) : PeerRegistry := registryAfter (ops.take n)

/-- The counter is off every registered id whenever a peer is about to be added.
Other calls are not restricted. -/
def AddsOffIds (registry : PeerRegistry) (op : RegistryOp) : Prop :=
  ∀ peer, op = .getOrAdd peer → registry.byInfo.lookup peer = none →
    registry.contains registry.nextPeerId = false

/-- Every call of the history meets `AddsOffIds`. -/
def CounterFree (ops : List RegistryOp) : Prop := EachStep stepRegistry AddsOffIds {} ops

/-- The last id of the type is not registered whenever a peer is about to be
added. This is a condition that can be seen without knowing the counter. -/
def AddsBelowTop (registry : PeerRegistry) (op : RegistryOp) : Prop :=
  ∀ peer, op = .getOrAdd peer → registry.byInfo.lookup peer = none →
    registry.contains 0xFFFFFFFF = false

/-- What a registry promises over a history: the two maps are inverse to each
other, a call that throws changes nothing, a new peer gets an id that nobody
has, and an id keeps its peer until the registry is cleared. -/
structure RegistrySound (ops : List RegistryOp) : Prop where
  inverse : ∀ n, (registryAt ops n).Inverse
  throwing : ∀ n peerId peer e registry,
    (PeerRegistry.insertWithId peerId peer).run (registryAt ops n) = .error e registry →
      registry = registryAt ops n
  fresh : ∀ n peer, ops[n]? = some (.getOrAdd peer) →
    (registryAt ops n).byInfo.lookup peer = none →
      (registryAt ops n).contains ((registryAt ops n).getOrAdd peer).1 = false
  stable : ∀ n m peerId peer, n ≤ m → (∀ k, n ≤ k → k < m → ops[k]? ≠ some .clear) →
    (registryAt ops n).get peerId = .ok peer → (registryAt ops m).get peerId = .ok peer

/-- What one call can do: nothing, bind an id to a peer that had none, or clear.
Every invariant below is proved from this. -/
theorem stepRegistry_cases (registry : PeerRegistry) (op : RegistryOp) :
    stepRegistry registry op = registry ∨
      (∃ peer, op = .getOrAdd peer ∧ registry.byInfo.lookup peer = none ∧
        stepRegistry registry op =
          registry.bind registry.nextPeerId peer (registry.nextPeerId + 1)) ∨
      (∃ peerId peer, op = .insertWithId peerId peer ∧ registry.byId.lookup peerId = none ∧
        registry.byInfo.lookup peer = none ∧
        stepRegistry registry op = registry.bind peerId peer (registry.counterPast peerId)) ∨
      (op = .clear ∧ stepRegistry registry op = {}) := by
  cases op with
  | getOrAdd peer =>
    simp only [stepRegistry]
    cases h : registry.byInfo.lookup peer with
    | some peerId => exact Or.inl (by rw [getOrAdd_of_some h])
    | none => exact Or.inr (Or.inl ⟨peer, rfl, h, by rw [getOrAdd_of_none h]⟩)
  | insertWithId peerId peer =>
    simp only [stepRegistry]
    by_cases h : registry.byId.lookup peerId = none ∧ registry.byInfo.lookup peer = none
    · refine Or.inr (Or.inr (Or.inl ⟨peerId, peer, rfl, h.1, h.2, ?_⟩))
      rw [insertWithId_of_none h.1 h.2]
    · obtain ⟨e, he⟩ := insertWithId_of_some (Decidable.not_and_iff_or_not.mp h)
      refine Or.inl ?_
      rw [he]
  | clear => exact Or.inr (Or.inr (Or.inr ⟨rfl, rfl⟩))

/-- A call off the registered ids keeps the maps inverse. -/
theorem stepRegistry_inverse (registry : PeerRegistry) (op : RegistryOp)
    (h : registry.Inverse) (hfree : AddsOffIds registry op) :
    (stepRegistry registry op).Inverse := by
  rcases stepRegistry_cases registry op with hs | ⟨peer, hop, hp, hs⟩ | ⟨i, peer, -, hi, hp, hs⟩ | ⟨-, hs⟩
  · rw [hs]
    exact h
  · rw [hs]
    exact h.bind (contains_eq_false.mp (hfree peer hop hp)) hp _
  · rw [hs]
    exact h.bind hi hp _
  · rw [hs]
    exact inverse_empty

/-- Only `clear` takes a bound pair away, as long as new ids are unused ones. -/
theorem stepRegistry_keeps (peerId : PeerId) (peer : PeerInfo) (registry : PeerRegistry)
    (op : RegistryOp) (h : registry.byId.lookup peerId = some peer)
    (hfree : AddsOffIds registry op) (hop : op ≠ .clear) :
    (stepRegistry registry op).byId.lookup peerId = some peer := by
  rcases stepRegistry_cases registry op with hs | ⟨p, hadd, hp, hs⟩ | ⟨i, p, -, hi, hp, hs⟩ | ⟨hc, -⟩
  · rw [hs]
    exact h
  · rw [hs]
    exact lookup_byId_bind (contains_eq_false.mp (hfree p hadd hp)) h _
  · rw [hs]
    exact lookup_byId_bind hi h _
  · exact absurd hc hop

/-! ## The counter -/

/-- The last id is registered, or the counter is above every registered id. The
first alternative is the state from which the counter may come down. -/
def CounterAbove (registry : PeerRegistry) : Prop :=
  registry.contains 0xFFFFFFFF = true ∨
    ∀ peerId, registry.contains peerId = true → peerId.toNat < registry.nextPeerId.toNat

/-- A binding adds its id to those in use. -/
theorem contains_bind (registry : PeerRegistry) (peerId i : PeerId) (peer : PeerInfo)
    (next : PeerId) :
    (registry.bind peerId peer next).contains i = true ↔
      i = peerId ∨ registry.contains i = true := by
  unfold PeerRegistry.contains
  show ((registry.byId.insert peerId peer).lookup i).isSome = true ↔ _
  rw [lookup_insert_eq]
  by_cases hi : i = peerId
  · simp [hi]
  · simp [hi]

/-- Binding an id keeps the counter above when it is moved to `next`, past that
id. Past the last id there is no place to move to, and the other alternative
holds. -/
theorem CounterAbove.bind {registry : PeerRegistry} (h : CounterAbove registry) {peerId : PeerId}
    {next : PeerId}
    (hnext : peerId = 0xFFFFFFFF ∨
      (peerId.toNat < next.toNat ∧ registry.nextPeerId.toNat ≤ next.toNat))
    (peer : PeerInfo) : CounterAbove (registry.bind peerId peer next) := by
  unfold CounterAbove
  rcases h with htop | hall
  · exact Or.inl ((contains_bind ..).mpr (Or.inr htop))
  · rcases hnext with htop | ⟨hlt, hle⟩
    · exact Or.inl ((contains_bind ..).mpr (Or.inl htop.symm))
    · refine Or.inr fun i hi => ?_
      show i.toNat < next.toNat
      rcases (contains_bind ..).mp hi with he | hi
      · rw [he]
        exact hlt
      · have := hall i hi
        omega

/-- The successor of an id that is not the last one. -/
theorem toNat_succ_or_top (peerId : PeerId) :
    peerId = 0xFFFFFFFF ∨ (peerId + 1).toNat = peerId.toNat + 1 := by
  have hlt := peerId.toNat_lt
  by_cases h : peerId.toNat + 1 < 2 ^ 32
  · refine Or.inr ?_
    rw [UInt32.toNat_add]
    exact Nat.mod_eq_of_lt h
  · refine Or.inl (UInt32.toNat_inj.mp ?_)
    show peerId.toNat = 4294967295
    omega

/-- Every call keeps the counter above the ids, or registers the last one. -/
theorem stepRegistry_counterAbove (registry : PeerRegistry) (op : RegistryOp)
    (h : CounterAbove registry) : CounterAbove (stepRegistry registry op) := by
  rcases stepRegistry_cases registry op with hs | ⟨peer, -, -, hs⟩ | ⟨i, peer, -, -, -, hs⟩ | ⟨-, hs⟩
  · rw [hs]
    exact h
  · rw [hs]
    refine h.bind ?_ peer
    rcases toNat_succ_or_top registry.nextPeerId with htop | hsucc
    · exact Or.inl htop
    · exact Or.inr (by omega)
  · rw [hs]
    refine h.bind ?_ peer
    unfold PeerRegistry.counterPast
    by_cases hge : i ≥ registry.nextPeerId
    · -- the counter goes past the id, to zero when the id is the last one
      rw [if_pos hge]
      have hle : registry.nextPeerId.toNat ≤ i.toNat := UInt32.le_iff_toNat_le.mp hge
      rcases toNat_succ_or_top i with htop | hsucc
      · exact Or.inl htop
      · exact Or.inr (by omega)
    · rw [if_neg hge]
      have hlt : i.toNat < registry.nextPeerId.toNat :=
        UInt32.lt_iff_toNat_lt.mp (UInt32.not_le.mp hge)
      exact Or.inr ⟨hlt, Nat.le_refl _⟩
  · rw [hs]
    refine Or.inr fun i hi => ?_
    have hnone : PeerRegistry.contains {} i = false := rfl
    rw [hnone] at hi
    cases hi

/-- A peer that is added while the last id is free takes an unused id. -/
theorem CounterAbove.addsOffIds {registry : PeerRegistry} (h : CounterAbove registry)
    {op : RegistryOp} (htop : AddsBelowTop registry op) : AddsOffIds registry op := by
  intro peer hop hp
  rcases h with hc | hall
  · rw [htop peer hop hp] at hc
    cases hc
  · rw [← Bool.not_eq_true]
    exact fun hc => Nat.lt_irrefl _ (hall _ hc)

/-! ## The theorem -/

/-- **A registry keeps its promises exactly as long as its counter is off the
registered ids when a peer is added**, and it is as long as peers are added
while the last id is free. The condition asks the registry about the counter
before each call; the promises are about what the calls return and what the two
maps say afterwards. -/
theorem registrySound_iff_counterFree (ops : List RegistryOp) :
    (RegistrySound ops ↔ CounterFree ops) ∧
      (EachStep stepRegistry AddsBelowTop {} ops → CounterFree ops) := by
  refine ⟨⟨?_, ?_⟩, ?_⟩
  · intro h n op hop peer hadd hp
    rw [hadd] at hop
    have hfresh := h.fresh n peer hop hp
    rw [@getOrAdd_of_none (registryAt ops n) peer hp] at hfresh
    exact hfresh
  · intro h
    refine ⟨?_, ?_, ?_, ?_⟩
    · exact h.invariant stepRegistry_inverse inverse_empty
    · intro n peerId peer e registry he
      by_cases hfree : (registryAt ops n).byId.lookup peerId = none ∧
          (registryAt ops n).byInfo.lookup peer = none
      · rw [insertWithId_of_none hfree.1 hfree.2] at he
        cases he
      · obtain ⟨e', he'⟩ := insertWithId_of_some (Decidable.not_and_iff_or_not.mp hfree)
        rw [he'] at he
        cases he
        rfl
    · intro n peer hop hp
      rw [getOrAdd_of_none hp]
      exact h n _ hop peer rfl hp
    · -- between two clears no step unbinds an id
      intro n m peerId peer hnm hclear hget
      rw [get_eq_ok] at hget ⊢
      exact h.between (stepRegistry_keeps peerId peer) hget m hnm
        fun k i hnk hkm hi e => hclear k hnk hkm (e ▸ hi)
  · intro htop n op hop
    have habove : CounterAbove (registryAt ops n) :=
      htop.invariant (fun registry op h _ => stepRegistry_counterAbove registry op h)
        (Or.inr fun i hi => (by cases hi)) n
    exact habove.addsOffIds (htop n op hop)

/-! ## Consecutive ids -/

/-- Ids handed out one after the other, from 1: the counter is one past the last
of them, and with an id for every peer of `S` that is still to come it stays
within `limit`. So no id is ever handed out twice, and the counter does not
wrap. -/
structure Numbered (S : Finset PeerInfo) (limit : Nat) (registry : PeerRegistry) : Prop where
  inverse : registry.Inverse
  counter : ∃ n, registry.nextPeerId = UInt32.ofNat (n + 1) ∧
    (∀ peerId, registry.contains peerId = true → 1 ≤ peerId.toNat ∧ peerId.toNat ≤ n) ∧
    n + (S \ registry.byInfo.keys).card ≤ limit
  limit_lt : limit < 2 ^ 32

/-- The empty registry is numbered, for any set of peers that fits into the
ids. -/
theorem numbered_empty {S : Finset PeerInfo} (h : S.card < 2 ^ 32) : Numbered S S.card {} where
  inverse := inverse_empty
  counter := by
    refine ⟨0, rfl, ?_, ?_⟩
    · intro peerId hc
      have hnone : PeerRegistry.contains {} peerId = false := rfl
      rw [hnone] at hc
      cases hc
    · rw [Nat.zero_add]
      exact Finset.card_le_card Finset.sdiff_subset
  limit_lt := h

/-- A registered peer has a registered id. -/
theorem PeerRegistry.Inverse.contains {registry : PeerRegistry} (h : registry.Inverse)
    {peer : PeerInfo} {peerId : PeerId} (hp : registry.byInfo.lookup peer = some peerId) :
    registry.contains peerId = true := by
  rw [PeerRegistry.contains, (h peerId peer).mpr hp]
  rfl

/-- Registering a new peer of `S` takes it off those still to come. -/
theorem card_sdiff_bind {S : Finset PeerInfo} {registry : PeerRegistry} {peer : PeerInfo}
    (hS : peer ∈ S) (hp : registry.byInfo.lookup peer = none) (peerId next : PeerId) :
    (S \ (registry.bind peerId peer next).byInfo.keys).card + 1 =
      (S \ registry.byInfo.keys).card := by
  have hmem : peer ∈ S \ registry.byInfo.keys := by
    rw [Finset.mem_sdiff, mem_keys_iff, hp]
    exact ⟨hS, Bool.false_ne_true⟩
  have hkeys : S \ (registry.bind peerId peer next).byInfo.keys =
      (S \ registry.byInfo.keys).erase peer := by
    show S \ (registry.byInfo.insert peer peerId).keys = _
    rw [keys_insert, Finset.sdiff_insert]
  rw [hkeys, Finset.card_erase_add_one hmem]

/-- The counter of a numbered registry is off the ids in use. -/
theorem Numbered.next_free {S : Finset PeerInfo} {limit : Nat} {registry : PeerRegistry}
    (h : Numbered S limit registry) {peer : PeerInfo} (hS : peer ∈ S)
    (hp : registry.byInfo.lookup peer = none) :
    registry.byId.lookup registry.nextPeerId = none := by
  obtain ⟨n, hnext, hids, hroom⟩ := h.counter
  have hcard := card_sdiff_bind hS hp 0 0
  have hlimit := h.limit_lt
  rw [← contains_eq_false, ← Bool.not_eq_true]
  intro hc
  have hle := (hids _ hc).2
  rw [hnext, UInt32.toNat_ofNat_of_lt' (show n + 1 < 2 ^ 32 by omega)] at hle
  omega

/-- Looking up or adding a peer of `S` keeps the numbering: what the counter
moves on by, the peers still to come have lost. -/
theorem Numbered.getOrAdd {S : Finset PeerInfo} {limit : Nat} {registry : PeerRegistry}
    (h : Numbered S limit registry) {peer : PeerInfo} (hS : peer ∈ S) :
    Numbered S limit (registry.getOrAdd peer).2 := by
  cases hp : registry.byInfo.lookup peer with
  | some peerId =>
    rw [getOrAdd_of_some hp]
    exact h
  | none =>
    rw [getOrAdd_of_none hp]
    refine ⟨h.inverse.bind (h.next_free hS hp) hp _, ?_, h.limit_lt⟩
    obtain ⟨n, hnext, hids, hroom⟩ := h.counter
    have hcard := card_sdiff_bind hS hp registry.nextPeerId (registry.nextPeerId + 1)
    have hlimit := h.limit_lt
    have hval : (UInt32.ofNat (n + 1)).toNat = n + 1 :=
      UInt32.toNat_ofNat_of_lt' (show n + 1 < 2 ^ 32 by omega)
    refine ⟨n + 1, ?_, ?_, ?_⟩
    · show registry.nextPeerId + 1 = UInt32.ofNat (n + 1 + 1)
      rw [hnext, UInt32.ofNat_add (n + 1) 1]
      rfl
    · intro peerId hc
      rcases (contains_bind ..).mp hc with he | hc
      · rw [he, hnext, hval]
        omega
      · have := hids peerId hc
        omega
    · dsimp only
      omega

/-! ## The wrap -/

theorem size_stepRegistry_le (registry : PeerRegistry) (op : RegistryOp) :
    FiniteMap.size (stepRegistry registry op).byInfo ≤ FiniteMap.size registry.byInfo + 1 := by
  rcases stepRegistry_cases registry op with hs | ⟨peer, -, -, hs⟩ | ⟨i, peer, -, -, -, hs⟩ | ⟨-, hs⟩
  · rw [hs]
    exact Nat.le_succ _
  · rw [hs]
    exact size_insert_le _ _ _
  · rw [hs]
    exact size_insert_le _ _ _
  · rw [hs]
    exact Nat.le_trans (Nat.le_of_eq size_empty) (Nat.zero_le _)

/-- A history registers at most one peer a call. So a registry with many peers
has had many calls. -/
theorem size_registryAt_le (ops : List RegistryOp) (n : Nat) :
    FiniteMap.size (registryAt ops n).byInfo ≤ ops.length := by
  have hrun : ∀ ops : List RegistryOp,
      FiniteMap.size (registryAfter ops).byInfo ≤ ops.length := by
    intro ops
    induction ops using List.reverseRecOn with
    | nil => exact Nat.le_of_eq size_empty
    | append_singleton ops op ih =>
      have hstep : registryAfter (ops ++ [op]) = stepRegistry (registryAfter ops) op := by
        rw [registryAfter, List.foldl_append]
        rfl
      rw [hstep, List.length_append, List.length_singleton]
      exact Nat.le_trans (size_stepRegistry_le _ op) (Nat.succ_le_succ ih)
  exact Nat.le_trans (hrun (ops.take n)) (List.length_take_le' n ops)

/-- Two peers with ids from a snapshot, the last id among them, and two that are
added. Only four calls are needed. -/
def wrapHistory : List RegistryOp :=
  [.insertWithId 1 ⟨[97], [], 64500⟩, .insertWithId 0xFFFFFFFF ⟨[98], [], 64501⟩,
    .getOrAdd ⟨[99], [], 64502⟩, .getOrAdd ⟨[100], [], 64503⟩]

/-- Once the last id is registered the counter is back at 0, and the second peer
added after that takes the id 1 of the first peer away. A snapshot may name the
last id, so four calls are enough. -/
theorem registry_id_wraps :
    ¬ ∀ ops : List RegistryOp,
      (∀ n, FiniteMap.size (registryAt ops n).byInfo < 2 ^ 32 - 1) → RegistrySound ops := by
  intro h
  have hsmall : ∀ n, FiniteMap.size (registryAt wrapHistory n).byInfo < 2 ^ 32 - 1 :=
    fun n => Nat.lt_of_le_of_lt (size_registryAt_le wrapHistory n) (by decide)
  have hfresh := (h wrapHistory hsmall).fresh 3 ⟨[100], [], 64503⟩ rfl (by decide)
  exact absurd hfresh (by decide)

end ASNPrefixMap.Peer
