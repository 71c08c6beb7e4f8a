import Mathlib.Data.Set.Card
import ASNPrefixMap.Lib.LastWriter
import ASNPrefixMap.Lib.Run
import ASNPrefixMap.Routing.TablesInv

/-!
# Whole histories of a routing state

A history is a list of calls, each under its own hash-map iteration orders. As
long as no prefix ever collects `2^32` observations (`NeverFull`), two things
hold after every history, both carried by the step lemma `stepOp_spec`:

* `incremental_selection_eq_recomputation`: observations, counters, winner and
  `aggregated` agree, and a full rebuild changes nothing;
* `stored_observations_refine_lastWriter`: what is stored is exactly the
  last-writer-wins map of the calls, from prefix and peer to origin and
  timestamp.

The bound is on the history and not on the code: no call checks it.
`neverFull_of_length` says that it takes `2^32` calls to break it.
`ASNPrefixMap.Routing.AnyHistory` and `ASNPrefixMap.Routing.Backed` have what
holds without it.
-/

namespace ASNPrefixMap.Routing

open Lib Prefix Peer

/-! ## States -/

/-- The invariant of a state: that of each family. The families share nothing,
and every operation is about one of them. -/
structure StateInv (state : RoutingState) : Prop where
  v4 : TablesInv state.v4
  v6 : TablesInv state.v6

theorem stateInv_empty : StateInv {} := ⟨tablesInv_empty, tablesInv_empty⟩

/-- The origin and timestamp a state stores for a prefix and a peer. This is the
abstraction function of the refinement: a state is seen as a partial map,
without records, counters or winners. -/
def live (state : RoutingState) : BinaryPrefix × PeerId → Option (UInt32 × UInt64)
  | (.v4 p, peerId) => tableEntry state.v4 p peerId
  | (.v6 p, peerId) => tableEntry state.v6 p peerId

theorem live_empty : live {} = fun _ => none := by
  funext ⟨p, j⟩
  cases p <;> rfl

/-- The number of observations a prefix has in a state. -/
def RoutingState.observationCount (state : RoutingState) : BinaryPrefix → Nat
  | .v4 p => Routing.observationCount state.v4 p
  | .v6 p => Routing.observationCount state.v6 p

/-- No prefix has `2^32` or more observations. -/
def Bounded (state : RoutingState) : Prop := ∀ p, state.observationCount p < 2 ^ 32

/-- There is room for an observation of `peerId` at a prefix of either
family. -/
def RoutingState.HasRoom (state : RoutingState) (peerId : PeerId) : BinaryPrefix → Prop
  | .v4 p => Routing.HasRoom state.v4 p peerId
  | .v6 p => Routing.HasRoom state.v6 p peerId

/-! ## The abstract map -/

/-- What a call does to the map from (prefix, peer) to (origin, timestamp). It
is said from what the component is for: the last announcement stands until it is
withdrawn or replaced. -/
def lastWriterStep (m : BinaryPrefix × PeerId → Option (UInt32 × UInt64)) (op : Op) :
    BinaryPrefix × PeerId → Option (UInt32 × UInt64) :=
  match op with
  | .announce peerId pfx asn t => applyWrite m ⟨(pfx, peerId), some (asn, t)⟩
  | .withdraw peerId pfx => applyWrite m ⟨(pfx, peerId), none⟩
  | .restore peerId pfx asn t => applyWrite m ⟨(pfx, peerId), some (asn, t)⟩
  | .rebuild => m
  | .clear => fun _ => none

/-- The map a history leaves, from the empty one. -/
def lastWriterRun (calls : List (HashOrders × Op)) :
    BinaryPrefix × PeerId → Option (UInt32 × UInt64) :=
  calls.foldl (fun m call => lastWriterStep m call.2) fun _ => none

/-! ## One call -/

/-- An update of one family, seen from the state: the other family keeps its
entries. -/
theorem live_setV4 {state : RoutingState} {tables : FamilyTables PrefixV4} {p : PrefixV4}
    {peerId : PeerId} {value : Option (UInt32 × UInt64)}
    (h : ∀ q j, tableEntry tables q j =
      if q = p ∧ peerId = j then value else tableEntry state.v4 q j) :
    live { state with v4 := tables } = applyWrite (live state) ⟨(.v4 p, peerId), value⟩ := by
  funext ⟨q, j⟩
  rw [applyWrite_apply]
  cases q with
  | v4 q => simp only [live, h, Prod.mk.injEq, BinaryPrefix.v4.injEq, eq_comm (a := j)]
  | v6 q => simp only [live, Prod.mk.injEq, reduceCtorEq, false_and, if_false]

theorem live_setV6 {state : RoutingState} {tables : FamilyTables PrefixV6} {p : PrefixV6}
    {peerId : PeerId} {value : Option (UInt32 × UInt64)}
    (h : ∀ q j, tableEntry tables q j =
      if q = p ∧ peerId = j then value else tableEntry state.v6 q j) :
    live { state with v6 := tables } = applyWrite (live state) ⟨(.v6 p, peerId), value⟩ := by
  funext ⟨q, j⟩
  rw [applyWrite_apply]
  cases q with
  | v4 q => simp only [live, Prod.mk.injEq, reduceCtorEq, false_and, if_false]
  | v6 q => simp only [live, h, Prod.mk.injEq, BinaryPrefix.v6.injEq, eq_comm (a := j)]

/-- Announcing is a write of the abstract map, in whichever family the prefix
lies. -/
theorem announce_spec (ord : HashOrders) {state : RoutingState} {peerId : PeerId}
    {pfx : BinaryPrefix} (h : StateInv state) (hroom : state.HasRoom peerId pfx) (asn : UInt32)
    (t : UInt64) :
    StateInv (state.announce ord peerId pfx asn t) ∧
      live (state.announce ord peerId pfx asn t) =
        applyWrite (live state) ⟨(pfx, peerId), some (asn, t)⟩ := by
  unfold RoutingState.announce
  cases pfx with
  | v4 p =>
    obtain ⟨hinv, hentry⟩ := announceImpl_spec ord.counts h.v4 hroom asn t
    exact ⟨⟨hinv, h.v6⟩, live_setV4 hentry⟩
  | v6 p =>
    obtain ⟨hinv, hentry⟩ := announceImpl_spec ord.counts h.v6 hroom asn t
    exact ⟨⟨h.v4, hinv⟩, live_setV6 hentry⟩

theorem withdraw_spec (ord : HashOrders) {state : RoutingState} (h : StateInv state)
    (peerId : PeerId) (pfx : BinaryPrefix) :
    StateInv (state.withdraw ord peerId pfx) ∧
      live (state.withdraw ord peerId pfx) = applyWrite (live state) ⟨(pfx, peerId), none⟩ := by
  unfold RoutingState.withdraw
  cases pfx with
  | v4 p =>
    obtain ⟨hinv, hentry⟩ := withdrawImpl_spec ord.counts h.v4 p peerId
    exact ⟨⟨hinv, h.v6⟩, live_setV4 hentry⟩
  | v6 p =>
    obtain ⟨hinv, hentry⟩ := withdrawImpl_spec ord.counts h.v6 p peerId
    exact ⟨⟨h.v4, hinv⟩, live_setV6 hentry⟩

/-- `restore_observation` is `announce` under another name, in the source
too. -/
theorem restoreObservation_eq (ord : HashOrders) (state : RoutingState) (peerId : PeerId)
    (pfx : BinaryPrefix) (asn : UInt32) (t : UInt64) :
    state.restoreObservation ord peerId pfx asn t = state.announce ord peerId pfx asn t := by
  cases pfx <;> rfl

/-- A rebuild changes nothing, whatever order its loops meet the entries in. -/
theorem rebuildAggregated_eq {state : RoutingState} (h : StateInv state) (ord : HashOrders) :
    state.rebuildAggregated ord = state := by
  rw [RoutingState.rebuildAggregated, rebuildFamily_eq h.v4, rebuildFamily_eq h.v6]

/-- An announcement that left no prefix full had room. -/
theorem hasRoom_of_announce_bounded {ord : HashOrders} {state : RoutingState} {peerId : PeerId}
    {pfx : BinaryPrefix} {asn : UInt32} {t : UInt64} (h : StateInv state)
    (hb : Bounded (state.announce ord peerId pfx asn t)) : state.HasRoom peerId pfx := by
  cases pfx with
  | v4 p => exact hasRoom_of_bounded h.v4 (hb (.v4 p))
  | v6 p => exact hasRoom_of_bounded h.v6 (hb (.v6 p))

/-- A call that leaves no prefix full keeps the invariant and is a step of the
abstract map. -/
theorem stepOp_spec {state : RoutingState} (call : HashOrders × Op) (h : StateInv state)
    (hb : Bounded (stepOp state call)) :
    StateInv (stepOp state call) ∧
      live (stepOp state call) = lastWriterStep (live state) call.2 := by
  obtain ⟨ord, op⟩ := call
  cases op with
  | announce peerId pfx asn t =>
    exact announce_spec ord h (hasRoom_of_announce_bounded h hb) asn t
  | withdraw peerId pfx => exact withdraw_spec ord h peerId pfx
  | restore peerId pfx asn t =>
    have hstep : stepOp state (ord, .restore peerId pfx asn t) =
        state.announce ord peerId pfx asn t := restoreObservation_eq ord state peerId pfx asn t
    rw [hstep] at hb ⊢
    exact announce_spec ord h (hasRoom_of_announce_bounded h hb) asn t
  | rebuild =>
    have hstep : stepOp state (ord, .rebuild) = state := rebuildAggregated_eq h ord
    rw [hstep]
    exact ⟨h, rfl⟩
  | clear => exact ⟨stateInv_empty, live_empty⟩

/-! ## Histories -/

/-- No prefix has `2^32` or more observations at any point of the history, its
start and its end included. -/
def NeverFull (calls : List (HashOrders × Op)) : Prop := Along stepOp Bounded {} calls

/-- The run lemma: after a history that never fills a prefix the state satisfies
the invariant and stands for what the abstract map has become. -/
theorem runOps_spec {calls : List (HashOrders × Op)} (h : NeverFull calls) :
    StateInv (runOps calls) ∧ live (runOps calls) = lastWriterRun calls := by
  have hstep : ∀ (s : RoutingState) (m : BinaryPrefix × PeerId → Option (UInt32 × UInt64))
      (call : HashOrders × Op), (StateInv s ∧ live s = m) → Bounded (stepOp s call) →
      StateInv (stepOp s call) ∧ live (stepOp s call) = lastWriterStep m call.2 := by
    rintro s m call ⟨hs, rfl⟩ hb
    exact stepOp_spec call hs hb
  exact run_simulation hstep calls _ _ ⟨stateInv_empty, live_empty⟩ h

/-! ## Short histories are never full -/

section Size

variable {P : Type} [DecidableEq P]

/-- Storing a record sets the count of its prefix. -/
theorem observationCount_insert (tables : FamilyTables P) (aggregated : FiniteMap P UInt32)
    (p q : P) (record : PrefixRecord) :
    Routing.observationCount ⟨tables.byPrefix.insert p record, aggregated⟩ q =
      if q = p then record.observations.length else Routing.observationCount tables q := by
  rw [Routing.observationCount, lookup_insert_eq]
  split <;> rfl

/-- An announcement adds at most one observation to any prefix. -/
theorem observationCount_announceImpl_le (ord : IterOrder UInt32 UInt32)
    (tables : FamilyTables P) (p : P) (peerId : PeerId) (asn : UInt32) (t : UInt64) (q : P) :
    Routing.observationCount (announceImpl ord tables p peerId asn t) q ≤
      Routing.observationCount tables q + 1 := by
  -- every branch stores one record, at `p`
  have hstore : ∀ (record : PrefixRecord) (aggregated : FiniteMap P UInt32),
      record.observations.length ≤ Routing.observationCount tables p + 1 →
      Routing.observationCount ⟨tables.byPrefix.insert p record, aggregated⟩ q ≤
        Routing.observationCount tables q + 1 := by
    intro record aggregated hle
    rw [observationCount_insert]
    split
    next hq => rw [hq]; exact hle
    next => exact Nat.le_succ _
  have hlen : ((tables.byPrefix.lookup p).getD {}).observations.length =
      Routing.observationCount tables p := by
    rw [Routing.observationCount]
    cases tables.byPrefix.lookup p <;> rfl
  rw [announceImpl]
  dsimp only
  split
  next =>
    split
    next => exact hstore _ _ (by dsimp only; omega)
    next => exact hstore _ _ (by rw [length_changeOrigin]; omega)
  next =>
    refine hstore _ _ ?_
    rw [length_addObservation, hlen]

/-- A withdrawal adds none. -/
theorem observationCount_withdrawImpl_le (ord : IterOrder UInt32 UInt32)
    (tables : FamilyTables P) (p : P) (peerId : PeerId) (q : P) :
    Routing.observationCount (withdrawImpl ord tables p peerId) q ≤
      Routing.observationCount tables q := by
  rw [withdrawImpl]
  split
  next => exact Nat.le_refl _
  next record hp =>
    split
    next => exact Nat.le_refl _
    next i o hf =>
      have hlt := (List.getElem?_eq_some_iff.mp (findPeer_eq_some hf).1).1
      have hrem : (removeObservation record i o).observations =
          swapRemove record.observations i := by
        rw [removeObservation, decrementAsnCount_fields]
      dsimp only
      split
      next =>
        rw [Routing.observationCount, lookup_erase_eq]
        split
        next => exact Nat.zero_le _
        next => exact Nat.le_refl _
      next =>
        rw [observationCount_insert]
        split
        next hq =>
          have hold : Routing.observationCount tables q = record.observations.length := by
            rw [Routing.observationCount, hq, hp]
            rfl
          have hnew : (if (o.originAsn == record.selectedAsn) = true then
              recomputeSelectedFromCounts ord (removeObservation record i o)
              else removeObservation record i o).observations =
                swapRemove record.observations i := by
            split
            next => rw [observations_recompute, hrem]
            next => exact hrem
          rw [hnew, length_swapRemove hlt, hold]
          exact Nat.sub_le _ _
        next => exact Nat.le_refl _

end Size

/-- One call adds at most one observation to any prefix. -/
theorem observationCount_stepOp_le {state : RoutingState} (h : StateInv state)
    (call : HashOrders × Op) (p : BinaryPrefix) :
    (stepOp state call).observationCount p ≤ state.observationCount p + 1 := by
  obtain ⟨ord, op⟩ := call
  have hannounce : ∀ peerId pfx asn t, (state.announce ord peerId pfx asn t).observationCount p ≤
      state.observationCount p + 1 := by
    intro peerId pfx asn t
    cases pfx with
    | v4 q =>
      cases p with
      | v4 p => exact observationCount_announceImpl_le _ _ _ _ _ _ _
      | v6 p => exact Nat.le_succ _
    | v6 q =>
      cases p with
      | v4 p => exact Nat.le_succ _
      | v6 p => exact observationCount_announceImpl_le _ _ _ _ _ _ _
  cases op with
  | announce peerId pfx asn t => exact hannounce peerId pfx asn t
  | withdraw peerId pfx =>
    cases pfx with
    | v4 q =>
      cases p with
      | v4 p => exact Nat.le_succ_of_le (observationCount_withdrawImpl_le _ _ _ _ _)
      | v6 p => exact Nat.le_succ _
    | v6 q =>
      cases p with
      | v4 p => exact Nat.le_succ _
      | v6 p => exact Nat.le_succ_of_le (observationCount_withdrawImpl_le _ _ _ _ _)
  | restore peerId pfx asn t =>
    have hstep : stepOp state (ord, .restore peerId pfx asn t) =
        state.announce ord peerId pfx asn t := restoreObservation_eq ord state peerId pfx asn t
    rw [hstep]
    exact hannounce peerId pfx asn t
  | rebuild =>
    have hstep : stepOp state (ord, .rebuild) = state := rebuildAggregated_eq h ord
    rw [hstep]
    exact Nat.le_succ _
  | clear =>
    cases p <;> exact Nat.zero_le _

/-- A history of fewer than `2^32` calls never fills a prefix. The induction is
on the calls from the end, since a prefix of a short history is short. -/
theorem neverFull_of_length : ∀ (calls : List (HashOrders × Op)), calls.length < 2 ^ 32 →
    NeverFull calls := by
  have hrun : ∀ calls : List (HashOrders × Op), calls.length < 2 ^ 32 →
      StateInv (runOps calls) ∧ ∀ p, (runOps calls).observationCount p ≤ calls.length := by
    intro calls
    -- from the end: the last call meets the state all others have made
    induction calls using List.reverseRecOn with
    | nil =>
      intro _
      refine ⟨stateInv_empty, fun p => ?_⟩
      cases p <;> exact Nat.le_refl 0
    | append_singleton calls call ih =>
      intro hlen
      rw [List.length_append, List.length_singleton] at hlen ⊢
      obtain ⟨hinv, hcount⟩ := ih (by omega)
      have hrun : runOps (calls ++ [call]) = stepOp (runOps calls) call := by
        rw [runOps, List.foldl_append]
        rfl
      have hle : ∀ p, (stepOp (runOps calls) call).observationCount p ≤ calls.length + 1 :=
        fun p => Nat.le_trans (observationCount_stepOp_le hinv call p)
          (Nat.succ_le_succ (hcount p))
      rw [hrun]
      exact ⟨(stepOp_spec call hinv fun p => Nat.lt_of_le_of_lt (hle p) hlen).1, hle⟩
  intro calls hlen n p
  have htake : (calls.take n).length ≤ calls.length := List.length_take_le' n calls
  exact Nat.lt_of_le_of_lt ((hrun (calls.take n) (by omega)).2 p) (by omega)

/-! ## Agreement of the redundant views -/

/-- Everything a record holds besides its observations is computed from them.
The counters are compared as numbers: an origin with votes has a counter with
exactly as many, and no other origin has one. -/
structure RecordConsistent (record : PrefixRecord) : Prop where
  nonempty : record.observations ≠ []
  aligned : record.timestamps.length = record.observations.length
  distinct : (record.observations.map Observation.peerId).Nodup
  counted : ∀ asn, (record.asnCounts.lookup asn).map UInt32.toNat =
    if tally record.observations asn = 0 then none else some (tally record.observations asn)
  selectedCount : record.selectedCount.toNat = tally record.observations record.selectedAsn
  plurality : ∀ asn, asn ≠ record.selectedAsn →
    tally record.observations asn < tally record.observations record.selectedAsn ∨
      (tally record.observations asn = tally record.observations record.selectedAsn ∧
        record.selectedAsn < asn)

/-- The maps of a family have the same keys, consistent records and their
winners. The statement names no invariant of the proof. -/
structure TablesConsistent {P : Type} [DecidableEq P] (tables : FamilyTables P) : Prop where
  sameKeys : ∀ p, (tables.byPrefix.lookup p).isSome = (tables.aggregated.lookup p).isSome
  record : ∀ p r, tables.byPrefix.lookup p = some r → RecordConsistent r
  winner : ∀ p r, tables.byPrefix.lookup p = some r →
    tables.aggregated.lookup p = some r.selectedAsn

/-- The invariant of a record says that its redundant parts are what its
observations make them. -/
theorem LiveRecord.consistent {record : PrefixRecord} (h : LiveRecord record) :
    RecordConsistent record := by
  obtain ⟨hcount, hmax⟩ := h.inv.plurality h.bounded h.nonempty
  refine ⟨h.nonempty, h.inv.aligned, h.inv.distinct, ?_, hcount, ?_⟩
  · intro asn
    rw [h.inv.counted asn]
    split
    next => rfl
    next =>
      rw [Option.map_some, UInt32.toNat_ofNat_of_lt'
        (Nat.lt_of_le_of_lt (tally_le_length _ _) h.bounded)]
  · intro asn hne
    rcases hmax asn with hlt | ⟨heq, hle⟩ | h0
    · exact Or.inl hlt
    · refine Or.inr ⟨heq, ?_⟩
      rw [UInt32.lt_iff_toNat_lt]
      rw [UInt32.le_iff_toNat_le] at hle
      exact Nat.lt_of_le_of_ne hle fun e => hne (UInt32.toNat_inj.mp e).symm
    · left
      rw [h0]
      exact h.tally_selected_pos

/-- The invariant of a family says so of all its records. -/
theorem TablesInv.consistent {P : Type} [DecidableEq P] {tables : FamilyTables P}
    (h : TablesInv tables) : TablesConsistent tables where
  sameKeys p := by rw [h.agree, Option.isSome_map]
  record p r hr := (h.live p r hr).consistent
  winner p r hr := by rw [h.agree, hr, Option.map_some]

/-- **Incremental selection equals full recomputation.** After any history, in
both families, the records, their counters and winners and the aggregated table
agree, and rebuilding them under any iteration order leaves the state as it is.
The code touches the counters an event is about and looks at the others only
when the winner has lost a vote. A history may be as long as it likes, if no
prefix ever has more peers than a counter can count. -/
theorem incremental_selection_eq_recomputation (calls : List (HashOrders × Op))
    (h : NeverFull calls) :
    TablesConsistent (runOps calls).v4 ∧ TablesConsistent (runOps calls).v6 ∧
      ∀ ord : HashOrders, (runOps calls).rebuildAggregated ord = runOps calls := by
  have hinv := (runOps_spec h).1
  exact ⟨hinv.v4.consistent, hinv.v6.consistent, rebuildAggregated_eq hinv⟩

/-- Two peers tie, and the smaller origin, ASN 0, wins the vote. Zero is no
sentinel: whether there is a winner is told by its count. -/
theorem incremental_selection_eq_recomputation_tie :
    TablesConsistent (runOps
        [(.ascending, .announce 1 (.v4 ⟨0x0A000000, 8⟩) 65001 100),
          (.ascending, .announce 2 (.v4 ⟨0x0A000000, 8⟩) 0 101)]).v4 ∧
      (runOps [(.ascending, .announce 1 (.v4 ⟨0x0A000000, 8⟩) 65001 100),
          (.ascending, .announce 2 (.v4 ⟨0x0A000000, 8⟩) 0 101)]).v4.aggregated.lookup
        ⟨0x0A000000, 8⟩ = some 0 := by
  refine ⟨(incremental_selection_eq_recomputation _ (neverFull_of_length _ (by decide))).1, ?_⟩
  decide

/-! ## Stored observations -/

/-- The key and the value of a stored observation. -/
def StoredObservation.key (o : StoredObservation) : BinaryPrefix × PeerId :=
  (o.pfx, o.observation.peerId)

/-- What the abstract map holds under the key: the origin and the timestamp. -/
def StoredObservation.value (o : StoredObservation) : UInt32 × UInt64 :=
  (o.observation.originAsn, o.timestamp)

section Stored

variable {P : Type} [DecidableEq P]

/-- One family lists an observation for each of its entries. -/
theorem mem_appendStoredObservations {tables : FamilyTables P} (h : RowsKept tables)
    (records : IterOrder P PrefixRecord) (mk : P → BinaryPrefix) (o : StoredObservation) :
    o ∈ appendStoredObservations records mk tables ↔
      ∃ p, mk p = o.pfx ∧ tableEntry tables p o.observation.peerId = some o.value := by
  have hl := records.listing tables.byPrefix
  rw [appendStoredObservations, List.mem_flatMap]
  constructor
  · rintro ⟨⟨p, record⟩, hentry, hmem⟩
    obtain ⟨⟨obs, t⟩, hrow, rfl⟩ := List.mem_map.mp hmem
    have hp := (hl.mem_iff p record).mp hentry
    refine ⟨p, rfl, ?_⟩
    rw [tableEntry_of_lookup hp]
    exact (h p record hp).peerEntry_eq_some.mpr hrow
  · rintro ⟨p, hpfx, hentry⟩
    cases hp : tables.byPrefix.lookup p with
    | none =>
      rw [tableEntry, hp, Option.bind_none] at hentry
      cases hentry
    | some record =>
      rw [tableEntry_of_lookup hp] at hentry
      refine ⟨(p, record), (hl.mem_iff p record).mpr hp, List.mem_map.mpr ⟨(o.observation, o.timestamp),
        (h p record hp).peerEntry_eq_some.mp hentry, ?_⟩⟩
      obtain ⟨pfx, obs, t⟩ := o
      cases hpfx
      rfl

/-- No key is listed twice. -/
theorem nodup_keys_appendStoredObservations {tables : FamilyTables P} (h : RowsKept tables)
    (records : IterOrder P PrefixRecord) {mk : P → BinaryPrefix} (hmk : Function.Injective mk) :
    ((appendStoredObservations records mk tables).map StoredObservation.key).Nodup := by
  have hl := records.listing tables.byPrefix
  rw [appendStoredObservations, List.map_flatMap, List.nodup_flatMap]
  constructor
  · rintro ⟨p, record⟩ hentry
    have hinv := h p record ((hl.mem_iff p record).mp hentry)
    rw [List.map_map]
    have hkeys : (rows record).map (StoredObservation.key ∘ fun row => ⟨mk p, row.1, row.2⟩) =
        ((rows record).map fun row => row.1.peerId).map (Prod.mk (mk p)) := by
      rw [List.map_map]
      rfl
    exact hkeys ▸ hinv.nodup_keys.map (Prod.mk_right_injective _)
  · -- the rows of two prefixes differ in the prefix
    have hdistinct : (records.entries tables.byPrefix).Pairwise fun a b => a.1 ≠ b.1 :=
      List.pairwise_map.mp hl.nodup
    refine hdistinct.imp fun {a b} hab => ?_
    rw [Function.onFun, List.disjoint_left]
    intro k ha hb
    obtain ⟨oa, hoa, rfl⟩ := List.mem_map.mp ha
    obtain ⟨ob, hob, hkey⟩ := List.mem_map.mp hb
    obtain ⟨ra, -, rfl⟩ := List.mem_map.mp hoa
    obtain ⟨rb, -, rfl⟩ := List.mem_map.mp hob
    exact hab (hmk (congrArg Prod.fst hkey).symm)

/-- The rows of a family carry its prefixes. -/
theorem pfx_of_mem_appendStoredObservations {tables : FamilyTables P}
    {records : IterOrder P PrefixRecord} {mk : P → BinaryPrefix} {o : StoredObservation}
    (h : o ∈ appendStoredObservations records mk tables) : ∃ p, mk p = o.pfx := by
  obtain ⟨entry, -, hmem⟩ := List.mem_flatMap.mp h
  obtain ⟨row, -, rfl⟩ := List.mem_map.mp hmem
  exact ⟨entry.1, rfl⟩

/-- The aggregated table has an entry for each prefix with an observation. -/
theorem size_aggregated {tables : FamilyTables P} (h : TablesInv tables) :
    FiniteMap.size tables.aggregated = {p | ∃ j, tableEntry tables p j ≠ none}.ncard := by
  have hset : {p | ∃ j, tableEntry tables p j ≠ none} = ↑tables.aggregated.keys := by
    ext p
    rw [Set.mem_ofPred_eq, Finset.mem_coe, mem_keys_iff, h.agree, Option.isSome_map]
    cases hp : tables.byPrefix.lookup p with
    | none =>
      rw [Option.isSome_none]
      constructor
      · rintro ⟨j, hj⟩
        rw [tableEntry, hp, Option.bind_none] at hj
        exact absurd rfl hj
      · intro hf
        cases hf
    | some record =>
      refine ⟨fun _ => rfl, fun _ => ?_⟩
      have hlive := h.live p record hp
      obtain ⟨o, l, hol⟩ := List.exists_cons_of_ne_nil hlive.nonempty
      refine ⟨o.peerId, ?_⟩
      rw [tableEntry_of_lookup hp, ne_eq, hlive.inv.rowsInv.peerEntry_eq_none]
      intro hall
      exact hall o (hol ▸ List.mem_cons_self) rfl
  rw [FiniteMap.size, hset, Set.ncard_coe_finset]

end Stored

/-- The records of both families have their arrays in step. Every history keeps
this, also one that fills a prefix. -/
structure RoutingState.RowsKept (state : RoutingState) : Prop where
  v4 : Routing.RowsKept state.v4
  v6 : Routing.RowsKept state.v6

/-- What `stored_observations` returns, in terms of the entries of the state. -/
theorem RoutingState.RowsKept.mem_storedObservations {state : RoutingState} (h : state.RowsKept)
    (ord : HashOrders) (o : StoredObservation) :
    o ∈ state.storedObservations ord ↔ live state o.key = some o.value := by
  rw [RoutingState.storedObservations, List.mem_append, mem_appendStoredObservations h.v4,
    mem_appendStoredObservations h.v6]
  obtain ⟨pfx, obs, t⟩ := o
  cases pfx with
  | v4 p =>
    constructor
    · rintro (⟨q, hq, hentry⟩ | ⟨q, hq, -⟩)
      · cases hq
        exact hentry
      · cases hq
    · exact fun hentry => Or.inl ⟨p, rfl, hentry⟩
  | v6 p =>
    constructor
    · rintro (⟨q, hq, -⟩ | ⟨q, hq, hentry⟩)
      · cases hq
      · cases hq
        exact hentry
    · exact fun hentry => Or.inr ⟨p, rfl, hentry⟩

/-- No key is listed twice. The prefixes of the two families differ as
`BinaryPrefix` values. -/
theorem RoutingState.RowsKept.nodup_keys {state : RoutingState} (h : state.RowsKept)
    (ord : HashOrders) : ((state.storedObservations ord).map StoredObservation.key).Nodup := by
  rw [RoutingState.storedObservations, List.map_append, List.nodup_append]
  refine ⟨nodup_keys_appendStoredObservations h.v4 _ fun _ _ => BinaryPrefix.v4.inj,
    nodup_keys_appendStoredObservations h.v6 _ fun _ _ => BinaryPrefix.v6.inj, ?_⟩
  intro a ha b hb hab
  obtain ⟨oa, hoa, rfl⟩ := List.mem_map.mp ha
  obtain ⟨ob, hob, rfl⟩ := List.mem_map.mp hb
  obtain ⟨p, hp⟩ := pfx_of_mem_appendStoredObservations hoa
  obtain ⟨q, hq⟩ := pfx_of_mem_appendStoredObservations hob
  have hpfx : oa.pfx = ob.pfx := congrArg Prod.fst hab
  rw [← hp, ← hq] at hpfx
  cases hpfx

/-- The invariant of a state includes that of its arrays. -/
theorem StateInv.rowsKept {state : RoutingState} (h : StateInv state) : state.RowsKept :=
  ⟨h.v4.rowsKept, h.v6.rowsKept⟩

theorem mem_storedObservations {state : RoutingState} (h : StateInv state) (ord : HashOrders)
    (o : StoredObservation) :
    o ∈ state.storedObservations ord ↔ live state o.key = some o.value :=
  h.rowsKept.mem_storedObservations ord o

theorem nodup_keys_storedObservations {state : RoutingState} (h : StateInv state)
    (ord : HashOrders) :
    ((state.storedObservations ord).map StoredObservation.key).Nodup :=
  RoutingState.RowsKept.nodup_keys ⟨h.v4.rowsKept, h.v6.rowsKept⟩ ord

/-- The key an operation addresses: all others are out of its reach. -/
def Op.touches : Op → BinaryPrefix × PeerId → Prop
  | .announce peerId pfx _ _, key => key = (pfx, peerId)
  | .withdraw peerId pfx, key => key = (pfx, peerId)
  | .restore peerId pfx _ _, key => key = (pfx, peerId)
  | .rebuild, _ => False
  | .clear, _ => True

/-- An operation leaves the entries it does not address alone. -/
theorem lastWriterStep_frame {op : Op} {key : BinaryPrefix × PeerId} (h : ¬ op.touches key)
    (m : BinaryPrefix × PeerId → Option (UInt32 × UInt64)) : lastWriterStep m op key = m key := by
  cases op with
  | announce peerId pfx asn t => exact (applyWrite_apply _ _ _).trans (if_neg h)
  | withdraw peerId pfx => exact (applyWrite_apply _ _ _).trans (if_neg h)
  | restore peerId pfx asn t => exact (applyWrite_apply _ _ _).trans (if_neg h)
  | rebuild => rfl
  | clear => exact absurd trivial h

/-- **`RoutingState` refines a last-writer-wins map.** Under any iteration order
`stored_observations` lists each entry of the abstract map once and nothing
else, an operation leaves the observations with other keys alone, and the active
counts are the numbers of prefixes with a live key. Deletions by swapping with
the last entry change the order of a record, which is no part of the map. -/
theorem stored_observations_refine_lastWriter (calls : List (HashOrders × Op))
    (h : NeverFull calls) (ord : HashOrders) :
    (((runOps calls).storedObservations ord).map StoredObservation.key).Nodup ∧
      (∀ o, o ∈ (runOps calls).storedObservations ord ↔
        lastWriterRun calls o.key = some o.value) ∧
      (∀ call, NeverFull (calls ++ [call]) → ∀ o : StoredObservation, ¬ call.2.touches o.key →
        (o ∈ (runOps (calls ++ [call])).storedObservations ord ↔
          o ∈ (runOps calls).storedObservations ord)) ∧
      (runOps calls).activePrefixesV4Count =
        {p | ∃ j, lastWriterRun calls (.v4 p, j) ≠ none}.ncard ∧
      (runOps calls).activePrefixesV6Count =
        {p | ∃ j, lastWriterRun calls (.v6 p, j) ≠ none}.ncard := by
  obtain ⟨hinv, hlive⟩ := runOps_spec h
  refine ⟨nodup_keys_storedObservations hinv ord, ?_, ?_, ?_, ?_⟩
  · intro o
    rw [mem_storedObservations hinv, hlive]
  · intro call hcall o hframe
    obtain ⟨hinv', hlive'⟩ := runOps_spec hcall
    have hrun : lastWriterRun (calls ++ [call]) = lastWriterStep (lastWriterRun calls) call.2 := by
      rw [lastWriterRun, List.foldl_append]
      rfl
    rw [mem_storedObservations hinv', hlive', hrun, lastWriterStep_frame hframe,
      mem_storedObservations hinv, hlive]
  · rw [← hlive]
    exact size_aggregated hinv.v4
  · rw [← hlive]
    exact size_aggregated hinv.v6

/-- Two peers announce one prefix and the first withdraws: what is left is the
second's. -/
theorem stored_observations_refine_lastWriter_swap :
    (runOps
        [(.ascending, .announce 1 (.v4 ⟨0x0A000000, 8⟩) 65001 100),
          (.ascending, .announce 2 (.v4 ⟨0x0A000000, 8⟩) 65002 101),
          (.ascending, .withdraw 1 (.v4 ⟨0x0A000000, 8⟩))]).storedObservations .ascending =
      [{ pfx := .v4 ⟨0x0A000000, 8⟩, observation := ⟨2, 65002⟩, timestamp := 101 }] ∧
    (∀ o, o ∈ (runOps
        [(.ascending, .announce 1 (.v4 ⟨0x0A000000, 8⟩) 65001 100),
          (.ascending, .announce 2 (.v4 ⟨0x0A000000, 8⟩) 65002 101),
          (.ascending, .withdraw 1 (.v4 ⟨0x0A000000, 8⟩))]).storedObservations .ascending ↔
      lastWriterRun
        [(.ascending, .announce 1 (.v4 ⟨0x0A000000, 8⟩) 65001 100),
          (.ascending, .announce 2 (.v4 ⟨0x0A000000, 8⟩) 65002 101),
          (.ascending, .withdraw 1 (.v4 ⟨0x0A000000, 8⟩))] o.key = some o.value) :=
  ⟨by decide +kernel,
    (stored_observations_refine_lastWriter _ (neverFull_of_length _ (by decide)) .ascending).2.1⟩

end ASNPrefixMap.Routing
