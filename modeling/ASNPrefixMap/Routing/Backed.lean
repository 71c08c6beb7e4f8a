import ASNPrefixMap.Routing.AnyHistory
import ASNPrefixMap.Routing.Renaming

/-!
# What is selected has been observed

After any history, also one in which a counter has wrapped, a prefix with a
selected origin has a record, and every record has an observation
(`backed_runOps`). The selected origin may then be the wrong one, but the
aggregated table never shows a prefix that `storedObservations` does not list
(`RoutingState.Backed.exists_stored`).

No bound on the history is needed for this, unlike for `StateInv`: it is about
which keys are there, and not about who wins the vote. It is what makes an
export after a save safe, see `ASNPrefixMap.Program.Outputs`.
-/

namespace ASNPrefixMap.Routing

open Lib Prefix Peer

section Family

variable {P : Type} [DecidableEq P]

/-- Every selected prefix has a record, and every record an observation. It
holds without a bound on the counters: no field compares a counter with the
observations. -/
structure Backed (tables : FamilyTables P) : Prop where
  rows : RowsKept tables
  recorded : ∀ p, tables.aggregated.lookup p ≠ none → tables.byPrefix.lookup p ≠ none
  observed : ∀ p, tables.byPrefix.lookup p ≠ none → ∃ j, tableEntry tables p j ≠ none

theorem exists_peerEntry {record : PrefixRecord} (h : RowsInv record)
    (hne : record.observations ≠ []) : ∃ j, peerEntry record j ≠ none := by
  obtain ⟨o, ho⟩ := List.exists_mem_of_ne_nil _ hne
  exact ⟨o.peerId, fun hnone => h.peerEntry_eq_none.mp hnone o ho rfl⟩

/-- Replacing the record of one prefix, and what is selected for it. -/
theorem Backed.store {tables : FamilyTables P} (h : Backed tables) {p : P} {record : PrefixRecord}
    (hr : RowsInv record) (hentry : ∃ j, peerEntry record j ≠ none)
    {aggregated : FiniteMap P UInt32}
    (haggregated : ∀ q, q ≠ p → aggregated.lookup q = tables.aggregated.lookup q) :
    Backed ⟨tables.byPrefix.insert p record, aggregated⟩ where
  rows := h.rows.insert p hr aggregated
  recorded q hq := by
    dsimp only at hq ⊢
    rw [lookup_insert_eq]
    by_cases hqp : q = p
    · rw [if_pos hqp]
      exact Option.some_ne_none _
    · rw [haggregated q hqp] at hq
      rw [if_neg hqp]
      exact h.recorded q hq
  observed q hq := by
    by_cases hqp : q = p
    · obtain ⟨j, hj⟩ := hentry
      refine ⟨j, ?_⟩
      rw [tableEntry_insert, if_pos hqp]
      exact hj
    · dsimp only at hq
      rw [lookup_insert_eq, if_neg hqp] at hq
      obtain ⟨j, hj⟩ := h.observed q hq
      refine ⟨j, ?_⟩
      rw [tableEntry_insert, if_neg hqp]
      exact hj

theorem lookup_syncAggregated_ne (aggregated : FiniteMap P UInt32) {p q : P} (h : q ≠ p)
    (record : PrefixRecord) :
    (syncAggregated aggregated p record).lookup q = aggregated.lookup q := by
  rw [lookup_syncAggregated, if_neg h]

/-- Announcing stores a record that has an observation of the peer. -/
theorem Backed.announceImpl {tables : FamilyTables P} (h : Backed tables)
    (ord : IterOrder UInt32 UInt32) (p : P) (peerId : PeerId) (asn : UInt32) (t : UInt64) :
    Backed (announceImpl ord tables p peerId asn t) := by
  obtain ⟨hrows, hentry⟩ := h.rows.announceImpl_spec ord p peerId asn t
  have hwritten : tableEntry (Routing.announceImpl ord tables p peerId asn t) p peerId ≠ none := by
    rw [hentry, if_pos ⟨rfl, rfl⟩]
    exact Option.some_ne_none _
  -- in all three branches the record of `p` is replaced by one that holds the peer's entry
  have hshape : ∃ record aggregated, Routing.announceImpl ord tables p peerId asn t =
      ⟨tables.byPrefix.insert p record, aggregated⟩ ∧
        ∀ q, q ≠ p → aggregated.lookup q = tables.aggregated.lookup q := by
    unfold Routing.announceImpl
    dsimp only
    cases findPeer peerId ((tables.byPrefix.lookup p).getD {}).observations with
    | none => exact ⟨_, _, rfl, fun q hq => lookup_syncAggregated_ne _ hq _⟩
    | some found =>
      obtain ⟨i, o⟩ := found
      dsimp only
      split
      next => exact ⟨_, _, rfl, fun q _ => rfl⟩
      next => exact ⟨_, _, rfl, fun q hq => lookup_syncAggregated_ne _ hq _⟩
  obtain ⟨record, aggregated, heq, haggregated⟩ := hshape
  rw [heq] at hrows hwritten ⊢
  have hlookup : (tables.byPrefix.insert p record).lookup p = some record := Finmap.lookup_insert _
  rw [tableEntry_insert, if_pos rfl] at hwritten
  exact h.store (hrows p record hlookup) ⟨peerId, hwritten⟩ haggregated

/-- Withdrawing takes the prefix out of both maps when it takes the last
observation, so no prefix stays selected without a record. -/
theorem Backed.withdrawImpl {tables : FamilyTables P} (h : Backed tables)
    (ord : IterOrder UInt32 UInt32) (p : P) (peerId : PeerId) :
    Backed (withdrawImpl ord tables p peerId) := by
  unfold Routing.withdrawImpl
  cases hp : tables.byPrefix.lookup p with
  | none => exact h
  | some record =>
    dsimp only
    cases hfind : findPeer peerId record.observations with
    | none => exact h
    | some found =>
      obtain ⟨i, o⟩ := found
      have hr := removeObservation_rowsInv (h.rows p record hp) (findPeer_eq_some hfind).1
      dsimp only
      split
      next =>
        -- the prefix goes from both maps
        have hlookup : ∀ q, (tables.byPrefix.erase p).lookup q ≠ none →
            q ≠ p ∧ tables.byPrefix.lookup q ≠ none := by
          intro q hq
          rw [lookup_erase_eq] at hq
          by_cases hqp : q = p
          · rw [if_pos hqp] at hq
            exact absurd rfl hq
          · rw [if_neg hqp] at hq
            exact ⟨hqp, hq⟩
        refine ⟨?_, ?_, ?_⟩
        · intro q r hq
          have hold := hlookup q (by rw [hq]; exact Option.some_ne_none _)
          rw [lookup_erase_eq, if_neg hold.1] at hq
          exact h.rows q r hq
        · intro q hq
          dsimp only at hq ⊢
          rw [lookup_erase_eq] at hq ⊢
          by_cases hqp : q = p
          · rw [if_pos hqp] at hq
            exact absurd rfl hq
          · rw [if_neg hqp] at hq ⊢
            exact h.recorded q hq
        · intro q hq
          obtain ⟨hqp, hold⟩ := hlookup q hq
          obtain ⟨j, hj⟩ := h.observed q hold
          refine ⟨j, ?_⟩
          unfold tableEntry at hj ⊢
          rw [lookup_erase_eq, if_neg hqp]
          exact hj
      next hne =>
        have hleft : (removeObservation record i o).observations ≠ [] := fun hnil => by
          rw [hnil] at hne
          exact hne rfl
        refine h.store ?_ ?_ fun q hq => lookup_syncAggregated_ne _ hq _
        · split
          next => exact recompute_rowsInv ord hr
          next => exact hr
        · split
          next => exact exists_peerEntry (recompute_rowsInv ord hr) hleft
          next => exact exists_peerEntry hr hleft

/-- One step of the rebuilding loop aggregates a prefix that has a record. -/
theorem Backed.recomputePrefixOrigin {tables : FamilyTables P} (h : Backed tables)
    (ord : IterOrder UInt32 UInt32) (p : P) : Backed (recomputePrefixOrigin ord tables p) := by
  cases hp : tables.byPrefix.lookup p with
  | none =>
    rw [recomputePrefixOrigin_of_none ord hp]
    exact h
  | some record =>
    rw [recomputePrefixOrigin_of_some ord hp]
    refine h.store (recompute_rowsInv ord (h.rows p record hp)) ?_
      fun q hq => lookup_syncAggregated_ne _ hq _
    obtain ⟨j, hj⟩ := h.observed p (by rw [hp]; exact Option.some_ne_none _)
    rw [tableEntry_of_lookup hp] at hj
    exact ⟨j, hj⟩

/-- A rebuild starts from an empty aggregated map and adds prefixes with records
only. -/
theorem Backed.rebuildFamily {tables : FamilyTables P} (h : Backed tables)
    (ord : IterOrder UInt32 UInt32) (records : IterOrder P PrefixRecord) :
    Backed (rebuildFamily ord records tables) := by
  have hcleared : Backed { tables with aggregated := ∅ } :=
    ⟨h.rows, fun p hp => absurd rfl hp, h.observed⟩
  unfold Routing.rebuildFamily
  generalize records.entries tables.byPrefix = l
  revert hcleared
  generalize ({ tables with aggregated := ∅ } : FamilyTables P) = start
  induction l generalizing start with
  | nil => exact fun h' => h'
  | cons entry l ih => exact fun h' => ih _ (h'.recomputePrefixOrigin ord entry.1)

theorem backed_empty : Backed ({} : FamilyTables P) :=
  ⟨fun _ _ hp => (by cases hp), fun _ hp => absurd rfl hp, fun _ hp => absurd rfl hp⟩

end Family

/-! ## Histories -/

/-- Both families are backed. -/
structure RoutingState.Backed (state : RoutingState) : Prop where
  v4 : Routing.Backed state.v4
  v6 : Routing.Backed state.v6

/-- The step lemma: each call keeps both families backed. -/
theorem backed_stepOp {state : RoutingState} (h : state.Backed) (call : HashOrders × Op) :
    (stepOp state call).Backed := by
  obtain ⟨ord, op⟩ := call
  cases op with
  | announce peerId pfx asn t =>
    cases pfx with
    | v4 p => exact ⟨h.v4.announceImpl ord.counts p peerId asn t, h.v6⟩
    | v6 p => exact ⟨h.v4, h.v6.announceImpl ord.counts p peerId asn t⟩
  | withdraw peerId pfx =>
    cases pfx with
    | v4 p => exact ⟨h.v4.withdrawImpl ord.counts p peerId, h.v6⟩
    | v6 p => exact ⟨h.v4, h.v6.withdrawImpl ord.counts p peerId⟩
  | restore peerId pfx asn t =>
    cases pfx with
    | v4 p => exact ⟨h.v4.announceImpl ord.counts p peerId asn t, h.v6⟩
    | v6 p => exact ⟨h.v4, h.v6.announceImpl ord.counts p peerId asn t⟩
  | rebuild =>
    exact ⟨h.v4.rebuildFamily ord.counts ord.recordsV4, h.v6.rebuildFamily ord.counts ord.recordsV6⟩
  | clear => exact ⟨backed_empty, backed_empty⟩

/-- The run lemma: whatever the history, a selected prefix has been observed. -/
theorem backed_runOps (calls : List (HashOrders × Op)) : (runOps calls).Backed := by
  induction calls using List.reverseRecOn with
  | nil => exact ⟨backed_empty, backed_empty⟩
  | append_singleton calls call ih =>
    have hrun : runOps (calls ++ [call]) = stepOp (runOps calls) call := by
      rw [runOps, List.foldl_append]
      rfl
    rw [hrun]
    exact backed_stepOp ih call

/-- A prefix of the aggregated table is among the stored observations. -/
theorem RoutingState.Backed.exists_stored {state : RoutingState} (h : state.Backed)
    (ord : HashOrders) {pfx : BinaryPrefix} (hselected : state.selected pfx ≠ none) :
    ∃ o ∈ state.storedObservations ord, o.pfx = pfx := by
  have hlive : ∃ j, live state (pfx, j) ≠ none := by
    cases pfx with
    | v4 p => exact h.v4.observed p (h.v4.recorded p hselected)
    | v6 p => exact h.v6.observed p (h.v6.recorded p hselected)
  obtain ⟨j, hj⟩ := hlive
  obtain ⟨value, hvalue⟩ := Option.ne_none_iff_exists'.mp hj
  have hrows : state.RowsKept := ⟨h.v4.rows, h.v6.rows⟩
  exact ⟨⟨pfx, ⟨j, value.1⟩, value.2⟩, (hrows.mem_storedObservations ord _).mpr hvalue, rfl⟩

end ASNPrefixMap.Routing
