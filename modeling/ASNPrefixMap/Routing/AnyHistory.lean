import ASNPrefixMap.Routing.Histories

/-!
# After any history

Two things need no bound on the number of observations of a prefix. The
iteration orders of the hash maps are of no account for what a state becomes:
announcing rescans a record in some order and picks the same winner
(`restoreObservation_order_irrel`), and a rebuild visits the records in some
order and each visit touches its own prefix only
(`rebuildAggregated_order_irrel`). And the two arrays of every record stay in
step with one entry for each peer (`rowsKept_runOps`), so `storedObservations`
lists no observation twice (`nodup_storedObservations`).

Where a counter has wrapped, the cached winner may be wrong, and `StateInv`
fails. These results are about the remaining part, which is what saving a
snapshot depends on.
-/

namespace ASNPrefixMap.Routing

open Lib Prefix Peer

section Family

variable {P : Type} [DecidableEq P]

/-! ## Iteration orders -/

/-- The order of the rescan in `changeOrigin` is irrelevant, so that of
`announceImpl` is. -/
theorem announceImpl_order_irrel (ord₁ ord₂ : IterOrder UInt32 UInt32) (tables : FamilyTables P)
    (p : P) (peerId : PeerId) (asn : UInt32) (t : UInt64) :
    announceImpl ord₁ tables p peerId asn t = announceImpl ord₂ tables p peerId asn t := by
  have hchange : ∀ record i o, changeOrigin ord₁ record i o asn t =
      changeOrigin ord₂ record i o asn t := by
    intro record i o
    rw [changeOrigin_eq, changeOrigin_eq]
    dsimp only
    rw [recompute_order_irrel ord₁ ord₂]
  unfold announceImpl
  simp only [hchange]

/-- The order of the rescan after a withdrawal is irrelevant. -/
theorem withdrawImpl_order_irrel (ord₁ ord₂ : IterOrder UInt32 UInt32) (tables : FamilyTables P)
    (p : P) (peerId : PeerId) :
    withdrawImpl ord₁ tables p peerId = withdrawImpl ord₂ tables p peerId := by
  unfold withdrawImpl
  simp only [recompute_order_irrel ord₁ ord₂]

theorem lookup_syncAggregated (aggregated : FiniteMap P UInt32) (p q : P) (record : PrefixRecord) :
    (syncAggregated aggregated p record).lookup q =
      if q = p then (if record.selectedCount = 0 then none else some record.selectedAsn)
      else aggregated.lookup q := by
  unfold syncAggregated
  by_cases h0 : record.selectedCount = 0
  · rw [if_pos h0, if_pos h0, lookup_erase_eq]
  · rw [if_neg h0, if_neg h0, lookup_insert_eq]

/-- A visit to a prefix that has no record does nothing. -/
theorem recomputePrefixOrigin_of_none (ord : IterOrder UInt32 UInt32) {tables : FamilyTables P}
    {p : P} (h : tables.byPrefix.lookup p = none) : recomputePrefixOrigin ord tables p = tables := by
  rw [recomputePrefixOrigin, h]

/-- A visit to a prefix with a record rescans it and repeats the winner. -/
theorem recomputePrefixOrigin_of_some (ord : IterOrder UInt32 UInt32) {tables : FamilyTables P}
    {p : P} {record : PrefixRecord} (h : tables.byPrefix.lookup p = some record) :
    recomputePrefixOrigin ord tables p =
      ⟨tables.byPrefix.insert p (recomputeSelectedFromCounts ord record),
        syncAggregated tables.aggregated p (recomputeSelectedFromCounts ord record)⟩ := by
  rw [recomputePrefixOrigin, h]

/-- A visit leaves the records of the other prefixes alone. -/
theorem byPrefix_recomputePrefixOrigin_ne (ord : IterOrder UInt32 UInt32) (tables : FamilyTables P)
    {p q : P} (h : q ≠ p) :
    (recomputePrefixOrigin ord tables p).byPrefix.lookup q = tables.byPrefix.lookup q := by
  cases hp : tables.byPrefix.lookup p with
  | none => rw [recomputePrefixOrigin_of_none ord hp]
  | some record =>
    rw [recomputePrefixOrigin_of_some ord hp, lookup_insert_eq, if_neg h]

/-- Two visits can be made in either order. -/
theorem recomputePrefixOrigin_comm (ord : IterOrder UInt32 UInt32) (tables : FamilyTables P)
    (p q : P) :
    recomputePrefixOrigin ord (recomputePrefixOrigin ord tables p) q =
      recomputePrefixOrigin ord (recomputePrefixOrigin ord tables q) p := by
  by_cases hpq : p = q
  · rw [hpq]
  · have hq' := byPrefix_recomputePrefixOrigin_ne ord tables (Ne.symm hpq)
    have hp' := byPrefix_recomputePrefixOrigin_ne ord tables hpq
    cases hp : tables.byPrefix.lookup p with
    | none =>
      rw [hp] at hp'
      rw [recomputePrefixOrigin_of_none ord hp, recomputePrefixOrigin_of_none ord hp']
    | some r =>
      cases hq : tables.byPrefix.lookup q with
      | none =>
        rw [hq] at hq'
        rw [recomputePrefixOrigin_of_none ord hq, recomputePrefixOrigin_of_none ord hq']
      | some r' =>
        rw [hp] at hp'
        rw [hq] at hq'
        rw [recomputePrefixOrigin_of_some ord hq', recomputePrefixOrigin_of_some ord hp',
          recomputePrefixOrigin_of_some ord hp, recomputePrefixOrigin_of_some ord hq,
          Finmap.insert_insert_of_ne _ hpq]
        congr 1
        apply Finmap.ext_lookup
        intro x
        simp only [lookup_syncAggregated]
        by_cases hx : x = q
        · have hxp : ¬ x = p := fun e => hpq (e.symm.trans hx)
          rw [if_pos hx, if_neg hxp, if_pos hx]
        · rw [if_neg hx, if_neg hx]

/-- A rebuild ends the same whatever order its loops meet the entries in. -/
theorem rebuildFamily_order_irrel (ord₁ ord₂ : IterOrder UInt32 UInt32)
    (records₁ records₂ : IterOrder P PrefixRecord) (tables : FamilyTables P) :
    rebuildFamily ord₁ records₁ tables = rebuildFamily ord₂ records₂ tables := by
  have hvisit : ∀ tables' p, recomputePrefixOrigin ord₁ tables' p =
      recomputePrefixOrigin (P := P) ord₂ tables' p := by
    intro tables' p
    unfold recomputePrefixOrigin
    simp only [recompute_order_irrel ord₁ ord₂]
  unfold rebuildFamily
  simp only [hvisit]
  exact ((records₁.listing _).perm (records₂.listing _)).foldl_eq'
    (fun a _ b _ tables' => recomputePrefixOrigin_comm ord₂ tables' a.1 b.1) _

/-- Another order of the map lists the same rows. -/
theorem appendStoredObservations_perm (records₁ records₂ : IterOrder P PrefixRecord)
    (mk : P → BinaryPrefix) (tables : FamilyTables P) :
    (appendStoredObservations records₁ mk tables).Perm
      (appendStoredObservations records₂ mk tables) :=
  ((records₁.listing _).perm (records₂.listing _)).flatMap_right _

/-! ## Rows -/

/-- A rescan changes the winner and no row. -/
theorem recompute_rowsInv (ord : IterOrder UInt32 UInt32) {record : PrefixRecord}
    (h : RowsInv record) : RowsInv (recomputeSelectedFromCounts ord record) :=
  ⟨h.aligned, h.distinct⟩

theorem RowsKept.insert {tables : FamilyTables P} (h : RowsKept tables) (p : P)
    {record : PrefixRecord} (hr : RowsInv record) (aggregated : FiniteMap P UInt32) :
    RowsKept ⟨tables.byPrefix.insert p record, aggregated⟩ := by
  intro q r hq
  rw [lookup_insert_eq] at hq
  split at hq
  next =>
    cases hq
    exact hr
  next => exact h q r hq

/-- The record announcing starts from: the one of the prefix, or the empty
one. -/
theorem RowsKept.getD {tables : FamilyTables P} (h : RowsKept tables) (p : P) :
    RowsInv ((tables.byPrefix.lookup p).getD {}) := by
  cases hp : tables.byPrefix.lookup p with
  | none => exact recordInv_empty.rowsInv
  | some record => exact h p record hp

/-- The entries of a prefix are those of the record announcing starts from. -/
theorem peerEntry_getD (tables : FamilyTables P) (p : P) (j : PeerId) :
    peerEntry ((tables.byPrefix.lookup p).getD {}) j = tableEntry tables p j := by
  unfold tableEntry
  cases tables.byPrefix.lookup p <;> rfl

/-- Storing a record that differs from the old one in the entry of one peer. -/
theorem RowsKept.store {tables : FamilyTables P} (h : RowsKept tables) {p : P}
    {record : PrefixRecord} (hr : RowsInv record) {peerId : PeerId}
    {value : Option (UInt32 × UInt64)}
    (hentry : ∀ j, peerEntry record j = if peerId = j then value else tableEntry tables p j)
    (aggregated : FiniteMap P UInt32) :
    RowsKept ⟨tables.byPrefix.insert p record, aggregated⟩ ∧
      ∀ q j, tableEntry ⟨tables.byPrefix.insert p record, aggregated⟩ q j =
        if q = p ∧ peerId = j then value else tableEntry tables q j := by
  refine ⟨h.insert p hr aggregated, tableEntry_update fun q j => ?_⟩
  rw [tableEntry_insert, hentry]

/-- Announcing writes the entry of the peer and no other, whatever the counters
say. -/
theorem RowsKept.announceImpl_spec {tables : FamilyTables P} (h : RowsKept tables)
    (ord : IterOrder UInt32 UInt32) (p : P) (peerId : PeerId) (asn : UInt32) (t : UInt64) :
    RowsKept (announceImpl ord tables p peerId asn t) ∧
      ∀ q j, tableEntry (announceImpl ord tables p peerId asn t) q j =
        if q = p ∧ peerId = j then some (asn, t) else tableEntry tables q j := by
  have hr := h.getD p
  unfold Routing.announceImpl
  dsimp only
  cases hfind : findPeer peerId ((tables.byPrefix.lookup p).getD {}).observations with
  | none =>
    obtain ⟨hadd, hrows⟩ := addObservation_rowsInv hr (findPeer_eq_none hfind) asn t
    refine h.store hadd (fun j => ?_) _
    rw [peerEntry_of_rows_concat hadd hrows, peerEntry_getD]
  | some found =>
    obtain ⟨i, o⟩ := found
    obtain ⟨hi, hid⟩ := findPeer_eq_some hfind
    dsimp only
    split
    next hasn =>
      -- only the timestamp is written
      obtain ⟨hrefresh, hrows⟩ := refresh_rowsInv hr hi t
      refine h.store hrefresh (fun j => ?_) _
      rw [peerEntry_of_rows_set hr hi rfl hrows, hid, hasn, peerEntry_getD]
    next =>
      obtain ⟨hchange, hrows⟩ := changeOrigin_rowsInv ord hr hi asn t
      have hsame : (⟨o.peerId, asn⟩ : Observation).peerId = o.peerId := rfl
      refine h.store hchange (fun j => ?_) _
      rw [peerEntry_of_rows_set hr hi hsame hrows, hid, peerEntry_getD]

/-- Withdrawing keeps the arrays in step, whatever the counters say. -/
theorem RowsKept.withdrawImpl {tables : FamilyTables P} (h : RowsKept tables)
    (ord : IterOrder UInt32 UInt32) (p : P) (peerId : PeerId) :
    RowsKept (withdrawImpl ord tables p peerId) := by
  unfold Routing.withdrawImpl
  cases hp : tables.byPrefix.lookup p with
  | none => exact h
  | some record =>
    dsimp only
    cases hfind : findPeer peerId record.observations with
    | none => exact h
    | some found =>
      obtain ⟨i, o⟩ := found
      have hr := removeObservation_rowsInv (h p record hp) (findPeer_eq_some hfind).1
      dsimp only
      split
      next =>
        intro q r hq
        rw [lookup_erase_eq] at hq
        split at hq
        next => cases hq
        next => exact h q r hq
      next =>
        refine h.insert p ?_ _
        split
        next => exact recompute_rowsInv ord hr
        next => exact hr

/-- One step of the rebuilding loop writes a winner and no entry. -/
theorem RowsKept.recomputePrefixOrigin {tables : FamilyTables P} (h : RowsKept tables)
    (ord : IterOrder UInt32 UInt32) (p : P) :
    RowsKept (recomputePrefixOrigin ord tables p) ∧
      ∀ q j, tableEntry (recomputePrefixOrigin ord tables p) q j = tableEntry tables q j := by
  cases hp : tables.byPrefix.lookup p with
  | none =>
    rw [recomputePrefixOrigin_of_none ord hp]
    exact ⟨h, fun _ _ => rfl⟩
  | some record =>
    rw [recomputePrefixOrigin_of_some ord hp]
    refine ⟨h.insert p (recompute_rowsInv ord (h _ _ hp)) _, fun q j => ?_⟩
    rw [tableEntry_insert]
    split
    next hq =>
      rw [hq, tableEntry_of_lookup hp]
      rfl
    next => rfl

theorem RowsKept.rebuildFamily {tables : FamilyTables P} (h : RowsKept tables)
    (ord : IterOrder UInt32 UInt32) (records : IterOrder P PrefixRecord) :
    RowsKept (rebuildFamily ord records tables) ∧
      ∀ q j, tableEntry (rebuildFamily ord records tables) q j = tableEntry tables q j := by
  unfold Routing.rebuildFamily
  have hloop : ∀ (l : List (P × PrefixRecord)) (tables' : FamilyTables P), RowsKept tables' →
      RowsKept (l.foldl (fun tables entry => Routing.recomputePrefixOrigin ord tables entry.1) tables') ∧
        ∀ q j, tableEntry (l.foldl (fun tables entry =>
          Routing.recomputePrefixOrigin ord tables entry.1) tables') q j = tableEntry tables' q j := by
    intro l
    induction l with
    | nil => exact fun _ h' => ⟨h', fun _ _ => rfl⟩
    | cons entry l ih =>
      intro tables' h'
      obtain ⟨hstep, hentry⟩ := h'.recomputePrefixOrigin ord entry.1
      obtain ⟨hrest, hkept⟩ := ih _ hstep
      exact ⟨hrest, fun q j => (hkept q j).trans (hentry q j)⟩
  exact hloop _ _ h

end Family

/-! ## States -/

theorem restoreObservation_order_irrel (ord₁ ord₂ : HashOrders) (state : RoutingState)
    (peerId : PeerId) (pfx : BinaryPrefix) (asn : UInt32) (t : UInt64) :
    state.restoreObservation ord₁ peerId pfx asn t = state.restoreObservation ord₂ peerId pfx asn t := by
  unfold RoutingState.restoreObservation
  cases pfx with
  | v4 p =>
    dsimp only
    rw [announceImpl_order_irrel ord₁.counts ord₂.counts]
  | v6 p =>
    dsimp only
    rw [announceImpl_order_irrel ord₁.counts ord₂.counts]

/-- Announcing is restoring. -/
theorem announce_order_irrel (ord₁ ord₂ : HashOrders) (state : RoutingState) (peerId : PeerId)
    (pfx : BinaryPrefix) (asn : UInt32) (t : UInt64) :
    state.announce ord₁ peerId pfx asn t = state.announce ord₂ peerId pfx asn t :=
  restoreObservation_order_irrel ord₁ ord₂ state peerId pfx asn t

theorem withdraw_order_irrel (ord₁ ord₂ : HashOrders) (state : RoutingState) (peerId : PeerId)
    (pfx : BinaryPrefix) : state.withdraw ord₁ peerId pfx = state.withdraw ord₂ peerId pfx := by
  unfold RoutingState.withdraw
  cases pfx with
  | v4 p =>
    dsimp only
    rw [withdrawImpl_order_irrel ord₁.counts ord₂.counts]
  | v6 p =>
    dsimp only
    rw [withdrawImpl_order_irrel ord₁.counts ord₂.counts]

/-- A rebuild ends in the same state whatever orders its loops meet. So a load
is a function of its text. -/
theorem rebuildAggregated_order_irrel (ord₁ ord₂ : HashOrders) (state : RoutingState) :
    state.rebuildAggregated ord₁ = state.rebuildAggregated ord₂ := by
  rw [RoutingState.rebuildAggregated, RoutingState.rebuildAggregated,
    rebuildFamily_order_irrel ord₁.counts ord₂.counts ord₁.recordsV4 ord₂.recordsV4,
    rebuildFamily_order_irrel ord₁.counts ord₂.counts ord₁.recordsV6 ord₂.recordsV6]

/-- The same observations under any iteration orders, in some order. -/
theorem storedObservations_perm (ord₁ ord₂ : HashOrders) (state : RoutingState) :
    (state.storedObservations ord₁).Perm (state.storedObservations ord₂) :=
  (appendStoredObservations_perm _ _ _ _).append (appendStoredObservations_perm _ _ _ _)

theorem rowsKept_empty : RoutingState.RowsKept {} where
  v4 p record hp := by cases hp
  v6 p record hp := by cases hp

/-- Announcing writes its entry also where a counter overflows. -/
theorem RoutingState.RowsKept.announce {state : RoutingState} (h : state.RowsKept) (ord : HashOrders)
    (peerId : PeerId) (pfx : BinaryPrefix) (asn : UInt32) (t : UInt64) :
    (state.announce ord peerId pfx asn t).RowsKept ∧
      live (state.announce ord peerId pfx asn t) =
        applyWrite (live state) ⟨(pfx, peerId), some (asn, t)⟩ := by
  cases pfx with
  | v4 p =>
    obtain ⟨hrows, hentry⟩ := h.v4.announceImpl_spec ord.counts p peerId asn t
    exact ⟨⟨hrows, h.v6⟩, live_setV4 hentry⟩
  | v6 p =>
    obtain ⟨hrows, hentry⟩ := h.v6.announceImpl_spec ord.counts p peerId asn t
    exact ⟨⟨h.v4, hrows⟩, live_setV6 hentry⟩

theorem RoutingState.RowsKept.rebuildAggregated {state : RoutingState} (h : state.RowsKept)
    (ord : HashOrders) :
    (state.rebuildAggregated ord).RowsKept ∧ live (state.rebuildAggregated ord) = live state := by
  obtain ⟨hv4, hentry4⟩ := h.v4.rebuildFamily ord.counts ord.recordsV4
  obtain ⟨hv6, hentry6⟩ := h.v6.rebuildFamily ord.counts ord.recordsV6
  refine ⟨⟨hv4, hv6⟩, ?_⟩
  funext ⟨pfx, j⟩
  cases pfx with
  | v4 p => exact hentry4 p j
  | v6 p => exact hentry6 p j

/-- The step lemma: each call keeps the arrays of every record in step. -/
theorem rowsKept_stepOp {state : RoutingState} (h : state.RowsKept) (call : HashOrders × Op) :
    (stepOp state call).RowsKept := by
  obtain ⟨ord, op⟩ := call
  cases op with
  | announce peerId pfx asn t => exact (h.announce ord peerId pfx asn t).1
  | withdraw peerId pfx =>
    cases pfx with
    | v4 p => exact ⟨h.v4.withdrawImpl ord.counts p peerId, h.v6⟩
    | v6 p => exact ⟨h.v4, h.v6.withdrawImpl ord.counts p peerId⟩
  | restore peerId pfx asn t =>
    have hstep : stepOp state (ord, .restore peerId pfx asn t) =
        state.announce ord peerId pfx asn t := restoreObservation_eq ord state peerId pfx asn t
    rw [hstep]
    exact (h.announce ord peerId pfx asn t).1
  | rebuild => exact (h.rebuildAggregated ord).1
  | clear => exact rowsKept_empty

/-- Every history keeps the rows, also one that fills a prefix. -/
theorem rowsKept_runOps (calls : List (HashOrders × Op)) : (runOps calls).RowsKept := by
  induction calls using List.reverseRecOn with
  | nil => exact rowsKept_empty
  | append_singleton calls call ih =>
    have hrun : runOps (calls ++ [call]) = stepOp (runOps calls) call := by
      rw [runOps, List.foldl_append]
      rfl
    rw [hrun]
    exact rowsKept_stepOp ih call

/-- No history makes `storedObservations` list an observation twice. -/
theorem nodup_storedObservations (calls : List (HashOrders × Op)) (ord : HashOrders) :
    ((runOps calls).storedObservations ord).Nodup :=
  ((rowsKept_runOps calls).nodup_keys ord).of_map _

end ASNPrefixMap.Routing
