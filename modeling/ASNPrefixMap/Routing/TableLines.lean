import ASNPrefixMap.Routing.Export

/-!
# The lines of the exported tables

An export walks over three hash maps, and its lines stand in the order in which
the entries are met. Nothing else depends on these orders: the pairs that are
written are the same (`exportedPairs_perm`), and the prefixes of an origin are
sorted before they are written (`asnTable_perm`). So two exports of one state
have the same lines (`exportTables_sameLines`).

The first section reads a successful export back: `to_string` may fail for a
prefix, and a table that exists was written from prefixes with a text.
`printedBy` is then right wherever it is used.
-/

namespace ASNPrefixMap.Routing

open Lib Prefix Peer

/-! ## An export that has returned -/

section Family

variable {P : Type} [DecidableEq P]

/-- The text of a prefix, if there is one. The empty text stands for those where
`to_string` throws, and no successful export meets them. -/
def printedBy (toString : P → Except Exception Bytes) (p : P) : Bytes :=
  match toString p with
  | .ok text => text
  | .error _ => []

/-- An export that returns has written the pairs. -/
theorem appendExports_eq_ok {order : IterOrder P UInt32} {toString : P → Except Exception Bytes}
    {aggregated : FiniteMap P UInt32} {exports exports' : Exports}
    (h : appendExports order toString aggregated exports = .ok exports') :
    exports' = exports.add (pairsOf order (printedBy toString) aggregated) := by
  unfold appendExports at h
  unfold pairsOf
  revert h
  induction order.entries aggregated generalizing exports with
  | nil =>
    intro h
    rw [← Except.ok.inj h]
    unfold Exports.add
    rw [List.map_nil]
    exact congrArg (fun stream => Exports.mk stream exports.asnMap) (List.append_nil _).symm
  | cons entry entries ih =>
    intro h
    rw [List.foldlM_cons] at h
    obtain ⟨exports₁, hentry, hrest⟩ := bind_eq_ok.mp h
    have hadded : exports₁ = exports.add [(printedBy toString entry.1, entry.2)] := by
      unfold exportEntry at hentry
      obtain ⟨text, htext, heq⟩ := bind_eq_ok.mp hentry
      cases heq
      unfold printedBy Exports.add
      rw [htext, List.map_singleton, unlines_singleton]
      rfl
    rw [ih hrest, hadded, ← Exports.add_append]
    rfl

/-- Another order of the map gives the same pairs. -/
theorem pairsOf_perm (order order' : IterOrder P UInt32) (printed : P → Bytes)
    (aggregated : FiniteMap P UInt32) :
    (pairsOf order printed aggregated).Perm (pairsOf order' printed aggregated) :=
  ((order.listing aggregated).perm (order'.listing aggregated)).map _

end Family

/-- Both tables are written from the same pairs. -/
theorem exportTables_eq_ok {net : Inet} {ord : ExportOrders} {state : RoutingState}
    {tables : Bytes × Bytes} (h : state.exportTables net ord = .ok tables) :
    let pairs := state.exportedPairs ord (printedBy (BinaryPrefix.toString net))
    tables = (unlines (pairs.map prefixLine),
      unlines ((asnTable ord.asnMap pairs).map fun row => asnLine row.1 row.2)) := by
  unfold RoutingState.exportTables at h
  obtain ⟨exports₄, hv4, hrest⟩ := bind_eq_ok.mp h
  obtain ⟨exports₆, hv6, heq⟩ := bind_eq_ok.mp hrest
  have hexports : exports₆ = Exports.add {}
      (state.exportedPairs ord (printedBy (BinaryPrefix.toString net))) := by
    rw [appendExports_eq_ok hv6, appendExports_eq_ok hv4, ← Exports.add_append]
    rfl
  have hrows : ∀ pairs, ((ord.asnMap.entries (groups (pairs.map Prod.swap))).flatMap
      fun entry => asnLine entry.1 (sortTexts entry.2) ++ [newline]) =
        unlines ((asnTable ord.asnMap pairs).map fun row => asnLine row.1 row.2) := by
    intro pairs
    rw [asnTable, List.map_map]
    exact (unlines_map _ _).symm
  cases heq
  dsimp only
  rw [hexports, ← hrows]
  rfl

/-! ## Other orders -/

/-- Other orders of both maps give the same pairs. -/
theorem exportedPairs_perm (ord ord' : ExportOrders) (printed : BinaryPrefix → Bytes)
    (state : RoutingState) :
    (state.exportedPairs ord printed).Perm (state.exportedPairs ord' printed) :=
  (pairsOf_perm _ _ _ _).append (pairsOf_perm _ _ _ _)

/-- The values collected under a key, from permuted pairs, are permuted. -/
theorem valuesOf_perm {K V : Type} [DecidableEq K] {pairs pairs' : List (K × V)}
    (h : pairs.Perm pairs') (key : K) : (valuesOf pairs key).Perm (valuesOf pairs' key) :=
  (h.filter _).map _

/-- Sorting makes equal what is equal up to the order. -/
theorem sortTexts_perm {texts texts' : List Bytes} (h : texts.Perm texts') :
    sortTexts texts = sortTexts texts' := sortBy_perm strictPreference_lt h

/-- The rows are the same, and so is each of them. -/
theorem asnTable_perm (order order' : IterOrder UInt32 (List Bytes))
    {pairs pairs' : List (Bytes × UInt32)} (h : pairs.Perm pairs') :
    (asnTable order pairs).Perm (asnTable order' pairs') := by
  refine (List.perm_ext_iff_of_nodup (nodup_asnTable.of_map _) (nodup_asnTable.of_map _)).mpr ?_
  intro row
  have hvalues := valuesOf_perm (h.map Prod.swap) row.1
  have hnil : valuesOf (pairs.map Prod.swap) row.1 = [] ↔ valuesOf (pairs'.map Prod.swap) row.1 = [] := by
    rw [← List.length_eq_zero_iff, hvalues.length_eq, List.length_eq_zero_iff]
  rw [mem_asnTable, mem_asnTable, sortTexts_perm hvalues, Ne, hnil]

/-- **The lines of the tables do not depend on the order** in which an export
meets its entries. -/
theorem exportTables_sameLines {net : Inet} {ord ord' : ExportOrders} {state : RoutingState}
    {tables tables' : Bytes × Bytes} (h : state.exportTables net ord = .ok tables)
    (h' : state.exportTables net ord' = .ok tables') :
    SameLines tables.1 tables'.1 ∧ SameLines tables.2 tables'.2 := by
  have hpairs := exportedPairs_perm ord ord' (printedBy (BinaryPrefix.toString net)) state
  rw [exportTables_eq_ok h, exportTables_eq_ok h']
  exact ⟨sameLines_unlines (hpairs.map _),
    sameLines_unlines ((asnTable_perm ord.asnMap ord'.asnMap hpairs).map _)⟩

end ASNPrefixMap.Routing
