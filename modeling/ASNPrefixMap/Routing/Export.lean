import ASNPrefixMap.Lib.Grouping
import ASNPrefixMap.Lib.Sorting
import ASNPrefixMap.Prefix.Normal
import ASNPrefixMap.Routing.Votes

/-!
# The exported tables

`export_tables` in `src/routing_state.cpp` writes the aggregated maps twice: a
line for each prefix with its origin, and a line for each origin with its
prefixes, collected from both families and sorted as strings. Both are written
from one list of pairs (`exportTables_eq`), and what the pairs are is known from
the observations: a text is paired with an origin exactly when it is the text of
a prefix with that plurality origin (`mem_exportedPairs`). So the tables are two
views of one mapping (`exportTables_inverse`).

Mirroring notes:

- The two streams are byte strings. That a stream may not have opened, which the
  source does not check, and that both may write to one file, is dealt with
  where the files are: in `Program`.

- `to_string` can throw where `inet_ntop` fails, so an export is an `Except`. A
  table that was begun is then cut short; the caller ends.

- `std::sort` on strings is `sortTexts`: any sort gives the same list, since the
  order on byte strings is total and antisymmetric.
-/

namespace ASNPrefixMap.Routing

open Lib Prefix Peer

/-! ## Exporting -/

/-- The iteration orders of the hash maps that an export walks over. The map
from origins to prefixes is one of them, so neither table comes sorted. -/
structure ExportOrders where
  aggregatedV4 : IterOrder PrefixV4 UInt32
  aggregatedV6 : IterOrder PrefixV6 UInt32
  asnMap : IterOrder UInt32 (List Bytes)

theorem toNat_injective : Function.Injective UInt32.toNat := fun _ _ => UInt32.toNat_inj.mp

/-- Every map in ascending order of its keys. -/
def ExportOrders.ascending : ExportOrders where
  aggregatedV4 := .byKey PrefixV4.rank PrefixV4.rank_injective
  aggregatedV6 := .byKey PrefixV6.rank PrefixV6.rank_injective
  asnMap := .byKey UInt32.toNat toNat_injective

/-- What `append_exports` adds to: the text of the prefix table, and
`asn_map`. -/
structure Exports where
  prefixStream : Bytes := []
  asnMap : FiniteMap UInt32 (List Bytes) := ∅

section Family

variable {P : Type} [DecidableEq P]

/-- The body of the loop in `append_exports`: one line of the prefix table, and
one entry for the ASN table. -/
def exportEntry (toString : P → Except Exception Bytes) (exports : Exports) (entry : P × UInt32) :
    Except Exception Exports := do
  let prefixText ← toString entry.1
  return {
    prefixStream :=
      exports.prefixStream ++ (prefixText ++ [tab] ++ toDec entry.2.toNat ++ [newline])
    asnMap := pushBack exports.asnMap entry.2 prefixText }

/-- `append_exports`, over the entries in the order of the map. -/
def appendExports (order : IterOrder P UInt32) (toString : P → Except Exception Bytes)
    (aggregated : FiniteMap P UInt32) (exports : Exports) : Except Exception Exports :=
  (order.entries aggregated).foldlM (exportEntry toString) exports

end Family

/-- `std::sort` on strings. -/
def sortTexts (texts : List Bytes) : List Bytes :=
  texts.insertionSort fun left right => decide (right < left) = false

/-- A line of the ASN table, without its end. -/
def asnLine (asn : UInt32) (prefixes : List Bytes) : Bytes :=
  toDec asn.toNat ++ prefixes.flatMap fun pfx => tab :: pfx

/-- What `export_tables` writes to its two files, which it takes to be open. -/
def RoutingState.exportTables (net : Inet) (ord : ExportOrders) (state : RoutingState) :
    Except Exception (Bytes × Bytes) := do
  let exports ← appendExports ord.aggregatedV4 (PrefixV4.toString net) state.v4.aggregated {}
  let exports ← appendExports ord.aggregatedV6 (PrefixV6.toString net) state.v6.aggregated exports
  return (exports.prefixStream,
    (ord.asnMap.entries exports.asnMap).flatMap fun entry =>
      asnLine entry.1 (sortTexts entry.2) ++ [newline])

/-! ## The mapping -/

/-- A line of the prefix table, without its end. -/
def prefixLine (row : Bytes × UInt32) : Bytes := row.1 ++ [tab] ++ toDec row.2.toNat

/-- Two tables that show the plurality origins of the observed prefixes, one by
prefix and one by origin, each key on one line and the prefixes of a line in
order. -/
structure InverseTables (net : Inet) (stored : List StoredObservation)
    (prefixRows : List (Bytes × UInt32)) (asnRows : List (UInt32 × List Bytes)) : Prop where
  /-- A prefix with an observation is on one line, with its plurality origin. -/
  once : ∀ pfx text, pfx.toString net = .ok text → (∃ o ∈ stored, o.pfx = pfx) →
    ∃ asn, PluralityOrigin stored pfx asn ∧
      prefixRows.filter (fun row => row.1 = text) = [(text, asn)]
  /-- There are no other lines. -/
  observed : ∀ row ∈ prefixRows, ∃ pfx, pfx.toString net = .ok row.1 ∧ ∃ o ∈ stored, o.pfx = pfx
  /-- An origin has one row if it is the plurality origin of a prefix of either
  family, -/
  asnOnce : (asnRows.map Prod.fst).Nodup
  /-- and none else. -/
  selected : ∀ asn, asn ∈ asnRows.map Prod.fst ↔ ∃ pfx, PluralityOrigin stored pfx asn
  increasing : ∀ row ∈ asnRows, row.2.Pairwise (· < ·)
  inverse : ∀ text asn, (text, asn) ∈ prefixRows ↔ ∃ row ∈ asnRows, row.1 = asn ∧ text ∈ row.2
  /-- A prefix without observations, such as one that was withdrawn, is
  nowhere. -/
  withdrawn : ∀ pfx text, pfx.toString net = .ok text → (∀ o ∈ stored, o.pfx ≠ pfx) →
    text ∉ prefixRows.map Prod.fst ∧ ∀ row ∈ asnRows, text ∉ row.2

/-- The fields on a line of each table. -/
def prefixFields (row : Bytes × UInt32) : List Bytes := [row.1, toDec row.2.toNat]
/-- The fields of a line of the ASN table: the number, and the texts of its
prefixes. -/
def asnFields (row : UInt32 × List Bytes) : List Bytes := toDec row.1.toNat :: row.2

/-- What a reader finds who cuts the lines of the two files at the tabs: a
prefix and its origin in the one, an origin and its prefixes in the other. -/
structure ReadsBack (files : Bytes × Bytes) (prefixRows : List (Bytes × UInt32))
    (asnRows : List (UInt32 × List Bytes)) : Prop where
  prefixes : (getLines files.1).map (List.splitOn tab) = prefixRows.map prefixFields
  asns : (getLines files.2).map (List.splitOn tab) = asnRows.map asnFields

/-- A line of the prefix table is its fields with a tab between them. -/
theorem prefixLine_eq_intercalate (row : Bytes × UInt32) :
    prefixLine row = [tab].intercalate (prefixFields row) := by
  unfold prefixLine prefixFields
  rw [intercalate_cons_eq_flatMap, List.flatMap_singleton, List.append_assoc, List.singleton_append]

/-- A line of the ASN table, which begins each further field with its tab, is
its fields with tabs between them. -/
theorem asnLine_eq_intercalate (row : UInt32 × List Bytes) :
    asnLine row.1 row.2 = [tab].intercalate (asnFields row) := by
  unfold asnLine asnFields
  rw [intercalate_cons_eq_flatMap]

/-- Nothing about the rows is lost in the files. -/
theorem InverseTables.readsBack {net : Inet} {stored : List StoredObservation}
    {prefixRows : List (Bytes × UInt32)} {asnRows : List (UInt32 × List Bytes)}
    (h : InverseTables net stored prefixRows asnRows)
    (hfit : ∀ row ∈ prefixRows, tab ∉ row.1 ∧ newline ∉ row.1) :
    ReadsBack (unlines (prefixRows.map prefixLine),
      unlines (asnRows.map fun row => asnLine row.1 row.2)) prefixRows asnRows := by
  have hnumber : ∀ n, tab ∉ toDec n ∧ newline ∉ toDec n := fun n =>
    ⟨notMem_toDec (by decide) n, notMem_toDec (by decide) n⟩
  have hprefixLine : prefixLine = fun row => [tab].intercalate (prefixFields row) :=
    funext prefixLine_eq_intercalate
  have hasnLine : (fun row : UInt32 × List Bytes => asnLine row.1 row.2) =
      fun row => [tab].intercalate (asnFields row) := funext asnLine_eq_intercalate
  constructor
  · rw [hprefixLine]
    refine splitOn_getLines_unlines (fun _ => List.cons_ne_nil _ _) fun row hrow field hfield => ?_
    rcases List.mem_cons.mp hfield with rfl | hfield
    · exact hfit row hrow
    · rw [List.mem_singleton.mp hfield]
      exact hnumber _
  · rw [hasnLine]
    refine splitOn_getLines_unlines (fun _ => List.cons_ne_nil _ _) fun row hrow field hfield => ?_
    rcases List.mem_cons.mp hfield with rfl | hfield
    · exact hnumber _
    · -- the prefixes of an origin are those of the prefix table
      exact hfit (field, row.1) ((h.inverse field row.1).mpr ⟨row, hrow, rfl, hfield⟩)

/-! ## What is written -/

section Written

variable {P : Type} [DecidableEq P]

/-- The entries of one family as pairs of a text and an origin, in the order
they are met. -/
def pairsOf (order : IterOrder P UInt32) (printed : P → Bytes) (aggregated : FiniteMap P UInt32) :
    List (Bytes × UInt32) :=
  (order.entries aggregated).map fun entry => (printed entry.1, entry.2)

/-- What a list of pairs adds to an export. -/
def Exports.add (exports : Exports) (pairs : List (Bytes × UInt32)) : Exports where
  prefixStream := exports.prefixStream ++ unlines (pairs.map prefixLine)
  asnMap := pushAll exports.asnMap (pairs.map Prod.swap)

theorem Exports.add_append (exports : Exports) (pairs₁ pairs₂ : List (Bytes × UInt32)) :
    exports.add (pairs₁ ++ pairs₂) = (exports.add pairs₁).add pairs₂ := by
  unfold Exports.add
  rw [List.map_append, List.map_append, unlines_append, pushAll_append, List.append_assoc]

/-- Where every prefix has a text, an export of one family adds its pairs. The
induction is on the entries, and the invariant is that the stream and `asn_map`
come from the same pairs. -/
theorem appendExports_eq {toString : P → Except Exception Bytes} {printed : P → Bytes}
    (h : ∀ p, toString p = .ok (printed p)) (order : IterOrder P UInt32)
    (aggregated : FiniteMap P UInt32) (exports : Exports) :
    appendExports order toString aggregated exports =
      .ok (exports.add (pairsOf order printed aggregated)) := by
  unfold appendExports pairsOf
  induction order.entries aggregated generalizing exports with
  | nil =>
    rw [List.foldlM_nil, List.map_nil]
    unfold Exports.add
    exact congrArg (fun stream => Except.ok (Exports.mk stream exports.asnMap)) (List.append_nil _).symm
  | cons entry entries ih =>
    have hentry : exportEntry toString exports entry =
        .ok (exports.add [(printed entry.1, entry.2)]) := by
      unfold exportEntry Exports.add
      rw [h, ok_bind, List.map_singleton, unlines_singleton]
      rfl
    rw [List.foldlM_cons, hentry, ok_bind, ih, ← Exports.add_append]
    rfl

/-- One family's pairs are its aggregated map. -/
theorem mem_pairsOf {order : IterOrder P UInt32} {printed : P → Bytes}
    {aggregated : FiniteMap P UInt32} {text : Bytes} {asn : UInt32} :
    (text, asn) ∈ pairsOf order printed aggregated ↔
      ∃ p, printed p = text ∧ aggregated.lookup p = some asn := by
  unfold pairsOf
  rw [List.mem_map]
  constructor
  · rintro ⟨⟨p, a⟩, hentry, heq⟩
    cases heq
    exact ⟨p, rfl, ((order.listing aggregated).mem_iff p a).mp hentry⟩
  · rintro ⟨p, rfl, hp⟩
    exact ⟨(p, asn), ((order.listing aggregated).mem_iff p asn).mpr hp, rfl⟩

/-- The texts of one family are distinct, as its prefixes are. -/
theorem nodup_pairsOf (order : IterOrder P UInt32) {printed : P → Bytes}
    (hprinted : Function.Injective printed) (aggregated : FiniteMap P UInt32) :
    ((pairsOf order printed aggregated).map Prod.fst).Nodup := by
  have hkeys : (pairsOf order printed aggregated).map Prod.fst =
      ((order.entries aggregated).map Prod.fst).map printed := by
    unfold pairsOf
    rw [List.map_map, List.map_map]
    rfl
  rw [hkeys]
  exact (order.listing aggregated).nodup.map hprinted

end Written

/-- The pairs of both families. -/
def RoutingState.exportedPairs (ord : ExportOrders) (printed : BinaryPrefix → Bytes)
    (state : RoutingState) : List (Bytes × UInt32) :=
  pairsOf ord.aggregatedV4 (fun p => printed (.v4 p)) state.v4.aggregated ++
    pairsOf ord.aggregatedV6 (fun p => printed (.v6 p)) state.v6.aggregated

/-- The rows of the ASN table, each with its prefixes in ascending order. -/
def asnTable (order : IterOrder UInt32 (List Bytes)) (pairs : List (Bytes × UInt32)) :
    List (UInt32 × List Bytes) :=
  (order.entries (groups (pairs.map Prod.swap))).map fun entry => (entry.1, sortTexts entry.2)

section Tables

variable {net : Inet} {printed : BinaryPrefix → Bytes} {state : RoutingState}

/-- Both tables are written from the same pairs. -/
theorem exportTables_eq (hprinted : ∀ p : BinaryPrefix, p.toString net = .ok (printed p))
    (ord : ExportOrders) (state : RoutingState) :
    state.exportTables net ord =
      .ok (unlines ((state.exportedPairs ord printed).map prefixLine),
        unlines ((asnTable ord.asnMap (state.exportedPairs ord printed)).map fun row =>
          asnLine row.1 row.2)) := by
  have hv4 : ∀ p : PrefixV4, p.toString net = .ok (printed (.v4 p)) := fun p => hprinted (.v4 p)
  have hv6 : ∀ p : PrefixV6, p.toString net = .ok (printed (.v6 p)) := fun p => hprinted (.v6 p)
  have hrows : ((ord.asnMap.entries (groups ((state.exportedPairs ord printed).map Prod.swap))).flatMap
      fun entry => asnLine entry.1 (sortTexts entry.2) ++ [newline]) =
        unlines ((asnTable ord.asnMap (state.exportedPairs ord printed)).map fun row =>
          asnLine row.1 row.2) := by
    unfold asnTable
    rw [List.map_map, unlines_map]
    rfl
  unfold RoutingState.exportTables
  rw [appendExports_eq hv4, ok_bind, appendExports_eq hv6, ok_bind, ← Exports.add_append, pure_eq_ok,
    ← hrows]
  rfl

/-- The exported pairs are the aggregated mapping, with prefixes as texts. -/
theorem mem_exportedPairs {ord : ExportOrders} {text : Bytes} {asn : UInt32} :
    (text, asn) ∈ state.exportedPairs ord printed ↔
      ∃ pfx, printed pfx = text ∧ state.selected pfx = some asn := by
  unfold RoutingState.exportedPairs
  rw [List.mem_append, mem_pairsOf, mem_pairsOf]
  constructor
  · rintro (⟨p, hp, hasn⟩ | ⟨p, hp, hasn⟩)
    · exact ⟨.v4 p, hp, hasn⟩
    · exact ⟨.v6 p, hp, hasn⟩
  · rintro ⟨pfx, hp, hasn⟩
    cases pfx with
    | v4 p => exact Or.inl ⟨p, hp, hasn⟩
    | v6 p => exact Or.inr ⟨p, hp, hasn⟩

/-- No text is exported twice, in either family. -/
theorem nodup_exportedPairs (hprinted : Function.Injective printed) (ord : ExportOrders)
    (state : RoutingState) : ((state.exportedPairs ord printed).map Prod.fst).Nodup := by
  unfold RoutingState.exportedPairs
  rw [List.map_append, List.nodup_append]
  refine ⟨nodup_pairsOf _ (fun p q h => BinaryPrefix.v4.inj (hprinted h)) _,
    nodup_pairsOf _ (fun p q h => BinaryPrefix.v6.inj (hprinted h)) _, ?_⟩
  intro text₄ h₄ text₆ h₆ heq
  obtain ⟨⟨_, asn₄⟩, hrow₄, rfl⟩ := List.mem_map.mp h₄
  obtain ⟨⟨_, asn₆⟩, hrow₆, rfl⟩ := List.mem_map.mp h₆
  obtain ⟨p, hp, -⟩ := mem_pairsOf.mp hrow₄
  obtain ⟨q, hq, -⟩ := mem_pairsOf.mp hrow₆
  have hpq := hprinted (hp.trans (heq.trans hq.symm))
  cases hpq

theorem mem_sortTexts {text : Bytes} {texts : List Bytes} : text ∈ sortTexts texts ↔ text ∈ texts :=
  List.mem_insertionSort _

theorem sortTexts_increasing {texts : List Bytes} (h : texts.Nodup) :
    (sortTexts texts).Pairwise (· < ·) := by
  have hstrict := strictPreference_lt (α := Bytes)
  refine ((sortedBy_insertionSort hstrict texts).strict hstrict ?_).imp fun hlt => of_decide_eq_true hlt
  exact (List.perm_insertionSort _ texts).nodup_iff.mpr h

section AsnTable

variable {order : IterOrder UInt32 (List Bytes)} {pairs : List (Bytes × UInt32)}

/-- The ASN table takes the pairs with the origin first. -/
theorem mem_swapped {text : Bytes} {asn : UInt32} :
    (asn, text) ∈ pairs.map Prod.swap ↔ (text, asn) ∈ pairs := by
  rw [List.mem_map]
  constructor
  · rintro ⟨⟨t, a⟩, hmem, heq⟩
    cases heq
    exact hmem
  · exact fun hmem => ⟨(text, asn), hmem, rfl⟩

/-- A row of the ASN table holds an origin that occurs, with all its texts. -/
theorem mem_asnTable {row : UInt32 × List Bytes} :
    row ∈ asnTable order pairs ↔
      row.2 = sortTexts (valuesOf (pairs.map Prod.swap) row.1) ∧
        valuesOf (pairs.map Prod.swap) row.1 ≠ [] := by
  have hl := order.listing (groups (pairs.map Prod.swap))
  unfold asnTable
  rw [List.mem_map]
  constructor
  · rintro ⟨⟨asn, texts⟩, hentry, rfl⟩
    rw [hl.mem_iff, lookup_groups_eq_some] at hentry
    obtain ⟨rfl, hne⟩ := hentry
    exact ⟨rfl, hne⟩
  · obtain ⟨asn, texts⟩ := row
    rintro ⟨htexts, hne⟩
    dsimp only at htexts hne
    subst htexts
    exact ⟨(asn, _), (hl.mem_iff _ _).mpr (lookup_groups_eq_some.mpr ⟨rfl, hne⟩), rfl⟩

/-- The ASN table holds the pairs again. -/
theorem mem_pairs_iff_asnTable {text : Bytes} {asn : UInt32} :
    (text, asn) ∈ pairs ↔ ∃ row ∈ asnTable order pairs, row.1 = asn ∧ text ∈ row.2 := by
  rw [← mem_swapped, mem_groups_iff (order.listing (groups (pairs.map Prod.swap)))]
  unfold asnTable
  constructor
  · rintro ⟨row, hrow, hasn, htext⟩
    exact ⟨(row.1, sortTexts row.2), List.mem_map_of_mem hrow, hasn, mem_sortTexts.mpr htext⟩
  · rintro ⟨sorted, hsorted, hasn, htext⟩
    obtain ⟨row, hrow, rfl⟩ := List.mem_map.mp hsorted
    exact ⟨row, hrow, hasn, mem_sortTexts.mp htext⟩

theorem nodup_asnTable : ((asnTable order pairs).map Prod.fst).Nodup := by
  unfold asnTable
  rw [List.map_map]
  exact (order.listing (groups (pairs.map Prod.swap))).nodup

/-- The origins of the ASN table are those of the pairs. -/
theorem mem_fst_asnTable {asn : UInt32} :
    asn ∈ (asnTable order pairs).map Prod.fst ↔ ∃ text, (text, asn) ∈ pairs := by
  constructor
  · intro h
    obtain ⟨row, hrow, rfl⟩ := List.mem_map.mp h
    obtain ⟨text, htext⟩ := List.exists_mem_of_ne_nil _ (mem_asnTable.mp hrow).2
    exact ⟨text, mem_swapped.mp (mem_valuesOf.mp htext)⟩
  · rintro ⟨text, htext⟩
    obtain ⟨row, hrow, rfl, -⟩ := (@mem_pairs_iff_asnTable order _ _ _).mp htext
    exact List.mem_map_of_mem hrow

/-- The texts of a row ascend strictly, since no text is exported twice. -/
theorem increasing_asnTable (hnodup : (pairs.map Prod.fst).Nodup) :
    ∀ row ∈ asnTable order pairs, row.2.Pairwise (· < ·) := by
  intro row hrow
  rw [(mem_asnTable.mp hrow).1]
  have hsnd : (pairs.map Prod.swap).map Prod.snd = pairs.map Prod.fst := by
    rw [List.map_map]
    rfl
  exact sortTexts_increasing ((hsnd ▸ hnodup).sublist (valuesOf_sublist _ row.1))

end AsnTable

end Tables

/-! ## The theorem -/

/-- **The two exported tables are inverse views of one mapping**, after any
history that never fills a prefix and under any iteration orders; and they
can be read from the files, unless a printed address has a tab or a newline
in it. -/
theorem exportTables_inverse {net : Inet} (hnet : net.TellsApart) {calls : List (HashOrders × Op)}
    (hfull : NeverFull calls) (ord : HashOrders) (exportOrd : ExportOrders) :
    ∃ files prefixRows asnRows,
      (runOps calls).exportTables net exportOrd = .ok files ∧
      files = (unlines (prefixRows.map prefixLine),
        unlines (asnRows.map fun row => asnLine row.1 row.2)) ∧
      InverseTables net ((runOps calls).storedObservations ord) prefixRows asnRows ∧
      ((∀ row ∈ prefixRows, tab ∉ row.1 ∧ newline ∉ row.1) → ReadsBack files prefixRows asnRows) := by
  have hinv := (runOps_spec hfull).1
  choose printed hprinted using hnet.toString_eq_ok
  have hinjective : Function.Injective printed := fun p q heq =>
    hnet.toString_inj (hprinted p) (heq ▸ hprinted q)
  have htext : ∀ {pfx : BinaryPrefix} {text : Bytes}, pfx.toString net = .ok text →
      printed pfx = text := fun h => Except.ok.inj ((hprinted _).symm.trans h)
  have hnodup := nodup_exportedPairs hinjective exportOrd (runOps calls)
  have hinverse : InverseTables net ((runOps calls).storedObservations ord)
      ((runOps calls).exportedPairs exportOrd printed)
      (asnTable exportOrd.asnMap ((runOps calls).exportedPairs exportOrd printed)) := by
    refine
      { once := ?_, observed := ?_, asnOnce := nodup_asnTable, selected := ?_,
        increasing := increasing_asnTable hnodup, inverse := fun _ _ => mem_pairs_iff_asnTable,
        withdrawn := ?_ }
    · rintro pfx text hpfx ⟨o, ho, rfl⟩
      obtain ⟨asn, hasn⟩ := hinv.exists_selected ho
      exact ⟨asn, (hinv.selected_iff ord _ _).mp hasn,
        filter_key_eq_singleton hnodup (mem_exportedPairs.mpr ⟨o.pfx, htext hpfx, hasn⟩)⟩
    · rintro ⟨text, asn⟩ hrow
      obtain ⟨pfx, rfl, hasn⟩ := mem_exportedPairs.mp hrow
      exact ⟨pfx, hprinted pfx, hinv.exists_stored ord hasn⟩
    · intro asn
      rw [mem_fst_asnTable]
      constructor
      · rintro ⟨text, hrow⟩
        obtain ⟨pfx, -, hasn⟩ := mem_exportedPairs.mp hrow
        exact ⟨pfx, (hinv.selected_iff ord pfx asn).mp hasn⟩
      · rintro ⟨pfx, hplurality⟩
        exact ⟨printed pfx, mem_exportedPairs.mpr ⟨pfx, rfl, (hinv.selected_iff ord pfx asn).mpr hplurality⟩⟩
    · intro pfx text hpfx hnone
      -- whoever has this text is this prefix, and would have an observation
      have habsent : ∀ asn, (text, asn) ∉ (runOps calls).exportedPairs exportOrd printed := by
        intro asn hrow
        obtain ⟨q, hq, hasn⟩ := mem_exportedPairs.mp hrow
        obtain rfl := hinjective (hq.trans (htext hpfx).symm)
        obtain ⟨o, ho, heq⟩ := hinv.exists_stored ord hasn
        exact hnone o ho heq
      refine ⟨fun hmem => ?_, fun row hrow hmem => ?_⟩
      · obtain ⟨⟨_, asn⟩, hrow, rfl⟩ := List.mem_map.mp hmem
        exact habsent asn hrow
      · exact habsent row.1 (mem_pairs_iff_asnTable.mpr ⟨row, hrow, rfl, hmem⟩)
  exact ⟨_, _, _, exportTables_eq hprinted exportOrd (runOps calls), rfl, hinverse,
    hinverse.readsBack⟩

/-- A tie, one origin in both families, and a prefix that is withdrawn again. -/
def mixedCalls : List (HashOrders × Op) :=
  [(.ascending, .announce 1 (.v4 ⟨0xCB007100, 24⟩) 64500 100),
    (.ascending, .announce 1 (.v4 ⟨0xC0000200, 24⟩) 64501 101),
    (.ascending, .announce 2 (.v4 ⟨0xC0000200, 24⟩) 64500 102),
    (.ascending, .announce 1 (.v6 ⟨#v[0x20, 1, 0x1D, 0xB8, 0x1A, 1, 0x1A, 2, 0x1A, 3, 0x1A, 4, 0x1A, 5,
      0x1A, 6], 128⟩) 64500 103),
    (.ascending, .announce 1 (.v4 ⟨0xC6336400, 24⟩) 64502 104),
    (.ascending, .withdraw 1 (.v4 ⟨0xC6336400, 24⟩))]

/-- The theorem at a history with both families, a tie and a withdrawn prefix,
with the library's own address texts. -/
theorem exportTables_inverse_mixed :
    ∃ files prefixRows asnRows,
      (runOps mixedCalls).exportTables Inet.standard .ascending = .ok files ∧
      InverseTables Inet.standard ((runOps mixedCalls).storedObservations .ascending) prefixRows
        asnRows := by
  obtain ⟨files, prefixRows, asnRows, hfiles, -, hinverse, -⟩ :=
    exportTables_inverse standard_prints.tellsApart (neverFull_of_length mixedCalls (by decide))
      .ascending .ascending
  exact ⟨files, prefixRows, asnRows, hfiles, hinverse⟩

example : (runOps mixedCalls).exportTables Inet.standard .ascending =
    .ok (bytes "192.0.2.0/24\t64500\n203.0.113.0/24\t64500\n" ++
        bytes "2001:1db8:1a01:1a02:1a03:1a04:1a05:1a06/128\t64500\n",
      bytes "64500\t192.0.2.0/24\t2001:1db8:1a01:1a02:1a03:1a04:1a05:1a06/128\t203.0.113.0/24\n") := by
  decide +kernel

end ASNPrefixMap.Routing
