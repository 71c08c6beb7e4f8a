import ASNPrefixMap.Routing.RecordInv

/-!
# One address family: records and the aggregated table

`TablesInv` says of the two maps of a family that every record is live (it
satisfies `RecordInv`, holds an observation and fewer than `2^32` of them) and
that `aggregated` repeats exactly the winners of the records. What a family
stands for is `tableEntry`: the origin and timestamp stored for a prefix and a
peer.

One lemma for each operation says everything the rest of the development uses:
`announceImpl_spec`, `withdrawImpl_spec` and `rebuildFamily_eq` give the new
invariant and the new `tableEntry` (set at one key, deleted at one key,
unchanged). Announcing needs room for one more observation (`HasRoom`), which
`hasRoom_of_bounded` reads off the state afterwards.

These three lemmas are all that later modules know of the branches: none of them
unfolds `announceImpl` or `withdrawImpl` again, apart from
`ASNPrefixMap.Routing.AnyHistory`, which proves the part that holds of full
records too.
-/

namespace ASNPrefixMap.Routing

open Lib Prefix Peer

/-! ## What a record stores for a peer -/

/-- The origin and timestamp stored for `peerId`. If a peer had two rows this
would be the first, as it is for the loops of the source; `RowsInv.distinct`
excludes it. -/
def peerEntry (record : PrefixRecord) (peerId : PeerId) : Option (UInt32 × UInt64) :=
  (lookupKey (fun row : Observation × UInt64 => row.1.peerId) peerId (rows record)).map
    fun row => (row.1.originAsn, row.2)

theorem RowsInv.peerEntry_eq_some {record : PrefixRecord} (h : RowsInv record)
    {peerId : PeerId} {asn : UInt32} {t : UInt64} :
    peerEntry record peerId = some (asn, t) ↔ (⟨peerId, asn⟩, t) ∈ rows record := by
  rw [peerEntry, Option.map_eq_some_iff]
  constructor
  · rintro ⟨⟨⟨j, a⟩, t'⟩, hrow, heq⟩
    obtain ⟨hmem, hk⟩ := (lookupKey_eq_some_iff h.nodup_keys).mp hrow
    cases heq
    cases hk
    exact hmem
  · intro hmem
    exact ⟨_, (lookupKey_eq_some_iff h.nodup_keys).mpr ⟨hmem, rfl⟩, rfl⟩

/-- A peer without an observation has no entry, and conversely. This is how the
branches of `announceImpl` are read back. -/
theorem RowsInv.peerEntry_eq_none {record : PrefixRecord} (h : RowsInv record)
    {peerId : PeerId} :
    peerEntry record peerId = none ↔ ∀ o ∈ record.observations, o.peerId ≠ peerId := by
  constructor
  · intro hn o ho hid
    rw [← h.map_fst_rows] at ho
    obtain ⟨⟨o', t⟩, hmem, rfl⟩ := List.mem_map.mp ho
    obtain ⟨j, a⟩ := o'
    cases hid
    rw [h.peerEntry_eq_some.mpr hmem] at hn
    cases hn
  · intro hall
    rw [peerEntry, Option.map_eq_none_iff]
    apply lookupKey_eq_none
    rintro hmem
    obtain ⟨⟨o, t⟩, hrow, rfl⟩ := List.mem_map.mp hmem
    have ho : o ∈ record.observations := by
      rw [← h.map_fst_rows]
      exact List.mem_map.mpr ⟨_, hrow, rfl⟩
    exact hall o ho rfl

/-- A record with the rows of `record` plus one for a fresh peer. -/
theorem peerEntry_of_rows_concat {record r : PrefixRecord} {o : Observation} {t : UInt64}
    (hr : RowsInv r) (hrows : rows r = rows record ++ [(o, t)]) (j : PeerId) :
    peerEntry r j = if o.peerId = j then some (o.originAsn, t) else peerEntry record j := by
  have hnd := hr.nodup_keys
  rw [hrows] at hnd
  rw [peerEntry, hrows, lookupKey_concat hnd]
  split <;> rfl

/-- The row of an observation. -/
theorem RowsInv.rows_getElem {record : PrefixRecord} (h : RowsInv record) {i : Nat}
    {o : Observation} (hi : record.observations[i]? = some o) :
    ∃ hlt : i < (rows record).length, ((rows record)[i]).1 = o := by
  obtain ⟨hlt, hget⟩ := List.getElem?_eq_some_iff.mp hi
  refine ⟨h.length_rows ▸ hlt, ?_⟩
  rw [← hget]
  simp only [← h.map_fst_rows, List.getElem_map]

/-- A record in which the row of a known peer was overwritten. -/
theorem peerEntry_of_rows_set {record r : PrefixRecord} {i : Nat} {o o' : Observation} {t : UInt64}
    (h : RowsInv record) (hi : record.observations[i]? = some o) (hid : o'.peerId = o.peerId)
    (hrows : rows r = (rows record).set i (o', t)) (j : PeerId) :
    peerEntry r j = if o'.peerId = j then some (o'.originAsn, t) else peerEntry record j := by
  obtain ⟨hlt, hfst⟩ := h.rows_getElem hi
  rw [peerEntry, hrows, lookupKey_set hlt (by rw [hfst]; exact hid) h.nodup_keys]
  split <;> rfl

/-- A record from which the row of a known peer was removed. -/
theorem peerEntry_of_rows_swapRemove {record r : PrefixRecord} {i : Nat} {o : Observation}
    (h : RowsInv record) (hi : record.observations[i]? = some o)
    (hrows : rows r = swapRemove (rows record) i) (j : PeerId) :
    peerEntry r j = if o.peerId = j then none else peerEntry record j := by
  obtain ⟨hlt, hfst⟩ := h.rows_getElem hi
  rw [peerEntry, hrows, lookupKey_swapRemove hlt h.nodup_keys, hfst]
  split <;> rfl

/-- Overwriting a timestamp changes one row. It is the branch of `announce_impl`
with the early return. -/
theorem refresh_rowsInv {record : PrefixRecord} {i : Nat} {o : Observation} (h : RowsInv record)
    (hi : record.observations[i]? = some o) (t : UInt64) :
    RowsInv { record with timestamps := record.timestamps.set i t } ∧
      rows { record with timestamps := record.timestamps.set i t } =
        (rows record).set i (o, t) := by
  obtain ⟨hlt, hget⟩ := List.getElem?_eq_some_iff.mp hi
  have hsame : record.observations.set i o = record.observations := by
    rw [← hget, List.set_getElem_self]
  refine ⟨⟨?_, h.distinct⟩, ?_⟩
  · rw [List.length_set, h.aligned]
  · have hset := zip_set record.observations record.timestamps i o t
    rw [hsame] at hset
    exact hset

/-- It changes no counter and no winner, so the early return may leave the
aggregated map as it is. -/
theorem refresh_inv {record : PrefixRecord} {i : Nat} {o : Observation} (h : RecordInv record)
    (hi : record.observations[i]? = some o) (t : UInt64) :
    RecordInv { record with timestamps := record.timestamps.set i t } ∧
      rows { record with timestamps := record.timestamps.set i t } =
        (rows record).set i (o, t) := by
  obtain ⟨hrows, hset⟩ := refresh_rowsInv h.rowsInv hi t
  exact ⟨⟨hrows.aligned, hrows.distinct, h.counted, h.selects⟩, hset⟩

/-! ## The tables of a family -/

section Family

variable {P : Type} [DecidableEq P]

/-- A record as `by_prefix` keeps it: with its invariant, at least one
observation, and fewer than a counter can count. -/
structure LiveRecord (record : PrefixRecord) : Prop where
  inv : RecordInv record
  nonempty : record.observations ≠ []
  bounded : record.observations.length < 2 ^ 32

/-- The winner of a live record has votes. -/
theorem LiveRecord.tally_selected_pos {record : PrefixRecord} (h : LiveRecord record) :
    0 < tally record.observations record.selectedAsn := by
  rw [← (h.inv.plurality h.bounded h.nonempty).1, Nat.pos_iff_ne_zero]
  intro h0
  exact h.inv.selectedCount_ne_zero h.bounded h.nonempty (UInt32.toNat_inj.mp h0)

/-- Every record is live and `aggregated` holds its winner, under the same keys.
This is the invariant of one address family. -/
structure TablesInv (tables : FamilyTables P) : Prop where
  live : ∀ p r, tables.byPrefix.lookup p = some r → LiveRecord r
  agree : ∀ p, tables.aggregated.lookup p =
    (tables.byPrefix.lookup p).map PrefixRecord.selectedAsn

/-- Every record of the family has its arrays in step, with one entry for each
peer. -/
def RowsKept (tables : FamilyTables P) : Prop :=
  ∀ p record, tables.byPrefix.lookup p = some record → RowsInv record

/-- The part of the invariant that is about the arrays. -/
theorem TablesInv.rowsKept {tables : FamilyTables P} (h : TablesInv tables) : RowsKept tables :=
  fun p record hp => (h.live p record hp).inv.rowsInv

theorem tablesInv_empty : TablesInv ({} : FamilyTables P) where
  live _ _ h := by cases h
  agree _ := rfl

/-- The origin and timestamp a family stores for a prefix and a peer. -/
def tableEntry (tables : FamilyTables P) (p : P) (peerId : PeerId) : Option (UInt32 × UInt64) :=
  (tables.byPrefix.lookup p).bind fun record => peerEntry record peerId

/-- The entries of a prefix with a record are those of the record. -/
theorem tableEntry_of_lookup {tables : FamilyTables P} {p : P} {record : PrefixRecord}
    (h : tables.byPrefix.lookup p = some record) (peerId : PeerId) :
    tableEntry tables p peerId = peerEntry record peerId := by
  rw [tableEntry, h, Option.bind_some]

/-- Storing a record changes the entries of its prefix. The aggregated map has
no part in it. -/
theorem tableEntry_insert (tables : FamilyTables P) (aggregated : FiniteMap P UInt32) (p q : P)
    (record : PrefixRecord) (j : PeerId) :
    tableEntry ⟨tables.byPrefix.insert p record, aggregated⟩ q j =
      if q = p then peerEntry record j else tableEntry tables q j := by
  rw [tableEntry, tableEntry, lookup_insert_eq]
  split <;> rfl

/-- For a live record `sync_aggregated` stores the winner. The erasing branch is
for a record without votes, and `withdraw_impl` erases the key itself in that
case. -/
theorem LiveRecord.sync_eq {record : PrefixRecord} (h : LiveRecord record)
    (aggregated : FiniteMap P UInt32) (p : P) :
    syncAggregated aggregated p record = aggregated.insert p record.selectedAsn := by
  rw [syncAggregated, if_neg (h.inv.selectedCount_ne_zero h.bounded h.nonempty)]

/-- Storing a live record and its winner under a key. -/
theorem TablesInv.insert {tables : FamilyTables P} (h : TablesInv tables) (p : P)
    {record : PrefixRecord} (hr : LiveRecord record) :
    TablesInv ⟨tables.byPrefix.insert p record, tables.aggregated.insert p record.selectedAsn⟩ where
  live q r hq := by
    rw [lookup_insert_eq] at hq
    split at hq
    next => cases hq; exact hr
    next => exact h.live q r hq
  agree q := by
    rw [lookup_insert_eq, lookup_insert_eq]
    split
    next => rfl
    next => exact h.agree q

/-- Erasing a key from both maps, as `withdraw_impl` does with the last
observation. -/
theorem TablesInv.erase {tables : FamilyTables P} (h : TablesInv tables) (p : P) :
    TablesInv ⟨tables.byPrefix.erase p, tables.aggregated.erase p⟩ where
  live q r hq := by
    rw [lookup_erase_eq] at hq
    split at hq
    next => cases hq
    next => exact h.live q r hq
  agree q := by
    rw [lookup_erase_eq, lookup_erase_eq]
    split
    next => rfl
    next => exact h.agree q

/-- An update at one prefix and one peer, seen prefix by prefix. -/
theorem tableEntry_update {tables tables' : FamilyTables P} {p : P} {peerId : PeerId}
    {value : Option (UInt32 × UInt64)}
    (h : ∀ q j, tableEntry tables' q j =
      if q = p then (if peerId = j then value else tableEntry tables p j)
      else tableEntry tables q j) (q : P) (j : PeerId) :
    tableEntry tables' q j = if q = p ∧ peerId = j then value else tableEntry tables q j := by
  rw [h]
  by_cases hq : q = p
  · rw [if_pos hq, hq]
    by_cases hj : peerId = j
    · rw [if_pos hj, if_pos ⟨rfl, hj⟩]
    · rw [if_neg hj, if_neg fun e => hj e.2]
  · rw [if_neg hq, if_neg fun e => hq e.1]

/-- Storing a live record that differs from the old one in the entry of one
peer. -/
theorem TablesInv.store {tables : FamilyTables P} (h : TablesInv tables) {p : P}
    {record : PrefixRecord} (hlive : LiveRecord record) {peerId : PeerId}
    {value : Option (UInt32 × UInt64)}
    (hentry : ∀ j, peerEntry record j = if peerId = j then value else tableEntry tables p j) :
    TablesInv ⟨tables.byPrefix.insert p record, tables.aggregated.insert p record.selectedAsn⟩ ∧
      ∀ q j, tableEntry ⟨tables.byPrefix.insert p record,
          tables.aggregated.insert p record.selectedAsn⟩ q j =
        if q = p ∧ peerId = j then value else tableEntry tables q j := by
  refine ⟨h.insert p hlive, tableEntry_update fun q j => ?_⟩
  rw [tableEntry_insert, hentry]

/-! ## Announce -/

/-- There is room for an observation of `peerId`: it has one already, or fewer
than `2^32 - 1` peers do. Without room the counter of the announced origin could
wrap to zero. -/
def HasRoom (tables : FamilyTables P) (p : P) (peerId : PeerId) : Prop :=
  ∀ r, tables.byPrefix.lookup p = some r → peerEntry r peerId = none →
    r.observations.length + 1 < 2 ^ 32

theorem length_addObservation (record : PrefixRecord) (peerId : PeerId) (asn : UInt32)
    (t : UInt64) : (addObservation record peerId asn t).observations.length =
      record.observations.length + 1 := by
  rw [observations_addObservation, List.length_append, List.length_singleton]

/-- A record, the empty one of a fresh key included, that takes a new
observation. -/
theorem addObservation_live {record : PrefixRecord} (h : RecordInv record) {peerId : PeerId}
    (hnew : ∀ o ∈ record.observations, o.peerId ≠ peerId)
    (hlen : record.observations.length + 1 < 2 ^ 32) (asn : UInt32) (t : UInt64) :
    LiveRecord (addObservation record peerId asn t) ∧
      ∀ j, peerEntry (addObservation record peerId asn t) j =
        if peerId = j then some (asn, t) else peerEntry record j := by
  obtain ⟨hinv, hrows⟩ := addObservation_inv h peerId asn t hnew hlen
  refine ⟨⟨hinv, ?_, ?_⟩, peerEntry_of_rows_concat hinv.rowsInv hrows⟩
  · rw [← List.length_pos_iff, length_addObservation]
    exact Nat.succ_pos _
  · rw [length_addObservation]
    exact hlen

/-- A live record in which a known peer announces another origin. -/
theorem changeOrigin_live (ord : IterOrder UInt32 UInt32) {record : PrefixRecord}
    (h : LiveRecord record) {i : Nat} {o : Observation} (hi : record.observations[i]? = some o)
    (asn : UInt32) (t : UInt64) :
    LiveRecord (changeOrigin ord record i o asn t) ∧
      ∀ j, peerEntry (changeOrigin ord record i o asn t) j =
        if o.peerId = j then some (asn, t) else peerEntry record j := by
  obtain ⟨hinv, hrows⟩ := changeOrigin_inv ord h.inv hi h.bounded asn t
  refine ⟨⟨hinv, ?_, ?_⟩, ?_⟩
  · rw [← List.length_pos_iff, length_changeOrigin]
    exact List.length_pos_iff.mpr h.nonempty
  · rw [length_changeOrigin]
    exact h.bounded
  · have hsame : (⟨o.peerId, asn⟩ : Observation).peerId = o.peerId := rfl
    exact peerEntry_of_rows_set h.inv.rowsInv hi hsame hrows

/-- **Announcing** keeps the invariant of the family and sets the entry of one
prefix and one peer. The cases are those of the code: a known peer with the same
origin, a known peer with another one, and a new peer. -/
theorem announceImpl_spec (ord : IterOrder UInt32 UInt32) {tables : FamilyTables P} {p : P}
    {peerId : PeerId} (h : TablesInv tables) (hroom : HasRoom tables p peerId)
    (asn : UInt32) (t : UInt64) :
    TablesInv (announceImpl ord tables p peerId asn t) ∧
      ∀ q j, tableEntry (announceImpl ord tables p peerId asn t) q j =
        if q = p ∧ peerId = j then some (asn, t) else tableEntry tables q j := by
  unfold announceImpl
  cases hp : tables.byPrefix.lookup p with
  | none =>
    -- `by_prefix[prefix]` creates an empty record, and the loop over it finds no peer
    obtain ⟨hlive, hentry⟩ := addObservation_live recordInv_empty
      (fun o ho => absurd ho List.not_mem_nil) (by decide) asn t
    dsimp only [Option.getD_none, findPeer]
    rw [hlive.sync_eq]
    refine h.store hlive fun j => ?_
    rw [hentry, tableEntry, hp]
    rfl
  | some record =>
    have hold := h.live p record hp
    have hentry : ∀ j, tableEntry tables p j = peerEntry record j := tableEntry_of_lookup hp
    dsimp only [Option.getD_some]
    split
    next i o hf =>
      -- the peer is known, with this origin or with another
      obtain ⟨hi, hid⟩ := findPeer_eq_some hf
      split
      next hasn =>
        obtain ⟨hinv, hrows⟩ := refresh_inv hold.inv hi t
        have hagree : tables.aggregated.lookup p = some record.selectedAsn := by
          rw [h.agree, hp, Option.map_some]
        have hlive : LiveRecord { record with timestamps := record.timestamps.set i t } :=
          ⟨hinv, hold.nonempty, hold.bounded⟩
        have hs := h.store (p := p) hlive fun j => by
          rw [peerEntry_of_rows_set hold.inv.rowsInv hi rfl hrows, hid, hasn, ← hentry]
        -- the early return leaves `aggregated` alone: it already holds this winner
        dsimp only at hs
        rw [insert_lookup_self hagree] at hs
        exact hs
      next hasn =>
        obtain ⟨hlive, hnew⟩ := changeOrigin_live ord hold hi asn t
        rw [hlive.sync_eq]
        refine h.store hlive fun j => ?_
        rw [hnew, hid, hentry]
    next hf =>
      -- the peer is new to the prefix, and there is room for its observation
      have hnew := findPeer_eq_none hf
      have hlt := hroom record hp (hold.inv.rowsInv.peerEntry_eq_none.mpr hnew)
      obtain ⟨hlive, hadd⟩ := addObservation_live hold.inv hnew hlt asn t
      rw [hlive.sync_eq]
      refine h.store hlive fun j => ?_
      rw [hadd, hentry]

/-- The number of observations a prefix has. -/
def observationCount (tables : FamilyTables P) (p : P) : Nat :=
  ((tables.byPrefix.lookup p).map fun r => r.observations.length).getD 0

/-- An announcement that left a prefix with fewer than `2^32` observations had
room. So histories can be restricted by what they leave, without a look into the
records. -/
theorem hasRoom_of_bounded {ord : IterOrder UInt32 UInt32} {tables : FamilyTables P} {p : P}
    {peerId : PeerId} {asn : UInt32} {t : UInt64} (h : TablesInv tables)
    (hb : observationCount (announceImpl ord tables p peerId asn t) p < 2 ^ 32) :
    HasRoom tables p peerId := by
  intro r hr hnone
  have hnew := (h.live p r hr).inv.rowsInv.peerEntry_eq_none.mp hnone
  have hf : findPeer peerId r.observations = none := by
    cases hc : findPeer peerId r.observations with
    | none => rfl
    | some found =>
      obtain ⟨hi, hid⟩ := findPeer_eq_some (hc.trans (congrArg some (Prod.mk.eta (p := found)).symm))
      exact absurd hid (hnew _ (List.mem_of_getElem? hi))
  rw [announceImpl, hr, Option.getD_some, hf] at hb
  dsimp only at hb
  rw [observationCount, Finmap.lookup_insert, Option.map_some, Option.getD_some,
    length_addObservation] at hb
  exact hb

/-! ## Withdraw -/

/-- The record `withdraw_impl` stores when observations are left. -/
theorem removeObservation_live (ord : IterOrder UInt32 UInt32) {record : PrefixRecord}
    (h : LiveRecord record) {i : Nat} {o : Observation} (hi : record.observations[i]? = some o)
    (hne : (removeObservation record i o).observations ≠ []) :
    LiveRecord (if o.originAsn == record.selectedAsn then
        recomputeSelectedFromCounts ord (removeObservation record i o)
      else removeObservation record i o) := by
  obtain ⟨hinv, hrows, hobs⟩ := removeObservation_inv ord h.inv hi h.bounded
  obtain ⟨hlt, _⟩ := h.inv.rowsInv.rows_getElem hi
  have hlen := hinv.rowsInv.length_rows
  rw [hrows, length_swapRemove hlt, h.inv.rowsInv.length_rows] at hlen
  refine ⟨hinv, ?_, ?_⟩
  · rw [hobs]
    exact hne
  · have := h.bounded
    omega

/-- Withdrawing what is not there: the early returns of `withdraw_impl`. -/
theorem TablesInv.withdraw_none {tables : FamilyTables P} (h : TablesInv tables) {p : P}
    {peerId : PeerId} (hnone : tableEntry tables p peerId = none) :
    TablesInv tables ∧ ∀ q j, tableEntry tables q j =
      if q = p ∧ peerId = j then none else tableEntry tables q j := by
  refine ⟨h, fun q j => ?_⟩
  split
  next hc => rw [hc.1, ← hc.2, hnone]
  next => rfl

/-- **Withdrawing** keeps the invariant of the family and deletes the entry of
one prefix and one peer. It needs no bound: a withdrawal never increments a
counter. -/
theorem withdrawImpl_spec (ord : IterOrder UInt32 UInt32) {tables : FamilyTables P}
    (h : TablesInv tables) (p : P) (peerId : PeerId) :
    TablesInv (withdrawImpl ord tables p peerId) ∧
      ∀ q j, tableEntry (withdrawImpl ord tables p peerId) q j =
        if q = p ∧ peerId = j then none else tableEntry tables q j := by
  unfold withdrawImpl
  cases hp : tables.byPrefix.lookup p with
  | none => exact h.withdraw_none (by rw [tableEntry, hp, Option.bind_none])
  | some record =>
    have hold := h.live p record hp
    have hentry : ∀ j, tableEntry tables p j = peerEntry record j := tableEntry_of_lookup hp
    dsimp only
    split
    next hf =>
      refine h.withdraw_none ?_
      rw [hentry, hold.inv.rowsInv.peerEntry_eq_none]
      exact findPeer_eq_none hf
    next i o hf =>
      obtain ⟨hi, hid⟩ := findPeer_eq_some hf
      obtain ⟨hinv, hrows, hobs⟩ := removeObservation_inv ord hold.inv hi hold.bounded
      have hrest := peerEntry_of_rows_swapRemove hold.inv.rowsInv hi hrows
      split
      next hempty =>
        refine ⟨h.erase p, tableEntry_update fun q j => ?_⟩
        rw [tableEntry, lookup_erase_eq]
        split
        next =>
          -- no row is left, so every entry of the prefix is gone
          have hnone := hrest j
          rw [hinv.rowsInv.peerEntry_eq_none.mpr (by
            rw [hobs, List.isEmpty_iff.mp hempty]
            exact fun o ho => absurd ho List.not_mem_nil), hid] at hnone
          rw [Option.bind_none, hentry]
          exact hnone
        next => rfl
      next hempty =>
        have hlive := removeObservation_live ord hold hi fun e => hempty (List.isEmpty_iff.mpr e)
        rw [hlive.sync_eq]
        refine h.store hlive fun j => ?_
        rw [hrest j, hid, hentry]

/-! ## Rebuild -/

/-- On live records one step of the loop stores the winner of the prefix and
writes the record back as it was; `tables'` is what the loop has made of
`tables` so far. -/
theorem recomputePrefixOrigin_spec (ord : IterOrder UInt32 UInt32) {tables tables' : FamilyTables P}
    (h : TablesInv tables) (hbp : tables'.byPrefix = tables.byPrefix) (p : P) :
    (recomputePrefixOrigin ord tables' p).byPrefix = tables.byPrefix ∧
      ∀ q, (recomputePrefixOrigin ord tables' p).aggregated.lookup q =
        if q = p ∧ (tables.byPrefix.lookup q).isSome then tables.aggregated.lookup q
        else tables'.aggregated.lookup q := by
  unfold recomputePrefixOrigin
  rw [hbp]
  cases hp : tables.byPrefix.lookup p with
  | none =>
    refine ⟨hbp, fun q => ?_⟩
    rw [if_neg]
    intro ⟨hq, hs⟩
    rw [hq, hp] at hs
    exact Bool.noConfusion hs
  | some record =>
    have hlive := h.live _ _ hp
    dsimp only
    rw [recompute_eq_self ord hlive.inv.selects, hlive.sync_eq]
    refine ⟨insert_lookup_self hp, fun q => ?_⟩
    rw [lookup_insert_eq]
    by_cases hq : q = p
    · rw [if_pos hq, if_pos ⟨hq, by rw [hq, hp]; rfl⟩, hq, h.agree, hp, Option.map_some]
    · rw [if_neg hq, if_neg fun e => hq e.1]

/-- The loop stores every winner it passes and nothing else. -/
theorem rebuild_loop (ord : IterOrder UInt32 UInt32) {tables : FamilyTables P}
    (h : TablesInv tables) : ∀ (l : List (P × PrefixRecord)) (tables' : FamilyTables P),
    tables'.byPrefix = tables.byPrefix →
    (l.foldl (fun tables entry => recomputePrefixOrigin ord tables entry.1) tables').byPrefix =
        tables.byPrefix ∧
      ∀ q, (l.foldl (fun tables entry => recomputePrefixOrigin ord tables entry.1)
          tables').aggregated.lookup q =
        if q ∈ l.map Prod.fst ∧ (tables.byPrefix.lookup q).isSome then tables.aggregated.lookup q
        else tables'.aggregated.lookup q := by
  intro l
  induction l with
  | nil =>
    intro tables' hbp
    exact ⟨hbp, fun q => by rw [if_neg fun e => List.not_mem_nil e.1]; rfl⟩
  | cons entry l ih =>
    intro tables' hbp
    rw [List.foldl_cons]
    obtain ⟨hstep, hwinner⟩ := recomputePrefixOrigin_spec ord h hbp entry.1
    obtain ⟨hbp', hagg⟩ := ih _ hstep
    refine ⟨hbp', fun q => ?_⟩
    rw [hagg, hwinner, List.map_cons]
    by_cases hs : (tables.byPrefix.lookup q).isSome
    · -- passed later, passed in this step, or not at all
      by_cases hl : q ∈ l.map Prod.fst
      · rw [if_pos ⟨hl, hs⟩, if_pos ⟨List.mem_cons_of_mem _ hl, hs⟩]
      · by_cases hq : q = entry.1
        · rw [if_neg fun e => hl e.1, if_pos ⟨hq, hs⟩, if_pos ⟨hq ▸ List.mem_cons_self, hs⟩]
        · rw [if_neg fun e => hl e.1, if_neg fun e => hq e.1,
            if_neg fun e => (List.mem_cons.mp e.1).elim hq hl]
    · rw [if_neg fun e => hs e.2, if_neg fun e => hs e.2, if_neg fun e => hs e.2]

/-- A full recomputation finds what is there, for any iteration order. So
`rebuild_aggregated` after a load only confirms what the restoring calls have
voted. -/
theorem rebuildFamily_eq {tables : FamilyTables P} (h : TablesInv tables)
    (ord : IterOrder UInt32 UInt32) (records : IterOrder P PrefixRecord) :
    rebuildFamily ord records tables = tables := by
  obtain ⟨hbp, hagg⟩ := rebuild_loop ord h (records.entries tables.byPrefix)
    { tables with aggregated := ∅ } rfl
  have hlisting := records.listing tables.byPrefix
  have hagg' : (rebuildFamily ord records tables).aggregated = tables.aggregated := by
    apply Finmap.ext_lookup
    intro q
    rw [rebuildFamily, hagg]
    by_cases hs : (tables.byPrefix.lookup q).isSome
    · rw [if_pos ⟨(hlisting.mem_fst_iff q).mpr hs, hs⟩]
    · rw [if_neg fun e => hs e.2, h.agree, Option.not_isSome_iff_eq_none.mp hs, Option.map_none]
      rfl
  calc rebuildFamily ord records tables
      = ⟨(rebuildFamily ord records tables).byPrefix,
          (rebuildFamily ord records tables).aggregated⟩ := rfl
    _ = ⟨tables.byPrefix, tables.aggregated⟩ := by rw [hagg', rebuildFamily, hbp]

end Family

end ASNPrefixMap.Routing
