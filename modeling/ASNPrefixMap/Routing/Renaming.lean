import ASNPrefixMap.Routing.Histories

/-!
# The winner does not see peer ids

What a prefix's vote depends on is the multiset of announced origins. So two
states whose observations of a prefix agree up to a renaming of the peer ids
select the same ASN for it (`aggregated_eq_of_renaming`), even when their
records were built in different orders and by different branches.

Peer ids are handed out in order of first appearance, so runs that see the same
messages in another order number the peers differently. This is the module that
makes the numbers irrelevant for what is selected.
-/

namespace ASNPrefixMap.Routing

open Lib Prefix Peer

/-- The number counted most often, the smallest one among equals. -/
structure Wins (count : UInt32 → Nat) (asn : UInt32) : Prop where
  voted : 0 < count asn
  best : ∀ other, other ≠ asn → count other < count asn ∨ (count other = count asn ∧ asn < other)

/-- There is one such number: two of them would beat each other. -/
theorem Wins.unique {count : UInt32 → Nat} {asn₁ asn₂ : UInt32} (h₁ : Wins count asn₁)
    (h₂ : Wins count asn₂) : asn₁ = asn₂ := by
  by_contra hne
  -- two different winners would each be ahead of the other
  have hahead₁ := h₁.best asn₂ (Ne.symm hne)
  have hahead₂ := h₂.best asn₁ hne
  rw [UInt32.lt_iff_toNat_lt] at hahead₁ hahead₂
  omega

/-- The cached winner of a live record is the origin most of its observations
have. -/
theorem LiveRecord.wins {record : PrefixRecord} (h : LiveRecord record) :
    Wins (tally record.observations) record.selectedAsn where
  voted := h.tally_selected_pos
  best := h.consistent.plurality

/-- The origins of a record's observations. -/
def origins (record : PrefixRecord) : List UInt32 := record.observations.map Observation.originAsn

/-- A tally counts an origin in the list of all origins. -/
theorem tally_eq_count (record : PrefixRecord) (asn : UInt32) :
    tally record.observations asn = (origins record).count asn := by
  unfold tally origins
  rw [List.count_eq_countP, List.countP_map]
  rfl

/-- Records with the same origins have the same winner. -/
theorem selectedAsn_eq_of_perm {r₁ r₂ : PrefixRecord} (h₁ : LiveRecord r₁) (h₂ : LiveRecord r₂)
    (hp : (origins r₁).Perm (origins r₂)) : r₁.selectedAsn = r₂.selectedAsn := by
  have htally : tally r₁.observations = tally r₂.observations := by
    funext asn
    rw [tally_eq_count, tally_eq_count, hp.count_eq]
  have hwins := h₂.wins
  rw [← htally] at hwins
  exact h₁.wins.unique hwins

section Family

variable {P : Type} [DecidableEq P]

/-- The rows of a record with their peer ids renamed. -/
def renamedRows {M : Type} (name : PeerId → M) (record : PrefixRecord) :
    List (M × UInt32 × UInt64) :=
  (rows record).map fun row => (name row.1.peerId, row.1.originAsn, row.2)

/-- The renamed rows are the entries of the record, under the new names. -/
theorem mem_renamedRows {M : Type} {name : PeerId → M} {record : PrefixRecord}
    (h : RecordInv record) (m : M) (asn : UInt32) (t : UInt64) :
    (m, asn, t) ∈ renamedRows name record ↔
      ∃ j, name j = m ∧ peerEntry record j = some (asn, t) := by
  unfold renamedRows
  rw [List.mem_map]
  constructor
  · intro ⟨⟨⟨j, a⟩, t'⟩, hrow, heq⟩
    cases heq
    exact ⟨j, rfl, h.rowsInv.peerEntry_eq_some.mpr hrow⟩
  · intro ⟨j, hj, hentry⟩
    exact ⟨(⟨j, asn⟩, t), h.rowsInv.peerEntry_eq_some.mp hentry, by rw [hj]⟩

/-- A renaming that keeps the peers of the record apart keeps its rows apart. -/
theorem nodup_renamedRows {M : Type} {name : PeerId → M} {record : PrefixRecord}
    (h : RecordInv record)
    (hinj : ∀ i j, peerEntry record i ≠ none → peerEntry record j ≠ none → name i = name j → i = j) :
    (renamedRows name record).Nodup := by
  unfold renamedRows
  have hrows : (rows record).Nodup := h.rowsInv.nodup_keys.of_map _
  refine hrows.map_on ?_
  intro ⟨⟨i, a⟩, t⟩ hi ⟨⟨j, b⟩, u⟩ hj heq
  simp only [Prod.mk.injEq] at heq
  obtain ⟨hname, hasn, ht⟩ := heq
  have hij := hinj i j (by rw [h.rowsInv.peerEntry_eq_some.mpr hi]; simp)
    (by rw [h.rowsInv.peerEntry_eq_some.mpr hj]; simp) hname
  rw [hij, hasn, ht]

theorem origins_eq_map_renamedRows {M : Type} (name : PeerId → M) {record : PrefixRecord}
    (h : RecordInv record) :
    origins record = (renamedRows name record).map fun row => row.2.1 := by
  unfold origins renamedRows
  rw [← h.map_fst_rows, List.map_map, List.map_map]
  rfl

/-- A prefix with a record has an entry. -/
theorem exists_tableEntry {tables : FamilyTables P} (h : TablesInv tables) {p : P}
    {record : PrefixRecord} (hr : tables.byPrefix.lookup p = some record) :
    ∃ j a t, tableEntry tables p j = some (a, t) := by
  have hlive := h.live p record hr
  obtain ⟨o, l, hol⟩ := List.exists_cons_of_ne_nil hlive.nonempty
  have hne : tableEntry tables p o.peerId ≠ none := by
    rw [tableEntry_of_lookup hr, ne_eq, hlive.inv.rowsInv.peerEntry_eq_none]
    intro hall
    exact hall o (hol ▸ List.mem_cons_self) rfl
  obtain ⟨⟨a, t⟩, hat⟩ := Option.ne_none_iff_exists'.mp hne
  exact ⟨o.peerId, a, t, hat⟩

/-- Two families that hold the same observations of a prefix, up to the names of
the peers, select the same ASN for it. -/
theorem aggregated_eq_of_renaming {t₁ t₂ : FamilyTables P} (h₁ : TablesInv t₁)
    (h₂ : TablesInv t₂) (p : P) {M : Type} {name₁ name₂ : PeerId → M}
    (hinj₁ : ∀ i j, tableEntry t₁ p i ≠ none → tableEntry t₁ p j ≠ none →
      name₁ i = name₁ j → i = j)
    (hinj₂ : ∀ i j, tableEntry t₂ p i ≠ none → tableEntry t₂ p j ≠ none →
      name₂ i = name₂ j → i = j)
    (hsame : ∀ m a t, (∃ j, name₁ j = m ∧ tableEntry t₁ p j = some (a, t)) ↔
      ∃ j, name₂ j = m ∧ tableEntry t₂ p j = some (a, t)) :
    t₁.aggregated.lookup p = t₂.aggregated.lookup p := by
  rw [h₁.agree, h₂.agree]
  cases hr₁ : t₁.byPrefix.lookup p with
  | none =>
    cases hr₂ : t₂.byPrefix.lookup p with
    | none => rfl
    | some r₂ =>
      -- a record has an observation, which the other side lacks
      obtain ⟨j, a, t, hj⟩ := exists_tableEntry h₂ hr₂
      obtain ⟨i, -, hi⟩ := (hsame (name₂ j) a t).mpr ⟨j, rfl, hj⟩
      rw [tableEntry, hr₁, Option.bind_none] at hi
      cases hi
  | some r₁ =>
    cases hr₂ : t₂.byPrefix.lookup p with
    | none =>
      obtain ⟨j, a, t, hj⟩ := exists_tableEntry h₁ hr₁
      obtain ⟨i, -, hi⟩ := (hsame (name₁ j) a t).mp ⟨j, rfl, hj⟩
      rw [tableEntry, hr₂, Option.bind_none] at hi
      cases hi
    | some r₂ =>
      have hl₁ := h₁.live p r₁ hr₁
      have hl₂ := h₂.live p r₂ hr₂
      simp only [tableEntry_of_lookup hr₁, tableEntry_of_lookup hr₂] at hinj₁ hinj₂ hsame
      -- the renamed rows are the same, in some order, and the vote goes by the origins alone
      have hperm : (renamedRows name₁ r₁).Perm (renamedRows name₂ r₂) := by
        rw [List.perm_ext_iff_of_nodup (nodup_renamedRows hl₁.inv hinj₁)
          (nodup_renamedRows hl₂.inv hinj₂)]
        rintro ⟨m, a, t⟩
        rw [mem_renamedRows hl₁.inv, mem_renamedRows hl₂.inv]
        exact hsame m a t
      have horigins : (origins r₁).Perm (origins r₂) := by
        rw [origins_eq_map_renamedRows name₁ hl₁.inv, origins_eq_map_renamedRows name₂ hl₂.inv]
        exact hperm.map _
      rw [Option.map_some, Option.map_some, selectedAsn_eq_of_perm hl₁ hl₂ horigins]

end Family

/-- The aggregated table of a state, over both families. -/
def RoutingState.selected (state : RoutingState) : BinaryPrefix → Option UInt32
  | .v4 p => state.v4.aggregated.lookup p
  | .v6 p => state.v6.aggregated.lookup p

/-- **Peer ids do not matter** for what a state selects, in either family: the
names need to be injective on the peers that have an entry only. -/
theorem selected_eq_of_renaming {s₁ s₂ : RoutingState} (h₁ : StateInv s₁) (h₂ : StateInv s₂)
    {M : Type} {name₁ name₂ : PeerId → M}
    (hinj₁ : ∀ p i j, live s₁ (p, i) ≠ none → live s₁ (p, j) ≠ none → name₁ i = name₁ j → i = j)
    (hinj₂ : ∀ p i j, live s₂ (p, i) ≠ none → live s₂ (p, j) ≠ none → name₂ i = name₂ j → i = j)
    (hsame : ∀ p m a t, (∃ j, name₁ j = m ∧ live s₁ (p, j) = some (a, t)) ↔
      ∃ j, name₂ j = m ∧ live s₂ (p, j) = some (a, t)) :
    s₁.selected = s₂.selected := by
  funext p
  cases p with
  | v4 p =>
    exact aggregated_eq_of_renaming h₁.v4 h₂.v4 p (hinj₁ (.v4 p)) (hinj₂ (.v4 p)) (hsame (.v4 p))
  | v6 p =>
    exact aggregated_eq_of_renaming h₁.v6 h₂.v6 p (hinj₁ (.v6 p)) (hinj₂ (.v6 p)) (hsame (.v6 p))

end ASNPrefixMap.Routing
