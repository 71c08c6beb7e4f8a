import ASNPrefixMap.Routing.Provenance

/-!
# The vote for a prefix

`aggregated` is patched call by call. What it holds can be said without it: the
origin of a prefix is the one most of its stored observations have, the smallest
one among equals (`PluralityOrigin`). `StateInv.selected_iff` says so of every
state that histories lead to, under any iteration order of
`stored_observations`.

The vote is stated over the list that `stored_observations` returns, so that a
statement about the tables need not mention a record. `Routing.Export` and the
whole-run results use it in this form.
-/

namespace ASNPrefixMap.Routing

open Lib Prefix Peer

/-- The observations of a prefix that have the given origin. Each peer has one
vote, since no peer is listed twice for a prefix. -/
def votes (stored : List StoredObservation) (pfx : BinaryPrefix) (asn : UInt32) : Nat :=
  stored.countP fun o => o.pfx = pfx ∧ o.observation.originAsn = asn

/-- The origin most observations of a prefix have, the smallest one among
equals. -/
def PluralityOrigin (stored : List StoredObservation) (pfx : BinaryPrefix) : UInt32 → Prop :=
  Wins (votes stored pfx)

/-! ## One family -/

section Votes

variable {P : Type} [DecidableEq P]

/-- The observations a family has of a prefix. -/
def observationsOf (tables : FamilyTables P) (p : P) : List Observation :=
  (tables.byPrefix.lookup p).elim [] PrefixRecord.observations

omit [DecidableEq P] in
/-- A family stores no observations of a prefix it has no record of. -/
theorem votes_eq_zero_of_ne {entries : List (P × PrefixRecord)} {mk : P → BinaryPrefix}
    {pfx : BinaryPrefix} (hne : ∀ entry ∈ entries, mk entry.1 ≠ pfx) (asn : UInt32) :
    votes (entries.flatMap fun entry => (rows entry.2).map fun row => ⟨mk entry.1, row.1, row.2⟩) pfx
      asn = 0 := by
  refine List.countP_eq_zero.mpr fun o ho hcond => ?_
  obtain ⟨entry, hentry, hmem⟩ := List.mem_flatMap.mp ho
  obtain ⟨row, -, rfl⟩ := List.mem_map.mp hmem
  exact hne entry hentry (of_decide_eq_true hcond).1

theorem votes_append (stored₁ stored₂ : List StoredObservation) (pfx : BinaryPrefix) (asn : UInt32) :
    votes (stored₁ ++ stored₂) pfx asn = votes stored₁ pfx asn + votes stored₂ pfx asn :=
  List.countP_append

/-- The votes of one record. -/
theorem votes_rows {record : PrefixRecord} (h : RowsInv record) (pfx : BinaryPrefix) (asn : UInt32) :
    votes ((rows record).map fun row => ⟨pfx, row.1, row.2⟩) pfx asn =
      tally record.observations asn := by
  rw [← h.map_fst_rows]
  unfold votes tally
  rw [List.countP_map, List.countP_map]
  apply List.countP_congr
  intro row _
  simp

/-- The stored votes of a family are those its records count. -/
theorem votes_appendStoredObservations {tables : FamilyTables P} (h : RowsKept tables)
    (records : IterOrder P PrefixRecord) {mk : P → BinaryPrefix} (hmk : Function.Injective mk) (p : P)
    (asn : UInt32) :
    votes (appendStoredObservations records mk tables) (mk p) asn =
      tally (observationsOf tables p) asn := by
  have hl := records.listing tables.byPrefix
  unfold observationsOf
  cases hp : tables.byPrefix.lookup p with
  | none =>
    refine votes_eq_zero_of_ne (fun entry hentry heq => ?_) asn
    have hrecord := (hl.mem_iff entry.1 entry.2).mp hentry
    rw [hmk heq, hp] at hrecord
    cases hrecord
  | some record =>
    -- the listing meets the prefix once
    obtain ⟨before, after, hsplit, hbefore, hafter⟩ :=
      exists_split_of_nodup hl.nodup ((hl.mem_iff p record).mpr hp)
    have hrows : appendStoredObservations records mk tables =
        (before ++ (p, record) :: after).flatMap fun entry =>
          (rows entry.2).map fun row => ⟨mk entry.1, row.1, row.2⟩ := by
      rw [← hsplit]
      rfl
    rw [hrows, List.flatMap_append, List.flatMap_cons, votes_append, votes_append,
      votes_eq_zero_of_ne fun entry hentry heq => hbefore entry hentry (hmk heq),
      votes_eq_zero_of_ne fun entry hentry heq => hafter entry hentry (hmk heq), Nat.zero_add,
      Nat.add_zero]
    exact votes_rows (h p record hp) (mk p) asn

/-- A family stores nothing of the other family's prefixes. -/
theorem votes_appendStoredObservations_eq_zero {tables : FamilyTables P}
    (records : IterOrder P PrefixRecord) {mk : P → BinaryPrefix} {pfx : BinaryPrefix}
    (hne : ∀ p, mk p ≠ pfx) (asn : UInt32) :
    votes (appendStoredObservations records mk tables) pfx asn = 0 :=
  votes_eq_zero_of_ne (fun entry _ => hne entry.1) asn

/-- A family has aggregated a prefix to the winner of the vote on it. -/
theorem TablesInv.aggregated_iff {tables : FamilyTables P} (h : TablesInv tables) (p : P)
    (asn : UInt32) :
    tables.aggregated.lookup p = some asn ↔ Wins (tally (observationsOf tables p)) asn := by
  rw [h.agree]
  unfold observationsOf
  cases hp : tables.byPrefix.lookup p with
  | none => exact ⟨fun hnone => (nomatch hnone), fun hwins => absurd hwins.voted (Nat.lt_irrefl 0)⟩
  | some record =>
    have hselected := (h.live p record hp).wins
    rw [Option.map_some, Option.some.injEq]
    constructor
    · intro heq
      exact heq ▸ hselected
    · exact hselected.unique

end Votes

/-! ## Both families -/

/-- The observations a state has of a prefix. -/
def RoutingState.observationsOf (state : RoutingState) : BinaryPrefix → List Observation
  | .v4 p => Routing.observationsOf state.v4 p
  | .v6 p => Routing.observationsOf state.v6 p

variable {state : RoutingState}

/-- The votes for a prefix in the listing are the tally of its record. -/
theorem RoutingState.RowsKept.votes (h : state.RowsKept) (ord : HashOrders) (pfx : BinaryPrefix)
    (asn : UInt32) :
    Routing.votes (state.storedObservations ord) pfx asn = tally (state.observationsOf pfx) asn := by
  unfold RoutingState.storedObservations
  rw [votes_append]
  cases pfx with
  | v4 p =>
    have hother : ∀ q, BinaryPrefix.v6 q ≠ .v4 p := fun q he => by cases he
    rw [votes_appendStoredObservations h.v4 _ fun _ _ => BinaryPrefix.v4.inj,
      votes_appendStoredObservations_eq_zero _ hother, Nat.add_zero]
    rfl
  | v6 p =>
    have hother : ∀ q, BinaryPrefix.v4 q ≠ .v6 p := fun q he => by cases he
    rw [votes_appendStoredObservations h.v6 _ fun _ _ => BinaryPrefix.v6.inj,
      votes_appendStoredObservations_eq_zero _ hother, Nat.zero_add]
    rfl

/-- The aggregated origin of a prefix is its plurality origin. Both directions:
a prefix without observations has neither. -/
theorem StateInv.selected_iff (h : StateInv state) (ord : HashOrders) (pfx : BinaryPrefix)
    (asn : UInt32) :
    state.selected pfx = some asn ↔ PluralityOrigin (state.storedObservations ord) pfx asn := by
  have hvotes : votes (state.storedObservations ord) pfx = tally (state.observationsOf pfx) :=
    funext (h.rowsKept.votes ord pfx)
  unfold PluralityOrigin
  rw [hvotes]
  cases pfx with
  | v4 p => exact h.v4.aggregated_iff p asn
  | v6 p => exact h.v6.aggregated_iff p asn

/-- A prefix with an observation has a plurality origin. -/
theorem StateInv.exists_selected (h : StateInv state) {ord : HashOrders} {o : StoredObservation}
    (ho : o ∈ state.storedObservations ord) : ∃ asn, state.selected o.pfx = some asn := by
  have hvoted : 0 < votes (state.storedObservations ord) o.pfx o.observation.originAsn :=
    List.countP_pos_iff.mpr ⟨o, ho, decide_eq_true ⟨rfl, rfl⟩⟩
  rw [h.rowsKept.votes] at hvoted
  have hrecord : ∀ {P : Type} [DecidableEq P] {tables : FamilyTables P} {p : P}, TablesInv tables →
      0 < tally (Routing.observationsOf tables p) o.observation.originAsn →
        ∃ asn, tables.aggregated.lookup p = some asn := by
    intro P _ tables p hinv hpos
    unfold Routing.observationsOf at hpos
    rw [hinv.agree]
    cases hp : tables.byPrefix.lookup p with
    | none =>
      rw [hp] at hpos
      cases hpos
    | some record => exact ⟨_, rfl⟩
  cases hpfx : o.pfx with
  | v4 p =>
    rw [hpfx] at hvoted
    exact hrecord h.v4 hvoted
  | v6 p =>
    rw [hpfx] at hvoted
    exact hrecord h.v6 hvoted

/-- A prefix with an aggregated origin has an observation. -/
theorem StateInv.exists_stored (h : StateInv state) (ord : HashOrders) {pfx : BinaryPrefix}
    {asn : UInt32} (hselected : state.selected pfx = some asn) :
    ∃ o ∈ state.storedObservations ord, o.pfx = pfx := by
  obtain ⟨o, ho, hcond⟩ := List.countP_pos_iff.mp ((h.selected_iff ord pfx asn).mp hselected).voted
  exact ⟨o, ho, (of_decide_eq_true hcond).1⟩

end ASNPrefixMap.Routing
