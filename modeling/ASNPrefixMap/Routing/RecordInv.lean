import ASNPrefixMap.Routing.State

/-!
# One record: counters and winner

What `announceImpl` and `withdrawImpl` do to a single `PrefixRecord`, and why
the rescans they skip are harmless. `RecordInv` ties the three redundant views
together:

* `counted`: the counter of an origin is the number of observations with that
  origin, and an origin nobody announces has no counter;
* `selects`: the cached winner is what a full rescan of the counters would pick
  (`Selects`, which `scanBest_unique` shows to determine the pair).

The counters move by `increment_countsOf` and `decrement_countsOf`; the winner
survives a vote for another origin (`selects_increment`: compare with the cached
winner only) and the loss of a vote by a loser (`selects_decrement`: no
comparison at all). Both hold with ties. Every branch then preserves the bundle:
`addObservation_inv`, `changeOrigin_inv`, `removeObservation_inv`.

Nothing here says that counters do not overflow. Each lemma that needs it takes
the bound `2 ^ 32` on the number of observations as a hypothesis, and `RowsInv`
is the part of the invariant that holds without it.
-/

namespace ASNPrefixMap.Routing

open Lib Prefix Peer

/-! ## The preference -/

/-- The comparison on the numbers, without the machine types. -/
theorem betterEntry_iff (x y : UInt32 × UInt32) :
    betterEntry x y = true ↔
      y.2.toNat < x.2.toNat ∨ (x.2.toNat = y.2.toNat ∧ x.1.toNat < y.1.toNat) := by
  simp only [betterEntry, isBetterSelection, gt_iff_lt, Bool.or_eq_true, decide_eq_true_eq,
    Bool.and_eq_true, beq_iff_eq, UInt32.lt_iff_toNat_lt, ← UInt32.toNat_inj]

/-- Not being preferred, in the same terms. The invariant `Selects` is stated
with `= false`, as the scan leaves it. -/
theorem betterEntry_eq_false_iff (x y : UInt32 × UInt32) :
    betterEntry x y = false ↔
      ¬ (y.2.toNat < x.2.toNat ∨ (x.2.toNat = y.2.toNat ∧ x.1.toNat < y.1.toNat)) := by
  rw [← betterEntry_iff, Bool.not_eq_true]

/-- Larger count first, then smaller ASN: no two entries tie, so a scan in any
order ends with the same entry. -/
theorem betterEntry_strict : StrictPreference betterEntry where
  irrefl x := by
    rw [betterEntry_eq_false_iff]
    omega
  trans hab hbc := by
    rw [betterEntry_iff] at hab hbc ⊢
    omega
  connected {x y} hne := by
    rw [betterEntry_iff, betterEntry_iff]
    by_contra h
    apply hne
    exact Prod.ext (UInt32.toNat_inj.mp (by omega)) (UInt32.toNat_inj.mp (by omega))

/-! ## Counters -/

/-- The number of observations with origin `asn`. -/
def tally (observations : List Observation) (asn : UInt32) : Nat :=
  observations.countP fun o => o.originAsn == asn

theorem tally_cons_self (o : Observation) (l : List Observation) :
    tally (o :: l) o.originAsn = tally l o.originAsn + 1 :=
  List.countP_cons_of_pos (beq_self_eq_true _)

theorem tally_cons_ne {o : Observation} {asn : UInt32} (h : asn ≠ o.originAsn)
    (l : List Observation) : tally (o :: l) asn = tally l asn :=
  List.countP_cons_of_neg fun e => h (beq_iff_eq.mp e).symm

/-- Packed removal permutes the observations that stay, and a tally does not see
it. -/
theorem tally_perm {l₁ l₂ : List Observation} (h : l₁.Perm l₂) (asn : UInt32) :
    tally l₁ asn = tally l₂ asn := h.countP_eq _

/-- A tally is bounded by the number of observations, so a bound on that keeps
every counter exact. -/
theorem tally_le_length (l : List Observation) (asn : UInt32) : tally l asn ≤ l.length :=
  List.countP_le_length

/-- The counters of a list of observations: exact, and without zero entries.
This is the specification of `asn_counts`, said of a list so that the list can
lose its head and be permuted. -/
def CountsOf (counts : FiniteMap UInt32 UInt32) (observations : List Observation) : Prop :=
  ∀ asn, counts.lookup asn =
    if tally observations asn = 0 then none else some (UInt32.ofNat (tally observations asn))

/-- Counters depend on the observations up to their order. -/
theorem CountsOf.perm {counts : FiniteMap UInt32 UInt32} {l₁ l₂ : List Observation}
    (h : CountsOf counts l₁) (hp : l₁.Perm l₂) : CountsOf counts l₂ := by
  intro asn
  rw [← tally_perm hp]
  exact h asn

theorem countsOf_nil : CountsOf ∅ [] := fun _ => rfl

private theorem toNat_ofNat {n : Nat} (h : n < 2 ^ 32) : (UInt32.ofNat n).toNat = n :=
  UInt32.toNat_ofNat_of_lt' h

/-- A counter that is present is the tally, and positive. As a number: the bound
excludes a wrapped counter. -/
theorem CountsOf.lookup_eq_some {counts : FiniteMap UInt32 UInt32} {l : List Observation}
    (h : CountsOf counts l) (hlen : l.length < 2 ^ 32) {asn count : UInt32}
    (hc : counts.lookup asn = some count) :
    count.toNat = tally l asn ∧ 0 < tally l asn := by
  rw [h asn] at hc
  split at hc
  next => cases hc
  next h0 =>
    obtain rfl := Option.some.inj hc
    exact ⟨toNat_ofNat (Nat.lt_of_le_of_lt (tally_le_length l asn) hlen), Nat.pos_of_ne_zero h0⟩

/-- `++asn_counts[asn]` when an observation with that origin joins. The count it
returns is the new tally, which is what the caller compares with the winner. -/
theorem increment_countsOf {record : PrefixRecord} {o : Observation} {l : List Observation}
    (h : CountsOf record.asnCounts l) (hlen : (o :: l).length < 2 ^ 32) :
    CountsOf (incrementAsnCount record o.originAsn).2.asnCounts (o :: l) ∧
      (incrementAsnCount record o.originAsn).1.toNat = tally l o.originAsn + 1 := by
  have hlt : tally l o.originAsn + 1 < 2 ^ 32 := by
    have := tally_le_length l o.originAsn
    rw [List.length_cons] at hlen
    omega
  have hcount : (incrementAsnCount record o.originAsn).1 = UInt32.ofNat (tally l o.originAsn + 1) := by
    show (record.asnCounts.lookup o.originAsn).getD 0 + 1 = _
    rw [h o.originAsn]
    split
    next h0 => rw [h0]; rfl
    next => rw [Option.getD_some, UInt32.ofNat_add]; rfl
  refine ⟨?_, by rw [hcount, toNat_ofNat hlt]⟩
  intro asn
  show (record.asnCounts.insert o.originAsn (incrementAsnCount record o.originAsn).1).lookup asn = _
  rw [lookup_insert_eq, hcount]
  by_cases ha : asn = o.originAsn
  · rw [if_pos ha, ha, tally_cons_self, if_neg (Nat.succ_ne_zero _)]
  · rw [if_neg ha, tally_cons_ne ha]
    exact h asn

/-- `decrement_asn_count` when an observation with that origin leaves. The
counter is erased exactly when its last vote goes. -/
theorem decrement_countsOf {record : PrefixRecord} {o : Observation} {l : List Observation}
    (h : CountsOf record.asnCounts (o :: l)) (hlen : (o :: l).length < 2 ^ 32) :
    CountsOf (decrementAsnCount record o.originAsn).2.asnCounts l := by
  have hlt : tally l o.originAsn + 1 < 2 ^ 32 := by
    have := tally_le_length l o.originAsn
    rw [List.length_cons] at hlen
    omega
  have hlook : record.asnCounts.lookup o.originAsn =
      some (UInt32.ofNat (tally l o.originAsn + 1)) := by
    rw [h o.originAsn, tally_cons_self, if_neg (Nat.succ_ne_zero _)]
  have hother : ∀ asn, asn ≠ o.originAsn → record.asnCounts.lookup asn =
      if tally l asn = 0 then none else some (UInt32.ofNat (tally l asn)) := by
    intro asn ha
    rw [h asn, tally_cons_ne ha]
  intro asn
  rw [decrementAsnCount, hlook]
  dsimp only
  have hle : UInt32.ofNat (tally l o.originAsn + 1) ≤ 1 ↔ tally l o.originAsn = 0 := by
    rw [UInt32.le_iff_toNat_le, toNat_ofNat hlt]
    show _ + 1 ≤ 1 ↔ _
    omega
  split
  next h1 =>
    -- the last vote for the origin: its counter is erased
    rw [hle] at h1
    show (record.asnCounts.erase o.originAsn).lookup asn = _
    rw [lookup_erase_eq]
    by_cases ha : asn = o.originAsn
    · rw [if_pos ha, ha, if_pos h1]
    · rw [if_neg ha, hother asn ha]
  next h1 =>
    rw [hle] at h1
    have hsub : UInt32.ofNat (tally l o.originAsn + 1) - 1 = UInt32.ofNat (tally l o.originAsn) := by
      rw [UInt32.ofNat_add]
      exact UInt32.add_sub_cancel _ 1
    show (record.asnCounts.insert o.originAsn _).lookup asn = _
    rw [lookup_insert_eq, hsub]
    by_cases ha : asn = o.originAsn
    · rw [if_pos ha, ha, if_neg h1]
    · rw [if_neg ha, hother asn ha]

/-! ## The winner -/

/-- `sel` is what a rescan of `counts` picks, from the initial `(0, 0)`: a
candidate that no counter beats, and that beats the initial pair or is the
initial pair. -/
structure Selects (counts : FiniteMap UInt32 UInt32) (sel : UInt32 × UInt32) : Prop where
  candidate : sel = (0, 0) ∨ counts.lookup sel.1 = some sel.2
  unbeaten : ∀ asn count, counts.lookup asn = some count → betterEntry (asn, count) sel = false
  floor : betterEntry (0, 0) sel = false

/-- A rescan, in whatever order, picks a winner. This is the general lemma about
`scanBest` under a strict preference. -/
theorem selects_recompute (ord : IterOrder UInt32 UInt32) (record : PrefixRecord) :
    Selects record.asnCounts ((recomputeSelectedFromCounts ord record).selectedAsn,
      (recomputeSelectedFromCounts ord record).selectedCount) := by
  have hl := ord.listing record.asnCounts
  obtain ⟨hmem, hmax⟩ := scanBest_spec betterEntry_strict (0, 0) (ord.entries record.asnCounts)
  refine ⟨?_, ?_, ?_⟩
  · rcases List.mem_cons.mp hmem with h | h
    · exact Or.inl h
    · exact Or.inr ((hl.mem_iff _ _).mp h)
  · intro asn count hc
    exact hmax _ (List.mem_cons_of_mem _ ((hl.mem_iff _ _).mpr hc))
  · exact hmax _ List.mem_cons_self

/-- The winner is determined: a rescan finds the one that is cached. So the
branches that skip the rescan lose nothing. -/
theorem recompute_eq_self (ord : IterOrder UInt32 UInt32) {record : PrefixRecord}
    (h : Selects record.asnCounts (record.selectedAsn, record.selectedCount)) :
    recomputeSelectedFromCounts ord record = record := by
  have hl := ord.listing record.asnCounts
  have hscan : scanBest betterEntry (0, 0) (ord.entries record.asnCounts) =
      (record.selectedAsn, record.selectedCount) := by
    apply scanBest_unique betterEntry_strict
    · rcases h.candidate with hc | hc
      · rw [hc]
        exact List.mem_cons_self
      · exact List.mem_cons_of_mem _ ((hl.mem_iff _ _).mpr hc)
    · intro x hx
      rcases List.mem_cons.mp hx with rfl | hx
      · exact h.floor
      · exact h.unbeaten x.1 x.2 ((hl.mem_iff _ _).mp hx)
  rw [recomputeSelectedFromCounts, hscan]

/-- The order of the rescan is irrelevant for every record, reachable or not. -/
theorem recompute_order_irrel (ord₁ ord₂ : IterOrder UInt32 UInt32) (record : PrefixRecord) :
    recomputeSelectedFromCounts ord₁ record = recomputeSelectedFromCounts ord₂ record := by
  rw [recomputeSelectedFromCounts, recomputeSelectedFromCounts,
    scanBest_perm betterEntry_strict _ ((ord₁.listing _).perm (ord₂.listing _))]

/-- One more vote for `asn`: only `asn` can overtake the winner, so one
comparison does the work of a rescan. The winner may be `asn` itself, whose
count then grows. -/
theorem selects_increment {counts : FiniteMap UInt32 UInt32} {sel : UInt32 × UInt32}
    {asn newCount : UInt32} (h : Selects counts sel) (hpos : 0 < newCount.toNat)
    (hgrow : ∀ count, counts.lookup asn = some count → count.toNat < newCount.toNat) :
    Selects (counts.insert asn newCount)
      (if betterEntry (asn, newCount) sel then (asn, newCount) else sel) := by
  split
  next hb =>
    -- `asn` wins: it beats the old winner, and so all that the old winner held off
    refine ⟨Or.inr (Finmap.lookup_insert _), ?_, ?_⟩
    · intro b c hc
      rw [lookup_insert_eq] at hc
      split at hc
      next hba =>
        obtain rfl := Option.some.inj hc
        rw [hba]
        exact betterEntry_strict.irrefl _
      next => exact betterEntry_strict.not_better_of_better (h.unbeaten b c hc) hb
    · exact betterEntry_strict.not_better_of_better h.floor hb
  next hb =>
    -- the old winner is another ASN, since with one vote more it would beat itself
    have hsel : sel.1 ≠ asn ∧ counts.lookup sel.1 = some sel.2 := by
      rcases h.candidate with h0 | hc
      · exfalso
        apply hb
        rw [h0, betterEntry_iff]
        exact Or.inl hpos
      · refine ⟨?_, hc⟩
        intro e
        apply hb
        rw [betterEntry_iff]
        exact Or.inl (hgrow sel.2 (e ▸ hc))
    refine ⟨Or.inr ?_, ?_, h.floor⟩
    · rw [lookup_insert_eq, if_neg hsel.1, hsel.2]
    · intro b c hc
      rw [lookup_insert_eq] at hc
      split at hc
      next hba =>
        obtain rfl := Option.some.inj hc
        rw [hba]
        exact Bool.not_eq_true _ ▸ hb
      next => exact h.unbeaten b c hc

/-- One vote less for an origin that is not the winner changes no winner. The
loser that lost a vote was beaten before, and is beaten by more now. -/
theorem selects_decrement {record : PrefixRecord} {sel : UInt32 × UInt32} {asn : UInt32}
    (h : Selects record.asnCounts sel) (hne : asn ≠ sel.1) :
    Selects (decrementAsnCount record asn).2.asnCounts sel := by
  rw [decrementAsnCount]
  split
  next => exact h
  next count hcount =>
    split
    next h1 =>
      show Selects (record.asnCounts.erase asn) sel
      refine ⟨?_, ?_, h.floor⟩
      · rw [lookup_erase_eq, if_neg hne.symm]
        exact h.candidate
      · intro b c hc
        rw [lookup_erase_eq] at hc
        split at hc
        next => cases hc
        next => exact h.unbeaten b c hc
    next h1 =>
      show Selects (record.asnCounts.insert asn (count - 1)) sel
      have hlt : (count - 1).toNat < count.toNat := by
        rw [UInt32.le_iff_toNat_le] at h1
        have hone : (1 : UInt32).toNat = 1 := rfl
        rw [UInt32.toNat_sub_of_le _ _ (UInt32.le_iff_toNat_le.mpr (by omega))]
        omega
      refine ⟨?_, ?_, h.floor⟩
      · rw [lookup_insert_eq, if_neg hne.symm]
        exact h.candidate
      · intro b c hc
        rw [lookup_insert_eq] at hc
        split at hc
        next hba =>
          obtain rfl := Option.some.inj hc
          rw [hba]
          -- a smaller count for the same ASN loses against whatever the larger one lost against
          have hold := h.unbeaten asn count hcount
          rw [betterEntry_eq_false_iff] at hold ⊢
          dsimp only at hold ⊢
          omega
        next => exact h.unbeaten b c hc

/-! ## Records -/

/-- The invariant of a record, which the empty record of a fresh key satisfies
too. Each field speaks of one of the redundant views; what they come to is said
in `RecordConsistent`. -/
structure RecordInv (record : PrefixRecord) : Prop where
  aligned : record.timestamps.length = record.observations.length
  distinct : (record.observations.map Observation.peerId).Nodup
  counted : CountsOf record.asnCounts record.observations
  selects : Selects record.asnCounts (record.selectedAsn, record.selectedCount)

/-- The record that `by_prefix[prefix]` makes for a fresh key. -/
theorem recordInv_empty : RecordInv {} where
  aligned := rfl
  distinct := List.nodup_nil
  counted := countsOf_nil
  selects := ⟨Or.inl rfl, fun _ _ h => (by cases h), rfl⟩

/-- The two parallel arrays read as one. Every statement about what a record
stores is about its rows. -/
def rows (record : PrefixRecord) : List (Observation × UInt64) :=
  record.observations.zip record.timestamps

/-- The part of the invariant that is about the two arrays only. It needs no
counter, so it holds of a full record too. -/
structure RowsInv (record : PrefixRecord) : Prop where
  aligned : record.timestamps.length = record.observations.length
  distinct : (record.observations.map Observation.peerId).Nodup

/-- The invariant of a record includes that of its arrays. -/
theorem RecordInv.rowsInv {record : PrefixRecord} (h : RecordInv record) : RowsInv record :=
  ⟨h.aligned, h.distinct⟩

/-- The arrays are of one length, so no observation is cut off. -/
theorem RowsInv.map_fst_rows {record : PrefixRecord} (h : RowsInv record) :
    (rows record).map Prod.fst = record.observations :=
  List.map_fst_zip (Nat.le_of_eq h.aligned.symm)

/-- Each peer has one row. -/
theorem RowsInv.nodup_keys {record : PrefixRecord} (h : RowsInv record) :
    ((rows record).map fun row => row.1.peerId).Nodup := by
  have hmap : (rows record).map (fun row => row.1.peerId) =
      ((rows record).map Prod.fst).map Observation.peerId := by
    rw [List.map_map]
    rfl
  rw [hmap, h.map_fst_rows]
  exact h.distinct

theorem RecordInv.map_fst_rows {record : PrefixRecord} (h : RecordInv record) :
    (rows record).map Prod.fst = record.observations := h.rowsInv.map_fst_rows

theorem RowsInv.length_rows {record : PrefixRecord} (h : RowsInv record) :
    (rows record).length = record.observations.length := by
  rw [← h.map_fst_rows, List.length_map]

/-- In a record with observations the winner has votes. So `sync_aggregated`
takes its second branch, and the aggregated map keeps the prefix. -/
theorem RecordInv.selectedCount_ne_zero {record : PrefixRecord} (h : RecordInv record)
    (hlen : record.observations.length < 2 ^ 32) (hne : record.observations ≠ []) :
    record.selectedCount ≠ 0 := by
  intro h0
  obtain ⟨o, l, hol⟩ := List.exists_cons_of_ne_nil hne
  have htally : tally record.observations o.originAsn ≠ 0 := by
    rw [hol, tally_cons_self]
    exact Nat.succ_ne_zero _
  have hlook := h.counted o.originAsn
  rw [if_neg htally] at hlook
  have hunb := h.selects.unbeaten _ _ hlook
  rw [betterEntry_eq_false_iff, h0] at hunb
  apply hunb
  left
  rw [toNat_ofNat (Nat.lt_of_le_of_lt (tally_le_length _ _) hlen)]
  exact Nat.pos_of_ne_zero htally

/-- The winner is the origin with the most observations, the smallest such ASN
on a tie. The last case is an origin nobody announces, such as ASN 0 while it is
no winner. -/
theorem RecordInv.plurality {record : PrefixRecord} (h : RecordInv record)
    (hlen : record.observations.length < 2 ^ 32) (hne : record.observations ≠ []) :
    record.selectedCount.toNat = tally record.observations record.selectedAsn ∧
      ∀ asn, tally record.observations asn < tally record.observations record.selectedAsn ∨
        (tally record.observations asn = tally record.observations record.selectedAsn ∧
          record.selectedAsn ≤ asn) ∨ tally record.observations asn = 0 := by
  have hcount : record.asnCounts.lookup record.selectedAsn = some record.selectedCount := by
    refine h.selects.candidate.resolve_left fun e => ?_
    exact h.selectedCount_ne_zero hlen hne (congrArg Prod.snd e)
  have hsel := (h.counted.lookup_eq_some hlen hcount).1
  refine ⟨hsel, ?_⟩
  intro asn
  by_cases h0 : tally record.observations asn = 0
  · exact Or.inr (Or.inr h0)
  · have hlook := h.counted asn
    rw [if_neg h0] at hlook
    have hunb := h.selects.unbeaten _ _ hlook
    rw [betterEntry_eq_false_iff,
      toNat_ofNat (Nat.lt_of_le_of_lt (tally_le_length _ _) hlen)] at hunb
    dsimp only at hunb
    rw [UInt32.le_iff_toNat_le]
    omega

/-! ## Finding the observation of a peer -/

/-- What the search finds is an observation of the peer, at that index. -/
theorem findPeer_eq_some {peerId : PeerId} : ∀ {l : List Observation} {i : Nat} {o : Observation},
    findPeer peerId l = some (i, o) → l[i]? = some o ∧ o.peerId = peerId := by
  intro l
  induction l with
  | nil =>
    intro i o h
    cases h
  | cons x l ih =>
    intro i o h
    rw [findPeer] at h
    split at h
    next hx =>
      cases h
      exact ⟨rfl, hx⟩
    next hx =>
      obtain ⟨⟨j, o'⟩, hf, heq⟩ := Option.map_eq_some_iff.mp h
      cases heq
      obtain ⟨hj, ho⟩ := ih hf
      exact ⟨by rw [List.getElem?_cons_succ, hj], ho⟩

/-- If it finds nothing, no observation is the peer's. -/
theorem findPeer_eq_none {peerId : PeerId} : ∀ {l : List Observation},
    findPeer peerId l = none → ∀ o ∈ l, o.peerId ≠ peerId := by
  intro l
  induction l with
  | nil =>
    intro _ o ho
    exact absurd ho List.not_mem_nil
  | cons x l ih =>
    intro h o ho
    rw [findPeer] at h
    split at h
    next => cases h
    next hx =>
      rcases List.mem_cons.mp ho with rfl | ho
      · exact hx
      · exact ih (Option.map_eq_none_iff.mp h) o ho

/-! ## The branches -/

theorem decrementAsnCount_fields (record : PrefixRecord) (asn : UInt32) :
    (decrementAsnCount record asn).2 =
      { record with asnCounts := (decrementAsnCount record asn).2.asnCounts } := by
  rw [decrementAsnCount]
  split
  next => rfl
  next =>
    split
    next => rfl
    next => rfl

/-- After `++asn_counts[asn]` the winner is the old one or `asn`, whichever is
better. This is `selects_increment` at the count that the call returns. -/
theorem increment_selects {record : PrefixRecord} {l : List Observation} {o : Observation}
    {sel : UInt32 × UInt32} (hc : CountsOf record.asnCounts l)
    (hs : Selects record.asnCounts sel) (hlen : (o :: l).length < 2 ^ 32) :
    Selects (incrementAsnCount record o.originAsn).2.asnCounts
      (if betterEntry (o.originAsn, (incrementAsnCount record o.originAsn).1) sel
        then (o.originAsn, (incrementAsnCount record o.originAsn).1) else sel) := by
  have hnat := (increment_countsOf (o := o) hc hlen).2
  have hpos : 0 < (incrementAsnCount record o.originAsn).1.toNat := by
    rw [hnat]
    exact Nat.succ_pos _
  have hgrow : ∀ count, record.asnCounts.lookup o.originAsn = some count →
      count.toNat < (incrementAsnCount record o.originAsn).1.toNat := by
    intro count hcount
    rw [List.length_cons] at hlen
    rw [hnat, (hc.lookup_eq_some (by omega) hcount).1]
    exact Nat.lt_succ_self _
  exact selects_increment hs hpos hgrow

/-- The tail of `announce_impl` in one piece: the winner is the old one or the
newcomer. -/
theorem addObservation_eq (record : PrefixRecord) (peerId : PeerId) (asn : UInt32) (t : UInt64) :
    addObservation record peerId asn t =
      let newCount := (incrementAsnCount record asn).1
      let selected :=
        if record.selectedCount = 0 || betterEntry (asn, newCount)
            (record.selectedAsn, record.selectedCount) then (asn, newCount)
        else (record.selectedAsn, record.selectedCount)
      { observations := record.observations ++ [⟨peerId, asn⟩]
        timestamps := record.timestamps ++ [t]
        asnCounts := (incrementAsnCount record asn).2.asnCounts
        selectedAsn := selected.1
        selectedCount := selected.2 } := by
  unfold addObservation
  dsimp only [incrementAsnCount, betterEntry]
  split
  next hbetter => simp only [hbetter, if_true]
  next hworse => simp only [hworse]; rfl

theorem observations_addObservation (record : PrefixRecord) (peerId : PeerId) (asn : UInt32)
    (t : UInt64) : (addObservation record peerId asn t).observations =
      record.observations ++ [⟨peerId, asn⟩] := by
  rw [addObservation_eq]

/-- `selected_count == 0 ||` adds nothing: any vote beats a winner without
votes. -/
theorem selectedCount_zero_or_better {record : PrefixRecord} {asn newCount : UInt32}
    (hpos : 0 < newCount.toNat) :
    (record.selectedCount = 0 ||
        betterEntry (asn, newCount) (record.selectedAsn, record.selectedCount)) =
      betterEntry (asn, newCount) (record.selectedAsn, record.selectedCount) := by
  by_cases h0 : record.selectedCount = 0
  · have hb : betterEntry (asn, newCount) (record.selectedAsn, record.selectedCount) = true := by
      rw [betterEntry_iff, h0]
      exact Or.inl hpos
    rw [hb, Bool.or_true]
  · rw [decide_eq_false h0, Bool.false_or]

/-- A peer that has no row yet gets the last one. No counter is involved, so a
full record takes it too. -/
theorem addObservation_rowsInv {record : PrefixRecord} (h : RowsInv record) {peerId : PeerId}
    (hnew : ∀ o ∈ record.observations, o.peerId ≠ peerId) (asn : UInt32) (t : UInt64) :
    RowsInv (addObservation record peerId asn t) ∧
      rows (addObservation record peerId asn t) = rows record ++ [(⟨peerId, asn⟩, t)] := by
  rw [addObservation_eq]
  refine ⟨⟨?_, ?_⟩, zip_concat h.aligned.symm _ _⟩
  · simp only [List.length_append, h.aligned, List.length_singleton]
  · rw [List.map_append, List.map_singleton]
    refine List.nodup_append.mpr ⟨h.distinct, List.nodup_singleton _, ?_⟩
    intro a ha b hb
    obtain ⟨o, ho, rfl⟩ := List.mem_map.mp ha
    rw [List.mem_singleton.mp hb]
    exact hnew o ho

/-- A new observation joins, and the record keeps its invariant and its other
rows, as long as the counters have room. -/
theorem addObservation_inv {record : PrefixRecord} (h : RecordInv record) (peerId : PeerId)
    (asn : UInt32) (t : UInt64) (hnew : ∀ o ∈ record.observations, o.peerId ≠ peerId)
    (hlen : record.observations.length + 1 < 2 ^ 32) :
    RecordInv (addObservation record peerId asn t) ∧
      rows (addObservation record peerId asn t) = rows record ++ [(⟨peerId, asn⟩, t)] := by
  obtain ⟨hcount, hnat⟩ := increment_countsOf (o := ⟨peerId, asn⟩) h.counted hlen
  have hsel := increment_selects (o := ⟨peerId, asn⟩) h.counted h.selects hlen
  dsimp only at hcount hnat hsel
  have hpos : 0 < (incrementAsnCount record asn).1.toNat := by
    rw [hnat]
    exact Nat.succ_pos _
  have hperm : (⟨peerId, asn⟩ :: record.observations).Perm (record.observations ++ [⟨peerId, asn⟩]) :=
    (List.perm_append_singleton _ _).symm
  obtain ⟨hrows, happend⟩ := addObservation_rowsInv h.rowsInv hnew asn t
  rw [addObservation_eq] at hrows happend ⊢
  dsimp only at hrows happend ⊢
  rw [selectedCount_zero_or_better hpos] at hrows happend ⊢
  exact ⟨⟨hrows.aligned, hrows.distinct, hcount.perm hperm, hsel⟩, happend⟩

/-- The branch for another origin in one piece: the winner is found by a rescan
when it may have lost a vote, and by one comparison otherwise. -/
theorem changeOrigin_eq (ord : IterOrder UInt32 UInt32) (record : PrefixRecord) (i : Nat)
    (o : Observation) (asn : UInt32) (t : UInt64) :
    changeOrigin ord record i o asn t =
      let counted := incrementAsnCount (decrementAsnCount record o.originAsn).2 asn
      let record' : PrefixRecord :=
        { observations := record.observations.set i ⟨o.peerId, asn⟩
          timestamps := record.timestamps.set i t
          asnCounts := counted.2.asnCounts
          selectedAsn := record.selectedAsn
          selectedCount := record.selectedCount }
      if o.originAsn == record.selectedAsn then recomputeSelectedFromCounts ord record'
      else
        let selected :=
          if betterEntry (asn, counted.1) (record.selectedAsn, record.selectedCount)
            then (asn, counted.1) else (record.selectedAsn, record.selectedCount)
        { record' with selectedAsn := selected.1, selectedCount := selected.2 } := by
  rw [changeOrigin, decrementAsnCount_fields]
  dsimp only [incrementAsnCount, betterEntry]
  split
  next => rfl
  next =>
    split
    next hbetter => simp only [hbetter, if_true]
    next hworse => simp only [hworse]; rfl

/-- A rescan writes the winner and leaves the observations. -/
theorem observations_recompute (ord : IterOrder UInt32 UInt32) (record : PrefixRecord) :
    (recomputeSelectedFromCounts ord record).observations = record.observations := rfl

theorem length_changeOrigin (ord : IterOrder UInt32 UInt32) (record : PrefixRecord) (i : Nat)
    (o : Observation) (asn : UInt32) (t : UInt64) :
    (changeOrigin ord record i o asn t).observations.length = record.observations.length := by
  rw [changeOrigin_eq]
  dsimp only
  split
  next => rw [observations_recompute, List.length_set]
  next => rw [List.length_set]

/-- Overwriting an observation by one of the same peer leaves the peers as they
are. -/
theorem map_peerId_set {l : List Observation} {i : Nat} {o : Observation} (hi : l[i]? = some o)
    (asn : UInt32) :
    (l.set i ⟨o.peerId, asn⟩).map Observation.peerId = l.map Observation.peerId := by
  obtain ⟨hlt, hget⟩ := List.getElem?_eq_some_iff.mp hi
  have hlt' : i < (l.map Observation.peerId).length := by
    rw [List.length_map]
    exact hlt
  have hid : o.peerId = (l.map Observation.peerId)[i] := by
    rw [List.getElem_map, hget]
  rw [List.map_set]
  show (l.map Observation.peerId).set i o.peerId = l.map Observation.peerId
  rw [hid, List.set_getElem_self]

/-- The branch for another origin overwrites the row of the peer, in both
arrays. -/
theorem changeOrigin_rowsInv (ord : IterOrder UInt32 UInt32) {record : PrefixRecord} {i : Nat}
    {o : Observation} (h : RowsInv record) (hi : record.observations[i]? = some o) (asn : UInt32)
    (t : UInt64) :
    RowsInv (changeOrigin ord record i o asn t) ∧
      rows (changeOrigin ord record i o asn t) = (rows record).set i (⟨o.peerId, asn⟩, t) := by
  have hlen : (record.timestamps.set i t).length =
      (record.observations.set i ⟨o.peerId, asn⟩).length := by
    rw [List.length_set, List.length_set, h.aligned]
  have hdist : ((record.observations.set i ⟨o.peerId, asn⟩).map Observation.peerId).Nodup := by
    rw [map_peerId_set hi]
    exact h.distinct
  rw [changeOrigin_eq]
  dsimp only
  split
  next => exact ⟨⟨hlen, hdist⟩, zip_set _ _ _ _ _⟩
  next => exact ⟨⟨hlen, hdist⟩, zip_set _ _ _ _ _⟩

/-- A known peer announces another origin: the counters lose one vote and gain
one, and the winner is rescanned where it may have lost the vote. The
observations are those of before with one origin changed, so the bound is the
old one. -/
theorem changeOrigin_inv (ord : IterOrder UInt32 UInt32) {record : PrefixRecord} {i : Nat}
    {o : Observation} (h : RecordInv record) (hi : record.observations[i]? = some o)
    (hlen : record.observations.length < 2 ^ 32) (asn : UInt32) (t : UInt64) :
    RecordInv (changeOrigin ord record i o asn t) ∧
      rows (changeOrigin ord record i o asn t) =
        (rows record).set i (⟨o.peerId, asn⟩, t) := by
  obtain ⟨hlt, hget⟩ := List.getElem?_eq_some_iff.mp hi
  have hsplit : record.observations.Perm (o :: record.observations.eraseIdx i) := by
    rw [← hget]
    exact perm_cons_eraseIdx hlt
  have hperm : (⟨o.peerId, asn⟩ :: record.observations.eraseIdx i).Perm
      (record.observations.set i ⟨o.peerId, asn⟩) :=
    (List.set_perm_cons_eraseIdx hlt _).symm
  have hlen₁ : (o :: record.observations.eraseIdx i).length < 2 ^ 32 :=
    hsplit.length_eq ▸ hlen
  -- the old origin loses its vote, then the new one gains it
  have hdec := decrement_countsOf (h.counted.perm hsplit) hlen₁
  have hinc := (increment_countsOf (o := ⟨o.peerId, asn⟩) hdec hlen₁).1.perm hperm
  obtain ⟨hrows, hset⟩ := changeOrigin_rowsInv ord h.rowsInv hi asn t
  refine ⟨?_, hset⟩
  rw [changeOrigin_eq] at hrows ⊢
  dsimp only at hrows ⊢
  split at hrows
  next hwinner =>
    rw [if_pos hwinner]
    exact ⟨hrows.aligned, hrows.distinct, hinc, selects_recompute ord _⟩
  next hloser =>
    rw [if_neg hloser]
    -- a loser lost a vote, so the old winner still stands, and only the new origin can beat it
    have hne : o.originAsn ≠ record.selectedAsn := fun e => hloser (beq_iff_eq.mpr e)
    have hsel := increment_selects (o := ⟨o.peerId, asn⟩) hdec (selects_decrement h.selects hne)
      hlen₁
    exact ⟨hrows.aligned, hrows.distinct, hinc, hsel⟩

/-- Removal in one piece: the arrays are packed, one counter is taken back, and
the winner is not touched yet. -/
theorem removeObservation_eq (record : PrefixRecord) (i : Nat) (o : Observation) :
    removeObservation record i o =
      { observations := swapRemove record.observations i
        timestamps := swapRemove record.timestamps i
        asnCounts := (decrementAsnCount record o.originAsn).2.asnCounts
        selectedAsn := record.selectedAsn
        selectedCount := record.selectedCount } := by
  rw [removeObservation, decrementAsnCount_fields]

theorem removeObservation_rowsInv {record : PrefixRecord} {i : Nat} {o : Observation}
    (h : RowsInv record) (hi : record.observations[i]? = some o) :
    RowsInv (removeObservation record i o) := by
  obtain ⟨hlt, hget⟩ := List.getElem?_eq_some_iff.mp hi
  rw [removeObservation_eq]
  constructor
  · rw [length_swapRemove hlt, length_swapRemove (h.aligned.symm ▸ hlt), h.aligned]
  · have hall := ((perm_cons_eraseIdx hlt).map Observation.peerId).nodup_iff.mp h.distinct
    exact ((swapRemove_perm hlt).map Observation.peerId).nodup_iff.mpr (List.nodup_cons.mp hall).2

/-- An observation leaves, and the winner is rescanned when it lost a vote.
Where it is not rescanned, the removed origin was a loser and
`selects_decrement` applies. -/
theorem removeObservation_inv (ord : IterOrder UInt32 UInt32) {record : PrefixRecord} {i : Nat}
    {o : Observation} (h : RecordInv record) (hi : record.observations[i]? = some o)
    (hlen : record.observations.length < 2 ^ 32) :
    let r := if o.originAsn == record.selectedAsn then
        recomputeSelectedFromCounts ord (removeObservation record i o)
      else removeObservation record i o
    RecordInv r ∧ rows r = swapRemove (rows record) i ∧
      r.observations = (removeObservation record i o).observations := by
  obtain ⟨hlt, hget⟩ := List.getElem?_eq_some_iff.mp hi
  have hsplit : record.observations.Perm (o :: record.observations.eraseIdx i) := by
    rw [← hget]
    exact perm_cons_eraseIdx hlt
  have hperm : (record.observations.eraseIdx i).Perm (swapRemove record.observations i) :=
    (swapRemove_perm hlt).symm
  have hdec := (decrement_countsOf (h.counted.perm hsplit) (hsplit.length_eq ▸ hlen)).perm hperm
  have hpacked := removeObservation_rowsInv h.rowsInv hi
  have hrem := removeObservation_eq record i o
  rw [hrem] at hpacked
  have hrows := zip_swapRemove h.aligned.symm hlt
  dsimp only
  split
  next =>
    -- the winner has lost a vote, so the code rescans
    have hs := selects_recompute ord (removeObservation record i o)
    rw [hrem] at hs ⊢
    exact ⟨⟨hpacked.aligned, hpacked.distinct, hdec, hs⟩, hrows, rfl⟩
  next hloser =>
    have hne : o.originAsn ≠ record.selectedAsn := fun e => hloser (beq_iff_eq.mpr e)
    have hs := selects_decrement h.selects hne
    rw [hrem]
    exact ⟨⟨hpacked.aligned, hpacked.distinct, hdec, hs⟩, hrows, rfl⟩

end ASNPrefixMap.Routing
