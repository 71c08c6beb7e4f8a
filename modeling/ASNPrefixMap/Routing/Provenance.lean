import ASNPrefixMap.Routing.Renaming

/-!
# Where the contents of a state come from

A state holds nothing that was not put there: an observation is what some
announcement or restore of the history wrote (`live_provenance`), and the ASN a
prefix is aggregated to is the origin of one of its observations
(`exists_live_of_selected`).

This is what a reader of a snapshot may rely on: after a load, whatever the
state shows was a line of the file, or has been announced since.
-/

namespace ASNPrefixMap.Routing

open Lib Prefix Peer

/-- The operation writes the value under the key. -/
def Op.Writes (key : BinaryPrefix × PeerId) (value : UInt32 × UInt64) : Op → Prop
  | .announce peerId pfx asn t => key = (pfx, peerId) ∧ value = (asn, t)
  | .withdraw _ _ => False
  | .restore peerId pfx asn t => key = (pfx, peerId) ∧ value = (asn, t)
  | .rebuild => False
  | .clear => False

/-- The step lemma: a value under a key was there before, or the operation wrote
it. -/
theorem lastWriterStep_eq_some {m : BinaryPrefix × PeerId → Option (UInt32 × UInt64)} {op : Op}
    {key : BinaryPrefix × PeerId} {value : UInt32 × UInt64}
    (h : lastWriterStep m op key = some value) : m key = some value ∨ op.Writes key value := by
  -- a write to the key gives its value, any other leaves the entry as it was
  have hwrite : ∀ w : Write (BinaryPrefix × PeerId) (UInt32 × UInt64),
      applyWrite m w key = some value → m key = some value ∨ key = w.key ∧ w.value = some value := by
    intro w hw
    rw [applyWrite_apply] at hw
    split at hw
    next hkey => exact Or.inr ⟨hkey, hw⟩
    next => exact Or.inl hw
  cases op with
  | announce peerId pfx asn t =>
    exact (hwrite _ h).imp_right fun ⟨hkey, hval⟩ => ⟨hkey, (Option.some.inj hval).symm⟩
  | withdraw peerId pfx =>
    rcases hwrite _ h with h | ⟨-, hval⟩
    · exact Or.inl h
    · cases hval
  | restore peerId pfx asn t =>
    exact (hwrite _ h).imp_right fun ⟨hkey, hval⟩ => ⟨hkey, (Option.some.inj hval).symm⟩
  | rebuild => exact Or.inl h
  | clear => cases h

/-- An entry after some calls was there before them or was written by one of
them. -/
theorem foldl_lastWriterStep_eq_some {key : BinaryPrefix × PeerId} {value : UInt32 × UInt64} :
    ∀ (calls : List (HashOrders × Op)) (m : BinaryPrefix × PeerId → Option (UInt32 × UInt64)),
      calls.foldl (fun m call => lastWriterStep m call.2) m key = some value →
      m key = some value ∨ ∃ call ∈ calls, call.2.Writes key value := by
  intro calls
  induction calls with
  | nil => exact fun _ h => Or.inl h
  | cons call calls ih =>
    intro m h
    rw [List.foldl_cons] at h
    rcases ih _ h with h | ⟨call', hmem, hw⟩
    · rcases lastWriterStep_eq_some h with h | hw
      · exact Or.inl h
      · exact Or.inr ⟨call, List.mem_cons_self, hw⟩
    · exact Or.inr ⟨call', List.mem_cons_of_mem _ hmem, hw⟩

/-- A history that never fills a prefix did not before its last calls either:
the bound is one on every state along the way. -/
theorem NeverFull.of_append {calls₀ calls : List (HashOrders × Op)}
    (h : NeverFull (calls₀ ++ calls)) : NeverFull calls₀ := by
  intro n
  have hn := h (min n calls₀.length)
  rw [List.take_append_of_le_length (Nat.min_le_right _ _), ← List.take_eq_take_min] at hn
  exact hn

theorem runOps_append (calls₀ calls : List (HashOrders × Op)) :
    runOps (calls₀ ++ calls) = calls.foldl stepOp (runOps calls₀) := List.foldl_append

/-- What a state holds after a history was held before its last calls or written
by them. -/
theorem live_provenance {calls₀ calls : List (HashOrders × Op)} (h : NeverFull (calls₀ ++ calls))
    {key : BinaryPrefix × PeerId} {value : UInt32 × UInt64}
    (hlive : live (runOps (calls₀ ++ calls)) key = some value) :
    live (runOps calls₀) key = some value ∨ ∃ call ∈ calls, call.2.Writes key value := by
  rw [(runOps_spec h).2, lastWriterRun, List.foldl_append] at hlive
  rw [(runOps_spec h.of_append).2]
  exact foldl_lastWriterStep_eq_some calls _ hlive

section Family

variable {P : Type} [DecidableEq P]

/-- The winner of a prefix is the origin of one of its observations. -/
theorem exists_tableEntry_of_aggregated {tables : FamilyTables P} (h : TablesInv tables) {p : P}
    {asn : UInt32} (hp : tables.aggregated.lookup p = some asn) :
    ∃ j t, tableEntry tables p j = some (asn, t) := by
  rw [h.agree, Option.map_eq_some_iff] at hp
  obtain ⟨record, hrecord, rfl⟩ := hp
  have hlive := h.live p record hrecord
  obtain ⟨o, ho, horigin⟩ := List.countP_pos_iff.mp hlive.tally_selected_pos
  rw [← hlive.inv.map_fst_rows] at ho
  obtain ⟨⟨o', t⟩, hrow, rfl⟩ := List.mem_map.mp ho
  refine ⟨o'.peerId, t, ?_⟩
  rw [tableEntry_of_lookup hrecord]
  rw [← of_decide_eq_true horigin]
  exact hlive.inv.rowsInv.peerEntry_eq_some.mpr hrow

end Family

/-- What a state aggregates a prefix to is the origin of one of its stored
observations. -/
theorem exists_live_of_selected {state : RoutingState} (h : StateInv state) {pfx : BinaryPrefix}
    {asn : UInt32} (hpfx : state.selected pfx = some asn) :
    ∃ j t, live state (pfx, j) = some (asn, t) := by
  cases pfx with
  | v4 p => exact exists_tableEntry_of_aggregated h.v4 hpfx
  | v6 p => exact exists_tableEntry_of_aggregated h.v6 hpfx

end ASNPrefixMap.Routing
