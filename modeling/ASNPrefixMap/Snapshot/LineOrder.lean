import ASNPrefixMap.Snapshot.Canonical
import ASNPrefixMap.Snapshot.Lines

/-!
# The order of the lines

Moving the data lines of a snapshot about, each kind within its own positions
(`Rearranged`), changes nothing about a load: whether it is accepted depends on
the lines one by one and on their records as a collection
(`Rearranged.loadable`), the peers get the ids their lines name, and the
observations are sorted before they are inserted, so lines that contradict each
other are resolved the same way (`load_ignores_line_order`).

A rearrangement keeps what separates the sections. Moving a line into another
section, or a header line, is not one.
-/

namespace ASNPrefixMap.Snapshot

open Lib Prefix Peer Routing

/-- The lines with a hole in the place of every data line. -/
def skeleton (lines : List Bytes) : List (Option Bytes) :=
  lines.map fun line => if lineKind line = .data then none else some line

/-- The same text but for the order of the data lines of each section: the
header and the lines that are no data stay, the positions of a section's data
lines are filled with the same lines. -/
structure Rearranged (text text' : Bytes) : Prop where
  header : (splitHeader (getLines text)).map Prod.fst = (splitHeader (getLines text')).map Prod.fst
  skeleton_eq : skeleton (bodyLines text) = skeleton (bodyLines text')
  peers : (peerLines text).Perm (peerLines text')
  observations : (observationLines text).Perm (observationLines text')

theorem Rearranged.symm {text text' : Bytes} (h : Rearranged text text') : Rearranged text' text :=
  ⟨h.header.symm, h.skeleton_eq.symm, h.peers.symm, h.observations.symm⟩

/-! ## What the skeleton determines -/

/-- Lines that leave the same trace are both data, or the same line. -/
theorem kind_of_skeleton {line line' : Bytes}
    (h : (if lineKind line = .data then none else some line) =
      if lineKind line' = .data then none else some line') :
    (lineKind line = .data ∧ lineKind line' = .data) ∨ line = line' := by
  by_cases hd : lineKind line = .data
  · by_cases hd' : lineKind line' = .data
    · exact Or.inl ⟨hd, hd'⟩
    · rw [if_pos hd, if_neg hd'] at h
      cases h
  · by_cases hd' : lineKind line' = .data
    · rw [if_neg hd, if_pos hd'] at h
      cases h
    · rw [if_neg hd, if_neg hd'] at h
      exact Or.inr (Option.some.inj h)

/-- Each section has as many data lines in the one as in the other. -/
theorem length_linesIn_of_skeleton (target : Section) : ∀ {lines lines' : List Bytes}
    (current : Section), skeleton lines = skeleton lines' →
    (linesIn target current lines).length = (linesIn target current lines').length := by
  intro lines
  induction lines with
  | nil =>
    intro lines' current h
    rw [List.map_eq_nil_iff.mp h.symm]
  | cons line lines ih =>
    intro lines' current h
    cases lines' with
    | nil => cases h
    | cons line' lines' =>
      obtain ⟨hline, hrest⟩ := List.cons.inj h
      rcases kind_of_skeleton hline with ⟨hd, hd'⟩ | rfl
      · rw [linesIn, linesIn, hd, hd']
        dsimp only
        by_cases hcurrent : current = target
        · rw [if_pos hcurrent, if_pos hcurrent, List.length_cons, List.length_cons, ih current hrest]
        · rw [if_neg hcurrent, if_neg hcurrent, ih current hrest]
      · rw [linesIn, linesIn]
        cases lineKind line with
        | blank => exact ih current hrest
        | opens opened => exact ih opened hrest
        | unknownSection => exact ih current hrest
        | data =>
          dsimp only
          by_cases hcurrent : current = target
          · rw [if_pos hcurrent, if_pos hcurrent, List.length_cons, List.length_cons, ih current hrest]
          · rw [if_neg hcurrent, if_neg hcurrent, ih current hrest]

theorem mem_of_skeleton {lines lines' : List Bytes} (h : skeleton lines = skeleton lines')
    {line : Bytes} (hline : line ∈ lines) (hdata : lineKind line ≠ .data) : line ∈ lines' := by
  have hmem : some line ∈ skeleton lines' := by
    rw [← h]
    exact List.mem_map.mpr ⟨line, hline, if_neg hdata⟩
  obtain ⟨line', hline', heq⟩ := List.mem_map.mp hmem
  split at heq
  next => cases heq
  next => exact Option.some.inj heq ▸ hline'

/-! ## What is accepted -/

variable {net : Inet} {text text' : Bytes}

/-- The peers read are the same, in another order. -/
theorem Rearranged.peerRecords_perm (h : Rearranged text text') :
    (peerRecords .none (bodyLines text)).Perm (peerRecords .none (bodyLines text')) :=
  h.peers.filterMap _

theorem Rearranged.observationRecords_perm (h : Rearranged text text') :
    (observationRecords .none (bodyLines text)).Perm (observationRecords .none (bodyLines text')) :=
  h.observations.filterMap _

/-- A rearranged text is accepted if the text is: each of the conditions is
about single lines or about the records as a collection. -/
theorem Rearranged.loadable (h : Rearranged text text') (hl : Loadable net text) :
    Loadable net text' := by
  have hpeers := h.peerRecords_perm
  have hobs := h.observationRecords_perm
  refine ⟨fun line lines hsplit => ?_, ⟨fun line hline hkind => ?_, ?_, fun line hline => ?_,
    fun line hline => ?_, ?_⟩, ?_, fun o ho => ?_, fun o ho => ?_⟩
  · have hheader := h.header
    rw [hsplit, Option.map_some, Option.map_eq_some_iff] at hheader
    obtain ⟨⟨line', lines'⟩, hsplit', rfl⟩ := hheader
    exact hl.header _ _ hsplit'
  · refine hl.readable.sections line (mem_of_skeleton h.skeleton_eq.symm hline ?_) hkind
    rw [hkind]
    decide
  · rw [← List.length_eq_zero_iff, ← length_linesIn_of_skeleton .none .none h.skeleton_eq,
      List.length_eq_zero_iff]
    exact hl.readable.placed
  · exact hl.readable.peers line (h.peers.mem_iff.mpr hline)
  · exact hl.readable.observations line (h.observations.mem_iff.mpr hline)
  · exact (hpeers.map Prod.fst).nodup_iff.mp hl.readable.ids
  · exact (hpeers.map Prod.snd).nodup_iff.mp hl.identities
  · exact (hpeers.map Prod.fst).mem_iff.mp (hl.known o (hobs.mem_iff.mpr ho))
  · exact hl.accepted o (hobs.mem_iff.mpr ho)

/-! ## What is loaded -/

/-- The restored state does not depend on the iteration orders inside it. -/
theorem restoreAll_order_irrel (ord₁ ord₂ : HashOrders) (state : RoutingState)
    (observations : List SnapshotObservation) :
    restoreAll net ord₁ state observations = restoreAll net ord₂ state observations := by
  have hline : restoredState net ord₁ = restoredState net ord₂ := by
    funext state o
    unfold restoredState
    cases o.parse net with
    | ok pfx => exact restoreObservation_order_irrel ord₁ ord₂ state o.peerId pfx o.originAsn o.timestamp
    | error e => rfl
  rw [restoreAll, restoreAll, hline]

/-- **Loading does not depend on the order of the lines**, nor on the iteration
orders of the hash maps, nor on what there was before. The lines of a section
may be permuted in any way, repeated ones included; observations are sorted
before they are announced, and peers are a map. -/
theorem load_ignores_line_order (h : Rearranged text text') (ord ord' : HashOrders)
    (peerOrd peerOrd' : IterOrder PeerId PeerInfo) (path path' : Bytes) (store₀ store₀' : Store) :
    ((∃ e store, (loadSnapshot net ord peerOrd path (some text)).run store₀ = .error e store) ∧
      ∃ e store, (loadSnapshot net ord' peerOrd' path' (some text')).run store₀' = .error e store) ∨
    ∃ stats store stats' store',
      (loadSnapshot net ord peerOrd path (some text)).run store₀ = .ok stats store ∧
      (loadSnapshot net ord' peerOrd' path' (some text')).run store₀' = .ok stats' store' ∧
      (∀ i, store.registry.byId.lookup i = store'.registry.byId.lookup i) ∧
      (∀ o, o ∈ store.state.storedObservations ord ↔ o ∈ store'.state.storedObservations ord') ∧
      store.state.selected = store'.state.selected := by
  rcases @loadSnapshot_spec net ord peerOrd text path store₀ with
    ⟨hl, stats, store, hok, hlookup, hstate⟩ | ⟨hl, e, store, hthrows⟩
  · rcases @loadSnapshot_spec net ord' peerOrd' text' path' store₀' with
      ⟨-, stats', store', hok', hlookup', hstate'⟩ | ⟨hl', -⟩
    · have hsame : store.state = store'.state := by
        rw [hstate, hstate', rebuildAggregated_order_irrel ord ord', restoreAll_order_irrel ord ord',
          sortObservations_perm h.observationRecords_perm]
      refine Or.inr ⟨stats, store, stats', store', hok, hok', fun i => ?_, fun o => ?_, by rw [hsame]⟩
      · ext p
        rw [hlookup, hlookup', h.peerRecords_perm.mem_iff]
      · rw [← hsame]
        exact (storedObservations_perm ord ord' store.state).mem_iff
    · exact absurd (h.loadable hl) hl'
  · rcases @loadSnapshot_spec net ord' peerOrd' text' path' store₀' with ⟨hl', -⟩ |
      ⟨-, e', store', hthrows'⟩
    · exact absurd (h.symm.loadable hl') hl
    · exact Or.inl ⟨⟨e, store, hthrows⟩, e', store', hthrows'⟩

/-- Observations before peers, two of them of one peer and one prefix under
different texts, and a second section of peers. -/
def mixedText : Bytes :=
  bytes "# ASNPrefixMap snapshot v1\n[observations]\nv4\t10.0.0.0/8\t1\t65001\t100\n" ++
  bytes "v4\t10.1.2.3/8\t1\t65002\t90\n[peers]\n1\trrc00\t192.0.2.1\t64500\n\n" ++
  bytes "[peers]\n2\trrc10\t192.0.2.2\t64501\n"

/-- The same lines, both kinds the other way round. -/
def remixedText : Bytes :=
  bytes "# ASNPrefixMap snapshot v1\n[observations]\nv4\t10.1.2.3/8\t1\t65002\t90\n" ++
  bytes "v4\t10.0.0.0/8\t1\t65001\t100\n[peers]\n2\trrc10\t192.0.2.2\t64501\n\n" ++
  bytes "[peers]\n1\trrc00\t192.0.2.1\t64500\n"

/-- The second text is a rearrangement of the first. -/
theorem rearranged_mixedText : Rearranged mixedText remixedText :=
  ⟨by decide +kernel, by decide +kernel, by decide +kernel, by decide +kernel⟩

theorem loadable_mixedText : Loadable Inet.standard mixedText := by decide +kernel

/-- Both texts load, and to the same observations. -/
theorem load_ignores_line_order_mixed : ∃ stats store stats' store',
    (loadSnapshot Inet.standard .ascending (.byKey UInt32.toNat fun _ _ => UInt32.toNat_inj.mp)
      (bytes "snapshot.txt") (some mixedText)).run {} = .ok stats store ∧
    (loadSnapshot Inet.standard .ascending (.byKey UInt32.toNat fun _ _ => UInt32.toNat_inj.mp)
      (bytes "snapshot.txt") (some remixedText)).run {} = .ok stats' store' ∧
    ∀ o, o ∈ store.state.storedObservations .ascending ↔
      o ∈ store'.state.storedObservations .ascending := by
  rcases @load_ignores_line_order Inet.standard _ _ rearranged_mixedText .ascending .ascending
    (.byKey UInt32.toNat fun _ _ => UInt32.toNat_inj.mp)
    (.byKey UInt32.toNat fun _ _ => UInt32.toNat_inj.mp) (bytes "snapshot.txt")
    (bytes "snapshot.txt") {} {} with
    ⟨⟨e, store, hthrows⟩, -⟩ | ⟨stats, store, stats', store', hok, hok', -, hsame, -⟩
  · rcases @loadSnapshot_spec Inet.standard .ascending
      (.byKey UInt32.toNat fun _ _ => UInt32.toNat_inj.mp) mixedText (bytes "snapshot.txt") {} with
      ⟨-, stats, store', hok, -⟩ | ⟨hnot, -⟩
    · cases hok.symm.trans hthrows
    · exact absurd loadable_mixedText hnot
  · exact ⟨stats, store, stats', store', hok, hok', hsame⟩

end ASNPrefixMap.Snapshot
