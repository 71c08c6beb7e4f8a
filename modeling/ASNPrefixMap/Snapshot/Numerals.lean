import ASNPrefixMap.Snapshot.Lines

/-!
# The numbers of a snapshot

`std::stoul` and `std::stoull` convert more than numerals, and a `static_cast`
drops the high bits of what they return. So a load can read a line as another
one: its ids and ASNs are what the text says exactly for the files in which no
numeric field has something before or behind its digits, and no 32-bit field has
digits for more than `2^32 - 1` (`loaded_snapshot_means_what_it_says_iff`).

The sets of fields are those that the code converts, and no more: a timestamp
keeps its 64 bits, so it only needs to be a numeral as a whole.
-/

namespace ASNPrefixMap.Snapshot

open Lib Prefix Peer Routing

/-! ## What a line says -/

/-- The numeric fields of the line are, as a whole, the numerals of the peer's
id and ASN. -/
def PeerLineSays (line : Bytes) (peer : PeerId × PeerInfo) : Prop :=
  ∃ idText asnText, splitTabFields line = [idText, peer.2.host, peer.2.peerIp, asnText] ∧
    IsNumeral idText peer.1.toNat ∧ IsNumeral asnText peer.2.peerAsn.toNat

/-- The fields of an observation line are, as a whole, the family, the text and
the numerals of the observation. -/
def ObservationLineSays (line : Bytes) (o : SnapshotObservation) : Prop :=
  ∃ familyText idText asnText timestampText,
    splitTabFields line = [familyText, o.prefixText, idText, asnText, timestampText] ∧
    parseFamily familyText = .ok o.family ∧ IsNumeral idText o.peerId.toNat ∧
    IsNumeral asnText o.originAsn.toNat ∧ IsNumeral timestampText o.timestamp.toNat

/-- Whatever a load of the text leaves was made of what its lines say. -/
def MeansWhatItSays (net : Inet) (ord : HashOrders) (peerOrd : IterOrder PeerId PeerInfo)
    (path text : Bytes) : Prop :=
  ∀ store stats store', (loadSnapshot net ord peerOrd path (some text)).run store =
      .ok stats store' →
    ∃ peers observations, List.Forall₂ PeerLineSays (peerLines text) peers ∧
      List.Forall₂ ObservationLineSays (observationLines text) observations ∧
      (∀ i p, store'.registry.byId.lookup i = some p ↔ (i, p) ∈ peers) ∧
      store'.state =
        (restoreAll net ord {} (sortObservations observations)).rebuildAggregated ord

/-! ## Numeric fields -/

/-- The numeric fields of a peer line. -/
def peerNumbers (line : Bytes) : List Bytes :=
  match splitTabFields line with
  | [idText, _, _, asnText] => [idText, asnText]
  | _ => []

/-- The fields of an observation line that are cast to 32 bits. -/
def observationNumbers (line : Bytes) : List Bytes :=
  match splitTabFields line with
  | [_, _, idText, asnText, _] => [idText, asnText]
  | _ => []

/-- The timestamp of an observation line. -/
def observationTimes (line : Bytes) : List Bytes :=
  match splitTabFields line with
  | [_, _, _, _, timestampText] => [timestampText]
  | _ => []

/-- The fields that are cast to 32 bits. -/
def narrowFields (text : Bytes) : List Bytes :=
  (peerLines text).flatMap peerNumbers ++ (observationLines text).flatMap observationNumbers

/-- The fields that keep 64 bits. -/
def timestampFields (text : Bytes) : List Bytes := (observationLines text).flatMap observationTimes

/-- No field has something before or behind its digits, and those that are cast
fit. Then the number in the field is the one that is loaded. -/
structure NothingLost (text : Bytes) : Prop where
  narrow : ∀ field ∈ narrowFields text, ¬ Led field ∧ ¬ Trailed field ∧ digitsValue field < 2 ^ 32
  timestamp : ∀ field ∈ timestampFields text, ¬ Led field ∧ ¬ Trailed field

/-- What is cast to 32 bits keeps its value when it fits. -/
theorem isNumeral_narrow {text : Bytes} {value : UInt64} (h : stoul text = .ok value)
    (hplain : ¬ Led text ∧ ¬ Trailed text ∧ digitsValue text < 2 ^ 32) :
    IsNumeral text value.toUInt32.toNat := by
  obtain ⟨hled, htrailed, hlt⟩ := hplain
  have hnum := ((strtoull_eq_ok h).resolve_left hled).resolve_left htrailed
  rw [hnum.value] at hlt
  rw [UInt64.toNat_toUInt32, Nat.mod_eq_of_lt hlt]
  exact hnum

/-- What keeps 64 bits keeps its value, or the conversion throws. -/
theorem isNumeral_timestamp {text : Bytes} {value : UInt64} (h : stoull text = .ok value)
    (hplain : ¬ Led text ∧ ¬ Trailed text) : IsNumeral text value.toNat :=
  ((strtoull_eq_ok h).resolve_left hplain.1).resolve_left hplain.2

/-- A numeral of a 32-bit number has nothing that can get lost. -/
theorem plain_of_isNumeral {text : Bytes} {n : UInt32} (h : IsNumeral text n.toNat) :
    ¬ Led text ∧ ¬ Trailed text ∧ digitsValue text < 2 ^ 32 :=
  ⟨h.not_led, h.not_trailed, by rw [h.value]; exact n.toNat_lt⟩

/-! ## Lines and their records -/

/-- A peer line in which nothing gets lost says what it is read as. -/
theorem peerLineSays_record {line : Bytes} {peer : PeerId × PeerInfo}
    (h : peerRecord line = some peer)
    (hplain : ∀ field ∈ peerNumbers line,
      ¬ Led field ∧ ¬ Trailed field ∧ digitsValue field < 2 ^ 32) :
    PeerLineSays line peer := by
  unfold peerRecord peerOfFields at h
  unfold peerNumbers at hplain
  split at h
  next idText host peerIp asnText hfields =>
    rw [hfields] at hplain
    split at h
    next peerId peerAsn hid hasn =>
      cases h
      exact ⟨idText, asnText, hfields, isNumeral_narrow hid (hplain idText List.mem_cons_self),
        isNumeral_narrow hasn (hplain asnText (List.mem_cons_of_mem _ List.mem_cons_self))⟩
    next => cases h
  next => cases h

theorem observationLineSays_record {line : Bytes} {o : SnapshotObservation}
    (h : observationRecord line = some o)
    (hnarrow : ∀ field ∈ observationNumbers line,
      ¬ Led field ∧ ¬ Trailed field ∧ digitsValue field < 2 ^ 32)
    (htime : ∀ field ∈ observationTimes line, ¬ Led field ∧ ¬ Trailed field) :
    ObservationLineSays line o := by
  unfold observationRecord observationOfFields at h
  unfold observationNumbers at hnarrow
  unfold observationTimes at htime
  split at h
  next familyText prefixText idText asnText timestampText hfields =>
    rw [hfields] at hnarrow htime
    split at h
    next family peerId originAsn timestamp hfamily hid hasn ht =>
      cases h
      exact ⟨familyText, idText, asnText, timestampText, hfields, hfamily,
        isNumeral_narrow hid (hnarrow idText List.mem_cons_self),
        isNumeral_narrow hasn (hnarrow asnText (List.mem_cons_of_mem _ List.mem_cons_self)),
        isNumeral_timestamp ht (htime timestampText List.mem_cons_self)⟩
    next => cases h
  next => cases h

/-- A peer line that says what it is read as has lost nothing in its two
numbers. -/
theorem peerLineSays_numbers {line : Bytes} {peer : PeerId × PeerInfo} (h : PeerLineSays line peer) :
    ∀ field ∈ peerNumbers line, ¬ Led field ∧ ¬ Trailed field ∧ digitsValue field < 2 ^ 32 := by
  obtain ⟨idText, asnText, hfields, hid, hasn⟩ := h
  intro field hfield
  rw [peerNumbers, hfields] at hfield
  simp only [List.mem_cons, List.not_mem_nil, or_false] at hfield
  rcases hfield with rfl | rfl
  · exact plain_of_isNumeral hid
  · exact plain_of_isNumeral hasn

theorem observationLineSays_numbers {line : Bytes} {o : SnapshotObservation}
    (h : ObservationLineSays line o) :
    (∀ field ∈ observationNumbers line,
      ¬ Led field ∧ ¬ Trailed field ∧ digitsValue field < 2 ^ 32) ∧
    ∀ field ∈ observationTimes line, ¬ Led field ∧ ¬ Trailed field := by
  obtain ⟨familyText, idText, asnText, timestampText, hfields, -, hid, hasn, ht⟩ := h
  constructor
  · intro field hfield
    rw [observationNumbers, hfields] at hfield
    simp only [List.mem_cons, List.not_mem_nil, or_false] at hfield
    rcases hfield with rfl | rfl
    · exact plain_of_isNumeral hid
    · exact plain_of_isNumeral hasn
  · intro field hfield
    rw [observationTimes, hfields] at hfield
    rw [List.mem_singleton.mp hfield]
    exact ⟨ht.not_led, ht.not_trailed⟩

/-- Each line with a record stands beside it in the list of records. -/
theorem forall₂_filterMap {α β : Type} {f : α → Option β} {R : α → β → Prop} : ∀ {l : List α},
    (∀ a ∈ l, ∃ b, f a = some b ∧ R a b) → List.Forall₂ R l (l.filterMap f) := by
  intro l
  induction l with
  | nil => exact fun _ => List.Forall₂.nil
  | cons a l ih =>
    intro h
    obtain ⟨b, hb, hR⟩ := h a List.mem_cons_self
    rw [List.filterMap_cons, hb]
    exact List.Forall₂.cons hR (ih fun a' ha' => h a' (List.mem_cons_of_mem _ ha'))

/-- What stands in the one list has a partner in the other. -/
theorem exists_of_forall₂ {α β : Type} {R : α → β → Prop} {l : List α} {l' : List β}
    (h : List.Forall₂ R l l') {a : α} (ha : a ∈ l) : ∃ b, R a b := by
  induction h with
  | nil => cases ha
  | cons hR _ ih =>
    rcases List.mem_cons.mp ha with rfl | ha
    · exact ⟨_, hR⟩
    · exact ih ha

variable {net : Inet} {ord : HashOrders} {peerOrd : IterOrder PeerId PeerInfo}

/-- **A loaded snapshot means what it says exactly when it is refused, or
nothing is lost in its numeric fields.** The fields are read by `std::stoul` and
`std::stoull`, which skip blanks, take a sign and stop at the first byte that is
no digit, and most are cast to 32 bits after that. -/
theorem loaded_snapshot_means_what_it_says_iff (path text : Bytes) :
    MeansWhatItSays net ord peerOrd path text ↔ (Loadable net text → NothingLost text) := by
  constructor
  · intro hsays hload
    rcases @loadSnapshot_spec net ord peerOrd text path {} with ⟨-, stats, store', hok, -⟩ | ⟨hnot, -⟩
    · obtain ⟨peers, observations, hpeers, hobs, -⟩ := hsays {} stats store' hok
      constructor
      · intro field hfield
        rcases List.mem_append.mp hfield with hfield | hfield
        · obtain ⟨line, hline, hfield⟩ := List.mem_flatMap.mp hfield
          obtain ⟨peer, hsay⟩ := exists_of_forall₂ hpeers hline
          exact peerLineSays_numbers hsay field hfield
        · obtain ⟨line, hline, hfield⟩ := List.mem_flatMap.mp hfield
          obtain ⟨o, hsay⟩ := exists_of_forall₂ hobs hline
          exact (observationLineSays_numbers hsay).1 field hfield
      · intro field hfield
        obtain ⟨line, hline, hfield⟩ := List.mem_flatMap.mp hfield
        obtain ⟨o, hsay⟩ := exists_of_forall₂ hobs hline
        exact (observationLineSays_numbers hsay).2 field hfield
    · exact absurd hload hnot
  · intro hcond store stats store' hrun
    rcases @loadSnapshot_spec net ord peerOrd text path store with
      ⟨hload, stats', store'', hok, hlookup, hstate⟩ | ⟨-, e, store'', herror⟩
    · cases hrun.symm.trans hok
      have hkept := hcond hload
      refine ⟨_, _, forall₂_filterMap fun line hline => ?_, forall₂_filterMap fun line hline => ?_,
        hlookup, hstate⟩
      · obtain ⟨peer, hpeer⟩ := Option.ne_none_iff_exists'.mp (hload.readable.peers line hline)
        exact ⟨peer, hpeer, peerLineSays_record hpeer fun field hfield => hkept.narrow field
          (List.mem_append_left _ (List.mem_flatMap.mpr ⟨line, hline, hfield⟩))⟩
      · obtain ⟨o, ho⟩ := Option.ne_none_iff_exists'.mp (hload.readable.observations line hline)
        exact ⟨o, ho, observationLineSays_record ho
          (fun field hfield => hkept.narrow field
            (List.mem_append_right _ (List.mem_flatMap.mpr ⟨line, hline, hfield⟩)))
          fun field hfield => hkept.timestamp field
            (List.mem_flatMap.mpr ⟨line, hline, hfield⟩)⟩
    · cases hrun.symm.trans herror

/-! ## An id beyond 32 bits -/

/-- A peer line with the id `2^32 + 1`, and an observation of peer 1. -/
def wideIdText : Bytes :=
  bytes "# ASNPrefixMap snapshot v1\n\n[peers]\n4294967297\trrc00\t192.0.2.1\t64500\n" ++
  bytes "\n[observations]\nv4\t8.8.8.0/24\t1\t15169\t1710000000\n"

theorem loadable_wideIdText : Loadable Inet.standard wideIdText := by decide +kernel

/-- The peer with the id `2^32 + 1` is registered under 1, and is taken for the
peer of the observation. `std::stoul` has 64 bits and `PeerId` has 32. -/
theorem wide_peer_id_is_read_as_another :
    ¬ MeansWhatItSays Inet.standard .ascending
      (.byKey UInt32.toNat fun _ _ => UInt32.toNat_inj.mp) (bytes "snapshot.txt") wideIdText := by
  intro h
  rcases @loadSnapshot_spec Inet.standard .ascending
    (.byKey UInt32.toNat fun _ _ => UInt32.toNat_inj.mp) wideIdText (bytes "snapshot.txt") {} with
    ⟨-, stats, store', hok, -⟩ | ⟨hnot, -⟩
  · obtain ⟨peers, observations, hpeers, -⟩ := h {} stats store' hok
    have hline : bytes "4294967297\trrc00\t192.0.2.1\t64500" ∈ peerLines wideIdText := by
      decide +kernel
    obtain ⟨peer, hsay⟩ := exists_of_forall₂ hpeers hline
    have hfit := (peerLineSays_numbers hsay (bytes "4294967297") (by decide +kernel)).2.2
    exact absurd hfit (by decide +kernel)
  · exact hnot loadable_wideIdText

end ASNPrefixMap.Snapshot
