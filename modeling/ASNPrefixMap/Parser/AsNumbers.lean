import ASNPrefixMap.Parser.Events

/-!
# AS numbers on their way from a document into events

`get<uint32_t>()` keeps the low 32 bits of a 64-bit number, behind a test of its
type and none of its range. So a number from `2^32` on becomes another one: the
events of a document have its AS numbers exactly when no number that reaches an
event is that large (`keepsAsNumbers_iff`).

The condition looks at the document only. A wide number does no harm where
nothing is announced or withdrawn, and a wide peer ASN with 32 zero bits at its
end is read as 0, which is what a missing one is read as.
-/

namespace ASNPrefixMap.Parser

open Lib Peer

/-- What `parse_ris_live_message` emits for a text. -/
def emittedEvents (jsonParse : JsonParse) (text : Bytes) : List BgpEvent :=
  match (parseRisLiveMessage jsonParse text collectEvent).run [] with
  | .ok _ events => events
  | .error _ events => events

/-- `data.path` is an array that ends in this number. -/
def PathEndsIn (data : Json) (last : UInt64) : Prop :=
  ∃ front, data.find (bytes "path") = some (.array (front ++ [.numberUnsigned last]))

/-- The AS numbers of an event are those of `data`: an announcement has the last
number of the path, and every event `data.peer_asn` if that is an unsigned
number of 32 bits, else 0. -/
structure SameAsNumbers (data : Json) (event : BgpEvent) : Prop where
  origin : event.type = .announce → ∃ last, PathEndsIn data last ∧ event.asn.toNat = last.toNat
  peer : ∀ n, data.find (bytes "peer_asn") = some (.numberUnsigned n) → n.toNat < 2 ^ 32 →
    event.peer.peerAsn.toNat = n.toNat
  noPeer : (∀ n, data.find (bytes "peer_asn") = some (.numberUnsigned n) → ¬ n.toNat < 2 ^ 32) →
    event.peer.peerAsn = 0

/-- Every event of the document has the document's AS numbers. -/
def KeepsAsNumbers (outer : Json) (events : List BgpEvent) : Prop :=
  ∀ event ∈ events, ∃ members, IsUpdate outer members ∧ SameAsNumbers (.object members) event

/-- Something is announced, under an origin that is a number. -/
def Announces (data : Json) : Prop :=
  announcedTexts data ≠ [] ∧ ∃ last, PathEndsIn data last

/-- Something is withdrawn. Withdrawals are emitted whatever the path says. -/
def Withdraws (data : Json) : Prop := stringsOf (arrayField data (bytes "withdrawals")) ≠ []

/-- No origin that is announced and no peer ASN of a message with events has
bits beyond the 32nd that get lost; a peer ASN whose low 32 bits are all zero is
read as none. -/
def AsNumbersFit (outer : Json) : Prop :=
  ∀ members, IsUpdate outer members →
    (∀ last, PathEndsIn (.object members) last → announcedTexts (.object members) ≠ [] →
      last.toNat < 2 ^ 32) ∧
    ∀ n, (Json.object members).find (bytes "peer_asn") = some (.numberUnsigned n) →
      Announces (.object members) ∨ Withdraws (.object members) →
      n.toNat < 2 ^ 32 ∨ n.toNat % 2 ^ 32 = 0

/-- Two announcements with the same origin come from paths that end in the same
number. -/
theorem SameAsNumbers.last_eq {data₁ data₂ : Json} {event₁ event₂ : BgpEvent}
    (h₁ : SameAsNumbers data₁ event₁) (h₂ : SameAsNumbers data₂ event₂)
    (ha₁ : event₁.type = .announce) (ha₂ : event₂.type = .announce) (h : event₁.asn = event₂.asn) :
    ∃ last, PathEndsIn data₁ last ∧ PathEndsIn data₂ last := by
  obtain ⟨last₁, hpath₁, hasn₁⟩ := h₁.origin ha₁
  obtain ⟨last₂, hpath₂, hasn₂⟩ := h₂.origin ha₂
  have hsame : last₁ = last₂ := by
    apply UInt64.toNat_inj.mp
    rw [← hasn₁, ← hasn₂, h]
  exact ⟨last₁, hpath₁, hsame ▸ hpath₂⟩

/-! ## What is emitted -/

/-- A text with a document emits the events of the document. -/
theorem emittedEvents_eq {jsonParse : JsonParse} {text : Bytes} {outer : Json}
    (h : jsonParse text = .ok outer) : emittedEvents jsonParse text = documentEvents outer := by
  unfold emittedEvents
  rw [collect_eq, messageEvents, h]

theorem pathEndsIn_unique {data : Json} {last₁ last₂ : UInt64} (h₁ : PathEndsIn data last₁)
    (h₂ : PathEndsIn data last₂) : last₁ = last₂ := by
  obtain ⟨front₁, h₁⟩ := h₁
  obtain ⟨front₂, h₂⟩ := h₂
  rw [h₁, Option.some.injEq, Json.array.injEq] at h₂
  exact Json.numberUnsigned.inj (List.cons.inj (List.append_inj' h₂ rfl).2).1

/-- The code takes the low 32 bits of the path's last number. -/
theorem tryGetOriginAsn_of_pathEndsIn {data : Json} {last : UInt64} (h : PathEndsIn data last) :
    tryGetOriginAsn data = some last.toUInt32 := by
  obtain ⟨front, hpath⟩ := h
  exact tryGetOriginAsn_eq_some.mpr ⟨front, last, hpath, UInt64.toNat_toUInt32 last⟩

/-- The announcements of a document: there are some exactly when it announces a
text under an origin, and each of them has the low 32 bits of the path's last
number. -/
theorem mem_announceEvents {data : Json} {event : BgpEvent} :
    event ∈ announceEvents data ↔
      ∃ last text, PathEndsIn data last ∧ text ∈ announcedTexts data ∧
        event = ⟨.announce, buildPeerInfo data, text, last.toUInt32, getTimestampOrZero data⟩ := by
  unfold announceEvents
  constructor
  · intro h
    cases horigin : tryGetOriginAsn data with
    | none =>
      rw [horigin] at h
      cases h
    | some originAsn =>
      obtain ⟨front, last, hpath, hlow⟩ := tryGetOriginAsn_eq_some.mp horigin
      rw [horigin] at h
      obtain ⟨text, htext, rfl⟩ := List.mem_map.mp h
      have hasn : originAsn = last.toUInt32 := by
        apply UInt32.toNat_inj.mp
        rw [hlow, UInt64.toNat_toUInt32]
      exact ⟨last, text, ⟨front, hpath⟩, htext, by rw [hasn]⟩
  · rintro ⟨last, text, hpath, htext, rfl⟩
    rw [tryGetOriginAsn_of_pathEndsIn hpath]
    exact List.mem_map.mpr ⟨text, htext, rfl⟩

/-- The withdrawals of a document, each with ASN 0. -/
theorem mem_withdrawEvents {data : Json} {event : BgpEvent} :
    event ∈ withdrawEvents data ↔
      ∃ text ∈ stringsOf (arrayField data (bytes "withdrawals")),
        event = ⟨.withdraw, buildPeerInfo data, text, 0, getTimestampOrZero data⟩ := by
  unfold withdrawEvents
  rw [List.mem_map]
  exact ⟨fun ⟨text, htext, h⟩ => ⟨text, htext, h.symm⟩, fun ⟨text, htext, h⟩ => ⟨text, htext, h.symm⟩⟩

/-- A document has events exactly when it announces or withdraws something. -/
theorem exists_event_iff {data : Json} :
    (∃ event, event ∈ announceEvents data ++ withdrawEvents data) ↔
      Announces data ∨ Withdraws data := by
  constructor
  · rintro ⟨event, h⟩
    rcases List.mem_append.mp h with h | h
    · obtain ⟨last, text, hpath, htext, -⟩ := mem_announceEvents.mp h
      exact Or.inl ⟨List.ne_nil_of_mem htext, last, hpath⟩
    · obtain ⟨text, htext, -⟩ := mem_withdrawEvents.mp h
      exact Or.inr (List.ne_nil_of_mem htext)
  · rintro (⟨hne, last, hpath⟩ | hne)
    · obtain ⟨text, htext⟩ := List.exists_mem_of_ne_nil _ hne
      exact ⟨_, List.mem_append_left _ (mem_announceEvents.mpr ⟨last, text, hpath, htext, rfl⟩)⟩
    · obtain ⟨text, htext⟩ := List.exists_mem_of_ne_nil _ hne
      exact ⟨_, List.mem_append_right _ (mem_withdrawEvents.mpr ⟨text, htext, rfl⟩)⟩

/-! ## Narrowing -/

theorem toNat_toUInt32_eq_iff {n : UInt64} : n.toUInt32.toNat = n.toNat ↔ n.toNat < 2 ^ 32 := by
  rw [UInt64.toNat_toUInt32]
  omega

theorem getUint32OrZero_of_unsigned {object : Json} {key : Bytes} {n : UInt64}
    (h : object.find key = some (.numberUnsigned n)) :
    getUint32OrZero object key = n.toUInt32 := by
  unfold getUint32OrZero
  rw [h]

/-- What is read for a field is its number if that has 32 bits and 0 if not,
except for numbers whose low 32 bits are not all zero. -/
theorem getUint32OrZero_kept_iff {object : Json} {key : Bytes} :
    ((∀ n, object.find key = some (.numberUnsigned n) → n.toNat < 2 ^ 32 →
        (getUint32OrZero object key).toNat = n.toNat) ∧
      ((∀ n, object.find key = some (.numberUnsigned n) → ¬ n.toNat < 2 ^ 32) →
        getUint32OrZero object key = 0)) ↔
      ∀ n, object.find key = some (.numberUnsigned n) → n.toNat < 2 ^ 32 ∨ n.toNat % 2 ^ 32 = 0 := by
  constructor
  · rintro ⟨-, hzero⟩ n hn
    by_cases hlt : n.toNat < 2 ^ 32
    · exact Or.inl hlt
    · refine Or.inr ?_
      have hall : ∀ m, object.find key = some (.numberUnsigned m) → ¬ m.toNat < 2 ^ 32 := by
        intro m hm
        rw [hn] at hm
        cases hm
        exact hlt
      have h0 := hzero hall
      rw [getUint32OrZero_of_unsigned hn] at h0
      rw [← UInt64.toNat_toUInt32, h0]
      rfl
  · intro hfits
    refine ⟨fun n hn hlt => ?_, fun hlarge => ?_⟩
    · rw [getUint32OrZero_of_unsigned hn]
      exact toNat_toUInt32_eq_iff.mpr hlt
    · rcases numberField_getUint32OrZero object key with ⟨n, hn, hvalue⟩ | ⟨-, hvalue⟩
      · have hlow := (hfits n hn).resolve_left (hlarge n hn)
        apply UInt32.toNat_inj.mp
        rw [hvalue, UInt64.toNat_toUInt32, hlow]
        rfl
      · exact hvalue

theorem IsUpdate.members_eq {outer : Json} {members₁ members₂ : List (Bytes × Json)}
    (h₁ : IsUpdate outer members₁) (h₂ : IsUpdate outer members₂) : members₁ = members₂ := by
  have hdata := h₁.data
  rw [h₂.data] at hdata
  cases hdata
  rfl

/-- The sample document is an UPDATE with the path and peer ASN it was built
from. -/
theorem exists_members_updateDocument (host peer : String) (peerAsn timestamp origin : UInt64)
    (announced withdrawn : List String) :
    ∃ members, IsUpdate (updateDocument host peer peerAsn timestamp origin announced withdrawn)
        members ∧ PathEndsIn (.object members) origin ∧
      (Json.object members).find (bytes "peer_asn") = some (.numberUnsigned peerAsn) :=
  ⟨_, ⟨rfl, rfl, rfl⟩, ⟨[.numberUnsigned peerAsn], rfl⟩, rfl⟩

/-- **AS numbers are kept exactly when they fit.** On a text that `json::parse`
reads as a document, every event emitted has the AS numbers of that document if
and only if none of those that reach an event has more than 32 bits. -/
theorem keepsAsNumbers_iff {jsonParse : JsonParse} {text : Bytes} {outer : Json}
    (h : jsonParse text = .ok outer) :
    KeepsAsNumbers outer (emittedEvents jsonParse text) ↔ AsNumbersFit outer := by
  rw [emittedEvents_eq h]
  constructor
  · intro hkeeps members hupdate
    rw [documentEvents_of_update hupdate] at hkeeps
    have hsame : ∀ event ∈ announceEvents (.object members) ++ withdrawEvents (.object members),
        SameAsNumbers (.object members) event := by
      intro event hevent
      obtain ⟨members', hupdate', hsame⟩ := hkeeps event hevent
      rw [hupdate.members_eq hupdate']
      exact hsame
    constructor
    · intro last hpath hne
      obtain ⟨t, ht⟩ := List.exists_mem_of_ne_nil _ hne
      obtain ⟨last', hpath', hasn⟩ := (hsame _ (List.mem_append_left _
        (mem_announceEvents.mpr ⟨last, t, hpath, ht, rfl⟩))).origin rfl
      rw [pathEndsIn_unique hpath' hpath] at hasn
      exact toNat_toUInt32_eq_iff.mp hasn
    · intro n hn hevents
      obtain ⟨event, hevent⟩ := exists_event_iff.mpr hevents
      have hpeer : event.peer = buildPeerInfo (.object members) := by
        rcases List.mem_append.mp hevent with hevent | hevent
        · obtain ⟨last, t, -, -, rfl⟩ := mem_announceEvents.mp hevent
          rfl
        · obtain ⟨t, -, rfl⟩ := mem_withdrawEvents.mp hevent
          rfl
      have hkept := (hsame event hevent).peer
      have hzero := (hsame event hevent).noPeer
      rw [hpeer] at hkept hzero
      exact getUint32OrZero_kept_iff.mp ⟨hkept, hzero⟩ n hn
  · intro hfits event hevent
    obtain ⟨data, hdata, hpeer⟩ := peer_of_mem_documentEvents hevent
    obtain ⟨members, rfl, hupdate⟩ := updateData_eq_some.mp hdata
    rw [documentEvents_of_update hupdate] at hevent
    obtain ⟨horigin, hpeerAsn⟩ := hfits members hupdate
    obtain ⟨hkept, hzero⟩ := getUint32OrZero_kept_iff.mpr fun n hn =>
      hpeerAsn n hn (exists_event_iff.mp ⟨event, hevent⟩)
    refine ⟨members, hupdate, fun hannounce => ?_, by rw [hpeer]; exact hkept,
      by rw [hpeer]; exact hzero⟩
    rcases List.mem_append.mp hevent with hevent | hevent
    · obtain ⟨last, t, hpath, ht, rfl⟩ := mem_announceEvents.mp hevent
      exact ⟨last, hpath, toNat_toUInt32_eq_iff.mpr (horigin last hpath (List.ne_nil_of_mem ht))⟩
    · obtain ⟨t, -, rfl⟩ := mem_withdrawEvents.mp hevent
      cases hannounce

/-- A path that ends in an AS number of 33 bits. -/
def wideOriginText : Bytes :=
  bytes "\x7b\"type\":\"ris_message\",\"data\":\x7b\"type\":\"UPDATE\",\"host\":\"rrc00\"" ++
  bytes ",\"peer\":\"192.0.2.1\",\"peer_asn\":64500,\"timestamp\":1710000000" ++
  bytes ",\"path\":[64500,4294982465]" ++
  bytes ",\"announcements\":[\x7b\"prefixes\":[\"8.8.8.0/24\"]\x7d]" ++
  bytes ",\"withdrawals\":[]\x7d\x7d"

/-- The document of that text. -/
def wideOriginDocument : Json :=
  updateDocument "rrc00" "192.0.2.1" 64500 1710000000 4294982465 ["8.8.8.0/24"] []

/-- An origin of 33 bits becomes another AS: 4294982465 is announced as 15169.
`is_number_unsigned` lets any unsigned number pass, and `get<std::uint32_t>`
keeps its low 32 bits. -/
theorem not_keepsAsNumbers_wide :
    ¬ KeepsAsNumbers wideOriginDocument
      (emittedEvents (parseListed [(wideOriginText, wideOriginDocument)]) wideOriginText) := by
  intro hkeeps
  rw [emittedEvents_eq (parseListed_cons_self _ _ _)] at hkeeps
  obtain ⟨members, hupdate, hsame⟩ := hkeeps ⟨.announce, ⟨bytes "rrc00", bytes "192.0.2.1", 64500⟩,
    bytes "8.8.8.0/24", 15169, 1710000000⟩ (by decide)
  obtain ⟨members', hupdate', hpath, -⟩ := exists_members_updateDocument "rrc00" "192.0.2.1" 64500
    1710000000 4294982465 ["8.8.8.0/24"] []
  obtain rfl := hupdate.members_eq hupdate'
  obtain ⟨last, hlast, hasn⟩ := hsame.origin rfl
  rw [pathEndsIn_unique hlast hpath] at hasn
  exact absurd hasn (by decide)

theorem keepsAsNumbers_iff_listed :
    KeepsAsNumbers rrc00Document
      (emittedEvents (parseListed [(rrc00Text, rrc00Document)]) rrc00Text) := by
  refine (keepsAsNumbers_iff (parseListed_cons_self _ _ _)).mpr fun members hupdate => ?_
  obtain ⟨members', hupdate', hpath, hpeer⟩ := exists_members_updateDocument "rrc00" "192.0.2.1"
    64500 1710000000 15169 ["8.8.8.0/24"] []
  obtain rfl := hupdate.members_eq hupdate'
  refine ⟨fun last hlast _ => ?_, fun n hn _ => Or.inl ?_⟩
  · rw [pathEndsIn_unique hlast hpath]
    decide
  · rw [hpeer] at hn
    cases hn
    decide

end ASNPrefixMap.Parser
