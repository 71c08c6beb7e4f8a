import ASNPrefixMap.Parser.RisLive

/-!
# What the parser emits, field by field

`parseRisLiveMessage_eq` runs the callback over `documentEvents`. Here that list
is put in terms of the document alone. A document is an UPDATE (`IsUpdate`) or
it has no events; of an UPDATE every event carries the same peer and timestamp
(`SenderFields`); the announcements need a usable path (`HasOrigin`), the
withdrawals do not. Every element of an array is judged by itself
(`mem_stringsOf`, `mem_announcedTexts`), so a malformed one keeps no other from
being emitted.

This is the specification of the parser: `Specified` reads like the format,
names neither a loop nor a helper of the code, and has one solution for each
document (`Specified.unique`). The code is connected to it by
`parseRisLiveMessage_specified`.
-/

namespace ASNPrefixMap.Parser

open Lib Peer

/-! ## Fields and their defaults -/

/-- A text field: its string, or the empty string when it is missing or no
string. -/
def TextField (object : Json) (key value : Bytes) : Prop :=
  object.find key = some (.string value) ∨
    (∀ s, object.find key ≠ some (.string s)) ∧ value = []

/-- A number field under a conversion: zero when it is missing or no unsigned
number. -/
def NumberField {A : Type} (convert : UInt64 → A) (object : Json) (key : Bytes) (value : A) : Prop :=
  (∃ n, object.find key = some (.numberUnsigned n) ∧ value = convert n) ∨
    (∀ n, object.find key ≠ some (.numberUnsigned n)) ∧ value = convert 0

/-- What the code reads for a text field is what the field says. -/
theorem textField_getStringRefOrEmpty (object : Json) (key : Bytes) :
    TextField object key (getStringRefOrEmpty object key) := by
  unfold getStringRefOrEmpty
  split
  next value h => exact Or.inl h
  next h => exact Or.inr ⟨h, rfl⟩

theorem numberField_getUint32OrZero (object : Json) (key : Bytes) :
    NumberField UInt64.toUInt32 object key (getUint32OrZero object key) := by
  unfold getUint32OrZero
  split
  next value h => exact Or.inl ⟨value, h, rfl⟩
  next h => exact Or.inr ⟨h, rfl⟩

theorem numberField_getTimestampOrZero (object : Json) :
    NumberField id object (bytes "timestamp") (getTimestampOrZero object) := by
  unfold getTimestampOrZero
  split
  next value h => exact Or.inl ⟨value, h, rfl⟩
  next h => exact Or.inr ⟨h, rfl⟩

theorem TextField.unique {object : Json} {key v w : Bytes} (hv : TextField object key v)
    (hw : TextField object key w) : v = w := by
  rcases hv with hv | ⟨hv, rfl⟩
  · rcases hw with hw | ⟨hw, rfl⟩
    · rw [hv] at hw
      cases hw
      rfl
    · exact absurd hv (hw v)
  · rcases hw with hw | ⟨-, rfl⟩
    · exact absurd hw (hv w)
    · rfl

theorem NumberField.unique {A : Type} {convert : UInt64 → A} {object : Json} {key : Bytes} {v w : A}
    (hv : NumberField convert object key v) (hw : NumberField convert object key w) : v = w := by
  rcases hv with ⟨n, hn, rfl⟩ | ⟨hv, rfl⟩
  · rcases hw with ⟨m, hm, rfl⟩ | ⟨hw, rfl⟩
    · rw [hn] at hm
      cases hm
      rfl
    · exact absurd hn (hw n)
  · rcases hw with ⟨m, hm, rfl⟩ | ⟨-, rfl⟩
    · exact absurd hm (hv m)
    · rfl

/-- The test of a type field is an equation about the document. -/
theorem hasStringValue_iff {object : Json} {key expected : Bytes} :
    hasStringValue object key expected = true ↔ object.find key = some (.string expected) := by
  unfold hasStringValue
  split
  next value h => rw [h, beq_iff_eq, Option.some.injEq, Json.string.injEq]
  next h => exact ⟨fun hf => absurd hf Bool.false_ne_true, fun hs => absurd hs (h expected)⟩

/-- The peer and the timestamp that `data` gives every event. -/
structure SenderFields (data : Json) (peer : PeerInfo) (timestamp : UInt64) : Prop where
  host : TextField data (bytes "host") peer.host
  peerIp : TextField data (bytes "peer") peer.peerIp
  peerAsn : NumberField UInt64.toUInt32 data (bytes "peer_asn") peer.peerAsn
  timestamp : NumberField id data (bytes "timestamp") timestamp

/-- The peer and timestamp the code builds are those of the document. -/
theorem senderFields (data : Json) :
    SenderFields data (buildPeerInfo data) (getTimestampOrZero data) where
  host := textField_getStringRefOrEmpty data _
  peerIp := textField_getStringRefOrEmpty data _
  peerAsn := numberField_getUint32OrZero data _
  timestamp := numberField_getTimestampOrZero data

theorem SenderFields.unique {data : Json} {peer₁ peer₂ : PeerInfo} {timestamp₁ timestamp₂ : UInt64}
    (h₁ : SenderFields data peer₁ timestamp₁) (h₂ : SenderFields data peer₂ timestamp₂) :
    peer₁ = peer₂ ∧ timestamp₁ = timestamp₂ := by
  obtain ⟨host₁, peerIp₁, peerAsn₁⟩ := peer₁
  obtain ⟨host₂, peerIp₂, peerAsn₂⟩ := peer₂
  have hhost : host₁ = host₂ := h₁.host.unique h₂.host
  have hip : peerIp₁ = peerIp₂ := h₁.peerIp.unique h₂.peerIp
  have hasn : peerAsn₁ = peerAsn₂ := h₁.peerAsn.unique h₂.peerAsn
  exact ⟨by rw [hhost, hip, hasn], h₁.timestamp.unique h₂.timestamp⟩

/-! ## Which documents, which path -/

/-- The document is an object of type `ris_message` around an object of type
`UPDATE`. -/
structure IsUpdate (outer : Json) (members : List (Bytes × Json)) : Prop where
  message : outer.find (bytes "type") = some (.string (bytes "ris_message"))
  data : outer.find (bytes "data") = some (.object members)
  update : (Json.object members).find (bytes "type") = some (.string (bytes "UPDATE"))

/-- The tests of the parser, put together, say that the document is an
UPDATE. -/
theorem updateData_eq_some {outer data : Json} :
    updateData outer = some data ↔ ∃ members, data = .object members ∧ IsUpdate outer members := by
  unfold updateData
  constructor
  · intro h
    split at h
    next htype =>
      split at h
      next members hdata =>
        split at h
        next hupdate =>
          exact ⟨members, (Option.some.inj h).symm, hasStringValue_iff.mp htype, hdata,
            hasStringValue_iff.mp hupdate⟩
        next => cases h
      next => cases h
    next => cases h
  · rintro ⟨members, rfl, hmessage, hdata, hupdate⟩
    rw [if_pos (hasStringValue_iff.mpr hmessage), hdata]
    dsimp only
    rw [if_pos (hasStringValue_iff.mpr hupdate)]

/-- The path is a non-empty array whose last element is an unsigned number; the
origin is its value modulo `2^32`. -/
def HasOrigin (data : Json) (originAsn : UInt32) : Prop :=
  ∃ front last, data.find (bytes "path") = some (.array (front ++ [.numberUnsigned last])) ∧
    originAsn.toNat = last.toNat % 2 ^ 32

/-- The code finds an origin exactly when the path has a usable one. -/
theorem tryGetOriginAsn_eq_some {data : Json} {originAsn : UInt32} :
    tryGetOriginAsn data = some originAsn ↔ HasOrigin data originAsn := by
  unfold tryGetOriginAsn HasOrigin
  constructor
  · intro h
    split at h
    next path hpath =>
      split at h
      next last hlast =>
        obtain ⟨front, rfl⟩ := List.getLast?_eq_some_iff.mp hlast
        refine ⟨front, last, hpath, ?_⟩
        rw [← Option.some.inj h, UInt64.toNat_toUInt32]
      next => cases h
    next => cases h
  · rintro ⟨front, last, hpath, horigin⟩
    rw [hpath]
    dsimp only
    rw [List.getLast?_concat]
    dsimp only
    congr 1
    apply UInt32.toNat_inj.mp
    rw [UInt64.toNat_toUInt32, horigin]

/-! ## The elements of the arrays -/

theorem mem_stringsOf {values : List Json} {text : Bytes} :
    text ∈ stringsOf values ↔ Json.string text ∈ values := by
  unfold stringsOf
  rw [List.mem_filterMap]
  constructor
  · rintro ⟨value, hvalue, h⟩
    split at h
    next s => rwa [← Option.some.inj h]
    next => cases h
  · intro h
    exact ⟨.string text, h, rfl⟩

/-- The elements of an array field. A field that is no array has none. -/
theorem mem_arrayField {object value : Json} {key : Bytes} :
    value ∈ arrayField object key ↔
      ∃ elements, object.find key = some (.array elements) ∧ value ∈ elements := by
  unfold arrayField
  constructor
  · intro h
    split at h
    next elements hf => exact ⟨elements, hf, h⟩
    next => cases h
  · rintro ⟨elements, hf, h⟩
    rw [hf]
    exact h

/-- An element of an array field that is a string, whatever the other elements
are. -/
theorem mem_stringsOf_arrayField {object : Json} {key text : Bytes} :
    text ∈ stringsOf (arrayField object key) ↔
      ∃ elements, object.find key = some (.array elements) ∧ Json.string text ∈ elements := by
  rw [mem_stringsOf, mem_arrayField]

/-- The announced texts: strings in the `prefixes` array of any element of the
announcements. -/
theorem mem_announcedTexts {data : Json} {text : Bytes} :
    text ∈ announcedTexts data ↔
      ∃ announcements announcement prefixes,
        data.find (bytes "announcements") = some (.array announcements) ∧
        announcement ∈ announcements ∧
        announcement.find (bytes "prefixes") = some (.array prefixes) ∧
        Json.string text ∈ prefixes := by
  unfold announcedTexts
  rw [List.mem_flatMap]
  constructor
  · rintro ⟨announcement, ha, ht⟩
    obtain ⟨announcements, hfield, ha⟩ := mem_arrayField.mp ha
    obtain ⟨prefixes, hprefixes, ht⟩ := mem_stringsOf_arrayField.mp ht
    exact ⟨announcements, announcement, prefixes, hfield, ha, hprefixes, ht⟩
  · rintro ⟨announcements, announcement, prefixes, hfield, ha, hprefixes, ht⟩
    exact ⟨announcement, mem_arrayField.mpr ⟨announcements, hfield, ha⟩,
      mem_stringsOf_arrayField.mpr ⟨prefixes, hprefixes, ht⟩⟩

/-! ## The list -/

section List

variable {outer : Json} {members : List (Bytes × Json)} {originAsn : UInt32}

/-- A document that is no UPDATE has no events. -/
theorem documentEvents_of_not_update (h : ∀ members, ¬ IsUpdate outer members) :
    documentEvents outer = [] := by
  unfold documentEvents
  cases hd : updateData outer with
  | none => rfl
  | some data =>
    obtain ⟨members, -, hupdate⟩ := updateData_eq_some.mp hd
    exact absurd hupdate (h members)

/-- An UPDATE has its announcements and then its withdrawals. -/
theorem documentEvents_of_update (h : IsUpdate outer members) :
    documentEvents outer = announceEvents (.object members) ++ withdrawEvents (.object members) := by
  unfold documentEvents
  rw [updateData_eq_some.mpr ⟨members, rfl, h⟩]

/-- Under a usable path each announced text becomes an event. -/
theorem announceEvents_of_origin {data : Json} (h : HasOrigin data originAsn) :
    announceEvents data = (announcedTexts data).map fun text =>
      ⟨.announce, buildPeerInfo data, text, originAsn, getTimestampOrZero data⟩ := by
  unfold announceEvents
  rw [tryGetOriginAsn_eq_some.mpr h]

theorem announceEvents_of_no_origin {data : Json} (h : ∀ originAsn, ¬ HasOrigin data originAsn) :
    announceEvents data = [] := by
  unfold announceEvents
  cases ho : tryGetOriginAsn data with
  | none => rfl
  | some originAsn => exact absurd (tryGetOriginAsn_eq_some.mp ho) (h originAsn)

/-- The specified events of a document: none unless it is an UPDATE; else the
announcements, under the origin of a usable path, and after them the
withdrawals, all from one sender. -/
structure Specified (outer : Json) (events : List BgpEvent) : Prop where
  none : (∀ members, ¬ IsUpdate outer members) → events = []
  update : ∀ members, IsUpdate outer members → ∃ peer timestamp announced,
    SenderFields (.object members) peer timestamp ∧
    events = announced ++ (stringsOf (arrayField (.object members) (bytes "withdrawals"))).map
      (fun text => ⟨.withdraw, peer, text, 0, timestamp⟩) ∧
    (∀ originAsn, HasOrigin (.object members) originAsn →
      announced = (arrayField (.object members) (bytes "announcements")).flatMap fun announcement =>
        (stringsOf (arrayField announcement (bytes "prefixes"))).map fun text =>
          ⟨.announce, peer, text, originAsn, timestamp⟩) ∧
    ((∀ originAsn, ¬ HasOrigin (.object members) originAsn) → announced = [])

/-- The list the code goes through satisfies the specification. -/
theorem specified_documentEvents (outer : Json) : Specified outer (documentEvents outer) where
  none := documentEvents_of_not_update
  update := by
    intro members hupdate
    refine ⟨buildPeerInfo (.object members), getTimestampOrZero (.object members),
      announceEvents (.object members), senderFields _, documentEvents_of_update hupdate, ?_,
      announceEvents_of_no_origin⟩
    intro originAsn horigin
    rw [announceEvents_of_origin horigin, announcedTexts, List.map_flatMap]

/-- A document has one list of specified events. -/
theorem Specified.unique {events₁ events₂ : List BgpEvent} (h₁ : Specified outer events₁)
    (h₂ : Specified outer events₂) : events₁ = events₂ := by
  by_cases hu : ∃ members, IsUpdate outer members
  · obtain ⟨members, hu⟩ := hu
    obtain ⟨peer, timestamp, announced₁, hsender₁, rfl, hsome₁, hnone₁⟩ := h₁.update members hu
    obtain ⟨peer₂, timestamp₂, announced₂, hsender₂, rfl, hsome₂, hnone₂⟩ := h₂.update members hu
    obtain ⟨rfl, rfl⟩ := hsender₁.unique hsender₂
    by_cases horigin : ∃ originAsn, HasOrigin (.object members) originAsn
    · obtain ⟨originAsn, horigin⟩ := horigin
      rw [hsome₁ originAsn horigin, hsome₂ originAsn horigin]
    · rw [hnone₁ (not_exists.mp horigin), hnone₂ (not_exists.mp horigin)]
  · rw [h₁.none (not_exists.mp hu), h₂.none (not_exists.mp hu)]

/-- A withdrawal is emitted for every string of the withdrawals array, whatever
else the document holds. -/
theorem withdraw_mem_documentEvents (h : IsUpdate outer members) {withdrawals : List Json}
    {text : Bytes}
    (hfield : (Json.object members).find (bytes "withdrawals") = some (.array withdrawals))
    (htext : Json.string text ∈ withdrawals) :
    ∃ event ∈ documentEvents outer, event.type = .withdraw ∧ event.prefixText = text := by
  rw [documentEvents_of_update h]
  refine ⟨⟨.withdraw, _, text, 0, _⟩, List.mem_append_right _ (List.mem_map.mpr ⟨text, ?_, rfl⟩),
    rfl, rfl⟩
  exact mem_stringsOf_arrayField.mpr ⟨withdrawals, hfield, htext⟩

/-- An announcement is emitted for every string of a `prefixes` array of an
element of the announcements, whatever the elements next to it are. -/
theorem announce_mem_documentEvents (h : IsUpdate outer members)
    (horigin : HasOrigin (.object members) originAsn) {announcements prefixes : List Json}
    {announcement : Json} {text : Bytes}
    (hfield : (Json.object members).find (bytes "announcements") = some (.array announcements))
    (hmem : announcement ∈ announcements)
    (hprefixes : announcement.find (bytes "prefixes") = some (.array prefixes))
    (htext : Json.string text ∈ prefixes) :
    ∃ event ∈ documentEvents outer, event.type = .announce ∧ event.prefixText = text ∧
      event.asn = originAsn := by
  rw [documentEvents_of_update h, announceEvents_of_origin horigin]
  refine ⟨⟨.announce, _, text, originAsn, _⟩,
    List.mem_append_left _ (List.mem_map.mpr ⟨text, ?_, rfl⟩), rfl, rfl, rfl⟩
  exact mem_announcedTexts.mpr
    ⟨announcements, announcement, prefixes, hfield, hmem, hprefixes, htext⟩

end List

/-! ## The parser -/

/-- **The parser emits exactly the specified events.** On a text that
`json::parse` reads as some document, it runs the callback over the specified
list in order and returns its length; and a string in its place in the arrays of
an UPDATE is always among the events. The specification is a relation on the
document, with no mention of how it is walked; that it has one solution is part
of it. -/
theorem parseRisLiveMessage_specified {σ : Type} (jsonParse : JsonParse) {text : Bytes}
    {outer : Json} (h : jsonParse text = .ok outer) (onEvent : EventSink σ) :
    ∃ events, Specified outer events ∧ (∀ events', Specified outer events' → events' = events) ∧
      parseRisLiveMessage jsonParse text onEvent =
        (do forM events onEvent
            return events.length) ∧
      ∀ members, IsUpdate outer members →
        (∀ withdrawals t,
          (Json.object members).find (bytes "withdrawals") = some (.array withdrawals) →
          Json.string t ∈ withdrawals →
          ∃ event ∈ events, event.type = .withdraw ∧ event.prefixText = t) ∧
        ∀ originAsn announcements announcement prefixes t,
          HasOrigin (.object members) originAsn →
          (Json.object members).find (bytes "announcements") = some (.array announcements) →
          announcement ∈ announcements →
          announcement.find (bytes "prefixes") = some (.array prefixes) →
          Json.string t ∈ prefixes →
          ∃ event ∈ events, event.type = .announce ∧ event.prefixText = t ∧
            event.asn = originAsn := by
  refine ⟨documentEvents outer, specified_documentEvents outer,
    fun _ hevents => hevents.unique (specified_documentEvents outer), ?_, fun members hupdate =>
    ⟨fun _ _ hfield ht => withdraw_mem_documentEvents hupdate hfield ht,
      fun _ _ _ _ _ horigin hfield hmem hprefixes ht =>
        announce_mem_documentEvents hupdate horigin hfield hmem hprefixes ht⟩⟩
  have hevents : messageEvents jsonParse text = .ok (documentEvents outer) := by
    unfold messageEvents
    rw [h]
  rw [parseRisLiveMessage_eq, hevents]
  dsimp only
  unfold emitAll
  simp only [Nat.zero_add]

/-- A message of RIS Live with its document, for which `json::parse` is given as
a table of one entry. -/
theorem parseRisLiveMessage_specified_listed :
    parseListed [(rrc00Text, rrc00Document)] rrc00Text = .ok rrc00Document ∧
      ∃ events, Specified rrc00Document events ∧
        parseRisLiveMessage (parseListed [(rrc00Text, rrc00Document)]) rrc00Text
            (fun event => modify (σ := List BgpEvent) (· ++ [event])) =
          (do forM events fun event => modify (σ := List BgpEvent) (· ++ [event])
              return events.length) := by
  have h := parseListed_cons_self rrc00Text rrc00Document []
  obtain ⟨events, hspec, -, hrun, -⟩ := parseRisLiveMessage_specified _ h
    (fun event => (modify (· ++ [event]) : EStateM Exception (List BgpEvent) Unit))
  exact ⟨h, events, hspec, hrun⟩

end ASNPrefixMap.Parser
