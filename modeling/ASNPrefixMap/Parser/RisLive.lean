import ASNPrefixMap.Lib.Exception
import ASNPrefixMap.Peer.Registry

/-!
# The RIS Live parser

`src/parser/ris_live_parser.cpp`. `json::parse` is third-party code: a parameter
that turns a text into a document or throws one of two exceptions. The typed
accesses the parser makes on a document never throw, since each is behind its
own type test, so the only exception of the parser's own is the one of
`json::parse` that it does not catch.

Events go straight from the document into a callback, which may change objects
and may throw; `parseRisLiveMessage_eq` says that this is the callback run over
the list of events the document stands for (`documentEvents`), and that the
number returned is the length of that list.

Mirroring notes:

- `find` finds nothing in a value that is no object, as `nlohmann::json::find`
  does; the members of an object come with their first value under a key looked
  up.

- The type tests before each access (`is_string`, `is_array`,
  `is_number_unsigned`, `is_object`) are the patterns of a `match`.
  `get<uint32_t>()` on an unsigned number is the conversion `UInt64.toUInt32`,
  without a range check.

- `emitted_events`, a reference the two loops count in, is passed along and
  returned. If the callback throws, the count is lost with the stack, as it is
  in the source.

- `std::string_view` comparisons and the null-terminated keys are equality of
  byte strings.
-/

namespace ASNPrefixMap.Parser

open Lib Peer

/-- A `json` value as `json::parse` returns it. The value of a floating-point
number is never read, so it has none here. A member is found by its name, the
first one of it; the objects `json::parse` makes have each name once. -/
inductive Json
  | null
  | boolean (value : Bool)
  | string (value : Bytes)
  | numberInteger (value : Int64)
  | numberUnsigned (value : UInt64)
  | numberFloat
  | array (elements : List Json)
  | object (members : List (Bytes × Json))

/-- `json.find(key)`, which finds nothing in a value that is no object. -/
def Json.find (key : Bytes) : Json → Option Json
  | .object members => members.lookup key
  | _ => none

/-- What `json::parse` throws: a text that is no JSON, or a number too large for
a `double`. Both carry a message, and only the first is caught. -/
inductive JsonException
  | parseError (what : Bytes)
  | outOfRange (what : Bytes)
  deriving DecidableEq

/-- `json::parse`. Nothing is assumed about which texts have which documents; a
theorem that starts from a text takes the parse of that text as a hypothesis. -/
abbrev JsonParse := Bytes → Except JsonException Json

/-- `EventType` of `src/bgp_event.h`. -/
inductive EventType
  | announce
  | withdraw
  deriving DecidableEq

/-- The arguments of the callback, under the names that `BgpEvent` of
`src/bgp_event.h` gives them. A withdrawal has ASN 0. -/
structure BgpEvent where
  type : EventType
  peer : PeerInfo
  prefixText : Bytes
  asn : UInt32
  timestamp : UInt64
  deriving DecidableEq

/-- The callback of the parser, its five arguments as one record, over the
objects it captures. -/
abbrev EventSink (σ : Type) := BgpEvent → EStateM Exception σ Unit

/-! ## Reading fields -/

/-- `get_string_ref_or_empty`: the string under the key, and the empty one for a
missing or ill-typed field. -/
def getStringRefOrEmpty (object : Json) (key : Bytes) : Bytes :=
  match object.find key with
  | some (.string value) => value
  | _ => []

/-- `has_string_value`. A field of another type differs from any expected
string. -/
def hasStringValue (object : Json) (key expected : Bytes) : Bool :=
  match object.find key with
  | some (.string value) => value == expected
  | _ => false

/-- `get_uint32_or_zero`. Only an unsigned JSON number is read; a negative or
fractional one gives zero. -/
def getUint32OrZero (object : Json) (key : Bytes) : UInt32 :=
  match object.find key with
  -- `get<uint32_t>()` keeps the low 32 bits
  | some (.numberUnsigned value) => value.toUInt32
  | _ => 0

/-- `get_timestamp_or_zero`, which keeps all 64 bits. -/
def getTimestampOrZero (object : Json) : UInt64 :=
  match object.find (bytes "timestamp") with
  | some (.numberUnsigned value) => value
  | _ => 0

/-- `build_peer_info`, from the `data` object. Each of the fields may be
missing. -/
def buildPeerInfo (data : Json) : PeerInfo where
  host := getStringRefOrEmpty data (bytes "host")
  peerIp := getStringRefOrEmpty data (bytes "peer")
  peerAsn := getUint32OrZero data (bytes "peer_asn")

/-- `try_get_origin_asn`: the last element of the path, if it is an unsigned
number. Compound elements, such as an AS set, give no origin. -/
def tryGetOriginAsn (data : Json) : Option UInt32 :=
  match data.find (bytes "path") with
  | some (.array path) =>
    match path.getLast? with
    | some (.numberUnsigned last) => some last.toUInt32
    -- an empty path, or an origin that is no plain number
    | _ => none
  | _ => none

/-! ## Emitting events -/

section Emit

variable {σ : Type}

/-- The loop over an array of prefix texts, which both kinds of event run:
entries that are no strings are skipped. -/
def emitPrefixes (onEvent : EventSink σ) (mk : Bytes → BgpEvent) (values : List Json)
    (emittedEvents : Nat) : EStateM Exception σ Nat :=
  values.foldlM
    (fun emittedEvents prefixValue =>
      match prefixValue with
      | .string prefixText => do
        onEvent (mk prefixText)
        return emittedEvents + 1
      | _ => return emittedEvents)
    emittedEvents

/-- `append_announce_events`: an event for each string in the `prefixes` of each
announcement. An announcement without such an array is skipped, and the loop
goes on. -/
def appendAnnounceEvents (data : Json) (peer : PeerInfo) (timestamp : UInt64)
    (onEvent : EventSink σ) (emittedEvents : Nat) : EStateM Exception σ Nat :=
  match tryGetOriginAsn data with
  -- without an origin the announcements are not looked at
  | none => return emittedEvents
  | some originAsn =>
    match data.find (bytes "announcements") with
    | some (.array announcements) =>
      announcements.foldlM
        (fun emittedEvents announcement =>
          match announcement.find (bytes "prefixes") with
          | some (.array prefixes) =>
            emitPrefixes onEvent (fun text => ⟨.announce, peer, text, originAsn, timestamp⟩)
              prefixes emittedEvents
          | _ => return emittedEvents)
        emittedEvents
    | _ => return emittedEvents

/-- `append_withdraw_events`: an event for each string of the withdrawals. It
asks for no origin. -/
def appendWithdrawEvents (data : Json) (peer : PeerInfo) (timestamp : UInt64)
    (onEvent : EventSink σ) (emittedEvents : Nat) : EStateM Exception σ Nat :=
  match data.find (bytes "withdrawals") with
  | some (.array withdrawals) =>
    emitPrefixes onEvent (fun text => ⟨.withdraw, peer, text, 0, timestamp⟩) withdrawals
      emittedEvents
  | _ => return emittedEvents

variable (jsonParse : JsonParse)

/-- `parse_ris_live_message`: the number of events the callback was given. -/
def parseRisLiveMessage (text : Bytes) (onEvent : EventSink σ) : EStateM Exception σ Nat :=
  match jsonParse text with
  | .error (.parseError _) => return 0
  -- the handler is for `json::parse_error` alone
  | .error (.outOfRange what) => throw (.jsonOutOfRange what)
  | .ok outer =>
    if hasStringValue outer (bytes "type") (bytes "ris_message") = false then
      return 0
    else
      match outer.find (bytes "data") with
      | some (.object members) => do
        let data := Json.object members
        if hasStringValue data (bytes "type") (bytes "UPDATE") = false then
          return 0
        else
          let peer := buildPeerInfo data
          let timestamp := getTimestampOrZero data
          let emittedEvents ← appendAnnounceEvents data peer timestamp onEvent 0
          appendWithdrawEvents data peer timestamp onEvent emittedEvents
      | _ => return 0

end Emit

/-! ## The events of a document -/

/-- The `data` object of an UPDATE. -/
def updateData (outer : Json) : Option Json :=
  if hasStringValue outer (bytes "type") (bytes "ris_message") then
    match outer.find (bytes "data") with
    | some (.object members) =>
      if hasStringValue (.object members) (bytes "type") (bytes "UPDATE") then
        some (.object members)
      else none
    | _ => none
  else none

/-- The elements of an array field, none when the field is missing or no
array. -/
def arrayField (object : Json) (key : Bytes) : List Json :=
  match object.find key with
  | some (.array elements) => elements
  | _ => []

/-- The strings among some values. -/
def stringsOf (values : List Json) : List Bytes :=
  values.filterMap fun value =>
    match value with
    | .string text => some text
    | _ => none

/-- The prefix texts announced by `data`, whatever its origin. -/
def announcedTexts (data : Json) : List Bytes :=
  (arrayField data (bytes "announcements")).flatMap fun announcement =>
    stringsOf (arrayField announcement (bytes "prefixes"))

/-- The announcements of a document as a list, in the order of the two nested
loops. -/
def announceEvents (data : Json) : List BgpEvent :=
  match tryGetOriginAsn data with
  | none => []
  | some originAsn => (announcedTexts data).map fun text =>
    ⟨.announce, buildPeerInfo data, text, originAsn, getTimestampOrZero data⟩

/-- The withdrawals of a document as a list. -/
def withdrawEvents (data : Json) : List BgpEvent :=
  (stringsOf (arrayField data (bytes "withdrawals"))).map fun text =>
    ⟨.withdraw, buildPeerInfo data, text, 0, getTimestampOrZero data⟩

/-- The events a document stands for, announcements first. It mentions no
callback, and is what the rest of the development knows of the parser. -/
def documentEvents (outer : Json) : List BgpEvent :=
  match updateData outer with
  | none => []
  | some data => announceEvents data ++ withdrawEvents data

/-- Every event of a document comes from the one peer of its `data`. -/
theorem peer_of_mem_documentEvents {outer : Json} {event : BgpEvent}
    (h : event ∈ documentEvents outer) :
    ∃ data, updateData outer = some data ∧ event.peer = buildPeerInfo data := by
  unfold documentEvents at h
  cases hd : updateData outer with
  | none =>
    rw [hd] at h
    cases h
  | some data =>
    rw [hd] at h
    refine ⟨data, rfl, ?_⟩
    rcases List.mem_append.mp h with h | h
    · unfold announceEvents at h
      cases ho : tryGetOriginAsn data with
      | none =>
        rw [ho] at h
        cases h
      | some originAsn =>
        rw [ho] at h
        obtain ⟨text, -, rfl⟩ := List.mem_map.mp h
        rfl
    · obtain ⟨text, -, rfl⟩ := List.mem_map.mp h
      rfl

/-! ## Streaming is running over the list -/

section Streaming

variable {σ : Type}

/-- The callback run over some events, and the number of them added to a count.
It is the common form that both loops of the source take. -/
def emitAll (onEvent : EventSink σ) (events : List BgpEvent) (emittedEvents : Nat) :
    EStateM Exception σ Nat := do
  forM events onEvent
  return emittedEvents + events.length

theorem emitAll_nil (onEvent : EventSink σ) (n : Nat) : emitAll onEvent [] n = pure n := by
  unfold emitAll
  rw [List.forM_nil, pure_bind]
  rfl

/-- The first event, and the others with one more counted. The two sides count
at different moments, which no one can see. -/
theorem emitAll_cons (onEvent : EventSink σ) (event : BgpEvent) (events : List BgpEvent)
    (n : Nat) :
    emitAll onEvent (event :: events) n =
      (do onEvent event
          emitAll onEvent events (n + 1)) := by
  unfold emitAll
  have hlen : n + (event :: events).length = n + 1 + events.length := by
    rw [List.length_cons]
    omega
  rw [List.forM_cons, bind_assoc, hlen]

theorem emitAll_append (onEvent : EventSink σ) : ∀ (l l' : List BgpEvent) (n : Nat),
    emitAll onEvent (l ++ l') n = emitAll onEvent l n >>= emitAll onEvent l' := by
  intro l
  induction l with
  | nil =>
    intro l' n
    rw [List.nil_append, emitAll_nil, pure_bind]
  | cons event l ih =>
    intro l' n
    rw [List.cons_append, emitAll_cons, emitAll_cons, bind_assoc]
    congr 1
    funext _
    exact ih l' (n + 1)

/-- The loop over an array runs the callback on the strings of it. -/
theorem emitPrefixes_eq (onEvent : EventSink σ) (mk : Bytes → BgpEvent) :
    ∀ (values : List Json) (n : Nat),
      emitPrefixes onEvent mk values n = emitAll onEvent ((stringsOf values).map mk) n := by
  intro values
  induction values with
  | nil =>
    intro n
    rw [emitPrefixes, List.foldlM_nil]
    exact (emitAll_nil onEvent n).symm
  | cons value values ih =>
    intro n
    unfold emitPrefixes at ih ⊢
    rw [List.foldlM_cons]
    cases value with
    | string text =>
      show (do let n' ← (do onEvent (mk text); pure (n + 1)); _) = emitAll onEvent (mk text :: _) n
      rw [bind_assoc, emitAll_cons]
      congr 1
      funext _
      rw [pure_bind]
      exact ih (n + 1)
    -- every other value is passed over
    | null => rw [pure_bind]; exact ih n
    | boolean _ => rw [pure_bind]; exact ih n
    | numberInteger _ => rw [pure_bind]; exact ih n
    | numberUnsigned _ => rw [pure_bind]; exact ih n
    | numberFloat => rw [pure_bind]; exact ih n
    | array _ => rw [pure_bind]; exact ih n
    | object _ => rw [pure_bind]; exact ih n

/-- A loop that skips values without the array field is a loop over the field's
elements. -/
theorem emitPrefixes_field (onEvent : EventSink σ) (mk : Bytes → BgpEvent) (object : Json)
    (key : Bytes) (n : Nat) :
    (match object.find key with
      | some (.array values) => emitPrefixes onEvent mk values n
      | _ => pure n) =
      emitAll onEvent ((stringsOf (arrayField object key)).map mk) n := by
  unfold arrayField
  split
  next values hf => rw [emitPrefixes_eq]
  next hf => rw [show stringsOf [] = [] from rfl, List.map_nil, emitAll_nil]

/-- The nested loops run the callback on the announcements of the document. -/
theorem appendAnnounceEvents_eq (data : Json) (onEvent : EventSink σ) (n : Nat) :
    appendAnnounceEvents data (buildPeerInfo data) (getTimestampOrZero data) onEvent n =
      emitAll onEvent (announceEvents data) n := by
  unfold appendAnnounceEvents announceEvents announcedTexts
  cases tryGetOriginAsn data with
  | none => rw [emitAll_nil]
  | some originAsn =>
    -- the outer loop, by induction on the announcements still to come
    have hloop : ∀ (announcements : List Json) (n : Nat),
        announcements.foldlM (fun emittedEvents announcement =>
            match announcement.find (bytes "prefixes") with
            | some (.array prefixes) =>
              emitPrefixes onEvent (fun text => ⟨.announce, buildPeerInfo data, text, originAsn,
                getTimestampOrZero data⟩) prefixes emittedEvents
            | _ => return emittedEvents) n =
          emitAll onEvent ((announcements.flatMap fun announcement =>
            stringsOf (arrayField announcement (bytes "prefixes"))).map fun text =>
              ⟨.announce, buildPeerInfo data, text, originAsn, getTimestampOrZero data⟩) n := by
      intro announcements
      induction announcements with
      | nil =>
        intro n
        rw [List.foldlM_nil, List.flatMap_nil, List.map_nil, emitAll_nil]
      | cons announcement announcements ih =>
        intro n
        rw [List.foldlM_cons, emitPrefixes_field, List.flatMap_cons, List.map_append,
          emitAll_append]
        congr 1
        funext n
        exact ih n
    dsimp only
    unfold arrayField
    split
    next announcements hf => exact hloop announcements n
    next hf => rw [List.flatMap_nil, List.map_nil, emitAll_nil]

/-- The loop over the withdrawals does so on its withdrawals. -/
theorem appendWithdrawEvents_eq (data : Json) (onEvent : EventSink σ) (n : Nat) :
    appendWithdrawEvents data (buildPeerInfo data) (getTimestampOrZero data) onEvent n =
      emitAll onEvent (withdrawEvents data) n :=
  emitPrefixes_field onEvent _ data _ n

variable (jsonParse : JsonParse)

/-- The events of a raw text, or the exception of `json::parse` that nobody
catches. -/
def messageEvents (text : Bytes) : Except Exception (List BgpEvent) :=
  match jsonParse text with
  | .error (.parseError _) => .ok []
  | .error (.outOfRange what) => .error (.jsonOutOfRange what)
  | .ok outer => .ok (documentEvents outer)

/-- The parser runs the callback over the events of the text and counts them. -/
theorem parseRisLiveMessage_eq (text : Bytes) (onEvent : EventSink σ) :
    parseRisLiveMessage jsonParse text onEvent =
      match messageEvents jsonParse text with
      | .error e => throw e
      | .ok events => emitAll onEvent events 0 := by
  unfold parseRisLiveMessage messageEvents
  cases jsonParse text with
  | error e =>
    cases e with
    | parseError what => exact (emitAll_nil onEvent 0).symm
    | outOfRange what => rfl
  | ok outer =>
    simp only [documentEvents, updateData]
    by_cases htype : hasStringValue outer (bytes "type") (bytes "ris_message") = true
    · rw [if_neg (by rw [htype]; decide), if_pos htype]
      split
      next members hdata =>
        by_cases hupdate : hasStringValue (.object members) (bytes "type") (bytes "UPDATE") = true
        · rw [if_neg (by rw [hupdate]; decide), if_pos hupdate, emitAll_append,
            appendAnnounceEvents_eq]
          congr 1
          funext n
          exact appendWithdrawEvents_eq _ onEvent n
        · rw [if_pos (by simpa using hupdate), if_neg hupdate]
          exact (emitAll_nil onEvent 0).symm
      next hdata => exact (emitAll_nil onEvent 0).symm
    · rw [if_pos (by simpa using htype), if_neg htype]
      exact (emitAll_nil onEvent 0).symm

end Streaming

/-! ## Collecting -/

/-- The callback that only keeps the events. Running the parser with it tells
which events a text has, without any objects of the program. -/
def collectEvent : EventSink (List BgpEvent) := fun event => modify fun events => events ++ [event]

/-- Collecting adds the events at the end and never fails. -/
theorem emitAll_collectEvent : ∀ (events collected : List BgpEvent) (n : Nat),
    (emitAll collectEvent events n).run collected = .ok (n + events.length) (collected ++ events) := by
  intro events
  induction events with
  | nil =>
    intro collected n
    rw [emitAll_nil, List.append_nil]
    rfl
  | cons event events ih =>
    intro collected n
    have hpush : (collectEvent event).run collected = .ok () (collected ++ [event]) := rfl
    rw [emitAll_cons, run_bind_ok hpush, ih, List.append_assoc, List.singleton_append,
      List.length_cons, Nat.add_right_comm, Nat.add_assoc]

/-- Collecting returns the events of the text and their number, or fails where
the parser does. -/
theorem collect_eq {jsonParse : JsonParse} (text : Bytes) :
    (parseRisLiveMessage jsonParse text collectEvent).run [] =
      match messageEvents jsonParse text with
      | .error e => .error e []
      | .ok events => .ok events.length events := by
  rw [parseRisLiveMessage_eq]
  cases messageEvents jsonParse text with
  | error e => rfl
  | ok events =>
    dsimp only
    rw [emitAll_collectEvent, Nat.zero_add, List.nil_append]

/-! ## Sample messages -/

/-- A `json::parse` that knows the documents of some texts and finds no other
text well formed. -/
def parseListed (documents : List (Bytes × Json)) : JsonParse := fun text =>
  match documents.lookup text with
  | some document => .ok document
  | none => .error (.parseError (bytes "syntax error"))

/-- The first text of the list has the document beside it. -/
theorem parseListed_cons_self (text : Bytes) (document : Json) (rest : List (Bytes × Json)) :
    parseListed ((text, document) :: rest) text = .ok document := by
  unfold parseListed
  rw [List.lookup_cons_self]

/-- Any other text is looked up in the rest of the list. -/
theorem parseListed_cons_ne {text other : Bytes} (h : text ≠ other) (document : Json)
    (rest : List (Bytes × Json)) :
    parseListed ((other, document) :: rest) text = parseListed rest text := by
  unfold parseListed
  rw [List.lookup_cons, beq_false_of_ne h]

/-- The document of an UPDATE. -/
def updateDocument (host peer : String) (peerAsn timestamp origin : UInt64)
    (announced withdrawn : List String) : Json :=
  .object
    [(bytes "type", .string (bytes "ris_message")),
      (bytes "data", .object
        [(bytes "type", .string (bytes "UPDATE")),
          (bytes "host", .string (bytes host)),
          (bytes "peer", .string (bytes peer)),
          (bytes "peer_asn", .numberUnsigned peerAsn),
          (bytes "timestamp", .numberUnsigned timestamp),
          (bytes "path", .array [.numberUnsigned peerAsn, .numberUnsigned origin]),
          (bytes "announcements", .array
            [.object [(bytes "prefixes", .array (announced.map fun text => .string (bytes text)))]]),
          (bytes "withdrawals", .array (withdrawn.map fun text => .string (bytes text)))])]

/-- A message as RIS Live sends it: one peer announces one prefix. -/
def rrc00Text : Bytes :=
  bytes "\x7b\"type\":\"ris_message\",\"data\":\x7b\"type\":\"UPDATE\",\"host\":\"rrc00\"" ++
  bytes ",\"peer\":\"192.0.2.1\",\"peer_asn\":64500,\"timestamp\":1710000000" ++
  bytes ",\"path\":[64500,15169]" ++
  bytes ",\"announcements\":[\x7b\"prefixes\":[\"8.8.8.0/24\"]\x7d]" ++
  bytes ",\"withdrawals\":[]\x7d\x7d"

/-- Another peer announces the same prefix and withdraws a second one. -/
def rrc10Text : Bytes :=
  bytes "\x7b\"type\":\"ris_message\",\"data\":\x7b\"type\":\"UPDATE\",\"host\":\"rrc10\"" ++
  bytes ",\"peer\":\"198.51.100.2\",\"peer_asn\":64510,\"timestamp\":1710000100" ++
  bytes ",\"path\":[64510,64496]" ++
  bytes ",\"announcements\":[\x7b\"prefixes\":[\"8.8.8.0/24\"]\x7d]" ++
  bytes ",\"withdrawals\":[\"9.9.9.0/24\"]\x7d\x7d"

/-- What `json::parse` makes of it. -/
def rrc00Document : Json :=
  updateDocument "rrc00" "192.0.2.1" 64500 1710000000 15169 ["8.8.8.0/24"] []

def rrc10Document : Json :=
  updateDocument "rrc10" "198.51.100.2" 64510 1710000100 64496 ["8.8.8.0/24"] ["9.9.9.0/24"]

example : documentEvents (updateDocument "rrc00" "192.0.2.1" 64500 1710000000 15169
      ["8.8.8.0/24"] ["9.9.9.0/24"]) =
    [⟨.announce, ⟨bytes "rrc00", bytes "192.0.2.1", 64500⟩, bytes "8.8.8.0/24", 15169, 1710000000⟩,
      ⟨.withdraw, ⟨bytes "rrc00", bytes "192.0.2.1", 64500⟩, bytes "9.9.9.0/24", 0, 1710000000⟩] := by
  decide

end ASNPrefixMap.Parser
