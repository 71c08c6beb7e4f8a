import ASNPrefixMap.Ingest.Plain
import ASNPrefixMap.Lib.Agreement
import ASNPrefixMap.Prefix.InetText

/-!
# How events are spread over messages

The loop works message by message: one look-up of the peer, one update of the
counters. None of this shows in what it stores. Two sequences of messages with
the same events in the same order, however they are spread over messages and
whatever messages without events lie between them, make the same registry with
the same ids, the same routing state and the same statistics of what was
announced, and end with the same exception if with any (`ingest_same_events`).
Only the counters that count messages can tell (`World.withoutMessages`).

An event stream keeps the exception at its end: behind a text that makes
`json::parse` throw past the parser there are no more events, in either
sequence.
-/

namespace ASNPrefixMap.Ingest

open Lib Prefix Peer Routing Stats
open ASNPrefixMap.Parser

/-- The objects without the counters that are kept message by message. The
active counts are among them, since they are refreshed at the end of a message
only. -/
def World.withoutMessages (world : World) : World :=
  { world with
    stats :=
      { announcesApplied := world.stats.announcesApplied
        withdrawsApplied := world.stats.withdrawsApplied }
    growthStats :=
      { world.growthStats with
        rawMessagesReceived := 0
        parsedEventsTotal := 0
        activePrefixesV4 := 0
        activePrefixesV6 := 0 } }

section Streams

variable (jsonParse : JsonParse) (net : Inet) (ord : HashOrders)

/-- The events of some messages, and the exception of the first text that
`json::parse` throws past the parser. -/
def eventStream : List Bytes → List BgpEvent × Option Exception
  | [] => ([], none)
  | text :: messages =>
    match messageEvents jsonParse text with
    | .error e => ([], some e)
    | .ok events => (events ++ (eventStream messages).1, (eventStream messages).2)

/-- An event stream without messages. -/
def processStream (stream : List BgpEvent × Option Exception) : EStateM Exception World Unit := do
  forM stream.1 (processEvent net ord)
  match stream.2 with
  | none => return ()
  | some e => throw e

/-- A message without its counters. -/
def processMessage (text : Bytes) : EStateM Exception World Unit :=
  match messageEvents jsonParse text with
  | .error e => throw e
  | .ok events => forM events (processEvent net ord)

end Streams

variable {jsonParse : JsonParse} {net : Inet} {ord : HashOrders}

/-! ## The counters of messages play no part -/

theorem receiveMessage_withoutMessages (world : World) :
    world.receiveMessage.withoutMessages = world.withoutMessages := rfl

/-- What is counted at the end of a message is left out, too. -/
theorem countMessage_withoutMessages (world : World) (emittedEvents : Nat) :
    (world.countMessage emittedEvents).withoutMessages = world.withoutMessages := by
  unfold World.countMessage
  dsimp only
  split <;> rfl

theorem apply_withoutMessages (world : World) (type : EventType) (peerId : PeerId)
    (pfx : BinaryPrefix) (asn : UInt32) (t : UInt64) :
    (world.withoutMessages.apply ord type peerId pfx asn t) =
      (world.apply ord type peerId pfx asn t).withoutMessages := by
  cases type with
  | announce => cases pfx <;> rfl
  | withdraw => cases pfx <;> rfl

/-- An event does the same to what is left, whatever the counters of messages
say. -/
theorem processEvent_agree (event : BgpEvent) :
    Agree World.withoutMessages World.withoutMessages (processEvent net ord event)
      (processEvent net ord event) := by
  refine Agree.of_view fun world => ?_
  rw [processEvent_run, processEvent_run]
  have hpeer : world.withoutMessages.resolvePeer event.peer =
      ((world.resolvePeer event.peer).1, (world.resolvePeer event.peer).2.withoutMessages) := rfl
  rw [hpeer]
  dsimp only
  cases hpfx : parsePrefix net event.prefixText with
  | error e =>
    rw [applyEvent_of_error hpfx, applyEvent_of_error hpfx]
    rfl
  | ok pfx =>
    rw [applyEvent_of_ok hpfx, applyEvent_of_ok hpfx, apply_withoutMessages]
    rfl

/-- A message is its events, but for the counters. -/
theorem ingestMessage_agree (text : Bytes) :
    Agree World.withoutMessages World.withoutMessages (ingestMessage jsonParse net ord text)
      (processMessage jsonParse net ord text) := by
  intro world world' h
  have hreceived : world.receiveMessage.withoutMessages = world'.withoutMessages :=
    (receiveMessage_withoutMessages world).trans h
  rw [ingestMessage_eq, processMessage]
  cases hevents : messageEvents jsonParse text with
  | error e => exact congrArg (EStateM.Result.error e) h
  | ok events =>
    cases events with
    | nil =>
      exact congrArg (EStateM.Result.ok ()) ((countMessage_withoutMessages _ 0).trans hreceived)
    | cons event rest =>
      dsimp only
      have hrun := Agree.forM (@processEvent_agree net ord) (event :: rest) _ _ hreceived
      rw [forM_processEvent_first _ (peer_eq_of_messageEvents hevents)] at hrun
      rw [← hrun]
      cases (applyEvents net ord (world.receiveMessage.resolvePeer event.peer).1
          (event :: rest)).run (world.receiveMessage.resolvePeer event.peer).2 with
      | error e after => rfl
      | ok _ after => exact congrArg (EStateM.Result.ok ()) (countMessage_withoutMessages after _)

/-! ## Runs -/

theorem processStream_append (events : List BgpEvent) (stream : List BgpEvent × Option Exception) :
    processStream net ord (events ++ stream.1, stream.2) =
      (do forM events (processEvent net ord)
          processStream net ord stream) := by
  unfold processStream
  rw [List.forM_append, bind_assoc]

/-- Messages without their counters are one event stream. -/
theorem forM_processMessage : ∀ messages : List Bytes,
    forM messages (processMessage jsonParse net ord) =
      processStream net ord (eventStream jsonParse messages) := by
  intro messages
  induction messages with
  | nil => rfl
  | cons text messages ih =>
    rw [List.forM_cons, ih, eventStream, processMessage]
    cases messageEvents jsonParse text with
    | error e => rfl
    | ok events => exact (processStream_append events (eventStream jsonParse messages)).symm

/-- **Only the events count.** Two sequences with the same event stream do the
same to all objects but for the counters of messages, and end with the same
exception if with any. How events are cut into messages is seen only in those
counters: a peer is looked up once a message, and looking it up again finds
it. -/
theorem ingest_same_events {A B : List Bytes}
    (hevents : eventStream jsonParse A = eventStream jsonParse B) (world : World) :
    seen World.withoutMessages ((ingest jsonParse net ord A).run world) =
      seen World.withoutMessages ((ingest jsonParse net ord B).run world) := by
  have hstream : ∀ messages,
      seen World.withoutMessages ((ingest jsonParse net ord messages).run world) =
        seen World.withoutMessages
          ((processStream net ord (eventStream jsonParse messages)).run world) := by
    intro messages
    rw [← forM_processMessage]
    exact Agree.forM ingestMessage_agree messages world world rfl
  rw [hstream A, hstream B, hevents]

/-- The announcement of the second sample message, alone. -/
def announcingText : Bytes :=
  bytes "\x7b\"type\":\"ris_message\",\"data\":\x7b\"type\":\"UPDATE\",\"host\":\"rrc10\"" ++
  bytes ",\"peer\":\"198.51.100.2\",\"peer_asn\":64510,\"timestamp\":1710000100" ++
  bytes ",\"path\":[64510,64496]" ++
  bytes ",\"announcements\":[\x7b\"prefixes\":[\"8.8.8.0/24\"]\x7d]" ++
  bytes ",\"withdrawals\":[]\x7d\x7d"

/-- Its withdrawal, alone. -/
def withdrawingText : Bytes :=
  bytes "\x7b\"type\":\"ris_message\",\"data\":\x7b\"type\":\"UPDATE\",\"host\":\"rrc10\"" ++
  bytes ",\"peer\":\"198.51.100.2\",\"peer_asn\":64510,\"timestamp\":1710000100" ++
  bytes ",\"path\":[64510,64496]" ++
  bytes ",\"announcements\":[\x7b\"prefixes\":[]\x7d]" ++
  bytes ",\"withdrawals\":[\"9.9.9.0/24\"]\x7d\x7d"

/-- A message that was cut off: no JSON text. -/
def truncatedText : Bytes := bytes "\x7b\"type\":\"ris_message\",\"data\":\x7b\"type\":\"UPD"

/-- A `json::parse` for one update and for the same one in two parts. -/
def splitParse : JsonParse :=
  parseListed [(rrc10Text, rrc10Document),
    (announcingText, updateDocument "rrc10" "198.51.100.2" 64510 1710000100 64496 ["8.8.8.0/24"] []),
    (withdrawingText, updateDocument "rrc10" "198.51.100.2" 64510 1710000100 64496 [] ["9.9.9.0/24"])]

/-- One update, and the same in two messages with a truncated one between
them. -/
theorem ingest_same_events_split :
    seen World.withoutMessages ((ingest splitParse Inet.standard .ascending [rrc10Text]).run
        { growthStats := .start {} 0 }) =
      seen World.withoutMessages ((ingest splitParse Inet.standard .ascending
        [announcingText, truncatedText, withdrawingText]).run { growthStats := .start {} 0 }) :=
  ingest_same_events (by decide +kernel) _

end ASNPrefixMap.Ingest
