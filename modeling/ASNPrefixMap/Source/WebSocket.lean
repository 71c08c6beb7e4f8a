import ASNPrefixMap.Lib.Exception
import ASNPrefixMap.Lib.Hoare

/-!
# The live source

`src/source/ris_live_websocket_source.cpp`. What the network and the operator do
is an `Environment`: the outcomes of the network operations and the answers of
the shutdown request, in the order in which they are asked for. A `Machine` is
the source with its environment and a trace of everything it has done to the
outside, oldest first; a stream object is known by the number it was created
under. Log lines stand in the trace where they announce something (a connect, a
wait).

The two loops of the code may run for ever, so they carry a bound on their
iterations and say `running` when it is used up. Dereferencing an empty
`websocket_` is an event of its own, `nullDereference`.

Mirroring notes:

- Boost.Beast, Boost.Asio and OpenSSL are outside the repository. Each of their
  calls that talks to the peer is one question to the environment, answered by
  success or by an exception with a text; that they return is taken for granted,
  there is no timeout in the code.
- Calls that cannot fail and change nothing the source looks at are left out:
  `set_verify_mode`, the `user_agent` decorator, `io_context_.restart()`.
- `std::size_t` is `UInt64`. `delay_ms * 2` wraps around, as it does in the
  code.
- `[ris_live_ws]` log lines are left out but for the two that announce a connect
  and a wait.
- The callback `shutdown_requested_` may be empty; then the answers are all
  false.
- The destructor is in `ASNPrefixMap.Source.Streams`.
-/

namespace ASNPrefixMap.Source

open Lib

/-- How a network operation ends: it succeeds, or throws with a text. `received`
is what a read has put into the buffer by then. -/
structure NetworkAnswer where
  succeeds : Bool
  received : Bytes := []
  what : Bytes := []

/-- What the source meets from outside: the answers of the shutdown request and
of the network, numbered in the order in which they are asked for. Neither
depends on what the source has done before. -/
structure Environment where
  /-- The answers of `shutdown_requested()`, all false for a source without the
  callback. -/
  shutdown : Nat → Bool
  network : Nat → NetworkAnswer

/-- What the source does to the outside, or learns from it. The events of a
stream carry its number, those of an operation whether it has succeeded. -/
inductive Event
  | shutdownCheck (requested : Bool)
  | connect (host port target : Bytes)
  | resolve (host port : Bytes) (succeeded : Bool)
  | create (stream : Nat)
  | setHostName (stream : Nat) (host : Bytes) (succeeded : Bool)
  | tcpConnect (stream : Nat) (succeeded : Bool)
  | tlsHandshake (stream : Nat) (succeeded : Bool)
  | webSocketHandshake (stream : Nat) (host target : Bytes) (succeeded : Bool)
  | write (stream : Nat) (request : Bytes) (succeeded : Bool)
  | read (stream : Nat) (received : Bytes) (succeeded : Bool)
  | release (stream : Nat)
  | announceWait (attempt delayMs : UInt64)
  | sleep (chunkMs : UInt64)
  | nullDereference
  deriving DecidableEq

/-- The fields of `RisLiveWebSocketSource`, without the contexts of the
libraries. `websocket_` is the number of the stream it owns. -/
structure RisLiveWebSocketSource where
  host : Bytes
  port : Bytes
  target : Bytes
  reconnectEnabled : Bool
  reconnectInitialDelayMs : UInt64
  reconnectMaxDelayMs : UInt64
  reconnectMaxAttempts : UInt64
  nextReconnectDelayMs : UInt64
  delayBeforeReconnect : Bool := false
  websocket : Option Nat := none
  buffer : Bytes := []
  connected : Bool := false

/-- The constructor. The largest delay is at least the first one, whatever the
configuration says. -/
def RisLiveWebSocketSource.new (host port target : Bytes) (reconnectEnabled : Bool)
    (reconnectInitialDelayMs reconnectMaxDelayMs reconnectMaxAttempts : UInt64) :
    RisLiveWebSocketSource where
  host := host
  port := port
  target := target
  reconnectEnabled := reconnectEnabled
  reconnectInitialDelayMs := reconnectInitialDelayMs
  reconnectMaxDelayMs := max reconnectInitialDelayMs reconnectMaxDelayMs
  reconnectMaxAttempts := reconnectMaxAttempts
  nextReconnectDelayMs := reconnectInitialDelayMs

/-- A source with its surroundings: how many answers of each kind it has had,
how many streams it has made, and the trace. -/
structure Machine where
  source : RisLiveWebSocketSource
  env : Environment
  checks : Nat := 0
  operations : Nat := 0
  streams : Nat := 0
  trace : List Event := []

/-- A source before its first call. -/
def Machine.start (source : RisLiveWebSocketSource) (env : Environment) : Machine :=
  { source := source, env := env }

/-- Code of the source: it changes the machine and may throw. -/
abbrev NetM := EStateM Exception Machine

/-- A loop that has ended, or used up its bound. -/
inductive Progress (α : Type)
  | running
  | returned (value : α)
  deriving DecidableEq

/-! ## Talking to the outside -/

/-- One event more at the end of the trace. -/
def Machine.emit (machine : Machine) (event : Event) : Machine :=
  { machine with trace := machine.trace ++ [event] }

/-- `Machine.emit` as a step of the source. -/
def emit (event : Event) : NetM Unit := modify fun machine => machine.emit event

/-- An assignment to members of the source, which leaves no trace. -/
def modifySource (f : RisLiveWebSocketSource → RisLiveWebSocketSource) : NetM Unit :=
  modify fun machine => { machine with source := f machine.source }

/-- `shutdown_requested`: the next answer of the operator. -/
def shutdownRequested : NetM Bool := do
  let machine ← get
  let requested := machine.env.shutdown machine.checks
  modify fun machine => { machine with checks := machine.checks + 1 }
  emit (.shutdownCheck requested)
  return requested

/-- A network operation: it takes the next answer of the network, leaves its
event whether or not it succeeds, and throws `what` when it fails. -/
def operate (event : NetworkAnswer → Event) (what : NetworkAnswer → Bytes) : NetM Unit := do
  let machine ← get
  let answer := machine.env.network machine.operations
  modify fun machine => { machine with operations := machine.operations + 1 }
  emit (event answer)
  if answer.succeeds then return () else throw (.runtimeError (what answer))

/-- `*websocket_`, undefined when it is empty. -/
def stream : NetM Nat := do
  let machine ← get
  match machine.source.websocket with
  | some stream => return stream
  | none => do
    emit .nullDereference
    throw (.runtimeError [])

/-- `websocket_.reset()`. -/
def releaseStream : NetM Unit := do
  let machine ← get
  match machine.source.websocket with
  | some stream => do
    emit (.release stream)
    modifySource fun source => { source with websocket := none }
  | none => return ()

/-! ## Connecting -/

/-- `websocket_ = std::make_unique<WebSocketStream>(...)`. -/
def createStream : NetM Unit := do
  let machine ← get
  emit (.create machine.streams)
  modify fun machine => { machine with streams := machine.streams + 1 }
  -- the assignment destroys the old stream once the new one is there
  releaseStream
  modifySource fun source => { source with websocket := some machine.streams }

/-- `connect`: resolve, make a stream, and take it through four operations that
may each throw. The resolver comes before the stream, so a name that does not
resolve leaves the old one alone. -/
def connect : NetM Unit := do
  let machine ← get
  let source := machine.source
  emit (.connect source.host source.port source.target)
  operate (fun answer => .resolve source.host source.port answer.succeeds) NetworkAnswer.what
  createStream
  -- what throws from here on leaves `websocket_` set and `connected_` false
  let ws ← stream
  operate (fun answer => .setHostName ws source.host answer.succeeds)
    fun _ => bytes "Failed to set TLS SNI hostname"
  operate (fun answer => .tcpConnect ws answer.succeeds) NetworkAnswer.what
  operate (fun answer => .tlsHandshake ws answer.succeeds) NetworkAnswer.what
  operate (fun answer => .webSocketHandshake ws source.host source.target answer.succeeds)
    NetworkAnswer.what
  modifySource fun source => { source with connected := true }

/-- The text `send_subscribe` writes. -/
def subscribeRequest : Bytes :=
  bytes "\x7b\"type\":\"ris_subscribe\",\"data\":\x7b\"type\":\"UPDATE\"\x7d\x7d"

/-- `send_subscribe`. Its check never fails after a `connect` that has returned,
see `sendSubscribe_triple`. -/
def sendSubscribe : NetM Unit := do
  let machine ← get
  if machine.source.connected = false ∨ machine.source.websocket = none then
    throw (.runtimeError (bytes "WebSocket is not connected"))
  else do
    let ws ← stream
    operate (fun answer => .write ws subscribeRequest answer.succeeds) NetworkAnswer.what

/-- `reset_connection`: no stream, an empty buffer, and a wait before the next
attempt. -/
def resetConnection : NetM Unit := do
  modifySource fun source => { source with connected := false, delayBeforeReconnect := true }
  releaseStream
  modifySource fun source => { source with buffer := [] }

/-- `connect(); send_subscribe();` in a `try` block. -/
def tryConnect : NetM (Option Exception) := attempt do
  connect
  sendSubscribe

/-! ## Waiting and retrying -/

/-- `std::min` on `std::size_t` is the minimum of the numbers. -/
theorem toNat_min (a b : UInt64) : (min a b).toNat = min a.toNat b.toNat := by
  show (if a ≤ b then a else b).toNat = _
  by_cases h : a ≤ b
  · have hle := UInt64.le_iff_toNat_le.mp h
    rw [if_pos h]
    omega
  · have hlt := UInt64.lt_iff_toNat_lt.mp (UInt64.not_le.mp h)
    rw [if_neg h]
    omega

/-- `std::max` on `std::size_t` is the maximum of the numbers. -/
theorem toNat_max (a b : UInt64) : (max a b).toNat = max a.toNat b.toNat := by
  show (if a ≤ b then b else a).toNat = _
  by_cases h : a ≤ b
  · have hle := UInt64.le_iff_toNat_le.mp h
    rw [if_pos h]
    omega
  · have hlt := UInt64.lt_iff_toNat_lt.mp (UInt64.not_le.mp h)
    rw [if_neg h]
    omega

/-- A chunk of a wait and what is left of it. -/
theorem toNat_chunk_add (remaining : UInt64) :
    (min remaining 100).toNat + (remaining - min remaining 100).toNat = remaining.toNat := by
  have hmin := toNat_min remaining 100
  rw [UInt64.toNat_sub_of_le _ _ (UInt64.le_iff_toNat_le.mpr (by omega))]
  omega

/-- What is left of a wait after a chunk is less. -/
theorem toNat_sub_chunk_lt {remaining : UInt64} (h : remaining ≠ 0) :
    (remaining - min remaining 100).toNat < remaining.toNat := by
  have hpos : remaining.toNat ≠ 0 := fun h0 => h (UInt64.toNat_inj.mp h0)
  have h100 : (100 : UInt64).toNat = 100 := rfl
  have hmin := toNat_min remaining 100
  have hadd := toNat_chunk_add remaining
  omega

/-- `sleep_with_stop`: waits in chunks of at most 100 ms and asks before each of
them, and once more at the end, whether to stop. -/
def sleepWithStop (remaining : UInt64) : NetM Bool := do
  if h : remaining = 0 then
    -- a request made during the last chunk still counts
    return !(← shutdownRequested)
  else if ← shutdownRequested then
    return false
  else do
    emit (.sleep (min remaining 100))
    have := toNat_sub_chunk_lt h
    sleepWithStop (remaining - min remaining 100)
termination_by remaining.toNat

/-- The wait before an attempt, false when a shutdown request ended it. -/
def waitBeforeAttempt (delayBeforeAttempt : Bool) (attempt delayMs : UInt64) : NetM Bool :=
  if delayBeforeAttempt then do
    emit (.announceWait attempt delayMs)
    sleepWithStop delayMs
  else
    return true

/-- The loop of `reconnect_with_backoff` with its three local variables.
`attempt` is counted up at the head of the loop there, so an iteration that
starts with `attempts` makes attempt `attempts + 1`. -/
def backoffLoop : Nat → UInt64 → UInt64 → Bool → NetM (Progress Bool)
  | 0, _, _, _ => return .running
  | fuel + 1, attempts, delayMs, delayBeforeAttempt => do
    if ← shutdownRequested then
      return .returned false
    else do
      if !(← waitBeforeAttempt delayBeforeAttempt (attempts + 1) delayMs) then
        return .returned false
      else
        match ← tryConnect with
        | none => do
          modifySource fun source =>
            { source with
              nextReconnectDelayMs := source.reconnectInitialDelayMs
              delayBeforeReconnect := false }
          return .returned true
        | some _ => do
          resetConnection
          let machine ← get
          let source := machine.source
          -- zero stands for any number of attempts
          if source.reconnectMaxAttempts ≠ 0 ∧ attempts + 1 ≥ source.reconnectMaxAttempts then
            return .returned false
          else do
            let nextDelayMs := min (delayMs * 2) source.reconnectMaxDelayMs
            modifySource fun source => { source with nextReconnectDelayMs := nextDelayMs }
            backoffLoop fuel (attempts + 1) nextDelayMs true

/-- `reconnect_with_backoff`: the delay and whether to wait at once are taken
from the members. -/
def reconnectWithBackoff (fuel : Nat) : NetM (Progress Bool) := do
  let machine ← get
  backoffLoop fuel 0 machine.source.nextReconnectDelayMs machine.source.delayBeforeReconnect

/-- `ensure_connected`. Without reconnect it makes one attempt; with it, the
retry loop decides. -/
def ensureConnected (fuel : Nat) : NetM (Progress Bool) := do
  let machine ← get
  if machine.source.connected = true ∧ machine.source.websocket.isSome = true then
    return .returned true
  else if ← shutdownRequested then
    return .returned false
  else if machine.source.reconnectEnabled = false then
    -- one attempt, without a wait before it
    match ← tryConnect with
    | none => do
      modifySource fun source =>
        { source with
          nextReconnectDelayMs := source.reconnectInitialDelayMs
          delayBeforeReconnect := false }
      return .returned true
    | some _ => do
      resetConnection
      return .returned false
  else
    reconnectWithBackoff fuel

/-! ## Reading -/

/-- `websocket_->read(buffer_)`, after the buffer has been emptied. -/
def readMessage : NetM Unit := do
  modifySource fun source => { source with buffer := [] }
  let ws ← stream
  let machine ← get
  let answer := machine.env.network machine.operations
  -- a read that throws may have filled a part of the buffer
  modifySource fun source => { source with buffer := source.buffer ++ answer.received }
  operate (fun answer => .read ws answer.received answer.succeeds) NetworkAnswer.what

/-- `next_message`: the text it stores when it returns true, `none` when it
returns false. -/
def nextMessage : Nat → NetM (Progress (Option Bytes))
  | 0 => return .running
  | fuel + 1 => do
    if ← shutdownRequested then
      return .returned none
    else
      match ← ensureConnected fuel with
      | .running => return .running
      | .returned false => return .returned none
      | .returned true =>
        match ← attempt readMessage with
        | none => do
          let machine ← get
          return .returned (some machine.source.buffer)
        | some _ => do
          -- a failed read is the only way round the loop, whatever `reconnect_enabled_` says
          resetConnection
          nextMessage fuel

/-- Calls of `next_message`, one for each bound, and what those that returned
have returned. A call that uses up its bound is the last. -/
def nextMessages : List Nat → NetM (List (Option Bytes))
  | [] => return []
  | fuel :: fuels => do
    match ← nextMessage fuel with
    | .running => return []
    | .returned json => do
      let rest ← nextMessages fuels
      return json :: rest

end ASNPrefixMap.Source
