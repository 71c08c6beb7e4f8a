import ASNPrefixMap.Lib.Numeral

/-!
# The configuration file

`src/config.cpp`: a file of `key = value` lines over built-in defaults. A line
is trimmed; a blank one, a `#` comment and one without `=` are passed over, and
so is a key that is not known. `std::stod` is a parameter, as nothing here
depends on which `double` a text denotes.

Mirroring notes:

- `load_config` fills a `Config` whose members are default-constructed first, so
  those it gives no value (`input_file`, `prefix_output`, `asn_output`,
  `snapshot_input`) are empty strings in `defaults`.

- The `else if` chain of the source is the body of the loop; it is a function
  `assign` here, with the branches in the order of the source. The loop is a
  monadic fold, since a conversion throws out of it.

- `std::size_t` is `UInt64`, as on the 64-bit platforms it is built for, and the
  cast from `unsigned long long` is the identity. `std::stoull` is from `Lib`,
  with its skipped spaces, its sign and its ignored rest.

- `std::isspace` is the one of the `C` locale, which a program starts in.
-/

namespace ASNPrefixMap

open Lib

/-- `Config` of `src/config.h`, with its members in their order. The defaults
are in `Config.defaults`, and the two `double`s are kept as `Float`s: nothing is
computed with them here. -/
structure Config where
  source : Bytes
  inputFile : Bytes
  prefixOutput : Bytes
  asnOutput : Bytes
  risLiveHost : Bytes
  risLivePort : Bytes
  risLiveTarget : Bytes
  maxMessages : UInt64
  snapshotInput : Bytes
  snapshotOutput : Bytes
  statsOutputEnabled : Bool
  statsIntervalMs : UInt64
  stopOnKeypress : Bool
  reconnectEnabled : Bool
  reconnectInitialDelayMs : UInt64
  reconnectMaxDelayMs : UInt64
  reconnectMaxAttempts : UInt64
  plateauDetectionEnabled : Bool
  plateauWindowSamples : UInt64
  plateauPrefixRateThreshold : Float
  plateauMinRuntimeSec : Float

namespace Config

/-- What `load_config` starts from. -/
def defaults : Config where
  source := bytes "file_jsonl"
  inputFile := []
  prefixOutput := []
  asnOutput := []
  risLiveHost := bytes "ris-live.ripe.net"
  risLivePort := bytes "443"
  risLiveTarget := bytes "/v1/ws/"
  maxMessages := 0
  snapshotInput := []
  snapshotOutput := bytes "snapshot.txt"
  statsOutputEnabled := false
  statsIntervalMs := 1000
  stopOnKeypress := false
  reconnectEnabled := true
  reconnectInitialDelayMs := 1000
  reconnectMaxDelayMs := 30000
  reconnectMaxAttempts := 0
  plateauDetectionEnabled := true
  plateauWindowSamples := 300
  plateauPrefixRateThreshold := 5.0
  plateauMinRuntimeSec := 600.0

/-- `trim`, whose two loops drop spaces at the front and then at the back. -/
def trim (value : Bytes) : Bytes := trimWhere isSpace value

/-- `parse_bool`, which accepts two words only. Its message names the value. -/
def parseBool (value : Bytes) : Except Exception Bool :=
  if value = bytes "true" then .ok true
  else if value = bytes "false" then .ok false
  else .error (.runtimeError (bytes "Invalid boolean value in config: " ++ value))

/-- `std::stod`, a parameter: it may throw, and which `double` it returns is of
no account here. -/
abbrev Stod := Bytes → Except Exception Float

variable (stod : Stod)

/-- The chain of comparisons with the known keys; a conversion may throw. A key
that is not known leaves the configuration as it is. -/
def assign (cfg : Config) (key value : Bytes) : Except Exception Config :=
  if key = bytes "source" then
    .ok { cfg with source := value }
  else if key = bytes "input_file" then
    .ok { cfg with inputFile := value }
  else if key = bytes "prefix_output" then
    .ok { cfg with prefixOutput := value }
  else if key = bytes "asn_output" then
    .ok { cfg with asnOutput := value }
  else if key = bytes "ris_live_host" then
    .ok { cfg with risLiveHost := value }
  else if key = bytes "ris_live_port" then
    .ok { cfg with risLivePort := value }
  else if key = bytes "ris_live_target" then
    .ok { cfg with risLiveTarget := value }
  else if key = bytes "max_messages" then do
    return { cfg with maxMessages := ← stoull value }
  else if key = bytes "snapshot_input" then
    .ok { cfg with snapshotInput := value }
  else if key = bytes "snapshot_output" then
    .ok { cfg with snapshotOutput := value }
  else if key = bytes "stats_output_enabled" then do
    return { cfg with statsOutputEnabled := ← parseBool value }
  else if key = bytes "stats_interval_ms" then do
    return { cfg with statsIntervalMs := ← stoull value }
  else if key = bytes "stop_on_keypress" then do
    return { cfg with stopOnKeypress := ← parseBool value }
  else if key = bytes "reconnect_enabled" then do
    return { cfg with reconnectEnabled := ← parseBool value }
  else if key = bytes "reconnect_initial_delay_ms" then do
    return { cfg with reconnectInitialDelayMs := ← stoull value }
  else if key = bytes "reconnect_max_delay_ms" then do
    return { cfg with reconnectMaxDelayMs := ← stoull value }
  else if key = bytes "reconnect_max_attempts" then do
    return { cfg with reconnectMaxAttempts := ← stoull value }
  else if key = bytes "plateau_detection_enabled" then do
    return { cfg with plateauDetectionEnabled := ← parseBool value }
  else if key = bytes "plateau_window_samples" then do
    return { cfg with plateauWindowSamples := ← stoull value }
  else if key = bytes "plateau_prefix_rate_threshold" then do
    return { cfg with plateauPrefixRateThreshold := ← stod value }
  else if key = bytes "plateau_min_runtime_sec" then do
    return { cfg with plateauMinRuntimeSec := ← stod value }
  else
    .ok cfg

/-- The character between key and value. -/
def equalsSign : UInt8 := 61
/-- The character a comment starts with. -/
def hash : UInt8 := 35

/-- The key and the value of a line, if it is to assign anything. -/
def lineAssignment (line : Bytes) : Option (Bytes × Bytes) :=
  let line := trim line
  if line = [] ∨ line.head? = some hash then none
  else if equalsSign ∉ line then none
  -- the first `=` ends the key, later ones belong to the value
  else some (trim (line.takeWhile (· != equalsSign)), trim (line.dropWhile (· != equalsSign)).tail)

/-- The body of the loop over the lines: the three `continue`s are `none`. -/
def applyLine (cfg : Config) (line : Bytes) : Except Exception Config :=
  match lineAssignment line with
  | none => .ok cfg
  | some (key, value) => assign stod cfg key value

/-- `load_config`; `input` is the content of the file, if it can be opened. -/
def loadConfig (path : Bytes) (input : Option Bytes) : Except Exception Config :=
  match input with
  | none => .error (.runtimeError (bytes "Failed to open config file: " ++ path))
  | some text => (getLines text).foldlM (applyLine stod) defaults

example : ((loadConfig (fun _ => .ok 1.0) (bytes "config.ini")
    (some (bytes " # limits\n max_messages = 10 \n[x]\nmax_messages=20"))).map Config.maxMessages) =
      .ok 20 := by decide

end Config

end ASNPrefixMap
