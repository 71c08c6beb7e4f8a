import ASNPrefixMap.Config.Load

/-!
# Keys and fields

The chain of `assign` as a table. A key has a name, a field it reads and writes,
and a conversion for its values (`Key.name`, `Key.get`, `Key.set`,
`Key.convert`); `assign` finds the key of a name and writes the converted value
to its field (`assign_name`, `assign_of_unknown`), and no key writes the field
of another (`Key.get_set_ne`).

The two functions `Key.get` and `Key.set` follow the fields of `Config` one by
one, and are the only place besides `assign` where they are listed. What is
proved of a load is proved for a key.
-/

namespace ASNPrefixMap.Config

open Lib

/-- The keys whose value is taken as it stands. -/
inductive TextKey
  | source
  | inputFile
  | prefixOutput
  | asnOutput
  | risLiveHost
  | risLivePort
  | risLiveTarget
  | snapshotInput
  | snapshotOutput
  deriving DecidableEq

/-- The keys of the integer fields. -/
inductive NumberKey
  | maxMessages
  | statsIntervalMs
  | reconnectInitialDelayMs
  | reconnectMaxDelayMs
  | reconnectMaxAttempts
  | plateauWindowSamples
  deriving DecidableEq

/-- The keys of the boolean fields. -/
inductive FlagKey
  | statsOutputEnabled
  | stopOnKeypress
  | reconnectEnabled
  | plateauDetectionEnabled
  deriving DecidableEq

/-- The keys of the `double` fields. -/
inductive RealKey
  | plateauPrefixRateThreshold
  | plateauMinRuntimeSec
  deriving DecidableEq

/-- The keys that `load_config` knows, by the type of their fields. The chain of
comparisons in the code is one case for each of them; a key that is none is
passed over. -/
inductive Key
  | text (key : TextKey)
  | number (key : NumberKey)
  | flag (key : FlagKey)
  | real (key : RealKey)
  deriving DecidableEq

/-- How a key is spelled in a file. -/
def Key.name : Key → Bytes
  | .text .source => bytes "source"
  | .text .inputFile => bytes "input_file"
  | .text .prefixOutput => bytes "prefix_output"
  | .text .asnOutput => bytes "asn_output"
  | .text .risLiveHost => bytes "ris_live_host"
  | .text .risLivePort => bytes "ris_live_port"
  | .text .risLiveTarget => bytes "ris_live_target"
  | .text .snapshotInput => bytes "snapshot_input"
  | .text .snapshotOutput => bytes "snapshot_output"
  | .number .maxMessages => bytes "max_messages"
  | .number .statsIntervalMs => bytes "stats_interval_ms"
  | .number .reconnectInitialDelayMs => bytes "reconnect_initial_delay_ms"
  | .number .reconnectMaxDelayMs => bytes "reconnect_max_delay_ms"
  | .number .reconnectMaxAttempts => bytes "reconnect_max_attempts"
  | .number .plateauWindowSamples => bytes "plateau_window_samples"
  | .flag .statsOutputEnabled => bytes "stats_output_enabled"
  | .flag .stopOnKeypress => bytes "stop_on_keypress"
  | .flag .reconnectEnabled => bytes "reconnect_enabled"
  | .flag .plateauDetectionEnabled => bytes "plateau_detection_enabled"
  | .real .plateauPrefixRateThreshold => bytes "plateau_prefix_rate_threshold"
  | .real .plateauMinRuntimeSec => bytes "plateau_min_runtime_sec"

/-- The type of a field. -/
abbrev Key.Value : Key → Type
  | .text _ => Bytes
  | .number _ => UInt64
  | .flag _ => Bool
  | .real _ => Float

/-- The value of the field of a key. -/
def Key.get (cfg : Config) : (key : Key) → key.Value
  | .text .source => cfg.source
  | .text .inputFile => cfg.inputFile
  | .text .prefixOutput => cfg.prefixOutput
  | .text .asnOutput => cfg.asnOutput
  | .text .risLiveHost => cfg.risLiveHost
  | .text .risLivePort => cfg.risLivePort
  | .text .risLiveTarget => cfg.risLiveTarget
  | .text .snapshotInput => cfg.snapshotInput
  | .text .snapshotOutput => cfg.snapshotOutput
  | .number .maxMessages => cfg.maxMessages
  | .number .statsIntervalMs => cfg.statsIntervalMs
  | .number .reconnectInitialDelayMs => cfg.reconnectInitialDelayMs
  | .number .reconnectMaxDelayMs => cfg.reconnectMaxDelayMs
  | .number .reconnectMaxAttempts => cfg.reconnectMaxAttempts
  | .number .plateauWindowSamples => cfg.plateauWindowSamples
  | .flag .statsOutputEnabled => cfg.statsOutputEnabled
  | .flag .stopOnKeypress => cfg.stopOnKeypress
  | .flag .reconnectEnabled => cfg.reconnectEnabled
  | .flag .plateauDetectionEnabled => cfg.plateauDetectionEnabled
  | .real .plateauPrefixRateThreshold => cfg.plateauPrefixRateThreshold
  | .real .plateauMinRuntimeSec => cfg.plateauMinRuntimeSec

/-- The configuration with another value in the field of a key. -/
def Key.set (cfg : Config) : (key : Key) → key.Value → Config
  | .text .source, v => { cfg with source := v }
  | .text .inputFile, v => { cfg with inputFile := v }
  | .text .prefixOutput, v => { cfg with prefixOutput := v }
  | .text .asnOutput, v => { cfg with asnOutput := v }
  | .text .risLiveHost, v => { cfg with risLiveHost := v }
  | .text .risLivePort, v => { cfg with risLivePort := v }
  | .text .risLiveTarget, v => { cfg with risLiveTarget := v }
  | .text .snapshotInput, v => { cfg with snapshotInput := v }
  | .text .snapshotOutput, v => { cfg with snapshotOutput := v }
  | .number .maxMessages, v => { cfg with maxMessages := v }
  | .number .statsIntervalMs, v => { cfg with statsIntervalMs := v }
  | .number .reconnectInitialDelayMs, v => { cfg with reconnectInitialDelayMs := v }
  | .number .reconnectMaxDelayMs, v => { cfg with reconnectMaxDelayMs := v }
  | .number .reconnectMaxAttempts, v => { cfg with reconnectMaxAttempts := v }
  | .number .plateauWindowSamples, v => { cfg with plateauWindowSamples := v }
  | .flag .statsOutputEnabled, v => { cfg with statsOutputEnabled := v }
  | .flag .stopOnKeypress, v => { cfg with stopOnKeypress := v }
  | .flag .reconnectEnabled, v => { cfg with reconnectEnabled := v }
  | .flag .plateauDetectionEnabled, v => { cfg with plateauDetectionEnabled := v }
  | .real .plateauPrefixRateThreshold, v => { cfg with plateauPrefixRateThreshold := v }
  | .real .plateauMinRuntimeSec, v => { cfg with plateauMinRuntimeSec := v }

/-- The conversion of a value. A text is taken as it stands. -/
def Key.convert (stod : Stod) : (key : Key) → Bytes → Except Exception key.Value
  | .text _, value => .ok value
  | .number _, value => stoull value
  | .flag _, value => parseBool value
  | .real _, value => stod value

/-- A configuration is its fields. -/
theorem ext_get {cfg cfg' : Config} (h : ∀ key : Key, key.get cfg = key.get cfg') : cfg = cfg' := by
  cases cfg
  cases cfg'
  congr 1
  · exact h (.text .source)
  · exact h (.text .inputFile)
  · exact h (.text .prefixOutput)
  · exact h (.text .asnOutput)
  · exact h (.text .risLiveHost)
  · exact h (.text .risLivePort)
  · exact h (.text .risLiveTarget)
  · exact h (.number .maxMessages)
  · exact h (.text .snapshotInput)
  · exact h (.text .snapshotOutput)
  · exact h (.flag .statsOutputEnabled)
  · exact h (.number .statsIntervalMs)
  · exact h (.flag .stopOnKeypress)
  · exact h (.flag .reconnectEnabled)
  · exact h (.number .reconnectInitialDelayMs)
  · exact h (.number .reconnectMaxDelayMs)
  · exact h (.number .reconnectMaxAttempts)
  · exact h (.flag .plateauDetectionEnabled)
  · exact h (.number .plateauWindowSamples)
  · exact h (.real .plateauPrefixRateThreshold)
  · exact h (.real .plateauMinRuntimeSec)

/-- A field has the value that was written to it. -/
theorem Key.get_set_self (cfg : Config) (key : Key) (v : key.Value) :
    key.get (key.set cfg v) = v := by
  rcases key with key | key | key | key <;> cases key <;> rfl

/-- No key writes the field of another. All pairs of keys are checked. -/
theorem Key.get_set_ne (cfg : Config) {key other : Key} (h : other ≠ key) (v : key.Value) :
    other.get (key.set cfg v) = other.get cfg := by
  rcases key with key | key | key | key <;> cases key <;>
    (rcases other with other | other | other | other <;> cases other <;> first | rfl | exact absurd rfl h)

/-- A known name assigns its field. -/
theorem assign_name (stod : Stod) (cfg : Config) (key : Key) (value : Bytes) :
    assign stod cfg key.name value = (do
      return key.set cfg (← key.convert stod value)) := by
  rcases key with key | key | key | key <;> cases key <;> rfl

/-- A name that is not known assigns nothing. -/
theorem assign_of_unknown (stod : Stod) (cfg : Config) {name : Bytes}
    (h : ∀ key : Key, name ≠ key.name) (value : Bytes) : assign stod cfg name value = .ok cfg := by
  refine (if_neg (h (.text .source))).trans ?_
  refine (if_neg (h (.text .inputFile))).trans ?_
  refine (if_neg (h (.text .prefixOutput))).trans ?_
  refine (if_neg (h (.text .asnOutput))).trans ?_
  refine (if_neg (h (.text .risLiveHost))).trans ?_
  refine (if_neg (h (.text .risLivePort))).trans ?_
  refine (if_neg (h (.text .risLiveTarget))).trans ?_
  refine (if_neg (h (.number .maxMessages))).trans ?_
  refine (if_neg (h (.text .snapshotInput))).trans ?_
  refine (if_neg (h (.text .snapshotOutput))).trans ?_
  refine (if_neg (h (.flag .statsOutputEnabled))).trans ?_
  refine (if_neg (h (.number .statsIntervalMs))).trans ?_
  refine (if_neg (h (.flag .stopOnKeypress))).trans ?_
  refine (if_neg (h (.flag .reconnectEnabled))).trans ?_
  refine (if_neg (h (.number .reconnectInitialDelayMs))).trans ?_
  refine (if_neg (h (.number .reconnectMaxDelayMs))).trans ?_
  refine (if_neg (h (.number .reconnectMaxAttempts))).trans ?_
  refine (if_neg (h (.flag .plateauDetectionEnabled))).trans ?_
  refine (if_neg (h (.number .plateauWindowSamples))).trans ?_
  refine (if_neg (h (.real .plateauPrefixRateThreshold))).trans ?_
  exact if_neg (h (.real .plateauMinRuntimeSec))

end ASNPrefixMap.Config
