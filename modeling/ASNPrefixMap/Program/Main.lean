import Mathlib.Logic.Function.Basic
import ASNPrefixMap.Config.Load
import ASNPrefixMap.Ingest.StatsFile
import ASNPrefixMap.Routing.Export
import ASNPrefixMap.Snapshot.Format
import ASNPrefixMap.Source.FileJsonl
import ASNPrefixMap.Source.WebSocket

/-!
# The program

`main` in `src/main.cpp`: the configuration, the snapshot if there is one, the
statistics file, the source, the loop, and at its end the final sample, the
snapshot and the two tables. What the code does not decide stands in
`Surroundings`: the clocks, the orders in which hash maps are walked, the
network, and the two stop flags, which are read again and again and which
nothing clears. `main` runs over the files it finds (`Files`), and an exception
leaves them as they are at that moment; it is caught outside, where it becomes
exit code 1. The live source may run for ever, so the loop carries a bound and
says `running` when that is used up.

Console output is left out, and with it everything that only feeds it.

Mirroring notes:

- `main` is the `try` block of the source's `main`, in its order: configuration,
  snapshot, tracker, statistics file, source, loop, and the outputs;
  `runProgram` is the `catch` around it.
- Files are a map from paths to contents. That a path can be read, and that it
  can be written, is known beforehand and does not change while the program
  runs; nobody else writes to a file meanwhile, and an `ofstream` that has been
  opened takes everything.
- The input of a replay is read whole when it is opened, see `createSource`.
- `export_tables` has two streams open together. On two paths their order does
  not matter; on one path they overlay each other (`overlaid`), and
  `Files.flushed` is how much of the first is out before the second is closed.
- The thread that waits for a key is a flag, as is the handler of the signals;
  both are read at moments counted by `readings`, and may be set between any two
  of them.
- The two clocks give rational numbers of seconds. `next_stats_sample_at` stands
  in the sampler, see `ASNPrefixMap.Ingest.Sampling`.
- A read of the live source returns, if only with an exception. The code sets no
  timeout, and its own comment says that a blocking read may delay a shutdown.
-/

namespace ASNPrefixMap.Program

open Lib Prefix Peer Routing Stats Ingest Snapshot Source
open ASNPrefixMap.Parser

/-! ## Files -/

/-- Files by path, and what streams on them do. Two paths are two files: links
and other spellings of a path are not modelled. -/
structure Files where
  content : Bytes → Option Bytes
  readable : Bytes → Bool
  /-- An `ofstream` opens, and makes the file if there is none. -/
  writable : Bytes → Bool
  /-- How much of a text reaches the file before its `ofstream` is closed. The
  rest waits in the buffer of the stream. -/
  flushed : Bytes → Nat

/-- `std::filesystem::exists`. -/
def Files.exist (files : Files) (path : Bytes) : Bool := (files.content path).isSome

/-- What an `ifstream` reads, if it opens. -/
def Files.opened (files : Files) (path : Bytes) : Option Bytes :=
  if files.readable path then files.content path else none

/-- A file written from its start. What it held before is gone. -/
def Files.write (files : Files) (path text : Bytes) : Files :=
  { files with content := Function.update files.content path (some text) }

/-- An `ofstream` nobody checks. -/
def Files.writeIfOpens (files : Files) (path text : Bytes) : Files :=
  if files.writable path then files.write path text else files

/-- A text written from position `start` on over what a file holds. -/
def overwriteFrom (file : Bytes) (start : Nat) (text : Bytes) : Bytes :=
  file.take start ++ text ++ file.drop (start + text.length)

/-- What two streams leave that were open on one file, each with a position of
its own, when the second is closed first: the end of the first text was still in
its buffer and comes last. -/
def overlaid (flushed : Nat) (first second : Bytes) : Bytes :=
  overwriteFrom (overwriteFrom (first.take flushed) 0 second) flushed (first.drop flushed)

/-- The two streams of `export_tables`, which are open together. The stream of
the AS table was opened last and is closed first. -/
def Files.writeTables (files : Files) (prefixOutput asnOutput : Bytes) (tables : Bytes × Bytes) :
    Files :=
  if prefixOutput = asnOutput then
    files.writeIfOpens prefixOutput
      (overlaid (min (files.flushed tables.1) tables.1.length) tables.1 tables.2)
  else
    (files.writeIfOpens prefixOutput tables.1).writeIfOpens asnOutput tables.2

-- half of the first text is out before the second stream is closed, the other half comes after it
example : overlaid 3 (bytes "abcdef") (bytes "vwxyz") = bytes "vwxdef" := by decide

/-! ## Surroundings -/

/-- The two flags `shutdown_requested` looks at, at their successive readings.
Nothing clears them, so once set they stay set. -/
structure StopFlags where
  keyPressed : Nat → Bool
  signalled : Nat → Bool
  keyPressed_stays : ∀ n, keyPressed n = true → keyPressed (n + 1) = true
  signalled_stays : ∀ n, signalled n = true → signalled (n + 1) = true

/-- When a round of the loop begins: with the loop, or after the round
before. -/
def headAt (armedAt : Rat) (round : Nat → Clock) : Nat → Rat
  | 0 => armedAt
  | n + 1 => (round n).rearmedAt

/-- While no time passes, every round begins at the start. -/
theorem headAt_still {round : Nat → Clock} (h : ∀ n, (round n).rearmedAt = 0) (n : Nat) :
    headAt 0 round n = 0 := by
  cases n with
  | zero => rfl
  | succ n => exact h n

/-- The clock readings of a run, none before the one it follows. The steady
clock is read before and after each sample, and the system clock only names the
moment in a row. -/
structure Clocks where
  startedAt : Rat
  armedAt : Rat
  round : Nat → Clock
  finalAt : Nat → Rat
  finalTimestampMs : Nat → UInt64
  armedAt_ge : startedAt ≤ armedAt
  checkedAt_ge : ∀ n, headAt armedAt round n ≤ (round n).checkedAt
  finalAt_ge : ∀ n, headAt armedAt round n ≤ finalAt n

/-- The orders in which the loops of a run meet the entries of hash maps. Each
loop has its own, and each round of the main loop has, for a map may be rehashed
at any moment. -/
structure RunOrders where
  peers : IterOrder PeerId PeerInfo
  load : HashOrders
  seed : HashOrders
  round : Nat → HashOrders
  save : HashOrders
  tables : ExportOrders

/-- What a run meets: libraries, time, the operator and the network. All of it
is fixed before the run and arbitrary, so a statement about every `Surroundings`
is about every run. -/
structure Surroundings where
  jsonParse : JsonParse
  net : Inet
  stod : Config.Stod
  /-- The number a `double` is. -/
  toRat : Float → Rat
  flags : StopFlags
  clocks : Clocks
  orders : RunOrders
  network : Nat → NetworkAnswer
  /-- The start time as `%Y-%m-%d_%H%M%S`. -/
  localTime : Bytes

variable (s : Surroundings)

/-- `shutdown_requested`. Without `stop_on_keypress` nobody waits for the
key. -/
def Surroundings.shutdownRequested (cfg : Config) (reading : Nat) : Bool :=
  (cfg.stopOnKeypress && s.flags.keyPressed reading) || s.flags.signalled reading

/-- `make_stats_filename`. It is a name in the working directory, made once for
each run. -/
def Surroundings.makeStatsFilename : Bytes := bytes "stats_" ++ s.localTime ++ bytes ".csv"

/-! ## The source -/

/-- The two implementations of `BgpSource`, behind its `unique_ptr`. -/
inductive BgpSource
  | fileJsonl (source : FileJsonlSource)
  | risLiveWs (machine : Machine)

/-- `create_source`. A file is taken as it stands when the source opens it. The
code reads it line by line, which comes to the same unless the run writes to it
meanwhile: the statistics file is the only one that a run writes before its loop
is over. -/
def createSource (cfg : Config) (files : Files) : Except Exception BgpSource :=
  if cfg.source = bytes "file_jsonl" then do
    let source ← FileJsonlSource.create cfg.inputFile (files.opened cfg.inputFile)
    return .fileJsonl source
  else if cfg.source = bytes "ris_live_ws" then
    .ok (.risLiveWs (.start
      (.new cfg.risLiveHost cfg.risLivePort cfg.risLiveTarget cfg.reconnectEnabled
        cfg.reconnectInitialDelayMs cfg.reconnectMaxDelayMs cfg.reconnectMaxAttempts)
      { shutdown := s.shutdownRequested cfg, network := s.network }))
  else
    .error (.runtimeError (bytes "Unsupported source: " ++ cfg.source))

/-! ## The loop -/

/-- The variables of `main` while it loops, and how often the stop flags have
been read. The live source reads the same flags, so its count goes on from here
and comes back. -/
structure MainState where
  source : BgpSource
  sampler : Sampler
  readings : Nat := 0

/-- Code of the loop: it changes the variables of `main` and may throw. -/
abbrev LoopM := EStateM Exception MainState

/-- How many messages have been counted; it is the number of rounds the loop has
gone. -/
def MainState.rounds (state : MainState) : Nat := state.sampler.world.stats.rawMessagesReceived

/-- One more reading of a flag. -/
def readFlag (flag : Nat → Bool) : LoopM Bool := do
  let state ← get
  set { state with readings := state.readings + 1 }
  return flag state.readings

/-- `source->next_message(message)`: true with a message, or false. -/
def nextMessage (fuel : Nat) : LoopM (Progress (Option Bytes)) := do
  let state ← get
  match state.source with
  | .fileJsonl source => do
    set { state with source := .fileJsonl source.nextMessage.2 }
    return .returned source.nextMessage.1
  | .risLiveWs machine =>
    -- the callback of the source reads the same flags, from here on
    match (Source.nextMessage fuel).run { machine with checks := state.readings } with
    | .ok json machine => do
      set { state with source := .risLiveWs machine, readings := machine.checks }
      return json
    | .error e machine => do
      set { state with source := .risLiveWs machine, readings := machine.checks }
      throw e

/-- The body of the loop for a message, with the sample that may follow. -/
def ingestRound (cfg : Config) (message : Bytes) : LoopM Unit := do
  let state ← get
  let round := state.rounds
  match (ingestMessage s.jsonParse s.net (s.orders.round round) message).run state.sampler.world with
  | .ok _ world =>
    set { state with
      sampler := { state.sampler with world := world }.periodicSample cfg.statsOutputEnabled
        cfg.statsIntervalMs.toNat (s.clocks.round round) }
  | .error e world => do
    set { state with sampler := { state.sampler with world := world } }
    throw e

/-- The `while` loop of `main`. A message that has been read while a signal came
in is dropped, neither counted nor ingested. -/
def mainLoop (cfg : Config) : Nat → LoopM (Progress Unit)
  | 0 => return .running
  | fuel + 1 => do
    if ← readFlag (s.shutdownRequested cfg) then
      return .returned ()
    else
      match ← nextMessage fuel with
      | .running => return .running
      | .returned none => return .returned ()
      | .returned (some message) => do
        if ← readFlag s.flags.signalled then
          -- the message just read is dropped
          return .returned ()
        else do
          ingestRound s cfg message
          let state ← get
          if cfg.maxMessages ≠ 0 ∧ state.rounds ≥ cfg.maxMessages.toNat then
            return .returned ()
          else
            mainLoop cfg fuel

/-! ## Before and after the loop -/

/-- Code of the program: it changes files and may throw. -/
abbrev ProgramM := EStateM Exception Files

/-- The snapshot, if one is configured and there. One that is there and cannot
be read or understood ends the run. -/
def loadStore (cfg : Config) (files : Files) : Except Exception Store :=
  if cfg.snapshotInput ≠ [] ∧ files.exist cfg.snapshotInput then
    match (loadSnapshot s.net s.orders.load s.orders.peers cfg.snapshotInput
        (files.opened cfg.snapshotInput)).run {} with
    | .ok _ store => .ok store
    | .error e _ => .error e
  else
    .ok {}

/-- The settings of the tracker. They are `double`s in the configuration and are
compared as the numbers they are. -/
def plateauSettings (cfg : Config) : PlateauSettings where
  enabled := cfg.plateauDetectionEnabled
  windowSamples := cfg.plateauWindowSamples.toNat
  prefixRateThreshold := s.toRat cfg.plateauPrefixRateThreshold
  minRuntimeSec := s.toRat cfg.plateauMinRuntimeSec

/-- The objects at the start of the loop, the tracker seeded from what was
loaded. -/
def startWorld (cfg : Config) (store : Store) : World :=
  seededWorld store.registry store.state {} (plateauSettings s cfg) s.clocks.startedAt s.orders.seed

/-- The variables of `main` when its loop begins. The first sample is due one
interval after the start. -/
def startState (cfg : Config) (store : Store) (source : BgpSource) : MainState where
  source := source
  sampler :=
    { world := startWorld s cfg store
      nextStatsSampleAt :=
        if cfg.statsOutputEnabled then s.clocks.armedAt + cfg.statsIntervalMs.toNat / 1000 else 0 }

/-- The statistics file, opened before the source. It holds its header from then
on, for the writer flushes each line. -/
def openStats (cfg : Config) : ProgramM Unit :=
  if cfg.statsOutputEnabled then do
    let files ← get
    match StatsCsvWriter.create s.makeStatsFilename (files.writable s.makeStatsFilename) with
    | .error e => throw e
    | .ok writer => set (files.write s.makeStatsFilename writer.output)
  else
    return ()

/-- The statistics file as far as it has been written; every row is flushed. -/
def writeStats (cfg : Config) (sampler : Sampler) : ProgramM Unit :=
  if cfg.statsOutputEnabled then
    modify fun files => files.write s.makeStatsFilename (statsText sampler.statsRows)
  else
    return ()

/-- `save_snapshot` and `export_tables`, with the files they write. The snapshot
is checked when it is opened; the tables are not, so one that does not open is
not written and nobody is told. -/
def saveAll (cfg : Config) (store : Store) : ProgramM Unit := do
  let files ← get
  match saveSnapshot s.net s.orders.save cfg.snapshotOutput (files.writable cfg.snapshotOutput)
      store with
  | .error e => throw e
  | .ok saved =>
    let files := files.write cfg.snapshotOutput saved.1
    match store.state.exportTables s.net s.orders.tables with
    | .error e => do
      -- both streams are open by then; whatever they print first is left out, for it does not come
      -- to this in a run (`main_ending`)
      set ((files.writeIfOpens cfg.prefixOutput []).writeIfOpens cfg.asnOutput [])
      throw e
    | .ok tables =>
      set (files.writeTables cfg.prefixOutput cfg.asnOutput tables)

/-- What comes after the loop: the final sample, and then the outputs. -/
def finish (cfg : Config) (state : MainState) : ProgramM Unit := do
  let sampler := state.sampler.finalSample cfg.statsOutputEnabled (s.clocks.finalAt state.rounds)
    (s.clocks.finalTimestampMs state.rounds)
  writeStats s cfg sampler
  saveAll s cfg ⟨sampler.world.registry, sampler.world.state⟩

/-- The path of the configuration is fixed, in the working directory. -/
def configFile : Bytes := bytes "config.ini"

/-- Everything that only reads files. -/
def prepare (files : Files) : Except Exception (Config × Store) := do
  let cfg ← Config.loadConfig s.stod configFile (files.opened configFile)
  let store ← loadStore s cfg files
  return (cfg, store)

/-- The `try` block of `main`. -/
def main (fuel : Nat) : ProgramM (Progress Unit) := do
  let files ← get
  match prepare s files with
  | .error e => throw e
  | .ok (cfg, store) => do
    openStats s cfg
    let files ← get
    match createSource s cfg files with
    | .error e => throw e
    | .ok source =>
      match (mainLoop s cfg fuel).run (startState s cfg store source) with
      | .error e state => do
        writeStats s cfg state.sampler
        throw e
      | .ok .running state => do
        writeStats s cfg state.sampler
        return .running
      | .ok (.returned _) state => do
        finish s cfg state
        return .returned ()

/-- The exit code, if the program ends, and the files it leaves. All exceptions
are caught, and exit code 1 is all that is seen of them here. -/
def runProgram (fuel : Nat) (files : Files) : Progress Nat × Files :=
  match (main s fuel).run files with
  | .error _ files => (.returned 1, files)
  | .ok .running files => (.running, files)
  | .ok (.returned _) files => (.returned 0, files)

/-! ## A quiet run -/

/-- All maps walked in the order of their keys. -/
def RunOrders.ascending : RunOrders where
  peers := .byKey UInt32.toNat toNat_injective
  load := .ascending
  seed := .ascending
  round _ := .ascending
  save := .ascending
  tables := .ascending

/-- Nobody stops the program, nobody answers it, and no time passes. -/
def quiet (jsonParse : JsonParse) : Surroundings where
  jsonParse := jsonParse
  net := .standard
  stod _ := .ok 1.0
  toRat _ := 0
  flags :=
    { keyPressed := fun _ => false
      signalled := fun _ => false
      keyPressed_stays := fun _ h => h
      signalled_stays := fun _ h => h }
  clocks :=
    { startedAt := 0
      armedAt := 0
      round := fun _ =>
        { checkedAt := 0, sampledAt := 0, timestampMs := 0, rearmedAt := 0
          sampledAt_ge := le_refl 0, rearmedAt_ge := le_refl 0 }
      finalAt := fun _ => 0
      finalTimestampMs := fun _ => 0
      armedAt_ge := le_refl 0
      checkedAt_ge := fun n => (headAt_still (fun _ => rfl) n).le
      finalAt_ge := fun n => (headAt_still (fun _ => rfl) n).le }
  orders := .ascending
  network _ := { succeeds := false }
  localTime := bytes "2024-03-09_160000"

/-- The configuration of a quiet run. -/
def quietConfigText : Bytes :=
  bytes "input_file=events.jsonl\nprefix_output=prefixes.tsv\nasn_output=asns.tsv\n" ++
  bytes "snapshot_input=snapshot.txt\nsnapshot_output=snapshot.txt\nstats_output_enabled=true\n"

/-- What `load_config` makes of it. -/
def quietConfig : Config :=
  { Config.defaults with
    inputFile := bytes "events.jsonl"
    prefixOutput := bytes "prefixes.tsv"
    asnOutput := bytes "asns.tsv"
    snapshotInput := bytes "snapshot.txt"
    snapshotOutput := bytes "snapshot.txt"
    statsOutputEnabled := true }

theorem loadConfig_quiet (jsonParse : JsonParse) :
    Config.loadConfig (quiet jsonParse).stod configFile (some quietConfigText) = .ok quietConfig := rfl

/-- The messages of a quiet run are not in its statistics file. -/
theorem inputFile_ne_stats (jsonParse : JsonParse) :
    quietConfig.inputFile ≠ (quiet jsonParse).makeStatsFilename := by
  show bytes "events.jsonl" ≠ bytes "stats_" ++ bytes "2024-03-09_160000" ++ bytes ".csv"
  decide

/-- A directory with a configuration and some messages, open for everything. -/
def quietFiles (messages : List Bytes) : Files where
  content path :=
    if path = configFile then some quietConfigText
    else if path = bytes "events.jsonl" then some (unlines messages)
    else none
  readable _ := true
  writable _ := true
  flushed _ := 0

theorem prepare_quiet (jsonParse : JsonParse) (messages : List Bytes) :
    prepare (quiet jsonParse) (quietFiles messages) = .ok (quietConfig, {}) := rfl

end ASNPrefixMap.Program
