import ASNPrefixMap.Ingest.Rerun
import ASNPrefixMap.Program.Deployment
import ASNPrefixMap.Program.Live

/-!
# A recorded run

The replay source is there for raw messages stored one per line. A run that
ended well, whatever its source was, can be recorded so: a replay of the
messages it has ingested, from the same snapshot or none, ends well too, and
leaves the same snapshot, byte by byte, and the same lines in both tables
(`recording_replays`). Clocks, orders of hash maps, paths and statistics may
differ.

For this the replay must be able to write its snapshot and its statistics, and
to read all of the messages: neither `max_messages` nor a stop may end it
before. Each run has three files for its three outputs. The messages are fewer
than there are ids for peers, so that none of them meets an id that is taken.
-/

namespace ASNPrefixMap.Program

open Lib Prefix Peer Routing Stats Ingest Snapshot Source
open ASNPrefixMap.Parser

/-- A run that is about to replay these messages, all of them and from this
store. Its snapshot and its statistics file open, and its outputs are three
files. -/
structure ReplayOf (s : Surroundings) (cfg : Config) (files : Files) (store : Store)
    (texts : List Bytes) : Prop where
  prepared : prepare s files = .ok (cfg, store)
  source : cfg.source = bytes "file_jsonl"
  recorded : files.opened cfg.inputFile = some (unlines texts)
  inputApart : cfg.inputFile ≠ s.makeStatsFilename
  whole : replayLength s cfg texts = texts.length
  statsOpen : cfg.statsOutputEnabled = true → files.writable s.makeStatsFilename = true
  snapshotOpen : files.writable cfg.snapshotOutput = true
  apart : OutputsApart cfg

/-- The two tables, as far as they could be opened. A table that could not is
not compared. -/
structure ShowsRows (cfg : Config) (files : Files) (prefixRows : List (Bytes × UInt32))
    (asnRows : List (UInt32 × List Bytes)) : Prop where
  prefixes : files.writable cfg.prefixOutput = true →
    files.content cfg.prefixOutput = some (unlines (prefixRows.map prefixLine))
  asns : files.writable cfg.asnOutput = true →
    files.content cfg.asnOutput = some (unlines (asnRows.map fun row => asnLine row.1 row.2))

/-- One snapshot, and the same lines in the tables. -/
structure SameOutputs (cfg : Config) (files : Files) (cfg' : Config) (files' : Files) : Prop where
  snapshot : ∃ text, files.content cfg.snapshotOutput = some text ∧
    files'.content cfg'.snapshotOutput = some text
  tables : ∃ prefixRows prefixRows' asnRows asnRows',
    ShowsRows cfg files prefixRows asnRows ∧ ShowsRows cfg' files' prefixRows' asnRows' ∧
    prefixRows.Perm prefixRows' ∧ asnRows.Perm asnRows'

variable {s s' : Surroundings} {cfg cfg' : Config}

/-- Whether messages can be ingested is up to the libraries. -/
theorem Usable.congr {texts : List Bytes} (h : Usable s texts) (hparse : s'.jsonParse = s.jsonParse)
    (hsame : s'.net = s.net) : Usable s' texts := by
  unfold Usable
  rw [hparse, hsame]
  exact h

/-- What a run starts from does not depend on its surroundings but for the
libraries. -/
theorem StartsFrom.congr {before texts : List Bytes} {store : Store}
    (h : StartsFrom s before texts store) (hparse : s'.jsonParse = s.jsonParse)
    (hsame : s'.net = s.net) : StartsFrom s' before texts store where
  room := hparse ▸ h.room
  holds := by
    rw [hparse, hsame]
    exact h.holds

/-- The ids at a loop head are those the messages make. -/
theorem Reached.registry_eq {store : Store} {texts : List Bytes} {sampler : Sampler}
    (h : Reached s cfg (startWorld s cfg store) texts sampler) :
    sampler.world.registry = texts.foldl (registryAfter s.jsonParse) store.registry := by
  obtain ⟨log, hloop, rfl⟩ := h.loop
  exact hloop.registry_eq

/-- Two runs that have ingested the same messages leave the same outputs. -/
theorem sameOutputs_of_ingested (hparse : s'.jsonParse = s.jsonParse) (hsame : s'.net = s.net)
    (hnet : s.net.RoundTrips) (htells : s.net.TellsApart) {fuel fuel' : Nat}
    {files filesEnd files' filesEnd' : Files} {store : Store} {before texts : List Bytes}
    {state state' : MainState} (hstart : StartsFrom s before texts store)
    (h : Ingested s fuel files cfg store texts state)
    (hrun : (main s fuel).run files = .ok (.returned ()) filesEnd) (hapart : OutputsApart cfg)
    (h' : Ingested s' fuel' files' cfg' store texts state')
    (hrun' : (main s' fuel').run files' = .ok (.returned ()) filesEnd') (hapart' : OutputsApart cfg') :
    SameOutputs cfg filesEnd cfg' filesEnd' := by
  have hwritten := (h.outputsWritten hrun).1
  have hwritten' := (h'.outputsWritten hrun').1
  have hholds := h.reached.holds hstart
  have hholds' := h'.reached.holds (hstart.congr hparse hsame)
  have hleft := hwritten.tablesLeft hapart htells hholds
  have hleft' := hwritten'.tablesLeft hapart' (hsame ▸ htells) hholds'
  rw [hparse, hsame] at hholds' hleft'
  constructor
  · obtain ⟨saved, hsave, hcontent⟩ := hwritten.snapshot
    obtain ⟨saved', hsave', hcontent'⟩ := hwritten'.snapshot
    obtain ⟨S, limit, -, hinv, hmap⟩ := hholds
    obtain ⟨S', limit', -, hinv', hmap'⟩ := hholds'
    -- the messages have given both the same ids
    have hregistry : state'.sampler.world.registry = state.sampler.world.registry := by
      rw [h'.reached.registry_eq, h.reached.registry_eq, hparse]
    rw [hregistry] at hinv' hmap'
    have hstore : storeOf state'.sampler =
        ⟨state.sampler.world.registry, state'.sampler.world.state⟩ :=
      congrArg (Store.mk · _) hregistry
    rw [hsame, hstore] at hsave'
    obtain rfl := hinv.saveSnapshot_eq hnet hinv' (hmap.trans hmap'.symm) hsave hsave'
    exact ⟨saved.1, hcontent hapart.snapshot_prefix hapart.snapshot_asn,
      hcontent' hapart'.snapshot_prefix hapart'.snapshot_asn⟩
  · obtain ⟨prefixRows, asnRows, htables, hpfx, hasn⟩ := hleft
    obtain ⟨prefixRows', asnRows', htables', hpfx', hasn'⟩ := hleft'
    obtain ⟨hprefixes, hasns⟩ := htables.perm htells htables'
    exact ⟨prefixRows, prefixRows', asnRows, asnRows', ⟨hpfx, hasn⟩, ⟨hpfx', hasn'⟩, hprefixes,
      hasns⟩

/-- **A run can be replayed from its record.** Of a run that ended well, store
the messages it has ingested one per line: a replay of them all ends well and
leaves the same outputs. What the first run was stopped by is not in the record;
the replay ends with its lines. -/
theorem recording_replays (hparse : s'.jsonParse = s.jsonParse) (hsame : s'.net = s.net)
    (hnet : s.net.RoundTrips) (htells : s.net.TellsApart) {fuel fuel' : Nat}
    {files filesEnd files' : Files} {store : Store} {before texts : List Bytes} {state : MainState}
    (hstart : StartsFrom s before texts store) (h : Ingested s fuel files cfg store texts state)
    (hrun : (main s fuel).run files = .ok (.returned ()) filesEnd) (hapart : OutputsApart cfg)
    (hlines : ∀ message ∈ texts, message ≠ [] ∧ newline ∉ message)
    (hreplay : ReplayOf s' cfg' files' store texts) (hfuel : texts.length < fuel') :
    ∃ filesEnd', runProgram s' fuel' files' = (.returned 0, filesEnd') ∧
      SameOutputs cfg filesEnd cfg' filesEnd' := by
  obtain ⟨source, hsource, rfl⟩ := createSource_lines hreplay.source hreplay.recorded hlines
  have htexts : source.messages.take (replayLength s' cfg' source.messages) = source.messages := by
    rw [hreplay.whole, List.take_length]
  have hended := @replay_succeeds s' cfg' store files' source fuel' before (hsame ▸ hnet)
    hreplay.prepared (htexts.symm ▸ hstart.congr hparse hsame) hreplay.inputApart hsource
    hreplay.statsOpen hfuel (htexts.symm ▸ h.reached.usable.congr hparse hsame) hreplay.snapshotOpen
  rw [htexts] at hended
  obtain ⟨state', filesEnd', hrun', h'⟩ := hended
  refine ⟨filesEnd', ?_, sameOutputs_of_ingested hparse hsame hnet htells hstart h hrun hapart h' hrun'
    hreplay.apart⟩
  unfold runProgram
  rw [hrun']

/-! ## A live run and its record -/

/-- The source of a live run that is interrupted. -/
def liveMachine : Machine :=
  .start (.new liveConfig.risLiveHost liveConfig.risLivePort liveConfig.risLiveTarget
      liveConfig.reconnectEnabled liveConfig.reconnectInitialDelayMs liveConfig.reconnectMaxDelayMs
      liveConfig.reconnectMaxAttempts)
    { shutdown := (interrupted twoPeersParse).shutdownRequested liveConfig
      network := (interrupted twoPeersParse).network }

/-- What it has read when its loop ends well. -/
def liveReads : Option (List Bytes) :=
  match (mainLoop (interrupted twoPeersParse) liveConfig 13).run
      (startState (interrupted twoPeersParse) liveConfig {} (.risLiveWs liveMachine)) with
  | .ok (.returned _) state =>
    match state.source with
    | .risLiveWs machine => some (machine.trace.filterMap readPayload)
    | .fileJsonl _ => none
  | _ => none

theorem liveReads_eq : liveReads = some [rrc00Text, rrc00Text, rrc00Text] := by decide +kernel

/-- The interrupted run ends well. -/
theorem interrupted_ends : ∃ filesEnd texts state,
    (main (interrupted twoPeersParse) 13).run liveFiles = .ok (.returned ()) filesEnd ∧
      Ingested (interrupted twoPeersParse) 13 liveFiles liveConfig {} texts state ∧
      texts.length < 4 ∧ ∀ message ∈ texts, message = rrc00Text := by
  have hlooped : Looped (interrupted twoPeersParse) 13 liveFiles liveConfig {} (.risLiveWs liveMachine)
      ((mainLoop (interrupted twoPeersParse) liveConfig 13).run
        (startState (interrupted twoPeersParse) liveConfig {} (.risLiveWs liveMachine))) :=
    ⟨prepare_live, rfl, rfl⟩
  have hreads := liveReads_eq
  unfold liveReads at hreads
  cases hrun : (mainLoop (interrupted twoPeersParse) liveConfig 13).run
      (startState (interrupted twoPeersParse) liveConfig {} (.risLiveWs liveMachine)) with
  | error e state =>
    rw [hrun] at hreads
    cases hreads
  | ok progress state =>
    rw [hrun] at hreads hlooped
    cases progress with
    | running => cases hreads
    | returned value =>
      obtain ⟨feed, hfeed, texts, hreached, hdropped⟩ := hlooped.stopped
      cases feed with
      | file messages => exact hfeed.elim
      | live =>
        obtain ⟨dropped, hhanded⟩ := hdropped.imp fun _ h => h.1
        obtain ⟨machine, hsource, hpayloads⟩ := readSoFar_of_handedOut hhanded
        dsimp only at hreads
        rw [hsource] at hreads
        dsimp only at hreads
        rw [hpayloads, Option.some.injEq] at hreads
        have hlen : texts.length < 4 := by
          have hall := congrArg List.length hreads
          rw [List.length_append] at hall
          have hthree : [rrc00Text, rrc00Text, rrc00Text].length = 3 := rfl
          omega
        have hmem : ∀ message ∈ texts, message = rrc00Text := by
          intro message h
          have hread := List.mem_append_left dropped h
          rw [hreads] at hread
          simpa using hread
        obtain ⟨S, limit, -, hinv, -⟩ := hreached.holds (startsFrom_empty _ (by omega))
        obtain ⟨peers, observations, stats, hsave, -⟩ := @saveSnapshot_spec Inet.standard .ascending
          standard_roundTrips S limit (storeOf state.sampler) hinv liveConfig.snapshotOutput
        obtain ⟨filesEnd, hmain⟩ := main_of_looped hlooped (fun _ => rfl) ⟨_, hsave⟩
        exact ⟨filesEnd, texts, state, hmain, ⟨⟨_, .live, hlooped, hfeed, hdropped⟩, hreached⟩, hlen,
          hmem⟩

theorem recording_replays_interrupted : ∃ filesEnd texts filesEnd',
    (main (interrupted twoPeersParse) 13).run liveFiles = .ok (.returned ()) filesEnd ∧
      runProgram (quiet twoPeersParse) 4 (quietFiles texts) = (.returned 0, filesEnd') ∧
      SameOutputs liveConfig filesEnd quietConfig filesEnd' := by
  obtain ⟨filesEnd, texts, state, hrun, hingested, hlen, hmem⟩ := interrupted_ends
  have hapart : OutputsApart liveConfig := by
    constructor <;> decide
  have hreplay : ReplayOf (quiet twoPeersParse) quietConfig (quietFiles texts) {} texts :=
    ⟨prepare_quiet _ _, rfl, rfl, inputFile_ne_stats _, replayLength_quiet _ _, fun _ => rfl, rfl,
      quietConfig_apart⟩
  obtain ⟨filesEnd', hprogram, houtputs⟩ := @recording_replays (interrupted twoPeersParse)
    (quiet twoPeersParse) liveConfig quietConfig rfl rfl standard_roundTrips standard_prints.tellsApart
    13 4 liveFiles filesEnd (quietFiles texts) {} [] texts state (startsFrom_empty _ (by omega))
    hingested hrun hapart
    (fun message h => twoPeers_lines message (hmem message h ▸ List.mem_cons_self)) hreplay hlen
  exact ⟨filesEnd, texts, filesEnd', hrun, hprogram, houtputs⟩

end ASNPrefixMap.Program
