import ASNPrefixMap.Ingest.Untracked
import ASNPrefixMap.Program.Outputs

/-!
# Statistics are passive

Sampling happens in the main loop, between messages, and the tracker is updated
with the routing state. Nothing of it shows: runs that differ in their clocks
and in what their configurations say about statistics and plateaus agree on all
other objects at every moment (`mainLoop_untracked`), so they end alike and
leave the same files but for the statistics (`statistics_passive`).

Both runs are given what the statistics could get in the way of: a statistics
file that opens, and an input that is not written by either of them. Files are
compared but for the statistics and for the configuration, in which the runs
differ.
-/

namespace ASNPrefixMap.Program

open Lib Prefix Peer Routing Stats Ingest Snapshot Source
open ASNPrefixMap.Parser

/-! ## What may differ -/

/-- A configuration without its settings for statistics and plateaus. -/
def withoutStatistics (cfg : Config) : Config :=
  { cfg with
    statsOutputEnabled := false
    statsIntervalMs := 0
    plateauDetectionEnabled := false
    plateauWindowSamples := 0
    plateauPrefixRateThreshold := 0
    plateauMinRuntimeSec := 0 }

/-- The same surroundings, but for the clocks and the order in which the tracker
is seeded. The name of the statistics file comes from a clock, too, so it may
differ. -/
structure SameEvents (s s' : Surroundings) : Prop where
  jsonParse : s'.jsonParse = s.jsonParse
  net : s'.net = s.net
  flags : s'.flags = s.flags
  network : s'.network = s.network
  round : s'.orders.round = s.orders.round
  save : s'.orders.save = s.orders.save
  tables : s'.orders.tables = s.orders.tables

variable {s s' : Surroundings} {cfg cfg' : Config}

/-- A setting that is not about statistics is the same in both configurations,
whichever it is. -/
theorem field_same {α : Type} (field : Config → α)
    (hfield : ∀ cfg, field (withoutStatistics cfg) = field cfg)
    (h : withoutStatistics cfg' = withoutStatistics cfg) : field cfg' = field cfg := by
  rw [← hfield cfg', h, hfield]

/-- So a stop is asked for at the same moment. -/
theorem shutdownRequested_same (h : SameEvents s s') (hcfg : withoutStatistics cfg' = withoutStatistics cfg) :
    s'.shutdownRequested cfg' = s.shutdownRequested cfg := by
  funext reading
  unfold Surroundings.shutdownRequested
  rw [field_same Config.stopOnKeypress (fun _ => rfl) hcfg, h.flags]

/-! ## The loop -/

/-- The variables of the loop but for those of the statistics. -/
def MainState.untracked (state : MainState) :
    BgpSource × Nat × PeerRegistry × RoutingState × IngestionStats :=
  (state.source, state.readings, state.sampler.world.untracked)

/-- Two states that agree but for the statistics have the same source, have read
the flags as often, and have the same objects but for the tracker. -/
theorem untracked_inj {state state' : MainState} (h : state.untracked = state'.untracked) :
    state.source = state'.source ∧ state.readings = state'.readings ∧
      state.sampler.world.untracked = state'.sampler.world.untracked := by
  unfold MainState.untracked at h
  rwa [Prod.mk.injEq, Prod.mk.injEq] at h

theorem untracked_congr {state state' : MainState} (hsource : state.source = state'.source)
    (hreadings : state.readings = state'.readings)
    (hworld : state.sampler.world.untracked = state'.sampler.world.untracked) :
    state.untracked = state'.untracked := by
  unfold MainState.untracked
  rw [hsource, hreadings, hworld]

theorem rounds_same {state state' : MainState} (h : state.untracked = state'.untracked) :
    state.rounds = state'.rounds :=
  congrArg (fun view => view.2.2.2.2.rawMessagesReceived) h

theorem readFlag_untracked (flag : Nat → Bool) :
    Agree MainState.untracked MainState.untracked (readFlag flag) (readFlag flag) := by
  refine Agree.get_bind fun state state' h => ?_
  obtain ⟨hsource, hreadings, hworld⟩ := untracked_inj h
  rw [hreadings]
  exact congrArg (EStateM.Result.ok _) (untracked_congr hsource rfl hworld)

/-- A call of the source, which does not look at the objects at all. -/
theorem nextMessage_untracked (fuel : Nat) :
    Agree MainState.untracked MainState.untracked (nextMessage fuel) (nextMessage fuel) := by
  unfold nextMessage
  refine Agree.get_bind fun state state' h => ?_
  obtain ⟨hsource, hreadings, hworld⟩ := untracked_inj h
  rw [hsource]
  cases state'.source with
  | fileJsonl source =>
    exact congrArg (EStateM.Result.ok _) (untracked_congr rfl hreadings hworld)
  | risLiveWs machine =>
    dsimp only
    rw [hreadings]
    cases (Source.nextMessage fuel).run { machine with checks := state'.readings } with
    | ok json machine => exact congrArg (EStateM.Result.ok json) (untracked_congr rfl rfl hworld)
    | error e machine => exact congrArg (EStateM.Result.error e) (untracked_congr rfl rfl hworld)

/-- A sample leaves everything but the tracker. -/
theorem periodicSample_untracked (statsOutputEnabled : Bool) (statsIntervalMs : Nat) (clock : Clock)
    (sampler : Sampler) :
    (sampler.periodicSample statsOutputEnabled statsIntervalMs clock).world.untracked =
      sampler.world.untracked := by
  rcases periodicSample_world statsOutputEnabled statsIntervalMs clock sampler with h | h
  · rw [h]
  · rw [h]
    rfl

/-- A round. Whether it ends in a sample is of no consequence, for a sample
changes the tracker and the rows only. -/
theorem ingestRound_untracked (h : SameEvents s s') (message : Bytes) :
    Agree MainState.untracked MainState.untracked (ingestRound s cfg message)
      (ingestRound s' cfg' message) := by
  unfold ingestRound
  refine Agree.get_bind fun state state' hstate => ?_
  obtain ⟨hsource, hreadings, hworld⟩ := untracked_inj hstate
  have hmessage := ingestMessage_untracked s.jsonParse s.net (s.orders.round state'.rounds) message
    _ _ hworld
  dsimp only
  rw [h.jsonParse, h.net, h.round, rounds_same hstate]
  cases hrun : (ingestMessage s.jsonParse s.net (s.orders.round state'.rounds) message).run
      state.sampler.world with
  | error e world =>
    cases hrun' : (ingestMessage s.jsonParse s.net (s.orders.round state'.rounds) message).run
        state'.sampler.world with
    | ok _ world' =>
      rw [hrun, hrun'] at hmessage
      cases hmessage
    | error e' world' =>
      rw [hrun, hrun'] at hmessage
      injection hmessage with he hafter
      rw [he]
      exact congrArg (EStateM.Result.error e') (untracked_congr hsource hreadings hafter)
  | ok _ world =>
    cases hrun' : (ingestMessage s.jsonParse s.net (s.orders.round state'.rounds) message).run
        state'.sampler.world with
    | error e' world' =>
      rw [hrun, hrun'] at hmessage
      cases hmessage
    | ok _ world' =>
      rw [hrun, hrun'] at hmessage
      injection hmessage with _ hafter
      refine congrArg (EStateM.Result.ok ()) (untracked_congr hsource hreadings ?_)
      dsimp only
      rw [periodicSample_untracked, periodicSample_untracked]
      exact hafter

/-- **The loop**, in step from any two states that agree but for the statistics,
by induction on its bound. -/
theorem mainLoop_untracked (h : SameEvents s s')
    (hcfg : withoutStatistics cfg' = withoutStatistics cfg) : ∀ fuel,
    Agree MainState.untracked MainState.untracked (mainLoop s cfg fuel) (mainLoop s' cfg' fuel) := by
  intro fuel
  induction fuel with
  | zero => exact Agree.pure _
  | succ fuel ih =>
    unfold mainLoop
    rw [shutdownRequested_same h hcfg, h.flags, field_same Config.maxMessages (fun _ => rfl) hcfg]
    refine (readFlag_untracked _).bind fun requested => Agree.ite (Agree.pure _) ?_
    refine (nextMessage_untracked fuel).bind fun result => ?_
    rcases result with _ | _ | message
    · exact Agree.pure _
    · exact Agree.pure _
    · refine (readFlag_untracked _).bind fun signalled => Agree.ite (Agree.pure _) ?_
      refine (ingestRound_untracked h message).bind fun _ => Agree.get_bind fun state state' hstate => ?_
      rw [rounds_same hstate]
      exact Agree.ite (Agree.pure _) ih state state' hstate

/-! ## The files -/

/-- What is left out of the comparison: the configuration and the statistics. -/
def hiddenFiles (s s' : Surroundings) : List Bytes :=
  [configFile, s.makeStatsFilename, s'.makeStatsFilename]

/-- The files but for the hidden ones. -/
def Files.elsewhere (hidden : List Bytes) (files : Files) : Files :=
  { files with content := fun path => if path ∈ hidden then none else files.content path }

variable {hidden : List Bytes}

/-- Writing a hidden file is not seen, and writing another is seen as it is. -/
theorem elsewhere_write (hidden : List Bytes) (files : Files) (path text : Bytes) :
    (files.write path text).elsewhere hidden =
      if path ∈ hidden then files.elsewhere hidden else (files.elsewhere hidden).write path text := by
  by_cases hpath : path ∈ hidden
  · rw [if_pos hpath]
    unfold Files.elsewhere Files.write
    dsimp only
    congr 1
    funext path'
    by_cases hpath' : path' ∈ hidden
    · rw [if_pos hpath', if_pos hpath']
    · have hne : path' ≠ path := fun heq => hpath' (by rw [heq]; exact hpath)
      rw [if_neg hpath', if_neg hpath', Function.update_of_ne hne]
  · rw [if_neg hpath]
    unfold Files.elsewhere Files.write
    dsimp only
    congr 1
    funext path'
    by_cases heq : path' = path
    · rw [heq, if_neg hpath, Function.update_self, Function.update_self]
    · rw [Function.update_of_ne heq, Function.update_of_ne heq]

theorem elsewhere_writeIfOpens {files files' : Files}
    (h : files.elsewhere hidden = files'.elsewhere hidden) (path text : Bytes) :
    (files.writeIfOpens path text).elsewhere hidden =
      (files'.writeIfOpens path text).elsewhere hidden := by
  have hwritable : (files.elsewhere hidden).writable = (files'.elsewhere hidden).writable := by rw [h]
  unfold Files.writeIfOpens
  rw [show files.writable = files'.writable from hwritable]
  split
  next => rw [elsewhere_write, elsewhere_write, h]
  next => exact h

theorem elsewhere_writeTables {files files' : Files}
    (h : files.elsewhere hidden = files'.elsewhere hidden) (prefixOutput asnOutput : Bytes)
    (tables : Bytes × Bytes) :
    (files.writeTables prefixOutput asnOutput tables).elsewhere hidden =
      (files'.writeTables prefixOutput asnOutput tables).elsewhere hidden := by
  have hflushed : (files.elsewhere hidden).flushed = (files'.elsewhere hidden).flushed := by rw [h]
  unfold Files.writeTables
  rw [show files.flushed = files'.flushed from hflushed]
  split
  next => exact elsewhere_writeIfOpens h _ _
  next => exact elsewhere_writeIfOpens (elsewhere_writeIfOpens h _ _) _ _

theorem elsewhere_withStats (h : s.makeStatsFilename ∈ hidden) (files : Files)
    (samples : List GrowthSample) :
    (withStats s cfg files samples).elsewhere hidden = files.elsewhere hidden := by
  unfold withStats
  split
  next => rw [elsewhere_write, if_pos h]
  next => rfl

/-- The statistics are written where nobody looks. -/
theorem writeStats_elsewhere (hs : s.makeStatsFilename ∈ hidden) (hs' : s'.makeStatsFilename ∈ hidden)
    (sampler sampler' : Sampler) :
    Agree (Files.elsewhere hidden) (Files.elsewhere hidden) (writeStats s cfg sampler)
      (writeStats s' cfg' sampler') := by
  intro files files' h
  rw [run_writeStats, run_writeStats]
  refine congrArg (EStateM.Result.ok ()) ?_
  rw [elsewhere_withStats hs, elsewhere_withStats hs', h]

/-- The outputs, from one store: they are decided by the store, the orders of
the export and which files open, and none of these depends on the statistics. -/
theorem saveAll_elsewhere (h : SameEvents s s')
    (hcfg : withoutStatistics cfg' = withoutStatistics cfg) (store : Store) :
    Agree (Files.elsewhere hidden) (Files.elsewhere hidden) (saveAll s cfg store)
      (saveAll s' cfg' store) := by
  unfold saveAll
  refine Agree.get_bind fun files files' hfiles => ?_
  have hwritable : (files.elsewhere hidden).writable = (files'.elsewhere hidden).writable := by
    rw [hfiles]
  rw [show files.writable = files'.writable from hwritable, h.net, h.save, h.tables,
    field_same Config.snapshotOutput (fun _ => rfl) hcfg,
    field_same Config.prefixOutput (fun _ => rfl) hcfg, field_same Config.asnOutput (fun _ => rfl) hcfg]
  cases saveSnapshot s.net s.orders.save cfg.snapshotOutput (files'.writable cfg.snapshotOutput)
      store with
  | error e => exact congrArg (EStateM.Result.error e) hfiles
  | ok saved =>
    have hsaved : (files.write cfg.snapshotOutput saved.1).elsewhere hidden =
        (files'.write cfg.snapshotOutput saved.1).elsewhere hidden := by
      rw [elsewhere_write, elsewhere_write, hfiles]
    dsimp only
    cases store.state.exportTables s.net s.orders.tables with
    | error e =>
      exact congrArg (EStateM.Result.error e)
        (elsewhere_writeIfOpens (elsewhere_writeIfOpens hsaved _ _) _ _)
    | ok tables => exact congrArg (EStateM.Result.ok ()) (elsewhere_writeTables hsaved _ _ _)

/-- Everything after the loop: the final sample goes to the tracker and to a
hidden file, and the rest is saved from the same store. -/
theorem finish_elsewhere (h : SameEvents s s') (hcfg : withoutStatistics cfg' = withoutStatistics cfg)
    (hs : s.makeStatsFilename ∈ hidden) (hs' : s'.makeStatsFilename ∈ hidden)
    {state state' : MainState} (hstate : state.untracked = state'.untracked) :
    Agree (Files.elsewhere hidden) (Files.elsewhere hidden) (finish s cfg state)
      (finish s' cfg' state') := by
  have hstore : storeOf state.sampler = storeOf state'.sampler :=
    congrArg (fun view => (⟨view.2.2.1, view.2.2.2.1⟩ : Store)) hstate
  intro files files' hfiles
  rw [run_finish, run_finish, storeOf_finalSampler, storeOf_finalSampler, hstore]
  refine saveAll_elsewhere h hcfg _ _ _ ?_
  rw [elsewhere_withStats hs, elsewhere_withStats hs', hfiles]

/-! ## The program -/

/-- A file that is not hidden reads the same in both runs, or in neither. -/
theorem opened_elsewhere {files files' : Files}
    (h : files.elsewhere hidden = files'.elsewhere hidden) {path : Bytes} (hpath : path ∉ hidden) :
    files'.opened path = files.opened path := by
  have hvisible : ∀ f : Files, f.opened path = (f.elsewhere hidden).opened path := by
    intro f
    unfold Files.opened Files.elsewhere
    dsimp only
    rw [if_neg hpath]
  rw [hvisible, hvisible files, h]

/-- One source is made. -/
theorem createSource_same (h : SameEvents s s') (hcfg : withoutStatistics cfg' = withoutStatistics cfg)
    {files files' : Files} (hfiles : files.elsewhere hidden = files'.elsewhere hidden)
    (hinput : cfg.inputFile ∉ hidden) : createSource s' cfg' files' = createSource s cfg files := by
  unfold createSource
  rw [shutdownRequested_same h hcfg, h.network, field_same Config.source (fun _ => rfl) hcfg,
    field_same Config.inputFile (fun _ => rfl) hcfg, opened_elsewhere hfiles hinput,
    field_same Config.risLiveHost (fun _ => rfl) hcfg, field_same Config.risLivePort (fun _ => rfl) hcfg,
    field_same Config.risLiveTarget (fun _ => rfl) hcfg,
    field_same Config.reconnectEnabled (fun _ => rfl) hcfg,
    field_same Config.reconnectInitialDelayMs (fun _ => rfl) hcfg,
    field_same Config.reconnectMaxDelayMs (fun _ => rfl) hcfg,
    field_same Config.reconnectMaxAttempts (fun _ => rfl) hcfg]

/-- Two runs to compare: one store, the same events, and files that differ in
the configuration. Neither run is stopped by a statistics file that does not
open, nor fed from one. -/
structure Comparable (s s' : Surroundings) (cfg cfg' : Config) (files files' : Files)
    (store : Store) : Prop where
  events : SameEvents s s'
  settings : withoutStatistics cfg' = withoutStatistics cfg
  prepared : prepare s files = .ok (cfg, store)
  prepared' : prepare s' files' = .ok (cfg', store)
  elsewhere : files.elsewhere (hiddenFiles s s') = files'.elsewhere (hiddenFiles s s')
  opens : cfg.statsOutputEnabled = true → files.writable s.makeStatsFilename = true
  opens' : cfg'.statsOutputEnabled = true → files'.writable s'.makeStatsFilename = true
  input : cfg.inputFile ∉ hiddenFiles s s'

theorem run_openStats_of_opens {files : Files}
    (h : cfg.statsOutputEnabled = true → files.writable s.makeStatsFilename = true) :
    (openStats s cfg).run files = .ok () (withStats s cfg files []) := by
  rcases run_openStats s cfg files with hopen | ⟨henabled, hclosed, -⟩
  · exact hopen
  · rw [h henabled] at hclosed
    cases hclosed

/-- The whole program, from the files to the files: exit, exceptions and what is
left outside the hidden files agree. -/
theorem main_elsewhere {files files' : Files} {store : Store}
    (h : Comparable s s' cfg cfg' files files' store) (fuel : Nat) :
    seen (Files.elsewhere (hiddenFiles s s')) ((main s fuel).run files) =
      seen (Files.elsewhere (hiddenFiles s s')) ((main s' fuel).run files') := by
  have hs : s.makeStatsFilename ∈ hiddenFiles s s' :=
    List.mem_cons_of_mem _ List.mem_cons_self
  have hs' : s'.makeStatsFilename ∈ hiddenFiles s s' :=
    List.mem_cons_of_mem _ (List.mem_cons_of_mem _ List.mem_cons_self)
  have hfiles : (withStats s cfg files []).elsewhere (hiddenFiles s s') =
      (withStats s' cfg' files' []).elsewhere (hiddenFiles s s') := by
    rw [elsewhere_withStats hs, elsewhere_withStats hs', h.elsewhere]
  unfold main
  rw [EStateM.run_bind, EStateM.run_get, EStateM.run_bind, EStateM.run_get]
  dsimp only
  rw [h.prepared, h.prepared']
  dsimp only
  rw [run_bind_ok (run_openStats_of_opens h.opens), run_bind_ok (run_openStats_of_opens h.opens'),
    EStateM.run_bind, EStateM.run_get, EStateM.run_bind, EStateM.run_get]
  dsimp only
  rw [createSource_same h.events h.settings hfiles h.input]
  cases createSource s cfg (withStats s cfg files []) with
  | error e => exact congrArg (EStateM.Result.error e) hfiles
  | ok source =>
    have hloop := mainLoop_untracked h.events h.settings fuel (startState s cfg store source)
      (startState s' cfg' store source) rfl
    dsimp only
    cases hrun : (mainLoop s cfg fuel).run (startState s cfg store source) with
    | error e state =>
      cases hrun' : (mainLoop s' cfg' fuel).run (startState s' cfg' store source) with
      | ok progress' state' =>
        rw [hrun, hrun'] at hloop
        cases hloop
      | error e' state' =>
        rw [hrun, hrun'] at hloop
        injection hloop with he hstate
        rw [he]
        exact (writeStats_elsewhere hs hs' _ _).bind (fun _ => Agree.throw e') _ _ hfiles
    | ok progress state =>
      cases hrun' : (mainLoop s' cfg' fuel).run (startState s' cfg' store source) with
      | error e' state' =>
        rw [hrun, hrun'] at hloop
        cases hloop
      | ok progress' state' =>
        rw [hrun, hrun'] at hloop
        injection hloop with hprogress hstate
        subst hprogress
        cases progress with
        | running => exact (writeStats_elsewhere hs hs' _ _).bind (fun _ => Agree.pure _) _ _ hfiles
        | returned value =>
          exact (finish_elsewhere h.events h.settings hs hs' hstate).bind (fun _ => Agree.pure _) _ _
            hfiles

/-- **Statistics are passive.** Whatever a configuration says about statistics
and plateaus, and whatever the clocks show, the program ends with the same exit
code and leaves the same files, but for the statistics themselves. This goes for
runs that fail, too: an exception of a message is the same in both. -/
theorem statistics_passive {files files' : Files} {store : Store}
    (h : Comparable s s' cfg cfg' files files' store) (fuel : Nat) :
    (runProgram s fuel files).1 = (runProgram s' fuel files').1 ∧
      ∀ path, path ∉ hiddenFiles s s' →
        (runProgram s fuel files).2.content path = (runProgram s' fuel files').2.content path := by
  have hmain := main_elsewhere h fuel
  have hcontent : ∀ {f f' : Files}, f.elsewhere (hiddenFiles s s') = f'.elsewhere (hiddenFiles s s') →
      ∀ path, path ∉ hiddenFiles s s' → f.content path = f'.content path := by
    intro f f' heq path hpath
    have hvisible : ∀ f : Files, (f.elsewhere (hiddenFiles s s')).content path = f.content path :=
      fun f => if_neg hpath
    rw [← hvisible, heq, hvisible]
  unfold runProgram
  cases hrun : (main s fuel).run files with
  | error e after =>
    cases hrun' : (main s' fuel).run files' with
    | ok progress' after' =>
      rw [hrun, hrun'] at hmain
      cases hmain
    | error e' after' =>
      rw [hrun, hrun'] at hmain
      injection hmain with _ hafter
      exact ⟨rfl, hcontent hafter⟩
  | ok progress after =>
    cases hrun' : (main s' fuel).run files' with
    | error e' after' =>
      rw [hrun, hrun'] at hmain
      cases hmain
    | ok progress' after' =>
      rw [hrun, hrun'] at hmain
      injection hmain with hprogress hafter
      subst hprogress
      cases progress with
      | running => exact ⟨rfl, hcontent hafter⟩
      | returned value => exact ⟨rfl, hcontent hafter⟩

/-! ## A run without statistics -/

/-- The quiet run at another time of day. -/
def later (jsonParse : JsonParse) : Surroundings :=
  { quiet jsonParse with localTime := bytes "2024-03-10_000000" }

/-- The quiet configuration without statistics. -/
def unwatchedText : Bytes :=
  quietConfigText ++ bytes "stats_output_enabled=false\nplateau_detection_enabled=false\n"

/-- What `load_config` makes of it. -/
def unwatchedConfig : Config :=
  { quietConfig with
    statsOutputEnabled := false
    plateauDetectionEnabled := false }

/-- The files of a quiet run with this configuration. -/
def unwatchedFiles (messages : List Bytes) : Files :=
  (quietFiles messages).write configFile unwatchedText

/-- The quiet configuration without statistics loads as it should. -/
theorem prepare_unwatched (jsonParse : JsonParse) (messages : List Bytes) :
    prepare (later jsonParse) (unwatchedFiles messages) = .ok (unwatchedConfig, {}) := by
  have hconfig : (unwatchedFiles messages).opened configFile = some unwatchedText :=
    Files.content_write_self _ _ _
  have hload : Config.loadConfig (later jsonParse).stod configFile (some unwatchedText) =
      .ok unwatchedConfig := rfl
  have hexist : (unwatchedFiles messages).exist unwatchedConfig.snapshotInput = false := by
    rw [Files.exist, unwatchedFiles, Files.content_write_of_ne _ (by decide)]
    rfl
  have hstore : loadStore (later jsonParse) unwatchedConfig (unwatchedFiles messages) = .ok {} := by
    rw [loadStore, hexist]
    rfl
  rw [prepare, hconfig, hload, ok_bind, hstore, ok_bind]
  rfl

theorem statistics_passive_unwatched :
    (runProgram (quiet twoPeersParse) 3 (quietFiles [rrc00Text, rrc10Text])).1 =
        (runProgram (later twoPeersParse) 3 (unwatchedFiles [rrc00Text, rrc10Text])).1 ∧
      ∀ path, path ∉ hiddenFiles (quiet twoPeersParse) (later twoPeersParse) →
        (runProgram (quiet twoPeersParse) 3 (quietFiles [rrc00Text, rrc10Text])).2.content path =
          (runProgram (later twoPeersParse) 3 (unwatchedFiles [rrc00Text, rrc10Text])).2.content path :=
  @statistics_passive (quiet twoPeersParse) (later twoPeersParse) quietConfig unwatchedConfig _ _ {}
    { events := ⟨rfl, rfl, rfl, rfl, rfl, rfl, rfl⟩
      settings := rfl
      prepared := prepare_quiet _ _
      prepared' := prepare_unwatched _ _
      elsewhere := ((elsewhere_write _ _ _ _).trans (if_pos List.mem_cons_self)).symm
      opens := fun _ => rfl
      opens' := fun henabled => by cases henabled
      input := by decide } 3

end ASNPrefixMap.Program
