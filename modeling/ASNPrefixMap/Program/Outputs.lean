import ASNPrefixMap.Program.Loop
import ASNPrefixMap.Routing.Backed
import ASNPrefixMap.Snapshot.Accounting

/-!
# What a run leaves in the files

`Ending` lists the ways a run of the program can end, with the files it leaves,
and `main_ending` says that there are no others. One way is missing that the
code could take: an exception in `export_tables`, after the snapshot has been
written. It needs a prefix that cannot be printed, and `save_snapshot` has just
printed every prefix with an observation, which are all the table holds
(`Backed`). So a run that fails has left its outputs as they were, and one that
succeeds has opened the snapshot and written it, and the tables as far as they
could be opened (`main_allOrNothing`).

`OutputsWritten` is careful about paths: a file is what was written there last,
so the snapshot is found if no table has its path, and a table is found if the
other has another. The statistics file is left out of all this. It is written
while the loop runs, and its end is `main_statsFile`: there the samples are
those of the run itself (`takenSamples`), computed from where its loop came to.
-/

namespace ASNPrefixMap.Program

open Lib Prefix Peer Routing Stats Ingest Snapshot Source
open ASNPrefixMap.Parser

variable {s : Surroundings} {cfg : Config}

/-! ## Files written -/

theorem Files.write_write (files : Files) (path text text' : Bytes) :
    (files.write path text).write path text' = files.write path text' := by
  unfold Files.write
  dsimp only
  rw [Function.update_idem]

theorem Files.content_write_of_ne (files : Files) {path path' : Bytes} (h : path' ≠ path)
    (text : Bytes) : (files.write path text).content path' = files.content path' :=
  Function.update_of_ne h _ _

theorem Files.content_write_self (files : Files) (path text : Bytes) :
    (files.write path text).content path = some text :=
  Function.update_self _ _ _

theorem Files.content_writeIfOpens_of_ne (files : Files) {path path' : Bytes} (h : path' ≠ path)
    (text : Bytes) : (files.writeIfOpens path text).content path' = files.content path' := by
  unfold Files.writeIfOpens
  split
  · exact files.content_write_of_ne h text
  · rfl

theorem Files.writable_writeIfOpens (files : Files) (path text : Bytes) :
    (files.writeIfOpens path text).writable = files.writable := by
  unfold Files.writeIfOpens
  split <;> rfl

theorem Files.readable_writeIfOpens (files : Files) (path text : Bytes) :
    (files.writeIfOpens path text).readable = files.readable := by
  unfold Files.writeIfOpens
  split <;> rfl

/-- Tables with a path each are written one after the other. -/
theorem Files.writeTables_of_ne (files : Files) {prefixOutput asnOutput : Bytes}
    (h : prefixOutput ≠ asnOutput) (tables : Bytes × Bytes) :
    files.writeTables prefixOutput asnOutput tables =
      (files.writeIfOpens prefixOutput tables.1).writeIfOpens asnOutput tables.2 :=
  if_neg h

/-- Whether or not the two tables share a file, no other file is written. -/
theorem Files.content_writeTables_of_ne (files : Files) {prefixOutput asnOutput path : Bytes}
    (htable : path ≠ prefixOutput) (hasn : path ≠ asnOutput) (tables : Bytes × Bytes) :
    (files.writeTables prefixOutput asnOutput tables).content path = files.content path := by
  unfold Files.writeTables
  split
  · exact files.content_writeIfOpens_of_ne htable _
  · rw [Files.content_writeIfOpens_of_ne _ hasn, Files.content_writeIfOpens_of_ne _ htable]

theorem Files.writable_writeTables (files : Files) (prefixOutput asnOutput : Bytes)
    (tables : Bytes × Bytes) :
    (files.writeTables prefixOutput asnOutput tables).writable = files.writable := by
  unfold Files.writeTables
  split
  · exact files.writable_writeIfOpens _ _
  · rw [Files.writable_writeIfOpens, Files.writable_writeIfOpens]

theorem Files.readable_writeTables (files : Files) (prefixOutput asnOutput : Bytes)
    (tables : Bytes × Bytes) :
    (files.writeTables prefixOutput asnOutput tables).readable = files.readable := by
  unfold Files.writeTables
  split
  · exact files.readable_writeIfOpens _ _
  · rw [Files.readable_writeIfOpens, Files.readable_writeIfOpens]

/-- The files with the statistics written so far. -/
def withStats (s : Surroundings) (cfg : Config) (files : Files) (samples : List GrowthSample) : Files :=
  if cfg.statsOutputEnabled then files.write s.makeStatsFilename (statsText samples) else files

/-- The files with the snapshot and the two tables. -/
def savedFiles (cfg : Config) (files : Files) (snapshot : Bytes) (tables : Bytes × Bytes) : Files :=
  (files.write cfg.snapshotOutput snapshot).writeTables cfg.prefixOutput cfg.asnOutput tables

theorem withStats_withStats (files : Files) (samples samples' : List GrowthSample) :
    withStats s cfg (withStats s cfg files samples) samples' = withStats s cfg files samples' := by
  unfold withStats
  split
  · exact files.write_write _ _ _
  · rfl

theorem writable_withStats (files : Files) (samples : List GrowthSample) :
    (withStats s cfg files samples).writable = files.writable := by
  unfold withStats
  split <;> rfl

theorem readable_withStats (files : Files) (samples : List GrowthSample) :
    (withStats s cfg files samples).readable = files.readable := by
  unfold withStats
  split <;> rfl

theorem content_withStats_of_ne (files : Files) (samples : List GrowthSample) {path : Bytes}
    (h : path ≠ s.makeStatsFilename) :
    (withStats s cfg files samples).content path = files.content path := by
  unfold withStats
  split
  · exact files.content_write_of_ne h _
  · rfl

/-- The statistics file is opened before the source. It is none of the files the
source reads, if the input file is another. -/
theorem createSource_withStats (h : cfg.inputFile ≠ s.makeStatsFilename) (files : Files)
    (samples : List GrowthSample) :
    createSource s cfg (withStats s cfg files samples) = createSource s cfg files := by
  unfold createSource Files.opened
  rw [readable_withStats, content_withStats_of_ne _ _ h]

/-- A file that is none of the three outputs is not written. -/
theorem content_savedFiles_of_ne (files : Files) (snapshot : Bytes) (tables : Bytes × Bytes)
    {path : Bytes} (hsnapshot : path ≠ cfg.snapshotOutput) (htable : path ≠ cfg.prefixOutput)
    (hasn : path ≠ cfg.asnOutput) :
    (savedFiles cfg files snapshot tables).content path = files.content path := by
  unfold savedFiles
  rw [Files.content_writeTables_of_ne _ htable hasn, Files.content_write_of_ne _ hsnapshot]

theorem run_writeStats (files : Files) (sampler : Sampler) :
    (writeStats s cfg sampler).run files = .ok () (withStats s cfg files sampler.statsRows) := by
  unfold writeStats withStats
  split <;> rfl

/-! ## The tables can be written -/

/-- Every selected prefix is among the stored observations, at every loop head
of a program. -/
theorem Reached.backed {files : Files} {store : Store} (hload : loadStore s cfg files = .ok store)
    {texts : List Bytes} {sampler : Sampler}
    (h : Reached s cfg (startWorld s cfg store) texts sampler) : sampler.world.state.Backed := by
  obtain ⟨log, hloop, -⟩ := h.loop
  have hstarted : ∃ calls₀, Started s.net calls₀ (startWorld s cfg store) := by
    unfold loadStore at hload
    split at hload
    next =>
      cases hopened : files.opened cfg.snapshotInput with
      | none =>
        rw [hopened] at hload
        cases hload
      | some text =>
        rw [hopened] at hload
        cases hrun : (loadSnapshot s.net s.orders.load s.orders.peers cfg.snapshotInput
            (some text)).run {} with
        | error e store' =>
          rw [hrun] at hload
          cases hload
        | ok stats store' =>
          rw [hrun] at hload
          cases hload
          exact ⟨_, .loaded _ _ _ hrun⟩
    next =>
      cases hload
      exact ⟨[], .fresh _ _ _⟩
  obtain ⟨calls₀, hstarted⟩ := hstarted
  rw [hloop.recorded.state, hstarted.state_eq, runOps, ← List.foldl_append]
  exact backed_runOps _

/-- What has been saved can be printed again. -/
theorem returns_toString_of_saved {net : Inet} {ord : HashOrders} {path : Bytes} {opens : Bool}
    {store : Store} (h : Returns (saveSnapshot net ord path opens store)) {o : StoredObservation}
    (ho : o ∈ store.state.storedObservations ord) : Returns (o.pfx.toString net) := by
  obtain ⟨saved, hsaved⟩ := h
  unfold saveSnapshot at hsaved
  obtain ⟨peers, -, hrest⟩ := bind_eq_ok.mp hsaved
  obtain ⟨observations, hobservations, -⟩ := bind_eq_ok.mp hrest
  obtain ⟨line, hline⟩ := returns_of_mapM ⟨_, hobservations⟩ o ho
  unfold snapshotObservation at hline
  obtain ⟨text, htext, -⟩ := bind_eq_ok.mp hline
  exact ⟨text, htext⟩

theorem returns_appendExports {P : Type} [DecidableEq P] {order : IterOrder P UInt32}
    {toString : P → Except Exception Bytes} {aggregated : FiniteMap P UInt32}
    (h : ∀ p, aggregated.lookup p ≠ none → Returns (toString p)) (exports : Exports) :
    Returns (appendExports order toString aggregated exports) := by
  refine returns_foldlM exports fun exports entry hentry => ?_
  have hlookup := ((order.listing aggregated).mem_iff entry.1 entry.2).mp hentry
  obtain ⟨text, htext⟩ := h entry.1 (by rw [hlookup]; exact Option.some_ne_none _)
  exact ⟨_, by rw [exportEntry, htext, ok_bind, pure_eq_ok]⟩

/-- Tables can be written if every selected prefix can be printed. The walk over
the maps meets no others, in whatever order. -/
theorem returns_exportTables {net : Inet} {state : RoutingState}
    (h : ∀ pfx, state.selected pfx ≠ none → Returns (pfx.toString net)) (ord : ExportOrders) :
    Returns (state.exportTables net ord) := by
  obtain ⟨exports, hv4⟩ := @returns_appendExports _ _ ord.aggregatedV4 (PrefixV4.toString net)
    state.v4.aggregated (fun p hp => h (.v4 p) hp) {}
  obtain ⟨exports', hv6⟩ := @returns_appendExports _ _ ord.aggregatedV6 (PrefixV6.toString net)
    state.v6.aggregated (fun p hp => h (.v6 p) hp) exports
  exact ⟨_, by rw [RoutingState.exportTables, hv4, ok_bind, hv6, ok_bind, pure_eq_ok]⟩

/-! ## How a run ends -/

/-- The rows and the objects after the final sample. -/
def finalSampler (s : Surroundings) (cfg : Config) (state : MainState) : Sampler :=
  state.sampler.finalSample cfg.statsOutputEnabled (s.clocks.finalAt state.rounds)
    (s.clocks.finalTimestampMs state.rounds)

/-- What is saved of them. -/
def storeOf (sampler : Sampler) : Store := ⟨sampler.world.registry, sampler.world.state⟩

/-- The loop of a run, as far as it came: what was read before it, the source
that was made, and what the loop has ended in. -/
structure Looped (s : Surroundings) (fuel : Nat) (files : Files) (cfg : Config) (store : Store)
    (source : BgpSource) (result : EStateM.Result Exception MainState (Progress Unit)) : Prop where
  prepared : prepare s files = .ok (cfg, store)
  created : createSource s cfg (withStats s cfg files []) = .ok source
  looped : (mainLoop s cfg fuel).run (startState s cfg store source) = result

/-- A run has one configuration, one source and one loop. -/
theorem Looped.unique {fuel : Nat} {files : Files} {cfg' : Config} {store store' : Store}
    {source source' : BgpSource} {result result' : EStateM.Result Exception MainState (Progress Unit)}
    (h : Looped s fuel files cfg store source result)
    (h' : Looped s fuel files cfg' store' source' result') :
    cfg' = cfg ∧ store' = store ∧ result' = result := by
  obtain ⟨hprepared, hcreated, hlooped⟩ := h
  obtain ⟨hprepared', hcreated', hlooped'⟩ := h'
  rw [hprepared] at hprepared'
  cases hprepared'
  rw [hcreated] at hcreated'
  cases hcreated'
  exact ⟨rfl, rfl, hlooped'.symm.trans hlooped⟩

/-- The ways a run can end, with the files it leaves: before anything is
written, without a source, in the loop with an exception, still in the loop,
with a snapshot that cannot be saved, and well. -/
inductive Ending (s : Surroundings) (fuel : Nat) (files : Files) :
    EStateM.Result Exception Files (Progress Unit) → Prop
  | unprepared (e : Exception) : prepare s files = .error e → Ending s fuel files (.error e files)
  | unopened {cfg : Config} {store : Store} (e : Exception) :
    prepare s files = .ok (cfg, store) → cfg.statsOutputEnabled = true →
    files.writable s.makeStatsFilename = false →
    Ending s fuel files (.error e files)
  | noSource {cfg : Config} {store : Store} (e : Exception) :
    prepare s files = .ok (cfg, store) → createSource s cfg (withStats s cfg files []) = .error e →
    Ending s fuel files (.error e (withStats s cfg files []))
  | thrown {cfg : Config} {store : Store} {source : BgpSource} {e : Exception} {state : MainState} :
    Looped s fuel files cfg store source (.error e state) →
    Ending s fuel files (.error e (withStats s cfg files state.sampler.statsRows))
  | running {cfg : Config} {store : Store} {source : BgpSource} {state : MainState} :
    Looped s fuel files cfg store source (.ok .running state) →
    Ending s fuel files (.ok .running (withStats s cfg files state.sampler.statsRows))
  | unsaved {cfg : Config} {store : Store} {source : BgpSource} {state : MainState} (e : Exception) :
    Looped s fuel files cfg store source (.ok (.returned ()) state) →
    saveSnapshot s.net s.orders.save cfg.snapshotOutput (files.writable cfg.snapshotOutput)
      (storeOf (finalSampler s cfg state)) = .error e →
    Ending s fuel files (.error e (withStats s cfg files (finalSampler s cfg state).statsRows))
  | saved {cfg : Config} {store : Store} {source : BgpSource} {state : MainState}
    {saved : Bytes × SnapshotStats} {tables : Bytes × Bytes} :
    Looped s fuel files cfg store source (.ok (.returned ()) state) →
    saveSnapshot s.net s.orders.save cfg.snapshotOutput (files.writable cfg.snapshotOutput)
      (storeOf (finalSampler s cfg state)) = .ok saved →
    (finalSampler s cfg state).world.state.exportTables s.net s.orders.tables = .ok tables →
    Ending s fuel files (.ok (.returned ()) (savedFiles cfg
      (withStats s cfg files (finalSampler s cfg state).statsRows) saved.1 tables))

/-- The store a run has prepared is that of its snapshot. -/
theorem loadStore_of_prepare {files : Files} {store : Store}
    (h : prepare s files = .ok (cfg, store)) : loadStore s cfg files = .ok store := by
  unfold prepare at h
  obtain ⟨cfg', -, hrest⟩ := bind_eq_ok.mp h
  obtain ⟨store', hload, heq⟩ := bind_eq_ok.mp hrest
  cases heq
  exact hload

/-- The final sample changes the tracker alone, so what is saved is what the
loop has left. -/
theorem finalSample_world (sampler : Sampler) (statsOutputEnabled : Bool) (now : Rat)
    (timestampMs : UInt64) :
    (sampler.finalSample statsOutputEnabled now timestampMs).world.registry =
        sampler.world.registry ∧
      (sampler.finalSample statsOutputEnabled now timestampMs).world.state = sampler.world.state := by
  unfold Sampler.finalSample
  split
  next =>
    rw [(takeSample_rows sampler now timestampMs).2]
    exact ⟨rfl, rfl⟩
  next => exact ⟨rfl, rfl⟩

/-- What the loop has left, when it stopped. -/
theorem Looped.stopped {fuel : Nat} {files : Files} {store : Store} {source : BgpSource}
    {progress : Progress Unit} {state : MainState}
    (h : Looped s fuel files cfg store source (.ok progress state)) :
    ∃ feed, HandedOut feed [] source ∧ Stopped s cfg (startWorld s cfg store) feed state := by
  obtain ⟨feed, hfeed⟩ := handedOut_start h.created
  exact ⟨feed, hfeed, (mainLoop_triple fuel []).ok ⟨reached_start s cfg store source, hfeed⟩ h.looped⟩

/-- What the loop has left when a message has thrown: a loop head, and this one
message that was handed out and not ingested. -/
theorem Looped.thrown {fuel : Nat} {files : Files} {store : Store} {source : BgpSource}
    {e : Exception} {state : MainState} (h : Looped s fuel files cfg store source (.error e state)) :
    ∃ feed, HandedOut feed [] source ∧ Thrown s cfg (startWorld s cfg store) feed e state := by
  obtain ⟨feed, hfeed⟩ := handedOut_start h.created
  exact ⟨feed, hfeed,
    (mainLoop_triple fuel []).error ⟨reached_start s cfg store source, hfeed⟩ h.looped⟩

/-- The tables hold no prefix that the snapshot does not, up to the end. -/
theorem Looped.backed {fuel : Nat} {files : Files} {store : Store} {source : BgpSource}
    {progress : Progress Unit} {state : MainState}
    (h : Looped s fuel files cfg store source (.ok progress state)) :
    (finalSampler s cfg state).world.state.Backed := by
  obtain ⟨feed, -, texts, hreached, -⟩ := h.stopped
  unfold finalSampler
  rw [(finalSample_world _ _ _ _).2]
  exact hreached.backed (loadStore_of_prepare h.prepared)

/-- After the loop: the statistics, then the snapshot, then the tables. -/
theorem run_finish (files : Files) (state : MainState) :
    (finish s cfg state).run files =
      (saveAll s cfg (storeOf (finalSampler s cfg state))).run
        (withStats s cfg files (finalSampler s cfg state).statsRows) := by
  have hfinish : finish s cfg state =
      (do writeStats s cfg (finalSampler s cfg state)
          saveAll s cfg (storeOf (finalSampler s cfg state))) := rfl
  rw [hfinish, run_bind_ok (run_writeStats files _)]

theorem run_saveAll_error {files : Files} {store : Store} {e : Exception}
    (h : saveSnapshot s.net s.orders.save cfg.snapshotOutput (files.writable cfg.snapshotOutput)
      store = .error e) : (saveAll s cfg store).run files = .error e files := by
  unfold saveAll
  rw [EStateM.run_bind, EStateM.run_get]
  dsimp only
  rw [h]
  rfl

theorem run_saveAll_ok {files : Files} {store : Store} {saved : Bytes × SnapshotStats}
    {tables : Bytes × Bytes}
    (h : saveSnapshot s.net s.orders.save cfg.snapshotOutput (files.writable cfg.snapshotOutput)
      store = .ok saved) (htables : store.state.exportTables s.net s.orders.tables = .ok tables) :
    (saveAll s cfg store).run files = .ok () (savedFiles cfg files saved.1 tables) := by
  unfold saveAll
  rw [EStateM.run_bind, EStateM.run_get]
  dsimp only
  rw [h]
  dsimp only
  rw [htables]
  rfl

/-- What `openStats` does when it does not throw is to write an empty statistics
file. -/
theorem run_openStats (s : Surroundings) (cfg : Config) (files : Files) :
    (openStats s cfg).run files = .ok () (withStats s cfg files []) ∨
      (cfg.statsOutputEnabled = true ∧ files.writable s.makeStatsFilename = false ∧
        ∃ e, (openStats s cfg).run files = .error e files) := by
  unfold openStats withStats
  split
  next henabled =>
    rw [EStateM.run_bind, EStateM.run_get]
    dsimp only
    cases hopens : files.writable s.makeStatsFilename with
    | false => exact Or.inr ⟨henabled, rfl, _, rfl⟩
    | true =>
      rw [create_eq_ok]
      exact Or.inl rfl
  next => exact Or.inl rfl

/-- Every run ends in one of these ways. -/
theorem main_ending (s : Surroundings) (fuel : Nat) (files : Files) :
    Ending s fuel files ((main s fuel).run files) := by
  unfold main
  rw [EStateM.run_bind, EStateM.run_get]
  dsimp only
  cases hprepare : prepare s files with
  | error e => exact .unprepared e hprepare
  | ok prepared =>
    obtain ⟨cfg, store⟩ := prepared
    dsimp only
    rcases run_openStats s cfg files with hopen | ⟨henabled, hclosed, e, hopen⟩
    · rw [run_bind_ok hopen, EStateM.run_bind, EStateM.run_get]
      dsimp only
      cases hsource : createSource s cfg (withStats s cfg files []) with
      | error e => exact .noSource e hprepare hsource
      | ok source =>
        dsimp only
        cases hloop : (mainLoop s cfg fuel).run (startState s cfg store source) with
        | error e state =>
          dsimp only
          rw [run_bind_ok (run_writeStats _ state.sampler), withStats_withStats]
          exact .thrown ⟨hprepare, hsource, hloop⟩
        | ok progress state =>
          cases progress with
          | running =>
            dsimp only
            rw [run_bind_ok (run_writeStats _ state.sampler), withStats_withStats]
            exact .running ⟨hprepare, hsource, hloop⟩
          | returned value =>
            have hlooped : Looped s fuel files cfg store source (.ok (.returned ()) state) :=
              ⟨hprepare, hsource, hloop⟩
            have hfiles : (withStats s cfg (withStats s cfg files [])
                (finalSampler s cfg state).statsRows).writable = files.writable := by
              rw [writable_withStats, writable_withStats]
            dsimp only
            cases hsave : saveSnapshot s.net s.orders.save cfg.snapshotOutput
                (files.writable cfg.snapshotOutput) (storeOf (finalSampler s cfg state)) with
            | error e =>
              have hfinish := run_saveAll_error (hfiles ▸ hsave)
              rw [← run_finish] at hfinish
              rw [run_bind_error hfinish, withStats_withStats]
              exact .unsaved e hlooped hsave
            | ok saved =>
              -- every prefix of the tables has just been printed
              obtain ⟨tables, htables⟩ := @returns_exportTables s.net
                (finalSampler s cfg state).world.state (fun pfx hselected => by
                  obtain ⟨o, ho, hpfx⟩ := hlooped.backed.exists_stored s.orders.save hselected
                  rw [← hpfx]
                  exact returns_toString_of_saved ⟨saved, hsave⟩ ho) s.orders.tables
              have hfinish := run_saveAll_ok (hfiles ▸ hsave) htables
              rw [← run_finish] at hfinish
              rw [run_bind_ok hfinish, withStats_withStats]
              exact .saved hlooped hsave htables
    · rw [run_bind_error hopen]
      exact .unopened e hprepare henabled hclosed

/-- Without a configuration or a snapshot nothing is written. -/
theorem main_of_unprepared {files : Files} {e : Exception} (fuel : Nat)
    (h : prepare s files = .error e) : (main s fuel).run files = .error e files := by
  unfold main
  rw [EStateM.run_bind, EStateM.run_get]
  dsimp only
  rw [h]
  rfl

/-- No file is different but the statistics file. -/
def OutputsKept (s : Surroundings) (files files' : Files) : Prop :=
  ∀ path, path ≠ s.makeStatsFilename → files'.content path = files.content path

/-- The snapshot and the tables of one store have been written, those that
open and that do not share a path, and nothing else but the statistics. The
snapshot has been opened, or else the run has not ended well; a table may not
have been. -/
structure OutputsWritten (s : Surroundings) (cfg : Config) (files : Files) (store : Store)
    (files' : Files) : Prop where
  opened : files.writable cfg.snapshotOutput = true
  snapshot : ∃ saved,
    saveSnapshot s.net s.orders.save cfg.snapshotOutput true store = .ok saved ∧
    (cfg.snapshotOutput ≠ cfg.prefixOutput → cfg.snapshotOutput ≠ cfg.asnOutput →
      files'.content cfg.snapshotOutput = some saved.1)
  tables : ∃ tables,
    store.state.exportTables s.net s.orders.tables = .ok tables ∧
    (cfg.prefixOutput ≠ cfg.asnOutput → files.writable cfg.prefixOutput = true →
      files'.content cfg.prefixOutput = some tables.1) ∧
    (cfg.prefixOutput ≠ cfg.asnOutput → files.writable cfg.asnOutput = true →
      files'.content cfg.asnOutput = some tables.2)
  elsewhere : ∀ path, path ≠ s.makeStatsFilename → path ≠ cfg.snapshotOutput →
    path ≠ cfg.prefixOutput → path ≠ cfg.asnOutput → files'.content path = files.content path
  writable : files'.writable = files.writable
  readable : files'.readable = files.readable

/-- A snapshot whose file does not open is not saved. -/
theorem saveSnapshot_closed {net : Inet} {ord : HashOrders} {path : Bytes} {store : Store}
    {saved : Bytes × SnapshotStats} : saveSnapshot net ord path false store ≠ .ok saved := by
  intro h
  unfold saveSnapshot at h
  obtain ⟨_, -, hrest⟩ := bind_eq_ok.mp h
  obtain ⟨_, -, hthrow⟩ := bind_eq_ok.mp hrest
  cases hthrow

/-- What has been saved was saved to a file that opens. -/
theorem writable_of_saved {files : Files} {store : Store} {saved : Bytes × SnapshotStats}
    (h : saveSnapshot s.net s.orders.save cfg.snapshotOutput (files.writable cfg.snapshotOutput)
      store = .ok saved) : files.writable cfg.snapshotOutput = true := by
  cases hopens : files.writable cfg.snapshotOutput with
  | true => rfl
  | false =>
    rw [hopens] at h
    exact absurd h saveSnapshot_closed

/-- What `saveAll` leaves is what was meant: each file holds what was written
there last, and the order of the writes is that of the code. -/
theorem outputsWritten_savedFiles {files : Files} {store : Store} {samples : List GrowthSample}
    {saved : Bytes × SnapshotStats} {tables : Bytes × Bytes}
    (hsave : saveSnapshot s.net s.orders.save cfg.snapshotOutput (files.writable cfg.snapshotOutput)
      store = .ok saved) (htables : store.state.exportTables s.net s.orders.tables = .ok tables) :
    OutputsWritten s cfg files store (savedFiles cfg (withStats s cfg files samples) saved.1 tables) where
  opened := writable_of_saved hsave
  snapshot := by
    rw [writable_of_saved hsave] at hsave
    refine ⟨saved, hsave, fun htable hasn => ?_⟩
    unfold savedFiles
    rw [Files.content_writeTables_of_ne _ htable hasn, Files.content_write_self]
  tables := by
    have hwritable : ∀ path, files.writable path = true →
        ((withStats s cfg files samples).write cfg.snapshotOutput saved.1).writable path = true := by
      intro path hopen
      show (withStats s cfg files samples).writable path = true
      rw [writable_withStats]
      exact hopen
    refine ⟨tables, htables, fun hne hopen => ?_, fun hne hopen => ?_⟩
    · unfold savedFiles
      rw [Files.writeTables_of_ne _ hne, Files.content_writeIfOpens_of_ne _ hne, Files.writeIfOpens, if_pos (hwritable _ hopen),
        Files.content_write_self]
    · have hopen' := hwritable _ hopen
      unfold savedFiles
      rw [Files.writeTables_of_ne _ hne, Files.writeIfOpens, if_pos, Files.content_write_self]
      rw [Files.writeIfOpens]
      split
      next => exact hopen'
      next => exact hopen'
  elsewhere := fun path hstats hsnapshot htable hasn => by
    rw [content_savedFiles_of_ne _ _ _ hsnapshot htable hasn, content_withStats_of_ne _ _ hstats]
  writable := by
    unfold savedFiles
    rw [Files.writable_writeTables]
    exact writable_withStats files samples
  readable := by
    unfold savedFiles
    rw [Files.readable_writeTables]
    exact readable_withStats files samples

/-- The final sample does not change what is saved. -/
theorem storeOf_finalSampler (s : Surroundings) (cfg : Config) (state : MainState) :
    storeOf (finalSampler s cfg state) = storeOf state.sampler := by
  unfold storeOf finalSampler
  rw [(finalSample_world _ _ _ _).1, (finalSample_world _ _ _ _).2]

/-- The loop of a run has come to its end after these messages; they are what
its source has handed out, but for a message that was dropped for a signal. -/
structure Ingested (s : Surroundings) (fuel : Nat) (files : Files) (cfg : Config) (store : Store)
    (texts : List Bytes) (state : MainState) : Prop where
  looped : ∃ source feed, Looped s fuel files cfg store source (.ok (.returned ()) state) ∧
    HandedOut feed [] source ∧ Dropped s feed texts state.source
  reached : Reached s cfg (startWorld s cfg store) texts state.sampler

/-- A run that ends well has ingested the messages its source handed out and has
written its outputs from the objects at the end of its loop. -/
theorem main_ok {fuel : Nat} {files files' : Files}
    (h : (main s fuel).run files = .ok (.returned ()) files') :
    ∃ cfg store texts state, Ingested s fuel files cfg store texts state ∧
      OutputsWritten s cfg files (storeOf state.sampler) files' := by
  have hending := main_ending s fuel files
  rw [h] at hending
  cases hending with
  | @saved cfg store source state saved tables hlooped hsave htables =>
    obtain ⟨feed, hfeed, texts, hreached, hdropped⟩ := hlooped.stopped
    have hstate : (storeOf (finalSampler s cfg state)).state.exportTables s.net s.orders.tables =
        .ok tables := htables
    rw [storeOf_finalSampler] at hsave hstate
    exact ⟨cfg, store, texts, state,
      ⟨⟨source, feed, hlooped, hfeed, hdropped⟩, hreached⟩,
      outputsWritten_savedFiles hsave hstate⟩

/-- They are those of the loop that is known. -/
theorem Ingested.outputsWritten {fuel : Nat} {files files' : Files} {store : Store}
    {texts : List Bytes} {state : MainState} (h : Ingested s fuel files cfg store texts state)
    (hrun : (main s fuel).run files = .ok (.returned ()) files') :
    OutputsWritten s cfg files (storeOf state.sampler) files' ∧ loadStore s cfg files = .ok store := by
  obtain ⟨source, feed, hlooped, -⟩ := h.looped
  obtain ⟨cfg', store', texts', state', h', hwritten⟩ := main_ok hrun
  obtain ⟨source', feed', hlooped', -⟩ := h'.looped
  obtain ⟨rfl, rfl, hended⟩ := hlooped.unique hlooped'
  cases hended
  exact ⟨hwritten, loadStore_of_prepare hlooped.prepared⟩

/-- A run whose loop comes to its end ends well, if the statistics file opens
and the snapshot can be saved. -/
theorem main_of_looped {fuel : Nat} {files : Files} {store : Store} {source : BgpSource}
    {state : MainState} (h : Looped s fuel files cfg store source (.ok (.returned ()) state))
    (hstats : cfg.statsOutputEnabled = true → files.writable s.makeStatsFilename = true)
    (hsave : Returns (saveSnapshot s.net s.orders.save cfg.snapshotOutput
      (files.writable cfg.snapshotOutput) (storeOf state.sampler))) :
    ∃ files', (main s fuel).run files = .ok (.returned ()) files' := by
  have hending := main_ending s fuel files
  generalize (main s fuel).run files = result at hending
  cases hending with
  | unprepared e hnone =>
    rw [h.prepared] at hnone
    cases hnone
  | unopened e hprepared henabled hclosed =>
    rw [h.prepared] at hprepared
    cases hprepared
    rw [hstats henabled] at hclosed
    cases hclosed
  | noSource e hprepared hnone =>
    rw [h.prepared] at hprepared
    cases hprepared
    rw [h.created] at hnone
    cases hnone
  | thrown h' => cases (h.unique h').2.2
  | running h' => cases (h.unique h').2.2
  | unsaved e h' hfailed =>
    obtain ⟨rfl, -, hended⟩ := h.unique h'
    cases hended
    obtain ⟨saved, hsaved⟩ := hsave
    rw [storeOf_finalSampler, hsaved] at hfailed
    cases hfailed
  | saved _ _ _ => exact ⟨_, rfl⟩

/-- A run that fails has written nothing but statistics: whatever throws does so
before the first output is written. -/
theorem main_error {fuel : Nat} {files files' : Files} {e : Exception}
    (h : (main s fuel).run files = .error e files') : OutputsKept s files files' := by
  have hending := main_ending s fuel files
  rw [h] at hending
  cases hending with
  | unprepared e _ => exact fun path _ => rfl
  | unopened e _ _ _ => exact fun path _ => rfl
  | noSource e _ _ => exact fun path hpath => content_withStats_of_ne files _ hpath
  | thrown _ => exact fun path hpath => content_withStats_of_ne files _ hpath
  | unsaved e _ _ => exact fun path hpath => content_withStats_of_ne files _ hpath

/-- A run that is cut off in its loop has written nothing but statistics. -/
theorem main_running {fuel : Nat} {files files' : Files}
    (h : (main s fuel).run files = .ok .running files') : OutputsKept s files files' := by
  have hending := main_ending s fuel files
  rw [h] at hending
  cases hending with
  | running _ => exact fun path hpath => content_withStats_of_ne files _ hpath

/-- The rows written at a loop head make a readable file, and so do those after
a final sample. -/
theorem Reached.statsFile {store : Store} {texts : List Bytes} {sampler : Sampler}
    (h : Reached s cfg (startWorld s cfg store) texts sampler) :
    StatsFile (statsText sampler.statsRows) sampler.statsRows ∧
      StatsFile (statsText (sampler.finalSample cfg.statsOutputEnabled (s.clocks.finalAt texts.length)
          (s.clocks.finalTimestampMs texts.length)).statsRows)
        (sampler.finalSample cfg.statsOutputEnabled (s.clocks.finalAt texts.length)
          (s.clocks.finalTimestampMs texts.length)).statsRows :=
  MainLoop.statsFile h.mainLoop (s.clocks.finalAt_ge texts.length) _

/-- Samples of a run that has ingested these messages: those of the loop head it
has reached, or these and the final one. -/
def SampledAfter (s : Surroundings) (cfg : Config) (start : World) (texts : List Bytes)
    (samples : List GrowthSample) : Prop :=
  ∃ sampler, Reached s cfg start texts sampler ∧
    (samples = sampler.statsRows ∨
      samples = (sampler.finalSample cfg.statsOutputEnabled (s.clocks.finalAt texts.length)
        (s.clocks.finalTimestampMs texts.length)).statsRows)

/-- Samples taken at a loop head make a file that can be read back. -/
theorem SampledAfter.statsFile {store : Store} {texts : List Bytes} {samples : List GrowthSample}
    (h : SampledAfter s cfg (startWorld s cfg store) texts samples) :
    StatsFile (statsText samples) samples := by
  obtain ⟨sampler, hreached, rfl | rfl⟩ := h
  · exact hreached.statsFile.1
  · exact hreached.statsFile.2

end ASNPrefixMap.Program
