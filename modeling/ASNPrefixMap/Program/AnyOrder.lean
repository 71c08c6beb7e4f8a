import ASNPrefixMap.Ingest.AnyOrder
import ASNPrefixMap.Program.Outputs
import ASNPrefixMap.Routing.TableLines
import ASNPrefixMap.Snapshot.AnyOrder

/-!
# Iteration orders do not show

The program walks over hash maps wherever it loads, seeds, rescans, saves and
exports, and the language leaves open in which order. Every walk but two forgets
the order at once: the loop and the statistics are the same function of what was
loaded (`mainLoop_reorder`, `startState_reorder`), and a snapshot is sorted
before it is written. The two are the loops of the export, whose lines stand as
they are met. So however a run ends, another one with other orders ends with the
same exit code and the same files, but for the order of the lines of the two
tables (`orders_invisible`). This takes that the tables go to two files, and
that no peer has been loaded under the last id, see
`ASNPrefixMap.Snapshot.AnyOrder`.
-/

namespace ASNPrefixMap.Program

open Lib Prefix Peer Routing Stats Ingest Snapshot Source
open ASNPrefixMap.Parser

/-- The same surroundings, but for the orders in which hash maps are walked. -/
def Surroundings.reorder (s : Surroundings) (orders : RunOrders) : Surroundings :=
  { s with orders := orders }

variable {s : Surroundings} {orders : RunOrders} {cfg : Config}

/-! ## The loop -/

/-- A round does not depend on the order in which the counters of a record are
rescanned. -/
theorem ingestRound_reorder (message : Bytes) :
    ingestRound (s.reorder orders) cfg message = ingestRound s cfg message := by
  unfold ingestRound
  refine bind_congr fun state => ?_
  dsimp only
  rw [ingestMessage_order _ _ ((s.reorder orders).orders.round state.rounds)
    (s.orders.round state.rounds)]
  rfl

/-- So the loop does not depend on any of the orders of its rounds, by induction
on its bound. -/
theorem mainLoop_reorder : ∀ fuel, mainLoop (s.reorder orders) cfg fuel = mainLoop s cfg fuel := by
  intro fuel
  induction fuel with
  | zero => rfl
  | succ fuel ih =>
    unfold mainLoop
    rw [ih]
    simp only [ingestRound_reorder]
    rfl

/-- The tracker is seeded with sets, so the order of the seeding is lost. -/
theorem startState_reorder (store : Store) (source : BgpSource) :
    startState (s.reorder orders) cfg store source = startState s cfg store source := by
  unfold startState startWorld seededWorld
  rw [seedFromState_order (s.reorder orders).orders.seed s.orders.seed]
  rfl

/-! ## Before the loop -/

/-- A snapshot that can be loaded gives the same store in any order. -/
theorem loadStore_reorder {files : Files} {store : Store} (h : loadStore s cfg files = .ok store)
    (hlast : store.registry.contains lastPeerId = false) (orders : RunOrders) :
    loadStore (s.reorder orders) cfg files = .ok store := by
  unfold loadStore at h ⊢
  split
  next hexists =>
    rw [if_pos hexists] at h
    cases hload : (loadSnapshot s.net s.orders.load s.orders.peers cfg.snapshotInput
        (files.opened cfg.snapshotInput)).run {} with
    | error e store' =>
      rw [hload] at h
      cases h
    | ok stats store' =>
      rw [hload] at h
      cases h
      unfold Surroundings.reorder
      dsimp only
      rw [loadSnapshot_order hload hlast orders.load orders.peers]
  next hexists =>
    rw [if_neg hexists] at h
    exact h

/-- One that cannot be loaded cannot be in another order, though the exception
may be another. -/
theorem loadStore_reorder_error {files : Files} {e : Exception}
    (h : loadStore s cfg files = .error e) (orders : RunOrders) :
    ∃ e', loadStore (s.reorder orders) cfg files = .error e' := by
  unfold loadStore at h ⊢
  split
  next hexists =>
    rw [if_pos hexists] at h
    cases hload : (loadSnapshot s.net s.orders.load s.orders.peers cfg.snapshotInput
        (files.opened cfg.snapshotInput)).run {} with
    | ok stats store' =>
      rw [hload] at h
      cases h
    | error e store' =>
      obtain ⟨e', store₁, hload'⟩ := loadSnapshot_order_error hload orders.load orders.peers
      refine ⟨e', ?_⟩
      unfold Surroundings.reorder
      dsimp only
      rw [hload']
  next hexists =>
    rw [if_neg hexists] at h
    cases h

theorem prepare_reorder {files : Files} {store : Store} (h : prepare s files = .ok (cfg, store))
    (hlast : store.registry.contains lastPeerId = false) (orders : RunOrders) :
    prepare (s.reorder orders) files = .ok (cfg, store) := by
  unfold prepare at h ⊢
  obtain ⟨cfg', hconfig, hrest⟩ := bind_eq_ok.mp h
  obtain ⟨store', hload, heq⟩ := bind_eq_ok.mp hrest
  cases heq
  have hconfig' : Config.loadConfig (s.reorder orders).stod configFile (files.opened configFile) =
      .ok cfg := hconfig
  rw [hconfig', ok_bind, loadStore_reorder hload hlast orders]
  rfl

theorem prepare_reorder_error {files : Files} {e : Exception} (h : prepare s files = .error e)
    (orders : RunOrders) : ∃ e', prepare (s.reorder orders) files = .error e' := by
  unfold prepare at h ⊢
  have hstod : (s.reorder orders).stod = s.stod := rfl
  rw [hstod]
  cases hconfig : Config.loadConfig s.stod configFile (files.opened configFile) with
  | error e' => exact ⟨e', rfl⟩
  | ok cfg =>
    rw [hconfig, ok_bind] at h
    cases hload : loadStore s cfg files with
    | error e' =>
      obtain ⟨e'', hload'⟩ := loadStore_reorder_error hload orders
      exact ⟨e'', by rw [ok_bind, hload', error_bind]⟩
    | ok store =>
      rw [hload] at h
      cases h

/-! ## The files -/

/-- The same files, but for the order of the lines of the two tables. -/
structure SameButOrder (cfg : Config) (files files' : Files) : Prop where
  elsewhere : ∀ path, path ≠ cfg.prefixOutput → path ≠ cfg.asnOutput →
    files.content path = files'.content path
  lines : ∀ path, Option.Rel SameLines (files.content path) (files'.content path)

theorem rel_sameLines_refl (content : Option Bytes) : Option.Rel SameLines content content := by
  cases content with
  | none => exact .none
  | some text => exact .some (SameLines.refl text)

theorem SameButOrder.refl (cfg : Config) (files : Files) : SameButOrder cfg files files :=
  ⟨fun _ _ _ => rfl, fun path => rel_sameLines_refl (files.content path)⟩

/-- A file written over with the same lines. -/
theorem lines_writeIfOpens {files files' : Files}
    (h : ∀ path, Option.Rel SameLines (files.content path) (files'.content path))
    (hwritable : files.writable = files'.writable) (path : Bytes) {text text' : Bytes}
    (hlines : SameLines text text') : ∀ path', Option.Rel SameLines
      ((files.writeIfOpens path text).content path') ((files'.writeIfOpens path text').content path') := by
  intro path'
  by_cases heq : path' = path
  · unfold Files.writeIfOpens
    rw [hwritable, heq]
    split
    next =>
      rw [Files.content_write_self, Files.content_write_self]
      exact .some hlines
    next => exact h path
  · rw [Files.content_writeIfOpens_of_ne _ heq, Files.content_writeIfOpens_of_ne _ heq]
    exact h path'

/-- The outputs of two exports that differ in the order of their lines. -/
theorem sameButOrder_savedFiles (hapart : cfg.prefixOutput ≠ cfg.asnOutput) (files : Files)
    (snapshot : Bytes) {tables tables' : Bytes × Bytes}
    (hlines : SameLines tables.1 tables'.1 ∧ SameLines tables.2 tables'.2) :
    SameButOrder cfg (savedFiles cfg files snapshot tables) (savedFiles cfg files snapshot tables') := by
  unfold savedFiles
  rw [Files.writeTables_of_ne _ hapart, Files.writeTables_of_ne _ hapart]
  constructor
  · intro path hprefix hasn
    rw [Files.content_writeIfOpens_of_ne _ hasn, Files.content_writeIfOpens_of_ne _ hprefix,
      Files.content_writeIfOpens_of_ne _ hasn, Files.content_writeIfOpens_of_ne _ hprefix]
  · refine lines_writeIfOpens (lines_writeIfOpens (fun path => rel_sameLines_refl _) rfl _ hlines.1) ?_
      _ hlines.2
    rw [Files.writable_writeIfOpens, Files.writable_writeIfOpens]

/-! ## The program -/

/-- Two ends of a run that look the same from outside. -/
inductive EndsAlike {α : Type} (cfg : Config) :
    EStateM.Result Exception Files α → EStateM.Result Exception Files α → Prop
  | ended (value : α) {files files' : Files} : SameButOrder cfg files files' →
    EndsAlike cfg (.ok value files) (.ok value files')
  | thrown (e e' : Exception) {files files' : Files} : SameButOrder cfg files files' →
    EndsAlike cfg (.error e files) (.error e' files')

theorem EndsAlike.refl {α : Type} (cfg : Config) (result : EStateM.Result Exception Files α) :
    EndsAlike cfg result result := by
  cases result with
  | ok value files => exact .ended value (.refl cfg files)
  | error e files => exact .thrown e e (.refl cfg files)

/-- What is returned in the end is not in the files. -/
theorem EndsAlike.andReturn {α β : Type} {x y : ProgramM α} {files : Files}
    (h : EndsAlike cfg (x.run files) (y.run files)) (value : β) :
    EndsAlike cfg ((do let _ ← x; return value).run files) ((do let _ ← y; return value).run files) := by
  rw [EStateM.run_bind, EStateM.run_bind]
  revert h
  generalize x.run files = result
  generalize y.run files = result'
  intro h
  cases h with
  | ended _ hfiles => exact .ended value hfiles
  | thrown e e' hfiles => exact .thrown e e' hfiles

/-- What is saved, and what is printed, is the same. -/
theorem saveAll_reorder {store : Store} (hapart : cfg.prefixOutput ≠ cfg.asnOutput)
    (hbacked : store.state.Backed) (orders : RunOrders) (files : Files) :
    EndsAlike cfg ((saveAll s cfg store).run files)
      ((saveAll (s.reorder orders) cfg store).run files) := by
  cases hsave : saveSnapshot s.net s.orders.save cfg.snapshotOutput
      (files.writable cfg.snapshotOutput) store with
  | error e =>
    cases hsave' : saveSnapshot s.net orders.save cfg.snapshotOutput
        (files.writable cfg.snapshotOutput) store with
    | ok saved' =>
      rw [saveSnapshot_order hsave' s.orders.save] at hsave
      cases hsave
    | error e' =>
      rw [run_saveAll_error hsave, @run_saveAll_error (s.reorder orders) _ _ _ _ hsave']
      exact .thrown e e' (.refl cfg files)
  | ok saved =>
    have hprinted : ∀ pfx, store.state.selected pfx ≠ none → Returns (pfx.toString s.net) := by
      intro pfx hselected
      obtain ⟨o, ho, hpfx⟩ := hbacked.exists_stored s.orders.save hselected
      rw [← hpfx]
      exact returns_toString_of_saved ⟨saved, hsave⟩ ho
    obtain ⟨tables, htables⟩ := returns_exportTables hprinted s.orders.tables
    obtain ⟨tables', htables'⟩ := returns_exportTables hprinted orders.tables
    rw [run_saveAll_ok hsave htables, @run_saveAll_ok (s.reorder orders) _ _ _ _ _
      (saveSnapshot_order hsave orders.save) htables']
    exact .ended ()
      (sameButOrder_savedFiles hapart files saved.1 (exportTables_sameLines htables htables'))

/-- The program from its start on, once its snapshot can be loaded: the loop is
the same, and the two ends differ in the lines of the tables. -/
theorem main_reorder {files : Files} {store : Store} (h : prepare s files = .ok (cfg, store))
    (hlast : store.registry.contains lastPeerId = false)
    (hapart : cfg.prefixOutput ≠ cfg.asnOutput) (orders : RunOrders) (fuel : Nat) :
    EndsAlike cfg ((main s fuel).run files) ((main (s.reorder orders) fuel).run files) := by
  unfold main
  rw [EStateM.run_bind, EStateM.run_get, EStateM.run_bind, EStateM.run_get]
  dsimp only
  rw [h, prepare_reorder h hlast orders]
  dsimp only
  -- the statistics file, the source and the loop are those of the other run
  have hopenStats : openStats (s.reorder orders) cfg = openStats s cfg := rfl
  have hsource : createSource (s.reorder orders) cfg = createSource s cfg := rfl
  rw [hopenStats]
  rcases run_openStats s cfg files with hopen | ⟨-, -, e, hopen⟩
  · rw [run_bind_ok hopen, run_bind_ok hopen, EStateM.run_bind, EStateM.run_get, EStateM.run_bind,
      EStateM.run_get]
    dsimp only
    rw [hsource]
    cases hcreated : createSource s cfg (withStats s cfg files []) with
    | error e => exact .refl cfg _
    | ok source =>
      dsimp only
      rw [mainLoop_reorder, startState_reorder]
      cases hloop : (mainLoop s cfg fuel).run (startState s cfg store source) with
      | error e state => exact .refl cfg _
      | ok progress state =>
        cases progress with
        | running => exact .refl cfg _
        | returned value =>
          have hlooped : Looped s fuel files cfg store source (.ok (.returned value) state) :=
            ⟨h, hcreated, hloop⟩
          refine EndsAlike.andReturn ?_ _
          rw [run_finish, run_finish]
          exact saveAll_reorder hapart hlooped.backed orders _
  · rw [run_bind_error hopen, run_bind_error hopen]
    exact .refl cfg _

/-- Nobody is loaded under the last id. -/
def LastIdUnused (s : Surroundings) (files : Files) : Prop :=
  ∀ cfg store, prepare s files = .ok (cfg, store) → store.registry.contains lastPeerId = false

/-- The two tables go to two files. On one file their streams overlay each
other, and how much is left of which line depends on where in the tables it
stands. -/
def TablesApart (s : Surroundings) (files : Files) : Prop :=
  ∀ cfg store, prepare s files = .ok (cfg, store) → cfg.prefixOutput ≠ cfg.asnOutput

/-- A file that a run writes a table to. -/
def IsTable (s : Surroundings) (files : Files) (path : Bytes) : Prop :=
  ∃ cfg store, prepare s files = .ok (cfg, store) ∧
    (path = cfg.prefixOutput ∨ path = cfg.asnOutput)

/-- **Iteration orders do not show.** Whatever the orders in which hash maps are
walked, the program ends with the same exit code and leaves the same files, but
for the order of the lines of the two tables, if these are two files. -/
theorem orders_invisible {files : Files} (hlast : LastIdUnused s files)
    (hapart : TablesApart s files) (orders : RunOrders) (fuel : Nat) :
    (runProgram s fuel files).1 = (runProgram (s.reorder orders) fuel files).1 ∧
      ∀ path, Option.Rel SameLines ((runProgram s fuel files).2.content path)
          ((runProgram (s.reorder orders) fuel files).2.content path) ∧
        (¬ IsTable s files path → (runProgram s fuel files).2.content path =
          (runProgram (s.reorder orders) fuel files).2.content path) := by
  cases hprepare : prepare s files with
  | error e =>
    obtain ⟨e', hprepare'⟩ := prepare_reorder_error hprepare orders
    have hrun : ∀ {s : Surroundings} {e : Exception}, prepare s files = .error e →
        runProgram s fuel files = (.returned 1, files) := by
      intro s e h
      unfold runProgram
      rw [main_of_unprepared fuel h]
    rw [hrun hprepare, hrun hprepare']
    exact ⟨rfl, fun path => ⟨rel_sameLines_refl _, fun _ => rfl⟩⟩
  | ok prepared =>
    obtain ⟨cfg, store⟩ := prepared
    have hends := main_reorder hprepare (hlast cfg store hprepare) (hapart cfg store hprepare) orders
      fuel
    have hfiles : ∀ {f f' : Files}, SameButOrder cfg f f' → ∀ path,
        Option.Rel SameLines (f.content path) (f'.content path) ∧
          (¬ IsTable s files path → f.content path = f'.content path) := by
      refine fun h path => ⟨h.lines path, fun hno => h.elsewhere path (fun heq => ?_) fun heq => ?_⟩
      · exact hno ⟨cfg, store, hprepare, Or.inl heq⟩
      · exact hno ⟨cfg, store, hprepare, Or.inr heq⟩
    unfold runProgram
    revert hends
    generalize (main s fuel).run files = result
    generalize (main (s.reorder orders) fuel).run files = result'
    intro hends
    cases hends with
    | ended progress h =>
      cases progress with
      | running => exact ⟨rfl, hfiles h⟩
      | returned _ => exact ⟨rfl, hfiles h⟩
    | thrown e e' h => exact ⟨rfl, hfiles h⟩

/-! ## A run the other way round -/

/-- The maps of the routing state, each in descending order of its keys. -/
def HashOrders.descending : HashOrders where
  counts := HashOrders.ascending.counts.reversed
  recordsV4 := HashOrders.ascending.recordsV4.reversed
  recordsV6 := HashOrders.ascending.recordsV6.reversed

/-- Every map in descending order of its keys. -/
def RunOrders.descending : RunOrders where
  peers := RunOrders.ascending.peers.reversed
  load := HashOrders.descending
  seed := HashOrders.descending
  round _ := HashOrders.descending
  save := HashOrders.descending
  tables :=
    { aggregatedV4 := ExportOrders.ascending.aggregatedV4.reversed
      aggregatedV6 := ExportOrders.ascending.aggregatedV6.reversed
      asnMap := ExportOrders.ascending.asnMap.reversed }

theorem orders_invisible_descending :
    let files := quietFiles [rrc00Text, rrc10Text]
    let result := runProgram (quiet twoPeersParse) 3 files
    let result' := runProgram ((quiet twoPeersParse).reorder .descending) 3 files
    result.1 = result'.1 ∧ ∀ path,
      Option.Rel SameLines (result.2.content path) (result'.2.content path) ∧
      (¬ IsTable (quiet twoPeersParse) files path → result.2.content path = result'.2.content path) :=
  orders_invisible (fun _ _ h => by cases (prepare_quiet _ _).symm.trans h; rfl)
    (fun _ _ h => by cases (prepare_quiet _ _).symm.trans h; decide) .descending 3

end ASNPrefixMap.Program
