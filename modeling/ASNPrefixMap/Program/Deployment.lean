import ASNPrefixMap.Program.Replay
import ASNPrefixMap.Snapshot.Restart

/-!
# Runs that go on from each other

A program that is stopped and started again goes on from the snapshot of the run
before. Whatever becomes of ids and counters on the way, the tables of the last
run are the vote of the peers over the messages of all of them
(`deployment_tables`). The snapshot is what carries this: a store that holds the
last words in some messages is saved as a text from which a store is loaded that
holds them too (`loaded_of_holds`), and an ingest adds its own
(`Reached.holds`). And it never keeps the program from starting: whether a
replay can go on from it is up to its messages (`deployment_goes_on`).
-/

namespace ASNPrefixMap.Program

open Lib Prefix Peer Routing Stats Ingest Snapshot Source
open ASNPrefixMap.Parser

variable {s : Surroundings} {cfg : Config}

/-! ## From one run to the next -/

/-- **The snapshot carries the last words over**, and the loaded store has room
for the peers to come. -/
theorem loaded_of_holds {jsonParse : JsonParse} {net : Inet} (hnet : net.RoundTrips)
    {before : List Bytes} {store : Store}
    (h : Holds jsonParse net before store.registry store.state)
    (hplain : ∀ text ∈ before, ∀ peer, messagePeer jsonParse text = some peer → Plain peer)
    {ord : HashOrders} {path : Bytes} {saved : Bytes × SnapshotStats}
    (hsave : saveSnapshot net ord path true store = .ok saved) {T : Finset PeerInfo}
    (hroom : before.length + T.card < 2 ^ 32 - 1) (ord' : HashOrders)
    (peerOrd : IterOrder PeerId PeerInfo) (path' : Bytes) :
    ∃ stats store' limit,
      (loadSnapshot net ord' peerOrd path' (some saved.1)).run {} = .ok stats store' ∧
      limit ≤ before.length + T.card ∧ StoreInv T limit store'.registry store'.state ∧
      peerMap store'.registry store'.state = lastWords jsonParse net before := by
  obtain ⟨S, limit, hlimit, hinv, hmap⟩ := h
  obtain ⟨peers, observations, stats, hsave', hw⟩ := @saveSnapshot_spec net ord hnet S limit store hinv path
  rw [hsave] at hsave'
  cases hsave'
  have hused : UsedPeersPlain ord store := usedPeersPlain_of_messages hinv hmap hplain
  obtain ⟨loaded, store', hload, hinv', hlive, hlookup⟩ := @loadSnapshot_written net ord ord' S T limit
    store hinv peers observations hw (fun peer => hw.plain_of_used hinv hused) (by omega) peerOrd path' {}
  refine ⟨loaded, store', limit + T.card, hload, by omega, hinv', ?_⟩
  rw [peerMap_eq_of_live_eq hinv hinv' hlive fun i p => (hlookup i p).trans (hw.peers_iff i p), hmap]

/-- The run loads this snapshot. -/
def GoesOn (cfg : Config) (files : Files) (snapshot : Option Bytes) : Prop :=
  cfg.snapshotInput ≠ [] ∧ snapshot ≠ none ∧ files.opened cfg.snapshotInput = snapshot

theorem exist_of_opened {files : Files} {path text : Bytes} (h : files.opened path = some text) :
    files.exist path = true := by
  unfold Files.opened at h
  split at h
  next => rw [Files.exist, h, Option.isSome_some]
  next => cases h

/-- A run that goes on from a snapshot loads it. -/
theorem loadStore_of_goesOn {files : Files} {text : Bytes} (h : GoesOn cfg files (some text))
    {stats : SnapshotStats} {store : Store}
    (hload : (loadSnapshot s.net s.orders.load s.orders.peers cfg.snapshotInput (some text)).run {} =
      .ok stats store) : loadStore s cfg files = .ok store := by
  obtain ⟨hne, -, hopened⟩ := h
  unfold loadStore
  rw [if_pos ⟨hne, exist_of_opened hopened⟩, hopened, hload]

/-- A run that goes on from the snapshot of a store starts from the words it
holds. -/
theorem loads_of_goesOn (hnet : s.net.RoundTrips) {before texts : List Bytes} {stored : Store}
    (hholds : Holds s.jsonParse s.net before stored.registry stored.state)
    (hplain : ∀ text ∈ before, ∀ peer, messagePeer s.jsonParse text = some peer → Plain peer)
    {ord : HashOrders} {path : Bytes} {saved : Bytes × SnapshotStats}
    (hsave : saveSnapshot s.net ord path true stored = .ok saved)
    (hlen : before.length + texts.length < 2 ^ 32 - 1) {files : Files}
    (hgoes : GoesOn cfg files (some saved.1)) :
    ∃ store, loadStore s cfg files = .ok store ∧ StartsFrom s before texts store := by
  have hcard := @card_namedPeers_le s.jsonParse texts
  obtain ⟨stats, store, limit, hloaded, hlimit, hinv, hmap⟩ := loaded_of_holds hnet hholds hplain hsave
    (show before.length + (namedPeers s.jsonParse texts).card < 2 ^ 32 - 1 by omega)
    s.orders.load s.orders.peers cfg.snapshotInput
  exact ⟨store, loadStore_of_goesOn hgoes hloaded,
    ⟨limit, Nat.le_trans hlimit (Nat.add_le_add_left hcard _), hinv⟩, hmap⟩

/-- Whatever store it has loaded holds the words of before. -/
theorem startsFrom_of_goesOn (hnet : s.net.RoundTrips) {before texts : List Bytes} {stored : Store}
    (hholds : Holds s.jsonParse s.net before stored.registry stored.state)
    (hplain : ∀ text ∈ before, ∀ peer, messagePeer s.jsonParse text = some peer → Plain peer)
    {ord : HashOrders} {path : Bytes} {saved : Bytes × SnapshotStats}
    (hsave : saveSnapshot s.net ord path true stored = .ok saved)
    (hlen : before.length + texts.length < 2 ^ 32 - 1) {files : Files} {store : Store}
    (hgoes : GoesOn cfg files (some saved.1)) (hload : loadStore s cfg files = .ok store) :
    StartsFrom s before texts store := by
  obtain ⟨store', hload', hstart⟩ := loads_of_goesOn hnet hholds hplain hsave hlen hgoes
  rw [hload] at hload'
  cases hload'
  exact hstart

/-- A sequence of runs that all end well, with the messages they have
ingested, and the configuration of the last one and the files it has left.
Libraries do not change; between two runs anything may happen to the files but
the snapshot. -/
inductive Deployment (jsonParse : JsonParse) (net : Inet) : List Bytes → Config → Files → Prop
  | first {s : Surroundings} {fuel : Nat} {files files' : Files} {cfg : Config} {store : Store}
    {texts : List Bytes} {state : MainState} :
    s.jsonParse = jsonParse → s.net = net →
    (main s fuel).run files = .ok (.returned ()) files' →
    Ingested s fuel files cfg store texts state →
    StartsFresh cfg files → OutputsApart cfg →
    Deployment jsonParse net texts cfg files'
  | next {before : List Bytes} {cfg₀ : Config} {files₀ : Files} {s : Surroundings} {fuel : Nat}
    {files files' : Files} {cfg : Config} {store : Store} {texts : List Bytes} {state : MainState} :
    Deployment jsonParse net before cfg₀ files₀ →
    s.jsonParse = jsonParse → s.net = net →
    (main s fuel).run files = .ok (.returned ()) files' →
    Ingested s fuel files cfg store texts state →
    GoesOn cfg files (files₀.content cfg₀.snapshotOutput) → OutputsApart cfg →
    Deployment jsonParse net (before ++ texts) cfg files'

/-- A run that ends well and goes on from a snapshot. -/
structure Follows (jsonParse : JsonParse) (net : Inet) (snapshot : Bytes) (texts : List Bytes)
    (cfg : Config) (files' : Files) : Prop where
  run : ∃ s fuel files store state, s.jsonParse = jsonParse ∧ s.net = net ∧
    (main s fuel).run files = .ok (.returned ()) files' ∧
    Ingested s fuel files cfg store texts state ∧ GoesOn cfg files (some snapshot)
  apart : OutputsApart cfg

theorem Deployment.follow {jsonParse : JsonParse} {net : Inet} {before texts : List Bytes}
    {cfg₀ : Config} {files₀ files' : Files}
    (h : Deployment jsonParse net before cfg₀ files₀) {snapshot : Bytes}
    (hsnapshot : files₀.content cfg₀.snapshotOutput = some snapshot)
    (hnext : Follows jsonParse net snapshot texts cfg files') :
    Deployment jsonParse net (before ++ texts) cfg files' := by
  obtain ⟨⟨s, fuel, files, store, state, hparse, hs, hrun, hingested, hgoes⟩, hapart⟩ := hnext
  exact .next h hparse hs hrun hingested (hsnapshot ▸ hgoes) hapart

/-- The invariant of a deployment: its last run leaves a snapshot and the tables
of all messages, by induction on the runs. -/
theorem Deployment.left {jsonParse : JsonParse} {net : Inet} (hnet : net.RoundTrips)
    (htells : net.TellsApart) {texts : List Bytes} {cfg : Config} {files : Files}
    (h : Deployment jsonParse net texts cfg files)
    (hlen : texts.length < 2 ^ 32 - 1)
    (hplain : ∀ text ∈ texts, ∀ peer, messagePeer jsonParse text = some peer → Plain peer) :
    Left jsonParse net texts cfg files := by
  induction h with
  | @first s fuel files files' cfg store texts state hparse hs hrun hingested hfresh hapart =>
    subst hparse hs
    have hload := (hingested.outputsWritten hrun).2
    rw [loadStore_of_startsFresh hfresh] at hload
    cases hload
    exact hingested.left hrun hapart htells (startsFrom_empty s (by omega))
  | @next before cfg₀ files₀ s fuel files files' cfg store texts state _ hparse hs hrun hingested
      hgoes hapart ih =>
    subst hparse hs
    rw [List.length_append] at hlen
    obtain ⟨⟨stored, ord, saved, hholds, hsave, hcontent⟩, -⟩ :=
      ih (by omega) fun text hmem => hplain text (List.mem_append_left _ hmem)
    exact hingested.left hrun hapart htells (startsFrom_of_goesOn hnet hholds
      (fun text hmem => hplain text (List.mem_append_left _ hmem)) hsave hlen (hcontent ▸ hgoes)
      (hingested.outputsWritten hrun).2)

/-- **Restarts do not show in the tables.** After any number of runs, each of
which goes on from the snapshot of the one before, the tables of the last are
those of all their messages. -/
theorem deployment_tables {jsonParse : JsonParse} {net : Inet} (hnet : net.RoundTrips)
    (htells : net.TellsApart) {texts : List Bytes} {cfg : Config} {files : Files}
    (h : Deployment jsonParse net texts cfg files) (hlen : texts.length < 2 ^ 32 - 1)
    (hplain : ∀ text ∈ texts, ∀ peer, messagePeer jsonParse text = some peer → Plain peer) :
    TablesLeft jsonParse net texts cfg files :=
  (h.left hnet htells hlen hplain).tables

/-! ## The next run -/

/-- The snapshot of a deployment can be loaded, and the store has room for more
peers. -/
theorem Deployment.loads (hnet : s.net.RoundTrips) (htells : s.net.TellsApart)
    {before texts : List Bytes} {cfg₀ : Config} {files₀ : Files}
    (h : Deployment s.jsonParse s.net before cfg₀ files₀)
    (hlen : before.length + texts.length < 2 ^ 32 - 1)
    (hplain : ∀ text ∈ before, ∀ peer, messagePeer s.jsonParse text = some peer → Plain peer)
    {files : Files} (hgoes : GoesOn cfg files (files₀.content cfg₀.snapshotOutput)) :
    ∃ store, loadStore s cfg files = .ok store ∧ StartsFrom s before texts store := by
  obtain ⟨⟨stored, ord, saved, hholds, hsave, hcontent⟩, -⟩ := h.left hnet htells (by omega) hplain
  rw [hcontent] at hgoes
  exact loads_of_goesOn hnet hholds hplain hsave hlen hgoes

/-- **A deployment can go on.** A replay that goes on from the snapshot of any
deployment is decided by its messages: if each can be ingested and the snapshot
can be written, the exit code is 0 and the deployment has them too; if not, the
exit code is 1 and all outputs are as they were. The input is not the statistics
file of the run, which grows while it is read. -/
theorem deployment_goes_on (hnet : s.net.RoundTrips) (htells : s.net.TellsApart)
    {before : List Bytes} {cfg₀ : Config} {files₀ files : Files} {source : FileJsonlSource} {fuel : Nat}
    (h : Deployment s.jsonParse s.net before cfg₀ files₀)
    (hplain : ∀ text ∈ before, ∀ peer, messagePeer s.jsonParse text = some peer → Plain peer)
    (hconfig : Config.loadConfig s.stod configFile (files.opened configFile) = .ok cfg)
    (hgoes : GoesOn cfg files (files₀.content cfg₀.snapshotOutput))
    (hinput : cfg.inputFile ≠ s.makeStatsFilename)
    (hsource : createSource s cfg files = .ok (.fileJsonl source))
    (hstats : cfg.statsOutputEnabled = true → files.writable s.makeStatsFilename = true)
    (hapart : OutputsApart cfg)
    (hlen : before.length + source.messages.length < 2 ^ 32 - 1) (hfuel : source.messages.length < fuel) :
    (Usable s (source.messages.take (replayLength s cfg source.messages)) ∧
        files.writable cfg.snapshotOutput = true →
      ∃ files', runProgram s fuel files = (.returned 0, files') ∧
        Deployment s.jsonParse s.net
          (before ++ source.messages.take (replayLength s cfg source.messages)) cfg files' ∧
        TablesLeft s.jsonParse s.net
          (before ++ source.messages.take (replayLength s cfg source.messages)) cfg files') ∧
    (¬ (Usable s (source.messages.take (replayLength s cfg source.messages)) ∧
        files.writable cfg.snapshotOutput = true) →
      ∃ files', runProgram s fuel files = (.returned 1, files') ∧ OutputsKept s files files') := by
  have hshort := List.length_take_le' (replayLength s cfg source.messages) source.messages
  obtain ⟨store, hload, hstart⟩ := @Deployment.loads s cfg hnet htells before
    (source.messages.take (replayLength s cfg source.messages)) cfg₀ files₀ h (by omega) hplain files hgoes
  have hprepare : prepare s files = .ok (cfg, store) := by
    unfold prepare
    rw [hconfig, ok_bind, hload]
    rfl
  constructor
  · rintro ⟨husable, hopens⟩
    obtain ⟨state, files', hrun, hingested⟩ :=
      replay_succeeds hnet hprepare hstart hinput hsource hstats hfuel husable hopens
    refine ⟨files', ?_, .next h rfl rfl hrun hingested hgoes hapart,
      (hingested.left hrun hapart htells hstart).tables⟩
    unfold runProgram
    rw [hrun]
  · intro hnot
    obtain ⟨e, files', hrun⟩ := replay_fails hprepare hinput hsource hfuel hnot
    refine ⟨files', ?_, main_error hrun⟩
    unfold runProgram
    rw [hrun]

/-! ## Two quiet runs -/

/-- A quiet replay with a known start ends well. -/
theorem quiet_replay {jsonParse : JsonParse} {files : Files} {before messages : List Bytes}
    {store : Store} (hconfig : files.opened configFile = some quietConfigText)
    (hload : loadStore (quiet jsonParse) quietConfig files = .ok store)
    (hstart : StartsFrom (quiet jsonParse) before messages store)
    (hinput : files.opened quietConfig.inputFile = some (unlines messages))
    (hlines : ∀ message ∈ messages, message ≠ [] ∧ newline ∉ message)
    (husable : Usable (quiet jsonParse) messages) (hopens : ∀ path, files.writable path = true) :
    ∃ state files', (main (quiet jsonParse) (messages.length + 1)).run files = .ok (.returned ()) files' ∧
      Ingested (quiet jsonParse) (messages.length + 1) files quietConfig store messages state := by
  obtain ⟨source, hsource, hmessages⟩ := @createSource_lines (quiet jsonParse) quietConfig files
    messages rfl hinput hlines
  have htexts : source.messages.take (replayLength (quiet jsonParse) quietConfig source.messages) =
      messages := by
    rw [replayLength_quiet, List.take_length, hmessages]
  have hprepare : prepare (quiet jsonParse) files = .ok (quietConfig, store) := by
    unfold prepare
    rw [hconfig, loadConfig_quiet, ok_bind, hload]
    rfl
  have hended := @replay_succeeds (quiet jsonParse) quietConfig store files source
    (messages.length + 1) before standard_roundTrips hprepare (htexts.symm ▸ hstart)
    (inputFile_ne_stats jsonParse) hsource (fun _ => hopens _) (by rw [hmessages]; exact Nat.lt_succ_self _) (htexts.symm ▸ husable) (hopens _)
  rw [htexts] at hended
  exact hended

/-- The operator writes the configuration and the messages, and sees to the
permissions. -/
def provide (files : Files) (config : Bytes) (messages : List Bytes) : Files :=
  { (files.write configFile config).write quietConfig.inputFile (unlines messages) with
    readable := fun _ => true
    writable := fun _ => true }

/-- What is in the files of the next run. -/
theorem content_provide (files : Files) (config : Bytes) (messages : List Bytes) (path : Bytes) :
    (provide files config messages).content path =
      ((files.write configFile config).write quietConfig.inputFile (unlines messages)).content path :=
  rfl

theorem opened_provide (files : Files) (config : Bytes) (messages : List Bytes) :
    (provide files config messages).opened configFile = some config ∧
      (provide files config messages).opened quietConfig.inputFile = some (unlines messages) := by
  have hopened : ∀ path, (provide files config messages).opened path =
      (provide files config messages).content path := fun _ => if_pos rfl
  rw [hopened, hopened, content_provide, content_provide, Files.content_write_self,
    Files.content_write_of_ne _ (by decide), Files.content_write_self]
  exact ⟨rfl, rfl⟩

section Quiet

variable {jsonParse : JsonParse} {before messages : List Bytes} {files : Files}

/-- With its configuration and messages in place, the next run goes on from the
snapshot that was left. -/
theorem goesOn_provide (h : Deployment jsonParse .standard before quietConfig files)
    (hlen : before.length < 2 ^ 32 - 1)
    (hplain : ∀ text ∈ before, ∀ peer, messagePeer jsonParse text = some peer → Plain peer) :
    GoesOn quietConfig (provide files quietConfigText messages)
      (files.content quietConfig.snapshotOutput) := by
  obtain ⟨⟨_, _, saved, _, _, hcontent⟩, -⟩ :=
    h.left standard_roundTrips standard_prints.tellsApart hlen hplain
  refine ⟨by decide, ?_, ?_⟩
  · rw [hcontent]
    exact Option.some_ne_none _
  · refine (if_pos rfl).trans ?_
    rw [content_provide, Files.content_write_of_ne _ (by decide),
      Files.content_write_of_ne _ (by decide)]
    rfl

/-- A quiet run can always follow. -/
theorem Deployment.quiet_follows (h : Deployment jsonParse .standard before quietConfig files)
    (hlen : before.length + messages.length < 2 ^ 32 - 1)
    (hplain : ∀ text ∈ before, ∀ peer, messagePeer jsonParse text = some peer → Plain peer)
    (hlines : ∀ message ∈ messages, message ≠ [] ∧ newline ∉ message)
    (husable : Usable (quiet jsonParse) messages) :
    ∃ snapshot files', files.content quietConfig.snapshotOutput = some snapshot ∧
      Follows jsonParse .standard snapshot messages quietConfig files' := by
  have hgoes := @goesOn_provide jsonParse before messages files h (by omega) hplain
  obtain ⟨hconfig, hinput⟩ := opened_provide files quietConfigText messages
  obtain ⟨store, hload, hstart⟩ := @Deployment.loads (quiet jsonParse) quietConfig standard_roundTrips
    standard_prints.tellsApart before messages quietConfig files h hlen hplain _ hgoes
  obtain ⟨state, files', hrun, hingested⟩ := quiet_replay hconfig hload hstart hinput hlines husable
    fun _ => rfl
  obtain ⟨snapshot, hsnapshot⟩ := Option.ne_none_iff_exists'.mp hgoes.2.1
  rw [hsnapshot] at hgoes
  exact ⟨snapshot, files', hsnapshot, ⟨_, _, _, store, state, rfl, rfl, hrun, hingested, hgoes⟩,
    quietConfig_apart⟩

end Quiet

theorem rrc00_plain : ∀ text ∈ [rrc00Text], ∀ peer,
    messagePeer twoPeersParse text = some peer → Plain peer :=
  fun text hmem => twoPeers_plain text (List.cons_subset_cons _ (List.nil_subset _) hmem)

theorem rrc10_lines : ∀ message ∈ [rrc10Text], message ≠ [] ∧ newline ∉ message :=
  fun message hmem => twoPeers_lines message (List.subset_cons_self _ _ hmem)

theorem rrc10_usable : Usable (quiet twoPeersParse) [rrc10Text] :=
  fun message hmem => twoPeers_usable message (List.subset_cons_self _ _ hmem)

/-- The first of two runs, with the message of one peer. -/
theorem first_quiet_run :
    ∃ files, Deployment twoPeersParse .standard [rrc00Text] quietConfig files := by
  have hfresh : StartsFresh quietConfig (quietFiles [rrc00Text]) := by
    rintro ⟨-, hexist⟩
    cases hexist
  have hfirst : [rrc00Text] ⊆ [rrc00Text, rrc10Text] := List.cons_subset_cons _ (List.nil_subset _)
  obtain ⟨state, files, hrun, hingested⟩ := @quiet_replay twoPeersParse (quietFiles [rrc00Text]) []
    [rrc00Text] {} rfl (loadStore_of_startsFresh hfresh) (startsFrom_empty _ (by decide)) rfl
    (fun m hm => twoPeers_lines m (hfirst hm)) (fun m hm => twoPeers_usable m (hfirst hm)) fun _ => rfl
  exact ⟨files, .first rfl rfl hrun hingested hfresh quietConfig_apart⟩

/-- One peer's message, and in a second run the other's. -/
theorem two_quiet_runs : ∃ files snapshot files',
    Deployment twoPeersParse .standard [rrc00Text] quietConfig files ∧
      files.content quietConfig.snapshotOutput = some snapshot ∧
      Follows twoPeersParse .standard snapshot [rrc10Text] quietConfig files' := by
  obtain ⟨files, hdeployment⟩ := first_quiet_run
  obtain ⟨snapshot, files', hsnapshot, hfollows⟩ :=
    hdeployment.quiet_follows (by decide) rrc00_plain rrc10_lines rrc10_usable
  exact ⟨files, snapshot, files', hdeployment, hsnapshot, hfollows⟩

theorem deployment_tables_two_runs :
    ∃ files, TablesLeft twoPeersParse Inet.standard ([rrc00Text] ++ [rrc10Text]) quietConfig files := by
  obtain ⟨files, snapshot, files', hdeployment, hsnapshot, hfollows⟩ := two_quiet_runs
  exact ⟨files', deployment_tables standard_roundTrips standard_prints.tellsApart
    (hdeployment.follow hsnapshot hfollows) (by decide) twoPeers_plain⟩

theorem deployment_goes_on_two_runs : ∃ files files',
    runProgram (quiet twoPeersParse) 2 files = (.returned 0, files') ∧
      Deployment twoPeersParse .standard ([rrc00Text] ++ [rrc10Text]) quietConfig files' ∧
      TablesLeft twoPeersParse Inet.standard ([rrc00Text] ++ [rrc10Text]) quietConfig files' := by
  obtain ⟨files, hdeployment⟩ := first_quiet_run
  obtain ⟨hopened, hinput⟩ := opened_provide files quietConfigText [rrc10Text]
  obtain ⟨source, hsource, hmessages⟩ := @createSource_lines (quiet twoPeersParse) quietConfig
    (provide files quietConfigText [rrc10Text]) [rrc10Text] rfl hinput rrc10_lines
  have htexts : source.messages.take (replayLength (quiet twoPeersParse) quietConfig source.messages) =
      [rrc10Text] := by
    rw [replayLength_quiet, List.take_length, hmessages]
  have hconfig : Config.loadConfig (quiet twoPeersParse).stod configFile
      ((provide files quietConfigText [rrc10Text]).opened configFile) = .ok quietConfig := by
    rw [hopened, loadConfig_quiet]
  have hgoes := @goesOn_provide _ _ [rrc10Text] _ hdeployment (by decide) rrc00_plain
  have hlen : source.messages.length = 1 := by
    rw [hmessages]
    rfl
  have houtcome := (@deployment_goes_on (quiet twoPeersParse) quietConfig standard_roundTrips
    standard_prints.tellsApart [rrc00Text] quietConfig files _ source 2 hdeployment rrc00_plain hconfig
    hgoes (inputFile_ne_stats _) hsource (fun _ => rfl) quietConfig_apart (by rw [hlen]; decide) (by rw [hlen]; decide)).1
  rw [htexts] at houtcome
  obtain ⟨files', hgone⟩ := houtcome ⟨rrc10_usable, rfl⟩
  exact ⟨_, files', hgone⟩

end ASNPrefixMap.Program
