import ASNPrefixMap.Ingest.Rerun
import ASNPrefixMap.Program.Deployment

/-!
# Runs that fail

A snapshot that is loaded and saved again by run after run, some of which fail,
and some of which are cut off in their loop: none of these changes it (`Kept`).
Whoever does not know how far the messages have come may feed them again, from
any earlier one on: when all have been ingested at last, the tables are those of
one run over each message once (`operation_tables`).

A run that is cut off is one whose bound is used up. It stands for a program
that is killed in its loop: the statistics file is all it has written by then.
-/

namespace ASNPrefixMap.Program

open Lib Prefix Peer Routing Stats Ingest Snapshot Source
open ASNPrefixMap.Parser

/-- A run that ends well and both loads the snapshot at this path and saves it
there, with its three outputs in three files. -/
structure Succeeds (jsonParse : JsonParse) (net : Inet) (path : Bytes) (files : Files)
    (texts : List Bytes) (cfg : Config) (files' : Files) : Prop where
  exists_run : ∃ s fuel store state, s.jsonParse = jsonParse ∧ s.net = net ∧
    (main s fuel).run files = .ok (.returned ()) files' ∧
    Ingested s fuel files cfg store texts state
  input : cfg.snapshotInput = path
  output : cfg.snapshotOutput = path
  apart : OutputsApart cfg

/-- What may be done with a snapshot, with the messages of the runs that end
well. Runs that fail and runs that are cut off in their loop add no messages;
what they leave of the statistics is not the snapshot. -/
inductive Operation (jsonParse : JsonParse) (net : Inet) (path : Bytes) : List Bytes → Files → Prop
  | fresh {files : Files} : files.content path = none → Operation jsonParse net path [] files
  /-- Between the runs anything may happen to the other files. -/
  | edited {texts : List Bytes} {files files' : Files} :
    Operation jsonParse net path texts files → files'.content path = files.content path →
    Operation jsonParse net path texts files'
  | failed {texts : List Bytes} {files files' : Files} {s : Surroundings} {fuel : Nat} {e : Exception} :
    Operation jsonParse net path texts files → path ≠ s.makeStatsFilename →
    (main s fuel).run files = .error e files' → Operation jsonParse net path texts files'
  | cutOff {texts : List Bytes} {files files' : Files} {s : Surroundings} {fuel : Nat} :
    Operation jsonParse net path texts files → path ≠ s.makeStatsFilename →
    (main s fuel).run files = .ok .running files' → Operation jsonParse net path texts files'
  | succeeded {before texts : List Bytes} {files files' : Files} {cfg : Config} :
    Operation jsonParse net path before files →
    Succeeds jsonParse net path files texts cfg files' →
    Operation jsonParse net path (before ++ texts) files'

variable {jsonParse : JsonParse} {net : Inet} {path : Bytes}

/-- The snapshot holds the last words in these messages, or there have been
none. -/
def Kept (jsonParse : JsonParse) (net : Inet) (path : Bytes) (texts : List Bytes) (files : Files) :
    Prop :=
  texts = [] ∧ files.content path = none ∨
    ∃ store ord saved, Holds jsonParse net texts store.registry store.state ∧
      saveSnapshot net ord path true store = .ok saved ∧ files.content path = some saved.1

/-- What is kept depends on this one file alone. -/
theorem Kept.congr {texts : List Bytes} {files files' : Files} (h : Kept jsonParse net path texts files)
    (hsame : files'.content path = files.content path) : Kept jsonParse net path texts files' := by
  unfold Kept
  rw [hsame]
  exact h

theorem startsFresh_of_none {cfg : Config} {files : Files}
    (h : files.content cfg.snapshotInput = none) : StartsFresh cfg files := by
  intro hloads
  have hexist := hloads.2
  rw [Files.exist, h] at hexist
  cases hexist

/-- Where the snapshot is kept, a run that loads it goes on from these
messages. -/
theorem Kept.startsFrom {s : Surroundings} {cfg : Config} {before texts : List Bytes} {files : Files}
    {store : Store} (h : Kept s.jsonParse s.net path before files) (hnet : s.net.RoundTrips)
    (hpath : path ≠ []) (hinput : cfg.snapshotInput = path)
    (hload : loadStore s cfg files = .ok store)
    (hlen : before.length + texts.length < 2 ^ 32 - 1)
    (hplain : ∀ text ∈ before, ∀ peer, messagePeer s.jsonParse text = some peer → Plain peer) :
    StartsFrom s before texts store := by
  subst hinput
  rcases h with ⟨rfl, hnone⟩ | ⟨stored, ord, saved, hholds, hsave, hcontent⟩
  · rw [loadStore_of_startsFresh (startsFresh_of_none hnone)] at hload
    cases hload
    exact startsFrom_empty s (by omega)
  · have hexist : files.exist cfg.snapshotInput = true := by
      rw [Files.exist, hcontent]
      rfl
    -- a file that is there but cannot be read is an error
    have hreadable : files.readable cfg.snapshotInput = true := by
      by_contra hclosed
      rw [loadStore, if_pos ⟨hpath, hexist⟩, Files.opened, if_neg hclosed] at hload
      cases hload
    refine startsFrom_of_goesOn hnet hholds hplain hsave hlen ⟨hpath, Option.some_ne_none _, ?_⟩ hload
    rw [Files.opened, if_pos hreadable, hcontent]

/-- A snapshot that is kept can be loaded, whatever went wrong since it was
saved. -/
theorem Kept.exists_load {s : Surroundings} {cfg : Config} {before : List Bytes} {files : Files}
    (h : Kept s.jsonParse s.net path before files) (hnet : s.net.RoundTrips)
    (hinput : cfg.snapshotInput = path) (hpath : path ≠ []) (hreadable : files.readable path = true)
    (hlen : before.length < 2 ^ 32 - 1)
    (hplain : ∀ text ∈ before, ∀ peer, messagePeer s.jsonParse text = some peer → Plain peer) :
    ∃ store, loadStore s cfg files = .ok store := by
  subst hinput
  rcases h with ⟨-, hnone⟩ | ⟨stored, ord, saved, hholds, hsave, hcontent⟩
  · exact ⟨{}, loadStore_of_startsFresh (startsFresh_of_none hnone)⟩
  · obtain ⟨stats, store, limit, hloaded, -⟩ := loaded_of_holds hnet hholds hplain hsave
      (show before.length + (∅ : Finset PeerInfo).card < 2 ^ 32 - 1 by rwa [Finset.card_empty])
      s.orders.load s.orders.peers cfg.snapshotInput
    refine ⟨store, loadStore_of_goesOn ⟨hpath, Option.some_ne_none _, ?_⟩ hloaded⟩
    rw [Files.opened, if_pos hreadable, hcontent]

/-- A run that ends well adds its messages to those that are kept, and leaves
their tables. -/
theorem Succeeds.left {before texts : List Bytes} {cfg : Config} {files files' : Files}
    (h : Succeeds jsonParse net path files texts cfg files') (hkept : Kept jsonParse net path before files)
    (hnet : net.RoundTrips) (htells : net.TellsApart) (hpath : path ≠ [])
    (hlen : (before ++ texts).length < 2 ^ 32 - 1)
    (hplain : ∀ text ∈ before, ∀ peer, messagePeer jsonParse text = some peer → Plain peer) :
    Left jsonParse net (before ++ texts) cfg files' := by
  obtain ⟨s, fuel, store, state, rfl, rfl, hrun, hingested⟩ := h.exists_run
  rw [List.length_append] at hlen
  exact hingested.left hrun h.apart htells
    (hkept.startsFrom hnet hpath h.input (hingested.outputsWritten hrun).2 hlen hplain)

/-- The snapshot is kept, whatever goes wrong. -/
theorem Operation.kept {texts : List Bytes} {files : Files} (h : Operation jsonParse net path texts files)
    (hnet : net.RoundTrips) (htells : net.TellsApart) (hpath : path ≠ [])
    (hlen : texts.length < 2 ^ 32 - 1)
    (hplain : ∀ text ∈ texts, ∀ peer, messagePeer jsonParse text = some peer → Plain peer) :
    Kept jsonParse net path texts files := by
  induction h with
  | fresh hnone => exact Or.inl ⟨rfl, hnone⟩
  | edited _ hsame ih => exact (ih hlen hplain).congr hsame
  | failed _ hstats hrun ih => exact (ih hlen hplain).congr (main_error hrun path hstats)
  | cutOff _ hstats hrun ih => exact (ih hlen hplain).congr (main_running hrun path hstats)
  | succeeded _ hsucceeds ih =>
    have hbefore := fun text hmem => hplain text (List.mem_append_left _ hmem)
    have hkept := ih (by rw [List.length_append] at hlen; omega) hbefore
    obtain ⟨⟨store, ord, saved, hholds, hsave, hcontent⟩, -⟩ :=
      hsucceeds.left hkept hnet htells hpath hlen hbefore
    rw [hsucceeds.output] at hsave hcontent
    exact Or.inr ⟨store, ord, saved, hholds, hsave, hcontent⟩

/-- **Mishaps do not show in the tables.** Runs may have failed or been cut off,
and messages may have been fed again from any earlier one on. Once the last
message of a log has been ingested, the tables of the run that did it, as far as
they open, are those of the log. -/
theorem operation_tables (hnet : net.RoundTrips) (htells : net.TellsApart) (hpath : path ≠ [])
    {before texts log : List Bytes} {cfg : Config} {files files' : Files}
    (h : Operation jsonParse net path before files)
    (hlast : Succeeds jsonParse net path files texts cfg files')
    (hdelivers : Delivers log (before ++ texts) log.length)
    (hlen : (before ++ texts).length < 2 ^ 32 - 1)
    (hplain : ∀ text ∈ log, ∀ peer, messagePeer jsonParse text = some peer → Plain peer) :
    TablesLeft jsonParse net log cfg files' := by
  have hbefore : ∀ text ∈ before, ∀ peer, messagePeer jsonParse text = some peer → Plain peer :=
    fun text hmem => hplain text (hdelivers.subset (List.mem_append_left _ hmem))
  have hkept := h.kept hnet htells hpath (by rw [List.length_append] at hlen; omega) hbefore
  obtain ⟨prefixRows, asnRows, htables, hprefix, hasn⟩ :=
    (hlast.left hkept hnet htells hpath hlen hbefore).tables
  exact ⟨prefixRows, asnRows, htables.of_delivered hdelivers, hprefix, hasn⟩

/-! ## A slip between two quiet runs -/

/-- Configuration and messages may be put in place between runs, as long as the
snapshot stays what it is. -/
theorem Operation.provided {texts : List Bytes} {files : Files}
    (h : Operation jsonParse net quietConfig.snapshotInput texts files) (config : Bytes)
    (messages : List Bytes) :
    Operation jsonParse net quietConfig.snapshotInput texts (provide files config messages) := by
  refine h.edited ?_
  rw [content_provide, Files.content_write_of_ne _ (by decide), Files.content_write_of_ne _ (by decide)]

/-- With its configuration and messages at hand a quiet run ends well. -/
theorem Operation.succeeds {before messages : List Bytes} {files : Files}
    (h : Operation jsonParse .standard quietConfig.snapshotInput before files)
    (hlen : before.length + messages.length < 2 ^ 32 - 1)
    (hplain : ∀ text ∈ before, ∀ peer, messagePeer jsonParse text = some peer → Plain peer)
    (hlines : ∀ message ∈ messages, message ≠ [] ∧ newline ∉ message)
    (husable : Usable (quiet jsonParse) messages) :
    ∃ files', Succeeds jsonParse .standard quietConfig.snapshotInput
      (provide files quietConfigText messages) messages quietConfig files' := by
  have hpath : quietConfig.snapshotInput ≠ [] := by decide
  have hkept := (h.provided quietConfigText messages).kept standard_roundTrips
    standard_prints.tellsApart hpath (by omega) hplain
  obtain ⟨store, hload⟩ := @Kept.exists_load quietConfig.snapshotInput (quiet jsonParse) quietConfig
    before _ hkept standard_roundTrips rfl hpath rfl (by omega) hplain
  have hstart : StartsFrom (quiet jsonParse) before messages store :=
    @Kept.startsFrom quietConfig.snapshotInput (quiet jsonParse) quietConfig before messages _ store
      hkept standard_roundTrips hpath rfl hload hlen hplain
  obtain ⟨hconfig, hinput⟩ := opened_provide files quietConfigText messages
  obtain ⟨state, files', hrun, hingested⟩ := quiet_replay hconfig hload hstart hinput hlines husable
    fun _ => rfl
  exact ⟨files', ⟨_, _, _, _, rfl, rfl, hrun, hingested⟩, rfl, rfl, quietConfig_apart⟩

/-- A slip in the configuration ends the run. -/
theorem fails_of_slip (jsonParse : JsonParse) (files : Files) (messages : List Bytes) :
    ∃ e, (main (quiet jsonParse) 1).run (provide files (bytes "max_messages=many\n") messages) =
      .error e (provide files (bytes "max_messages=many\n") messages) := by
  have hconfig := (opened_provide files (bytes "max_messages=many\n") messages).1
  have hload : Config.loadConfig (quiet jsonParse).stod configFile (some (bytes "max_messages=many\n")) =
      .error (.invalidArgument (bytes "stoull")) := rfl
  have hprepare : prepare (quiet jsonParse) (provide files (bytes "max_messages=many\n") messages) =
      .error (.invalidArgument (bytes "stoull")) := by
    rw [prepare, hconfig, hload, error_bind]
  exact ⟨_, main_of_unprepared 1 hprepare⟩

theorem operation_tables_slip :
    ∃ files, TablesLeft twoPeersParse Inet.standard [rrc00Text, rrc10Text] quietConfig files := by
  have hfirst : [rrc00Text] ⊆ [rrc00Text, rrc10Text] := List.cons_subset_cons _ (List.nil_subset _)
  have hfresh : Operation twoPeersParse .standard quietConfig.snapshotInput [] (quietFiles []) :=
    .fresh rfl
  obtain ⟨files, hrun⟩ := hfresh.succeeds (by decide) (fun m hm => absurd hm List.not_mem_nil)
    (fun m hm => twoPeers_lines m (hfirst hm)) fun m hm => twoPeers_usable m (hfirst hm)
  have hone := (hfresh.provided quietConfigText [rrc00Text]).succeeded hrun
  -- a run fails for a slip, and the operator starts again with all messages
  obtain ⟨e, hfailed⟩ := fails_of_slip twoPeersParse files [rrc00Text]
  have htwo := (hone.provided (bytes "max_messages=many\n") [rrc00Text]).failed (by decide) hfailed
  obtain ⟨files', hrun'⟩ := htwo.succeeds (by decide) (fun m hm => twoPeers_plain m (hfirst hm))
    twoPeers_lines twoPeers_usable
  have hagain : Delivers [rrc00Text, rrc10Text] ([rrc00Text] ++ [rrc00Text, rrc10Text]) 2 :=
    (((Delivers.start.next rfl).back (Nat.zero_le _)).next rfl).next rfl
  exact ⟨files', operation_tables standard_roundTrips standard_prints.tellsApart (by decide)
    (htwo.provided quietConfigText [rrc00Text, rrc10Text]) hrun' hagain (by decide) twoPeers_plain⟩

end ASNPrefixMap.Program
