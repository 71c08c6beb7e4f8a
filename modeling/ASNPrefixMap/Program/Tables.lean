import ASNPrefixMap.Ingest.LastWords
import ASNPrefixMap.Program.Outputs

/-!
# The tables a run leaves

A run ends with the last words of the peers in the messages it has ingested,
over those it has started from (`Reached.holds`), and its two tables show the
vote of the peers on them (`OutputsWritten.tablesLeft`).

A table counts only as far as its file opens: `export_tables` does not check its
streams, and a run whose table could not be opened ends well all the same.
-/

namespace ASNPrefixMap.Program

open Lib Prefix Peer Routing Stats Ingest Snapshot Source
open ASNPrefixMap.Parser

variable {s : Surroundings} {cfg : Config}

/-- What a run starts from, when the messages before it are known and those it
ingests: a store that holds the last words of before, with room for the peers of
the run. -/
structure StartsFrom (s : Surroundings) (before texts : List Bytes) (store : Store) : Prop where
  room : ∃ limit, limit ≤ before.length + texts.length ∧
    StoreInv (namedPeers s.jsonParse texts) limit store.registry store.state
  holds : peerMap store.registry store.state = lastWords s.jsonParse s.net before

/-- A run without a snapshot starts from nothing, with room for as many peers as
it has messages. -/
theorem startsFrom_empty (s : Surroundings) {texts : List Bytes} (hlen : texts.length < 2 ^ 32) :
    StartsFrom s [] texts {} := by
  have hcard := @card_namedPeers_le s.jsonParse texts
  refine ⟨⟨_, ?_, storeInv_empty (Nat.lt_of_le_of_lt hcard hlen)⟩, peerMap_empty⟩
  rw [List.length_nil, Nat.zero_add]
  exact hcard

/-- The run loads no snapshot: none is named, or there is none yet. -/
def StartsFresh (cfg : Config) (files : Files) : Prop :=
  ¬ (cfg.snapshotInput ≠ [] ∧ files.exist cfg.snapshotInput = true)

/-- Without a snapshot to load the store is empty, and nothing is read. -/
theorem loadStore_of_startsFresh {files : Files} (h : StartsFresh cfg files) :
    loadStore s cfg files = .ok {} := by
  unfold loadStore
  rw [if_neg h]

/-- **The words add up**: at a loop head, the store holds the last words in all
messages, those before the run and those of the run. -/
theorem Reached.holds {store : Store} {before texts : List Bytes} {sampler : Sampler}
    (h : Reached s cfg (startWorld s cfg store) texts sampler)
    (hstart : StartsFrom s before texts store) :
    Holds s.jsonParse s.net (before ++ texts) sampler.world.registry sampler.world.state := by
  obtain ⟨log, hloop, rfl⟩ := h.loop
  obtain ⟨limit, hlimit, hinv⟩ := hstart.room
  exact hloop.holds hinv hlimit hstart.holds

/-- The tables of a run, as far as they could be opened. -/
def TablesLeft (jsonParse : JsonParse) (net : Inet) (texts : List Bytes) (cfg : Config)
    (files : Files) : Prop :=
  ∃ prefixRows asnRows, TablesOf jsonParse net texts prefixRows asnRows ∧
    (files.writable cfg.prefixOutput = true →
      files.content cfg.prefixOutput = some (unlines (prefixRows.map prefixLine))) ∧
    (files.writable cfg.asnOutput = true →
      files.content cfg.asnOutput = some (unlines (asnRows.map fun row => asnLine row.1 row.2)))

/-- The three outputs are three files. On one path the later output would take
the place of the earlier. -/
structure OutputsApart (cfg : Config) : Prop where
  snapshot_prefix : cfg.snapshotOutput ≠ cfg.prefixOutput
  snapshot_asn : cfg.snapshotOutput ≠ cfg.asnOutput
  prefix_asn : cfg.prefixOutput ≠ cfg.asnOutput

/-- The tables that have been written are the vote of the peers on their last
words. -/
theorem OutputsWritten.tablesLeft {files files' : Files} {store : Store} {texts : List Bytes}
    (h : OutputsWritten s cfg files store files') (hapart : OutputsApart cfg)
    (hnet : s.net.TellsApart) (hholds : Holds s.jsonParse s.net texts store.registry store.state) :
    TablesLeft s.jsonParse s.net texts cfg files' := by
  obtain ⟨prefixRows, asnRows, hexport, htables⟩ := hholds.exportTables hnet s.orders.tables
  obtain ⟨tables, hwritten, hprefix, hasn⟩ := h.tables
  rw [hexport] at hwritten
  cases hwritten
  rw [← h.writable] at hprefix hasn
  exact ⟨prefixRows, asnRows, htables, hprefix hapart.prefix_asn, hasn hapart.prefix_asn⟩

/-- A snapshot of a store that holds the last words in some messages, and their
tables. It is what one run hands to the next. -/
structure Left (jsonParse : JsonParse) (net : Inet) (texts : List Bytes) (cfg : Config)
    (files : Files) : Prop where
  snapshot : ∃ store ord saved, Holds jsonParse net texts store.registry store.state ∧
    saveSnapshot net ord cfg.snapshotOutput true store = .ok saved ∧
    files.content cfg.snapshotOutput = some saved.1
  tables : TablesLeft jsonParse net texts cfg files

/-- A run that ends well leaves a snapshot and the tables of all messages so
far. -/
theorem Ingested.left {fuel : Nat} {files files' : Files} {store : Store} {before texts : List Bytes}
    {state : MainState} (h : Ingested s fuel files cfg store texts state)
    (hrun : (main s fuel).run files = .ok (.returned ()) files') (hapart : OutputsApart cfg)
    (hnet : s.net.TellsApart) (hstart : StartsFrom s before texts store) :
    Left s.jsonParse s.net (before ++ texts) cfg files' := by
  have hholds := h.reached.holds hstart
  have hwritten := (h.outputsWritten hrun).1
  obtain ⟨saved, hsave, hcontent⟩ := hwritten.snapshot
  exact
    { snapshot := ⟨storeOf state.sampler, s.orders.save, saved, hholds, hsave,
        hcontent hapart.snapshot_prefix hapart.snapshot_asn⟩
      tables := hwritten.tablesLeft hapart hnet hholds }

end ASNPrefixMap.Program
