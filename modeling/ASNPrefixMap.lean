import ASNPrefixMap.Lib.FiniteMap
import ASNPrefixMap.Lib.Scan
import ASNPrefixMap.Lib.Sorting
import ASNPrefixMap.Lib.Packed
import ASNPrefixMap.Lib.Run
import ASNPrefixMap.Lib.LastWriter
import ASNPrefixMap.Lib.Bytes
import ASNPrefixMap.Lib.Exception
import ASNPrefixMap.Lib.Numeral
import ASNPrefixMap.Lib.FixedPoint
import ASNPrefixMap.Lib.Hoare
import ASNPrefixMap.Lib.Trace
import ASNPrefixMap.Lib.Custody
import ASNPrefixMap.Lib.Sliding
import ASNPrefixMap.Lib.Grouping
import ASNPrefixMap.Lib.Naming
import ASNPrefixMap.Prefix.Basic
import ASNPrefixMap.Prefix.Cidr
import ASNPrefixMap.Prefix.InetText
import ASNPrefixMap.Prefix.Bits
import ASNPrefixMap.Prefix.Normal
import ASNPrefixMap.Prefix.Notation
import ASNPrefixMap.Peer.Registry
import ASNPrefixMap.Peer.RegistryInv
import ASNPrefixMap.Peer.Keys
import ASNPrefixMap.Peer.InsertAll
import ASNPrefixMap.Routing.State
import ASNPrefixMap.Routing.RecordInv
import ASNPrefixMap.Routing.TablesInv
import ASNPrefixMap.Routing.Histories
import ASNPrefixMap.Routing.AnyHistory
import ASNPrefixMap.Routing.Renaming
import ASNPrefixMap.Routing.Provenance
import ASNPrefixMap.Routing.Votes
import ASNPrefixMap.Routing.Export
import ASNPrefixMap.Routing.TableLines
import ASNPrefixMap.Parser.RisLive
import ASNPrefixMap.Parser.Events
import ASNPrefixMap.Parser.AsNumbers
import ASNPrefixMap.Stats.Growth
import ASNPrefixMap.Stats.Csv
import ASNPrefixMap.Stats.Plateau
import ASNPrefixMap.Ingest.Loop
import ASNPrefixMap.Ingest.Plain
import ASNPrefixMap.Ingest.Untracked
import ASNPrefixMap.Ingest.AnyOrder
import ASNPrefixMap.Ingest.Batching
import ASNPrefixMap.Ingest.Record
import ASNPrefixMap.Ingest.Discovery
import ASNPrefixMap.Ingest.Sampling
import ASNPrefixMap.Ingest.StatsFile
import ASNPrefixMap.Ingest.PeerView
import ASNPrefixMap.Ingest.Interleave
import ASNPrefixMap.Ingest.Failure
import ASNPrefixMap.Ingest.LastWords
import ASNPrefixMap.Snapshot.Format
import ASNPrefixMap.Snapshot.Reading
import ASNPrefixMap.Snapshot.Restoring
import ASNPrefixMap.Snapshot.Lines
import ASNPrefixMap.Snapshot.FailedLoad
import ASNPrefixMap.Snapshot.Numerals
import ASNPrefixMap.Snapshot.RoundTrip
import ASNPrefixMap.Snapshot.Overwrites
import ASNPrefixMap.Snapshot.Canonical
import ASNPrefixMap.Snapshot.LineOrder
import ASNPrefixMap.Snapshot.AnyOrder
import ASNPrefixMap.Snapshot.Names
import ASNPrefixMap.Snapshot.Accounting
import ASNPrefixMap.Snapshot.Restart
import ASNPrefixMap.Ingest.Rerun
import ASNPrefixMap.Source.WebSocket
import ASNPrefixMap.Source.Session
import ASNPrefixMap.Source.Reconnect
import ASNPrefixMap.Source.Waits
import ASNPrefixMap.Source.Backoff
import ASNPrefixMap.Source.Attempts
import ASNPrefixMap.Config.Load
import ASNPrefixMap.Config.Keys
import ASNPrefixMap.Config.Reading
import ASNPrefixMap.Config.Writing
import ASNPrefixMap.Routing.Backed
import ASNPrefixMap.Source.FileJsonl
import ASNPrefixMap.Source.Stopping
import ASNPrefixMap.Source.Streams
import ASNPrefixMap.Program.Main
import ASNPrefixMap.Program.Loop
import ASNPrefixMap.Program.Outputs
import ASNPrefixMap.Program.Live
import ASNPrefixMap.Program.Tables
import ASNPrefixMap.Program.Replay
import ASNPrefixMap.Program.Deployment
import ASNPrefixMap.Program.Recording
import ASNPrefixMap.Program.Ids
import ASNPrefixMap.Program.Mishaps
import ASNPrefixMap.Program.Passive
import ASNPrefixMap.Program.AnyOrder
