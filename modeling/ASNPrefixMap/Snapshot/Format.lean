import ASNPrefixMap.Prefix.Cidr
import ASNPrefixMap.Routing.State

/-!
# Snapshots

`src/snapshot/snapshot_io.cpp`. Saving collects the peers that observations use
and prints both as tab-separated lines under two section headers. Loading has
two halves: `readSnapshot` goes over the lines and fills two local containers,
`restoreSnapshot` clears the registry and the state and inserts what was read.
The second half works on the caller's objects, so what it has changed stays
changed when it throws.

A file is its bytes; `none` is a file that cannot be opened.

Mirroring notes:

- `SnapshotIO` works on a registry and a state it is given by reference. They
  are one `Store`, and the functions that change it are in `EStateM`, which
  keeps it when they throw.

- `std::set<PeerId>` is a sorted list without duplicates (`usedPeerIds`),
  `std::sort` is insertion sort: the comparison is a strict order on all five
  fields, so every sort gives the same list.

- Printing through the stream is concatenation of byte strings; the output is
  taken to be written once the file has opened, as no later write is checked.

- The two numbers of a peer line are converted at the places where the source
  converts them, the second one behind the duplicate test, so the first thing
  wrong with a line decides the exception.

- `static_cast<uint32_t>` keeps the low 32 bits of what `std::stoul` returns.
  `unsigned long` has 64 bits here, as it has outside Windows.
-/

namespace ASNPrefixMap.Snapshot

open Lib Prefix Peer Routing

/-- `SnapshotObservation` of `src/snapshot/snapshot_io.h`: an observation with
its prefix as text. -/
structure SnapshotObservation where
  family : PrefixFamily
  prefixText : Bytes
  peerId : PeerId
  originAsn : UInt32
  timestamp : UInt64
  deriving DecidableEq

/-- `SnapshotStats`: what saving and loading report. -/
structure SnapshotStats where
  peers : Nat := 0
  observations : Nat := 0
  deriving DecidableEq

/-- The two objects a snapshot is taken of. Both are passed by reference, so a
load changes them in place, also when it throws. -/
structure Store where
  registry : PeerRegistry := {}
  state : RoutingState := {}

/-! ## Order of observations -/

/-- The comparison of families is that of the enumerators, `V4` before `V6`. -/
def familyRank : PrefixFamily → Nat
  | .v4 => 0
  | .v6 => 1

/-- The comparison `std::sort` is given. -/
def SnapshotObservation.before (left right : SnapshotObservation) : Bool :=
  if left.family ≠ right.family then familyRank left.family < familyRank right.family
  else if left.prefixText ≠ right.prefixText then left.prefixText < right.prefixText
  else if left.peerId ≠ right.peerId then left.peerId < right.peerId
  else if left.originAsn ≠ right.originAsn then left.originAsn < right.originAsn
  else left.timestamp < right.timestamp

/-- The call of `std::sort`, the same in both directions. -/
def sortObservations (observations : List SnapshotObservation) : List SnapshotObservation :=
  observations.insertionSort fun left right => right.before left = false

/-! ## Saving -/

/-- The ids in use, ascending and each once. -/
def usedPeerIds (stored : List StoredObservation) : List PeerId :=
  (stored.map fun entry => entry.observation.peerId).dedup.insertionSort (· ≤ ·)

/-- A line of the peers, without its end. The strings of the peer are printed as
they are. -/
def peerLine (peer : PeerId × PeerInfo) : Bytes :=
  toDec peer.1.toNat ++ bytes "\t" ++ peer.2.host ++ bytes "\t" ++ peer.2.peerIp ++ bytes "\t" ++
    toDec peer.2.peerAsn.toNat

/-- A line of the observations, without its end. -/
def observationLine (observation : SnapshotObservation) : Bytes :=
  familyToString observation.family ++ bytes "\t" ++ observation.prefixText ++ bytes "\t" ++
    toDec observation.peerId.toNat ++ bytes "\t" ++ toDec observation.originAsn.toNat ++
    bytes "\t" ++ toDec observation.timestamp.toNat

/-- What is written: the header, the peers and the observations, with empty
lines between. -/
def snapshotText (peers : List (PeerId × PeerInfo)) (observations : List SnapshotObservation) :
    Bytes :=
  bytes "# ASNPrefixMap snapshot v1\n\n" ++ bytes "[peers]\n" ++
    peers.flatMap (fun peer => peerLine peer ++ bytes "\n") ++
    bytes "\n[observations]\n" ++
    observations.flatMap fun observation => observationLine observation ++ bytes "\n"

variable (net : Inet) (ord : HashOrders)

/-- The body of the loop over the ids in use. An id that is not registered ends
the saving. -/
def snapshotPeer (registry : PeerRegistry) (peerId : PeerId) :
    Except Exception (PeerId × PeerInfo) := do
  if registry.contains peerId = false then
    throw (.runtimeError (bytes "Routing state references unknown peer_id " ++ toDec peerId.toNat))
  else
    let peer ← registry.get peerId
    return (peerId, peer)

/-- The body of the loop over the stored observations: the family and the text
of the prefix, and the three numbers. -/
def snapshotObservation (entry : StoredObservation) : Except Exception SnapshotObservation := do
  let prefixText ← entry.pfx.toString net
  return ⟨familyOf entry.pfx, prefixText, entry.observation.peerId, entry.observation.originAsn,
    entry.timestamp⟩

/-- `save_snapshot`, with the text it writes when the output file opens. -/
def saveSnapshot (path : Bytes) (opens : Bool) (store : Store) :
    Except Exception (Bytes × SnapshotStats) := do
  let stored := store.state.storedObservations ord
  let peers ← (usedPeerIds stored).mapM (snapshotPeer store.registry)
  let observations ← stored.mapM (snapshotObservation net)
  let observations := sortObservations observations
  -- everything is collected before the file is opened
  if opens = false then
    throw (.runtimeError (bytes "Failed to open snapshot output: " ++ path))
  else
    return (snapshotText peers observations, ⟨peers.length, observations.length⟩)

/-! ## Reading the lines -/

/-- `Section`: where the reading of a file stands. -/
inductive Section
  | none
  | peers
  | observations
  deriving DecidableEq

/-- The local variables of `load_snapshot` while it reads. Nothing of them is
seen outside until the whole file has been read. -/
structure Reading where
  peers : FiniteMap PeerId PeerInfo := ∅
  observations : List SnapshotObservation := []
  currentSection : Section := .none
  sawAnyContent : Bool := false
  sawHeader : Bool := false
  lineNumber : Nat := 0

/-- The blanks of `trim`: space, tab, carriage return, newline. -/
def isTrimmed (c : UInt8) : Bool := c == 32 || c == 9 || c == 13 || c == 10

/-- `trim` of this file. It drops four blanks only, fewer than the `trim` of the
configuration. -/
def trim (value : Bytes) : Bytes := trimWhere isTrimmed value

/-- `split_tab_fields`: the fields between the tabs, empty ones included, and
one field for a line without a tab. -/
def splitTabFields (line : Bytes) : List Bytes := line.splitOn tab

/-- `throw_parse_error`, with the number of the line in its text. -/
def throwParseError {α : Type} (lineNumber : Nat) (message : Bytes) : Except Exception α :=
  throw (.runtimeError
    (bytes "Snapshot parse error at line " ++ toDec lineNumber ++ bytes ": " ++ message))

/-- The first line that is not blank, up to blanks around it. -/
def snapshotHeader : Bytes := bytes "# ASNPrefixMap snapshot v1"

/-- A data line among the peers, cut into fields. -/
def readPeerFields (reading : Reading) (fields : List Bytes) : Except Exception Reading :=
  match fields with
  | [idText, host, peerIp, asnText] => do
    let peerId ← stoul idText
    if (reading.peers.lookup peerId.toUInt32).isSome then
      throwParseError reading.lineNumber (bytes "duplicate peer_id: " ++ idText)
    else
      let peerAsn ← stoul asnText
      -- `static_cast<uint32_t>` keeps the low bits of an `unsigned long`
      return { reading with
        peers := reading.peers.insert peerId.toUInt32 ⟨host, peerIp, peerAsn.toUInt32⟩ }
  | _ => throwParseError reading.lineNumber (bytes "peer line must have 4 tab-separated fields")

/-- A data line among the observations, cut into fields. The prefix text is only
copied; it is parsed in the second half. -/
def readObservationFields (reading : Reading) (fields : List Bytes) : Except Exception Reading :=
  match fields with
  | [familyText, prefixText, idText, asnText, timestampText] => do
    let family ← parseFamily familyText
    let peerId ← stoul idText
    let originAsn ← stoul asnText
    let timestamp ← stoull timestampText
    return { reading with
      observations := reading.observations ++
        [⟨family, prefixText, peerId.toUInt32, originAsn.toUInt32, timestamp⟩] }
  | _ =>
    throwParseError reading.lineNumber (bytes "observation line must have 5 tab-separated fields")

/-- A line that is neither blank nor the header. -/
def readContent (reading : Reading) (trimmed line : Bytes) : Except Exception Reading :=
  if trimmed = bytes "[peers]" then
    return { reading with currentSection := .peers }
  else if trimmed = bytes "[observations]" then
    return { reading with currentSection := .observations }
  else if trimmed.head? = some 91 ∧ trimmed.getLast? = some 93 then
    -- any other line in brackets, also in the middle of a section
    throwParseError reading.lineNumber (bytes "unknown section name: " ++ trimmed)
  else
    match reading.currentSection with
    | .none => throwParseError reading.lineNumber (bytes "data line found before any section")
    | .peers => readPeerFields reading (splitTabFields line)
    | .observations => readObservationFields reading (splitTabFields line)

/-- The body of the line loop. -/
def readLine (reading : Reading) (line : Bytes) : Except Exception Reading :=
  let reading := { reading with lineNumber := reading.lineNumber + 1 }
  let trimmed := trim line
  if trimmed = [] then
    return reading
  else
    let reading := { reading with sawAnyContent := true }
    if reading.sawHeader = false then
      if trimmed ≠ snapshotHeader then
        throwParseError reading.lineNumber
          (bytes "expected snapshot header '# ASNPrefixMap snapshot v1'")
      else
        return { reading with sawHeader := true }
    else
      readContent reading trimmed line

/-- The line loop of `load_snapshot`, from its initial variables. An exception
leaves the loop and both of the caller's objects as they are. -/
def readSnapshot (text : Bytes) : Except Exception Reading := (getLines text).foldlM readLine {}

/-! ## Restoring -/

/-- The body of the first loop behind the two clears. If `insert_with_id`
throws, what it has changed stays. -/
def restorePeer (peer : PeerId × PeerInfo) : EStateM Exception Store Unit := do
  let store ← get
  match (PeerRegistry.insertWithId peer.1 peer.2).run store.registry with
  | .ok _ registry => set { store with registry := registry }
  | .error e registry => do
    set { store with registry := registry }
    throw e

/-- The prefix of an observation line, read by the parser of its family. -/
def SnapshotObservation.parse (observation : SnapshotObservation) :
    Except Exception BinaryPrefix :=
  match observation.family with
  | .v4 => do
    let pfx ← parsePrefixV4 net observation.prefixText
    return .v4 pfx
  | .v6 => do
    let pfx ← parsePrefixV6 net observation.prefixText
    return .v6 pfx

/-- The body of the second loop behind the clears: the check of the id, and then
the restoring call of its family. -/
def restoreLine (observation : SnapshotObservation) : EStateM Exception Store Unit := do
  let store ← get
  if store.registry.contains observation.peerId = false then
    throw (.runtimeError (bytes "Snapshot parse error: observation references unknown peer_id " ++
      toDec observation.peerId.toNat))
  else
    match observation.parse net with
    | .error e => throw e
    | .ok pfx =>
      set { store with
        state := store.state.restoreObservation ord observation.peerId pfx observation.originAsn
          observation.timestamp }

/-- `registry.clear()` and `state.clear()`. -/
def clearStore : EStateM Exception Store Unit :=
  modify fun store => { registry := store.registry.clear, state := store.state.clear }

/-- What `load_snapshot` does with the lines it has read. -/
def restoreSnapshot (peerOrd : IterOrder PeerId PeerInfo) (reading : Reading) :
    EStateM Exception Store Unit := do
  clearStore
  forM (peerOrd.entries reading.peers) restorePeer
  forM (sortObservations reading.observations) (restoreLine net ord)
  modify fun store => { store with state := store.state.rebuildAggregated ord }

/-- `load_snapshot`, on the content of the file. Each of the three ends before
the second half leaves or clears both objects as a whole. -/
def loadSnapshot (peerOrd : IterOrder PeerId PeerInfo) (path : Bytes) (input : Option Bytes) :
    EStateM Exception Store SnapshotStats :=
  match input with
  | none => throw (.runtimeError (bytes "Failed to open snapshot input: " ++ path))
  | some text =>
    match readSnapshot text with
    | .error e => throw e
    | .ok reading =>
      if reading.sawAnyContent = false then do
        -- a blank file is a valid snapshot of nothing
        clearStore
        return {}
      else if reading.sawHeader = false then
        throw (.runtimeError (bytes "Snapshot parse error: missing snapshot header"))
      else do
        restoreSnapshot net ord peerOrd reading
        return ⟨reading.peers.size, reading.observations.length⟩

end ASNPrefixMap.Snapshot
