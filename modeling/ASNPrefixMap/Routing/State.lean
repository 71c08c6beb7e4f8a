import ASNPrefixMap.Lib.Packed
import ASNPrefixMap.Lib.Scan
import ASNPrefixMap.Peer.Registry
import ASNPrefixMap.Prefix.Basic

/-!
# The routing state

`src/routing_state.cpp`. For each prefix a record keeps the observations (who
announced it with which origin), their timestamps in a parallel array, a counter
for each origin ASN and the winner of the vote; `aggregated` repeats the winner
for each prefix. `announceImpl` and `withdrawImpl` patch all of these in place,
one branch for each way an observation can change.

Loops over a hash map take the order of their entries from an `IterOrder`:
`recomputeSelectedFromCounts` over the counters, `rebuildAggregated` and
`storedObservations` over the prefixes.

The definitions stand in the order of the source, its anonymous namespace first.
Mirroring notes:

- The templates over `Prefix` are sections over a type `P` with decidable
  equality. The two overloads of each member function are one function on
  `BinaryPrefix`, which picks the family.

- A reference into the map (`PrefixRecord& record = by_prefix[prefix]`) is a
  copy that is written back at the end of each branch. `by_prefix[prefix]` makes
  an empty record for a fresh key, and so does `getD {}`.

- The loop that looks for a peer's observation is `findPeer`, and its body,
  which returns on every path after the first match, is the branch on its
  result. Reading the match by value is right for both callers: `withdraw_impl`
  copies it before it removes it, and `announce_impl` compares it before it
  overwrites it.

- Counters are `UInt32`, as `uint32_t` is, and wrap. Sizes and indices are
  `Nat`: a vector has fewer than `2^64` entries.

- `std::vector` is `List`: assignment through an index is `List.set`, `pop_back`
  after the move is `swapRemove`.
-/

namespace ASNPrefixMap.Routing

open Lib Prefix Peer

/-- What one peer has announced for a prefix: `Observation` of
`src/routing_state.h`. The prefix is the key of the record, and the timestamp
stands beside it in an array of its own. -/
structure Observation where
  peerId : PeerId
  originAsn : UInt32
  deriving DecidableEq

/-- `PrefixRecord` of `src/routing_state.h`, with its default member values. The
two lists are parallel arrays; the counters and the winner are redundant, and
kept in step by the branches of `announceImpl` and `withdrawImpl`. -/
structure PrefixRecord where
  observations : List Observation := []
  timestamps : List UInt64 := []
  asnCounts : FiniteMap UInt32 UInt32 := ∅
  selectedAsn : UInt32 := 0
  selectedCount : UInt32 := 0
  deriving DecidableEq

/-- A row of `stored_observations`. The `std::variant` of the two prefix types
is `BinaryPrefix`. A snapshot is made of these rows, and the tracker is seeded
from them. -/
structure StoredObservation where
  pfx : BinaryPrefix
  observation : Observation
  timestamp : UInt64
  deriving DecidableEq

/-- The two maps of one address family: the source has `by_prefix_v4_` with
`aggregated_v4_` and `by_prefix_v6_` with `aggregated_v6_`, and passes each pair
by reference to one template. -/
structure FamilyTables (P : Type) where
  byPrefix : FiniteMap P PrefixRecord := ∅
  aggregated : FiniteMap P UInt32 := ∅

/-- The four members of `RoutingState`, by family. Every other member function
of the class is a function of these. -/
structure RoutingState where
  v4 : FamilyTables PrefixV4 := {}
  v6 : FamilyTables PrefixV6 := {}

/-! ## Counting and selecting -/

/-- `is_better_selection`: more votes, or as many votes for a smaller ASN. -/
def isBetterSelection (candidateAsn candidateCount currentAsn currentCount : UInt32) : Bool :=
  candidateCount > currentCount ||
    (candidateCount == currentCount && candidateAsn < currentAsn)

/-- `++record.asn_counts[asn]`: the counter after the increment, with the record
that holds it. A missing counter starts at zero, and the largest one wraps to
zero. -/
def incrementAsnCount (record : PrefixRecord) (asn : UInt32) : UInt32 × PrefixRecord :=
  let count := (record.asnCounts.lookup asn).getD 0 + 1
  (count, { record with asnCounts := record.asnCounts.insert asn count })

/-- `decrement_asn_count`, with the count it returns and no caller uses. No
counter of zero stays in the map. -/
def decrementAsnCount (record : PrefixRecord) (asn : UInt32) : UInt32 × PrefixRecord :=
  match record.asnCounts.lookup asn with
  | none => (0, record)
  | some count =>
    -- the last vote takes the counter with it
    if count ≤ 1 then (0, { record with asnCounts := record.asnCounts.erase asn })
    else (count - 1, { record with asnCounts := record.asnCounts.insert asn (count - 1) })

/-- `is_better_selection` on `(asn, count)` pairs, as the rescan compares
them. -/
def betterEntry (candidate current : UInt32 × UInt32) : Bool :=
  isBetterSelection candidate.1 candidate.2 current.1 current.2

/-- `recompute_selected_from_counts`: the loop over the counters, from no
winner. That loop replaces its candidate by a better one only, so it is
`scanBest` over the order in which the map hands out its entries. -/
def recomputeSelectedFromCounts (ord : IterOrder UInt32 UInt32) (record : PrefixRecord) :
    PrefixRecord :=
  let selected := scanBest betterEntry (0, 0) (ord.entries record.asnCounts)
  { record with selectedAsn := selected.1, selectedCount := selected.2 }

/-! ## Announce and withdraw on one family -/

section Family

variable {P : Type} [DecidableEq P]

/-- `sync_aggregated`: repeats the winner of a record in the aggregated map, or
takes the prefix out of it if the record has no votes. -/
def syncAggregated (aggregated : FiniteMap P UInt32) (pfx : P) (record : PrefixRecord) :
    FiniteMap P UInt32 :=
  if record.selectedCount = 0 then aggregated.erase pfx
  else aggregated.insert pfx record.selectedAsn

/-- The first observation of `peerId`, with its index. The loops of
`announce_impl` and `withdraw_impl` skip the observations before it and never
look at those after it. -/
def findPeer (peerId : PeerId) : List Observation → Option (Nat × Observation)
  | [] => none
  | observation :: rest =>
    if observation.peerId = peerId then some (0, observation)
    else (findPeer peerId rest).map fun found => (found.1 + 1, found.2)

/-- The branch of `announce_impl` for a known peer that announces another
origin. -/
def changeOrigin (ord : IterOrder UInt32 UInt32) (record : PrefixRecord) (index : Nat)
    (observation : Observation) (originAsn : UInt32) (timestamp : UInt64) : PrefixRecord :=
  let oldAsn := observation.originAsn
  -- the winner may lose a vote here, and another counter be ahead of it then
  let selectedMayChange := oldAsn == record.selectedAsn
  let record := (decrementAsnCount record oldAsn).2
  let (newCount, record) := incrementAsnCount record originAsn
  let record :=
    { record with
      observations := record.observations.set index { observation with originAsn := originAsn }
      timestamps := record.timestamps.set index timestamp }
  if selectedMayChange then recomputeSelectedFromCounts ord record
  else if isBetterSelection originAsn newCount record.selectedAsn record.selectedCount then
    { record with selectedAsn := originAsn, selectedCount := newCount }
  else record

/-- The tail of `announce_impl`, for a peer the record does not hold yet. -/
def addObservation (record : PrefixRecord) (peerId : PeerId) (originAsn : UInt32)
    (timestamp : UInt64) : PrefixRecord :=
  let record :=
    { record with
      observations := record.observations ++ [⟨peerId, originAsn⟩]
      timestamps := record.timestamps ++ [timestamp] }
  let (newCount, record) := incrementAsnCount record originAsn
  if record.selectedCount = 0 ||
      isBetterSelection originAsn newCount record.selectedAsn record.selectedCount then
    { record with selectedAsn := originAsn, selectedCount := newCount }
  else record

/-- `announce_impl`, the one place where votes are cast. A fresh prefix
starts from the empty record; a known peer either repeats its origin, which
moves its timestamp only, or changes it; an unknown peer joins at the end of
the arrays. -/
def announceImpl (ord : IterOrder UInt32 UInt32) (tables : FamilyTables P) (pfx : P)
    (peerId : PeerId) (originAsn : UInt32) (timestamp : UInt64) : FamilyTables P :=
  let record := (tables.byPrefix.lookup pfx).getD {}
  match findPeer peerId record.observations with
  | some (index, observation) =>
    if observation.originAsn = originAsn then
      -- no vote changes: the early return leaves `aggregated` as it is
      let record := { record with timestamps := record.timestamps.set index timestamp }
      { tables with byPrefix := tables.byPrefix.insert pfx record }
    else
      let record := changeOrigin ord record index observation originAsn timestamp
      { byPrefix := tables.byPrefix.insert pfx record
        aggregated := syncAggregated tables.aggregated pfx record }
  | none =>
    let record := addObservation record peerId originAsn timestamp
    { byPrefix := tables.byPrefix.insert pfx record
      aggregated := syncAggregated tables.aggregated pfx record }

/-- Packed removal in both arrays, with the counter of the removed origin taken
back. -/
def removeObservation (record : PrefixRecord) (index : Nat) (removed : Observation) :
    PrefixRecord :=
  let record := (decrementAsnCount record removed.originAsn).2
  { record with
    observations := swapRemove record.observations index
    timestamps := swapRemove record.timestamps index }

/-- `withdraw_impl`. Withdrawing what was never announced changes nothing. The
rescan is skipped where the removed vote was not one for the winner, and the
record goes with its last observation. -/
def withdrawImpl (ord : IterOrder UInt32 UInt32) (tables : FamilyTables P) (pfx : P)
    (peerId : PeerId) : FamilyTables P :=
  match tables.byPrefix.lookup pfx with
  | none => tables
  | some record =>
    match findPeer peerId record.observations with
    | none => tables
    | some (index, removed) =>
      let selectedMayChange := removed.originAsn == record.selectedAsn
      let record := removeObservation record index removed
      if record.observations.isEmpty then
        -- no record without observations is kept
        { byPrefix := tables.byPrefix.erase pfx
          aggregated := tables.aggregated.erase pfx }
      else
        let record :=
          if selectedMayChange then recomputeSelectedFromCounts ord record else record
        { byPrefix := tables.byPrefix.insert pfx record
          aggregated := syncAggregated tables.aggregated pfx record }

/-- `recompute_prefix_origin`. The record is there: `pfx` is a key of the map
being walked, so `at()` does not throw. -/
def recomputePrefixOrigin (ord : IterOrder UInt32 UInt32) (tables : FamilyTables P) (pfx : P) :
    FamilyTables P :=
  match tables.byPrefix.lookup pfx with
  | none => tables
  | some record =>
    let record := recomputeSelectedFromCounts ord record
    { byPrefix := tables.byPrefix.insert pfx record
      aggregated := syncAggregated tables.aggregated pfx record }

/-- One family's half of `rebuild_aggregated`. -/
def rebuildFamily (ord : IterOrder UInt32 UInt32) (records : IterOrder P PrefixRecord)
    (tables : FamilyTables P) : FamilyTables P :=
  (records.entries tables.byPrefix).foldl (fun tables entry => recomputePrefixOrigin ord tables entry.1)
    { tables with aggregated := ∅ }

/-- `append_stored_observations` on an empty result: the records in the order of
the map, each with its rows in the order of the arrays. The index runs over the
observations; `zip` stops at the shorter array, and `RowsInv` shows that there
is none. -/
def appendStoredObservations (records : IterOrder P PrefixRecord) (mk : P → BinaryPrefix)
    (tables : FamilyTables P) : List StoredObservation :=
  (records.entries tables.byPrefix).flatMap fun entry =>
    (entry.2.observations.zip entry.2.timestamps).map fun row => ⟨mk entry.1, row.1, row.2⟩

end Family

/-! ## `RoutingState` -/

/-- The iteration orders of the hash maps inside a `RoutingState`. -/
structure HashOrders where
  counts : IterOrder UInt32 UInt32
  recordsV4 : IterOrder PrefixV4 PrefixRecord
  recordsV6 : IterOrder PrefixV6 PrefixRecord

/-- Every map in ascending order of its keys. -/
def HashOrders.ascending : HashOrders where
  counts := .byKey UInt32.toNat fun _ _ => UInt32.toNat_inj.mp
  recordsV4 := .byKey PrefixV4.rank PrefixV4.rank_injective
  recordsV6 := .byKey PrefixV6.rank PrefixV6.rank_injective

/-- Both overloads of `RoutingState::announce`. -/
def RoutingState.announce (ord : HashOrders) (state : RoutingState) (peerId : PeerId) (pfx : BinaryPrefix)
    (originAsn : UInt32) (timestamp : UInt64) : RoutingState :=
  match pfx with
  | .v4 p => { state with v4 := announceImpl ord.counts state.v4 p peerId originAsn timestamp }
  | .v6 p => { state with v6 := announceImpl ord.counts state.v6 p peerId originAsn timestamp }

/-- Both overloads of `RoutingState::withdraw`. -/
def RoutingState.withdraw (ord : HashOrders) (state : RoutingState) (peerId : PeerId) (pfx : BinaryPrefix) :
    RoutingState :=
  match pfx with
  | .v4 p => { state with v4 := withdrawImpl ord.counts state.v4 p peerId }
  | .v6 p => { state with v6 := withdrawImpl ord.counts state.v6 p peerId }

/-- Both overloads of `RoutingState::restore_observation`. The source gives it
the body of `announce`: a restored observation votes as it is read, before
`rebuild_aggregated` runs. -/
def RoutingState.restoreObservation (ord : HashOrders) (state : RoutingState) (peerId : PeerId)
    (pfx : BinaryPrefix) (originAsn : UInt32) (timestamp : UInt64) : RoutingState :=
  match pfx with
  | .v4 p => { state with v4 := announceImpl ord.counts state.v4 p peerId originAsn timestamp }
  | .v6 p => { state with v6 := announceImpl ord.counts state.v6 p peerId originAsn timestamp }

/-- `rebuild_aggregated`, the IPv4 loop and then the IPv6 loop. Neither touches
the other family. -/
def RoutingState.rebuildAggregated (ord : HashOrders) (state : RoutingState) : RoutingState where
  v4 := rebuildFamily ord.counts ord.recordsV4 state.v4
  v6 := rebuildFamily ord.counts ord.recordsV6 state.v6

/-- `RoutingState::clear`: all four maps are emptied. -/
def RoutingState.clear (_ : RoutingState) : RoutingState := {}

/-- `stored_observations`, IPv4 before IPv6. The order inside a family is that
of the hash map, so it is a parameter. -/
def RoutingState.storedObservations (ord : HashOrders) (state : RoutingState) : List StoredObservation :=
  appendStoredObservations ord.recordsV4 .v4 state.v4 ++
    appendStoredObservations ord.recordsV6 .v6 state.v6

/-- `active_prefixes_v4_count`: the size of the aggregated map, not of the map
of records. -/
def RoutingState.activePrefixesV4Count (state : RoutingState) : Nat := FiniteMap.size state.v4.aggregated

/-- `active_prefixes_v6_count`. -/
def RoutingState.activePrefixesV6Count (state : RoutingState) : Nat := FiniteMap.size state.v6.aggregated

/-! ## Histories -/

/-- A call that changes a `RoutingState`, with its arguments. `restore` and
`rebuild` are the calls of a snapshot load; nothing keeps a caller from mixing
them with the others. -/
inductive Op
  | announce (peerId : PeerId) (pfx : BinaryPrefix) (originAsn : UInt32) (timestamp : UInt64)
  | withdraw (peerId : PeerId) (pfx : BinaryPrefix)
  | restore (peerId : PeerId) (pfx : BinaryPrefix) (originAsn : UInt32) (timestamp : UInt64)
  | rebuild
  | clear

/-- One call, under the iteration orders its loops happen to meet. Two calls of
one history may meet different orders, as a hash map may rehash between them. -/
def stepOp (state : RoutingState) (call : HashOrders × Op) : RoutingState :=
  match call.2 with
  | .announce peerId pfx originAsn timestamp => state.announce call.1 peerId pfx originAsn timestamp
  | .withdraw peerId pfx => state.withdraw call.1 peerId pfx
  | .restore peerId pfx originAsn timestamp =>
    state.restoreObservation call.1 peerId pfx originAsn timestamp
  | .rebuild => state.rebuildAggregated call.1
  | .clear => state.clear

/-- The state after a history of calls, from the empty state. -/
def runOps (calls : List (HashOrders × Op)) : RoutingState := calls.foldl stepOp {}

end ASNPrefixMap.Routing
