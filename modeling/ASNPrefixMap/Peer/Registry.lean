import ASNPrefixMap.Lib.FiniteMap
import ASNPrefixMap.Lib.Numeral

/-!
# The peer registry

`src/peer/peer_registry.cpp`: two hash maps in opposite directions and a
counter. `getOrAdd` takes the next id without looking whether it is free;
`insertWithId` (used when a snapshot is loaded) checks both directions first and
pulls the counter past the id it was given. Ids are `uint32_t`, so the counter
wraps.

Mirroring notes:

- `std::unordered_map` is a finite map, and no function here walks over one but
  `all_peers`, which nothing calls and which is left out;
- `get_or_add` is a function of the registry, for it cannot throw;
  `insert_with_id` throws with the registry as it was, so it is a program over
  one;
- the code writes with `by_id_[peer_id] = peer`, which overwrites, and so does
  the model;
- the hash of a `PeerInfo` is left out.
-/

namespace ASNPrefixMap.Peer

open Lib

/-- `PeerId`, the number that stands for a peer in the routing state. -/
abbrev PeerId := UInt32

/-- Who has sent an update: the RIS collector, the address of its peer, and the
peer's AS number, 0 if the message names none. These three are the identity of a
peer. -/
structure PeerInfo where
  host : Bytes
  peerIp : Bytes
  peerAsn : UInt32 := 0
  deriving DecidableEq

/-- The two maps and the counter. That the maps are inverse to each other is not
checked anywhere; see `RegistrySound`. The counter is a `std::uint32_t` and
wraps around. -/
structure PeerRegistry where
  byInfo : FiniteMap PeerInfo PeerId := ∅
  byId : FiniteMap PeerId PeerInfo := ∅
  nextPeerId : PeerId := 1
  deriving DecidableEq

/-- `make_key`: the three fields with bars in between. -/
def PeerRegistry.makeKey (peer : PeerInfo) : Bytes :=
  peer.host ++ bytes "|" ++ peer.peerIp ++ bytes "|" ++ toDec peer.peerAsn.toNat

/-- `get_or_add`: the id of a peer, a new one if it has none. Whether the new id
is in use is not asked. -/
def PeerRegistry.getOrAdd (registry : PeerRegistry) (peer : PeerInfo) : PeerId × PeerRegistry :=
  match registry.byInfo.lookup peer with
  | some peerId => (peerId, registry)
  | none =>
    -- whatever `byId` holds under this id is overwritten
    let peerId := registry.nextPeerId
    (peerId,
      { byInfo := registry.byInfo.insert peer peerId
        byId := registry.byId.insert peerId peer
        nextPeerId := registry.nextPeerId + 1 })

/-- `insert_with_id`: bind a given id to a peer, or throw if one of them is
bound already. -/
def PeerRegistry.insertWithId (peerId : PeerId) (peer : PeerInfo) :
    EStateM Exception PeerRegistry Unit := do
  let registry ← get
  if (registry.byId.lookup peerId).isSome then
    throw (.runtimeError (bytes "Duplicate peer_id in registry: " ++ toDec peerId.toNat))
  else if (registry.byInfo.lookup peer).isSome then
    throw (.runtimeError (bytes "Duplicate peer identity in registry: " ++ makeKey peer))
  else
    set
      { byInfo := registry.byInfo.insert peer peerId
        byId := registry.byId.insert peerId peer
        nextPeerId :=
          if peerId ≥ registry.nextPeerId then peerId + 1 else registry.nextPeerId :
        PeerRegistry }

/-- `contains`: whether an id is in use. -/
def PeerRegistry.contains (registry : PeerRegistry) (peerId : PeerId) : Bool :=
  (registry.byId.lookup peerId).isSome

/-- `get`: the peer of an id, or an exception. -/
def PeerRegistry.get (registry : PeerRegistry) (peerId : PeerId) : Except Exception PeerInfo :=
  match registry.byId.lookup peerId with
  | some peer => .ok peer
  | none => .error (.runtimeError (bytes "Unknown peer_id in registry: " ++ toDec peerId.toNat))

/-- `clear()`, which leaves the registry as it was constructed. -/
def PeerRegistry.clear (_ : PeerRegistry) : PeerRegistry := {}

end ASNPrefixMap.Peer
