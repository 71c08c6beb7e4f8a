import ASNPrefixMap.Ingest.Loop
import ASNPrefixMap.Routing.AnyHistory

/-!
# Messages in any iteration order

An event rescans the counters of a record in the order of a hash map, and the
tracker is seeded in the order of another. Neither leaves a trace: a message
does the same to the objects under any orders (`ingestMessage_order`), and the
same is seen when a state is read (`seedFromState_order`).

The order may even change from message to message, as it does when a map is
rehashed. With this a run needs no orders at all: what it ends with is a
function of the messages, the starting objects and the clocks.
-/

namespace ASNPrefixMap.Ingest

open Lib Prefix Peer Routing Stats
open ASNPrefixMap.Parser

/-- Applying an event does not depend on the order in which the counters of its
record are met. -/
theorem World.apply_order (ord ord' : HashOrders) (world : World) (type : EventType)
    (peerId : PeerId) (pfx : BinaryPrefix) (asn : UInt32) (t : UInt64) :
    world.apply ord type peerId pfx asn t = world.apply ord' type peerId pfx asn t := by
  unfold World.apply
  cases type with
  | announce =>
    dsimp only
    rw [announce_order_irrel ord ord']
  | withdraw =>
    dsimp only
    rw [withdraw_order_irrel ord ord']

/-- A message does the same to the objects under any orders, and throws the same
exception if it does. -/
theorem ingestMessage_order (jsonParse : JsonParse) (net : Inet) (ord ord' : HashOrders)
    (text : Bytes) : ingestMessage jsonParse net ord text = ingestMessage jsonParse net ord' text := by
  have hevent : applyEvent net ord = applyEvent net ord' := by
    funext event peerId
    unfold applyEvent
    simp only [World.apply_order ord ord']
  have hcallback : onEvent net ord = onEvent net ord' := by
    unfold onEvent
    rw [hevent]
  unfold ingestMessage
  rw [hcallback]

/-- What is seen can be seen in another order. -/
theorem seeAsn_seePrefix_comm (tracker : GrowthStatsTracker) (asn asn' : UInt32)
    (pfx pfx' : BinaryPrefix) :
    (((tracker.seeAsn asn).seePrefix pfx).seeAsn asn').seePrefix pfx' =
      (((tracker.seeAsn asn').seePrefix pfx').seeAsn asn).seePrefix pfx := by
  cases pfx <;> cases pfx' <;>
    simp only [GrowthStatsTracker.seeAsn, GrowthStatsTracker.seePrefix, Finset.insert_comm]

/-- What is seen is seen in any order. -/
theorem seedFromState_order (ord ord' : HashOrders) (state : RoutingState)
    (tracker : GrowthStatsTracker) :
    tracker.seedFromState ord state = tracker.seedFromState ord' state := by
  unfold GrowthStatsTracker.seedFromState
  rw [(storedObservations_perm ord ord' state).foldl_eq'
    (fun o _ o' _ tracker => seeAsn_seePrefix_comm tracker _ _ _ _) tracker]

end ASNPrefixMap.Ingest
