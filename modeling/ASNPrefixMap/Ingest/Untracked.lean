import ASNPrefixMap.Ingest.Loop
import ASNPrefixMap.Lib.Agreement

/-!
# The loop without its tracker

The tracker is updated with every event and read by nobody but itself: what a
message does to the registry, the routing state and the counters of the loop,
and whether it throws, does not depend on it (`ingestMessage_untracked`).

It is shown by agreement: two runs of the loop body on worlds that differ in the
tracker only give worlds that differ in the tracker only, with the same
exception if any.
-/

namespace ASNPrefixMap.Ingest

open Lib Prefix Peer Routing Stats
open ASNPrefixMap.Parser

/-- The objects but for the tracker. -/
def World.untracked (world : World) : PeerRegistry × RoutingState × IngestionStats :=
  (world.registry, world.state, world.stats)

/-- An event does the same to the other objects. -/
theorem applyEvent_untracked (net : Inet) (ord : HashOrders) (event : BgpEvent) (peerId : PeerId) :
    Agree World.untracked World.untracked (applyEvent net ord event peerId)
      (applyEvent net ord event peerId) := by
  unfold applyEvent
  cases parsePrefix net event.prefixText with
  | error e => exact Agree.throw e
  | ok pfx =>
    refine Agree.modify fun world world' h => ?_
    obtain ⟨registry, state, stats, tracker⟩ := world
    obtain ⟨registry', state', stats', tracker'⟩ := world'
    cases h
    cases event.type <;> rfl

theorem countMessage_untracked {world world' : World} (h : world.untracked = world'.untracked)
    (emittedEvents : Nat) :
    (world.countMessage emittedEvents).untracked = (world'.countMessage emittedEvents).untracked := by
  obtain ⟨registry, state, stats, tracker⟩ := world
  obtain ⟨registry', state', stats', tracker'⟩ := world'
  cases h
  unfold World.countMessage
  dsimp only
  split <;> rfl

/-- What a message does to the other objects does not depend on the tracker. -/
theorem ingestMessage_untracked (jsonParse : JsonParse) (net : Inet) (ord : HashOrders) (text : Bytes) :
    Agree World.untracked World.untracked (ingestMessage jsonParse net ord text)
      (ingestMessage jsonParse net ord text) := by
  intro world world' h
  have hreceived : world.receiveMessage.untracked = world'.receiveMessage.untracked := by
    obtain ⟨registry, state, stats, tracker⟩ := world
    obtain ⟨registry', state', stats', tracker'⟩ := world'
    cases h
    rfl
  rw [ingestMessage_eq, ingestMessage_eq]
  cases messageEvents jsonParse text with
  | error e => exact congrArg (EStateM.Result.error e) hreceived
  | ok events =>
    cases events with
    | nil => exact congrArg (EStateM.Result.ok ()) (countMessage_untracked hreceived 0)
    | cons event rest =>
      have hregistry : world.receiveMessage.registry = world'.receiveMessage.registry :=
        congrArg Prod.fst hreceived
      have hpeer : (world.receiveMessage.resolvePeer event.peer).1 =
          (world'.receiveMessage.resolvePeer event.peer).1 := by
        unfold World.resolvePeer
        rw [hregistry]
      have hresolved : (world.receiveMessage.resolvePeer event.peer).2.untracked =
          (world'.receiveMessage.resolvePeer event.peer).2.untracked := by
        unfold World.resolvePeer World.untracked
        dsimp only
        rw [hregistry]
        exact congrArg (Prod.mk _) (congrArg Prod.snd hreceived)
      have hevents := Agree.forM (fun event' : BgpEvent => applyEvent_untracked net ord event'
        (world'.receiveMessage.resolvePeer event.peer).1) (event :: rest) _ _ hresolved
      dsimp only
      rw [hpeer, applyEvents]
      cases hrun : (forM (event :: rest) fun event' => applyEvent net ord event'
          (world'.receiveMessage.resolvePeer event.peer).1).run
            (world.receiveMessage.resolvePeer event.peer).2 with
      | error e after =>
        cases hrun' : (forM (event :: rest) fun event' => applyEvent net ord event'
            (world'.receiveMessage.resolvePeer event.peer).1).run
              (world'.receiveMessage.resolvePeer event.peer).2 with
        | error e' after' =>
          rw [hrun, hrun'] at hevents
          exact hevents
        | ok _ after' =>
          rw [hrun, hrun'] at hevents
          cases hevents
      | ok _ after =>
        cases hrun' : (forM (event :: rest) fun event' => applyEvent net ord event'
            (world'.receiveMessage.resolvePeer event.peer).1).run
              (world'.receiveMessage.resolvePeer event.peer).2 with
        | error e' after' =>
          rw [hrun, hrun'] at hevents
          cases hevents
        | ok _ after' =>
          rw [hrun, hrun'] at hevents
          injection hevents with _ hafter
          exact congrArg (EStateM.Result.ok ()) (countMessage_untracked hafter _)

end ASNPrefixMap.Ingest
