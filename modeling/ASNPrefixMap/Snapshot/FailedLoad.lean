import ASNPrefixMap.Snapshot.Lines

/-!
# What a failed load leaves

`load_snapshot` looks as if it read first and committed afterwards: everything
that is wrong with a single line is found while the lines are read into local
containers, before `registry.clear()` and `state.clear()`. Three things are
found only behind the two clears, while the records are inserted: an identity
that occurs under two ids, an observation of an id no peer line has, and a
prefix text its parser rejects. A load that throws for one of these leaves both
objects empty or half filled.

So a failed load keeps what there was exactly for the files in which, once the
header and the lines are in order, the records also fit together
(`failedLoad_keeps_iff`). The condition is on the lines of the file:
`HeaderInPlace` and `ReadableFrom` say that the first half gets through,
`Loadable` that the whole load does. The numbers of the lines count as they are
read: `std::stoul` and the cast to 32 bits come first, so two peer lines whose
AS numbers are 1 and 4294967297 carry one identity.
-/

namespace ASNPrefixMap.Snapshot

open Lib Prefix Peer Routing

variable {net : Inet} {ord : HashOrders} {peerOrd : IterOrder PeerId PeerInfo}

/-- A failed load leaves the registry and the state as they were, whatever they
were. -/
def FailedLoadKeeps (net : Inet) (ord : HashOrders) (peerOrd : IterOrder PeerId PeerInfo)
    (path : Bytes) (input : Option Bytes) : Prop :=
  ∀ store e store', (loadSnapshot net ord peerOrd path input).run store = .error e store' →
    store' = store

/-- If the header is in its place and every line is in order by itself, the
records of the lines fit together: what the first half of the load accepts, the
second half accepts too. A file that cannot be opened has no lines. -/
def RecordsRestorable (net : Inet) (input : Option Bytes) : Prop :=
  ∀ text, input = some text → HeaderInPlace text → ReadableFrom .none [] (bodyLines text) →
    Loadable net text

/-- The first half touches neither object, so an error found there costs
nothing. -/
theorem failedLoad_keeps_of_error {text : Bytes} {e : Exception}
    (h : readSnapshot text = .error e) (path : Bytes) :
    FailedLoadKeeps net ord peerOrd path (some text) := by
  intro store e' store' hload
  rw [loadSnapshot_of_error h] at hload
  cases hload
  rfl

/-- Records that fit together are restored without an error: there is no failed
load. -/
theorem failedLoad_keeps_of_restorable {text : Bytes} {reading : Reading}
    (h : readSnapshot text = .ok reading) (hrest : Restorable net reading) (path : Bytes) :
    FailedLoadKeeps net ord peerOrd path (some text) := by
  intro store e store' hload
  cases hsaw : reading.sawAnyContent with
  | false =>
    rw [loadSnapshot_of_blank h hsaw] at hload
    cases hload
  | true =>
    rw [loadSnapshot_of_content h hsaw,
      run_bind_ok (restoreSnapshot_of_restorable hrest store)] at hload
    cases hload

/-- Records that do not fit together are noticed behind the two clears. What is
left is the same for every store there was before, so it is not what there was
before for all of them. -/
theorem not_failedLoad_keeps {text : Bytes} {reading : Reading}
    (h : readSnapshot text = .ok reading) (hnot : ¬ Restorable net reading) (path : Bytes) :
    ¬ FailedLoadKeeps net ord peerOrd path (some text) := by
  intro hkeeps
  have hsaw : reading.sawAnyContent = true := by
    cases hs : reading.sawAnyContent with
    | true => rfl
    | false => exact absurd (restorable_of_blank h hs) hnot
  obtain ⟨e, store', hthrows⟩ := @restoreSnapshot_of_not_restorable net ord peerOrd reading hnot
  have hload : ∀ store, store' = store := by
    intro store
    refine hkeeps store e store' ?_
    rw [loadSnapshot_of_content h hsaw, run_bind_error (hthrows store)]
  have hnext := congrArg (fun store => store.registry.nextPeerId)
    ((hload {}).symm.trans (hload ⟨(PeerRegistry.getOrAdd {} ⟨[], [], 0⟩).2, {}⟩))
  exact absurd hnext (by decide)

/-- **A failed load leaves everything as it was exactly for the files whose
records, if every line is in order by itself, fit together.** -/
theorem failedLoad_keeps_iff (path : Bytes) (input : Option Bytes) :
    FailedLoadKeeps net ord peerOrd path input ↔ RecordsRestorable net input := by
  cases input with
  | none =>
    refine ⟨fun _ text htext => (by cases htext), fun _ store e store' hload => ?_⟩
    cases hload
    rfl
  | some text =>
    rcases readSnapshot_spec text with ⟨hheader, hreadable, reading, hread, hpeers, hobs⟩ |
      ⟨hbad, e, he⟩
    · have hiff := @restorable_iff_loadable net text reading hheader hreadable hpeers hobs
      constructor
      · intro hkeeps text' htext _ _
        cases htext
        by_contra hnot
        exact not_failedLoad_keeps hread (fun hrest => hnot (hiff.mp hrest)) path hkeeps
      · intro hrec
        exact failedLoad_keeps_of_restorable hread (hiff.mpr (hrec text rfl hheader hreadable)) path
    · refine ⟨fun _ text' htext hheader hreadable => ?_,
        fun _ => failedLoad_keeps_of_error he path⟩
      cases htext
      exact absurd ⟨hheader, hreadable⟩ hbad

/-- One host and address under two ids, with AS numbers that differ only beyond
32 bits. -/
def sameIdentityText : Bytes :=
  bytes "# ASNPrefixMap snapshot v1\n\n[peers]\n" ++
  bytes "1\trrc00\t192.0.2.1\t1\n2\trrc00\t192.0.2.1\t4294967297\n\n[observations]\n"

-- each of its lines is in order, but both are the same identity once the casts have been made
example : HeaderInPlace sameIdentityText ∧ ReadableFrom .none [] (bodyLines sameIdentityText) ∧
    ¬ Loadable Inet.standard sameIdentityText := by
  decide +kernel

/-! ## An observation of an unknown id -/

/-- One observation of peer 7, and no peer line at all. Every line is in order
by itself. -/
def unknownPeerText : Bytes :=
  bytes "# ASNPrefixMap snapshot v1\n\n[peers]\n\n[observations]\n" ++
  bytes "v4\t8.8.8.0/24\t7\t15169\t1710000000\n"

/-- What is lost: one peer with one observation. -/
def storeBefore : Store where
  registry := (PeerRegistry.getOrAdd {} ⟨bytes "rrc00", bytes "192.0.2.1", 64500⟩).2
  state := RoutingState.announce .ascending {} 1 (.v4 ⟨0x08080800, 24⟩) 15169 1710000000

/-- The unknown id is noticed after the registry and the state have been
cleared: the load throws, and the peer with its observation is gone. The text
passes every check that is made while it is read. -/
theorem unknown_peer_id_empties_store :
    ¬ ∀ store e store', (loadSnapshot Inet.standard .ascending
        (.byKey UInt32.toNat fun _ _ => UInt32.toNat_inj.mp) (bytes "snapshot.txt")
        (some unknownPeerText)).run store = .error e store' → store' = store := by
  intro h
  have htext : unknownPeerText =
      snapshotText [] [⟨.v4, bytes "8.8.8.0/24", 7, 15169, 1710000000⟩] := by decide +kernel
  obtain ⟨reading, hread, hhas⟩ := @readSnapshot_snapshotText []
    [⟨.v4, bytes "8.8.8.0/24", 7, 15169, 1710000000⟩] List.nodup_nil (fun _ hp => (by cases hp))
    (fun o ho => by
      obtain rfl := List.mem_singleton.mp ho
      exact ⟨by decide, by decide⟩)
  have hnot : ¬ Restorable Inet.standard reading := by
    intro hrest
    have ho : (⟨.v4, bytes "8.8.8.0/24", 7, 15169, 1710000000⟩ : SnapshotObservation) ∈
        reading.observations := by
      rw [hhas.observations_eq]
      exact List.mem_singleton.mpr rfl
    obtain ⟨peer, hpeer⟩ := Option.ne_none_iff_exists'.mp (hrest.known _ ho)
    exact absurd ((hhas.peers_iff _ _).mp hpeer) List.not_mem_nil
  obtain ⟨e, store', hthrows⟩ := @restoreSnapshot_of_not_restorable Inet.standard .ascending
    (.byKey UInt32.toNat fun _ _ => UInt32.toNat_inj.mp) reading hnot
  have hload : ∀ store, store' = store := by
    intro store
    refine h store e store' ?_
    rw [htext, loadSnapshot_of_content hread hhas.saw.1, run_bind_error (hthrows store)]
  have hnext := congrArg (fun store => store.registry.nextPeerId)
    ((hload {}).symm.trans (hload storeBefore))
  exact absurd hnext (by decide)

end ASNPrefixMap.Snapshot
