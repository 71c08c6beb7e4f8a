import ASNPrefixMap.Ingest.Discovery
import ASNPrefixMap.Stats.Plateau

/-!
# Samples of the main loop

`src/main.cpp`: after each message the main loop may take a sample, and after
the loop one more is taken; each goes to the statistics file, and the plateau
message is printed with the sample that detects the plateau. `MainLoop` is the
loop on a clock that does not go back, with messages ingested by
`ingestMessage`. Between two samples a message only makes the tracker grow, so
the tracker's runs here are among those of `Stats.Sampling`, and the messages
printed count the openings of its latch.

Mirroring notes:

- `main` reads the steady clock up to three times a round: for the comparison,
  inside `sample_now`, and for the next deadline. `Clock` has all three, in
  their order; the wall clock, which only labels a row, may say anything.

- `next_stats_sample_at` is only set when statistics are enabled, and never
  compared otherwise.

- The rows written and the plateau messages printed are recorded in `Sampler`,
  which stands for the file and the error stream.
-/

namespace ASNPrefixMap.Ingest

open Lib Prefix Peer Routing Stats
open ASNPrefixMap.Parser

/-- The variables of `main` that sampling is about, with what has been written
so far: the rows of the statistics file and the plateau messages on the
console. -/
structure Sampler where
  world : World
  nextStatsSampleAt : Rat
  statsRows : List GrowthSample := []
  plateauMessages : List GrowthSample := []

/-- A sample is taken and written, and the plateau reported if it was detected
just now. -/
def Sampler.takeSample (now : Rat) (timestampMs : UInt64) (sampler : Sampler) : Sampler :=
  let sample := sampler.world.sample now timestampMs
  let sampler :=
    { sampler with
      world := sampler.world.sampled now timestampMs
      statsRows := sampler.statsRows ++ [sample] }
  let plateau := sampler.world.growthStats.plateauStatus
  if plateau.detectedOnThisSample then
    { sampler with plateauMessages := sampler.plateauMessages ++ [sample] }
  else sampler

/-- The clock readings of one round of the loop. The steady clock does not go
back between them. -/
structure Clock where
  checkedAt : Rat
  sampledAt : Rat
  timestampMs : UInt64
  rearmedAt : Rat
  sampledAt_ge : checkedAt ≤ sampledAt
  rearmedAt_ge : sampledAt ≤ rearmedAt

/-- The sampling at the end of the loop body, with the next deadline counted
from its end. -/
def Sampler.periodicSample (statsOutputEnabled : Bool) (statsIntervalMs : Nat) (clock : Clock)
    (sampler : Sampler) : Sampler :=
  if statsOutputEnabled && clock.checkedAt ≥ sampler.nextStatsSampleAt then
    { sampler.takeSample clock.sampledAt clock.timestampMs with
      nextStatsSampleAt := clock.rearmedAt + statsIntervalMs / 1000 }
  else sampler

/-- The sample after the loop. -/
def Sampler.finalSample (statsOutputEnabled : Bool) (now : Rat) (timestampMs : UInt64)
    (sampler : Sampler) : Sampler :=
  if statsOutputEnabled then sampler.takeSample now timestampMs else sampler

/-- The heads of the main loop, each with the last reading of the steady clock.
A message can be any text that is ingested without an exception, since one that
throws leaves no loop head. -/
inductive MainLoop (jsonParse : JsonParse) (net : Inet) (statsOutputEnabled : Bool)
    (statsIntervalMs : Nat) (start : World) : Rat → Sampler → Prop
  | start (now : Rat) :
    start.growthStats.startedAt ≤ now →
    MainLoop jsonParse net statsOutputEnabled statsIntervalMs start now
      { world := start
        nextStatsSampleAt := if statsOutputEnabled then now + statsIntervalMs / 1000 else 0 }
  | message {now : Rat} {sampler : Sampler} {world : World} (ord : HashOrders) (text : Bytes)
    (clock : Clock) :
    MainLoop jsonParse net statsOutputEnabled statsIntervalMs start now sampler →
    (ingestMessage jsonParse net ord text).run sampler.world = .ok () world →
    now ≤ clock.checkedAt →
    MainLoop jsonParse net statsOutputEnabled statsIntervalMs start clock.rearmedAt
      ({ sampler with world := world }.periodicSample statsOutputEnabled statsIntervalMs clock)

variable {jsonParse : JsonParse} {net : Inet} {statsOutputEnabled : Bool} {statsIntervalMs : Nat}

/-! ## Messages let the tracker grow -/

theorem mem_seenPrefixes_v4 (tracker : GrowthStatsTracker) (p : PrefixV4) :
    .v4 p ∈ seenPrefixes tracker ↔ p ∈ tracker.everSeenPrefixesV4 := by
  unfold seenPrefixes bothFamilies
  rw [Finset.mem_union, Finset.mem_image, Finset.mem_image]
  constructor
  · rintro (⟨q, hq, heq⟩ | ⟨q, -, heq⟩)
    · cases heq
      exact hq
    · cases heq
  · exact fun h => Or.inl ⟨p, h, rfl⟩

theorem mem_seenPrefixes_v6 (tracker : GrowthStatsTracker) (p : PrefixV6) :
    .v6 p ∈ seenPrefixes tracker ↔ p ∈ tracker.everSeenPrefixesV6 := by
  unfold seenPrefixes bothFamilies
  rw [Finset.mem_union, Finset.mem_image, Finset.mem_image]
  constructor
  · rintro (⟨q, -, heq⟩ | ⟨q, hq, heq⟩)
    · cases heq
    · cases heq
      exact hq
  · exact fun h => Or.inr ⟨p, h, rfl⟩

/-- A message lets the tracker grow and touches no part of its window. -/
theorem Received.grows {before after : World} {routed : Routed} (h : Received before routed after) :
    Grows before.growthStats after.growthStats where
  asns := by
    rw [h.asns]
    exact Finset.subset_union_left
  v4 p hp := by
    rw [← mem_seenPrefixes_v4, h.prefixes]
    exact Finset.mem_union_left _ ((mem_seenPrefixes_v4 _ p).mpr hp)
  v6 p hp := by
    rw [← mem_seenPrefixes_v6, h.prefixes]
    exact Finset.mem_union_left _ ((mem_seenPrefixes_v6 _ p).mpr hp)
  kept := by
    obtain ⟨asns, v4, v6, hgrowth⟩ := h.growth
    exact ⟨asns, v4, v6, _, _, _, _, _, _, hgrowth⟩

/-! ## Messages printed -/

/-- One more sample closes the latch at most once. -/
theorem detected_concat {settings : PlateauSettings} {start reading : Reading} {log : List Reading}
    {before after : GrowthStatsTracker} (hbefore : SlidingWindow settings start log before)
    (hafter : SlidingWindow settings start (log ++ [reading]) after) :
    after.plateauDetected.toNat =
      before.plateauDetected.toNat + after.plateauDetectedOnLastSample.toNat := by
  have honLast := hafter.onLast.trans (firstAt_concat_length reading)
  have hdetected := hafter.detected.trans (exists_firstAt_concat reading)
  rw [← hbefore.detected] at hdetected
  rw [← not_exists, ← hbefore.detected] at honLast
  cases hb : before.plateauDetected with
  | true =>
    rw [hb] at hdetected honLast
    have hnot : after.plateauDetectedOnLastSample = false :=
      Bool.eq_false_iff.mpr fun htrue => (honLast.mp htrue).2 rfl
    rw [hdetected.mpr (Or.inl rfl), hnot]
    rfl
  | false =>
    rw [hb] at hdetected honLast
    have hsame : after.plateauDetected = after.plateauDetectedOnLastSample := by
      rw [Bool.eq_iff_iff, hdetected, honLast]
      exact ⟨fun hor => ⟨hor.resolve_left Bool.false_ne_true, Bool.false_ne_true⟩,
        fun hand => Or.inr hand.1⟩
    rw [hsame, Bool.toNat_false, Nat.zero_add]

/-- The tracker's past is one of `Sampling`, up to the given moment, and there
is a message for the latch, if it is closed, and no other. -/
def Sampled (settings : PlateauSettings) (now : Rat) (sampler : Sampler) : Prop :=
  ∃ start log, Sampling settings start log sampler.world.growthStats ∧
    (lastReading start log).time ≤ now ∧
    sampler.plateauMessages.length = sampler.world.growthStats.plateauDetected.toNat

/-- A sample keeps the account of messages: one is printed exactly when the
latch closes. -/
theorem Sampled.takeSample {settings : PlateauSettings} {at₀ now : Rat} {sampler : Sampler}
    (h : Sampled settings at₀ sampler) (hle : at₀ ≤ now) (timestampMs : UInt64) :
    Sampled settings now (sampler.takeSample now timestampMs) := by
  obtain ⟨start, log, hrun, htime, hmessages⟩ := h
  have hafter := hrun.sample now timestampMs (le_trans htime hle)
  have hcount := detected_concat hrun.slidingWindow hafter.slidingWindow
  have htime' : (lastReading start
      (log ++ [⟨now, sampler.world.growthStats.prefixesEverSeen⟩])).time ≤ now := by
    rw [lastReading_concat]
  unfold Sampler.takeSample
  dsimp only
  split
  next honLast =>
    refine ⟨start, _, hafter, htime', ?_⟩
    have htrue : (sampler.world.growthStats.sampleNow now timestampMs).2.plateauDetectedOnLastSample =
        true := honLast
    rw [htrue] at hcount
    rw [List.length_append, hmessages, List.length_singleton]
    exact hcount.symm
  next honLast =>
    refine ⟨start, _, hafter, htime', ?_⟩
    have hfalse : (sampler.world.growthStats.sampleNow now timestampMs).2.plateauDetectedOnLastSample =
        false := Bool.eq_false_iff.mpr honLast
    rw [hfalse] at hcount
    exact hmessages.trans hcount.symm

theorem Sampled.later {settings : PlateauSettings} {at₀ now : Rat} {sampler : Sampler}
    (h : Sampled settings at₀ sampler) (hle : at₀ ≤ now) : Sampled settings now sampler := by
  obtain ⟨start, log, hrun, htime, hmessages⟩ := h
  exact ⟨start, log, hrun, le_trans htime hle, hmessages⟩

/-- A message keeps the account, as it only lets the tracker grow. -/
theorem Sampled.message {settings : PlateauSettings} {now : Rat} {sampler : Sampler} {world : World}
    (h : Sampled settings now sampler)
    (hgrows : Grows sampler.world.growthStats world.growthStats) :
    Sampled settings now { sampler with world := world } := by
  obtain ⟨start, log, hrun, htime, hmessages⟩ := h
  refine ⟨start, log, hrun.grows hgrows, htime, ?_⟩
  obtain ⟨_, _, _, _, _, _, _, _, _, hkept⟩ := hgrows.kept
  dsimp only
  rw [hmessages, hkept]

/-- The main loop, started with a seeded tracker. -/
theorem MainLoop.sampled {registry : PeerRegistry} {state : RoutingState} {stats : IngestionStats}
    {settings : PlateauSettings} {startedAt : Rat} {ord : HashOrders} {now : Rat} {sampler : Sampler}
    (h : MainLoop jsonParse net statsOutputEnabled statsIntervalMs
      (seededWorld registry state stats settings startedAt ord) now sampler) :
    Sampled settings now sampler := by
  induction h with
  | start now hle =>
    obtain ⟨asns, v4, v6, activeV4, activeV6, hseeded⟩ :=
      seedFromState_fields ord state (.start settings startedAt)
    have hworld : (seededWorld registry state stats settings startedAt ord).growthStats =
        (GrowthStatsTracker.start settings startedAt).seedFromState ord state := rfl
    refine ⟨_, [], .seeded startedAt ord state, ?_, ?_⟩
    · rw [hworld, hseeded] at hle
      exact hle
    · rw [hworld, hseeded]
      rfl
  | @message now sampler world _ text clock _ hrun hle ih =>
    have hmessage := ih.message (ingestMessage_routed hrun).1.grows
    unfold Sampler.periodicSample
    split
    next =>
      obtain ⟨start, log, hsampling, htime, hmessages⟩ :=
        hmessage.takeSample (le_trans hle clock.sampledAt_ge) clock.timestampMs
      exact ⟨start, log, hsampling, le_trans htime clock.rearmedAt_ge, hmessages⟩
    next =>
      exact hmessage.later (le_trans hle (le_trans clock.sampledAt_ge clock.rearmedAt_ge))

/-- **Plateau detection is the sliding-window rule**: for any settings, after
any run of a tracker, its window, sum, latch and one-sample flag are what the
readings say; and the main loop, whatever it ingests and whenever it samples,
has printed at most one plateau message at every loop head and after the final
sample. The sum is kept by adding and subtracting, never computed anew, so that
it stays exact is part of the invariant. -/
theorem plateauDetection_exact (settings : PlateauSettings) :
    (∀ start log tracker, Sampling settings start log tracker →
      SlidingWindow settings start log tracker) ∧
    ∀ jsonParse net statsOutputEnabled statsIntervalMs registry state stats startedAt ord now sampler,
      MainLoop jsonParse net statsOutputEnabled statsIntervalMs
          (seededWorld registry state stats settings startedAt ord) now sampler →
        sampler.plateauMessages.length ≤ 1 ∧
          ∀ finalAt timestampMs, now ≤ finalAt →
            (sampler.finalSample statsOutputEnabled finalAt timestampMs).plateauMessages.length ≤ 1 := by
  refine ⟨fun _ _ _ h => h.slidingWindow, fun _ _ _ _ _ _ _ _ _ _ _ h => ⟨?_, ?_⟩⟩
  · obtain ⟨_, _, _, _, hmessages⟩ := h.sampled
    rw [hmessages]
    exact Bool.toNat_le _
  · intro finalAt timestampMs hle
    unfold Sampler.finalSample
    split
    next =>
      obtain ⟨_, _, _, _, hmessages⟩ := h.sampled.takeSample hle timestampMs
      rw [hmessages]
      exact Bool.toNat_le _
    next =>
      obtain ⟨_, _, _, _, hmessages⟩ := h.sampled
      rw [hmessages]
      exact Bool.toNat_le _

/-- Two silent seconds with a window of two: the run behind the second
sample. -/
theorem plateauDetection_exact_silent :
    SlidingWindow ⟨true, 2, 5, 1⟩ ⟨0, 0⟩ [⟨1, 0⟩, ⟨2, 0⟩]
      (((GrowthStatsTracker.start ⟨true, 2, 5, 1⟩ 0).sampleNow 1 0).2.sampleNow 2 0).2 :=
  (plateauDetection_exact ⟨true, 2, 5, 1⟩).1 ⟨0, 0⟩ [⟨1, 0⟩, ⟨2, 0⟩] _
    (.sample 2 0 (.sample 1 0 (.start 0) (by decide)) (by decide))

end ASNPrefixMap.Ingest
