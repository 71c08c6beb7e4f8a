import ASNPrefixMap.Ingest.Sampling
import ASNPrefixMap.Stats.Csv

/-!
# The statistics file of a run

Every sample of the main loop goes to the statistics file. The file can be read
back, and its rows are the account of one run (`MainLoop.statsFile`): a row's
totals are those of the row before plus what it reports as new, no counter and
no uptime goes back, not even as printed, and within a row the active prefixes
and the applied events add up. The rows written and the tracker they were taken
from are related by `RowsSoFar`, which messages and samples keep.

Rounding is monotone and keeps signs, so order and sums of the true rows carry
over to the printed ones. The sums are of whole numbers only, which are printed
exactly.
-/

namespace ASNPrefixMap.Ingest

open Lib Prefix Peer Routing Stats
open ASNPrefixMap.Parser

/-! ## What rows say -/

/-- A row adds up: nothing is negative, the families add up to the total, and
the events are announcements and withdrawals. -/
structure Consistent (row : GrowthSample) : Prop where
  uptime : 0 ≤ row.uptimeSec
  asnRate : 0 ≤ row.newAsnsPerSec
  prefixRate : 0 ≤ row.newPrefixesPerSec
  active : row.totalActivePrefixes = row.totalActivePrefixesV4 + row.totalActivePrefixesV6
  events : row.parsedEventsTotal = row.announcesApplied + row.withdrawsApplied

/-- The next row goes on from the one before: no counter goes back, and the
growth it reports is the difference of the two totals. -/
structure Continues (before after : GrowthSample) : Prop where
  uptime : before.uptimeSec ≤ after.uptimeSec
  asns : before.totalUniqueAsnsEverSeen + after.newAsnsInInterval = after.totalUniqueAsnsEverSeen
  prefixes : before.totalUniquePrefixesEverSeen + after.newPrefixesInInterval =
    after.totalUniquePrefixesEverSeen
  raw : before.rawMessagesReceived ≤ after.rawMessagesReceived
  announces : before.announcesApplied ≤ after.announcesApplied
  withdraws : before.withdrawsApplied ≤ after.withdrawsApplied

/-- The `double`s of a printed row are off by at most half a unit of the last
digit. -/
structure Accurate (sample printed : GrowthSample) : Prop where
  uptime : |printed.uptimeSec - sample.uptimeSec| ≤ 1 / 2000
  asnRate : |printed.newAsnsPerSec - sample.newAsnsPerSec| ≤ 1 / 2000000
  prefixRate : |printed.newPrefixesPerSec - sample.newPrefixesPerSec| ≤ 1 / 2000000

/-- A statistics file as a reader finds it, with the samples it was written
from: the names of the columns, a row for each sample in order, and rows that go
on from each other, read back from the text. -/
structure StatsFile (text : Bytes) (samples : List GrowthSample) : Prop where
  header : ((getLines text).map (List.splitOn comma)).head? = some columns
  rows : ((getLines text).map (List.splitOn comma)).tail.map readSample =
    samples.map fun sample => some sample.printed
  accurate : ∀ sample ∈ samples, Accurate sample sample.printed
  consistent : ∀ sample ∈ samples, Consistent sample.printed
  continues : (samples.map GrowthSample.printed).IsChain Continues

/-- A printed row is within half a unit of the last digit, as its numbers are
not negative. -/
theorem Consistent.accurate {sample : GrowthSample} (h : Consistent sample) :
    Accurate sample sample.printed where
  uptime := (abs_fixedValue_sub_le (by decide) h.uptime).trans (by norm_num)
  asnRate := (abs_fixedValue_sub_le (by decide) h.asnRate).trans (by norm_num)
  prefixRate := (abs_fixedValue_sub_le (by decide) h.prefixRate).trans (by norm_num)

theorem fixedValue_nonneg (text : Bytes) : 0 ≤ fixedValue text := by
  unfold fixedValue
  positivity

theorem Consistent.printed {sample : GrowthSample} (h : Consistent sample) :
    Consistent sample.printed :=
  ⟨fixedValue_nonneg _, fixedValue_nonneg _, fixedValue_nonneg _, h.active, h.events⟩

/-- The next row goes on also as printed: rounding does not turn two uptimes
around. -/
theorem Continues.printed {before after : GrowthSample} (h : Continues before after)
    (hbefore : Consistent before) : Continues before.printed after.printed :=
  ⟨fixedValue_mono (by decide) hbefore.uptime h.uptime, h.asns, h.prefixes, h.raw, h.announces,
    h.withdraws⟩

theorem isChain_printed : ∀ {samples : List GrowthSample}, samples.IsChain Continues →
    (∀ sample ∈ samples, Consistent sample) →
    (samples.map GrowthSample.printed).IsChain Continues := by
  intro samples
  induction samples with
  | nil => exact fun _ _ => List.IsChain.nil
  | cons first rest ih =>
    intro hchain hconsistent
    cases rest with
    | nil => exact List.IsChain.singleton _
    | cons second rest =>
      rw [List.isChain_cons_cons] at hchain
      rw [List.map_cons, List.map_cons, List.isChain_cons_cons]
      exact ⟨hchain.1.printed (hconsistent first List.mem_cons_self),
        ih hchain.2 fun sample hmem => hconsistent sample (List.mem_cons_of_mem _ hmem)⟩

/-- Samples that add up and go on from each other make such a file. -/
theorem statsFile_of_samples {samples : List GrowthSample} (hchain : samples.IsChain Continues)
    (hconsistent : ∀ sample ∈ samples, Consistent sample) : StatsFile (statsText samples) samples where
  header := by
    rw [getLines_statsText]
    rfl
  rows := by
    rw [getLines_statsText, List.tail_cons, List.map_map]
    exact List.map_congr_left fun sample _ => readSample_sampleFields sample
  accurate := fun sample hmem => (hconsistent sample hmem).accurate
  consistent := fun sample hmem => (hconsistent sample hmem).printed
  continues := isChain_printed hchain hconsistent

/-! ## The rows of a run -/

/-- The last counts of a tracker are below the current ones, and the events add
up. -/
structure TrackerCounts (now : Rat) (tracker : GrowthStatsTracker) : Prop where
  started : tracker.startedAt ≤ now
  asns : tracker.lastSampleAsnCount ≤ tracker.everSeenAsns.card
  prefixes : tracker.lastSamplePrefixCount ≤ (seenPrefixes tracker).card
  events : tracker.parsedEventsTotal = tracker.announcesApplied + tracker.withdrawsApplied

/-- A tracker that has gone on since a row was taken from it. -/
structure SinceRow (row : GrowthSample) (now : Rat) (tracker : GrowthStatsTracker) : Prop where
  uptime : row.uptimeSec ≤ now - tracker.startedAt
  asns : row.totalUniqueAsnsEverSeen = tracker.lastSampleAsnCount
  prefixes : row.totalUniquePrefixesEverSeen = tracker.lastSamplePrefixCount
  raw : row.rawMessagesReceived ≤ tracker.rawMessagesReceived
  announces : row.announcesApplied ≤ tracker.announcesApplied
  withdraws : row.withdrawsApplied ≤ tracker.withdrawsApplied

/-- What holds of the rows at any moment of a run: each adds up, each goes on
from the one before, and the tracker has gone on from the last. -/
structure RowsSoFar (now : Rat) (sampler : Sampler) : Prop where
  counts : TrackerCounts now sampler.world.growthStats
  chain : sampler.statsRows.IsChain Continues
  consistent : ∀ row ∈ sampler.statsRows, Consistent row
  since : ∀ row, sampler.statsRows.getLast? = some row → SinceRow row now sampler.world.growthStats

/-- A rate is not negative, and zero over an empty interval. -/
theorem ratePerSec_nonneg (count : Nat) (intervalSec : Rat) : 0 ≤ ratePerSec count intervalSec := by
  unfold ratePerSec
  split
  next h => positivity
  next => exact le_refl 0

theorem TrackerCounts.later {at₀ now : Rat} {tracker : GrowthStatsTracker}
    (h : TrackerCounts at₀ tracker) (hle : at₀ ≤ now) : TrackerCounts now tracker :=
  { h with started := h.started.trans hle }

theorem RowsSoFar.later {at₀ now : Rat} {sampler : Sampler} (h : RowsSoFar at₀ sampler)
    (hle : at₀ ≤ now) : RowsSoFar now sampler where
  counts := h.counts.later hle
  chain := h.chain
  consistent := h.consistent
  since := fun row hrow =>
    let hsince := h.since row hrow
    { hsince with uptime := hsince.uptime.trans (sub_le_sub_right hle _) }

/-! ## A sample -/

section Sample

variable {now : Rat} {world : World}

theorem TrackerCounts.new_eq (h : TrackerCounts now world.growthStats) (timestampMs : UInt64) :
    world.growthStats.lastSampleAsnCount + (world.sample now timestampMs).newAsnsInInterval =
        world.growthStats.everSeenAsns.card ∧
      world.growthStats.lastSamplePrefixCount +
          (world.sample now timestampMs).newPrefixesInInterval =
        (world.sample now timestampMs).totalUniquePrefixesEverSeen := by
  have hprefixes := h.prefixes
  rw [seenPrefixes, card_bothFamilies] at hprefixes
  constructor
  · show _ + sizeSub world.growthStats.everSeenAsns.card world.growthStats.lastSampleAsnCount = _
    rw [sizeSub_of_le h.asns]
    exact Nat.add_sub_cancel' h.asns
  · show _ + sizeSub (world.growthStats.everSeenPrefixesV4.card +
      world.growthStats.everSeenPrefixesV6.card) world.growthStats.lastSamplePrefixCount = _
    rw [sizeSub_of_le hprefixes]
    exact Nat.add_sub_cancel' hprefixes

theorem TrackerCounts.consistent_sample (h : TrackerCounts now world.growthStats)
    (timestampMs : UInt64) : Consistent (world.sample now timestampMs) where
  uptime := sub_nonneg.mpr h.started
  asnRate := ratePerSec_nonneg _ _
  prefixRate := ratePerSec_nonneg _ _
  active := rfl
  events := h.events

/-- A sample goes on from the last row: what the tracker remembered at that row
is what it subtracts. -/
theorem SinceRow.continues {row : GrowthSample} (h : SinceRow row now world.growthStats)
    (hcounts : TrackerCounts now world.growthStats) (timestampMs : UInt64) :
    Continues row (world.sample now timestampMs) where
  uptime := h.uptime
  asns := by
    rw [h.asns]
    exact (hcounts.new_eq timestampMs).1
  prefixes := by
    rw [h.prefixes]
    exact (hcounts.new_eq timestampMs).2
  raw := h.raw
  announces := h.announces
  withdraws := h.withdraws

/-- After a sample the last counts are the current ones. -/
theorem TrackerCounts.sampled (h : TrackerCounts now world.growthStats) (timestampMs : UInt64) :
    TrackerCounts now (world.sampled now timestampMs).growthStats := by
  obtain ⟨rates, sum, detected, detectedAt, onLast, hsampled⟩ := sampled_eq world now timestampMs
  rw [hsampled]
  exact ⟨h.started, Nat.le_refl _, Nat.le_refl _, h.events⟩

/-- The tracker has just been left by its new row. -/
theorem sinceRow_sampled (world : World) (now : Rat) (timestampMs : UInt64) :
    SinceRow (world.sample now timestampMs) now (world.sampled now timestampMs).growthStats := by
  obtain ⟨rates, sum, detected, detectedAt, onLast, hsampled⟩ := sampled_eq world now timestampMs
  rw [hsampled]
  exact ⟨le_refl _, rfl, (card_bothFamilies _ _).symm, Nat.le_refl _, Nat.le_refl _, Nat.le_refl _⟩

/-- A sample adds its row, and changes nothing else but the tracker and the
plateau messages. -/
theorem takeSample_rows (sampler : Sampler) (now : Rat) (timestampMs : UInt64) :
    (sampler.takeSample now timestampMs).statsRows =
        sampler.statsRows ++ [sampler.world.sample now timestampMs] ∧
      (sampler.takeSample now timestampMs).world = sampler.world.sampled now timestampMs := by
  unfold Sampler.takeSample
  dsimp only
  split
  next => exact ⟨rfl, rfl⟩
  next => exact ⟨rfl, rfl⟩

/-- A sample adds one row that goes on from the last. -/
theorem RowsSoFar.takeSample {sampler : Sampler} (h : RowsSoFar now sampler) (timestampMs : UInt64) :
    RowsSoFar now (sampler.takeSample now timestampMs) := by
  obtain ⟨hrows, hworld⟩ := takeSample_rows sampler now timestampMs
  refine { counts := ?_, chain := ?_, consistent := ?_, since := ?_ }
  · rw [hworld]
    exact h.counts.sampled timestampMs
  · rw [hrows, List.isChain_append]
    refine ⟨h.chain, List.IsChain.singleton _, ?_⟩
    intro row hrow next hnext
    cases hnext
    exact (h.since row hrow).continues h.counts timestampMs
  · intro row hrow
    rw [hrows] at hrow
    rcases List.mem_append.mp hrow with hold | hnew
    · exact h.consistent row hold
    · rw [List.mem_singleton.mp hnew]
      exact h.counts.consistent_sample timestampMs
  · intro row hrow
    rw [hrows, List.getLast?_concat] at hrow
    cases hrow
    rw [hworld]
    exact sinceRow_sampled sampler.world now timestampMs

end Sample

/-! ## A message -/

/-- A message lets the counts grow and keeps the sum of events. -/
theorem TrackerCounts.message {now : Rat} {before after : World} {routed : Routed}
    (h : TrackerCounts now before.growthStats) (hrec : Received before routed after) :
    TrackerCounts now after.growthStats := by
  have hasns : before.growthStats.everSeenAsns.card ≤ after.growthStats.everSeenAsns.card := by
    rw [hrec.asns]
    exact Finset.card_le_card Finset.subset_union_left
  have hprefixes : (seenPrefixes before.growthStats).card ≤ (seenPrefixes after.growthStats).card := by
    rw [hrec.prefixes]
    exact Finset.card_le_card Finset.subset_union_left
  have hevents := routed.announces_add_withdraws
  obtain ⟨asns, v4, v6, hgrowth⟩ := hrec.growth
  refine ⟨?_, ?_, ?_, ?_⟩
  · rw [hgrowth]
    exact h.started
  · refine Nat.le_trans ?_ hasns
    rw [hgrowth]
    exact h.asns
  · refine Nat.le_trans ?_ hprefixes
    rw [hgrowth]
    exact h.prefixes
  · have hbefore := h.events
    rw [hgrowth]
    dsimp only
    omega

/-- A message moves the tracker on from the last row. -/
theorem SinceRow.message {row : GrowthSample} {now : Rat} {before after : World} {routed : Routed}
    (h : SinceRow row now before.growthStats) (hrec : Received before routed after) :
    SinceRow row now after.growthStats := by
  obtain ⟨asns, v4, v6, hgrowth⟩ := hrec.growth
  rw [hgrowth]
  exact ⟨h.uptime, h.asns, h.prefixes, Nat.le_succ_of_le h.raw,
    Nat.le_trans h.announces (Nat.le_add_right _ _), Nat.le_trans h.withdraws (Nat.le_add_right _ _)⟩

theorem RowsSoFar.message {now : Rat} {sampler : Sampler} {world : World} {routed : Routed}
    (h : RowsSoFar now sampler) (hrec : Received sampler.world routed world) :
    RowsSoFar now { sampler with world := world } where
  counts := h.counts.message hrec
  chain := h.chain
  consistent := h.consistent
  since := fun row hrow => (h.since row hrow).message hrec

/-! ## The run -/

section Run

variable {jsonParse : JsonParse} {net : Inet} {statsOutputEnabled : Bool} {statsIntervalMs : Nat}
  {registry : PeerRegistry} {state : RoutingState} {stats : IngestionStats} {settings : PlateauSettings}
  {startedAt : Rat} {ord : HashOrders} {now : Rat} {sampler : Sampler}

/-- A seeded tracker has received nothing, and its last counts are what it has
seen. -/
theorem trackerCounts_seeded (hle : startedAt ≤ now) : TrackerCounts now
    (seededWorld registry state stats settings startedAt ord).growthStats := by
  obtain ⟨asns, v4, v6, activeV4, activeV6, hseeded⟩ :=
    seedFromState_fields ord state (.start settings startedAt)
  have hworld : (seededWorld registry state stats settings startedAt ord).growthStats =
      (GrowthStatsTracker.start settings startedAt).seedFromState ord state := rfl
  rw [hworld, hseeded]
  exact ⟨hle, Nat.le_refl _, Nat.le_of_eq (card_bothFamilies _ _).symm, rfl⟩

/-- The rows at every loop head, by induction on the run. -/
theorem MainLoop.rowsSoFar (h : MainLoop jsonParse net statsOutputEnabled statsIntervalMs
      (seededWorld registry state stats settings startedAt ord) now sampler) :
    RowsSoFar now sampler := by
  induction h with
  | start now hle =>
    have hstarted : (seededWorld registry state stats settings startedAt ord).growthStats.startedAt =
        startedAt := by
      obtain ⟨asns, v4, v6, activeV4, activeV6, hseeded⟩ :=
        seedFromState_fields ord state (.start settings startedAt)
      have hworld : (seededWorld registry state stats settings startedAt ord).growthStats =
          (GrowthStatsTracker.start settings startedAt).seedFromState ord state := rfl
      rw [hworld, hseeded]
      rfl
    rw [hstarted] at hle
    exact
      { counts := trackerCounts_seeded hle
        chain := List.IsChain.nil
        consistent := fun row hrow => absurd hrow List.not_mem_nil
        since := fun row hrow => by cases hrow }
  | @message now sampler world _ text clock _ hrun hle ih =>
    have hmessage := ih.message (ingestMessage_routed hrun).1
    unfold Sampler.periodicSample
    split
    next =>
      have hsampled := (hmessage.later (hle.trans clock.sampledAt_ge)).takeSample clock.timestampMs
      have hlater := hsampled.later clock.rearmedAt_ge
      exact ⟨hlater.counts, hlater.chain, hlater.consistent, hlater.since⟩
    next => exact hmessage.later (hle.trans (clock.sampledAt_ge.trans clock.rearmedAt_ge))

/-- **The statistics file of a run** can be read back, and its rows account for
one run, in the printed values too: the main loop from any loaded state, with
any messages and at any moments. -/
theorem MainLoop.statsFile (h : MainLoop jsonParse net statsOutputEnabled statsIntervalMs
      (seededWorld registry state stats settings startedAt ord) now sampler) {finalAt : Rat}
    (hle : now ≤ finalAt) (timestampMs : UInt64) :
    StatsFile (statsText sampler.statsRows) sampler.statsRows ∧
      StatsFile (statsText (sampler.finalSample statsOutputEnabled finalAt timestampMs).statsRows)
        (sampler.finalSample statsOutputEnabled finalAt timestampMs).statsRows := by
  have hrows := h.rowsSoFar
  refine ⟨statsFile_of_samples hrows.chain hrows.consistent, ?_⟩
  unfold Sampler.finalSample
  split
  next =>
    have hfinal := (hrows.later hle).takeSample timestampMs
    exact statsFile_of_samples hfinal.chain hfinal.consistent
  next => exact statsFile_of_samples hrows.chain hrows.consistent

end Run

end ASNPrefixMap.Ingest
