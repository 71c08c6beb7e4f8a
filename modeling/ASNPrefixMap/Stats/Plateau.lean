import ASNPrefixMap.Lib.Sliding
import ASNPrefixMap.Stats.Growth
import Mathlib.Algebra.BigOperators.Group.List.Basic
import Mathlib.Algebra.Order.Field.Rat
import Mathlib.Tactic.Ring

/-!
# The plateau heuristic is a rule about a sliding window

The tracker keeps the last discovery rates and their sum by adding at one end
and subtracting at the other, and remembers that a plateau was seen. Here the
heuristic is said without that state: from the clock readings and the ever-seen
counts at the samples so far (`Reading`) follow the rates of the intervals
(`prefixRates`), and whether the last sample is on a plateau (`Plateau`) is a
matter of the last `windowSamples` of them. `Sampling` is any run of a tracker:
samples on a clock that does not go back, and between them anything that lets
the ever-seen sets grow. `slidingWindow` reads the tracker's window, sum, latch
and one-sample flag off the readings.

The rule is the specification and the tracker is its implementation; `Sampling`
makes the connection one about every run, whatever was ingested in between.
-/

namespace ASNPrefixMap.Stats

open Lib Prefix Routing

/-! ## The rule -/

/-- What a sample looks at: the clock, and how many prefixes have ever been
seen. The rest of the tracker does not matter to the rule. -/
structure Reading where
  time : Rat
  prefixes : Nat

/-- The discovery rate of the interval between two samples; an empty interval
counts as 0. -/
def rateBetween (before after : Reading) : Rat :=
  if before.time < after.time then
    ((after.prefixes : Rat) - before.prefixes) / (after.time - before.time)
  else 0

/-- The rates of all intervals, the first of which begins at the start. -/
def prefixRates (start : Reading) : List Reading → List Rat
  | [] => []
  | reading :: log => rateBetween start reading :: prefixRates reading log

/-- The last sample, or the start when there is none. Every interval begins
there. -/
def lastReading (start : Reading) (log : List Reading) : Reading := log.getLast?.getD start

/-- The time from the start to the last sample. -/
def uptime (start : Reading) (log : List Reading) : Rat := (lastReading start log).time - start.time

/-- Detection is on, and there is a window to look at. -/
def PlateauSettings.Active (settings : PlateauSettings) : Prop :=
  settings.enabled = true ∧ 0 < settings.windowSamples

/-- The last sample is on a plateau: the window is full, the run is long enough,
and the mean of the rates in the window is below the threshold. -/
structure Plateau (settings : PlateauSettings) (start : Reading) (log : List Reading) : Prop where
  active : settings.Active
  full : settings.windowSamples ≤ log.length
  longEnough : settings.minRuntimeSec ≤ uptime start log
  mean_lt : ((prefixRates start log).rtake settings.windowSamples).sum / settings.windowSamples <
    settings.prefixRateThreshold

/-- What a tracker holds after some samples, said in terms of the readings
alone. The sum is exact since rationals do not round; the latch remembers the
first sample on a plateau. -/
structure SlidingWindow (settings : PlateauSettings) (start : Reading) (log : List Reading)
    (tracker : GrowthStatsTracker) : Prop where
  rates : settings.Active →
    tracker.recentPrefixRates = (prefixRates start log).rtake settings.windowSamples
  sum : settings.Active →
    tracker.recentPrefixRateSum = ((prefixRates start log).rtake settings.windowSamples).sum
  detected : tracker.plateauDetected = true ↔ ∃ n, FirstAt (Plateau settings start) log n
  detectedAt : ∀ n, FirstAt (Plateau settings start) log n →
    tracker.plateauUptimeSec = uptime start (log.take n)
  onLast : tracker.plateauDetectedOnLastSample = true ↔
    FirstAt (Plateau settings start) log log.length
  inactive : ¬ settings.Active →
    tracker.plateauDetected = false ∧ tracker.plateauDetectedOnLastSample = false

theorem length_prefixRates : ∀ (log : List Reading) (start : Reading),
    (prefixRates start log).length = log.length := by
  intro log
  induction log with
  | nil => exact fun _ => rfl
  | cons reading log ih =>
    intro start
    rw [prefixRates, List.length_cons, List.length_cons, ih reading]

/-- The last of some samples is the one that was added. -/
theorem lastReading_concat (start : Reading) (log : List Reading) (reading : Reading) :
    lastReading start (log ++ [reading]) = reading := by
  unfold lastReading
  rw [List.getLast?_concat]
  rfl

/-- The first of some samples is a start for those after it. -/
theorem lastReading_cons (start : Reading) (log : List Reading) (reading : Reading) :
    lastReading start (reading :: log) = lastReading reading log := by
  unfold lastReading
  rw [List.getLast?_cons]
  rfl

/-- One more sample adds the rate since the last one. -/
theorem prefixRates_concat (reading : Reading) : ∀ (log : List Reading) (start : Reading),
    prefixRates start (log ++ [reading]) =
      prefixRates start log ++ [rateBetween (lastReading start log) reading] := by
  intro log
  induction log with
  | nil => exact fun _ => rfl
  | cons r log ih =>
    intro start
    rw [List.cons_append, prefixRates, prefixRates, ih r, lastReading_cons, List.cons_append]

/-- Without samples there is no first one on a plateau. -/
theorem not_firstAt_nil {settings : PlateauSettings} {start : Reading} {n : Nat} :
    ¬ FirstAt (Plateau settings start) [] n := by
  intro h
  have hactive := h.holds.active.2
  have hfull := h.holds.full
  rw [List.take_nil, List.length_nil] at hfull
  omega

/-! ## Runs -/

/-- How many prefixes a tracker has ever seen, in both families. -/
def GrowthStatsTracker.prefixesEverSeen (tracker : GrowthStatsTracker) : Nat :=
  tracker.everSeenPrefixesV4.card + tracker.everSeenPrefixesV6.card

/-- Anything that can happen to a tracker between two samples: the ever-seen
sets grow, the counters take any values, the rest stays. -/
structure Grows (before after : GrowthStatsTracker) : Prop where
  asns : before.everSeenAsns ⊆ after.everSeenAsns
  v4 : before.everSeenPrefixesV4 ⊆ after.everSeenPrefixesV4
  v6 : before.everSeenPrefixesV6 ⊆ after.everSeenPrefixesV6
  kept : ∃ asns v4 v6 raw parsed announces withdraws activeV4 activeV6, after =
    { before with
      everSeenAsns := asns
      everSeenPrefixesV4 := v4
      everSeenPrefixesV6 := v6
      rawMessagesReceived := raw
      parsedEventsTotal := parsed
      announcesApplied := announces
      withdrawsApplied := withdraws
      activePrefixesV4 := activeV4
      activePrefixesV6 := activeV6 }

/-- Growth makes the count no smaller, so a difference of counts does not
wrap. -/
theorem Grows.prefixesEverSeen_le {before after : GrowthStatsTracker} (h : Grows before after) :
    before.prefixesEverSeen ≤ after.prefixesEverSeen :=
  Nat.add_le_add (Finset.card_le_card h.v4) (Finset.card_le_card h.v6)

/-- The runs of a tracker, each with the reading at its start and those at its
samples: a new tracker, perhaps seeded, then growth and samples in any order. -/
inductive Sampling (settings : PlateauSettings) :
    Reading → List Reading → GrowthStatsTracker → Prop
  | start (startedAt : Rat) :
    Sampling settings ⟨startedAt, 0⟩ [] (.start settings startedAt)
  | seeded (startedAt : Rat) (ord : HashOrders) (state : RoutingState) :
    Sampling settings
      ⟨startedAt, ((GrowthStatsTracker.start settings startedAt).seedFromState ord state).prefixesEverSeen⟩
      [] ((GrowthStatsTracker.start settings startedAt).seedFromState ord state)
  | grows {start : Reading} {log : List Reading} {tracker tracker' : GrowthStatsTracker} :
    Sampling settings start log tracker → Grows tracker tracker' →
    Sampling settings start log tracker'
  | sample {start : Reading} {log : List Reading} {tracker : GrowthStatsTracker} (now : Rat)
    (timestampMs : UInt64) :
    Sampling settings start log tracker → (lastReading start log).time ≤ now →
    Sampling settings start (log ++ [⟨now, tracker.prefixesEverSeen⟩])
      (tracker.sampleNow now timestampMs).2

/-- What a tracker remembers of the last sample. -/
structure Remembers (settings : PlateauSettings) (start : Reading) (log : List Reading)
    (tracker : GrowthStatsTracker) : Prop where
  settings : tracker.plateauSettings = settings
  startedAt : tracker.startedAt = start.time
  lastSampleAt : tracker.lastSampleAt = (lastReading start log).time
  lastCount : tracker.lastSamplePrefixCount = (lastReading start log).prefixes
  count_le : (lastReading start log).prefixes ≤ tracker.prefixesEverSeen

/-! ## Before the first sample -/

section Start

variable {settings : PlateauSettings} {start : Reading} {tracker : GrowthStatsTracker}

/-- Without samples there is nothing in the window and no plateau. -/
theorem slidingWindow_nil (hrates : tracker.recentPrefixRates = [])
    (hsum : tracker.recentPrefixRateSum = 0) (hdetected : tracker.plateauDetected = false)
    (honLast : tracker.plateauDetectedOnLastSample = false) :
    SlidingWindow settings start [] tracker where
  rates _ := by rw [hrates, prefixRates, List.rtake_nil]
  sum _ := by rw [hsum, prefixRates, List.rtake_nil, List.sum_nil]
  detected := by
    rw [hdetected]
    exact ⟨fun h => absurd h Bool.false_ne_true, fun ⟨_, h⟩ => absurd h not_firstAt_nil⟩
  detectedAt _ h := absurd h not_firstAt_nil
  onLast := by
    rw [honLast]
    exact ⟨fun h => absurd h Bool.false_ne_true, fun h => absurd h not_firstAt_nil⟩
  inactive _ := ⟨hdetected, honLast⟩

end Start

/-! ## One sample -/

/-- The loop leaves the last `windowSamples` rates and their sum. The induction
is on the window, whose front it drops. -/
theorem dropOldRates_eq (windowSamples : Nat) : ∀ (rates : List Rat) (sum : Rat), sum = rates.sum →
    dropOldRates windowSamples rates sum =
      (rates.rtake windowSamples, (rates.rtake windowSamples).sum) := by
  intro rates
  induction rates with
  | nil =>
    intro sum hsum
    rw [hsum, List.rtake_nil, dropOldRates]
  | cons rate rates ih =>
    intro sum hsum
    unfold dropOldRates
    split
    next hlong =>
      -- the front rate leaves the sum it had entered
      have hrest : sum - rate = rates.sum := by
        rw [hsum, List.sum_cons]
        ring
      rw [List.length_cons] at hlong
      rw [ih _ hrest, rtake_cons_of_le (by omega)]
    next hshort => rw [rtake_of_length_le (by omega), hsum]

section Sample

variable {settings : PlateauSettings} {start : Reading} {log : List Reading}
  {tracker : GrowthStatsTracker}

/-- With detection off only the one-sample flag is reset. -/
theorem detectPlateau_inactive (h : ¬ tracker.plateauSettings.Active) (uptimeSec rate : Rat) :
    tracker.detectPlateau uptimeSec rate =
      { tracker with plateauDetectedOnLastSample := false } := by
  unfold GrowthStatsTracker.detectPlateau
  refine if_neg fun hcond => h ?_
  rw [Bool.and_eq_true, decide_eq_true_eq] at hcond
  exact hcond

/-- With detection on the window slides, and the latch is set if it is open and
the window says so. -/
theorem detectPlateau_active (h : tracker.plateauSettings.Active)
    (hsum : tracker.recentPrefixRateSum = tracker.recentPrefixRates.sum) (uptimeSec rate : Rat) :
    let window := (tracker.recentPrefixRates ++ [rate]).rtake tracker.plateauSettings.windowSamples
    tracker.detectPlateau uptimeSec rate =
      if tracker.plateauDetected = false ∧ window.length = tracker.plateauSettings.windowSamples ∧
          tracker.plateauSettings.minRuntimeSec ≤ uptimeSec ∧
          window.sum / tracker.plateauSettings.windowSamples <
            tracker.plateauSettings.prefixRateThreshold then
        { tracker with
          recentPrefixRates := window
          recentPrefixRateSum := window.sum
          plateauDetected := true
          plateauUptimeSec := uptimeSec
          plateauDetectedOnLastSample := true }
      else
        { tracker with
          recentPrefixRates := window
          recentPrefixRateSum := window.sum
          plateauDetectedOnLastSample := false } := by
  intro window
  have hactive : (tracker.plateauSettings.enabled &&
      decide (tracker.plateauSettings.windowSamples > 0)) = true := by
    rw [Bool.and_eq_true, decide_eq_true_eq]
    exact h
  have hdrop := dropOldRates_eq tracker.plateauSettings.windowSamples
    (tracker.recentPrefixRates ++ [rate]) (tracker.recentPrefixRateSum + rate)
    (by rw [List.sum_append, List.sum_singleton, hsum])
  unfold GrowthStatsTracker.detectPlateau
  dsimp only
  rw [if_pos hactive, hdrop]
  dsimp only
  by_cases hcond : tracker.plateauDetected = false ∧
      window.length = tracker.plateauSettings.windowSamples ∧
      tracker.plateauSettings.minRuntimeSec ≤ uptimeSec ∧
      window.sum / tracker.plateauSettings.windowSamples <
        tracker.plateauSettings.prefixRateThreshold
  · rw [if_pos hcond]
    obtain ⟨hopen, hfull, hlong, hmean⟩ := hcond
    rw [if_pos]
    rw [hopen, hfull]
    simp only [Bool.not_false, beq_self_eq_true, Bool.and_eq_true, decide_eq_true_eq, true_and]
    exact ⟨hlong, hmean⟩
  · rw [if_neg hcond, if_neg]
    intro htest
    simp only [Bool.and_eq_true, decide_eq_true_eq, Bool.not_eq_true', beq_iff_eq] at htest
    obtain ⟨⟨⟨hopen, hfull⟩, hlong⟩, hmean⟩ := htest
    rw [hfull] at hmean
    exact hcond ⟨hopen, hfull, hlong, hmean⟩

/-- The rate a sample reports is that of its interval: the counts do not
wrap. -/
theorem Remembers.newPrefixesPerSec (h : Remembers settings start log tracker) (now : Rat)
    (timestampMs : UInt64) :
    (tracker.sampleNow now timestampMs).1.newPrefixesPerSec =
      rateBetween (lastReading start log) ⟨now, tracker.prefixesEverSeen⟩ := by
  have hnew : sizeSub tracker.prefixesEverSeen tracker.lastSamplePrefixCount =
      tracker.prefixesEverSeen - (lastReading start log).prefixes := by
    rw [h.lastCount, sizeSub_of_le h.count_le]
  show ratePerSec (sizeSub tracker.prefixesEverSeen tracker.lastSamplePrefixCount)
    (now - tracker.lastSampleAt) = _
  unfold ratePerSec rateBetween
  dsimp only
  rw [hnew, h.lastSampleAt, Nat.cast_sub h.count_le]
  by_cases hlt : (lastReading start log).time < now
  · rw [if_pos hlt, if_pos (sub_pos.mpr hlt)]
  · rw [if_neg hlt, if_neg fun hpos => hlt (sub_pos.mp hpos)]

/-- A sample makes its readings the ones to remember. -/
theorem Remembers.sample (h : Remembers settings start log tracker) (now : Rat)
    (timestampMs : UInt64) :
    Remembers settings start (log ++ [⟨now, tracker.prefixesEverSeen⟩])
      (tracker.sampleNow now timestampMs).2 := by
  obtain ⟨rates, sum, detected, detectedAt, onLast, hfields⟩ := detectPlateau_fields tracker
    (now - tracker.startedAt) (tracker.sampleNow now timestampMs).1.newPrefixesPerSec
  have hsampled : (tracker.sampleNow now timestampMs).2 =
      { tracker.detectPlateau (now - tracker.startedAt)
          (tracker.sampleNow now timestampMs).1.newPrefixesPerSec with
        lastSampleAsnCount := tracker.everSeenAsns.card
        lastSamplePrefixCount := tracker.prefixesEverSeen
        lastSampleAt := now } := rfl
  rw [hsampled, hfields]
  refine ⟨h.settings, h.startedAt, ?_, ?_, ?_⟩
  · rw [lastReading_concat]
  · rw [lastReading_concat]
  · rw [lastReading_concat]
    exact Nat.le_refl _

theorem Remembers.grows {tracker' : GrowthStatsTracker} (h : Remembers settings start log tracker)
    (hgrows : Grows tracker tracker') : Remembers settings start log tracker' := by
  have hle := Nat.le_trans h.count_le hgrows.prefixesEverSeen_le
  obtain ⟨_, _, _, _, _, _, _, _, _, rfl⟩ := hgrows.kept
  exact ⟨h.settings, h.startedAt, h.lastSampleAt, h.lastCount, hle⟩

/-- What the latch waits for, in the terms of the code and in those of the
rule. -/
private theorem opens_iff (h : SlidingWindow settings start log tracker) (hactive : settings.Active)
    (reading : Reading) :
    let window := (prefixRates start (log ++ [reading])).rtake settings.windowSamples
    (tracker.plateauDetected = false ∧ window.length = settings.windowSamples ∧
        settings.minRuntimeSec ≤ uptime start (log ++ [reading]) ∧
        window.sum / settings.windowSamples < settings.prefixRateThreshold) ↔
      Plateau settings start (log ++ [reading]) ∧ ∀ m, ¬ FirstAt (Plateau settings start) log m := by
  intro window
  have hlen : window.length = settings.windowSamples ↔
      settings.windowSamples ≤ (log ++ [reading]).length := by
    rw [length_rtake, length_prefixRates]
    omega
  have hopen : tracker.plateauDetected = false ↔ ∀ m, ¬ FirstAt (Plateau settings start) log m := by
    rw [← Bool.not_eq_true, h.detected, not_exists]
  rw [hlen, hopen]
  constructor
  · rintro ⟨hopen, hfull, hlong, hmean⟩
    exact ⟨⟨hactive, hfull, hlong, hmean⟩, hopen⟩
  · rintro ⟨hplateau, hopen⟩
    exact ⟨hopen, hplateau.full, hplateau.longEnough, hplateau.mean_lt⟩

/-- One more reading: the window slides by one rate, and the latch opens if the
rule says so for the first time. The cases are whether detection is on, and
whether it opens here. -/
theorem SlidingWindow.detectPlateau (h : SlidingWindow settings start log tracker)
    (hsettings : tracker.plateauSettings = settings) (reading : Reading) :
    SlidingWindow settings start (log ++ [reading])
      (tracker.detectPlateau (uptime start (log ++ [reading]))
        (rateBetween (lastReading start log) reading)) := by
  by_cases hactive : settings.Active
  · have hwindow : (tracker.recentPrefixRates ++ [rateBetween (lastReading start log) reading]).rtake
        settings.windowSamples = (prefixRates start (log ++ [reading])).rtake settings.windowSamples := by
      rw [h.rates hactive, rtake_rtake_concat, prefixRates_concat]
    have hstep := detectPlateau_active (hsettings ▸ hactive)
      (by rw [h.rates hactive, h.sum hactive]) (uptime start (log ++ [reading]))
      (rateBetween (lastReading start log) reading)
    rw [hsettings, hwindow] at hstep
    have hopens := opens_iff h hactive reading
    dsimp only at hstep hopens
    by_cases hcond : Plateau settings start (log ++ [reading]) ∧
        ∀ m, ¬ FirstAt (Plateau settings start) log m
    · -- this sample is the first one on a plateau
      have hfirst := (firstAt_concat_length reading).mpr hcond
      rw [hstep, if_pos (hopens.mpr hcond)]
      refine ⟨fun _ => rfl, fun _ => rfl, ⟨fun _ => ⟨_, hfirst⟩, fun _ => rfl⟩, fun n hn => ?_,
        ⟨fun _ => hfirst, fun _ => rfl⟩, fun hoff => absurd hactive hoff⟩
      rw [hn.unique hfirst, List.take_length]
    · have hnow : ¬ FirstAt (Plateau settings start) (log ++ [reading]) (log ++ [reading]).length :=
        fun hfirst => hcond ((firstAt_concat_length reading).mp hfirst)
      rw [hstep, if_neg fun htest => hcond (hopens.mp htest)]
      refine ⟨fun _ => rfl, fun _ => rfl, ?_, fun n hn => ?_,
        ⟨fun hfalse => absurd hfalse Bool.false_ne_true, fun hfirst => absurd hfirst hnow⟩,
        fun hoff => absurd hactive hoff⟩
      · rw [exists_firstAt_concat]
        refine h.detected.trans ⟨Or.inl, fun hor => hor.elim id fun hplateau => ?_⟩
        by_contra hnone
        exact hcond ⟨hplateau, fun m hm => hnone ⟨m, hm⟩⟩
      · have hle : n ≤ log.length := by
          have hlen := hn.le
          by_contra hgt
          rw [List.length_append, List.length_singleton] at hlen
          have heq : n = (log ++ [reading]).length := by
            rw [List.length_append, List.length_singleton]
            omega
          exact hnow (heq ▸ hn)
        rw [List.take_append_of_le_length hle]
        exact h.detectedAt n ((firstAt_concat_of_le hle reading).mp hn)
  · have hnever : ∀ n, ¬ FirstAt (Plateau settings start) (log ++ [reading]) n :=
      fun n hn => hactive hn.holds.active
    have hoff := (h.inactive hactive).1
    rw [detectPlateau_inactive (hsettings ▸ hactive)]
    exact
      { rates := fun hon => absurd hon hactive
        sum := fun hon => absurd hon hactive
        detected := ⟨fun hdetected => absurd (hoff.symm.trans hdetected) Bool.false_ne_true,
          fun ⟨n, hn⟩ => absurd hn (hnever n)⟩
        detectedAt := fun n hn => absurd hn (hnever n)
        onLast := ⟨fun hfalse => absurd hfalse Bool.false_ne_true, fun hn => absurd hn (hnever _)⟩
        inactive := fun _ => ⟨hoff, rfl⟩ }

/-- `sample_now` moves the window by the rate it reports. -/
theorem SlidingWindow.sample (h : SlidingWindow settings start log tracker)
    (hrem : Remembers settings start log tracker) (now : Rat) (timestampMs : UInt64) :
    SlidingWindow settings start (log ++ [⟨now, tracker.prefixesEverSeen⟩])
      (tracker.sampleNow now timestampMs).2 := by
  have hstep := h.detectPlateau hrem.settings ⟨now, tracker.prefixesEverSeen⟩
  have huptime : uptime start (log ++ [⟨now, tracker.prefixesEverSeen⟩]) = now - tracker.startedAt := by
    unfold uptime
    rw [lastReading_concat, hrem.startedAt]
  rw [huptime, ← hrem.newPrefixesPerSec now timestampMs] at hstep
  -- the rest of `sample_now` touches none of the fields looked at
  exact ⟨hstep.rates, hstep.sum, hstep.detected, hstep.detectedAt, hstep.onLast, hstep.inactive⟩

theorem SlidingWindow.grows {tracker' : GrowthStatsTracker}
    (h : SlidingWindow settings start log tracker) (hgrows : Grows tracker tracker') :
    SlidingWindow settings start log tracker' := by
  obtain ⟨_, _, _, _, _, _, _, _, _, rfl⟩ := hgrows.kept
  exact ⟨h.rates, h.sum, h.detected, h.detectedAt, h.onLast, h.inactive⟩

end Sample

/-! ## Whole runs -/

/-- What every run remembers of its last sample, by induction on the run. -/
theorem Sampling.remembers {settings : PlateauSettings} {start : Reading} {log : List Reading}
    {tracker : GrowthStatsTracker} (h : Sampling settings start log tracker) :
    Remembers settings start log tracker := by
  induction h with
  | start startedAt => exact ⟨rfl, rfl, rfl, rfl, Nat.zero_le _⟩
  | seeded startedAt ord state =>
    obtain ⟨asns, v4, v6, activeV4, activeV6, hseeded⟩ :=
      seedFromState_fields ord state (.start settings startedAt)
    rw [hseeded]
    exact ⟨rfl, rfl, rfl, rfl, Nat.le_refl _⟩
  | grows _ hgrows ih => exact ih.grows hgrows
  | sample now timestampMs _ _ ih => exact ih.sample now timestampMs

/-- **The sliding-window rule**, after any run. -/
theorem Sampling.slidingWindow {settings : PlateauSettings} {start : Reading} {log : List Reading}
    {tracker : GrowthStatsTracker} (h : Sampling settings start log tracker) :
    SlidingWindow settings start log tracker := by
  induction h with
  | start startedAt => exact slidingWindow_nil rfl rfl rfl rfl
  | seeded startedAt ord state =>
    obtain ⟨asns, v4, v6, activeV4, activeV6, hseeded⟩ :=
      seedFromState_fields ord state (.start settings startedAt)
    rw [hseeded]
    exact slidingWindow_nil rfl rfl rfl rfl
  | grows _ hgrows ih => exact ih.grows hgrows
  | sample now timestampMs hrun _ ih => exact ih.sample hrun.remembers now timestampMs

end ASNPrefixMap.Stats
