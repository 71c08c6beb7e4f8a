import Mathlib.Data.Rat.Defs
import ASNPrefixMap.Routing.State

/-!
# Growth statistics

`src/stats/growth_stats.cpp`: the sets of everything ever seen, the counters the
ingest loop feeds, and the window of discovery rates the plateau heuristic looks
at. Clock readings are seconds, and `double`s are rationals.

The tracker is only ever fed by the ingest loop, but nothing in the class relies
on that, and neither do the definitions: every method is a function of the
tracker and its arguments.

Mirroring notes:

- `std::unordered_set` is `Finset`. Only membership and size are ever used, so
  no iteration order is needed.

- Counters are `Nat`, as they count calls; the two differences of `std::size_t`
  that could wrap below zero keep their wrap-around (`sizeSub`), and it is
  proved of runs that they do not.

- `std::chrono::steady_clock::now()` and `system_clock` are arguments. Which
  readings are possible is said by the runs, not here.

- `double` arithmetic is rational arithmetic, so rounding and overflow to
  infinity are not modelled; the comparison with the threshold is exact.
-/

namespace ASNPrefixMap.Stats

open Lib Prefix Routing

/-- `PlateauSettings` of `src/stats/growth_stats.h`, with its defaults. -/
structure PlateauSettings where
  enabled : Bool := true
  windowSamples : Nat := 300
  prefixRateThreshold : Rat := 5
  minRuntimeSec : Rat := 600

/-- The members of the class, with the values its constructor leaves them. The
sets of what has been seen only grow; the counts of the last sample are kept for
the differences. -/
structure GrowthStatsTracker where
  plateauSettings : PlateauSettings
  everSeenAsns : Finset UInt32 := ∅
  everSeenPrefixesV4 : Finset PrefixV4 := ∅
  everSeenPrefixesV6 : Finset PrefixV6 := ∅
  rawMessagesReceived : Nat := 0
  parsedEventsTotal : Nat := 0
  announcesApplied : Nat := 0
  withdrawsApplied : Nat := 0
  activePrefixesV4 : Nat := 0
  activePrefixesV6 : Nat := 0
  lastSampleAsnCount : Nat := 0
  lastSamplePrefixCount : Nat := 0
  startedAt : Rat
  lastSampleAt : Rat
  recentPrefixRates : List Rat := []
  recentPrefixRateSum : Rat := 0
  plateauDetected : Bool := false
  plateauUptimeSec : Rat := 0
  plateauDetectedOnLastSample : Bool := false

/-- The constructor, at a clock reading. -/
def GrowthStatsTracker.start (plateauSettings : PlateauSettings) (now : Rat) :
    GrowthStatsTracker where
  plateauSettings := plateauSettings
  startedAt := now
  lastSampleAt := now

/-- Both overloads of the insertion into the ever-seen prefixes. -/
def GrowthStatsTracker.seePrefix (tracker : GrowthStatsTracker) (pfx : BinaryPrefix) :
    GrowthStatsTracker :=
  match pfx with
  | .v4 p => { tracker with everSeenPrefixesV4 := insert p tracker.everSeenPrefixesV4 }
  | .v6 p => { tracker with everSeenPrefixesV6 := insert p tracker.everSeenPrefixesV6 }

/-- The insertion into the ever-seen ASNs. -/
def GrowthStatsTracker.seeAsn (tracker : GrowthStatsTracker) (asn : UInt32) :
    GrowthStatsTracker :=
  { tracker with everSeenAsns := insert asn tracker.everSeenAsns }

/-- `seed_from_state`: what a loaded state holds counts as seen before the first
interval, so the first sample does not report it as new. -/
def GrowthStatsTracker.seedFromState (ord : HashOrders) (state : RoutingState)
    (tracker : GrowthStatsTracker) : GrowthStatsTracker :=
  let tracker := (state.storedObservations ord).foldl
    (fun tracker stored => (tracker.seeAsn stored.observation.originAsn).seePrefix stored.pfx)
    tracker
  { tracker with
    activePrefixesV4 := state.activePrefixesV4Count
    activePrefixesV6 := state.activePrefixesV6Count
    lastSampleAsnCount := tracker.everSeenAsns.card
    lastSamplePrefixCount := tracker.everSeenPrefixesV4.card + tracker.everSeenPrefixesV6.card }

/-- Seeding fills the ever-seen sets and leaves the window alone. -/
theorem seedFromState_fields (ord : HashOrders) (state : RoutingState) :
    ∀ tracker : GrowthStatsTracker, ∃ asns v4 v6 activeV4 activeV6,
      tracker.seedFromState ord state =
        { tracker with
          everSeenAsns := asns
          everSeenPrefixesV4 := v4
          everSeenPrefixesV6 := v6
          activePrefixesV4 := activeV4
          activePrefixesV6 := activeV6
          lastSampleAsnCount := asns.card
          lastSamplePrefixCount := v4.card + v6.card } := by
  have hfold : ∀ (stored : List StoredObservation) (tracker : GrowthStatsTracker),
      ∃ asns v4 v6, stored.foldl (fun tracker stored =>
        (tracker.seeAsn stored.observation.originAsn).seePrefix stored.pfx) tracker =
          { tracker with everSeenAsns := asns, everSeenPrefixesV4 := v4, everSeenPrefixesV6 := v6 } := by
    intro stored
    induction stored with
    | nil => exact fun tracker => ⟨_, _, _, rfl⟩
    | cons o stored ih =>
      intro tracker
      obtain ⟨asns, v4, v6, h⟩ := ih ((tracker.seeAsn o.observation.originAsn).seePrefix o.pfx)
      refine ⟨asns, v4, v6, ?_⟩
      rw [List.foldl_cons, h]
      cases o.pfx <;> rfl
  intro tracker
  obtain ⟨asns, v4, v6, h⟩ := hfold (state.storedObservations ord) tracker
  unfold GrowthStatsTracker.seedFromState
  rw [h]
  exact ⟨asns, v4, v6, _, _, rfl⟩

/-- `on_message_received`, before a message is parsed. -/
def GrowthStatsTracker.onMessageReceived (tracker : GrowthStatsTracker) : GrowthStatsTracker :=
  { tracker with rawMessagesReceived := tracker.rawMessagesReceived + 1 }

/-- `on_parsed_events`, with the count the parser returns. -/
def GrowthStatsTracker.onParsedEvents (tracker : GrowthStatsTracker) (parsedEvents : Nat) :
    GrowthStatsTracker :=
  { tracker with parsedEventsTotal := tracker.parsedEventsTotal + parsedEvents }

/-- Both overloads of `on_announce`. -/
def GrowthStatsTracker.onAnnounce (tracker : GrowthStatsTracker) (asn : UInt32)
    (pfx : BinaryPrefix) : GrowthStatsTracker :=
  let tracker := (tracker.seeAsn asn).seePrefix pfx
  { tracker with announcesApplied := tracker.announcesApplied + 1 }

/-- Both overloads of `on_withdraw`. A withdrawn prefix counts as seen, also one
that was never announced. -/
def GrowthStatsTracker.onWithdraw (tracker : GrowthStatsTracker) (pfx : BinaryPrefix) :
    GrowthStatsTracker :=
  let tracker := tracker.seePrefix pfx
  { tracker with withdrawsApplied := tracker.withdrawsApplied + 1 }

/-- `set_active_prefix_counts`, which the caller gives the counts of the routing
state. -/
def GrowthStatsTracker.setActivePrefixCounts (tracker : GrowthStatsTracker)
    (activeV4 activeV6 : Nat) : GrowthStatsTracker :=
  { tracker with activePrefixesV4 := activeV4, activePrefixesV6 := activeV6 }

/-! ## Samples -/

/-- `GrowthSample` of `src/stats/growth_stats.h`: one row of the statistics. -/
structure GrowthSample where
  timestampMs : UInt64
  uptimeSec : Rat
  totalUniqueAsnsEverSeen : Nat
  totalUniquePrefixesEverSeen : Nat
  totalActivePrefixesV4 : Nat
  totalActivePrefixesV6 : Nat
  totalActivePrefixes : Nat
  newAsnsInInterval : Nat
  newPrefixesInInterval : Nat
  newAsnsPerSec : Rat
  newPrefixesPerSec : Rat
  rawMessagesReceived : Nat
  parsedEventsTotal : Nat
  announcesApplied : Nat
  withdrawsApplied : Nat

/-- Subtraction of two `std::size_t`, which wraps below zero. -/
def sizeSub (a b : Nat) : Nat := if b ≤ a then a - b else a + 2 ^ 64 - b

theorem sizeSub_of_le {a b : Nat} (h : b ≤ a) : sizeSub a b = a - b := if_pos h

/-- A rate over an interval that may be empty. -/
def ratePerSec (count : Nat) (intervalSec : Rat) : Rat :=
  if intervalSec > 0 then count / intervalSec else 0

/-- The loop that drops rates from the front of the window, with their sum. The
sum is updated and not recomputed, as in the source. -/
def dropOldRates (windowSamples : Nat) : List Rat → Rat → List Rat × Rat
  | [], sum => ([], sum)
  | rate :: rates, sum =>
    if (rate :: rates).length > windowSamples then dropOldRates windowSamples rates (sum - rate)
    else (rate :: rates, sum)

/-- The plateau half of `sample_now`. The conditions stand in the order of the
two nested tests of the source; the mean is only looked at behind the others,
but computing it earlier changes nothing. -/
def GrowthStatsTracker.detectPlateau (tracker : GrowthStatsTracker) (uptimeSec newPrefixesPerSec : Rat) :
    GrowthStatsTracker :=
  let tracker := { tracker with plateauDetectedOnLastSample := false }
  let settings := tracker.plateauSettings
  if settings.enabled && settings.windowSamples > 0 then
    let (rates, sum) := dropOldRates settings.windowSamples
      (tracker.recentPrefixRates ++ [newPrefixesPerSec])
      (tracker.recentPrefixRateSum + newPrefixesPerSec)
    let tracker := { tracker with recentPrefixRates := rates, recentPrefixRateSum := sum }
    if !tracker.plateauDetected && rates.length == settings.windowSamples &&
        uptimeSec ≥ settings.minRuntimeSec && sum / rates.length < settings.prefixRateThreshold then
      { tracker with
        plateauDetected := true
        plateauUptimeSec := uptimeSec
        plateauDetectedOnLastSample := true }
    else tracker
  else tracker

/-- `sample_now`, at a steady clock reading and a wall clock reading. -/
def GrowthStatsTracker.sampleNow (now : Rat) (timestampMs : UInt64) (tracker : GrowthStatsTracker) :
    GrowthSample × GrowthStatsTracker :=
  let uptimeSec := now - tracker.startedAt
  let intervalSec := now - tracker.lastSampleAt
  let totalAsns := tracker.everSeenAsns.card
  let totalPrefixes := tracker.everSeenPrefixesV4.card + tracker.everSeenPrefixesV6.card
  let newAsns := sizeSub totalAsns tracker.lastSampleAsnCount
  let newPrefixes := sizeSub totalPrefixes tracker.lastSamplePrefixCount
  let sample : GrowthSample :=
    { timestampMs
      uptimeSec
      totalUniqueAsnsEverSeen := totalAsns
      totalUniquePrefixesEverSeen := totalPrefixes
      totalActivePrefixesV4 := tracker.activePrefixesV4
      totalActivePrefixesV6 := tracker.activePrefixesV6
      totalActivePrefixes := tracker.activePrefixesV4 + tracker.activePrefixesV6
      newAsnsInInterval := newAsns
      newPrefixesInInterval := newPrefixes
      newAsnsPerSec := ratePerSec newAsns intervalSec
      newPrefixesPerSec := ratePerSec newPrefixes intervalSec
      rawMessagesReceived := tracker.rawMessagesReceived
      parsedEventsTotal := tracker.parsedEventsTotal
      announcesApplied := tracker.announcesApplied
      withdrawsApplied := tracker.withdrawsApplied }
  let tracker := tracker.detectPlateau uptimeSec sample.newPrefixesPerSec
  (sample,
    { tracker with
      lastSampleAsnCount := totalAsns
      lastSamplePrefixCount := totalPrefixes
      lastSampleAt := now })

/-- `PlateauStatus`, as `main` asks for it after each sample. -/
structure PlateauStatus where
  detected : Bool := false
  detectedOnThisSample : Bool := false
  plateauUptimeSec : Rat := 0

/-- `plateau_status`. -/
def GrowthStatsTracker.plateauStatus (tracker : GrowthStatsTracker) : PlateauStatus where
  detected := tracker.plateauDetected
  detectedOnThisSample := tracker.plateauDetectedOnLastSample
  plateauUptimeSec := tracker.plateauUptimeSec

/-- What the plateau part of `sample_now` leaves alone, as one equation:
everything but the window and the plateau's own fields. -/
theorem detectPlateau_fields (tracker : GrowthStatsTracker) (uptimeSec rate : Rat) :
    ∃ rates sum detected detectedAt onLast, tracker.detectPlateau uptimeSec rate =
      { tracker with
        recentPrefixRates := rates
        recentPrefixRateSum := sum
        plateauDetected := detected
        plateauUptimeSec := detectedAt
        plateauDetectedOnLastSample := onLast } := by
  unfold GrowthStatsTracker.detectPlateau
  dsimp only
  split
  next =>
    split
    next => exact ⟨_, _, _, _, _, rfl⟩
    next => exact ⟨_, _, _, _, _, rfl⟩
  next => exact ⟨_, _, _, _, _, rfl⟩

end ASNPrefixMap.Stats
