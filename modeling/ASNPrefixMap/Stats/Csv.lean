import ASNPrefixMap.Lib.FixedPoint
import ASNPrefixMap.Stats.Growth

/-!
# The statistics file

`StatsCsvWriter` in `src/stats/growth_stats.cpp`: a header, then a line for each
sample, whole numbers as they are and the three `double`s with 3 or 6 digits
behind the point. A reader who cuts the lines at the commas gets every sample
back (`getLines_statsText`), whole numbers exactly and the others as `toFixed`
has rounded them (`GrowthSample.printed`).

Mirroring notes:

- `std::setprecision` and `std::fixed` stick to the stream, and so does nothing
  else: integers are not affected by them, so each field is printed by itself.

- The stream is the bytes written so far. `flush` after each sample is what
  makes them the content of the file at any moment, which `Program` relies on
  when a run is cut off.

- A line ends in one byte. The file is opened in text mode, which translates
  nothing outside Windows.
-/

namespace ASNPrefixMap.Stats

open Lib

/-- The separator of the columns. -/
def comma : UInt8 := 44

/-- The header line, without its end. -/
def statsHeader : Bytes :=
  bytes "timestamp_ms,uptime_sec,total_unique_asns_ever_seen,total_unique_prefixes_ever_seen," ++
    bytes "total_active_prefixes_v4,total_active_prefixes_v6,total_active_prefixes," ++
    bytes "new_asns_in_interval,new_prefixes_in_interval,new_asns_per_sec,new_prefixes_per_sec," ++
    bytes "raw_messages_received,parsed_events_total,announces_applied,withdraws_applied"

/-- What is in the file; every sample is flushed. So what a run has sampled is
in the file whenever it ends. -/
structure StatsCsvWriter where
  output : Bytes

/-- The constructor, on a file that opens or does not. -/
def StatsCsvWriter.create (path : Bytes) (opens : Bool) : Except Exception StatsCsvWriter :=
  if opens = false then
    .error (.runtimeError (bytes "Failed to open stats output file: " ++ path))
  else
    .ok ⟨statsHeader ++ [newline]⟩

/-- A line of the file, without its end. -/
def sampleLine (sample : GrowthSample) : Bytes :=
  toDec sample.timestampMs.toNat ++ [comma] ++
    toFixed 3 sample.uptimeSec ++ [comma] ++
    toDec sample.totalUniqueAsnsEverSeen ++ [comma] ++
    toDec sample.totalUniquePrefixesEverSeen ++ [comma] ++
    toDec sample.totalActivePrefixesV4 ++ [comma] ++
    toDec sample.totalActivePrefixesV6 ++ [comma] ++
    toDec sample.totalActivePrefixes ++ [comma] ++
    toDec sample.newAsnsInInterval ++ [comma] ++
    toDec sample.newPrefixesInInterval ++ [comma] ++
    toFixed 6 sample.newAsnsPerSec ++ [comma] ++
    toFixed 6 sample.newPrefixesPerSec ++ [comma] ++
    toDec sample.rawMessagesReceived ++ [comma] ++
    toDec sample.parsedEventsTotal ++ [comma] ++
    toDec sample.announcesApplied ++ [comma] ++
    toDec sample.withdrawsApplied

/-- `write_sample`, the flush included. -/
def StatsCsvWriter.writeSample (sample : GrowthSample) (writer : StatsCsvWriter) : StatsCsvWriter :=
  ⟨writer.output ++ (sampleLine sample ++ [newline])⟩

/-- The file after some samples. -/
def statsText (samples : List GrowthSample) : Bytes :=
  unlines (statsHeader :: samples.map sampleLine)

/-- A file that opens holds the header and no sample yet. -/
theorem create_eq_ok (path : Bytes) : StatsCsvWriter.create path true = .ok ⟨statsText []⟩ := by
  unfold statsText
  rw [List.map_nil, unlines_singleton]
  rfl

/-- Writing a sample makes the text one of the samples so far and this one. By
this step the file of a run is a function of its samples. -/
theorem writeSample_statsText (samples : List GrowthSample) (sample : GrowthSample) :
    StatsCsvWriter.writeSample sample ⟨statsText samples⟩ = ⟨statsText (samples ++ [sample])⟩ := by
  unfold statsText StatsCsvWriter.writeSample
  dsimp only
  rw [List.map_append, List.map_singleton, ← List.cons_append, unlines_append, unlines_singleton]

/-! ## Reading the file -/

/-- The names in the header, in the order of the columns. -/
def columns : List Bytes :=
  [bytes "timestamp_ms", bytes "uptime_sec", bytes "total_unique_asns_ever_seen",
    bytes "total_unique_prefixes_ever_seen", bytes "total_active_prefixes_v4",
    bytes "total_active_prefixes_v6", bytes "total_active_prefixes", bytes "new_asns_in_interval",
    bytes "new_prefixes_in_interval", bytes "new_asns_per_sec", bytes "new_prefixes_per_sec",
    bytes "raw_messages_received", bytes "parsed_events_total", bytes "announces_applied",
    bytes "withdraws_applied"]

/-- The fields of a sample, one for each column. -/
def sampleFields (sample : GrowthSample) : List Bytes :=
  [toDec sample.timestampMs.toNat, toFixed 3 sample.uptimeSec, toDec sample.totalUniqueAsnsEverSeen,
    toDec sample.totalUniquePrefixesEverSeen, toDec sample.totalActivePrefixesV4,
    toDec sample.totalActivePrefixesV6, toDec sample.totalActivePrefixes,
    toDec sample.newAsnsInInterval, toDec sample.newPrefixesInInterval,
    toFixed 6 sample.newAsnsPerSec, toFixed 6 sample.newPrefixesPerSec,
    toDec sample.rawMessagesReceived, toDec sample.parsedEventsTotal, toDec sample.announcesApplied,
    toDec sample.withdrawsApplied]

/-- What a reader makes of the fields of a row. -/
def readSample : List Bytes → Option GrowthSample
  | [timestampMs, uptimeSec, asns, prefixes, activeV4, activeV6, active, newAsns, newPrefixes,
      asnsPerSec, prefixesPerSec, raw, parsed, announces, withdraws] =>
    some
      { timestampMs := UInt64.ofNat (digitsValue timestampMs)
        uptimeSec := fixedValue uptimeSec
        totalUniqueAsnsEverSeen := digitsValue asns
        totalUniquePrefixesEverSeen := digitsValue prefixes
        totalActivePrefixesV4 := digitsValue activeV4
        totalActivePrefixesV6 := digitsValue activeV6
        totalActivePrefixes := digitsValue active
        newAsnsInInterval := digitsValue newAsns
        newPrefixesInInterval := digitsValue newPrefixes
        newAsnsPerSec := fixedValue asnsPerSec
        newPrefixesPerSec := fixedValue prefixesPerSec
        rawMessagesReceived := digitsValue raw
        parsedEventsTotal := digitsValue parsed
        announcesApplied := digitsValue announces
        withdrawsApplied := digitsValue withdraws }
  | _ => none

/-- A sample with its `double`s as the file has them. -/
def GrowthSample.printed (sample : GrowthSample) : GrowthSample :=
  { sample with
    uptimeSec := fixedValue (toFixed 3 sample.uptimeSec)
    newAsnsPerSec := fixedValue (toFixed 6 sample.newAsnsPerSec)
    newPrefixesPerSec := fixedValue (toFixed 6 sample.newPrefixesPerSec) }

/-- The fields of the header and of the other lines. -/
def rowFields : Option GrowthSample → List Bytes
  | none => columns
  | some sample => sampleFields sample

/-- The header is the names of the columns with commas between them. The source
has it as string literals, cut in other places. -/
theorem statsHeader_eq_intercalate : statsHeader = [comma].intercalate columns := by decide +kernel

/-- A line is the fields of its sample with commas between them. -/
theorem sampleLine_eq_intercalate (sample : GrowthSample) :
    sampleLine sample = [comma].intercalate (sampleFields sample) := by
  unfold sampleLine sampleFields
  simp only [intercalate_cons_eq_flatMap, List.flatMap_cons, List.flatMap_nil, List.append_assoc,
    List.cons_append, List.nil_append, List.append_nil]

/-- The fields of a sample are read back as the sample, up to the rounding of
its `double`s. -/
theorem readSample_sampleFields (sample : GrowthSample) :
    readSample (sampleFields sample) = some sample.printed := by
  unfold readSample sampleFields GrowthSample.printed
  simp only [digitsValue_toDec, UInt64.ofNat_toNat]

/-- No field holds a comma or a newline, so nothing needs quoting. -/
theorem fit_of_mem_rowFields (row : Option GrowthSample) :
    ∀ f ∈ rowFields row, comma ∉ f ∧ newline ∉ f := by
  have hnumber : ∀ n, comma ∉ toDec n ∧ newline ∉ toDec n := fun n =>
    ⟨notMem_toDec (by decide) n, notMem_toDec (by decide) n⟩
  have hfixed : ∀ digits x, comma ∉ toFixed digits x ∧ newline ∉ toFixed digits x := by
    intro digits x
    constructor
    · intro h
      rcases mem_toFixed h with h | h | h
      · cases h
      · cases h
      · cases h
    · intro h
      rcases mem_toFixed h with h | h | h
      · cases h
      · cases h
      · cases h
  cases row with
  | none =>
    have hcolumns : columns.all (fun f => !f.contains comma && !f.contains newline) = true := by
      decide +kernel
    intro f hf
    have hf' := List.all_eq_true.mp hcolumns f hf
    simpa using hf'
  | some sample =>
    intro f hf
    simp only [rowFields, sampleFields, List.mem_cons, List.not_mem_nil, or_false] at hf
    rcases hf with rfl | rfl | rfl | rfl | rfl | rfl | rfl | rfl | rfl | rfl | rfl | rfl | rfl | rfl | rfl
    all_goals first | exact hnumber _ | exact hfixed _ _

/-- **The file read back**: the names of the columns, and a row for each
sample. -/
theorem getLines_statsText (samples : List GrowthSample) :
    (getLines (statsText samples)).map (List.splitOn comma) =
      columns :: samples.map sampleFields := by
  have htext : statsText samples =
      unlines ((none :: samples.map some).map fun row => [comma].intercalate (rowFields row)) := by
    unfold statsText
    rw [List.map_cons, List.map_map, statsHeader_eq_intercalate,
      show sampleLine = fun sample => [comma].intercalate (sampleFields sample) from
        funext sampleLine_eq_intercalate]
    rfl
  have hne : ∀ row, rowFields row ≠ [] := by
    intro row h
    cases row with
    | none => cases h
    | some sample => cases h
  rw [htext, getLines_map_splitOn (by decide) hne fun row _ => fit_of_mem_rowFields row,
    List.map_cons, List.map_map]
  rfl

end ASNPrefixMap.Stats
