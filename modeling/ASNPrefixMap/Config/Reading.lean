import ASNPrefixMap.Config.Keys

/-!
# What a configuration file says

A load in terms of the lines. Each line either assigns one value to one known
key or is passed over (`line_cases`), so the values assigned to a key, in order,
are all that matters for its field: the load returns when all of them convert,
and then the field is what the last one converts to, or its default
(`loadConfig_eq_ok`). `std::stoull` converts more than numerals, so an integer
field is the number its value denotes exactly when the value is a numeral as a
whole (`readAsWritten_iff`).
-/

namespace ASNPrefixMap.Config

open Lib

/-! ## Values by key -/

/-- The value a line assigns to the key of this name, if it does. -/
def assignedBy (name line : Bytes) : List Bytes :=
  match lineAssignment line with
  | none => []
  | some (key, value) => if key = name then [value] else []

/-- The values assigned to a key, in the order of the lines. -/
def assigned (lines : List Bytes) (name : Bytes) : List Bytes := lines.flatMap (assignedBy name)

/-- A blank line, a comment, a line without `=`, or one whose key is not known.
The third is said of the line and not of what is left of it: trimming takes no
`=` away. -/
def Ignored (line : Bytes) : Prop :=
  trim line = [] ∨ (trim line).head? = some hash ∨ equalsSign ∉ line ∨
    ∃ name value, lineAssignment line = some (name, value) ∧ ∀ key : Key, name ≠ key.name

/-- A file is read as written: whatever a load returns has in every integer
field the number that the whole of the last value denotes, or the default; lines
that assign nothing make no difference, a line changes the field of its key
only, and only the order of the values of each key matters. -/
structure ReadAsWritten (stod : Stod) (path text : Bytes) : Prop where
  numbers : ∀ cfg, loadConfig stod path (some text) = .ok cfg → ∀ key : NumberKey,
    match (assigned (getLines text) (Key.number key).name).getLast? with
    | none => (Key.number key).get cfg = (Key.number key).get defaults
    | some value => IsNumeral value (UInt64.toNat ((Key.number key).get cfg))
  ignored : ∀ before line after, getLines text = before ++ line :: after → Ignored line →
    ∀ text', getLines text' = before ++ after →
      loadConfig stod path (some text') = loadConfig stod path (some text)
  frame : ∀ line ∈ getLines text, ∀ cfg cfg', applyLine stod cfg line = .ok cfg' →
    ∀ key : Key, (∀ value, lineAssignment line ≠ some (key.name, value)) →
      key.get cfg' = key.get cfg
  order : ∀ text', (∀ name, assigned (getLines text') name = assigned (getLines text) name) →
    ∀ cfg, loadConfig stod path (some text') = .ok cfg ↔ loadConfig stod path (some text) = .ok cfg

/-- Every value assigned to a known key is one that its conversion takes. A
value that a later line replaces must convert too. -/
def Convertible (stod : Stod) (lines : List Bytes) : Prop :=
  ∀ key : Key, ∀ value ∈ assigned lines key.name, Returns (key.convert stod value)

/-! ## Lines -/

/-- Every key once, in the order of the constructors. -/
def Key.all : List Key :=
  [.text .source, .text .inputFile, .text .prefixOutput, .text .asnOutput, .text .risLiveHost,
    .text .risLivePort, .text .risLiveTarget, .text .snapshotInput, .text .snapshotOutput,
    .number .maxMessages, .number .statsIntervalMs, .number .reconnectInitialDelayMs,
    .number .reconnectMaxDelayMs, .number .reconnectMaxAttempts, .number .plateauWindowSamples,
    .flag .statsOutputEnabled, .flag .stopOnKeypress, .flag .reconnectEnabled,
    .flag .plateauDetectionEnabled, .real .plateauPrefixRateThreshold, .real .plateauMinRuntimeSec]

/-- A key is found in the list by its name. It is the one place where the names
are compared. -/
theorem find_name (key : Key) : Key.all.find? (fun other => other.name = key.name) = some key := by
  rcases key with key | key | key | key <;> cases key <;> rfl

/-- No two keys have one name. -/
theorem name_injective : Function.Injective Key.name := by
  intro key other h
  have hkey := find_name key
  rw [h, find_name other] at hkey
  exact (Option.some.inj hkey).symm

variable {stod : Stod}

/-- A line is passed over, or assigns one value to one key. -/
theorem line_cases (stod : Stod) (line : Bytes) :
    ((∀ key : Key, assignedBy key.name line = []) ∧ ∀ cfg, applyLine stod cfg line = .ok cfg) ∨
    ∃ (key : Key) (value : Bytes), lineAssignment line = some (key.name, value) ∧
      (∀ other : Key, assignedBy other.name line = if other = key then [value] else []) ∧
      ∀ cfg, applyLine stod cfg line = (do return key.set cfg (← key.convert stod value)) := by
  unfold assignedBy applyLine
  cases hline : lineAssignment line with
  | none => exact Or.inl ⟨fun _ => rfl, fun _ => rfl⟩
  | some parts =>
    obtain ⟨name, value⟩ := parts
    by_cases hknown : ∃ key : Key, name = key.name
    · obtain ⟨key, rfl⟩ := hknown
      refine Or.inr ⟨key, value, rfl, fun other => ?_, fun cfg => assign_name stod cfg key value⟩
      dsimp only
      by_cases hother : other = key
      · rw [if_pos hother, if_pos (by rw [hother])]
      · rw [if_neg hother, if_neg fun h => hother (name_injective h).symm]
    · rw [not_exists] at hknown
      exact Or.inl ⟨fun key => if_neg (hknown key), fun cfg => assign_of_unknown stod cfg hknown value⟩

theorem mem_of_mem_trim {c : UInt8} {s : Bytes} (h : c ∈ trim s) : c ∈ s :=
  (List.dropWhile_sublist _).subset ((List.rdropWhile_prefix _ _).subset h)

/-- A line that is passed over changes nothing and does not throw. -/
theorem applyLine_ignored {line : Bytes} (h : Ignored line) (cfg : Config) :
    applyLine stod cfg line = .ok cfg := by
  unfold applyLine
  rcases h with h | h | h | ⟨name, value, h, hunknown⟩
  · rw [show lineAssignment line = none from if_pos (Or.inl h)]
  · rw [show lineAssignment line = none from if_pos (Or.inr h)]
  · have hnone : lineAssignment line = none := by
      unfold lineAssignment
      dsimp only
      split
      next => rfl
      next => rw [if_pos fun hmem => h (mem_of_mem_trim hmem)]
    rw [hnone]
  · rw [h]
    exact assign_of_unknown stod cfg hunknown value

/-- A line that does not assign to a key leaves its field alone. -/
theorem applyLine_frame {line : Bytes} {cfg cfg' : Config} (h : applyLine stod cfg line = .ok cfg')
    {key : Key} (hkey : ∀ value, lineAssignment line ≠ some (key.name, value)) :
    key.get cfg' = key.get cfg := by
  rcases line_cases stod line with ⟨-, hskip⟩ | ⟨own, value, hline, -, hassign⟩
  · rw [hskip] at h
    cases h
    rfl
  · rw [hassign] at h
    obtain ⟨v, -, h⟩ := bind_eq_ok.mp h
    cases h
    refine Key.get_set_ne cfg (fun heq => ?_) v
    exact hkey value (heq ▸ hline)

/-! ## Files -/

/-- The configuration is what the lines say: every assigned value converts, and
a field is the last value of its key, or the default. -/
structure Says (stod : Stod) (lines : List Bytes) (cfg : Config) : Prop where
  convertible : Convertible stod lines
  field : ∀ key : Key, match (assigned lines key.name).getLast? with
    | none => key.get cfg = key.get defaults
    | some value => key.convert stod value = .ok (key.get cfg)

/-- One more line adds its value to those of its key. -/
theorem assigned_concat (lines : List Bytes) (line name : Bytes) :
    assigned (lines ++ [line]) name = assigned lines name ++ assignedBy name line := by
  rw [assigned, List.flatMap_append, List.flatMap_singleton, assigned]

theorem Says.unique {lines : List Bytes} {cfg cfg' : Config} (h : Says stod lines cfg)
    (h' : Says stod lines cfg') : cfg = cfg' := by
  refine ext_get fun key => ?_
  have hfield := h.field key
  have hfield' := h'.field key
  cases hlast : (assigned lines key.name).getLast? with
  | none =>
    rw [hlast] at hfield hfield'
    exact hfield.trans hfield'.symm
  | some value =>
    rw [hlast] at hfield hfield'
    exact Except.ok.inj (hfield.symm.trans hfield')

theorem foldlM_concat (lines : List Bytes) (line : Bytes) :
    (lines ++ [line]).foldlM (applyLine stod) defaults =
      lines.foldlM (applyLine stod) defaults >>= fun cfg => applyLine stod cfg line := by
  rw [List.foldlM_append]
  congr 1
  funext cfg
  rw [List.foldlM_cons]
  cases applyLine stod cfg line <;> rfl

/-- What the lines say changes with one more line as its key's field does. -/
theorem Says.concat {lines : List Bytes} {cfg : Config} (h : Says stod lines cfg) {line : Bytes}
    {cfg' : Config} (hline : applyLine stod cfg line = .ok cfg') : Says stod (lines ++ [line]) cfg' := by
  rcases line_cases stod line with ⟨hnone, hskip⟩ | ⟨own, value, -, hown, hassign⟩
  · rw [hskip] at hline
    cases hline
    have hsame : ∀ key : Key, assigned (lines ++ [line]) key.name = assigned lines key.name := by
      intro key
      rw [assigned_concat, hnone, List.append_nil]
    refine ⟨fun key value hvalue => ?_, fun key => ?_⟩
    · rw [hsame] at hvalue
      exact h.convertible key value hvalue
    · rw [hsame]
      exact h.field key
  · rw [hassign] at hline
    obtain ⟨v, hv, hline⟩ := bind_eq_ok.mp hline
    cases hline
    refine ⟨fun key value' hvalue => ?_, fun key => ?_⟩
    · rw [assigned_concat, hown, List.mem_append] at hvalue
      rcases hvalue with hvalue | hvalue
      · exact h.convertible key value' hvalue
      · split at hvalue
        next hkey =>
          subst hkey
          rw [List.mem_singleton.mp hvalue]
          exact ⟨v, hv⟩
        next => cases hvalue
    · rw [assigned_concat, hown]
      by_cases hkey : key = own
      · subst hkey
        rw [if_pos rfl, List.getLast?_concat, Key.get_set_self]
        exact hv
      · rw [if_neg hkey, List.append_nil, Key.get_set_ne cfg hkey]
        exact h.field key

/-- With convertible values the loop over the lines returns what they say. -/
theorem exists_said : ∀ (lines : List Bytes), Convertible stod lines →
    ∃ cfg, lines.foldlM (applyLine stod) defaults = .ok cfg ∧ Says stod lines cfg := by
  intro lines
  induction lines using List.reverseRecOn with
  | nil => exact fun h => ⟨defaults, rfl, h, fun _ => rfl⟩
  | append_singleton lines line ih =>
    intro h
    have hbefore : Convertible stod lines := fun key value hvalue =>
      h key value (by rw [assigned_concat]; exact List.mem_append_left _ hvalue)
    obtain ⟨cfg, hrun, hsaid⟩ := ih hbefore
    have hline : ∃ cfg', applyLine stod cfg line = .ok cfg' := by
      rcases line_cases stod line with ⟨-, hskip⟩ | ⟨own, value, -, hown, hassign⟩
      · exact ⟨cfg, hskip cfg⟩
      · have hmem : value ∈ assigned (lines ++ [line]) own.name := by
          rw [assigned_concat, hown, if_pos rfl]
          exact List.mem_append_right _ (List.mem_singleton.mpr rfl)
        obtain ⟨v, hv⟩ := h own value hmem
        exact ⟨own.set cfg v, by rw [hassign, hv]; rfl⟩
    obtain ⟨cfg', hcfg'⟩ := hline
    refine ⟨cfg', ?_, hsaid.concat hcfg'⟩
    rw [foldlM_concat, hrun]
    exact hcfg'

/-- A loop that returned has converted every value. -/
theorem convertible_of_run : ∀ (lines : List Bytes) {cfg : Config},
    lines.foldlM (applyLine stod) defaults = .ok cfg → Convertible stod lines := by
  intro lines
  induction lines using List.reverseRecOn with
  | nil => exact fun _ key value hvalue => absurd hvalue List.not_mem_nil
  | append_singleton lines line ih =>
    intro cfg h
    rw [foldlM_concat] at h
    obtain ⟨before, hbefore, hline⟩ := bind_eq_ok.mp h
    obtain ⟨cfg', hcfg', hsaid⟩ := exists_said lines (ih hbefore)
    rw [hbefore] at hcfg'
    cases hcfg'
    exact (hsaid.concat hline).convertible

/-- **A load returns what the lines say**, if that is anything. -/
theorem loadConfig_eq_ok {path text : Bytes} {cfg : Config} :
    loadConfig stod path (some text) = .ok cfg ↔ Says stod (getLines text) cfg := by
  show (getLines text).foldlM (applyLine stod) defaults = .ok cfg ↔ _
  constructor
  · intro h
    obtain ⟨cfg', hrun, hsaid⟩ := exists_said _ (convertible_of_run _ h)
    rw [h] at hrun
    cases hrun
    exact hsaid
  · intro h
    obtain ⟨cfg', hrun, hsaid⟩ := exists_said _ h.convertible
    rw [h.unique hsaid, hrun]

/-! ## Read as written -/

/-- What is said depends on the values of each key alone. -/
theorem Says.congr {lines lines' : List Bytes} {cfg : Config} (h : Says stod lines cfg)
    (hsame : ∀ name, assigned lines' name = assigned lines name) : Says stod lines' cfg where
  convertible key value hvalue := h.convertible key value (hsame _ ▸ hvalue)
  field key := by
    rw [hsame]
    exact h.field key

/-- A line that is passed over may as well be left out, wherever it stands. -/
theorem foldlM_ignored {before after : List Bytes} {line : Bytes} (h : Ignored line) :
    (before ++ line :: after).foldlM (applyLine stod) defaults =
      (before ++ after).foldlM (applyLine stod) defaults := by
  rw [List.foldlM_append, List.foldlM_append]
  congr 1
  funext cfg
  rw [List.foldlM_cons, applyLine_ignored h, ok_bind]

/-- **A file is read as written exactly when its numbers are numerals.** Unless
the load throws for a value that does not convert, every integer key's last
value must have nothing before and nothing behind its digits; all else is so for
every file. -/
theorem readAsWritten_iff (path text : Bytes) :
    ReadAsWritten stod path text ↔ (Convertible stod (getLines text) →
      ∀ (key : NumberKey) (value : Bytes),
        (assigned (getLines text) (Key.number key).name).getLast? = some value →
          ¬ Led value ∧ ¬ Trailed value) := by
  constructor
  · intro h hconv key value hlast
    obtain ⟨cfg, hrun, -⟩ := exists_said _ hconv
    have hnumber := h.numbers cfg hrun key
    rw [hlast] at hnumber
    exact ⟨hnumber.not_led, hnumber.not_trailed⟩
  · intro h
    refine ⟨fun cfg hload key => ?_, fun before line after htext hignored text' htext' => ?_,
      fun line _ cfg cfg' hline key hkey => applyLine_frame hline hkey, fun text' hsame cfg => ?_⟩
    · have hsaid := loadConfig_eq_ok.mp hload
      have hfield := hsaid.field (.number key)
      cases hlast : (assigned (getLines text) (Key.number key).name).getLast? with
      | none =>
        rw [hlast] at hfield
        exact hfield
      | some value =>
        rw [hlast] at hfield
        obtain ⟨hled, htrailed⟩ := h hsaid.convertible key value hlast
        have hconverts : Converts value (UInt64.toNat ((Key.number key).get cfg)) :=
          strtoull_ok_iff.mp hfield
        exact (hconverts.led_or_trailed_or_numeral.resolve_left hled).resolve_left htrailed
    · show (getLines text').foldlM (applyLine stod) defaults =
        (getLines text).foldlM (applyLine stod) defaults
      rw [htext, htext', foldlM_ignored hignored]
    · rw [loadConfig_eq_ok, loadConfig_eq_ok]
      exact ⟨fun hsaid => hsaid.congr fun name => (hsame name).symm, fun hsaid => hsaid.congr hsame⟩

/-- A limit with a unit: `10k` is read as 10, since `std::stoull` ignores what
is behind the digits. `load_config` passes no position to it, so it cannot tell;
the run would stop after ten messages. -/
theorem not_readAsWritten_unit :
    ¬ ReadAsWritten (fun _ => .ok 1.0) (bytes "config.ini") (bytes "max_messages = 10k\n") := by
  intro h
  have hmax := h.numbers { defaults with maxMessages := 10 } rfl .maxMessages
  have hlast : (assigned (getLines (bytes "max_messages = 10k\n"))
      (Key.number .maxMessages).name).getLast? = some (bytes "10k") := by decide
  rw [hlast] at hmax
  exact absurd (hmax.digits 107 (by decide)) (by decide)

end ASNPrefixMap.Config
