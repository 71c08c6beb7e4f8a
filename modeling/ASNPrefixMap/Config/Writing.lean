import ASNPrefixMap.Config.Reading

/-!
# Which configurations there are

What a load can return: texts that stand on one line with nothing to trim, any
numbers and flags, and of the `double` fields what `std::stod` makes of such
texts (`loadConfig_range`). Each of these configurations can be written down,
one line for each key (`writeConfig`), and is read back as it was; what a load
returns is among them.

`writeConfig` is not code of the repository, which never writes a configuration.
It is the witness that the range is no smaller: a text for every configuration
in it.
-/

namespace ASNPrefixMap.Config

open Lib

/-! ## Texts of one line -/

/-- A text that a line can assign: `trim` takes nothing from it, and it has no
newline. -/
structure OneLine (text : Bytes) : Prop where
  trimmed : trim text = text
  line : newline ∉ text

instance (text : Bytes) : Decidable (OneLine text) :=
  decidable_of_iff (trim text = text ∧ newline ∉ text)
    ⟨fun h => ⟨h.1, h.2⟩, fun h => ⟨h.trimmed, h.line⟩⟩

/-- A newline is a space, so trimming takes it from the ends of a text. -/
theorem isSpace_newline : isSpace newline = true := rfl

/-- Without a space there is nothing to trim. -/
theorem trim_of_no_space {text : Bytes} (h : ∀ c ∈ text, isSpace c = false) : trim text = text := by
  cases text with
  | nil => rfl
  | cons c text =>
    have hlast : text.rdropWhile isSpace = text := by
      rw [List.rdropWhile_eq_self_iff]
      intro hne
      rw [h _ (List.mem_cons_of_mem _ (List.getLast_mem hne))]
      exact Bool.false_ne_true
    rw [trim, trimWhere_cons (h c List.mem_cons_self), hlast]

theorem OneLine.of_no_space {text : Bytes} (h : ∀ c ∈ text, isSpace c = false) : OneLine text where
  trimmed := trim_of_no_space h
  line hmem := Bool.false_ne_true ((h newline hmem).symm.trans isSpace_newline)

/-- What is trimmed ends in no space. -/
theorem not_isSpace_of_trimmed {text : Bytes} {c : UInt8} (h : trim (text ++ [c]) = text ++ [c]) :
    isSpace c = false := by
  by_contra hc
  rw [Bool.not_eq_false] at hc
  have hdrop : (text ++ [c]).dropWhile isSpace = text ++ [c] := by
    refine (List.dropWhile_suffix isSpace).eq_of_length_le ?_
    have hlen := (List.rdropWhile_prefix isSpace ((text ++ [c]).dropWhile isSpace)).length_le
    rwa [show ((text ++ [c]).dropWhile isSpace).rdropWhile isSpace = text ++ [c] from h] at hlen
  have hshort := (List.rdropWhile_prefix isSpace text).length_le
  rw [trim, trimWhere, hdrop, List.rdropWhile_concat_pos _ _ _ hc] at h
  rw [h, List.length_append, List.length_singleton] at hshort
  omega

theorem trim_trim (text : Bytes) : trim (trim text) = trim text := by
  cases htext : text.dropWhile isSpace with
  | nil =>
    have hnil : trim text = [] := by rw [trim, trimWhere, htext, List.rdropWhile_nil]
    rw [hnil]
    rfl
  | cons c rest =>
    have hc : isSpace c = false := by
      have hhead := List.head?_dropWhile_not isSpace text
      rw [htext] at hhead
      exact hhead
    have htrim : trim text = c :: rest.rdropWhile isSpace := by
      rw [trim, ← trimWhere_cons hc, trimWhere, trimWhere, htext, List.dropWhile_cons_of_neg]
      rw [hc]
      exact Bool.false_ne_true
    rw [htrim, trim, trimWhere_cons hc, List.rdropWhile_idempotent]

/-! ## Lines -/

/-- The value of a line stands on that line, trimmed. -/
theorem oneLine_of_lineAssignment {line name value : Bytes} (hline : newline ∉ line)
    (h : lineAssignment line = some (name, value)) : OneLine value := by
  unfold lineAssignment at h
  dsimp only at h
  split at h
  next => cases h
  next =>
    split at h
    next => cases h
    next =>
      cases h
      refine ⟨trim_trim _, fun hmem => hline ?_⟩
      have hrest := (List.dropWhile_suffix _).subset (List.mem_of_mem_tail (mem_of_mem_trim hmem))
      exact mem_of_mem_trim hrest

theorem oneLine_of_mem_assigned {text value : Bytes} {name : Bytes}
    (h : value ∈ assigned (getLines text) name) : OneLine value := by
  obtain ⟨line, hline, hmem⟩ := List.mem_flatMap.mp h
  unfold assignedBy at hmem
  cases hassign : lineAssignment line with
  | none =>
    rw [hassign] at hmem
    cases hmem
  | some parts =>
    obtain ⟨name', value'⟩ := parts
    rw [hassign] at hmem
    dsimp only at hmem
    split at hmem
    next =>
      cases List.mem_singleton.mp hmem
      exact oneLine_of_lineAssignment (newline_notMem_of_mem_getLines text line hline) hassign
    next => cases hmem

/-- The line that assigns a value to a key. -/
def assignment (key : Key) (value : Bytes) : Bytes := key.name ++ equalsSign :: value

/-- What the name of a key is made of. -/
def plain (c : UInt8) : Bool := !isSpace c && c != hash && c != equalsSign

/-- The names are made of plain characters. They are given, so this is
computed. -/
theorem name_all_plain (key : Key) : key.name.all plain = true := by
  rcases key with key | key | key | key <;> cases key <;> rfl

theorem name_ne_nil (key : Key) : key.name ≠ [] := by
  rcases key with key | key | key | key <;> cases key <;> exact List.cons_ne_nil _ _

/-- A character of a name is no space, ends no key and starts no comment. -/
theorem name_plain (key : Key) {c : UInt8} (hc : c ∈ key.name) :
    isSpace c = false ∧ c ≠ hash ∧ c ≠ equalsSign := by
  have hplain := List.all_eq_true.mp (name_all_plain key) c hc
  rw [plain, Bool.and_eq_true, Bool.and_eq_true, Bool.not_eq_true', bne_iff_ne, bne_iff_ne] at hplain
  exact ⟨hplain.1.1, hplain.1.2, hplain.2⟩

/-- A written line has nothing to trim: its name begins it and a trimmed value
ends it. -/
theorem trim_assignment (key : Key) {value : Bytes} (h : trim value = value) :
    trim (assignment key value) = assignment key value := by
  unfold assignment
  cases hname : key.name with
  | nil => exact absurd hname (name_ne_nil key)
  | cons c rest =>
    have hc : isSpace c = false := (name_plain key (hname ▸ List.mem_cons_self)).1
    rw [List.cons_append, trim, trimWhere_cons hc]
    congr 1
    -- the last byte is the `=` itself, or the last of the value
    induction value using List.reverseRecOn with
    | nil => exact List.rdropWhile_concat_neg _ _ _ (by decide)
    | append_singleton value x =>
      have hx := not_isSpace_of_trimmed h
      rw [← List.cons_append, ← List.append_assoc, List.rdropWhile_concat_neg]
      rw [hx]
      exact Bool.false_ne_true

/-- The line says what it was written for. -/
theorem lineAssignment_assignment (key : Key) {value : Bytes} (h : trim value = value) :
    lineAssignment (assignment key value) = some (key.name, value) := by
  have hnosign : equalsSign ∉ key.name := fun hmem => (name_plain key hmem).2.2 rfl
  have hkey : trim key.name = key.name := trim_of_no_space fun c hmem => (name_plain key hmem).1
  have hstart : ¬ (assignment key value = [] ∨ (assignment key value).head? = some hash) := by
    unfold assignment
    cases hname : key.name with
    | nil => exact absurd hname (name_ne_nil key)
    | cons c rest =>
      intro hstart
      rcases hstart with hnil | hhead
      · cases hnil
      · exact (name_plain key (hname ▸ List.mem_cons_self)).2.1 (Option.some.inj hhead)
  have hsign : ¬ equalsSign ∉ assignment key value := fun hmem =>
    hmem (List.mem_append_right _ List.mem_cons_self)
  unfold lineAssignment
  dsimp only
  rw [trim_assignment key h, if_neg hstart, if_neg hsign, assignment, takeWhile_ne_sep hnosign,
    dropWhile_ne_sep hnosign, List.tail_cons, hkey, h]

theorem newline_notMem_assignment (key : Key) {value : Bytes} (h : newline ∉ value) :
    newline ∉ assignment key value := by
  intro hmem
  rcases List.mem_append.mp hmem with hname | hvalue
  · exact Bool.false_ne_true ((name_plain key hname).1.symm.trans isSpace_newline)
  · rcases List.mem_cons.mp hvalue with hsign | hvalue
    · exact absurd hsign (by decide)
    · exact h hvalue

/-! ## Files -/

/-- A line for each key that is given a value. -/
def writeConfig (value : Key → Option Bytes) : Bytes :=
  unlines (Key.all.filterMap fun key => (value key).map (assignment key))

theorem mem_all (key : Key) : key ∈ Key.all := List.mem_of_find?_eq_some (find_name key)

theorem nodup_all : Key.all.Nodup := by decide

/-- A written line assigns to its own key only. -/
theorem assignedBy_assignment (key own : Key) {value : Bytes} (h : trim value = value) :
    assignedBy key.name (assignment own value) = if own = key then [value] else [] := by
  unfold assignedBy
  rw [lineAssignment_assignment own h]
  dsimp only
  by_cases hkey : own = key
  · rw [if_pos hkey, if_pos (by rw [hkey])]
  · rw [if_neg hkey, if_neg fun hname => hkey (name_injective hname)]

/-- Of lines for different keys, at most one is a key's own. -/
theorem assigned_assignments {value : Key → Option Bytes}
    (h : ∀ key, ∀ text ∈ value key, OneLine text) (key : Key) : ∀ (keys : List Key), keys.Nodup →
    assigned (keys.filterMap fun own => (value own).map (assignment own)) key.name =
      if key ∈ keys then (value key).toList else [] := by
  intro keys
  induction keys with
  | nil => exact fun _ => rfl
  | cons own keys ih =>
    intro hnodup
    obtain ⟨hown, hnodup⟩ := List.nodup_cons.mp hnodup
    have hline : assigned ((value own).map (assignment own)).toList key.name =
        if own = key then (value own).toList else [] := by
      cases hvalue : value own with
      | none => exact (ite_self _).symm
      | some text =>
        show assignedBy key.name (assignment own text) ++ [] = _
        rw [List.append_nil, assignedBy_assignment key own (h own text hvalue).trimmed]
        rfl
    have hsplit : assigned ((own :: keys).filterMap fun own => (value own).map (assignment own))
        key.name = assigned ((value own).map (assignment own)).toList key.name ++
          assigned (keys.filterMap fun own => (value own).map (assignment own)) key.name := by
      rw [List.filterMap_cons]
      cases (value own).map (assignment own) with
      | none => rfl
      | some line => rw [assigned, List.flatMap_cons, Option.toList_some, assigned, assigned,
          List.flatMap_singleton]
    rw [hsplit, hline, ih hnodup]
    by_cases hkey : own = key
    · subst hkey
      rw [if_pos rfl, if_neg hown, if_pos List.mem_cons_self, List.append_nil]
    · rw [if_neg hkey, List.nil_append]
      by_cases hmem : key ∈ keys
      · rw [if_pos hmem, if_pos (List.mem_cons_of_mem _ hmem)]
      · have hcons : key ∉ own :: keys := fun h =>
          hmem ((List.mem_cons.mp h).resolve_left (Ne.symm hkey))
        rw [if_neg hmem, if_neg hcons]

/-- A file that is written so assigns to each key its one value. -/
theorem assigned_writeConfig {value : Key → Option Bytes}
    (h : ∀ key, ∀ text ∈ value key, OneLine text) (key : Key) :
    assigned (getLines (writeConfig value)) key.name = (value key).toList := by
  have hlines : ∀ line ∈ Key.all.filterMap fun key => (value key).map (assignment key),
      newline ∉ line := by
    intro line hmem
    obtain ⟨own, -, hown⟩ := List.mem_filterMap.mp hmem
    obtain ⟨text, htext, rfl⟩ := Option.map_eq_some_iff.mp hown
    exact newline_notMem_assignment own (h own text htext).line
  rw [writeConfig, getLines_unlines _ hlines, assigned_assignments h key _ nodup_all,
    if_pos (mem_all key)]

variable {stod : Stod}

/-- **A written configuration is read back**, where each value that is written
converts to its field and a field that is left out has its default. -/
theorem loadConfig_writeConfig {value : Key → Option Bytes} {cfg : Config}
    (hline : ∀ key, ∀ text ∈ value key, OneLine text)
    (hsome : ∀ key, ∀ text ∈ value key, key.convert stod text = .ok (key.get cfg))
    (hnone : ∀ key, value key = none → key.get cfg = key.get defaults) (path : Bytes) :
    loadConfig stod path (some (writeConfig value)) = .ok cfg := by
  refine loadConfig_eq_ok.mpr ⟨fun key text hmem => ?_, fun key => ?_⟩
  · rw [assigned_writeConfig hline, Option.mem_toList] at hmem
    exact ⟨_, hsome key text hmem⟩
  · rw [assigned_writeConfig hline]
    cases hvalue : value key with
    | none => exact hnone key hvalue
    | some text => exact hsome key text hvalue

/-- The configurations that can be said: every text stands on one line with
nothing to trim, and every `double` is the default or what `std::stod` makes of
some such text. -/
structure Sayable (stod : Stod) (cfg : Config) : Prop where
  texts : ∀ key : TextKey, OneLine ((Key.text key).get cfg)
  reals : ∀ key : RealKey, (Key.real key).get cfg = (Key.real key).get defaults ∨
    ∃ text, OneLine text ∧ stod text = .ok ((Key.real key).get cfg)

theorem oneLine_defaults (key : TextKey) : OneLine ((Key.text key).get defaults) := by
  cases key <;> decide

/-- A field has its default, or a text of one line that says it. -/
theorem Sayable.exists_text {cfg : Config} (h : Sayable stod cfg) (key : Key) :
    ∃ value : Option Bytes, (∀ text ∈ value, OneLine text ∧ key.convert stod text = .ok (key.get cfg)) ∧
      (value = none → key.get cfg = key.get defaults) := by
  have hsome : ∀ text, OneLine text → key.convert stod text = .ok (key.get cfg) →
      ∃ value : Option Bytes, (∀ text ∈ value, OneLine text ∧
        key.convert stod text = .ok (key.get cfg)) ∧
        (value = none → key.get cfg = key.get defaults) := by
    intro text hline hconvert
    refine ⟨some text, fun text' htext' => ?_, fun hnone => by cases hnone⟩
    cases htext'
    exact ⟨hline, hconvert⟩
  cases key with
  | text key => exact hsome _ (h.texts key) rfl
  | number key =>
    refine hsome (toDec (UInt64.toNat ((Key.number key).get cfg))) (OneLine.of_no_space ?_) ?_
    · exact fun c hc => (not_isSpace_of_isDigit (isDigit_of_mem_toDec _ c hc)).1
    · exact (stoull_toDec (UInt64.toNat_lt _)).trans (congrArg _ UInt64.ofNat_toNat)
  | flag key =>
    rcases Bool.eq_false_or_eq_true ((Key.flag key).get cfg) with hflag | hflag
    · exact hsome (bytes "true") (by decide) (by rw [hflag]; rfl)
    · exact hsome (bytes "false") (by decide) (by rw [hflag]; rfl)
  | real key =>
    rcases h.reals key with hdefault | ⟨text, hline, hconvert⟩
    · exact ⟨none, fun text htext => absurd htext (Option.not_mem_none text), fun _ => hdefault⟩
    · exact hsome text hline hconvert

/-- **What a load can return.** Exactly the configurations whose texts stand on
one line with nothing to trim and whose `double` fields have their defaults or
are what `std::stod` makes of such texts; any numbers and any flags. One
direction is about every file, the other writes a file for the configuration. -/
theorem loadConfig_range (stod : Stod) (path : Bytes) (cfg : Config) :
    (∃ text, loadConfig stod path (some text) = .ok cfg) ↔ Sayable stod cfg := by
  constructor
  · rintro ⟨text, hload⟩
    have hsaid := loadConfig_eq_ok.mp hload
    refine ⟨fun key => ?_, fun key => ?_⟩
    · have hfield := hsaid.field (.text key)
      cases hlast : (assigned (getLines text) (Key.text key).name).getLast? with
      | none =>
        rw [hlast] at hfield
        rw [show (Key.text key).get cfg = _ from hfield]
        exact oneLine_defaults key
      | some value =>
        rw [hlast] at hfield
        rw [← show value = (Key.text key).get cfg from Except.ok.inj hfield]
        exact oneLine_of_mem_assigned (List.mem_of_getLast? hlast)
    · have hfield := hsaid.field (.real key)
      cases hlast : (assigned (getLines text) (Key.real key).name).getLast? with
      | none =>
        rw [hlast] at hfield
        exact Or.inl hfield
      | some value =>
        rw [hlast] at hfield
        exact Or.inr ⟨value, oneLine_of_mem_assigned (List.mem_of_getLast? hlast), hfield⟩
  · intro h
    choose value hvalue hnone using h.exists_text
    exact ⟨writeConfig value, loadConfig_writeConfig (fun key text htext => (hvalue key text htext).1)
      (fun key text htext => (hvalue key text htext).2) hnone path⟩

end ASNPrefixMap.Config
