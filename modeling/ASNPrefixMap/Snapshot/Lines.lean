import ASNPrefixMap.Routing.Histories
import ASNPrefixMap.Snapshot.Restoring

/-!
# What a load makes of the lines

A load in terms of the text alone. `splitHeader` takes the header off,
`lineKind` says what a line after it is, `linesIn` picks the data lines of a
section, and `peerRecord` and `observationRecord` read one data line. The line
loop accepts a text iff every line is in order by itself and no id is given
twice (`ReadableFrom`, `foldlM_readLine`); the whole load accepts it iff the
records also fit together (`Loadable`, `loadSnapshot_spec`), and then the
registry holds the peer records and the state is made of the observation
records.

Nothing here runs the code to say which files are accepted: `ReadableFrom` and
`Loadable` are decidable properties of the lines. The results about files in
this directory (`loaded_snapshot_means_what_it_says_iff`, `linesKept_iff`,
`failedLoad_keeps_iff`) state their conditions with them.
-/

namespace ASNPrefixMap.Snapshot

open Lib Prefix Peer Routing

/-! ## Lines -/

/-- What a line is, once the header has been read. -/
inductive LineKind
  | blank
  | opens (currentSection : Section)
  | unknownSection
  | data
  deriving DecidableEq

/-- The tests of the loop, in their order. A bracketed line is a section name
wherever it stands, and never data. -/
def lineKind (line : Bytes) : LineKind :=
  let trimmed := trim line
  if trimmed = [] then .blank
  else if trimmed = bytes "[peers]" then .opens .peers
  else if trimmed = bytes "[observations]" then .opens .observations
  else if trimmed.head? = some 91 ∧ trimmed.getLast? = some 93 then .unknownSection
  else .data

/-- The first line that is not blank, and the lines after it. -/
def splitHeader : List Bytes → Option (Bytes × List Bytes)
  | [] => none
  | line :: lines => if trim line = [] then splitHeader lines else some (line, lines)

/-- The lines after the header. -/
def bodyLines (text : Bytes) : List Bytes :=
  match splitHeader (getLines text) with
  | none => []
  | some (_, lines) => lines

/-- The data lines that stand in section `target`, when `current` is the section
before the first line. -/
def linesIn (target : Section) : Section → List Bytes → List Bytes
  | _, [] => []
  | current, line :: lines =>
    match lineKind line with
    | .opens opened => linesIn target opened lines
    | .data =>
      if current = target then line :: linesIn target current lines
      else linesIn target current lines
    | .blank => linesIn target current lines
    | .unknownSection => linesIn target current lines

/-! ## Records -/

/-- The peer that four fields stand for, with the numbers as the code reads
them: converted, then cut to 32 bits. -/
def peerOfFields : List Bytes → Option (PeerId × PeerInfo)
  | [idText, host, peerIp, asnText] =>
    match stoul idText, stoul asnText with
    | .ok peerId, .ok peerAsn => some (peerId.toUInt32, ⟨host, peerIp, peerAsn.toUInt32⟩)
    | _, _ => none
  | _ => none

/-- The observation that five fields stand for. -/
def observationOfFields : List Bytes → Option SnapshotObservation
  | [familyText, prefixText, idText, asnText, timestampText] =>
    match parseFamily familyText, stoul idText, stoul asnText, stoull timestampText with
    | .ok family, .ok peerId, .ok originAsn, .ok timestamp =>
      some ⟨family, prefixText, peerId.toUInt32, originAsn.toUInt32, timestamp⟩
    | _, _, _, _ => none
  | _ => none

/-- The record of a peer line, if it has one. -/
def peerRecord (line : Bytes) : Option (PeerId × PeerInfo) := peerOfFields (splitTabFields line)

/-- The record of an observation line, if it has one. -/
def observationRecord (line : Bytes) : Option SnapshotObservation :=
  observationOfFields (splitTabFields line)

/-- The records of the peer lines, over all sections of that name. -/
def peerRecords (current : Section) (lines : List Bytes) : List (PeerId × PeerInfo) :=
  (linesIn .peers current lines).filterMap peerRecord

/-- The records of the observation lines. -/
def observationRecords (current : Section) (lines : List Bytes) : List SnapshotObservation :=
  (linesIn .observations current lines).filterMap observationRecord

/-- Every line is in order by itself, and no id is given twice or is among
those `taken`. It is what the line loop checks, from a section it may already
be in. -/
structure ReadableFrom (current : Section) (taken : List PeerId) (lines : List Bytes) : Prop where
  sections : ∀ line ∈ lines, lineKind line ≠ .unknownSection
  placed : linesIn .none current lines = []
  peers : ∀ line ∈ linesIn .peers current lines, peerRecord line ≠ none
  observations : ∀ line ∈ linesIn .observations current lines, observationRecord line ≠ none
  ids : (taken ++ (peerRecords current lines).map Prod.fst).Nodup

instance (current : Section) (taken : List PeerId) (lines : List Bytes) :
    Decidable (ReadableFrom current taken lines) :=
  decidable_of_iff ((∀ line ∈ lines, lineKind line ≠ .unknownSection) ∧
    linesIn .none current lines = [] ∧
    (∀ line ∈ linesIn .peers current lines, peerRecord line ≠ none) ∧
    (∀ line ∈ linesIn .observations current lines, observationRecord line ≠ none) ∧
    (taken ++ (peerRecords current lines).map Prod.fst).Nodup)
    ⟨fun h => ⟨h.1, h.2.1, h.2.2.1, h.2.2.2.1, h.2.2.2.2⟩,
      fun h => ⟨h.sections, h.placed, h.peers, h.observations, h.ids⟩⟩

/-- What the code does with the fields of a peer line: it adds their record, or
it throws, for want of a record or because the id is there. -/
theorem readPeerFields_spec (reading : Reading) (fields : List Bytes) :
    (∃ peer, peerOfFields fields = some peer ∧ reading.peers.lookup peer.1 = none ∧
      readPeerFields reading fields =
        .ok { reading with peers := reading.peers.insert peer.1 peer.2 }) ∨
    ((∀ peer, peerOfFields fields = some peer → reading.peers.lookup peer.1 ≠ none) ∧
      ∃ e, readPeerFields reading fields = .error e) := by
  unfold readPeerFields
  split
  next idText host peerIp asnText =>
    unfold peerOfFields
    dsimp only
    cases stoul idText with
    | error e => exact Or.inr ⟨fun peer h => (by cases h), e, rfl⟩
    | ok peerId =>
      rw [ok_bind]
      by_cases hdup : (reading.peers.lookup peerId.toUInt32).isSome = true
      · rw [if_pos hdup]
        refine Or.inr ⟨fun peer h => ?_, _, rfl⟩
        cases hasn : stoul asnText with
        | error e =>
          rw [hasn] at h
          cases h
        | ok peerAsn =>
          rw [hasn] at h
          cases h
          exact Option.isSome_iff_ne_none.mp hdup
      · rw [if_neg hdup]
        cases stoul asnText with
        | error e => exact Or.inr ⟨fun peer h => (by cases h), e, rfl⟩
        | ok peerAsn => exact Or.inl ⟨_, rfl, Option.not_isSome_iff_eq_none.mp hdup, rfl⟩
  next hfour =>
    refine Or.inr ⟨fun peer h => ?_, _, rfl⟩
    unfold peerOfFields at h
    split at h
    next => exact absurd rfl (hfour _ _ _ _)
    next => cases h

/-- The same for an observation line, where nothing can be taken. -/
theorem readObservationFields_spec (reading : Reading) (fields : List Bytes) :
    (∃ o, observationOfFields fields = some o ∧
      readObservationFields reading fields =
        .ok { reading with observations := reading.observations ++ [o] }) ∨
    (observationOfFields fields = none ∧
      ∃ e, readObservationFields reading fields = .error e) := by
  unfold readObservationFields
  split
  next familyText prefixText idText asnText timestampText =>
    unfold observationOfFields
    dsimp only
    cases parseFamily familyText with
    | error e => exact Or.inr ⟨rfl, e, rfl⟩
    | ok family =>
      cases stoul idText with
      | error e => exact Or.inr ⟨rfl, e, rfl⟩
      | ok peerId =>
        cases stoul asnText with
        | error e => exact Or.inr ⟨rfl, e, rfl⟩
        | ok originAsn =>
          cases stoull timestampText with
          | error e => exact Or.inr ⟨rfl, e, rfl⟩
          | ok timestamp => exact Or.inl ⟨_, rfl, rfl⟩
  next hfive =>
    refine Or.inr ⟨?_, _, rfl⟩
    unfold observationOfFields
    split
    next => exact absurd rfl (hfive _ _ _ _ _)
    next => rfl

/-! ## The line loop -/

/-- A line after the header, by its kind. -/
theorem readLine_of_header {reading : Reading} (hsaw : reading.sawHeader = true) (line : Bytes) :
    readLine reading line =
      match lineKind line with
      | .blank => .ok { reading with lineNumber := reading.lineNumber + 1 }
      | .opens opened => .ok
          { reading with
            lineNumber := reading.lineNumber + 1
            sawAnyContent := true
            currentSection := opened }
      | .unknownSection => throwParseError (reading.lineNumber + 1)
          (bytes "unknown section name: " ++ trim line)
      | .data =>
        match reading.currentSection with
        | .none => throwParseError (reading.lineNumber + 1)
            (bytes "data line found before any section")
        | .peers => readPeerFields
            { reading with lineNumber := reading.lineNumber + 1, sawAnyContent := true }
            (splitTabFields line)
        | .observations => readObservationFields
            { reading with lineNumber := reading.lineNumber + 1, sawAnyContent := true }
            (splitTabFields line) := by
  have hsaw' : ¬ reading.sawHeader = false := by
    rw [hsaw]
    decide
  unfold readLine readContent lineKind
  dsimp only
  by_cases hblank : trim line = []
  · rw [if_pos hblank, if_pos hblank]
    rfl
  · rw [if_neg hblank, if_neg hblank, if_neg hsaw']
    by_cases hpeers : trim line = bytes "[peers]"
    · rw [if_pos hpeers, if_pos hpeers]
      rfl
    · rw [if_neg hpeers, if_neg hpeers]
      by_cases hobs : trim line = bytes "[observations]"
      · rw [if_pos hobs, if_pos hobs]
        rfl
      · rw [if_neg hobs, if_neg hobs]
        by_cases hother : (trim line).head? = some 91 ∧ (trim line).getLast? = some 93
        · rw [if_pos hother, if_pos hother]
        · cases reading.currentSection with
          | none => rw [if_neg hother, if_neg hother]
          | peers => rw [if_neg hother, if_neg hother]
          | observations => rw [if_neg hother, if_neg hother]

section Cons

variable {current opened : Section} {taken : List PeerId} {line : Bytes} {lines : List Bytes}

theorem linesIn_blank (h : lineKind line = .blank) (target current : Section) (lines : List Bytes) :
    linesIn target current (line :: lines) = linesIn target current lines := by
  rw [linesIn, h]

theorem linesIn_opens (h : lineKind line = .opens opened) (target current : Section)
    (lines : List Bytes) :
    linesIn target current (line :: lines) = linesIn target opened lines := by
  rw [linesIn, h]

/-- A data line belongs to the section it stands in. -/
theorem linesIn_data_self (h : lineKind line = .data) (target : Section) (lines : List Bytes) :
    linesIn target target (line :: lines) = line :: linesIn target target lines := by
  rw [linesIn, h]
  exact if_pos rfl

theorem linesIn_data_ne (h : lineKind line = .data) {target current : Section}
    (hne : current ≠ target) (lines : List Bytes) :
    linesIn target current (line :: lines) = linesIn target current lines := by
  rw [linesIn, h]
  exact if_neg hne

theorem peerRecords_congr (hlines : linesIn .peers current (line :: lines) = linesIn .peers opened lines) :
    peerRecords current (line :: lines) = peerRecords opened lines := by
  rw [peerRecords, hlines, peerRecords]

theorem observationRecords_congr
    (hlines : linesIn .observations current (line :: lines) = linesIn .observations opened lines) :
    observationRecords current (line :: lines) = observationRecords opened lines := by
  rw [observationRecords, hlines, observationRecords]

/-- A peer line puts its record in front of the others. -/
theorem peerRecords_data (h : lineKind line = .data) {peer : PeerId × PeerInfo}
    (hpeer : peerRecord line = some peer) :
    peerRecords .peers (line :: lines) = peer :: peerRecords .peers lines := by
  rw [peerRecords, linesIn_data_self h, List.filterMap_cons, hpeer]
  rfl

theorem observationRecords_data (h : lineKind line = .data) {o : SnapshotObservation}
    (ho : observationRecord line = some o) :
    observationRecords .observations (line :: lines) = o :: observationRecords .observations lines := by
  rw [observationRecords, linesIn_data_self h, List.filterMap_cons, ho]
  rfl

/-- A line that is no data and names no unknown section leaves the rest as it
is. -/
theorem readableFrom_skip (hsection : lineKind line ≠ .unknownSection)
    (hlines : ∀ target, linesIn target current (line :: lines) = linesIn target opened lines) :
    ReadableFrom current taken (line :: lines) ↔ ReadableFrom opened taken lines := by
  have hrecords := peerRecords_congr (hlines .peers)
  constructor
  · intro h
    refine ⟨fun l hl => h.sections l (List.mem_cons_of_mem _ hl), ?_, ?_, ?_, ?_⟩
    · rw [← hlines]
      exact h.placed
    · rw [← hlines]
      exact h.peers
    · rw [← hlines]
      exact h.observations
    · rw [← hrecords]
      exact h.ids
  · intro h
    refine ⟨fun l hl => ?_, ?_, ?_, ?_, ?_⟩
    · rcases List.mem_cons.mp hl with rfl | hl
      · exact hsection
      · exact h.sections l hl
    · rw [hlines]
      exact h.placed
    · rw [hlines]
      exact h.peers
    · rw [hlines]
      exact h.observations
    · rw [hrecords]
      exact h.ids

/-- Lines that start with a peer line are readable if it has a record and the
others are readable with its id taken. -/
theorem readableFrom_peers (h : lineKind line = .data) :
    ReadableFrom .peers taken (line :: lines) ↔
      ∃ peer, peerRecord line = some peer ∧ ReadableFrom .peers (taken ++ [peer.1]) lines := by
  have hplaced : linesIn .none .peers (line :: lines) = linesIn .none .peers lines :=
    linesIn_data_ne h (by decide) lines
  have hobs : linesIn .observations .peers (line :: lines) = linesIn .observations .peers lines :=
    linesIn_data_ne h (by decide) lines
  have hpeers := linesIn_data_self h .peers lines
  have hkind : lineKind line ≠ .unknownSection := by
    rw [h]
    decide
  have hids : ∀ {peer}, peerRecord line = some peer →
      taken ++ (peerRecords .peers (line :: lines)).map Prod.fst =
        taken ++ [peer.1] ++ (peerRecords .peers lines).map Prod.fst := by
    intro peer hpeer
    rw [peerRecords_data h hpeer, List.map_cons, List.append_assoc]
    rfl
  constructor
  · intro hr
    obtain ⟨peer, hpeer⟩ := Option.ne_none_iff_exists'.mp
      (hr.peers line (by rw [hpeers]; exact List.mem_cons_self))
    refine ⟨peer, hpeer, fun l hl => hr.sections l (List.mem_cons_of_mem _ hl), hplaced ▸ hr.placed,
      fun l hl => hr.peers l (by rw [hpeers]; exact List.mem_cons_of_mem _ hl),
      hobs ▸ hr.observations, hids hpeer ▸ hr.ids⟩
  · intro ⟨peer, hpeer, hr⟩
    refine ⟨fun l hl => ?_, hplaced ▸ hr.placed, fun l hl => ?_, hobs ▸ hr.observations,
      hids hpeer ▸ hr.ids⟩
    · rcases List.mem_cons.mp hl with rfl | hl
      · exact hkind
      · exact hr.sections l hl
    · rw [hpeers] at hl
      rcases List.mem_cons.mp hl with rfl | hl
      · rw [hpeer]
        exact Option.some_ne_none peer
      · exact hr.peers l hl

/-- Lines that start with an observation line are readable if it has a record
and the others are readable. -/
theorem readableFrom_observations (h : lineKind line = .data) :
    ReadableFrom .observations taken (line :: lines) ↔
      observationRecord line ≠ none ∧ ReadableFrom .observations taken lines := by
  have hplaced : linesIn .none .observations (line :: lines) = linesIn .none .observations lines :=
    linesIn_data_ne h (by decide) lines
  have hpeers : linesIn .peers .observations (line :: lines) = linesIn .peers .observations lines :=
    linesIn_data_ne h (by decide) lines
  have hobs := linesIn_data_self h .observations lines
  have hkind : lineKind line ≠ .unknownSection := by
    rw [h]
    decide
  have hrecords := peerRecords_congr hpeers
  constructor
  · intro hr
    exact ⟨hr.observations line (by rw [hobs]; exact List.mem_cons_self),
      fun l hl => hr.sections l (List.mem_cons_of_mem _ hl), hplaced ▸ hr.placed,
      hpeers ▸ hr.peers, fun l hl => hr.observations l (by rw [hobs]; exact List.mem_cons_of_mem _ hl),
      hrecords ▸ hr.ids⟩
  · intro ⟨hline, hr⟩
    refine ⟨fun l hl => ?_, hplaced ▸ hr.placed, hpeers ▸ hr.peers, fun l hl => ?_,
      hrecords ▸ hr.ids⟩
    · rcases List.mem_cons.mp hl with rfl | hl
      · exact hkind
      · exact hr.sections l hl
    · rw [hobs] at hl
      rcases List.mem_cons.mp hl with rfl | hl
      · exact hline
      · exact hr.observations l hl

/-- A data line before any section is not readable. -/
theorem not_readableFrom_none (h : lineKind line = .data) :
    ¬ ReadableFrom .none taken (line :: lines) := by
  intro hr
  have hplaced := hr.placed
  rw [linesIn_data_self h] at hplaced
  exact absurd hplaced (List.cons_ne_nil _ _)

end Cons

/-- A data line among the peers adds its record, unless it has none or its id is
taken. -/
theorem readLine_peers {peers : List (PeerId × PeerInfo)} {observations : List SnapshotObservation}
    {reading : Reading} (h : HasRead .peers peers observations reading)
    (hids : (peers.map Prod.fst).Nodup) {line : Bytes} (hkind : lineKind line = .data) :
    (∃ peer reading', peerRecord line = some peer ∧ readLine reading line = .ok reading' ∧
      HasRead .peers (peers ++ [peer]) observations reading' ∧
      ((peers ++ [peer]).map Prod.fst).Nodup) ∨
    ((∀ peer, peerRecord line = some peer → peer.1 ∈ peers.map Prod.fst) ∧
      ∃ e, readLine reading line = .error e) := by
  have hline := readLine_of_header h.saw.2 line
  simp only [hkind, h.section_eq] at hline
  rw [hline]
  rcases readPeerFields_spec
    ⟨reading.peers, reading.observations, .peers, true, reading.sawHeader, reading.lineNumber + 1⟩
    (splitTabFields line) with ⟨peer, hpeer, hnew, hok⟩ | ⟨hbad, hthrows⟩
  · have hnew' : ∀ p, (peer.1, p) ∉ peers := fun p hmem => by
      have hsome := (h.peers_iff _ _).mpr hmem
      rw [show reading.peers.lookup peer.1 = none from hnew] at hsome
      cases hsome
    refine Or.inl ⟨peer, _, hpeer, hok,
      ⟨lookup_insert_iff h.peers_iff hnew', h.observations_eq, rfl, rfl, h.saw.2⟩, ?_⟩
    rw [List.map_append, List.nodup_append]
    refine ⟨hids, List.nodup_singleton _, fun i hi j hj hij => ?_⟩
    obtain ⟨⟨k, p⟩, hmem, rfl⟩ := List.mem_map.mp hi
    rw [List.map_singleton, List.mem_singleton] at hj
    exact hnew' p (by rw [← hj, ← hij]; exact hmem)
  · refine Or.inr ⟨fun peer hpeer => ?_, hthrows⟩
    obtain ⟨p, hp⟩ := Option.ne_none_iff_exists'.mp (hbad peer hpeer)
    exact List.mem_map.mpr ⟨(peer.1, p), (h.peers_iff _ p).mp hp, rfl⟩

/-- A data line among the observations adds its record, unless it has none. -/
theorem readLine_observations {peers : List (PeerId × PeerInfo)}
    {observations : List SnapshotObservation} {reading : Reading}
    (h : HasRead .observations peers observations reading) {line : Bytes}
    (hkind : lineKind line = .data) :
    (∃ o reading', observationRecord line = some o ∧ readLine reading line = .ok reading' ∧
      HasRead .observations peers (observations ++ [o]) reading') ∨
    (observationRecord line = none ∧ ∃ e, readLine reading line = .error e) := by
  have hline := readLine_of_header h.saw.2 line
  simp only [hkind, h.section_eq] at hline
  rw [hline]
  rcases readObservationFields_spec
    ⟨reading.peers, reading.observations, .observations, true, reading.sawHeader,
      reading.lineNumber + 1⟩ (splitTabFields line) with ⟨o, ho, hok⟩ | hbad
  · exact Or.inl ⟨o, _, ho, hok, h.peers_iff, congrArg (· ++ [o]) h.observations_eq, rfl, rfl, h.saw.2⟩
  · exact Or.inr hbad

/-- **The loop over the lines after the header** reads their records if they are
in order, and throws if they are not. -/
theorem foldlM_readLine : ∀ (lines : List Bytes) {current : Section}
    {peers : List (PeerId × PeerInfo)} {observations : List SnapshotObservation}
    {reading : Reading}, HasRead current peers observations reading →
    (peers.map Prod.fst).Nodup →
    (ReadableFrom current (peers.map Prod.fst) lines ∧
      ∃ reading' last, lines.foldlM readLine reading = .ok reading' ∧
        HasRead last (peers ++ peerRecords current lines)
          (observations ++ observationRecords current lines) reading') ∨
    (¬ ReadableFrom current (peers.map Prod.fst) lines ∧
      ∃ e, lines.foldlM readLine reading = .error e) := by
  intro lines
  induction lines with
  | nil =>
    intro current peers observations reading h hids
    refine Or.inl ⟨⟨fun _ hl => (by cases hl), rfl, fun _ hl => (by cases hl),
      fun _ hl => (by cases hl), ?_⟩, reading, current, rfl, ?_⟩
    · rw [peerRecords, linesIn, List.filterMap_nil, List.map_nil, List.append_nil]
      exact hids
    · rw [peerRecords, observationRecords, linesIn, linesIn, List.filterMap_nil, List.filterMap_nil,
        List.append_nil, List.append_nil]
      exact h
  | cons line lines ih =>
    intro current peers observations reading h hids
    have hline := readLine_of_header h.saw.2 line
    rw [List.foldlM_cons]
    cases hkind : lineKind line with
    | blank =>
      rw [hkind] at hline
      have hlines := fun target => linesIn_blank hkind target current lines
      rw [hline, ok_bind, readableFrom_skip (by rw [hkind]; decide) hlines,
        peerRecords_congr (hlines .peers), observationRecords_congr (hlines .observations)]
      exact ih ⟨h.peers_iff, h.observations_eq, h.section_eq, h.saw⟩ hids
    | opens opened =>
      rw [hkind] at hline
      have hlines := fun target => linesIn_opens hkind target current lines
      rw [hline, ok_bind, readableFrom_skip (by rw [hkind]; simp) hlines,
        peerRecords_congr (hlines .peers), observationRecords_congr (hlines .observations)]
      exact ih ⟨h.peers_iff, h.observations_eq, rfl, rfl, h.saw.2⟩ hids
    | unknownSection =>
      rw [hkind] at hline
      refine Or.inr ⟨fun hr => hr.sections line List.mem_cons_self hkind, ?_⟩
      rw [hline]
      exact ⟨_, rfl⟩
    | data =>
      cases current with
      | none =>
        simp only [hkind, h.section_eq] at hline
        refine Or.inr ⟨not_readableFrom_none hkind, ?_⟩
        rw [hline]
        exact ⟨_, rfl⟩
      | peers =>
        rw [readableFrom_peers hkind]
        rcases readLine_peers h hids hkind with ⟨peer, reading₁, hpeer, hok, hread, hids'⟩ |
          ⟨hbad, e, he⟩
        · have hobs : observationRecords .peers (line :: lines) = observationRecords .peers lines :=
            observationRecords_congr (linesIn_data_ne hkind (by decide) lines)
          have hnext := ih hread hids'
          rw [hok, ok_bind, peerRecords_data hkind hpeer, hobs, List.append_cons]
          rw [List.map_append, List.map_singleton] at hnext
          refine hnext.imp (fun ⟨hr, hrest⟩ => ⟨⟨peer, hpeer, hr⟩, hrest⟩)
            fun ⟨hr, hthrows⟩ => ⟨fun ⟨peer', hpeer', hr'⟩ => hr ?_, hthrows⟩
          cases hpeer.symm.trans hpeer'
          exact hr'
        · -- a line without a record, or one whose id has been read before
          refine Or.inr ⟨fun ⟨peer, hpeer, hr⟩ => ?_, e, by rw [he, error_bind]⟩
          have hnodup := (List.nodup_append.mp hr.ids).1
          exact (List.nodup_append.mp hnodup).2.2 _ (hbad peer hpeer) _ (List.mem_singleton.mpr rfl) rfl
      | observations =>
        rw [readableFrom_observations hkind]
        rcases readLine_observations h hkind with ⟨o, reading₁, ho, hok, hread⟩ | ⟨hbad, e, he⟩
        · have hrec : peerRecords .observations (line :: lines) = peerRecords .observations lines :=
            peerRecords_congr (linesIn_data_ne hkind (by decide) lines)
          rw [hok, ok_bind, hrec, observationRecords_data hkind ho, List.append_cons]
          refine (ih hread hids).imp (fun ⟨hr, hrest⟩ => ⟨⟨?_, hr⟩, hrest⟩)
            fun ⟨hr, hthrows⟩ => ⟨fun ⟨_, hr'⟩ => hr hr', hthrows⟩
          rw [ho]
          exact Option.some_ne_none o
        · exact Or.inr ⟨fun ⟨hsome, _⟩ => hsome hbad, e, by rw [he, error_bind]⟩

/-! ## A whole load -/

/-- The header is in its place, if there is anything. -/
def HeaderInPlace (text : Bytes) : Prop :=
  ∀ line lines, splitHeader (getLines text) = some (line, lines) → trim line = snapshotHeader

instance (text : Bytes) : Decidable (HeaderInPlace text) :=
  decidable_of_iff (∀ parts ∈ splitHeader (getLines text), trim parts.1 = snapshotHeader)
    ⟨fun h line lines hsplit => h (line, lines) hsplit, fun h parts hsplit => h parts.1 parts.2 hsplit⟩

/-- The peer lines of a text. Sections may be opened again and stand in any
order. -/
def peerLines (text : Bytes) : List Bytes := linesIn .peers .none (bodyLines text)

/-- The observation lines of a text, from all its sections of that name. -/
def observationLines (text : Bytes) : List Bytes := linesIn .observations .none (bodyLines text)

/-- The texts a load accepts: every line is in order, and the records fit
together. It is said on the lines, without the loop that reads them. -/
structure Loadable (net : Inet) (text : Bytes) : Prop where
  header : HeaderInPlace text
  readable : ReadableFrom .none [] (bodyLines text)
  identities : ((peerRecords .none (bodyLines text)).map Prod.snd).Nodup
  known : ∀ o ∈ observationRecords .none (bodyLines text),
    o.peerId ∈ (peerRecords .none (bodyLines text)).map Prod.fst
  accepted : ∀ o ∈ observationRecords .none (bodyLines text), Returns (o.parse net)

instance (net : Inet) (text : Bytes) : Decidable (Loadable net text) :=
  decidable_of_iff (HeaderInPlace text ∧ ReadableFrom .none [] (bodyLines text) ∧
    ((peerRecords .none (bodyLines text)).map Prod.snd).Nodup ∧
    (∀ o ∈ observationRecords .none (bodyLines text),
      o.peerId ∈ (peerRecords .none (bodyLines text)).map Prod.fst) ∧
    ∀ o ∈ observationRecords .none (bodyLines text), Returns (o.parse net))
    ⟨fun h => ⟨h.1, h.2.1, h.2.2.1, h.2.2.2.1, h.2.2.2.2⟩,
      fun h => ⟨h.header, h.readable, h.identities, h.known, h.accepted⟩⟩

/-- The lines before the header are passed over. -/
theorem foldlM_splitHeader : ∀ (lines : List Bytes) {reading : Reading},
    reading.sawAnyContent = false → reading.sawHeader = false →
    ∃ number, lines.foldlM readLine reading =
      match splitHeader lines with
      | none => .ok { reading with lineNumber := number }
      | some (line, rest) =>
        if trim line = snapshotHeader then
          rest.foldlM readLine { reading with
            lineNumber := number
            sawAnyContent := true
            sawHeader := true }
        else throwParseError number (bytes "expected snapshot header '# ASNPrefixMap snapshot v1'") := by
  intro lines
  induction lines with
  | nil => exact fun {reading} _ _ => ⟨reading.lineNumber, rfl⟩
  | cons line lines ih =>
    intro reading hcontent hheader
    by_cases hblank : trim line = []
    · obtain ⟨number, hrest⟩ := @ih { reading with lineNumber := reading.lineNumber + 1 } hcontent
        hheader
      refine ⟨number, ?_⟩
      rw [List.foldlM_cons, readLine, if_pos hblank, splitHeader, if_pos hblank]
      exact hrest
    · refine ⟨reading.lineNumber + 1, ?_⟩
      rw [List.foldlM_cons, readLine, if_neg hblank, splitHeader, if_neg hblank, if_pos hheader]
      dsimp only
      by_cases hline : trim line = snapshotHeader
      · rw [if_neg (not_not.mpr hline), if_pos hline]
        rfl
      · rw [if_pos hline, if_neg hline]
        rfl

/-- Reading succeeds for a header in its place over readable lines, and gives
their records. -/
theorem readSnapshot_spec (text : Bytes) :
    (HeaderInPlace text ∧ ReadableFrom .none [] (bodyLines text) ∧
      ∃ reading, readSnapshot text = .ok reading ∧
        (∀ i p, reading.peers.lookup i = some p ↔ (i, p) ∈ peerRecords .none (bodyLines text)) ∧
        reading.observations = observationRecords .none (bodyLines text)) ∨
    (¬ (HeaderInPlace text ∧ ReadableFrom .none [] (bodyLines text)) ∧
      ∃ e, readSnapshot text = .error e) := by
  obtain ⟨number, hfold⟩ := @foldlM_splitHeader (getLines text) {} rfl rfl
  unfold readSnapshot
  rw [hfold]
  unfold HeaderInPlace bodyLines
  cases hsplit : splitHeader (getLines text) with
  | none =>
    refine Or.inl ⟨fun line lines h => (by cases h), ⟨fun _ hl => (by cases hl), rfl,
      fun _ hl => (by cases hl), fun _ hl => (by cases hl), List.nodup_nil⟩, _, rfl, fun i p => ?_, rfl⟩
    exact ⟨fun h => (by cases h), fun h => (by cases h)⟩
  | some parts =>
    obtain ⟨line, lines⟩ := parts
    dsimp only
    by_cases hline : trim line = snapshotHeader
    · rw [if_pos hline]
      have hstart : HasRead .none [] []
          { lineNumber := number, sawAnyContent := true, sawHeader := true } :=
        ⟨fun i p => ⟨fun h => (by cases h), fun h => (by cases h)⟩, rfl, rfl, rfl, rfl⟩
      rcases foldlM_readLine lines hstart List.nodup_nil with ⟨hr, reading, last, hok, hread⟩ |
        ⟨hr, hthrows⟩
      · refine Or.inl ⟨fun l ls h => ?_, hr, reading, hok, hread.peers_iff, hread.observations_eq⟩
        cases h
        exact hline
      · exact Or.inr ⟨fun h => hr h.2, hthrows⟩
    · rw [if_neg hline]
      exact Or.inr ⟨fun h => hline (h.1 line lines rfl), _, rfl⟩

variable {net : Inet} {ord : HashOrders} {peerOrd : IterOrder PeerId PeerInfo}

/-- Of readable lines, fitting together means the same of the records and of the
containers that were filled from them. -/
theorem restorable_iff_loadable {text : Bytes} {reading : Reading} (hheader : HeaderInPlace text)
    (hreadable : ReadableFrom .none [] (bodyLines text))
    (hpeers : ∀ i p, reading.peers.lookup i = some p ↔ (i, p) ∈ peerRecords .none (bodyLines text))
    (hobs : reading.observations = observationRecords .none (bodyLines text)) :
    Restorable net reading ↔ Loadable net text := by
  have hmem : ∀ i, reading.peers.lookup i ≠ none ↔
      i ∈ (peerRecords .none (bodyLines text)).map Prod.fst := by
    intro i
    rw [Option.ne_none_iff_exists', List.mem_map]
    constructor
    · intro ⟨p, hp⟩
      exact ⟨(i, p), (hpeers i p).mp hp, rfl⟩
    · rintro ⟨⟨j, p⟩, hp, rfl⟩
      exact ⟨p, (hpeers _ p).mpr hp⟩
  have hids : ((peerRecords .none (bodyLines text)).map Prod.fst).Nodup := hreadable.ids
  constructor
  · intro hr
    refine ⟨hheader, hreadable, ?_, fun o ho => ?_, fun o ho => hr.accepted o (hobs ▸ ho)⟩
    · refine List.Nodup.map_on ?_ (List.Nodup.of_map _ hids)
      intro ⟨i, p⟩ hi ⟨j, q⟩ hj hpq
      obtain rfl : p = q := hpq
      rw [hr.identities i j p ((hpeers i p).mpr hi) ((hpeers j p).mpr hj)]
    · exact (hmem _).mp (hr.known o (hobs ▸ ho))
  · intro hl
    refine ⟨fun i j p hi hj => ?_, fun o ho => ?_, fun o ho => hl.accepted o (hobs ▸ ho)⟩
    · exact congrArg Prod.fst (List.inj_on_of_nodup_map hl.identities ((hpeers i p).mp hi)
        ((hpeers j p).mp hj) rfl)
    · exact (hmem _).mpr (hl.known o (hobs ▸ ho))

/-- **A load accepts the loadable texts and no others**, and what it leaves is
made of the records of the lines. -/
theorem loadSnapshot_spec (text path : Bytes) (store : Store) :
    (Loadable net text ∧ ∃ stats store',
      (loadSnapshot net ord peerOrd path (some text)).run store = .ok stats store' ∧
      (∀ i p, store'.registry.byId.lookup i = some p ↔
        (i, p) ∈ peerRecords .none (bodyLines text)) ∧
      store'.state = (restoreAll net ord {}
        (sortObservations (observationRecords .none (bodyLines text)))).rebuildAggregated ord) ∨
    (¬ Loadable net text ∧ ∃ e store',
      (loadSnapshot net ord peerOrd path (some text)).run store = .error e store') := by
  rcases readSnapshot_spec text with ⟨hheader, hreadable, reading, hread, hpeers, hobs⟩ |
    ⟨hbad, e, he⟩
  · have hiff := @restorable_iff_loadable net text reading hheader hreadable hpeers hobs
    cases hsaw : reading.sawAnyContent with
    | false =>
      obtain ⟨hnoPeers, hnoObs⟩ := (readSnapshot_inv hread).empty hsaw
      refine Or.inl ⟨hiff.mp (restorable_of_blank hread hsaw), _, _,
        loadSnapshot_of_blank hread hsaw path store, fun i p => ?_, ?_⟩
      · rw [← hpeers, hnoPeers]
      · rw [← hobs, hnoObs]
        exact (rebuildAggregated_eq stateInv_empty ord).symm
    | true =>
      rw [loadSnapshot_of_content hread hsaw, ← hiff]
      by_cases hr : Restorable net reading
      · have hfresh := (@freshFor_entries_iff peerOrd reading).mpr hr.identities
        refine Or.inl ⟨hr, _, _, by rw [run_bind_ok (restoreSnapshot_of_restorable hr store)]; rfl,
          fun i p => ?_, by rw [hobs]⟩
        rw [lookup_byId_insertAll i p hfresh, (peerOrd.listing reading.peers).mem_iff, hpeers]
        exact or_iff_left fun hl => (by cases hl)
      · obtain ⟨e, store', hthrows⟩ := @restoreSnapshot_of_not_restorable net ord peerOrd reading hr
        exact Or.inr ⟨hr, e, store', by rw [run_bind_error (hthrows store)]⟩
  · exact Or.inr ⟨fun hl => hbad ⟨hl.header, hl.readable⟩, e, store, loadSnapshot_of_error he path store⟩

end ASNPrefixMap.Snapshot
