import ASNPrefixMap.Snapshot.Format

/-!
# Reading a snapshot

What the line loop makes of a text. Of any text: fields are cut at tabs out of
lines cut at newlines, so no peer that was read has either byte in its strings,
and nothing is read before the header (`readSnapshot_inv`). Of a text that was
written from peers without these bytes: exactly what was written
(`readSnapshot_snapshotText`). A data line is told from the section headers by
its first byte, a digit or the `v` of a family.
-/

namespace ASNPrefixMap.Snapshot

open Lib Prefix Peer Routing

/-- The strings of a peer hold no byte that delimits fields or lines. Nothing in
the program sees to this; hosts come as they are in the messages. -/
structure Plain (peer : PeerInfo) : Prop where
  host_tab : tab ∉ peer.host
  host_newline : newline ∉ peer.host
  peerIp_tab : tab ∉ peer.peerIp
  peerIp_newline : newline ∉ peer.peerIp

/-! ## Any text -/

/-- A peer line that is read adds one peer under a new id, with two of the
line's fields as its strings. -/
theorem readPeerFields_eq_ok {reading reading' : Reading} {fields : List Bytes}
    (h : readPeerFields reading fields = .ok reading') :
    ∃ peerId peer, reading.peers.lookup peerId = none ∧ peer.host ∈ fields ∧
      peer.peerIp ∈ fields ∧
      reading' = { reading with peers := reading.peers.insert peerId peer } := by
  unfold readPeerFields at h
  split at h
  next idText host peerIp asnText =>
    obtain ⟨peerId, -, h⟩ := bind_eq_ok.mp h
    split at h
    next => cases h
    next hdup =>
      obtain ⟨peerAsn, -, h⟩ := bind_eq_ok.mp h
      cases h
      refine ⟨peerId.toUInt32, ⟨host, peerIp, peerAsn.toUInt32⟩,
        Option.not_isSome_iff_eq_none.mp hdup, ?_, ?_, rfl⟩
      · simp
      · simp
  next => cases h

/-- An observation line that is read adds one observation at the end. -/
theorem readObservationFields_eq_ok {reading reading' : Reading} {fields : List Bytes}
    (h : readObservationFields reading fields = .ok reading') :
    ∃ observation, reading' =
      { reading with observations := reading.observations ++ [observation] } := by
  unfold readObservationFields at h
  split at h
  next =>
    obtain ⟨family, -, h⟩ := bind_eq_ok.mp h
    obtain ⟨peerId, -, h⟩ := bind_eq_ok.mp h
    obtain ⟨originAsn, -, h⟩ := bind_eq_ok.mp h
    obtain ⟨timestamp, -, h⟩ := bind_eq_ok.mp h
    cases h
    exact ⟨_, rfl⟩
  next => cases h

/-- What a content line can do: change the section, add a peer or add an
observation. -/
theorem readContent_eq_ok {reading reading' : Reading} {trimmed line : Bytes}
    (h : readContent reading trimmed line = .ok reading') :
    (∃ s, reading' = { reading with currentSection := s }) ∨
      (∃ peerId peer, reading.peers.lookup peerId = none ∧ peer.host ∈ splitTabFields line ∧
        peer.peerIp ∈ splitTabFields line ∧
        reading' = { reading with peers := reading.peers.insert peerId peer }) ∨
      ∃ observation, reading' =
        { reading with observations := reading.observations ++ [observation] } := by
  unfold readContent at h
  split at h
  next =>
    cases h
    exact Or.inl ⟨_, rfl⟩
  next =>
    split at h
    next =>
      cases h
      exact Or.inl ⟨_, rfl⟩
    next =>
      split at h
      next => cases h
      next =>
        split at h
        next => cases h
        next => exact Or.inr (Or.inl (readPeerFields_eq_ok h))
        next => exact Or.inr (Or.inr (readObservationFields_eq_ok h))

/-- What holds of the variables of `load_snapshot` while it reads: content
starts with the header, nothing is collected before it, and the strings of the
peers have neither a tab nor a newline. It is the invariant of the line loop. -/
structure ReadingInv (reading : Reading) : Prop where
  header : reading.sawAnyContent = true → reading.sawHeader = true
  empty : reading.sawAnyContent = false → reading.peers = ∅ ∧ reading.observations = []
  plain : ∀ peerId peer, reading.peers.lookup peerId = some peer → Plain peer

/-- The step lemma: one line keeps the invariant. A line has no newline, since
it was cut at newlines. -/
theorem readLine_inv {line : Bytes} (hline : newline ∉ line) {reading reading' : Reading}
    (h : ReadingInv reading) (hr : readLine reading line = .ok reading') : ReadingInv reading' := by
  simp only [readLine] at hr
  split at hr
  next =>
    cases hr
    exact ⟨h.header, h.empty, h.plain⟩
  next =>
    split at hr
    next hno =>
      -- the first content has to be the header
      split at hr
      next => cases hr
      next =>
        cases hr
        exact ⟨fun _ => rfl, fun hf => (by cases hf), h.plain⟩
    next hheader =>
      have hsaw : reading.sawHeader = true := by simpa using hheader
      rcases readContent_eq_ok hr with ⟨s, rfl⟩ | ⟨peerId, peer, -, hhost, hip, rfl⟩ | ⟨o, rfl⟩
      · exact ⟨fun _ => hsaw, fun hf => (by cases hf), h.plain⟩
      · -- the fields of a line hold no tab, and the line itself no newline
        refine ⟨fun _ => hsaw, fun hf => (by cases hf), ?_⟩
        intro i p hp
        rw [lookup_insert_eq] at hp
        split at hp
        next =>
          cases hp
          exact ⟨sep_notMem_of_mem_splitOn tab line _ hhost,
            fun hn => hline (mem_of_mem_splitOn tab line _ hhost _ hn),
            sep_notMem_of_mem_splitOn tab line _ hip,
            fun hn => hline (mem_of_mem_splitOn tab line _ hip _ hn)⟩
        next => exact h.plain i p hp
      · exact ⟨fun _ => hsaw, fun hf => (by cases hf), h.plain⟩

/-- The header comes first, and the peers of any text have plain strings. -/
theorem readSnapshot_inv {text : Bytes} {reading : Reading}
    (h : readSnapshot text = .ok reading) : ReadingInv reading := by
  unfold readSnapshot at h
  refine foldlM_invariant ?_ ?_ h
  · intro r line hmem r' hr hstep
    exact readLine_inv (newline_notMem_of_mem_getLines text line hmem) hr hstep
  · refine ⟨fun hf => (by cases hf), fun _ => ⟨rfl, rfl⟩, ?_⟩
    intro peerId peer hp
    cases hp

/-! ## Written text -/

/-- The lines of a written snapshot. -/
def snapshotLines (peers : List (PeerId × PeerInfo)) (observations : List SnapshotObservation) :
    List Bytes :=
  [snapshotHeader, [], bytes "[peers]"] ++ peers.map peerLine ++ [[], bytes "[observations]"] ++
    observations.map observationLine

/-- What is written is lines: every piece of the text ends in a newline. -/
theorem snapshotText_eq_unlines (peers : List (PeerId × PeerInfo))
    (observations : List SnapshotObservation) :
    snapshotText peers observations = unlines (snapshotLines peers observations) := by
  have hstart : unlines [snapshotHeader, [], bytes "[peers]"] =
      bytes "# ASNPrefixMap snapshot v1\n\n" ++ bytes "[peers]\n" := by decide
  have hmiddle : unlines [[], bytes "[observations]"] = bytes "\n[observations]\n" := by decide
  have hend : bytes "\n" = [newline] := by decide
  unfold snapshotText snapshotLines
  rw [unlines_append, unlines_append, unlines_append, hstart, hmiddle, unlines_map, unlines_map,
    hend]

/-- The fields of a peer line. -/
def peerFields (peer : PeerId × PeerInfo) : List Bytes :=
  [toDec peer.1.toNat, peer.2.host, peer.2.peerIp, toDec peer.2.peerAsn.toNat]

/-- The fields of an observation line. -/
def observationFields (o : SnapshotObservation) : List Bytes :=
  [familyToString o.family, o.prefixText, toDec o.peerId.toNat, toDec o.originAsn.toNat,
    toDec o.timestamp.toNat]

/-- A peer line is its fields with tabs between them. -/
theorem peerLine_eq_intercalate (peer : PeerId × PeerInfo) :
    peerLine peer = [tab].intercalate (peerFields peer) := by
  have htab : bytes "\t" = [tab] := by decide
  simp only [peerLine, peerFields, htab, List.intercalate_cons_cons, List.intercalate_singleton,
    List.append_assoc]

theorem observationLine_eq_intercalate (o : SnapshotObservation) :
    observationLine o = [tab].intercalate (observationFields o) := by
  have htab : bytes "\t" = [tab] := by decide
  simp only [observationLine, observationFields, htab, List.intercalate_cons_cons,
    List.intercalate_singleton, List.append_assoc]

theorem tab_notMem_toDec (n : Nat) : tab ∉ toDec n := notMem_toDec (by decide) n

theorem newline_notMem_toDec (n : Nat) : newline ∉ toDec n := notMem_toDec (by decide) n

theorem notMem_familyToString (f : PrefixFamily) :
    tab ∉ familyToString f ∧ newline ∉ familyToString f := by
  cases f <;> decide

/-- The line of a plain peer is cut into the fields it was made of. A tab in a
string would add one. -/
theorem splitTabFields_peerLine {peer : PeerId × PeerInfo} (h : Plain peer.2) :
    splitTabFields (peerLine peer) = peerFields peer := by
  unfold splitTabFields
  rw [peerLine_eq_intercalate]
  refine List.splitOn_intercalate tab ?_ (List.cons_ne_nil _ _)
  intro field hfield
  simp only [peerFields, List.mem_cons, List.not_mem_nil, or_false] at hfield
  rcases hfield with rfl | rfl | rfl | rfl
  · exact tab_notMem_toDec _
  · exact h.host_tab
  · exact h.peerIp_tab
  · exact tab_notMem_toDec _

theorem newline_notMem_peerLine {peer : PeerId × PeerInfo} (h : Plain peer.2) :
    newline ∉ peerLine peer := by
  intro hmem
  rw [peerLine_eq_intercalate] at hmem
  rcases mem_intercalate hmem with heq | ⟨field, hfield, hmem⟩
  · cases heq
  · simp only [peerFields, List.mem_cons, List.not_mem_nil, or_false] at hfield
    rcases hfield with rfl | rfl | rfl | rfl
    · exact newline_notMem_toDec _ hmem
    · exact h.host_newline hmem
    · exact h.peerIp_newline hmem
    · exact newline_notMem_toDec _ hmem

/-- The prefix text of an observation fits into a field. -/
def PlainText (o : SnapshotObservation) : Prop := tab ∉ o.prefixText ∧ newline ∉ o.prefixText

theorem splitTabFields_observationLine {o : SnapshotObservation} (h : PlainText o) :
    splitTabFields (observationLine o) = observationFields o := by
  unfold splitTabFields
  rw [observationLine_eq_intercalate]
  refine List.splitOn_intercalate tab ?_ (List.cons_ne_nil _ _)
  intro field hfield
  simp only [observationFields, List.mem_cons, List.not_mem_nil, or_false] at hfield
  rcases hfield with rfl | rfl | rfl | rfl | rfl
  · exact (notMem_familyToString _).1
  · exact h.1
  · exact tab_notMem_toDec _
  · exact tab_notMem_toDec _
  · exact tab_notMem_toDec _

theorem newline_notMem_observationLine {o : SnapshotObservation} (h : PlainText o) :
    newline ∉ observationLine o := by
  intro hmem
  rw [observationLine_eq_intercalate] at hmem
  rcases mem_intercalate hmem with heq | ⟨field, hfield, hmem⟩
  · cases heq
  · simp only [observationFields, List.mem_cons, List.not_mem_nil, or_false] at hfield
    rcases hfield with rfl | rfl | rfl | rfl | rfl
    · exact (notMem_familyToString _).2 hmem
    · exact h.2 hmem
    · exact newline_notMem_toDec _ hmem
    · exact newline_notMem_toDec _ hmem
    · exact newline_notMem_toDec _ hmem

/-! ## Reading written lines -/

/-- A line whose first byte is neither a blank nor a bracket is a data line. -/
theorem readLine_data {reading : Reading} (hsaw : reading.sawHeader = true) {c : UInt8}
    (hblank : isTrimmed c = false) (hbracket : c ≠ 91) (cs : Bytes) :
    readLine reading (c :: cs) =
      match reading.currentSection with
      | .none => throwParseError (reading.lineNumber + 1)
          (bytes "data line found before any section")
      | .peers => readPeerFields
          { reading with lineNumber := reading.lineNumber + 1, sawAnyContent := true }
          (splitTabFields (c :: cs))
      | .observations => readObservationFields
          { reading with lineNumber := reading.lineNumber + 1, sawAnyContent := true }
          (splitTabFields (c :: cs)) := by
  -- trimming may shorten the line at its end, but it keeps the first byte
  have htrim : trim (c :: cs) = c :: cs.rdropWhile isTrimmed := trimWhere_cons hblank cs
  have hpeers : c :: cs.rdropWhile isTrimmed ≠ bytes "[peers]" := by
    intro e
    exact hbracket (List.cons.inj (e.trans (show bytes "[peers]" = 91 :: bytes "peers]" by decide))).1
  have hobs : c :: cs.rdropWhile isTrimmed ≠ bytes "[observations]" := by
    intro e
    exact hbracket (List.cons.inj
      (e.trans (show bytes "[observations]" = 91 :: bytes "observations]" by decide))).1
  have hsection : ¬ ((c :: cs.rdropWhile isTrimmed).head? = some 91 ∧
      (c :: cs.rdropWhile isTrimmed).getLast? = some 93) := by
    intro ⟨hhead, _⟩
    exact hbracket (Option.some.inj hhead)
  have hsaw' : ¬ reading.sawHeader = false := by
    rw [hsaw]
    decide
  unfold readLine readContent
  dsimp only
  rw [htrim, if_neg (List.cons_ne_nil _ _), if_neg hsaw', if_neg hpeers, if_neg hobs]
  exact (if_neg hsection).trans rfl

/-- What has been read so far, the line number apart. The map of peers and the
list of them hold the same pairs. -/
structure HasRead (currentSection : Section) (peers : List (PeerId × PeerInfo))
    (observations : List SnapshotObservation) (reading : Reading) : Prop where
  peers_iff : ∀ i p, reading.peers.lookup i = some p ↔ (i, p) ∈ peers
  observations_eq : reading.observations = observations
  section_eq : reading.currentSection = currentSection
  saw : reading.sawAnyContent = true ∧ reading.sawHeader = true

/-- A printed 32-bit number is converted back to itself. -/
theorem stoul_toDec_uint32 (n : UInt32) :
    ∃ v, stoul (toDec n.toNat) = .ok v ∧ v.toUInt32 = n := by
  have hlt := n.toNat_lt
  refine ⟨UInt64.ofNat n.toNat, stoul_toDec (by omega), ?_⟩
  apply UInt32.toNat_inj.mp
  rw [UInt64.toNat_toUInt32, UInt64.toNat_ofNat_of_lt' (show n.toNat < 2 ^ 64 by omega)]
  exact Nat.mod_eq_of_lt hlt

/-- A digit is neither trimmed away nor the start of a section line. -/
theorem data_of_isDigit {d : UInt8} (h : isDigit d = true) : isTrimmed d = false ∧ d ≠ 91 := by
  have hne : ∀ c : UInt8, isDigit c = false → d ≠ c := by
    intro c hc e
    rw [e, hc] at h
    cases h
  refine ⟨?_, hne 91 (by decide)⟩
  simp only [isTrimmed, Bool.or_eq_false_iff, beq_eq_false_iff_ne]
  exact ⟨⟨⟨hne _ (by decide), hne _ (by decide)⟩, hne _ (by decide)⟩, hne _ (by decide)⟩

/-- A peer line starts with a digit of the id. -/
theorem peerLine_cons (peer : PeerId × PeerInfo) :
    ∃ d ds, peerLine peer = d :: ds ∧ isDigit d = true := by
  obtain ⟨d, ds, hd, hdigit⟩ := exists_toDec_cons peer.1.toNat
  refine ⟨d, ds ++ bytes "\t" ++ peer.2.host ++ bytes "\t" ++ peer.2.peerIp ++ bytes "\t" ++
    toDec peer.2.peerAsn.toNat, ?_, hdigit⟩
  rw [peerLine, hd]
  rfl

/-- One more peer under an id that has not been read before. -/
theorem lookup_insert_iff {peers : List (PeerId × PeerInfo)} {m : FiniteMap PeerId PeerInfo}
    (h : ∀ i p, m.lookup i = some p ↔ (i, p) ∈ peers) {peer : PeerId × PeerInfo}
    (hnew : ∀ p, (peer.1, p) ∉ peers) (i : PeerId) (p : PeerInfo) :
    (m.insert peer.1 peer.2).lookup i = some p ↔ (i, p) ∈ peers ++ [peer] := by
  rw [lookup_insert_eq, List.mem_append, List.mem_singleton]
  by_cases hi : i = peer.1
  · rw [if_pos hi, hi, Option.some.injEq]
    constructor
    · intro e
      exact Or.inr (by rw [← e])
    · intro hmem
      rcases hmem with hmem | hmem
      · exact absurd hmem (hnew p)
      · exact (congrArg Prod.snd hmem).symm
  · rw [if_neg hi, h]
    constructor
    · exact Or.inl
    · intro hmem
      rcases hmem with hmem | hmem
      · exact hmem
      · exact absurd (congrArg Prod.fst hmem) hi

/-- A written peer line is read as its peer, if its id is new. -/
theorem readLine_peerLine {peer : PeerId × PeerInfo} (hplain : Plain peer.2)
    {peers : List (PeerId × PeerInfo)} {observations : List SnapshotObservation}
    {reading : Reading} (h : HasRead .peers peers observations reading)
    (hnew : ∀ p, (peer.1, p) ∉ peers) :
    ∃ reading', readLine reading (peerLine peer) = .ok reading' ∧
      HasRead .peers (peers ++ [peer]) observations reading' := by
  obtain ⟨d, ds, hline, hdigit⟩ := peerLine_cons peer
  obtain ⟨hblank, hbracket⟩ := data_of_isDigit hdigit
  obtain ⟨idVal, hid, hidEq⟩ := stoul_toDec_uint32 peer.1
  obtain ⟨asnVal, hasn, hasnEq⟩ := stoul_toDec_uint32 peer.2.peerAsn
  have hnone : ¬ (reading.peers.lookup idVal.toUInt32).isSome = true := by
    rw [hidEq]
    intro hsome
    obtain ⟨p, hp⟩ := Option.isSome_iff_exists.mp hsome
    exact hnew p ((h.peers_iff _ _).mp hp)
  rw [hline, readLine_data h.saw.2 hblank hbracket, ← hline, h.section_eq]
  dsimp only
  rw [splitTabFields_peerLine hplain]
  simp only [peerFields, readPeerFields, hid, hasn, ok_bind]
  rw [if_neg hnone, hidEq, hasnEq]
  exact ⟨_, rfl, lookup_insert_iff h.peers_iff hnew, h.observations_eq, rfl, rfl, h.saw.2⟩

/-- A written observation line is read as its observation. -/
theorem readLine_observationLine {o : SnapshotObservation} (hplain : PlainText o)
    {peers : List (PeerId × PeerInfo)} {observations : List SnapshotObservation}
    {reading : Reading} (h : HasRead .observations peers observations reading) :
    ∃ reading', readLine reading (observationLine o) = .ok reading' ∧
      HasRead .observations peers (observations ++ [o]) reading' := by
  obtain ⟨cs, hcs⟩ : ∃ cs, observationLine o = 118 :: cs := by
    unfold observationLine
    cases o.family with
    | v4 => exact ⟨_, rfl⟩
    | v6 => exact ⟨_, rfl⟩
  have hsplit := splitTabFields_observationLine hplain
  obtain ⟨idVal, hid, hidEq⟩ := stoul_toDec_uint32 o.peerId
  obtain ⟨asnVal, hasn, hasnEq⟩ := stoul_toDec_uint32 o.originAsn
  have htime : stoull (toDec o.timestamp.toNat) = .ok o.timestamp := by
    rw [stoull_toDec o.timestamp.toNat_lt, UInt64.ofNat_toNat]
  rw [hcs, readLine_data h.saw.2 (by decide) (by decide), ← hcs, h.section_eq]
  dsimp only
  rw [hsplit]
  simp only [observationFields, readObservationFields, parseFamily_familyToString, hid, hasn, htime,
    ok_bind, hidEq, hasnEq]
  refine ⟨_, rfl, h.peers_iff, ?_, rfl, rfl, h.saw.2⟩
  show reading.observations ++ [o] = observations ++ [o]
  rw [h.observations_eq]

/-- An empty line changes nothing but the line number. -/
theorem readLine_blank {s : Section} {peers : List (PeerId × PeerInfo)}
    {observations : List SnapshotObservation} {reading : Reading}
    (h : HasRead s peers observations reading) :
    ∃ reading', readLine reading [] = .ok reading' ∧ HasRead s peers observations reading' :=
  ⟨_, rfl, h.peers_iff, h.observations_eq, h.section_eq, h.saw⟩

theorem readLine_section {s s' : Section} {line : Bytes}
    (hs' : (line = bytes "[peers]" ∧ s' = .peers) ∨
      (line = bytes "[observations]" ∧ s' = .observations))
    {peers : List (PeerId × PeerInfo)} {observations : List SnapshotObservation}
    {reading : Reading} (h : HasRead s peers observations reading) :
    ∃ reading', readLine reading line = .ok reading' ∧ HasRead s' peers observations reading' := by
  have hsaw' : ¬ reading.sawHeader = false := by
    rw [h.saw.2]
    decide
  rcases hs' with ⟨rfl, rfl⟩ | ⟨rfl, rfl⟩
  · have htrim : trim (bytes "[peers]") = bytes "[peers]" := by decide
    unfold readLine readContent
    dsimp only
    rw [htrim, if_neg (by decide), if_neg hsaw', if_pos rfl]
    exact ⟨_, rfl, h.peers_iff, h.observations_eq, rfl, rfl, h.saw.2⟩
  · have htrim : trim (bytes "[observations]") = bytes "[observations]" := by decide
    unfold readLine readContent
    dsimp only
    rw [htrim, if_neg (by decide), if_neg hsaw', if_neg (by decide), if_pos rfl]
    exact ⟨_, rfl, h.peers_iff, h.observations_eq, rfl, rfl, h.saw.2⟩

/-- The loop over written peer lines. -/
theorem foldlM_peerLines {observations : List SnapshotObservation} :
    ∀ {todo done : List (PeerId × PeerInfo)}, ((done ++ todo).map Prod.fst).Nodup →
      (∀ peer ∈ todo, Plain peer.2) → ∀ {reading : Reading},
      HasRead .peers done observations reading →
      ∃ reading', (todo.map peerLine).foldlM readLine reading = .ok reading' ∧
        HasRead .peers (done ++ todo) observations reading' := by
  intro todo
  induction todo with
  | nil =>
    intro done _ _ reading h
    rw [List.append_nil]
    exact ⟨reading, rfl, h⟩
  | cons peer todo ih =>
    intro done hnodup hplain reading h
    -- the ids are distinct, so the duplicate check of the code does not fire
    have hnew : ∀ p, (peer.1, p) ∉ done := by
      intro p hmem
      rw [List.map_append, List.map_cons] at hnodup
      exact (List.nodup_append.mp hnodup).2.2 peer.1 (List.mem_map.mpr ⟨_, hmem, rfl⟩) peer.1
        List.mem_cons_self rfl
    obtain ⟨reading₁, h₁, hread₁⟩ := readLine_peerLine (hplain peer List.mem_cons_self) h hnew
    rw [← List.singleton_append, ← List.append_assoc] at hnodup ⊢
    obtain ⟨reading₂, h₂, hread₂⟩ :=
      ih hnodup (fun p hp => hplain p (List.mem_cons_of_mem _ hp)) hread₁
    refine ⟨reading₂, ?_, hread₂⟩
    rw [List.singleton_append, List.map_cons, List.foldlM_cons, h₁, ok_bind, h₂]

/-- The loop over written observation lines. -/
theorem foldlM_observationLines {peers : List (PeerId × PeerInfo)} :
    ∀ {todo done : List SnapshotObservation}, (∀ o ∈ todo, PlainText o) →
      ∀ {reading : Reading}, HasRead .observations peers done reading →
      ∃ reading', (todo.map observationLine).foldlM readLine reading = .ok reading' ∧
        HasRead .observations peers (done ++ todo) reading' := by
  intro todo
  induction todo with
  | nil =>
    intro done _ reading h
    rw [List.append_nil]
    exact ⟨reading, rfl, h⟩
  | cons o todo ih =>
    intro done hplain reading h
    obtain ⟨reading₁, h₁, hread₁⟩ := readLine_observationLine (hplain o List.mem_cons_self) h
    obtain ⟨reading₂, h₂, hread₂⟩ :=
      ih (fun o ho => hplain o (List.mem_cons_of_mem _ ho)) hread₁
    refine ⟨reading₂, ?_, ?_⟩
    · rw [List.map_cons, List.foldlM_cons, h₁, ok_bind, h₂]
    · rwa [List.append_assoc, List.singleton_append] at hread₂

/-- No line that is written holds a newline. -/
theorem newline_notMem_snapshotLines {peers : List (PeerId × PeerInfo)}
    {observations : List SnapshotObservation} (hpeers : ∀ peer ∈ peers, Plain peer.2)
    (hobs : ∀ o ∈ observations, PlainText o) :
    ∀ line ∈ snapshotLines peers observations, newline ∉ line := by
  intro line hline
  simp only [snapshotLines, List.mem_append, List.mem_cons, List.not_mem_nil, or_false,
    List.mem_map] at hline
  rcases hline with (((h | h | h) | ⟨peer, hpeer, rfl⟩) | h | h) | ⟨o, ho, rfl⟩
  · rw [h]
    decide
  · rw [h]
    decide
  · rw [h]
    decide
  · exact newline_notMem_peerLine (hpeers peer hpeer)
  · rw [h]
    decide
  · rw [h]
    decide
  · exact newline_notMem_observationLine (hobs o ho)

theorem readLine_header : readLine {} snapshotHeader =
    .ok { lineNumber := 1, sawAnyContent := true, sawHeader := true } := by
  have htrim : trim snapshotHeader = snapshotHeader := by decide
  unfold readLine
  dsimp only
  rw [htrim, if_neg (by decide), if_pos rfl, if_neg (by simp)]
  rfl

/-- **Reading what was written** gives the peers and the observations back, in
their order. -/
theorem readSnapshot_snapshotText {peers : List (PeerId × PeerInfo)}
    {observations : List SnapshotObservation} (hids : (peers.map Prod.fst).Nodup)
    (hpeers : ∀ peer ∈ peers, Plain peer.2) (hobs : ∀ o ∈ observations, PlainText o) :
    ∃ reading, readSnapshot (snapshotText peers observations) = .ok reading ∧
      HasRead .observations peers observations reading := by
  unfold readSnapshot
  rw [snapshotText_eq_unlines, getLines_unlines _ (newline_notMem_snapshotLines hpeers hobs)]
  -- the header line, then the loop; the reading after each part is named by its number
  have h₁ : HasRead .none [] []
      { lineNumber := 1, sawAnyContent := true, sawHeader := true } :=
    ⟨fun i p => ⟨fun h => (by cases h), fun h => (by cases h)⟩, rfl, rfl, rfl, rfl⟩
  obtain ⟨r₂, e₂, h₂⟩ := readLine_blank h₁
  obtain ⟨r₃, e₃, h₃⟩ := readLine_section (Or.inl ⟨rfl, rfl⟩) h₂
  obtain ⟨r₄, e₄, h₄⟩ := foldlM_peerLines (List.nil_append peers ▸ hids) hpeers h₃
  rw [List.nil_append] at h₄
  obtain ⟨r₅, e₅, h₅⟩ := readLine_blank h₄
  obtain ⟨r₆, e₆, h₆⟩ := readLine_section (Or.inr ⟨rfl, rfl⟩) h₅
  obtain ⟨r₇, e₇, h₇⟩ := foldlM_observationLines hobs h₆
  rw [List.nil_append] at h₇
  refine ⟨r₇, ?_, h₇⟩
  unfold snapshotLines
  simp only [List.foldlM_append, List.foldlM_cons, List.foldlM_nil, readLine_header, e₂, e₃, e₄, e₅, e₆,
    e₇, ok_bind, pure_eq_ok]

end ASNPrefixMap.Snapshot
