import ASNPrefixMap.Program.Tables

/-!
# Replays

A replay ingests the nonempty lines of its file, from the first on and each
once, up to `replayLength`: where the lines end, or `max_messages` is reached,
or a stop is asked for. A replay reads the flags twice a round, before and after
a message is read, so the moment of a stop is known: `2 * n` before message `n`,
and `2 * n + 1` before it is ingested, when a signal drops it
(`mainLoop_replay_start`). In particular a replay ends, and how it ends is
decided by its messages (`replay_outcome`): well, if each of them can be
ingested, and at the first that cannot otherwise.

The lines are those the file holds when it is opened. The only file a run writes
before its loop is over is that of its statistics, so it is taken that the input
is another.
-/

namespace ASNPrefixMap.Program

open Lib Prefix Peer Routing Stats Ingest Snapshot Source
open ASNPrefixMap.Parser

variable {s : Surroundings} {cfg : Config}

/-- A replay that has ingested `n` messages ingests no other. -/
def ReplayStops (s : Surroundings) (cfg : Config) (input : List Bytes) (n : Nat) : Prop :=
  s.shutdownRequested cfg (2 * n) = true ∨ s.flags.signalled (2 * n + 1) = true ∨
    input.length ≤ n ∨ (cfg.maxMessages ≠ 0 ∧ cfg.maxMessages.toNat ≤ n)

instance (s : Surroundings) (cfg : Config) (input : List Bytes) (n : Nat) :
    Decidable (ReplayStops s cfg input n) :=
  inferInstanceAs (Decidable (_ ∨ _ ∨ _ ∨ _))

/-- At the latest, a replay stops at the end of its lines. -/
theorem exists_replayStops (s : Surroundings) (cfg : Config) (input : List Bytes) :
    ∃ n, ReplayStops s cfg input n := ⟨input.length, Or.inr (Or.inr (Or.inl (Nat.le_refl _)))⟩

/-- How many messages a replay ingests if none throws. -/
def replayLength (s : Surroundings) (cfg : Config) (input : List Bytes) : Nat :=
  Nat.find (exists_replayStops s cfg input)

/-! ## One round -/

/-- The loop head after `n` messages of a replay. -/
def ReplayHead (s : Surroundings) (cfg : Config) (start : World) (input : List Bytes) (n : Nat)
    (state : MainState) : Prop :=
  Reached s cfg start (input.take n) state.sampler ∧ state.readings = 2 * n ∧
    ∃ source, state.source = .fileJsonl source ∧ source.messages = input.drop n

theorem readFlag_at {I : Sampler → BgpSource → Prop} {E : Exception → MainState → Prop}
    (flag : Nat → Bool) (reading : Nat) :
    Triple (fun state => state.readings = reading ∧ I state.sampler state.source) (readFlag flag)
      (fun set state => set = flag reading ∧ state.readings = reading + 1 ∧
        I state.sampler state.source) E := by
  rintro state ⟨hreading, hstate⟩
  exact ⟨congrArg flag hreading, congrArg (· + 1) hreading, hstate⟩

/-- A replay source returns the next message at once and reads no flag. -/
theorem nextMessage_replay {R : Sampler → Nat → Prop} {E : Exception → MainState → Prop} (fuel : Nat)
    (rest : List Bytes) :
    Triple (fun state => R state.sampler state.readings ∧
        ∃ source, state.source = .fileJsonl source ∧ source.messages = rest)
      (nextMessage fuel)
      (fun result state => result = .returned rest.head? ∧ R state.sampler state.readings ∧
        ∃ source, state.source = .fileJsonl source ∧ source.messages = rest.tail) E := by
  rintro ⟨source, sampler, readings⟩ ⟨hR, replay, hsource, hrest⟩
  cases hsource
  obtain ⟨hhead, htail⟩ := replay.nextMessage_spec
  rw [hrest] at hhead htail
  exact ⟨congrArg Progress.returned hhead, hR, _, rfl, htail⟩

section Run

variable {start : World} {input : List Bytes}

/-- The end of a replay: it has stopped where it was to stop, or a message
before that has thrown. -/
def Replayed (s : Surroundings) (cfg : Config) (start : World) (input : List Bytes)
    (progress : Progress Unit) (state : MainState) : Prop :=
  progress = .returned () ∧
    Reached s cfg start (input.take (replayLength s cfg input)) state.sampler ∧
    Dropped s (.file input) (input.take (replayLength s cfg input)) state.source

/-- A message that was to be ingested has thrown, and all before it have been
ingested. -/
def ReplayThrown (s : Surroundings) (cfg : Config) (start : World) (input : List Bytes)
    (e : Exception) (state : MainState) : Prop :=
  ∃ n message, n < replayLength s cfg input ∧ input[n]? = some message ∧
    Failed s cfg start (input.take n) message e state.sampler

/-- The length of a replay is the first place at which it stops. -/
theorem replayLength_eq {n : Nat} (hbefore : ∀ k < n, ¬ ReplayStops s cfg input k)
    (hstops : ReplayStops s cfg input n) : replayLength s cfg input = n :=
  (Nat.find_eq_iff _).mpr ⟨hstops, hbefore⟩

/-- It is longer than the places at which it does not. -/
theorem lt_replayLength {n : Nat} (h : ∀ k ≤ n, ¬ ReplayStops s cfg input k) :
    n < replayLength s cfg input :=
  (Nat.lt_find_iff _ n).mpr h

/-- The loop of a replay from one of its heads, with a bound above what is left
of the file. -/
theorem mainLoop_replay : ∀ (fuel n : Nat), input.length < n + fuel →
    (∀ k < n, ¬ ReplayStops s cfg input k) → (cfg.maxMessages ≠ 0 → n < cfg.maxMessages.toNat) →
    Triple (ReplayHead s cfg start input n) (mainLoop s cfg fuel)
      (Replayed s cfg start input) (ReplayThrown s cfg start input) := by
  intro fuel
  induction fuel with
  | zero =>
    -- past the end of the file there is no head
    intro n hfuel hbefore _
    exact absurd (Or.inr (Or.inr (Or.inl (Nat.le_refl _)))) (hbefore input.length (by omega))
  | succ fuel ih =>
    intro n hfuel hbefore hmax
    have hstop : ReplayStops s cfg input n → ∀ state,
        Reached s cfg start (input.take n) state.sampler →
        Dropped s (.file input) (input.take n) state.source →
        Replayed s cfg start input (.returned ()) state := by
      intro hstops state hreached hdropped
      rw [Replayed, replayLength_eq hbefore hstops]
      exact ⟨rfl, hreached, hdropped⟩
    unfold mainLoop
    refine ((readFlag_at (I := fun sampler source => Reached s cfg start (input.take n) sampler ∧
      ∃ replay, source = .fileJsonl replay ∧ replay.messages = input.drop n) _ (2 * n)).conseq
        (fun state h => ⟨h.2.1, h.1, h.2.2⟩) (fun _ _ h => h) fun _ _ h => h).bind fun requested => ?_
    refine Triple.of_and fun hrequested => ?_
    refine Triple.ite (fun hset => Triple.pure fun state h => ?_) fun hunset => ?_
    · obtain ⟨-, hreached, replay, hsource, hrest⟩ := h
      refine hstop (Or.inl (hrequested ▸ hset)) state hreached (dropped_nil ?_)
      rw [hsource, HandedOut, hrest, List.take_append_drop]
    refine ((nextMessage_replay (R := fun sampler readings =>
      Reached s cfg start (input.take n) sampler ∧ readings = 2 * n + 1) fuel (input.drop n)).conseq
        (fun state h => ⟨⟨h.2.1, h.1⟩, h.2.2⟩) (fun _ _ h => h) fun _ _ h => h).bind fun result => ?_
    refine Triple.of_and fun hresult => ?_
    rw [List.head?_drop] at hresult
    cases hmessage : input[n]? with
    | none =>
      rw [hmessage] at hresult
      rw [hresult]
      have hend : input.length ≤ n := List.getElem?_eq_none_iff.mp hmessage
      refine Triple.pure fun state h => ?_
      obtain ⟨⟨hreached, -⟩, replay, hsource, hrest⟩ := h
      refine hstop (Or.inr (Or.inr (Or.inl hend))) state hreached (dropped_nil ?_)
      rw [hsource, HandedOut, hrest, List.drop_eq_nil_of_le hend, List.take_of_length_le hend]
      exact List.append_nil input
    | some message =>
      rw [hmessage] at hresult
      rw [hresult]
      have htake : input.take n ++ [message] = input.take (n + 1) := by
        rw [List.take_add_one, hmessage]
        rfl
      refine ((readFlag_at (I := fun sampler source => Reached s cfg start (input.take n) sampler ∧
        ∃ replay, source = .fileJsonl replay ∧ replay.messages = (input.drop n).tail) _
          (2 * n + 1)).conseq (fun state h => ⟨h.1.2, h.1.1, h.2⟩) (fun _ _ h => h)
            fun _ _ h => h).bind fun signalled => ?_
      refine Triple.of_and fun hsignalled => ?_
      refine Triple.ite (fun hset => Triple.pure fun state h => ?_) fun hclear => ?_
      · -- the message just read is dropped
        obtain ⟨-, hreached, replay, hsource, hrest⟩ := h
        refine hstop (Or.inr (Or.inl (hsignalled ▸ hset))) state hreached
          ⟨[message], ?_, Or.inr ⟨⟨message, rfl⟩, 2 * n + 1, hsignalled ▸ hset⟩⟩
        rw [hsource, HandedOut, hrest, htake, List.tail_drop, List.take_append_drop]
      -- nothing stops the replay before this message
      have hlt : n < input.length := by
        by_contra hge
        rw [List.getElem?_eq_none_iff.mpr (by omega)] at hmessage
        cases hmessage
      have hgoes : ∀ k ≤ n, ¬ ReplayStops s cfg input k := by
        intro k hk
        rcases Nat.lt_or_eq_of_le hk with hkn | rfl
        · exact hbefore k hkn
        · rintro (h | h | h | ⟨h, hle⟩)
          · exact hunset (hrequested ▸ h)
          · exact hclear (hsignalled ▸ h)
          · omega
          · exact absurd (hmax h) (by omega)
      refine ((ingestRound_triple (fun source readings => readings = 2 * n + 2 ∧
        ∃ replay, source = .fileJsonl replay ∧ replay.messages = (input.drop n).tail)
          (input.take n) message).conseq (fun state h => ⟨h.2.1, h.1, h.2.2⟩) (fun _ _ h => h)
            fun e state h => ⟨n, message, lt_replayLength hgoes, hmessage, h.1⟩).bind fun _ => ?_
      rw [htake, List.tail_drop]
      refine Triple.get_bind fun state h => ?_
      have hrounds : state.rounds = n + 1 := by
        refine h.1.rounds.trans ?_
        rw [List.length_take]
        omega
      refine Triple.ite (fun henough => Triple.pure fun state' heq => ?_) fun hmore => ?_
      · -- the last message that was allowed
        rw [heq]
        obtain ⟨hreached, -, replay, hsource, hrest⟩ := h
        rw [Replayed, replayLength_eq (n := n + 1) (fun k hk => hgoes k (by omega))
          (Or.inr (Or.inr (Or.inr ⟨henough.1, hrounds ▸ henough.2⟩)))]
        refine ⟨rfl, hreached, dropped_nil ?_⟩
        rw [hsource, HandedOut, hrest, List.take_append_drop]
      · refine (ih (n + 1) (by omega) (fun k hk => hgoes k (by omega)) fun hne => ?_).conseq
          (fun state' heq => ?_) (fun _ _ h => h) fun _ _ h => h
        · by_contra hge
          exact hmore ⟨hne, by omega⟩
        · rw [heq]
          exact ⟨h.1, h.2.1, h.2.2⟩

/-- **A replay ingests exactly the messages it should**, with any bound above
their number. -/
theorem mainLoop_replay_start (s : Surroundings) (cfg : Config) (store : Store) (source : FileJsonlSource)
    {fuel : Nat} (hfuel : source.messages.length < fuel) :
    Triple (fun state => state = startState s cfg store (.fileJsonl source)) (mainLoop s cfg fuel)
      (Replayed s cfg (startWorld s cfg store) source.messages)
      (ReplayThrown s cfg (startWorld s cfg store) source.messages) := by
  have hfirst : source.messages.length < 0 + fuel := by rw [Nat.zero_add]; exact hfuel
  have hallowed : cfg.maxMessages ≠ 0 → 0 < cfg.maxMessages.toNat := by
    intro hne
    have hpos : cfg.maxMessages.toNat ≠ 0 := fun h => hne (UInt64.toNat_inj.mp h)
    omega
  refine (mainLoop_replay fuel 0 hfirst (fun k hk => absurd hk (Nat.not_lt_zero k)) hallowed).conseq
    (fun state heq => ?_) (fun _ _ h => h) fun _ _ h => h
  rw [heq]
  exact ⟨reached_start s cfg store _, rfl, source, rfl, rfl⟩

end Run

/-! ## The outcome -/

/-- Every message can be ingested: `json::parse` does not throw past the parser,
and `parse_prefix` accepts every prefix text. -/
def Usable (s : Surroundings) (texts : List Bytes) : Prop :=
  ∀ text ∈ texts, ¬ Overflows s.jsonParse text ∧ PrefixesAccepted s.jsonParse s.net text

theorem Reached.usable {start : World} {texts : List Bytes} {sampler : Sampler}
    (h : Reached s cfg start texts sampler) : Usable s texts := by
  obtain ⟨log, hloop, rfl⟩ := h.loop
  exact hloop.usable

/-- A message that has thrown could not be ingested. -/
theorem ReplayThrown.not_usable {start : World} {input : List Bytes} {e : Exception}
    {state : MainState} (h : ReplayThrown s cfg start input e state) :
    ¬ Usable s (input.take (replayLength s cfg input)) := by
  obtain ⟨n, message, hlt, hmessage, before, -, hrun, -⟩ := h
  intro husable
  have hmem : message ∈ input.take (replayLength s cfg input) := by
    refine List.mem_of_getElem? (i := n) ?_
    rw [List.getElem?_take_of_lt hlt]
    exact hmessage
  obtain ⟨hover, hacc⟩ := husable message hmem
  obtain ⟨world, hok, -⟩ := @survives_of_usable s.jsonParse s.net
    (s.orders.round (input.take n).length) message hover hacc before.world
  rw [hrun] at hok
  cases hok

section Outcome

variable {store : Store} {files : Files} {source : FileJsonlSource} {fuel : Nat} {before : List Bytes}

/-- A replay whose messages can be ingested ends well, if the snapshot can be
written. -/
theorem replay_succeeds (hnet : s.net.RoundTrips) (hprepare : prepare s files = .ok (cfg, store))
    (hstart : StartsFrom s before (source.messages.take (replayLength s cfg source.messages)) store)
    (hinput : cfg.inputFile ≠ s.makeStatsFilename)
    (hsource : createSource s cfg files = .ok (.fileJsonl source))
    (hstats : cfg.statsOutputEnabled = true → files.writable s.makeStatsFilename = true)
    (hfuel : source.messages.length < fuel)
    (husable : Usable s (source.messages.take (replayLength s cfg source.messages)))
    (hopens : files.writable cfg.snapshotOutput = true) :
    ∃ state files', (main s fuel).run files = .ok (.returned ()) files' ∧
      Ingested s fuel files cfg store
        (source.messages.take (replayLength s cfg source.messages)) state := by
  have hreplay := mainLoop_replay_start s cfg store source hfuel
  cases hloop : (mainLoop s cfg fuel).run (startState s cfg store (.fileJsonl source)) with
  | error e state => exact absurd husable (hreplay.error rfl hloop).not_usable
  | ok progress state =>
    obtain ⟨rfl, hreached, hdropped⟩ := hreplay.ok rfl hloop
    have hlooped : Looped s fuel files cfg store (.fileJsonl source) (.ok (.returned ()) state) :=
      ⟨hprepare, (createSource_withStats hinput files []).trans hsource, hloop⟩
    obtain ⟨S, limit, -, hinv, -⟩ := hreached.holds hstart
    obtain ⟨peers, observations, stats, hsave, -⟩ := @saveSnapshot_spec s.net s.orders.save hnet S limit
      (storeOf state.sampler) hinv cfg.snapshotOutput
    obtain ⟨files', hrun⟩ := main_of_looped hlooped hstats (hopens ▸ ⟨_, hsave⟩)
    exact ⟨state, files', hrun, ⟨_, .file source.messages, hlooped, rfl, hdropped⟩, hreached⟩

/-- Otherwise it fails. -/
theorem replay_fails (hprepare : prepare s files = .ok (cfg, store))
    (hinput : cfg.inputFile ≠ s.makeStatsFilename)
    (hsource : createSource s cfg files = .ok (.fileJsonl source))
    (hfuel : source.messages.length < fuel)
    (hnot : ¬ (Usable s (source.messages.take (replayLength s cfg source.messages)) ∧
      files.writable cfg.snapshotOutput = true)) :
    ∃ e files', (main s fuel).run files = .error e files' := by
  have hreplay := mainLoop_replay_start s cfg store source hfuel
  have hlooped : Looped s fuel files cfg store (.fileJsonl source)
      ((mainLoop s cfg fuel).run (startState s cfg store (.fileJsonl source))) :=
    ⟨hprepare, (createSource_withStats hinput files []).trans hsource, rfl⟩
  have hending := main_ending s fuel files
  generalize (main s fuel).run files = result at hending
  cases hending with
  | running h =>
    have hprogress := (hreplay.ok rfl (hlooped.unique h).2.2.symm).1
    cases hprogress
  | saved h hsave _ =>
    obtain ⟨rfl, -, hended⟩ := hlooped.unique h
    obtain ⟨-, hreached, -⟩ := hreplay.ok rfl hended.symm
    refine absurd ⟨hreached.usable, ?_⟩ hnot
    by_contra hclosed
    rw [Bool.not_eq_true] at hclosed
    rw [hclosed] at hsave
    exact saveSnapshot_closed hsave
  | unprepared e _ => exact ⟨e, _, rfl⟩
  | unopened e _ _ _ => exact ⟨e, _, rfl⟩
  | noSource e _ _ => exact ⟨e, _, rfl⟩
  | thrown _ => exact ⟨_, _, rfl⟩
  | unsaved e _ _ => exact ⟨e, _, rfl⟩

/-- **The outcome of a replay.** The messages up to `replayLength` decide: if
each can be ingested and the snapshot can be written, the exit code is 0, and
snapshot and tables are theirs; if not, the exit code is 1, and all outputs are
as they were. The input is not the statistics file of the run, which grows while
it is read. -/
theorem replay_outcome (hnet : s.net.RoundTrips) (htells : s.net.TellsApart)
    (hprepare : prepare s files = .ok (cfg, store)) (hfresh : StartsFresh cfg files)
    (hinput : cfg.inputFile ≠ s.makeStatsFilename)
    (hsource : createSource s cfg files = .ok (.fileJsonl source))
    (hstats : cfg.statsOutputEnabled = true → files.writable s.makeStatsFilename = true)
    (hapart : OutputsApart cfg) (hlen : source.messages.length < 2 ^ 32)
    (hfuel : source.messages.length < fuel) :
    (Usable s (source.messages.take (replayLength s cfg source.messages)) ∧
        files.writable cfg.snapshotOutput = true →
      ∃ files', runProgram s fuel files = (.returned 0, files') ∧
        Left s.jsonParse s.net (source.messages.take (replayLength s cfg source.messages)) cfg files') ∧
    (¬ (Usable s (source.messages.take (replayLength s cfg source.messages)) ∧
        files.writable cfg.snapshotOutput = true) →
      ∃ files', runProgram s fuel files = (.returned 1, files') ∧ OutputsKept s files files') := by
  have hload := loadStore_of_prepare hprepare
  rw [loadStore_of_startsFresh hfresh] at hload
  cases hload
  have hshort : (source.messages.take (replayLength s cfg source.messages)).length < 2 ^ 32 :=
    Nat.lt_of_le_of_lt (List.length_take_le' _ _) hlen
  have hstart := startsFrom_empty s hshort
  constructor
  · rintro ⟨husable, hopens⟩
    obtain ⟨state, files', hrun, hingested⟩ :=
      replay_succeeds hnet hprepare hstart hinput hsource hstats hfuel husable hopens
    refine ⟨files', ?_, hingested.left hrun hapart htells hstart⟩
    unfold runProgram
    rw [hrun]
  · intro hnot
    obtain ⟨e, files', hrun⟩ := replay_fails hprepare hinput hsource hfuel hnot
    refine ⟨files', ?_, main_error hrun⟩
    unfold runProgram
    rw [hrun]

end Outcome

/-! ## Quiet replays -/

/-- The messages of a file are the nonempty lines that were written to it. -/
theorem createSource_lines {files : Files} {messages : List Bytes}
    (hsource : cfg.source = bytes "file_jsonl")
    (hinput : files.opened cfg.inputFile = some (unlines messages))
    (h : ∀ message ∈ messages, message ≠ [] ∧ newline ∉ message) :
    ∃ source, createSource s cfg files = .ok (.fileJsonl source) ∧ source.messages = messages := by
  refine ⟨⟨getLines (unlines messages)⟩, ?_, ?_⟩
  · unfold createSource
    rw [if_pos hsource, hinput]
    rfl
  · unfold FileJsonlSource.messages
    rw [getLines_unlines _ fun message hmem => (h message hmem).2, List.filter_eq_self]
    exact fun message hmem => decide_eq_true (h message hmem).1

theorem replayLength_quiet (jsonParse : JsonParse) (input : List Bytes) :
    replayLength (quiet jsonParse) quietConfig input = input.length := by
  refine replayLength_eq (fun k hk hstops => ?_) (Or.inr (Or.inr (Or.inl (Nat.le_refl _))))
  rcases hstops with h | h | h | h
  · cases h
  · cases h
  · omega
  · exact h.1 rfl

theorem quietConfig_apart : OutputsApart quietConfig := by
  constructor <;> decide

theorem twoPeers_lines : ∀ message ∈ [rrc00Text, rrc10Text], message ≠ [] ∧ newline ∉ message := by
  decide +kernel

theorem replay_outcome_two_peers :
    ∃ files', runProgram (quiet twoPeersParse) 3 (quietFiles [rrc00Text, rrc10Text]) =
        (.returned 0, files') ∧
      Left twoPeersParse Inet.standard [rrc00Text, rrc10Text] quietConfig files' := by
  have hfresh : StartsFresh quietConfig (quietFiles [rrc00Text, rrc10Text]) := by
    rintro ⟨-, hexist⟩
    cases hexist
  obtain ⟨source, hsource, hmessages⟩ := @createSource_lines (quiet twoPeersParse) quietConfig
    (quietFiles [rrc00Text, rrc10Text]) _ rfl rfl twoPeers_lines
  have htexts : source.messages.take (replayLength (quiet twoPeersParse) quietConfig source.messages) =
      [rrc00Text, rrc10Text] := by
    rw [replayLength_quiet, List.take_length, hmessages]
  have houtcome := (@replay_outcome (quiet twoPeersParse) quietConfig {}
    (quietFiles [rrc00Text, rrc10Text]) source 3 standard_roundTrips standard_prints.tellsApart
    (prepare_quiet _ _) hfresh (inputFile_ne_stats _) hsource (fun _ => rfl) quietConfig_apart
    (by rw [hmessages]; decide) (by rw [hmessages]; decide)).1
  rw [htexts] at houtcome
  exact houtcome ⟨twoPeers_usable, rfl⟩

end ASNPrefixMap.Program
