import ASNPrefixMap.Program.Main
import ASNPrefixMap.Source.Session

/-!
# What the loop does

Whatever the source, the loop ingests the messages it is handed, in order, one
in each round: its objects are those of a run in the sense of `MainLoop` and of
`Loop` (`Reached`), so what is known of these runs holds of the program. A
message that was handed out and not ingested is the last one, dropped for a
signal or ended by an exception (`mainLoop_triple`). `HandedOut` says what a
source has given away: of a file the first nonempty lines, of the live source
the texts of its successful reads.
-/

namespace ASNPrefixMap.Program

open Lib Prefix Peer Routing Stats Ingest Snapshot Source
open ASNPrefixMap.Parser

variable {s : Surroundings} {cfg : Config}

/-! ## The objects -/

/-- The objects at a loop head, after some messages. One fact about them comes
from each of the two descriptions of a run, with samples and with the events in
its log; `rounds` ties both to the number of messages. -/
structure Reached (s : Surroundings) (cfg : Config) (start : World) (texts : List Bytes)
    (sampler : Sampler) : Prop where
  rounds : sampler.world.stats.rawMessagesReceived = texts.length
  mainLoop : MainLoop s.jsonParse s.net cfg.statsOutputEnabled cfg.statsIntervalMs.toNat start
    (headAt s.clocks.armedAt s.clocks.round texts.length) sampler
  loop : ∃ log, Loop s.jsonParse s.net start log sampler.world ∧ log.texts = texts

/-- A message has ended the loop with an exception. -/
def Failed (s : Surroundings) (cfg : Config) (start : World) (texts : List Bytes) (message : Bytes)
    (e : Exception) (sampler : Sampler) : Prop :=
  ∃ before, Reached s cfg start texts before ∧
    (ingestMessage s.jsonParse s.net (s.orders.round texts.length) message).run before.world =
      .error e sampler.world ∧
    sampler = { before with world := sampler.world }

/-- A sample changes the tracker alone. -/
theorem sampled_frame (world : World) (now : Rat) (timestampMs : UInt64) :
    (world.sampled now timestampMs).registry = world.registry ∧
      (world.sampled now timestampMs).state = world.state ∧
      (world.sampled now timestampMs).stats = world.stats := ⟨rfl, rfl, rfl⟩

/-- After a round the objects are as they were, or sampled. -/
theorem periodicSample_world (statsOutputEnabled : Bool) (statsIntervalMs : Nat) (clock : Clock)
    (sampler : Sampler) :
    (sampler.periodicSample statsOutputEnabled statsIntervalMs clock).world = sampler.world ∨
      (sampler.periodicSample statsOutputEnabled statsIntervalMs clock).world =
        sampler.world.sampled clock.sampledAt clock.timestampMs := by
  unfold Sampler.periodicSample
  split
  next => exact Or.inr (takeSample_rows sampler clock.sampledAt clock.timestampMs).2
  next => exact Or.inl rfl

/-- **The step**: a round that ingests a message leads from one loop head to the
next. -/
theorem Reached.round {start : World} {texts : List Bytes} {sampler : Sampler} {message : Bytes}
    {world : World} (h : Reached s cfg start texts sampler)
    (hrun : (ingestMessage s.jsonParse s.net (s.orders.round texts.length) message).run
      sampler.world = .ok () world) :
    Reached s cfg start (texts ++ [message])
      ({ sampler with world := world }.periodicSample cfg.statsOutputEnabled
        cfg.statsIntervalMs.toNat (s.clocks.round texts.length)) := by
  have hlen : (texts ++ [message]).length = texts.length + 1 := by
    rw [List.length_append, List.length_singleton]
  have hraw : world.stats.rawMessagesReceived = (texts ++ [message]).length := by
    rw [(ingestMessage_routed hrun).1.stats, hlen, ← h.rounds]
  obtain ⟨log, hloop, htexts⟩ := h.loop
  have hworld := periodicSample_world cfg.statsOutputEnabled cfg.statsIntervalMs.toNat
    (s.clocks.round texts.length) { sampler with world := world }
  refine { rounds := ?_, mainLoop := ?_, loop := ?_ }
  · rcases hworld with heq | heq
    · rw [heq]
      exact hraw
    · rw [heq, (sampled_frame _ _ _).2.2]
      exact hraw
  · rw [hlen]
    exact .message (s.orders.round texts.length) message (s.clocks.round texts.length) h.mainLoop hrun
      (s.clocks.checkedAt_ge texts.length)
  · rcases hworld with heq | heq
    · rw [heq]
      exact ⟨_, .message _ message hloop hrun, congrArg (· ++ [message]) htexts⟩
    · rw [heq]
      exact ⟨_, .sample _ _ (.message _ message hloop hrun), congrArg (· ++ [message]) htexts⟩

/-- The loop begins at a loop head, before all messages. -/
theorem reached_start (s : Surroundings) (cfg : Config) (store : Store) (source : BgpSource) :
    Reached s cfg (startWorld s cfg store) [] (startState s cfg store source).sampler where
  rounds := rfl
  mainLoop := by
    refine .start s.clocks.armedAt ?_
    obtain ⟨asns, v4, v6, activeV4, activeV6, hseeded⟩ := seedFromState_fields s.orders.seed
      store.state (.start (plateauSettings s cfg) s.clocks.startedAt)
    have hworld : (startWorld s cfg store).growthStats =
        (GrowthStatsTracker.start (plateauSettings s cfg) s.clocks.startedAt).seedFromState
          s.orders.seed store.state := rfl
    rw [hworld, hseeded]
    exact s.clocks.armedAt_ge
  loop := ⟨{}, .start, rfl⟩

/-! ## The source -/

/-- Where messages come from. -/
inductive Feed
  | file (messages : List Bytes)
  | live

/-- What a source has handed out. -/
def HandedOut : Feed → List Bytes → BgpSource → Prop
  | .file messages, texts, .fileJsonl source => texts ++ source.messages = messages
  | .live, texts, .risLiveWs machine => Safe texts machine ∧ Idle machine
  | _, _, _ => False

theorem handedOut_start {files : Files} {source : BgpSource}
    (h : createSource s cfg files = .ok source) : ∃ feed, HandedOut feed [] source := by
  unfold createSource at h
  split at h
  next =>
    obtain ⟨replay, -, hsource⟩ := bind_eq_ok.mp h
    cases hsource
    exact ⟨.file replay.messages, rfl⟩
  next =>
    split at h
    next =>
      cases h
      exact ⟨.live, ⟨everyEvent_nil _, rfl, fun _ hevent => absurd hevent List.not_mem_nil,
        fun _ hws => by cases hws⟩, Or.inl ⟨rfl, rfl⟩⟩
    next => cases h

/-- What the result of a call adds to what has been handed out. -/
def Progress.texts : Progress (Option Bytes) → List Bytes
  | .returned (some json) => [json]
  | _ => []

/-- The source's invariant is not about how often the flags have been read. -/
theorem safe_idle_withChecks {texts : List Bytes} {machine : Machine}
    (h : Safe texts machine ∧ Idle machine) (checks : Nat) :
    Safe texts { machine with checks := checks } ∧ Idle { machine with checks := checks } := by
  obtain ⟨hsafe, hidle⟩ := h
  refine ⟨⟨hsafe.allowed, hsafe.payloads, hsafe.numbered, hsafe.owned⟩, ?_⟩
  rcases hidle with hdown | ⟨stream, hup⟩
  · exact Or.inl ⟨hdown.connected, hdown.websocket⟩
  · exact Or.inr ⟨stream, hup.connected, hup.websocket, hup.subscribed⟩

/-- A call of the live source, with the flags read so far. -/
theorem nextMessage_live {P : Machine → Prop} {Q : Progress (Option Bytes) → Machine → Prop}
    {fuel : Nat} (hcall : Triple P (Source.nextMessage fuel) Q fun _ _ => False) {machine : Machine}
    {readings : Nat} (h : P { machine with checks := readings }) (sampler : Sampler) :
    ∃ json machine', (nextMessage fuel).run ⟨.risLiveWs machine, sampler, readings⟩ =
        .ok json ⟨.risLiveWs machine', sampler, machine'.checks⟩ ∧ Q json machine' := by
  have hrun := hcall _ h
  cases hlive : (Source.nextMessage fuel).run { machine with checks := readings } with
  | error e machine' =>
    rw [hlive] at hrun
    exact hrun.elim
  | ok json machine' =>
    rw [hlive] at hrun
    refine ⟨json, machine', ?_, hrun⟩
    unfold nextMessage
    rw [EStateM.run_bind, EStateM.run_get]
    dsimp only
    rw [hlive]
    rfl

/-- A call hands out what it returns, and does not touch the objects. -/
theorem nextMessage_handsOut {R : Sampler → Prop} {E : Exception → MainState → Prop} (fuel : Nat)
    (feed : Feed) (texts : List Bytes) :
    Triple (fun state => R state.sampler ∧ HandedOut feed texts state.source) (nextMessage fuel)
      (fun result state => R state.sampler ∧ HandedOut feed (texts ++ Progress.texts result) state.source)
      E := by
  rintro ⟨source, sampler, readings⟩ ⟨hsampler, hsource⟩
  cases source with
  | fileJsonl source =>
    cases feed with
    | live => exact hsource.elim
    | file messages =>
      obtain ⟨hhead, htail⟩ := source.nextMessage_spec
      have hresult : texts ++ Progress.texts (.returned source.nextMessage.1) ++
          source.nextMessage.2.messages = messages := by
        rw [htail, hhead, ← show texts ++ source.messages = messages from hsource]
        cases source.messages with
        | nil => exact List.append_nil _
        | cons message messages =>
          rw [List.append_assoc]
          rfl
      exact ⟨hsampler, hresult⟩
  | risLiveWs machine =>
    cases feed with
    | file messages => exact hsource.elim
    | live =>
      obtain ⟨json, machine', hrun, hdelivered⟩ := nextMessage_live (nextMessage_triple fuel)
        (safe_idle_withChecks hsource readings) sampler
      rw [hrun]
      refine ⟨hsampler, ?_⟩
      rcases json with _ | _ | json
      · exact (List.append_nil texts).symm ▸ hdelivered
      · exact (List.append_nil texts).symm ▸ hdelivered
      · exact hdelivered

/-! ## The loop -/

section Run

variable {start : World} {feed : Feed}

/-- At a loop head everything handed out has been ingested. -/
def AtHead (s : Surroundings) (cfg : Config) (start : World) (feed : Feed) (texts : List Bytes)
    (state : MainState) : Prop :=
  Reached s cfg start texts state.sampler ∧ HandedOut feed texts state.source

/-- At most one message has been handed out beyond these, and then it was
dropped for a signal. -/
def Dropped (s : Surroundings) (feed : Feed) (texts : List Bytes) (source : BgpSource) : Prop :=
  ∃ dropped, HandedOut feed (texts ++ dropped) source ∧
    (dropped = [] ∨ (∃ message, dropped = [message]) ∧ ∃ n, s.flags.signalled n = true)

theorem dropped_nil {texts : List Bytes} {source : BgpSource} (h : HandedOut feed texts source) :
    Dropped s feed texts source := ⟨[], (List.append_nil texts).symm ▸ h, Or.inl rfl⟩

/-- The loop is over: everything handed out has been ingested, but perhaps the
last message. -/
def Stopped (s : Surroundings) (cfg : Config) (start : World) (feed : Feed)
    (state : MainState) : Prop :=
  ∃ texts, Reached s cfg start texts state.sampler ∧ Dropped s feed texts state.source

/-- The loop was ended by the message handed out last. -/
def Thrown (s : Surroundings) (cfg : Config) (start : World) (feed : Feed) (e : Exception)
    (state : MainState) : Prop :=
  ∃ texts message, Failed s cfg start texts message e state.sampler ∧
    HandedOut feed (texts ++ [message]) state.source

/-- The loop may stop at any of its heads. -/
theorem AtHead.stopped {texts : List Bytes} {state : MainState}
    (h : AtHead s cfg start feed texts state) : Stopped s cfg start feed state :=
  ⟨texts, h.1, dropped_nil h.2⟩

/-- Reading a flag touches neither the objects nor the source. -/
theorem readFlag_triple {I : Sampler → BgpSource → Prop} {E : Exception → MainState → Prop}
    (flag : Nat → Bool) :
    Triple (fun state => I state.sampler state.source) (readFlag flag)
      (fun set state => (set = true → ∃ n, flag n = true) ∧ I state.sampler state.source) E :=
  fun state h => ⟨fun hset => ⟨state.readings, hset⟩, h⟩

/-- A round ingests its message, and leaves the source and the flags alone. -/
theorem ingestRound_triple (F : BgpSource → Nat → Prop) (texts : List Bytes) (message : Bytes) :
    Triple (fun state => Reached s cfg start texts state.sampler ∧ F state.source state.readings)
      (ingestRound s cfg message)
      (fun _ state => Reached s cfg start (texts ++ [message]) state.sampler ∧
        F state.source state.readings)
      (fun e state => Failed s cfg start texts message e state.sampler ∧
        F state.source state.readings) := by
  rintro ⟨source, sampler, readings⟩ ⟨hreached, hframe⟩
  have hrounds : MainState.rounds ⟨source, sampler, readings⟩ = texts.length := hreached.rounds
  unfold ingestRound
  rw [EStateM.run_bind, EStateM.run_get]
  dsimp only
  rw [hrounds]
  cases hmessage : (ingestMessage s.jsonParse s.net (s.orders.round texts.length) message).run
      sampler.world with
  | ok _ world => exact ⟨hreached.round hmessage, hframe⟩
  | error e world => exact ⟨⟨sampler, hreached, hmessage, rfl⟩, hframe⟩

/-- **The loop**, from a loop head: it stops at one, with at most one message
dropped, or is ended by the exception of a message. -/
theorem mainLoop_triple : ∀ (fuel : Nat) (texts : List Bytes),
    Triple (AtHead s cfg start feed texts) (mainLoop s cfg fuel)
      (fun _ => Stopped s cfg start feed) (Thrown s cfg start feed) := by
  intro fuel
  induction fuel with
  | zero => exact fun texts => Triple.pure fun state h => h.stopped
  | succ fuel ih =>
    intro texts
    unfold mainLoop
    refine (readFlag_triple (I := fun sampler source => Reached s cfg start texts sampler ∧
      HandedOut feed texts source) _).bind fun requested => ?_
    refine Triple.ite (fun _ => Triple.pure fun state h => AtHead.stopped h.2) fun _ => ?_
    refine ((nextMessage_handsOut (R := Reached s cfg start texts) fuel feed texts).conseq
      (fun state h => h.2) (fun _ _ h => h) fun _ _ h => h).bind fun result => ?_
    rcases result with _ | _ | message
    · exact Triple.pure fun state h => AtHead.stopped ⟨h.1, List.append_nil texts ▸ h.2⟩
    · exact Triple.pure fun state h => AtHead.stopped ⟨h.1, List.append_nil texts ▸ h.2⟩
    · refine (readFlag_triple (I := fun sampler source => Reached s cfg start texts sampler ∧
        HandedOut feed (texts ++ [message]) source) _).bind fun signalled => ?_
      refine Triple.ite (fun hsignal => Triple.pure fun state h => ?_) fun _ => ?_
      · -- the message just read goes with the signal
        exact ⟨texts, h.2.1, [message], h.2.2, Or.inr ⟨⟨message, rfl⟩, h.1 hsignal⟩⟩
      · refine ((ingestRound_triple (fun source _ => HandedOut feed (texts ++ [message]) source) texts
          message).conseq (fun state h => h.2) (fun _ _ h => h)
            fun e state h => ⟨texts, message, h⟩).bind fun _ => ?_
        refine Triple.get_bind_of_forall fun state _ => ?_
        exact Triple.ite (fun _ => Triple.pure fun state h => AtHead.stopped h) fun _ => ih _

end Run

end ASNPrefixMap.Program
