import ASNPrefixMap.Program.Outputs
import ASNPrefixMap.Source.Stopping

/-!
# Live runs

What a live run ingests is what it reads: the texts of all successful reads,
over all the connections the network makes necessary, in order and each once,
but for the last one if a signal drops it or if it ends the run
(`live_ingests`). And a run ends: each turn of its loops, down to those that
wait for the network, asks whether to stop, so it is over before the questions
asked until the stop are (`program_stops`).

The bound of the loops is there because the live source may run for ever; what
is said of a run that has not come to its end holds however large it is. Each
network operation is taken to return: the code has no timeouts, and a read that
never returned would keep it from hearing a stop.
-/

namespace ASNPrefixMap.Program

open Lib Prefix Peer Routing Stats Ingest Snapshot Source
open ASNPrefixMap.Parser

variable {s : Surroundings} {cfg : Config}

/-! ## A live run that is interrupted -/

/-- A server that sends one message again and again, until the operator sends a
signal. -/
def interrupted (jsonParse : JsonParse) : Surroundings :=
  { quiet jsonParse with
    flags :=
      { keyPressed := fun _ => false
        signalled := fun n => decide (12 ≤ n)
        keyPressed_stays := fun _ h => h
        signalled_stays := fun _ h => decide_eq_true (Nat.le_succ_of_le (of_decide_eq_true h)) }
    network := fun _ => { succeeds := true, received := rrc00Text } }

/-- The configuration of a live run, for the rest a quiet one. -/
def liveConfigText : Bytes := bytes "source=ris_live_ws\n" ++ quietConfigText

/-- What `load_config` makes of it. -/
def liveConfig : Config := { quietConfig with source := bytes "ris_live_ws" }

/-- A directory with nothing but this configuration. -/
def liveFiles : Files where
  content path := if path = configFile then some liveConfigText else none
  readable _ := true
  writable _ := true
  flushed _ := 0

theorem prepare_live : prepare (interrupted twoPeersParse) liveFiles = .ok (liveConfig, {}) := rfl

/-! ## What is ingested -/

/-- What the loop has left of a live source whose successful reads have returned
these texts. -/
def ReadSoFar (texts : List Bytes) (source : BgpSource) : Prop :=
  ∃ machine, source = .risLiveWs machine ∧ machine.trace.filterMap readPayload = texts

/-- What a live source has handed out are the texts of its successful reads, in
the order of the trace. -/
theorem readSoFar_of_handedOut {texts : List Bytes} {source : BgpSource}
    (h : HandedOut .live texts source) : ReadSoFar texts source := by
  cases source with
  | fileJsonl source => exact h.elim
  | risLiveWs machine => exact ⟨machine, rfl, h.1.payloads⟩

/-- What was read has been ingested, but for a message dropped for a signal. -/
def LiveStopped (s : Surroundings) (cfg : Config) (start : World) (state : MainState) : Prop :=
  ∃ texts dropped, Reached s cfg start texts state.sampler ∧
    ReadSoFar (texts ++ dropped) state.source ∧
    (dropped = [] ∨ (∃ message, dropped = [message]) ∧ ∃ n, s.flags.signalled n = true)

/-- The message read last has thrown; those before it have been ingested. -/
def LiveThrown (s : Surroundings) (cfg : Config) (start : World) (e : Exception)
    (state : MainState) : Prop :=
  ∃ texts message, Failed s cfg start texts message e state.sampler ∧
    ReadSoFar (texts ++ [message]) state.source

/-- **A live run ingests what it reads**, however often it has to connect again.
The loop ends with the texts of all successful reads ingested, in order and each
once, but for the last if a signal came in before it could be, or with the
exception of the last. -/
theorem live_ingests {files : Files} {machine : Machine}
    (hsource : createSource s cfg files = .ok (.risLiveWs machine)) (store : Store) (fuel : Nat) :
    Triple (fun state => state = startState s cfg store (.risLiveWs machine)) (mainLoop s cfg fuel)
      (fun _ => LiveStopped s cfg (startWorld s cfg store))
      (LiveThrown s cfg (startWorld s cfg store)) := by
  have hfeed : HandedOut .live [] (.risLiveWs machine) := by
    obtain ⟨feed, hfeed⟩ := handedOut_start hsource
    cases feed with
    | file messages => exact hfeed.elim
    | live => exact hfeed
  have hloop := @mainLoop_triple s cfg (startWorld s cfg store) .live fuel []
  refine hloop.conseq (fun state heq => ?_) (fun _ state h => ?_) fun e state h => ?_
  · rw [heq]
    exact ⟨reached_start s cfg store _, hfeed⟩
  · obtain ⟨texts, hreached, dropped, hhanded, hdropped⟩ := h
    exact ⟨texts, dropped, hreached, readSoFar_of_handedOut hhanded, hdropped⟩
  · obtain ⟨texts, message, hfailed, hhanded⟩ := h
    exact ⟨texts, message, hfailed, readSoFar_of_handedOut hhanded⟩

theorem live_ingests_interrupted : ∃ machine,
    createSource (interrupted twoPeersParse) liveConfig liveFiles = .ok (.risLiveWs machine) ∧
    Triple
      (fun state => state = startState (interrupted twoPeersParse) liveConfig {} (.risLiveWs machine))
      (mainLoop (interrupted twoPeersParse) liveConfig 13)
      (fun _ => LiveStopped (interrupted twoPeersParse) liveConfig
        (startWorld (interrupted twoPeersParse) liveConfig {}))
      (LiveThrown (interrupted twoPeersParse) liveConfig
        (startWorld (interrupted twoPeersParse) liveConfig {})) :=
  ⟨_, rfl, @live_ingests (interrupted twoPeersParse) liveConfig liveFiles _ rfl {} 13⟩

/-! ## Stops -/

/-- The flags have been read so many times or more, and a live source reads the
same ones. -/
structure Listening (s : Surroundings) (cfg : Config) (readings : Nat) (source : BgpSource)
    (read : Nat) : Prop where
  shared : ∀ machine, source = .risLiveWs machine → machine.env.shutdown = s.shutdownRequested cfg
  read : readings ≤ read

theorem Listening.weaken {readings read : Nat} {source : BgpSource}
    (h : Listening s cfg (readings + 1) source read) : Listening s cfg readings source read :=
  ⟨h.shared, Nat.le_of_succ_le h.read⟩

/-- A new live source reads the flags of the program, and has not read any. -/
theorem listening_start {files : Files} {source : BgpSource}
    (h : createSource s cfg files = .ok source) : Listening s cfg 0 source 0 := by
  refine ⟨fun machine heq => ?_, Nat.le_refl 0⟩
  unfold createSource at h
  split at h
  next =>
    obtain ⟨replay, -, hreplay⟩ := bind_eq_ok.mp h
    cases hreplay
    cases heq
  next =>
    split at h
    next =>
      cases h
      cases heq
      rfl
    next => cases h

section Stop

variable {stop readings : Nat} {E : Exception → MainState → Prop}

/-- Once a stop is asked for, it stays asked for. -/
theorem stopsAt_of_requested (hstop : s.shutdownRequested cfg stop = true) :
    StopsAt (s.shutdownRequested cfg) stop := by
  intro n hn
  induction n, hn using Nat.le_induction with
  | base => exact hstop
  | succ n _ ih =>
    unfold Surroundings.shutdownRequested at ih ⊢
    rw [Bool.or_eq_true, Bool.and_eq_true] at ih ⊢
    exact ih.imp (And.imp_right (s.flags.keyPressed_stays n)) (s.flags.signalled_stays n)

/-- Each reading of a flag counts, also the one of the main loop after a
message. -/
theorem readFlag_listens (flag : Nat → Bool) :
    Triple (fun state => Listening s cfg readings state.source state.readings) (readFlag flag)
      (fun set state => (∃ n, readings ≤ n ∧ set = flag n) ∧
        Listening s cfg (readings + 1) state.source state.readings) E :=
  fun state h => ⟨⟨state.readings, h.read, rfl⟩, h.shared, Nat.succ_le_succ h.read⟩

/-- A call of `next_message` returns before its questions are used up, and has
read the flags if it had to wait. -/
theorem nextMessage_listens (hstop : StopsAt (s.shutdownRequested cfg) stop) {fuel : Nat}
    (hfuel : stop - readings < fuel) :
    Triple (fun state => Listening s cfg readings state.source state.readings) (nextMessage fuel)
      (fun result state => result ≠ .running ∧ Listening s cfg readings state.source state.readings)
      E := by
  intro state h
  obtain ⟨source, sampler, read⟩ := state
  cases source with
  | fileJsonl source => exact ⟨returned_ne_running _, fun machine heq => (by cases heq), h.read⟩
  | risLiveWs machine =>
    obtain ⟨json, machine', hrun, hended, hpast⟩ := nextMessage_live
      (nextMessage_returns hstop fuel readings hfuel)
      (show Past _ readings { machine with checks := read } from ⟨h.shared machine rfl, h.read⟩) sampler
    rw [hrun]
    refine ⟨hended, fun machine'' heq => ?_, hpast.read⟩
    cases heq
    exact hpast.flag

/-- Ingesting a message reads no flag and leaves the source alone. -/
theorem ingestRound_listens (message : Bytes) :
    Triple (fun state => Listening s cfg readings state.source state.readings)
      (ingestRound s cfg message)
      (fun _ state => Listening s cfg readings state.source state.readings)
      (fun _ _ => True) := by
  intro state h
  unfold ingestRound
  rw [EStateM.run_bind, EStateM.run_get]
  dsimp only
  cases (ingestMessage s.jsonParse s.net (s.orders.round state.rounds) message).run
      state.sampler.world with
  | ok _ world => exact h
  | error e world => trivial

/-- A loop that is left fewer turns than there are questions before the stop
comes to its end. -/
theorem mainLoop_stops (hstop : StopsAt (s.shutdownRequested cfg) stop) : ∀ (fuel readings : Nat),
    stop - readings < fuel →
    Triple (fun state => Listening s cfg readings state.source state.readings) (mainLoop s cfg fuel)
      (fun progress _ => progress ≠ .running) (fun _ _ => True) := by
  intro fuel
  induction fuel with
  | zero => exact fun readings h => absurd h (Nat.not_lt_zero _)
  | succ fuel ih =>
    intro readings hfuel
    unfold mainLoop
    refine (readFlag_listens _).bind fun requested => Triple.of_and fun hread => ?_
    refine Triple.ite (fun _ => Triple.pure fun _ _ => returned_ne_running _) fun hunset => ?_
    -- a question after the stop would have ended the loop
    obtain ⟨n, hn, hflag⟩ := hread
    have hbefore : n < stop := by
      by_contra hpast
      exact hunset (hflag.trans (hstop n (Nat.le_of_not_lt hpast)))
    have hleft : stop - (readings + 1) < fuel := by omega
    refine (nextMessage_listens hstop hleft).bind fun result => Triple.of_and fun hended => ?_
    rcases result with _ | _ | message
    · exact absurd rfl hended
    · exact Triple.pure fun _ _ => returned_ne_running _
    · refine (readFlag_listens _).bind fun signalled => Triple.of_and fun _ => ?_
      refine Triple.ite (fun _ => Triple.pure fun _ _ => returned_ne_running _) fun _ => ?_
      refine (ingestRound_listens message).bind fun _ => Triple.get_bind_of_forall fun state _ => ?_
      exact Triple.ite (fun _ => Triple.pure fun _ _ => returned_ne_running _) fun _ =>
        (ih (readings + 1) hleft).conseq (fun _ h => h.weaken) (fun _ _ h => h) fun _ _ h => h

end Stop

/-- **The program stops when it is told to**, whatever the network does: a stop
at a reading of the flags ends the run within as many turns. The turns are
counted through all loops that are nested here, those of a replay included; each
operation of the network is taken to return. -/
theorem program_stops {files : Files} {store : Store} (hprepare : prepare s files = .ok (cfg, store))
    {stop fuel : Nat} (hstop : s.shutdownRequested cfg stop = true) (hfuel : stop < fuel) :
    (runProgram s fuel files).1 ≠ .running := by
  have hending := main_ending s fuel files
  unfold runProgram
  generalize (main s fuel).run files = result at hending
  cases hending with
  | @running cfg' store' source state hlooped =>
    have hprepared := hlooped.prepared
    rw [hprepare] at hprepared
    cases hprepared
    have hended := (mainLoop_stops (stopsAt_of_requested hstop) fuel 0 (by omega)).ok
      (listening_start hlooped.created) hlooped.looped
    exact absurd rfl hended
  | saved _ _ _ => nofun
  | unprepared e _ => nofun
  | unopened e _ _ _ => nofun
  | noSource e _ _ => nofun
  | thrown _ => nofun
  | unsaved e _ _ => nofun

theorem program_stops_interrupted :
    (runProgram (interrupted twoPeersParse) 13 liveFiles).1 ≠ .running :=
  program_stops prepare_live
    (show (interrupted twoPeersParse).shutdownRequested liveConfig 12 = true from rfl) (by decide)

end ASNPrefixMap.Program
