import DocFlow.Messaging.Transport
import Mathlib.Logic.Relation

/-!
# What one worker can do

Entries may have been delivered to workers that have died, or that have failed on them.  None of them is
out of reach: `stream_drains` says that from every state that can be reached, any idle worker can bring
all entries of the stream to their end, if only its handlers return and its commands are answered.  The
measure is the number of entries that are not settled; a turn of `run_once` that gets messages lowers it,
and a turn gets some as long as there is one.
-/

namespace DocFlow.Messaging

open Text

namespace Transport

/-- A step of a worker on which nothing fails. -/
def WorkerCommand.Smooth : WorkerCommand → Prop
  | .read answered | .ack answered => answered = true
  | .parse | .returned | .finish => True
  | .fail | .crash => False

variable {minIdle count w now : Nat}

/-- The worker does one thing after the other, and nothing fails. -/
def Smoothly (minIdle count w now : Nat) : TransportState → TransportState → Prop :=
  Relation.ReflTransGen fun s s' => ∃ command : WorkerCommand, command.Smooth ∧
    s.work minIdle count w now command = some s'

section

variable {s : TransportState}

theorem workers_goto (s : TransportState) (w : Nat) (phase : WorkerPhase) :
    (s.goto w phase).workers w = phase := Function.update_self ..

/-- The worker does one thing, after which it is there. -/
def Does (minIdle count w now : Nat) (s : TransportState) (phase : WorkerPhase)
    (stream : Stream StreamFields Nat) : Prop :=
  ∃ s', Smoothly minIdle count w now s s' ∧ s'.workers w = phase ∧ s'.stream = stream

/-- One thing after the other. -/
theorem Does.trans {phase phase' : WorkerPhase} {stream stream' : Stream StreamFields Nat}
    (h : Does minIdle count w now s phase stream)
    (h' : ∀ s', s'.workers w = phase → s'.stream = stream →
      Does minIdle count w now s' phase' stream') : Does minIdle count w now s phase' stream' := by
  obtain ⟨s', hsteps, hphase, hstream⟩ := h
  obtain ⟨s'', hsteps', hphase', hstream'⟩ := h' s' hphase hstream
  exact ⟨s'', hsteps.trans hsteps', hphase', hstream'⟩

theorem does_read {origin : Origin} (hnext : (s.workers w).next = some origin) :
    Does minIdle count w now s
      (.dispatching origin 0 (TransportState.readFrom minIdle count s.stream w now origin).1)
      (TransportState.readFrom minIdle count s.stream w now origin).2 := by
  refine ⟨{ s.goto w (.dispatching origin 0
    (TransportState.readFrom minIdle count s.stream w now origin).1) with
      stream := (TransportState.readFrom minIdle count s.stream w now origin).2 },
    .single ⟨.read true, rfl, ?_⟩, workers_goto .., rfl⟩
  simp only [TransportState.work, hnext]
  rfl

/-- A message is parsed, handled and acknowledged. -/
theorem does_message {origin : Origin} {n position : Nat} {fields : StreamFields}
    {rest : List (Nat × StreamFields)} {event : RuntimeEvent}
    (hphase : s.workers w = .dispatching origin n ((position, fields) :: rest))
    (hparse : parseEvent fields = some event) :
    Does minIdle count w now s (.dispatching origin (n + 1) rest) (s.stream.ack position) := by
  have hparsed : Does minIdle count w now s (.handling origin n position event rest) s.stream := by
    refine ⟨s.goto w (.handling origin n position event rest), .single ⟨.parse, trivial, ?_⟩,
      workers_goto .., rfl⟩
    simp only [TransportState.work, hphase, hparse]
  refine hparsed.trans fun s₁ hphase₁ hstream₁ => ?_
  have hreturned : Does minIdle count w now s₁ (.acking origin n position rest) s₁.stream := by
    refine ⟨{ s₁.goto w (.acking origin n position rest) with
      handled := s₁.handled ++ [(position, event)] }, .single ⟨.returned, trivial, ?_⟩,
      workers_goto .., rfl⟩
    simp only [TransportState.work, hphase₁]
  rw [hstream₁] at hreturned
  refine hreturned.trans fun s₂ hphase₂ hstream₂ => ?_
  refine ⟨{ s₂.goto w (.dispatching origin (n + 1) rest) with stream := s₂.stream.ack position },
    .single ⟨.ack true, rfl, ?_⟩, workers_goto .., ?_⟩
  · simp only [TransportState.work, hphase₂, if_true]
  · show s₂.stream.ack position = s.stream.ack position
    rw [hstream₂]

theorem does_finish {origin : Origin} {n : Nat} (hphase : s.workers w = .dispatching origin n [])
    (hlast : 0 < n ∨ origin = .new) : Does minIdle count w now s .idle s.stream := by
  refine ⟨s.goto w .idle, .single ⟨.finish, trivial, ?_⟩, workers_goto .., rfl⟩
  simp only [TransportState.work, hphase, if_pos hlast]

/-- All the messages of a reading, one after the other. -/
theorem does_rest {origin : Origin} {n : Nat} {rest : List (Nat × StreamFields)}
    (hphase : s.workers w = .dispatching origin n rest)
    (hparse : ∀ e ∈ rest, ∃ event, parseEvent e.2 = some event) :
    Does minIdle count w now s (.dispatching origin (n + rest.length) [])
      (s.stream.ackAll (rest.map Prod.fst)) := by
  induction rest generalizing s n with
  | nil => exact ⟨s, .refl, hphase, rfl⟩
  | cons e rest ih =>
    rw [List.forall_mem_cons] at hparse
    obtain ⟨event, hevent⟩ := hparse.1
    refine (does_message hphase hevent).trans fun s' hphase' hstream' => ?_
    have hdone := ih hphase' hparse.2
    rw [hstream', Nat.add_assoc, Nat.add_comm 1] at hdone
    exact hdone

/-- A turn of `run_once` that gets these messages works them off. -/
theorem does_turn {origin : Origin} {given : List (Nat × StreamFields)}
    {stream : Stream StreamFields Nat}
    (hread : Does minIdle count w now s (.dispatching origin 0 given) stream)
    (hne : given ≠ [] ∨ origin = .new)
    (hparse : ∀ e ∈ given, ∃ event, parseEvent e.2 = some event) :
    Does minIdle count w now s .idle (stream.ackAll (given.map Prod.fst)) := by
  refine hread.trans fun s₁ hphase₁ hstream₁ => ?_
  refine (does_rest hphase₁ hparse).trans fun s₂ hphase₂ hstream₂ => ?_
  have hfinish : Does minIdle count w now s₂ .idle s₂.stream := by
    refine does_finish hphase₂ ?_
    rw [Nat.zero_add]
    exact hne.imp_left List.length_pos_iff.mpr
  rw [hstream₂, hstream₁] at hfinish
  exact hfinish

/-- **Some turn settles an entry**, as long as there is one that is not settled. -/
theorem does_progress (hidle : s.workers w = .idle) (hcount : 1 ≤ count)
    (hparse : ∀ fields ∈ s.stream.entries, ∃ event, parseEvent fields = some event)
    (hlate : ∀ i d, s.stream.pending i = some d → d.time + minIdle ≤ now)
    {i : Nat} (hi : i < s.stream.entries.length) (hnot : ¬ s.stream.Settled i) :
    ∃ stream given, s.stream.HandsOver stream given ∧ given ≠ [] ∧
      Does minIdle count w now s .idle (stream.ackAll (given.map Prod.fst)) := by
  have hparses : ∀ {stream : Stream StreamFields Nat} {given : List (Nat × StreamFields)},
      s.stream.HandsOver stream given → ∀ e ∈ given, ∃ event, parseEvent e.2 = some event :=
    fun hhands e he => hparse e.2 (List.mem_of_getElem? (hhands.new e he).1)
  have hclaim : Does minIdle count w now s
      (.dispatching .claimed 0 (s.stream.claim w now minIdle count).1)
      (s.stream.claim w now minIdle count).2 := does_read (by rw [hidle]; rfl)
  have hsome : (s.stream.claim w now minIdle count).1 ≠ [] ∨
      ((∀ j, s.stream.pending j = none) ∧ (s.stream.fresh w now count).1 ≠ []) :=
    Stream.hands_unsettled hcount hlate hi hnot
  rcases hsome with hsome | ⟨hnone, hsome⟩
  · have hhands := Stream.handsOver_claim s.stream w now minIdle count
    exact ⟨_, _, hhands, hsome, does_turn hclaim (.inl hsome) (hparses hhands)⟩
  · have hhands := Stream.handsOver_fresh s.stream w now count
    suffices hread : Does minIdle count w now s
        (.dispatching .new 0 (s.stream.fresh w now count).1) (s.stream.fresh w now count).2 from
      ⟨_, _, hhands, hsome, does_turn hread (.inr rfl) (hparses hhands)⟩
    rw [Stream.claim_of_none hnone] at hclaim
    refine hclaim.trans fun s₁ hphase₁ hstream₁ => ?_
    have hown : Does minIdle count w now s₁ (.dispatching .history 0 (s₁.stream.own w now count).1)
        (s₁.stream.own w now count).2 := does_read (by rw [hphase₁]; rfl)
    rw [hstream₁, Stream.own_of_none hnone] at hown
    refine hown.trans fun s₂ hphase₂ hstream₂ => ?_
    have hfresh : Does minIdle count w now s₂ (.dispatching .new 0 (s₂.stream.fresh w now count).1)
        (s₂.stream.fresh w now count).2 := does_read (by rw [hphase₂]; rfl)
    rw [hstream₂] at hfresh
    exact hfresh

/-- All entries are brought to their end, turn after turn. -/
theorem does_all (hidle : s.workers w = .idle) (hcount : 1 ≤ count)
    (hparse : ∀ fields ∈ s.stream.entries, ∃ event, parseEvent fields = some event)
    (hlate : ∀ i d, s.stream.pending i = some d → d.time + minIdle ≤ now) :
    ∃ stream, Does minIdle count w now s .idle stream ∧ stream.entries = s.stream.entries ∧
      ∀ i < s.stream.entries.length, stream.Settled i := by
  induction hn : s.stream.unsettled using Nat.strong_induction_on generalizing s with
  | _ n ih =>
    by_cases hall : ∀ i < s.stream.entries.length, s.stream.Settled i
    · exact ⟨s.stream, ⟨s, .refl, hidle, rfl⟩, rfl, hall⟩
    · obtain ⟨i, hi⟩ := not_forall.mp hall
      obtain ⟨hlt, hnot⟩ := Classical.not_imp.mp hi
      obtain ⟨stream, given, hhands, hne, s₁, hsteps, hidle₁, hstream₁⟩ :=
        does_progress hidle hcount hparse hlate hlt hnot
      obtain ⟨hentries, hsettled, hpending⟩ := hhands.ackAll
      rw [← hstream₁] at hentries hsettled hpending
      -- the first entry that is handed over was not settled, and is now
      obtain ⟨e, he⟩ := List.exists_mem_of_ne_nil _ hne
      obtain ⟨hentry, -, hopen⟩ := hhands.new e he
      have hless : s₁.stream.unsettled < n := by
        rw [← hn]
        refine Stream.unsettled_lt hentries (fun j hj => (hsettled j).mpr (.inr hj))
          (List.getElem?_eq_some_iff.mp hentry).1 (fun hj => hopen ((hhands.settled _).mpr hj)) ?_
        exact (hsettled _).mpr (.inl (List.mem_map_of_mem he))
      have hrest := ih _ hless hidle₁ (by rw [hentries]; exact hparse)
        (fun j d hd => hlate j d (hpending j d hd)) rfl
      obtain ⟨stream', ⟨s', hsteps', hidle', hstream'⟩, hentries', hdone⟩ := hrest
      rw [hentries] at hentries' hdone
      exact ⟨stream', ⟨s', hsteps.trans hsteps', hidle', hstream'⟩, hentries', hdone⟩

/-- These are steps of the whole. -/
theorem run_smoothly {name : Nat → String} {maxAttempts : Int} {s' : TransportState}
    (h : Smoothly minIdle count w now s s') : ∃ commands : List WorkerCommand,
      (∀ command ∈ commands, command.Smooth) ∧
        (machine name maxAttempts minIdle count).run s (commands.map (.worker w now)) = some s' := by
  induction h using Relation.ReflTransGen.head_induction_on with
  | refl => exact ⟨[], List.forall_mem_nil _, rfl⟩
  | head hstep _ ih =>
    obtain ⟨command, hsmooth, hwork⟩ := hstep
    obtain ⟨commands, hall, hrun⟩ := ih
    exact ⟨command :: commands, List.forall_mem_cons.mpr ⟨hsmooth, hall⟩,
      Machine.run_cons.mpr ⟨_, hwork, hrun⟩⟩

end

/-- **Every entry can be brought to its end.**  In every state that can be reached, whatever has failed
before, and whoever has the entries: from some time on, an idle worker alone can do it, and then a handler
has returned on each event. -/
theorem stream_drains {name : Nat → String} {maxAttempts : Int} {minIdle count w : Nat}
    {s : TransportState} (hs : (machine name maxAttempts minIdle count).Reachable s)
    (hcount : 1 ≤ count) (hidle : s.workers w = .idle) :
    ∃ due, ∀ now, due ≤ now → ∃ (commands : List WorkerCommand) (s' : TransportState),
      (∀ command ∈ commands, command.Smooth) ∧
      (machine name maxAttempts minIdle count).run s (commands.map (.worker w now)) = some s' ∧
        s'.workers w = .idle ∧ s'.stream.entries = s.stream.entries ∧
          ∀ i fields, s'.stream.entries[i]? = some fields → s'.stream.Settled i ∧
            ∃ r ∈ s'.outbox.events, fields = publishFields name r.snapshot ∧
              (i, eventOf name r.snapshot) ∈ s'.handled := by
  obtain ⟨due, hdue⟩ := Stream.exists_late s.stream minIdle
  refine ⟨due, fun now hnow => ?_⟩
  have hparse : ∀ fields ∈ s.stream.entries, ∃ event, parseEvent fields = some event := by
    intro fields hfields
    obtain ⟨event, -, rfl⟩ := (sound_of_reachable hs).1.entries fields hfields
    exact ⟨_, parseEvent_publishFields name event⟩
  obtain ⟨stream, ⟨s', hsteps, hidle', rfl⟩, hentries, hsettled⟩ :=
    does_all hidle hcount hparse fun i d hd => (hdue i d hd).trans hnow
  obtain ⟨commands, hsmooth, hrun⟩ := run_smoothly hsteps
  obtain ⟨htraced, hworked⟩ := sound_of_reachable (hs.run hrun)
  refine ⟨commands, s', hsmooth, hrun, hidle', hentries, fun i fields hi => ?_⟩
  have hdone : s'.stream.Settled i := by
    refine hsettled i ?_
    rw [← hentries]
    exact (List.getElem?_eq_some_iff.mp hi).1
  obtain ⟨r, hr, rfl⟩ := row_of_entry htraced hi
  obtain ⟨event, hevent⟩ := hworked.settled i hdone
  rw [eventOf_handled hworked hi hevent] at hevent
  exact ⟨hdone, r, hr, rfl, hevent⟩

theorem idle_of_next {phase : WorkerPhase} (h : phase.next = some .claimed) : phase = .idle := by
  unfold WorkerPhase.next at h
  split at h
  · rfl
  all_goals cases h

/-- While a worker is busy with the second entry, another one can take it over. -/
theorem stream_drains_wholeWay :
    ∃ s, (machine sampleName 10 60000 10).run emptyState wholeWay = some s ∧
      s.stream.delivered = 2 ∧ ¬ s.stream.Settled 1 ∧
      ∃ due, ∀ now, due ≤ now → ∃ (commands : List WorkerCommand) (s' : TransportState),
        (∀ command ∈ commands, command.Smooth) ∧
        (machine sampleName 10 60000 10).run s (commands.map (.worker 1 now)) = some s' ∧
          s'.workers 1 = .idle ∧ s'.stream.entries = s.stream.entries ∧
            ∀ i fields, s'.stream.entries[i]? = some fields → s'.stream.Settled i ∧
              ∃ r ∈ s'.outbox.events, fields = publishFields sampleName r.snapshot ∧
                (i, eventOf sampleName r.snapshot) ∈ s'.handled := by
  have hrun : ((machine sampleName 10 60000 10).run emptyState wholeWay).any (fun s =>
      s.stream.delivered = 2 && !decide (s.stream.Settled 1) &&
        decide ((s.workers 1).next = some .claimed)) = true := by
    decide +kernel
  obtain ⟨s, hs, hends⟩ := (Option.any_eq_true _ _).mp hrun
  rw [Bool.and_eq_true, Bool.and_eq_true, Bool.not_eq_true', decide_eq_true_eq,
    decide_eq_true_eq, decide_eq_false_iff_not] at hends
  have hstart : (machine sampleName 10 60000 10).Reachable emptyState :=
    .init ⟨.empty, 1, 0, fun r hr => absurd hr (Table.not_mem_empty r), rfl⟩
  exact ⟨s, hs, hends.1.1, hends.1.2,
    stream_drains (hstart.run hs) (by decide) (idle_of_next hends.2)⟩

end Transport

end DocFlow.Messaging
