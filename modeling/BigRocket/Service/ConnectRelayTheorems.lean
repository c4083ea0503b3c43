/-
When a relayed TCP connection is half dead: a silent direction ends at its
timeout, while the other one keeps the connection open.
-/
import BigRocket.Service.ConnectRelay

namespace BigRocket.Service.ConnectRelay

open Lib List

/-! ## One pipe -/

def Phase.inHand : Phase → List UInt8
  | .writing buffer => buffer
  | _ => []

namespace Pipe

variable {p : Pipe}

structure Sound (p : Pipe) : Prop where
  ordered : p.forwarded <+: p.sent
  whole : p.phase ≠ .ended → p.forwarded ++ p.phase.inHand ++ p.arrived = p.sent

/-- The pipe has ended only after the end of its stream, with all of it on the other side. -/
def Settled (p : Pipe) : Prop := p.phase = .ended → p.forwarded = p.sent ∧ p.endOfStream = true

theorem Sound.of_whole (h : p.forwarded ++ p.phase.inHand ++ p.arrived = p.sent) : p.Sound where
  ordered := ⟨p.phase.inHand ++ p.arrived, by rw [← append_assoc, h]⟩
  whole := fun _ => h

theorem Sound.send (h : p.Sound) (bytes : List UInt8) : (p.send bytes).Sound := by
  unfold Pipe.send
  split
  · exact h
  · refine ⟨h.ordered.trans (prefix_append _ _), fun hphase => ?_⟩
    rw [← h.whole hphase]
    simp

theorem Sound.finish (h : p.Sound) : p.finish.Sound := ⟨h.ordered, h.whole⟩

inductive ReadCase (p : Pipe) : Pipe → Prop where
  | waits : ReadCase p p
  | takes (since size : Nat) (hphase : p.phase = .reading since) : ReadCase p
      { p with phase := .writing (p.arrived.take size), arrived := p.arrived.drop size }
  | ends (since : Nat) (hphase : p.phase = .reading since) (harrived : p.arrived = [])
      (hend : p.endOfStream = true) : ReadCase p { p with phase := .ended }

theorem readCase_read (p : Pipe) (n : Nat) : ReadCase p (p.read n) := by
  unfold Pipe.read
  split
  · rename_i since hphase
    split_ifs with harrived hend
    · exact .takes since _ hphase
    · exact .ends since hphase (not_not.mp harrived) hend
    · exact .waits
  · exact .waits

theorem Sound.whole_of_reading {since : Nat} (h : p.Sound) (hphase : p.phase = .reading since) :
    p.forwarded ++ p.arrived = p.sent := by
  have hwhole := h.whole (by simp [hphase])
  rw [hphase] at hwhole
  simpa [Phase.inHand] using hwhole

theorem Sound.read (h : p.Sound) (n : Nat) : (p.read n).Sound := by
  have hcase := readCase_read p n
  generalize p.read n = p' at hcase ⊢
  cases hcase with
  | waits => exact h
  | takes since size hphase =>
    refine .of_whole ?_
    have hwhole := h.whole_of_reading hphase
    simpa [Phase.inHand, append_assoc] using hwhole
  | ends since hphase harrived hend => exact ⟨h.ordered, fun hended => absurd rfl hended⟩

theorem Sound.write (h : p.Sound) (now : Nat) : (p.write now).Sound := by
  unfold Pipe.write
  split
  · rename_i buffer hphase
    have hwhole := h.whole (by simp [hphase])
    rw [hphase] at hwhole
    refine .of_whole ?_
    simpa [Phase.inHand] using hwhole
  · exact h

theorem Sound.fail (h : p.Sound) : p.fail.Sound := ⟨h.ordered, fun hended => absurd rfl hended⟩

theorem Sound.wait (h : p.Sound) (soTimeout : Option Nat) (now : Nat) :
    (p.wait soTimeout now).Sound := by
  unfold Pipe.wait
  split
  · exact h.fail
  · exact h

/-! A settled pipe stays settled, but for a failure and a timeout. -/

theorem Settled.send (h : p.Settled) (bytes : List UInt8) : (p.send bytes).Settled := by
  unfold Pipe.send
  split
  · exact h
  · rename_i hend
    intro hphase
    exact absurd (h hphase).2 hend

theorem Settled.finish (h : p.Settled) : p.finish.Settled := fun hphase => ⟨(h hphase).1, rfl⟩

theorem Settled.read (h : p.Settled) (hsound : p.Sound) (n : Nat) : (p.read n).Settled := by
  have hcase := readCase_read p n
  generalize p.read n = p' at hcase ⊢
  cases hcase with
  | waits => exact h
  | takes since size hphase =>
    intro hended
    cases hended
  | ends since hphase harrived hend =>
    have hwhole := hsound.whole_of_reading hphase
    rw [harrived, append_nil] at hwhole
    exact fun _ => ⟨hwhole, hend⟩

theorem Settled.write (h : p.Settled) (now : Nat) : (p.write now).Settled := by
  unfold Pipe.write
  split
  · intro hended
    cases hended
  · exact h

variable {soTimeout : Option Nat} {now : Nat}

theorem timesOut_iff :
    p.timesOut soTimeout now = true ↔
      ∃ since timeout, p.phase = .reading since ∧ soTimeout = some timeout ∧ p.arrived = [] ∧
        p.endOfStream = false ∧ since + timeout ≤ now := by
  unfold Pipe.timesOut
  split
  · rename_i since timeout hphase
    simp [hphase, and_assoc]
  · rename_i hother
    constructor
    · intro h
      cases h
    · rintro ⟨since, timeout, hphase, rfl, -⟩
      exact (hother since timeout hphase rfl).elim

theorem phase_of_timesOut (h : p.timesOut soTimeout now = true) : p.phase ≠ .ended := by
  obtain ⟨since, timeout, hphase, -⟩ := timesOut_iff.mp h
  simp [hphase]

theorem Sound.forwarded_of_timesOut (h : p.Sound) (htime : p.timesOut soTimeout now = true) :
    p.forwarded = p.sent := by
  obtain ⟨since, timeout, hphase, -, harrived, -⟩ := timesOut_iff.mp htime
  have hwhole := h.whole_of_reading hphase
  rwa [harrived, append_nil] at hwhole

theorem wait_of_timesOut (h : p.timesOut soTimeout now = true) :
    p.wait soTimeout now = { p with phase := .ended } := if_pos h

theorem wait_of_not_timesOut (h : ¬ p.timesOut soTimeout now = true) :
    p.wait soTimeout now = p := if_neg h

end Pipe

/-! ## The connection -/

variable {s : Relay}

@[simp] theorem pipe_setPipe_self (d : Direction) (p : Pipe) : (s.setPipe d p).pipe d = p := by
  simp [Relay.setPipe]

variable {d : Direction} {e : Event} {ms : Nat}

theorem pipe_setPipe_ne {d' : Direction} (p : Pipe) (h : d' ≠ d) :
    (s.setPipe d p).pipe d' = s.pipe d' := by
  simp [Relay.setPipe, h]

inductive IsTurn (d : Direction) : Event → Prop where
  | reads (n : Nat) : IsTurn d (.reads d n)
  | writes : IsTurn d (.writes d)

/-- Turns of the pipe alone bring all that its source has sent to the other side. -/
def Drains (s : Relay) (d : Direction) : Prop :=
  ∃ turns, (∀ e ∈ turns, IsTurn d e) ∧
    ((exec Relay.step s turns).pipe d).forwarded = (s.pipe d).sent

structure Alive (s : Relay) : Prop where
  ordered : ∀ d, (s.pipe d).forwarded <+: (s.pipe d).sent
  ended : ∀ d, (s.pipe d).phase = .ended →
    s.closed ∨ (s.pipe d).endOfStream = true ∨ s.failed = true
  drains : s.failed = true ∨ ∀ d, Drains s d

theorem not_closed (h : (s.pipe d).phase ≠ .ended) : ¬ s.closed :=
  fun hclosed => h (hclosed d)

theorem step_closed (h : s.closed) (e : Event) : s.step e = s := if_pos h

theorem step_reads (h : (s.pipe d).phase ≠ .ended) (n : Nat) :
    s.step (.reads d n) = s.setPipe d ((s.pipe d).read n) := if_neg (not_closed h)

theorem step_writes (h : (s.pipe d).phase ≠ .ended) :
    s.step (.writes d) = s.setPipe d ((s.pipe d).write s.now) := if_neg (not_closed h)

/-! A pipe that has not ended brings everything across, a byte a turn. -/

theorem Drains.cons (he : IsTurn d e) (hsent : ((s.step e).pipe d).sent = (s.pipe d).sent)
    (h : Drains (s.step e) d) : Drains s d := by
  obtain ⟨turns, hturns, hforwarded⟩ := h
  refine ⟨e :: turns, ?_, ?_⟩
  · intro e' he'
    rcases mem_cons.mp he' with rfl | he'
    · exact he
    · exact hturns e' he'
  · rw [← hsent, ← hforwarded]
    rfl

theorem drains_of_reading (since : Nat) {arrived : List UInt8}
    (harrived : (s.pipe d).arrived = arrived) (hphase : (s.pipe d).phase = .reading since)
    (hwhole : (s.pipe d).forwarded ++ arrived = (s.pipe d).sent) : Drains s d := by
  induction arrived generalizing s since with
  | nil => exact ⟨[], by simp, by simpa using hwhole⟩
  | cons b rest ih =>
    have hread : s.step (.reads d 1) = s.setPipe d
        { s.pipe d with phase := .writing [b], arrived := rest } := by
      rw [step_reads (by simp [hphase])]
      simp [Pipe.read, hphase, harrived, bufferSize]
    refine .cons (.reads 1) (by simp [hread]) ?_
    rw [hread]
    generalize hmid : s.setPipe d
      { s.pipe d with phase := .writing [b], arrived := rest } = mid
    have hpipe : mid.pipe d = { s.pipe d with phase := .writing [b], arrived := rest } := by
      rw [← hmid, pipe_setPipe_self]
    have hwrite : mid.step (.writes d) = mid.setPipe d
        { mid.pipe d with phase := .reading mid.now,
                          forwarded := (s.pipe d).forwarded ++ [b] } := by
      rw [step_writes (by simp [hpipe])]
      simp [Pipe.write, hpipe]
    refine .cons .writes (by simp [hwrite]) ?_
    refine ih mid.now ?_ ?_ ?_
    · simp [hwrite, hpipe]
    · simp [hwrite]
    · simpa [hwrite, hpipe] using hwhole

theorem drains_of_running (h : (s.pipe d).Sound) (hphase : (s.pipe d).phase ≠ .ended) :
    Drains s d := by
  have hwhole := h.whole hphase
  cases hp : (s.pipe d).phase with
  | ended => exact absurd hp hphase
  | reading since => exact drains_of_reading since rfl hp (h.whole_of_reading hp)
  | writing buffer =>
    have hwrite : s.step (.writes d) = s.setPipe d
        { s.pipe d with phase := .reading s.now,
                        forwarded := (s.pipe d).forwarded ++ buffer } := by
      rw [step_writes hphase]
      simp [Pipe.write, hp]
    refine .cons .writes (by simp [hwrite]) ?_
    rw [hp] at hwhole
    refine drains_of_reading s.now rfl (by simp [hwrite]) ?_
    simpa [hwrite, Phase.inHand] using hwhole

/-! ## Whole runs -/

/-- After a failure nothing more holds; else the connection is closed with nothing
left behind, or no direction ended before its stream. -/
structure Inv (s : Relay) : Prop where
  sound : ∀ d, (s.pipe d).Sound
  ends : s.failed = true ∨
    (∀ d, (s.pipe d).phase = .ended ∧ (s.pipe d).forwarded = (s.pipe d).sent) ∨
    ∀ d, (s.pipe d).Settled

theorem Inv.alive (h : Inv s) : Alive s where
  ordered d := (h.sound d).ordered
  ended d hended := by
    rcases h.ends with hfailed | hclosed | hsettled
    · exact .inr (.inr hfailed)
    · exact .inl fun d => (hclosed d).1
    · exact .inr (.inl (hsettled d hended).2)
  drains := by
    rcases h.ends with hfailed | hclosed | hsettled
    · exact .inl hfailed
    · exact .inr fun d => ⟨[], by simp, (hclosed d).2⟩
    · refine .inr fun d => ?_
      by_cases hended : (s.pipe d).phase = .ended
      · exact ⟨[], by simp, (hsettled d hended).1⟩
      · exact drains_of_running (h.sound d) hended

theorem Inv.setPipe {p : Pipe} (h : Inv s) (hopen : ¬ s.closed) (hp : p.Sound)
    (hsettled : (s.pipe d).Settled → p.Settled) : Inv (s.setPipe d p) := by
  constructor
  · intro d'
    by_cases hd : d' = d
    · rw [hd, pipe_setPipe_self]
      exact hp
    · rw [pipe_setPipe_ne p hd]
      exact h.sound d'
  · rcases h.ends with hfailed | hclosed | hall
    · exact .inl hfailed
    · exact absurd (fun d => (hclosed d).1) hopen
    · refine .inr (.inr fun d' => ?_)
      by_cases hd : d' = d
      · rw [hd, pipe_setPipe_self]
        exact hsettled (hall d)
      · rw [pipe_setPipe_ne p hd]
        exact hall d'

/-- If the pause is so long that a direction times out in it, then the other
one has ended or times out in it too. -/
def TimeOutTogether (s : Relay) : Event → Prop
  | .passes ms => s.failed = true ∨ ∀ d, s.timesOut (s.now + ms) d = true →
      (s.pipe d.other).phase = .ended ∨ s.timesOut (s.now + ms) d.other = true
  | _ => True

theorem Direction.eq_or_eq_other (d d' : Direction) : d' = d ∨ d' = d.other := by
  cases d <;> cases d' <;> decide

theorem step_passes (h : ¬ s.closed) (ms : Nat) (d : Direction) :
    (s.step (.passes ms)).pipe d = (s.pipe d).wait (soTimeout s.mode d) (s.now + ms) := by
  rw [Relay.step, if_neg h]

theorem failed_passes (ms : Nat) : (s.step (.passes ms)).failed = s.failed := by
  unfold Relay.step
  split <;> rfl

theorem ended_passes (h : ¬ s.closed) :
    ((s.step (.passes ms)).pipe d).phase = .ended ↔
      (s.pipe d).phase = .ended ∨ s.timesOut (s.now + ms) d = true := by
  rw [step_passes h, Relay.timesOut]
  by_cases htime : (s.pipe d).timesOut (soTimeout s.mode d) (s.now + ms) = true
  · simp [Pipe.wait_of_timesOut htime, htime]
  · simp [Pipe.wait_of_not_timesOut htime, htime]

theorem done_passes (hopen : ¬ s.closed) (hsound : (s.pipe d).Sound)
    (hsettled : (s.pipe d).Settled)
    (h : (s.pipe d).phase = .ended ∨ s.timesOut (s.now + ms) d = true) :
    ((s.step (.passes ms)).pipe d).phase = .ended ∧
      ((s.step (.passes ms)).pipe d).forwarded = ((s.step (.passes ms)).pipe d).sent := by
  refine ⟨(ended_passes hopen).mpr h, ?_⟩
  rw [step_passes hopen]
  by_cases htime : (s.pipe d).timesOut (soTimeout s.mode d) (s.now + ms) = true
  · rw [Pipe.wait_of_timesOut htime]
    exact hsound.forwarded_of_timesOut htime
  · rw [Pipe.wait_of_not_timesOut htime]
    rcases h with hended | htime'
    · exact (hsettled hended).1
    · exact absurd htime' htime

theorem Inv.passes (h : Inv s) (hopen : ¬ s.closed) (htogether : TimeOutTogether s (.passes ms)) :
    Inv (s.step (.passes ms)) := by
  constructor
  · intro d
    rw [step_passes hopen]
    exact (h.sound d).wait _ _
  · rw [failed_passes]
    rcases h.ends with hfailed | hclosed | hsettled
    · exact .inl hfailed
    · exact absurd (fun d => (hclosed d).1) hopen
    · rcases htogether with hfailed | htogether
      · exact .inl hfailed
      · by_cases hsome : ∃ d, s.timesOut (s.now + ms) d = true
        · -- one direction times out, so both are at their end, with nothing under way
          obtain ⟨d, hd⟩ := hsome
          refine .inr (.inl fun d' => ?_)
          rcases Direction.eq_or_eq_other d d' with rfl | rfl
          · exact done_passes hopen (h.sound d') (hsettled d') (.inr hd)
          · exact done_passes hopen (h.sound _) (hsettled _) (htogether d hd)
        · -- none does: the pipes are what they were
          rw [not_exists] at hsome
          refine .inr (.inr fun d => ?_)
          rw [step_passes hopen, Pipe.wait_of_not_timesOut (hsome d)]
          exact hsettled d

theorem Inv.step (h : Inv s) (htogether : TimeOutTogether s e) : Inv (s.step e) := by
  by_cases hclosed : s.closed
  · rw [step_closed hclosed]
    exact h
  · cases e with
    | sends d bytes =>
      rw [Relay.step, if_neg hclosed]
      exact h.setPipe hclosed ((h.sound d).send bytes) fun hsettled => hsettled.send bytes
    | finishes d =>
      rw [Relay.step, if_neg hclosed]
      exact h.setPipe hclosed (h.sound d).finish fun hsettled => hsettled.finish
    | reads d n =>
      rw [Relay.step, if_neg hclosed]
      exact h.setPipe hclosed ((h.sound d).read n) fun hsettled => hsettled.read (h.sound d) n
    | writes d =>
      rw [Relay.step, if_neg hclosed]
      exact h.setPipe hclosed ((h.sound d).write s.now) fun hsettled => hsettled.write s.now
    | fails d =>
      rw [Relay.step, if_neg hclosed]
      split
      · exact h
      · refine ⟨fun d' => ?_, .inl rfl⟩
        by_cases hd : d' = d
        · rw [hd]
          simpa [Relay.setPipe] using (h.sound d).fail
        · simpa [Relay.setPipe, hd] using h.sound d'
    | passes ms => exact h.passes hclosed htogether

theorem timeOutTogether_of_alive (h : Alive (s.step e)) : TimeOutTogether s e := by
  cases e with
  | passes ms =>
    by_cases hfailed : s.failed = true
    · exact .inl hfailed
    · refine .inr fun d hd => ?_
      have hopen : ¬ s.closed := not_closed (Pipe.phase_of_timesOut hd)
      rcases h.ended d ((ended_passes hopen).mpr (.inr hd)) with hclosed | hend | hfails
      · exact (ended_passes hopen).mp (hclosed d.other)
      · obtain ⟨_, _, _, _, _, hnot, _⟩ := Pipe.timesOut_iff.mp hd
        rw [step_passes hopen, Pipe.wait_of_timesOut hd] at hend
        rw [hnot] at hend
        cases hend
      · rw [failed_passes] at hfails
        exact absurd hfails hfailed
  | _ => trivial

def run (mode : UpstreamMode) (events : List Event) : Relay :=
  exec Relay.step (connected mode) events

theorem inv_connected (mode : UpstreamMode) : Inv (connected mode) where
  sound d := .of_whole rfl
  ends := .inr (.inr fun d hended => (by cases hended))

theorem sound_setPipe {p : Pipe} (h : ∀ d, (s.pipe d).Sound) (hp : p.Sound) (d' : Direction) :
    ((s.setPipe d p).pipe d').Sound := by
  by_cases hd : d' = d
  · rw [hd, pipe_setPipe_self]
    exact hp
  · rw [pipe_setPipe_ne p hd]
    exact h d'

theorem sound_step (h : ∀ d, (s.pipe d).Sound) (e : Event) (d : Direction) :
    ((s.step e).pipe d).Sound := by
  unfold Relay.step
  split
  · exact h d
  · cases e with
    | sends d' bytes => exact sound_setPipe h ((h d').send bytes) d
    | finishes d' => exact sound_setPipe h (h d').finish d
    | reads d' n => exact sound_setPipe h ((h d').read n) d
    | writes d' => exact sound_setPipe h ((h d').write s.now) d
    | fails d' =>
      dsimp only
      split
      · exact h d
      · exact sound_setPipe h (h d').fail d
    | passes ms => exact (h d).wait _ _

/-- Timeouts and failures may cut a direction short, but never reorder, repeat or
alter it: what was forwarded is the beginning of what was sent, and while the
direction runs the rest is in the buffer or has arrived. -/
theorem forwarded_in_order (mode : UpstreamMode) (events : List Event) (d : Direction) :
    let p := (run mode events).pipe d
    p.forwarded <+: p.sent ∧
      (p.phase ≠ .ended → p.forwarded ++ p.phase.inHand ++ p.arrived = p.sent) := by
  have hsound : ((run mode events).pipe d).Sound := by
    induction events using List.reverseRecOn generalizing d with
    | nil => exact .of_whole rfl
    | append_singleton events e ih =>
      rw [run, exec_concat]
      exact sound_step ih e d
  exact ⟨hsound.ordered, hsound.whole⟩

theorem alive_iff_timeOutTogether (mode : UpstreamMode) (events : List Event) :
    (∀ before, before <+: events → Alive (run mode before)) ↔
      AlongRun (fun before e => TimeOutTogether (run mode before) e) events := by
  have hrun : AlongRun (fun _ _ => True) events := fun _ _ _ _ => trivial
  refine forall_prefix_iff_alongRun_of_invariant (I := fun events => Inv (run mode events))
    (inv_connected mode) (inv_connected mode).alive ?_ ?_ hrun
  · intro events e hinv _
    rw [run, exec_concat]
    exact ⟨timeOutTogether_of_alive, fun htogether => (hinv.step htogether).alive⟩
  · intro events e hinv _ htogether
    rw [run, exec_concat]
    exact hinv.step htogether

def silentClient : List Event :=
  [.passes 15000, .sends .download [1], .reads .download 1, .writes .download, .passes 5000,
   .sends .upload [7], .reads .upload 1, .writes .upload]

theorem silentClient_halfDead :
    (run .none silentClient).failed = false ∧
    ((run .none silentClient).pipe .upload).phase = .ended ∧
    ((run .none silentClient).pipe .upload).endOfStream = false ∧
    ((run .none silentClient).pipe .upload).sent = [7] ∧
    ((run .none silentClient).pipe .upload).forwarded = [] ∧
    ((run .none silentClient).pipe .download).phase = .reading 15000 := by
  decide

end BigRocket.Service.ConnectRelay
