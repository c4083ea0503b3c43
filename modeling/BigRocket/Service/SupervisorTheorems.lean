/-
The supervisor's restarts are justified and backed off.
-/
import BigRocket.Service.SupervisorCases

namespace BigRocket.Service

open Lib UpstreamPolicy List

theorem backoffMs_pos (attempt : Nat) : 0 < backoffMs attempt := by
  have hall : ∀ i < 5, (0 : Int) < [2000, 4000, 8000, 15000, 30000].getD i 0 := by decide
  exact hall (min (attempt - 1) 4) (by omega)

namespace UpstreamSupervisor

/-! ## One step -/

structure FailFacts (now : Int) (h : HostAnswers) (s : UpstreamSupervisor)
    (result : UpstreamSupervisor × Deeds) : Prop where
  quiet : result.2.verdict = none ∧ result.2.probe = none ∧ result.2.stalls = none
  working : result.1.workingSince = 0
  probes : result.1.probeFailures = 0
  pending : result.1.pendingRestartAt = 0 ∨
    (result.1.pendingRestartAt = s.pendingRestartAt ∧ result.1.attempt = s.attempt) ∨
    result.1.pendingRestartAt = now + backoffMs result.1.attempt
  restarts : result.2.restarts.isSome = true → h.hasUsablePath = true ∧ s.pendingRestartAt ≠ 0 ∧
    s.pendingRestartAt ≤ now ∧ result.1.pendingRestartAt = 0 ∧ result.1.attempt = s.attempt ∧
    result.1.stalledReason = none
  stalled : result.2.restarts = none → result.1.stalledReason = s.stalledReason

theorem failFacts_onFailed (s : UpstreamSupervisor) (now : Int) (reason : String)
    (h : HostAnswers) : FailFacts now h s (s.onFailed now reason h) := by
  have hpos := backoffMs_pos (s.attempt + 1)
  unfold onFailed schedule retry
  by_cases hpending : s.pendingRestartAt = 0
  · simp only [hpending, if_true]
    split
    · exact ⟨⟨rfl, rfl, rfl⟩, rfl, rfl, .inr (.inr rfl), nofun, fun _ => rfl⟩
    · rw [if_neg (by omega)]
      exact ⟨⟨rfl, rfl, rfl⟩, rfl, rfl, .inr (.inr rfl), nofun, fun _ => rfl⟩
  · simp only [hpending, if_false]
    split
    · exact ⟨⟨rfl, rfl, rfl⟩, rfl, rfl, .inr (.inl ⟨rfl, rfl⟩), nofun, fun _ => rfl⟩
    · rename_i husable
      split
      · rename_i hdue
        exact ⟨⟨rfl, rfl, rfl⟩, rfl, rfl, .inl rfl,
          fun _ => ⟨by simpa using husable, hpending, hdue, rfl, rfl, rfl⟩, nofun⟩
      · exact ⟨⟨rfl, rfl, rfl⟩, rfl, rfl, .inr (.inl ⟨rfl, rfl⟩), nofun, fun _ => rfl⟩

end UpstreamSupervisor

namespace SupervisorStep

def Working (x : SupervisorStep) : Prop :=
  x.deeds.verdict = some .progressing ∨ x.deeds.verdict = some .needsConverge

def Settled (x : SupervisorStep) : Prop :=
  x.deeds.verdict = some .healthy ∨ (∃ reason, x.deeds.verdict = some (.failed reason)) ∨
    x.event = .onChoiceChanged ∨ x.event = .stop

def Restarts (x : SupervisorStep) : Prop := x.deeds.restarts.isSome = true

def Stalls (x : SupervisorStep) : Prop := x.deeds.stalls.isSome = true

structure Facts (x : SupervisorStep) : Prop where
  pending : x.after.pendingRestartAt = 0 ∨
    (x.after.pendingRestartAt = x.before.pendingRestartAt ∧ x.after.attempt = x.before.attempt) ∨
    (∃ now, x.event.tickTime = some now ∧
      x.after.pendingRestartAt = now + backoffMs x.after.attempt) ∨
    x.event.tickTime = none
  probes : x.after.probeFailures = 0 ∨
    (x.deeds.probe = none ∧ x.after.probeFailures = x.before.probeFailures) ∨
    (x.deeds.probe = some false ∧ x.after.probeFailures = x.before.probeFailures + 1)
  working : x.after.workingSince = 0 ∨
    (x.after.workingSince = x.before.workingSince ∧ ¬ x.Settled) ∨
    (x.event.tickTime = some x.after.workingSince ∧ x.Working)
  stalled : x.after.stalledReason.isSome = true → x.Stalls ∨
    (x.before.stalledReason.isSome = true ∧ ¬ x.Restarts)
  stalls : x.Stalls →
    (x.deeds.probe = some false ∧ probeFailuresToRestart ≤ x.before.probeFailures + 1) ∨
    (x.deeds.verdict = some .progressing ∧ x.before.workingSince ≠ 0 ∧
      ∃ now, x.event.tickTime = some now ∧ chainBudgetMs < now - x.before.workingSince)
  restarts : x.Restarts → ∃ now h, x.event = .tick now h ∧ h.hasUsablePath = true ∧
    x.before.pendingRestartAt ≠ 0 ∧ x.before.pendingRestartAt ≤ now ∧
    x.after.pendingRestartAt = 0 ∧ x.after.attempt = x.before.attempt ∧
    ((∃ reason, x.deeds.verdict = some (.failed reason)) ∨
      x.before.stalledReason.isSome = true ∨ x.Stalls)

variable {s : UpstreamSupervisor} {now : Int} {h : HostAnswers}

variable {deeds : Deeds}

theorem facts_failing {s₁ : UpstreamSupervisor} {reason : String}
    (hdeeds : deeds.restarts = (s₁.onFailed now reason h).2.restarts)
    (hpending : s₁.pendingRestartAt = 0 ∨
      (s₁.pendingRestartAt = s.pendingRestartAt ∧ s₁.attempt = s.attempt))
    (hstalled : s₁.stalledReason.isSome = true →
      deeds.stalls.isSome = true ∨ s.stalledReason.isSome = true)
    (hstalls : deeds.stalls.isSome = true →
      (deeds.probe = some false ∧ probeFailuresToRestart ≤ s.probeFailures + 1) ∨
      (deeds.verdict = some .progressing ∧ s.workingSince ≠ 0 ∧
        chainBudgetMs < now - s.workingSince))
    (hreason : (∃ reason, deeds.verdict = some (.failed reason)) ∨
      s.stalledReason.isSome = true ∨ deeds.stalls.isSome = true) :
    Facts ⟨.tick now h, s, (s₁.onFailed now reason h).1, deeds⟩ := by
  have hfail : UpstreamSupervisor.FailFacts now h s₁ (s₁.onFailed now reason h) :=
    UpstreamSupervisor.failFacts_onFailed ..
  refine ⟨?_, .inl hfail.probes, .inl hfail.working, fun hafter => ?_, fun hset => ?_,
    fun hrestarts => ?_⟩
  · rcases hfail.pending with hzero | ⟨hkept, hattempt⟩ | hnew
    · exact .inl hzero
    · rcases hpending with hzero | ⟨hsame, hsame'⟩
      · exact .inl (hkept.trans hzero)
      · exact .inr (.inl ⟨hkept.trans hsame, hattempt.trans hsame'⟩)
    · exact .inr (.inr (.inl ⟨now, rfl, hnew⟩))
  · -- a restart forgets the reason
    have hnone : deeds.restarts = none := by
      by_contra hsome
      rw [hdeeds] at hsome
      have hforgot := (hfail.restarts (Option.isSome_iff_ne_none.mpr hsome)).2.2.2.2.2
      rw [hforgot] at hafter
      cases hafter
    rw [hdeeds] at hnone
    rw [hfail.stalled hnone] at hafter
    rcases hstalled hafter with hset | hbefore
    · exact .inl hset
    · refine .inr ⟨hbefore, ?_⟩
      rw [Restarts, hdeeds, hnone]
      simp
  · rcases hstalls hset with hprobes | ⟨hverdict, hne, hbudget⟩
    · exact .inl hprobes
    · exact .inr ⟨hverdict, hne, now, rfl, hbudget⟩
  · rw [Restarts, hdeeds] at hrestarts
    obtain ⟨husable, hne, hdue, hzero, hattempt, -⟩ := hfail.restarts hrestarts
    rcases hpending with hunset | ⟨hsame, hsame'⟩
    · exact absurd hunset hne
    · exact ⟨now, h, rfl, husable, hsame ▸ hne, hsame ▸ hdue, hzero, hattempt.trans hsame', hreason⟩

theorem facts_calm {s' : UpstreamSupervisor} {event : SupervisorEvent}
    (hstalls : deeds.stalls = none) (hrestarts : deeds.restarts = none)
    (hstalled : s'.stalledReason = s.stalledReason ∨ s'.stalledReason = none)
    (hpending : s'.pendingRestartAt = 0 ∨
      (s'.pendingRestartAt = s.pendingRestartAt ∧ s'.attempt = s.attempt) ∨ event.tickTime = none)
    (hprobes : s'.probeFailures = 0 ∨
      (deeds.probe = none ∧ s'.probeFailures = s.probeFailures) ∨
      (deeds.probe = some false ∧ s'.probeFailures = s.probeFailures + 1))
    (hworking : s'.workingSince = 0 ∨
      (s'.workingSince = s.workingSince ∧ ¬ Settled ⟨event, s, s', deeds⟩) ∨
      (event.tickTime = some s'.workingSince ∧ Working ⟨event, s, s', deeds⟩)) :
    Facts ⟨event, s, s', deeds⟩ := by
  refine ⟨?_, hprobes, hworking, fun hafter => ?_, fun hset => ?_, fun hmade => ?_⟩
  · rcases hpending with hzero | hkept | hother
    · exact .inl hzero
    · exact .inr (.inl hkept)
    · exact .inr (.inr (.inr hother))
  · rcases hstalled with hsame | hnone
    · refine .inr ⟨hsame ▸ hafter, ?_⟩
      rw [Restarts, hrestarts]
      simp
    · rw [hnone] at hafter
      cases hafter
  · rw [Stalls, hstalls] at hset
    cases hset
  · rw [Restarts, hrestarts] at hmade
    cases hmade

theorem facts_converge (s : UpstreamSupervisor) (now : Int) (h : HostAnswers) :
    Facts ⟨.tick now h, s, (s.onConverge now).1,
      { (s.onConverge now).2 with verdict := some .needsConverge }⟩ := by
  unfold UpstreamSupervisor.onConverge
  by_cases hzero : s.workingSince = 0
  · simp only [hzero, if_true]
    exact facts_calm rfl rfl (.inl rfl) (.inr (.inl ⟨rfl, rfl⟩)) (.inr (.inl ⟨rfl, rfl⟩))
      (.inr (.inr ⟨rfl, .inr rfl⟩))
  · simp only [hzero, if_false]
    refine facts_calm rfl rfl (.inl rfl) (.inr (.inl ⟨rfl, rfl⟩)) (.inr (.inl ⟨rfl, rfl⟩))
      (.inr (.inl ⟨rfl, ?_⟩))
    simp [Settled]

theorem facts_judged {verdict : Verdict} (result : UpstreamSupervisor × Deeds)
    (hstalled : s.stalledReason = none)
    (hjudged : UpstreamSupervisor.JudgedCase s now h verdict result) :
    Facts ⟨.tick now h, s, result.1, { result.2 with verdict := some verdict }⟩ := by
  cases hjudged with
  | healthy lastProbeAt probeFailures probe hprobe =>
    exact facts_calm rfl rfl (.inl rfl) (.inl rfl) hprobe (.inl rfl)
  | healthyStalls s₁ reason hstate hcount =>
    subst hstate
    exact facts_failing rfl (.inl rfl) (fun _ => .inl rfl) (fun _ => .inl ⟨rfl, hcount⟩)
      (.inr (.inr rfl))
  | progressing s₁ workingSince hstate hworking =>
    subst hstate
    refine facts_calm rfl rfl (.inl rfl) (.inr (.inl ⟨rfl, rfl⟩)) (.inl rfl) ?_
    rcases hworking with rfl | hsame
    · exact .inr (.inr ⟨rfl, .inl rfl⟩)
    · exact .inr (.inl ⟨hsame, by simp [Settled]⟩)
  | progressingStalls s₁ reason hstate hworking hbudget =>
    subst hstate
    exact facts_failing rfl (.inr ⟨rfl, rfl⟩) (fun _ => .inl rfl)
      (fun _ => .inr ⟨rfl, hworking, hbudget⟩) (.inr (.inr rfl))
  | needsConverge => exact facts_converge s now h
  | failed reason =>
    have hquiet := (UpstreamSupervisor.failFacts_onFailed s now reason h).quiet.2.2
    refine facts_failing rfl (.inr ⟨rfl, rfl⟩) (fun hset => ?_) (fun hset => ?_)
      (.inl ⟨reason, rfl⟩)
    · rw [hstalled] at hset
      cases hset
    · rw [hquiet] at hset
      cases hset

theorem facts_idle (hverdict : deeds.verdict = none) (hprobe : deeds.probe = none)
    (hstalls : deeds.stalls = none) (hrestarts : deeds.restarts = none) :
    Facts ⟨.tick now h, s, s, deeds⟩ := by
  refine facts_calm hstalls hrestarts (.inl rfl) (.inr (.inl ⟨rfl, rfl⟩))
    (.inr (.inl ⟨hprobe, rfl⟩)) (.inr (.inl ⟨rfl, ?_⟩))
  simp [Settled, hverdict]

theorem facts_tick (s : UpstreamSupervisor) (now : Int) (h : HostAnswers) :
    Facts ⟨.tick now h, s, (s.tick now h).1, (s.tick now h).2⟩ := by
  have hcase := UpstreamSupervisor.tickCase_tick s now h
  generalize s.tick now h = result at hcase ⊢
  cases hcase with
  | off hoff => exact facts_idle rfl rfl rfl rfl
  | reset hnone hresets => exact facts_calm rfl rfl (.inr rfl) (.inl rfl) (.inl rfl) (.inl rfl)
  | unchosen hnone hresets => exact facts_idle rfl rfl rfl rfl
  | stalled hrunning hchosen reason hstalled =>
    have hsome : s.stalledReason.isSome = true := by rw [hstalled]; rfl
    have hquiet := (UpstreamSupervisor.failFacts_onFailed s now reason h).quiet.2.2
    refine facts_failing rfl (.inr ⟨rfl, rfl⟩) (fun _ => .inr hsome) (fun hset => ?_)
      (.inr (.inl hsome))
    rw [hquiet] at hset
    cases hset
  | judged hrunning hchosen hstalled verdict hverdict result hjudged =>
    exact facts_judged result hstalled hjudged

theorem facts_step (s : UpstreamSupervisor) (event : SupervisorEvent) :
    Facts ⟨event, s, (s.step event).1, (s.step event).2⟩ := by
  cases event with
  | tick now h => exact facts_tick s now h
  | onPathsChanged now =>
    refine facts_calm rfl rfl (.inl rfl) (.inr (.inr rfl)) (.inr (.inl ⟨rfl, rfl⟩))
      (.inr (.inl ⟨rfl, ?_⟩))
    simp [Settled, UpstreamSupervisor.step]
  | onChoiceChanged => exact facts_calm rfl rfl (.inr rfl) (.inl rfl) (.inl rfl) (.inl rfl)
  | stop => exact facts_calm rfl rfl (.inr rfl) (.inl rfl) (.inl rfl) (.inl rfl)

end SupervisorStep

/-! ## What the fields stand for -/

def TicksInOrder (events : List SupervisorEvent) : Prop :=
  (events.filterMap SupervisorEvent.tickTime).Pairwise (· ≤ ·)

/-- The pending time lies a backoff behind the last restart, if nothing but
ticks came after that. -/
def BackedOff (history : List SupervisorStep) (attempt : Nat) (time : Int) : Prop :=
  ∀ older first between restartedAt, history = older ++ first :: between → first.Restarts →
    (∀ y ∈ between, ¬ y.Restarts ∧ y.event.tickTime ≠ none) →
    first.event.tickTime = some restartedAt → restartedAt + backoffMs attempt ≤ time

def ProbesFailed (history : List SupervisorStep) (count : Nat) : Prop :=
  ∃ older recent, history = older ++ recent ∧
    count ≤ recent.countP (fun y => y.deeds.probe = some false) ∧
    ∀ y ∈ recent, y.deeds.probe ≠ some true

def WorkingSince (history : List SupervisorStep) (since : Int) : Prop :=
  ∃ older first between, history = older ++ first :: between ∧
    first.event.tickTime = some since ∧ first.Working ∧ ∀ y ∈ between, ¬ y.Settled

def Stalled (history : List SupervisorStep) : Prop :=
  ∃ older first between, history = older ++ first :: between ∧ first.Stalls ∧
    ∀ y ∈ between, ¬ y.Restarts

structure Meaning (history : List SupervisorStep) (s : UpstreamSupervisor) : Prop where
  pending : s.pendingRestartAt ≠ 0 → BackedOff history s.attempt s.pendingRestartAt
  probes : ProbesFailed history s.probeFailures
  working : s.workingSince ≠ 0 → WorkingSince history s.workingSince
  stalled : s.stalledReason.isSome = true → Stalled history

variable {history : List SupervisorStep} {x : SupervisorStep}

variable {attempt : Nat}

theorem backedOff_concat {time : Int} (hquiet : ¬ x.Restarts)
    (h : ∀ older first between restartedAt, history = older ++ first :: between → first.Restarts →
      (∀ y ∈ between ++ [x], ¬ y.Restarts ∧ y.event.tickTime ≠ none) →
      first.event.tickTime = some restartedAt → restartedAt + backoffMs attempt ≤ time) :
    BackedOff (history ++ [x]) attempt time := by
  intro older first between restartedAt heq hfirst hbetween htime
  rcases eq_nil_or_concat between with rfl | ⟨between', last, rfl⟩
  · have hx := (append_inj' heq rfl).2
    cases hx
    exact absurd hfirst hquiet
  · have hcut : history ++ [x] = (older ++ first :: between') ++ [last] := by simpa using heq
    obtain ⟨hhistory, hx⟩ := append_inj' hcut rfl
    cases hx
    exact h older first between' restartedAt hhistory hfirst (by simpa using hbetween) htime

theorem BackedOff.concat {time : Int} (h : BackedOff history attempt time) (hquiet : ¬ x.Restarts) :
    BackedOff (history ++ [x]) attempt time :=
  backedOff_concat hquiet fun older first between restartedAt heq hfirst hbetween =>
    h older first between restartedAt heq hfirst fun y hy =>
      hbetween y (mem_append_left _ hy)

theorem backedOff_concat_of_other {time : Int} (hquiet : ¬ x.Restarts)
    (hother : x.event.tickTime = none) : BackedOff (history ++ [x]) attempt time :=
  backedOff_concat hquiet fun _ _ _ _ _ _ hbetween => absurd hother (hbetween x (by simp)).2

theorem backedOff_of_ordered {now : Int}
    (hordered : ∀ y ∈ history, ∀ t, y.event.tickTime = some t → t ≤ now) :
    BackedOff history attempt (now + backoffMs attempt) := by
  intro older first between restartedAt heq hfirst hbetween htime
  have := hordered first (by simp [heq]) restartedAt htime
  omega

theorem Meaning.pending_concat (h : Meaning history x.before) (hfacts : x.Facts)
    (hordered : ∀ y ∈ history ++ [x], ∀ t, y.event.tickTime = some t →
      ∀ now, x.event.tickTime = some now → t ≤ now)
    (hpending : x.after.pendingRestartAt ≠ 0) :
    BackedOff (history ++ [x]) x.after.attempt x.after.pendingRestartAt := by
  have hquiet : ¬ x.Restarts := by
    intro hrestarts
    obtain ⟨now, host, -, -, -, -, hzero, -⟩ := hfacts.restarts hrestarts
    exact hpending hzero
  rcases hfacts.pending with hzero | ⟨hkept, hattempt⟩ | ⟨now, htime, hnew⟩ | hother
  · exact absurd hzero hpending
  · rw [hkept, hattempt]
    exact (h.pending (hkept ▸ hpending)).concat hquiet
  · rw [hnew]
    exact backedOff_of_ordered fun y hy t ht => hordered y hy t ht now htime
  · exact backedOff_concat_of_other hquiet hother

theorem Meaning.probes_concat (h : Meaning history x.before) (hfacts : x.Facts) :
    ProbesFailed (history ++ [x]) x.after.probeFailures := by
  obtain ⟨older, recent, heq, hcount, hnone⟩ := h.probes
  rcases hfacts.probes with hzero | ⟨hprobe, hsame⟩ | ⟨hprobe, hmore⟩
  · exact ⟨history ++ [x], [], by simp, by simp [hzero], by simp⟩
  · refine ⟨older, recent ++ [x], by simp [heq], ?_, fun y hy => ?_⟩
    · rw [countP_append]
      omega
    · rcases mem_append.mp hy with hy | hy
      · exact hnone y hy
      · rw [mem_singleton.mp hy, hprobe]
        exact nofun
  · refine ⟨older, recent ++ [x], by simp [heq], ?_, fun y hy => ?_⟩
    · rw [countP_append, countP_singleton, hprobe]
      simp only [decide_true, if_true]
      omega
    · rcases mem_append.mp hy with hy | hy
      · exact hnone y hy
      · rw [mem_singleton.mp hy, hprobe]
        simp

theorem Meaning.working_concat (h : Meaning history x.before) (hfacts : x.Facts)
    (hworking : x.after.workingSince ≠ 0) : WorkingSince (history ++ [x]) x.after.workingSince := by
  rcases hfacts.working with hzero | ⟨hsame, hsettled⟩ | ⟨htime, hnow⟩
  · exact absurd hzero hworking
  · obtain ⟨older, first, between, heq, htime, hfirst, hbetween⟩ := h.working (hsame ▸ hworking)
    refine ⟨older, first, between ++ [x], by simp [heq], hsame ▸ htime, hfirst, fun y hy => ?_⟩
    rcases mem_append.mp hy with hy | hy
    · exact hbetween y hy
    · rw [mem_singleton.mp hy]
      exact hsettled
  · exact ⟨history, x, [], by simp, htime, hnow, by simp⟩

theorem Meaning.stalled_concat (h : Meaning history x.before) (hfacts : x.Facts)
    (hstalled : x.after.stalledReason.isSome = true) : Stalled (history ++ [x]) := by
  rcases hfacts.stalled hstalled with hset | ⟨hbefore, hquiet⟩
  · exact ⟨history, x, [], by simp, hset, by simp⟩
  · obtain ⟨older, first, between, heq, hfirst, hbetween⟩ := h.stalled hbefore
    refine ⟨older, first, between ++ [x], by simp [heq], hfirst, fun y hy => ?_⟩
    rcases mem_append.mp hy with hy | hy
    · exact hbetween y hy
    · rw [mem_singleton.mp hy]
      exact hquiet

/-! ## Every run -/

structure Justified (before : List SupervisorStep) (x : SupervisorStep) : Prop where
  restart : x.Restarts → (∃ now h, x.event = .tick now h ∧ h.hasUsablePath = true) ∧
    ((∃ reason, x.deeds.verdict = some (.failed reason)) ∨
      x.before.stalledReason.isSome = true ∨ x.Stalls)
  remembered : x.before.stalledReason.isSome = true → Stalled before
  stall : x.Stalls →
    (x.deeds.probe = some false ∧ ProbesFailed before (probeFailuresToRestart - 1)) ∨
    (x.deeds.verdict = some .progressing ∧ ∃ since now, WorkingSince before since ∧
      x.event.tickTime = some now ∧ chainBudgetMs < now - since)
  spaced : x.Restarts → ∀ now, x.event.tickTime = some now → BackedOff before x.after.attempt now

theorem Meaning.justified (h : Meaning history x.before) (hfacts : x.Facts) :
    Justified history x := by
  refine ⟨fun hrestarts => ?_, h.stalled, fun hstalls => ?_, fun hrestarts now htime => ?_⟩
  · obtain ⟨now, host, hevent, husable, -, -, -, -, hreason⟩ := hfacts.restarts hrestarts
    exact ⟨⟨now, host, hevent, husable⟩, hreason⟩
  · rcases hfacts.stalls hstalls with ⟨hprobe, hcount⟩ | ⟨hverdict, hne, now, htime, hbudget⟩
    · obtain ⟨older, recent, heq, hle, hnone⟩ := h.probes
      exact .inl ⟨hprobe, older, recent, heq, by omega, hnone⟩
    · exact .inr ⟨hverdict, x.before.workingSince, now, h.working hne, htime, hbudget⟩
  · obtain ⟨now', host, hevent, -, hne, hdue, -, hattempt, -⟩ := hfacts.restarts hrestarts
    rw [hevent] at htime
    cases htime
    intro older first between restartedAt heq hfirst hbetween hfirstTime
    have hbacked := h.pending hne older first between restartedAt heq hfirst hbetween hfirstTime
    rw [hattempt]
    omega

theorem superviseRun_concat (events : List SupervisorEvent) (e : SupervisorEvent) :
    superviseRun (events ++ [e]) = recordStep (superviseRun events) e := exec_concat ..

theorem map_event_superviseRun (events : List SupervisorEvent) :
    (superviseRun events).2.map SupervisorStep.event = events := by
  induction events using List.reverseRecOn with
  | nil => rfl
  | append_singleton events e ih =>
    rw [superviseRun_concat, recordStep, map_append, ih]
    rfl

theorem TicksInOrder.concat {events : List SupervisorEvent} {e : SupervisorEvent}
    (h : TicksInOrder (events ++ [e])) :
    TicksInOrder events ∧ ∀ e' ∈ events, ∀ t, e'.tickTime = some t →
      ∀ now, e.tickTime = some now → t ≤ now := by
  rw [TicksInOrder, filterMap_append, pairwise_append] at h
  refine ⟨h.1, fun e' he' t ht now hnow => h.2.2 t ?_ now ?_⟩
  · exact mem_filterMap.mpr ⟨e', he', ht⟩
  · exact mem_filterMap.mpr ⟨e, by simp, hnow⟩

theorem meaning_superviseRun {events : List SupervisorEvent} (h : TicksInOrder events) :
    Meaning (superviseRun events).2 (superviseRun events).1 ∧
      AlongRun Justified (superviseRun events).2 := by
  induction events using List.reverseRecOn with
  | nil =>
    refine ⟨⟨fun hne => absurd rfl hne, ?_, fun hne => absurd rfl hne, nofun⟩, alongRun_nil⟩
    exact ⟨[], [], rfl, le_rfl, by simp⟩
  | append_singleton events e ih =>
    obtain ⟨hbefore, hordered⟩ := h.concat
    obtain ⟨hmeaning, hall⟩ := ih hbefore
    rw [superviseRun_concat]
    set s := (superviseRun events).1
    set history := (superviseRun events).2 with hhistory
    have hfacts : SupervisorStep.Facts ⟨e, s, (s.step e).1, (s.step e).2⟩ :=
      SupervisorStep.facts_step s e
    have htimes : ∀ y ∈ history ++ [⟨e, s, (s.step e).1, (s.step e).2⟩],
        ∀ t, y.event.tickTime = some t → ∀ now, e.tickTime = some now → t ≤ now := by
      intro y hy t ht now hnow
      rcases mem_append.mp hy with hy | hy
      · refine hordered y.event ?_ t ht now hnow
        rw [← map_event_superviseRun events]
        exact mem_map_of_mem hy
      · rw [mem_singleton.mp hy] at ht
        rw [ht] at hnow
        cases hnow
        exact le_rfl
    exact ⟨⟨hmeaning.pending_concat hfacts htimes, hmeaning.probes_concat hfacts,
      hmeaning.working_concat hfacts, hmeaning.stalled_concat hfacts⟩,
      alongRun_concat.mpr ⟨hall, hmeaning.justified hfacts⟩⟩

/-- **Restarts are backed off and justified**, in every run whose ticks come
in the order of time, whatever the host answers and whatever other events
come. -/
theorem restarts_justified (events : List SupervisorEvent) (h : TicksInOrder events) :
    AlongRun Justified (superviseRun events).2 :=
  (meaning_superviseRun h).2

def aetherHost (status : RuntimeStatus) : HostAnswers where
  isVpnRunning := true
  choice := .aether
  stageStatus _ := status
  usableForProbe := true
  probeChain := true
  hasUsablePath := true

def failsTwice : List SupervisorEvent :=
  [1000, 3000, 3000, 7000].map fun now => .tick now (aetherHost { phase := .failed })

theorem restarts_justified_failsTwice :
    (superviseRun failsTwice).2.map (fun x => x.deeds.restarts.isSome) =
        [false, true, false, true] ∧
      AlongRun Justified (superviseRun failsTwice).2 :=
  ⟨by decide, restarts_justified failsTwice (by unfold TicksInOrder; decide)⟩

theorem restarted_after_converging :
    (superviseRun
        [.tick 1 (aetherHost { phase := .idle }), .tick 180002 (aetherHost { phase := .starting }),
          .tick 182002 (aetherHost { phase := .starting })]).2.map
        (fun x => (x.deeds.verdict, x.deeds.stalls.isSome, x.deeds.restarts.isSome)) =
      [(some .needsConverge, false, false), (some .progressing, true, false),
        (none, false, true)] := by
  decide

end BigRocket.Service
