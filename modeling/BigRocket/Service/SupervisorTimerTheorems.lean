/-
What the supervisor's timers stand for: that of the pending restart and that
since which a stage is idle.
-/
import BigRocket.Service.SupervisorTheorems

namespace BigRocket.Service

open Lib UpstreamPolicy List

/-! ## The pending restart -/

namespace SupervisorStep

/-- The tick found the chain failed: by its verdict, or for a stalled reason
that it sets or that is set. -/
def FoundFailed (x : SupervisorStep) : Prop :=
  (∃ reason, x.deeds.verdict = some (.failed reason)) ∨ x.Stalls ∨
    ∃ now h, x.event = .tick now h ∧ h.isVpnRunning = true ∧ stagesFor h.choice ≠ [] ∧
      x.before.stalledReason.isSome = true

end SupervisorStep

namespace UpstreamSupervisor

variable {s : UpstreamSupervisor} {now : Int} {h : HostAnswers}

/-- While a restart is pending, the tick is made with the VPN on and does not
find the chain on its way or in need of a start. -/
def EndsOrKeepsFailure (s : UpstreamSupervisor) (now : Int) (h : HostAnswers) : Prop :=
  s.pendingRestartAt ≠ 0 → h.isVpnRunning = true ∧
    (stagesFor h.choice ≠ [] → s.stalledReason = none →
      verdictOf now h ≠ .progressing ∧ verdictOf now h ≠ .needsConverge)

instance (s : UpstreamSupervisor) (now : Int) (h : HostAnswers) :
    Decidable (s.EndsOrKeepsFailure now h) :=
  inferInstanceAs (Decidable (_ → _ ∧ (_ → _ → _ ∧ _)))

theorem attempt_onFailed (s : UpstreamSupervisor) (now : Int) (reason : String) (h : HostAnswers) :
    (s.onFailed now reason h).1.attempt =
      if s.pendingRestartAt = 0 then s.attempt + 1 else s.attempt := by
  rcases onFailed_cases s now reason h with ⟨level, -, heq⟩ | heq
  · rw [heq]
    exact schedule_attempt s now
  · rw [heq]
    exact schedule_attempt s now

structure Armed (s : UpstreamSupervisor) (now : Int) (s' : UpstreamSupervisor) : Prop where
  counted : s'.attempt ≠ 0
  since : (s'.pendingRestartAt = s.pendingRestartAt ∧ s'.attempt = s.attempt) ∨
    s'.pendingRestartAt = now + backoffMs s'.attempt

theorem armed_onFailed {s₁ : UpstreamSupervisor} {reason : String}
    (hkept : s₁.pendingRestartAt = 0 ∨
      (s₁.pendingRestartAt = s.pendingRestartAt ∧ s₁.attempt = s.attempt))
    (hcounted : s.pendingRestartAt ≠ 0 → s.attempt ≠ 0)
    (hpending : (s₁.onFailed now reason h).1.pendingRestartAt ≠ 0) :
    Armed s now (s₁.onFailed now reason h).1 := by
  have hattempt := attempt_onFailed s₁ now reason h
  have hfail := (failFacts_onFailed s₁ now reason h).pending
  rcases hkept with hzero | ⟨hsame, hsame'⟩
  · rw [hzero, if_pos rfl] at hattempt
    refine ⟨by omega, ?_⟩
    rcases hfail with hnone | ⟨hnone, -⟩ | hnew
    · exact absurd hnone hpending
    · exact absurd (hnone.trans hzero) hpending
    · exact .inr hnew
  · rcases hfail with hnone | ⟨hold, hold'⟩ | hnew
    · exact absurd hnone hpending
    · have hne : s.pendingRestartAt ≠ 0 := by
        rw [← hsame, ← hold]
        exact hpending
      refine ⟨?_, .inl ⟨hold.trans hsame, hold'.trans hsame'⟩⟩
      rw [hold', hsame']
      exact hcounted hne
    · refine ⟨?_, .inr hnew⟩
      rw [hattempt]
      split
      · omega
      · rename_i hne
        rw [hsame']
        exact hcounted (hsame ▸ hne)

theorem pending_tick (hcounted : s.pendingRestartAt ≠ 0 → s.attempt ≠ 0)
    (hkeeps : s.EndsOrKeepsFailure now h) (hpending : (s.tick now h).1.pendingRestartAt ≠ 0) :
    SupervisorStep.FoundFailed ⟨.tick now h, s, (s.tick now h).1, (s.tick now h).2⟩ ∧
      Armed s now (s.tick now h).1 := by
  generalize hresult : s.tick now h = result at hpending ⊢
  have hcase := hresult ▸ tickCase_tick s now h
  cases hcase with
  | off hoff => exact absurd (hkeeps hpending).1 (by rw [hoff]; decide)
  | reset hnone hresets => exact absurd rfl hpending
  | unchosen hnone hresets => exact absurd (.inr (.inl (hcounted hpending))) hresets
  | stalled hrunning hchosen reason hstalled =>
    exact ⟨.inr (.inr ⟨now, h, rfl, hrunning, hchosen, by rw [hstalled]; rfl⟩),
      armed_onFailed (.inr ⟨rfl, rfl⟩) hcounted hpending⟩
  | judged hrunning hchosen hstalled verdict hverdict result hjudged =>
    have hnot := fun hne => hverdict ▸ (hkeeps hne).2 hchosen hstalled
    cases hjudged with
    | healthy lastProbeAt probeFailures probe hprobe => exact absurd rfl hpending
    | healthyStalls s₁ reason hstate hcount =>
      exact ⟨.inr (.inl rfl), armed_onFailed (.inl (by rw [hstate]; rfl)) hcounted hpending⟩
    | progressing s₁ workingSince hstate hworking =>
      rw [hstate] at hpending
      exact absurd rfl (hnot hpending).1
    | progressingStalls s₁ reason hstate hworking hbudget =>
      have hkept : s₁.pendingRestartAt = s.pendingRestartAt ∧ s₁.attempt = s.attempt := by
        rw [hstate]
        exact ⟨rfl, rfl⟩
      exact ⟨.inr (.inl rfl), armed_onFailed (.inr hkept) hcounted hpending⟩
    | needsConverge => exact absurd rfl (hnot hpending).2
    | failed reason =>
      exact ⟨.inl ⟨reason, rfl⟩, armed_onFailed (.inr ⟨rfl, rfl⟩) hcounted hpending⟩

theorem foundFailed_of_restarts {e : SupervisorEvent}
    (hrestarts : SupervisorStep.Restarts ⟨e, s, (s.step e).1, (s.step e).2⟩) :
    SupervisorStep.FoundFailed ⟨e, s, (s.step e).1, (s.step e).2⟩ := by
  obtain ⟨now, h, hevent, -, -, -, -, -, hreason⟩ :=
    (SupervisorStep.facts_step s e).restarts hrestarts
  cases hevent
  rcases hreason with hverdict | hstalled | hstalls
  · exact .inl hverdict
  · refine .inr (.inr ⟨now, h, rfl, ?_⟩)
    generalize hresult : s.tick now h = result at hrestarts
    have hcase := hresult ▸ tickCase_tick s now h
    rw [step, hresult] at hrestarts
    cases hcase with
    | off hoff => cases hrestarts
    | reset hnone hresets => cases hrestarts
    | unchosen hnone hresets => cases hrestarts
    | stalled hrunning hchosen reason hreason => exact ⟨hrunning, hchosen, hstalled⟩
    | judged hrunning hchosen hnone verdict hverdict result hjudged =>
      exact ⟨hrunning, hchosen, hstalled⟩
  · exact .inr (.inl hstalls)

end UpstreamSupervisor

def TicksSince (P : SupervisorStep → Prop) (history : List SupervisorStep) (since : Int) : Prop :=
  ∃ older first between, history = older ++ first :: between ∧
    first.event.tickTime = some since ∧
    ∀ y ∈ first :: between, y.event.tickTime ≠ none → P y

section Stretch

variable {P : SupervisorStep → Prop} {history : List SupervisorStep} {x : SupervisorStep}
  {since : Int}

theorem TicksSince.concat (h : TicksSince P history since)
    (hlast : x.event.tickTime ≠ none → P x) : TicksSince P (history ++ [x]) since := by
  obtain ⟨older, first, between, heq, htime, hall⟩ := h
  refine ⟨older, first, between ++ [x], by simp [heq], htime, ?_⟩
  rw [← cons_append, forall_mem_append]
  exact ⟨hall, by simpa using hlast⟩

theorem ticksSince_last (htime : x.event.tickTime = some since) (hlast : P x) :
    TicksSince P (history ++ [x]) since :=
  ⟨history, x, [], rfl, htime, by simpa using fun _ => hlast⟩

theorem TicksSince.of_le (h : TicksSince P history since)
    (hordered : (history.filterMap fun y => y.event.tickTime).Pairwise (· < ·)) {t : Int}
    (hx : x ∈ history) (htime : x.event.tickTime = some t) (hle : since ≤ t) : P x := by
  obtain ⟨older, first, between, rfl, hfirst, hall⟩ := h
  rcases mem_append.mp hx with hold | hrecent
  · rw [filterMap_append, pairwise_append] at hordered
    have hlt := hordered.2.2 t (mem_filterMap.mpr ⟨x, hold, htime⟩) since
      (mem_filterMap.mpr ⟨first, by simp, hfirst⟩)
    omega
  · exact hall x hrecent (by rw [htime]; simp)

end Stretch

/-- What is asked of a restart: all ticks of the backoff before it found the
chain failed, and the first of the failed ticks in a row lies a whole backoff
back. -/
structure OnFreshTimer (before : List SupervisorStep) (x : SupervisorStep) : Prop where
  backoff : x.Restarts → ∀ t, x.event.tickTime = some t → ∀ y ∈ before ++ [x], ∀ t',
    y.event.tickTime = some t' → t - backoffMs x.after.attempt ≤ t' → t' ≤ t → y.FoundFailed
  own : x.Restarts → ∃ since t, TicksSince SupervisorStep.FoundFailed before since ∧
    x.event.tickTime = some t ∧
    since + backoffMs x.after.attempt ≤ t

def TicksIncrease (events : List SupervisorEvent) : Prop :=
  (events.filterMap SupervisorEvent.tickTime).Pairwise (· < ·)

/-- No change of the paths; and a tick that is made while a restart is
pending finds the chain failed, or ends the failure. -/
def RestartStaysDue (before : List SupervisorEvent) : SupervisorEvent → Prop
  | .tick now h => (superviseRun before).1.EndsOrKeepsFailure now h
  | .onPathsChanged _ => False
  | .onChoiceChanged | .stop => True

instance (before : List SupervisorEvent) : ∀ e, Decidable (RestartStaysDue before e)
  | .tick _ _ => by dsimp only [RestartStaysDue]; infer_instance
  | .onPathsChanged _ => instDecidableFalse
  | .onChoiceChanged | .stop => instDecidableTrue

structure PendingMeaning (history : List SupervisorStep) (s : UpstreamSupervisor) : Prop where
  counted : s.pendingRestartAt ≠ 0 → s.attempt ≠ 0
  since : s.pendingRestartAt ≠ 0 → ∃ since, TicksSince SupervisorStep.FoundFailed history since ∧
    s.pendingRestartAt = since + backoffMs s.attempt

theorem pendingMeaning_of_zero {history : List SupervisorStep} {s : UpstreamSupervisor}
    (h : s.pendingRestartAt = 0) : PendingMeaning history s :=
  ⟨fun hne => absurd h hne, fun hne => absurd h hne⟩

theorem PendingMeaning.tick {history : List SupervisorStep} {s : UpstreamSupervisor} {now : Int}
    {h : HostAnswers} (hmeaning : PendingMeaning history s) (hkeeps : s.EndsOrKeepsFailure now h) :
    PendingMeaning (history ++ [⟨.tick now h, s, (s.tick now h).1, (s.tick now h).2⟩])
      (s.tick now h).1 := by
  by_cases hpending : (s.tick now h).1.pendingRestartAt = 0
  · exact pendingMeaning_of_zero hpending
  · obtain ⟨hfound, hcounted, hsince⟩ :=
      UpstreamSupervisor.pending_tick hmeaning.counted hkeeps hpending
    refine ⟨fun _ => hcounted, fun _ => ?_⟩
    rcases hsince with ⟨hsame, hattempt⟩ | hnew
    · obtain ⟨since, hstretch, htime⟩ := hmeaning.since (hsame ▸ hpending)
      exact ⟨since, hstretch.concat fun _ => hfound, by rw [hsame, hattempt, htime]⟩
    · exact ⟨now, ticksSince_last rfl hfound, hnew⟩

variable {events : List SupervisorEvent}

theorem pendingMeaning_superviseRun (h : AlongRun RestartStaysDue events) :
    PendingMeaning (superviseRun events).2 (superviseRun events).1 := by
  refine exec_invariant (I := fun events => PendingMeaning (superviseRun events).2
    (superviseRun events).1) (pendingMeaning_of_zero rfl) (fun events e ih hcond => ?_) h
  rw [superviseRun_concat]
  cases e with
  | tick now h => exact ih.tick hcond
  | onPathsChanged now => exact hcond.elim
  | onChoiceChanged => exact pendingMeaning_of_zero rfl
  | stop => exact pendingMeaning_of_zero rfl

theorem filterMap_tickTime_superviseRun (events : List SupervisorEvent) :
    ((superviseRun events).2.filterMap fun y => y.event.tickTime) =
      events.filterMap SupervisorEvent.tickTime := by
  conv_rhs => rw [← map_event_superviseRun events, filterMap_map]
  rfl

theorem TicksIncrease.initial {before : List SupervisorEvent} (h : TicksIncrease events)
    (hinitial : before <+: events) : TicksIncrease before :=
  List.Pairwise.sublist (hinitial.sublist.filterMap _) h

theorem onFreshTimer_step {e : SupervisorEvent} (h : AlongRun RestartStaysDue events)
    (hclock : TicksIncrease (events ++ [e])) :
    OnFreshTimer (superviseRun events).2 ⟨e, (superviseRun events).1,
      ((superviseRun events).1.step e).1, ((superviseRun events).1.step e).2⟩ := by
  have hmeaning := pendingMeaning_superviseRun h
  have hordered : ((superviseRun events).2.filterMap fun y => y.event.tickTime).Pairwise
      (· < ·) := by
    rw [filterMap_tickTime_superviseRun]
    exact hclock.initial (prefix_append events [e])
  generalize superviseRun events = run at hmeaning hordered ⊢
  have hown : ∀ {t}, e.tickTime = some t →
      SupervisorStep.Restarts ⟨e, run.1, (run.1.step e).1, (run.1.step e).2⟩ →
      ∃ since, TicksSince SupervisorStep.FoundFailed run.2 since ∧
        since + backoffMs (run.1.step e).1.attempt ≤ t := by
    intro t htime hrestarts
    obtain ⟨now, host, hevent, -, hpending, hdue, -, hattempt, -⟩ :=
      (SupervisorStep.facts_step run.1 e).restarts hrestarts
    obtain ⟨since, hsince, hsame⟩ := hmeaning.since hpending
    cases hevent
    cases htime
    exact ⟨since, hsince, by rw [hattempt, ← hsame]; exact hdue⟩
  refine ⟨fun hrestarts t htime y hy t' htime' hle _ => ?_, fun hrestarts => ?_⟩
  · obtain ⟨since, hsince, hdue⟩ := hown htime hrestarts
    rcases mem_append.mp hy with hy | hy
    · exact hsince.of_le hordered hy htime' (by simp only at hle; omega)
    · rw [mem_singleton.mp hy]
      exact UpstreamSupervisor.foundFailed_of_restarts hrestarts
  · obtain ⟨now, host, hevent, -⟩ := (SupervisorStep.facts_step run.1 e).restarts hrestarts
    have htime : e.tickTime = some now := by
      cases hevent
      rfl
    obtain ⟨since, hsince, hdue⟩ := hown htime hrestarts
    exact ⟨since, now, hsince, htime, hdue⟩

/-- **No restart on a stale timer**, if the paths do not change and the ticks of a
pending restart find the chain failed or end the failure. -/
theorem restarts_onFreshTimer (events : List SupervisorEvent)
    (h : AlongRun RestartStaysDue events) (hclock : TicksIncrease events) :
    AlongRun OnFreshTimer (superviseRun events).2 := by
  induction events using List.reverseRecOn with
  | nil => exact alongRun_nil
  | append_singleton events e ih =>
    have hbefore := (alongRun_concat.mp h).1
    rw [superviseRun_concat]
    exact alongRun_concat.mpr ⟨ih hbefore (hclock.initial (prefix_append events [e])),
      onFreshTimer_step hbefore hclock⟩

def failsOnce : List SupervisorEvent :=
  [1000000, 1001000, 1002000].map fun now => .tick now (aetherHost { phase := .failed })

theorem restarts_onFreshTimer_failsOnce :
    (superviseRun failsOnce).2.map (fun x => x.deeds.restarts.isSome) = [false, false, true] ∧
      AlongRun OnFreshTimer (superviseRun failsOnce).2 :=
  ⟨by decide, restarts_onFreshTimer failsOnce (by decide) (by unfold TicksIncrease; decide)⟩

def failsAfresh : List SupervisorEvent :=
  [.tick 1000000 (aetherHost { phase := .failed }), .tick 1001000 (aetherHost { phase := .starting }),
    .tick 1002000 (aetherHost { phase := .failed })]

theorem failsAfresh_staleTimer :
    TicksIncrease failsAfresh ∧
      (superviseRun failsAfresh).2.map
          (fun x => (x.deeds.verdict, x.after.attempt, x.deeds.restarts.isSome)) =
        [(some (.failed "Aether: failed"), 1, false), (some .progressing, 1, false),
          (some (.failed "Aether: failed"), 1, true)] ∧
      ¬ AlongRun OnFreshTimer (superviseRun failsAfresh).2 := by
  refine ⟨by unfold TicksIncrease; decide, by decide, fun hall => ?_⟩
  have hlast := (alongRun_iff_forall_get.mp hall ⟨2, by decide⟩).backoff rfl 1002000 rfl
  have hmember : (superviseRun failsAfresh).2.get ⟨1, by decide⟩ ∈
      (superviseRun failsAfresh).2.take 2 ++ [(superviseRun failsAfresh).2.get ⟨2, by decide⟩] :=
    mem_append_left _ (mem_of_getElem? (i := 1) rfl)
  rcases hlast _ hmember 1001000 rfl (by decide) (by decide) with ⟨reason, hverdict⟩ | hstalls | hset
  · cases hverdict
  · cases hstalls
  · obtain ⟨now, h, -, -, -, hstalled⟩ := hset
    cases hstalled

/-! ## The idle time -/

namespace UpstreamSupervisor

variable {s : UpstreamSupervisor} {now : Int} {h : HostAnswers}

theorem idle_onFailed (s : UpstreamSupervisor) (now : Int) (reason : String) (h : HostAnswers) :
    (s.onFailed now reason h).1.idleSince = 0 ∧ (s.onFailed now reason h).2.converges = false := by
  rcases onFailed_cases s now reason h with ⟨level, -, heq⟩ | heq
  · rw [heq]
    exact ⟨schedule_idleSince s now, rfl⟩
  · rw [heq]
    exact ⟨schedule_idleSince s now, rfl⟩

/-- While a stage is idle, the tick is made with the VPN on, resets the
counters if no stage is chosen, and does not find the chain on its way. -/
def EndsOrKeepsIdling (s : UpstreamSupervisor) (now : Int) (h : HostAnswers) : Prop :=
  s.idleSince ≠ 0 → h.isVpnRunning = true ∧ (stagesFor h.choice = [] → s.Resets) ∧
    (stagesFor h.choice ≠ [] → s.stalledReason = none → verdictOf now h ≠ .progressing)

instance (s : UpstreamSupervisor) (now : Int) (h : HostAnswers) :
    Decidable (s.EndsOrKeepsIdling now h) :=
  inferInstanceAs (Decidable (_ → _ ∧ (_ → _) ∧ (_ → _ → _)))

theorem idle_tick (hkeeps : s.EndsOrKeepsIdling now h)
    (hidle : (s.tick now h).1.idleSince ≠ 0) :
    (s.tick now h).2.verdict = some .needsConverge ∧
      ((s.tick now h).1.idleSince = s.idleSince ∨ (s.tick now h).1.idleSince = now) := by
  generalize hresult : s.tick now h = result at hidle ⊢
  have hcase := hresult ▸ tickCase_tick s now h
  cases hcase with
  | off hoff => exact absurd (hkeeps hidle).1 (by rw [hoff]; decide)
  | reset hnone hresets => exact absurd rfl hidle
  | unchosen hnone hresets => exact absurd ((hkeeps hidle).2.1 hnone) hresets
  | stalled hrunning hchosen reason hstalled => exact absurd (idle_onFailed s now reason h).1 hidle
  | judged hrunning hchosen hstalled verdict hverdict result hjudged =>
    cases hjudged with
    | healthy lastProbeAt probeFailures probe hprobe => exact absurd rfl hidle
    | healthyStalls s₁ reason hstate hcount => exact absurd (idle_onFailed s₁ now reason h).1 hidle
    | progressing s₁ workingSince hstate hworking =>
      rw [hstate] at hidle
      exact absurd hverdict ((hkeeps hidle).2.2 hchosen hstalled)
    | progressingStalls s₁ reason hstate hworking hbudget =>
      exact absurd (idle_onFailed s₁ now reason h).1 hidle
    | needsConverge =>
      refine ⟨rfl, ?_⟩
      simp only [onConverge] at hidle ⊢
      by_cases hdue : now - (if s.idleSince = 0 then now else s.idleSince) ≥ convergeAfterMs
      · rw [if_pos hdue] at hidle
        exact absurd rfl hidle
      · rw [if_neg hdue]
        split
        · exact .inr rfl
        · exact .inl rfl
    | failed reason => exact absurd (idle_onFailed s now reason h).1 hidle

theorem converges_tick (hconverges : (s.tick now h).2.converges = true) :
    (s.tick now h).2.verdict = some .needsConverge ∧ s.idleSince ≠ 0 ∧
      convergeAfterMs ≤ now - s.idleSince := by
  generalize hresult : s.tick now h = result at hconverges ⊢
  have hcase := hresult ▸ tickCase_tick s now h
  have hnever : ∀ (s₁ : UpstreamSupervisor) (reason : String),
      (s₁.onFailed now reason h).2.converges ≠ true := by
    intro s₁ reason
    rw [(idle_onFailed s₁ now reason h).2]
    decide
  cases hcase with
  | off hoff => cases hconverges
  | reset hnone hresets => cases hconverges
  | unchosen hnone hresets => cases hconverges
  | stalled hrunning hchosen reason hstalled => exact absurd hconverges (hnever s reason)
  | judged hrunning hchosen hstalled verdict hverdict result hjudged =>
    cases hjudged with
    | healthy lastProbeAt probeFailures probe hprobe => cases hconverges
    | healthyStalls s₁ reason hstate hcount => exact absurd hconverges (hnever s₁ reason)
    | progressing s₁ workingSince hstate hworking => cases hconverges
    | progressingStalls s₁ reason hstate hworking hbudget => exact absurd hconverges (hnever s₁ reason)
    | needsConverge =>
      have hdue : convergeAfterMs ≤ now - (if s.idleSince = 0 then now else s.idleSince) :=
        of_decide_eq_true hconverges
      split at hdue
      · rw [sub_self] at hdue
        exact absurd hdue (by decide)
      · rename_i hset
        exact ⟨rfl, hset, hdue⟩
    | failed reason => exact absurd hconverges (hnever s reason)

end UpstreamSupervisor

def SupervisorStep.FoundIdle (x : SupervisorStep) : Prop := x.deeds.verdict = some .needsConverge

/-- What is asked of a step that starts the idle stage: all ticks found it so
for the whole time. -/
def Debounced (before : List SupervisorStep) (x : SupervisorStep) : Prop :=
  x.deeds.converges = true → ∃ since t, TicksSince SupervisorStep.FoundIdle (before ++ [x]) since ∧
    x.event.tickTime = some t ∧ convergeAfterMs ≤ t - since

/-- A tick that is made while a stage is idle finds it so, or ends the idle
time. -/
def IdlingGoesOn (before : List SupervisorEvent) : SupervisorEvent → Prop
  | .tick now h => (superviseRun before).1.EndsOrKeepsIdling now h
  | .onPathsChanged _ | .onChoiceChanged | .stop => True

instance (before : List SupervisorEvent) : ∀ e, Decidable (IdlingGoesOn before e)
  | .tick _ _ => by dsimp only [IdlingGoesOn]; infer_instance
  | .onPathsChanged _ | .onChoiceChanged | .stop => instDecidableTrue

def IdleMeaning (history : List SupervisorStep) (s : UpstreamSupervisor) : Prop :=
  s.idleSince ≠ 0 → TicksSince SupervisorStep.FoundIdle history s.idleSince

theorem idleMeaning_superviseRun (h : AlongRun IdlingGoesOn events) :
    IdleMeaning (superviseRun events).2 (superviseRun events).1 := by
  refine exec_invariant (I := fun events => IdleMeaning (superviseRun events).2
    (superviseRun events).1) (fun hne => absurd rfl hne) (fun events e ih hcond => ?_) h
  rw [superviseRun_concat]
  intro hidle
  cases e with
  | tick now h =>
    obtain ⟨hverdict, hsince⟩ := UpstreamSupervisor.idle_tick hcond hidle
    rcases hsince with hsame | hnew
    · show TicksSince _ _ ((superviseRun events).1.tick now h).1.idleSince
      rw [hsame]
      exact (ih (hsame ▸ hidle)).concat fun _ => hverdict
    · exact ticksSince_last (congrArg some hnew.symm) hverdict
  | onPathsChanged now => exact (ih hidle).concat fun htick => absurd rfl htick
  | onChoiceChanged => exact absurd rfl hidle
  | stop => exact absurd rfl hidle

/-- **Convergence is debounced**, in every run whose ticks, while a stage is
idle, find it so or end the idle time. -/
theorem converges_debounced (events : List SupervisorEvent) (h : AlongRun IdlingGoesOn events) :
    AlongRun Debounced (superviseRun events).2 := by
  induction events using List.reverseRecOn with
  | nil => exact alongRun_nil
  | append_singleton events e ih =>
    have hbefore := (alongRun_concat.mp h).1
    have hmeaning := idleMeaning_superviseRun hbefore
    rw [superviseRun_concat]
    refine alongRun_concat.mpr ⟨ih hbefore, fun hconverges => ?_⟩
    cases e with
    | tick now h =>
      obtain ⟨hverdict, hidle, hdue⟩ := UpstreamSupervisor.converges_tick hconverges
      exact ⟨_, now, (hmeaning hidle).concat fun _ => hverdict, rfl, hdue⟩
    | onPathsChanged now => cases hconverges
    | onChoiceChanged => cases hconverges
    | stop => cases hconverges

def staysIdle : List SupervisorEvent :=
  [1000000, 1002000, 1004000].map fun now => .tick now (aetherHost { phase := .idle })

theorem converges_debounced_staysIdle :
    (superviseRun staysIdle).2.map (fun x => x.deeds.converges) = [false, false, true] ∧
      AlongRun Debounced (superviseRun staysIdle).2 :=
  ⟨by decide, converges_debounced staysIdle (by decide)⟩

def idleAgain : List SupervisorEvent :=
  [.tick 1000000 (aetherHost { phase := .idle }), .tick 1002000 (aetherHost { phase := .starting }),
    .tick 1004000 (aetherHost { phase := .idle })]

theorem idleAgain_not_debounced :
    (superviseRun idleAgain).2.map (fun x => (x.deeds.verdict, x.deeds.converges)) =
        [(some .needsConverge, false), (some .progressing, false), (some .needsConverge, true)] ∧
      ¬ AlongRun Debounced (superviseRun idleAgain).2 := by
  refine ⟨by decide, fun hall => ?_⟩
  obtain ⟨since, t, hstretch, htime, hlong⟩ :=
    alongRun_iff_forall_get.mp hall ⟨2, by decide⟩ rfl
  have ht : (1004000 : Int) = t := Option.some.inj htime
  have hmember : (superviseRun idleAgain).2.get ⟨1, by decide⟩ ∈
      (superviseRun idleAgain).2.take 2 ++ [(superviseRun idleAgain).2.get ⟨2, by decide⟩] :=
    mem_append_left _ (mem_of_getElem? (i := 1) rfl)
  have hidle := hstretch.of_le (t := 1002000) (by decide) hmember rfl
    (by simp only [convergeAfterMs] at hlong; omega)
  cases hidle

end BigRocket.Service
