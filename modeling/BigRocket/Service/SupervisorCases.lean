/-
The ways of a tick, said once.
-/
import BigRocket.Service.Supervisor

namespace BigRocket.Service

open Lib UpstreamPolicy

namespace UpstreamSupervisor

def verdictOf (now : Int) (h : HostAnswers) : Verdict :=
  judge now ((stagesFor h.choice).map fun stage => (stage, h.stageStatus stage))

def Resets (s : UpstreamSupervisor) : Prop :=
  s.failingSince ≠ 0 ∨ s.attempt ≠ 0 ∨ s.alertShown = true

instance (s : UpstreamSupervisor) : Decidable s.Resets :=
  inferInstanceAs (Decidable (_ ∨ _ ∨ _))

inductive JudgedCase (s : UpstreamSupervisor) (now : Int) (h : HostAnswers) :
    Verdict → UpstreamSupervisor × Deeds → Prop
  | healthy (lastProbeAt : Int) (probeFailures : Nat) (probe : Option Bool)
      (hprobe : probeFailures = 0 ∨ (probe = none ∧ probeFailures = s.probeFailures) ∨
        (probe = some false ∧ probeFailures = s.probeFailures + 1)) :
      JudgedCase s now h .healthy ({ s.recovered now with lastProbeAt, probeFailures },
        { published := some { level := .ok }, probe
          clearsAlert := s.failingSince ≠ 0 && s.alertShown })
  | healthyStalls (s₁ : UpstreamSupervisor) (reason : String)
      (hstate : s₁ = { s.recovered now with
        lastProbeAt := now, probeFailures := 0, stalledReason := some reason })
      (hcount : probeFailuresToRestart ≤ s.probeFailures + 1) :
      JudgedCase s now h .healthy ((s₁.onFailed now reason h).1,
        { (s₁.onFailed now reason h).2 with
          probe := some false, stalls := some reason
          clearsAlert := s.failingSince ≠ 0 && s.alertShown })
  | progressing (s₁ : UpstreamSupervisor) (workingSince : Int)
      (hstate : s₁ = { s with readySince := 0, probeFailures := 0, workingSince })
      (hworking : workingSince = now ∨ workingSince = s.workingSince) :
      JudgedCase s now h .progressing (s₁.maybeAlert now,
        { published := some s₁.workingStatus, showsAlert := s₁.alertDue now })
  | progressingStalls (s₁ : UpstreamSupervisor) (reason : String)
      (hstate : s₁ = { s with
        readySince := 0, probeFailures := 0, workingSince := 0, stalledReason := some reason })
      (hworking : s.workingSince ≠ 0) (hbudget : chainBudgetMs < now - s.workingSince) :
      JudgedCase s now h .progressing ((s₁.onFailed now reason h).1,
        { (s₁.onFailed now reason h).2 with stalls := some reason })
  | needsConverge : JudgedCase s now h .needsConverge (s.onConverge now)
  | failed (reason : String) : JudgedCase s now h (.failed reason) (s.onFailed now reason h)

variable (s : UpstreamSupervisor) (now : Int)

theorem judgedCase_onVerdict (h : HostAnswers) (verdict : Verdict) :
    JudgedCase s now h verdict (s.onVerdict now h verdict) := by
  cases verdict with
  | healthy =>
    simp only [onVerdict, onHealthy, probeTunnel]
    split
    · split
      · exact .healthy now 0 (some true) (.inl rfl)
      · split
        · rename_i hcount
          exact .healthyStalls _ _ rfl hcount
        · exact .healthy now ((s.recovered now).probeFailures + 1) (some false)
            (.inr (.inr ⟨rfl, rfl⟩))
    · exact .healthy (s.recovered now).lastProbeAt (s.recovered now).probeFailures none
        (.inr (.inl ⟨rfl, rfl⟩))
  | progressing =>
    simp only [onVerdict, onProgressing]
    by_cases hzero : s.workingSince = 0
    · -- the first tick of its kind is not over the budget
      rw [if_pos hzero, if_neg (by rw [sub_self]; decide)]
      exact .progressing _ now rfl (.inl rfl)
    · rw [if_neg hzero]
      split
      · rename_i hbudget
        exact .progressingStalls _ _ rfl hzero hbudget
      · exact .progressing _ s.workingSince rfl (.inr rfl)
  | needsConverge => exact .needsConverge
  | failed reason => exact .failed reason

inductive TickCase (s : UpstreamSupervisor) (now : Int) (h : HostAnswers) :
    UpstreamSupervisor × Deeds → Prop
  | off (hoff : h.isVpnRunning = false) : TickCase s now h (s, {})
  | reset (hnone : stagesFor h.choice = []) (hresets : s.Resets) :
      TickCase s now h ({}, { published := some { level := .ok }, clearsAlert := s.alertShown })
  | unchosen (hnone : stagesFor h.choice = []) (hresets : ¬ s.Resets) :
      TickCase s now h (s, { published := some { level := .ok } })
  | stalled (hrunning : h.isVpnRunning = true) (hchosen : stagesFor h.choice ≠ [])
      (reason : String) (hstalled : s.stalledReason = some reason) :
      TickCase s now h (s.onFailed now reason h)
  | judged (hrunning : h.isVpnRunning = true) (hchosen : stagesFor h.choice ≠ [])
      (hstalled : s.stalledReason = none) (verdict : Verdict)
      (hverdict : verdictOf now h = verdict) (result : UpstreamSupervisor × Deeds)
      (hjudged : JudgedCase s now h verdict result) :
      TickCase s now h (result.1, { result.2 with verdict := some verdict })

theorem tickCase_tick (h : HostAnswers) : TickCase s now h (s.tick now h) := by
  unfold tick
  split
  · rename_i hoff
    exact .off hoff
  · rename_i hon
    simp only
    split
    · rename_i hnone
      split
      · rename_i hresets
        exact .reset hnone hresets
      · rename_i hresets
        exact .unchosen hnone hresets
    · rename_i hchosen
      have hrunning : h.isVpnRunning = true := by simpa using hon
      cases hstalled : s.stalledReason with
      | some reason => exact .stalled hrunning hchosen reason hstalled
      | none =>
        exact .judged hrunning hchosen hstalled _ rfl _ (judgedCase_onVerdict s now h _)

theorem onFailed_cases (reason : String) (h : HostAnswers) :
    (∃ level, level ≠ UpstreamLevel.ok ∧ s.onFailed now reason h = ((s.schedule now).maybeAlert now,
      { published := some ⟨level, (s.schedule now).attempt, (s.schedule now).failingSince⟩
        showsAlert := (s.schedule now).alertDue now })) ∨
    s.onFailed now reason h =
      ({ (s.schedule now).maybeAlert now with pendingRestartAt := 0, stalledReason := none },
        { published := some ⟨.working, (s.schedule now).attempt, (s.schedule now).failingSince⟩
          showsAlert := (s.schedule now).alertDue now, restarts := some reason }) := by
  unfold onFailed retry
  split
  · exact .inl ⟨.waitingNetwork, by decide, rfl⟩
  · split
    · exact .inr rfl
    · exact .inl ⟨.retrying, by decide, rfl⟩

@[simp] theorem schedule_attempt :
    (s.schedule now).attempt = if s.pendingRestartAt = 0 then s.attempt + 1 else s.attempt := by
  unfold schedule
  simp only
  split
  · rfl
  · rfl

@[simp] theorem schedule_idleSince : (s.schedule now).idleSince = 0 := by
  unfold schedule
  simp only
  split
  · rfl
  · rfl

@[simp] theorem schedule_failingSince :
    (s.schedule now).failingSince = if s.failingSince = 0 then now else s.failingSince := by
  unfold schedule
  simp only
  split
  · rfl
  · rfl

@[simp] theorem schedule_alertShown : (s.schedule now).alertShown = s.alertShown := by
  unfold schedule
  simp only
  split
  · rfl
  · rfl

end UpstreamSupervisor

end BigRocket.Service
