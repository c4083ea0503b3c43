/-
The supervisor's alert and its word that all is well: `onChoiceChanged` forgets
the second but leaves the alert.
-/
import BigRocket.Service.SupervisorTheorems

namespace BigRocket.Service

open Lib UpstreamPolicy

def alertOut (history : List SupervisorStep) : Bool :=
  history.foldl (fun out y => y.deeds.showsAlert || (out && !y.deeds.clearsAlert)) false

theorem alertOut_concat (history : List SupervisorStep) (x : SupervisorStep) :
    alertOut (history ++ [x]) =
      (x.deeds.showsAlert || (alertOut history && !x.deeds.clearsAlert)) := by
  simp [alertOut]

namespace UpstreamSupervisor

variable {s : UpstreamSupervisor} {now : Int} {h : HostAnswers}

def AlertedWhileFailing (s : UpstreamSupervisor) : Prop := s.alertShown = true → s.failingSince ≠ 0

theorem AlertedWhileFailing.maybeAlert (hs : s.AlertedWhileFailing) :
    (s.maybeAlert now).AlertedWhileFailing := by
  intro hshown
  rcases (Bool.or_eq_true _ _).mp hshown with hbefore | hdue
  · exact hs hbefore
  · simp only [alertDue, Bool.and_eq_true, decide_eq_true_eq] at hdue
    exact hdue.1.2

theorem AlertedWhileFailing.schedule (hs : s.AlertedWhileFailing) :
    (s.schedule now).AlertedWhileFailing := by
  intro hshown
  rw [schedule_alertShown] at hshown
  rw [schedule_failingSince, if_neg (hs hshown)]
  exact hs hshown

structure FailAlert (s s' : UpstreamSupervisor) (deeds : Deeds) : Prop where
  shown : s'.alertShown = (deeds.showsAlert || s.alertShown)
  kept : deeds.clearsAlert = false
  published : deeds.published ≠ some { level := .ok }
  failing : s.AlertedWhileFailing → s'.AlertedWhileFailing

theorem failAlert_onFailed (s : UpstreamSupervisor) (now : Int) (reason : String)
    (h : HostAnswers) :
    FailAlert s (s.onFailed now reason h).1 (s.onFailed now reason h).2 := by
  have hshown : ((s.schedule now).maybeAlert now).alertShown =
      ((s.schedule now).alertDue now || s.alertShown) := by
    rw [UpstreamSupervisor.maybeAlert, schedule_alertShown, Bool.or_comm]
  rcases onFailed_cases s now reason h with ⟨level, hlevel, heq⟩ | heq
  · rw [heq]
    exact ⟨hshown, rfl, fun hok => hlevel (congrArg UpstreamStatus.level (Option.some.inj hok)),
      fun hs => hs.schedule.maybeAlert⟩
  · rw [heq]
    refine ⟨hshown, rfl, fun hok => ?_, fun hs => hs.schedule.maybeAlert⟩
    cases hok

theorem alertShown_recovered (s : UpstreamSupervisor) (now : Int) :
    (s.recovered now).alertShown = (s.alertShown && !(s.failingSince ≠ 0 && s.alertShown)) := by
  unfold recovered
  by_cases hfailing : s.failingSince = 0
  · simp [hfailing]
  · simp [hfailing]

theorem AlertedWhileFailing.recovered (hs : s.AlertedWhileFailing) (now : Int) :
    (s.recovered now).alertShown = false := by
  rw [alertShown_recovered]
  cases hshown : s.alertShown with
  | false => rfl
  | true => simp [hs hshown]

structure TickAlert (s s' : UpstreamSupervisor) (deeds : Deeds) : Prop where
  shown : s'.alertShown = (deeds.showsAlert || (s.alertShown && !deeds.clearsAlert))
  failing : s.AlertedWhileFailing → s'.AlertedWhileFailing
  ok : s.AlertedWhileFailing → deeds.published = some { level := .ok } → s'.alertShown = false

theorem FailAlert.tickAlert {s' : UpstreamSupervisor} {deeds : Deeds} (hfail : FailAlert s s' deeds) :
    TickAlert s s' deeds :=
  ⟨by rw [hfail.shown, hfail.kept]; simp, hfail.failing,
    fun _ hok => absurd hok hfail.published⟩

theorem tickAlert_tick (s : UpstreamSupervisor) (now : Int) (h : HostAnswers) :
    TickAlert s (s.tick now h).1 (s.tick now h).2 := by
  generalize hresult : s.tick now h = result
  have hcase := hresult ▸ tickCase_tick s now h
  cases hcase with
  | off hoff => exact ⟨by simp, id, fun _ hok => by cases hok⟩
  | reset hnone hresets => exact ⟨by simp, fun _ hshown => (by cases hshown), fun _ _ => rfl⟩
  | unchosen hnone hresets =>
    exact ⟨by simp, id, fun _ _ => by simpa [Resets] using fun hshown => hresets (.inr (.inr hshown))⟩
  | stalled hrunning hchosen reason hstalled => exact (failAlert_onFailed s now reason h).tickAlert
  | judged hrunning hchosen hstalled verdict hverdict result hjudged =>
    cases hjudged with
    | healthy lastProbeAt probeFailures probe hprobe =>
      refine ⟨by simpa using alertShown_recovered s now, fun hs hshown => ?_,
        fun hs _ => hs.recovered now⟩
      exact absurd (hshown.symm.trans (hs.recovered now)) (by decide)
    | healthyStalls s₁ reason hstate hcount =>
      have hfail := failAlert_onFailed s₁ now reason h
      have hbefore : s₁.alertShown = (s.recovered now).alertShown := by rw [hstate]
      refine ⟨?_, fun hs => hfail.failing fun hshown => ?_, fun _ hok => absurd hok hfail.published⟩
      · rw [hfail.shown, hbefore, alertShown_recovered]
      · rw [hbefore, hs.recovered now] at hshown
        cases hshown
    | progressing s₁ workingSince hstate hworking =>
      have hbefore : s₁.alertShown = s.alertShown := by rw [hstate]
      refine ⟨?_, fun hs => ?_, fun _ hok => by cases hok⟩
      · show (s₁.alertShown || s₁.alertDue now) = _
        rw [hbefore]
        simp [Bool.or_comm]
      · refine AlertedWhileFailing.maybeAlert ?_
        rw [hstate]
        exact hs
    | progressingStalls s₁ reason hstate hworking hbudget =>
      have hfail := failAlert_onFailed s₁ now reason h
      have hbefore : s₁.alertShown = s.alertShown := by rw [hstate]
      refine ⟨?_, fun hs => hfail.failing ?_, fun _ hok => absurd hok hfail.published⟩
      · rw [hfail.shown, hbefore, hfail.kept]
        simp
      · rw [hstate]
        exact hs
    | needsConverge =>
      exact ⟨by simp [onConverge], id, fun _ hok => by cases hok⟩
    | failed reason =>
      have hfail := failAlert_onFailed s now reason h
      exact ⟨hfail.tickAlert.shown, hfail.failing, hfail.tickAlert.ok⟩

end UpstreamSupervisor

def QuietWhenOk (before : List SupervisorStep) (x : SupervisorStep) : Prop :=
  x.event.tickTime ≠ none → x.deeds.published = some { level := .ok } →
    alertOut (before ++ [x]) = false

def ChoiceChangesUnalerted (before : List SupervisorEvent) : SupervisorEvent → Prop
  | .onChoiceChanged => (superviseRun before).1.alertShown = false
  | .tick _ _ | .onPathsChanged _ | .stop => True

instance (before : List SupervisorEvent) (e : SupervisorEvent) :
    Decidable (ChoiceChangesUnalerted before e) := by
  cases e <;> simp only [ChoiceChangesUnalerted] <;> infer_instance

theorem alertOut_superviseRun (events : List SupervisorEvent) :
    alertOut (superviseRun events).2 = (superviseRun events).1.alertShown := by
  induction events using List.reverseRecOn with
  | nil => rfl
  | append_singleton events e ih =>
    rw [superviseRun_concat, recordStep, alertOut_concat, ih]
    cases e with
    | tick now h => exact (UpstreamSupervisor.tickAlert_tick _ now h).shown.symm
    | onPathsChanged now => simp [UpstreamSupervisor.step, UpstreamSupervisor.onPathsChanged]
    | onChoiceChanged => simp [UpstreamSupervisor.step, UpstreamSupervisor.resetCounters]
    | stop => simp [UpstreamSupervisor.step]

theorem alertedWhileFailing_superviseRun {events : List SupervisorEvent}
    (h : AlongRun ChoiceChangesUnalerted events) :
    (superviseRun events).1.AlertedWhileFailing := by
  refine exec_invariant (I := fun events => (superviseRun events).1.AlertedWhileFailing)
    (fun hshown => by cases hshown) (fun events e ih hcond => ?_) h
  rw [superviseRun_concat]
  cases e with
  | tick now h => exact (UpstreamSupervisor.tickAlert_tick _ now h).failing ih
  | onPathsChanged now => exact ih
  | onChoiceChanged => exact fun hshown => absurd (hcond.symm.trans hshown) (by decide)
  | stop => exact fun hshown => by cases hshown

/-- **No alert outlives recovery**, in every run that does not change the
choice while an alert is shown. -/
theorem alerts_quietWhenOk (events : List SupervisorEvent)
    (h : AlongRun ChoiceChangesUnalerted events) :
    AlongRun QuietWhenOk (superviseRun events).2 := by
  induction events using List.reverseRecOn with
  | nil => exact alongRun_nil
  | append_singleton events e ih =>
    have hbefore := (alongRun_concat.mp h).1
    have hout := alertOut_superviseRun (events ++ [e])
    rw [superviseRun_concat] at hout ⊢
    refine alongRun_concat.mpr ⟨ih hbefore, fun htick hok => ?_⟩
    rw [recordStep] at hout
    rw [hout]
    cases e with
    | tick now host =>
      exact (UpstreamSupervisor.tickAlert_tick _ now host).ok
        (alertedWhileFailing_superviseRun hbefore) hok
    | onPathsChanged now => exact absurd rfl htick
    | onChoiceChanged => exact absurd rfl htick
    | stop => exact absurd rfl htick

def alertThenRecovery : List SupervisorEvent :=
  [.tick 1000000 (aetherHost { phase := .failed }), .tick 1015000 (aetherHost { phase := .failed }),
    .tick 1016000 (aetherHost { phase := .ready, processAlive := true })]

theorem alerts_quietWhenOk_recovery :
    (superviseRun alertThenRecovery).2.map
        (fun x => (x.deeds.showsAlert, x.deeds.clearsAlert, x.deeds.published.map (·.level))) =
      [(false, false, some .retrying), (true, false, some .working), (false, true, some .ok)] ∧
      AlongRun QuietWhenOk (superviseRun alertThenRecovery).2 :=
  ⟨by decide, alerts_quietWhenOk alertThenRecovery (by decide)⟩

def choiceChangedWhileAlerted : List SupervisorEvent :=
  [.tick 1000000 (aetherHost { phase := .failed }), .tick 1015000 (aetherHost { phase := .failed }),
    .onChoiceChanged, .tick 1016000 (aetherHost { phase := .ready, processAlive := true })]

theorem choiceChanged_alertStays :
    (superviseRun choiceChangedWhileAlerted).2.map
        (fun x => (x.deeds.showsAlert, x.deeds.clearsAlert, x.deeds.published.map (·.level))) =
      [(false, false, some .retrying), (true, false, some .working), (false, false, none),
        (false, false, some .ok)] ∧
      ¬ AlongRun QuietWhenOk (superviseRun choiceChangedWhileAlerted).2 := by
  refine ⟨by decide, fun hall => ?_⟩
  have hquiet := alongRun_iff_forall_get.mp hall ⟨3, by decide⟩ (by decide) rfl
  exact absurd hquiet (by decide)

end BigRocket.Service
