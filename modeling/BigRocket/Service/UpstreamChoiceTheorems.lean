/-
When the engines that run are those of the choice. A start attempt without a
live process is not seen, so switching leaves it behind.
-/
import BigRocket.Service.RuntimeTheorems
import BigRocket.Service.UpstreamChoice

namespace BigRocket.Service

open Lib Function

/-! ## Programs that settle -/

/-- With `settled` the engines that are settled for `c` already: when the
program is done, both are. -/
def Program.Settles (c : UpstreamChoice) : (Engine → Bool) → Program → Bool
  | settled, .done => settled .aether && settled .xray
  | settled, .branch (.isRunning e) yes no =>
    yes.Settles c settled && no.Settles c (update settled e true)
  | settled, .branch (.needsRestart e port) yes no =>
    yes.Settles c settled &&
      no.Settles c (if c.dialPort e = some port then update settled e true else settled)
  | settled, .branch (.isTrafficReady _) yes no => yes.Settles c settled && no.Settles c settled
  | settled, .branch .serviceRunning yes no => yes.Settles c settled && no.Settles c settled
  | settled, .start e port next => decide (c.dialPort e = some port) && next.Settles c settled
  | settled, .stop e next => next.Settles c (update settled e true)

/-- The program starts engines only as `c` asks, and stops none. -/
def Program.StartsFor (c : UpstreamChoice) : Program → Bool
  | .done => true
  | .branch _ yes no => yes.StartsFor c && no.StartsFor c
  | .start e port next => decide (c.dialPort e = some port) && next.StartsFor c
  | .stop _ _ => false

theorem applyUpstreamChoice_settles (c : UpstreamChoice) :
    (applyUpstreamChoice c).Settles c (fun _ => false) = true := by
  cases c <;> decide

theorem onChainReadinessChanged_startsFor (c : UpstreamChoice) (aetherReady xrayReady : Bool) :
    (onChainReadinessChanged c aetherReady xrayReady).StartsFor c = true := by
  cases c <;> cases aetherReady <;> cases xrayReady <;> decide

namespace ChoiceState

/-! ## What is asked of the steps -/

def current (s : ChoiceState) : Option UpstreamChoice :=
  match s.control with
  | .idle => s.applied
  | .running c _ => some c
  | .registering c _ _ _ => some c
  | .killing c _ _ _ => some c

def lookedAt : Thread → Option Engine
  | .running _ (.branch (.isRunning e) _ _) => some e
  | .running _ (.branch (.needsRestart e _) _ _) => some e
  | .running _ (.stop e _) => some e
  | _ => none

def startsFor : Thread → Option UpstreamChoice
  | .running c (.start _ _ _) => some c
  | _ => none

/-- Nothing of an engine is in the dark where `applyUpstreamChoice` looks at it or
stops it, and the readiness handler starts engines for the current choice. -/
def Sighted (s : ChoiceState) : Event → Prop
  | .applyStep => ∀ e ∈ lookedAt s.control, ¬ (s.runtime e).Dark
  | .readinessStep => ∀ c ∈ startsFor s.handler, s.current = some c
  | _ => True

instance (s : ChoiceState) (event : Event) : Decidable (s.Sighted event) := by
  cases event <;> simp only [Sighted] <;> infer_instance

/-! ## The invariant -/

def SettledFor (s : ChoiceState) (c : UpstreamChoice) (settled : Engine → Bool) : Prop :=
  ∀ e, settled e = true → (s.runtime e).DialsOnly (c.dialPort e)

def ControlOk (s : ChoiceState) : Thread → Prop
  | .idle => ∀ c, s.applied = some c → ∀ e, (s.runtime e).DialsOnly (c.dialPort e)
  | .running c program =>
    ∃ settled, program.Settles c settled = true ∧ s.SettledFor c settled
  | .registering c _ _ next => ∃ settled, next.Settles c settled = true ∧ s.SettledFor c settled
  | .killing c e g next =>
    (s.runtime e).Doomed g ∧ (s.runtime e).OthersDial g (c.dialPort e) ∧
      ∃ settled, next.Settles c (update settled e true) = true ∧
        s.SettledFor c (update settled e false)

def HandlerOk : Thread → Prop
  | .idle => True
  | .running c program => program.StartsFor c = true
  | .registering c _ _ next => next.StartsFor c = true
  | .killing _ _ _ _ => False

structure Inv (s : ChoiceState) : Prop where
  sound : ∀ e, (s.runtime e).Sound e
  applied : s.control ≠ .idle → s.applied = none
  control : s.ControlOk s.control
  handler : HandlerOk s.handler

theorem inv_create : create.Inv where
  sound e := by cases e <;> exact Runtime.sound_create _
  applied h := absurd rfl h
  control c h := by cases h
  handler := trivial

variable {s : ChoiceState}

theorem runtime_setRuntime_self (s : ChoiceState) (e : Engine) (r : Runtime) :
    (s.setRuntime e r).runtime e = r := by
  cases e <;> rfl

variable {e : Engine} {r : Runtime} {c : UpstreamChoice} {settled : Engine → Bool}

theorem runtime_setRuntime_of_ne (s : ChoiceState) {e' : Engine} (h : e' ≠ e) (r : Runtime) :
    (s.setRuntime e r).runtime e' = s.runtime e' := by
  cases e <;> cases e' <;> first | rfl | exact absurd rfl h

theorem setRuntime_fields (s : ChoiceState) (e : Engine) (r : Runtime) :
    (s.setRuntime e r).control = s.control ∧ (s.setRuntime e r).handler = s.handler ∧
      (s.setRuntime e r).applied = s.applied := by
  cases e <;> exact ⟨rfl, rfl, rfl⟩

theorem forall_runtime_setRuntime {P : Engine → Runtime → Prop} (h : ∀ e', P e' (s.runtime e'))
    (hr : P e r) : ∀ e', P e' ((s.setRuntime e r).runtime e') := by
  intro e'
  by_cases heq : e' = e
  · subst heq
    rw [runtime_setRuntime_self]
    exact hr
  · rw [runtime_setRuntime_of_ne s heq]
    exact h e'

theorem SettledFor.setRuntime (h : s.SettledFor c settled)
    (hr : (s.runtime e).DialsOnly (c.dialPort e) → r.DialsOnly (c.dialPort e)) :
    (s.setRuntime e r).SettledFor c settled := by
  refine forall_runtime_setRuntime
    (P := fun e' r' => settled e' = true → r'.DialsOnly (c.dialPort e')) h ?_
  intro hsettled
  exact hr (h e hsettled)

theorem ControlOk.setRuntime (h : s.ControlOk s.control)
    (hr : ∀ c, s.current = some c → Runtime.Keeps (c.dialPort e) (s.runtime e) r) :
    (s.setRuntime e r).ControlOk s.control := by
  unfold current at hr
  cases hcontrol : s.control with
  | idle =>
    rw [hcontrol] at h hr
    intro c hc
    rw [(setRuntime_fields s e r).2.2] at hc
    exact forall_runtime_setRuntime (P := fun e' r' => r'.DialsOnly (c.dialPort e')) (h c hc)
      ((hr c hc).dials (h c hc e))
  | running c program =>
    rw [hcontrol] at h hr
    obtain ⟨settled, hprogram, hsettled⟩ := h
    exact ⟨settled, hprogram, hsettled.setRuntime (hr c rfl).dials⟩
  | registering c e' g next =>
    rw [hcontrol] at h hr
    obtain ⟨settled, hprogram, hsettled⟩ := h
    exact ⟨settled, hprogram, hsettled.setRuntime (hr c rfl).dials⟩
  | killing c e' g next =>
    rw [hcontrol] at h hr
    obtain ⟨hdoomed, hothers, settled, hprogram, hsettled⟩ := h
    refine ⟨?_, ?_, settled, hprogram, hsettled.setRuntime (hr c rfl).dials⟩
    · by_cases heq : e' = e
      · subst heq
        rw [runtime_setRuntime_self]
        exact (hr c rfl).doomed g hdoomed
      · rw [runtime_setRuntime_of_ne s heq]
        exact hdoomed
    · by_cases heq : e' = e
      · subst heq
        rw [runtime_setRuntime_self]
        exact (hr c rfl).others g hothers
      · rw [runtime_setRuntime_of_ne s heq]
        exact hothers

theorem Inv.setRuntime (h : s.Inv) (hsound : r.Sound e)
    (hr : ∀ c, s.current = some c → Runtime.Keeps (c.dialPort e) (s.runtime e) r) :
    (s.setRuntime e r).Inv := by
  obtain ⟨hcontrol, hhandler, happlied⟩ := setRuntime_fields s e r
  constructor
  · exact forall_runtime_setRuntime (P := fun e' r' => r'.Sound e') h.sound hsound
  · rw [hcontrol, happlied]
    exact h.applied
  · rw [hcontrol]
    exact ControlOk.setRuntime h.control hr
  · rw [hhandler]
    exact h.handler

theorem Inv.fades (h : s.Inv) (hsound : r.Sound e) (hf : Runtime.Fades (s.runtime e) r) :
    (s.setRuntime e r).Inv :=
  h.setRuntime hsound fun c _ => hf.keeps (c.dialPort e)

/-! ## Steps of the readiness handler -/

theorem Inv.setHandler (h : s.Inv) {handler : Thread} (hhandler : HandlerOk handler) :
    Inv { s with handler := handler } :=
  ⟨h.sound, h.applied, h.control, hhandler⟩

theorem Inv.readinessStep (h : s.Inv) (hsighted : s.Sighted .readinessStep) :
    (s.step .readinessStep).Inv := by
  have hok := h.handler
  unfold Sighted at hsighted
  simp only [step]
  cases hhandler : s.handler with
  | idle => exact h.setHandler trivial
  | killing c e g next =>
    rw [hhandler] at hok
    exact hok.elim
  | registering c e g next =>
    rw [hhandler] at hok
    exact (h.fades ((h.sound e).register g) (Runtime.fades_register g _)).setHandler hok
  | running c program =>
    rw [hhandler] at hok hsighted
    cases program with
    | done => exact h.setHandler trivial
    | branch test yes no =>
      obtain ⟨hyes, hno⟩ := Bool.and_eq_true_iff.mp hok
      refine h.setHandler ?_
      show Program.StartsFor c (if s.holds test then yes else no) = true
      split
      · exact hyes
      · exact hno
    | start e port next =>
      obtain ⟨hport, hnext⟩ := Bool.and_eq_true_iff.mp hok
      have hdial : c.dialPort e = some port := of_decide_eq_true hport
      simp only [threadStep]
      cases hstart : (s.runtime e).start e port with
      | none => exact h.setHandler hnext
      | some r =>
        refine (h.setRuntime ((h.sound e).start hstart) fun c' hc' => ?_).setHandler hnext
        cases (hsighted c rfl).symm.trans hc'
        rw [hdial]
        exact Runtime.keeps_start hstart
    | stop e next => cases hok

/-! ## Steps of `applyUpstreamChoice` -/

theorem SettledFor.mark (h : s.SettledFor c settled) (he : (s.runtime e).DialsOnly (c.dialPort e)) :
    s.SettledFor c (update settled e true) := by
  intro e' he'
  by_cases heq : e' = e
  · rw [heq]
    exact he
  · rw [update_of_ne heq] at he'
    exact h e' he'

theorem inv_busy (hsound : ∀ e, (s.runtime e).Sound e) (hhandler : HandlerOk s.handler)
    {control : Thread} (hcontrol : control ≠ .idle) (hok : s.ControlOk control) :
    Inv { s with control := control, applied := none } where
  sound := hsound
  applied _ := rfl
  control := by
    cases control with
    | idle => exact absurd rfl hcontrol
    | _ => exact hok
  handler := hhandler

theorem settles_branch {test : Test} {yes no : Program} (hsound : ∀ e, (s.runtime e).Sound e)
    (hrunning : ∀ e, test = .isRunning e → ¬ (s.runtime e).Dark)
    (hrestart : ∀ e port, test = .needsRestart e port → ¬ (s.runtime e).Dark)
    (hprogram : (Program.branch test yes no).Settles c settled = true)
    (hsettled : s.SettledFor c settled) :
    s.ControlOk (.running c (if s.holds test then yes else no)) := by
  cases test with
  | isRunning e =>
    obtain ⟨hyes, hno⟩ := Bool.and_eq_true_iff.mp hprogram
    cases hholds : s.holds (.isRunning e) with
    | true => exact ⟨settled, hyes, hsettled⟩
    | false =>
      exact ⟨_, hno, hsettled.mark
        (Runtime.dialsOnly_of_not_running (hsound e) (hrunning e rfl) hholds _)⟩
  | needsRestart e port =>
    obtain ⟨hyes, hno⟩ := Bool.and_eq_true_iff.mp hprogram
    cases hholds : s.holds (.needsRestart e port) with
    | true => exact ⟨settled, hyes, hsettled⟩
    | false =>
      split at hno
      · next hdial =>
          refine ⟨_, hno, hsettled.mark ?_⟩
          rw [hdial]
          exact Runtime.dialsOnly_of_not_needsRestart (hsound e) (hrestart e port rfl) hholds
      · exact ⟨settled, hno, hsettled⟩
  | isTrafficReady e =>
    obtain ⟨hyes, hno⟩ := Bool.and_eq_true_iff.mp hprogram
    cases hholds : s.holds (.isTrafficReady e) with
    | true => exact ⟨settled, hyes, hsettled⟩
    | false => exact ⟨settled, hno, hsettled⟩
  | serviceRunning =>
    obtain ⟨hyes, hno⟩ := Bool.and_eq_true_iff.mp hprogram
    cases hholds : s.holds .serviceRunning with
    | true => exact ⟨settled, hyes, hsettled⟩
    | false => exact ⟨settled, hno, hsettled⟩

theorem controlOk_stop {next : Program} (hsound : (s.runtime e).Sound e)
    (hdark : ¬ (s.runtime e).Dark)
    (hprogram : next.Settles c (update settled e true) = true)
    (hsettled : s.SettledFor c settled) :
    (s.setRuntime e (s.runtime e).stop).ControlOk
      (match (s.runtime e).process with
      | some g => .killing c e g next
      | none => .running c next) := by
  have hothers : (s.setRuntime e (s.runtime e).stop).SettledFor c
      (update settled e false) := by
    intro e' he'
    by_cases heq : e' = e
    · rw [heq, update_self] at he'
      cases he'
    · rw [update_of_ne heq] at he'
      rw [runtime_setRuntime_of_ne s heq]
      exact hsettled e' he'
  cases hprocess : (s.runtime e).process with
  | some g =>
    obtain ⟨hdial, hdoomed⟩ :=
      Runtime.doomed_of_stop hsound hdark hprocess (c.dialPort e)
    refine ⟨?_, ?_, settled, hprogram, hothers⟩
    · rw [runtime_setRuntime_self]
      exact hdoomed
    · rw [runtime_setRuntime_self]
      exact hdial
  | none =>
    refine ⟨_, hprogram, ?_⟩
    have hself : ((s.setRuntime e (s.runtime e).stop).runtime e).DialsOnly (c.dialPort e) := by
      rw [runtime_setRuntime_self]
      intro g a hg hmay
      obtain ⟨-, hsome, -⟩ :=
        Runtime.of_not_dark hsound hdark (Runtime.mayRun_stop hsound hmay)
      cases hprocess.symm.trans hsome
    have hmark := hothers.mark hself
    rwa [update_idem] at hmark

theorem Inv.applyStep (h : s.Inv) (hsighted : s.Sighted .applyStep) : (s.step .applyStep).Inv := by
  have hok := h.control
  have hnone := h.applied
  unfold Sighted at hsighted
  simp only [step]
  cases hcontrol : s.control with
  | idle =>
    rw [hcontrol] at hok
    exact ⟨h.sound, fun hbusy => absurd rfl hbusy, hok, h.handler⟩
  | registering c e g next =>
    rw [hcontrol] at hok hnone
    have hreg := h.fades ((h.sound e).register g) (Runtime.fades_register g _)
    have hnext := hreg.control
    rw [(setRuntime_fields s e _).1, hcontrol] at hnext
    rw [hnone nofun]
    exact inv_busy hreg.sound hreg.handler nofun hnext
  | killing c e g next =>
    rw [hcontrol] at hok hnone
    obtain ⟨hdoomed, hothers, settled, hprogram, hsettled⟩ := hok
    have hkill := h.fades ((h.sound e).kill g) (Runtime.fades_kill g _)
    have hself : ((s.setRuntime e ((s.runtime e).kill g)).runtime e).DialsOnly (c.dialPort e) := by
      rw [runtime_setRuntime_self]
      exact Runtime.dialsOnly_kill hdoomed hothers
    have hmark : (s.setRuntime e ((s.runtime e).kill g)).SettledFor c
        (update settled e true) := by
      have hrest := hsettled.setRuntime
        ((Runtime.fades_kill g (s.runtime e)).keeps (c.dialPort e)).dials
      have := hrest.mark hself
      rwa [update_idem] at this
    rw [hnone nofun]
    exact inv_busy hkill.sound hkill.handler nofun ⟨_, hprogram, hmark⟩
  | running c program =>
    rw [hcontrol] at hok hsighted hnone
    obtain ⟨settled, hprogram, hsettled⟩ := hok
    cases program with
    | done =>
      obtain ⟨haether, hxray⟩ := Bool.and_eq_true_iff.mp hprogram
      refine ⟨h.sound, fun hbusy => absurd rfl hbusy, ?_, h.handler⟩
      intro c' hc'
      cases hc'
      intro e
      cases e with
      | aether => exact hsettled .aether haether
      | xray => exact hsettled .xray hxray
    | branch test yes no =>
      rw [hnone nofun]
      refine inv_busy h.sound h.handler nofun (settles_branch h.sound ?_ ?_ hprogram hsettled)
      · rintro e rfl
        exact hsighted e rfl
      · rintro e port rfl
        exact hsighted e rfl
    | start e port next =>
      obtain ⟨hport, hnext⟩ := Bool.and_eq_true_iff.mp hprogram
      have hdial : c.dialPort e = some port := of_decide_eq_true hport
      rw [hnone nofun]
      simp only [threadStep]
      cases hstart : (s.runtime e).start e port with
      | none => exact inv_busy h.sound h.handler nofun ⟨settled, hnext, hsettled⟩
      | some r =>
        have hkeeps : Runtime.Keeps (c.dialPort e) (s.runtime e) r := by
          rw [hdial]
          exact Runtime.keeps_start hstart
        refine inv_busy ?_ ?_ nofun ⟨settled, hnext, hsettled.setRuntime hkeeps.dials⟩
        · exact forall_runtime_setRuntime (P := fun e' r' => r'.Sound e') h.sound
            ((h.sound e).start hstart)
        · rw [(setRuntime_fields s e r).2.1]
          exact h.handler
    | stop e next =>
      rw [hnone nofun]
      simp only [threadStep]
      refine inv_busy ?_ ?_ ?_ (controlOk_stop (h.sound e) (hsighted e rfl) hprogram hsettled)
      · exact forall_runtime_setRuntime (P := fun e' r' => r'.Sound e') h.sound (h.sound e).stop
      · rw [(setRuntime_fields s e _).2.1]
        exact h.handler
      · split <;> exact nofun

/-! ## Runs -/

theorem Inv.step (h : s.Inv) (event : Event) (hsighted : s.Sighted event) :
    (s.step event).Inv := by
  cases event with
  | storeChoice choice => exact ⟨h.sound, h.applied, h.control, h.handler⟩
  | saveConfig config => exact ⟨h.sound, h.applied, h.control, h.handler⟩
  | setServiceRunning running => exact ⟨h.sound, h.applied, h.control, h.handler⟩
  | apply =>
    simp only [ChoiceState.step]
    split
    · exact inv_busy h.sound h.handler nofun
        ⟨_, applyUpstreamChoice_settles s.storedChoice, nofun⟩
    · exact h
  | applyStep => exact h.applyStep hsighted
  | readiness aetherReady xrayReady =>
    simp only [ChoiceState.step]
    split
    · exact h
    · exact h.setHandler (onChainReadinessChanged_startsFor s.storedChoice aetherReady xrayReady)
  | readinessStep => exact h.readinessStep hsighted
  | attempt e g ok config =>
    exact h.fades ((h.sound e).attemptStep g ok config) (Runtime.fades_attemptStep e g ok config _)
  | dies e g => exact h.fades ((h.sound e).kill g) (Runtime.fades_kill g _)
  | monitor e g => exact h.fades ((h.sound e).monitor g) (Runtime.fades_monitor g _)

theorem Inv.dialsOnly (h : s.Inv) (hc : s.applied = some c) (e : Engine) :
    (s.runtime e).DialsOnly (c.dialPort e) := by
  have hidle : s.control = .idle := by
    by_contra hbusy
    cases (h.applied hbusy).symm.trans hc
  have hok := h.control
  rw [hidle] at hok
  exact hok c hc e

theorem Inv.runningMatches (h : s.Inv) : s.RunningMatches := by
  intro c hc e g halive
  obtain ⟨a, hg, -⟩ := Runtime.aliveAt_eq_true halive
  rw [h.dialsOnly hc e g a hg (Runtime.mayRun_of_aliveAt halive)]
  exact nofun

theorem Inv.readyMatches (h : s.Inv) (event : Event) : s.ReadyMatches event := by
  cases event with
  | attempt e g ok config =>
    intro c hc hready
    simp only [Runtime.becomesReady, Bool.and_eq_true, decide_eq_true_eq] at hready
    obtain ⟨⟨-, hcurrent⟩, hstarted⟩ := hready
    cases hg : (s.runtime e).attempts g with
    | none => rw [hg] at hstarted; cases hstarted
    | some a =>
      rw [hg] at hstarted
      have hstage : a.stage = .started := of_decide_eq_true hstarted
      exact ⟨a.port, rfl, h.dialsOnly hc e g a hg
        (Runtime.mayRun_of hg (.inr (.inr ⟨hcurrent, .inr hstage⟩)))⟩
  | _ => trivial

/-- **Whenever a choice is applied, only engines of its chain run**, and those
that become ready dial through its port, in every sighted run. -/
theorem engines_match_of_sighted (events : List Event)
    (h : AlongRun (fun before event => (run before).Sighted event) events) :
    (∀ before, before <+: events → (run before).RunningMatches) ∧
      AlongRun (fun before event => (run before).ReadyMatches event) events := by
  have hstep : ∀ before event, (run before).Inv → (run before).Sighted event →
      (run (before ++ [event])).Inv := by
    intro before event hinv hsighted
    have hrun : run (before ++ [event]) = (run before).step event := exec_concat ..
    rw [hrun]
    exact hinv.step event hsighted
  constructor
  · intro before hbefore
    have hinv : (run before).Inv :=
      exec_invariant (I := fun events => (run events).Inv) inv_create hstep (h.initial hbefore)
    exact hinv.runningMatches
  · exact alongRun_of_invariant (I := fun events => (run events).Inv) inv_create hstep
      (fun before event hinv _ => hinv.readyMatches event) h

def orderlySwitch : List Event :=
  [Event.storeChoice .aether, Event.apply] ++ List.replicate 6 Event.applyStep ++
    List.replicate 3 (Event.attempt .aether 1 true 0) ++ [Event.storeChoice .xray, Event.apply] ++
    List.replicate 8 Event.applyStep ++ List.replicate 3 (Event.attempt .xray 1 true 7)

theorem engines_match_orderlySwitch :
    AlongRun (fun before event => (run before).Sighted event) orderlySwitch ∧
      (run orderlySwitch).applied = some .xray ∧ (run orderlySwitch).xray.trafficReady = true ∧
      (run orderlySwitch).RunningMatches := by
  have hsighted : AlongRun (fun before event => (run before).Sighted event) orderlySwitch := by
    decide +kernel
  exact ⟨hsighted, by decide +kernel, by decide +kernel,
    (engines_match_of_sighted orderlySwitch hsighted).1 _ List.prefix_rfl⟩

def earlySwitch : List Event :=
  [Event.storeChoice .aether, Event.apply] ++ List.replicate 6 Event.applyStep ++
    [Event.storeChoice .none, Event.apply] ++ List.replicate 3 Event.applyStep ++
    List.replicate 2 (Event.attempt .aether 1 true 0)

theorem switch_leaves_attempt :
    (run earlySwitch).applied = some .none ∧ ¬ (run earlySwitch).RunningMatches ∧
      ¬ (run earlySwitch).ReadyMatches (.attempt .aether 1 true 0) := by
  have happlied : (run earlySwitch).applied = some .none := by decide +kernel
  have halive : ((run earlySwitch).runtime .aether).aliveAt 1 = true := by decide +kernel
  have hready : ((run earlySwitch).runtime .aether).becomesReady 1 true = true := by
    decide +kernel
  refine ⟨happlied, fun h => h .none happlied .aether 1 halive rfl, fun h => ?_⟩
  obtain ⟨port, -, hport⟩ := h .none happlied hready
  cases hport

end ChoiceState

end BigRocket.Service
