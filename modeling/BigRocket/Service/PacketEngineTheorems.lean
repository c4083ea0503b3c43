/-
When one engine at a time reads the TUN. A hand-over starts its engine even if
the VPN was torn down since.
-/
import BigRocket.Service.PacketEngine

namespace BigRocket.Service

open Lib

/-! ## Apart -/

/-- The next step is one between storing the interface and the router, or between
reading the flag and clearing the interface. -/
def ControlAt.engineStep : ControlAt → Bool
  | .storeInterface | .setRunning | .startRouter | .storeRouter _ => true
  | .readFlag _ | .stopHev _ | .clearFlag _ | .stopRouter _ | .clearRouter _
  | .clearInterface _ => true
  | _ => false

def ControlAt.inside : ControlAt → Bool
  | .setRunning | .startRouter | .storeRouter _ => true
  | .stopHev _ | .clearFlag _ | .stopRouter _ | .clearRouter _ | .clearInterface _ => true
  | _ => false

/-- No engine step of setup or teardown while a hand-over is under way, and
no hand-over begins among them. -/
def EngineState.Apart (s : EngineState) : EngineEvent → Prop
  | .control _ => s.control.engineStep = true → s.handOver = .idle
  | .handOver _ _ => s.control.inside = false
  | _ => True

instance (s : EngineState) (e : EngineEvent) : Decidable (s.Apart e) := by
  cases e <;> simp only [EngineState.Apart] <;> infer_instance

/-! ## Facts at each point -/

def Tun.Stable (t : Tun) : Prop :=
  t.hevRunning = t.usingHevEngine ∧ t.startedRouters = t.packetRouter.toList ∧
    (t.usingHevEngine = true → t.packetRouter = none)

def Tun.Stopped (t : Tun) : Prop := t.hevRunning = false ∧ t.startedRouters = []

def Tun.Bare (t : Tun) : Prop :=
  t.Stopped ∧ t.usingHevEngine = false ∧ t.packetRouter = none

def Tun.Starting (t : Tun) (router : Nat) : Prop :=
  t.hevRunning = false ∧ t.usingHevEngine = false ∧ t.startedRouters = [router]

def HandOverAt.Engines (t : Tun) : HandOverAt → Prop
  | .idle | .compareFlag _ | .sameEngine => t.Stable
  | .checkFlag h => t.Stable ∧ h.wantHev = t.usingHevEngine
  | .comparePort h => t.Stable ∧ h.wantHev = true
  | .takeInterface h => t.Stable ∧ (h.wantHev = false → t.usingHevEngine = true)
  | .checkRestart _ => t.vpnInterface = true ∧ t.Stable
  | .restartStopHev _ | .stopHev => t.vpnInterface = true ∧ t.Stable ∧ t.usingHevEngine = true
  | .restartClearFlag _ | .clearHevFlag =>
    t.vpnInterface = true ∧ t.Stopped ∧ t.packetRouter = none
  | .stopRouter _ | .clearFlag => t.vpnInterface = true ∧ t.Stable ∧ t.usingHevEngine = false
  | .clearRouter _ => t.vpnInterface = true ∧ t.Stopped ∧ t.usingHevEngine = false
  | .startHev _ | .startFallback | .startRouter => t.vpnInterface = true ∧ t.Bare
  | .storePort _ | .storeFlag =>
    t.vpnInterface = true ∧ t.hevRunning = true ∧ t.startedRouters = [] ∧ t.packetRouter = none
  | .storeFallback router | .storeRouter router => t.vpnInterface = true ∧ t.Starting router

def ControlAt.Engines (t : Tun) : ControlAt → Prop
  | .setRunning | .startRouter | .clearInterface _ => t.Bare
  | .storeRouter router => t.Starting router
  | .stopHev _ => t.Stable ∧ t.usingHevEngine = true
  | .clearFlag _ => t.Stopped ∧ t.packetRouter = none
  | .stopRouter _ => t.Stable ∧ t.usingHevEngine = false
  | .clearRouter _ => t.Stopped ∧ t.usingHevEngine = false
  | _ => t.Stable

def ControlAt.Frame (t : Tun) (tornDown : Bool) : ControlAt → Prop
  | .idle | .clearRunning _ => t.isRunning = false → t.vpnInterface = false
  | .establish | .storeInterface =>
    t.isRunning = false ∧ t.vpnInterface = false ∧ tornDown = false
  | .setRunning => t.vpnInterface = true ∧ tornDown = false
  | .startRouter | .storeRouter _ | .finishSetup =>
    t.isRunning = true ∧ t.vpnInterface = true ∧ tornDown = false
  | .finishTeardown _ => t.isRunning = false ∧ t.vpnInterface = false
  | _ => t.isRunning = false

namespace EngineState

structure Inv (s : EngineState) : Prop where
  frame : s.control.Frame s.tun s.tornDown
  torn : s.tornDown = true → s.tun.vpnInterface = false
  bare : s.tun.vpnInterface = false → s.tun.Stopped
  control : s.handOver = .idle → s.control.Engines s.tun
  handOver : s.handOver ≠ .idle → s.control.inside = false ∧ s.handOver.Engines s.tun

theorem inv_create : create.Inv where
  frame _ := rfl
  torn _ := rfl
  bare _ := ⟨rfl, rfl⟩
  control _ := ⟨rfl, rfl, fun _ => rfl⟩
  handOver h := absurd rfl h

end EngineState

/-! ## What is done to the engines -/

variable {t : Tun}

theorem Tun.routers_of_none (hrouters : t.startedRouters = []) (hrouter : t.packetRouter = none) :
    t.startedRouters = t.packetRouter.toList := by
  rw [hrouters, hrouter]
  rfl

theorem Tun.Bare.stable (h : t.Bare) : t.Stable :=
  ⟨h.1.1.trans h.2.1.symm, t.routers_of_none h.1.2 h.2.2, fun _ => h.2.2⟩

theorem Tun.Stable.bare_of_stopped (h : t.Stable) (hstopped : t.Stopped) : t.Bare := by
  refine ⟨hstopped, h.1.symm.trans hstopped.1, ?_⟩
  have hnil := h.2.1.symm.trans hstopped.2
  cases hrouter : t.packetRouter with
  | none => rfl
  | some router => rw [hrouter] at hnil; cases hnil

theorem Tun.Bare.startRouter (h : t.Bare) : t.startRouter.Starting t.nextRouter := by
  refine ⟨h.1.1, h.2.1, ?_⟩
  show t.nextRouter :: t.startedRouters = [t.nextRouter]
  rw [h.1.2]

theorem Tun.Starting.store {router : Nat} (h : t.Starting router) :
    Tun.Stable { t with packetRouter := some router } :=
  ⟨h.1.trans h.2.1.symm, h.2.2, fun hflag => by cases h.2.1.symm.trans hflag⟩

theorem Tun.Stable.stopped_of_hev (h : t.Stable) (hflag : t.usingHevEngine = true) :
    t.packetRouter = none ∧ t.startedRouters = [] := by
  have hrouter := h.2.2 hflag
  exact ⟨hrouter, by rw [h.2.1, hrouter]; rfl⟩

theorem Tun.Stable.stopRouter (h : t.Stable) (hflag : t.usingHevEngine = false) :
    t.stopRouter.Stopped ∧ t.stopRouter.usingHevEngine = false := by
  have hhev : t.hevRunning = false := h.1.trans hflag
  have hrouters := h.2.1
  unfold Tun.stopRouter
  cases hrouter : t.packetRouter with
  | none =>
    rw [hrouter] at hrouters
    exact ⟨⟨hhev, hrouters⟩, hflag⟩
  | some router =>
    rw [hrouter] at hrouters
    refine ⟨⟨hhev, ?_⟩, hflag⟩
    rw [hrouters]
    simp

/-! ## Steps of the hand-over -/

theorem HandOverAt.step_fields (result : HevStart) (t : Tun) (at_ : HandOverAt) :
    (at_.step result t).1.vpnInterface = t.vpnInterface ∧
      (at_.step result t).1.isRunning = t.isRunning := by
  cases at_ with
  | stopRouter h => exact ⟨Tun.vpnInterface_stopRouter t, Tun.isRunning_stopRouter t⟩
  | startHev h =>
    cases result with
    | refused =>
      simp only [HandOverAt.step]
      split <;> exact ⟨rfl, rfl⟩
    | _ => exact ⟨rfl, rfl⟩
  | _ => exact ⟨rfl, rfl⟩

theorem HandOverAt.engines_step (result : HevStart) {at_ : HandOverAt} (h : at_.Engines t) :
    (at_.step result t).2.Engines (at_.step result t).1 := by
  cases at_ with
  | idle => exact h
  | compareFlag r =>
    simp only [HandOverAt.step]
    split
    · next heq => exact ⟨h, heq⟩
    · next hne =>
        refine ⟨h, fun hwant => ?_⟩
        rw [hwant] at hne
        cases hflag : t.usingHevEngine with
        | false => exact absurd hflag.symm hne
        | true => rfl
  | checkFlag r =>
    simp only [HandOverAt.step]
    split
    · next hflag => exact ⟨h.1, h.2.trans hflag⟩
    · exact h.1
  | comparePort r =>
    simp only [HandOverAt.step]
    split
    · exact h.1
    · exact ⟨h.1, fun hwant => by rw [h.2] at hwant; cases hwant⟩
  | sameEngine => exact h
  | takeInterface r =>
    simp only [HandOverAt.step]
    split
    · next hiface =>
        split
        · exact ⟨hiface, h.1⟩
        · next hwant => exact ⟨hiface, h.1, h.2 (Bool.eq_false_iff.mpr hwant)⟩
    · exact h.1
  | checkRestart r =>
    simp only [HandOverAt.step]
    split
    · next hflag => exact ⟨h.1, h.2, hflag⟩
    · next hflag => exact ⟨h.1, h.2, Bool.eq_false_iff.mpr hflag⟩
  | restartStopHev r =>
    obtain ⟨hrouter, hrouters⟩ := h.2.1.stopped_of_hev h.2.2
    exact ⟨h.1, ⟨rfl, hrouters⟩, hrouter⟩
  | restartClearFlag r =>
    obtain ⟨hiface, ⟨hhev, hrouters⟩, hrouter⟩ := h
    exact ⟨hiface, ⟨hhev, t.routers_of_none hrouters hrouter, fun hflag => by cases hflag⟩, rfl⟩
  | stopRouter r =>
    exact ⟨(Tun.vpnInterface_stopRouter t).trans h.1, h.2.1.stopRouter h.2.2⟩
  | clearRouter r => exact ⟨h.1, h.2.1, h.2.2, rfl⟩
  | startHev r =>
    obtain ⟨hiface, hbare⟩ := h
    cases result with
    | configFails => exact hbare.stable
    | started => exact ⟨hiface, rfl, hbare.1.2, hbare.2.2⟩
    | refused =>
      simp only [HandOverAt.step, hbare.1.1]
      exact ⟨hiface, hbare⟩
  | storePort r => exact h
  | storeFlag =>
    obtain ⟨-, hhev, hrouters, hrouter⟩ := h
    exact ⟨hhev, t.routers_of_none hrouters hrouter, fun _ => hrouter⟩
  | startFallback => exact ⟨h.1, h.2.startRouter⟩
  | storeFallback router => exact ⟨h.1, h.2.store, h.2.2.1⟩
  | clearFlag =>
    obtain ⟨-, hstable, hflag⟩ := h
    exact ⟨hstable.1.trans hflag, hstable.2.1, fun h => by cases h⟩
  | stopHev =>
    obtain ⟨hrouter, hrouters⟩ := h.2.1.stopped_of_hev h.2.2
    exact ⟨h.1, ⟨rfl, hrouters⟩, hrouter⟩
  | clearHevFlag => exact ⟨h.1, h.2.1, rfl, h.2.2⟩
  | startRouter => exact ⟨h.1, h.2.startRouter⟩
  | storeRouter router => exact h.2.store

/-! ## Steps of setup and teardown -/

theorem ControlAt.engines_step (ok : Bool) {at_ : ControlAt} (h : at_.Engines t)
    (hbare : t.vpnInterface = false → t.Stopped)
    (hiface : at_ = .storeInterface → t.vpnInterface = false) :
    (at_.step ok t).2.Engines (at_.step ok t).1 := by
  cases at_ with
  | idle => exact h
  | establish => cases ok <;> exact h
  | storeInterface =>
    have hb := Tun.Stable.bare_of_stopped h (hbare (hiface rfl))
    exact hb
  | setRunning => exact h
  | startRouter =>
    cases ok with
    | true => exact Tun.Bare.startRouter h
    | false => exact Tun.Bare.stable h
  | storeRouter router => exact Tun.Starting.store h
  | finishSetup => cases ok <;> exact h
  | clearRunning again => exact h
  | readFlag again =>
    simp only [ControlAt.step]
    split
    · next hflag => exact ⟨h, hflag⟩
    · next hflag => exact ⟨h, Bool.eq_false_iff.mpr hflag⟩
  | stopHev again =>
    obtain ⟨hrouter, hrouters⟩ := h.1.stopped_of_hev h.2
    exact ⟨⟨rfl, hrouters⟩, hrouter⟩
  | clearFlag again =>
    obtain ⟨⟨hhev, hrouters⟩, hrouter⟩ := h
    exact ⟨⟨hhev, t.routers_of_none hrouters hrouter, fun hflag => by cases hflag⟩, rfl⟩
  | stopRouter again => exact h.1.stopRouter h.2
  | clearRouter again => exact ⟨h.1, h.2, rfl⟩
  | clearInterface again => exact Tun.Bare.stable h
  | finishTeardown again => cases again <;> exact h

theorem ControlAt.step_of_not_engineStep (ok : Bool) (t : Tun) {at_ : ControlAt}
    (h : at_.engineStep = false) :
    (at_.step ok t).2.inside = false ∧
      ∃ running, (at_.step ok t).1 = { t with isRunning := running } := by
  cases at_ with
  | idle => exact ⟨rfl, t.isRunning, rfl⟩
  | establish => cases ok <;> exact ⟨rfl, t.isRunning, rfl⟩
  | finishSetup => cases ok <;> exact ⟨rfl, t.isRunning, rfl⟩
  | clearRunning again => exact ⟨rfl, false, rfl⟩
  | finishTeardown again => cases again <;> exact ⟨rfl, t.isRunning, rfl⟩
  | _ => cases h

theorem HandOverAt.engines_isRunning {at_ : HandOverAt} (running : Bool) (h : at_.Engines t) :
    at_.Engines { t with isRunning := running } := by
  cases at_ <;> exact h

namespace EngineState

variable {s : EngineState}

/-! ## The invariant -/

theorem Inv.frame_controlStep (h : s.Inv) (ok : Bool) :
    (s.controlStep ok).control.Frame (s.controlStep ok).tun (s.controlStep ok).tornDown ∧
      ((s.controlStep ok).tornDown = true → (s.controlStep ok).tun.vpnInterface = false) := by
  obtain ⟨tun, control, handOver, tornDown⟩ := s
  obtain ⟨hframe, htorn, -, -, -⟩ := h
  cases control with
  | readFlag again =>
    cases hflag : tun.usingHevEngine <;> simp_all [controlStep, ControlAt.step, ControlAt.Frame]
  | finishTeardown again =>
    cases again <;> simp_all [controlStep, ControlAt.step, ControlAt.Frame]
  | _ => cases ok <;> simp_all [controlStep, ControlAt.step, ControlAt.Frame]

theorem Inv.bare_controlStep (h : s.Inv) (hidle : s.control.engineStep = true → s.handOver = .idle)
    (ok : Bool) (hiface : (s.controlStep ok).tun.vpnInterface = false) :
    (s.controlStep ok).tun.Stopped := by
  cases hengine : s.control.engineStep with
  | false =>
    obtain ⟨running, htun⟩ := (ControlAt.step_of_not_engineStep ok s.tun hengine).2
    have htun' : (s.controlStep ok).tun = { s.tun with isRunning := running } := htun
    rw [htun'] at hiface ⊢
    exact h.bare hiface
  | true =>
    have hengines := h.control (hidle hengine)
    have hframe := h.frame
    have hbare := h.bare
    obtain ⟨tun, control, handOver, tornDown⟩ := s
    cases control with
    | storeInterface => cases hiface
    | setRunning => cases hframe.1.symm.trans hiface
    | startRouter =>
      cases ok with
      | true => cases hframe.2.1.symm.trans hiface
      | false => cases hframe.2.1.symm.trans hiface
    | storeRouter router => cases hframe.2.1.symm.trans hiface
    | readFlag again => exact hbare hiface
    | stopHev again => exact ⟨rfl, (hbare hiface).2⟩
    | clearFlag again => exact hengines.1
    | stopRouter again => exact (hengines.1.stopRouter hengines.2).1
    | clearRouter again => exact hengines.1
    | clearInterface again => exact hengines.1
    | _ => cases hengine

theorem Inv.controlStep (h : s.Inv) (hidle : s.control.engineStep = true → s.handOver = .idle)
    (ok : Bool) : (s.controlStep ok).Inv where
  frame := (h.frame_controlStep ok).1
  torn := (h.frame_controlStep ok).2
  bare := h.bare_controlStep hidle ok
  control hho := by
    refine ControlAt.engines_step ok (h.control hho) h.bare fun hat => ?_
    have hframe := h.frame
    rw [hat] at hframe
    exact hframe.2.1
  handOver hho := by
    have hno : s.control.engineStep = false :=
      Bool.eq_false_iff.mpr fun hengine => hho (hidle hengine)
    obtain ⟨hinside, running, htun⟩ := ControlAt.step_of_not_engineStep ok s.tun hno
    have htun' : (s.controlStep ok).tun = { s.tun with isRunning := running } := htun
    refine ⟨hinside, ?_⟩
    rw [htun']
    exact HandOverAt.engines_isRunning running (h.handOver hho).2

variable {t : Tun}

theorem engines_of_not_inside {at_ : ControlAt} (hinside : at_.inside = false) :
    at_.Engines t ↔ t.Stable := by
  cases at_ <;> first | exact Iff.rfl | cases hinside

theorem HandOverAt.stopped_of_closed {at_ : HandOverAt} (result : HevStart) (h : at_.Engines t)
    (hbare : t.vpnInterface = false → t.Stopped) (hiface : t.vpnInterface = false) :
    (at_.step result t).1.Stopped := by
  have hstopped := hbare hiface
  cases at_ <;> first | exact hstopped | cases h.1.symm.trans hiface

theorem Inv.handOverStep (h : s.Inv) (result : HevStart) : (s.handOverStep result).Inv := by
  by_cases hho : s.handOver = .idle
  · have hsame : s.handOverStep result = s := by
      obtain ⟨tun, control, handOver, tornDown⟩ := s
      cases hho
      rfl
    rw [hsame]
    exact h
  obtain ⟨hinside, hengines⟩ := h.handOver hho
  obtain ⟨hiface, hrunning⟩ := HandOverAt.step_fields result s.tun s.handOver
  have hnext := HandOverAt.engines_step result hengines
  have hframe := h.frame
  constructor
  · show s.control.Frame (s.handOver.step result s.tun).1 s.tornDown
    cases hcontrol : s.control <;> rw [hcontrol] at hframe <;>
      simp only [ControlAt.Frame, hiface, hrunning] <;> exact hframe
  · intro htorn
    exact hiface.trans (h.torn htorn)
  · intro hclosed
    exact HandOverAt.stopped_of_closed result hengines h.bare (hiface.symm.trans hclosed)
  · intro hdone
    have hat : (s.handOver.step result s.tun).2 = .idle := hdone
    rw [hat] at hnext
    exact (engines_of_not_inside hinside).mpr hnext
  · intro _
    exact ⟨hinside, hnext⟩

theorem Inv.begin (h : s.Inv) (hidle : s.control = .idle) {control : ControlAt}
    (hinside : control.inside = false)
    (hframe : control.Frame s.tun (s.tornDown && control != .establish)) :
    (s.begin control).Inv where
  frame := hframe
  torn htorn := h.torn (Bool.and_eq_true_iff.mp htorn).1
  bare := h.bare
  control hho := by
    have hengines := h.control hho
    rw [hidle] at hengines
    exact (engines_of_not_inside hinside).mpr hengines
  handOver hho := ⟨hinside, (h.handOver hho).2⟩

theorem Inv.step (available : Bool) (h : s.Inv) (e : EngineEvent) (hapart : s.Apart e) :
    (s.step available e).Inv := by
  cases e with
  | start =>
    simp only [EngineState.step]
    split
    · next hstart =>
        have hframe := h.frame
        rw [hstart.1] at hframe
        exact h.begin hstart.1 rfl ⟨hstart.2, hframe hstart.2, by simp⟩
    · exact h
  | reset =>
    simp only [EngineState.step]
    split
    · next hidle =>
        have hframe := h.frame
        rw [hidle] at hframe
        cases hrunning : s.tun.isRunning with
        | true => exact h.begin hidle rfl (fun hno => by cases hrunning.symm.trans hno)
        | false => exact h.begin hidle rfl ⟨hrunning, hframe hrunning, by simp⟩
    · exact h
  | stop =>
    simp only [EngineState.step]
    split
    · next hidle =>
        have hframe := h.frame
        rw [hidle] at hframe
        exact h.begin hidle rfl hframe
    · exact h
  | control ok => exact h.controlStep hapart ok
  | handOver chainReady chainMode =>
    simp only [EngineState.step]
    split
    · next hidle =>
        have hstable := (engines_of_not_inside hapart).mp (h.control hidle)
        exact ⟨h.frame, h.torn, h.bare, (fun hho => nomatch hho), fun _ => ⟨hapart, hstable⟩⟩
    · exact h
  | handOverStep result => exact h.handOverStep result

/-! ## One engine -/

theorem engines_le_one_of_stable (h : t.Stable) : t.engines ≤ 1 := by
  unfold Tun.engines
  cases hflag : t.usingHevEngine with
  | true =>
    rw [h.1, hflag, (h.stopped_of_hev hflag).2]
    rfl
  | false =>
    rw [h.1, hflag, h.2.1]
    cases t.packetRouter <;> simp

theorem engines_of_stopped (h : t.Stopped) : t.engines = 0 := by
  rw [Tun.engines, h.1, h.2]
  rfl

theorem engines_of_starting {router : Nat} (h : t.Starting router) : t.engines ≤ 1 := by
  rw [Tun.engines, h.1, h.2.2]
  rfl

theorem ControlAt.engines_le_one {at_ : ControlAt} (h : at_.Engines t) : t.engines ≤ 1 := by
  cases at_ with
  | setRunning | startRouter | clearInterface _ | clearFlag _ | clearRouter _ =>
    exact (engines_of_stopped h.1).trans_le (Nat.zero_le 1)
  | storeRouter router => exact engines_of_starting h
  | stopHev _ | stopRouter _ => exact engines_le_one_of_stable h.1
  | _ => exact engines_le_one_of_stable h

theorem HandOverAt.engines_le_one {at_ : HandOverAt} (h : at_.Engines t) : t.engines ≤ 1 := by
  cases at_ with
  | idle | compareFlag _ | sameEngine => exact engines_le_one_of_stable h
  | checkFlag _ | comparePort _ | takeInterface _ => exact engines_le_one_of_stable h.1
  | checkRestart _ => exact engines_le_one_of_stable h.2
  | restartStopHev _ | stopHev | stopRouter _ | clearFlag => exact engines_le_one_of_stable h.2.1
  | restartClearFlag _ | clearHevFlag | clearRouter _ | startHev _ | startFallback | startRouter =>
    exact (engines_of_stopped h.2.1).trans_le (Nat.zero_le 1)
  | storePort _ | storeFlag =>
    rw [Tun.engines, h.2.1, h.2.2.1]
    rfl
  | storeFallback _ | storeRouter _ => exact engines_of_starting h.2

theorem Inv.oneEngine (h : s.Inv) : s.OneEngine := by
  constructor
  · by_cases hho : s.handOver = .idle
    · exact ControlAt.engines_le_one (h.control hho)
    · exact HandOverAt.engines_le_one (h.handOver hho).2
  · intro htorn
    exact engines_of_stopped (h.bare (h.torn htorn))

/-- **At most one engine at every moment**, and none while the VPN is torn down,
in a run that keeps hand-overs apart from setup and teardown. -/
theorem oneEngine_of_apart (available : Bool) (events : List EngineEvent)
    (h : AlongRun (fun before e => (run available before).Apart e) events) :
    ∀ before, before <+: events → (run available before).OneEngine := by
  intro before hbefore
  have hinv : (run available before).Inv := by
    refine exec_invariant (I := fun events => (run available events).Inv) inv_create ?_
      (h.initial hbefore)
    intro events e hevents hapart
    have hstep : run available (events ++ [e]) = (run available events).step available e :=
      exec_concat ..
    rw [hstep]
    exact hevents.step available e hapart
  exact hinv.oneEngine

def orderlyEvents : List EngineEvent :=
  [EngineEvent.start] ++ List.replicate 6 (EngineEvent.control true) ++
    [EngineEvent.handOver true .aether] ++ List.replicate 9 (EngineEvent.handOverStep .started) ++
    [EngineEvent.stop] ++ List.replicate 8 (EngineEvent.control true)

theorem oneEngine_orderly :
    AlongRun (fun before e => (run true before).Apart e) orderlyEvents ∧
      (run true (orderlyEvents.take 17)).tun.hevRunning = true ∧
      (run true orderlyEvents).tornDown = true ∧
      ∀ before, before <+: orderlyEvents → (run true before).OneEngine := by
  have hapart : AlongRun (fun before e => (run true before).Apart e) orderlyEvents := by
    decide +kernel
  exact ⟨hapart, by decide +kernel, by decide +kernel, oneEngine_of_apart true _ hapart⟩

def overlappingEvents : List EngineEvent :=
  [EngineEvent.start] ++ List.replicate 6 (EngineEvent.control true) ++
    [EngineEvent.handOver true .aether] ++ List.replicate 2 (EngineEvent.handOverStep .started) ++
    [EngineEvent.stop] ++ List.replicate 8 (EngineEvent.control true) ++
    List.replicate 7 (EngineEvent.handOverStep .started)

theorem handOver_outlives_teardown :
    ((run true overlappingEvents).tornDown = true ∧ (run true overlappingEvents).tun.engines = 1) ∧
      (run true (overlappingEvents ++ [.start] ++ List.replicate 6 (.control true))).tun.engines =
        2 := by
  decide +kernel

end EngineState

end BigRocket.Service
