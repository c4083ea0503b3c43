/-
What `EmbeddedAetherRuntime` shows of itself, over the record of both engines:
its phase, and what it tells `AetherController`. `start` asks whether a job is
active and not whether an engine is up, so a `start` of a ready runtime puts its
engine in the place of one that nobody stops any more.

An attempt publishes how far it is at any time between its steps. `stop` takes
the process out under the lock and stops it later. Deadlines are left out.
-/
import BigRocket.Service.RuntimeTheorems
import BigRocket.Service.Supervisor

namespace BigRocket.Service

open Lib

inductive ConnectionState where
  | idle
  | launching
  | connecting
  | verifying
  | connected (socksAddr : String)
  | error (message : String)
  deriving DecidableEq

structure AetherController where
  state : ConnectionState
  ipLoading : Bool
  ipInfo : Option String
  deriving DecidableEq

/-- What an attempt publishes on its way, if it is the current one. -/
inductive Progress where
  | launching
  | connecting
  | listening
  | verifying

def Progress.stage : Progress → Stage
  | .launching => .preparing
  | .connecting | .listening | .verifying => .started

/-- How a step of an attempt ends: it goes on, with the exit address if it has
just verified the tunnel, or it throws. -/
inductive StepResult where
  | ok (ip : Option String)
  | throws (message : Option String)

def StepResult.isOk : StepResult → Bool
  | .ok _ => true
  | .throws _ => false

structure AetherRuntime extends Runtime where
  phase : RuntimePhase
  controller : AetherController
  /-- What calls of `stop` have taken out and not stopped yet. -/
  stopping : List Nat

inductive AetherEvent where
  | start (port : Nat)
  | register (g : Nat)
  | stop
  | stopsProcess (g : Nat)
  | publish (g : Nat) (p : Progress)
  | attempt (g : Nat) (result : StepResult)
  | dies (g : Nat)
  | engineDied (g : Nat)

namespace AetherRuntime

def create : AetherRuntime := ⟨.create, .idle, ⟨.idle, false, none⟩, []⟩

def inStage (s : AetherRuntime) (g : Nat) (stage : Stage) : Bool :=
  (s.attempts g).any (·.stage = stage)

def start (port : Nat) (s : AetherRuntime) : AetherRuntime :=
  match s.toRuntime.start .aether port with
  | some r => { s with toRuntime := r, phase := .starting }
  | none => s

def stop (s : AetherRuntime) : AetherRuntime where
  toRuntime := s.toRuntime.stop
  phase := .idle
  controller := { s.controller with state := .idle, ipLoading := false }
  stopping := s.process.toList ++ s.stopping

def stopsProcess (g : Nat) (s : AetherRuntime) : AetherRuntime :=
  if g ∈ s.stopping then { s with toRuntime := s.kill g, stopping := s.stopping.erase g } else s

def publish (g : Nat) (p : Progress) (s : AetherRuntime) : AetherRuntime :=
  if s.generation = g ∧ s.inStage g p.stage then
    match p with
    | .launching => { s with controller := { s.controller with state := .launching } }
    | .connecting => { s with controller := { s.controller with state := .connecting } }
    | .listening => { s with phase := .starting }
    | .verifying =>
      { s with
        phase := .verifying
        controller := { s.controller with state := .verifying, ipLoading := true } }
  else s

/-- What the step of an attempt does to the phase and the controller: it is
verified, or `handleStartFailure` runs. -/
def attempt (g : Nat) (result : StepResult) (s : AetherRuntime) : AetherRuntime :=
  let s' := { s with toRuntime := s.attemptStep .aether g result.isOk 0 }
  match result with
  | .ok ip =>
    if s.becomesReady g true then
      { s' with phase := .ready, controller := ⟨.connected "127.0.0.1:1819", false, ip⟩ }
    else s'
  | .throws message =>
    if s.generation = g ∧ (s.inStage g .preparing ∨ s.inStage g .holding ∨ s.inStage g .started)
    then
      { s' with
        phase := .failed
        controller :=
          { s.controller with
            state := .error (message.getD "Aether connection failed")
            ipLoading := false } }
    else s'

/-- `onEngineDied`, of the monitor that an attempt has launched when it was
ready. -/
def engineDied (g : Nat) (s : AetherRuntime) : AetherRuntime :=
  if s.phase = .ready ∧ s.generation = g ∧ s.process = some g ∧ s.inStage g .ended ∧
      s.aliveAt g = false then
    { s with
      toRuntime := s.monitor g
      phase := .failed
      controller := { s.controller with
        state := .error "موتور Aether به‌طور غیرمنتظره متوقف شد" } }
  else s

def step (s : AetherRuntime) : AetherEvent → AetherRuntime
  | .start port => s.start port
  | .register g => { s with toRuntime := s.toRuntime.register g }
  | .stop => s.stop
  | .stopsProcess g => s.stopsProcess g
  | .publish g p => s.publish g p
  | .attempt g result => s.attempt g result
  | .dies g => { s with toRuntime := s.kill g }
  | .engineDied g => s.engineDied g

def run (events : List AetherEvent) : AetherRuntime := exec step create events

/-! ## One owner -/

def shown (s : AetherRuntime) : RuntimePhase × Bool × Option Nat × AetherController :=
  (s.phase, s.trafficReady, s.process, s.controller)

/-- When no attempt runs, and no call of `stop`, an engine that is up is the
current process. -/
def Owned (s : AetherRuntime) : Prop :=
  (∀ g, s.unfinished g = false) → s.stopping = [] → ∀ g, s.aliveAt g = true → s.process = some g

/-- An attempt that stores its process finds none there that is up and whose
attempt is over. -/
def StoresFree (s : AetherRuntime) : AetherEvent → Prop
  | .attempt g result => result.isOk = true → s.generation = g → s.inStage g .preparing = true →
      ∀ old ∈ s.process, s.aliveAt old = true → s.unfinished old = true
  | _ => True

structure Inv (s : AetherRuntime) : Prop where
  sound : s.toRuntime.Sound .aether
  stored : ∀ a, s.attempts s.generation = some a → a.stage = .holding ∨ a.stage = .started →
    s.process = some s.generation
  ready : s.trafficReady = true → s.phase = .ready ∧ s.process = some s.generation ∧
    s.inStage s.generation .ended = true

def Kept (s : AetherRuntime) : Prop :=
  ∀ g a, s.attempts g = some a → a.stage = .ended → a.alive = true →
    s.process = some g ∨ g ∈ s.stopping

variable {s : AetherRuntime} {g : Nat}

theorem handleStartFailure_aether (r : Runtime) (g : Nat) (engine : Option Nat) :
    (r.handleStartFailure .aether g engine).process =
        (if r.generation = g ∧ r.process = engine then none else r.process) ∧
      (r.handleStartFailure .aether g engine).trafficReady =
        (r.trafficReady && decide (r.generation ≠ g)) := by
  unfold Runtime.handleStartFailure
  split
  · split <;> simp_all
  · simp_all

theorem toRuntime_attempt (result : StepResult) :
    (s.attempt g result).toRuntime = s.attemptStep .aether g result.isOk 0 := by
  cases result <;> unfold attempt <;> dsimp only <;> split <;> rfl

theorem generation_attempt (result : StepResult) :
    (s.attempt g result).generation = s.generation := by
  rw [toRuntime_attempt]
  exact (Runtime.fades_attemptStep ..).generation

theorem attempt_of_none (hg : s.attempts g = none) (result : StepResult) :
    s.attempt g result = s := by
  cases result <;> simp [attempt, Runtime.attemptStep, hg, Runtime.becomesReady, inStage]

/-- The steps of an attempt that is not the current one leave everything but
the attempt as it is, and its engine is not up when it has ended. -/
theorem attempt_older (hsound : s.toRuntime.Sound .aether) (hold : s.generation ≠ g)
    (result : StepResult) :
    (s.attempt g result).shown = s.shown ∧ (s.attempt g result).stopping = s.stopping ∧
      (∀ other ≠ g, (s.attempt g result).attempts other = s.attempts other) ∧
      ∀ a, (s.attempt g result).attempts g = some a → a.stage = .ended → a.alive = true →
        s.attempts g = some a := by
  cases hg : s.attempts g with
  | none =>
    rw [attempt_of_none hg]
    simp [hg]
  | some a =>
    have halive := hsound.alive g a hg
    obtain ⟨port, stage, alive⟩ := a
    cases stage <;> cases result <;>
      simp_all +contextual [attempt, shown, Runtime.attemptStep, Runtime.becomesReady,
        StepResult.isOk, handleStartFailure_aether, Runtime.attempts_handleStartFailure,
        Runtime.setAttempt]

theorem inv_attempt_current (h : s.Inv) (hcurrent : s.generation = g) (result : StepResult) :
    (∀ a, (s.attempt g result).attempts g = some a → a.stage = .holding ∨ a.stage = .started →
      (s.attempt g result).process = some g) ∧
    ((s.attempt g result).trafficReady = true → (s.attempt g result).phase = .ready ∧
      (s.attempt g result).process = some g ∧ (s.attempt g result).inStage g .ended = true) := by
  obtain ⟨-, hstored, hready⟩ := h
  rw [hcurrent] at hstored hready
  cases hg : s.attempts g with
  | none =>
    rw [attempt_of_none hg]
    exact ⟨hstored, hready⟩
  | some a =>
    obtain ⟨port, stage, alive⟩ := a
    cases stage <;> cases result <;>
      simp_all [attempt, Runtime.attemptStep, Runtime.becomesReady, StepResult.isOk, inStage,
        handleStartFailure_aether, Runtime.attempts_handleStartFailure, Runtime.setAttempt]

theorem inv_attempt (h : s.Inv) (result : StepResult) : (s.attempt g result).Inv := by
  have hsound : (s.attempt g result).toRuntime.Sound .aether := by
    rw [toRuntime_attempt]
    exact h.sound.attemptStep g _ 0
  have hgeneration : (s.attempt g result).generation = s.generation := generation_attempt result
  by_cases hcurrent : s.generation = g
  · obtain ⟨hstored, hready⟩ := inv_attempt_current h hcurrent result
    refine ⟨hsound, ?_, ?_⟩ <;> rw [hgeneration, hcurrent]
    · exact hstored
    · exact hready
  · obtain ⟨hshown, -, hother, -⟩ := attempt_older h.sound hcurrent result
    simp only [shown, Prod.mk.injEq] at hshown
    obtain ⟨hphase, htraffic, hprocess, -⟩ := hshown
    refine ⟨hsound, ?_, ?_⟩
    · rw [hgeneration, hprocess, hother _ hcurrent]
      exact h.stored
    · rw [hgeneration, hprocess, htraffic, hphase, inStage, hother _ hcurrent]
      exact h.ready

theorem kept_attempt (h : s.Inv) (hkept : s.Kept) {result : StepResult}
    (hfree : s.StoresFree (.attempt g result)) : (s.attempt g result).Kept := by
  unfold StoresFree at hfree
  by_cases hcurrent : s.generation = g
  · have hstored := h.stored
    rw [hcurrent] at hstored
    cases hg : s.attempts g with
    | none => rwa [attempt_of_none hg]
    | some a =>
      have halive := h.sound.alive g a hg
      obtain ⟨port, stage, alive⟩ := a
      cases stage <;> cases result <;>
        simp_all [attempt, Runtime.attemptStep, Runtime.becomesReady, StepResult.isOk, inStage,
          handleStartFailure_aether, Runtime.attempts_handleStartFailure, Runtime.setAttempt, Kept,
          Function.update_apply, Runtime.aliveAt, Runtime.unfinished] <;>
        grind
  · obtain ⟨hshown, hstopping, hother, hself⟩ := attempt_older h.sound hcurrent result
    simp only [shown, Prod.mk.injEq] at hshown
    intro other a ha hended halive
    rw [hstopping, hshown.2.2.1]
    refine hkept other a ?_ hended halive
    by_cases heq : other = g
    · subst heq
      exact hself a ha hended halive
    · rwa [hother other heq] at ha

/-! ## Every step -/

structure Steady (s s' : AetherRuntime) : Prop where
  inv : s'.Inv
  kept : s.Kept → s'.Kept

theorem steady_kill (h : s.Inv) (g : Nat) {stopping : List Nat}
    (hstopping : ∀ other ≠ g, other ∈ s.stopping → other ∈ stopping) :
    Steady s { s with toRuntime := s.kill g, stopping } := by
  have hsound := h.sound.kill g
  obtain ⟨-, hstored, hready⟩ := h
  unfold Runtime.kill at hsound ⊢
  cases hg : s.attempts g with
  | none =>
    simp only [hg] at hsound
    refine ⟨⟨hsound, hstored, hready⟩, fun hkept => ?_⟩
    unfold Kept at *
    grind
  | some a =>
    simp only [hg] at hsound
    refine ⟨⟨hsound, ?_, ?_⟩, fun hkept => ?_⟩
    all_goals unfold Kept inStage Runtime.setAttempt at *
    all_goals simp only [Function.update_apply]
    all_goals grind

theorem steady_start (h : s.Inv) (port : Nat) : Steady s (s.start port) := by
  unfold start
  split
  · next r hstart =>
      obtain ⟨hgeneration, hattempts, -, hprocess⟩ := Runtime.start_eq_some hstart
      have hdown : r.trafficReady = false := by
        unfold Runtime.start at hstart
        split at hstart <;> cases hstart
        rfl
      refine ⟨⟨h.sound.start hstart, ?_, ?_⟩, fun hkept => ?_⟩
      · simp [hgeneration, hattempts]
      · simp [hdown]
      · unfold Kept at *
        simp only [hattempts, hprocess, Function.update_apply]
        grind
  · exact ⟨h, id⟩

theorem steady_stop (h : s.Inv) : Steady s s.stop := by
  refine ⟨⟨h.sound.stop, fun a ha => ?_, nofun⟩, fun hkept g a hg hended halive => ?_⟩
  · have hle : s.generation + 1 ≤ s.generation := h.sound.bound _ a ha
    omega
  · right
    simpa [stop] using hkept g a hg hended halive

theorem steady_publish (h : s.Inv) (g : Nat) (p : Progress) : Steady s (s.publish g p) := by
  unfold publish
  split
  · next hstage =>
      have hdown : s.trafficReady = false := by
        have hready := h.ready
        unfold inStage at hready hstage
        cases hg : s.attempts g <;> cases p <;> simp_all [Progress.stage] <;> grind
      cases p <;> exact ⟨⟨h.sound, h.stored, by simp [hdown]⟩, id⟩
  · exact ⟨h, id⟩

theorem steady_engineDied (h : s.Inv) (g : Nat) : Steady s (s.engineDied g) := by
  unfold engineDied
  split
  · next hdied =>
      obtain ⟨-, rfl, hprocess, hended, hdead⟩ := hdied
      have hover : s.unfinished s.generation = false := by
        unfold inStage at hended
        unfold Runtime.unfinished
        cases hg : s.attempts s.generation <;> simp_all
      have hmonitor : s.monitor s.generation =
          { s.toRuntime with trafficReady := false, process := none } :=
        if_pos ⟨rfl, hprocess, hover, hdead⟩
      refine ⟨⟨h.sound.monitor _, ?_, ?_⟩, fun hkept other a ha hstage halive => ?_⟩
      · intro a ha
        simp only [hmonitor] at ha
        have hstage : a.stage = .ended := by simpa [inStage, ha] using hended
        simp [hstage]
      · simp [hmonitor]
      · simp only [hmonitor] at ha ⊢
        rcases hkept other a ha hstage halive with hother | hother
        · rw [hprocess] at hother
          cases hother
          simp [Runtime.aliveAt, ha, halive] at hdead
        · exact .inr hother
  · exact ⟨h, id⟩

theorem inv_step (h : s.Inv) (e : AetherEvent) :
    (s.step e).Inv ∧ (s.StoresFree e → s.Kept → (s.step e).Kept) := by
  suffices hsteady : (∃ g result, e = .attempt g result) ∨ Steady s (s.step e) by
    rcases hsteady with ⟨g, result, rfl⟩ | hsteady
    · exact ⟨inv_attempt h result, fun hfree hkept => kept_attempt h hkept hfree⟩
    · exact ⟨hsteady.inv, fun _ => hsteady.kept⟩
  cases e with
  | attempt g result => exact .inl ⟨g, result, rfl⟩
  | start port => exact .inr (steady_start h port)
  | register g =>
    refine .inr ⟨⟨h.sound.register g, ?_, ?_⟩, ?_⟩ <;> rw [step, Runtime.register] <;> split
    exacts [h.stored, h.stored, h.ready, h.ready, id, id]
  | stop => exact .inr (steady_stop h)
  | stopsProcess g =>
    refine .inr ?_
    rw [step, stopsProcess]
    split
    · exact steady_kill h g fun other hne hother => (List.mem_erase_of_ne hne).mpr hother
    · exact ⟨h, id⟩
  | publish g p => exact .inr (steady_publish h g p)
  | dies g => exact .inr (steady_kill h g fun _ _ => id)
  | engineDied g => exact .inr (steady_engineDied h g)

theorem inv_run (events : List AetherEvent) : (run events).Inv ∧
    (AlongRun (fun before e => (run before).StoresFree e) events → (run events).Kept) := by
  induction events using List.reverseRecOn with
  | nil => exact ⟨⟨Runtime.sound_create .aether, nofun, nofun⟩, fun _ => nofun⟩
  | append_singleton events e ih =>
    obtain ⟨hinv, hkept⟩ := inv_step ih.1 e
    rw [run, exec_concat, ← run]
    refine ⟨hinv, fun h => ?_⟩
    obtain ⟨hbefore, hfree⟩ := alongRun_concat.mp h
    exact hkept hfree (ih.2 hbefore)

/-- **Ready only with the current engine**, and nothing that is shown changes by
an older attempt; **one owner** of every engine, as long as none that is up is
replaced. -/
theorem one_engine_one_owner (events : List AetherEvent) :
    ((run events).trafficReady = true →
        (run events).phase = .ready ∧ (run events).process = some (run events).generation) ∧
      (∀ g < (run events).generation,
        (∀ result, ((run events).step (.attempt g result)).shown = (run events).shown) ∧
          (∀ p, ((run events).step (.publish g p)).shown = (run events).shown) ∧
          ((run events).step (.engineDied g)).shown = (run events).shown) ∧
      (AlongRun (fun before e => (run before).StoresFree e) events → (run events).Owned) := by
  obtain ⟨h, hkept⟩ := inv_run events
  refine ⟨fun hready => ⟨(h.ready hready).1, (h.ready hready).2.1⟩, ?_, ?_⟩
  · intro g hold
    refine ⟨fun result => (attempt_older h.sound hold.ne' result).1, fun p => ?_, ?_⟩
    · rw [step, publish.eq_def, if_neg fun hstage => hold.ne' hstage.1]
    · rw [step, engineDied, if_neg fun hdied => hold.ne' hdied.2.1]
  · intro hfree hover hstopping g halive
    obtain ⟨a, hg, halive⟩ := Runtime.aliveAt_eq_true halive
    have hended : a.stage = .ended := by simpa [Runtime.unfinished, hg] using hover g
    simpa [hstopping] using hkept hfree g a hg hended halive

/-- A second `start` of a ready runtime: both engines are up, and no attempt runs. -/
theorem two_engines :
    let s := run [.start 1, .register 1, .attempt 1 (.ok none), .attempt 1 (.ok none),
      .attempt 1 (.ok none), .start 1, .register 2, .attempt 2 (.ok none), .attempt 2 (.ok none),
      .attempt 2 (.ok none)]
    ¬ s.Owned ∧ s.aliveAt 1 = true ∧ s.process = some 2 := by
  refine ⟨fun h => ?_, by decide +kernel, by decide +kernel⟩
  have hone := h (fun g => ?_) (by decide +kernel) 1 (by decide +kernel)
  · exact absurd hone (by decide +kernel)
  · match g with
    | 0 | 1 | 2 => decide +kernel
    | _ + 3 => rfl

end AetherRuntime

end BigRocket.Service
