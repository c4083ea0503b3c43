/-
Which attempts of an engine may run (`mayRun`); what may run beside the live
process of the current attempt is in the dark (`Dark`).
-/
import BigRocket.Service.Runtime

namespace BigRocket.Service

open Function

namespace Runtime

/-! ## Attempts that may run -/

/-- The process of an attempt runs, or may still be started, or the attempt
may still become ready. -/
def mayRun (r : Runtime) (g : Nat) : Bool :=
  (r.attempts g).any fun a =>
    a.alive || a.stage = .holding ||
      (r.generation = g && (a.stage = .preparing || a.stage = .started))

/-- Some attempt may run that is not the current one with its process stored
and alive. -/
def Dark (r : Runtime) : Prop :=
  ∃ g, g < r.generation + 1 ∧ r.mayRun g = true ∧
    ¬ (r.generation = g ∧ r.process = some g ∧ r.aliveAt g = true)

instance (r : Runtime) : Decidable r.Dark := inferInstanceAs (Decidable (∃ g, g < _ ∧ _))

structure Sound (e : Engine) (r : Runtime) : Prop where
  bound : ∀ g a, r.attempts g = some a → g ≤ r.generation
  held : ∀ g, r.process = some g → g ≤ r.generation
  alive : ∀ g a, r.attempts g = some a → a.alive = true →
    a.stage ≠ .preparing ∧ a.stage ≠ .holding
  port : ∀ a, r.attempts r.generation = some a →
    e = .aether ∨ r.process = some r.generation → r.activePort = some a.port

def DialsOnly (port : Option Nat) (r : Runtime) : Prop :=
  ∀ g a, r.attempts g = some a → r.mayRun g = true → port = some a.port

theorem sound_create (e : Engine) : create.Sound e where
  bound _ _ h := by cases h
  held _ h := by cases h
  alive _ _ h := by cases h
  port _ h := by cases h

abbrev Active (generation g : Nat) (a : Attempt) : Prop :=
  a.alive = true ∨ a.stage = .holding ∨
    generation = g ∧ (a.stage = .preparing ∨ a.stage = .started)

variable {e : Engine} {r r' : Runtime}

variable {g port : Nat} {a b : Attempt}

theorem mayRun_eq_true (h : r.mayRun g = true) :
    ∃ a, r.attempts g = some a ∧ Active r.generation g a := by
  unfold mayRun at h
  cases hg : r.attempts g with
  | none => rw [hg] at h; cases h
  | some a =>
    refine ⟨a, rfl, ?_⟩
    rw [hg] at h
    simpa [or_assoc] using h

theorem aliveAt_eq_true (h : r.aliveAt g = true) : ∃ a, r.attempts g = some a ∧ a.alive = true := by
  unfold aliveAt at h
  cases hg : r.attempts g with
  | none => rw [hg] at h; cases h
  | some a => exact ⟨a, rfl, by rw [hg] at h; exact h⟩

theorem mayRun_of (hg : r.attempts g = some a) (h : Active r.generation g a) :
    r.mayRun g = true := by
  rw [mayRun, hg]
  simpa [or_assoc] using h

theorem mayRun_of_aliveAt (h : r.aliveAt g = true) : r.mayRun g = true := by
  obtain ⟨a, hg, halive⟩ := aliveAt_eq_true h
  exact mayRun_of hg (.inl halive)

/-! ## Steps that gain nothing -/

def early (r : Runtime) (g : Nat) : Bool :=
  (r.attempts g).any fun a => a.stage = .preparing || a.stage = .holding

/-- `r'` comes from `r` by something that starts no attempt and takes none
back. -/
structure Fades (r r' : Runtime) : Prop where
  generation : r'.generation = r.generation
  mayRun : ∀ g, r'.mayRun g = true → r.mayRun g = true
  early : ∀ g, r'.early g = true → r.early g = true
  ports : ∀ g, (r'.attempts g).map (·.port) = (r.attempts g).map (·.port)

theorem Fades.before (hf : Fades r r') (hg : r'.attempts g = some a) :
    ∃ b, r.attempts g = some b ∧ b.port = a.port := by
  have hport := hf.ports g
  rw [hg] at hport
  cases hbefore : r.attempts g with
  | none => rw [hbefore] at hport; cases hport
  | some b =>
    rw [hbefore] at hport
    exact ⟨b, rfl, (Option.some.inj hport).symm⟩

theorem DialsOnly.fades {port : Option Nat} (h : r.DialsOnly port) (hf : Fades r r') :
    r'.DialsOnly port := by
  intro g a hg hmay
  obtain ⟨b, hb, hport⟩ := hf.before hg
  rw [h g b hb (hf.mayRun g hmay), hport]

theorem attempts_handleStartFailure (g : Nat) (engine : Option Nat) :
    (r.handleStartFailure e g engine).attempts = r.attempts := by
  unfold handleStartFailure
  split
  · split <;> rfl
  · rfl

theorem generation_handleStartFailure (g : Nat) (engine : Option Nat) :
    (r.handleStartFailure e g engine).generation = r.generation := by
  unfold handleStartFailure
  split
  · split <;> rfl
  · rfl

variable {r₀ : Runtime}

theorem fades_setAttempt (hg : r.attempts g = some a) (hattempts : r₀.attempts = r.attempts)
    (hgeneration : r₀.generation = r.generation) (hport : b.port = a.port)
    (hmay : Active r.generation g b → r.mayRun g = true)
    (hearly : (b.stage = .preparing ∨ b.stage = .holding) → r.early g = true) :
    Fades r (r₀.setAttempt g b) where
  generation := hgeneration
  mayRun g' h := by
    obtain ⟨b', hb', hrun⟩ := mayRun_eq_true h
    have hb : update r₀.attempts g (some b) g' = some b' := hb'
    have hrun' : Active r₀.generation g' b' := hrun
    rw [hgeneration] at hrun'
    by_cases heq : g' = g
    · subst heq
      rw [update_self] at hb
      cases hb
      exact hmay hrun'
    · rw [update_of_ne heq, hattempts] at hb
      exact mayRun_of hb hrun'
  early g' h := by
    have h' : (update r₀.attempts g (some b) g').any
        (fun a => a.stage = .preparing || a.stage = .holding) = true := h
    by_cases heq : g' = g
    · subst heq
      exact hearly (by simpa using h')
    · rw [update_of_ne heq, hattempts] at h'
      exact h'
  ports g' := by
    show (update r₀.attempts g (some b) g').map (·.port) = _
    by_cases heq : g' = g
    · subst heq
      rw [update_self, hg, Option.map_some, Option.map_some, hport]
    · rw [update_of_ne heq, hattempts]

theorem fades_over (hg : r.attempts g = some a) (hattempts : r₀.attempts = r.attempts)
    (hgeneration : r₀.generation = r.generation) (hport : b.port = a.port)
    (hover : b.stage = .ended ∨ b.stage = .failing) (halive : b.alive = true → a.alive = true) :
    Fades r (r₀.setAttempt g b) := by
  refine fades_setAttempt hg hattempts hgeneration hport (fun hrun => ?_) fun hearly => ?_
  · rcases hrun with h | h | ⟨-, h | h⟩
    · exact mayRun_of hg (.inl (halive h))
    all_goals rcases hover with ho | ho <;> rw [ho] at h <;> cases h
  · rcases hearly with h | h <;> rcases hover with ho | ho <;> rw [ho] at h <;> cases h

theorem fades_refl (r : Runtime) : Fades r r :=
  ⟨rfl, fun _ h => h, fun _ h => h, fun _ => rfl⟩

theorem early_of (hg : r.attempts g = some a) (h : a.stage = .preparing ∨ a.stage = .holding) :
    r.early g = true := by
  rw [early, hg]
  simpa using h

theorem fades_kill (g : Nat) (r : Runtime) : Fades r (r.kill g) := by
  unfold kill
  cases hg : r.attempts g with
  | none => exact fades_refl r
  | some a =>
    refine fades_setAttempt hg rfl rfl rfl (fun hrun => ?_) fun h => early_of hg h
    rcases hrun with halive | hrest
    · cases halive
    · exact mayRun_of hg (.inr hrest)

theorem fades_monitor (g : Nat) (r : Runtime) : Fades r (r.monitor g) := by
  unfold monitor
  split
  · exact ⟨rfl, fun _ h => h, fun _ h => h, fun _ => rfl⟩
  · exact fades_refl r

theorem fades_register (g : Nat) (r : Runtime) : Fades r (r.register g) := by
  unfold register
  split
  · exact ⟨rfl, fun _ h => h, fun _ h => h, fun _ => rfl⟩
  · exact fades_refl r

theorem fades_attemptStep (e : Engine) (g : Nat) (ok : Bool) (config : Nat) (r : Runtime) :
    Fades r (r.attemptStep e g ok config) := by
  unfold attemptStep
  cases hg : r.attempts g with
  | none => exact fades_refl r
  | some a =>
    dsimp only
    cases hstage : a.stage with
    | preparing =>
      dsimp only
      split
      · split
        · next hcurrent =>
            exact fades_setAttempt hg rfl rfl rfl
              (fun _ => mayRun_of hg (.inr (.inr ⟨hcurrent, .inl hstage⟩)))
              fun _ => early_of hg (.inl hstage)
        · exact fades_over hg rfl rfl rfl (.inl rfl) id
      · exact fades_over hg (attempts_handleStartFailure g none)
          (generation_handleStartFailure g none) rfl (.inl rfl) id
    | holding =>
      dsimp only
      split
      · exact fades_setAttempt hg rfl rfl rfl (fun _ => mayRun_of hg (.inr (.inl hstage)))
          fun _ => early_of hg (.inr hstage)
      · exact fades_over hg (attempts_handleStartFailure g (some g))
          (generation_handleStartFailure g (some g)) rfl (.inr rfl) id
    | started =>
      dsimp only
      split
      · split
        · exact fades_over hg rfl rfl rfl (.inl rfl) id
        · exact fades_over hg rfl rfl rfl (.inl rfl) nofun
      · exact fades_over hg (attempts_handleStartFailure g (some g))
          (generation_handleStartFailure g (some g)) rfl (.inr rfl) id
    | failing => exact fades_over hg rfl rfl rfl (.inl rfl) nofun
    | ended => exact fades_refl r

/-! ## The stored port -/

theorem Sound.setAttempt (h : r.Sound e) (hg : r.attempts g = some a)
    (hattempts : r₀.attempts = r.attempts) (hgeneration : r₀.generation = r.generation)
    (hport : b.port = a.port) (hheld : ∀ g, r₀.process = some g → g ≤ r.generation)
    (halive : b.alive = true → b.stage ≠ .preparing ∧ b.stage ≠ .holding)
    (hactive : ∀ a', r.attempts r.generation = some a' →
      e = .aether ∨ r₀.process = some r.generation → r₀.activePort = some a'.port) :
    (r₀.setAttempt g b).Sound e := by
  have hother : ∀ {g'}, g' ≠ g → (r₀.setAttempt g b).attempts g' = r.attempts g' := by
    intro g' hne
    exact (update_of_ne hne ..).trans (congrFun hattempts g')
  have hself : (r₀.setAttempt g b).attempts g = some b := update_self ..
  constructor
  · intro g' a' hg'
    show g' ≤ r₀.generation
    rw [hgeneration]
    by_cases heq : g' = g
    · rw [heq]
      exact h.bound g a hg
    · rw [hother heq] at hg'
      exact h.bound g' a' hg'
  · intro g' hg'
    show g' ≤ r₀.generation
    rw [hgeneration]
    exact hheld g' hg'
  · intro g' a' hg' ha'
    by_cases heq : g' = g
    · rw [heq, hself] at hg'
      cases hg'
      exact halive ha'
    · rw [hother heq] at hg'
      exact h.alive g' a' hg' ha'
  · intro a' hg' hstored
    have hgen : (r₀.setAttempt g b).generation = r.generation := hgeneration
    have hstored' : e = .aether ∨ r₀.process = some r.generation := by
      rw [hgen] at hstored
      exact hstored
    rw [hgen] at hg'
    by_cases heq : r.generation = g
    · rw [heq, hself] at hg'
      cases hg'
      rw [hport]
      exact hactive a (by rw [heq]; exact hg) hstored'
    · rw [hother heq] at hg'
      exact hactive a' hg' hstored'

theorem Sound.kill (h : r.Sound e) (g : Nat) : (r.kill g).Sound e := by
  unfold Runtime.kill
  cases hg : r.attempts g with
  | none => exact h
  | some a => exact h.setAttempt hg rfl rfl rfl h.held nofun h.port

theorem Sound.monitor (h : r.Sound e) (g : Nat) : (r.monitor g).Sound e := by
  unfold Runtime.monitor
  split
  · refine ⟨h.bound, nofun, h.alive, fun a ha hstored => h.port a ha ?_⟩
    rcases hstored with he | hp
    · exact .inl he
    · cases hp
  · exact h

theorem Sound.register (h : r.Sound e) (g : Nat) : (r.register g).Sound e := by
  unfold Runtime.register
  split
  · exact ⟨h.bound, h.held, h.alive, h.port⟩
  · exact h

theorem Sound.stop (h : r.Sound e) : r.stop.Sound e where
  bound g a hg := (h.bound g a hg).trans (Nat.le_succ r.generation)
  held := nofun
  alive := h.alive
  port a ha _ := by
    have hle : r.generation + 1 ≤ r.generation := h.bound _ a ha
    omega

theorem Sound.active_handleStartFailure (h : r.Sound e) (g : Nat) (engine : Option Nat)
    (a : Attempt) (ha : r.attempts r.generation = some a)
    (hstored : e = .aether ∨
      (r.handleStartFailure e g engine).process = some r.generation) :
    (r.handleStartFailure e g engine).activePort = some a.port := by
  revert hstored
  unfold handleStartFailure
  split
  · split
    · rintro (rfl | hp)
      · exact h.port a ha (.inl rfl)
      · cases hp
    · exact h.port a ha
  · exact h.port a ha

theorem Sound.held_handleStartFailure (h : r.Sound e) (g : Nat) (engine : Option Nat) (g' : Nat)
    (hstored : (r.handleStartFailure e g engine).process = some g') : g' ≤ r.generation := by
  revert hstored
  unfold handleStartFailure
  split
  · split
    · exact nofun
    · exact h.held g'
  · exact h.held g'

theorem Sound.attemptStep (h : r.Sound e) (g : Nat) (ok : Bool) (config : Nat) :
    (r.attemptStep e g ok config).Sound e := by
  unfold Runtime.attemptStep
  cases hg : r.attempts g with
  | none => exact h
  | some a =>
    have hfail : ∀ engine (b : Attempt), b.port = a.port →
        (b.alive = true → b.stage ≠ .preparing ∧ b.stage ≠ .holding) →
        ((r.handleStartFailure e g engine).setAttempt g b).Sound e := fun engine b hport halive =>
      h.setAttempt hg (attempts_handleStartFailure g engine)
        (generation_handleStartFailure g engine) hport (h.held_handleStartFailure g engine) halive
        (h.active_handleStartFailure g engine)
    dsimp only
    cases hstage : a.stage with
    | preparing =>
      have hdead : a.alive = true → False := fun ha => (h.alive g a hg ha).1 hstage
      dsimp only
      split
      · split
        · next hcurrent =>
            refine h.setAttempt hg rfl rfl rfl ?_ (fun ha => (hdead ha).elim) ?_
            · intro g' hg'
              cases hg'
              exact h.bound g a hg
            · intro a' ha' hstored
              rw [hcurrent, hg] at ha'
              cases ha'
              cases e with
              | xray => rfl
              | aether => exact h.port a (by rw [hcurrent]; exact hg) (.inl rfl)
        · exact h.setAttempt hg rfl rfl rfl h.held (fun ha => (hdead ha).elim) h.port
      · exact hfail none _ rfl fun ha => (hdead ha).elim
    | holding =>
      have hdead : a.alive = true → False := fun ha => (h.alive g a hg ha).2 hstage
      dsimp only
      split
      · exact h.setAttempt hg rfl rfl rfl h.held (fun _ => ⟨nofun, nofun⟩) h.port
      · exact hfail (some g) _ rfl fun ha => (hdead ha).elim
    | started =>
      dsimp only
      split
      · split
        · exact h.setAttempt hg rfl rfl rfl h.held (fun _ => ⟨nofun, nofun⟩) h.port
        · exact h.setAttempt hg rfl rfl rfl h.held nofun h.port
      · exact hfail (some g) _ rfl fun _ => ⟨nofun, nofun⟩
    | failing => exact h.setAttempt hg rfl rfl rfl h.held nofun h.port
    | ended => exact h

/-! ## Starting and stopping -/

theorem start_eq_some (h : r.start e port = some r') :
    r'.generation = r.generation + 1 ∧
      r'.attempts = update r.attempts (r.generation + 1) (some ⟨port, .preparing, false⟩) ∧
      (e = .aether → r'.activePort = some port) ∧ r'.process = r.process := by
  unfold start at h
  split at h
  · cases h
  · cases h
    refine ⟨rfl, rfl, fun he => ?_, rfl⟩
    rw [he]
    rfl

theorem Sound.start (h : r.Sound e) (hstart : r.start e port = some r') : r'.Sound e := by
  obtain ⟨hgen, hattempts, hactive, hproc⟩ := start_eq_some hstart
  constructor
  · intro g a hg
    rw [hgen]
    by_cases heq : g = r.generation + 1
    · omega
    · rw [hattempts, update_of_ne heq] at hg
      exact (h.bound g a hg).trans (Nat.le_succ _)
  · intro g hg
    rw [hproc] at hg
    rw [hgen]
    exact (h.held g hg).trans (Nat.le_succ _)
  · intro g a hg halive
    by_cases heq : g = r.generation + 1
    · rw [hattempts, heq, update_self] at hg
      cases hg
      cases halive
    · rw [hattempts, update_of_ne heq] at hg
      exact h.alive g a hg halive
  · intro a ha hstored
    rw [hgen, hattempts, update_self] at ha
    cases ha
    rcases hstored with he | hp
    · exact hactive he
    · rw [hproc, hgen] at hp
      have hle := h.held _ hp
      omega

theorem mayRun_start (hstart : r.start e port = some r') (hg : r'.attempts g = some a)
    (hmay : r'.mayRun g = true) : a.port = port ∨ (r.attempts g = some a ∧ r.mayRun g = true) := by
  obtain ⟨hgen, hattempts, -, -⟩ := start_eq_some hstart
  by_cases heq : g = r.generation + 1
  · rw [hattempts, heq, update_self] at hg
    cases hg
    exact .inl rfl
  · obtain ⟨a', ha', hrun⟩ := mayRun_eq_true hmay
    rw [hattempts, update_of_ne heq] at hg ha'
    refine .inr ⟨hg, mayRun_of ha' ?_⟩
    rcases hrun with h | h | ⟨hcurrent, -⟩
    · exact .inl h
    · exact .inr (.inl h)
    · omega

theorem DialsOnly.start (h : r.DialsOnly (some port)) (hstart : r.start e port = some r') :
    r'.DialsOnly (some port) := by
  intro g a hg hmay
  rcases mayRun_start hstart hg hmay with hport | ⟨hbefore, hmay⟩
  · rw [hport]
  · exact h g a hbefore hmay

theorem mayRun_stop (hs : r.Sound e) (hmay : r.stop.mayRun g = true) : r.mayRun g = true := by
  obtain ⟨a, hg, hrun⟩ := mayRun_eq_true hmay
  have hle := hs.bound g a hg
  refine mayRun_of hg ?_
  rcases hrun with h | h | ⟨hcurrent, -⟩
  · exact .inl h
  · exact .inr (.inl h)
  · have hgen : r.generation + 1 = g := hcurrent
    omega

theorem of_not_dark (hs : r.Sound e) (hdark : ¬ r.Dark) (hmay : r.mayRun g = true) :
    r.generation = g ∧ r.process = some g ∧ r.aliveAt g = true := by
  obtain ⟨a, hg, -⟩ := mayRun_eq_true hmay
  by_contra hnot
  exact hdark ⟨g, Nat.lt_succ_of_le (hs.bound g a hg), hmay, hnot⟩

theorem dialsOnly_of_not_running (hs : r.Sound e) (hdark : ¬ r.Dark)
    (hrunning : r.isRunning = false) (port : Option Nat) : r.DialsOnly port := by
  intro g a hg hmay
  obtain ⟨-, hprocess, halive⟩ := of_not_dark hs hdark hmay
  rw [isRunning, hprocess] at hrunning
  cases hrunning.symm.trans halive

theorem dialsOnly_of_not_needsRestart (hs : r.Sound e) (hdark : ¬ r.Dark) {config : Nat}
    (h : r.needsRestart e port config = false) : r.DialsOnly (some port) := by
  cases hrunning : r.isRunning with
  | false => exact dialsOnly_of_not_running hs hdark hrunning _
  | true =>
    intro g a hg hmay
    obtain ⟨hcurrent, hprocess, -⟩ := of_not_dark hs hdark hmay
    have hactive : r.activePort = some a.port :=
      hs.port a (by rw [hcurrent]; exact hg) (.inr (by rw [hcurrent]; exact hprocess))
    rw [needsRestart, hrunning, Bool.true_and] at h
    have hport : some port = r.activePort := by
      simpa using (Bool.or_eq_false_iff.mp h).1
    rw [hport, hactive]

/-! ## Between the two halves of `stop` -/

/-- The attempt is not the current one, and if it may run, then because its
process was started. -/
def Doomed (g : Nat) (r : Runtime) : Prop :=
  g < r.generation ∧ (r.mayRun g = true → r.early g = false)

def OthersDial (g : Nat) (port : Option Nat) (r : Runtime) : Prop :=
  ∀ g' a, g' ≠ g → r.attempts g' = some a → r.mayRun g' = true → port = some a.port

theorem Doomed.fades (h : r.Doomed g) (hf : Fades r r') : r'.Doomed g := by
  refine ⟨hf.generation.symm ▸ h.1, fun hmay => ?_⟩
  cases hearly : r'.early g with
  | false => rfl
  | true => cases (h.2 (hf.mayRun g hmay)).symm.trans (hf.early g hearly)

theorem OthersDial.fades {port : Option Nat} (h : r.OthersDial g port) (hf : Fades r r') :
    r'.OthersDial g port := by
  intro g' a hne hg' hmay
  obtain ⟨b, hb, hport⟩ := hf.before hg'
  rw [h g' b hne hb (hf.mayRun g' hmay), hport]

theorem Doomed.start (h : r.Doomed g) (hstart : r.start e port = some r') : r'.Doomed g := by
  obtain ⟨hgen, hattempts, -, -⟩ := start_eq_some hstart
  have hlt := h.1
  have hsame : r'.attempts g = r.attempts g := by
    rw [hattempts, update_of_ne (by omega)]
  refine ⟨by omega, fun hmay => ?_⟩
  obtain ⟨a, hg, hrun⟩ := mayRun_eq_true hmay
  rw [early, hsame]
  refine h.2 (mayRun_of (hsame.symm.trans hg) ?_)
  rcases hrun with h | h | ⟨hcurrent, -⟩
  · exact .inl h
  · exact .inr (.inl h)
  · omega

theorem OthersDial.start (h : r.OthersDial g (some port)) (hstart : r.start e port = some r') :
    r'.OthersDial g (some port) := by
  intro g' a hne hg' hmay
  rcases mayRun_start hstart hg' hmay with hport | ⟨hbefore, hmay⟩
  · rw [hport]
  · exact h g' a hne hbefore hmay

theorem doomed_of_stop (hs : r.Sound e) (hdark : ¬ r.Dark) (hprocess : r.process = some g)
    (port : Option Nat) : r.stop.OthersDial g port ∧ r.stop.Doomed g := by
  constructor
  · intro g' a hne hg' hmay
    obtain ⟨-, hprocess', -⟩ := of_not_dark hs hdark (mayRun_stop hs hmay)
    rw [hprocess] at hprocess'
    cases hprocess'
    exact absurd rfl hne
  · refine ⟨Nat.lt_succ_of_le (hs.held g hprocess), fun hmay => ?_⟩
    obtain ⟨-, -, halive⟩ := of_not_dark hs hdark (mayRun_stop hs hmay)
    obtain ⟨a, hg, ha⟩ := aliveAt_eq_true halive
    obtain ⟨hpreparing, hholding⟩ := hs.alive g a hg ha
    show r.early g = false
    rw [early, hg]
    simp [hpreparing, hholding]

theorem dialsOnly_kill {port : Option Nat} (hdoomed : r.Doomed g) (hothers : r.OthersDial g port) :
    (r.kill g).DialsOnly port := by
  intro g' a hg' hmay
  by_cases heq : g' = g
  · subst heq
    have hmay' := (fades_kill g' r).mayRun g' hmay
    obtain ⟨hlt, hearly⟩ := hdoomed.fades (fades_kill g' r)
    replace hearly := hearly hmay
    obtain ⟨b, hb, hrun⟩ := mayRun_eq_true hmay
    rw [early, hb] at hearly
    rcases hrun with h | h | ⟨hcurrent, -⟩
    · unfold kill at hb
      cases hbefore : r.attempts g' with
      | none => rw [mayRun, hbefore] at hmay'; cases hmay'
      | some c =>
        rw [hbefore] at hb
        have hself : (r.setAttempt g' { c with alive := false }).attempts g' =
            some { c with alive := false } := update_self ..
        cases hself.symm.trans hb
        cases h
    · simp [h] at hearly
    · omega
  · exact (hothers.fades (fades_kill g r)) g' a heq hg' hmay

structure Keeps (port : Option Nat) (r r' : Runtime) : Prop where
  dials : r.DialsOnly port → r'.DialsOnly port
  doomed : ∀ g, r.Doomed g → r'.Doomed g
  others : ∀ g, r.OthersDial g port → r'.OthersDial g port

theorem Fades.keeps (hf : Fades r r') (port : Option Nat) : Keeps port r r' where
  dials h := h.fades hf
  doomed _ h := h.fades hf
  others _ h := h.fades hf

theorem keeps_start (hstart : r.start e port = some r') :
    Keeps (some port) r r' where
  dials h := h.start hstart
  doomed _ h := h.start hstart
  others _ h := h.start hstart

end Runtime

end BigRocket.Service
