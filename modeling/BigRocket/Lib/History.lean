/-
Runs of a deterministic machine, read as histories. `AlongRun cond events`
demands of each event a condition on it and on the history before it.
-/
import Mathlib

namespace BigRocket.Lib

open List

variable {σ ε : Type} (step : σ → ε → σ) (init : σ)

def exec (events : List ε) : σ := events.foldl step init

@[simp] theorem exec_nil : exec step init [] = init := rfl

@[simp] theorem exec_concat (events : List ε) (e : ε) :
    exec step init (events ++ [e]) = step (exec step init events) e := by
  simp [exec]

theorem exec_append (events more : List ε) :
    exec step init (events ++ more) = exec step (exec step init events) more := by
  simp [exec]

/-! ## A condition on every event -/

/-- Every event of the run meets the condition, after the events before it. -/
def AlongRun (cond : List ε → ε → Prop) (events : List ε) : Prop :=
  ∀ before e after, events = before ++ e :: after → cond before e

variable {cond : List ε → ε → Prop}

@[simp] theorem alongRun_nil : AlongRun cond [] := by
  intro before e after h
  simp at h

variable {events : List ε} {I : List ε → Prop}

@[simp] theorem alongRun_concat {e : ε} :
    AlongRun cond (events ++ [e]) ↔ AlongRun cond events ∧ cond events e := by
  constructor
  · intro h
    constructor
    · intro before e' after heq
      exact h before e' (after ++ [e]) (by simp [heq])
    · exact h events e [] rfl
  · intro hboth before e' after heq
    obtain ⟨hall, hlast⟩ := hboth
    rcases eq_nil_or_concat after with rfl | ⟨after', last, rfl⟩
    · obtain ⟨rfl, h⟩ := append_inj_left' heq rfl, append_inj_right' heq rfl
      cases h
      exact hlast
    · have hcut : events ++ [e] = (before ++ e' :: after') ++ [last] := by simpa using heq
      exact hall before e' after' (append_inj_left' hcut rfl)

theorem alongRun_iff_forall_get :
    AlongRun cond events ↔ ∀ i : Fin events.length, cond (events.take i) (events.get i) := by
  constructor
  · intro h i
    apply h (events.take i) (events.get i) (events.drop (i + 1))
    simp
  · intro h before e after heq
    subst heq
    have hi := h ⟨before.length, by simp⟩
    simpa using hi

theorem alongRun_const {P : ε → Prop} : AlongRun (fun _ e => P e) events ↔ ∀ e ∈ events, P e := by
  constructor
  · intro h e he
    obtain ⟨before, after, heq⟩ := append_of_mem he
    exact h before e after heq
  · intro h before e after heq
    exact h e (by simp [heq])

instance [∀ before e, Decidable (cond before e)] (events : List ε) :
    Decidable (AlongRun cond events) :=
  decidable_of_iff _ alongRun_iff_forall_get.symm

theorem AlongRun.mono {cond' : List ε → ε → Prop} (h : AlongRun cond events)
    (himp : ∀ before e, cond before e → cond' before e) : AlongRun cond' events := by
  intro before e after heq
  exact himp before e (h before e after heq)

theorem AlongRun.initial {before : List ε} (h : AlongRun cond events)
    (hinitial : before <+: events) : AlongRun cond before := by
  obtain ⟨after, rfl⟩ := hinitial
  intro front e back heq
  exact h front e (back ++ after) (by simp [heq])

/-! ## Invariants -/

theorem exec_invariant (hinit : I [])
    (hstep : ∀ events e, I events → cond events e → I (events ++ [e])) (h : AlongRun cond events) :
    I events := by
  induction events using List.reverseRecOn with
  | nil => exact hinit
  | append_singleton events e ih =>
    obtain ⟨hbefore, hlast⟩ := alongRun_concat.mp h
    exact hstep events e (ih hbefore) hlast

theorem alongRun_of_invariant {cond' : List ε → ε → Prop} (hinit : I [])
    (hstep : ∀ events e, I events → cond events e → I (events ++ [e]))
    (hcond : ∀ events e, I events → cond events e → cond' events e) (h : AlongRun cond events) :
    AlongRun cond' events := by
  intro before e after heq
  have hinitial : AlongRun cond (before ++ [e]) := h.initial ⟨after, by simp [heq]⟩
  obtain ⟨hbefore, hlast⟩ := alongRun_concat.mp hinitial
  exact hcond before e (exec_invariant hinit hstep hbefore) hlast

theorem forall_prefix_iff_alongRun {P : List ε → Prop} (hinit : P [])
    (hstep : ∀ events e, P events → (P (events ++ [e]) ↔ cond events e)) (events : List ε) :
    (∀ before, before <+: events → P before) ↔ AlongRun cond events := by
  induction events using List.reverseRecOn with
  | nil => simpa using hinit
  | append_singleton events e ih =>
    rw [alongRun_concat, ← ih]
    constructor
    · intro h
      have hall : ∀ before, before <+: events → P before :=
        fun before hb => h before (hb.trans (prefix_append events [e]))
      exact ⟨hall, (hstep events e (hall events prefix_rfl)).mp (h _ prefix_rfl)⟩
    · intro hboth before hb
      obtain ⟨hall, hlast⟩ := hboth
      rcases prefix_concat_iff.mp hb with rfl | hb
      · exact (hstep events e (hall events prefix_rfl)).mpr hlast
      · exact hall before hb

/-- A property that each event keeps exactly when it meets the condition holds at
every moment exactly when every event meets it. -/
theorem forall_prefix_iff_alongRun_of_invariant {env : List ε → ε → Prop} {P : List ε → Prop}
    (hinit : I []) (hP : P [])
    (hstep : ∀ events e, I events → env events e → (P (events ++ [e]) ↔ cond events e))
    (hkeep : ∀ events e, I events → env events e → cond events e → I (events ++ [e]))
    (henv : AlongRun env events) :
    (∀ before, before <+: events → P before) ↔ AlongRun cond events := by
  have hrun : ∀ {events : List ε}, AlongRun env events → AlongRun cond events → I events := by
    intro events henv hcond
    induction events using List.reverseRecOn with
    | nil => exact hinit
    | append_singleton events e ih =>
      obtain ⟨henv, henvLast⟩ := alongRun_concat.mp henv
      obtain ⟨hcond, hlast⟩ := alongRun_concat.mp hcond
      exact hkeep events e (ih henv hcond) henvLast hlast
  induction events using List.reverseRecOn with
  | nil => simpa using hP
  | append_singleton events e ih =>
    obtain ⟨henv, henvLast⟩ := alongRun_concat.mp henv
    have hbefore := ih henv
    constructor
    · intro h
      have hall : ∀ before, before <+: events → P before :=
        fun before hb => h before (hb.trans (prefix_append events [e]))
      have hcond := hbefore.mp hall
      have hlast := (hstep events e (hrun henv hcond) henvLast).mp (h _ prefix_rfl)
      exact alongRun_concat.mpr ⟨hcond, hlast⟩
    · intro h before hb
      obtain ⟨hcond, hlast⟩ := alongRun_concat.mp h
      rcases prefix_concat_iff.mp hb with rfl | hb
      · exact (hstep events e (hrun henv hcond) henvLast).mpr hlast
      · exact hbefore.mpr hcond before hb

end BigRocket.Lib
