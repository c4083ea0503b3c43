/-
Which calls take a path to `DISCONNECTED`.
-/
import BigRocket.Service.PathHealthTheorems

namespace BigRocket.Service.PathHealthTracker

open Lib List

namespace Call

def Clears : Call → Prop
  | .update p => p.network = none ∨ p.Succeeded
  | .reset => True

/-- A failed probe of a path that carried no traffic within the grace time. -/
def Strikes (grace : Int) : Call → Prop
  | .update p => p.Failed ∧ p.sinceActivityMs.any (· ≤ grace) = false
  | .reset => False

instance : DecidablePred Clears
  | .update p => inferInstanceAs (Decidable (p.network = none ∨ p.Succeeded))
  | .reset => .isTrue trivial

instance (grace : Int) : DecidablePred (Strikes grace)
  | .update _ => instDecidableAnd
  | .reset => .isFalse id

end Call

def sinceCleared (calls : List Call) : List Call := calls.rtakeWhile fun c => ¬ c.Clears

def strikes (grace : Int) (calls : List Call) : Nat :=
  (sinceCleared calls).countP fun c => c.Strikes grace

section Counting

variable {grace : Int} {calls : List Call} {c : Call}

theorem strikes_concat (h : ¬ c.Clears) :
    strikes grace (calls ++ [c]) = strikes grace calls + if c.Strikes grace then 1 else 0 := by
  rw [strikes, sinceCleared, rtakeWhile_concat_pos _ _ _ (by simpa using h),
    countP_append, countP_singleton]
  simp only [decide_eq_true_eq]
  rfl

theorem not_clears_of_failed {p : Probe} (h : p.Failed) : ¬ (Call.update p).Clears := by
  rintro (hlost | hsucceeded)
  · exact h.1 hlost
  · exact hsucceeded.2 h.2

end Counting

/-! ## One call -/

variable {t : PathHealthTracker} {p : Probe}

theorem consecutiveFailures_update_of_clears (h : (Call.update p).Clears) :
    (t.update p).consecutiveFailures = 0 := by
  rcases h with hlost | hsucceeded
  · rw [update, if_pos hlost]
  · rw [update, if_neg hsucceeded.1, if_pos hsucceeded.2]

theorem consecutiveFailures_update_of_masked (h : p.Failed)
    (hactive : t.hasRecentActivity p = true) :
    (t.update p).consecutiveFailures = t.consecutiveFailures := by
  simp only [update, if_neg h.1, h.2, ne_eq, not_true_eq_false, if_false,
    hasRecentActivity_recordOutcome, hactive, if_true]
  rfl

theorem consecutiveFailures_update_of_strike (h : p.Failed)
    (hidle : t.hasRecentActivity p = false) :
    (t.update p).consecutiveFailures = min (t.consecutiveFailures + 1) t.failuresToDisconnect := by
  simp only [update, if_neg h.1, h.2, ne_eq, not_true_eq_false, if_false,
    hasRecentActivity_recordOutcome, hidle, Bool.false_eq_true]
  rfl

theorem settings_call (t : PathHealthTracker) (c : Call) :
    (t.call c).failuresToDisconnect = t.failuresToDisconnect ∧
      (t.call c).activityGraceMs = t.activityGraceMs := by
  cases c with
  | update p => exact ⟨(settings_update t p).1, (settings_update t p).2.2⟩
  | reset => exact ⟨rfl, rfl⟩

/-! ## Every run -/

section Runs

variable (failures successes : Nat) (grace : Int) (window : Nat)

variable (calls : List Call)

theorem runCalls_concat (c : Call) :
    runCalls failures successes grace window (calls ++ [c]) =
      (runCalls failures successes grace window calls).call c := exec_concat ..

theorem settings_runCalls :
    (runCalls failures successes grace window calls).failuresToDisconnect = failures ∧
      (runCalls failures successes grace window calls).activityGraceMs = grace := by
  induction calls using List.reverseRecOn with
  | nil => exact ⟨rfl, rfl⟩
  | append_singleton calls c ih =>
    rw [runCalls_concat]
    obtain ⟨hfailures, hgrace⟩ := settings_call (runCalls failures successes grace window calls) c
    exact ⟨hfailures.trans ih.1, hgrace.trans ih.2⟩

theorem consecutiveFailures_le_strikes :
    (runCalls failures successes grace window calls).consecutiveFailures ≤ strikes grace calls := by
  induction calls using List.reverseRecOn with
  | nil => exact Nat.zero_le _
  | append_singleton calls c ih =>
    obtain ⟨-, hgrace⟩ := settings_runCalls failures successes grace window calls
    rw [runCalls_concat]
    generalize runCalls failures successes grace window calls = t at *
    cases c with
    | reset => exact Nat.zero_le _
    | update p =>
      rw [call]
      by_cases hclears : (Call.update p).Clears
      · rw [consecutiveFailures_update_of_clears hclears]
        exact Nat.zero_le _
      rw [strikes_concat hclears]
      rcases probe_cases t p with hlost | hsucceeded | ⟨hfailed, hactive⟩ | ⟨hfailed, hidle⟩
      · exact absurd (.inl hlost) hclears
      · exact absurd (.inr hsucceeded) hclears
      · rw [consecutiveFailures_update_of_masked hfailed hactive]
        omega
      · have hstrikes : (Call.update p).Strikes grace := by
          rw [hasRecentActivity, hgrace] at hidle
          exact ⟨hfailed, hidle⟩
        rw [consecutiveFailures_update_of_strike hfailed hidle, if_pos hstrikes]
        omega

/-- **A path is lost on evidence only**: by a probe that found no network, or one
up to which enough failures have counted. -/
theorem disconnects_on_evidence (calls : List Call) :
    AlongRun (fun before c =>
      (runCalls failures successes grace window before).state ≠ .disconnected →
        (runCalls failures successes grace window (before ++ [c])).state = .disconnected →
          ∃ p, c = .update p ∧
            (p.network = none ∨ failures ≤ strikes grace (before ++ [c]))) calls := by
  intro before c after _ hup hdown
  have hcount := consecutiveFailures_le_strikes failures successes grace window before
  obtain ⟨hfailures, hgrace⟩ := settings_runCalls failures successes grace window before
  rw [runCalls_concat] at hdown
  generalize runCalls failures successes grace window before = t at *
  cases c with
  | reset => cases hdown
  | update p =>
    refine ⟨p, rfl, ?_⟩
    rcases probe_cases t p with hlost | hsucceeded | ⟨hfailed, hactive⟩ | ⟨hfailed, hidle⟩
    · exact .inl hlost
    · exact absurd ((update_of_succeeded hsucceeded).2.mp hdown).1 hup
    · exact absurd ((update_of_masked hfailed hactive).2.mp hdown) hup
    · right
      have henough := (update_of_strike hfailed hidle).2.mp hdown
      have hstrikes : (Call.update p).Strikes grace := by
        rw [hasRecentActivity, hgrace] at hidle
        exact ⟨hfailed, hidle⟩
      rw [strikes_concat (not_clears_of_failed hfailed), if_pos hstrikes]
      omega

-- one failure before the reset and one after it are not two in a row
example :
    (runCalls 2 2 0 5 [.update ⟨some 1, -1, none⟩, .reset, .update ⟨some 1, -1, none⟩]).state =
        .degraded ∧
      (runCalls 2 2 0 5 [.reset, .update ⟨some 1, -1, none⟩, .update ⟨some 1, -1, some 0⟩,
        .update ⟨some 1, -1, none⟩]).state = .disconnected := by
  decide

end Runs

end BigRocket.Service.PathHealthTracker
