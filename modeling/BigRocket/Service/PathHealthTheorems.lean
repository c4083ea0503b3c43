/-
Which probes take a path out of `DISCONNECTED`. A failed probe can, and the
successes that confirm a recovery need not be in a row.
-/
import BigRocket.Service.PathHealth

namespace BigRocket.Service

open Lib List

def Probe.Succeeded (p : Probe) : Prop := p.network ≠ none ∧ p.probeLatencyMs ≠ LatencyTester.failure

def Probe.Failed (p : Probe) : Prop := p.network ≠ none ∧ p.probeLatencyMs = LatencyTester.failure

instance (p : Probe) : Decidable p.Succeeded := instDecidableAnd
instance (p : Probe) : Decidable p.Failed := instDecidableAnd

namespace PathHealthTracker

variable {t : PathHealthTracker} {p : Probe}

/-! ## One probe -/

theorem hasRecentActivity_recordOutcome (success : Bool) :
    (t.recordOutcome success).hasRecentActivity p = t.hasRecentActivity p := rfl

theorem update_of_succeeded (h : p.Succeeded) :
    (t.update p).consecutiveSuccesses = min (t.consecutiveSuccesses + 1) t.successesToRecover ∧
      ((t.update p).state = .disconnected ↔
        t.state = .disconnected ∧ t.consecutiveSuccesses + 1 < t.successesToRecover) := by
  simp only [update, if_neg h.1, if_pos h.2, recordOutcome]
  refine ⟨trivial, ?_⟩
  by_cases hcount : t.consecutiveSuccesses + 1 < t.successesToRecover
  · by_cases hstate : t.state = .disconnected
    · simp [hcount, hstate]
    · simp [hstate]
  · simp [hcount]

theorem update_of_masked (h : p.Failed) (hactive : t.hasRecentActivity p = true) :
    (t.update p).consecutiveSuccesses = t.consecutiveSuccesses ∧
      ((t.update p).state = .disconnected ↔ t.state = .disconnected) := by
  simp only [update, if_neg h.1, h.2, ne_eq, not_true_eq_false, if_false,
    hasRecentActivity_recordOutcome, hactive, if_true]
  simp only [recordOutcome]
  refine ⟨trivial, ?_⟩
  by_cases hstate : t.state = .disconnected
  · simp [hstate]
  · simp [hstate]

theorem update_of_strike (h : p.Failed) (hidle : t.hasRecentActivity p = false) :
    (t.update p).consecutiveSuccesses = 0 ∧
      ((t.update p).state = .disconnected ↔
        t.failuresToDisconnect ≤ t.consecutiveFailures + 1) := by
  simp only [update, if_neg h.1, h.2, ne_eq, not_true_eq_false, if_false,
    hasRecentActivity_recordOutcome, hidle, Bool.false_eq_true]
  simp only [recordOutcome]
  refine ⟨trivial, ?_⟩
  by_cases hcount : t.failuresToDisconnect ≤ t.consecutiveFailures + 1
  · simp [hcount]
  · simp [hcount]

theorem update_of_lost (h : p.network = none) :
    (t.update p).consecutiveSuccesses = 0 ∧ (t.update p).state = .disconnected := by
  simp only [update, if_pos h]
  exact ⟨trivial, trivial⟩

theorem probe_cases (t : PathHealthTracker) (p : Probe) :
    p.network = none ∨ p.Succeeded ∨ (p.Failed ∧ t.hasRecentActivity p = true) ∨
      (p.Failed ∧ t.hasRecentActivity p = false) := by
  by_cases hnetwork : p.network = none
  · exact .inl hnetwork
  · by_cases hlatency : p.probeLatencyMs = LatencyTester.failure
    · cases hactive : t.hasRecentActivity p with
      | true => exact .inr (.inr (.inl ⟨⟨hnetwork, hlatency⟩, rfl⟩))
      | false => exact .inr (.inr (.inr ⟨⟨hnetwork, hlatency⟩, rfl⟩))
    · exact .inr (.inl ⟨hnetwork, hlatency⟩)

theorem settings_update (t : PathHealthTracker) (p : Probe) :
    (t.update p).failuresToDisconnect = t.failuresToDisconnect ∧
      (t.update p).successesToRecover = t.successesToRecover ∧
      (t.update p).activityGraceMs = t.activityGraceMs := by
  unfold update
  split
  · exact ⟨rfl, rfl, rfl⟩
  · split
    · exact ⟨rfl, rfl, rfl⟩
    · simp only
      split
      · exact ⟨rfl, rfl, rfl⟩
      · exact ⟨rfl, rfl, rfl⟩

/-! ## Every run -/

section Runs

variable {failures successes : Nat} {grace : Int} {window : Nat} {before probes : List Probe}

theorem settings_run (failures successes : Nat) (grace : Int) (window : Nat)
    (probes : List Probe) :
    (run failures successes grace window probes).failuresToDisconnect = failures ∧
      (run failures successes grace window probes).successesToRecover = successes ∧
      (run failures successes grace window probes).activityGraceMs = grace := by
  induction probes using List.reverseRecOn with
  | nil => exact ⟨rfl, rfl, rfl⟩
  | append_singleton probes p ih =>
    rw [run, exec_concat]
    obtain ⟨h₁, h₂, h₃⟩ := settings_update (run failures successes grace window probes) p
    exact ⟨h₁.trans ih.1, h₂.trans ih.2.1, h₃.trans ih.2.2⟩

def Masked (grace : Int) (p : Probe) : Prop := p.Failed ∧ p.sinceActivityMs.any (· ≤ grace) = true

/-- The successes that are counted belong to the last probes, among which
there is nothing else but failures on a path that carries traffic. -/
def Counted (grace : Int) (probes : List Probe) (count : Nat) : Prop :=
  ∃ front recent, probes = front ++ recent ∧ (∀ p ∈ recent, p.Succeeded ∨ Masked grace p) ∧
    count ≤ recent.length

theorem counted_zero (probes : List Probe) : Counted grace probes 0 :=
  ⟨probes, [], (append_nil probes).symm, nofun, Nat.zero_le _⟩

theorem Counted.concat {count count' : Nat} {p : Probe} (h : Counted grace before count)
    (hp : p.Succeeded ∨ Masked grace p) (hcount : count' ≤ count + 1) :
    Counted grace (before ++ [p]) count' := by
  obtain ⟨front, recent, rfl, hall, hle⟩ := h
  refine ⟨front, recent ++ [p], append_assoc .., fun q hq => ?_, ?_⟩
  · rcases mem_append.mp hq with hq | hq
    · exact hall q hq
    · rw [mem_singleton.mp hq]
      exact hp
  · rw [length_append, length_singleton]
    omega

theorem counted_run :
    Counted grace probes (run failures successes grace window probes).consecutiveSuccesses := by
  induction probes using List.reverseRecOn with
  | nil => exact counted_zero []
  | append_singleton probes p ih =>
    have hgrace := (settings_run failures successes grace window probes).2.2
    have hnext : run failures successes grace window (probes ++ [p]) =
        (run failures successes grace window probes).update p := exec_concat ..
    rw [hnext]
    rcases probe_cases (run failures successes grace window probes) p with
      hlost | hsucceeded | ⟨hfailed, hactive⟩ | ⟨hfailed, hidle⟩
    · rw [(update_of_lost hlost).1]
      exact counted_zero _
    · rw [(update_of_succeeded hsucceeded).1]
      exact ih.concat (.inl hsucceeded) (min_le_left _ _)
    · rw [(update_of_masked hfailed hactive).1]
      rw [hasRecentActivity, hgrace] at hactive
      exact ih.concat (.inr ⟨hfailed, hactive⟩) (Nat.le_succ _)
    · rw [(update_of_strike hfailed hidle).1]
      exact counted_zero _

def Confirmed (successes : Nat) (probes : List Probe) : Prop :=
  successes ≤ probes.length ∧ ∀ p ∈ probes.rtake successes, p.Succeeded

instance (successes : Nat) (probes : List Probe) : Decidable (Confirmed successes probes) :=
  instDecidableAnd

instance (grace : Int) (p : Probe) : Decidable (Masked grace p) := instDecidableAnd

/-- The probe takes a disconnected path out of `DISCONNECTED` as a failed one that
is no strike yet, or with a failed one among those that are counted. -/
def Hasty (failures successes : Nat) (grace : Int) (window : Nat) (before : List Probe)
    (p : Probe) : Prop :=
  (run failures successes grace window before).state = .disconnected ∧
    ((p.Failed ∧ p.sinceActivityMs.any (· ≤ grace) = false ∧
        (run failures successes grace window before).consecutiveFailures + 1 < failures) ∨
      (p.Succeeded ∧
        successes ≤ (run failures successes grace window before).consecutiveSuccesses + 1 ∧
        ∃ q ∈ before.rtake (successes - 1), Masked grace q))

instance (failures successes : Nat) (grace : Int) (window : Nat) (before : List Probe) (p : Probe) :
    Decidable (Hasty failures successes grace window before p) := instDecidableAnd

theorem Counted.all_succeeded {count n : Nat} (h : Counted grace before count) (hn : n ≤ count)
    (hnone : ∀ q ∈ before.rtake n, ¬ Masked grace q) :
    n ≤ before.length ∧ ∀ q ∈ before.rtake n, q.Succeeded := by
  obtain ⟨front, recent, rfl, hall, hle⟩ := h
  have hlength : n ≤ (front ++ recent).length := by
    rw [length_append]
    omega
  refine ⟨hlength, fun q hq => ?_⟩
  have hrecent : q ∈ recent := by
    rw [List.rtake, drop_append, drop_of_length_le (by simp; omega), nil_append] at hq
    exact mem_of_mem_drop hq
  rcases hall q hrecent with hsucceeded | hmasked
  · exact hsucceeded
  · exact absurd hmasked (hnone q hq)

theorem not_succeeded_of_masked {q : Probe} (h : Masked grace q) : ¬ q.Succeeded :=
  fun hsucceeded => hsucceeded.2 h.1.2

theorem confirmed_concat_iff {n : Nat} {p : Probe} :
    Confirmed (n + 1) (before ++ [p]) ↔ (n ≤ before.length ∧ ∀ q ∈ before.rtake n, q.Succeeded) ∧
      p.Succeeded := by
  rw [Confirmed, rtake_concat_succ, length_append, length_singleton]
  simp only [mem_append, mem_singleton]
  constructor
  · rintro ⟨hlength, hall⟩
    exact ⟨⟨by omega, fun q hq => hall q (.inl hq)⟩, hall p (.inr rfl)⟩
  · rintro ⟨⟨hlength, hall⟩, hp⟩
    refine ⟨by omega, fun q hq => ?_⟩
    rcases hq with hq | rfl
    · exact hall q hq
    · exact hp

theorem confirmed_iff_not_hasty (hsuccesses : 2 ≤ successes) (before : List Probe) (p : Probe) :
    ((run failures successes grace window before).state = .disconnected →
        (run failures successes grace window (before ++ [p])).state ≠ .disconnected →
          Confirmed successes (before ++ [p])) ↔
      ¬ Hasty failures successes grace window before p := by
  obtain ⟨hfailures, hrecover, hgrace⟩ := settings_run failures successes grace window before
  have hcounted : Counted grace before
      (run failures successes grace window before).consecutiveSuccesses := counted_run
  have hnext : run failures successes grace window (before ++ [p]) =
      (run failures successes grace window before).update p := exec_concat ..
  obtain ⟨n, rfl⟩ : ∃ n, successes = n + 1 := ⟨successes - 1, by omega⟩
  rw [hnext, confirmed_concat_iff, Hasty, Nat.add_sub_cancel]
  generalize run failures (n + 1) grace window before = t at *
  have hactivity : p.sinceActivityMs.any (· ≤ grace) = t.hasRecentActivity p := by
    rw [hasRecentActivity, hgrace]
  rw [hactivity]
  rcases probe_cases t p with hlost | hsucceeded | ⟨hfailed, hactive⟩ | ⟨hfailed, hidle⟩
  · refine ⟨?_, fun _ _ hleft => absurd (update_of_lost hlost).2 hleft⟩
    rintro - ⟨-, ⟨hfailed, -⟩ | ⟨hsucceeded, -⟩⟩
    · exact hfailed.1 hlost
    · exact hsucceeded.1 hlost
  · have hstays := (update_of_succeeded (t := t) hsucceeded).2
    constructor
    · rintro hconfirmed ⟨hstate, ⟨hfailed, -⟩ | ⟨-, hcount, q, hq, hmasked⟩⟩
      · exact hsucceeded.2 hfailed.2
      · have hleft : (t.update p).state ≠ .disconnected := by
          rw [ne_eq, hstays]
          omega
        exact not_succeeded_of_masked hmasked ((hconfirmed hstate hleft).1.2 q hq)
    · intro hpatient hstate hleft
      have hcount : n + 1 ≤ t.consecutiveSuccesses + 1 := by
        by_contra hlow
        exact hleft (hstays.mpr ⟨hstate, by omega⟩)
      refine ⟨hcounted.all_succeeded (by omega) fun q hq hmasked => ?_, hsucceeded⟩
      exact hpatient ⟨hstate, .inr ⟨hsucceeded, hcount, q, hq, hmasked⟩⟩
  · have hstays := (update_of_masked (t := t) hfailed hactive).2
    refine ⟨?_, fun _ hstate hleft => absurd (hstays.mpr hstate) hleft⟩
    rintro - ⟨-, ⟨-, hidle, -⟩ | ⟨hsucceeded, -⟩⟩
    · rw [hactive] at hidle
      cases hidle
    · exact hsucceeded.2 hfailed.2
  · have hstays := (update_of_strike (t := t) hfailed hidle).2
    constructor
    · rintro hconfirmed ⟨hstate, ⟨-, -, hcount⟩ | ⟨hsucceeded, -⟩⟩
      · have hleft : (t.update p).state ≠ .disconnected := by
          rw [ne_eq, hstays]
          omega
        exact (hconfirmed hstate hleft).2.2 hfailed.2
      · exact hsucceeded.2 hfailed.2
    · intro hpatient hstate hleft
      rw [ne_eq, hstays] at hleft
      exact absurd ⟨hstate, .inl ⟨hfailed, hidle, by omega⟩⟩ hpatient

/-- **Which recoveries are confirmed** by the successes in a row that they need:
all, exactly when no probe is hasty. -/
theorem recovery_confirmed_iff (failures successes : Nat) (grace : Int) (window : Nat)
    (hsuccesses : 2 ≤ successes) (probes : List Probe) :
    AlongRun (fun before p =>
        (run failures successes grace window before).state = .disconnected →
          (run failures successes grace window (before ++ [p])).state ≠ .disconnected →
            Confirmed successes (before ++ [p])) probes ↔
      AlongRun (fun before p => ¬ Hasty failures successes grace window before p) probes := by
  constructor
  · intro h
    exact h.mono fun before p => (confirmed_iff_not_hasty hsuccesses before p).mp
  · intro h
    exact h.mono fun before p => (confirmed_iff_not_hasty hsuccesses before p).mpr

def lostAndBack : List Probe := [⟨none, -1, none⟩, ⟨some 1, 20, none⟩, ⟨some 1, 20, none⟩]

theorem recovery_confirmed_lostAndBack :
    (run 2 2 0 5 lostAndBack).state = .active ∧
      AlongRun (fun before p =>
        (run 2 2 0 5 before).state = .disconnected →
          (run 2 2 0 5 (before ++ [p])).state ≠ .disconnected →
            Confirmed 2 (before ++ [p])) lostAndBack := by
  refine ⟨by decide, (recovery_confirmed_iff 2 2 0 5 (by decide) lostAndBack).mpr ?_⟩
  decide

/-- A lost path comes back with one failed probe; and two successes with a failed
probe between them count as two in a row. -/
theorem recovery_unconfirmed :
    (run 2 2 0 5 [⟨none, -1, none⟩]).state = .disconnected ∧
      (run 2 2 0 5 [⟨none, -1, none⟩, ⟨some 1, -1, none⟩]).state = .degraded ∧
      ¬ Confirmed 2 [⟨none, -1, none⟩, ⟨some 1, -1, none⟩] ∧
      (run 2 2 0 5 [⟨none, -1, none⟩, ⟨some 1, 20, none⟩, ⟨some 1, -1, some 0⟩]).state =
        .disconnected ∧
      (run 2 2 0 5 [⟨none, -1, none⟩, ⟨some 1, 20, none⟩, ⟨some 1, -1, some 0⟩,
        ⟨some 1, 20, none⟩]).state = .active ∧
      ¬ Confirmed 2 [⟨none, -1, none⟩, ⟨some 1, 20, none⟩, ⟨some 1, -1, some 0⟩,
        ⟨some 1, 20, none⟩] := by
  decide

end Runs

end PathHealthTracker

end BigRocket.Service
