/-
Identity is sticky: an owner stays through every call but the four that take it
away.
-/
import BigRocket.Service.Identity

namespace BigRocket.Service

open Lib

variable {K : Type}

def IdentityEvent.Releases (p : PhysicalPath) : IdentityEvent K → Prop
  | .weights (.configureUserScores _ _) | .weights .clear => True
  | .weights (.update m) => m.wifiAvailable = false ∧ m.cellularAvailable = false
  | .weights (.resetForPathRecovery _) | .isIdentityEligible _ => False
  | .preferredIdentityPath wifiAvailable cellularAvailable =>
    p.isUp wifiAvailable cellularAvailable = false

namespace IdentityCalculator

variable {c : IdentityCalculator} {p : PhysicalPath}

theorem text_injective {p q : PhysicalPath} (h : p.text = q.text) : p = q := by
  cases p with
  | wifi =>
    cases q with
    | wifi => rfl
    | cellular => exact absurd h (by decide)
  | cellular =>
    cases q with
    | wifi => exact absurd h (by decide)
    | cellular => rfl

/-! ## One call -/

theorem owner_of_returned {wifiAvailable cellularAvailable : Bool}
    (h : (c.preferredIdentityPath wifiAvailable cellularAvailable).1 = some p.text) :
    (c.preferredIdentityPath wifiAvailable cellularAvailable).2.identityOwner = some p := by
  revert h
  unfold preferredIdentityPath
  split
  · intro h
    cases h
  · split
    · exact fun h => congrArg some (text_injective (Option.some.inj h))
    · split
      · exact fun h => congrArg some (text_injective (Option.some.inj h))
      · split
        · rename_i owner howner
          intro h
          rw [howner]
          exact congrArg some (text_injective (Option.some.inj h))
        · split
          · intro h
            cases h
          · exact fun h => congrArg some (text_injective (Option.some.inj h))

theorem preferredIdentityPath_of_owner {wifiAvailable cellularAvailable : Bool}
    (howner : c.identityOwner = some p) (hup : p.isUp wifiAvailable cellularAvailable = true) :
    c.preferredIdentityPath wifiAvailable cellularAvailable = (some p.text, c) := by
  obtain ⟨weights, owner⟩ := c
  cases howner
  cases p with
  | wifi =>
    cases wifiAvailable with
    | false => cases hup
    | true =>
      cases cellularAvailable with
      | false => rfl
      | true => rfl
  | cellular =>
    cases cellularAvailable with
    | false => cases hup
    | true =>
      cases wifiAvailable with
      | false => rfl
      | true => rfl

theorem isUp_both (p : PhysicalPath) : p.isUp true true = true := by
  cases p with
  | wifi => rfl
  | cellular => rfl

section Run

variable [Field K] [LinearOrder K] [FloorRing K] {jvm : Jvm}

theorem owner_step (howner : c.identityOwner = some p) {e : IdentityEvent K}
    (hkept : ¬ e.Releases p) : (c.step jvm e).identityOwner = some p := by
  cases e with
  | weights e =>
    cases e with
    | configureUserScores wifiScore cellularScore => exact absurd trivial hkept
    | update m =>
      have hsome : (!m.wifiAvailable && !m.cellularAvailable) = false := by
        rw [← Bool.not_eq_true]
        intro hnone
        rw [Bool.and_eq_true, Bool.not_eq_true', Bool.not_eq_true'] at hnone
        exact hkept hnone
      rw [step, ownerAfter, hsome]
      exact howner
    | resetForPathRecovery recovered => exact howner
    | clear => exact absurd trivial hkept
  | preferredIdentityPath wifiAvailable cellularAvailable =>
    have hup : p.isUp wifiAvailable cellularAvailable = true := Bool.of_not_eq_false hkept
    rw [step, preferredIdentityPath_of_owner howner hup]
    exact howner
  | isIdentityEligible path =>
    rw [step, isIdentityEligible]
    split
    · exact howner
    · rw [preferredIdentityPath_of_owner howner (isUp_both p)]
      exact howner

theorem owner_exec (howner : c.identityOwner = some p) {events : List (IdentityEvent K)}
    (hkept : ∀ e ∈ events, ¬ e.Releases p) : (exec (step jvm) c events).identityOwner = some p := by
  have hrun : AlongRun (fun _ e => ¬ e.Releases p) events := alongRun_const.mpr hkept
  refine exec_invariant (I := fun events => (exec (step jvm) c events).identityOwner = some p)
    howner (fun events e ih hlast => ?_) hrun
  rw [exec_concat]
  exact owner_step ih hlast

/-! ## Every run -/

/-- **Identity is sticky**: once a call has named a path, every later call with
both paths up names it until it is released. -/
theorem identity_sticky (jvm : Jvm) (before events : List (IdentityEvent K))
    (wifiAvailable cellularAvailable : Bool) (p : PhysicalPath)
    (hnamed : ((run jvm before).preferredIdentityPath wifiAvailable cellularAvailable).1 =
      some p.text)
    (hkept : ∀ e ∈ events, ¬ e.Releases p) :
    ((run jvm (before ++ .preferredIdentityPath wifiAvailable cellularAvailable :: events)
      ).preferredIdentityPath true true).1 = some p.text := by
  have hrun : run jvm (before ++ .preferredIdentityPath wifiAvailable cellularAvailable :: events) =
      exec (step jvm) ((run jvm before).preferredIdentityPath wifiAvailable cellularAvailable).2
        events := by
    rw [run, exec_append]
    rfl
  rw [hrun, preferredIdentityPath_of_owner (owner_exec (owner_of_returned hnamed) hkept)
    (isUp_both p)]

def cellularComesBack : List (IdentityEvent ℚ) :=
  [.weights (.resetForPathRecovery (some .cellular)),
    .weights (.update ⟨true, 900, true, 20, 1 / 2, 0⟩), .isIdentityEligible "cellular".toList]

theorem identity_sticky_cellularComesBack :
    ((run Jvm.basicLatin ([] : List (IdentityEvent ℚ))).preferredIdentityPath true false).1 =
        some PhysicalPath.wifi.text ∧
      ((run Jvm.basicLatin ([] ++ .preferredIdentityPath true false :: cellularComesBack)
        ).preferredIdentityPath true true).1 = some PhysicalPath.wifi.text := by
  refine ⟨rfl, identity_sticky Jvm.basicLatin [] cellularComesBack true false .wifi rfl ?_⟩
  simp [cellularComesBack, IdentityEvent.Releases]

end Run

end IdentityCalculator

end BigRocket.Service
