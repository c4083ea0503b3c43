/-
`hunt_wg_endpoints`: the loop over the probe results as they come in, and the
endpoints that are picked from them. A cached endpoint that was given up for
being slow is put back in front of slower ones (`apply_rtt_floor`), but not if
nothing was found, and without a look at the exclusions.

Times are nanoseconds; the milliseconds of a round trip fit 64 bits. The floor
stays as it is registered while a scan runs.
-/
import BigRocket.Prober.CandidateTheorems

namespace BigRocket.Prober

open Lib Net List

structure WgProbeResult where
  ip : IpAddr
  port : Nat
  rtt : Nat
  deriving DecidableEq

def WgProbeResult.addr (pr : WgProbeResult) : SocketAddr := ⟨pr.ip, pr.port⟩

/-! ## What is picked -/

def Faster (a b : WgProbeResult) : Prop := a.rtt ≤ b.rtt

instance : DecidableRel Faster := fun a b => Nat.decLe a.rtt b.rtt

instance : Std.Total Faster := ⟨fun a b => Nat.le_total a.rtt b.rtt⟩

instance : IsTrans WgProbeResult Faster := ⟨fun _ _ _ => Nat.le_trans⟩

def firstPerIp (seen : List IpAddr) : List WgProbeResult → List WgProbeResult
  | [] => []
  | pr :: rest =>
    if pr.ip ∈ seen then firstPerIp seen rest else pr :: firstPerIp (pr.ip :: seen) rest

def distinctByIp (found : List WgProbeResult) : List WgProbeResult :=
  firstPerIp [] (found.insertionSort Faster)

/-- What `rtt_floor` gives after `set_rtt_floor`: whole milliseconds. -/
def rttFloor (registered : Option (SocketAddr × Nat)) : Option (SocketAddr × Nat) :=
  registered.bind fun (peer, rtt) =>
    let ms := rtt / 1000000
    if ms = 0 then none else some (peer, ms * 1000000)

def applyRttFloor (floor : Option (SocketAddr × Nat)) (picked : List WgProbeResult) :
    List WgProbeResult :=
  match floor, picked with
  | some (peer, floor), best :: _ =>
    if best.rtt ≤ floor then picked else ⟨peer.ip, peer.port, floor⟩ :: picked
  | _, _ => picked

/-! ## The loop -/

inductive ScanEvent where
  | failed
  | found (pr : WgProbeResult) (later : Nat)
  | slept

structure ScanTurn where
  now : Nat
  event : ScanEvent

structure ScanSettings where
  deadline : Nat
  quietAfterFirst : Nat
  targetSuccesses : Nat
  earlyExitFirst : Bool
  rttBudget : Option Nat
  slowFirstGrace : Nat

structure ScanState where
  verified : List WgProbeResult
  quietUntil : Option Nat
  earlyExitFirst : Bool
  huntingForFast : Bool

inductive ScanEnd where
  | early (pr : WgProbeResult)
  | collected (verified : List WgProbeResult)
  deriving DecidableEq

variable (c : ScanSettings) (floor : Option (SocketAddr × Nat)) (want : Nat)

def fastEnough (pr : WgProbeResult) : Bool :=
  c.rttBudget.all (pr.rtt ≤ ·) && floor.all (pr.rtt ≤ ·.2)

def huntLoop (s : ScanState) : List ScanTurn → ScanEnd
  | [] => .collected s.verified
  | turn :: rest =>
    let effective := (s.quietUntil.map (min · c.deadline)).getD c.deadline
    if effective - turn.now = 0 then .collected s.verified
    else
      match turn.event with
      | .slept => .collected s.verified
      | .failed => huntLoop s rest
      | .found pr later =>
        let verified := s.verified ++ [pr]
        if (s.earlyExitFirst || s.huntingForFast) && fastEnough c floor pr then .early pr
        else if s.earlyExitFirst then
          huntLoop ⟨verified, some (later + c.slowFirstGrace), false, true⟩ rest
        else if want ≤ (distinctByIp verified).length ∧ 1 < want then .collected verified
        else if 0 < c.targetSuccesses ∧ c.targetSuccesses ≤ verified.length ∧
            s.quietUntil = none then
          if c.quietAfterFirst ≠ 0 then
            huntLoop { s with verified, quietUntil := some (later + c.quietAfterFirst) } rest
          else .collected verified
        else huntLoop { s with verified } rest

variable {c floor want}

structure WgHunt where
  noRoute : Bool
  settings : ScanSettings
  registered : Option (SocketAddr × Nat)
  turns : List ScanTurn

namespace WgHunt

def loop (h : WgHunt) (want : Nat) : ScanEnd :=
  let want := max want 1
  let c := if 1 < want then
      { h.settings with
        earlyExitFirst := false
        targetSuccesses := max h.settings.targetSuccesses (want * 3) }
    else h.settings
  huntLoop c (rttFloor h.registered) want ⟨[], none, c.earlyExitFirst, false⟩ h.turns

/-- `none` is the error `NoCleanEndpoint`. -/
def huntWgEndpoints (h : WgHunt) (want : Nat) : Option (List WgProbeResult) :=
  if h.noRoute then none
  else
    match h.loop want with
    | .early pr => some [pr]
    | .collected verified =>
      let picked := applyRttFloor (rttFloor h.registered) (distinctByIp verified)
      if picked = [] then none else some (picked.take (max want 1))

end WgHunt

def foundIn (turns : List ScanTurn) : List WgProbeResult :=
  turns.filterMap fun turn => match turn.event with
    | .found pr _ => some pr
    | _ => none

/-! ## Lemmas -/

theorem firstPerIp_sublist (seen : List IpAddr) (l : List WgProbeResult) :
    (firstPerIp seen l).Sublist l := by
  induction l generalizing seen with
  | nil => exact .slnil
  | cons pr rest ih =>
    rw [firstPerIp]
    split
    · exact (ih seen).cons pr
    · exact (ih _).cons_cons pr

theorem nodup_firstPerIp (seen : List IpAddr) (l : List WgProbeResult) :
    ((firstPerIp seen l).map (·.ip)).Nodup ∧ ∀ pr ∈ firstPerIp seen l, pr.ip ∉ seen := by
  induction l generalizing seen with
  | nil => simp [firstPerIp]
  | cons pr rest ih =>
    rw [firstPerIp]
    split
    · exact ih seen
    · next hnew =>
        obtain ⟨hnodup, hseen⟩ := ih (pr.ip :: seen)
        simp only [mem_cons, not_or] at hseen
        refine ⟨nodup_cons.mpr ⟨?_, hnodup⟩, forall_mem_cons.mpr
          ⟨hnew, fun q hq => (hseen q hq).2⟩⟩
        intro hmem
        obtain ⟨q, hq, heq⟩ := mem_map.mp hmem
        exact (hseen q hq).1 heq

variable {found : List WgProbeResult}

theorem pairwise_distinctByIp : (distinctByIp found).Pairwise Faster :=
  (pairwise_insertionSort Faster found).sublist (firstPerIp_sublist [] _)

theorem mem_of_mem_distinctByIp {pr : WgProbeResult} (h : pr ∈ distinctByIp found) : pr ∈ found :=
  (mem_insertionSort Faster).mp ((firstPerIp_sublist [] _).subset h)

theorem distinctByIp_eq_nil : distinctByIp found = [] ↔ found = [] := by
  have hlength := length_insertionSort Faster found
  unfold distinctByIp
  cases hsorted : found.insertionSort Faster with
  | nil =>
    rw [hsorted] at hlength
    simp [firstPerIp, length_eq_zero_iff.mp hlength.symm]
  | cons pr rest =>
    rw [hsorted] at hlength
    simp [firstPerIp, ← length_eq_zero_iff, ← hlength]

def ScanEnd.From (floor : Option (SocketAddr × Nat)) (found : List WgProbeResult) : ScanEnd → Prop
  | .early pr => pr ∈ found ∧ ∀ f ∈ floor, pr.rtt ≤ f.2
  | .collected verified => ∀ pr ∈ verified, pr ∈ found

theorem huntLoop_from (s : ScanState) (turns : List ScanTurn) :
    (huntLoop c floor want s turns).From floor (s.verified ++ foundIn turns) := by
  induction turns generalizing s with
  | nil => exact fun pr => mem_append_left _
  | cons turn rest ih =>
    obtain ⟨now, event⟩ := turn
    have hkept (more) : (ScanEnd.collected s.verified).From floor (s.verified ++ more) :=
      fun pr => mem_append_left _
    rw [huntLoop]
    dsimp only
    split
    · exact hkept _
    · cases event with
      | slept => exact hkept _
      | failed => exact ih s
      | found pr later =>
        have hall : foundIn (⟨now, .found pr later⟩ :: rest) = pr :: foundIn rest := rfl
        have hmore {e : ScanEnd} (h : e.From floor (s.verified ++ [pr] ++ foundIn rest)) :
            e.From floor (s.verified ++ pr :: foundIn rest) := by simpa using h
        rw [hall]
        dsimp only
        split
        · next hearly =>
            simp only [fastEnough, Bool.and_eq_true, Option.all_eq_true] at hearly
            exact ⟨by simp, fun f hf => by simpa using hearly.2.2 f hf⟩
        · split
          · exact hmore (ih _)
          · split
            · exact hmore fun q => mem_append_left _
            · split
              · split
                · exact hmore (ih _)
                · exact hmore fun q => mem_append_left _
              · exact hmore (ih _)

theorem WgHunt.loop_from (h : WgHunt) (want : Nat) :
    (h.loop want).From (rttFloor h.registered) (foundIn h.turns) :=
  huntLoop_from _ _

variable (h : WgHunt)

theorem WgHunt.huntWgEndpoints_cases (want : Nat) :
    ((h.noRoute = true ∨ h.loop want = .collected []) ∧ h.huntWgEndpoints want = none) ∨
      (h.noRoute = false ∧ ∃ pr, h.loop want = .early pr ∧ h.huntWgEndpoints want = some [pr]) ∨
      (h.noRoute = false ∧ ∃ verified best others, h.loop want = .collected verified ∧
        distinctByIp verified = best :: others ∧
        (((∀ f ∈ rttFloor h.registered, best.rtt ≤ f.2) ∧
            h.huntWgEndpoints want = some ((best :: others).take (max want 1))) ∨
          ∃ peer f, rttFloor h.registered = some (peer, f) ∧ f < best.rtt ∧
            h.huntWgEndpoints want = some (⟨peer.ip, peer.port, f⟩ ::
              (best :: others).take (max want 1 - 1)))) := by
  cases hroute : h.noRoute with
  | true => exact .inl ⟨.inl rfl, by simp [huntWgEndpoints, hroute]⟩
  | false =>
    cases hend : h.loop want with
    | early pr => exact .inr (.inl ⟨rfl, pr, rfl, by simp [huntWgEndpoints, hroute, hend]⟩)
    | collected verified =>
      cases hpicked : distinctByIp verified with
      | nil =>
        refine .inl ⟨.inr (by rw [distinctByIp_eq_nil.mp hpicked]), ?_⟩
        cases hfloor : rttFloor h.registered <;>
          simp [huntWgEndpoints, hroute, hend, hpicked, hfloor, applyRttFloor]
      | cons best others =>
        refine .inr (.inr ⟨rfl, verified, best, others, rfl, hpicked, ?_⟩)
        simp only [huntWgEndpoints, hroute, hend, hpicked, Bool.false_eq_true, if_false]
        cases hfloor : rttFloor h.registered with
        | none => exact .inl ⟨nofun, rfl⟩
        | some registered =>
          obtain ⟨peer, f⟩ := registered
          by_cases hle : best.rtt ≤ f
          · refine .inl ⟨?_, by simp [applyRttFloor, hle]⟩
            rintro _ ⟨⟩
            exact hle
          · have hwant : max want 1 = max want 1 - 1 + 1 := by omega
            refine .inr ⟨peer, f, rfl, not_le.mp hle, ?_⟩
            simp only [applyRttFloor, if_neg hle, reduceCtorEq, if_false]
            rw [hwant, take_succ_cons, Nat.add_sub_cancel]

/-! ## The floor -/

/-- The scan returns nothing slower than the registered endpoint, and that one
if it has found nothing better. -/
def WgHunt.Improved (peer : SocketAddr) (rtt want : Nat) : Prop :=
  ∃ first rest, h.huntWgEndpoints want = some (first :: rest) ∧ first.rtt ≤ rtt ∧
    ((∀ pr ∈ foundIn h.turns, rtt < pr.rtt) → first.addr = peer)

def noSettings : ScanSettings := ⟨1, 0, 0, true, none, 0⟩

structure WgProbed extends WgHunt where
  excluded : List SocketAddr
  candidates : List Candidate
  built : ∃ pinned st ports anchors pool draws,
    scanCandidates pinned st ports anchors pool excluded draws = .ok candidates
  probed : ∀ pr ∈ foundIn turns, (pr.ip, pr.port) ∈ candidates

structure Usable (want : Nat) (excluded : List SocketAddr) (endpoints : List WgProbeResult) :
    Prop where
  few : endpoints.length ≤ max want 1
  separate : (endpoints.map (·.ip)).Nodup
  ordered : endpoints.Pairwise Faster
  allowed : ∀ pr ∈ endpoints, pr.addr ∉ excluded

namespace WgProbed

variable (h : WgProbed)

theorem not_excluded {pr : WgProbeResult} (hpr : pr ∈ foundIn h.turns) : pr.addr ∉ h.excluded := by
  obtain ⟨pinned, st, ports, anchors, pool, draws, hbuilt⟩ := h.built
  have hpr := h.probed pr hpr
  cases pinned with
  | none =>
    rw [← Except.ok.inj hbuilt] at hpr
    exact not_excluded_of_mem_wgWanted ((mem_foldl_pushNew _).mp hpr)
  | some cidrs =>
    obtain ⟨hosts, -, hcandidates⟩ := bind_eq_ok hbuilt
    rw [← Except.ok.inj hcandidates] at hpr
    exact not_excluded_of_mem_wgWanted ((mem_foldl_pushNew _).mp hpr)

/-- An endpoint that is put in front is not excluded, and its address is not
that of one behind it. -/
def FloorFits (want : Nat) : Prop :=
  h.noRoute = false → ∀ verified best others peer f, h.loop want = .collected verified →
    distinctByIp verified = best :: others → rttFloor h.registered = some (peer, f) →
    f < best.rtt → peer ∉ h.excluded ∧
      peer.ip ∉ ((best :: others).take (max want 1 - 1)).map (·.ip)

theorem usable_take {verified : List WgProbeResult} (hend : h.loop want = .collected verified)
    {n : Nat} (hn : n ≤ max want 1) : Usable want h.excluded ((distinctByIp verified).take n) where
  few := (length_take_le n _).trans hn
  separate := (nodup_firstPerIp [] _).1.sublist ((take_sublist _ _).map _)
  ordered := pairwise_distinctByIp.sublist (take_sublist _ _)
  allowed pr hpr := by
    have hfrom := h.loop_from want
    rw [hend] at hfrom
    exact h.not_excluded (hfrom pr (mem_of_mem_distinctByIp (mem_of_mem_take hpr)))

end WgProbed

end BigRocket.Prober
