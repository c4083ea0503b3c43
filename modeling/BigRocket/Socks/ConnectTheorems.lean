/-
The replies of `handle_connect`: one, and behind a success reply only the remote
end (`Phase`). The opening of the tunnel alone does not keep to it.
-/
import BigRocket.Socks.RouteTheorems
import BigRocket.Socks.Connect

namespace BigRocket.Socks

open Lib Net Routing Script List

/-! ## The protocol -/

inductive Phase where
  | waiting
  | answered
  | refused
  deriving DecidableEq, Repr

def Phase.next : Phase → ClientWrite → Option Phase
  | .waiting, .reply code => some (if code = repOk then .answered else .refused)
  | .answered, .remote _ => some .answered
  | _, _ => none

def ClientWrite.isReply : ClientWrite → Bool
  | .reply _ => true
  | .remote _ => false

/-- At most one reply, and behind a success reply only bytes of the remote
end. -/
structure OneReply (written : List ClientWrite) : Prop where
  once : (written.filter ClientWrite.isReply).length ≤ 1
  remote : ∀ before after, written = before ++ .reply repOk :: after →
    ∀ w ∈ after, ∃ bytes, w = .remote bytes

variable {written : List ClientWrite}

theorem follow_remote {phase last : Phase} (hphase : phase ≠ .waiting)
    (h : follow Phase.next phase written = some last) :
    ∀ w ∈ written, ∃ bytes, w = .remote bytes := by
  induction written generalizing phase with
  | nil => intro w hw; cases hw
  | cons w rest ih =>
    cases phase with
    | waiting => exact absurd rfl hphase
    | refused => cases w <;> cases h
    | answered =>
      cases w with
      | reply code => cases h
      | remote bytes =>
        intro v hv
        rcases mem_cons.mp hv with rfl | hrest
        · exact ⟨bytes, rfl⟩
        · exact ih (by decide) h v hrest

theorem filter_isReply_of_remote (h : ∀ w ∈ written, ∃ bytes, w = .remote bytes) :
    written.filter ClientWrite.isReply = [] := by
  rw [filter_eq_nil_iff]
  intro w hw
  obtain ⟨bytes, rfl⟩ := h w hw
  simp [ClientWrite.isReply]

theorem oneReply_of_follow {last : Phase} (h : follow Phase.next .waiting written = some last) :
    OneReply written := by
  rcases written with - | ⟨code | bytes, rest⟩
  · exact ⟨by simp, by simp⟩
  · have hfollow : follow Phase.next (if code = repOk then .answered else .refused) rest =
        some last := h
    have hrest : ∀ v ∈ rest, ∃ bytes, v = .remote bytes := by
      refine follow_remote ?_ hfollow
      split <;> decide
    constructor
    · rw [filter_cons_of_pos rfl, filter_isReply_of_remote hrest]
      rfl
    · intro before after heq
      cases before with
      | nil =>
        cases heq
        exact hrest
      | cons w before =>
        -- A second reply would be among the bytes of the remote end.
        obtain ⟨-, rfl⟩ := List.cons.inj heq
        obtain ⟨bytes, hreply⟩ := hrest (.reply repOk) (by simp)
        cases hreply
  · cases h

/-! ## The parts of `handle_connect` -/

def phaseOf (replied : Bool) : Phase := if replied then .answered else .waiting

namespace Outcomes

variable {o : Outcomes} {target : Target} {port : Nat} {head : List UInt8} {replied : Bool}

theorem keeps_refuse {α : Type} {code : UInt8} {post : α → Phase → Prop} :
    Keeps Phase.next .waiting (refuse code) post :=
  keeps_bind (fun _ _ => True) (keeps_write rfl trivial) fun _ _ _ => keeps_exit

theorem keeps_relay : Keeps Phase.next .answered o.relay fun _ _ => True := by
  refine keeps_writeAll ?_ trivial
  intro w hw
  obtain ⟨bytes, -, rfl⟩ := mem_map.mp hw
  rfl

theorem keeps_handleDirect :
    Keeps Phase.next (phaseOf replied) (o.handleDirect head replied) fun _ _ => True := by
  refine keeps_bind (fun _ p => p = phaseOf replied) (keeps_ensure fun _ => rfl) ?_
  rintro - p rfl
  cases o.connectDirect with
  | failed permissionDenied =>
    cases replied with
    | true => exact keeps_pure trivial
    | false => exact keeps_refuse
  | timedOut =>
    cases replied with
    | true => exact keeps_pure trivial
    | false => exact keeps_refuse
  | connected =>
    refine keeps_bind (fun _ p => p = phaseOf replied) (keeps_ensure fun _ => rfl) ?_
    rintro - p rfl
    cases replied with
    | true => exact keeps_relay
    | false =>
      refine keeps_bind (fun _ p => p = .answered) (keeps_tryWrite rfl fun _ => rfl) ?_
      rintro - p rfl
      exact keeps_relay

def TunnelFails (o : Outcomes) (target : Target) (port : Nat) : Prop :=
  (shouldUseGateway port = true → o.gatewayProxy ≠ none → o.openThroughGateway = none) ∧
    ∀ ip, resolve o.dnsResolve target = some ip → o.openTcp ⟨ip, port⟩ = false

theorem openStack_cases (o : Outcomes) (target : Target) (port : Nat)
    (hgateway : shouldUseGateway port = true → o.gatewayProxy ≠ none →
      o.openThroughGateway = none) :
    ((∃ leftover, o.openStack target port = pure leftover) ∧ ¬ o.TunnelFails target port) ∨
      (o.openStack target port = refuse repGeneral ∧ o.TunnelFails target port) := by
  unfold openStack
  cases hresolve : resolve o.dnsResolve target with
  | none =>
    refine .inr ⟨rfl, hgateway, fun ip hip => ?_⟩
    rw [hresolve] at hip
    cases hip
  | some ip =>
    cases hopen : o.openTcp ⟨ip, port⟩ with
    | true =>
      refine .inl ⟨⟨[], by simp [hopen]⟩, fun hfails => ?_⟩
      rw [hfails.2 ip hresolve] at hopen
      cases hopen
    | false =>
      refine .inr ⟨by simp [hopen], hgateway, fun ip' hip => ?_⟩
      rw [hresolve] at hip
      cases hip
      exact hopen

theorem openTunnel_cases (o : Outcomes) (target : Target) (port : Nat) :
    ((∃ leftover, o.openTunnel target port = pure leftover) ∧ ¬ o.TunnelFails target port) ∨
      (o.openTunnel target port = refuse repGeneral ∧ o.TunnelFails target port) := by
  unfold openTunnel
  split
  case h_1 proxy hproxy =>
    obtain ⟨hsome, huse⟩ := Option.filter_eq_some_iff.mp hproxy
    cases hgateway : o.openThroughGateway with
    | some leftover =>
      refine .inl ⟨⟨leftover, rfl⟩, fun hfails => ?_⟩
      have hnone := hfails.1 huse (by simp [hsome])
      rw [hgateway] at hnone
      cases hnone
    | none => exact openStack_cases o target port fun _ _ => hgateway
  case h_2 hproxy =>
    refine openStack_cases o target port fun huse hsome => ?_
    obtain ⟨proxy, hproxy'⟩ := Option.ne_none_iff_exists'.mp hsome
    simp [hproxy', huse] at hproxy

theorem keeps_serve (replied : Bool) {verdict : Action}
    (hopens : replied = true → verdict = .proxy → ¬ o.TunnelFails target port) :
    Keeps Phase.next (phaseOf replied) (o.serve verdict target port head replied)
      fun _ _ => True := by
  cases verdict with
  | block =>
    cases replied with
    | true => exact keeps_pure trivial
    | false => exact keeps_refuse
  | direct => exact keeps_handleDirect
  | proxy =>
    have htunnel : Keeps Phase.next (phaseOf replied) (o.openTunnel target port)
        fun _ p => p = phaseOf replied := by
      rcases openTunnel_cases o target port with ⟨⟨leftover, heq⟩, -⟩ | ⟨heq, hfails⟩
      · rw [heq]
        exact keeps_pure rfl
      · rw [heq]
        cases replied with
        | true => exact absurd hfails (hopens rfl rfl)
        | false => exact keeps_refuse
    have hrest : ∀ leftover : List UInt8, Keeps Phase.next .answered (do
        ensure (decide (head = []) || o.headSent)
        if leftover ≠ [] then tryWrite o.leftoverOk (.remote leftover)
        o.relay : Exchange Unit) fun _ _ => True := by
      intro leftover
      refine keeps_bind (fun _ p => p = .answered) (keeps_ensure fun _ => rfl) ?_
      rintro - p rfl
      split
      · refine keeps_bind (fun _ p => p = .answered) (keeps_tryWrite rfl fun _ => rfl) ?_
        rintro - p rfl
        exact keeps_relay
      · exact keeps_relay
    refine keeps_bind _ htunnel ?_
    rintro leftover p rfl
    cases replied with
    | true => exact hrest leftover
    | false =>
      refine keeps_bind (fun _ p => p = .answered) (keeps_tryWrite rfl fun _ => rfl) ?_
      rintro - p rfl
      exact hrest leftover

/-! ## Every run -/

/-- The flow is answered early, no rule covers the host that decides for it,
and then its tunnel does not open. -/
def FailsAfterReply (o : Outcomes) (s : Surroundings) (target : Target) (port : Nat) : Prop :=
  ∃ ip head, target = .ip ip ∧ s.sniffEnabled = true ∧ s.routes.hasDomainRules = true ∧
    o.earlyReplyOk = true ∧ o.sniffHead = some head ∧
    s.covered (s.connectHost ip head port) port = false ∧ o.TunnelFails (.ip ip) port

theorem written_of_failsAfterReply {s : Surroundings} (h : o.FailsAfterReply s target port) :
    (o.handleConnect s target port).written = [.reply repOk, .reply repGeneral] := by
  obtain ⟨ip, head, rfl, hsniff, hrules, hreply, hhead, hproxy, hfails⟩ := h
  have hverdict : s.connectVerdict (.ip ip) head port = .proxy := by
    rw [s.connectVerdict_ip, s.decide_proxy_iff]
    exact hproxy
  have htunnel : o.openTunnel (.ip ip) port = refuse repGeneral := by
    rcases openTunnel_cases o (.ip ip) port with ⟨-, hnot⟩ | ⟨heq, -⟩
    · exact absurd hfails hnot
    · exact heq
  have hsniffs : s.sniffs (.ip ip) = true := by simp [Surroundings.sniffs, hsniff, hrules]
  unfold handleConnect
  rw [if_pos hsniffs, hhead, hreply]
  dsimp only
  rw [hverdict, serve, htunnel]
  rfl

theorem keeps_handleConnect {s : Surroundings} (h : ¬ o.FailsAfterReply s target port) :
    Keeps Phase.next .waiting (o.handleConnect s target port) fun _ _ => True := by
  unfold handleConnect
  cases hsniffs : s.sniffs target with
  | false => exact keeps_serve false (by simp)
  | true =>
    have htry : Keeps Phase.next .waiting
        (tryWrite o.earlyReplyOk (.reply repOk) : Exchange Unit)
        fun _ p => p = .answered ∧ o.earlyReplyOk = true :=
      keeps_tryWrite rfl fun hok => ⟨rfl, hok⟩
    refine keeps_bind _ htry ?_
    rintro - p ⟨rfl, hreply⟩
    cases hhead : o.sniffHead with
    | none => exact keeps_pure trivial
    | some head =>
      refine keeps_serve true fun _ hverdict hfails => h ?_
      cases target with
      | domain name => cases hsniffs
      | ip ip =>
        rw [s.connectVerdict_ip, s.decide_proxy_iff] at hverdict
        obtain ⟨hsniff, hrules⟩ := Bool.and_eq_true_iff.mp hsniffs
        exact ⟨ip, head, rfl, hsniff, hrules, hreply, hhead, hverdict, hfails⟩

theorem oneReply_iff_not_failsAfterReply (o : Outcomes) (s : Surroundings) (target : Target)
    (port : Nat) :
    OneReply (o.handleConnect s target port).written ↔ ¬ o.FailsAfterReply s target port := by
  constructor
  · intro hone hfails
    have honce := hone.once
    rw [written_of_failsAfterReply hfails] at honce
    exact absurd honce (by decide)
  · intro hnot
    obtain ⟨last, hfollow, -⟩ := keeps_handleConnect hnot
    exact oneReply_of_follow hfollow

def refusedLate : Outcomes where
  earlyReplyOk := true
  lateReplyOk := true
  sniffHead := some []
  gatewayProxy := none
  openThroughGateway := none
  dnsResolve _ := none
  openTcp _ := false
  headSent := true
  leftoverOk := true
  peerAddrOk := true
  connectDirect := .timedOut
  upstreamOk := true
  download := []

theorem refusedLate_replies_twice :
    (refusedLate.handleConnect .sample (.ip (.ofOctets 203 0 113 7)) 443).written =
        [.reply repOk, .reply repGeneral] ∧
      ¬ OneReply
        (refusedLate.handleConnect .sample (.ip (.ofOctets 203 0 113 7)) 443).written := by
  have hwritten : (refusedLate.handleConnect .sample (.ip (.ofOctets 203 0 113 7)) 443).written =
      [.reply repOk, .reply repGeneral] := by
    decide +kernel
  refine ⟨hwritten, fun hone => ?_⟩
  have honce := hone.once
  exact absurd honce (by decide)

end Outcomes

end BigRocket.Socks
