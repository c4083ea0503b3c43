/-
The local ports that the netstack gives to its flows; nobody asks whether a port
is still in use.
-/
import BigRocket.Netstack.FlowTheorems
import BigRocket.Netstack.NetStackTheorems

namespace BigRocket.Netstack

open Lib Net Relation

/-! ## The counter -/

def portCount : Nat := 15849

def portOf (n : Nat) : Nat := 49152 + n % portCount

theorem portOf_succ (n : Nat) :
    portOf (n + 1) = if portOf n ≥ 65000 then 49152 else portOf n + 1 := by
  unfold portOf portCount
  split <;> omega

theorem portOf_eq_iff {m n : Nat} : portOf m = portOf n ↔ m ≡ n [MOD portCount] := by
  unfold portOf Nat.ModEq
  omega

/-! ## The endpoints of a flow -/

structure TcpState.SameEndpoint (x y : TcpState) : Prop where
  localPort : y.localPort = x.localPort
  remote : y.remote = x.remote
  allocation : y.allocation = x.allocation

namespace TcpState

variable {x y : TcpState}

theorem SameFlow.sameEndpoint (h : SameFlow x y) : SameEndpoint x y :=
  ⟨h.localPort, h.remote, h.allocation⟩

theorem sameEndpoint_of_flowMove (h : FlowMove x y) : SameEndpoint x y := by
  cases h with
  | callerGone => unfold callerGone; split <;> exact ⟨rfl, rfl, rfl⟩
  | appReads => unfold appReads; split <;> exact ⟨rfl, rfl, rfl⟩
  | appGone => unfold appGone; split <;> exact ⟨rfl, rfl, rfl⟩
  | _ => exact ⟨rfl, rfl, rfl⟩

theorem sameEndpoint_of_flowMoves (h : FlowMoves x y) : SameEndpoint x y := by
  induction h with
  | refl => exact ⟨rfl, rfl, rfl⟩
  | tail _ hmove ih =>
    have hlast := sameEndpoint_of_flowMove hmove
    exact ⟨hlast.localPort.trans ih.localPort, hlast.remote.trans ih.remote,
      hlast.allocation.trans ih.allocation⟩

end TcpState

namespace NetStack

variable {s t : NetStack}

/-- Each flow and each UDP socket of the later state was there before, with
its endpoints. -/
structure Inherits (s t : NetStack) : Prop where
  tcp : EntriesKept TcpState.SameEndpoint s.tcpConns t.tcpConns
  udp : UdpKept s t

theorem Moves.inherits (h : Moves s t) : Inherits s t where
  tcp id y hy := by
    obtain ⟨x, hx, hmoves⟩ := h.before hy
    exact ⟨x, hx, TcpState.sameEndpoint_of_flowMoves hmoves⟩
  udp := h.udp

theorem inherits_serviceTcp (now : Nat) (rate : Nat → Nat) (s : NetStack) :
    Inherits s (s.serviceTcp now rate) where
  tcp id y hy := by
    obtain ⟨x, hx, hkept⟩ := StackLoop.tcpConns_serviceTcp hy
    exact ⟨x, hx,
      (TcpState.sameFlow_of_passMoves (TcpState.service_kept hkept)).sameEndpoint⟩
  udp := udpKept_of_eq rfl

theorem inherits_allocPort (s : NetStack) : Inherits s s.allocPort where
  tcp _ y hy := ⟨y, hy, rfl, rfl, rfl⟩
  udp := udpKept_of_eq rfl

/-! ## Ports in use -/

/-- No two UDP sockets share a port, and no two TCP flows share a port and a
remote address. -/
structure PortsUnique (s : NetStack) : Prop where
  udp : UniqueKeys s.udpConns UdpState.localPort
  tcp : UniqueKeys s.tcpConns fun x => (x.localPort, x.remote)

theorem PortsUnique.inherits (h : PortsUnique s) (hinherits : Inherits s t) : PortsUnique t where
  udp := h.udp.kept hinherits.udp fun _ _ hsame => hsame.1
  tcp := h.tcp.kept hinherits.tcp fun _ _ hsame => Prod.ext hsame.localPort hsame.remote

structure PortsCounted (s : NetStack) : Prop where
  nextPort : s.nextPort = portOf s.allocations
  tcp : ∀ id x, s.tcpConns id = some x →
    id < s.nextId ∧ x.allocation < s.allocations ∧ x.localPort = portOf x.allocation
  udp : ∀ id x, s.udpConns id = some x →
    id < s.nextId ∧ x.allocation < s.allocations ∧ x.localPort = portOf x.allocation

theorem PortsCounted.inherits (h : PortsCounted s) (hinherits : Inherits s t)
    (hid : t.nextId = s.nextId) (hallocations : s.allocations ≤ t.allocations)
    (hport : t.nextPort = portOf t.allocations) : PortsCounted t where
  nextPort := hport
  tcp id y hy := by
    obtain ⟨x, hx, hsame⟩ := hinherits.tcp id y hy
    rw [hid, hsame.localPort, hsame.allocation]
    obtain ⟨hlt, halloc, hxPort⟩ := h.tcp id x hx
    exact ⟨hlt, halloc.trans_le hallocations, hxPort⟩
  udp id y hy := by
    obtain ⟨x, hx, hyPort, hyAlloc⟩ := hinherits.udp id y hy
    rw [hid, hyPort, hyAlloc]
    obtain ⟨hlt, halloc, hxPort⟩ := h.udp id x hx
    exact ⟨hlt, halloc.trans_le hallocations, hxPort⟩

theorem PortsCounted.nextPort_allocPort (h : PortsCounted s) :
    s.allocPort.nextPort = portOf s.allocPort.allocations := by
  simp only [allocPort, portOf_succ, h.nextPort]

/-! ## Opening -/

def newUdp (s : NetStack) : UdpState := ⟨s.nextPort, s.allocations, false⟩

def newTcp (now : Nat) (dst : SocketAddr) (carrier : Bool) (s : NetStack) : TcpState :=
  .opened s.tuning s.limits now s.nextPort dst s.allocations carrier

theorem udpConns_openUdp (s : NetStack) :
    (s.openUdp none).1.udpConns = Function.update s.udpConns s.nextId (some s.newUdp) := rfl

section Counting

variable {α : Type} {port alloc : α → Nat} {conns : Nat → Option α} {nextId allocations : Nat}

theorem counted_succ
    (h : ∀ id x, conns id = some x →
      id < nextId ∧ alloc x < allocations ∧ port x = portOf (alloc x)) :
    ∀ id x, conns id = some x →
      id < nextId + 1 ∧ alloc x < allocations + 1 ∧ port x = portOf (alloc x) := by
  intro id x hx
  obtain ⟨hlt, halloc, hport⟩ := h id x hx
  exact ⟨Nat.lt_succ_of_lt hlt, Nat.lt_succ_of_lt halloc, hport⟩

theorem counted_update
    (h : ∀ id x, conns id = some x →
      id < nextId ∧ alloc x < allocations ∧ port x = portOf (alloc x))
    {v : α} (halloc : alloc v = allocations) (hport : port v = portOf allocations) :
    ∀ id x, Function.update conns nextId (some v) id = some x →
      id < nextId + 1 ∧ alloc x < allocations + 1 ∧ port x = portOf (alloc x) := by
  intro id x hx
  rw [Function.update_apply] at hx
  split at hx
  case isTrue hid =>
    cases hx
    rw [hid, halloc]
    exact ⟨Nat.lt_succ_self _, Nat.lt_succ_self _, hport⟩
  case isFalse => exact counted_succ h id x hx

end Counting

theorem PortsCounted.openUdp (h : PortsCounted s) : PortsCounted (s.openUdp none).1 where
  nextPort := h.nextPort_allocPort
  tcp := counted_succ h.tcp
  udp := counted_update h.udp rfl h.nextPort

theorem PortsCounted.openTcp (h : PortsCounted s) (now : Nat) (dst : SocketAddr)
    (carrier : Bool) : PortsCounted (s.openTcp now dst carrier none).1 where
  nextPort := h.nextPort_allocPort
  tcp := counted_update h.tcp rfl h.nextPort
  udp := counted_succ h.udp

theorem PortsCounted.nextPort_ne_iff (h : PortsCounted s) (n : Nat) :
    s.nextPort ≠ portOf n ↔ ¬ s.allocations ≡ n [MOD portCount] := by
  rw [h.nextPort, Ne, portOf_eq_iff]

theorem PortsCounted.fresh_udp (h : PortsCounted s) : s.udpConns s.nextId = none := by
  cases hx : s.udpConns s.nextId with
  | none => rfl
  | some x => exact absurd (h.udp _ x hx).1 (lt_irrefl _)

theorem PortsCounted.fresh_tcp (h : PortsCounted s) : s.tcpConns s.nextId = none := by
  cases hx : s.tcpConns s.nextId with
  | none => rfl
  | some x => exact absurd (h.tcp _ x hx).1 (lt_irrefl _)

theorem portsUnique_openUdp_iff (hunique : PortsUnique s) (h : PortsCounted s) :
    PortsUnique (s.openUdp none).1 ↔
      ∀ id x, s.udpConns id = some x → ¬ s.allocations ≡ x.allocation [MOD portCount] := by
  have hupdate := uniqueKeys_update_iff (v := s.newUdp) hunique.udp h.fresh_udp
  constructor
  · intro hafter id x hx
    rw [← h.nextPort_ne_iff, ← (h.udp id x hx).2.2]
    exact hupdate.mp hafter.udp id x hx
  · intro hfree
    refine ⟨hupdate.mpr fun id x hx => ?_, hunique.tcp⟩
    rw [(h.udp id x hx).2.2]
    exact (h.nextPort_ne_iff _).mpr (hfree id x hx)

theorem portsUnique_openTcp_iff (hunique : PortsUnique s) (h : PortsCounted s) (now : Nat)
    (dst : SocketAddr) (carrier : Bool) :
    PortsUnique (s.openTcp now dst carrier none).1 ↔
      ∀ id x, s.tcpConns id = some x → x.remote = dst →
        ¬ s.allocations ≡ x.allocation [MOD portCount] := by
  have hupdate := uniqueKeys_update_iff (v := s.newTcp now dst carrier) hunique.tcp h.fresh_tcp
  constructor
  · intro hafter id x hx hremote
    rw [← h.nextPort_ne_iff, ← (h.tcp id x hx).2.2]
    intro hport
    exact hupdate.mp hafter.tcp id x hx (Prod.ext hport hremote.symm)
  · intro hfree
    refine ⟨hunique.udp, hupdate.mpr fun id x hx heq => ?_⟩
    obtain ⟨hport, hremote⟩ := Prod.mk.inj heq
    rw [(h.tcp id x hx).2.2] at hport
    exact (h.nextPort_ne_iff _).mpr (hfree id x hx hremote.symm) hport

end NetStack

/-! ## Every run -/

namespace StackLoop

open NetStack

variable {l : StackLoop}

/-- A successful open finds no flow that shares the new flow's addresses and
is a multiple of `portCount` calls of `alloc_port` old. -/
def PortFree (s : NetStack) : StackEvent → Prop
  | .openTcp _ dst _ none =>
    ∀ id x, s.tcpConns id = some x → x.remote = dst →
      ¬ s.allocations ≡ x.allocation [MOD portCount]
  | .openUdp none =>
    ∀ id x, s.udpConns id = some x → ¬ s.allocations ≡ x.allocation [MOD portCount]
  | _ => True

theorem portsCounted_step (h : PortsCounted l.stack) (e : StackEvent) :
    PortsCounted (l.step e).stack := by
  have hstack := step_stack l e
  cases e with
  | openTcp now dst carrier refusal =>
    cases refusal with
    | none => exact h.openTcp now dst carrier
    | some error =>
      exact h.inherits (inherits_allocPort _) rfl (Nat.le_succ _) h.nextPort_allocPort
  | openUdp refusal =>
    cases refusal with
    | none => exact h.openUdp
    | some error =>
      exact h.inherits (inherits_allocPort _) rfl (Nat.le_succ _) h.nextPort_allocPort
  | serviceTcp now rate =>
    exact h.inherits (inherits_serviceTcp now rate _) rfl le_rfl h.nextPort
  | _ =>
    refine h.inherits hstack.inherits hstack.nextId hstack.allocations.ge ?_
    rw [hstack.nextPort, hstack.allocations, h.nextPort]

theorem run_portsCounted (tuning : Tuning) (limits : TcpLimits) (events : List StackEvent) :
    PortsCounted (run tuning limits events).stack := by
  induction events using List.reverseRecOn with
  | nil =>
    refine ⟨rfl, ?_, ?_⟩ <;>
    · intro id x hx
      cases hx
  | append_singleton events e ih =>
    rw [run, exec_concat]
    exact portsCounted_step ih e

theorem portsUnique_step_iff (hunique : PortsUnique l.stack) (h : PortsCounted l.stack)
    (e : StackEvent) : PortsUnique (l.step e).stack ↔ PortFree l.stack e := by
  have hstack := step_stack l e
  cases e with
  | openTcp now dst carrier refusal =>
    cases refusal with
    | none => exact portsUnique_openTcp_iff hunique h now dst carrier
    | some error => exact iff_of_true (hunique.inherits (inherits_allocPort _)) trivial
  | openUdp refusal =>
    cases refusal with
    | none => exact portsUnique_openUdp_iff hunique h
    | some error => exact iff_of_true (hunique.inherits (inherits_allocPort _)) trivial
  | serviceTcp now rate =>
    exact iff_of_true (hunique.inherits (inherits_serviceTcp now rate _)) trivial
  | _ => exact iff_of_true (hunique.inherits hstack.inherits) trivial

theorem portsUnique_iff_portFree (tuning : Tuning) (limits : TcpLimits)
    (events : List StackEvent) :
    (∀ before, before <+: events → PortsUnique (run tuning limits before).stack) ↔
      AlongRun (fun before e => PortFree (run tuning limits before).stack e) events := by
  refine forall_prefix_iff_alongRun
    (P := fun events => PortsUnique (run tuning limits events).stack) ?_ ?_ events
  · exact ⟨uniqueKeys_empty, uniqueKeys_empty⟩
  · intro before e hbefore
    rw [run, exec_concat]
    exact portsUnique_step_iff hbefore (run_portsCounted tuning limits before) e

/-! ## A long-lived socket -/

def lookups : Nat → List StackEvent
  | 0 => [.openUdp none]
  | count + 1 => lookups count ++ [.openUdp none, .udpAppGone (count + 2), .serviceUdp]

structure LongLived (count : Nat) (s : NetStack) : Prop where
  first : s.udpConns 1 = some ⟨49152, 0, false⟩
  nextId : s.nextId = count + 2
  allocations : s.allocations = count + 1

theorem LongLived.lookup {count : Nat} (h : LongLived count l.stack) :
    LongLived (count + 1)
      (exec step l [.openUdp none, .udpAppGone (count + 2), .serviceUdp]).stack where
  first := by
    simp [exec, StackLoop.step, withStack, openUdp, serviceUdp, h.nextId, h.first]
  nextId := by
    simp [exec, StackLoop.step, withStack, openUdp, serviceUdp, h.nextId]
  allocations := by
    simp [exec, StackLoop.step, withStack, openUdp, serviceUdp, allocPort, h.allocations]

theorem lookups_longLived (tuning : Tuning) (limits : TcpLimits) (count : Nat) :
    LongLived count (run tuning limits (lookups count)).stack := by
  induction count with
  | zero => exact ⟨rfl, rfl, rfl⟩
  | succ count ih =>
    rw [run, lookups, exec_append]
    exact ih.lookup

theorem LongLived.openUdp {count : Nat} (h : LongLived count l.stack)
    (hcounted : PortsCounted l.stack) :
    (l.step (.openUdp none)).stack.udpConns 1 = some ⟨49152, 0, false⟩ ∧
      (l.step (.openUdp none)).stack.udpConns (count + 2) =
        some ⟨portOf (count + 1), count + 1, false⟩ := by
  have hconns : (l.step (.openUdp none)).stack.udpConns =
      Function.update l.stack.udpConns (count + 2) (some l.stack.newUdp) :=
    h.nextId ▸ udpConns_openUdp l.stack
  rw [hconns, newUdp, hcounted.nextPort, h.allocations]
  constructor
  · rw [Function.update_of_ne (by omega), h.first]
  · rw [Function.update_self]

theorem lookups_share_port :
    ∃ x y, (run .low sampleLimits (lookups 15848 ++ [.openUdp none])).stack.udpConns 1 = some x ∧
      (run .low sampleLimits (lookups 15848 ++ [.openUdp none])).stack.udpConns 15850 = some y ∧
      x.localPort = 49152 ∧ y.localPort = 49152 ∧
      ¬ PortsUnique (run .low sampleLimits (lookups 15848 ++ [.openUdp none])).stack := by
  have hrun : run .low sampleLimits (lookups 15848 ++ [.openUdp none]) =
      (run .low sampleLimits (lookups 15848)).step (.openUdp none) :=
    exec_concat _ _ _ _
  rw [hrun]
  obtain ⟨hfirst, hnext⟩ := (lookups_longLived .low sampleLimits 15848).openUdp
    (run_portsCounted .low sampleLimits (lookups 15848))
  refine ⟨_, _, hfirst, hnext, rfl, rfl, fun hunique => ?_⟩
  have hsame := hunique.udp _ _ _ _ hfirst hnext rfl
  omega

end StackLoop

end BigRocket.Netstack
