/-
The sockets of the UDP paths: `connect` and `disconnect` of `UdpPathAdapter` as
`BondingEngineImpl` calls them. `connect` replaces the socket it finds without
closing it, and a `bindSocket` that throws leaves the new one open.

The watchdog looks at the state of a path and connects it afterwards; `stop()`
may come between the two. Whether the engine is `ACTIVE` or `DEGRADED` makes no
difference here.
-/
import BigRocket.Bonding.Lifecycle

namespace BigRocket.Bonding

open Lib List

/-- How `connect` ends: with no `DatagramSocket`, or one that `protect` refuses, or
that `bindSocket` throws on, or one that is stored. -/
inductive Connect where
  | noSocket
  | refused
  | unbound
  | stored
  deriving DecidableEq

structure UdpPath where
  runtime : PathRuntime
  socket : Option Nat
  opened : List Nat
  created : Nat
  retried : Bool
  deriving DecidableEq

namespace UdpPath

def transitionTo (next : PathState) (p : UdpPath) : UdpPath :=
  { p with runtime := p.runtime.transitionTo next }

def connect (c : Connect) (p : UdpPath) : UdpPath :=
  match c with
  | .noSocket | .refused => p
  | .unbound => { p with opened := p.created :: p.opened, created := p.created + 1 }
  | .stored =>
    { p with
      socket := some p.created
      opened := p.created :: p.opened
      created := p.created + 1 }

def disconnect (p : UdpPath) : UdpPath :=
  { p with opened := (p.socket.map p.opened.erase).getD p.opened, socket := none }

def start (c : Connect) (p : UdpPath) : UdpPath :=
  (p.connect c).transitionTo (if c = .stored then .active else .failed)

def stop (p : UdpPath) : UdpPath := p.disconnect.transitionTo .closed

def watchdogLooks (p : UdpPath) : UdpPath := { p with retried := p.runtime.state = .failed }

def watchdogConnects (c : Connect) (p : UdpPath) : UdpPath :=
  if p.retried then
    let p := { p.connect c with retried := false }
    if c = .stored then (p.transitionTo .recovering).transitionTo .active else p
  else p

end UdpPath

inductive SocketEvent where
  | start (connects : Nat → Connect)
  | stop
  | sendFails (path : Nat)
  | watchdogLooks (path : Nat)
  | watchdogConnects (path : Nat) (c : Connect)

structure UdpEngine where
  running : Bool
  paths : List UdpPath
  deriving DecidableEq

namespace UdpEngine

def onPath (path : Nat) (f : UdpPath → UdpPath) (e : UdpEngine) : UdpEngine :=
  { e with paths := e.paths.modify path f }

/-- A `start()` of a running engine throws, and changes nothing. -/
def step (e : UdpEngine) : SocketEvent → UdpEngine
  | .start connects =>
    if e.running then e else ⟨true, e.paths.mapIdx fun i p => p.start (connects i)⟩
  | .stop => if e.running then ⟨false, e.paths.map UdpPath.stop⟩ else e
  | .sendFails path => e.onPath path (·.transitionTo .failed)
  | .watchdogLooks path => e.onPath path UdpPath.watchdogLooks
  | .watchdogConnects path c => e.onPath path (·.watchdogConnects c)

def run (ids : List PathId) (events : List SocketEvent) : UdpEngine :=
  exec step ⟨false, ids.map fun id => ⟨.create id, none, [], 0, false⟩⟩ events

/-- A call of `connect` finds no socket stored, and leaves none behind. -/
def Clean (c : Connect) (p : UdpPath) : Prop := c ≠ .unbound ∧ (c = .stored → p.socket = none)

instance (c : Connect) (p : UdpPath) : Decidable (Clean c p) := inferInstanceAs (Decidable (_ ∧ _))

/-- Every `connect` is clean, and the watchdog makes none after `stop()`. -/
def CleanStep (ids : List PathId) (before : List SocketEvent) (e : SocketEvent) : Prop :=
  match e with
  | .start connects => ∀ entry ∈ (run ids before).paths.zipIdx, Clean (connects entry.2) entry.1
  | .watchdogConnects path c => ∀ p ∈ (run ids before).paths[path]?, Clean c p ∧
      (c = .stored → (run ids before).running = true)
  | _ => True

instance (ids : List PathId) (before : List SocketEvent) (e : SocketEvent) :
    Decidable (CleanStep ids before e) := by
  cases e <;> simp only [CleanStep] <;> infer_instance

def Held (running : Bool) (p : UdpPath) : Prop :=
  p.opened = p.socket.toList ∧ (running = false → p.opened = [])

variable {running : Bool} {p : UdpPath}

theorem held_connect {c : Connect} (h : Held running p) (hclean : Clean c p)
    (hrunning : c = .stored → running = true) : Held running (p.connect c) := by
  obtain ⟨hbind, hnone⟩ := hclean
  cases c with
  | noSocket | refused => exact h
  | unbound => exact absurd rfl hbind
  | stored =>
    refine ⟨?_, by simp [hrunning rfl]⟩
    simp [UdpPath.connect, h.1, hnone rfl]

theorem held_stop (h : Held running p) (after : Bool) : Held after p.stop := by
  have hopened : p.stop.opened = [] := by
    simp only [UdpPath.stop, UdpPath.transitionTo, UdpPath.disconnect, h.1]
    cases p.socket <;> simp
  exact ⟨hopened, fun _ => hopened⟩

theorem held_watchdogConnects {c : Connect} (h : Held running p)
    (hclean : Clean c p ∧ (c = .stored → running = true)) :
    Held running (p.watchdogConnects c) := by
  unfold UdpPath.watchdogConnects
  split
  · have hconnect := held_connect h hclean.1 hclean.2
    dsimp only
    split <;> exact hconnect
  · exact h

theorem held_onPath {e : UdpEngine} (h : ∀ p ∈ e.paths, Held e.running p) {path : Nat}
    {f : UdpPath → UdpPath} (hf : ∀ p ∈ e.paths[path]?, Held e.running p → Held e.running (f p)) :
    ∀ p ∈ (e.onPath path f).paths, Held e.running p := by
  intro p hp
  obtain ⟨i, hi⟩ := mem_iff_getElem?.mp hp
  rw [onPath, getElem?_modify] at hi
  obtain ⟨q, hq, rfl⟩ := Option.map_eq_some_iff.mp hi
  have hheld := h q (mem_of_getElem? hq)
  split
  · next heq => exact hf q (heq ▸ hq) hheld
  · exact hheld

theorem held_run {ids : List PathId} {events : List SocketEvent}
    (h : AlongRun (CleanStep ids) events) :
    ∀ p ∈ (run ids events).paths, Held (run ids events).running p := by
  refine exec_invariant (I := fun events => ∀ p ∈ (run ids events).paths,
    Held (run ids events).running p) ?_ ?_ h
  · simp [run, Held]
  · intro events e ih hclean
    rw [run, exec_concat, ← run]
    cases e with
    | start connects =>
      rw [step]
      split
      · exact ih
      · next hstopped =>
          intro p hp
          obtain ⟨i, hi, rfl⟩ := mem_mapIdx.mp hp
          have hheld := ih _ (getElem_mem hi)
          have hentry := hclean (_, i)
            (mem_zipIdx_iff_getElem?.mpr (getElem?_eq_getElem hi))
          exact held_connect ⟨hheld.1, nofun⟩ hentry fun _ => rfl
    | stop =>
      rw [step]
      split
      · intro p hp
        obtain ⟨q, hq, rfl⟩ := mem_map.mp hp
        exact held_stop (ih q hq) false
      · exact ih
    | sendFails path => exact held_onPath ih fun _ _ => id
    | watchdogLooks path => exact held_onPath ih fun _ _ => id
    | watchdogConnects path c =>
      exact held_onPath ih fun p hp hheld => held_watchdogConnects hheld (hclean p hp)

/-- **A path holds one socket**, and none after `stop()`, as long as every
`connect` finds none, `bindSocket` does not throw and none comes after `stop()`. -/
theorem one_socket (ids : List PathId) (events : List SocketEvent)
    (h : AlongRun (CleanStep ids) events) :
    ∀ p ∈ (run ids events).paths,
      p.opened.length ≤ 1 ∧ ((run ids events).running = false → p.opened = []) := by
  intro p hp
  obtain ⟨hopened, hnone⟩ := held_run h p hp
  refine ⟨?_, hnone⟩
  rw [hopened]
  cases p.socket <;> simp

theorem one_socket_refused : ∃ events, SocketEvent.stop ∈ events ∧
    ∀ p ∈ (run [.wifi, .cellular] events).paths, p.opened.length ≤ 1 ∧
      ((run [.wifi, .cellular] events).running = false → p.opened = []) :=
  ⟨[.start fun i => if i = 0 then .stored else .refused, .watchdogLooks 1,
    .watchdogConnects 1 .stored, .stop], by simp, one_socket _ _ (by decide +kernel)⟩

theorem two_sockets :
    ((run [.wifi] [.start fun _ => .stored, .sendFails 0, .watchdogLooks 0,
        .watchdogConnects 0 .stored]).paths.map (·.opened)) = [[1, 0]] ∧
      ((run [.wifi] [.start fun _ => .stored, .sendFails 0, .watchdogLooks 0,
        .watchdogConnects 0 .stored, .stop]).paths.map (·.opened)) = [[0]] := by
  decide +kernel

end UdpEngine

end BigRocket.Bonding
