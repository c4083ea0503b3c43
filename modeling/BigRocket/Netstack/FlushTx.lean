/-
`flush_tx`: the packets of the stack on their way to the WireGuard writer. The
channel's answers are an input.
-/
import BigRocket.Netstack.Backlog

namespace BigRocket.Netstack

open List

def maxTxRetained : Nat := 256
def maxDeviceTxHard : Nat := maxTxRetained

inductive TrySend where
  | accepted
  | full
  | closed
  deriving DecidableEq, Repr

structure StackDevice (Packet : Type) where
  tx : List Packet
  txShed : Nat := 0
  txPeak : Nat := 0

variable {Packet : Type}

structure Flushed (Packet : Type) where
  device : StackDevice Packet
  sent : List Packet
  dropped : Nat := 0
  retained : Bool := false

def shed (d : StackDevice Packet) (sent : List Packet) : Flushed Packet :=
  if d.tx.length > maxDeviceTxHard then
    let dropped := d.tx.length - maxDeviceTxHard
    { device :=
        { d with
          tx := d.tx.drop dropped
          txShed := min (d.txShed + dropped) (usizeLimit - 1) }
      sent, dropped, retained := true }
  else { device := d, sent, retained := true }

/-- The loop over the queue. Each packet before was accepted, so that
`sent.length` is the number of answers so far. -/
def flushLoop (answer : Nat → TrySend) (d : StackDevice Packet) (sent : List Packet) :
    List Packet → Flushed Packet
  | [] => { device := { d with tx := [] }, sent }
  | pkt :: rest =>
    match answer sent.length with
    | .accepted => flushLoop answer d (sent ++ [pkt]) rest
    | .full => shed { d with tx := pkt :: rest } sent
    | .closed => { device := { d with tx := rest }, sent }

def flushTx (answer : Nat → TrySend) (d : StackDevice Packet) : Flushed Packet :=
  flushLoop answer { d with txPeak := max d.txPeak d.tx.length } [] d.tx

/-- The packets of the queue are sent, or meet a closed channel, one at most, or
are dropped as the oldest of too many, or kept. -/
structure Orderly (answer : Nat → TrySend) (before queue : List Packet) (r : Flushed Packet) :
    Prop where
  split : ∃ more lost dropped, queue = more ++ (lost ++ (dropped ++ r.device.tx)) ∧
    r.sent = before ++ more ∧ dropped.length = r.dropped ∧
    (lost = [] ∨ answer r.sent.length = .closed)
  dropped : 0 < r.dropped → r.device.tx.length = maxDeviceTxHard
  kept : r.retained = true → r.device.tx.length ≤ maxDeviceTxHard
  retained : answer r.sent.length = .full → r.device.tx ≠ [] → r.retained = true

theorem orderly_shed {answer : Nat → TrySend} (d : StackDevice Packet) (sent : List Packet) :
    Orderly answer sent d.tx (shed d sent) := by
  by_cases hlong : d.tx.length > maxDeviceTxHard
  · rw [shed, if_pos hlong]
    exact
      { split := ⟨[], [], d.tx.take (d.tx.length - maxDeviceTxHard), by simp, by simp, by simp,
          .inl rfl⟩
        dropped := by intro; rw [length_drop]; omega
        kept := by intro; rw [length_drop]; omega
        retained := by intros; rfl }
  · rw [shed, if_neg hlong]
    exact
      { split := ⟨[], [], [], rfl, by simp, rfl, .inl rfl⟩
        dropped := by simp
        kept := by intro; exact not_lt.mp hlong
        retained := by intros; rfl }

theorem orderly_flushLoop (answer : Nat → TrySend) (d : StackDevice Packet)
    (queue sent : List Packet) : Orderly answer sent queue (flushLoop answer d sent queue) := by
  induction queue generalizing sent with
  | nil =>
    exact ⟨⟨[], [], [], rfl, by simp [flushLoop], rfl, .inl rfl⟩, by simp [flushLoop], nofun,
      fun _ h => absurd rfl h⟩
  | cons pkt rest ih =>
    unfold flushLoop
    split
    · obtain ⟨⟨more, lost, dropped, hqueue, hsent, hrest⟩, hdropped, hkept, hretained⟩ :=
        ih (sent ++ [pkt])
      refine ⟨⟨pkt :: more, lost, dropped, congrArg (pkt :: ·) hqueue, ?_, hrest⟩, hdropped, hkept,
        hretained⟩
      rw [hsent, append_assoc]
      rfl
    · exact orderly_shed { d with tx := pkt :: rest } sent
    · next hclosed =>
        exact ⟨⟨[], [pkt], [], rfl, by simp, rfl, .inr hclosed⟩, by simp, nofun,
          fun h _ => absurd (hclosed.symm.trans h) (by decide)⟩

/-- **Transmit shedding is orderly**: packets are sent from the front, only the
oldest are dropped and only above the hard limit, and else nothing is lost. -/
theorem flushTx_orderly (answer : Nat → TrySend) (d : StackDevice Packet) :
    let r := flushTx answer d
    List.Sublist r.sent d.tx ∧
    ((∀ i, answer i ≠ .closed) →
      (∃ dropped, d.tx = r.sent ++ (dropped ++ r.device.tx) ∧ dropped.length = r.dropped) ∧
      d.tx.length = r.sent.length + r.dropped + r.device.tx.length) ∧
    (0 < r.dropped → r.device.tx.length = maxDeviceTxHard) ∧
    (answer r.sent.length = .full → r.device.tx.length ≤ maxDeviceTxHard) := by
  intro r
  obtain ⟨⟨more, lost, dropped, hqueue, hsent, hdropped, hlost⟩, hlimit, hkept, hretained⟩ :
    Orderly answer [] d.tx r := orderly_flushLoop answer _ d.tx []
  rw [nil_append] at hsent
  refine ⟨?_, fun hopen => ?_, hlimit, fun hfull => ?_⟩
  · rw [hqueue, hsent]
    exact sublist_append_left _ _
  · have hnone : lost = [] := hlost.resolve_right (hopen _)
    rw [hnone, nil_append, ← hsent] at hqueue
    refine ⟨⟨dropped, hqueue, hdropped⟩, ?_⟩
    rw [hqueue, ← hdropped, length_append, length_append]
    omega
  · by_cases hnil : r.device.tx = []
    · simp [hnil]
    · exact hkept (hretained hfull hnil)

end BigRocket.Netstack
