/-
When a malformed capsule blocks those behind it: `next` has taken its bytes away
before it fails, but `drain_capsules` ends at the error.
-/
import BigRocket.Lib.History
import BigRocket.Masque.CapsuleTheorems
import BigRocket.Masque.DrainCapsules

namespace BigRocket.Masque

open Lib

/-! ## What is in the buffer -/

def packetOf : Except AetherError Capsule → Option (List UInt8)
  | .ok (.datagram payload) => stripDatagramContext payload
  | _ => none

def MalformedLast (results : List (Except AetherError Capsule)) : Prop :=
  ∀ result ∈ results.dropLast, ∃ capsule, result = .ok capsule

theorem malformedLast_nil : MalformedLast [] := by
  intro result h
  cases h

theorem malformedLast_ok {capsule : Capsule} {results : List (Except AetherError Capsule)} :
    MalformedLast (.ok capsule :: results) ↔ MalformedLast results := by
  cases results with
  | nil => simp [MalformedLast]
  | cons result results => simp [MalformedLast]

theorem malformedLast_error {e : AetherError} {results : List (Except AetherError Capsule)} :
    MalformedLast (.error e :: results) ↔ results = [] := by
  cases results with
  | nil => simp [MalformedLast]
  | cons result results => simp [MalformedLast]

/-! ## One call -/

section Call

variable {usizeBits : Nat} {hasAddrTx : Bool} {answers : Nat → SendResult}

open CapsuleParser

variable {buf : List UInt8}

theorem parser_of_next_none {p : CapsuleParser} (h : next usizeBits ⟨buf⟩ = (.ok none, p)) :
    p = ⟨buf⟩ := by
  unfold next at h
  split at h
  · exact (Prod.mk.inj h).2.symm
  · split at h
    · exact (Prod.mk.inj h).2.symm
    · dsimp only at h
      split at h
      · exact (Prod.mk.inj h).2.symm
      · split at h
        · cases h
        · -- a capsule or an error, never nothing
          have hresult := (Prod.mk.inj h).1
          generalize Capsule.ofPayload _ _ = result at hresult
          cases result <;> cases hresult

theorem next_cases (usizeBits : Nat) (buf : List UInt8) :
    (next usizeBits ⟨buf⟩ = (.ok none, ⟨buf⟩) ∧ take usizeBits buf = none) ∨
    (∃ capsule rest, next usizeBits ⟨buf⟩ = (.ok (some capsule), ⟨rest⟩) ∧
      take usizeBits buf = some (.ok capsule, rest)) ∨
    ∃ e rest, next usizeBits ⟨buf⟩ = (.error e, ⟨rest⟩) ∧
      take usizeBits buf = some (.error e, rest) := by
  rcases hnext : next usizeBits ⟨buf⟩ with ⟨result, p⟩
  rcases result with e | (_ | capsule)
  · exact .inr (.inr ⟨e, p.buf, rfl, by rw [take, hnext]⟩)
  · exact .inl ⟨by rw [parser_of_next_none hnext], by rw [take, hnext]⟩
  · exact .inr (.inl ⟨capsule, p.buf, rfl, by rw [take, hnext]⟩)

theorem handle_open (hasAddrTx : Bool) (hopen : ∀ k, answers k ≠ .closed) {d : Drained}
    (hd : d.closed = false) (capsule : Capsule) :
    (d.handle hasAddrTx answers capsule).closed = false ∧
      (d.handle hasAddrTx answers capsule).sent.map Prod.fst =
        d.sent.map Prod.fst ++ (packetOf (.ok capsule)).toList := by
  cases capsule with
  | datagram payload =>
    simp only [Drained.handle, packetOf]
    cases hstrip : stripDatagramContext payload with
    | none => exact ⟨hd, by simp⟩
    | some packet => simp [Drained.send, Drained.closed, hopen]
  | addressAssign addresses =>
    simp only [Drained.handle, packetOf]
    split
    · exact ⟨hd, by simp⟩
    · exact ⟨hd, by simp⟩
  | addressRequest => exact ⟨hd, by simp [Drained.handle, packetOf]⟩
  | routeAdvertisement routes => exact ⟨hd, by simp [Drained.handle, packetOf]⟩
  | unknown kind payload => exact ⟨hd, by simp [Drained.handle, packetOf]⟩

theorem drainFuel_eq_nil_iff (usizeBits : Nat) {rounds : Nat} (h : buf.length ≤ rounds) :
    (drainFuel (take usizeBits) rounds buf).1 = [] ↔ take usizeBits buf = none := by
  cases rounds with
  | zero =>
    have hnil : buf = [] := List.eq_nil_of_length_eq_zero (by omega)
    simp [drainFuel, hnil, (take_selfDelimiting usizeBits).nothing]
  | succ rounds =>
    cases htake : take usizeBits buf with
    | none => simp [drainFuel, htake]
    | some result => simp [drainFuel, htake]

theorem drainLoop_spec (usizeBits : Nat) (hasAddrTx : Bool) (hopen : ∀ k, answers k ≠ .closed)
    {rounds : Nat} (hrounds : buf.length ≤ rounds) {d : Drained} (hd : d.closed = false) :
    let left := drainLoop usizeBits hasAddrTx answers (rounds + 1) d ⟨buf⟩
    let results := (drainFuel (take usizeBits) rounds buf).1
    (take usizeBits left.2.buf = none ↔ MalformedLast results) ∧
      (MalformedLast results →
        left.1.sent.map Prod.fst = d.sent.map Prod.fst ++ results.filterMap packetOf) := by
  -- over the rounds; a capsule that is parsed uses up one and at least a byte
  induction rounds generalizing buf d with
  | zero =>
    have hnil : buf = [] := List.eq_nil_of_length_eq_zero (by omega)
    have hnothing := (take_selfDelimiting usizeBits).nothing
    subst hnil
    rcases next_cases usizeBits [] with ⟨hnext, -⟩ | ⟨_, _, -, htake⟩ | ⟨_, _, -, htake⟩
    · simp [drainLoop, drainFuel, hnext, hnothing, malformedLast_nil]
    · cases htake
    · cases htake
  | succ rounds ih =>
    rcases next_cases usizeBits buf with ⟨hnext, htake⟩ | ⟨capsule, rest, hnext, htake⟩ |
      ⟨e, rest, hnext, htake⟩
    · simp [drainLoop, drainFuel, hnext, htake, malformedLast_nil]
    · have hless := take_shortens htake
      obtain ⟨hopen', hsent⟩ := handle_open hasAddrTx hopen hd capsule
      have hrest := @ih rest (by omega) _ hopen'
      have hloop : drainLoop usizeBits hasAddrTx answers (rounds + 1 + 1) d ⟨buf⟩ =
          drainLoop usizeBits hasAddrTx answers (rounds + 1)
            (d.handle hasAddrTx answers capsule) ⟨rest⟩ := by
        rw [drainLoop, hnext]
        dsimp only
        rw [hopen', if_neg Bool.false_ne_true]
      have hresults : (drainFuel (take usizeBits) (rounds + 1) buf).1 =
          .ok capsule :: (drainFuel (take usizeBits) rounds rest).1 := by
        rw [drainFuel, htake]
      dsimp only at hrest ⊢
      rw [hloop, hresults, malformedLast_ok]
      refine ⟨hrest.1, fun hlast => ?_⟩
      rw [hrest.2 hlast, hsent, List.append_assoc]
      cases hpacket : packetOf (.ok capsule) with
      | none => simp [hpacket]
      | some packet => simp [hpacket]
    · have hless := take_shortens htake
      have hloop : drainLoop usizeBits hasAddrTx answers (rounds + 1 + 1) d ⟨buf⟩ =
          (d, ⟨rest⟩) := by
        rw [drainLoop, hnext]
      have hresults : (drainFuel (take usizeBits) (rounds + 1) buf).1 =
          .error e :: (drainFuel (take usizeBits) rounds rest).1 := by
        rw [drainFuel, htake]
      dsimp only
      rw [hloop, hresults, malformedLast_error]
      have hempty := drainFuel_eq_nil_iff usizeBits (show rest.length ≤ rounds by omega)
      refine ⟨hempty.symm, fun hnone => ?_⟩
      simp [hnone, List.filterMap_cons, packetOf]

end Call

/-! ## The stream -/

def completeCapsules (usizeBits : Nat) (p : CapsuleParser) (r : Received) :
    List (Except AetherError Capsule) :=
  ((p.push r.chunk).drain usizeBits).1

/-- The call that follows the piece leaves no complete capsule in the
buffer, and has handed every packet in them to the channel, in order. -/
def DrainsAll (usizeBits : Nat) (hasAddrTx : Bool) (p : CapsuleParser) (r : Received) : Prop :=
  CapsuleParser.take usizeBits (receive usizeBits hasAddrTx p r).buf = none ∧
    (drainCapsules usizeBits hasAddrTx r.answers (p.push r.chunk)).1.sent.map Prod.fst =
      (completeCapsules usizeBits p r).filterMap packetOf

theorem drainsAll_iff {usizeBits : Nat} {hasAddrTx : Bool} {r : Received}
    (hopen : ∀ k, r.answers k ≠ .closed) (p : CapsuleParser) :
    DrainsAll usizeBits hasAddrTx p r ↔ MalformedLast (completeCapsules usizeBits p r) := by
  obtain ⟨hnone, hsent⟩ := drainLoop_spec usizeBits hasAddrTx hopen
    (le_refl (p.push r.chunk).buf.length) (show ({} : Drained).closed = false from rfl)
  constructor
  · intro h
    exact hnone.mp h.1
  · intro hlast
    exact ⟨hnone.mpr hlast, hsent hlast⟩

def parserAfter (usizeBits : Nat) (hasAddrTx : Bool) (stream : List Received) : CapsuleParser :=
  exec (receive usizeBits hasAddrTx) .new stream

/-- **Everything complete is drained** exactly when no piece brings a complete
capsule behind a malformed one. -/
theorem drainsAll_iff_malformedLast (usizeBits : Nat) (hasAddrTx : Bool) (stream : List Received)
    (hopen : ∀ r ∈ stream, ∀ k, r.answers k ≠ .closed) :
    AlongRun (fun before r => DrainsAll usizeBits hasAddrTx
        (parserAfter usizeBits hasAddrTx before) r) stream ↔
      AlongRun (fun before r => MalformedLast
        (completeCapsules usizeBits (parserAfter usizeBits hasAddrTx before) r)) stream := by
  have hstep : ∀ before r after, stream = before ++ r :: after →
      (DrainsAll usizeBits hasAddrTx (parserAfter usizeBits hasAddrTx before) r ↔
        MalformedLast (completeCapsules usizeBits (parserAfter usizeBits hasAddrTx before) r)) := by
    intro before r after heq
    exact drainsAll_iff (hopen r (by simp [heq])) _
  constructor
  · intro h before r after heq
    exact (hstep before r after heq).mp (h before r after heq)
  · intro h before r after heq
    exact (hstep before r after heq).mpr (h before r after heq)

def samplePacket : List UInt8 :=
  [0x45, 0, 0, 20, 0, 0, 0, 0, 64, 17, 0, 0, 10, 0, 0, 1, 10, 0, 0, 2]

theorem drainsAll_malformedAtEnd :
    AlongRun (fun before r => DrainsAll 64 true (parserAfter 64 true before) r)
      [⟨[0, 20] ++ samplePacket ++ [1, 2, 0, 0], fun _ => .taken⟩] := by
  refine (drainsAll_iff_malformedLast 64 true _ (by simp)).mpr ?_
  intro before r after heq
  obtain ⟨rfl, rfl, rfl⟩ : before = [] ∧
      r = ⟨[0, 20] ++ samplePacket ++ [1, 2, 0, 0], fun _ => .taken⟩ ∧ after = [] := by
    cases before with
    | nil => simpa [eq_comm] using heq
    | cons _ _ => simp at heq
  have hcapsules : completeCapsules 64 (parserAfter 64 true [])
      ⟨[0, 20] ++ samplePacket ++ [1, 2, 0, 0], fun _ => .taken⟩ =
      [.ok (.datagram samplePacket), .error (.capsule "bad ip version 0")] := by rfl
  rw [hcapsules, malformedLast_ok, malformedLast_error]

theorem malformedFirst_blocks :
    ¬ AlongRun (fun before r => DrainsAll 64 true (parserAfter 64 true before) r)
        [⟨[1, 2, 0, 0] ++ ([0, 20] ++ samplePacket), fun _ => .taken⟩] ∧
      (parserAfter 64 true [⟨[1, 2, 0, 0] ++ ([0, 20] ++ samplePacket), fun _ => .taken⟩]).buf =
        [0, 20] ++ samplePacket ∧
      (drainCapsules 64 true (fun _ => .taken)
        ⟨[1, 2, 0, 0] ++ ([0, 20] ++ samplePacket)⟩).1.sent = [] := by
  refine ⟨fun h => ?_, by decide +kernel, by decide +kernel⟩
  have hleft := (h [] _ [] rfl).1
  revert hleft
  decide +kernel

end BigRocket.Masque
