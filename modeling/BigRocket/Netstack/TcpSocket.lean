/-
The TCP socket of smoltcp, as far as the netstack sees it: the eleven states of
TCP, a send buffer and a receive buffer. What happens inside `Interface::poll`
is a `Segment`. A FIN of ours is acknowledged only after all data before it. The
receive buffer is a ring, and `recv` hands out one contiguous part of it; the
parts are kept as they lie.
-/
import Mathlib

namespace BigRocket.Netstack

open List

inductive SocketState where
  | closed
  | listen
  | synSent
  | synReceived
  | established
  | finWait1
  | finWait2
  | closeWait
  | closing
  | lastAck
  | timeWait
  deriving DecidableEq, Repr

def Piece : Type := { bytes : List UInt8 // bytes ≠ [] }
  deriving DecidableEq, Repr

namespace Piece

def bytes (p : Piece) : List UInt8 := p.1

def join (p q : Piece) : Piece := ⟨p.bytes ++ q.bytes, by simp [bytes, p.2]⟩

@[simp] theorem join_bytes (p q : Piece) : (p.join q).bytes = p.bytes ++ q.bytes := rfl

end Piece

def piecesBytes (pieces : List Piece) : List UInt8 := pieces.flatMap Piece.bytes

@[simp] theorem piecesBytes_nil : piecesBytes [] = [] := rfl

@[simp] theorem piecesBytes_cons (p : Piece) (rest : List Piece) :
    piecesBytes (p :: rest) = p.bytes ++ piecesBytes rest := by
  simp [piecesBytes]

@[simp] theorem piecesBytes_append (front back : List Piece) :
    piecesBytes (front ++ back) = piecesBytes front ++ piecesBytes back := by
  simp [piecesBytes]

/-- `given` and `received` are all the bytes that `send_slice` took and that the
peer sent. `aborted` says that `abort` was called, `reset` that a RST ended the
connection. -/
structure TcpSocket where
  state : SocketState
  txCapacity : Nat
  rxCapacity : Nat
  txBuffer : List UInt8 := []
  rxBuffer : List Piece := []
  given : List UInt8 := []
  received : List UInt8 := []
  reset : Bool := false
  aborted : Bool := false
  deriving DecidableEq, Repr

inductive Segment where
  | synAck
  | syn
  | data (piece : Piece) (joins : Bool)
  | acked (count : Nat)
  | fin
  | finAcked
  | rst
  | timeWaitEnds
  deriving DecidableEq, Repr

namespace TcpSocket

def connecting (txCapacity rxCapacity : Nat) : TcpSocket :=
  { state := .synSent, txCapacity, rxCapacity }

def maySend (k : TcpSocket) : Bool := k.state = .established ∨ k.state = .closeWait

def room (k : TcpSocket) : Nat := k.txCapacity - k.txBuffer.length

def canSend (k : TcpSocket) : Bool := k.maySend ∧ 0 < k.room

/-- Takes as much as the send buffer has room for; the count is what it took. -/
def sendSlice (data : List UInt8) (k : TcpSocket) : Nat × TcpSocket :=
  if k.maySend then
    let taken := data.take k.room
    (taken.length,
      { k with txBuffer := k.txBuffer ++ taken, given := k.given ++ taken })
  else (0, k)

def sendQueue (k : TcpSocket) : Nat := k.txBuffer.length

def canRecv (k : TcpSocket) : Bool := k.rxBuffer ≠ []

def close (k : TcpSocket) : TcpSocket :=
  match k.state with
  | .listen | .synSent => { k with state := .closed }
  | .synReceived | .established => { k with state := .finWait1 }
  | .closeWait => { k with state := .lastAck }
  | _ => k

def abort (k : TcpSocket) : TcpSocket :=
  { k with state := .closed, reset := true, aborted := true }

def append (piece : Piece) (joins : Bool) (pieces : List Piece) : List Piece :=
  match pieces.getLast? with
  | some last => if joins then pieces.dropLast ++ [last.join piece] else pieces ++ [piece]
  | none => [piece]

def receives (k : TcpSocket) : Bool :=
  k.state = .established ∨ k.state = .finWait1 ∨ k.state = .finWait2

def poll (segment : Segment) (k : TcpSocket) : TcpSocket :=
  match segment with
  | .synAck =>
    if k.state = .synSent ∨ k.state = .synReceived then { k with state := .established } else k
  | .syn => if k.state = .synSent then { k with state := .synReceived } else k
  | .data piece joins =>
    if k.receives ∧ (piecesBytes k.rxBuffer).length + piece.bytes.length ≤ k.rxCapacity then
      { k with
        rxBuffer := append piece joins k.rxBuffer
        received := k.received ++ piece.bytes }
    else k
  | .acked count => if k.state = .closed then k else { k with txBuffer := k.txBuffer.drop count }
  | .fin =>
    match k.state with
    | .synReceived | .established => { k with state := .closeWait }
    | .finWait1 => { k with state := .closing }
    | .finWait2 => { k with state := .timeWait }
    | _ => k
  | .finAcked =>
    -- our FIN lies behind all data, so its acknowledgement finds the buffer empty
    if k.txBuffer = [] then
      match k.state with
      | .finWait1 => { k with state := .finWait2 }
      | .closing => { k with state := .timeWait }
      | .lastAck => { k with state := .closed }
      | _ => k
    else k
  | .rst => if k.state = .closed then k else { k with state := .closed, reset := true }
  | .timeWaitEnds => if k.state = .timeWait then { k with state := .closed } else k

/-! ## What the operations leave alone -/

variable (k : TcpSocket)

@[simp] theorem close_rxBuffer : k.close.rxBuffer = k.rxBuffer := by
  unfold close; split <;> rfl

@[simp] theorem close_txBuffer : k.close.txBuffer = k.txBuffer := by
  unfold close; split <;> rfl

@[simp] theorem close_given : k.close.given = k.given := by
  unfold close; split <;> rfl

@[simp] theorem close_received : k.close.received = k.received := by
  unfold close; split <;> rfl

@[simp] theorem close_reset : k.close.reset = k.reset := by
  unfold close; split <;> rfl

@[simp] theorem close_aborted : k.close.aborted = k.aborted := by
  unfold close; split <;> rfl

@[simp] theorem abort_state : k.abort.state = .closed := rfl

@[simp] theorem abort_reset : k.abort.reset = true := rfl

@[simp] theorem abort_aborted : k.abort.aborted = true := rfl

@[simp] theorem abort_rxBuffer : k.abort.rxBuffer = k.rxBuffer := rfl

@[simp] theorem abort_received : k.abort.received = k.received := rfl

@[simp] theorem abort_given : k.abort.given = k.given := rfl

variable (data : List UInt8)

@[simp] theorem sendSlice_state : (k.sendSlice data).2.state = k.state := by
  unfold sendSlice; split <;> rfl

@[simp] theorem sendSlice_rxBuffer : (k.sendSlice data).2.rxBuffer = k.rxBuffer := by
  unfold sendSlice; split <;> rfl

@[simp] theorem sendSlice_received : (k.sendSlice data).2.received = k.received := by
  unfold sendSlice; split <;> rfl

@[simp] theorem sendSlice_reset : (k.sendSlice data).2.reset = k.reset := by
  unfold sendSlice; split <;> rfl

@[simp] theorem sendSlice_aborted : (k.sendSlice data).2.aborted = k.aborted := by
  unfold sendSlice; split <;> rfl

theorem sendSlice_given :
    (k.sendSlice data).2.given ++ data.drop (k.sendSlice data).1 = k.given ++ data := by
  unfold sendSlice
  split
  · rcases le_total k.room data.length with h | h
    · simp [length_take, h]
    · simp [take_of_length_le h]
  · simp

theorem piecesBytes_append_piece (piece : Piece) (joins : Bool) (pieces : List Piece) :
    piecesBytes (append piece joins pieces) = piecesBytes pieces ++ piece.bytes := by
  unfold append
  rcases eq_nil_or_concat pieces with rfl | ⟨front, last, rfl⟩
  · simp
  · cases joins <;> simp

@[simp] theorem poll_aborted (segment : Segment) : (k.poll segment).aborted = k.aborted := by
  cases segment <;> simp only [poll] <;> repeat' split
  all_goals rfl

@[simp] theorem poll_given (segment : Segment) : (k.poll segment).given = k.given := by
  cases segment <;> simp only [poll] <;> repeat' split
  all_goals rfl

end TcpSocket

end BigRocket.Netstack
