/-
The messages of the applications to the netstack and `Backlog`, a `Lib.Parking`
that also counts its bytes. The count saturates in `push` and wraps in `purge`,
and is `Exact` while the true total fits.
-/
import BigRocket.Lib.Parking
import BigRocket.Netstack.Flow

namespace BigRocket.Netstack

open Lib Net List

def usizeLimit : Nat := 2 ^ 64

/-- A `Vec<u8>`, which never holds more than `isize::MAX` bytes. -/
def Chunk : Type := { bytes : List UInt8 // bytes.length < 2 ^ 63 }
  deriving DecidableEq, Repr

namespace Chunk

def bytes (c : Chunk) : List UInt8 := c.1

def length (c : Chunk) : Nat := c.bytes.length

theorem length_lt (c : Chunk) : c.length < 2 ^ 63 := c.2

def drop (count : Nat) (c : Chunk) : Chunk :=
  ⟨c.bytes.drop count, by
    have := c.2
    simp only [bytes, length_drop]
    omega⟩

@[simp] theorem drop_bytes (count : Nat) (c : Chunk) :
    (c.drop count).bytes = c.bytes.drop count := rfl

end Chunk

inductive DataIn where
  | tcp (id : Nat) (data : Chunk)
  | tcpClose (id : Nat)
  | udp (id : Nat) (dst : SocketAddr) (data : Chunk)
  | udpClose (id : Nat)
  deriving DecidableEq, Repr

def dataInId : DataIn → Nat
  | .tcp id _ | .tcpClose id | .udp id _ _ | .udpClose id => id

def dataInBytes : DataIn → Nat
  | .tcp _ data => data.length
  | .udp _ _ data => data.length
  | _ => 0

def dataInTokens : DataIn → List Token
  | .tcp _ data => data.bytes.map .byte
  | .tcpClose _ => [.close]
  | _ => []

abbrev laneOf (id : Nat) (queue : List DataIn) : List Token :=
  Parking.lane dataInId dataInTokens id queue

theorem laneOf_append (id : Nat) (front back : List DataIn) :
    laneOf id (front ++ back) = laneOf id front ++ laneOf id back :=
  Parking.lane_append id front back

theorem laneOf_cons (id : Nat) (d : DataIn) (rest : List DataIn) :
    laneOf id (d :: rest) = laneOf id [d] ++ laneOf id rest :=
  Parking.lane_cons id d rest

def bytesOf (id : Nat) (queue : List DataIn) : List UInt8 := tokenBytes (laneOf id queue)

theorem dataInBytes_lt (d : DataIn) : dataInBytes d < 2 ^ 63 := by
  cases d with
  | tcp id data => exact data.length_lt
  | udp id dst data => exact data.length_lt
  | tcpClose id => simp [dataInBytes]
  | udpClose id => simp [dataInBytes]

def queueBytes (queue : List DataIn) : Nat := (queue.map dataInBytes).sum

@[simp] theorem queueBytes_nil : queueBytes [] = 0 := rfl

@[simp] theorem queueBytes_cons (d : DataIn) (rest : List DataIn) :
    queueBytes (d :: rest) = dataInBytes d + queueBytes rest := by
  simp [queueBytes]

@[simp] theorem queueBytes_append (front back : List DataIn) :
    queueBytes (front ++ back) = queueBytes front + queueBytes back := by
  simp [queueBytes]

theorem queueBytes_filter_le (p : DataIn → Bool) (queue : List DataIn) :
    queueBytes (queue.filter p) ≤ queueBytes queue :=
  ((filter_sublist (p := p)).map dataInBytes).sum_le_sum (by simp)

structure Backlog where
  queue : List DataIn := []
  blocked : Finset Nat := ∅
  bytes : Nat := 0
  deriving DecidableEq

namespace Backlog

def isEmpty (b : Backlog) : Bool := b.queue.isEmpty

def holds (id : Nat) (b : Backlog) : Bool := id ∈ b.blocked

def push (d : DataIn) (b : Backlog) : Backlog where
  queue := b.queue ++ [d]
  blocked := insert (dataInId d) b.blocked
  bytes := min (b.bytes + dataInBytes d) (usizeLimit - 1)

def purge (id : Nat) (b : Backlog) : Backlog :=
  let queue := b.queue.filter fun d => dataInId d ≠ id
  { queue, blocked := b.blocked.erase id, bytes := queueBytes queue % usizeLimit }

def parking (b : Backlog) : Parking DataIn Nat := ⟨b.queue, b.blocked⟩

structure Exact (b : Backlog) : Prop where
  blocked : b.blocked = (b.queue.map dataInId).toFinset
  bytes : b.bytes = queueBytes b.queue

variable {b : Backlog}

theorem exact_empty : Exact {} := ⟨rfl, rfl⟩

@[simp] theorem parking_push (d : DataIn) : (b.push d).parking = b.parking.push dataInId d := rfl

theorem Exact.push (h : b.Exact) {d : DataIn}
    (hfits : queueBytes b.queue + dataInBytes d < usizeLimit) : (b.push d).Exact := by
  constructor
  · have hparking : Parking.Exact dataInId b.parking := h.blocked
    exact hparking.push d
  · simp only [Backlog.push, queueBytes_append, queueBytes_cons, queueBytes_nil]
    rw [h.bytes]
    omega

theorem Exact.purge (h : b.Exact) (id : Nat) (hfits : queueBytes b.queue < usizeLimit) :
    (b.purge id).Exact := by
  constructor
  · ext k
    simp only [Backlog.purge, h.blocked, Finset.mem_erase, mem_toFinset, mem_map,
      mem_filter, decide_eq_true_eq]
    constructor
    · rintro ⟨hne, d, hd, rfl⟩
      exact ⟨d, ⟨hd, hne⟩, rfl⟩
    · rintro ⟨d, ⟨hd, hne⟩, rfl⟩
      exact ⟨hne, d, hd, rfl⟩
  · have hle := queueBytes_filter_le (fun d => dataInId d ≠ id) b.queue
    exact Nat.mod_eq_of_lt (hle.trans_lt hfits)

theorem laneOf_purge {id other : Nat} (h : other ≠ id) :
    laneOf other (b.purge id).queue = laneOf other b.queue := by
  simp only [laneOf, Parking.lane, Backlog.purge, filter_filter]
  congr 1
  apply filter_congr
  intro d _
  by_cases hd : dataInId d = other
  · simp [hd, h]
  · simp [hd]

end Backlog

end BigRocket.Netstack
