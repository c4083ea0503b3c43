/-
`BoundedSendQueue`, the queue in front of each path. An item is a frame with the
number of its offer, which keeps equal frames apart.
-/
import BigRocket.Bonding.Frame
import BigRocket.Lib.History

namespace BigRocket.Bonding

open Lib

structure Offered where
  ticket : Nat
  frame : Frame
  deriving DecidableEq

def Offered.isOrdinary (item : Offered) : Bool :=
  !FrameFlags.has item.frame.header.flags FrameFlags.control &&
    !FrameFlags.has item.frame.header.flags FrameFlags.priority

structure BoundedSendQueue where
  capacity : Nat
  deque : List Offered
  droppedCount : Nat

namespace BoundedSendQueue

def create (capacity : Nat) : BoundedSendQueue :=
  { capacity, deque := [], droppedCount := 0 }

def offer (q : BoundedSendQueue) (item : Offered) : Bool × BoundedSendQueue :=
  if q.deque.length < q.capacity then (true, { q with deque := q.deque ++ [item] })
  else
    match q.deque.findIdx? Offered.isOrdinary with
    | some lowPriorityIndex =>
      (true, { q with
        deque := q.deque.eraseIdx lowPriorityIndex ++ [item]
        droppedCount := q.droppedCount + 1 })
    | none => (false, { q with droppedCount := q.droppedCount + 1 })

def poll (q : BoundedSendQueue) : Option Offered × BoundedSendQueue :=
  (q.deque.head?, { q with deque := q.deque.tail })

end BoundedSendQueue

inductive SendQueueEvent where
  | offer (frame : Frame)
  | poll

structure SendQueueRun where
  queue : BoundedSendQueue
  offered : Nat
  accepted : List Offered
  polled : List Offered

namespace SendQueueRun

def create (capacity : Nat) : SendQueueRun :=
  { queue := .create capacity, offered := 0, accepted := [], polled := [] }

def step (r : SendQueueRun) : SendQueueEvent → SendQueueRun
  | .offer frame =>
    let item : Offered := ⟨r.offered, frame⟩
    { r with
      queue := (r.queue.offer item).2
      offered := r.offered + 1
      accepted := if (r.queue.offer item).1 then r.accepted ++ [item] else r.accepted }
  | .poll => { r with queue := r.queue.poll.2, polled := r.polled ++ r.queue.poll.1.toList }

def run (capacity : Nat) (events : List SendQueueEvent) : SendQueueRun :=
  exec step (create capacity) events

end SendQueueRun

end BigRocket.Bonding
