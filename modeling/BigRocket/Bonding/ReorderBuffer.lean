/-
`WindowedReorderBuffer`: runs of `push` and `readOrdered`, each under one lock
with at most one clock reading. Sequence numbers do not overflow.
`onMissingSequence` may re-enter `push`, so a read carries `recovered`, the
frame the callback pushes if it is called.
-/
import BigRocket.Bonding.Frame
import BigRocket.Lib.History

namespace BigRocket.Bonding

/-! ## The sorted map -/

/-- `ConcurrentSkipListMap<Long, Frame>`. -/
abbrev FrameMap := AList fun _ : Int => Frame

def FrameMap.putIfAbsent (m : FrameMap) (key : Int) (frame : Frame) : FrameMap :=
  match m.lookup key with
  | some _ => m
  | none => m.insert key frame

def FrameMap.ceilingKey (m : FrameMap) (key : Int) : Option Int :=
  (m.keys.filter (fun k => key ≤ k)).min?

/-! ## The buffer -/

structure ReorderParams where
  windowSize : Int
  softTimeoutMs : Int
  hardTimeoutMs : Int
  deriving DecidableEq, Repr

structure WindowedReorderBuffer where
  buffered : FrameMap
  expectedSequence : Int
  gapFirstObservedAtMs : Int
  softTimeoutFired : Bool
  droppedTooOldCount : Nat
  droppedTooFarAheadCount : Nat
  permanentlyLostCount : Int

namespace WindowedReorderBuffer

def create (startSequence : Int) : WindowedReorderBuffer where
  buffered := ∅
  expectedSequence := startSequence
  gapFirstObservedAtMs := 0
  softTimeoutFired := false
  droppedTooOldCount := 0
  droppedTooFarAheadCount := 0
  permanentlyLostCount := 0

def push (p : ReorderParams) (now : Int) (frame : Frame) (b : WindowedReorderBuffer) :
    WindowedReorderBuffer :=
  let seq := frame.seq
  if seq < b.expectedSequence then
    { b with droppedTooOldCount := b.droppedTooOldCount + 1 }
  else if seq ≥ b.expectedSequence + p.windowSize then
    { b with droppedTooFarAheadCount := b.droppedTooFarAheadCount + 1 }
  else if seq = b.expectedSequence then
    { b with
      buffered := b.buffered.insert seq frame
      gapFirstObservedAtMs := 0
      softTimeoutFired := false }
  else
    { b with
      buffered := FrameMap.putIfAbsent b.buffered seq frame
      gapFirstObservedAtMs :=
        if b.gapFirstObservedAtMs = 0 then now else b.gapFirstObservedAtMs }

/-- Raise the flag, call `onMissingSequence`; the callback pushes `recovered`. -/
def fireSoftTimeout (p : ReorderParams) (now : Int) (recovered : Option Frame)
    (b : WindowedReorderBuffer) : WindowedReorderBuffer :=
  let fired := { b with softTimeoutFired := true }
  match recovered with
  | some frame => push p now frame fired
  | none => fired

def giveUpGap (b : WindowedReorderBuffer) : WindowedReorderBuffer :=
  let jumped :=
    match FrameMap.ceilingKey b.buffered b.expectedSequence with
    | some nextAvailable =>
      { b with
        permanentlyLostCount := b.permanentlyLostCount + (nextAvailable - b.expectedSequence)
        expectedSequence := nextAvailable }
    -- nothing is buffered, so there is nothing to jump to
    | none => b
  { jumped with gapFirstObservedAtMs := 0, softTimeoutFired := false }

def softTimeoutDue (p : ReorderParams) (now : Int) (b : WindowedReorderBuffer) : Bool :=
  b.gapFirstObservedAtMs ≠ 0 && !b.softTimeoutFired &&
    decide (now - b.gapFirstObservedAtMs ≥ p.softTimeoutMs)

def hardTimeoutDue (p : ReorderParams) (now : Int) (b : WindowedReorderBuffer) : Bool :=
  b.gapFirstObservedAtMs ≠ 0 && decide (now - b.gapFirstObservedAtMs ≥ p.hardTimeoutMs)

def checkSoftTimeout (p : ReorderParams) (now : Int) (recovered : Option Frame)
    (b : WindowedReorderBuffer) : WindowedReorderBuffer :=
  if softTimeoutDue p now b then fireSoftTimeout p now recovered b else b

/-- Both tests use the `elapsed` read at the start, before the callback. -/
def checkTimeout (p : ReorderParams) (now : Int) (recovered : Option Frame)
    (b : WindowedReorderBuffer) : WindowedReorderBuffer :=
  let afterSoft := checkSoftTimeout p now recovered b
  if hardTimeoutDue p now b then giveUpGap afterSoft else afterSoft

def missingReported (p : ReorderParams) (now : Int) (b : WindowedReorderBuffer) : Option Int :=
  if softTimeoutDue p now b then some b.expectedSequence else none

def advance (b : WindowedReorderBuffer) : WindowedReorderBuffer :=
  { b with
    buffered := b.buffered.erase b.expectedSequence
    expectedSequence := b.expectedSequence + 1 }

def drain : Nat → WindowedReorderBuffer → WindowedReorderBuffer × List Frame
  | 0, b => (b, [])
  | fuel + 1, b =>
    match b.buffered.lookup b.expectedSequence with
    | none => (b, [])
    | some head => ((drain fuel b.advance).1, head :: (drain fuel b.advance).2)

def readOrdered (p : ReorderParams) (now : Int) (recovered : Option Frame)
    (b : WindowedReorderBuffer) : WindowedReorderBuffer × List Frame :=
  let checked := checkTimeout p now recovered b
  drain checked.buffered.keys.length checked

end WindowedReorderBuffer

/-! ## Runs -/

inductive BufferOp where
  | push (now : Int) (frame : Frame)
  | readOrdered (now : Int) (recovered : Option Frame)
  deriving DecidableEq, Repr

def BufferOp.time : BufferOp → Int
  | .push now _ => now
  | .readOrdered now _ => now

def Chronological (ops : List BufferOp) : Prop := (ops.map BufferOp.time).Pairwise (· ≤ ·)

instance (ops : List BufferOp) : Decidable (Chronological ops) :=
  inferInstanceAs (Decidable ((ops.map BufferOp.time).Pairwise (· ≤ ·)))

structure BufferRun where
  buffer : WindowedReorderBuffer
  delivered : List Frame

namespace BufferRun

def create (startSequence : Int) : BufferRun := ⟨.create startSequence, []⟩

def step (p : ReorderParams) (s : BufferRun) : BufferOp → BufferRun
  | .push now frame => { s with buffer := s.buffer.push p now frame }
  | .readOrdered now recovered =>
    let (buffer, ready) := s.buffer.readOrdered p now recovered
    { buffer, delivered := s.delivered ++ ready }

def run (p : ReorderParams) (startSequence : Int) (ops : List BufferOp) : BufferRun :=
  Lib.exec (step p) (create startSequence) ops

@[simp] theorem run_nil (p : ReorderParams) (startSequence : Int) :
    run p startSequence [] = create startSequence := rfl

@[simp] theorem run_concat (p : ReorderParams) (startSequence : Int) (ops : List BufferOp)
    (op : BufferOp) :
    run p startSequence (ops ++ [op]) = step p (run p startSequence ops) op :=
  Lib.exec_concat (step p) (create startSequence) ops op

end BufferRun

end BigRocket.Bonding
