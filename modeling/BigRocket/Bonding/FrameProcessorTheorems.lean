/-
What `createFrames` makes of a byte array.
-/
import BigRocket.Bonding.FrameProcessor
import BigRocket.Bonding.FrameCodecTheorems

namespace BigRocket.Bonding.FrameProcessor

open List

structure WellFormed (maxPayloadSize : Nat) (f : Frame) : Prop where
  version : f.header.version = currentVersion
  type : f.header.type = .data
  flags : f.header.flags = 0
  payloadSize : f.header.payloadSize = Int32.ofNat f.payload.length
  nonempty : f.payload ≠ []
  bounded : f.payload.length ≤ maxPayloadSize

def Numbered (start : Int64) (frames : List Frame) : Prop :=
  ∀ i f, frames[i]? = some f → f.header.sequence = start + Int64.ofNat i

theorem sequence_succ (s : Int64) (n : Nat) :
    s + 1 + Int64.ofNat n = s + Int64.ofNat (n + 1) := by
  rw [Int64.ofNat_add, Int64.add_assoc, Int64.add_comm 1]
  rfl

section Loop

variable (clock : Nat → Int64) (data : List UInt8)

theorem createFramesLoop_processor : ∀ (fuel offset : Nat) (p : FrameProcessor),
    (createFramesLoop clock data fuel offset p).2 =
      { p with nextSequence :=
          p.nextSequence + Int64.ofNat (createFramesLoop clock data fuel offset p).1.length }
  | 0, offset, p => by simp [createFramesLoop]
  | fuel + 1, offset, p => by
      unfold createFramesLoop
      split
      · simp only [createFramesLoop_processor fuel, length_cons, increment]
        rw [sequence_succ]
      · simp

theorem createFramesLoop_numbered : ∀ (fuel offset : Nat) (p : FrameProcessor),
    Numbered p.nextSequence (createFramesLoop clock data fuel offset p).1
  | 0, offset, p => by
      intro i f hf
      simp [createFramesLoop] at hf
  | fuel + 1, offset, p => by
      intro i f hf
      unfold createFramesLoop at hf
      split at hf
      · cases i with
        | zero =>
          simp only [getElem?_cons_zero, Option.some.injEq] at hf
          subst hf
          simp [dataFrame]
        | succ i =>
          simp only [getElem?_cons_succ] at hf
          have ih := createFramesLoop_numbered fuel _ p.increment i f hf
          rw [ih]
          exact sequence_succ p.nextSequence i
      · simp at hf

theorem createFramesLoop_payloads : ∀ (fuel offset : Nat) (p : FrameProcessor),
    0 < p.maxPayloadSize → data.length ≤ offset + fuel →
    ((createFramesLoop clock data fuel offset p).1.map Frame.payload).flatten = data.drop offset
  | 0, offset, p, hpos, hfuel => by
      simp only [createFramesLoop, map_nil, flatten_nil]
      exact (drop_eq_nil_of_le (by omega)).symm
  | fuel + 1, offset, p, hpos, hfuel => by
      unfold createFramesLoop
      split
      · next hlt =>
          have ih := createFramesLoop_payloads fuel
            (offset + min p.maxPayloadSize (data.length - offset)) p.increment hpos (by omega)
          simp only [map_cons, flatten_cons, ih, dataFrame]
          rw [← drop_drop, take_append_drop]
      · next hge =>
          simp only [map_nil, flatten_nil]
          exact (drop_eq_nil_of_le (by omega)).symm

theorem createFramesLoop_wellFormed : ∀ (fuel offset : Nat) (p : FrameProcessor),
    0 < p.maxPayloadSize →
    ∀ f ∈ (createFramesLoop clock data fuel offset p).1, WellFormed p.maxPayloadSize f
  | 0, offset, p, hpos => by simp [createFramesLoop]
  | fuel + 1, offset, p, hpos => by
      intro f hf
      unfold createFramesLoop at hf
      split at hf
      · next hlt =>
          rcases mem_cons.mp hf with rfl | hf
          · have hlen : ((data.drop offset).take
                (min p.maxPayloadSize (data.length - offset))).length =
                  min p.maxPayloadSize (data.length - offset) := by
              simp
            refine ⟨rfl, rfl, rfl, rfl, ?_, ?_⟩
            · apply ne_nil_of_length_pos
              show 0 < ((data.drop offset).take _).length
              omega
            · show ((data.drop offset).take _).length ≤ _
              omega
          · exact createFramesLoop_wellFormed fuel _ p.increment hpos f hf
      · simp at hf

end Loop

variable (clock : Nat → Int64) (data : List UInt8) (p : FrameProcessor)

theorem createFrames_processor :
    (createFrames clock data p).2 =
      { p with nextSequence :=
          p.nextSequence + Int64.ofNat (createFrames clock data p).1.length } := by
  unfold createFrames
  split
  · simp
  · exact createFramesLoop_processor clock data data.length 0 p

theorem createFrames_numbered : Numbered p.nextSequence (createFrames clock data p).1 := by
  unfold createFrames
  split
  · intro i f hf
    simp at hf
  · exact createFramesLoop_numbered clock data data.length 0 p

theorem createFrames_payloads (hpos : 0 < p.maxPayloadSize) :
    ((createFrames clock data p).1.map Frame.payload).flatten = data := by
  unfold createFrames
  split
  · next hempty => simpa using hempty.symm
  · simpa using createFramesLoop_payloads clock data data.length 0 p hpos (by omega)

theorem createFrames_wellFormed (hpos : 0 < p.maxPayloadSize) :
    ∀ f ∈ (createFrames clock data p).1, WellFormed p.maxPayloadSize f := by
  unfold createFrames
  split
  · simp
  · exact createFramesLoop_wellFormed clock data data.length 0 p hpos

theorem createFramesLoop_done (fuel : Nat) {offset : Nat} (h : data.length ≤ offset) :
    createFramesLoop clock data fuel offset p = ([], p) := by
  cases fuel with
  | zero => rfl
  | succ fuel =>
    unfold createFramesLoop
    rw [if_neg (by omega)]

theorem createFrames_payloads_eq_singleton_iff (hpos : 0 < p.maxPayloadSize) (hdata : data ≠ []) :
    (createFrames clock data p).1.map Frame.payload = [data] ↔
      data.length ≤ p.maxPayloadSize := by
  constructor
  · intro hone
    have hmem : data ∈ (createFrames clock data p).1.map Frame.payload := by
      rw [hone]
      exact mem_singleton.mpr rfl
    obtain ⟨f, hf, hpayload⟩ := mem_map.mp hmem
    rw [← hpayload]
    exact (createFrames_wellFormed clock data p hpos f hf).bounded
  · intro hfits
    unfold createFrames
    rw [if_neg (by simpa using hdata)]
    cases hlen : data.length with
    | zero => exact absurd (eq_nil_of_length_eq_zero hlen) hdata
    | succ n =>
      have hwhole : min p.maxPayloadSize (data.length - 0) = data.length := by omega
      unfold createFramesLoop
      rw [if_pos (by omega), hwhole]
      simp only [createFramesLoop_done clock data p.increment n
        (show data.length ≤ 0 + data.length by omega)]
      simp [dataFrame]

theorem createFrames_two (hlong : p.maxPayloadSize < data.length)
    (hshort : data.length ≤ 2 * p.maxPayloadSize) :
    createFrames clock data p =
      ([p.dataFrame (clock 0) (data.take p.maxPayloadSize),
        p.increment.dataFrame (clock p.maxPayloadSize) (data.drop p.maxPayloadSize)],
        p.increment.increment) := by
  obtain ⟨n, hn⟩ : ∃ n, data.length = n + 2 := ⟨data.length - 2, by omega⟩
  have hfirst : min p.maxPayloadSize (data.length - 0) = p.maxPayloadSize := by omega
  have hsecond : min p.maxPayloadSize (data.length - p.maxPayloadSize) =
      (data.drop p.maxPayloadSize).length := by
    rw [length_drop]
    omega
  have hend : p.maxPayloadSize + (data.drop p.maxPayloadSize).length = data.length := by
    omega
  have hdata : ¬ data.isEmpty = true := by
    rw [isEmpty_iff_length_eq_zero]
    omega
  unfold createFrames
  rw [if_neg hdata, hn]
  unfold createFramesLoop
  rw [if_pos (by omega), hfirst]
  unfold createFramesLoop
  simp only [Nat.zero_add, increment]
  rw [if_pos hlong, hsecond, hend, createFramesLoop_done clock data _ n le_rfl, take_length]
  simp

theorem Numbered.append {start : Int64} {xs ys : List Frame} (hxs : Numbered start xs)
    (hys : Numbered (start + Int64.ofNat xs.length) ys) : Numbered start (xs ++ ys) := by
  intro i f hf
  by_cases hi : i < xs.length
  · rw [getElem?_append_left hi] at hf
    exact hxs i f hf
  · rw [getElem?_append_right (by omega)] at hf
    rw [hys _ f hf, Int64.add_assoc, ← Int64.ofNat_add]
    congr 2
    omega

theorem Numbered.seq {frames : List Frame} (h : Numbered 0 frames) {i : Nat} {f : Frame}
    (hf : frames[i]? = some f) (hi : i < 2 ^ 63) : f.seq = i := by
  unfold Frame.seq
  rw [h i f hf, Int64.zero_add]
  exact Int64.toInt_ofNat_of_lt hi

theorem WellFormed.admissible {maxPayloadSize : Nat} {f : Frame} (h : WellFormed maxPayloadSize f)
    (hmax : maxPayloadSize ≤ 60000) : BinaryFrameCodec.Admissible f where
  version := h.version
  payloadSize := by
    have := h.bounded
    rw [h.payloadSize, Int32.toInt_ofNat_of_lt (by omega)]
  bounded := by
    have := h.bounded
    unfold BinaryFrameCodec.maxPayloadSize
    omega

end BigRocket.Bonding.FrameProcessor
