/-
How `fragment.rs` cuts the first write of a TLS stream: in the middle of the
server name, where it finds one. What a random number decides is an argument.
-/
import BigRocket.Lib.Search
import BigRocket.Lib.Slice

namespace BigRocket.Tls

open Lib

structure FragmentConfig where
  enabled : Bool
  sizeMin : Nat
  sizeMax : Nat
  delayMinMs : Nat
  delayMaxMs : Nat
  sniSplit : Bool
  deriving DecidableEq, Repr

def takeNum (buf : List UInt8) (pos n : Nat) : Option Nat :=
  (slice buf pos (pos + n)).map (List.foldl (fun acc b => acc <<< 8 ||| b.toNat) 0)

def hostRangeAt (buf : List UInt8) (body : Nat) : Option (Nat × Nat) := do
  let entry := body + 2
  let kind ← takeNum buf entry 1
  guard (kind = 0)
  let hostLen ← takeNum buf (entry + 1) 2
  let host := entry + 3
  guard ¬ (hostLen = 0 ∨ host + hostLen > buf.length)
  return (host, host + hostLen)

def hostTurn (buf : List UInt8) (extensionsEnd pos : Nat) : Turn (Nat × Nat) :=
  if pos + 4 ≤ extensionsEnd then
    match takeNum buf pos 2, takeNum buf (pos + 2) 2 with
    | some kind, some len =>
      if kind = 0x0000 then .done (hostRangeAt buf (pos + 4)) else .next (pos + 4 + len)
    | _, _ => .done none
  else .done none

def sniHostRange (buf : List UInt8) : Option (Nat × Nat) := do
  let first ← buf[0]?
  guard (first = 0x16)
  let kind ← buf[5]?
  guard (kind = 0x01)
  let pos := 43
  let sessionLen ← takeNum buf pos 1
  let pos := pos + (1 + sessionLen)
  let cipherLen ← takeNum buf pos 2
  let pos := pos + (2 + cipherLen)
  let compressionLen ← takeNum buf pos 1
  let pos := pos + (1 + compressionLen)
  let extensionsLen ← takeNum buf pos 2
  let extensionsEnd := pos + 2 + extensionsLen
  search (hostTurn buf extensionsEnd) (extensionsEnd + 1) (pos + 2)

def FragmentConfig.pickChunkLen (cfg : FragmentConfig) (random : Nat → Nat → Nat)
    (remaining : Nat) : Nat :=
  let hi := min (max cfg.sizeMax 1) remaining
  let lo := min (max cfg.sizeMin 1) hi
  if lo ≥ hi then hi else random lo hi

def splitPoint (range : Nat × Nat) : Nat := range.1 + (range.2 - range.1) / 2

/-- How much of `buf` a write hands to the stream below, while it is
fragmenting. -/
def FragmentConfig.chunkLen (cfg : FragmentConfig) (random : Nat → Nat → Nat) (firstWrite : Bool)
    (buf : List UInt8) : Nat :=
  let targeted :=
    if firstWrite && cfg.sniSplit then (sniHostRange buf).map splitPoint else none
  match targeted with
  | some split => if split > 0 ∧ split < buf.length then split else cfg.pickChunkLen random buf.length
  | none => cfg.pickChunkLen random buf.length

end BigRocket.Tls
