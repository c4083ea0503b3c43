/-
The reader of `sniff.rs` that finds the server name of a ClientHello, cut into
the parts of its walk. Positions stay far below the width of `usize`.
-/
import BigRocket.Lib.Search
import BigRocket.Lib.Slice
import BigRocket.Lib.Utf8
import BigRocket.Net.AddressText

namespace BigRocket.Tls

open Lib Net

def tlsHandshake : UInt8 := 0x16
def tlsClientHello : UInt8 := 0x01
def extServerName : Nat := 0x0000
def sniHostName : UInt8 := 0x00
def maxHostLen : Nat := 253

def textBytes (s : Text) : List UInt8 := s.flatMap String.utf8EncodeChar

def hostByte (b : UInt8) : Bool :=
  (97 ≤ b && b ≤ 122) || (65 ≤ b && b ≤ 90) || (48 ≤ b && b ≤ 57) || b = 45 || b = 46 || b = 95

def plausibleHost (u : UnicodeData) (raw : List UInt8) : Option Text := do
  guard ¬ (raw = [] ∨ raw.length > maxHostLen)
  let text ← Utf8.fromUtf8 raw
  let name := text.trim.trimEndMatches '.'
  guard ¬ (name = [] ∨ (textBytes name).length > maxHostLen)
  guard ((textBytes name).all hostByte ∧ '.' ∈ name)
  guard (parseIpAddr name = none)
  return u.toLowercase name

def serverNameTurn (data : List UInt8) (listEnd pos : Nat) : Turn (List UInt8) :=
  if pos + 3 ≤ listEnd then
    match data[pos]?, be16 data (pos + 1) with
    | some kind, some len =>
      if pos + 3 + len > listEnd then .done none
      else if kind = sniHostName then .done (slice data (pos + 3) (pos + 3 + len))
      else .next (pos + 3 + len)
    | _, _ => .done none
  else .done none

def firstServerName (u : UnicodeData) (data : List UInt8) : Option Text := do
  let listLen ← be16 data 0
  let listEnd := min (2 + listLen) data.length
  let raw ← search (serverNameTurn data listEnd) (listEnd + 1) 2
  plausibleHost u raw

def clientHello (buf : List UInt8) : Option (List UInt8) := do
  let first ← buf[0]?
  guard (first = tlsHandshake)
  let recordLen ← be16 buf 3
  let body ← slice buf 5 (min (5 + recordLen) buf.length)
  let kind ← body[0]?
  guard (kind = tlsClientHello)
  let helloLen ← be24 body 1
  slice body 4 (min (4 + helloLen) body.length)

def extensionsAt (hello : List UInt8) : Option (Nat × Nat) := do
  let pos := 2 + 32
  let sessionLen ← hello[pos]?
  let pos := pos + (1 + sessionLen.toNat)
  let cipherLen ← be16 hello pos
  let pos := pos + (2 + cipherLen)
  let compressionLen ← hello[pos]?
  let pos := pos + (1 + compressionLen.toNat)
  let extensionsLen ← be16 hello pos
  return (pos + 2, extensionsLen)

def extensionTurn (hello : List UInt8) (extensionsEnd pos : Nat) : Turn (List UInt8) :=
  if pos + 4 ≤ extensionsEnd then
    match be16 hello pos, be16 hello (pos + 2) with
    | some kind, some len =>
      if pos + 4 + len > extensionsEnd then .done none
      else if kind = extServerName then .done (slice hello (pos + 4) (pos + 4 + len))
      else .next (pos + 4 + len)
    | _, _ => .done none
  else .done none

def serverNameData (buf : List UInt8) : Option (List UInt8) := do
  let hello ← clientHello buf
  let (pos, extensionsLen) ← extensionsAt hello
  let extensionsEnd := min (pos + extensionsLen) hello.length
  search (extensionTurn hello extensionsEnd) (extensionsEnd + 1) pos

def tlsSni (u : UnicodeData) (buf : List UInt8) : Option Text := do
  let data ← serverNameData buf
  firstServerName u data

theorem serverNameTurn_forward (data : List UInt8) (listEnd : Nat) :
    Forward listEnd (serverNameTurn data listEnd) := by
  intro pos pos' h
  unfold serverNameTurn at h
  repeat' split at h
  all_goals cases h
  omega

theorem search_serverNameTurn (data : List UInt8) (listEnd pos : Nat) :
    search (serverNameTurn data listEnd) (listEnd + 1) pos =
      (serverNameTurn data listEnd pos).run (search (serverNameTurn data listEnd) (listEnd + 1)) :=
  search_unfold (serverNameTurn_forward data listEnd) pos

theorem extensionTurn_forward (hello : List UInt8) (extensionsEnd : Nat) :
    Forward extensionsEnd (extensionTurn hello extensionsEnd) := by
  intro pos pos' h
  unfold extensionTurn at h
  repeat' split at h
  all_goals cases h
  omega

theorem search_extensionTurn (hello : List UInt8) (extensionsEnd pos : Nat) :
    search (extensionTurn hello extensionsEnd) (extensionsEnd + 1) pos =
      (extensionTurn hello extensionsEnd pos).run
        (search (extensionTurn hello extensionsEnd) (extensionsEnd + 1)) :=
  search_unfold (extensionTurn_forward hello extensionsEnd) pos

end BigRocket.Tls
