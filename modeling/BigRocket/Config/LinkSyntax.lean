/-
The text helpers of the link parsers. `UriParts.of` looks for the first `://`,
the first `#` behind it, the first `?` before that, the last `@` before that;
all but the host is decoded afterwards.
-/
import BigRocket.Lib.Percent
import BigRocket.Lib.LinkedMap

namespace BigRocket.Config

open Lib Lib.Kotlin

structure ConfigParseException where
  message : Text
  deriving DecidableEq

namespace LooseBase64

def alphabet : Text := "ABCDEFGHIJKLMNOPQRSTUVWXYZabcdefghijklmnopqrstuvwxyz0123456789+/".toList

def reverse (c : Char) : Option Nat :=
  if c = '-' then some 62 else if c = '_' then some 63 else alphabet.idxOf? c

/-- The bits that are read and not yet written are the low `bits` of
`buffer`. -/
structure State where
  buffer : Nat
  bits : Nat
  out : List UInt8

def State.push (t : State) (v : Nat) : State :=
  let buffer := (t.buffer <<< 6 ||| v) &&& 0xFFFFFF
  let bits := t.bits + 6
  if 8 ≤ bits then
    { buffer := buffer, bits := bits - 8,
      out := t.out ++ [UInt8.ofNat (buffer >>> (bits - 8) &&& 0xFF)] }
  else { buffer := buffer, bits := bits, out := t.out }

def State.pushAll (t : State) : Text → Option State
  | [] => some t
  | c :: s => do
      let v ← reverse c
      (t.push v).pushAll s

def decode (text : Text) : Option (List UInt8) := do
  let s := trimEndOf ['='] (text.filter fun c => !isWhitespace c)
  if s = [] ∨ s.length % 4 = 1 then none
  else do
    let t ← ({ buffer := 0, bits := 0, out := [] } : State).pushAll s
    return t.out

end LooseBase64

namespace LinkSyntax

/-! ## Texts -/

def isInvisible (c : Char) : Bool :=
  c.toNat = 0x00AD || c.toNat = 0x061C || c.toNat = 0x180E || c.toNat = 0x200B ||
    c.toNat = 0x200E || c.toNat = 0x200F || (0x202A ≤ c.toNat && c.toNat ≤ 0x202E) ||
    (0x2060 ≤ c.toNat && c.toNat ≤ 0x2064) || (0x2066 ≤ c.toNat && c.toNat ≤ 0x2069) ||
    c.toNat = 0xFEFF

def replaceCrLf : Text → Text
  | [] => []
  | '\r' :: '\n' :: s => '\n' :: replaceCrLf s
  | c :: s => c :: replaceCrLf s

def replaceChar (old new : Char) (s : Text) : Text := s.map fun c => if c = old then new else c

def cleanInput (text : Text) : Text :=
  trim (replaceChar '\u202F' ' ' (replaceChar '\u00A0' ' '
    ((replaceChar '\r' '\n' (replaceCrLf text)).filter fun c => !isInvisible c)))

/-- A literal `+` stays a plus. What does not decode stays as it is. -/
def decodeUrl (jvm : Jvm) (s : Text) : Text :=
  (urlDecode jvm (s.flatMap fun c => if c = '+' then "%2B".toList else [c])).getD s

def hostPort (host : Text) (port : Int) : Text :=
  if ':' ∈ host ∧ host.head? ≠ some '[' then
    '[' :: host ++ [']', ':'] ++ (toString port).toList
  else host ++ ':' :: (toString port).toList

def isDomain (jvm : Jvm) (host : Text) : Bool := host.any jvm.isLetter && !(host.contains ':')

def badIpv6 : ConfigParseException := ⟨"آدرس IPv6 نامعتبر است".toList⟩
def noPort : ConfigParseException := ⟨"لینک پورت معتبر ندارد".toList⟩
def noServer : ConfigParseException := ⟨"لینک آدرس سرور ندارد".toList⟩
def noUserId : ConfigParseException := ⟨"لینک شناسه کاربر ندارد".toList⟩
def noUser : ConfigParseException := ⟨"لینک شناسه کاربر یا رمز عبور ندارد".toList⟩

def portOf (jvm : Jvm) (text : Text) : Option Nat :=
  match toIntOrNull jvm text with
  | some n => if 1 ≤ n ∧ n ≤ 65535 then some n.toNat else none
  | none => none

def cutHostPort (t : Text) : Except ConfigParseException (Text × Text) :=
  if t.head? = some '[' then
    if ']' ∈ t then
      .ok ((substringBefore ']' t).drop 1, ((cut [']', ':'] t).map Prod.snd).getD [])
    else .error badIpv6
  else .ok (substringBeforeLast ':' t [], if ':' ∈ t then substringAfterLast ':' t else [])

def splitHostPort (jvm : Jvm) (text : Text) : Except ConfigParseException (Text × Nat) := do
  let (host, portText) ← cutHostPort (trim text)
  match portOf jvm (trim portText) with
  | none => throw noPort
  | some port => if isBlank host then throw noServer else return (trim host, port)

def requireUserId (id : Text) : Except ConfigParseException Unit :=
  if isBlank id then throw noUserId else pure ()

def looksBase64 (s : Text) : Bool :=
  s ≠ [] && s.all fun c => ('A' ≤ c && c ≤ 'Z') || ('a' ≤ c && c ≤ 'z') || ('0' ≤ c && c ≤ '9') ||
    "+/=-_".toList.contains c

def decodeLoose (text : Text) : Option Text := do
  let clean := text.filter fun c => !isWhitespace c
  if clean = [] ∨ looksBase64 clean = false then none
  else do
    let bytes ← LooseBase64.decode clean
    let s ← Utf8.fromUtf8 bytes
    if s.any fun c => isISOControl c && c ≠ '\n' && c ≠ '\r' && c ≠ '\t' then none
    else return s

end LinkSyntax

/-! ## The parts of a link -/

abbrev QueryMap : Type := LinkedMap Text Text

structure UriParts where
  user : Text
  host : Text
  port : Nat
  query : QueryMap
  name : Text
  deriving DecidableEq

namespace UriParts

open LinkSyntax

def q (u : UriParts) (keys : List Text) : Text :=
  (keys.findSome? fun k => (u.query.get? k).filter (· ≠ [])).getD []

def addPair (jvm : Jvm) (query : QueryMap) (pair : Text) : QueryMap :=
  if pair = [] then query
  else
    let k := trim (decodeUrl jvm (substringBefore '=' pair))
    let v := if '=' ∈ pair then decodeUrl jvm (substringAfter '=' pair pair) else []
    if k ≠ [] then query.putIfAbsent k v else query

def of (jvm : Jvm) (link : Text) (needUser : Bool) : Except ConfigParseException UriParts := do
  let rest := ((cut [':', '/', '/'] link).map Prod.snd).getD link
  let name := if '#' ∈ rest then decodeUrl jvm (substringAfter '#' rest rest) else []
  let rest := substringBefore '#' rest
  let queryText := if '?' ∈ rest then substringAfter '?' rest rest else []
  let rest := trimEndOf ['/'] (substringBefore '?' rest)
  if needUser ∧ '@' ∉ rest then throw noUser
  let user := if '@' ∈ rest then decodeUrl jvm (substringBeforeLast '@' rest []) else []
  let (host, port) ← splitHostPort jvm (if '@' ∈ rest then substringAfterLast '@' rest else rest)
  let query := (queryText.splitOn '&').foldl (addPair jvm) .empty
  return { user := user, host := host, port := port, query := query, name := name }

end UriParts

end BigRocket.Config
