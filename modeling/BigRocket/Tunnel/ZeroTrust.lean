/-
How `zerotrust.rs` looks for the token of an enrolment: in the query of a URL
and in a cookie header.
-/
import BigRocket.Lib.Base64
import BigRocket.Lib.Percent

namespace BigRocket.Tunnel.ZeroTrust

open Lib

section Seek

variable {α β γ : Type} (read : α → Option β) (found : β → Option γ)

/-- A loop that leaves with the first entry found; its `?` leaves it with
nothing at an entry that does not read. -/
def seek : List α → Option γ
  | [] => none
  | a :: rest => do
    let b ← read a
    (found b).or (seek rest)

def firstFound (entries : List α) : Option γ := entries.findSome? fun a => (read a).bind found

/-- If there is an entry to be found, all those before it read. -/
def Unhidden (entries : List α) : Prop :=
  firstFound read found entries = none ∨
    ∀ a ∈ entries.takeWhile fun a => ((read a).bind found).isNone, (read a).isSome

theorem seek_eq_firstFound_iff (entries : List α) :
    seek read found entries = firstFound read found entries ↔ Unhidden read found entries := by
  induction entries with
  | nil => simp [seek, firstFound, Unhidden]
  | cons a rest ih =>
    simp only [Unhidden, firstFound] at ih ⊢
    cases hread : read a with
    | none => simp [seek, hread, eq_comm (a := none)]
    | some b =>
      cases hfound : found b with
      | none => simp [seek, hread, hfound, ih]
      | some c => simp [seek, hread, hfound]

end Seek

/-- `u8::from_str_radix` of two bytes: of the digits, the first may be a plus
sign. -/
def fromStrRadix16 (a b : UInt8) : Option UInt8 := do
  let high ← if a = 43 then some 0 else hexValue (Char.ofNat a.toNat)
  let low ← hexValue (Char.ofNat b.toNat)
  return UInt8.ofNat (16 * high + low)

def percentDecodeBytes : List UInt8 → List UInt8
  | 37 :: a :: b :: rest =>
    match fromStrRadix16 a b with
    | some byte => byte :: percentDecodeBytes rest
    | none => 37 :: percentDecodeBytes (a :: b :: rest)
  | 43 :: rest => 32 :: percentDecodeBytes rest
  | other :: rest => other :: percentDecodeBytes rest
  | [] => []

def percentDecode (raw : Text) : Text :=
  Utf8.fromUtf8Lossy (percentDecodeBytes (Utf8.encode raw))

def valueOf (key : Text) (pair : Text × Text) : Option Text :=
  if pair.1 = key then some (percentDecode pair.2) else none

def queryValue (url key : Text) : Option Text := do
  let (_, query) ← Text.splitOnce '?' url
  seek (Text.splitOnce '=') (valueOf key) (Text.splitBy (· = '&') query)

/-! ## Tokens -/

/-- A symbol that stands for no more than bits past the end has to be zero
there. -/
def decodeSextets : List Nat → Option (List UInt8)
  | [] => some []
  | [a, b] => if b % 16 = 0 then some [UInt8.ofNat (4 * a + b / 16)] else none
  | [a, b, c] =>
    if c % 4 = 0 then some [UInt8.ofNat (4 * a + b / 16), UInt8.ofNat (16 * (b % 16) + c / 4)]
    else none
  | a :: b :: c :: d :: rest => do
    let bytes ← decodeSextets rest
    return UInt8.ofNat (4 * a + b / 16) :: UInt8.ofNat (16 * (b % 16) + c / 4) ::
      UInt8.ofNat (64 * (c % 4) + d) :: bytes
  | [_] => none

def decodeSegment (segment : Text) : Option (List UInt8) := do
  let sextets ← segment.mapM fun c =>
    (List.range 64).find? fun v => Base64.symbol { urlSafe := true, pad := false } v = c
  decodeSextets sextets

def looksLikeJwt (token : Text) : Bool :=
  let token := token.trim
  let segments := token.splitBy (· = '.')
  (Utf8.encode token).length ≥ 32 && segments.length = 3 && !segments.any List.isEmpty &&
    token.all (fun c => c.isAlphanum || c = '.' || c = '-' || c = '_') &&
    (segments.head?.bind decodeSegment).isSome

def cookieValue (part : Text) : Option Text :=
  let entry := part.trim
  (Text.stripPrefix "CF_Authorization=".toList entry).or
    (Text.stripPrefix "cf_authorization=".toList entry)

def tokenOf (value : Text) : Option Text := if looksLikeJwt value then some value else none

def extractJwtFromCookie (header : Text) : Option Text :=
  seek cookieValue tokenOf (Text.splitBy (· = ';') header)

/-! ## What is found -/

def pairs (url : Text) : List Text :=
  (Text.splitOnce '?' url).elim [] fun (_, query) => Text.splitBy (· = '&') query

def cookies (header : Text) : List Text := Text.splitBy (· = ';') header

theorem found_iff_unhidden (url key header : Text) :
    (queryValue url key = firstFound (Text.splitOnce '=') (valueOf key) (pairs url) ↔
        Unhidden (Text.splitOnce '=') (valueOf key) (pairs url)) ∧
      (extractJwtFromCookie header = firstFound cookieValue tokenOf (cookies header) ↔
        Unhidden cookieValue tokenOf (cookies header)) := by
  refine ⟨?_, seek_eq_firstFound_iff cookieValue tokenOf (cookies header)⟩
  rw [← seek_eq_firstFound_iff, queryValue, pairs]
  cases Text.splitOnce '?' url <;> rfl

def sampleToken : Text := "eyJhbGciOiJIUzI1NiJ9.eyJleHAiOjF9.c2ln".toList

theorem hidden_entries :
    queryValue "https://team/x?debug&nonce=abc".toList "nonce".toList = none ∧
      firstFound (Text.splitOnce '=') (valueOf "nonce".toList)
        (pairs "https://team/x?debug&nonce=abc".toList) = some "abc".toList ∧
      extractJwtFromCookie ("session=1; CF_Authorization=".toList ++ sampleToken) = none ∧
      firstFound cookieValue tokenOf
        (cookies ("session=1; CF_Authorization=".toList ++ sampleToken)) = some sampleToken := by
  decide +kernel

end BigRocket.Tunnel.ZeroTrust
