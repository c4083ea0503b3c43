/-
The exit policy of `exitloc.rs`: the countries a tunnel may come out in, and
what is read of the answer that names the country. A deny policy accepts an
answer without a country, since no country is none of the denied ones.
-/
import BigRocket.Lib.TextForms
import BigRocket.Lib.Utf8

namespace BigRocket.Tunnel

open Lib Text List Option

def toAsciiUppercase (s : Text) : Text := s.map Char.toUpper

def isCode (c : Text) : Bool := (Utf8.encode c).length = 2 && c.all Char.isAlpha

structure Policy where
  allow : List Text
  deny : List Text
  deriving DecidableEq

namespace Policy

def parse (raw : Text) : Option Policy :=
  let spec := raw.trim
  if spec = [] ∨ spec.eqIgnoreAsciiCase "any".toList ∨ spec.eqIgnoreAsciiCase "off".toList then
    none
  else
    let body := ((spec.trimStartMatches '!').trimStartMatches '=').trimStartMatches '!'
    let codes := ((body.splitBy (· = ',')).map fun c => toAsciiUppercase c.trim).filter isCode
    if codes = [] then none
    else if spec.head? = some '!' then some ⟨[], codes⟩
    else some ⟨codes, []⟩

def accepts (p : Policy) (loc : Text) : Bool :=
  let code := toAsciiUppercase loc.trim
  if p.deny.contains code then false else p.allow.isEmpty || p.allow.contains code

end Policy

/-! ## The trace answer -/

/-- `str::lines`: a last line that is not ended keeps its `\r`. -/
def lines (s : Text) : List Text :=
  let pieces := s.splitBy (· = '\n')
  let last := pieces.getLast?.getD []
  pieces.dropLast.map (fun l => if l.getLast? = some '\r' then l.dropLast else l) ++
    if last = [] then [] else [last]

def field (body name : Text) : Option Text :=
  (((lines body).findSome? (stripPrefix (name ++ ['=']))).map trim).filter (· ≠ [])

def parseTrace (body : Text) : Option Text :=
  ((field body "loc".toList).map toAsciiUppercase).filter fun c => (Utf8.encode c).length = 2

structure Exit where
  address : Option Text
  country : Option Text
  colo : Option Text
  warp : Bool
  rtt : Nat
  deriving DecidableEq

def parseExit (body : Text) (rtt : Nat) : Exit where
  address := field body "ip".toList
  country := parseTrace body
  colo := field body "colo".toList
  warp := field body "warp".toList = some "on".toList
  rtt := rtt

def readTrace (buf : List UInt8) : List (List UInt8) → List UInt8
  | [] => buf
  | chunk :: rest =>
    let buf := buf ++ chunk
    if 8192 < buf.length ∨ (parseTrace (Utf8.fromUtf8Lossy buf)).isSome then buf
    else readTrace buf rest

def report (answer : Option (List (List UInt8))) (rtt : Nat) : Option Exit :=
  answer.map fun chunks => parseExit (Utf8.fromUtf8Lossy (readTrace [] chunks)) rtt

def unread : Text :=
  "the exit location could not be read, so the policy cannot be honoured".toList

def rejected (loc : Text) : Text :=
  "exit location ".toList ++ loc ++ " does not satisfy the requested policy".toList

def settle (policy : Option Policy) (answer : Option (List (List UInt8))) (rtt : Nat) :
    Except Text Unit :=
  match policy with
  | none => .ok ()
  | some policy =>
    match report answer rtt with
    | none => .error unread
    | some exit =>
      let loc := exit.country.getD []
      if policy.accepts loc then .ok ()
      else .error (rejected loc)

/-! ## A country is compared as it was read -/

theorem isWhitespace_toUpper (c : Char) : isWhitespace c.toUpper = isWhitespace c := by
  by_cases hc : c.toNat < 128
  · exact forall_ascii (P := fun c => isWhitespace c.toUpper = isWhitespace c)
      (by decide +kernel) hc
  · have hsame : c.toUpper = c := by
      refine dif_neg fun h => hc ?_
      have hz : c.toNat ≤ 122 := h.2
      omega
    rw [hsame]

theorem toAsciiUppercase_trim {v : Text} (h : v.Trimmed) :
    toAsciiUppercase (toAsciiUppercase v).trim = toAsciiUppercase v := by
  have htrim : (toAsciiUppercase v).Trimmed := by
    simpa [Trimmed, toAsciiUppercase, isWhitespace_toUpper] using h
  rw [trim_of_trimmed htrim]
  simp [toAsciiUppercase, Char.toUpper_toUpper_eq_toUpper]

theorem parseTrace_trim {body c : Text} (h : parseTrace body = some c) :
    toAsciiUppercase c.trim = c := by
  obtain ⟨hfield, -⟩ := filter_eq_some_iff.mp h
  obtain ⟨v, hv, rfl⟩ := map_eq_some_iff.mp hfield
  obtain ⟨hline, -⟩ := filter_eq_some_iff.mp hv
  obtain ⟨line, -, rfl⟩ := map_eq_some_iff.mp hline
  exact toAsciiUppercase_trim (trimmed_trim line)

/-! ## What a policy lets through -/

namespace Policy

theorem parse_eq {raw : Text} {p : Policy} (h : parse raw = some p) :
    ∃ codes, codes ≠ [] ∧ (∀ c ∈ codes, isCode c = true) ∧ (p = ⟨[], codes⟩ ∨ p = ⟨codes, []⟩) := by
  unfold parse at h
  dsimp only at h
  split at h
  · cases h
  · split at h
    · cases h
    · next hcodes =>
        refine ⟨_, hcodes, fun c hc => of_mem_filter hc, ?_⟩
        split at h
        · cases h
          exact .inl rfl
        · cases h
          exact .inr rfl

/-- A country was read, it has two letters, and the policy names it or, if it
is a deny policy, does not. -/
def Honoured (p : Policy) (exit : Option Exit) : Prop :=
  ∃ e ∈ exit, ∃ c ∈ e.country, isCode c = true ∧ (p.deny = [] → c ∈ p.allow) ∧ c ∉ p.deny

end Policy

theorem settle_ok_iff {p : Policy} {answer : Option (List (List UInt8))} {rtt : Nat} :
    settle (some p) answer rtt = .ok () ↔
      ∃ e ∈ report answer rtt, p.accepts (e.country.getD []) = true := by
  cases h : report answer rtt <;> simp [settle, h]

theorem settle_honoured_iff (raw : Text) (p : Policy) (hp : Policy.parse raw = some p)
    (answer : Option (List (List UInt8))) (rtt : Nat) :
    (settle (some p) answer rtt = .ok () → p.Honoured (report answer rtt)) ↔
      p.deny = [] ∨ report answer rtt = none ∨
        ∃ e ∈ report answer rtt, ∃ c ∈ e.country, isCode c = true := by
  obtain ⟨codes, hne, hcodes, hpolicy⟩ := Policy.parse_eq hp
  have hempty : ([] : Text) ∉ codes := fun h => absurd (hcodes _ h) (by decide)
  rw [settle_ok_iff]
  cases answer with
  | none => simp [report]
  | some chunks =>
    simp only [report, map_some, Policy.Honoured, mem_some_iff, reduceCtorEq,
      false_or, exists_eq_left']
    cases hc : (parseExit (Utf8.fromUtf8Lossy (readTrace [] chunks)) rtt).country with
    | none =>
      have hread : toAsciiUppercase (trim []) = [] := rfl
      rcases hpolicy with rfl | rfl <;> simp [Policy.accepts, hread, hempty, hne]
    | some c =>
      have hread : toAsciiUppercase c.trim = c := parseTrace_trim hc
      rcases hpolicy with rfl | rfl
      · by_cases hcode : c ∈ codes <;> simp [Policy.accepts, hread, hcode, hne, hcodes]
      · by_cases hcode : c ∈ codes <;> simp [Policy.accepts, hread, hcode, hne, hcodes]

theorem settle_honoured_allow :
    Policy.parse "de, fr".toList = some ⟨["DE".toList, "FR".toList], []⟩ ∧
      (settle (some ⟨["DE".toList, "FR".toList], []⟩) (some [[108, 111]]) 5 = .ok () →
        Policy.Honoured ⟨["DE".toList, "FR".toList], []⟩ (report (some [[108, 111]]) 5)) :=
  have hp : Policy.parse "de, fr".toList = some ⟨["DE".toList, "FR".toList], []⟩ := by
    decide +kernel
  ⟨hp, (settle_honoured_iff _ _ hp _ 5).mpr (.inl rfl)⟩

theorem settle_without_country :
    Policy.parse "!DE".toList = some ⟨[], ["DE".toList]⟩ ∧
      settle (some ⟨[], ["DE".toList]⟩) (some [Utf8.encode "ip=1.1.1.1\nlo".toList]) 5 = .ok () ∧
      (report (some [Utf8.encode "ip=1.1.1.1\nlo".toList]) 5).map (·.country) = some none := by
  decide +kernel

end BigRocket.Tunnel
