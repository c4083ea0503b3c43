/-
An address as an entry of a routing list, bare or behind `ip:`. A bare IPv6 text
is cut at its first colon, since the guard against this asks for a dot or a
slash in front of it. `NetNotation` is what the crate `ipnet` documents.
-/
import BigRocket.Net.AddressChars
import BigRocket.Routing.Matcher

namespace BigRocket.Routing

open Lib Net List

def NetNotation (ipNet : Text → Option IpNet) : Prop :=
  ∀ s net, ipNet s = some net → ∃ addr len ip, s = addr ++ '/' :: len ∧
    parseIpAddr addr = some ip ∧ ∀ c ∈ len, c.isDigit = true

theorem parseIpAddr_nil : parseIpAddr [] = none := by decide +kernel

/-! ## Texts that are accepted -/

def isNetChar (c : Char) : Bool := isAddressChar c || c = '/'

variable {c : Char}

theorem isNetChar_lt (h : isNetChar c = true) : c.toNat < 128 := by
  simp only [isNetChar, Bool.or_eq_true, decide_eq_true_eq] at h
  rcases h with h | rfl
  · exact isAddressChar_lt h
  · decide

theorem isNetChar_of_isDigit (h : c.isDigit = true) : isNetChar c = true := by
  have hlt : c.toNat < 128 := by
    simp only [Char.isDigit, Bool.and_eq_true, decide_eq_true_eq] at h
    have hle : c.toNat ≤ 57 := h.2
    omega
  exact Text.forall_ascii (P := fun c => c.isDigit = true → isNetChar c = true)
    (by decide +kernel) hlt h

theorem not_isWhitespace_of_isNetChar (h : isNetChar c = true) : Text.isWhitespace c = false :=
  Text.forall_ascii (P := fun c => isNetChar c = true → Text.isWhitespace c = false)
    (by decide +kernel) (isNetChar_lt h) h

structure Accepted (addr tail : Text) : Prop where
  isAddress : ∃ ip, parseIpAddr addr = some ip
  isTail : tail = [] ∨ ∃ len, tail = '/' :: len ∧ ∀ c ∈ len, c.isDigit = true

variable {r : RuleReader} {text : Text} {net : IpNet}

theorem accepted_of_parseNet (hform : NetNotation r.ipNet)
    (h : parseNet r text = some net) :
    ∃ addr tail, text.trim = addr ++ tail ∧ Accepted addr tail := by
  unfold parseNet at h
  cases hnet : r.ipNet text.trim with
  | some found =>
    obtain ⟨addr, len, ip, hs, hip, hlen⟩ := hform _ _ hnet
    exact ⟨addr, '/' :: len, hs, ⟨ip, hip⟩, .inr ⟨len, rfl, hlen⟩⟩
  | none =>
    rw [hnet] at h
    obtain ⟨ip, hip, -⟩ := Option.map_eq_some_iff.mp h
    exact ⟨text.trim, [], (append_nil _).symm, ⟨ip, hip⟩, .inl rfl⟩

namespace Accepted

variable {addr tail : Text}

theorem isNetChar (h : Accepted addr tail) : ∀ c ∈ addr ++ tail, isNetChar c = true := by
  obtain ⟨⟨ip, hip⟩, htail⟩ := h
  intro c hc
  rcases mem_append.mp hc with hc | hc
  · rw [Routing.isNetChar, isAddressChar_of_parseIpAddr hip c hc]
    rfl
  · rcases htail with rfl | ⟨len, rfl, hlen⟩
    · cases hc
    · rcases mem_cons.mp hc with rfl | hc
      · rfl
      · exact isNetChar_of_isDigit (hlen c hc)

theorem ne_nil (h : Accepted addr tail) : addr ++ tail ≠ [] := by
  intro hnil
  obtain ⟨⟨ip, hip⟩, -⟩ := h
  rw [(append_eq_nil_iff.mp hnil).1, parseIpAddr_nil] at hip
  cases hip

theorem colon_notMem_tail (h : Accepted addr tail) : ':' ∉ tail := by
  intro hcolon
  rcases h.isTail with rfl | ⟨len, rfl, hlen⟩
  · cases hcolon
  · rcases mem_cons.mp hcolon with heq | hcolon
    · cases heq
    · exact absurd (hlen ':' hcolon) (by decide)

theorem not_private (h : Accepted addr tail) :
    (addr ++ tail).eqIgnoreAsciiCase "private".toList = false := by
  rw [Text.eqIgnoreAsciiCase, decide_eq_false_iff_not]
  intro heq
  have hmem : 'p' ∈ (addr ++ tail).toAsciiLowercase := by
    rw [heq]
    decide
  obtain ⟨c, hc, hp⟩ := mem_map.mp hmem
  have hnet := h.isNetChar c hc
  exact Text.forall_ascii (P := fun c => Routing.isNetChar c = true → c.toLower ≠ 'p')
    (by decide +kernel) (isNetChar_lt hnet) hnet hp

end Accepted

/-! ## Behind `ip:` -/

theorem colon_mem_trim_iff : ':' ∈ text.trim ↔ ':' ∈ text := by
  obtain ⟨before, after, heq, hbefore, hafter⟩ := text.exists_blanks
  have hblank : Text.isWhitespace ':' ≠ true := by decide
  constructor
  · intro h
    rw [heq]
    simp [h]
  · intro h
    rw [heq, mem_append, mem_append] at h
    rcases h with h | h | h
    · exact absurd (hbefore _ h) hblank
    · exact h
    · exact absurd (hafter _ h) hblank

theorem splitKind_append (u : UnicodeData) {front : Text} (back : Text) (hcolon : ':' ∉ front)
    (hdot : '.' ∉ front) (hslash : '/' ∉ front) :
    splitKind u (front ++ ':' :: back) = (u.toLowercase front.trim, Text.trim back) := by
  rw [splitKind, Text.splitOnce_append hcolon]
  dsimp only
  rw [if_pos ⟨hdot, hslash⟩]

theorem trim_ip (hne : text.trim ≠ []) :
    ∃ value : Text, Text.trim ("ip:".toList ++ text) = "ip".toList ++ ':' :: value ∧
      value.trim = text.trim := by
  obtain ⟨before, after, heq, hbefore, hafter⟩ := text.exists_blanks
  have htrimmed := text.trimmed_trim
  refine ⟨before ++ text.trim, ?_, ?_⟩
  · have hwhole : "ip:".toList ++ text =
        [] ++ (("ip".toList ++ ':' :: (before ++ text.trim)) ++ after) := by
      conv_lhs => rw [heq]
      simp
    rw [hwhole]
    refine Text.trim_blanks (by simp) ⟨?_, ?_⟩ (by simp) hafter
    · intro c hc
      have hi : c = 'i' := by simpa [eq_comm] using hc
      rw [hi]
      decide
    · intro c hc
      apply htrimmed.2 c
      have hcons : "ip".toList ++ ':' :: (before ++ text.trim) =
          ("ip".toList ++ ':' :: before) ++ text.trim := by simp
      rw [hcons, getLast?_append_of_ne_nil _ hne] at hc
      exact hc
  · simpa using Text.trim_blanks hbefore htrimmed hne (forall_mem_nil _)

theorem parse_ip (hform : NetNotation r.ipNet) (h : parseNet r text = some net) :
    Matcher.parse r ("ip:".toList ++ text) = some (.net net) := by
  obtain ⟨addr, tail, htrim, haccepted⟩ := accepted_of_parseNet hform h
  obtain ⟨value, hentry, hvalue⟩ := trim_ip (htrim ▸ haccepted.ne_nil)
  have hkind : r.unicode.toLowercase (Text.trim "ip".toList) = "ip".toList := by
    rw [show Text.trim "ip".toList = "ip".toList by decide +kernel,
      UnicodeData.toLowercase_ascii (by simp [Text.IsAscii])]
    decide
  have hnet : parseNet r value.trim = some net := by
    rw [← h, parseNet, parseNet, hvalue, Text.trim_trim]
  rw [Matcher.parse, hentry]
  simp only [splitKind_append r.unicode value (by decide : ':' ∉ "ip".toList) (by decide)
    (by decide), hkind, hnet]
  simp

/-! ## Bare -/

theorem parse_noColon (hform : NetNotation r.ipNet) (h : parseNet r text = some net)
    (hcolon : ':' ∉ text) : Matcher.parse r text = some (.net net) := by
  obtain ⟨addr, tail, htrim, haccepted⟩ := accepted_of_parseNet hform h
  have hne := haccepted.ne_nil
  have hhash : (addr ++ tail).head? ≠ some '#' := by
    intro hhead
    exact absurd (haccepted.isNetChar '#' (mem_of_mem_head? hhead)) (by decide)
  have hsplit : splitKind r.unicode (addr ++ tail) = ([], addr ++ tail) := by
    have hnone : ':' ∉ addr ++ tail := by
      rw [← htrim, colon_mem_trim_iff]
      exact hcolon
    rw [splitKind, Text.splitOnce_eq_none hnone]
  have hnet : parseNet r (addr ++ tail) = some net := by
    rw [← h, ← htrim, parseNet, parseNet, Text.trim_trim]
  rw [Matcher.parse, htrim]
  simp only [hne, hhash, or_self, if_false, hsplit, hnet, haccepted.not_private]
  simp

def kinds : List Text :=
  ["domain", "suffix", "full", "exact", "keyword", "regexp", "regex", "ip", "cidr", "port",
    "geoip", "geosite"].map String.toList

theorem hex_notMem_kinds {used : Text} (hused : ∀ c ∈ used, isHex c = true) :
    used.toAsciiLowercase ∉ kinds := by
  intro hmem
  have hletter : ∀ word ∈ kinds, word.any (fun c => !isHex c) = true := by decide +kernel
  obtain ⟨c, hc, hnot⟩ := any_eq_true.mp (hletter _ hmem)
  obtain ⟨d, hd, rfl⟩ := mem_map.mp hc
  rw [isHex_toLower (hused d hd)] at hnot
  cases hnot

theorem parse_unknownKind {kind value : Text}
    (hsplit : splitKind r.unicode text.trim = (kind, value)) (hne : kind ≠ [])
    (hkind : kind ∉ kinds) : Matcher.parse r text = none := by
  simp only [kinds, map_cons, map_nil, mem_cons, not_mem_nil, or_false,
    not_or] at hkind
  obtain ⟨hdomain, hsuffix, hfull, hexact, hkeyword, hregexp, hregex, hip, hcidr, hport, hgeoip,
    hgeosite⟩ := hkind
  simp only [Matcher.parse, hsplit, hne, hdomain, hsuffix, hfull, hexact, hkeyword, hregexp,
    hregex, hip, hcidr, hport, hgeoip, hgeosite, or_self, if_false, ite_self]

theorem parseNet_afterColon (hform : NetNotation r.ipNet) {rest : Text}
    (htrimmed : Text.Trimmed (':' :: rest)) (hrest : rest.head? ≠ some ':') :
    parseNet r (':' :: rest) = none := by
  by_contra hsome
  obtain ⟨found, hfound⟩ := Option.ne_none_iff_exists'.mp hsome
  obtain ⟨addr, tail, heq, haccepted⟩ := accepted_of_parseNet hform hfound
  rw [Text.trim_of_trimmed htrimmed] at heq
  obtain ⟨ip, hip⟩ := haccepted.isAddress
  cases addr with
  | nil =>
    rw [parseIpAddr_nil] at hip
    cases hip
  | cons c more =>
    obtain ⟨rfl, hmore⟩ := List.cons.inj heq
    rcases parseIpAddr_begins hip with hnone | ⟨used, _, hs, hne, hused⟩ | ⟨_, hs, -⟩
    · simp at hnone
    · obtain ⟨d, used, rfl⟩ := exists_cons_of_ne_nil hne
      obtain ⟨rfl, -⟩ := List.cons.inj hs
      exact absurd (hused ':' (by simp)) (by decide)
    · obtain ⟨-, rfl⟩ := List.cons.inj hs
      rw [hmore] at hrest
      simp at hrest

theorem parse_colon (hform : NetNotation r.ipNet) {addr tail : Text}
    (htrim : text.trim = addr ++ tail) (haccepted : Accepted addr tail) (hcolon : ':' ∈ addr) :
    Matcher.parse r text ≠ some (.net net) := by
  obtain ⟨ip, hip⟩ := haccepted.isAddress
  rcases parseIpAddr_begins hip with hnone | ⟨used, rest, rfl, hne, hused⟩ | ⟨rest, rfl, hhead⟩
  · exact absurd hcolon hnone
  · -- A group of hexadecimal digits is in front of the first colon.
    have hnot : ∀ c, isHex c = false → c ∉ used := by
      intro c hc hmem
      rw [hused c hmem] at hc
      cases hc
    have hlower : r.unicode.toLowercase used.trim = used.toAsciiLowercase := by
      rw [Text.trim_of_trimmed (Text.trimmed_of_forall fun c hc =>
          not_isWhitespace_of_isAddressChar (isAddressChar_of_isHex (hused c hc))),
        UnicodeData.toLowercase_ascii fun c hc => isHex_lt (hused c hc)]
    have hsplit := splitKind_append r.unicode (rest ++ tail) (hnot ':' (by decide))
      (hnot '.' (by decide)) (hnot '/' (by decide))
    rw [hlower, ← cons_append, ← append_assoc, ← htrim] at hsplit
    rw [parse_unknownKind hsplit (by simpa [Text.toAsciiLowercase] using hne)
      (hex_notMem_kinds hused)]
    simp
  · -- Nothing is in front of it.
    have hblanks : ∀ c ∈ ':' :: (rest ++ tail), Text.isWhitespace c = false := by
      intro c hc
      exact not_isWhitespace_of_isNetChar (haccepted.isNetChar c (mem_cons_of_mem _ hc))
    have htrimmed := Text.trimmed_of_forall hblanks
    have hsplit : splitKind r.unicode text.trim = ([], ':' :: (rest ++ tail)) := by
      have hempty : r.unicode.toLowercase (Text.trim []) = [] :=
        UnicodeData.toLowercase_ascii (by simp [Text.IsAscii, Text.trim])
      have happend := splitKind_append r.unicode (':' :: (rest ++ tail))
        (not_mem_nil (a := ':')) not_mem_nil not_mem_nil
      rw [hempty, Text.trim_of_trimmed htrimmed] at happend
      rw [htrim]
      exact happend
    have hrest : (rest ++ tail).head? ≠ some ':' := by
      intro h
      cases rest with
      | nil => exact haccepted.colon_notMem_tail (mem_of_mem_head? h)
      | cons c rest => exact hhead h
    simp only [Matcher.parse, hsplit, parseNet_afterColon hform htrimmed hrest]
    split_ifs <;> simp

/-- A bare text that is accepted is the network it is behind `ip:` exactly
when it has no colon. -/
theorem bareAddress_iff_noColon (hform : NetNotation r.ipNet)
    (h : parseNet r text = some net) :
    Matcher.parse r ("ip:".toList ++ text) = some (.net net) ∧
      (Matcher.parse r text = Matcher.parse r ("ip:".toList ++ text) ↔ ':' ∉ text) := by
  have hip := parse_ip hform h
  refine ⟨hip, ?_, fun hcolon => (parse_noColon hform h hcolon).trans hip.symm⟩
  rw [hip]
  intro hbare hcolon
  obtain ⟨addr, tail, htrim, haccepted⟩ := accepted_of_parseNet hform h
  have hmem : ':' ∈ addr ++ tail := by rwa [← htrim, colon_mem_trim_iff]
  have haddr := (mem_append.mp hmem).resolve_right haccepted.colon_notMem_tail
  exact parse_colon hform htrim haccepted haddr hbare

def readNet (s : Text) : Option IpNet := do
  let (addr, len) ← s.splitOnce '/'
  guard (len.all Char.isDigit)
  let n ← len.parseU16
  match ← parseIpAddr addr with
  | .v4 ip => if h : n ≤ 32 then some (.v4 ⟨ip, n, h⟩) else none
  | .v6 ip => if h : n ≤ 128 then some (.v6 ⟨ip, n, h⟩) else none

theorem netNotation_readNet : NetNotation readNet := by
  intro s net h
  obtain ⟨⟨addr, len⟩, hsplit, h⟩ := Option.bind_eq_some_iff.mp h
  obtain ⟨_, hguard, h⟩ := Option.bind_eq_some_iff.mp h
  obtain ⟨n, -, h⟩ := Option.bind_eq_some_iff.mp h
  obtain ⟨ip, hip, -⟩ := Option.bind_eq_some_iff.mp h
  have hdigits : len.all Char.isDigit = true := by simpa using hguard
  exact ⟨addr, len, ip, Text.eq_of_splitOnce hsplit, hip, all_eq_true.mp hdigits⟩

def netReader : RuleReader := ⟨.basicLatin, fun _ => none, readNet⟩

theorem bareAddress_ipv4Net :
    Matcher.parse netReader "10.0.0.0/8".toList =
      some (.net (.v4 ⟨0x0a000000, 8, by decide⟩)) := by
  have hnet : parseNet netReader "10.0.0.0/8".toList =
      some (.v4 ⟨0x0a000000, 8, by decide⟩) := rfl
  obtain ⟨hip, hbare⟩ := bareAddress_iff_noColon netNotation_readNet hnet
  exact (hbare.mpr (by decide)).trans hip

theorem bareIpv6_lost :
    (parseNet netReader "fe80::1".toList).isSome = true ∧
      (Matcher.parse netReader "ip:fe80::1".toList).isSome = true ∧
      (Matcher.parse netReader "fe80::1".toList).isNone = true := by
  decide +kernel

end BigRocket.Routing
