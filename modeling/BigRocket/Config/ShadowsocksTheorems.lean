/-
Percent escapes in the user part of a Shadowsocks link. The parser tells the
forms apart by the decoded part, but decodes the base64 of the part as it was
written.
-/
import BigRocket.Lib.PercentForms
import BigRocket.Config.LinkParsers
import BigRocket.Config.LooseBase64Theorems

namespace BigRocket.Config

open Lib Lib.Kotlin LinkSyntax List

variable {jvm : Jvm} {s t user rest scheme : Text}

theorem decodeUrl_form (h : PercentForm s t) : decodeUrl jvm t = s := by
  have hdecoded : urlDecode jvm (PercentForm.escapePlus t) = some s :=
    h.escapePlus_form.urlDecode_form (PercentForm.plus_notMem_escapePlus t)
  exact (congrArg (Option.getD · t) hdecoded).trans rfl

theorem decodeLoose_of_percent (h : '%' ∈ t) : decodeLoose t = none := by
  have hmem : '%' ∈ t.filter fun c => !isWhitespace c :=
    mem_filter.mpr ⟨h, by decide⟩
  have hnot : looksBase64 (t.filter fun c => !isWhitespace c) = false := by
    rw [looksBase64, Bool.and_eq_false_iff]
    right
    rw [all_eq_false]
    exact ⟨'%', hmem, by decide⟩
  rw [decodeLoose]
  simp only [hnot, or_true, if_true]

namespace ShadowsocksLinkParser

def sip002 (scheme user rest : Text) : Text := scheme ++ "://".toList ++ (user ++ '@' :: rest)

def hostPortText (rest : Text) : Text :=
  trimEndOf ['/'] (substringBefore '?' (substringBefore '#' rest))

variable {c : Char}

theorem substringBefore_user (h : c ∉ user) (ht : c ≠ '@') (rest : Text) :
    substringBefore c (user ++ '@' :: rest) = user ++ '@' :: substringBefore c rest := by
  rw [substringBefore, takeWhile_append_of_pos, takeWhile_cons_of_pos]
  · rfl
  · simpa using ht.symm
  · intro d hd
    simpa using fun heq : d = c => h (heq ▸ hd)

theorem trimEndOf_user (user rest : Text) :
    trimEndOf ['/'] (user ++ '@' :: rest) = user ++ '@' :: trimEndOf ['/'] rest := by
  have hsplit : user ++ '@' :: rest = (user ++ ['@']) ++ rest := by simp
  rw [trimEndOf, hsplit, rdropWhile_append_of_getLast]
  · simp [trimEndOf]
  · intro c hc
    rw [getLast?_concat] at hc
    cases hc
    decide

theorem parse_of_no_password (hscheme : ':' ∉ scheme) (hhash : '#' ∉ user) (hquery : '?' ∉ user)
    {method hostPort : Text}
    (h : credentials jvm (user ++ '@' :: hostPortText rest) = .ok (method, [], hostPort)) :
    parse jvm (sip002 scheme user rest) =
      .error ⟨"لینک shadowsocks متد یا رمز عبور ندارد".toList⟩ := by
  have hcut : ((cut [':', '/', '/'] (sip002 scheme user rest)).map Prod.snd).getD
      (sip002 scheme user rest) = user ++ '@' :: rest := by
    have hfound := cut_append (d := ['/', '/']) (b := user ++ '@' :: rest) hscheme
    rw [sip002, show "://".toList = [':', '/', '/'] from rfl, hfound]
    rfl
  have hbody : trimEndOf ['/'] (substringBefore '?' (substringBefore '#' (user ++ '@' :: rest))) =
      user ++ '@' :: hostPortText rest := by
    rw [substringBefore_user hhash (by decide), substringBefore_user hquery (by decide),
      trimEndOf_user]
    rfl
  rw [parse]
  simp only [hcut, hbody, h, bind, Except.bind, or_true, if_true]
  rfl

theorem credentials_of_percent {text hostPort : Text} (hform : PercentForm text user)
    (hpercent : '%' ∈ user) (hcolon : ':' ∉ text) (hat : '@' ∉ hostPort) :
    credentials jvm (user ++ '@' :: hostPort) = .ok (text, [], hostPort) := by
  have hbefore : substringBefore ':' text = text := substringBefore_of_notMem hcolon
  have hafter : substringAfter ':' text [] = [] := by
    have hdrop : text.dropWhile (· ≠ ':') = [] := by
      rw [dropWhile_eq_nil_iff]
      intro c hc
      simpa using fun heq : c = ':' => hcolon (heq ▸ hc)
    rw [substringAfter, hdrop]
  rw [credentials, if_pos (by simp)]
  simp only [substringBeforeLast_append hat, substringAfterLast_append hat, decodeUrl_form hform,
    decodeLoose_of_percent hpercent, Option.getD_none, ite_self, hbefore, hafter]

theorem symbol_ne (variant : Base64.Variant) :
    ∀ v < 64, Base64.symbol variant v ∉ ['%', ':', '@', '#', '?'] := by
  obtain ⟨urlSafe, pad⟩ := variant
  cases urlSafe with
  | false => decide +revert
  | true => decide +revert

theorem mem_encode_ne {variant : Base64.Variant} {bytes : List UInt8}
    (hc : c ∈ Base64.encode variant bytes) : c ∉ ['%', ':', '@', '#', '?'] := by
  rcases LooseBase64.mem_encode hc with ⟨v, hv, rfl⟩ | rfl
  · exact symbol_ne variant v hv
  · decide

theorem notMem_form {variant : Base64.Variant} {bytes : List UInt8}
    (hform : PercentForm (Base64.encode variant bytes) user) (hc : c ∈ [':', '@', '#', '?']) :
    c ∉ user := by
  intro hmem
  rcases hform.mem hmem with hsymbol | rfl | hdigit
  · exact mem_encode_ne hsymbol (mem_cons_of_mem _ hc)
  · exact absurd hc (by decide)
  · have hnone : ([':', '@', '#', '?'].all fun c => (hexValue c).isNone) = true := by decide
    have hc' := all_eq_true.mp hnone c hc
    rw [Option.isNone_iff_eq_none] at hc'
    rw [hc'] at hdigit
    cases hdigit

/-- **Percent escapes in the user part change the link**: of all the forms of
a base64 user part, the one without an escape alone gives the same
outbound. -/
theorem sameOutbound_iff_unescaped (jvm : Jvm) (scheme rest method password user : Text)
    (variant : Base64.Variant) (config : ParsedConfig) (hscheme : ':' ∉ scheme)
    (hrest : '@' ∉ substringBefore '?' (substringBefore '#' rest))
    (hvalid : parse jvm (sip002 scheme
      (Base64.encode variant (Utf8.encode (method ++ ':' :: password))) rest) = .ok config)
    (hform : PercentForm (Base64.encode variant (Utf8.encode (method ++ ':' :: password))) user) :
    (∃ config', parse jvm (sip002 scheme user rest) = .ok config' ∧
        config'.outbound = config.outbound) ↔
      user = Base64.encode variant (Utf8.encode (method ++ ':' :: password)) := by
  constructor
  · rintro ⟨config', hparse, -⟩
    by_contra hne
    have hat : '@' ∉ hostPortText rest := fun hmem =>
      hrest (( rdropWhile_prefix _ _).subset hmem)
    have hcredentials : credentials jvm (user ++ '@' :: hostPortText rest) =
        .ok (Base64.encode variant (Utf8.encode (method ++ ':' :: password)), [],
          hostPortText rest) :=
      credentials_of_percent hform (hform.percent_mem hne)
        (fun hmem => mem_encode_ne hmem (by decide)) hat
    rw [parse_of_no_password hscheme (notMem_form hform (by decide))
      (notMem_form hform (by decide)) hcredentials] at hparse
    cases hparse
  · rintro rfl
    exact ⟨config, hvalid, rfl⟩

def padded : Text := "YWVzLTI1Ni1nY206cGFzcw==".toList

theorem padded_eq : padded =
    Base64.encode ⟨false, true⟩ (Utf8.encode ("aes-256-gcm".toList ++ ':' :: "pass".toList)) := by
  decide +kernel

theorem parse_padded : ∃ config,
    parse .basicLatin (sip002 "ss".toList padded "1.1.1.1:8388".toList) = .ok config := by
  have haccepted :
      (parse .basicLatin (sip002 "ss".toList padded "1.1.1.1:8388".toList)).isOk = true := by
    decide +kernel
  cases hparse : parse .basicLatin (sip002 "ss".toList padded "1.1.1.1:8388".toList) with
  | error e =>
    rw [hparse] at haccepted
    cases haccepted
  | ok config => exact ⟨config, rfl⟩

theorem sameOutbound_padded :
    ∃ config, parse .basicLatin (sip002 "ss".toList padded "1.1.1.1:8388".toList) = .ok config ∧
      ∃ config', parse .basicLatin (sip002 "ss".toList padded "1.1.1.1:8388".toList) = .ok config' ∧
        config'.outbound = config.outbound := by
  obtain ⟨config, hparse⟩ := parse_padded
  have hform : PercentForm padded padded := .refl (by decide)
  refine ⟨config, hparse, ?_⟩
  exact (sameOutbound_iff_unescaped .basicLatin "ss".toList "1.1.1.1:8388".toList
    "aes-256-gcm".toList "pass".toList padded ⟨false, true⟩ config (by decide) (by decide)
    (padded_eq ▸ hparse) (padded_eq ▸ hform)).mpr padded_eq

def paddingEscaped : Text := "YWVzLTI1Ni1nY206cGFzcw%3D%3D".toList

theorem percentForm_paddingEscaped : PercentForm padded paddingEscaped := by
  have hfront : PercentForm "YWVzLTI1Ni1nY206cGFzcw".toList "YWVzLTI1Ni1nY206cGFzcw".toList :=
    .refl (by decide)
  have hback : PercentForm "==".toList "%3D%3D".toList :=
    .escape (by decide) (by decide) (by decide)
      (.escape (by decide) (by decide) (by decide) .nil)
  exact hfront.append hback

theorem paddingEscaped_refused :
    PercentForm padded paddingEscaped ∧
      (parse .basicLatin (sip002 "ss".toList padded "1.1.1.1:8388".toList)).toOption.map
        (·.server) = some "1.1.1.1:8388".toList ∧
      parse .basicLatin (sip002 "ss".toList paddingEscaped "1.1.1.1:8388".toList) =
        .error ⟨"لینک shadowsocks متد یا رمز عبور ندارد".toList⟩ := by
  refine ⟨percentForm_paddingEscaped, by decide +kernel, ?_⟩
  have hcredentials : credentials .basicLatin
      (paddingEscaped ++ '@' :: hostPortText "1.1.1.1:8388".toList) =
        .ok (padded, [], hostPortText "1.1.1.1:8388".toList) :=
    credentials_of_percent percentForm_paddingEscaped (by decide) (by decide) (by decide)
  exact parse_of_no_password (by decide) (by decide) (by decide) hcredentials

end ShadowsocksLinkParser

end BigRocket.Config
