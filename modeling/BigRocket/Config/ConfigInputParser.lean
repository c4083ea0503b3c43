/-
From whatever the user pasted to proxy configs: `readInput` goes through the
layers of base64 until it has links or a JSON text, and `parseInput` makes
configs of them. How regular expressions ignore case is `Jvm.fold`.
-/
import BigRocket.Config.JsonConfigParser

namespace BigRocket.Config

open Lib Lib.Kotlin LinkSyntax

namespace ConfigInputParser

def maxInputChars : Nat := 2000000
def maxConfigs : Nat := 1000
def maxBase64Depth : Nat := 3

/-! ## Schemes -/

inductive Parser where
  | vless | vmess | trojan | shadowsocks | socks | wireguard
  deriving DecidableEq

def Parser.schemes : Parser → List Text
  | vless => ["vless".toList]
  | vmess => ["vmess".toList]
  | trojan => ["trojan".toList]
  | shadowsocks => ["ss".toList]
  | socks => ["socks".toList, "socks5".toList]
  | wireguard => ["wireguard".toList, "wg".toList]

def Parser.parse (jvm : Jvm) (org : OrgJson) :
    Parser → Text → Except ConfigParseException ParsedConfig
  | vless => VlessLinkParser.parse jvm org
  | vmess => VmessLinkParser.parse jvm org
  | trojan => TrojanLinkParser.parse jvm org
  | shadowsocks => ShadowsocksLinkParser.parse jvm
  | socks => SocksLinkParser.parse jvm
  | wireguard => WireGuardLinkParser.parse jvm

def parsers : List Parser := [.vless, .vmess, .trojan, .shadowsocks, .socks, .wireguard]

def bySchema : List (Text × Parser) := parsers.flatMap fun p => p.schemes.map fun s => (s, p)

def schemes : List Text := bySchema.map Prod.fst

def sortedSchemes : List Text := schemes.insertionSort fun a b => b.length ≤ a.length

/-! ## Where links start -/

def isSchemeChar (jvm : Jvm) (c : Char) : Bool :=
  match jvm.fold c with
  | [d] => d.isAlphanum || d = '+' || d = '.' || d = '-'
  | _ => false

def matchLiteral (jvm : Jvm) (literal : Text) : Text → Option Nat
  | [] => if literal = [] then some 0 else none
  | c :: s =>
    if literal = [] then some 0
    else if jvm.fold c ≠ [] ∧ (jvm.fold c).isPrefixOf literal then
      (matchLiteral jvm (literal.drop (jvm.fold c).length) s).map (· + 1)
    else none

/-- The length of the match of `LINK_START` at the front of a text, `before`
being the character in front of it. -/
def linkStart (jvm : Jvm) (before : Option Char) (s : Text) : Option Nat :=
  if before.any (isSchemeChar jvm) then none
  else sortedSchemes.findSome? fun scheme =>
    (matchLiteral jvm scheme s).bind fun n =>
      if [':', '/', '/'].isPrefixOf (s.drop n) then some (n + 3) else none

/-- `findAll`: the places of the matches, of which no two overlap. The first
`skip` characters belong to the last match. -/
def findStarts (jvm : Jvm) (before : Option Char) (skip place : Nat) : Text → List Nat
  | [] => []
  | c :: s =>
    match skip with
    | skip + 1 => findStarts jvm (some c) skip (place + 1) s
    | 0 =>
      match linkStart jvm before (c :: s) with
      | some n => place :: findStarts jvm (some c) (n - 1) (place + 1) s
      | none => findStarts jvm (some c) 0 (place + 1) s

def linkTrailers : Text := "\"'`)]\x7d>,;.،؛»”’".toList

def quotes : Text := "\"'`".toList

def cutAtSpace (link : Text) : Text :=
  match link.findIdx? isWhitespace, link.idxOf? '#' with
  | some space, some hash => if space < hash then link.take space else link
  | some space, none => link.take space
  | none, _ => link

def trimLink (s : Text) : Text :=
  let link := cutAtSpace (trim s)
  if '#' ∈ link then trimEndOf quotes link else trimEndOf linkTrailers link

def hasBody (link : Text) : Bool := !isBlank (((cut [':', '/', '/'] link).map Prod.snd).getD link)

def pieces (starts : List Nat) (line : Text) : List Text :=
  (starts.zip (starts.tail ++ [line.length])).map fun ends => substring line ends.1 ends.2

def extractLinks (jvm : Jvm) (line : Text) : List Text :=
  ((pieces (findStarts jvm none 0 0 line) line).map trimLink).filter hasBody

/-! ## What the text looks like -/

def mtprotoUnsupported : ConfigParseException :=
  ⟨("پروکسی MTProto فقط ترافیک تلگرام را عبور می‌دهد و برای تونل یا زنجیره قابل استفاده نیست؛ " ++
    "آن را در تنظیمات پروکسی خود تلگرام وارد کنید").toList⟩

def napsternetUnsupported : ConfigParseException :=
  ⟨"فایل‌های NapsternetV (npvt) هنوز پشتیبانی نمی‌شوند".toList⟩

def tooLarge : ConfigParseException := ⟨"ورودی بیش از حد بزرگ است".toList⟩

def emptyInput : ConfigParseException := ⟨"ورودی خالی است".toList⟩

def notFound : ConfigParseException :=
  ⟨("کانفیگ پشتیبانی‌شده‌ای یافت نشد: لینک vless/vmess/trojan/ss/socks/wireguard، " ++
    "JSON کامل Xray یا لینک اشتراک وارد کنید").toList⟩

/-- `t.me/proxy?...&secret=...`, its https form, and tg://proxy|socks. -/
def looksLikeMtProto (jvm : Jvm) (link : Text) : Bool :=
  let lower := jvm.lowercase (trim link)
  "tg://proxy".toList.isPrefixOf lower || "tg://socks".toList.isPrefixOf lower ||
    (("https://t.me/".toList.isPrefixOf lower || "http://t.me/".toList.isPrefixOf lower ||
        "t.me/".toList.isPrefixOf lower || contains "telegram.me/proxy".toList lower) &&
      contains "proxy".toList lower && contains "secret=".toList lower)

def startsWithIgnoreCase (jvm : Jvm) : Text → Text → Bool
  | [], _ => true
  | _ :: _, [] => false
  | d :: literal, c :: s => jvm.same d c && startsWithIgnoreCase jvm literal s

def containsIgnoreCase (jvm : Jvm) (literal : Text) : Text → Bool
  | [] => literal = []
  | c :: s => startsWithIgnoreCase jvm literal (c :: s) || containsIgnoreCase jvm literal s

def looksLikeNapsternet (jvm : Jvm) (text : Text) : Bool :=
  let t := trimStart text
  "NPVT1".toList.isPrefixOf t || "NPVTSUB1".toList.isPrefixOf t || "NPVO1".toList.isPrefixOf t ||
    "NPVS".toList.isPrefixOf t || startsWithIgnoreCase jvm "npvt://".toList t

def startsJson (text : Text) : Bool := text.head? = some '{' || text.head? = some '['

def looksLikeConfigText (jvm : Jvm) (decoded : Text) : Bool :=
  startsJson (trimStart decoded) ||
    schemes.any fun scheme => containsIgnoreCase jvm (scheme ++ [':', '/', '/']) decoded

/-! ## The two halves -/

inductive Input where
  | json (text : Text)
  | links (links : List Text)
  deriving DecidableEq

def allLinks (jvm : Jvm) (text : Text) : List Text :=
  (((lines text).map trim).filter (· ≠ [])).flatMap (extractLinks jvm)

inductive Look where
  | found (input : Input)
  | unread (text : Text)

def look (jvm : Jvm) (input : Text) : Except ConfigParseException Look :=
  if length input > maxInputChars then .error tooLarge
  else
    let text := cleanInput input
    if text = [] then .error emptyInput
    else if looksLikeMtProto jvm text then .error mtprotoUnsupported
    else if looksLikeNapsternet jvm text then .error napsternetUnsupported
    else if startsJson text then .ok (.found (.json text))
    else
      let links := allLinks jvm text
      if links ≠ [] then .ok (.found (.links links)) else .ok (.unread text)

/-- A subscription body: the whole text is base64 of a list of links, or of
JSON. -/
def unwrap (jvm : Jvm) (text : Text) : Option Text :=
  (decodeLoose text).filter fun decoded => decoded ≠ text && looksLikeConfigText jvm decoded

def readInput (jvm : Jvm) : Nat → Text → Except ConfigParseException Input
  | layers, input =>
    match look jvm input, layers with
    | .error e, _ => .error e
    | .ok (.found f), _ => .ok f
    | .ok (.unread _), 0 => .error notFound
    | .ok (.unread text), layers + 1 =>
      match unwrap jvm text with
      | some decoded => readInput jvm layers decoded
      | none => .error notFound

def parseLink (jvm : Jvm) (org : OrgJson) (link : Text) :
    Except ConfigParseException ParsedConfig :=
  let trimmed := trim link
  let scheme := jvm.lowercase (((cut [':', '/', '/'] trimmed).map Prod.fst).getD trimmed)
  match bySchema.lookup scheme with
  | some parser => parser.parse jvm org trimmed
  | none =>
    if scheme = "tg".toList ∨ looksLikeMtProto jvm trimmed then .error mtprotoUnsupported
    else .error ⟨"نوع لینک پشتیبانی نمی‌شود: ".toList ++ scheme ++ [':', '/', '/']⟩

def parseLoop (jvm : Jvm) (org : OrgJson) (out : List ParsedConfig)
    (firstError : Option ConfigParseException) :
    List Text → List ParsedConfig × Option ConfigParseException
  | [] => (out, firstError)
  | link :: links =>
    if out.length ≥ maxConfigs then (out, firstError)
    else match parseLink jvm org link with
      | .ok config => parseLoop jvm org (out ++ [config]) firstError links
      | .error e => parseLoop jvm org out (firstError.or (some e)) links

def parseInput (jvm : Jvm) (org : OrgJson) :
    Input → Except ConfigParseException (List ParsedConfig)
  | .json text => (JsonConfigParser.parse jvm org text).map (·.take maxConfigs)
  | .links links =>
    let (out, firstError) := parseLoop jvm org [] none links
    if out = [] then .error (firstError.getD ⟨"کانفیگ پشتیبانی‌شده‌ای یافت نشد".toList⟩)
    else .ok out

def parse (jvm : Jvm) (org : OrgJson) (input : Text) :
    Except ConfigParseException (List ParsedConfig) := do
  let found ← readInput jvm maxBase64Depth input
  parseInput jvm org found

end ConfigInputParser

end BigRocket.Config
