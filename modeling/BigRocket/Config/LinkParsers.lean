/-
One parser for each family of share links, which makes an Xray outbound of a
link.
-/
import BigRocket.Config.StreamSettings

namespace BigRocket.Config

open Lib Lib.Kotlin LinkSyntax

structure ParsedConfig where
  name : Text
  protocol : Text
  outbound : JsonObject
  server : Text

namespace ParsedConfig

def maxName : Nat := 80

def of (label : Text) (protocol : Text) (outbound : JsonObject) (host : Text) (port : Nat)
    (name : Text) : ParsedConfig where
  name := take maxName (ifBlank (trim name) (label ++ ' ' :: host))
  protocol := protocol
  outbound := outbound
  server := hostPort host port

end ParsedConfig

def number (n : Int) : Json := .num (.ofInt n)

def LinkSyntax.str (org : OrgJson) (o : JsonObject) (key : String) : Text :=
  if o.isNull key then [] else trim (o.optString org key)

def protocolOf (protocol : String) : JsonObject :=
  JsonObject.put [] "protocol" (.str protocol.toList)

def vnext (host : Text) (port : Nat) (user : JsonObject) : Json :=
  .obj (JsonObject.put [] "vnext" (.arr [.obj
    (((JsonObject.put [] "address" (.str host)).put "port" (number port)).put "users"
      (.arr [.obj user]))]))

def servers (server : JsonObject) : Json := .obj (JsonObject.put [] "servers" (.arr [.obj server]))

namespace VlessLinkParser

def parse (jvm : Jvm) (org : OrgJson) (link : Text) : Except ConfigParseException ParsedConfig := do
  let u ← UriParts.of jvm link true
  requireUserId u.user
  let user := (JsonObject.put [] "id" (.str u.user)).put "encryption"
    (.str (ifEmpty (u.q ["encryption".toList]) "none".toList))
  let user := putUnlessEmpty user "flow" (u.q ["flow".toList])
  let user := user.put "level" (number 8)
  let stream ← StreamSettingsBuilder.build jvm org u.query u.host "none".toList
  let outbound := ((protocolOf "vless").put "settings" (vnext u.host u.port user)).put
    "streamSettings" (.obj stream)
  return .of "VLESS".toList "vless".toList outbound u.host u.port u.name

end VlessLinkParser

namespace TrojanLinkParser

def parse (jvm : Jvm) (org : OrgJson) (link : Text) : Except ConfigParseException ParsedConfig := do
  let u ← UriParts.of jvm link true
  if u.user = [] then throw ⟨"لینک trojan رمز عبور ندارد".toList⟩
  let server := ((JsonObject.put [] "address" (.str u.host)).put "port" (number u.port)).put
    "password" (.str u.user)
  let server := putUnlessEmpty server "flow" (u.q ["flow".toList])
  let server := server.put "level" (number 8)
  let stream ← StreamSettingsBuilder.build jvm org u.query u.host "tls".toList
  let outbound := ((protocolOf "trojan").put "settings" (servers server)).put
    "streamSettings" (.obj stream)
  return .of "Trojan".toList "trojan".toList outbound u.host u.port u.name

end TrojanLinkParser

namespace VmessLinkParser

def outbound (jvm : Jvm) (org : OrgJson) (id host : Text) (port : Nat) (alterId : Int)
    (security : Text) (q : QueryMap) (name : Text) : Except ConfigParseException ParsedConfig := do
  let user := (((JsonObject.put [] "id" (.str id)).put "alterId" (number alterId)).put
    "security" (.str security)).put "level" (number 8)
  let stream ← StreamSettingsBuilder.build jvm org q host "none".toList
  let outbound := ((protocolOf "vmess").put "settings" (vnext host port user)).put
    "streamSettings" (.obj stream)
  return .of "VMess".toList "vmess".toList outbound host port name

def parseUri (jvm : Jvm) (org : OrgJson) (link : Text) :
    Except ConfigParseException ParsedConfig := do
  let u ← UriParts.of jvm link true
  requireUserId u.user
  outbound jvm org u.user u.host u.port
    ((toIntOrNull jvm (u.q ["alterId".toList, "aid".toList])).getD 0)
    (ifEmpty (u.q ["encryption".toList, "scy".toList]) "auto".toList) u.query u.name

def jsonQuery (org : OrgJson) (o : JsonObject) : QueryMap :=
  let s := str org o
  let type := ifEmpty (s "net") "tcp".toList
  let q : QueryMap := LinkedMap.empty.put "type".toList type
  let q := q.put "headerType".toList (s "type")
  let q := q.put "host".toList (s "host")
  let q := q.put "path".toList (s "path")
  let q := q.put "security".toList (s "tls")
  let q := q.put "sni".toList (s "sni")
  let q := q.put "alpn".toList (s "alpn")
  let q := q.put "fp".toList (s "fp")
  let q := q.put "allowInsecure".toList (ifEmpty (s "allowInsecure") (s "insecure"))
  let q := if type = "grpc".toList then
      (q.put "serviceName".toList (s "path")).put "mode".toList
        (if s "type" = "multi".toList then "multi".toList else "gun".toList)
    else q
  let q := if type = "kcp".toList then q.put "seed".toList (s "path") else q
  if type = "xhttp".toList ∨ type = "splithttp".toList then
    q.put "mode".toList (ifEmpty (s "type") "auto".toList)
  else q

def parseJson (jvm : Jvm) (org : OrgJson) (decoded : Text) :
    Except ConfigParseException ParsedConfig :=
  match org.object decoded with
  | none => .error ⟨"لینک vmess شامل JSON معتبر نیست".toList⟩
  | some o =>
    let s := str org o
    match portOf jvm (s "port") with
    | none => .error ⟨"لینک vmess پورت معتبر ندارد".toList⟩
    | some port => do
        if s "add" = [] then throw ⟨"لینک vmess آدرس سرور ندارد".toList⟩
        requireUserId (s "id")
        outbound jvm org (s "id") (s "add") port ((toIntOrNull jvm (s "aid")).getD 0)
          (ifEmpty (s "scy") "auto".toList) (jsonQuery org o) (s "ps")

def jsonText (link : Text) : Option Text :=
  let body := trim (((cut [':', '/', '/'] link).map Prod.snd).getD link)
  (decodeLoose (substringBefore '#' body)).filter fun s => (trimStart s).head? = some '{'

def parse (jvm : Jvm) (org : OrgJson) (link : Text) : Except ConfigParseException ParsedConfig :=
  match jsonText link with
  | none => parseUri jvm org link
  | some decoded => parseJson jvm org decoded

end VmessLinkParser

namespace ShadowsocksLinkParser

def credentials (jvm : Jvm) (body : Text) :
    Except ConfigParseException (Text × Text × Text) :=
  if '@' ∈ body then
    let userinfo := substringBeforeLast '@' body []
    let plain := decodeUrl jvm userinfo
    let creds := if ':' ∈ plain ∧ looksBase64 plain = false then plain
      else (decodeLoose userinfo).getD plain
    .ok (substringBefore ':' creds, substringAfter ':' creds [], substringAfterLast '@' body)
  else
    match decodeLoose body with
    | none => .error ⟨"لینک shadowsocks نامعتبر است".toList⟩
    | some whole =>
      if '@' ∉ whole then .error ⟨"لینک shadowsocks نامعتبر است".toList⟩
      else
        let creds := substringBeforeLast '@' whole []
        .ok (substringBefore ':' creds, substringAfter ':' creds [],
          substringAfterLast '@' whole)

def plugin (jvm : Jvm) (query : Text) : Option Text :=
  ((query.splitOn '&').find? ("plugin=".toList.isPrefixOf ·)).map fun pair =>
    decodeUrl jvm (substringAfter '=' pair pair)

def parse (jvm : Jvm) (link : Text) : Except ConfigParseException ParsedConfig := do
  let body := ((cut [':', '/', '/'] link).map Prod.snd).getD link
  let name := if '#' ∈ body then decodeUrl jvm (substringAfter '#' body body) else []
  let body := substringBefore '#' body
  let query := if '?' ∈ body then substringAfter '?' body body else []
  let body := trimEndOf ['/'] (substringBefore '?' body)
  let (method, password, hostPortText) ← credentials jvm body
  if method = [] ∨ password = [] then
    throw ⟨"لینک shadowsocks متد یا رمز عبور ندارد".toList⟩
  match plugin jvm query with
  | some p =>
    if isBlank p = false ∧ "none".toList.isPrefixOf p = false then
      throw ⟨"افزونه‌های shadowsocks (".toList ++ p ++ ") پشتیبانی نمی‌شوند".toList⟩
  | none => pure ()
  let (host, port) ← splitHostPort jvm hostPortText
  let server := ((((JsonObject.put [] "address" (.str host)).put "port" (number port)).put
    "method" (.str (jvm.lowercase method))).put "password" (.str password)).put "level" (number 8)
  let outbound := ((protocolOf "shadowsocks").put "settings" (servers server)).put
    "streamSettings" (.obj (JsonObject.put [] "network" (.str "tcp".toList)))
  return .of "SS".toList "shadowsocks".toList outbound host port name

end ShadowsocksLinkParser

namespace SocksLinkParser

def credentials (user : Text) : Text × Text :=
  if user = [] then ([], [])
  else
    let creds := if ':' ∈ user then user else (decodeLoose user).getD user
    (substringBefore ':' creds, substringAfter ':' creds [])

def parse (jvm : Jvm) (link : Text) : Except ConfigParseException ParsedConfig := do
  let u ← UriParts.of jvm link false
  let (user, pass) := credentials u.user
  let server := (JsonObject.put [] "address" (.str u.host)).put "port" (number u.port)
  let server := if user ≠ [] then
      server.put "users" (.arr [.obj (((JsonObject.put [] "user" (.str user)).put "pass"
        (.str pass)).put "level" (number 8))])
    else server
  let outbound := (protocolOf "socks").put "settings" (servers server)
  return .of "SOCKS".toList "socks".toList outbound u.host u.port u.name

end SocksLinkParser

namespace WireGuardLinkParser

def addresses (u : UriParts) : List Text :=
  (((ifEmpty (u.q ["address".toList, "ip".toList]) "10.0.0.2/32".toList).splitOn ',').map
    trim).filter (· ≠ [])

def parse (jvm : Jvm) (link : Text) : Except ConfigParseException ParsedConfig := do
  let u ← UriParts.of jvm link true
  if u.user = [] then throw ⟨"لینک wireguard کلید خصوصی ندارد".toList⟩
  let peerKey := u.q ["publickey".toList, "publicKey".toList, "public_key".toList]
  if peerKey = [] then throw ⟨"لینک wireguard کلید عمومی peer ندارد".toList⟩
  let settings := ((JsonObject.put [] "secretKey" (.str u.user)).put "address"
    (texts (addresses u))).put "mtu"
      (number ((toIntOrNull jvm (u.q ["mtu".toList])).getD 1280))
  let reserved := u.q ["reserved".toList]
  let settings := if reserved ≠ [] then
      settings.put "reserved"
        (.arr ((reserved.splitOn ',').filterMap fun r => (toIntOrNull jvm (trim r)).map number))
    else settings
  let peer := JsonObject.put [] "publicKey" (.str peerKey)
  let peer := putUnlessEmpty peer "preSharedKey"
    (u.q ["presharedkey".toList, "preSharedKey".toList])
  let peer := peer.put "endpoint" (.str (hostPort u.host u.port))
  let peer := peer.put "allowedIPs" (texts ["0.0.0.0/0".toList, "::/0".toList])
  let settings := settings.put "peers" (.arr [.obj peer])
  let outbound := (protocolOf "wireguard").put "settings" (.obj settings)
  return .of "WireGuard".toList "wireguard".toList outbound u.host u.port u.name

end WireGuardLinkParser

end BigRocket.Config
