/-
`StreamSettingsBuilder`: the stream settings of an outbound from the parameters
of a share link. Every key is fixed but those of the xhttp `extra`, which is
taken over whole.
-/
import BigRocket.Config.LinkSyntax
import BigRocket.Lib.Json

namespace BigRocket.Config

open Lib Lib.Kotlin LinkSyntax

def putUnlessEmpty (o : JsonObject) (key : String) (s : Text) : JsonObject :=
  if s = [] then o else o.put key (.str s)

def texts (items : List Text) : Json := .arr (items.map .str)

namespace StreamSettingsBuilder

def v (q : QueryMap) (keys : List String) : Text :=
  (keys.findSome? fun key => ((q.get? key.toList).map trim).filter (· ≠ [])).getD []

def commaParts (s : Text) : List Text := (s.splitOn ',').map trim

inductive Network where
  | tcp | ws | grpc | httpupgrade | xhttp | kcp | http
  deriving DecidableEq

def Network.text : Network → Text
  | tcp => "tcp".toList
  | ws => "ws".toList
  | grpc => "grpc".toList
  | httpupgrade => "httpupgrade".toList
  | xhttp => "xhttp".toList
  | kcp => "kcp".toList
  | http => "http".toList

def network (jvm : Jvm) (q : QueryMap) : Except ConfigParseException Network :=
  let requested := ifEmpty (jvm.lowercase (v q ["type", "net"])) "tcp".toList
  if requested = "tcp".toList ∨ requested = "raw".toList then .ok .tcp
  else if requested = "ws".toList ∨ requested = "websocket".toList then .ok .ws
  else if requested = "grpc".toList ∨ requested = "gun".toList then .ok .grpc
  else if requested = "httpupgrade".toList then .ok .httpupgrade
  else if requested = "xhttp".toList ∨ requested = "splithttp".toList then .ok .xhttp
  else if requested = "kcp".toList ∨ requested = "mkcp".toList then .ok .kcp
  else if requested = "h2".toList ∨ requested = "http".toList then .ok .http
  else if requested = "quic".toList then .error ⟨"ترنسپورت QUIC از Xray حذف شده است".toList⟩
  else .error ⟨"ترنسپورت پشتیبانی‌نشده: ".toList ++ requested⟩

/-! ## Security -/

def sni (jvm : Jvm) (q : QueryMap) (address : Text) : Text :=
  ifEmpty (v q ["sni", "serverName", "peer"])
    (ifEmpty (substringBefore ',' (v q ["host"])) (if isDomain jvm address then address else []))

def insecure (jvm : Jvm) (q : QueryMap) : Bool :=
  jvm.lowercase (v q ["allowInsecure", "insecure"]) ∈ ["1".toList, "true".toList, "yes".toList]

def isSha256Hex (token : Text) : Bool :=
  let digits := (trim token).filter (· ≠ ':')
  digits.length = 64 && digits.all fun c => (hexValue c).isSome

def tlsSettings (jvm : Jvm) (q : QueryMap) (address : Text) :
    Except ConfigParseException JsonObject := do
  let tls := putUnlessEmpty [] "serverName" (sni jvm q address)
  let tls := if insecure jvm q then tls.put "allowInsecure" (.bool true) else tls
  let pin := v q ["pinnedPeerCertSha256"]
  if pin ≠ [] ∧ (pin.splitOn ',').all isSha256Hex = false then
    throw ⟨"پین گواهی TLS نامعتبر است".toList⟩
  let tls := putUnlessEmpty tls "pinnedPeerCertSha256" pin
  let tls := putUnlessEmpty tls "fingerprint" (v q ["fp", "fingerprint"])
  let alpn := (commaParts (v q ["alpn"])).filter (· ≠ [])
  return if alpn ≠ [] then tls.put "alpn" (texts alpn) else tls

def realitySettings (jvm : Jvm) (q : QueryMap) (address : Text) :
    Except ConfigParseException JsonObject := do
  let pbk := v q ["pbk", "publicKey"]
  if pbk = [] then throw ⟨"لینک reality کلید عمومی (pbk) ندارد".toList⟩
  let reality := putUnlessEmpty [] "serverName" (sni jvm q address)
  let reality := reality.put "fingerprint"
    (.str (ifEmpty (v q ["fp", "fingerprint"]) "chrome".toList))
  let reality := reality.put "publicKey" (.str pbk)
  let reality := reality.put "shortId" (.str (v q ["sid", "shortId"]))
  let reality := reality.put "spiderX" (.str (v q ["spx", "spiderX"]))
  return putUnlessEmpty reality "mldsa65Verify" (v q ["pqv", "mldsa65Verify"])

def putSecurity (jvm : Jvm) (q : QueryMap) (address defaultSecurity : Text)
    (stream : JsonObject) : Except ConfigParseException JsonObject := do
  let security := ifEmpty (jvm.lowercase (v q ["security"])) defaultSecurity
  let security := if security = "xtls".toList then "tls".toList else security
  if security = "tls".toList then
    let tls ← tlsSettings jvm q address
    return (stream.put "security" (.str "tls".toList)).put "tlsSettings" (.obj tls)
  else if security = "reality".toList then
    let reality ← realitySettings jvm q address
    return (stream.put "security" (.str "reality".toList)).put "realitySettings" (.obj reality)
  else if security = "none".toList ∨ security = [] then
    return stream.put "security" (.str "none".toList)
  else throw ⟨"security پشتیبانی‌نشده: ".toList ++ security⟩

/-! ## Transport -/

def pathAndHost (q : QueryMap) : JsonObject :=
  putUnlessEmpty (JsonObject.put [] "path" (.str (ifEmpty (v q ["path"]) "/".toList)))
    "host" (v q ["host"])

def tcpHeader (q : QueryMap) : JsonObject :=
  let request := JsonObject.put [] "path" (texts (commaParts (ifEmpty (v q ["path"]) "/".toList)))
  let request := if v q ["host"] ≠ [] then
      request.put "headers" (.obj (JsonObject.put [] "Host" (texts (commaParts (v q ["host"])))))
    else request
  (JsonObject.put [] "type" (.str "http".toList)).put "request" (.obj request)

def extra (org : OrgJson) (q : QueryMap) : Option JsonObject :=
  if v q ["extra"] = [] then none else org.object (v q ["extra"])

def xhttpSettings (org : OrgJson) (q : QueryMap) : JsonObject :=
  let xh := (pathAndHost q).put "mode" (.str (ifEmpty (v q ["mode"]) "auto".toList))
  match extra org q with
  | some o => xh.put "extra" (.obj o)
  | none => xh

def grpcSettings (jvm : Jvm) (q : QueryMap) : JsonObject :=
  let g := JsonObject.put [] "serviceName" (.str (ifEmpty (v q ["serviceName"]) (v q ["path"])))
  let g := g.put "multiMode" (.bool (jvm.lowercase (v q ["mode"]) = "multi".toList))
  putUnlessEmpty g "authority" (v q ["authority"])

def kcpSettings (q : QueryMap) : JsonObject :=
  let header := JsonObject.put [] "type" (.str (ifEmpty (v q ["headerType"]) "none".toList))
  putUnlessEmpty (JsonObject.put [] "header" (.obj header)) "seed" (v q ["seed"])

def httpSettings (q : QueryMap) : JsonObject :=
  let http := putUnlessEmpty [] "path" (v q ["path"])
  if v q ["host"] ≠ [] then http.put "host" (texts (commaParts (v q ["host"]))) else http

def putTransport (jvm : Jvm) (org : OrgJson) (q : QueryMap) (net : Network)
    (stream : JsonObject) : JsonObject :=
  match net with
  | .tcp =>
    if jvm.lowercase (v q ["headerType"]) = "http".toList then
      stream.put "tcpSettings" (.obj (JsonObject.put [] "header" (.obj (tcpHeader q))))
    else stream
  | .ws => stream.put "wsSettings" (.obj (pathAndHost q))
  | .httpupgrade => stream.put "httpupgradeSettings" (.obj (pathAndHost q))
  | .grpc => stream.put "grpcSettings" (.obj (grpcSettings jvm q))
  | .xhttp => stream.put "xhttpSettings" (.obj (xhttpSettings org q))
  | .kcp => stream.put "kcpSettings" (.obj (kcpSettings q))
  | .http => stream.put "httpSettings" (.obj (httpSettings q))

def build (jvm : Jvm) (org : OrgJson) (q : QueryMap) (address defaultSecurity : Text) :
    Except ConfigParseException JsonObject := do
  let net ← network jvm q
  let stream := JsonObject.put [] "network" (.str net.text)
  let stream ← putSecurity jvm q address defaultSecurity stream
  return putTransport jvm org q net stream

end StreamSettingsBuilder

end BigRocket.Config
