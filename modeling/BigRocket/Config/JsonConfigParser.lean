/-
Xray and V2Ray JSON: a full client config, a list of them, or a bare outbound.

`sanitize` removes what an outbound from someone else's config must not bring
along.
-/
import BigRocket.Config.LinkParsers

namespace BigRocket.Config

open Lib Lib.Kotlin

namespace JsonConfigParser

def nonProxyProtocols : List Text :=
  ["freedom".toList, "blackhole".toList, "dns".toList, "loopback".toList]

def isProxy (jvm : Jvm) (org : OrgJson) (o : JsonObject) : Bool :=
  let p := jvm.lowercase (o.optString org "protocol")
  p ≠ [] && !nonProxyProtocols.contains p

def objects (items : List Json) : List JsonObject :=
  items.filterMap fun
    | .obj fields => some fields
    | _ => none

/-- The proxy outbound of a full config, the one tagged `proxy` first, or
the config itself when it is an outbound. -/
def pickOutbound (jvm : Jvm) (org : OrgJson) (cfg : JsonObject) : Option JsonObject :=
  if cfg.has "protocol" ∧ cfg.has "outbounds" = false then
    if isProxy jvm org cfg then some cfg else none
  else do
    let array ← cfg.optJSONArray "outbounds"
    let proxies := (objects array).filter (isProxy jvm org)
    (proxies.find? fun o => o.optString org "tag" = "proxy".toList).or proxies.head?

def removeIn (o : JsonObject) (key field : String) : JsonObject :=
  match o.optJSONObject key with
  | some inner => o.put key (.obj (inner.remove field))
  | none => o

def sanitizeSockopt (stream : JsonObject) : JsonObject :=
  match stream.optJSONObject "sockopt" with
  | some so =>
    let so := ((so.remove "dialerProxy").remove "mark").remove "interface"
    if so.length = 0 then stream.remove "sockopt" else stream.put "sockopt" (.obj so)
  | none => stream

def sanitizeStream (stream : JsonObject) : JsonObject :=
  removeIn (removeIn (sanitizeSockopt stream) "tlsSettings" "show") "realitySettings" "show"

def sanitize (o : JsonObject) : JsonObject :=
  let copy := ((o.remove "tag").remove "proxySettings").remove "sendThrough"
  match copy.optJSONObject "streamSettings" with
  | some stream => copy.put "streamSettings" (.obj (sanitizeStream stream))
  | none => copy

/-! ## For display -/

def portOf (jvm : Jvm) : Option Json → Int
  | some (.num n) => n.toInt
  | some (.str s) => (toIntOrNull jvm (trim s)).getD 0
  | _ => 0

def firstObject (items : List Json) : Option JsonObject :=
  match items with
  | .obj fields :: _ => some fields
  | _ => none

def serverOf (jvm : Jvm) (org : OrgJson) (o : JsonObject) : Text × Int :=
  match o.optJSONObject "settings" with
  | none => ([], 0)
  | some settings =>
    match ((settings.optJSONArray "vnext").or (settings.optJSONArray "servers")).bind
        firstObject with
    | some entry => (entry.optString org "address", portOf jvm (entry.opt "port"))
    | none =>
      if settings.has "address" then
        (settings.optString org "address", portOf jvm (settings.opt "port"))
      else
        let endpoint := (((settings.optJSONArray "peers").bind firstObject).map fun peer =>
          peer.optString org "endpoint").getD []
        if endpoint = [] then ([], 0)
        else match LinkSyntax.splitHostPort jvm endpoint with
          | .ok (host, port) => (host, port)
          | .error _ => (endpoint, 0)

def fromOutbound (jvm : Jvm) (org : OrgJson) (outbound : JsonObject) (remarks : Text) :
    ParsedConfig :=
  let clean := sanitize outbound
  let protocol := jvm.lowercase (clean.optString org "protocol")
  let (host, port) := serverOf jvm org clean
  { name := take ParsedConfig.maxName (ifBlank (trim remarks) (protocol ++ ' ' :: host)),
    protocol := protocol, outbound := clean,
    server := if host = [] then [] else LinkSyntax.hostPort host port }

def configs : Json → List JsonObject
  | .arr items => objects items
  | .obj fields => [fields]
  | _ => []

def parse (jvm : Jvm) (org : OrgJson) (text : Text) :
    Except ConfigParseException (List ParsedConfig) :=
  match org.nextValue text with
  | none => .error ⟨"خواندن JSON ممکن نیست".toList⟩
  | some root =>
    let out := (configs root).filterMap fun cfg =>
      (pickOutbound jvm org cfg).map fun outbound =>
        fromOutbound jvm org outbound (cfg.optString org "remarks")
    if out = [] then .error ⟨"هیچ outbound پروکسی معتبری در کانفیگ JSON یافت نشد".toList⟩
    else .ok out

end JsonConfigParser

end BigRocket.Config
