/-
The runtime config of the embedded Xray, a JSON value here, around the outbound
the user's input describes.
-/
import BigRocket.Config.ConfigInputParser

namespace BigRocket.Service

open Lib Config

namespace XrayConfigBuilder

def chainTag : Text := "bonding-chain".toList

def chainSockopt : JsonObject := JsonObject.put [] "dialerProxy" (.str chainTag)

def proxyOutbound (selected : JsonObject) : JsonObject :=
  let outbound := selected.put "tag" (.str "proxy".toList)
  -- anything that is no object is replaced by a new one
  let streamSettings := (outbound.optJSONObject "streamSettings").getD []
  let outbound := outbound.put "streamSettings"
    (.obj (streamSettings.put "sockopt" (.obj chainSockopt)))
  outbound.remove "mux"

def socksIn (inboundPort : Int) : JsonObject :=
  let inbound := JsonObject.put [] "tag" (.str "socks-in".toList)
  let inbound := inbound.put "listen" (.str "127.0.0.1".toList)
  let inbound := inbound.put "port" (number inboundPort)
  let inbound := inbound.put "protocol" (.str "socks".toList)
  inbound.put "settings"
    (.obj ((JsonObject.put [] "auth" (.str "noauth".toList)).put "udp" (.bool true)))

def chainOut (chainPort : Int) : JsonObject :=
  let outbound := JsonObject.put [] "tag" (.str chainTag)
  let outbound := outbound.put "protocol" (.str "socks".toList)
  outbound.put "settings" (servers
    ((JsonObject.put [] "address" (.str "127.0.0.1".toList)).put "port" (number chainPort)))

def runtimeConfig (proxy : JsonObject) (inboundPort chainPort : Int) : JsonObject :=
  let config := JsonObject.put [] "log"
    (.obj (JsonObject.put [] "loglevel" (.str "warning".toList)))
  let config := config.put "inbounds" (.arr [.obj (socksIn inboundPort)])
  config.put "outbounds" (.arr [.obj proxy, .obj (chainOut chainPort)])

def build (jvm : Jvm) (org : OrgJson) (rawConfig : Text) (inboundPort chainPort : Int) :
    Except ConfigParseException JsonObject := do
  let configs ← ConfigInputParser.parse jvm org rawConfig
  match configs with
  -- `first()` throws here, but `parse` never returns an empty list
  | [] => throw ⟨"List is empty.".toList⟩
  | selected :: _ => return runtimeConfig (proxyOutbound selected.outbound) inboundPort chainPort

end XrayConfigBuilder

end BigRocket.Service
