/-
Which inputs `XrayConfigBuilder` confines to the chain.
-/
import BigRocket.Service.XrayConfigTheorems
import BigRocket.Lib.Except

namespace BigRocket.Service

open Lib Lib.Kotlin Lib.Json Config LinkSyntax List Option

namespace XrayConfigBuilder

/-! ## Values under fixed keys -/

theorem everywhere_singleton {o : JsonObject} (h : Confined o) :
    Everywhere Harmless (.arr [.obj o]) := by
  rw [everywhere_arr]
  intro v hv
  rw [mem_singleton] at hv
  rw [hv]
  exact h

theorem confined_protocolOf (protocol : String) : Confined (protocolOf protocol) :=
  confined_nil.putStr rfl

theorem everywhere_vnext {host : Text} {port : Nat} {user : JsonObject} (h : Confined user) :
    Everywhere Harmless (vnext host port user) :=
  confined_nil.put rfl (everywhere_singleton
    (((confined_nil.putStr rfl).putNumber rfl).put rfl (everywhere_singleton h)))

theorem everywhere_servers {server : JsonObject} (h : Confined server) :
    Everywhere Harmless (servers server) :=
  confined_nil.put rfl (everywhere_singleton h)

/-! ## The stream settings of a link -/

section Stream

variable {jvm : Jvm} {org : OrgJson} {q : QueryMap} {address defaultSecurity : Text}
  {stream : JsonObject}

open StreamSettingsBuilder

theorem confined_tlsSettings {tls : JsonObject} (h : tlsSettings jvm q address = .ok tls) :
    Confined tls := by
  unfold tlsSettings at h
  have h := check_eq_ok h
  cases h
  have hname : Confined (putUnlessEmpty [] "serverName" (sni jvm q address)) :=
    confined_nil.putUnlessEmpty rfl
  have hflag : Confined (if insecure jvm q then
      (putUnlessEmpty [] "serverName" (sni jvm q address)).put "allowInsecure" (.bool true)
      else putUnlessEmpty [] "serverName" (sni jvm q address)) := by
    split
    · exact hname.put rfl (everywhere_bool true)
    · exact hname
  split
  · exact ((hflag.putUnlessEmpty rfl).putUnlessEmpty rfl).putTexts rfl
  · exact (hflag.putUnlessEmpty rfl).putUnlessEmpty rfl

theorem confined_realitySettings {reality : JsonObject}
    (h : realitySettings jvm q address = .ok reality) : Confined reality := by
  unfold realitySettings at h
  have h := check_eq_ok h
  cases h
  exact (((((confined_nil.putUnlessEmpty rfl).putStr rfl).putStr rfl).putStr rfl).putStr
    rfl).putUnlessEmpty rfl

theorem confined_putSecurity {secured : JsonObject} (hstream : Confined stream)
    (h : putSecurity jvm q address defaultSecurity stream = .ok secured) : Confined secured := by
  unfold putSecurity at h
  dsimp only at h
  generalize (if ifEmpty (jvm.lowercase (v q ["security"])) defaultSecurity = "xtls".toList
    then "tls".toList
    else ifEmpty (jvm.lowercase (v q ["security"])) defaultSecurity) = security at h
  split_ifs at h
  · obtain ⟨tls, htls, h⟩ := bind_eq_ok h
    cases h
    exact (hstream.putStr rfl).put rfl
      (confined_tlsSettings htls)
  · obtain ⟨reality, hreality, h⟩ := bind_eq_ok h
    cases h
    exact (hstream.putStr rfl).put rfl
      (confined_realitySettings hreality)
  · cases h
    exact hstream.putStr rfl

theorem confined_pathAndHost (q : QueryMap) : Confined (pathAndHost q) :=
  (confined_nil.putStr rfl).putUnlessEmpty rfl

theorem confined_tcpHeader (q : QueryMap) : Confined (tcpHeader q) := by
  have hpath : Confined (JsonObject.put [] "path"
      (texts (commaParts (ifEmpty (v q ["path"]) "/".toList)))) :=
    confined_nil.putTexts rfl
  refine (confined_nil.putStr rfl).put rfl ?_
  split
  · exact hpath.put rfl (confined_nil.putTexts rfl)
  · exact hpath

theorem confined_httpSettings (q : QueryMap) : Confined (httpSettings q) := by
  have hpath : Confined (putUnlessEmpty [] "path" (v q ["path"])) :=
    confined_nil.putUnlessEmpty rfl
  unfold httpSettings
  dsimp only
  split
  · exact hpath.putTexts rfl
  · exact hpath

theorem confined_xhttpSettings (h : ∀ e ∈ extra org q, Confined e) :
    Confined (xhttpSettings org q) := by
  unfold xhttpSettings
  dsimp only
  split
  · next e he =>
      exact ((confined_pathAndHost q).putStr rfl).put rfl (h e he)
  · exact (confined_pathAndHost q).putStr rfl

def streamExtra (jvm : Jvm) (org : OrgJson) (q : QueryMap) : Option JsonObject :=
  match network jvm q with
  | .ok .xhttp => extra org q
  | _ => none

theorem confined_putTransport {net : StreamSettingsBuilder.Network} (hnet : network jvm q = .ok net)
    (hstream : Confined stream) (h : ∀ e ∈ streamExtra jvm org q, Confined e) :
    Confined (putTransport jvm org q net stream) := by
  cases net with
  | tcp =>
    unfold putTransport
    dsimp only
    split
    · exact hstream.put rfl (confined_nil.put rfl (confined_tcpHeader q))
    · exact hstream
  | ws => exact hstream.put rfl (confined_pathAndHost q)
  | httpupgrade => exact hstream.put rfl (confined_pathAndHost q)
  | grpc =>
    exact hstream.put rfl (((confined_nil.putStr rfl).put rfl (everywhere_bool _)).putUnlessEmpty rfl)
  | kcp =>
    exact hstream.put rfl ((confined_nil.put rfl
      (confined_nil.putStr rfl)).putUnlessEmpty rfl)
  | http => exact hstream.put rfl (confined_httpSettings q)
  | xhttp =>
    refine hstream.put rfl (confined_xhttpSettings ?_)
    rwa [streamExtra, hnet] at h

theorem build_eq_ok (h : StreamSettingsBuilder.build jvm org q address defaultSecurity =
    .ok stream) :
    ∃ net secured, network jvm q = .ok net ∧ Confined secured ∧
      stream = putTransport jvm org q net secured := by
  unfold StreamSettingsBuilder.build at h
  obtain ⟨net, hnet, h⟩ := bind_eq_ok h
  obtain ⟨secured, hsecured, h⟩ := bind_eq_ok h
  cases h
  exact ⟨net, secured, hnet,
    confined_putSecurity (confined_nil.putStr rfl) hsecured, rfl⟩

theorem confined_linkOutbound_iff
    (h : StreamSettingsBuilder.build jvm org q address defaultSecurity = .ok stream)
    {base : JsonObject} (hbase : Confined base) :
    Confined (proxyOutbound (base.put "streamSettings" (.obj stream))) ↔
      ∀ e ∈ streamExtra jvm org q, Confined e := by
  obtain ⟨net, secured, hnet, hsecured, rfl⟩ := build_eq_ok h
  rw [confined_proxyOutbound]
  constructor
  · intro hbut e he
    rw [streamExtra, hnet] at he
    cases net with
    | xhttp =>
      have hstream := ((everywhereBut_obj _).mp hbut "streamSettings" _
        (JsonObject.opt_put_self base _ _)).2
      have hxhttp := ((everywhereBut_obj _).mp hstream "xhttpSettings" _
        (JsonObject.opt_put_self secured _ _)).2
      have hsettings : xhttpSettings org q = JsonObject.put
          ((pathAndHost q).put "mode" (.str (ifEmpty (v q ["mode"]) "auto".toList)))
          "extra" (.obj e) := by
        unfold xhttpSettings
        rw [show extra org q = some e from he]
      rw [hsettings] at hxhttp
      have hbelow := ((everywhereBut_obj _).mp hxhttp "extra" _
        (JsonObject.opt_put_self _ _ _)).2
      refine everywhere_iff_everywhereBut.mpr (hbelow.mono ?_)
      intro path hplace
      rw [overwritten_cons, JsonObject.optJSONObject, JsonObject.opt_put_self] at hplace
      simp [cons_prefix_cons] at hplace
    | _ => cases he
  · intro hextra
    have hall : Confined (base.put "streamSettings" (.obj (putTransport jvm org q net secured))) :=
      hbase.put rfl (confined_putTransport hnet hsecured hextra)
    exact (everywhere_iff_everywhereBut.mp hall).mono fun _ hplace => hplace.elim

end Stream

/-! ## One link -/

def uriExtra (jvm : Jvm) (org : OrgJson) (link : Text) : Option JsonObject :=
  match UriParts.of jvm link true with
  | .ok u => streamExtra jvm org u.query
  | .error _ => none

open ConfigInputParser

def parserExtra (jvm : Jvm) (org : OrgJson) (link : Text) : Parser → Option JsonObject
  | .vless => uriExtra jvm org link
  | .trojan => uriExtra jvm org link
  | .vmess => if (VmessLinkParser.jsonText link).isSome then none else uriExtra jvm org link
  | .shadowsocks => none
  | .socks => none
  | .wireguard => none

section Links

variable {jvm : Jvm} {org : OrgJson} {link : Text} {config : ParsedConfig}

theorem uriExtra_of_ok {u : UriParts} (h : UriParts.of jvm link true = .ok u) :
    uriExtra jvm org link = streamExtra jvm org u.query := by
  rw [uriExtra, h]

theorem confined_proxyOutbound_of_confined {outbound : JsonObject} (h : Confined outbound) :
    Confined (proxyOutbound outbound) :=
  (confined_proxyOutbound outbound).mpr
    ((everywhere_iff_everywhereBut.mp h).mono fun _ hplace => hplace.elim)

theorem confined_vless (h : VlessLinkParser.parse jvm org link = .ok config) :
    Confined (proxyOutbound config.outbound) ↔ ∀ e ∈ uriExtra jvm org link, Confined e := by
  unfold VlessLinkParser.parse at h
  obtain ⟨u, hu, h⟩ := bind_eq_ok h
  obtain ⟨_, -, h⟩ := bind_eq_ok h
  obtain ⟨stream, hstream, h⟩ := bind_eq_ok h
  cases h
  rw [uriExtra_of_ok hu]
  dsimp only [ParsedConfig.of]
  refine confined_linkOutbound_iff hstream
    ((confined_protocolOf "vless").put rfl (everywhere_vnext ?_))
  exact (((confined_nil.putStr rfl).putStr rfl).putUnlessEmpty rfl).putNumber rfl

theorem confined_trojan (h : TrojanLinkParser.parse jvm org link = .ok config) :
    Confined (proxyOutbound config.outbound) ↔ ∀ e ∈ uriExtra jvm org link, Confined e := by
  unfold TrojanLinkParser.parse at h
  obtain ⟨u, hu, h⟩ := bind_eq_ok h
  obtain ⟨stream, hstream, h⟩ := bind_eq_ok (check_eq_ok h)
  cases h
  rw [uriExtra_of_ok hu]
  dsimp only [ParsedConfig.of]
  refine confined_linkOutbound_iff hstream
    ((confined_protocolOf "trojan").put rfl (everywhere_servers ?_))
  exact ((((confined_nil.putStr rfl).putNumber rfl).putStr rfl).putUnlessEmpty rfl).putNumber rfl

theorem confined_vmess_outbound {id host security name : Text} {port : Nat} {alterId : Int}
    {q : QueryMap}
    (h : VmessLinkParser.outbound jvm org id host port alterId security q name = .ok config) :
    Confined (proxyOutbound config.outbound) ↔ ∀ e ∈ streamExtra jvm org q, Confined e := by
  unfold VmessLinkParser.outbound at h
  obtain ⟨stream, hstream, h⟩ := bind_eq_ok h
  cases h
  dsimp only [ParsedConfig.of]
  refine confined_linkOutbound_iff hstream
    ((confined_protocolOf "vmess").put rfl (everywhere_vnext ?_))
  exact (((confined_nil.putStr rfl).putNumber rfl).putStr rfl).putNumber rfl

theorem streamExtra_jsonQuery (o : JsonObject) :
    streamExtra jvm org (VmessLinkParser.jsonQuery org o) = none := by
  have hget : (VmessLinkParser.jsonQuery org o).get? "extra".toList = none := by
    unfold VmessLinkParser.jsonQuery
    dsimp only
    split_ifs <;> simp (disch := decide) only [LinkedMap.get?_put_ne] <;> rfl
  have hextra : StreamSettingsBuilder.extra org (VmessLinkParser.jsonQuery org o) = none := by
    have hv : StreamSettingsBuilder.v (VmessLinkParser.jsonQuery org o) ["extra"] = [] := by
      rw [StreamSettingsBuilder.v, findSome?_cons, hget]
      rfl
    rw [StreamSettingsBuilder.extra, if_pos hv]
  unfold streamExtra
  split
  · exact hextra
  · rfl

theorem confined_vmess (h : VmessLinkParser.parse jvm org link = .ok config) :
    Confined (proxyOutbound config.outbound) ↔
      ∀ e ∈ parserExtra jvm org link .vmess, Confined e := by
  unfold VmessLinkParser.parse at h
  unfold parserExtra
  cases htext : VmessLinkParser.jsonText link with
  | none =>
    simp only [htext] at h
    unfold VmessLinkParser.parseUri at h
    obtain ⟨u, hu, h⟩ := bind_eq_ok h
    obtain ⟨_, -, h⟩ := bind_eq_ok h
    rw [isSome_none, if_neg Bool.false_ne_true, uriExtra_of_ok hu]
    exact confined_vmess_outbound h
  | some decoded =>
    simp only [htext] at h
    rw [isSome_some, if_pos rfl]
    unfold VmessLinkParser.parseJson at h
    split at h
    · cases h
    · dsimp only at h
      split at h
      · cases h
      · obtain ⟨_, -, h⟩ := bind_eq_ok (check_eq_ok h)
        rw [confined_vmess_outbound h, streamExtra_jsonQuery]

theorem confined_shadowsocksOutbound (host method password : Text) (port : Int) :
    Confined (((protocolOf "shadowsocks").put "settings" (servers
      (((((JsonObject.put [] "address" (.str host)).put "port" (number port)).put "method"
        (.str method)).put "password" (.str password)).put "level" (number 8)))).put
          "streamSettings" (.obj (JsonObject.put [] "network" (.str "tcp".toList)))) :=
  ((confined_protocolOf "shadowsocks").put rfl (everywhere_servers
    (((((confined_nil.putStr rfl).putNumber rfl).putStr rfl).putStr rfl).putNumber rfl))).put rfl
          (confined_nil.putStr rfl)

theorem confined_shadowsocks (h : ShadowsocksLinkParser.parse jvm link = .ok config) :
    Confined config.outbound := by
  unfold ShadowsocksLinkParser.parse at h
  obtain ⟨⟨method, password, hostPortText⟩, -, h⟩ := bind_eq_ok h
  have hafter := check_eq_ok h
  dsimp only at hafter
  -- the parser goes on in the same way after a plugin that it accepts
  split at hafter
  · obtain ⟨⟨host, port⟩, -, hparsed⟩ := bind_eq_ok (check_eq_ok hafter)
    cases hparsed
    exact confined_shadowsocksOutbound _ _ _ _
  · obtain ⟨⟨host, port⟩, -, hparsed⟩ := bind_eq_ok hafter
    cases hparsed
    exact confined_shadowsocksOutbound _ _ _ _

theorem confined_socks (h : SocksLinkParser.parse jvm link = .ok config) :
    Confined config.outbound := by
  unfold SocksLinkParser.parse at h
  obtain ⟨u, -, h⟩ := bind_eq_ok h
  generalize SocksLinkParser.credentials u.user = creds at h
  obtain ⟨user, pass⟩ := creds
  cases h
  dsimp only [ParsedConfig.of]
  refine (confined_protocolOf "socks").put rfl (everywhere_servers ?_)
  have hserver : Confined ((JsonObject.put [] "address" (.str u.host)).put "port"
      (number u.port)) :=
    (confined_nil.putStr rfl).putNumber rfl
  split
  · refine hserver.put rfl (everywhere_singleton ?_)
    exact ((confined_nil.putStr rfl).putStr rfl).putNumber rfl
  · exact hserver

theorem confined_wireGuard (h : WireGuardLinkParser.parse jvm link = .ok config) :
    Confined config.outbound := by
  unfold WireGuardLinkParser.parse at h
  obtain ⟨u, -, h⟩ := bind_eq_ok h
  have h := check_eq_ok (check_eq_ok h)
  cases h
  dsimp only [ParsedConfig.of]
  refine (confined_protocolOf "wireguard").put rfl ?_
  have hpeer : Confined (((putUnlessEmpty (JsonObject.put [] "publicKey"
      (.str (u.q ["publickey".toList, "publicKey".toList, "public_key".toList]))) "preSharedKey"
      (u.q ["presharedkey".toList, "preSharedKey".toList])).put "endpoint"
        (.str (hostPort u.host u.port))).put "allowedIPs"
          (texts ["0.0.0.0/0".toList, "::/0".toList])) :=
    (((confined_nil.putStr rfl).putUnlessEmpty rfl).putStr rfl).putTexts rfl
  have hsettings : Confined (((JsonObject.put [] "secretKey" (.str u.user)).put "address"
      (texts (WireGuardLinkParser.addresses u))).put "mtu"
        (number ((toIntOrNull jvm (u.q ["mtu".toList])).getD 1280))) :=
    ((confined_nil.putStr rfl).putTexts rfl).putNumber rfl
  refine Confined.put ?_ rfl (everywhere_singleton hpeer)
  split
  · refine hsettings.put rfl ?_
    rw [everywhere_arr]
    intro v hv
    obtain ⟨r, -, hr⟩ := mem_filterMap.mp hv
    obtain ⟨n, -, rfl⟩ := map_eq_some_iff.mp hr
    exact everywhere_num _
  · exact hsettings

theorem confined_link {parser : Parser} (h : parser.parse jvm org link = .ok config) :
    Confined (proxyOutbound config.outbound) ↔
      ∀ e ∈ parserExtra jvm org link parser, Confined e := by
  cases parser with
  | vless => exact confined_vless h
  | vmess => exact confined_vmess h
  | trojan => exact confined_trojan h
  | shadowsocks =>
    exact iff_of_true (confined_proxyOutbound_of_confined (confined_shadowsocks h)) nofun
  | socks => exact iff_of_true (confined_proxyOutbound_of_confined (confined_socks h)) nofun
  | wireguard =>
    exact iff_of_true (confined_proxyOutbound_of_confined (confined_wireGuard h)) nofun

end Links

def linkExtra (jvm : Jvm) (org : OrgJson) (link : Text) : Option JsonObject :=
  (bySchema.lookup (jvm.lowercase
    (((cut [':', '/', '/'] (trim link)).map Prod.fst).getD (trim link)))).bind
      (parserExtra jvm org (trim link))

/-! ## Every input -/

section Inputs

variable {jvm : Jvm} {org : OrgJson}

theorem confined_parseLink {link : Text} {config : ParsedConfig}
    (h : parseLink jvm org link = .ok config) :
    Confined (proxyOutbound config.outbound) ↔ ∀ e ∈ linkExtra jvm org link, Confined e := by
  unfold parseLink at h
  dsimp only at h
  unfold linkExtra
  cases hlookup : bySchema.lookup (jvm.lowercase
      (((cut [':', '/', '/'] (trim link)).map Prod.fst).getD (trim link))) with
  | some parser =>
    simp only [hlookup] at h
    exact confined_link h
  | none =>
    simp only [hlookup] at h
    split at h <;> cases h

theorem parseLoop_append (jvm : Jvm) (org : OrgJson) (links : List Text) (out : List ParsedConfig)
    (firstError : Option ConfigParseException) :
    ∃ more, (parseLoop jvm org out firstError links).1 = out ++ more := by
  induction links generalizing out firstError with
  | nil => exact ⟨[], by simp [parseLoop]⟩
  | cons link links ih =>
    rw [parseLoop]
    split
    · exact ⟨[], by simp⟩
    · split
      · next config _ =>
          obtain ⟨more, hmore⟩ := ih (out ++ [config]) firstError
          exact ⟨config :: more, by simp [hmore]⟩
      · exact ih out _

variable {rest : List ParsedConfig} {selected : ParsedConfig}

theorem parseLoop_first {config : ParsedConfig} (links : List Text)
    (firstError : Option ConfigParseException)
    (h : (parseLoop jvm org [] firstError links).1 = config :: rest) :
    ∃ link, links.find? (fun l => (parseLink jvm org l).isOk) = some link ∧
      parseLink jvm org link = .ok config := by
  induction links generalizing firstError with
  | nil => cases h
  | cons link links ih =>
    rw [parseLoop, if_neg (by decide)] at h
    cases hlink : parseLink jvm org link with
    | ok first =>
      simp only [hlink] at h
      obtain ⟨more, hmore⟩ := parseLoop_append jvm org links ([] ++ [first]) firstError
      rw [hmore] at h
      cases h
      exact ⟨link, by simp [hlink, Except.isOk, Except.toBool], hlink⟩
    | error e =>
      simp only [hlink] at h
      obtain ⟨found, hfound, hok⟩ := ih _ h
      refine ⟨found, ?_, hok⟩
      rw [find?_cons_of_neg (by simp [hlink, Except.isOk, Except.toBool]), hfound]

/-- The input brings no entry that leads a dial elsewhere at a place that is
neither overwritten nor cleared. -/
def InputHarmless (jvm : Jvm) (org : OrgJson) : Input → Prop
  | .json text => ∀ root, org.nextValue text = some root →
      ∀ outbound, (JsonConfigParser.configs root).findSome? (JsonConfigParser.pickOutbound jvm org) =
          some outbound →
        EverywhereBut (fun path => Overwritten outbound path ∨ Cleared path) Harmless
          (.obj outbound)
  | .links links =>
    ∀ link, links.find? (fun l => (parseLink jvm org l).isOk) = some link →
      ∀ e ∈ linkExtra jvm org link, Confined e

def RawHarmless (jvm : Jvm) (org : OrgJson) (rawConfig : Text) : Prop :=
  ∀ input, readInput jvm maxBase64Depth rawConfig = .ok input → InputHarmless jvm org input

theorem configs_first {cfgs : List JsonObject}
    (h : cfgs.filterMap (fun cfg => (JsonConfigParser.pickOutbound jvm org cfg).map fun outbound =>
      JsonConfigParser.fromOutbound jvm org outbound (cfg.optString org "remarks")) =
        selected :: rest) :
    ∃ outbound, cfgs.findSome? (JsonConfigParser.pickOutbound jvm org) = some outbound ∧
      selected.outbound = JsonConfigParser.sanitize outbound := by
  induction cfgs with
  | nil => cases h
  | cons cfg cfgs ih =>
    rw [findSome?_cons]
    cases hpick : JsonConfigParser.pickOutbound jvm org cfg with
    | none =>
      rw [filterMap_cons_none (by rw [hpick]; rfl)] at h
      exact ih h
    | some outbound =>
      rw [filterMap_cons_some (by rw [hpick]; rfl)] at h
      cases h
      exact ⟨outbound, rfl, rfl⟩

theorem confined_json {text : Text}
    (h : JsonConfigParser.parse jvm org text = .ok (selected :: rest)) :
    Confined (proxyOutbound selected.outbound) ↔ InputHarmless jvm org (.json text) := by
  unfold JsonConfigParser.parse at h
  split at h
  · cases h
  · next root hroot =>
      dsimp only at h
      split at h
      · cases h
      · obtain ⟨outbound, hpick, hselected⟩ := configs_first (Except.ok.inj h)
        rw [hselected, confined_sanitize]
        constructor
        · intro hbut root' hroot' outbound' hpick'
          rw [hroot] at hroot'
          cases hroot'
          rw [hpick] at hpick'
          cases hpick'
          exact hbut
        · exact fun hharmless => hharmless root hroot outbound hpick

theorem confined_input {input : Input} (h : parseInput jvm org input = .ok (selected :: rest)) :
    Confined (proxyOutbound selected.outbound) ↔ InputHarmless jvm org input := by
  cases input with
  | json text =>
    simp only [parseInput] at h
    cases hparse : JsonConfigParser.parse jvm org text with
    | error e =>
      rw [hparse] at h
      cases h
    | ok out =>
      rw [hparse] at h
      cases out with
      | nil => cases h
      | cons first others =>
        have hfirst : first = selected := (List.cons.inj (Except.ok.inj h)).1
        rw [← hfirst]
        exact confined_json hparse
  | links links =>
    simp only [parseInput] at h
    split at h
    · cases h
    · obtain ⟨link, hlink, hok⟩ := parseLoop_first links none (Except.ok.inj h)
      rw [confined_parseLink hok]
      constructor
      · intro hextra link' hlink'
        rw [hlink] at hlink'
        cases hlink'
        exact hextra
      · exact fun hharmless => hharmless link hlink

theorem build_eq_ok_outbounds {rawConfig : Text} {inboundPort chainPort : Int} {config : JsonObject}
    (h : build jvm org rawConfig inboundPort chainPort = .ok config) :
    ∃ input selected rest, readInput jvm maxBase64Depth rawConfig = .ok input ∧
      parseInput jvm org input = .ok (selected :: rest) ∧
      config.opt "outbounds" =
        some (.arr [.obj (proxyOutbound selected.outbound), .obj (chainOut chainPort)]) := by
  unfold build ConfigInputParser.parse at h
  obtain ⟨configs, hconfigs, h⟩ := bind_eq_ok h
  obtain ⟨input, hinput, hparse⟩ := bind_eq_ok hconfigs
  split at h
  · cases h
  · next selected rest =>
      cases h
      exact ⟨input, selected, rest, hinput, hparse, JsonObject.opt_put_self _ _ _⟩

end Inputs

/-- **The proxy outbound is confined to the chain exactly if the input is
harmless.** -/
theorem build_confined_iff (jvm : Jvm) (org : OrgJson) (rawConfig : Text)
    (inboundPort chainPort : Int) (config : JsonObject)
    (h : build jvm org rawConfig inboundPort chainPort = .ok config) :
    ∃ proxy, config.opt "outbounds" = some (.arr [.obj proxy, .obj (chainOut chainPort)]) ∧
      (Confined proxy ↔ RawHarmless jvm org rawConfig) := by
  obtain ⟨input, selected, rest, hinput, hparse, houtbounds⟩ := build_eq_ok_outbounds h
  refine ⟨_, houtbounds, ?_⟩
  rw [confined_input hparse]
  constructor
  · intro hharmless input' hinput'
    rw [hinput] at hinput'
    cases hinput'
    exact hharmless
  · exact fun hraw => hraw input hinput

def websocketLink : Text := "vless://u@h:1?type=ws&path=%2Fa".toList

theorem build_confined_websocketLink :
    ∃ config proxy, build .basicLatin (.ofTable []) websocketLink 10808 10809 = .ok config ∧
      config.opt "outbounds" = some (.arr [.obj proxy, .obj (chainOut 10809)]) ∧
      Confined proxy := by
  have haccepted : (build .basicLatin (.ofTable []) websocketLink 10808 10809).isOk = true := by
    decide +kernel
  cases hbuild : build .basicLatin (.ofTable []) websocketLink 10808 10809 with
  | error e =>
    rw [hbuild] at haccepted
    cases haccepted
  | ok config =>
    obtain ⟨proxy, hproxy, hiff⟩ := build_confined_iff .basicLatin (.ofTable []) websocketLink
      10808 10809 config hbuild
    refine ⟨config, proxy, rfl, hproxy, hiff.mpr ?_⟩
    have hread : (readInput .basicLatin maxBase64Depth websocketLink).toOption =
        some (.links [websocketLink]) := by decide +kernel
    have hextra : (linkExtra .basicLatin (.ofTable []) websocketLink).isSome = false := by
      decide +kernel
    intro input hinput
    rw [hinput] at hread
    cases hread
    intro link hlink e he
    have hsame := mem_of_find?_eq_some hlink
    rw [mem_singleton] at hsame
    rw [hsame, mem_def] at he
    rw [he] at hextra
    cases hextra

def downloadExtra : JsonObject :=
  [("downloadSettings", .obj [("sockopt", .obj [("interface", .str "wlan0".toList)])])]

def downloadText : Text :=
  "\x7b\"downloadSettings\":\x7b\"sockopt\":\x7b\"interface\":\"wlan0\"\x7d\x7d\x7d".toList

def downloadLink : Text :=
  ("vless://u@h:1?type=xhttp&extra=%7B%22downloadSettings%22:%7B%22sockopt%22:%7B" ++
    "%22interface%22:%22wlan0%22%7D%7D%7D").toList

theorem download_sockopt_kept :
    ∃ config proxy,
      build .basicLatin (.ofTable [(downloadText, .obj downloadExtra)]) downloadLink 10808 10809 =
        .ok config ∧
      config.opt "outbounds" = some (.arr [.obj proxy, .obj (chainOut 10809)]) ∧
      ¬ Confined proxy := by
  have hkept : ((build .basicLatin (.ofTable [(downloadText, .obj downloadExtra)]) downloadLink
      10808 10809).toOption.bind fun config => (Json.obj config).at? [.key "outbounds", .index 0,
        .key "streamSettings", .key "xhttpSettings", .key "extra", .key "downloadSettings",
        .key "sockopt", .key "interface"]).isSome = true := by
    decide +kernel
  cases hbuild : build .basicLatin (.ofTable [(downloadText, .obj downloadExtra)]) downloadLink
      10808 10809 with
  | error e =>
    rw [hbuild] at hkept
    cases hkept
  | ok config =>
    obtain ⟨_, selected, _, -, -, houtbounds⟩ := build_eq_ok_outbounds hbuild
    refine ⟨config, _, rfl, houtbounds, fun hconfined => ?_⟩
    rw [hbuild] at hkept
    obtain ⟨v, hv⟩ := isSome_iff_exists.mp hkept
    have hproxy : (Json.obj config).at? [.key "outbounds", .index 0] =
        some (.obj (proxyOutbound selected.outbound)) := by
      simp [at?, step, houtbounds]
    have hplace : (Json.obj config).at? ([.key "outbounds", .index 0] ++ ([.key "streamSettings",
        .key "xhttpSettings", .key "extra", .key "downloadSettings"] ++ [.key "sockopt"] ++
          [.key "interface"])) = some v := hv
    rw [at?_append, hproxy, bind_some, at?_append] at hplace
    obtain ⟨sockopt, hsockopt, hinterface⟩ := bind_eq_some_iff.mp hplace
    have hharmless := (hconfined _ _ _ hsockopt).1 rfl
    cases sockopt with
    | obj fields =>
      rw [hharmless fields rfl] at hinterface
      cases hinterface
    | _ => cases hinterface

end XrayConfigBuilder

end BigRocket.Service
