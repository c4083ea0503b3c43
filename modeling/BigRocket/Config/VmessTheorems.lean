/-
The names of a transport in a VMess link. `StreamSettingsBuilder` knows more
names than the parser, and in any case: under one of these the parameter is
lost.
-/
import BigRocket.Lib.Except
import BigRocket.Lib.JsonPlaces
import BigRocket.Config.ConfigInputTheorems

namespace BigRocket.Config

open Lib Lib.Kotlin LinkSyntax StreamSettingsBuilder List Option

variable {jvm : Jvm} {org : OrgJson} {o o' : JsonObject} {q q' : QueryMap}

theorem trimmed_str (org : OrgJson) (o : JsonObject) (key : String) : Trimmed (str org o key) := by
  unfold str
  split
  · exact ⟨fun _ h => (by cases h), fun _ h => (by cases h)⟩
  · exact trimmed_trim

theorem v_single (q : QueryMap) (key : String) :
    v q [key] = ((q.get? key.toList).map trim).getD [] := by
  unfold v
  rw [findSome?_cons, findSome?_nil]
  cases hget : (q.get? key.toList).map trim with
  | none => rfl
  | some value =>
    by_cases hvalue : value = []
    · rw [hvalue, filter_some_neg (by simp)]
      rfl
    · rw [filter_some_pos (by simpa using hvalue)]

theorem v_congr {keys : List String}
    (h : ∀ key ∈ keys, q.get? key.toList = q'.get? key.toList) : v q keys = v q' keys := by
  unfold v
  congr 1
  induction keys with
  | nil => rfl
  | cons key keys ih =>
    rw [findSome?_cons, findSome?_cons, h key mem_cons_self,
      ih fun k hk => h k (mem_cons_of_mem key hk)]

namespace VmessLinkParser

def netText (org : OrgJson) (o : JsonObject) : Text := ifEmpty (str org o "net") "tcp".toList

def ownKeys : List String := ["type", "serviceName", "mode", "seed"]

def SameButNet (org : OrgJson) (o o' : JsonObject) : Prop :=
  ∀ key, key ≠ "net" → str org o' key = str org o key

theorem sameButNet_put (org : OrgJson) (o : JsonObject) (value : Json) :
    SameButNet org o (o.put "net" value) := by
  intro key hkey
  unfold str JsonObject.isNull JsonObject.optString
  rw [JsonObject.opt_put, if_neg hkey]

theorem get?_jsonQuery_congr (h : SameButNet org o o') {key : String} (hkey : key ∉ ownKeys) :
    (jsonQuery org o').get? key.toList = (jsonQuery org o).get? key.toList := by
  have hne : ∀ own ∈ ownKeys, key.toList ≠ own.toList := by
    intro own hown heq
    exact hkey (String.toList_injective heq ▸ hown)
  have htype := hne "type" (by decide)
  have hservice := hne "serviceName" (by decide)
  have hmode := hne "mode" (by decide)
  have hseed := hne "seed" (by decide)
  unfold jsonQuery
  simp only [apply_ite (fun q : QueryMap => q.get? key.toList), LinkedMap.get?_put, htype, hservice,
    hmode, hseed, if_false, ite_self, h "type" (by decide), h "host" (by decide),
    h "path" (by decide), h "tls" (by decide), h "sni" (by decide), h "alpn" (by decide),
    h "fp" (by decide), h "allowInsecure" (by decide), h "insecure" (by decide)]

theorem get?_type (org : OrgJson) (o : JsonObject) :
    (jsonQuery org o).get? "type".toList = some (netText org o) := by
  unfold jsonQuery netText
  simp (disch := decide) only [apply_ite (fun q : QueryMap => q.get? "type".toList),
    LinkedMap.get?_put_ne, LinkedMap.get?_put, if_true, ite_self]

theorem get?_path (org : OrgJson) (o : JsonObject) :
    (jsonQuery org o).get? "path".toList = some (str org o "path") := by
  unfold jsonQuery
  simp (disch := decide) only [apply_ite (fun q : QueryMap => q.get? "path".toList),
    LinkedMap.get?_put_ne, LinkedMap.get?_put, if_true, ite_self]

theorem get?_seed (org : OrgJson) (o : JsonObject) :
    (jsonQuery org o).get? "seed".toList =
      if netText org o = "kcp".toList then some (str org o "path") else none := by
  unfold jsonQuery netText
  simp (disch := decide) only [apply_ite (fun q : QueryMap => q.get? "seed".toList),
    LinkedMap.get?_put_ne, LinkedMap.get?_put, LinkedMap.get?_empty, if_true, ite_self]

theorem get?_serviceName (org : OrgJson) (o : JsonObject) :
    (jsonQuery org o).get? "serviceName".toList =
      if netText org o = "grpc".toList then some (str org o "path") else none := by
  unfold jsonQuery netText
  simp (disch := decide) only [apply_ite (fun q : QueryMap => q.get? "serviceName".toList),
    LinkedMap.get?_put_ne, LinkedMap.get?_put, LinkedMap.get?_empty, if_true, ite_self]

/-- The transport is given one of the names of xhttp that the parser looks for. -/
def NamesXhttp (org : OrgJson) (o : JsonObject) : Prop :=
  netText org o = "xhttp".toList ∨ netText org o = "splithttp".toList

instance : Decidable (NamesXhttp org o) := instDecidableOr

theorem get?_mode (org : OrgJson) (o : JsonObject) :
    (jsonQuery org o).get? "mode".toList =
      if NamesXhttp org o then some (ifEmpty (str org o "type") "auto".toList)
      else if netText org o = "grpc".toList then
        some (if str org o "type" = "multi".toList then "multi".toList else "gun".toList)
      else none := by
  unfold jsonQuery NamesXhttp netText
  simp (disch := decide) only [apply_ite (fun q : QueryMap => q.get? "mode".toList),
    LinkedMap.get?_put_ne, LinkedMap.get?_put, LinkedMap.get?_empty, if_true, ite_self]
  rfl

theorem trim_str (org : OrgJson) (o : JsonObject) (key : String) :
    trim (str org o key) = str org o key :=
  trim_of_trimmed (trimmed_str org o key)

theorem netText_ne_nil (org : OrgJson) (o : JsonObject) : netText org o ≠ [] := by
  unfold netText ifEmpty
  split
  · decide
  · assumption

theorem trim_netText (org : OrgJson) (o : JsonObject) : trim (netText org o) = netText org o := by
  unfold netText ifEmpty
  split
  · decide
  · exact trim_str org o "net"

theorem v_type (org : OrgJson) (o : JsonObject) :
    v (jsonQuery org o) ["type", "net"] = netText org o := by
  unfold v
  rw [findSome?_cons, get?_type, map_some, trim_netText,
    filter_some_pos (by simpa using netText_ne_nil org o)]
  rfl

def lookedFor : List (Text × Network) :=
  [("grpc".toList, .grpc), ("kcp".toList, .kcp), ("xhttp".toList, .xhttp),
    ("splithttp".toList, .xhttp)]

theorem network_of_netText {name : Text} {net : Network} (h : netText org o = name)
    (hname : (name, net) ∈ lookedFor) :
    network jvm (jsonQuery org o) = .ok net := by
  have hlower : ∀ s : Text, s.IsAscii → jvm.lowercase s = s.toAsciiLowercase :=
    fun s hs => jvm.unicode.toLowercase_ascii hs
  unfold network
  rw [v_type, h]
  fin_cases hname <;> rw [hlower _ (by decide)] <;> decide

/-! ## The settings of a transport -/

theorem v_shared (h : SameButNet org o o') (keys : List String)
    (hkeys : ∀ key ∈ keys, key ∉ ownKeys) :
    v (jsonQuery org o') keys = v (jsonQuery org o) keys :=
  v_congr fun key hkey => get?_jsonQuery_congr h (hkeys key hkey)

theorem sni_congr (h : SameButNet org o o') (address : Text) :
    sni jvm (jsonQuery org o') address = sni jvm (jsonQuery org o) address := by
  unfold sni
  rw [v_shared h _ (by decide), v_shared h _ (by decide)]

theorem putSecurity_congr (h : SameButNet org o o') (address defaultSecurity : Text)
    (stream : JsonObject) :
    putSecurity jvm (jsonQuery org o') address defaultSecurity stream =
      putSecurity jvm (jsonQuery org o) address defaultSecurity stream := by
  unfold putSecurity tlsSettings realitySettings insecure
  simp only [sni_congr h, v_shared h ["security"] (by decide),
    v_shared h ["allowInsecure", "insecure"] (by decide),
    v_shared h ["pinnedPeerCertSha256"] (by decide), v_shared h ["fp", "fingerprint"] (by decide),
    v_shared h ["alpn"] (by decide), v_shared h ["pbk", "publicKey"] (by decide),
    v_shared h ["sid", "shortId"] (by decide), v_shared h ["spx", "spiderX"] (by decide),
    v_shared h ["pqv", "mldsa65Verify"] (by decide)]

theorem pathAndHost_congr (h : SameButNet org o o') :
    pathAndHost (jsonQuery org o') = pathAndHost (jsonQuery org o) := by
  unfold pathAndHost
  rw [v_shared h _ (by decide), v_shared h _ (by decide)]

theorem v_path (org : OrgJson) (o : JsonObject) :
    v (jsonQuery org o) ["path"] = str org o "path" := by
  rw [v_single, get?_path, map_some, trim_str, getD_some]

theorem v_seed (org : OrgJson) (o : JsonObject) :
    v (jsonQuery org o) ["seed"] =
      if netText org o = "kcp".toList then str org o "path" else [] := by
  rw [v_single, get?_seed]
  split
  · rw [map_some, trim_str, getD_some]
  · rfl

theorem serviceName_jsonQuery (org : OrgJson) (o : JsonObject) :
    ifEmpty (v (jsonQuery org o) ["serviceName"]) (v (jsonQuery org o) ["path"]) =
      str org o "path" := by
  rw [v_single, get?_serviceName, v_path]
  split
  · rw [map_some, trim_str, getD_some]
    exact ite_self _
  · rfl

theorem multiMode_jsonQuery (h : ¬ NamesXhttp org o) :
    (jvm.lowercase (v (jsonQuery org o) ["mode"]) = "multi".toList) ↔
      netText org o = "grpc".toList ∧ str org o "type" = "multi".toList := by
  have hlower : ∀ s : Text, s.IsAscii → jvm.lowercase s = s.toAsciiLowercase :=
    fun s hs => jvm.unicode.toLowercase_ascii hs
  rw [v_single, get?_mode, if_neg h]
  by_cases hgrpc : netText org o = "grpc".toList
  · by_cases hmulti : str org o "type" = "multi".toList
    · rw [if_pos hgrpc, if_pos hmulti, map_some, getD_some, hlower _ (by decide)]
      exact iff_of_true (by decide) ⟨hgrpc, hmulti⟩
    · rw [if_pos hgrpc, if_neg hmulti, map_some, getD_some, hlower _ (by decide)]
      exact iff_of_false (by decide) fun hboth => hmulti hboth.2
  · rw [if_neg hgrpc, map_none, getD_none, hlower _ (by decide)]
    exact iff_of_false (by decide) fun hboth => hgrpc hboth.1

theorem xhttpMode_jsonQuery (h : netText org o ≠ "grpc".toList) :
    ifEmpty (v (jsonQuery org o) ["mode"]) "auto".toList =
      if NamesXhttp org o then ifEmpty (str org o "type") "auto".toList else "auto".toList := by
  rw [v_single, get?_mode, if_neg h]
  by_cases hxhttp : NamesXhttp org o
  · rw [if_pos hxhttp, if_pos hxhttp, map_some, getD_some]
    by_cases htype : str org o "type" = []
    · rw [htype]
      decide
    · rw [ifEmpty, ifEmpty, if_neg htype, trim_str, if_neg htype]
  · rw [if_neg hxhttp, if_neg hxhttp]
    rfl

/-! ## Two names of one transport -/

/-- The parser reads as much of the JSON under the one name of the transport as
under the other, or there is nothing in it that it could miss. -/
structure ReadsAlike (org : OrgJson) (o o' : JsonObject) : Prop where
  grpc : (netText org o' = "grpc".toList ↔ netText org o = "grpc".toList) ∨
    str org o "type" ≠ "multi".toList
  kcp : (netText org o' = "kcp".toList ↔ netText org o = "kcp".toList) ∨ str org o "path" = []
  xhttp : (NamesXhttp org o' ↔ NamesXhttp org o) ∨
    ifEmpty (str org o "type") "auto".toList = "auto".toList

theorem put_inj (o : JsonObject) (key : String) {a b : JsonObject} :
    o.put key (.obj a) = o.put key (.obj b) ↔ a = b := by
  constructor
  · intro h
    have hopt := congrArg (JsonObject.opt · key) h
    simp only [JsonObject.opt_put_self] at hopt
    exact Json.obj.inj (Option.some.inj hopt)
  · rintro rfl
    rfl

section Transport

variable {net : Network} {name : Text}

theorem netText_ne (named : Network) (hnet : network jvm (jsonQuery org o) = .ok net)
    (hname : (name, named) ∈ lookedFor) (hne : net ≠ named) : netText org o ≠ name := by
  intro h
  rw [network_of_netText h hname] at hnet
  exact hne (Except.ok.inj hnet).symm

theorem not_namesXhttp (hnet : network jvm (jsonQuery org o) = .ok net) (hne : net ≠ .xhttp) :
    ¬ NamesXhttp org o := by
  rintro (h | h)
  · exact netText_ne .xhttp hnet (by decide) hne h
  · exact netText_ne .xhttp hnet (by decide) hne h

theorem opt_putUnlessEmpty (o : JsonObject) (key k : String) (s : Text) :
    (putUnlessEmpty o key s).opt k = if k = key ∧ s ≠ [] then some (.str s) else o.opt k := by
  unfold putUnlessEmpty
  by_cases hs : s = []
  · rw [if_pos hs, if_neg fun hboth => hboth.2 hs]
  · rw [if_neg hs, JsonObject.opt_put]
    by_cases hk : k = key
    · rw [if_pos hk, if_pos ⟨hk, hs⟩]
    · rw [if_neg hk, if_neg fun hboth => hk hboth.1]

theorem and_iff_and_iff {p p' r : Prop} : (p' ∧ r ↔ p ∧ r) ↔ ((p' ↔ p) ∨ ¬ r) := by
  by_cases hr : r <;> simp [hr]

theorem ite_eq_ite_iff {p p' : Prop} [Decidable p] [Decidable p'] {s t : Text} :
    ((if p' then s else t) = if p then s else t) ↔ ((p' ↔ p) ∨ s = t) := by
  by_cases hp : p <;> by_cases hp' : p' <;> simp [hp, hp', eq_comm]

theorem grpcSettings_eq_iff (h : SameButNet org o o') (hx : ¬ NamesXhttp org o)
    (hx' : ¬ NamesXhttp org o') :
    grpcSettings jvm (jsonQuery org o') = grpcSettings jvm (jsonQuery org o) ↔
      ((netText org o' = "grpc".toList ↔ netText org o = "grpc".toList) ∨
        str org o "type" ≠ "multi".toList) := by
  have hmode : (grpcSettings jvm (jsonQuery org o') = grpcSettings jvm (jsonQuery org o)) ↔
      ((jvm.lowercase (v (jsonQuery org o') ["mode"]) = "multi".toList) ↔
        (jvm.lowercase (v (jsonQuery org o) ["mode"]) = "multi".toList)) := by
    unfold grpcSettings
    rw [serviceName_jsonQuery, serviceName_jsonQuery, h "path" (by decide),
      v_shared h ["authority"] (by decide)]
    constructor
    · intro heq
      have hopt := congrArg (JsonObject.opt · "multiMode") heq
      simp only [opt_putUnlessEmpty, JsonObject.opt_put_self, String.reduceEq, false_and,
        if_false] at hopt
      exact decide_eq_decide.mp (Json.bool.inj (Option.some.inj hopt))
    · intro hiff
      rw [decide_eq_decide.mpr hiff]
  rw [hmode, multiMode_jsonQuery hx, multiMode_jsonQuery hx', h "type" (by decide)]
  exact and_iff_and_iff

theorem kcpSettings_eq_iff (h : SameButNet org o o') :
    kcpSettings (jsonQuery org o') = kcpSettings (jsonQuery org o) ↔
      ((netText org o' = "kcp".toList ↔ netText org o = "kcp".toList) ∨
        str org o "path" = []) := by
  have hseed : (kcpSettings (jsonQuery org o') = kcpSettings (jsonQuery org o)) ↔
      v (jsonQuery org o') ["seed"] = v (jsonQuery org o) ["seed"] := by
    unfold kcpSettings
    rw [v_shared h ["headerType"] (by decide)]
    constructor
    · intro heq
      have hopt := congrArg (JsonObject.opt · "seed") heq
      simp only [opt_putUnlessEmpty, JsonObject.opt_put, true_and, String.reduceEq,
        if_false] at hopt
      rw [show JsonObject.opt [] "seed" = none from rfl] at hopt
      split_ifs at hopt with hs ht ht
      · exact Json.str.inj (Option.some.inj hopt)
      · rw [not_not.mp hs, not_not.mp ht]
    · intro hsame
      rw [hsame]
  rw [hseed, v_seed, v_seed, h "path" (by decide)]
  exact ite_eq_ite_iff

theorem xhttpSettings_eq_iff (h : SameButNet org o o') (hg : netText org o ≠ "grpc".toList)
    (hg' : netText org o' ≠ "grpc".toList) :
    xhttpSettings org (jsonQuery org o') = xhttpSettings org (jsonQuery org o) ↔
      ((NamesXhttp org o' ↔ NamesXhttp org o) ∨
        ifEmpty (str org o "type") "auto".toList = "auto".toList) := by
  have hmode : (xhttpSettings org (jsonQuery org o') = xhttpSettings org (jsonQuery org o)) ↔
      ifEmpty (v (jsonQuery org o') ["mode"]) "auto".toList =
        ifEmpty (v (jsonQuery org o) ["mode"]) "auto".toList := by
    unfold xhttpSettings extra
    rw [pathAndHost_congr h, v_shared h ["extra"] (by decide)]
    constructor
    · intro heq
      have hopt := congrArg (JsonObject.opt · "mode") heq
      split at hopt <;> simpa only [JsonObject.opt_put, String.reduceEq, if_false, if_true,
        Option.some.injEq, Json.str.injEq] using hopt
    · intro hsame
      rw [hsame]
  rw [hmode, xhttpMode_jsonQuery hg, xhttpMode_jsonQuery hg', h "type" (by decide)]
  exact ite_eq_ite_iff

variable (h : SameButNet org o o') (hnet : network jvm (jsonQuery org o) = .ok net)
  (hnet' : network jvm (jsonQuery org o') = .ok net)

include hnet hnet'

theorem netText_iff (named : Network) (hname : (name, named) ∈ lookedFor) (hne : net ≠ named) :
    netText org o' = name ↔ netText org o = name :=
  iff_of_false (netText_ne named hnet' hname hne) (netText_ne named hnet hname hne)

theorem namesXhttp_iff (hne : net ≠ .xhttp) : NamesXhttp org o' ↔ NamesXhttp org o :=
  iff_of_false (not_namesXhttp hnet' hne) (not_namesXhttp hnet hne)

theorem readsAlike_of_shared (hgrpc : net ≠ .grpc) (hkcp : net ≠ .kcp) (hxhttp : net ≠ .xhttp) :
    ReadsAlike org o o' where
  grpc := .inl (netText_iff hnet hnet' .grpc (by decide) hgrpc)
  kcp := .inl (netText_iff hnet hnet' .kcp (by decide) hkcp)
  xhttp := .inl (namesXhttp_iff hnet hnet' hxhttp)

include h

theorem putTransport_eq_iff (stream : JsonObject) :
    putTransport jvm org (jsonQuery org o') net stream =
      putTransport jvm org (jsonQuery org o) net stream ↔ ReadsAlike org o o' := by
  cases net with
  | tcp =>
    refine iff_of_true ?_ (readsAlike_of_shared hnet hnet' (by decide) (by decide) (by decide))
    unfold putTransport tcpHeader
    simp only [v_shared h ["headerType"] (by decide), v_shared h ["path"] (by decide),
      v_shared h ["host"] (by decide)]
  | ws =>
    refine iff_of_true ?_ (readsAlike_of_shared hnet hnet' (by decide) (by decide) (by decide))
    exact (put_inj _ _).mpr (pathAndHost_congr h)
  | httpupgrade =>
    refine iff_of_true ?_ (readsAlike_of_shared hnet hnet' (by decide) (by decide) (by decide))
    exact (put_inj _ _).mpr (pathAndHost_congr h)
  | http =>
    refine iff_of_true ((put_inj _ _).mpr ?_)
      (readsAlike_of_shared hnet hnet' (by decide) (by decide) (by decide))
    unfold httpSettings
    rw [v_shared h _ (by decide), v_shared h _ (by decide)]
  | grpc =>
    refine (put_inj _ _).trans ((grpcSettings_eq_iff h (not_namesXhttp hnet (by decide))
      (not_namesXhttp hnet' (by decide))).trans ⟨fun hgrpc => ⟨hgrpc, ?_, ?_⟩, fun ha => ha.grpc⟩)
    · exact .inl (netText_iff hnet hnet' .kcp (by decide) (by decide))
    · exact .inl (namesXhttp_iff hnet hnet' (by decide))
  | kcp =>
    refine (put_inj _ _).trans ((kcpSettings_eq_iff h).trans
      ⟨fun hkcp => ⟨?_, hkcp, ?_⟩, fun ha => ha.kcp⟩)
    · exact .inl (netText_iff hnet hnet' .grpc (by decide) (by decide))
    · exact .inl (namesXhttp_iff hnet hnet' (by decide))
  | xhttp =>
    have hgrpc : netText org o ≠ "grpc".toList := netText_ne .grpc hnet (by decide) (by decide)
    have hgrpc' : netText org o' ≠ "grpc".toList :=
      netText_ne .grpc hnet' (by decide) (by decide)
    refine (put_inj _ _).trans ((xhttpSettings_eq_iff h hgrpc hgrpc').trans
      ⟨fun hxhttp => ⟨?_, ?_, hxhttp⟩, fun ha => ha.xhttp⟩)
    · exact .inl (netText_iff hnet hnet' .grpc (by decide) (by decide))
    · exact .inl (netText_iff hnet hnet' .kcp (by decide) (by decide))

end Transport

/-! ## Two links -/

/-- The parser after the JSON has been read, with the parameters of the stream apart. -/
def ofFields (jvm : Jvm) (org : OrgJson) (o : JsonObject) (q : QueryMap) :
    Except ConfigParseException ParsedConfig :=
  match portOf jvm (str org o "port") with
  | none => .error ⟨"لینک vmess پورت معتبر ندارد".toList⟩
  | some port => do
      if str org o "add" = [] then throw ⟨"لینک vmess آدرس سرور ندارد".toList⟩
      requireUserId (str org o "id")
      outbound jvm org (str org o "id") (str org o "add") port
        ((toIntOrNull jvm (str org o "aid")).getD 0) (ifEmpty (str org o "scy") "auto".toList) q
        (str org o "ps")

theorem parse_of_json {link decoded : Text} (hjson : jsonText link = some decoded)
    (hobject : org.object decoded = some o) :
    parse jvm org link = ofFields jvm org o (jsonQuery org o) := by
  rw [parse, hjson]
  dsimp only
  rw [parseJson, hobject]
  rfl

theorem ofFields_congr (h : SameButNet org o o') (q : QueryMap) :
    ofFields jvm org o' q = ofFields jvm org o q := by
  unfold ofFields
  simp only [h "port" (by decide), h "add" (by decide), h "id" (by decide), h "aid" (by decide),
    h "scy" (by decide), h "ps" (by decide)]

theorem ofFields_eq_ok {config : ParsedConfig} (h : ofFields jvm org o q = .ok config) :
    ∃ (base stream : JsonObject),
      build jvm org q (str org o "add") "none".toList = .ok stream ∧
      config.outbound = base.put "streamSettings" (.obj stream) ∧
      ∀ q' stream', build jvm org q' (str org o "add") "none".toList = .ok stream' →
        ∃ config', ofFields jvm org o q' = .ok config' ∧
          config'.outbound = base.put "streamSettings" (.obj stream') := by
  unfold ofFields at h ⊢
  cases hport : portOf jvm (str org o "port") with
  | none =>
    rw [hport] at h
    cases h
  | some port =>
    rw [hport] at h
    dsimp only at h ⊢
    by_cases hadd : str org o "add" = []
    · rw [if_pos hadd] at h
      cases h
    · simp only [if_neg hadd] at h ⊢
      obtain ⟨_, hid, h⟩ := bind_eq_ok h
      unfold outbound at h ⊢
      obtain ⟨stream, hstream, h⟩ := bind_eq_ok h
      cases h
      dsimp only [ParsedConfig.of]
      refine ⟨_, stream, hstream, rfl, ?_⟩
      intro q' stream' hstream'
      rw [hid, hstream']
      exact ⟨_, rfl, rfl⟩

theorem build_otherName (h : SameButNet org o o')
    (hsame : network jvm (jsonQuery org o') = network jvm (jsonQuery org o))
    {address defaultSecurity : Text} {stream : JsonObject}
    (hbuild : build jvm org (jsonQuery org o) address defaultSecurity = .ok stream) :
    ∃ stream', build jvm org (jsonQuery org o') address defaultSecurity = .ok stream' ∧
      (stream' = stream ↔ ReadsAlike org o o') := by
  unfold build at hbuild ⊢
  obtain ⟨net, hnet, hbuild⟩ := bind_eq_ok hbuild
  obtain ⟨secured, hsecured, hbuild⟩ := bind_eq_ok hbuild
  cases hbuild
  have hnet' := hsame.trans hnet
  refine ⟨putTransport jvm org (jsonQuery org o') net secured, ?_,
    putTransport_eq_iff h hnet hnet' secured⟩
  rw [hnet']
  dsimp only [bind, Except.bind]
  rw [putSecurity_congr h, hsecured]
  rfl

theorem sameOutbound_iff_readsAlike {link link' decoded decoded' : Text} {config : ParsedConfig}
    (value : Json) (hjson : jsonText link = some decoded)
    (hobject : org.object decoded = some o) (haccepted : parse jvm org link = .ok config)
    (hjson' : jsonText link' = some decoded')
    (hobject' : org.object decoded' = some (o.put "net" value))
    (hsame : network jvm (jsonQuery org (o.put "net" value)) = network jvm (jsonQuery org o)) :
    (∃ config', parse jvm org link' = .ok config' ∧ config'.outbound = config.outbound) ↔
      ReadsAlike org o (o.put "net" value) := by
  have hbut := sameButNet_put org o value
  rw [parse_of_json hjson hobject] at haccepted
  rw [parse_of_json hjson' hobject', ofFields_congr hbut]
  obtain ⟨base, stream, hbuild, hbase, hother⟩ := ofFields_eq_ok haccepted
  obtain ⟨stream', hbuild', halike⟩ := build_otherName hbut hsame hbuild
  obtain ⟨other, hok, hother⟩ := hother _ stream' hbuild'
  rw [← halike, ← put_inj base "streamSettings", ← hbase, ← hother, hok]
  constructor
  · rintro ⟨config', hconfig', hout⟩
    rw [← hout, ← Except.ok.inj hconfig']
  · intro hout
    exact ⟨other, rfl, hout⟩

def linkOf (variant : Base64.Variant) (json : Text) : Text :=
  "vmess".toList ++ [':', '/', '/'] ++ Base64.encode variant (Utf8.encode json)

theorem jsonText_linkOf (variant : Base64.Variant) {json : Text}
    (hbrace : (trimStart json).head? = some '\x7b')
    (hjson : ∀ c ∈ json, ConfigInputParser.isTextChar c = true) :
    jsonText (linkOf variant json) = some json := by
  have hne : json ≠ [] := by
    rintro rfl
    cases hbrace
  have hcut : ((cut [':', '/', '/'] (linkOf variant json)).map Prod.snd).getD
      (linkOf variant json) = Base64.encode variant (Utf8.encode json) := by
    have hscheme : ':' ∉ "vmess".toList := by decide
    rfl
  have htrim : trim (Base64.encode variant (Utf8.encode json)) =
      Base64.encode variant (Utf8.encode json) :=
    trim_of_trimmed (trimmed_of_isVisible fun _ hc => LooseBase64.isVisible_of_mem_encode hc)
  have hhash : '#' ∉ Base64.encode variant (Utf8.encode json) := fun hc =>
    absurd (ConfigInputParser.mem_encode_plain hc).1 (by decide)
  unfold jsonText
  simp only [hcut, htrim, substringBefore_of_notMem hhash,
    ConfigInputParser.decodeLoose_encode variant hne hjson]
  rw [filter_some_pos (by simpa using hbrace)]

def sampleJson (net path : String) : JsonObject :=
  [("add", .str "h".toList), ("port", number 1), ("id", .str "u".toList), ("net", .str net.toList),
    ("path", .str path.toList)]

def sampleText (net path : String) : Text :=
  "\x7b\"add\":\"h\",\"port\":1,\"id\":\"u\",\"net\":\"".toList ++ net.toList ++
    "\",\"path\":\"".toList ++ path.toList ++ "\"\x7d".toList

def sampleLibrary (net net' path : String) : OrgJson where
  nextValue s := List.lookup s [(sampleText net path, .obj (sampleJson net path)),
    (sampleText net' path, .obj (sampleJson net' path))]
  text _ := "1".toList

def sampleLink (net path : String) : Text :=
  linkOf { urlSafe := false, pad := true } (sampleText net path)

theorem object_sampleText (net net' path : String) :
    (sampleLibrary net net' path).object (sampleText net path) = some (sampleJson net path) := by
  unfold OrgJson.object sampleLibrary
  simp

theorem jsonText_sampleLink {net path : String}
    (h : (sampleText net path).all ConfigInputParser.isTextChar = true) :
    jsonText (sampleLink net path) = some (sampleText net path) :=
  jsonText_linkOf _ rfl (all_eq_true.mp h)

theorem sameOutbound_webSocket :
    ∃ config config',
      parse .basicLatin (sampleLibrary "ws" "WebSocket" "/s") (sampleLink "ws" "/s") = .ok config ∧
      parse .basicLatin (sampleLibrary "ws" "WebSocket" "/s") (sampleLink "WebSocket" "/s") =
        .ok config' ∧
      config'.outbound = config.outbound := by
  have hws : jsonText (sampleLink "ws" "/s") = some (sampleText "ws" "/s") :=
    jsonText_sampleLink (by decide)
  have hwebSocket : jsonText (sampleLink "WebSocket" "/s") = some (sampleText "WebSocket" "/s") :=
    jsonText_sampleLink (by decide)
  have hobject := object_sampleText "ws" "WebSocket" "/s"
  have haccepted : (parse .basicLatin (sampleLibrary "ws" "WebSocket" "/s")
      (sampleLink "ws" "/s")).isOk = true := by
    rw [parse_of_json hws hobject]
    decide
  cases hconfig : parse .basicLatin (sampleLibrary "ws" "WebSocket" "/s")
      (sampleLink "ws" "/s") with
  | error e =>
    rw [hconfig] at haccepted
    cases haccepted
  | ok config =>
    obtain ⟨config', hconfig', houtbound⟩ :=
      (sameOutbound_iff_readsAlike (.str "WebSocket".toList) hws hobject hconfig
        hwebSocket rfl rfl).mpr ⟨.inl (by decide), .inl (by decide), .inl (by decide)⟩
    exact ⟨config, config', rfl, hconfig', houtbound⟩

def seedOf (found : Except ConfigParseException ParsedConfig) : Option Text :=
  match found.toOption.bind fun config =>
    (Json.obj config.outbound).at? [.key "streamSettings", .key "kcpSettings", .key "seed"] with
  | some (.str seed) => some seed
  | _ => none

theorem mkcp_losesSeed :
    jsonText (sampleLink "kcp" "s") = some (sampleText "kcp" "s") ∧
    jsonText (sampleLink "mkcp" "s") = some (sampleText "mkcp" "s") ∧
    (sampleJson "kcp" "s").put "net" (.str "mkcp".toList) = sampleJson "mkcp" "s" ∧
    seedOf (parse .basicLatin (sampleLibrary "kcp" "mkcp" "s") (sampleLink "kcp" "s")) =
      some "s".toList ∧
    (parse .basicLatin (sampleLibrary "kcp" "mkcp" "s") (sampleLink "mkcp" "s")).isOk = true ∧
    seedOf (parse .basicLatin (sampleLibrary "kcp" "mkcp" "s") (sampleLink "mkcp" "s")) = none := by
  have hkcp : jsonText (sampleLink "kcp" "s") = some (sampleText "kcp" "s") :=
    jsonText_sampleLink (by decide)
  have hmkcp : jsonText (sampleLink "mkcp" "s") = some (sampleText "mkcp" "s") :=
    jsonText_sampleLink (by decide)
  have hobject' : (sampleLibrary "kcp" "mkcp" "s").object (sampleText "mkcp" "s") =
      some (sampleJson "mkcp" "s") := rfl
  rw [parse_of_json hkcp (object_sampleText "kcp" "mkcp" "s"), parse_of_json hmkcp hobject']
  exact ⟨hkcp, hmkcp, rfl, by decide, by decide, by decide⟩

end VmessLinkParser

end BigRocket.Config
