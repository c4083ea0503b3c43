/-
Whether the proxy outbound that `XrayConfigBuilder` makes can dial around the
chain. Only fixed places are written or cleared; what is below any other key is
taken over as it came.
-/
import BigRocket.Service.XrayConfigBuilder
import BigRocket.Lib.JsonPlaces

namespace BigRocket.Service

open Lib Lib.Json Config List Option

namespace XrayConfigBuilder

/-! ## Entries that lead a dial elsewhere -/

def dialKeys : List String := ["sockopt", "proxySettings", "sendThrough", "mux"]

/-- A `sockopt` object is the one that dials through the chain, and none of
the other keys is there. -/
def Harmless (key : String) (value : Json) : Prop :=
  (key = "sockopt" → ∀ o, value = .obj o → o = chainSockopt) ∧
    key ≠ "proxySettings" ∧ key ≠ "sendThrough" ∧ key ≠ "mux"

def Confined (outbound : JsonObject) : Prop := Everywhere Harmless (.obj outbound)

theorem harmless_of_key {key : String} {value : Json} (h : key ∉ dialKeys) :
    Harmless key value := by
  simp only [dialKeys, mem_cons, not_mem_nil, or_false, not_or] at h
  exact ⟨fun hkey => absurd hkey h.1, h.2⟩

section Put

variable {o : JsonObject} {key : String} (h : Confined o) (hkey : dialKeys.contains key = false)

include h hkey

theorem Confined.put {value : Json} (hvalue : Everywhere Harmless value) :
    Confined (o.put key value) :=
  everywhere_put h (harmless_of_key (by simpa using hkey)) hvalue

theorem Confined.putStr {s : Text} : Confined (o.put key (.str s)) := h.put hkey (everywhere_str s)

theorem Confined.putNumber {n : Int} : Confined (o.put key (number n)) :=
  h.put hkey (everywhere_num _)

theorem Confined.putTexts {items : List Text} : Confined (o.put key (texts items)) := by
  refine h.put hkey ((everywhere_arr _).mpr fun v hv => ?_)
  obtain ⟨s, -, rfl⟩ := mem_map.mp hv
  exact everywhere_str s

theorem Confined.putUnlessEmpty {s : Text} : Confined (putUnlessEmpty o key s) := by
  unfold Config.putUnlessEmpty
  split
  · exact h
  · exact h.putStr hkey

end Put

theorem confined_nil : Confined [] := everywhere_nil

theorem confined_chainSockopt : Confined chainSockopt := confined_nil.putStr rfl

/-! ## The builder -/

def Overwritten (selected : JsonObject) (path : List Step) : Prop :=
  [.key "tag"] <+: path ∨ [.key "mux"] <+: path ∨
    [.key "streamSettings", .key "sockopt"] <+: path ∨
    ([.key "streamSettings"] <+: path ∧ selected.optJSONObject "streamSettings" = none)

variable (stream o : JsonObject) {k : String}

theorem overwritten_cons {selected : JsonObject} {path : List Step} :
    Overwritten selected (.key k :: path) ↔
      k = "tag" ∨ k = "mux" ∨ (k = "streamSettings" ∧
        ([.key "sockopt"] <+: path ∨ selected.optJSONObject "streamSettings" = none)) := by
  simp only [Overwritten, cons_prefix_cons, nil_prefix, and_true, Step.key.injEq]
  tauto

theorem opt_proxyOutbound (selected : JsonObject) (k : String) :
    (proxyOutbound selected).opt k =
      if k = "mux" then none
      else if k = "streamSettings" then
        some (.obj (((selected.optJSONObject "streamSettings").getD []).put "sockopt"
          (.obj chainSockopt)))
      else if k = "tag" then some (.str "proxy".toList)
      else selected.opt k := by
  have hstream : (selected.put "tag" (.str "proxy".toList)).optJSONObject "streamSettings" =
      selected.optJSONObject "streamSettings" := by
    rw [JsonObject.optJSONObject, JsonObject.opt_put, if_neg (by decide)]
    rfl
  rw [proxyOutbound, JsonObject.opt_remove, JsonObject.opt_put, JsonObject.opt_put, hstream]

theorem confined_put_sockopt :
    Confined (stream.put "sockopt" (.obj chainSockopt)) ↔
      EverywhereBut (fun path => [.key "sockopt"] <+: path) Harmless (.obj stream) := by
  rw [Confined, everywhere_iff_everywhereBut, everywhereBut_obj, everywhereBut_obj]
  refine forall_congr' fun k => ?_
  rw [JsonObject.opt_put]
  by_cases hk : k = "sockopt"
  · subst hk
    rw [if_pos rfl, entryBut_some, ← everywhere_iff_everywhereBut]
    refine iff_of_true ⟨fun _ => ?_, confined_chainSockopt⟩ (entryBut_place ?_)
    · exact ⟨fun _ o ho => (Json.obj.inj ho).symm, by decide⟩
    · simp [cons_prefix_cons]
  · rw [if_neg hk]
    apply entryBut_congr
    simp [cons_prefix_cons, Ne.symm hk]

theorem confined_proxyOutbound (selected : JsonObject) :
    Confined (proxyOutbound selected) ↔
      EverywhereBut (Overwritten selected) Harmless (.obj selected) := by
  rw [Confined, everywhere_iff_everywhereBut, everywhereBut_obj, everywhereBut_obj]
  refine forall_congr' fun k => ?_
  rw [opt_proxyOutbound]
  split_ifs with hmux hstream htag
  · exact iff_of_true entryBut_none (entryBut_place fun _ => overwritten_cons.mpr (by simp [hmux]))
  · subst hstream
    rw [entryBut_some, ← everywhere_iff_everywhereBut]
    cases hopt : selected.optJSONObject "streamSettings" with
    | none =>
      refine iff_of_true ⟨fun _ => harmless_of_key (by decide), ?_⟩ (entryBut_place ?_)
      · exact (confined_put_sockopt []).mpr
          ((everywhere_iff_everywhereBut.mp everywhere_nil).mono fun _ h => h.elim)
      · exact fun _ => overwritten_cons.mpr (by simp [hopt])
    | some stream =>
      rw [JsonObject.opt_of_optJSONObject hopt, entryBut_some, getD_some]
      refine and_congr ?_ ((confined_put_sockopt stream).trans (everywhereBut_congr ?_))
      · exact iff_of_true (fun _ => harmless_of_key (by decide))
          (fun _ => harmless_of_key (by decide))
      · intro path
        rw [overwritten_cons]
        simp [hopt]
  · subst htag
    rw [entryBut_some]
    refine iff_of_true ⟨fun _ => harmless_of_key (by decide), ?_⟩ (entryBut_place ?_)
    · exact everywhere_iff_everywhereBut.mp (everywhere_str _)
    · exact fun _ => overwritten_cons.mpr (by simp)
  · apply entryBut_congr
    intro path
    rw [overwritten_cons]
    simp [hmux, hstream, htag]

/-! ## An outbound from JSON -/

def Cleared (path : List Step) : Prop :=
  [.key "proxySettings"] <+: path ∨ [.key "sendThrough"] <+: path ∨
    [.key "streamSettings", .key "tlsSettings", .key "show"] <+: path ∨
    [.key "streamSettings", .key "realitySettings", .key "show"] <+: path

theorem cleared_cons {path : List Step} :
    Cleared (.key k :: path) ↔ k = "proxySettings" ∨ k = "sendThrough" ∨
      (k = "streamSettings" ∧ ([.key "tlsSettings", .key "show"] <+: path ∨
        [.key "realitySettings", .key "show"] <+: path)) := by
  simp only [Cleared, cons_prefix_cons, nil_prefix, and_true, Step.key.injEq]
  tauto

theorem opt_removeIn (key field k : String) :
    (JsonConfigParser.removeIn o key field).opt k =
      if k = key then (o.opt key).map (without field) else o.opt k := by
  unfold JsonConfigParser.removeIn JsonObject.optJSONObject
  split
  · next inner hinner =>
      split at hinner
      · next hopt =>
          cases hinner
          rw [JsonObject.opt_put, hopt]
          rfl
      · cases hinner
  · next hnone =>
      split at hnone
      · cases hnone
      · next hother =>
          by_cases hk : k = key
          · rw [if_pos hk, hk]
            cases hopt : o.opt key with
            | none => rfl
            | some v =>
              cases v with
              | obj fields => exact absurd hopt (hother fields)
              | _ => rfl
          · rw [if_neg hk]

theorem opt_sanitizeSockopt (hk : k ≠ "sockopt") :
    (JsonConfigParser.sanitizeSockopt stream).opt k = stream.opt k := by
  unfold JsonConfigParser.sanitizeSockopt
  split
  · dsimp only
    split
    · rw [JsonObject.opt_remove, if_neg hk]
    · rw [JsonObject.opt_put, if_neg hk]
  · rfl

theorem opt_sanitizeStream (hk : k ≠ "sockopt") :
    (JsonConfigParser.sanitizeStream stream).opt k =
      if k = "tlsSettings" ∨ k = "realitySettings" then (stream.opt k).map (without "show")
      else stream.opt k := by
  rw [JsonConfigParser.sanitizeStream, opt_removeIn, opt_removeIn, opt_removeIn]
  simp only [opt_sanitizeSockopt stream hk,
    opt_sanitizeSockopt stream (k := "tlsSettings") (by decide),
    opt_sanitizeSockopt stream (k := "realitySettings") (by decide)]
  by_cases hreality : k = "realitySettings"
  · simp [hreality]
  · by_cases htls : k = "tlsSettings"
    · simp [htls]
    · simp [hreality, htls]

theorem everywhereBut_sanitizeStream :
    EverywhereBut (fun path => [.key "sockopt"] <+: path) Harmless
        (.obj (JsonConfigParser.sanitizeStream stream)) ↔
      EverywhereBut (fun path => [.key "sockopt"] <+: path ∨
        [.key "tlsSettings", .key "show"] <+: path ∨
          [.key "realitySettings", .key "show"] <+: path) Harmless (.obj stream) := by
  rw [everywhereBut_obj, everywhereBut_obj]
  refine forall_congr' fun k => ?_
  by_cases hk : k = "sockopt"
  · exact iff_of_true (entryBut_place (by simp [cons_prefix_cons, hk]))
      (entryBut_place (by simp [cons_prefix_cons, hk]))
  · rw [opt_sanitizeStream stream hk]
    split_ifs with hsecurity
    · cases hopt : stream.opt k with
      | none => exact iff_of_true entryBut_none entryBut_none
      | some v =>
        have hplain : k ∉ dialKeys := by
          rcases hsecurity with rfl | rfl <;> decide
        rw [map_some, entryBut_some, entryBut_some]
        refine and_congr (iff_of_true (fun _ => harmless_of_key hplain)
          (fun _ => harmless_of_key hplain)) ?_
        -- below the settings only `show` goes
        have hbelow : EverywhereBut (fun path => [.key "sockopt"] <+: .key k :: path) Harmless
            (without "show" v) ↔ Everywhere Harmless (without "show" v) := by
          rw [everywhere_iff_everywhereBut]
          apply everywhereBut_congr
          simp [cons_prefix_cons, Ne.symm hk]
        rw [hbelow, everywhere_without]
        apply everywhereBut_congr
        rcases hsecurity with rfl | rfl <;> simp [cons_prefix_cons]
    · apply entryBut_congr
      rw [not_or] at hsecurity
      simp [cons_prefix_cons, Ne.symm hsecurity.1, Ne.symm hsecurity.2]

theorem opt_sanitize (k : String) :
    (JsonConfigParser.sanitize o).opt k =
      if k = "tag" ∨ k = "proxySettings" ∨ k = "sendThrough" then none
      else if k = "streamSettings" then
        ((o.optJSONObject "streamSettings").map fun stream =>
          Json.obj (JsonConfigParser.sanitizeStream stream)).or (o.opt "streamSettings")
      else o.opt k := by
  have hcopy : ∀ k, (((o.remove "tag").remove "proxySettings").remove "sendThrough").opt k =
      if k = "tag" ∨ k = "proxySettings" ∨ k = "sendThrough" then none else o.opt k := by
    intro k
    rw [JsonObject.opt_remove, JsonObject.opt_remove, JsonObject.opt_remove]
    split_ifs <;> tauto
  have hstream : (((o.remove "tag").remove "proxySettings").remove "sendThrough").optJSONObject
      "streamSettings" = o.optJSONObject "streamSettings" := by
    rw [JsonObject.optJSONObject, hcopy, if_neg (by decide)]
    rfl
  rw [JsonConfigParser.sanitize, hstream]
  cases o.optJSONObject "streamSettings" with
  | some stream =>
    rw [JsonObject.opt_put, hcopy]
    by_cases hk : k = "streamSettings"
    · simp [hk]
    · simp [hk]
  | none =>
    rw [hcopy]
    by_cases hk : k = "streamSettings"
    · simp [hk]
    · simp [hk]

theorem optJSONObject_sanitize :
    (JsonConfigParser.sanitize o).optJSONObject "streamSettings" =
      (o.optJSONObject "streamSettings").map JsonConfigParser.sanitizeStream := by
  rw [JsonObject.optJSONObject, opt_sanitize, if_neg (by decide), if_pos rfl]
  cases hopt : o.optJSONObject "streamSettings" with
  | some stream => rfl
  | none => exact hopt

theorem confined_sanitize :
    Confined (proxyOutbound (JsonConfigParser.sanitize o)) ↔
      EverywhereBut (fun path => Overwritten o path ∨ Cleared path) Harmless (.obj o) := by
  rw [confined_proxyOutbound, everywhereBut_obj, everywhereBut_obj]
  refine forall_congr' fun k => ?_
  by_cases hk : k = "streamSettings"
  · subst hk
    rw [opt_sanitize, if_neg (by decide), if_pos rfl]
    cases hopt : o.optJSONObject "streamSettings" with
    | none =>
      refine iff_of_true (entryBut_place fun path => ?_) (entryBut_place fun path => ?_)
      · rw [overwritten_cons, optJSONObject_sanitize, hopt]
        simp
      · rw [overwritten_cons, hopt]
        simp
    | some stream =>
      rw [map_some, some_or, JsonObject.opt_of_optJSONObject hopt, entryBut_some,
        entryBut_some]
      refine and_congr (iff_of_true (fun _ => harmless_of_key (by decide))
        (fun _ => harmless_of_key (by decide))) ?_
      calc EverywhereBut (fun path => Overwritten (JsonConfigParser.sanitize o)
            (.key "streamSettings" :: path)) Harmless
              (.obj (JsonConfigParser.sanitizeStream stream))
          ↔ EverywhereBut (fun path => [.key "sockopt"] <+: path) Harmless
              (.obj (JsonConfigParser.sanitizeStream stream)) := by
            apply everywhereBut_congr
            intro path
            rw [overwritten_cons, optJSONObject_sanitize, hopt]
            simp
        _ ↔ _ := everywhereBut_sanitizeStream stream
        _ ↔ _ := by
            apply everywhereBut_congr
            intro path
            rw [overwritten_cons, cleared_cons, hopt]
            simp
  · rw [opt_sanitize, if_neg hk]
    split_ifs with hcleared
    · refine iff_of_true entryBut_none (entryBut_place fun path => ?_)
      rw [overwritten_cons, cleared_cons]
      tauto
    · apply entryBut_congr
      intro path
      rw [overwritten_cons, overwritten_cons, cleared_cons]
      tauto

end XrayConfigBuilder

end BigRocket.Service
