/-
The two readers of a ClientHello agree: the hello is a window of the buffer at
offset 9.
-/
import BigRocket.Lib.TextForms
import BigRocket.Tls.Sniff
import BigRocket.Tls.Fragment

namespace BigRocket.Tls

open Lib Net List
open Option (bind_eq_some_iff)

/-! ## Numbers read in two ways -/

variable {buf hello data : List UInt8} {pos extensionsEnd : Nat} {u : UnicodeData} {name : Text}

theorem takeNum_one {b : UInt8} (h : buf[pos]? = some b) : takeNum buf pos 1 = some b.toNat := by
  obtain ⟨hlt, rfl⟩ := List.getElem?_eq_some_iff.mp h
  have hslice : slice buf pos (pos + 1) = some [buf[pos]] := by
    rw [slice, if_pos ⟨by omega, by omega⟩, drop_eq_getElem_cons hlt,
      Nat.add_sub_cancel_left]
    rfl
  rw [takeNum, hslice]
  simp

theorem takeNum_two {v : Nat} (h : be16 buf pos = some v) : takeNum buf pos 2 = some v := by
  obtain ⟨hi, lo, hhi, hlo, rfl⟩ := be16_eq_some h
  obtain ⟨hlt, rfl⟩ := List.getElem?_eq_some_iff.mp hhi
  obtain ⟨hlt', rfl⟩ := List.getElem?_eq_some_iff.mp hlo
  have hslice : slice buf pos (pos + 2) = some [buf[pos], buf[pos + 1]] := by
    rw [slice, if_pos ⟨by omega, by omega⟩, drop_eq_getElem_cons hlt,
      drop_eq_getElem_cons hlt', Nat.add_sub_cancel_left]
    rfl
  rw [takeNum, hslice]
  simp

theorem guard_eq_some {p : Prop} [Decidable p] {u : Unit} (h : (guard p : Option Unit) = some u) :
    p := by
  by_contra hnot
  rw [guard, if_neg hnot] at h
  cases h

/-! ## The hello -/

theorem clientHello_window (h : clientHello buf = some hello) :
    buf[0]? = some 0x16 ∧ buf[5]? = some 0x01 ∧ Window 9 hello buf := by
  obtain ⟨first, hfirst, h⟩ := bind_eq_some_iff.mp h
  obtain ⟨_, hrecord, h⟩ := bind_eq_some_iff.mp h
  obtain ⟨recordLen, -, h⟩ := bind_eq_some_iff.mp h
  obtain ⟨body, hbody, h⟩ := bind_eq_some_iff.mp h
  obtain ⟨kind, hkind, h⟩ := bind_eq_some_iff.mp h
  obtain ⟨_, hclient, h⟩ := bind_eq_some_iff.mp h
  obtain ⟨helloLen, -, h⟩ := bind_eq_some_iff.mp h
  have hbodyWindow := (window_of_slice hbody).1
  have hwindow := (window_of_slice h).1.trans hbodyWindow
  refine ⟨?_, ?_, hwindow⟩
  · rw [hfirst, guard_eq_some hrecord, tlsHandshake]
  · have hkind' := hbodyWindow.getElem? hkind
    rw [hkind', guard_eq_some hclient, tlsClientHello]

theorem sniHostRange_of_clientHello (h : clientHello buf = some hello) {extensionsLen : Nat}
    (hext : extensionsAt hello = some (pos, extensionsLen)) :
    sniHostRange buf =
      search (hostTurn buf (9 + pos + extensionsLen)) (9 + pos + extensionsLen + 1) (9 + pos) := by
  obtain ⟨hfirst, hkind, hw⟩ := clientHello_window h
  obtain ⟨sessionLen, hsession, hext⟩ := bind_eq_some_iff.mp hext
  obtain ⟨cipherLen, hcipher, hext⟩ := bind_eq_some_iff.mp hext
  obtain ⟨compressionLen, hcompression, hext⟩ := bind_eq_some_iff.mp hext
  obtain ⟨len, hlen, hext⟩ := bind_eq_some_iff.mp hext
  cases hext
  have hsession' := takeNum_one (hw.getElem? hsession)
  have hcipher' := takeNum_two (be16_window hw hcipher)
  have hcompression' := takeNum_one (hw.getElem? hcompression)
  have hlen' := takeNum_two (be16_window hw hlen)
  simp only [← Nat.add_assoc, Nat.reduceAdd] at hsession' hcipher' hcompression' hlen' ⊢
  simp only [sniHostRange, hfirst, hkind, Option.bind_eq_bind, Option.bind_some, guard, if_true,
    Option.pure_def, ← Nat.add_assoc, Nat.reduceAdd, hsession', hcipher', hcompression', hlen']

/-! ## The entry -/

theorem serverNameTurn_hostName (hkind : data[pos]? = some sniHostName) (listEnd : Nat) :
    ∃ result, serverNameTurn data listEnd pos = .done result ∧
      ∀ raw, result = some raw →
        ∃ len, be16 data (pos + 1) = some len ∧ slice data (pos + 3) (pos + 3 + len) = some raw := by
  unfold serverNameTurn
  rw [hkind]
  split
  · cases hlen : be16 data (pos + 1) with
    | none => exact ⟨none, rfl, fun raw hraw => by cases hraw⟩
    | some len =>
      dsimp only
      split
      · exact ⟨none, rfl, fun raw hraw => by cases hraw⟩
      · exact ⟨_, rfl, fun raw hraw => ⟨len, rfl, hraw⟩⟩
  · exact ⟨none, rfl, fun raw hraw => by cases hraw⟩

theorem firstServerName_of_hostName (h : firstServerName u data = some name)
    (hkind : data[2]? = some sniHostName) :
    ∃ len raw, be16 data 3 = some len ∧ slice data 5 (5 + len) = some raw ∧
      plausibleHost u raw = some name := by
  obtain ⟨listLen, -, h⟩ := bind_eq_some_iff.mp h
  obtain ⟨raw, hraw, h⟩ := bind_eq_some_iff.mp h
  obtain ⟨result, hturn, hresult⟩ :=
    serverNameTurn_hostName hkind (min (2 + listLen) data.length)
  rw [search_done hturn] at hraw
  obtain ⟨len, hlen, hslice⟩ := hresult raw hraw
  exact ⟨len, raw, hlen, hslice, h⟩

theorem hostRangeAt_of_entry {raw : List UInt8} {body len : Nat} (hw : Window body data buf)
    (hkind : data[2]? = some sniHostName) (hlen : be16 data 3 = some len)
    (hraw : slice data 5 (5 + len) = some raw) (hne : raw ≠ []) :
    hostRangeAt buf body = some (body + 5, body + 5 + len) := by
  obtain ⟨-, hlength, hstop⟩ := window_of_slice hraw
  have hpos : 0 < raw.length := List.length_pos_iff.mpr hne
  have hinside := hw.length_le
  have hkind' : takeNum buf (body + 2) 1 = some 0 := takeNum_one (hw.getElem? hkind)
  have hlen' : takeNum buf (body + 2 + 1) 2 = some len := takeNum_two (be16_window hw hlen)
  have hguard : ¬ (len = 0 ∨ body + 2 + 3 + len > buf.length) := by omega
  simp only [hostRangeAt, hkind', hlen', Option.bind_eq_bind, Option.bind_some, guard, if_true,
    Option.pure_def, if_pos hguard]

/-! ## The extensions -/

theorem extensionTurn_cases :
    (∃ kind len, be16 hello pos = some kind ∧ be16 hello (pos + 2) = some len ∧
      pos + 4 ≤ extensionsEnd ∧
      ((kind = extServerName ∧ extensionTurn hello extensionsEnd pos =
          .done (slice hello (pos + 4) (pos + 4 + len))) ∨
        (kind ≠ extServerName ∧
          extensionTurn hello extensionsEnd pos = .next (pos + 4 + len)))) ∨
    extensionTurn hello extensionsEnd pos = .done none := by
  unfold extensionTurn
  split
  · next hpos =>
      split
      · next kind len hkind hlen =>
          split
          · exact .inr rfl
          · split
            · next heq => exact .inl ⟨kind, len, hkind, hlen, hpos, .inl ⟨heq, rfl⟩⟩
            · next hne => exact .inl ⟨kind, len, hkind, hlen, hpos, .inr ⟨hne, rfl⟩⟩
      · exact .inr rfl
  · exact .inr rfl

theorem hostTurn_of_window (hw : Window 9 hello buf) {kind len : Nat}
    (hkind : be16 hello pos = some kind) (hlen : be16 hello (pos + 2) = some len)
    (hpos : 9 + pos + 4 ≤ extensionsEnd) :
    hostTurn buf extensionsEnd (9 + pos) =
      if kind = extServerName then .done (hostRangeAt buf (9 + pos + 4))
      else .next (9 + pos + 4 + len) := by
  have hkind' := takeNum_two (be16_window hw hkind)
  have hlen' : takeNum buf (9 + pos + 2) 2 = some len := takeNum_two (be16_window hw hlen)
  rw [hostTurn, if_pos hpos, hkind', hlen']
  rfl

theorem hostTurn_of_done (hw : Window 9 hello buf) {extensionsEnd' : Nat}
    (hend : 9 + extensionsEnd ≤ extensionsEnd')
    (h : extensionTurn hello extensionsEnd pos = .done (some data)) :
    ∃ body, Window body data buf ∧
      hostTurn buf extensionsEnd' (9 + pos) = .done (hostRangeAt buf body) := by
  rcases extensionTurn_cases with
    ⟨kind, len, hkind, hlen, hpos, ⟨heq, hturn⟩ | ⟨-, hturn⟩⟩ | hturn
  · rw [hturn] at h
    have hslice : slice hello (pos + 4) (pos + 4 + len) = some data := Turn.done.inj h
    refine ⟨9 + (pos + 4), (window_of_slice hslice).1.trans hw, ?_⟩
    rw [hostTurn_of_window hw hkind hlen (by omega), if_pos heq, Nat.add_assoc]
  · rw [hturn] at h
    cases h
  · rw [hturn] at h
    cases h

theorem hostTurn_of_next (hw : Window 9 hello buf) {next extensionsEnd' : Nat}
    (hend : 9 + extensionsEnd ≤ extensionsEnd')
    (h : extensionTurn hello extensionsEnd pos = .next next) :
    hostTurn buf extensionsEnd' (9 + pos) = .next (9 + next) := by
  rcases extensionTurn_cases with
    ⟨kind, len, hkind, hlen, hpos, ⟨-, hturn⟩ | ⟨hne, hturn⟩⟩ | hturn
  · rw [hturn] at h
    cases h
  · rw [hturn] at h
    cases h
    rw [hostTurn_of_window hw hkind hlen (by omega), if_neg hne]
    congr 1
    omega
  · rw [hturn] at h
    cases h

/-! ## Names -/

theorem lt_of_hostByte {b : UInt8} (h : hostByte b = true) : b.toNat < 128 := by
  simp only [hostByte, Bool.or_eq_true, Bool.and_eq_true, decide_eq_true_eq,
    UInt8.le_iff_toNat_le] at h
  have h122 : (122 : UInt8).toNat = 122 := rfl
  have h90 : (90 : UInt8).toNat = 90 := rfl
  have h57 : (57 : UInt8).toNat = 57 := rfl
  rcases h with ((((h | h) | h) | rfl) | rfl) | rfl
  · omega
  · omega
  · omega
  · decide
  · decide
  · decide

theorem ascii_of_hostBytes {c : Char} (h : (String.utf8EncodeChar c).all hostByte = true) :
    c.toNat < 128 := by
  by_contra hnot
  have hbig : ¬ c.val.toNat ≤ 127 := fun hle => hnot (Nat.lt_succ_of_le hle)
  have hlast : UInt8.ofNat (c.val.toNat % 64 + 128) ∈ String.utf8EncodeChar c := by
    unfold String.utf8EncodeChar
    simp only [if_neg hbig]
    split
    · simp
    · split
      · simp
      · simp
  have hlt := lt_of_hostByte (List.all_eq_true.mp h _ hlast)
  rw [UInt8.toNat_ofNat'] at hlt
  omega

theorem isAscii_of_hostBytes {s : Text} (h : (textBytes s).all hostByte = true) : s.IsAscii := by
  intro c hc
  apply ascii_of_hostBytes
  rw [List.all_eq_true] at h ⊢
  intro b hb
  exact h b (mem_flatMap.mpr ⟨c, hc, hb⟩)

theorem length_textBytes {s : Text} (h : s.IsAscii) : (textBytes s).length = s.length := by
  induction s with
  | nil => rfl
  | cons c s ih =>
    have hc : c.toNat < 128 := h c mem_cons_self
    have hone : (String.utf8EncodeChar c).length = 1 := by
      unfold String.utf8EncodeChar
      rw [if_pos (show c.val.toNat ≤ 127 from Nat.le_of_lt_succ hc)]
      rfl
    have hrest := ih fun d hd => h d (mem_cons_of_mem c hd)
    rw [textBytes] at hrest ⊢
    rw [flatMap_cons, length_append, hone, hrest, length_cons, Nat.add_comm]

theorem length_trim_le (text : Text) : (text.trim.trimEndMatches '.').length ≤ text.length := by
  unfold Text.trim Text.trimEndMatches
  have hdot := ( rdropWhile_prefix (· = '.')
    (((text.dropWhile Text.isWhitespace).rdropWhile Text.isWhitespace))).length_le
  have hend := ( rdropWhile_prefix Text.isWhitespace
    (text.dropWhile Text.isWhitespace)).length_le
  have hstart := (dropWhile_suffix Text.isWhitespace (l := text)).length_le
  omega

theorem plausibleHost_eq_some {raw : List UInt8} (h : plausibleHost u raw = some name) :
    raw ≠ [] ∧ (textBytes name).length ≤ raw.length ∧
      ∃ text, Utf8.fromUtf8 raw = some text ∧
        u.toLowercase (text.trim.trimEndMatches '.') = name := by
  obtain ⟨_, hraw, h⟩ := bind_eq_some_iff.mp h
  obtain ⟨text, htext, h⟩ := bind_eq_some_iff.mp h
  obtain ⟨_, -, h⟩ := bind_eq_some_iff.mp h
  obtain ⟨_, hallowed, h⟩ := bind_eq_some_iff.mp h
  obtain ⟨_, -, h⟩ := bind_eq_some_iff.mp h
  cases h
  have hascii := isAscii_of_hostBytes (guard_eq_some hallowed).1
  have hlower : (text.trim.trimEndMatches '.').toAsciiLowercase.IsAscii := by
    intro c hc
    obtain ⟨d, hd, rfl⟩ := mem_map.mp hc
    exact Text.toLower_lt (hascii d hd)
  refine ⟨fun hnil => guard_eq_some hraw (.inl hnil), ?_, text, htext, rfl⟩
  rw [UnicodeData.toLowercase_ascii hascii, length_textBytes hlower, Text.toAsciiLowercase,
    length_map]
  have htrim := length_trim_le text
  have hchars := Utf8.length_chars htext
  omega

/-! ## The two readers -/

def firstEntryKind (buf : List UInt8) : Option UInt8 := do
  let data ← serverNameData buf
  data[2]?

theorem sniHostRange_of_data (hdata : serverNameData buf = some data)
    (hname : firstServerName u data = some name) (hkind : data[2]? = some sniHostName) :
    ∃ start raw, sniHostRange buf = some (start, start + raw.length) ∧ Window start raw buf ∧
      plausibleHost u raw = some name := by
  obtain ⟨len, raw, hlen, hraw, hhost⟩ := firstServerName_of_hostName hname hkind
  obtain ⟨hrawWindow, hrawLen, -⟩ := window_of_slice hraw
  obtain ⟨hello, hhello, hdata⟩ := bind_eq_some_iff.mp hdata
  obtain ⟨⟨pos, extensionsLen⟩, hext, hdata⟩ := bind_eq_some_iff.mp hdata
  have hw := (clientHello_window hhello).2.2
  have hne := (plausibleHost_eq_some hhost).1
  rw [sniHostRange_of_clientHello hhello hext]
  have hend : 9 + min (pos + extensionsLen) hello.length ≤ 9 + pos + extensionsLen := by omega
  have hdone : ∀ p q, q = 9 + p →
      extensionTurn hello (min (pos + extensionsLen) hello.length) p = .done (some data) →
      ∃ range, hostTurn buf (9 + pos + extensionsLen) q = .done (some range) ∧
        ∃ start, range = (start, start + raw.length) ∧ Window start raw buf := by
    rintro p _ rfl hturn
    obtain ⟨body, hbody, hturn'⟩ := hostTurn_of_done hw hend hturn
    rw [hostRangeAt_of_entry hbody hkind hlen hraw hne] at hturn'
    refine ⟨_, hturn', body + 5, ?_, hrawWindow.trans hbody⟩
    rw [hrawLen, Nat.add_sub_cancel_left]
  -- nine bytes apart, the loops see the same extensions
  obtain ⟨_, hsearch, start, rfl, hwindow⟩ :=
    search_simulation hdone
      (fun p q next hpq hturn => ⟨9 + next, hpq ▸ hostTurn_of_next hw hend hturn, rfl⟩)
      (show min (pos + extensionsLen) hello.length + 1 ≤ 9 + pos + extensionsLen + 1 by omega)
      (show 9 + pos = 9 + pos from rfl) hdata
  exact ⟨start, raw, hsearch, hwindow, hhost⟩

/-- Where the first reader finds a name in the first entry, the second finds its
range, but for case, blanks and dots at the end, and a first write is cut inside
it. -/
theorem sniHostRange_of_tlsSni (u : UnicodeData) (buf : List UInt8) (name : Text)
    (hname : tlsSni u buf = some name) (hkind : firstEntryKind buf = some sniHostName) :
    ∃ start stop, sniHostRange buf = some (start, stop) ∧ start ≤ stop ∧ stop ≤ buf.length ∧
      (∃ text, Utf8.fromUtf8 ((buf.drop start).take (stop - start)) = some text ∧
        u.toLowercase (text.trim.trimEndMatches '.') = name) ∧
      (2 ≤ (textBytes name).length →
        start < splitPoint (start, stop) ∧ splitPoint (start, stop) < stop ∧
        ∀ (cfg : FragmentConfig) (random : Nat → Nat → Nat), cfg.sniSplit = true →
          cfg.chunkLen random true buf = splitPoint (start, stop)) := by
  obtain ⟨data, hdata, hname⟩ := bind_eq_some_iff.mp hname
  obtain ⟨data', hdata', hkind⟩ := bind_eq_some_iff.mp hkind
  cases hdata.symm.trans hdata'
  obtain ⟨start, raw, hrange, hwindow, hhost⟩ := sniHostRange_of_data hdata hname hkind
  obtain ⟨-, hlength, text, htext, htrim⟩ := plausibleHost_eq_some hhost
  have hinside := hwindow.length_le
  refine ⟨start, start + raw.length, hrange, by omega, hinside, ⟨text, ?_, htrim⟩, ?_⟩
  · rw [Nat.add_sub_cancel_left, hwindow.take_drop, htext]
  · intro htwo
    have hsplit : splitPoint (start, start + raw.length) = start + raw.length / 2 := by
      rw [splitPoint, Nat.add_sub_cancel_left]
    refine ⟨by omega, by omega, fun cfg random hcfg => ?_⟩
    have hbounds : start + raw.length / 2 > 0 ∧ start + raw.length / 2 < buf.length := by omega
    rw [FragmentConfig.chunkLen, hcfg, hrange, Bool.and_self, if_pos rfl]
    show (if splitPoint (start, start + raw.length) > 0 ∧
        splitPoint (start, start + raw.length) < buf.length then _ else _) = _
    rw [hsplit, if_pos hbounds]

def exampleHello : List UInt8 :=
  [0x16, 3, 1, 0, 64, 0x01, 0, 0, 60, 3, 3] ++ List.replicate 32 0 ++
    [0, 0, 2, 0x13, 1, 1, 0, 0, 17, 0xff, 1, 0, 1, 0, 0, 0, 0, 8, 0, 6, 0, 0, 3, 65, 46, 98]

theorem sniHostRange_exampleHello :
    tlsSni .basicLatin exampleHello = some ['a', '.', 'b'] ∧
      firstEntryKind exampleHello = some sniHostName ∧
      ∃ start stop, sniHostRange exampleHello = some (start, stop) ∧
        start < splitPoint (start, stop) ∧ splitPoint (start, stop) < stop := by
  have hname : tlsSni .basicLatin exampleHello = some ['a', '.', 'b'] := by decide +kernel
  have hkind : firstEntryKind exampleHello = some sniHostName := by decide +kernel
  obtain ⟨start, stop, hrange, -, -, -, hsplit⟩ :=
    sniHostRange_of_tlsSni .basicLatin exampleHello _ hname hkind
  obtain ⟨hlow, hhigh, -⟩ := hsplit (by decide +kernel)
  exact ⟨hname, hkind, start, stop, hrange, hlow, hhigh⟩

example : sniHostRange exampleHello = some (66, 69) := by decide +kernel

end BigRocket.Tls
