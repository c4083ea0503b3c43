/-
Every ClientHello, in one record and as it is written (`Hello`), yields its
server name.
-/
import BigRocket.Lib.Reads
import BigRocket.Lib.TextForms
import BigRocket.Tls.SniffTheorems

namespace BigRocket.Tls

open Lib Net List Option

structure IsServerName (name : Text) : Prop where
  hostBytes : (textBytes name).all hostByte = true
  short : (textBytes name).length ≤ maxHostLen
  dotted : '.' ∈ name.trimEndMatches '.'
  notAddress : parseIpAddr (name.trimEndMatches '.') = none

structure Extension where
  kind : UInt16
  data : List UInt8

def Extension.encode (e : Extension) : List UInt8 :=
  beBytes 2 e.kind.toNat ++ (beBytes 2 e.data.length ++ e.data)

structure NameEntry where
  kind : UInt8
  name : List UInt8

def NameEntry.encode (e : NameEntry) : List UInt8 :=
  e.kind :: (beBytes 2 e.name.length ++ e.name)

structure HelloParts where
  start : List UInt8
  length_start : start.length = 34
  session : List UInt8
  session_lt : session.length < 256
  ciphers : List UInt8
  compression : List UInt8
  compression_lt : compression.length < 256
  before : List Extension
  notServerName : ∀ e ∈ before, e.kind.toNat ≠ extServerName
  otherNames : List NameEntry
  notHostName : ∀ e ∈ otherNames, e.kind ≠ sniHostName
  host : Text
  isServerName : IsServerName host
  moreNames : List UInt8
  after : List UInt8

namespace HelloParts

variable (h : HelloParts)

def names : List UInt8 :=
  h.otherNames.flatMap NameEntry.encode ++
    ((NameEntry.mk sniHostName (textBytes h.host)).encode ++ h.moreNames)

def serverName : Extension := ⟨0, beBytes 2 h.names.length ++ h.names⟩

def extensions : List UInt8 :=
  h.before.flatMap Extension.encode ++ (h.serverName.encode ++ h.after)

def hello : List UInt8 :=
  h.start ++ (UInt8.ofNat h.session.length :: (h.session ++ (beBytes 2 h.ciphers.length ++
    (h.ciphers ++ (UInt8.ofNat h.compression.length :: (h.compression ++
      (beBytes 2 h.extensions.length ++ h.extensions)))))))

def handshake : List UInt8 := tlsClientHello :: (beBytes 3 h.hello.length ++ h.hello)

end HelloParts

structure Hello extends HelloParts where
  version : List UInt8
  length_version : version.length = 2
  fits : toHelloParts.handshake.length < 65536

def Hello.record (h : Hello) : List UInt8 :=
  tlsHandshake :: (h.version ++ (beBytes 2 h.handshake.length ++ h.handshake))

/-! ## Numbers and items -/

theorem be16_of_window {buf : List UInt8} {pos n : Nat} (h : Window pos (beBytes 2 n) buf)
    (hn : n < 65536) : be16 buf pos = some n := by
  obtain ⟨hhi, hlo⟩ := window_cons.mp h
  rw [be16, hhi, (window_cons.mp hlo).1]
  show some ((UInt8.ofNat (n / 256 ^ 1)).toNat <<< 8 ||| (UInt8.ofNat (n / 256 ^ 0)).toNat) = _
  rw [UInt8.toNat_ofNat', UInt8.toNat_ofNat', ← Nat.shiftLeft_add_eq_or_of_lt (by omega),
    Nat.shiftLeft_eq]
  congr 1
  omega

theorem be24_of_window {buf : List UInt8} {pos n : Nat} (h : Window pos (beBytes 3 n) buf)
    (hn : n < 65536) : be24 buf pos = some n := by
  obtain ⟨ha, h⟩ := window_cons.mp h
  obtain ⟨hb, hc⟩ := window_cons.mp h
  rw [be24, ha, hb, (window_cons.mp hc).1]
  show some ((UInt8.ofNat (n / 256 ^ 2)).toNat <<< 16 ||| (UInt8.ofNat (n / 256 ^ 1)).toNat <<< 8 |||
    (UInt8.ofNat (n / 256 ^ 0)).toNat) = _
  have hzero : n / 256 ^ 2 = 0 := by omega
  rw [hzero, UInt8.toNat_ofNat', UInt8.toNat_ofNat', UInt8.toNat_ofNat', Nat.zero_mod,
    Nat.zero_shiftLeft, Nat.zero_or, ← Nat.shiftLeft_add_eq_or_of_lt (by omega), Nat.shiftLeft_eq]
  congr 1
  omega

theorem search_items {ι α : Type} {encode : ι → List UInt8} {turn : Nat → Turn α} {limit : Nat}
    (hturn : Forward limit turn) {buf last : List UInt8} {a : α} (items : List ι)
    (hnext : ∀ i ∈ items, ∀ pos, Window pos (encode i) buf → pos + (encode i).length ≤ limit →
      turn pos = .next (pos + (encode i).length))
    (hdone : ∀ pos, Window pos last buf → pos + last.length ≤ limit → turn pos = .done (some a))
    {pos : Nat} (h : Window pos (items.flatMap encode ++ last) buf)
    (hle : pos + (items.flatMap encode ++ last).length ≤ limit) :
    search turn (limit + 1) pos = some a := by
  induction items generalizing pos with
  | nil => rw [search_unfold hturn, hdone pos h hle, Turn.run]
  | cons i items ih =>
    rw [flatMap_cons, append_assoc] at h hle
    obtain ⟨hi, hrest⟩ := window_append.mp h
    rw [length_append] at hle
    rw [search_unfold hturn, hnext i (by simp) pos hi (by omega), Turn.run]
    exact ih (fun j hj => hnext j (by simp [hj])) hrest (by omega)

theorem extensionTurn_encoded {hello : List UInt8} {stop pos : Nat} {e : Extension}
    (h : Window pos e.encode hello) (hle : pos + e.encode.length ≤ stop)
    (hshort : e.data.length < 65536) :
    extensionTurn hello stop pos =
      if e.kind.toNat = extServerName then .done (some e.data)
      else .next (pos + e.encode.length) := by
  simp only [Extension.encode, window_append, length_append, length_beBytes] at h hle ⊢
  obtain ⟨hkind, hlen, hdata⟩ := h
  rw [extensionTurn, if_pos (by omega), be16_of_window hkind e.kind.toNat_lt,
    be16_of_window hlen hshort]
  dsimp only
  rw [if_neg (by omega), slice_eq_some_iff.mpr ⟨hdata, rfl⟩]
  congr 2
  omega

theorem serverNameTurn_encoded {data : List UInt8} {stop pos : Nat} {e : NameEntry}
    (h : Window pos e.encode data) (hle : pos + e.encode.length ≤ stop)
    (hshort : e.name.length < 65536) :
    serverNameTurn data stop pos =
      if e.kind = sniHostName then .done (some e.name) else .next (pos + e.encode.length) := by
  simp only [NameEntry.encode, window_cons, window_append, length_cons, length_append,
    length_beBytes] at h hle ⊢
  obtain ⟨hkind, hlen, hname⟩ := h
  rw [serverNameTurn, if_pos (by omega), hkind, be16_of_window hlen hshort]
  dsimp only
  rw [if_neg (by omega), slice_eq_some_iff.mpr ⟨hname, rfl⟩]
  congr 2
  omega

/-! ## The parts of the walk -/

theorem guard_of {p : Prop} [Decidable p] (h : p) : (guard p : Option Unit) = some () := if_pos h

theorem not_isWhitespace_of_hostByte {c : Char} (hascii : c.toNat < 128)
    (h : (String.utf8EncodeChar c).all hostByte = true) : Text.isWhitespace c = false := by
  rw [Utf8.utf8EncodeChar_ascii hascii] at h
  exact Text.forall_ascii
    (P := fun c => [UInt8.ofNat c.toNat].all hostByte = true → Text.isWhitespace c = false)
    (by decide +kernel) hascii h

theorem plausibleHost_textBytes (u : UnicodeData) {name : Text} (h : IsServerName name) :
    plausibleHost u (textBytes name) = some (name.trimEndMatches '.').toAsciiLowercase := by
  have hascii := isAscii_of_hostBytes h.hostBytes
  obtain ⟨dots, hdots⟩ : name.trimEndMatches '.' <+: name := rdropWhile_prefix _ _
  have hbytes : textBytes name = textBytes (name.trimEndMatches '.') ++ textBytes dots := by
    conv_lhs => rw [← hdots]
    exact flatMap_append
  have hne : name.trimEndMatches '.' ≠ [] := ne_nil_of_mem h.dotted
  have hpart : (name.trimEndMatches '.').IsAscii := by
    intro c hc
    exact hascii c (hdots ▸ mem_append_left _ hc)
  have hlength := length_textBytes hpart
  have hpos := length_pos_of_ne_nil hne
  have hshort := h.short
  have hall := h.hostBytes
  rw [hbytes, length_append] at hshort
  rw [hbytes, all_append, Bool.and_eq_true] at hall
  have htrim : name.trim = name := by
    refine Text.trim_of_trimmed (Text.trimmed_of_forall fun c hc => ?_)
    refine not_isWhitespace_of_hostByte (hascii c hc) (all_eq_true.mpr fun b hb => ?_)
    exact all_eq_true.mp h.hostBytes b (mem_flatMap.mpr ⟨c, hc, hb⟩)
  have hraw : ¬ (textBytes name = [] ∨ (textBytes name).length > maxHostLen) := by
    rintro (hnil | hlong)
    · rw [hnil] at hbytes
      have hzero := congrArg List.length hbytes
      rw [length_append, length_nil] at hzero
      omega
    · exact absurd h.short (by omega)
  rw [plausibleHost, guard_of hraw]
  simp only [bind_eq_bind, bind_some,
    show Utf8.fromUtf8 (textBytes name) = some name from Utf8.fromUtf8_encode name, htrim]
  rw [guard_of (by simp only [hne, false_or]; omega), guard_of ⟨hall.1, h.dotted⟩,
    guard_of h.notAddress, UnicodeData.toLowercase_ascii hpart]
  rfl

variable (h : Hello)

theorem Hello.lengths_lt : h.hello.length < 65536 ∧ h.extensions.length < 65536 ∧
    h.ciphers.length < 65536 := by
  have hfits := h.fits
  simp only [HelloParts.handshake, HelloParts.hello, length_cons,
    length_append] at hfits ⊢
  omega

theorem exists_window_self (whole : List UInt8) : ∃ buf, whole = buf ∧ Window 0 whole buf :=
  ⟨whole, rfl, prefix_rfl, Nat.zero_le _⟩

theorem clientHello_record (rest : List UInt8) :
    clientHello (h.record ++ rest) = some h.hello := by
  obtain ⟨buf, hbuf, hrecord⟩ := exists_window_self (h.record ++ rest)
  obtain ⟨body, hbody', hhandshake⟩ := exists_window_self h.handshake
  rw [hbuf]
  replace hrecord := (window_append.mp hrecord).1
  simp only [Hello.record, window_cons, window_append, h.length_version, length_beBytes] at hrecord
  obtain ⟨hfirst, -, hlen, hbody⟩ := hrecord
  have hend : 5 + h.handshake.length ≤ buf.length := hbody.length_le
  have hrecordLen : be16 buf 3 = some h.handshake.length := be16_of_window hlen h.fits
  have hslice : slice buf 5 (min (5 + h.handshake.length) buf.length) = some h.handshake := by
    rw [min_eq_left hend]
    exact slice_eq_some_iff.mpr ⟨hbody, rfl⟩
  simp only [HelloParts.handshake, window_cons, window_append, length_beBytes] at hhandshake
  obtain ⟨hkind, hlen', hhello⟩ := hhandshake
  have hend' : 4 + h.hello.length ≤ body.length := hhello.length_le
  have hhelloLen : be24 body 1 = some h.hello.length := be24_of_window hlen' h.lengths_lt.1
  have hslice' : slice body 4 (min (4 + h.hello.length) body.length) = some h.hello := by
    rw [min_eq_left hend']
    exact slice_eq_some_iff.mpr ⟨hhello, rfl⟩
  rw [hbody'] at hslice
  simp only [clientHello, hfirst, hrecordLen, hbody', hslice, hkind, hhelloLen, hslice',
    bind_eq_bind, bind_some, guard_of]

theorem extensionsAt_hello : ∃ pos, extensionsAt h.hello = some (pos, h.extensions.length) ∧
    Window pos h.extensions h.hello ∧ pos + h.extensions.length = h.hello.length := by
  obtain ⟨-, hextensions, hciphers⟩ := h.lengths_lt
  obtain ⟨hello, hhello, hwindow⟩ := exists_window_self h.hello
  have hlength := congrArg List.length hhello
  rw [hhello]
  simp only [HelloParts.hello, length_append, length_cons, h.length_start,
    length_beBytes] at hlength
  simp only [HelloParts.hello, window_append, window_cons, h.length_start, length_beBytes,
    Nat.zero_add] at hwindow
  obtain ⟨-, hsession, -, hcipher, -, hcompression, -, hlen, hrest⟩ := hwindow
  refine ⟨_, ?_, hrest, by omega⟩
  have hsession' : (UInt8.ofNat h.session.length).toNat = h.session.length :=
    Utf8.toNat_byte h.session_lt
  have hcompression' : (UInt8.ofNat h.compression.length).toNat = h.compression.length :=
    Utf8.toNat_byte h.compression_lt
  simp only [extensionsAt, ← Nat.add_assoc, Nat.reduceAdd, bind_eq_bind, bind_some,
    hsession, hsession', be16_of_window hcipher hciphers, hcompression, hcompression',
    be16_of_window hlen hextensions]
  rfl

theorem Extension.length_data_le (e : Extension) : e.data.length ≤ e.encode.length := by
  simp only [Extension.encode, length_append]
  omega

theorem serverNameData_record (rest : List UInt8) :
    serverNameData (h.record ++ rest) = some h.serverName.data := by
  obtain ⟨pos, hat, hwindow, hend⟩ := extensionsAt_hello h
  have hhello := h.lengths_lt.1
  have hshort : ∀ {e : Extension} {pos : Nat}, Window pos e.encode h.hello →
      e.data.length < 65536 := by
    intro e pos hw
    have hle := hw.length_le
    have hdata := e.length_data_le
    omega
  simp only [serverNameData, clientHello_record, hat, bind_eq_bind, bind_some, hend,
    min_self]
  refine search_items (extensionTurn_forward _ _) h.before (fun e he pos hw hle => ?_)
    (fun pos hw hle => ?_) hwindow hend.le
  · rw [extensionTurn_encoded hw hle (hshort hw), if_neg (h.notServerName e he)]
  · rw [length_append] at hle
    have hw := (window_append.mp hw).1
    rw [extensionTurn_encoded hw (by omega) (hshort hw)]
    exact if_pos rfl

theorem firstServerName_serverName (u : UnicodeData) :
    firstServerName u h.serverName.data =
      some (h.host.trimEndMatches '.').toAsciiLowercase := by
  obtain ⟨data, hdata, hwindow⟩ := exists_window_self h.serverName.data
  have hlength : data.length = 2 + h.names.length := by
    rw [← hdata]
    simp [HelloParts.serverName]
  have hlong : data.length < 65536 := by
    have hextension := h.serverName.length_data_le
    have hextensions := h.lengths_lt.2.1
    rw [HelloParts.extensions, length_append, length_append] at hextensions
    rw [hdata] at hextension
    omega
  have hshort : ∀ {e : NameEntry} {pos : Nat}, Window pos e.encode data →
      e.name.length < 65536 := by
    intro e pos hw
    have hle := hw.length_le
    simp only [NameEntry.encode, length_cons, length_append] at hle
    omega
  rw [hdata]
  simp only [HelloParts.serverName, window_append, length_beBytes, Nat.zero_add] at hwindow
  obtain ⟨hlen, hnames⟩ := hwindow
  have hfound : search (serverNameTurn data data.length) (data.length + 1) 2 =
      some (textBytes h.host) := by
    refine search_items (serverNameTurn_forward _ _) h.otherNames (fun e he pos hw hle => ?_)
      (fun pos hw hle => ?_) hnames hlength.ge
    · rw [serverNameTurn_encoded hw hle (hshort hw), if_neg (h.notHostName e he)]
    · rw [length_append] at hle
      have hw := (window_append.mp hw).1
      rw [serverNameTurn_encoded hw (by omega) (hshort hw), if_pos rfl]
  simp only [firstServerName, be16_of_window hlen (by omega), bind_eq_bind,
    bind_some, ← hlength, min_self, hfound]
  exact plausibleHost_textBytes u h.isServerName

/-- **Every ClientHello yields its server name**, lowercased and without the dots
at its end. On any bytes the loops of the reader end. -/
theorem sni_found (u : UnicodeData) :
    (∀ (h : Hello) (rest : List UInt8),
      tlsSni u (h.record ++ rest) = some (h.host.trimEndMatches '.').toAsciiLowercase) ∧
      ∀ (buf : List UInt8) (stop pos : Nat),
        search (extensionTurn buf stop) (stop + 1) pos =
            (extensionTurn buf stop pos).run (search (extensionTurn buf stop) (stop + 1)) ∧
          search (serverNameTurn buf stop) (stop + 1) pos =
            (serverNameTurn buf stop pos).run (search (serverNameTurn buf stop) (stop + 1)) := by
  refine ⟨fun h rest => ?_, fun buf stop pos =>
    ⟨search_extensionTurn buf stop pos, search_serverNameTurn buf stop pos⟩⟩
  rw [tlsSni, serverNameData_record]
  exact firstServerName_serverName h u

end BigRocket.Tls
