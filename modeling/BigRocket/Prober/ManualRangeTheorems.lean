/-
Where a scan of typed ranges goes. If the address of a range has host bits set,
the highest offsets lead out of the network: `spilled` numbers from `next` on.
-/
import BigRocket.Lib.TextForms
import BigRocket.Prober.ManualRange

namespace BigRocket.Prober

open Lib Net List Option

/-! ## Networks -/

namespace Range

def hostBits (r : Range) : Nat := 32 - r.bits

def size (r : Range) : Nat := if r.hostBits ≥ 32 then 2 ^ 32 - 1 else 2 ^ r.hostBits

/-- The address is in the network: all but the host bits are those of the
typed address. -/
def Contains (r : Range) (n : Nat) : Prop := n / 2 ^ r.hostBits = r.addr.toNat / 2 ^ r.hostBits

instance (r : Range) (n : Nat) : Decidable (r.Contains n) :=
  inferInstanceAs (Decidable (_ = _))

def hostPart (r : Range) : Nat := r.addr.toNat % 2 ^ r.hostBits

def next (r : Range) : Nat := (r.addr.toNat / 2 ^ r.hostBits + 1) * 2 ^ r.hostBits

def spilled (r : Range) : Nat := r.hostPart - if r.bits = 0 then 2 else 1

def Offset (r : Range) (off : Nat) : Prop := 1 ≤ off ∧ off + 2 ≤ r.size

variable {r : Range} {off j n : Nat}

theorem contains_addr (r : Range) : r.Contains r.addr.toNat := rfl

theorem size_cases (r : Range) :
    (r.hostBits = 32 ∧ r.bits = 0 ∧ r.size + 1 = 2 ^ r.hostBits) ∨
      (r.hostBits < 32 ∧ r.bits ≠ 0 ∧ r.size = 2 ^ r.hostBits) := by
  have hle : r.hostBits ≤ 32 := Nat.sub_le 32 r.bits
  unfold size
  split
  · have heq : r.hostBits = 32 := by omega
    refine .inl ⟨heq, by unfold hostBits at heq; omega, ?_⟩
    rw [heq]
    rfl
  · exact .inr ⟨by omega, by unfold hostBits at *; omega, rfl⟩

theorem addr_eq (r : Range) : r.addr.toNat + 2 ^ r.hostBits = r.next + r.hostPart := by
  have hdiv := Nat.div_add_mod' r.addr.toNat (2 ^ r.hostBits)
  rw [next, hostPart, Nat.add_mul, one_mul]
  omega

theorem hostPart_lt (r : Range) : r.hostPart < 2 ^ r.hostBits :=
  Nat.mod_lt _ (by positivity)

theorem contains_of_lt_next (haddr : r.addr.toNat ≤ n) (hnext : n < r.next) : r.Contains n := by
  have hpos : 0 < 2 ^ r.hostBits := by positivity
  apply le_antisymm
  · exact Nat.lt_succ_iff.mp ((Nat.div_lt_iff_lt_mul hpos).mpr hnext)
  · exact Nat.div_le_div_right haddr

theorem next_le (r : Range) : r.next ≤ 2 ^ 32 := by
  have hsplit : 2 ^ r.hostBits * 2 ^ (32 - r.hostBits) = 2 ^ 32 :=
    pow_mul_pow_sub 2 (Nat.sub_le 32 r.bits)
  have hdiv : r.addr.toNat / 2 ^ r.hostBits < 2 ^ (32 - r.hostBits) :=
    Nat.div_lt_of_lt_mul (hsplit ▸ r.addr.isLt)
  calc r.next ≤ 2 ^ (32 - r.hostBits) * 2 ^ r.hostBits := Nat.mul_le_mul_right _ hdiv
    _ = 2 ^ 32 := by rw [mul_comm, hsplit]

theorem Offset.cases (h : r.Offset off) :
    r.addr.toNat + off < r.next ∨ ∃ j < r.spilled, r.addr.toNat + off = r.next + j := by
  obtain ⟨hone, hsize⟩ := h
  have haddr := r.addr_eq
  by_cases hin : r.addr.toNat + off < r.next
  · exact .inl hin
  · refine .inr ⟨r.addr.toNat + off - r.next, ?_, by omega⟩
    unfold spilled
    rcases r.size_cases with ⟨-, hbits, hsize'⟩ | ⟨-, hbits, hsize'⟩
    · rw [if_pos hbits]
      omega
    · rw [if_neg hbits]
      omega

theorem exists_offset_of_spilled (h : j < r.spilled) :
    ∃ off, r.Offset off ∧ r.addr.toNat + off = r.next + j := by
  have haddr := r.addr_eq
  have hpart := r.hostPart_lt
  unfold spilled at h
  refine ⟨r.next + j - r.addr.toNat, ⟨by omega, ?_⟩, by omega⟩
  rcases r.size_cases with ⟨-, hbits, hsize⟩ | ⟨-, hbits, hsize⟩
  · rw [if_pos hbits] at h
    omega
  · rw [if_neg hbits] at h
    omega

end Range

/-! ## Texts -/

def typed (texts : List Text) : List Range := texts.filterMap readRange

theorem bits_le_of_readRange {raw : Text} {r : Range} (h : readRange raw = some r) :
    r.bits ≤ 32 := by
  unfold readRange at h
  simp only at h
  split at h
  · cases h
  · split at h
    · obtain ⟨addr, -, h⟩ := bind_eq_some_iff.mp h
      obtain ⟨bits, -, h⟩ := bind_eq_some_iff.mp h
      split at h
      · cases h
      · cases h
        exact not_lt.mp ‹_›
    · split at h
      · obtain ⟨addr, -, rfl⟩ := map_eq_some_iff.mp h
        simp
      · obtain ⟨addr, -, rfl⟩ := map_eq_some_iff.mp h
        simp

theorem bits_le_of_mem_typed {texts : List Text} {r : Range} (h : r ∈ typed texts) :
    r.bits ≤ 32 := by
  obtain ⟨raw, -, hraw⟩ := mem_filterMap.mp h
  exact bits_le_of_readRange hraw

theorem filterMap_appNormalizeCidrV4 (texts : List Text) :
    texts.filterMap appNormalizeCidrV4 = (typed texts).map Range.format :=
  map_filterMap.symm

theorem slash_not_mem_displayIpv4 (addr : BitVec 32) : '/' ∉ displayIpv4 addr := by
  have hdigits : ∀ n, '/' ∉ Nat.toDigits 10 n := by
    intro n h
    exact absurd (Nat.isDigit_of_mem_toDigits (by decide) (by decide) h) (by decide)
  simp [displayIpv4, octets, List.intercalate, hdigits]

theorem parseCidrV4_format {r : Range} (hbits : r.bits ≤ 32) :
    parseCidrV4 r.format = some (r.addr.toNat, r.bits) := by
  rw [parseCidrV4, Range.format, Text.splitOnce_append (slash_not_mem_displayIpv4 r.addr)]
  simp only [bind_eq_bind, bind_some, parseIpv4_displayIpv4,
    parseU8_toDigits (by omega : r.bits < 256)]
  rfl

/-! ## The hosts of one range -/

/-- What the hosts of a range are, however they were found; and why they were
not found. -/
def Scanned (r : Range) : Except Fault (List (BitVec 32)) → Prop
  | .ok hosts => ∀ a ∈ hosts, a = r.addr ∨ ∃ off, r.Offset off ∧ a.toNat = r.addr.toNat + off
  | .error .overflow => ∃ off, r.Offset off ∧ 2 ^ 32 ≤ r.addr.toNat + off
  | .error .undrawn => True

variable {r : Range}

theorem scanned_addr (r : Range) : Scanned r (.ok [BitVec.ofNat 32 r.addr.toNat]) := by
  intro a ha
  rw [mem_singleton.mp ha]
  exact .inl (BitVec.eq_of_toNat_eq (by simp))

variable {off : Nat} {c : Candidate} {ports : List Nat} {ips : List IpAddr}

theorem Scanned.bind_hostAt (hoff : r.Offset off)
    {next : BitVec 32 → Except Fault (List (BitVec 32))}
    (hnext : ∀ a, a.toNat = r.addr.toNat + off → Scanned r (next a)) :
    Scanned r (hostAt r.addr.toNat off >>= next) := by
  unfold hostAt
  split
  · rename_i hlt
    exact hnext _ (by rw [BitVec.toNat_ofNat, Nat.mod_eq_of_lt hlt])
  · exact ⟨off, hoff, by omega⟩

theorem scanned_mapM {offs : List Nat} (hoffs : ∀ off ∈ offs, r.Offset off) :
    Scanned r (offs.mapM (hostAt r.addr.toNat)) := by
  induction offs with
  | nil => exact nofun
  | cons off offs ih =>
    rw [mapM_cons]
    refine Scanned.bind_hostAt (hoffs off (by simp)) fun a ha => ?_
    have hrest := ih fun off' hoff' => hoffs off' (mem_cons_of_mem _ hoff')
    cases hmap : offs.mapM (hostAt r.addr.toNat) with
    | error fault =>
      rw [hmap] at hrest
      cases fault with
      | overflow => exact hrest
      | undrawn => trivial
    | ok hosts =>
      rw [hmap] at hrest
      intro b hb
      rcases mem_cons.mp hb with rfl | hb
      · exact .inr ⟨off, hoffs off (by simp), ha⟩
      · exact hrest b hb

theorem scanned_sampleLoop {usable want : Nat} (hpos : 0 < usable) (husable : usable + 2 = r.size)
    (draws chosen : List Nat) {out : List (BitVec 32)} (hout : Scanned r (.ok out)) :
    Scanned r (sampleLoop r.addr.toNat usable want draws chosen out) := by
  induction draws generalizing chosen out with
  | nil =>
    unfold sampleLoop
    split
    · trivial
    · exact hout
  | cons draw draws ih =>
    unfold sampleLoop
    split
    · simp only
      split
      · exact ih chosen hout
      · have hoff : r.Offset (1 + draw % usable) :=
          ⟨by omega, by have := Nat.mod_lt draw hpos; omega⟩
        refine Scanned.bind_hostAt hoff fun a ha => ih _ fun b hb => ?_
        rcases mem_append.mp hb with hb | hb
        · exact hout b hb
        · rw [mem_singleton.mp hb]
          exact .inr ⟨_, hoff, ha⟩
    · exact hout

theorem sampleCidrV4_format (hbits : r.bits ≤ 32) (n : Nat) (draws : List Nat) :
    sampleCidrV4 r.format n draws =
      if r.size ≤ 2 then .ok [BitVec.ofNat 32 r.addr.toNat]
      else sampleLoop r.addr.toNat (r.size - 2) (min (n % 2 ^ 32) (r.size - 2)) draws [] [] := by
  rw [sampleCidrV4, parseCidrV4_format hbits]
  rfl

theorem scanned_hostsOf (hbits : r.bits ≤ 32) (st : Strategy) (draws : List Nat) :
    Scanned r (hostsOf st draws r.format) := by
  unfold hostsOf
  split
  · simp only [enumerateCidrV4, parseCidrV4_format hbits]
    split
    · exact scanned_addr r
    · split
      · exact forall_mem_nil _
      · apply scanned_mapM
        intro off hoff
        rw [mem_range'_1] at hoff
        rcases r.size_cases with ⟨hhost, -⟩ | ⟨-, -, hsize⟩
        · unfold Range.hostBits at hhost
          omega
        · unfold Range.hostBits at hsize
          exact ⟨hoff.1, by omega⟩
  · rw [sampleCidrV4_format hbits]
    split
    · exact scanned_addr r
    · exact scanned_sampleLoop (by omega) (by omega) draws [] (forall_mem_nil _)

theorem sampleLoop_one {base usable draw : Nat} :
    sampleLoop base usable 1 [draw] [] [] = (hostAt base (1 + draw % usable)).map ([·]) := by
  simp only [sampleLoop, length_nil, Nat.lt_one_iff, if_true, not_mem_nil, if_false]
  cases hostAt base (1 + draw % usable) with
  | error fault => rfl
  | ok a => rfl

theorem sampleCidrV4_one (hbits : r.bits ≤ 32) (hoff : r.Offset off) :
    sampleCidrV4 r.format 1 [off - 1] = (hostAt r.addr.toNat off).map ([·]) := by
  obtain ⟨hone, hsize⟩ := hoff
  have hdraw : 1 + (off - 1) % (r.size - 2) = off := by
    rw [Nat.mod_eq_of_lt (by omega)]
    omega
  have hwant : min (1 % 2 ^ 32) (r.size - 2) = 1 := by omega
  rw [sampleCidrV4_format hbits, if_neg (by omega), hwant, sampleLoop_one, hdraw]

theorem sampleCidrV4_one_ne_undrawn (hbits : r.bits ≤ 32) (draw : Nat) :
    sampleCidrV4 r.format 1 [draw] ≠ .error .undrawn := by
  rw [sampleCidrV4_format hbits]
  split
  · exact nofun
  · have hwant : min (1 % 2 ^ 32) (r.size - 2) = 1 := by omega
    rw [hwant, sampleLoop_one, hostAt]
    split <;> exact nofun

/-! ## All ranges -/

section Traverse

variable {α β ε : Type} {f : α → Except ε β} {l : List α}

theorem mapM_eq_error {e : ε} (h : l.mapM f = .error e) : ∃ a ∈ l, f a = .error e := by
  induction l with
  | nil => cases h
  | cons a l ih =>
    rw [mapM_cons] at h
    cases ha : f a with
    | error e' =>
      rw [ha] at h
      cases h
      exact ⟨a, by simp, ha⟩
    | ok b =>
      cases hl : l.mapM f with
      | error e' =>
        rw [ha, hl] at h
        cases h
        obtain ⟨a', ha', hfa'⟩ := ih hl
        exact ⟨a', mem_cons_of_mem _ ha', hfa'⟩
      | ok bs =>
        rw [ha, hl] at h
        cases h

theorem mapM_eq_ok {bs : List β} (h : l.mapM f = .ok bs) :
    (∀ b ∈ bs, ∃ a ∈ l, f a = .ok b) ∧ ∀ a ∈ l, ∃ b ∈ bs, f a = .ok b := by
  induction l generalizing bs with
  | nil =>
    cases h
    exact ⟨forall_mem_nil _, forall_mem_nil _⟩
  | cons a l ih =>
    rw [mapM_cons] at h
    cases ha : f a with
    | error e' =>
      rw [ha] at h
      cases h
    | ok b =>
      cases hl : l.mapM f with
      | error e' =>
        rw [ha, hl] at h
        cases h
      | ok bs' =>
        rw [ha, hl] at h
        cases h
        obtain ⟨hback, hforth⟩ := ih hl
        constructor
        · intro b' hb'
          rcases mem_cons.mp hb' with rfl | hb'
          · exact ⟨a, by simp, ha⟩
          · obtain ⟨a', ha', hfa'⟩ := hback b' hb'
            exact ⟨a', mem_cons_of_mem _ ha', hfa'⟩
        · intro a' ha'
          rcases mem_cons.mp ha' with rfl | ha'
          · exact ⟨b, by simp, ha⟩
          · obtain ⟨b', hb', hfb'⟩ := hforth a' ha'
            exact ⟨b', mem_cons_of_mem _ hb', hfb'⟩

end Traverse

theorem le_foldl_max {l : List Nat} {n b : Nat} (h : n ∈ l ∨ n ≤ b) : n ≤ l.foldl max b := by
  induction l generalizing b with
  | nil => exact h.resolve_left not_mem_nil
  | cons m l ih =>
    apply ih
    rcases h with h | h
    · rcases mem_cons.mp h with rfl | h
      · exact .inr (le_max_right _ _)
      · exact .inl h
    · exact .inr (h.trans (le_max_left _ _))

theorem mem_interleave {hosts : List (List (BitVec 32))} {ip : IpAddr} :
    ip ∈ interleave hosts ↔ ∃ list ∈ hosts, ∃ a ∈ list, ip = .v4 a := by
  simp only [interleave, mem_flatMap, mem_filterMap, mem_range, map_eq_some_iff]
  constructor
  · rintro ⟨i, -, list, hlist, a, ha, rfl⟩
    exact ⟨list, hlist, a, mem_of_getElem? ha, rfl⟩
  · rintro ⟨list, hlist, a, ha, rfl⟩
    obtain ⟨i, hi, rfl⟩ := mem_iff_getElem.mp ha
    refine ⟨i, ?_, list, hlist, list[i], getElem?_eq_getElem hi, rfl⟩
    exact lt_of_lt_of_le hi (le_foldl_max (.inl (mem_map_of_mem hlist)))

theorem foldl_pushNew (wanted : List Candidate) :
    (wanted.foldl pushNew ([], [])).2 = wanted.eraseDups := by
  suffices h : ∀ seen, (wanted.foldl pushNew (seen, seen.reverse)).2 =
      List.eraseDupsBy.loop (· == ·) wanted seen from h []
  induction wanted with
  | nil => intro seen; rfl
  | cons c wanted ih =>
    intro seen
    rw [foldl_cons, pushNew, List.eraseDupsBy.loop]
    by_cases hc : c ∈ seen
    · have hany : seen.any (c == ·) = true := by simpa using hc
      rw [if_pos hc, hany]
      exact ih seen
    · have hany : seen.any (c == ·) = false := by
        simpa using fun d hd (heq : c = d) => hc (heq ▸ hd)
      rw [if_neg hc, hany]
      simpa using ih (c :: seen)

theorem mem_foldl_pushNew (wanted : List Candidate) :
    c ∈ (wanted.foldl pushNew ([], [])).2 ↔ c ∈ wanted := by
  rw [foldl_pushNew, mem_eraseDups]

/-! ## The candidates -/

def InTyped (texts : List Text) (n : Nat) : Prop := ∃ r ∈ typed texts, r.Contains n

instance (texts : List Text) (n : Nat) : Decidable (InTyped texts n) :=
  inferInstanceAs (Decidable (∃ r ∈ typed texts, r.Contains n))

def Sealed (texts : List Text) : Prop :=
  ∀ r ∈ typed texts, ∀ j < r.spilled, r.next + j < 2 ^ 32 ∧ InTyped texts (r.next + j)

variable {texts : List Text}

theorem Sealed.offset (h : Sealed texts) (hr : r ∈ typed texts) (hoff : r.Offset off) :
    r.addr.toNat + off < 2 ^ 32 ∧ InTyped texts (r.addr.toNat + off) := by
  rcases hoff.cases with hin | ⟨j, hj, heq⟩
  · exact ⟨lt_of_lt_of_le hin r.next_le, r, hr, Range.contains_of_lt_next (Nat.le_add_right ..) hin⟩
  · rw [heq]
    exact h r hr j hj

theorem mem_zipIdx_cidrs {cidr : Text} {i : Nat}
    (h : (cidr, i) ∈ (texts.filterMap appNormalizeCidrV4).zipIdx) :
    ∃ r ∈ typed texts, cidr = r.format := by
  rw [filterMap_appNormalizeCidrV4] at h
  obtain ⟨r, hr, rfl⟩ := mem_map.mp (fst_mem_of_mem_zipIdx h)
  exact ⟨r, hr, rfl⟩

theorem Sealed.cidrHosts (h : Sealed texts) (st : Strategy) (draws : Nat → List Nat) :
    cidrHosts st draws (texts.filterMap appNormalizeCidrV4) ≠ .error .overflow ∧
      ∀ hosts, cidrHosts st draws (texts.filterMap appNormalizeCidrV4) = .ok hosts →
        ∀ list ∈ hosts, ∀ a ∈ list, InTyped texts a.toNat := by
  constructor
  · intro hfault
    obtain ⟨⟨cidr, i⟩, hmem, hfault⟩ := mapM_eq_error hfault
    obtain ⟨r, hr, rfl⟩ := mem_zipIdx_cidrs hmem
    have hscanned := scanned_hostsOf (bits_le_of_mem_typed hr) st (draws i)
    rw [hfault] at hscanned
    obtain ⟨off, hoff, hlarge⟩ := hscanned
    have := (h.offset hr hoff).1
    omega
  · intro hosts hok list hlist a ha
    obtain ⟨⟨cidr, i⟩, hmem, hfound⟩ := (mapM_eq_ok hok).1 list hlist
    obtain ⟨r, hr, rfl⟩ := mem_zipIdx_cidrs hmem
    have hscanned := scanned_hostsOf (bits_le_of_mem_typed hr) st (draws i)
    rw [hfound] at hscanned
    rcases hscanned a ha with rfl | ⟨off, hoff, heq⟩
    · exact ⟨r, hr, r.contains_addr⟩
    · rw [heq]
      exact (h.offset hr hoff).2

theorem fst_mem_of_mem_wgWanted {st : WgStrategy} {excluded : List SocketAddr}
    (h : c ∈ wgWanted st ports excluded ips) : c.1 ∈ ips := by
  obtain ⟨wave, -, h⟩ := mem_flatMap.mp (mem_of_mem_filter h)
  obtain ⟨entry, hentry, rfl⟩ := mem_map.mp h
  have hip : entry.1 ∈ ips := fst_mem_of_mem_zipIdx hentry
  exact hip

theorem fst_mem_of_mem_masqueWanted (h : c ∈ masqueWanted ports ips) : c.1 ∈ ips := by
  rcases mem_append.mp h with h | h
  · obtain ⟨ip, hip, rfl⟩ := mem_map.mp h
    exact hip
  · obtain ⟨ip, hip, h⟩ := mem_flatMap.mp h
    obtain ⟨port, -, rfl⟩ := mem_map.mp h
    exact hip

theorem mem_masqueWanted {ip : IpAddr} (h : ip ∈ ips) :
    (ip, ports.headD 443) ∈ masqueWanted ports ips :=
  mem_append_left _ (mem_map_of_mem h)

/-- What is asked of one scan: no sum overflows, and every candidate is in a
typed network. -/
structure Pinned (texts : List Text) (result : Except Fault (List Candidate)) : Prop where
  noOverflow : result ≠ .error .overflow
  inside : ∀ out, result = .ok out → ∀ c ∈ out, ∃ a, c.1 = .v4 a ∧ InTyped texts a.toNat

theorem Sealed.pinned (h : Sealed texts) (st : Strategy) (draws : Nat → List Nat)
    {wanted : List IpAddr → List Candidate} (hwanted : ∀ ips, ∀ c ∈ wanted ips, c.1 ∈ ips) :
    Pinned texts (do
      let hosts ← Prober.cidrHosts st draws (texts.filterMap appNormalizeCidrV4)
      return ((wanted (interleave hosts)).foldl pushNew ([], [])).2) := by
  obtain ⟨hfault, hinside⟩ := h.cidrHosts st draws
  cases hhosts : Prober.cidrHosts st draws (texts.filterMap appNormalizeCidrV4) with
  | error fault =>
    rw [hhosts] at hfault
    exact ⟨fun heq => hfault (Except.error.inj heq ▸ rfl), nofun⟩
  | ok hosts =>
    refine ⟨nofun, fun out hout c hc => ?_⟩
    cases hout
    have hip := hwanted _ c ((mem_foldl_pushNew _).mp hc)
    obtain ⟨list, hlist, a, ha, heq⟩ := mem_interleave.mp hip
    exact ⟨a, heq, hinside hosts hhosts list hlist a ha⟩

theorem cidrHosts_one_ne_undrawn (texts : List Text) (draws : Nat → Nat) :
    cidrHosts ⟨false, 1⟩ (fun i => [draws i]) (texts.filterMap appNormalizeCidrV4) ≠
      .error .undrawn := by
  intro hfault
  obtain ⟨⟨cidr, i⟩, hmem, hfault⟩ := mapM_eq_error hfault
  obtain ⟨r, hr, rfl⟩ := mem_zipIdx_cidrs hmem
  exact sampleCidrV4_one_ne_undrawn (bits_le_of_mem_typed hr) (draws i) hfault

theorem sealed_of_pinned
    (h : ∀ draws : Nat → Nat, Pinned texts (manualMasqueCandidates ⟨false, 1⟩ [443]
      (texts.filterMap appNormalizeCidrV4) fun i => [draws i])) : Sealed texts := by
  intro r hr j hj
  obtain ⟨off, hoff, heq⟩ := Range.exists_offset_of_spilled hj
  rw [← heq]
  have hcidr : r.format ∈ texts.filterMap appNormalizeCidrV4 := by
    rw [filterMap_appNormalizeCidrV4]
    exact mem_map_of_mem hr
  obtain ⟨i, hi, hget⟩ := mem_iff_getElem.mp hcidr
  -- the draw that leads to this offset, in every range
  have hpinned := h fun _ => off - 1
  have hundrawn := cidrHosts_one_ne_undrawn texts fun _ => off - 1
  rw [manualMasqueCandidates] at hpinned
  cases hhosts : cidrHosts ⟨false, 1⟩ (fun _ => [off - 1])
      (texts.filterMap appNormalizeCidrV4) with
  | error fault =>
    rw [hhosts] at hpinned hundrawn
    cases fault with
    | overflow => exact absurd rfl hpinned.noOverflow
    | undrawn => exact absurd rfl hundrawn
  | ok hosts =>
    rw [hhosts] at hpinned
    obtain ⟨list, hlist, hfound⟩ := (mapM_eq_ok hhosts).2 (r.format, i)
      (by rw [mem_zipIdx_iff_getElem?]; rw [getElem?_eq_getElem hi, hget])
    have hsample : sampleCidrV4 r.format 1 [off - 1] = .ok list := hfound
    rw [sampleCidrV4_one (bits_le_of_mem_typed hr) hoff, hostAt] at hsample
    split at hsample
    · rename_i hlt
      cases hsample
      have hip : IpAddr.v4 (BitVec.ofNat 32 (r.addr.toNat + off)) ∈ interleave hosts :=
        mem_interleave.mpr ⟨_, hlist, _, mem_singleton_self _, rfl⟩
      obtain ⟨a, ha, hinside⟩ := hpinned.inside _ rfl _
        ((mem_foldl_pushNew _).mpr (mem_masqueWanted hip))
      cases ha
      rw [BitVec.toNat_ofNat, Nat.mod_eq_of_lt hlt] at hinside
      exact ⟨hlt, hinside⟩
    · cases hsample

/-- **A pinned range is the only place scanned** exactly where nothing spills
that is not an address of a typed network itself. -/
theorem manual_scan_pinned_iff (texts : List Text) :
    (∀ (wg : WgStrategy) (masque : Strategy) (ports : List Nat) (excluded : List SocketAddr)
        (draws : Nat → List Nat),
      Pinned texts
          (manualWgCandidates wg ports (texts.filterMap appNormalizeCidrV4) excluded draws) ∧
        Pinned texts
          (manualMasqueCandidates masque ports (texts.filterMap appNormalizeCidrV4) draws)) ↔
      Sealed texts := by
  constructor
  · intro h
    exact sealed_of_pinned fun draws =>
      (h ⟨⟨false, 1⟩, 1⟩ ⟨false, 1⟩ [443] [] fun i => [draws i]).2
  · intro h wg masque ports excluded draws
    exact ⟨h.pinned wg.toStrategy draws fun _ _ => fst_mem_of_mem_wgWanted,
      h.pinned masque draws fun _ _ => fst_mem_of_mem_masqueWanted⟩

/-- `10.0.0.7/30` is the network of `10.0.0.4` to `10.0.0.7`; the hosts that
are scanned are `10.0.0.8` and `10.0.0.9`. And the last address of all
overflows. -/
theorem pinned_range_left :
    manualWgCandidates ⟨⟨true, 0⟩, 1⟩ []
        (["10.0.0.7/30".toList].filterMap appNormalizeCidrV4) [] (fun _ => []) =
      .ok [(.ofOctets 10 0 0 8, 2408), (.ofOctets 10 0 0 9, 2408)] ∧
      ¬ InTyped ["10.0.0.7/30".toList] 0x0A000008 ∧ ¬ InTyped ["10.0.0.7/30".toList] 0x0A000009 ∧
      manualWgCandidates ⟨⟨true, 0⟩, 1⟩ []
        (["255.255.255.255/24".toList].filterMap appNormalizeCidrV4) [] (fun _ => []) =
      .error .overflow := by
  decide +kernel

end BigRocket.Prober
