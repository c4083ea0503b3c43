/-
The candidates of a WireGuard scan. Without ranges of the user every address is
tried with one port in each wave, and the ports rotate from wave to wave; of the
ranges of the user some are never tried.
-/
import BigRocket.Lib.Except
import BigRocket.Prober.ManualRangeTheorems

namespace BigRocket.Prober

open Lib Net List

/-! ## Lists without their repetitions -/

section EraseDups

variable {α : Type} [BEq α] [LawfulBEq α]

theorem filter_eraseDups (p : α → Bool) :
    ∀ l : List α, (l.filter p).eraseDups = l.eraseDups.filter p
  | [] => rfl
  | a :: l => by
    have ih := filter_eraseDups p (l.filter fun b => !b == a)
    rw [filter_comm] at ih
    rw [eraseDups_cons, filter_cons, filter_cons]
    split
    · rw [eraseDups_cons, ih]
    · next hp =>
        have hself : ((l.filter p).filter fun b => !b == a) = l.filter p := by
          rw [filter_eq_self]
          intro b hb
          simpa using fun heq : b = a => hp (heq ▸ of_mem_filter hb)
        rw [← ih, hself]
  termination_by l => l.length
  decreasing_by exact Nat.lt_succ_of_le (length_filter_le _ _)

theorem nodup_eraseDups : ∀ l : List α, l.eraseDups.Nodup
  | [] => nodup_nil
  | a :: l => by
    rw [eraseDups_cons, nodup_cons]
    refine ⟨?_, nodup_eraseDups _⟩
    simp
  termination_by l => l.length
  decreasing_by exact Nat.lt_succ_of_le (length_filter_le _ _)

theorem eraseDups_of_nodup {l : List α} (h : l.Nodup) : l.eraseDups = l := by
  induction l with
  | nil => rfl
  | cons a l ih =>
    obtain ⟨ha, hl⟩ := nodup_cons.mp h
    have hself : (l.filter fun b => !b == a) = l := by
      rw [filter_eq_self]
      intro b hb
      simpa using fun heq : b = a => ha (heq ▸ hb)
    rw [eraseDups_cons, hself, ih hl]

theorem eraseDups_append_of_subset {l more : List α} (hl : l.Nodup) (hmore : more ⊆ l) :
    (l ++ more).eraseDups = l := by
  have hnone : more.removeAll l = [] := by
    simpa [List.removeAll] using fun a ha => hmore ha
  rw [eraseDups_append, hnone, eraseDups_of_nodup hl]
  exact append_nil l

end EraseDups

/-! ## The waves -/

def buildWgCandidates (st : WgStrategy) (ports : List Nat) (anchors pool : List IpAddr)
    (excluded : List SocketAddr) : List Candidate :=
  ((wgWanted st ports.eraseDups excluded (anchors ++ pool).eraseDups).foldl pushNew ([], [])).2

/-- The ports of a scan; none at all stand for the usual one. -/
def scanPorts (ports : List Nat) : List Nat :=
  if ports.eraseDups = [] then [2408] else ports.eraseDups

def scanCandidates (pinned : Option (List Text)) (st : WgStrategy) (ports : List Nat)
    (anchors pool : List IpAddr) (excluded : List SocketAddr) (draws : Nat → List Nat) :
    Except Fault (List Candidate) :=
  match pinned with
  | some cidrs => manualWgCandidates st (scanPorts ports) cidrs excluded draws
  | none => .ok (buildWgCandidates st ports anchors pool excluded)

def wave (ports : List Nat) (ips : List IpAddr) (k : Nat) : List Candidate :=
  ips.zipIdx.map fun entry => (entry.1, ports.getD ((entry.2 + k) % ports.length) 0)

def portsOf (ip : IpAddr) (candidates : List Candidate) : List Nat :=
  (candidates.filter (·.1 = ip)).map Prod.snd

variable {ports : List Nat} {ips : List IpAddr}

theorem nodup_scanPorts (ports : List Nat) :
    (scanPorts ports).Nodup ∧ 0 < (scanPorts ports).length := by
  unfold scanPorts
  split
  · simp
  · next h => exact ⟨nodup_eraseDups ports, length_pos_iff.mpr h⟩

theorem map_fst_wave (ports : List Nat) (ips : List IpAddr) (k : Nat) :
    (wave ports ips k).map Prod.fst = ips := by
  simp [wave, Function.comp_def]

theorem wave_mod (k : Nat) : wave ports ips (k % ports.length) = wave ports ips k := by
  simp [wave]

theorem mem_wave {k : Nat} {c : Candidate} : c ∈ wave ports ips k ↔
    ∃ i, ips[i]? = some c.1 ∧ ports.getD ((i + k) % ports.length) 0 = c.2 := by
  obtain ⟨ip, port⟩ := c
  simp [wave, mem_zipIdx_iff_getElem?]

theorem wave_disjoint (hips : ips.Nodup) (hports : ports.Nodup) {j k : Nat} (hj : j < ports.length)
    (hk : k < ports.length) {c : Candidate} (hc : c ∈ wave ports ips j)
    (hc' : c ∈ wave ports ips k) : j = k := by
  obtain ⟨i, hi, hport⟩ := mem_wave.mp hc
  obtain ⟨i', hi', hport'⟩ := mem_wave.mp hc'
  obtain ⟨hlt, -⟩ := List.getElem?_eq_some_iff.mp hi
  obtain rfl : i = i' := (getElem?_inj hlt hips).mp (hi.trans hi'.symm)
  have hpos : 0 < ports.length := by omega
  have hlt : (i + j) % ports.length < ports.length := Nat.mod_lt _ hpos
  have hlt' : (i + k) % ports.length < ports.length := Nat.mod_lt _ hpos
  rw [← hport', getD_eq_getElem _ _ hlt, getD_eq_getElem _ _ hlt',
    hports.getElem_inj_iff] at hport
  have hmod : j ≡ k [MOD ports.length] := Nat.ModEq.add_left_cancel' i hport
  exact Nat.ModEq.eq_of_lt_of_lt hmod hj hk

theorem eraseDups_waves (hips : ips.Nodup) (hports : ports.Nodup) (hpos : 0 < ports.length)
    (waves : Nat) : ((List.range waves).flatMap (wave ports ips)).eraseDups =
      (List.range (min waves ports.length)).flatMap (wave ports ips) := by
  have hnodup : ((List.range (min waves ports.length)).flatMap (wave ports ips)).Nodup := by
    rw [nodup_flatMap]
    constructor
    · intro k _
      exact List.Nodup.of_map Prod.fst (by rwa [map_fst_wave])
    · refine nodup_range.imp_of_mem fun {j k} hj hk hne c hc hc' => hne ?_
      rw [mem_range] at hj hk
      exact wave_disjoint hips hports (by omega) (by omega) hc hc'
  have hsplit : waves = min waves ports.length + (waves - ports.length) := by omega
  conv_lhs => rw [hsplit, range_add, flatMap_append]
  refine eraseDups_append_of_subset hnodup fun c hc => ?_
  simp only [mem_flatMap, mem_map, mem_range] at hc ⊢
  obtain ⟨_, ⟨k, hk, rfl⟩, hc⟩ := hc
  have hlt := Nat.mod_lt (min waves ports.length + k) hpos
  refine ⟨(min waves ports.length + k) % ports.length, by omega, ?_⟩
  rwa [wave_mod]

theorem buildWgCandidates_eq (st : WgStrategy) (ports : List Nat) (anchors pool : List IpAddr)
    (excluded : List SocketAddr) : buildWgCandidates st ports anchors pool excluded =
      ((List.range (min (max st.poolPortWaves 1) (scanPorts ports).length)).flatMap
        (wave (scanPorts ports) (anchors ++ pool).eraseDups)).filter
          fun c => ⟨c.1, c.2⟩ ∉ excluded := by
  obtain ⟨hports, hpos⟩ := nodup_scanPorts ports
  rw [← eraseDups_waves (nodup_eraseDups _) hports hpos, ← filter_eraseDups, ← foldl_pushNew]
  rfl

theorem nodup_portsOf {candidates : List Candidate} (h : candidates.Nodup) (ip : IpAddr) :
    (portsOf ip candidates).Nodup := by
  refine (h.filter _).map_on ?_
  intro c hc d hd hport
  have hc : c.1 = ip := by simpa using of_mem_filter hc
  have hd : d.1 = ip := by simpa using of_mem_filter hd
  exact Prod.ext (hc.trans hd.symm) hport

theorem length_portsOf (ip : IpAddr) (candidates : List Candidate) :
    (portsOf ip candidates).length = (candidates.map Prod.fst).count ip := by
  rw [portsOf, length_map, List.count, countP_map, countP_eq_length_filter]
  rfl

theorem not_excluded_of_mem_wgWanted {st : WgStrategy} {excluded : List SocketAddr} {c : Candidate}
    (h : c ∈ wgWanted st ports excluded ips) : ⟨c.1, c.2⟩ ∉ excluded := by
  simpa using of_mem_filter h

/-- **Port waves cover evenly**: no pair comes twice, each address comes with as
many ports as there are waves and once before any comes again, and exclusions only
take pairs out. -/
theorem port_waves_even (st : WgStrategy) (ports : List Nat) (anchors pool : List IpAddr)
    (excluded : List SocketAddr) :
    (buildWgCandidates st ports anchors pool excluded).Nodup ∧
      (∀ c ∈ buildWgCandidates st ports anchors pool excluded, ⟨c.1, c.2⟩ ∉ excluded) ∧
      (∀ ip ∈ anchors ++ pool,
        (portsOf ip (buildWgCandidates st ports anchors pool [])).Nodup ∧
          (portsOf ip (buildWgCandidates st ports anchors pool [])).length =
            min (max st.poolPortWaves 1) (scanPorts ports).length) ∧
      (anchors ++ pool).eraseDups <+:
        (buildWgCandidates st ports anchors pool []).map Prod.fst ∧
      buildWgCandidates st ports anchors pool excluded =
        (buildWgCandidates st ports anchors pool []).filter fun c => ⟨c.1, c.2⟩ ∉ excluded := by
  have hnodup (excluded) : (buildWgCandidates st ports anchors pool excluded).Nodup := by
    rw [buildWgCandidates, foldl_pushNew]
    exact nodup_eraseDups _
  have hall := buildWgCandidates_eq st ports anchors pool []
  simp only [not_mem_nil, not_false_eq_true, decide_true, filter_true] at hall
  have hfst : (buildWgCandidates st ports anchors pool []).map Prod.fst =
      (List.range (min (max st.poolPortWaves 1) (scanPorts ports).length)).flatMap
        fun _ => (anchors ++ pool).eraseDups := by
    rw [hall, map_flatMap]
    simp only [map_fst_wave]
  refine ⟨hnodup excluded, ?_, ?_, ?_, ?_⟩
  · intro c hc
    exact not_excluded_of_mem_wgWanted ((mem_foldl_pushNew _).mp hc)
  · intro ip hip
    refine ⟨nodup_portsOf (hnodup []) ip, ?_⟩
    have honce : (anchors ++ pool).eraseDups.count ip = 1 :=
      count_eq_one_of_mem (nodup_eraseDups _) (mem_eraseDups.mpr hip)
    rw [length_portsOf, hfst, count_flatMap]
    simp [Function.comp_def, honce]
  · obtain ⟨m, hm⟩ : ∃ m, min (max st.poolPortWaves 1) (scanPorts ports).length = m + 1 :=
      Nat.exists_eq_succ_of_ne_zero (by have := (nodup_scanPorts ports).2; omega)
    rw [hfst, hm, range_succ_eq_map, flatMap_cons]
    exact prefix_append _ _
  · rw [hall, buildWgCandidates_eq]

/-! ## Ranges of the user -/

/-- The lengths for which the code finds an address at all: `enumerate_cidr_v4`
has none for two addresses, and none for more than twelve bits of them. -/
def Range.Reached (st : Strategy) (r : Range) : Prop :=
  if st.fullSubnet then r.bits = 32 ∨ 20 ≤ r.bits ∧ r.bits ≤ 30
  else 31 ≤ r.bits ∨ 1 ≤ st.samplePerCidr % 2 ^ 32

theorem length_sampleLoop {base usable want : Nat} {draws chosen : List Nat}
    {out hosts : List (BitVec 32)} (hout : out.length ≤ want)
    (h : sampleLoop base usable want draws chosen out = .ok hosts) : hosts.length = want := by
  induction draws generalizing chosen out with
  | nil =>
    rw [sampleLoop] at h
    split at h <;> cases h
    omega
  | cons draw draws ih =>
    rw [sampleLoop] at h
    split at h
    · dsimp only at h
      split at h
      · exact ih hout h
      · obtain ⟨a, -, h⟩ := bind_eq_ok h
        exact ih (by simpa using by omega) h
    · cases h
      omega

theorem Range.size_le_two_iff {r : Range} (hbits : r.bits ≤ 32) : r.size ≤ 2 ↔ 31 ≤ r.bits := by
  rcases r.size_cases with ⟨hhost, hzero, hsize⟩ | ⟨-, -, hsize⟩
  · rw [hhost] at hsize
    omega
  · have hpow : r.size ≤ 2 ^ 1 ↔ r.hostBits ≤ 1 := by
      rw [hsize, Nat.pow_le_pow_iff_right (by decide)]
    rw [pow_one, Range.hostBits] at hpow
    omega

theorem hostsOf_ne_nil_iff {r : Range} (hbits : r.bits ≤ 32) {st : Strategy} {draws : List Nat}
    {hosts : List (BitVec 32)} (h : hostsOf st draws r.format = .ok hosts) :
    hosts ≠ [] ↔ r.Reached st := by
  unfold hostsOf at h
  unfold Range.Reached
  split at h
  · simp only [enumerateCidrV4, parseCidrV4_format hbits] at h
    rw [if_pos ‹_›]
    split at h
    · cases h
      simp only [ne_eq, cons_ne_nil, not_false_eq_true, true_iff]
      omega
    · split at h
      · cases h
        simp only [ne_eq, not_true_eq_false, false_iff]
        omega
      · obtain ⟨hback, hforth⟩ := mapM_eq_ok h
        constructor
        · intro hne
          obtain ⟨a, ha⟩ := exists_mem_of_ne_nil hosts hne
          obtain ⟨off, hoff, -⟩ := hback a ha
          by_contra hshort
          have hone : 32 - r.bits = 1 := by omega
          rw [hone, mem_range'_1] at hoff
          omega
        · intro hreached
          have hpow : 2 ^ 2 ≤ 2 ^ (32 - r.bits) := Nat.pow_le_pow_right (by decide) (by omega)
          obtain ⟨a, ha, -⟩ := hforth 1 (by rw [mem_range'_1]; omega)
          exact ne_nil_of_mem ha
  · rw [sampleCidrV4_format hbits] at h
    have hsmall := Range.size_le_two_iff hbits
    rw [if_neg ‹_›]
    split at h
    · cases h
      simp only [ne_eq, cons_ne_nil, not_false_eq_true, true_iff]
      omega
    · have hlength := length_sampleLoop (Nat.zero_le _) h
      rw [← length_pos_iff, hlength]
      omega

theorem mem_wgWanted {ip : IpAddr} (h : ip ∈ ips) (st : WgStrategy) (ports : List Nat) :
    ∃ c ∈ wgWanted st ports [] ips, c.1 = ip := by
  have hfirst := map_fst_wave (if ports = [] then [2408] else ports) ips 0
  rw [← hfirst] at h
  obtain ⟨c, hc, rfl⟩ := mem_map.mp h
  exact ⟨c, mem_filter.mpr ⟨mem_flatMap.mpr ⟨0, by simp, hc⟩, by simp⟩, rfl⟩

def EachRangeScanned (texts : List Text) (st : Strategy) (draws : Nat → List Nat)
    (candidates : List Candidate) : Prop :=
  ∀ i r, (typed texts)[i]? = some r → ∃ hosts, hostsOf st (draws i) r.format = .ok hosts ∧
    ∃ a ∈ hosts, ∃ c ∈ candidates, c.1 = .v4 a

end BigRocket.Prober
