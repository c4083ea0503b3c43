/-
The lookups that the proxy makes through the tunnel, in `socks.rs`: the query,
its answer, and whose answer is taken among several resolvers.
-/
import BigRocket.Dns.HttpsEch
import BigRocket.Net.Address

namespace BigRocket.Dns

open Lib Read Net List

def qtypeA : UInt16 := 1

def qtypeAaaa : UInt16 := 28

def rcodeNxdomain : UInt8 := 3

/-- Other than `build_query`, this writes the empty part behind a final dot. -/
def buildDnsQuery (id : UInt16) (name : Text) (qtype : UInt16) : List UInt8 :=
  beBytes 2 id.toNat ++ [0x01, 0x00] ++ [0x00, 0x01] ++ [0x00, 0x00, 0x00, 0x00, 0x00, 0x00] ++
    putQuestion ((name.splitBy (· = '.')).map Utf8.encode) qtype [0x00, 0x01]

/-- The source has `response_matches` twice, in the same words. -/
def dnsResponseMatches : List UInt8 → UInt16 → Text → UInt16 → Read Unit := responseMatches

def dnsRcode (resp : List UInt8) : Option UInt8 := resp[3]?.map (· &&& 0x0f)

def searchAddress (resp : List UInt8) (qtype : UInt16) : Nat → Nat → Read IpAddr
  | 0, _ => .nothing
  | count + 1, pos => do
      let pos ← skipName resp pos
      require (pos + 10 ≤ resp.length)
      let rtype ← indexBe 2 resp pos
      let rdlen ← indexBe 2 resp (pos + 8)
      require (pos + 10 + rdlen ≤ resp.length)
      if rtype = qtype.toNat ∧ qtype = qtypeA ∧ rdlen = 4 then do
        let bits ← indexBe 4 resp (pos + 10)
        return .v4 (BitVec.ofNat 32 bits)
      else if rtype = qtype.toNat ∧ qtype = qtypeAaaa ∧ rdlen = 16 then do
        let bits ← indexBe 16 resp (pos + 10)
        return .v6 (BitVec.ofNat 128 bits)
      else searchAddress resp qtype count (pos + 10 + rdlen)

def parseDnsAnswer (resp : List UInt8) (qtype : UInt16) : Read IpAddr := do
  require (12 ≤ resp.length)
  let qd ← indexBe 2 resp 4
  let an ← indexBe 2 resp 6
  let pos ← skipQuestions resp qd 12
  searchAddress resp qtype an pos

/-! ## A reply to the own query -/

structure DomainName where
  labels : List Text
  dot : Bool
  nonempty : labels ≠ []
  isLabel : ∀ label ∈ labels,
    '.' ∉ label ∧ 1 ≤ (Utf8.encode label).length ∧ (Utf8.encode label).length ≤ 63

namespace DomainName

variable (n : DomainName)

def parts : List Text := n.labels ++ if n.dot then [[]] else []

def spell : Text := ['.'].intercalate n.parts

theorem splitBy_spell : n.spell.splitBy (· = '.') = n.parts := by
  refine splitOn_intercalate '.' (fun part hpart => ?_) (by simp [parts, n.nonempty])
  rcases mem_append.mp hpart with h | h
  · exact (n.isLabel part h).1
  · split at h
    · simp [mem_singleton.mp h]
    · cases h

theorem labelsOf_spell : labelsOf n.spell = n.labels.map Utf8.encode := by
  have hlabels : n.labels.filter (· ≠ []) = n.labels := by
    refine filter_eq_self.mpr fun label hlabel => decide_eq_true ?_
    rintro rfl
    exact absurd (n.isLabel [] hlabel).2.1 (by decide)
  have hdot : (if n.dot then [([] : Text)] else []).filter (· ≠ []) = [] := by
    split <;> rfl
  rw [labelsOf, splitBy_spell, parts, filter_append, hlabels, hdot, append_nil]

theorem isLabel_encode : ∀ label ∈ n.labels.map Utf8.encode, 1 ≤ label.length ∧ label.length ≤ 63 := by
  intro label hlabel
  obtain ⟨text, htext, rfl⟩ := mem_map.mp hlabel
  exact (n.isLabel text htext).2

end DomainName

def Record.WellFormed (r : Record) : Prop :=
  (r.data.rtype = qtypeA.toNat → r.data.encode.length = 4) ∧
    (r.data.rtype = qtypeAaaa.toNat → r.data.encode.length = 16)

def Record.address (v6 : Bool) (r : Record) : Option IpAddr :=
  let bits := beNat r.data.encode
  if v6 then if r.data.rtype = qtypeAaaa.toNat then some (.v6 (BitVec.ofNat 128 bits)) else none
  else if r.data.rtype = qtypeA.toNat then some (.v4 (BitVec.ofNat 32 bits)) else none

def queryType (v6 : Bool) : UInt16 := if v6 then qtypeAaaa else qtypeA

structure OwnReply where
  flags : UInt8
  codes : UInt8
  isResponse : flags &&& 0x80 ≠ 0
  answers : List Record
  answers_lt : answers.length < 65536
  wellFormed : ∀ r ∈ answers, r.WellFormed
  otherCounts : List UInt8
  length_otherCounts : otherCounts.length = 4
  rest : List UInt8

def OwnReply.encode (r : OwnReply) (query : List UInt8) : List UInt8 :=
  query.take 2 ++ ([r.flags, r.codes] ++ (beBytes 2 1 ++ (beBytes 2 r.answers.length ++
    (r.otherCounts ++ (query.drop 12 ++ (r.answers.flatMap Record.encode ++ r.rest))))))

variable {msg : List UInt8} {pos : Nat}

theorem searchAddress_record (v6 : Bool) (r : Record) (hr : r.WellFormed) (count : Nat)
    (h : Window pos r.encode msg) :
    searchAddress msg (queryType v6) (count + 1) pos =
      match r.address v6 with
      | some ip => .got ip
      | none => searchAddress msg (queryType v6) count (pos + r.encode.length) := by
  obtain ⟨howner, hfixed, hrtype, hrdlen, hwhole, hdata, hnext⟩ := recordAt_encode r h
  have hbits (w : Nat) (hw : r.data.encode.length = w) :
      indexBe w msg (pos + r.owner.encode.length + 10) = .got (beNat r.data.encode) := by
    rw [indexBe, indexRange_eq_got.mpr ⟨hdata, by rw [hw]⟩]
    rfl
  simp only [searchAddress, howner, got_bind, require_pos hfixed, hrtype, hrdlen,
    require_pos hwhole, hnext]
  cases v6 with
  | false =>
    simp only [queryType, Record.address, Bool.false_eq_true, if_false]
    by_cases htype : r.data.rtype = qtypeA.toNat
    · rw [if_pos ⟨htype, trivial, hr.1 htype⟩, if_pos htype, hbits 4 (hr.1 htype)]
      rfl
    · rw [if_neg (fun h => htype h.1), if_neg (fun h => htype h.1), if_neg htype]
  | true =>
    simp only [queryType, Record.address, if_true]
    rw [if_neg (fun h => absurd h.2.1 (by decide))]
    by_cases htype : r.data.rtype = qtypeAaaa.toNat
    · rw [if_pos ⟨htype, trivial, hr.2 htype⟩, if_pos htype, hbits 16 (hr.2 htype)]
      rfl
    · rw [if_neg (fun h => htype h.1), if_neg htype]

theorem searchAddress_answers (v6 : Bool) (answers : List Record)
    (hwf : ∀ r ∈ answers, r.WellFormed) (h : Window pos (answers.flatMap Record.encode) msg) :
    searchAddress msg (queryType v6) answers.length pos =
      ofOption (answers.findSome? (·.address v6)) := by
  induction answers generalizing pos with
  | nil => rfl
  | cons r answers ih =>
    obtain ⟨hr, hanswers⟩ := forall_mem_cons.mp hwf
    rw [flatMap_cons, window_append] at h
    rw [length_cons, searchAddress_record v6 r hr _ h.1, findSome?_cons]
    cases r.address v6 with
    | some ip => rfl
    | none => exact ih hanswers h.2

section OwnQuery

variable (n : DomainName) (id : UInt16) (v6 : Bool) (r : OwnReply)

def ownAnswer : List UInt8 := r.encode (buildDnsQuery id n.spell (queryType v6))

theorem window_ownAnswer :
    Window 0 (beBytes 2 id.toNat) (ownAnswer n id v6 r) ∧
      Window 2 [r.flags, r.codes] (ownAnswer n id v6 r) ∧
      Window 4 (beBytes 2 1) (ownAnswer n id v6 r) ∧
      Window 6 (beBytes 2 r.answers.length) (ownAnswer n id v6 r) ∧
      Window 12 (putQuestion (n.parts.map Utf8.encode) (queryType v6) [0x00, 0x01] ++
        r.answers.flatMap Record.encode) (ownAnswer n id v6 r) := by
  have hquery : buildDnsQuery id n.spell (queryType v6) = beBytes 2 id.toNat ++ ([0x01, 0x00] ++
      [0x00, 0x01] ++ [0x00, 0x00, 0x00, 0x00, 0x00, 0x00]) ++
      putQuestion (n.parts.map Utf8.encode) (queryType v6) [0x00, 0x01] := by
    simp [buildDnsQuery, n.splitBy_spell]
  have hwindow : Window 0 (ownAnswer n id v6 r) (ownAnswer n id v6 r) :=
    ⟨prefix_rfl, Nat.zero_le _⟩
  have htake : (buildDnsQuery id n.spell (queryType v6)).take 2 = beBytes 2 id.toNat := by
    rw [hquery]; rfl
  have hdrop : (buildDnsQuery id n.spell (queryType v6)).drop 12 =
      putQuestion (n.parts.map Utf8.encode) (queryType v6) [0x00, 0x01] := by
    rw [hquery]; rfl
  conv at hwindow => arg 2; rw [ownAnswer, OwnReply.encode, htake, hdrop]
  simp only [window_append, length_beBytes, r.length_otherCounts, length_cons,
    length_nil] at hwindow ⊢
  obtain ⟨hid, hflags, hone, hcount, -, hquestion, hanswers, -⟩ := hwindow
  exact ⟨hid, hflags, hone, hcount, hquestion, hanswers⟩

theorem answers_ownAnswer (hdot : n.dot = false) :
    Answers (ownAnswer n id v6 r) id (labelsOf n.spell) (queryType v6) := by
  obtain ⟨hid, hflags, hone, -, hquestion⟩ := window_ownAnswer n id v6 r
  refine ⟨hid, ⟨r.flags, (window_cons.mp hflags).1, r.isResponse⟩, hone, _, [0x00, 0x01], rfl,
    rfl, ?_⟩
  rw [n.labelsOf_spell]
  simpa [DomainName.parts, hdot] using (window_append.mp hquestion).1

theorem not_answers_ownAnswer (hdot : n.dot = true) :
    ¬ Answers (ownAnswer n id v6 r) id (labelsOf n.spell) (queryType v6) := by
  rintro ⟨-, -, -, found, qclass, hsame, -, hfound⟩
  obtain ⟨-, -, -, -, hquestion⟩ := window_ownAnswer n id v6 r
  have hlength := hsame.length_putLabels
  rw [n.labelsOf_spell] at hlength
  have hparts : putLabels (n.parts.map Utf8.encode) =
      putLabels (n.labels.map Utf8.encode) ++ [0x00] := by
    simp [DomainName.parts, hdot, putLabels, Utf8.encode]
  simp only [putQuestion, hparts, window_append, window_cons, length_append,
    length_singleton] at hquestion hfound
  obtain ⟨⟨⟨-, hzero⟩, hroot, htype, -⟩, -⟩ := hquestion
  obtain ⟨-, -, htype', -⟩ := hfound
  obtain ⟨low, hlow, hne⟩ : ∃ low : UInt8,
      beBytes 2 (queryType v6).toNat = [0, low] ∧ low ≠ 0 := by
    cases v6
    · exact ⟨1, by decide, by decide⟩
    · exact ⟨28, by decide, by decide⟩
  rw [hlow, window_cons, window_singleton] at htype htype'
  rw [hlength] at htype'
  exact hne (Option.some_inj.mp (htype'.2.symm.trans htype.1))

theorem parse_ownAnswer (hdot : n.dot = false) :
    parseDnsAnswer (ownAnswer n id v6 r) (queryType v6) =
      ofOption (r.answers.findSome? (·.address v6)) := by
  obtain ⟨-, -, hone, hcount, hsections⟩ := window_ownAnswer n id v6 r
  have hlong := hsections.length_le
  let question : Question := {
    name := ⟨n.labels.map Utf8.encode, n.isLabel_encode, none⟩
    typeClass := beBytes 2 (queryType v6).toNat ++ [0x00, 0x01]
    length_typeClass := rfl }
  have hquestion : putQuestion (n.parts.map Utf8.encode) (queryType v6) [0x00, 0x01] =
      [question].flatMap Question.encode := by
    simp [question, putQuestion, Question.encode, Name.encode, ending, DomainName.parts, hdot]
  rw [hquestion, window_append] at hsections
  rw [parseDnsAnswer, require_pos (by omega), got_bind, indexBe_eq_got.mpr ⟨hone, by decide⟩,
    got_bind, indexBe_eq_got.mpr ⟨hcount, r.answers_lt⟩, got_bind]
  rw [show (1 : Nat) = [question].length from rfl, skipQuestions_questions _ hsections.1, got_bind]
  exact searchAddress_answers v6 r.answers r.wellFormed hsections.2

theorem matches_ownAnswer_iff :
    dnsResponseMatches (ownAnswer n id v6 r) id n.spell (queryType v6) = .got () ↔
      n.dot = false := by
  have hshort : ∀ label ∈ labelsOf n.spell, label.length < 256 := by
    rw [n.labelsOf_spell]
    exact fun label hlabel => lt_of_le_of_lt (n.isLabel_encode label hlabel).2 (by decide)
  rw [dnsResponseMatches, responseMatches_iff hshort]
  refine ⟨fun hanswers => ?_, answers_ownAnswer n id v6 r⟩
  by_contra hdot
  exact not_answers_ownAnswer n id v6 r (by simpa using hdot) hanswers

/-- **Own answers are accepted** exactly if the name has no final dot, and give
the address of the first record of the type. -/
theorem ownAnswer_accepted_iff :
    (dnsResponseMatches (ownAnswer n id v6 r) id n.spell (queryType v6) = .got () ∧
      parseDnsAnswer (ownAnswer n id v6 r) (queryType v6) =
        ofOption (r.answers.findSome? (·.address v6))) ↔ n.dot = false := by
  rw [matches_ownAnswer_iff]
  exact ⟨fun h => h.1, fun hdot => ⟨hdot, parse_ownAnswer n id v6 r hdot⟩⟩

end OwnQuery

theorem ownAnswer_refused :
    let query := buildDnsQuery 7 "a.".toList qtypeA
    query = [0, 7, 1, 0, 0, 1, 0, 0, 0, 0, 0, 0, 1, 97, 0, 0, 0, 1, 0, 1] ∧
      dnsResponseMatches ([0, 7, 0x80, 0, 0, 1, 0, 0, 0, 0, 0, 0] ++ query.drop 12) 7 "a.".toList
        qtypeA = .nothing := by
  decide +kernel

/-! ## Several resolvers -/

inductive DnsAnswer where
  | found (ip : IpAddr)
  | noRecord
  | noSuchName
  deriving DecidableEq

/-- What comes of a query to one resolver: the sending may fail, and datagrams
arrive until the deadline, or until the channel is closed. -/
structure Reception where
  server : String
  id : UInt16
  sendError : Option String := none
  arrivals : List (List UInt8) := []
  closes : Bool := false

def firstMatch (name : Text) (qtype : UInt16) (r : Reception) : Option (List UInt8) :=
  r.arrivals.find? fun resp => dnsResponseMatches resp r.id name qtype = .got ()

def answerOf (qtype : UInt16) (resp : List UInt8) : DnsAnswer :=
  match parseDnsAnswer resp qtype with
  | .got ip => .found ip
  | _ => if dnsRcode resp = some rcodeNxdomain then .noSuchName else .noRecord

def dnsExchange (name : Text) (qtype : UInt16) (last : String) :
    List Reception → Except String DnsAnswer
  | [] => .error last
  | r :: rest =>
    match r.sendError with
    | some e => dnsExchange name qtype e rest
    | none =>
      match firstMatch name qtype r with
      | some resp => .ok (answerOf qtype resp)
      | none =>
        if r.closes then .error "dns channel closed"
        else dnsExchange name qtype ("dns timeout from " ++ r.server) rest

def resolvePreferringV4 (name : Text) (a aaaa : List Reception) : Except String IpAddr := do
  match ← dnsExchange name qtypeA "dns timeout" a with
  | .found ip => return ip
  | .noSuchName => throw (String.ofList name ++ " does not exist")
  | .noRecord =>
    match ← dnsExchange name qtypeAaaa "dns timeout" aaaa with
    | .found ip => return ip
    | _ => throw ("no A or AAAA record for " ++ String.ofList name)

section Failover

variable (name : Text)

def Silent (r : Reception) : Prop :=
  r.sendError.isSome ∨ firstMatch name qtypeA r = none ∧ r.closes = false

/-- The resolver answers with an error of its own, such as SERVFAIL or REFUSED. -/
def Fails (r : Reception) : Prop :=
  r.sendError = none ∧ ∃ resp, firstMatch name qtypeA r = some resp ∧
    parseDnsAnswer resp qtypeA = .nothing ∧ dnsRcode resp ≠ some 0 ∧
    dnsRcode resp ≠ some rcodeNxdomain

def Finds (ip : IpAddr) (r : Reception) : Prop :=
  r.sendError = none ∧ ∃ resp, firstMatch name qtypeA r = some resp ∧
    parseDnsAnswer resp qtypeA = .got ip

variable {name} {qtype : UInt16} {ip : IpAddr} {last : String} {rs : List Reception}

theorem isV4_of_searchAddress {count : Nat} (h : searchAddress msg qtype count pos = .got ip) :
    (∃ bits, ip = .v4 bits) ↔ qtype = qtypeA := by
  induction count generalizing pos with
  | zero => cases h
  | succ count ih =>
    simp only [searchAddress, bind_eq_got] at h
    obtain ⟨_, -, _, -, _, -, _, -, _, -, h⟩ := h
    split_ifs at h with hA hAaaa
    · obtain ⟨bits, -, hip⟩ := bind_eq_got.mp h
      exact iff_of_true ⟨_, (pure_eq_got.mp hip).symm⟩ hA.2.1
    · obtain ⟨bits, -, hip⟩ := bind_eq_got.mp h
      obtain rfl := pure_eq_got.mp hip
      rw [hAaaa.2.1]
      exact iff_of_false (by rintro ⟨_, h⟩; cases h) (by decide)
    · exact ih h

theorem isV4_of_dnsExchange (h : dnsExchange name qtype last rs = .ok (.found ip)) :
    (∃ bits, ip = .v4 bits) ↔ qtype = qtypeA := by
  induction rs generalizing last with
  | nil => cases h
  | cons r rs ih =>
    rw [dnsExchange] at h
    split at h
    · exact ih h
    · split at h
      · next resp _ =>
          unfold answerOf at h
          split at h
          · next found hparse =>
              cases h
              simp only [parseDnsAnswer, bind_eq_got] at hparse
              obtain ⟨_, -, _, -, _, -, _, -, hparse⟩ := hparse
              exact isV4_of_searchAddress hparse
          · split at h <;> cases h
      · split at h
        · cases h
        · exact ih h

theorem dnsExchange_before (last : String) (rs : List Reception) {before : List Reception}
    (h : ∀ r ∈ before, Silent name r ∨ Fails name r) :
    (∀ r ∈ before, Silent name r) ∧ (∃ last', dnsExchange name qtypeA last (before ++ rs) =
      dnsExchange name qtypeA last' rs) ∨
    (¬ ∀ r ∈ before, Silent name r) ∧
      dnsExchange name qtypeA last (before ++ rs) = .ok .noRecord := by
  induction before generalizing last with
  | nil => exact .inl ⟨nofun, last, rfl⟩
  | cons r before ih =>
    obtain ⟨hr, hbefore⟩ := forall_mem_cons.mp h
    rw [forall_mem_cons, cons_append, dnsExchange]
    rcases hr with hsilent | ⟨hsend, resp, hfirst, hparse, -, hname⟩
    · simp only [hsilent, true_and]
      rcases hsilent with hsend | ⟨hnone, hopen⟩
      · obtain ⟨e, he⟩ := Option.isSome_iff_exists.mp hsend
        rw [he]
        exact ih _ hbefore
      · rw [hnone, hopen]
        cases r.sendError <;> exact ih _ hbefore
    · refine .inr ⟨fun h => ?_, ?_⟩
      · rcases h.1 with hsome | ⟨hnone, -⟩
        · simp [hsend] at hsome
        · simp [hfirst] at hnone
      · simp only [hsend, hfirst, answerOf, hparse, if_neg hname]

/-- A resolver that would answer with an address, behind some that are silent or
fail. -/
structure Failover (name : Text) where
  before : List Reception
  good : Reception
  after : List Reception
  ip : IpAddr
  passed : ∀ r ∈ before, Silent name r ∨ Fails name r
  finds : Finds name ip good

/-- **Failover passes over resolvers that are silent**, and no others: the
address is returned exactly if none of those before fails. -/
theorem failover_iff (f : Failover name) (aaaa : List Reception) :
    resolvePreferringV4 name (f.before ++ f.good :: f.after) aaaa = .ok f.ip ↔
      ∀ r ∈ f.before, Silent name r := by
  obtain ⟨before, good, after, ip, hbefore, hgood⟩ := f
  obtain ⟨hsend, resp, hfirst, hparse⟩ := hgood
  have hgood : ∀ last, dnsExchange name qtypeA last (good :: after) = .ok (.found ip) := by
    intro last
    simp only [dnsExchange, hsend, hfirst, answerOf, hparse]
  unfold resolvePreferringV4
  rcases dnsExchange_before "dns timeout" (good :: after) hbefore with
    ⟨hsilent, last', heq⟩ | ⟨hnot, heq⟩ <;> rw [heq]
  · rw [hgood last']
    exact iff_of_true rfl hsilent
  · refine iff_of_false (fun hresolved => ?_) hnot
    -- what the second query finds is no address of the first kind
    obtain ⟨bits, rfl⟩ := (isV4_of_dnsExchange (hgood "")).mpr rfl
    cases haaaa : dnsExchange name qtypeAaaa "dns timeout" aaaa with
    | error e =>
      rw [haaaa] at hresolved
      cases hresolved
    | ok answer =>
      rw [haaaa] at hresolved
      cases answer with
      | found ip =>
        cases hresolved
        exact absurd ((isV4_of_dnsExchange haaaa).mp ⟨bits, rfl⟩) (by decide)
      | noRecord => cases hresolved
      | noSuchName => cases hresolved

end Failover

theorem failover_stops :
    let reception (arrival : List UInt8) : Reception :=
      { server := "1.1.1.1:53", id := 7, arrivals := [arrival] }
    let failing (qtype : UInt8) : Reception :=
      reception [0, 7, 0x80, 2, 0, 1, 0, 0, 0, 0, 0, 0, 1, 97, 0, 0, qtype, 0, 1]
    let good : Reception := reception [0, 7, 0x80, 0, 0, 1, 0, 1, 0, 0, 0, 0, 1, 97, 0, 0, 1, 0, 1,
      0xc0, 12, 0, 1, 0, 1, 0, 0, 0, 60, 0, 4, 1, 2, 3, 4]
    resolvePreferringV4 ['a'] [good] [] = .ok (.v4 0x01020304) ∧
      resolvePreferringV4 ['a'] [failing 1, good] [failing 28] =
        .error "no A or AAAA record for a" := by
  decide +kernel

end BigRocket.Dns
