/-
`build_query` and `response_matches` of `dns.rs`: which messages answer a
question.
-/
import BigRocket.Lib.Reads
import BigRocket.Lib.Utf8

namespace BigRocket.Dns

open Lib Read List

def labelsOf (name : Text) : List (List UInt8) :=
  ((name.splitBy (· = '.')).filter (· ≠ [])).map Utf8.encode

def putLabels (labels : List (List UInt8)) : List UInt8 :=
  labels.flatMap fun label => UInt8.ofNat label.length :: label

def putQuestion (labels : List (List UInt8)) (qtype : UInt16) (qclass : List UInt8) :
    List UInt8 :=
  putLabels labels ++ (0x00 :: (beBytes 2 qtype.toNat ++ qclass))

def buildQuery (id : UInt16) (name : Text) (qtype : UInt16) : List UInt8 :=
  beBytes 2 id.toNat ++ [0x01, 0x00] ++ [0x00, 0x01] ++ [0x00, 0x00, 0x00, 0x00, 0x00, 0x00] ++
    putQuestion (labelsOf name) qtype [0x00, 0x01]

def lowerByte (b : UInt8) : UInt8 := if 0x41 ≤ b ∧ b ≤ 0x5a then b + 0x20 else b

def eqIgnoreAsciiCase (a b : List UInt8) : Bool := a.map lowerByte = b.map lowerByte

/-- The loop over the labels of the expected name, from `pos` on. -/
def matchLabels (msg : List UInt8) : List (List UInt8) → Nat → Read Nat
  | [], pos => .got pos
  | label :: labels, pos => do
      let len ← get msg pos
      require (len.toNat = label.length)
      require (pos + 1 + len.toNat ≤ msg.length)
      let found ← indexRange msg (pos + 1) (pos + 1 + len.toNat)
      require (eqIgnoreAsciiCase found label = true)
      matchLabels msg labels (pos + 1 + len.toNat)

def responseMatches (msg : List UInt8) (expectedId : UInt16) (expectedName : Text)
    (expectedQtype : UInt16) : Read Unit := do
  require (12 ≤ msg.length)
  let id ← indexBe 2 msg 0
  require (id = expectedId.toNat)
  let flags ← index msg 2
  require (flags &&& 0x80 ≠ 0)
  let questions ← indexBe 2 msg 4
  require (questions = 1)
  let pos ← matchLabels msg (labelsOf expectedName) 12
  let root ← get msg pos
  require (root = 0)
  require (pos + 1 + 4 ≤ msg.length)
  let qtype ← indexBe 2 msg (pos + 1)
  require (qtype = expectedQtype.toNat)

/-! ## The labels -/

@[simp] theorem putLabels_cons (label : List UInt8) (labels : List (List UInt8)) :
    putLabels (label :: labels) = UInt8.ofNat label.length :: (label ++ putLabels labels) :=
  flatMap_cons

def SameLabels (found labels : List (List UInt8)) : Prop :=
  found.map (·.map lowerByte) = labels.map (·.map lowerByte)

variable {labels : List (List UInt8)}

theorem sameLabels_cons {label : List UInt8} {found : List (List UInt8)} :
    SameLabels found (label :: labels) ↔
      ∃ first rest, found = first :: rest ∧ eqIgnoreAsciiCase first label = true ∧
        SameLabels rest labels := by
  simp only [SameLabels, map_cons, map_eq_cons_iff, eqIgnoreAsciiCase,
    decide_eq_true_eq]

theorem length_of_eqIgnoreAsciiCase {a b : List UInt8} (h : eqIgnoreAsciiCase a b = true) :
    a.length = b.length := by
  simpa using congrArg List.length (of_decide_eq_true h)

theorem SameLabels.length_putLabels {found : List (List UInt8)} (h : SameLabels found labels) :
    (putLabels found).length = (putLabels labels).length := by
  induction labels generalizing found with
  | nil => rw [map_eq_nil_iff.mp h]
  | cons label labels ih =>
    obtain ⟨first, rest, rfl, hfirst, hrest⟩ := sameLabels_cons.mp h
    simp [length_of_eqIgnoreAsciiCase hfirst, ih hrest]

variable {msg : List UInt8} {id qtype : UInt16}

theorem matchLabels_eq_got {pos stop : Nat} (hshort : ∀ label ∈ labels, label.length < 256)
    (hpos : pos ≤ msg.length) :
    matchLabels msg labels pos = .got stop ↔
      ∃ found, SameLabels found labels ∧ Window pos (putLabels found) msg ∧
        stop = pos + (putLabels found).length := by
  induction labels generalizing pos with
  | nil =>
    simp only [matchLabels, Read.got.injEq, SameLabels, map_nil, map_eq_nil_iff,
      exists_eq_left, putLabels, flatMap_nil, window_nil, length_nil, Nat.add_zero]
    exact ⟨fun h => ⟨hpos, h.symm⟩, fun h => h.2.symm⟩
  | cons label labels ih =>
    obtain ⟨hlabel, hlabels⟩ := forall_mem_cons.mp hshort
    simp only [matchLabels, bind_eq_got, get_eq_got, require_eq_got, indexRange_eq_got,
      exists_const, sameLabels_cons]
    constructor
    · rintro ⟨len, hlen, heq, hle, first, ⟨hwindow, -⟩, hfirst, hrest⟩
      obtain ⟨rest, hsame, hwindows, rfl⟩ := (ih hlabels hle).mp hrest
      have hbyte : UInt8.ofNat first.length = len := by
        rw [length_of_eqIgnoreAsciiCase hfirst, ← heq, UInt8.ofNat_toNat]
      rw [heq, ← length_of_eqIgnoreAsciiCase hfirst] at hwindows ⊢
      refine ⟨_, ⟨first, rest, rfl, hfirst, hsame⟩, ?_, ?_⟩
      · rw [putLabels_cons, window_cons, window_append, hbyte]
        exact ⟨hlen, hwindow, hwindows⟩
      · simp only [putLabels_cons, length_cons, length_append]
        omega
    · rintro ⟨_, ⟨first, rest, rfl, hfirst, hsame⟩, hwindow, rfl⟩
      rw [putLabels_cons, window_cons, window_append] at hwindow
      obtain ⟨hlen, hfound, hwindows⟩ := hwindow
      have hlength := length_of_eqIgnoreAsciiCase hfirst
      have hbyte : (UInt8.ofNat first.length).toNat = first.length :=
        Utf8.toNat_byte (hlength ▸ hlabel)
      refine ⟨_, hlen, hbyte.trans hlength, ?_, first, ⟨hfound, ?_⟩, hfirst, ?_⟩
      · rw [hbyte]
        exact hfound.length_le
      · rw [hbyte]
      · rw [hbyte]
        refine (ih hlabels hfound.length_le).mpr ⟨rest, hsame, hwindows, ?_⟩
        simp only [putLabels_cons, length_cons, length_append]
        omega

/-! ## The message -/

/-- The message has the id and is a response to one question, the one that was
asked up to ASCII case. -/
structure Answers (msg : List UInt8) (id : UInt16) (labels : List (List UInt8))
    (qtype : UInt16) : Prop where
  sameId : Window 0 (beBytes 2 id.toNat) msg
  isResponse : ∃ flags, msg[2]? = some flags ∧ flags &&& 0x80 ≠ 0
  oneQuestion : Window 4 (beBytes 2 1) msg
  sameQuestion : ∃ found qclass, SameLabels found labels ∧ qclass.length = 2 ∧
    Window 12 (putQuestion found qtype qclass) msg

theorem responseMatches_iff {name : Text} (hname : ∀ label ∈ labelsOf name, label.length < 256) :
    responseMatches msg id name qtype = .got () ↔ Answers msg id (labelsOf name) qtype := by
  simp only [responseMatches, bind_eq_got, require_eq_got, get_eq_got, index_eq_got,
    indexBe_eq_got, exists_const]
  constructor
  · rintro ⟨hlong, _, ⟨hid, -⟩, rfl, flags, hflags, hresponse, _, ⟨hcount, -⟩, rfl, pos, hlabels,
      root, hroot, rfl, hle, _, ⟨hqtype, -⟩, rfl⟩
    obtain ⟨found, hsame, hfound, rfl⟩ := (matchLabels_eq_got hname hlong).mp hlabels
    obtain ⟨qclass, hclass, hqclass⟩ := exists_window
      (show 12 + (putLabels found).length + 1 + 2 + 2 ≤ msg.length by omega)
    refine ⟨hid, ⟨flags, hflags, hresponse⟩, hcount, found, qclass, hsame, hclass, ?_⟩
    rw [putQuestion, window_append, window_cons, window_append, length_beBytes]
    exact ⟨hfound, hroot, hqtype, hqclass⟩
  · rintro ⟨hid, ⟨flags, hflags, hresponse⟩, hcount, found, qclass, hsame, hclass, hquestion⟩
    have hlength := hquestion.length_le
    rw [putQuestion, window_append, window_cons, window_append] at hquestion
    obtain ⟨hfound, hroot, hqtype, -⟩ := hquestion
    have hlt : ∀ n : UInt16, n.toNat < 256 ^ 2 := fun n => n.toNat_lt
    simp only [putQuestion, length_append, length_cons, length_beBytes] at hlength
    exact ⟨by omega, _, ⟨hid, hlt id⟩, rfl, flags, hflags, hresponse, 1, ⟨hcount, by decide⟩, rfl,
      _, (matchLabels_eq_got hname (by omega)).mpr ⟨found, hsame, hfound, rfl⟩, 0, hroot, rfl,
      by omega, _, ⟨hqtype, hlt qtype⟩, rfl⟩

theorem safe_matchLabels (msg : List UInt8) (labels : List (List UInt8)) (pos : Nat) :
    Safe (matchLabels msg labels pos) := by
  induction labels generalizing pos with
  | nil => exact safe_got
  | cons label labels ih =>
    refine safe_bind (safe_ofOption _) fun len _ => safe_bind (safe_require _) fun _ _ =>
      safe_bind (safe_require _) fun _ hle => safe_bind ?_ fun found _ =>
      safe_bind (safe_require _) fun _ _ => ih _
    exact safe_indexRange (Nat.le_add_right _ _) (require_eq_got.mp hle)

theorem safe_responseMatches (msg : List UInt8) (id : UInt16) (name : Text) (qtype : UInt16) :
    Safe (responseMatches msg id name qtype) := by
  refine safe_bind (safe_require _) fun _ hlong => ?_
  have hlong := require_eq_got.mp hlong
  refine safe_bind (safe_indexBe (by omega)) fun _ _ => safe_bind (safe_require _) fun _ _ =>
    safe_bind (safe_index (by omega)) fun _ _ => safe_bind (safe_require _) fun _ _ =>
    safe_bind (safe_indexBe (by omega)) fun _ _ => safe_bind (safe_require _) fun _ _ =>
    safe_bind (safe_matchLabels _ _ _) fun _ _ => safe_bind (safe_ofOption _) fun _ _ =>
    safe_bind (safe_require _) fun _ _ => safe_bind (safe_require _) fun _ hle => ?_
  have hle := require_eq_got.mp hle
  exact safe_bind (safe_indexBe (by omega)) fun _ _ => safe_require _

/-- The message has the id, the count of questions and the question of the
query, and it is a response. -/
structure Echoes (query msg : List UInt8) : Prop where
  sameId : Window 0 (query.take 2) msg
  isResponse : ∃ flags, msg[2]? = some flags ∧ flags &&& 0x80 ≠ 0
  oneQuestion : Window 4 ((query.drop 4).take 2) msg
  sameQuestion : Window 12 (query.drop 12) msg

/-- **Answers are matched to their question**: an echo of the query is accepted,
one that ends inside the question is not, and what is accepted answers it. -/
theorem responses_matched (id qtype : UInt16) (name : Text)
    (hname : ∀ label ∈ labelsOf name, 1 ≤ label.length ∧ label.length ≤ 63) (msg : List UInt8) :
    (Echoes (buildQuery id name qtype) msg → responseMatches msg id name qtype = .got ()) ∧
      (msg.drop 12 <+: (buildQuery id name qtype).drop 12 →
        msg.drop 12 ≠ (buildQuery id name qtype).drop 12 →
        responseMatches msg id name qtype = .nothing) ∧
      (responseMatches msg id name qtype = .got () → Answers msg id (labelsOf name) qtype) ∧
      responseMatches msg id name qtype ≠ .outOfBounds := by
  have hshort : ∀ label ∈ labelsOf name, label.length < 256 := by
    intro label hlabel
    have hle := (hname label hlabel).2
    omega
  have hiff : responseMatches msg id name qtype = .got () ↔ _ := responseMatches_iff hshort
  have hsafe := safe_responseMatches msg id name qtype
  have hquestion : (buildQuery id name qtype).drop 12 =
      putQuestion (labelsOf name) qtype [0x00, 0x01] := by
    simp [buildQuery, beBytes]
  refine ⟨fun h => hiff.mpr ?_, fun hfront hne => ?_, hiff.mp, hsafe⟩
  · refine ⟨h.sameId, h.isResponse, h.oneQuestion, labelsOf name, _, rfl, rfl, hquestion ▸ h.4⟩
  · cases hresult : responseMatches msg id name qtype with
    | got u =>
      obtain ⟨found, qclass, hsame, hclass, hwindow⟩ := (hiff.mp hresult).sameQuestion
      have hle := hwindow.length_le
      have hlt : (msg.drop 12).length < (putQuestion (labelsOf name) qtype [0x00, 0x01]).length :=
        hquestion ▸ lt_of_le_of_ne hfront.length_le fun h => hne (hfront.eq_of_length h)
      simp only [putQuestion, length_append, length_cons, length_beBytes,
        hsame.length_putLabels, hclass, length_drop, length_nil] at hle hlt
      omega
    | nothing => rfl
    | outOfBounds => exact absurd hresult hsafe

theorem responses_matched_address :
    responseMatches [0x12, 0x34, 0x81, 0x80, 0, 1, 0, 0, 0, 0, 0, 0, 1, 97, 1, 98, 0, 0, 1, 0, 1]
      0x1234 "a.b".toList 1 = .got () :=
  (responses_matched 0x1234 1 "a.b".toList (by decide +kernel) _).1
    ⟨⟨by decide +kernel, by decide⟩, ⟨0x81, rfl, by decide⟩, ⟨by decide +kernel, by decide⟩,
      ⟨by decide +kernel, by decide⟩⟩

end BigRocket.Dns
