/-
`parse_https_ech` of `dns.rs`: the ECH configuration in the HTTPS records of a
DNS reply. A `Reply` is a well-formed message, as it is written.
-/
import BigRocket.Dns.Response

namespace BigRocket.Dns

open Lib Read List

def rrHttps : Nat := 65

def svcparamEch : Nat := 5

def skipName (buf : List UInt8) (pos : Nat) : Read Nat :=
  match h : buf[pos]? with
  | none => .nothing
  | some len =>
      if len &&& 0xc0 = 0xc0 then .got (pos + 2)
      else if len = 0 then .got (pos + 1)
      else skipName buf (pos + 1 + len.toNat)
termination_by buf.length - pos
decreasing_by
  have hlt := (List.getElem?_eq_some_iff.mp h).1
  omega

def findEch (msg : List UInt8) (stop p : Nat) : Read (List UInt8) :=
  if h : p + 4 ≤ stop then do
    let key ← indexBe 2 msg p
    let len ← indexBe 2 msg (p + 2)
    if stop < p + 4 + len then .nothing
    else if key = svcparamEch then indexRange msg (p + 4) (p + 4 + len)
    else findEch msg stop (p + 4 + len)
  else .nothing
termination_by stop - p

def parseSvcparamsEch (msg : List UInt8) (rdataStart rdlen : Nat) : Read (List UInt8) := do
  require (rdataStart + 2 ≤ rdataStart + rdlen)
  let p ← skipName msg (rdataStart + 2)
  findEch msg (rdataStart + rdlen) p

def skipQuestions (msg : List UInt8) : Nat → Nat → Read Nat
  | 0, pos => .got pos
  | count + 1, pos => do
      let pos ← skipName msg pos
      skipQuestions msg count (pos + 4)

def searchAnswers (msg : List UInt8) : Nat → Nat → Read (List UInt8)
  | 0, _ => .nothing
  | count + 1, pos => do
      let pos ← skipName msg pos
      require (pos + 10 ≤ msg.length)
      let rtype ← indexBe 2 msg pos
      let rdlen ← indexBe 2 msg (pos + 8)
      require (pos + 10 + rdlen ≤ msg.length)
      let goOn := searchAnswers msg count (pos + 10 + rdlen)
      if rtype = rrHttps then
        match parseSvcparamsEch msg (pos + 10) rdlen with
        | .nothing => goOn
        | found => found
      else goOn

def parseHttpsEch (msg : List UInt8) : Read (List UInt8) := do
  require (12 ≤ msg.length)
  let qd ← indexBe 2 msg 4
  let an ← indexBe 2 msg 6
  let pos ← skipQuestions msg qd 12
  searchAnswers msg an pos

/-! ## Replies -/

structure Name where
  labels : List (List UInt8)
  isLabel : ∀ label ∈ labels, 1 ≤ label.length ∧ label.length ≤ 63
  pointer : Option (Fin 16384)

def ending : Option (Fin 16384) → List UInt8
  | none => [0]
  | some offset => beBytes 2 (0xc000 + offset)

def Name.encode (n : Name) : List UInt8 := putLabels n.labels ++ ending n.pointer

structure SvcParam where
  key : UInt16
  value : List UInt8

def SvcParam.encode (p : SvcParam) : List UInt8 :=
  beBytes 2 p.key.toNat ++ (beBytes 2 p.value.length ++ p.value)

inductive RData where
  | https (priority : UInt16) (target : Name) (params : List SvcParam)
  | other (rtype : UInt16) (notHttps : rtype.toNat ≠ rrHttps) (bytes : List UInt8)

namespace RData

def rtype : RData → Nat
  | .https _ _ _ => rrHttps
  | .other rtype _ _ => rtype.toNat

def encode : RData → List UInt8
  | .https priority target params =>
      beBytes 2 priority.toNat ++ (target.encode ++ params.flatMap SvcParam.encode)
  | .other _ _ bytes => bytes

def ech : RData → Option (List UInt8)
  | .https _ _ params => (params.find? fun p => p.key.toNat = svcparamEch).map SvcParam.value
  | .other _ _ _ => none

end RData

structure Record where
  owner : Name
  classTtl : List UInt8
  length_classTtl : classTtl.length = 6
  data : RData
  fits : data.encode.length < 65536

def Record.encode (r : Record) : List UInt8 :=
  r.owner.encode ++ (beBytes 2 r.data.rtype ++ (r.classTtl ++
    (beBytes 2 r.data.encode.length ++ r.data.encode)))

structure Question where
  name : Name
  typeClass : List UInt8
  length_typeClass : typeClass.length = 4

def Question.encode (q : Question) : List UInt8 := q.name.encode ++ q.typeClass

structure Reply where
  start : List UInt8
  length_start : start.length = 4
  questions : List Question
  answers : List Record
  questions_lt : questions.length < 65536
  answers_lt : answers.length < 65536
  otherCounts : List UInt8
  length_otherCounts : otherCounts.length = 4
  rest : List UInt8

def Reply.encode (r : Reply) : List UInt8 :=
  r.start ++ (beBytes 2 r.questions.length ++ (beBytes 2 r.answers.length ++ (r.otherCounts ++
    (r.questions.flatMap Question.encode ++ (r.answers.flatMap Record.encode ++ r.rest)))))

/-! ## Walking over what is written -/

variable {msg : List UInt8} {pos : Nat}

theorem labelByte : ∀ n < 64, n ≠ 0 →
    ¬ UInt8.ofNat n &&& 0xc0 = 0xc0 ∧ UInt8.ofNat n ≠ 0 := by
  decide

theorem pointerByte : ∀ n < 64, UInt8.ofNat (192 + n) &&& 0xc0 = 0xc0 := by decide

theorem skipName_eq {len : UInt8} (h : msg[pos]? = some len) :
    skipName msg pos =
      if len &&& 0xc0 = 0xc0 then .got (pos + 2)
      else if len = 0 then .got (pos + 1)
      else skipName msg (pos + 1 + len.toNat) := by
  rw [skipName]
  split
  · next hnone => rw [h] at hnone; cases hnone
  · next len' hlen =>
    rw [h] at hlen
    cases hlen
    rfl

theorem skipName_ending {pointer : Option (Fin 16384)} (h : Window pos (ending pointer) msg) :
    skipName msg pos = .got (pos + (ending pointer).length) := by
  cases pointer with
  | none =>
    rw [skipName_eq (window_singleton.mp h), if_neg (by decide), if_pos rfl]
    rfl
  | some offset =>
    have hfirst : (0xc000 + (offset : Nat)) / 256 ^ 1 = 192 + offset / 256 := by omega
    have hbyte := (window_cons.mp h).1
    rw [hfirst] at hbyte
    rw [skipName_eq hbyte, if_pos (pointerByte _ (by omega)), ending, length_beBytes]

theorem skipName_name (n : Name) (h : Window pos n.encode msg) :
    skipName msg pos = .got (pos + n.encode.length) := by
  obtain ⟨labels, hlabels, pointer⟩ := n
  induction labels generalizing pos with
  | nil => exact skipName_ending h
  | cons label labels ih =>
    obtain ⟨hlabel, hrest⟩ := forall_mem_cons.mp hlabels
    obtain ⟨hbyte, hzero⟩ := labelByte label.length (by omega) (by omega)
    have hlength : (UInt8.ofNat label.length).toNat = label.length := Utf8.toNat_byte (by omega)
    simp only [Name.encode, putLabels_cons, cons_append, append_assoc, window_cons,
      window_append] at h ih ⊢
    rw [skipName_eq h.1, if_neg hbyte, if_neg hzero, hlength, ih hrest h.2.2]
    simp only [length_cons, length_append]
    congr 1
    omega

theorem skipQuestions_questions (questions : List Question)
    (h : Window pos (questions.flatMap Question.encode) msg) :
    skipQuestions msg questions.length pos =
      .got (pos + (questions.flatMap Question.encode).length) := by
  induction questions generalizing pos with
  | nil => rfl
  | cons q questions ih =>
    simp only [flatMap_cons, Question.encode, append_assoc, window_append] at h ih ⊢
    obtain ⟨hname, -, hrest⟩ := h
    rw [q.length_typeClass] at hrest
    rw [length_cons, skipQuestions, skipName_name _ hname, got_bind, ih hrest]
    simp only [length_append, q.length_typeClass]
    congr 1
    omega

theorem findEch_params (params : List SvcParam) {p : Nat}
    (hshort : ∀ param ∈ params, param.value.length < 65536)
    (h : Window p (params.flatMap SvcParam.encode) msg) :
    findEch msg (p + (params.flatMap SvcParam.encode).length) p =
      ofOption ((params.find? fun param => param.key.toNat = svcparamEch).map SvcParam.value) := by
  induction params generalizing p with
  | nil =>
    rw [findEch, dif_neg (by simp)]
    rfl
  | cons param params ih =>
    obtain ⟨hparam, hparams⟩ := forall_mem_cons.mp hshort
    simp only [flatMap_cons, SvcParam.encode, append_assoc, window_append,
      length_beBytes] at h ih ⊢
    obtain ⟨hkey, hlen, hvalue, hrest⟩ := h
    have hkey' := indexBe_eq_got.mpr ⟨hkey, param.key.toNat_lt⟩
    have hlen' := indexBe_eq_got.mpr ⟨hlen, hparam⟩
    rw [findEch]
    simp only [length_append, length_beBytes]
    rw [dif_pos (by omega), hkey', got_bind, hlen', got_bind, if_neg (by omega)]
    rw [find?_cons]
    by_cases hech : param.key.toNat = svcparamEch
    · rw [if_pos hech, indexRange_eq_got.mpr ⟨hvalue, rfl⟩, decide_eq_true hech]
      rfl
    · have hstop : p + (2 + (2 + (param.value.length + (params.flatMap SvcParam.encode).length))) =
          p + 4 + param.value.length + (params.flatMap SvcParam.encode).length := by omega
      rw [if_neg hech, decide_eq_false hech, hstop]
      exact ih hparams hrest

theorem value_lt_of_fits {priority : UInt16} {target : Name} {params : List SvcParam}
    (h : (RData.https priority target params).encode.length < 65536) :
    ∀ param ∈ params, param.value.length < 65536 := by
  intro param hparam
  obtain ⟨before, after, rfl⟩ := append_of_mem hparam
  simp only [RData.encode, SvcParam.encode, flatMap_append, flatMap_cons,
    length_append] at h
  omega

theorem parseSvcparamsEch_https {priority : UInt16} {target : Name} {params : List SvcParam}
    (hfits : (RData.https priority target params).encode.length < 65536)
    (h : Window pos (RData.https priority target params).encode msg) :
    parseSvcparamsEch msg pos (RData.https priority target params).encode.length =
      ofOption (RData.https priority target params).ech := by
  have hshort := value_lt_of_fits hfits
  simp only [RData.encode, window_append, length_beBytes] at h
  obtain ⟨-, htarget, hparams⟩ := h
  have hstop : pos + (RData.https priority target params).encode.length =
      pos + 2 + target.encode.length + (params.flatMap SvcParam.encode).length := by
    simp only [RData.encode, length_append, length_beBytes]
    omega
  rw [parseSvcparamsEch, hstop, require_pos (by omega), got_bind, skipName_name _ htarget, got_bind]
  exact findEch_params params hshort hparams

structure RecordAt (msg : List UInt8) (pos p : Nat) (r : Record) : Prop where
  owner : skipName msg pos = .got p
  fixed : p + 10 ≤ msg.length
  rtype : indexBe 2 msg p = .got r.data.rtype
  rdlen : indexBe 2 msg (p + 8) = .got r.data.encode.length
  whole : p + 10 + r.data.encode.length ≤ msg.length
  data : Window (p + 10) r.data.encode msg
  next : pos + r.encode.length = p + 10 + r.data.encode.length

theorem recordAt_encode (r : Record) (h : Window pos r.encode msg) :
    RecordAt msg pos (pos + r.owner.encode.length) r := by
  have hend := h.length_le
  have hnext : pos + r.encode.length =
      pos + r.owner.encode.length + 10 + r.data.encode.length := by
    simp only [Record.encode, length_append, length_beBytes, r.length_classTtl]
    omega
  have hrtype : r.data.rtype < 256 ^ 2 := by
    cases r.data with
    | https priority target params => exact (by decide : rrHttps < 256 ^ 2)
    | other rtype hnot bytes => exact rtype.toNat_lt
  simp only [Record.encode, window_append, length_beBytes, r.length_classTtl] at h
  obtain ⟨howner, htype, -, hlen, hdata⟩ := h
  exact ⟨skipName_name _ howner, by omega, indexBe_eq_got.mpr ⟨htype, hrtype⟩,
    indexBe_eq_got.mpr ⟨hlen, r.fits⟩, by omega, hdata, hnext⟩

theorem searchAnswers_record (r : Record) (count : Nat) (h : Window pos r.encode msg) :
    searchAnswers msg (count + 1) pos =
      match r.data.ech with
      | some found => .got found
      | none => searchAnswers msg count (pos + r.encode.length) := by
  obtain ⟨howner, hfixed, hrtype, hrdlen, hwhole, hdata, hnext⟩ := recordAt_encode r h
  simp only [searchAnswers, howner, got_bind, require_pos hfixed, hrtype, hrdlen,
    require_pos hwhole, hnext]
  have hfits := r.fits
  cases hkind : r.data with
  | other rtype hnot bytes => exact if_neg hnot
  | https priority target params =>
    rw [hkind] at hdata hfits
    rw [if_pos (show (RData.https priority target params).rtype = rrHttps from rfl),
      parseSvcparamsEch_https hfits hdata]
    cases (RData.https priority target params).ech <;> rfl

theorem searchAnswers_answers (answers : List Record)
    (h : Window pos (answers.flatMap Record.encode) msg) :
    searchAnswers msg answers.length pos = ofOption (answers.findSome? (·.data.ech)) := by
  induction answers generalizing pos with
  | nil => rfl
  | cons r answers ih =>
    rw [flatMap_cons, window_append] at h
    rw [length_cons, searchAnswers_record r _ h.1, findSome?_cons]
    cases r.data.ech with
    | some found => rfl
    | none => exact ih h.2

/-! ## Any bytes -/

theorem safe_skipName (buf : List UInt8) (pos : Nat) : Safe (skipName buf pos) := by
  fun_induction skipName buf pos with
  | case1 => exact safe_nothing
  | case2 => exact safe_got
  | case3 => exact safe_got
  | case4 pos len hlen hpointer hroot ih => exact ih

theorem safe_findEch {stop p : Nat} (hstop : stop ≤ msg.length) : Safe (findEch msg stop p) := by
  fun_induction findEch msg stop p with
  | case1 p hle ih =>
    refine safe_bind (safe_indexBe (by omega)) fun key _ =>
      safe_bind (safe_indexBe (by omega)) fun len _ => ?_
    split_ifs with hpast
    · exact safe_nothing
    · exact safe_indexRange (by omega) (by omega)
    · exact ih len hpast
  | case2 => exact safe_nothing

theorem safe_skipQuestions (msg : List UInt8) (count pos : Nat) :
    Safe (skipQuestions msg count pos) := by
  induction count generalizing pos with
  | zero => exact safe_got
  | succ count ih => exact safe_bind (safe_skipName _ _) fun _ _ => ih _

theorem safe_searchAnswers (msg : List UInt8) (count pos : Nat) :
    Safe (searchAnswers msg count pos) := by
  induction count generalizing pos with
  | zero => exact safe_nothing
  | succ count ih =>
    refine safe_bind (safe_skipName _ _) fun pos _ => safe_bind (safe_require _) fun _ hle => ?_
    have hle := require_eq_got.mp hle
    refine safe_bind (safe_indexBe (by omega)) fun rtype _ =>
      safe_bind (safe_indexBe (by omega)) fun rdlen _ => safe_bind (safe_require _) fun _ hend => ?_
    have hsafe : Safe (parseSvcparamsEch msg (pos + 10) rdlen) :=
      safe_bind (safe_require _) fun _ _ => safe_bind (safe_skipName _ _) fun _ _ =>
        safe_findEch (require_eq_got.mp hend)
    split_ifs
    · split
      · exact ih _
      · exact hsafe
    · exact ih _

/-- **The ECH configuration is found wherever it stands**: that of the first HTTPS
record that has one. On no bytes is an index outside the message. -/
theorem ech_found :
    (∀ reply : Reply,
      parseHttpsEch reply.encode = ofOption (reply.answers.findSome? (·.data.ech))) ∧
      ∀ msg : List UInt8, parseHttpsEch msg ≠ .outOfBounds := by
  constructor
  · intro r
    obtain ⟨msg, hmsg⟩ : ∃ msg, r.encode = msg := ⟨_, rfl⟩
    have hwindow : Window 0 r.encode msg := hmsg ▸ ⟨prefix_rfl, Nat.zero_le _⟩
    have hlong := hwindow.length_le
    simp only [Reply.encode, length_append, r.length_start, r.length_otherCounts,
      length_beBytes] at hlong
    simp only [Reply.encode, window_append, r.length_start, r.length_otherCounts,
      length_beBytes] at hwindow
    obtain ⟨-, hqd, han, -, hquestions, hanswers, -⟩ := hwindow
    rw [hmsg, parseHttpsEch, require_pos (by omega), got_bind,
      indexBe_eq_got.mpr ⟨hqd, r.questions_lt⟩, got_bind,
      indexBe_eq_got.mpr ⟨han, r.answers_lt⟩, got_bind, skipQuestions_questions _ hquestions,
      got_bind]
    exact searchAnswers_answers _ hanswers
  · intro msg
    refine safe_bind (safe_require _) fun _ hlong => ?_
    have hlong := require_eq_got.mp hlong
    exact safe_bind (safe_indexBe (by omega)) fun _ _ => safe_bind (safe_indexBe (by omega))
      fun _ _ => safe_bind (safe_skipQuestions _ _ _) fun _ _ => safe_searchAnswers _ _ _

end BigRocket.Dns
