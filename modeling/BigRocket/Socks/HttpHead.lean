/-
How the HTTP proxy reads a request: `read_head` up to the empty line, and
`parse_request_line`.
-/
import BigRocket.Lib.TextForms

namespace BigRocket.Socks

open Lib Text
open List hiding splitBy

/-! ## The head -/

def httpHeadLimit : Nat := 16 * 1024

def emptyLine : List UInt8 := [13, 10, 13, 10]

def position : List UInt8 → Option Nat
  | [] => none
  | b :: rest =>
    if emptyLine.isPrefixOf (b :: rest) then some 0 else (position rest).map (· + 1)

/-- What the reader comes back with; `rest` are the reads still to be made. -/
inductive HeadRead where
  | got (head early : List UInt8) (rest : List (Except String (List UInt8)))
  | failed (error : String)
  | waiting
  deriving DecidableEq

def readHead (buf : List UInt8) : List (Except String (List UInt8)) → HeadRead
  | [] => .waiting
  | .error e :: _ => .failed e
  | .ok chunk :: rest =>
    if chunk = [] then .failed "the http client closed before sending a request"
    else
      let searchFrom := buf.length - 3
      let buf := buf ++ chunk
      match position (buf.drop searchFrom) with
      | some pos => .got (buf.take (searchFrom + pos + 4)) (buf.drop (searchFrom + pos + 4)) rest
      | none =>
        if httpHeadLimit < buf.length then .failed "http request head too large"
        else readHead buf rest

theorem eq_of_position {buf : List UInt8} {i : Nat} (h : position buf = some i) :
    ∃ a b, buf = a ++ (emptyLine ++ b) ∧ a.length = i := by
  induction buf generalizing i with
  | nil => cases h
  | cons c rest ih =>
    rw [position] at h
    split at h
    case isTrue hfound =>
      cases h
      obtain ⟨b, hb⟩ := isPrefixOf_iff_prefix.mp hfound
      exact ⟨[], b, hb.symm, rfl⟩
    case isFalse =>
      obtain ⟨j, hj, rfl⟩ := Option.map_eq_some_iff.mp h
      obtain ⟨a, b, rfl, rfl⟩ := ih hj
      exact ⟨c :: a, b, rfl, rfl⟩

theorem position_append (a b : List UInt8) :
    ∃ i ≤ a.length, position (a ++ (emptyLine ++ b)) = some i := by
  induction a with
  | nil => exact ⟨0, le_rfl, if_pos ( isPrefixOf_iff_prefix.mpr (prefix_append _ _))⟩
  | cons c a ih =>
    rw [cons_append, position]
    split
    · exact ⟨0, Nat.zero_le _, rfl⟩
    · obtain ⟨i, hi, heq⟩ := ih
      exact ⟨i + 1, Nat.succ_le_succ hi, by rw [heq]; rfl⟩

structure IsHead (head stream : List UInt8) : Prop where
  front : head <+: stream
  ends : emptyLine <:+ head
  shortest : ∀ h, h <+: stream → emptyLine <:+ h → head.length ≤ h.length

theorem position_isHead {buf chunk later head : List UInt8}
    (h : IsHead head (buf ++ chunk ++ later)) (hbuf : buf.length < head.length) :
    position ((buf ++ chunk).drop (buf.length - 3)) =
      if head.length ≤ (buf ++ chunk).length then some (head.length - 4 - (buf.length - 3))
      else none := by
  have hread : (buf ++ chunk) <+: buf ++ chunk ++ later := prefix_append _ _
  generalize buf ++ chunk = all at *
  have hfound (hle : head.length ≤ all.length) :
      ∃ i ≤ head.length - 4 - (buf.length - 3), position (all.drop (buf.length - 3)) = some i := by
    obtain ⟨b, hb⟩ := prefix_of_prefix_length_le h.front hread hle
    obtain ⟨a, rfl⟩ := h.ends
    have hlength : (a ++ emptyLine).length = a.length + 4 := length_append
    have hpos := position_append (a.drop (buf.length - 3)) b
    rw [← append_assoc, ← drop_append_of_le_length (by omega),
      ← drop_append_of_le_length (by omega), hb, length_drop] at hpos
    rwa [hlength, Nat.add_sub_cancel]
  cases hpos : position (all.drop (buf.length - 3)) with
  | none =>
    rw [if_neg]
    intro hle
    obtain ⟨i, -, hi⟩ := hfound hle
    rw [hpos] at hi
    cases hi
  | some i =>
    obtain ⟨a, b, hdrop, rfl⟩ := eq_of_position hpos
    have hfront : all.take (buf.length - 3) ++ (a ++ emptyLine) <+: all := by
      refine ⟨b, ?_⟩
      rw [append_assoc, append_assoc, ← hdrop, take_append_drop]
    have hshort := h.shortest _ (hfront.trans hread) ⟨_, append_assoc _ a emptyLine⟩
    have hle := hshort.trans hfront.length_le
    have hfour : emptyLine.length = 4 := rfl
    simp only [length_append, length_take, hfour] at hshort
    obtain ⟨j, hj, heq⟩ := hfound hle
    rw [hpos, Option.some.injEq] at heq
    rw [if_pos hle, Option.some.injEq]
    omega

theorem readHead_isHead {head : List UInt8} (hlimit : head.length ≤ httpHeadLimit)
    {reads : List (List UInt8)} (hreads : ∀ r ∈ reads, r ≠ []) {buf : List UInt8}
    (h : IsHead head (buf ++ reads.flatten)) (hbuf : buf.length < head.length) :
    ∃ before last after early, reads = before ++ last :: after ∧
      readHead buf (reads.map .ok) = .got head early (after.map .ok) ∧
      head ++ early = buf ++ before.flatten ++ last ∧
      (buf ++ before.flatten).length < head.length := by
  induction reads generalizing buf with
  | nil =>
    have hle := h.front.length_le
    simp only [flatten_nil, append_nil] at hle
    omega
  | cons chunk reads ih =>
    obtain ⟨hchunk, hrest⟩ := forall_mem_cons.mp hreads
    rw [flatten_cons, ← append_assoc] at h
    rw [map_cons, readHead, if_neg hchunk]
    dsimp only
    rw [position_isHead h hbuf]
    by_cases hle : head.length ≤ (buf ++ chunk).length
    · have hend : buf.length - 3 + (head.length - 4 - (buf.length - 3)) + 4 = head.length := by
        have hfour : 4 ≤ head.length := h.ends.length_le
        omega
      obtain ⟨early, hearly⟩ := prefix_of_prefix_length_le h.front (prefix_append _ _) hle
      refine ⟨[], chunk, reads, early, rfl, ?_, by simpa using hearly, by simpa using hbuf⟩
      rw [if_pos hle]
      dsimp only
      rw [hend, ← hearly, take_left, drop_left]
    · have hroom : ¬ httpHeadLimit < (buf ++ chunk).length := by omega
      obtain ⟨before, last, after, early, rfl, hread, hearly, hshort⟩ := ih hrest h (by omega)
      refine ⟨chunk :: before, last, after, early, rfl, ?_, ?_, ?_⟩
      · simp only [if_neg hle, if_neg hroom, hread]
      · rw [hearly]; simp
      · simpa using hshort

/-- **The head does not depend on how it was cut**: it is the shortest beginning
that ends in an empty line, and the early bytes are what was read beyond it. -/
theorem head_anyCut {head stream : List UInt8} {reads : List (List UInt8)}
    (hhead : IsHead head stream) (hlimit : head.length ≤ httpHeadLimit)
    (hcut : reads.flatten = stream) (hreads : ∀ r ∈ reads, r ≠ []) :
    ∃ before last after early, reads = before ++ last :: after ∧
      readHead [] (reads.map .ok) = .got head early (after.map .ok) ∧
      head ++ early = before.flatten ++ last ∧ before.flatten.length < head.length := by
  obtain ⟨before, last, after, early, hsplit, hread, hearly, hshort⟩ :=
    readHead_isHead hlimit hreads (show IsHead head ([] ++ reads.flatten) by rwa [hcut]) (by
      have hfour : 4 ≤ head.length := hhead.ends.length_le
      simp only [length_nil]
      omega)
  exact ⟨before, last, after, early, hsplit, hread, hearly, hshort⟩

theorem head_anyCut_straddling :
    readHead [] ([[71, 13, 10, 13], [10, 9]].map .ok) = .got [71, 13, 10, 13, 10] [9] [] := by
  have hhead : IsHead [71, 13, 10, 13, 10] [71, 13, 10, 13, 10, 9] := by
    refine ⟨by decide, by decide, fun h hfront hends => ?_⟩
    have hshorter : ∀ n < 5, ¬ emptyLine <:+ List.take n [71, 13, 10, 13, 10, 9] := by decide
    by_contra hlt
    exact hshorter h.length (by simpa using hlt) (by rwa [← prefix_iff_eq_take.mp hfront])
  obtain ⟨before, last, after, early, hsplit, hread, hearly, hshort⟩ :=
    head_anyCut hhead (by decide) (show [[71, 13, 10, 13], [10, 9]].flatten = _ from rfl) (by decide)
  match before, hsplit with
  | [], hsplit =>
    cases hsplit
    cases hearly
  | [_], hsplit =>
    cases hsplit
    cases hearly
    exact hread
  | _ :: _ :: _, hsplit =>
    have hlength := congrArg List.length hsplit
    simp at hlength

/-! ## The first line -/

def splitWhitespace (s : Text) : List Text := (s.splitBy isWhitespace).filter (· ≠ [])

structure HttpRequestLine where
  method : Text
  authority : Text
  port : Nat
  rewritten : Option Text
  deriving DecidableEq

def parseAuthority (raw : Text) (defaultPort : Nat) : Option (Text × Nat) :=
  let raw := raw.trim
  if raw = [] then none
  else match stripPrefix ['['] raw with
    | some rest => do
      let (host, tail) ← splitOnce ']' rest
      if host = [] then none
      else match stripPrefix [':'] tail with
        | some value => return (host, ← parseU16 value)
        | none => return (host, defaultPort)
    | none => match rsplitOnce ':' raw with
      | some (host, port) =>
        if ':' ∈ host then some (raw, defaultPort)
        else if host = [] then none
        else do return (host, ← parseU16 port)
      | none => some (raw, defaultPort)

def parseRequestLine (line : Text) : Option HttpRequestLine :=
  match splitWhitespace line with
  | method :: target :: rest =>
    let version := rest.headD "HTTP/1.1".toList
    if method.eqIgnoreAsciiCase "CONNECT".toList then do
      let (authority, port) ← parseAuthority target 443
      return { method, authority, port, rewritten := none }
    else do
      let withoutScheme ←
        (stripPrefix "http://".toList target).or (stripPrefix "HTTP://".toList target)
      let authorityPart := withoutScheme.takeWhile (· ≠ '/')
      let path := withoutScheme.dropWhile (· ≠ '/')
      let (authority, port) ← parseAuthority authorityPart 80
      return {
        method, authority, port
        rewritten := some (method ++ ' ' :: ((if path = [] then ['/'] else path) ++
          ' ' :: (version ++ ['\r', '\n']))) }
  | _ => none

def Word (s : Text) : Prop := s ≠ [] ∧ ∀ c ∈ s, isWhitespace c = false

/-- A request in absolute form: a method other than CONNECT, the scheme `http`
in any case, a name or address, a port and a path with its query. -/
structure AbsoluteForm where
  method : Text
  scheme : Text
  host : Text
  bracketed : Bool
  port : Option (Fin 65536)
  path : Text
  version : Text
  method_word : Word method
  not_connect : method.eqIgnoreAsciiCase "CONNECT".toList = false
  scheme_http : scheme.eqIgnoreAsciiCase "http".toList = true
  host_word : Word host
  host_chars : ∀ c ∈ host, c ≠ '/' ∧ c ≠ '[' ∧ c ≠ ']'
  host_colon : bracketed = false → ':' ∉ host
  path_start : path = [] ∨ path.head? = some '/' ∨ path.head? = some '?'
  path_chars : ∀ c ∈ path, isWhitespace c = false
  version_word : Word version

namespace AbsoluteForm

def portText : Option (Fin 65536) → Text
  | some port => ':' :: Nat.toDigits 10 port
  | none => []

def authority (r : AbsoluteForm) : Text :=
  (if r.bracketed then '[' :: (r.host ++ [']']) else r.host) ++ portText r.port

def target (r : AbsoluteForm) : Text :=
  r.scheme ++ (':' :: '/' :: '/' :: (r.authority ++ r.path))

def line (r : AbsoluteForm) : Text := r.method ++ ' ' :: (r.target ++ ' ' :: r.version)

def originForm (path : Text) : Text := if path.head? = some '/' then path else '/' :: path

def request (r : AbsoluteForm) : HttpRequestLine where
  method := r.method
  authority := r.host
  port := (r.port.map Fin.val).getD 80
  rewritten := some (r.method ++ ' ' :: (originForm r.path ++ ' ' :: (r.version ++ ['\r', '\n'])))

end AbsoluteForm

theorem splitWhitespace_words {a b c : Text} (ha : Word a) (hb : Word b) (hc : Word c) :
    splitWhitespace (a ++ ' ' :: (b ++ ' ' :: c)) = [a, b, c] := by
  have hblank : isWhitespace ' ' = true := by decide
  unfold splitWhitespace splitBy
  rw [splitOnP_append_cons_of_forall_mem (by simpa using ha.2) _ hblank,
    splitOnP_append_cons_of_forall_mem (by simpa using hb.2) _ hblank,
    splitOnP_eq_singleton (by simpa using hc.2)]
  simp [ha.1, hb.1, hc.1]

namespace AbsoluteForm

variable (r : AbsoluteForm)

theorem authority_chars : ∀ c ∈ r.authority, isWhitespace c = false ∧ c ≠ '/' := by
  have hhost : ∀ c ∈ r.host, isWhitespace c = false ∧ c ≠ '/' :=
    fun c hc => ⟨r.host_word.2 c hc, (r.host_chars c hc).1⟩
  intro c hc
  rcases mem_append.mp hc with hc | hc
  · split at hc
    · simp only [mem_cons, mem_append, not_mem_nil, or_false] at hc
      rcases hc with rfl | hc | rfl
      · decide
      · exact hhost c hc
      · decide
    · exact hhost c hc
  · unfold portText at hc
    split at hc
    · rcases mem_cons.mp hc with rfl | hc
      · decide
      · exact digit_plain (Nat.isDigit_of_mem_toDigits (by decide) (by decide) hc)
    · cases hc

theorem parseAuthority_authority :
    parseAuthority r.authority 80 = some (r.host, (r.port.map Fin.val).getD 80) := by
  have hhost := r.host_word.1
  have hne : r.authority ≠ [] := by
    unfold authority
    split <;> simp [hhost]
  rw [parseAuthority, trim_of_trimmed (trimmed_of_forall fun c hc => (r.authority_chars c hc).1)]
  rw [if_neg hne]
  unfold authority
  cases hbracketed : r.bracketed with
  | true =>
    have hclose : ']' ∉ r.host := fun h => (r.host_chars _ h).2.2 rfl
    have hstrip (c : Char) (s : Text) : stripPrefix [c] (c :: s) = some s := stripPrefix_append [c] s
    simp only [if_true, cons_append, append_assoc, hstrip, splitOnce_append hclose,
      Option.bind_eq_bind, Option.bind_some, if_neg hhost, nil_append]
    cases r.port with
    | none => rfl
    | some port =>
      simp only [portText, hstrip, parseU16_toDigits port.isLt]
      rfl
  | false =>
    have hcolon := r.host_colon hbracketed
    have hopen (s : Text) : stripPrefix ['['] (r.host ++ s) = none := by
      obtain ⟨c, cs, hcons⟩ := exists_cons_of_ne_nil hhost
      have hc : c ≠ '[' := (r.host_chars c (by rw [hcons]; exact mem_cons_self)).2.1
      rw [stripPrefix, if_neg]
      rw [hcons, cons_append, cons_prefix_cons]
      exact fun h => hc h.1.symm
    simp only [Bool.false_eq_true, if_false, hopen]
    cases r.port with
    | none =>
      rw [portText, append_nil, rsplitOnce_eq_none hcolon]
      rfl
    | some port =>
      have hdigits : ':' ∉ Nat.toDigits 10 port := fun h =>
        absurd (Nat.isDigit_of_mem_toDigits (by decide) (by decide) h) (by decide)
      simp only [portText, rsplitOnce_append hdigits, if_neg hcolon, if_neg hhost,
        parseU16_toDigits port.isLt]
      rfl

theorem scheme_length : r.scheme.length = 4 := by
  have hlower := of_decide_eq_true r.scheme_http
  simpa [toAsciiLowercase] using congrArg List.length hlower

theorem target_word : Word r.target := by
  refine ⟨by simp [target], fun c hc => ?_⟩
  simp only [target, mem_append, mem_cons] at hc
  rcases hc with hc | rfl | rfl | rfl | hc | hc
  · have hlower : c.toLower ∈ "http".toList := by
      have hmem : c.toLower ∈ r.scheme.toAsciiLowercase := mem_map_of_mem hc
      rwa [of_decide_eq_true r.scheme_http] at hmem
    have hsmall : IsAscii "http".toList := by decide
    exact forall_ascii (P := fun c => c.toLower ∈ "http".toList → isWhitespace c = false)
      (by decide) (lt_of_toLower_lt (hsmall _ hlower)) hlower
  · decide
  · decide
  · decide
  · exact (r.authority_chars c hc).1
  · exact r.path_chars c hc

theorem strip_target (scheme : Text) (h : scheme.length = 4) :
    stripPrefix (scheme ++ [':', '/', '/']) r.target =
      if r.scheme = scheme then some (r.authority ++ r.path) else none := by
  split
  case isTrue heq =>
    rw [target, heq, ← stripPrefix_append (scheme ++ [':', '/', '/']) (r.authority ++ r.path),
      append_assoc]
    rfl
  case isFalse hne =>
    rw [stripPrefix, if_neg]
    rintro ⟨rest, heq⟩
    rw [target, append_assoc] at heq
    exact hne (append_inj_left heq (h.trans r.scheme_length.symm)).symm

theorem dropWhile_query (h : r.path.head? = some '?') :
    ((r.authority ++ r.path).dropWhile (· ≠ '/')).length < r.path.length := by
  obtain ⟨query, hquery⟩ := head?_eq_some_iff.mp h
  rw [dropWhile_append_of_pos fun c hc => decide_eq_true (r.authority_chars c hc).2, hquery,
    dropWhile_cons_of_pos (by decide), length_cons]
  exact Nat.lt_succ_of_le (dropWhile_suffix _).length_le

/-- **Absolute forms are understood** exactly if the scheme is written `http` or
`HTTP` and the path is not a query alone. -/
theorem parse_line_iff : parseRequestLine r.line = some r.request ↔
    (r.scheme = "http".toList ∨ r.scheme = "HTTP".toList) ∧ r.path.head? ≠ some '?' := by
  have hlower := r.strip_target "http".toList rfl
  have hupper := r.strip_target "HTTP".toList rfl
  have hstrip : (stripPrefix "http://".toList r.target).or (stripPrefix "HTTP://".toList r.target) =
      if r.scheme = "http".toList ∨ r.scheme = "HTTP".toList then some (r.authority ++ r.path)
      else none := by
    refine (congrArg₂ Option.or hlower hupper).trans ?_
    by_cases h : r.scheme = "http".toList
    · rw [if_pos h, Option.some_or, if_pos (.inl h)]
    · rw [if_neg h, Option.none_or]
      simp only [h, false_or]
  rw [parseRequestLine, line, splitWhitespace_words r.method_word r.target_word r.version_word]
  dsimp only
  rw [if_neg (by rw [r.not_connect]; decide), hstrip]
  by_cases hscheme : r.scheme = "http".toList ∨ r.scheme = "HTTP".toList
  · rw [if_pos hscheme, Option.bind_eq_bind, Option.bind_some]
    simp only [hscheme, true_and]
    by_cases hquery : r.path.head? = some '?'
    · refine iff_of_false (fun h => ?_) (not_not.mpr hquery)
      obtain ⟨_, -, h⟩ := Option.bind_eq_some_iff.mp h
      have hlength := congrArg (fun q => (q.bind (·.rewritten)).map List.length) h
      have hshort := r.dropWhile_query hquery
      simp only [request, originForm, hquery, Option.pure_def, Option.bind_some, Option.map_some,
        length_append, length_cons, headD_cons, Option.some.injEq, if_false,
        Char.reduceEq] at hlength
      split at hlength <;> simp only [length_cons, length_nil] at hlength <;> omega
    · refine iff_of_true ?_ hquery
      have hslash : r.path = [] ∨ ∃ rest, r.path = '/' :: rest := by
        rcases r.path_start with h | h | h
        · exact .inl h
        · exact .inr (head?_eq_some_iff.mp h)
        · exact absurd h hquery
      have hchars : ∀ c ∈ r.authority, decide (c ≠ '/') = true :=
        fun c hc => decide_eq_true (r.authority_chars c hc).2
      have hpath : r.path.takeWhile (· ≠ '/') = [] ∧ r.path.dropWhile (· ≠ '/') = r.path ∧
          (if r.path = [] then ['/'] else r.path) = originForm r.path := by
        rcases hslash with h | ⟨rest, h⟩ <;> rw [h] <;> simp [originForm]
      rw [takeWhile_append_of_pos hchars, dropWhile_append_of_pos hchars, hpath.1,
        hpath.2.1, hpath.2.2, append_nil, r.parseAuthority_authority]
      rfl
  · rw [if_neg hscheme]
    exact iff_of_false nofun fun h => hscheme h.1

end AbsoluteForm

theorem absoluteForm_notUnderstood :
    parseRequestLine "GET Http://a/ HTTP/1.1".toList = none ∧
      parseRequestLine "GET http://a?x HTTP/1.1".toList =
        some ⟨"GET".toList, "a?x".toList, 80, some "GET / HTTP/1.1\r\n".toList⟩ := by
  decide +kernel

end BigRocket.Socks
