/-
What `UriParts.of` makes of a link that was written from its components, each
percent-encoded and IPv6 hosts in brackets.
-/
import BigRocket.Config.LinkSyntax

namespace BigRocket.Config

open Lib Lib.Kotlin LinkSyntax List Option

/-! ## Writing a link -/

def IsIpv6Text (s : Text) : Prop :=
  ':' ∈ s ∧ ∀ c ∈ s, (hexValue c).isSome = true ∨ c = ':' ∨ c = '.'

inductive Host where
  | named (name : Text)
  | ipv6 (address : Text) (isAddress : IsIpv6Text address)

def Host.text : Host → Text
  | .named name => name
  | .ipv6 address _ => address

def Host.render : Host → Text
  | .named name => percentEncode name
  | .ipv6 address _ => '[' :: address ++ [']']

structure Link where
  scheme : Text
  user : Text
  host : Host
  port : Nat
  query : QueryMap
  name : Text
  scheme_colon : ':' ∉ scheme
  port_pos : 1 ≤ port
  port_le : port ≤ 65535

namespace Link

variable {jvm : Jvm} {l : Link} {needUser : Bool}

def renderPair (pair : Text × Text) : Text := percentEncode pair.1 ++ '=' :: percentEncode pair.2

def renderQuery (query : QueryMap) : Text := ['&'].intercalate (query.entries.map renderPair)

def renderAuthority (l : Link) : Text :=
  percentEncode l.user ++ '@' :: (l.host.render ++ ':' :: Nat.toDigits 10 l.port)

def render (l : Link) : Text :=
  l.scheme ++ "://".toList ++
    (l.renderAuthority ++ '?' :: renderQuery l.query ++ '#' :: percentEncode l.name)

def parts (l : Link) : UriParts where
  user := l.user
  host := l.host.text
  port := l.port
  query := l.query
  name := l.name

/-! ## Separators and components -/

theorem decodeUrl_percentEncode (s : Text) : decodeUrl jvm (percentEncode s) = s := by
  have hplus : (percentEncode s).flatMap (fun c => if c = '+' then "%2B".toList else [c]) =
      percentEncode s := by
    conv_rhs => rw [← flatMap_singleton' (percentEncode s)]
    apply flatMap_congr
    intro c hc
    rw [if_neg]
    rintro rfl
    exact notMem_percentEncode (by decide) (by decide) hc
  rw [decodeUrl, hplus, urlDecode_percentEncode, getD_some]

variable {c : Char}

theorem notMem_toDigits (h : c.isDigit = false) (n : Nat) : c ∉ Nat.toDigits 10 n := by
  intro hmem
  rw [Nat.isDigit_of_mem_toDigits (by decide) (by decide) hmem] at h
  cases h

theorem notMem_renderHost (hsafe : isUnreserved c = false) (hhex : hexValue c = none)
    (hsep : c ∉ ['%', '[', ']', ':', '.']) (host : Host) : c ∉ host.render := by
  simp only [mem_cons, not_mem_nil, or_false, not_or] at hsep
  cases host with
  | named name => exact notMem_percentEncode hsafe hsep.1
  | ipv6 address isAddress =>
    intro hmem
    simp only [Host.render, cons_append, mem_cons, mem_append,
      not_mem_nil, or_false] at hmem
    rcases hmem with h | h | h
    · exact hsep.2.1 h
    · rcases isAddress.2 c h with h | h | h
      · rw [hhex] at h
        cases h
      · exact hsep.2.2.2.1 h
      · exact hsep.2.2.2.2 h
    · exact hsep.2.2.1 h

theorem notMem_renderAuthority (hsafe : isUnreserved c = false) (hhex : hexValue c = none)
    (hdigit : c.isDigit = false) (hsep : c ∉ ['%', '[', ']', ':', '.', '@']) :
    c ∉ l.renderAuthority := by
  simp only [mem_cons, not_mem_nil, or_false, not_or] at hsep
  simp only [renderAuthority, mem_append, mem_cons, not_or]
  exact ⟨notMem_percentEncode hsafe hsep.1, hsep.2.2.2.2.2,
    notMem_renderHost hsafe hhex (by simp [hsep]) l.host, hsep.2.2.2.1, notMem_toDigits hdigit _⟩

theorem notMem_renderPair (hsafe : isUnreserved c = false) (hpercent : c ≠ '%') (heq : c ≠ '=')
    (pair : Text × Text) : c ∉ renderPair pair := by
  simp only [renderPair, mem_append, mem_cons, not_or]
  exact ⟨notMem_percentEncode hsafe hpercent, heq, notMem_percentEncode hsafe hpercent⟩

theorem notMem_intercalate {d : Char} (hne : c ≠ d) {texts : List Text} (h : ∀ t ∈ texts, c ∉ t) :
    c ∉ [d].intercalate texts := by
  induction texts with
  | nil => simp
  | cons t texts ih =>
    have hrest := ih fun t' ht' => h t' (mem_cons_of_mem t ht')
    cases texts with
    | nil => simpa using h t (by simp)
    | cons t' texts =>
      rw [intercalate_cons_cons]
      simp only [mem_append, mem_singleton, not_or]
      exact ⟨⟨h t (by simp), hne⟩, hrest⟩

theorem notMem_renderQuery (hsafe : isUnreserved c = false) (hpercent : c ≠ '%') (heq : c ≠ '=')
    (hamp : c ≠ '&') (query : QueryMap) : c ∉ renderQuery query := by
  apply notMem_intercalate hamp
  intro t ht
  obtain ⟨pair, -, rfl⟩ := mem_map.mp ht
  exact notMem_renderPair hsafe hpercent heq pair

/-! ## Host and port -/

theorem isVisible_of_mem_toDigits {n : Nat} (h : c ∈ Nat.toDigits 10 n) : isVisible c = true :=
  isVisible_of_isDigit (Nat.isDigit_of_mem_toDigits (by decide) (by decide) h)

theorem trim_toDigits (n : Nat) : trim (Nat.toDigits 10 n) = Nat.toDigits 10 n :=
  trim_of_trimmed (trimmed_of_isVisible fun _ hc => isVisible_of_mem_toDigits hc)

theorem portOf_toDigits : portOf jvm (Nat.toDigits 10 l.port) = some l.port := by
  have hpos := l.port_pos
  have hle := l.port_le
  rw [portOf, toIntOrNull_toDigits (by omega)]
  simp only
  rw [if_pos (by omega)]
  rfl

theorem hostPort_isVisible : ∀ c ∈ l.host.render ++ ':' :: Nat.toDigits 10 l.port,
    isVisible c = true := by
  intro c hc
  simp only [mem_append, mem_cons] at hc
  rcases hc with hhost | rfl | hdigit
  · cases hl : l.host with
    | named name =>
      rw [hl] at hhost
      exact isVisible_of_mem_percentEncode hhost
    | ipv6 address isAddress =>
      rw [hl] at hhost
      simp only [Host.render, cons_append, mem_cons, mem_append,
        not_mem_nil, or_false] at hhost
      rcases hhost with rfl | h | rfl
      · decide
      · rcases isAddress.2 c h with h | rfl | rfl
        · exact isVisible_of_hexValue h
        · decide
        · decide
      · decide
  · decide
  · exact isVisible_of_mem_toDigits hdigit

def hostRead : Host → Text
  | .named name => percentEncode name
  | .ipv6 address _ => address

theorem cutHostPort_render :
    cutHostPort (l.host.render ++ ':' :: Nat.toDigits 10 l.port) =
      .ok (hostRead l.host, Nat.toDigits 10 l.port) := by
  have hcolon : ':' ∉ Nat.toDigits 10 l.port := notMem_toDigits (by decide) _
  cases l.host with
  | named name =>
    have hhead : (percentEncode name ++ ':' :: Nat.toDigits 10 l.port).head? ≠ some '[' := by
      cases hname : percentEncode name with
      | nil => simp
      | cons c rest =>
        intro heq
        rw [cons_append, head?_cons, Option.some.injEq] at heq
        subst heq
        exact notMem_percentEncode (by decide) (by decide) (hname ▸ mem_cons_self ..)
    rw [Host.render, cutHostPort, if_neg hhead, substringBeforeLast_append hcolon,
      substringAfterLast_append hcolon, if_pos (by simp)]
    rfl
  | ipv6 address isAddress =>
    have hbracket : ']' ∉ '[' :: address := by
      intro hmem
      rcases mem_cons.mp hmem with h | h
      · exact absurd h (by decide)
      · rcases isAddress.2 _ h with h | h | h
        · exact absurd h (by decide)
        · exact absurd h (by decide)
        · exact absurd h (by decide)
    have hform : (Host.ipv6 address isAddress).render ++ ':' :: Nat.toDigits 10 l.port =
        ('[' :: address) ++ ']' :: [':'] ++ Nat.toDigits 10 l.port := by
      simp [Host.render]
    have hbefore : substringBefore ']' (('[' :: address) ++ ']' :: [':'] ++
        Nat.toDigits 10 l.port) = '[' :: address := by
      rw [append_assoc]
      exact substringBefore_append hbracket
    rw [hform, cutHostPort, if_pos (by simp), if_pos (by simp), cut_append hbracket, hbefore]
    rfl

theorem splitHostPort_render :
    splitHostPort jvm (l.host.render ++ ':' :: Nat.toDigits 10 l.port) =
      if hostRead l.host = [] then .error noServer else .ok (hostRead l.host, l.port) := by
  have hvisible : ∀ c ∈ hostRead l.host, isVisible c = true := by
    intro c hc
    apply hostPort_isVisible (l := l)
    apply mem_append_left
    revert hc
    cases l.host with
    | named name => exact id
    | ipv6 address isAddress =>
      intro hc
      exact mem_append_left _ (mem_cons_of_mem _ hc)
  rw [splitHostPort, trim_of_trimmed (trimmed_of_isVisible hostPort_isVisible),
    cutHostPort_render]
  simp only [bind, Except.bind]
  rw [trim_toDigits, portOf_toDigits, trim_of_trimmed (trimmed_of_isVisible hvisible)]
  simp only [isBlank_iff_of_isVisible hvisible]
  rfl

/-! ## The query -/

def KeyKept (k : Text) : Prop := k ≠ [] ∧ Trimmed k

instance (k : Text) : Decidable (KeyKept k) := instDecidableAnd

theorem addPair_renderPair (query : QueryMap) (pair : Text × Text) :
    UriParts.addPair jvm query (renderPair pair) =
      if trim pair.1 ≠ [] then query.putIfAbsent (trim pair.1) pair.2 else query := by
  have heq : '=' ∉ percentEncode pair.1 := notMem_percentEncode (by decide) (by decide)
  have hmem : '=' ∈ percentEncode pair.1 ++ '=' :: percentEncode pair.2 := by simp
  rw [UriParts.addPair, if_neg (by simp [renderPair]), renderPair, substringBefore_append heq,
    substringAfter_append heq]
  simp only [decodeUrl_percentEncode, if_pos hmem]

theorem keyKept_addPair {query : QueryMap} (h : ∀ k ∈ query.keys, KeyKept k) (pair : Text) :
    ∀ k ∈ (UriParts.addPair jvm query pair).keys, KeyKept k := by
  unfold UriParts.addPair
  split
  · exact h
  · dsimp only
    split
    · rename_i hne
      intro k hk
      unfold LinkedMap.putIfAbsent at hk
      split at hk
      · exact h k hk
      · simp only [LinkedMap.keys, map_append, map_singleton, mem_append,
          mem_singleton] at hk
        rcases hk with hk | rfl
        · exact h k hk
        · exact ⟨hne, trimmed_trim⟩
    · exact h

theorem keyKept_foldl_addPair (pairs : List Text) {query : QueryMap}
    (h : ∀ k ∈ query.keys, KeyKept k) :
    ∀ k ∈ (pairs.foldl (UriParts.addPair jvm) query).keys, KeyKept k := by
  induction pairs generalizing query with
  | nil => exact h
  | cons pair pairs ih => exact ih (keyKept_addPair h pair)

theorem foldl_addPair_render {entries : List (Text × Text)} {query : QueryMap}
    (hkept : ∀ e ∈ entries, KeyKept e.1)
    (hnodup : ((query.entries ++ entries).map Prod.fst).Nodup) :
    ((entries.map renderPair).foldl (UriParts.addPair jvm) query).entries =
      query.entries ++ entries := by
  induction entries generalizing query with
  | nil => simp
  | cons e entries ih =>
    obtain ⟨hne, htrimmed⟩ := hkept e (by simp)
    have hfresh : e.1 ∉ query.keys := by
      intro hmem
      rw [map_append, nodup_append] at hnodup
      exact hnodup.2.2 e.1 hmem e.1 (by simp) rfl
    have hnext := LinkedMap.entries_putIfAbsent hfresh e.2
    rw [map_cons, foldl_cons, addPair_renderPair, trim_of_trimmed htrimmed, if_pos hne,
      ih (fun e' he' => hkept e' (mem_cons_of_mem e he'))
        (by rw [hnext, append_assoc]; exact hnodup), hnext, append_assoc]
    rfl

theorem splitOn_renderQuery (query : QueryMap) :
    (renderQuery query).splitOn '&' =
      if query.entries = [] then [[]] else query.entries.map renderPair := by
  split
  · rename_i h
    rw [renderQuery, h]
    rfl
  · rename_i h
    apply splitOn_intercalate
    · intro t ht
      obtain ⟨pair, -, rfl⟩ := mem_map.mp ht
      exact notMem_renderPair (by decide) (by decide) (by decide) pair
    · simpa using h

theorem parseQuery_eq_iff (jvm : Jvm) (query : QueryMap) :
    ((renderQuery query).splitOn '&').foldl (UriParts.addPair jvm) .empty = query ↔
      ∀ k ∈ query.keys, KeyKept k := by
  constructor
  · intro h
    rw [← h]
    exact keyKept_foldl_addPair _ nofun
  · intro h
    rw [splitOn_renderQuery]
    ext1
    split
    · rename_i hempty
      rw [hempty]
      rfl
    · have hkept : ∀ e ∈ query.entries, KeyKept e.1 := fun e he =>
        h e.1 (mem_map_of_mem he)
      exact foldl_addPair_render hkept query.nodup

/-! ## The link -/

theorem of_render_eq :
    UriParts.of jvm l.render needUser =
      if hostRead l.host = [] then .error noServer
      else .ok { user := l.user, host := hostRead l.host, port := l.port,
                 query := ((renderQuery l.query).splitOn '&').foldl (UriParts.addPair jvm) .empty,
                 name := l.name } := by
  have hlink : l.render = l.scheme ++ ':' :: ['/', '/'] ++
      (l.renderAuthority ++ '?' :: renderQuery l.query ++ '#' :: percentEncode l.name) := rfl
  have hhash : '#' ∉ l.renderAuthority ++ '?' :: renderQuery l.query := by
    simp only [mem_append, mem_cons, not_or]
    exact ⟨notMem_renderAuthority (by decide) (by decide) (by decide) (by decide), by decide,
      notMem_renderQuery (by decide) (by decide) (by decide) (by decide) _⟩
  have hquestion : '?' ∉ l.renderAuthority :=
    notMem_renderAuthority (by decide) (by decide) (by decide) (by decide)
  have hslash : trimEndOf ['/'] l.renderAuthority = l.renderAuthority := by
    apply rdropWhile_of_getLast
    intro c hc
    have hne : c ≠ '/' := by
      rintro rfl
      exact notMem_renderAuthority (by decide) (by decide) (by decide) (by decide)
        (mem_of_getLast? hc)
    simpa using hne
  have hat : '@' ∉ l.host.render ++ ':' :: Nat.toDigits 10 l.port := by
    simp only [mem_append, mem_cons, not_or]
    exact ⟨notMem_renderHost (by decide) (by decide) (by decide) _, by decide,
      notMem_toDigits (by decide) _⟩
  have hmemHash : '#' ∈ l.renderAuthority ++ '?' :: renderQuery l.query ++
      '#' :: percentEncode l.name := by simp
  have hmemQuestion : '?' ∈ l.renderAuthority ++ '?' :: renderQuery l.query := by simp
  have hmemAt : '@' ∈ l.renderAuthority := by simp [renderAuthority]
  have huser : substringBeforeLast '@' l.renderAuthority [] = percentEncode l.user :=
    substringBeforeLast_append hat
  have hhost : substringAfterLast '@' l.renderAuthority =
      l.host.render ++ ':' :: Nat.toDigits 10 l.port := substringAfterLast_append hat
  rw [UriParts.of, hlink, cut_append l.scheme_colon]
  simp only [map_some, getD_some, hmemHash, substringAfter_append hhash,
    substringBefore_append hhash, hmemQuestion, substringAfter_append hquestion,
    substringBefore_append hquestion, hslash, hmemAt, not_true_eq_false, and_false, if_true,
    if_false, huser, hhost, decodeUrl_percentEncode, splitHostPort_render]
  split
  · rfl
  · rfl

/-- A host that comes back as it was: a name that needs no encoding, or an
IPv6 address. -/
def HostKept : Host → Prop
  | .named name => name ≠ [] ∧ ∀ c ∈ name, isUnreserved c = true
  | .ipv6 _ _ => True

theorem hostKept_iff (host : Host) :
    HostKept host ↔ hostRead host ≠ [] ∧ hostRead host = host.text := by
  cases host with
  | named name =>
    simp only [HostKept, hostRead, Host.text, ne_eq, percentEncode_eq_nil_iff,
      percentEncode_eq_self_iff]
  | ipv6 address isAddress =>
    have hne : address ≠ [] := ne_nil_of_mem isAddress.1
    simp only [HostKept, hostRead, Host.text, ne_eq, hne, not_false_eq_true, and_self]

/-- Parsing gives back the components of a rendered link exactly when the
host and the keys of the query are kept. -/
theorem of_render_iff (jvm : Jvm) (l : Link) (needUser : Bool) :
    UriParts.of jvm l.render needUser = .ok l.parts ↔
      HostKept l.host ∧ ∀ k ∈ l.query.keys, KeyKept k := by
  rw [of_render_eq, hostKept_iff, ← parseQuery_eq_iff jvm]
  split
  · rename_i hempty
    simp [hempty]
  · rename_i hne
    simp only [parts, Except.ok.injEq, UriParts.mk.injEq, true_and, and_true, ne_eq, hne,
      not_false_eq_true]

theorem vless_colon : ':' ∉ "vless".toList := by decide
theorem port_443 : 1 ≤ 443 ∧ 443 ≤ 65535 := by decide

def vlessLink (host : Host) (query : QueryMap) : Link where
  scheme := "vless".toList
  user := "u".toList
  host := host
  port := 443
  query := query
  name := []
  scheme_colon := vless_colon
  port_pos := port_443.1
  port_le := port_443.2

theorem render_not_inverted :
    UriParts.of .basicLatin (vlessLink (.named ['h']) (.put .empty [' ', 'a'] ['1'])).render true ≠
        .ok (vlessLink (.named ['h']) (.put .empty [' ', 'a'] ['1'])).parts ∧
      UriParts.of .basicLatin (vlessLink (.named ['h']) (.put .empty [] ['1'])).render true ≠
        .ok (vlessLink (.named ['h']) (.put .empty [] ['1'])).parts ∧
      UriParts.of .basicLatin (vlessLink (.named ['ü']) .empty).render true ≠
        .ok (vlessLink (.named ['ü']) .empty).parts := by
  decide +kernel

end Link

end BigRocket.Config
