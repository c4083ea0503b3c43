/-
What the routing verdict depends on. A name in the request stands for itself,
even when it is the text of an address.
-/
import BigRocket.Socks.Route

namespace BigRocket.Routing

open Lib Net List

/-! ## Ports and hosts -/

variable {u : UnicodeData}

def Matcher.matchesPort (port : Nat) : Matcher → Bool
  | .ports lo hi => port ≥ lo && port ≤ hi
  | _ => false

def Matcher.matchesHost (u : UnicodeData) (host : Host) : Matcher → Bool
  | .ports _ _ => false
  | m => m.matches u host 0

theorem Matcher.matches_eq (host : Host) (port : Nat) (m : Matcher) :
    m.matches u host port = (m.matchesPort port || m.matchesHost u host) := by
  cases m <;> simp [Matcher.matches, matchesPort, matchesHost]

namespace Rules

def coversPort (port : Nat) (rules : Rules) : Bool := rules.others.any (Matcher.matchesPort port)

def coversHost (u : UnicodeData) (host : Host) (rules : Rules) : Bool :=
  rules.matchesIndex host || rules.others.any (Matcher.matchesHost u host)

theorem any_matches_eq (host : Host) (port : Nat) (list : List Matcher) :
    list.any (Matcher.matches u host port) =
      (list.any (Matcher.matchesPort port) || list.any (Matcher.matchesHost u host)) := by
  induction list with
  | nil => rfl
  | cons m rest ih =>
    rw [any_cons, any_cons, any_cons, ih, m.matches_eq]
    ac_rfl

theorem matches_eq (host : Host) (port : Nat) (rules : Rules) :
    rules.matches u host port = (rules.coversPort port || rules.coversHost u host) := by
  unfold Rules.matches coversPort coversHost
  rw [any_matches_eq]
  cases rules.matchesIndex host <;> simp

end Rules

namespace RuleSet

/-- A port rule blocks, or the block rules agree on the hosts and, where it comes
to them, so do the direct rules. -/
def SameRules (u : UnicodeData) (port : Nat) (h h' : Host) (set : RuleSet) : Prop :=
  set.block.coversPort port = true ∨
    (set.block.coversHost u h = set.block.coversHost u h' ∧
      (set.block.coversHost u h = true ∨ set.direct.coversPort port = true ∨
        set.direct.coversHost u h = set.direct.coversHost u h'))

instance (port : Nat) (h h' : Host) (set : RuleSet) : Decidable (set.SameRules u port h h') :=
  inferInstanceAs (Decidable (_ ∨ _))

theorem decide_eq_iff (port : Nat) (h h' : Host) (set : RuleSet) :
    set.decide u h port = set.decide u h' port ↔ set.SameRules u port h h' := by
  simp only [RuleSet.decide, Rules.matches_eq, SameRules]
  generalize set.block.coversPort port = blockPort
  generalize set.block.coversHost u h = block
  generalize set.block.coversHost u h' = block'
  generalize set.direct.coversPort port = directPort
  generalize set.direct.coversHost u h = direct
  generalize set.direct.coversHost u h' = direct'
  revert blockPort block block' directPort direct direct'
  decide

theorem decide_block_iff (h : Host) (port : Nat) (set : RuleSet) :
    set.decide u h port = .block ↔
      set.block.coversPort port = true ∨ set.block.coversHost u h = true := by
  simp only [RuleSet.decide, Rules.matches_eq, ← Bool.or_eq_true]
  split
  case isTrue hblock => simp [hblock]
  case isFalse hblock => split <;> simp [hblock]

theorem decide_proxy_iff (h : Host) (port : Nat) (set : RuleSet) :
    set.decide u h port = .proxy ↔
      (set.block.coversPort port || set.block.coversHost u h || set.direct.coversPort port ||
        set.direct.coversHost u h) = false := by
  simp only [RuleSet.decide, Rules.matches_eq]
  generalize set.block.coversPort port = blockPort
  generalize set.block.coversHost u h = block
  generalize set.direct.coversPort port = directPort
  generalize set.direct.coversHost u h = direct
  revert blockPort block directPort direct
  decide

end RuleSet

end BigRocket.Routing

namespace BigRocket.Socks

open Lib Net Routing

namespace Surroundings

variable (s : Surroundings)

/-! ## The name before the address -/

theorem exampleCom_noUpper : Text.NoUpper "example.com".toList := by decide +kernel

theorem exampleCom_nonempty : "example.com".toList ≠ [] := by decide +kernel

def sampleRoutes : RuleSet where
  block := .fromMatchers [.net (.v4 ⟨0x0a000000, 8, by decide⟩)]
  direct := .fromMatchers
    [.domainSuffix ⟨"example.com".toList, exampleCom_noUpper, exampleCom_nonempty⟩]

def sample : Surroundings where
  unicode := .basicLatin
  routes := sampleRoutes
  sniffEnabled := true
  hostname _ := none
  recallName _ := none

def covered (host : Host) (port : Nat) : Bool :=
  s.routes.block.coversPort port || s.routes.block.coversHost s.unicode host ||
    s.routes.direct.coversPort port || s.routes.direct.coversHost s.unicode host

theorem decide_proxy_iff (host : Host) (port : Nat) :
    s.decide host port = .proxy ↔ s.covered host port = false :=
  RuleSet.decide_proxy_iff host port s.routes

/-- For a datagram: the address, or a blocked name that it was resolved from
when no rule covers the address. -/
def udpHost (ip : IpAddr) (port : Nat) : Host :=
  if s.covered (.ip ip) port then .ip ip
  else
    match s.recallName ip with
    | some name =>
      if s.routes.hasDomainRules && s.routes.block.coversHost s.unicode (.domain name) then
        .domain name
      else .ip ip
    | none => .ip ip

/-- For a flow: the announced name if a rule covers it, else the address;
a flow that announces no name is treated like a datagram. -/
def connectHost (ip : IpAddr) (head : List UInt8) (port : Nat) : Host :=
  match s.named head with
  | some name => if s.covered (.domain name) port then .domain name else .ip ip
  | none => if head = [] then .ip ip else s.udpHost ip port

theorem decideUdp_ip (ip : IpAddr) (port : Nat) :
    s.decideUdp (.ip ip) port = s.decide (s.udpHost ip port) port := by
  unfold decideUdp udpHost
  by_cases hcovered : s.covered (.ip ip) port = true
  · have hne : s.decide (.ip ip) port ≠ .proxy := by
      rw [Ne, decide_proxy_iff, hcovered]
      decide
    rw [if_pos hcovered, hostOf]
    split
    case h_1 hproxy => exact absurd hproxy hne
    case h_2 => rfl
  · have hproxy : s.decide (.ip ip) port = .proxy :=
      (s.decide_proxy_iff _ _).mpr (by simpa using hcovered)
    have hport : s.routes.block.coversPort port = false := by
      simp only [covered, Bool.or_eq_true, not_or, Bool.not_eq_true] at hcovered
      exact hcovered.1.1.1
    rw [if_neg hcovered, hostOf, hproxy]
    dsimp only [recalledBlock]
    cases hrecall : s.recallName ip with
    | none => simp [hproxy]
    | some name =>
      have hblock : s.decide (.domain name) port = .block ↔
          s.routes.block.coversHost s.unicode (.domain name) = true := by
        simp [Surroundings.decide, RuleSet.decide_block_iff, hport]
      cases hrules : s.routes.hasDomainRules with
      | false => simp [hproxy]
      | true =>
        by_cases hname : s.routes.block.coversHost s.unicode (.domain name) = true
        · simp [hname, hblock.mpr hname]
        · simp [hname, mt hblock.mp hname, hproxy]

theorem connectVerdict_unnamed (target : Target) {head : List UInt8} (port : Nat)
    (hsome : head ≠ []) (hnamed : s.named head = none) :
    s.connectVerdict target head port = s.decideUdp target port := by
  unfold connectVerdict decideUdp decideRoute
  rw [hnamed]
  dsimp only
  split
  case isTrue hproxy => rw [hproxy.1]
  case isFalse hdecided =>
    have hne : s.decide (hostOf target) port ≠ .proxy := fun heq => hdecided ⟨heq, rfl, hsome⟩
    split
    case h_1 hproxy => exact absurd hproxy hne
    case h_2 => rfl

theorem connectVerdict_nil (target : Target) (port : Nat) :
    s.connectVerdict target [] port = s.decide (hostOf target) port := by
  simp [connectVerdict, named, decideRoute]

theorem connectVerdict_ip (ip : IpAddr) (head : List UInt8) (port : Nat) :
    s.connectVerdict (.ip ip) head port = s.decide (s.connectHost ip head port) port := by
  unfold connectHost
  cases hnamed : s.named head with
  | some name =>
    unfold connectVerdict decideRoute
    simp only [hnamed, reduceCtorEq, false_and, and_false, if_false]
    cases hcovered : s.covered (.domain name) port with
    | true =>
      have hne : s.decide (.domain name) port ≠ .proxy := by
        rw [Ne, decide_proxy_iff, hcovered]
        decide
      split
      case h_1 hproxy => exact absurd hproxy hne
      case h_2 => rfl
    | false =>
      rw [(s.decide_proxy_iff _ _).mpr hcovered]
      rfl
  | none =>
    by_cases hhead : head = []
    · rw [hhead, connectVerdict_nil]
      rfl
    · rw [connectVerdict_unnamed s _ port hhead hnamed, decideUdp_ip, if_neg hhead]

theorem decideUdp_domain (name : Text) (port : Nat) :
    s.decideUdp (.domain name) port = s.decide (.domain name) port := by
  unfold decideUdp
  split
  case h_1 hproxy => exact hproxy.symm
  case h_2 => rfl

end Surroundings

/-! ## Two notations of one address -/

def addressBytes : IpAddr → UInt8 × List UInt8
  | .v4 ip => (atypV4, beBytes 4 ip.toNat)
  | .v6 ip => (atypV6, beBytes 16 ip.toNat)

def nameBytes (name : List UInt8) : List UInt8 := UInt8.ofNat name.length :: name

theorem readExact_append {count : Nat} {bytes : List UInt8} (h : bytes.length = count)
    (rest : List UInt8) : readExact count (bytes ++ rest) = some (bytes, rest) := by
  subst h
  simp [readExact]

theorem readAddress_address (ip : IpAddr) (rest : List UInt8) :
    readAddress (addressBytes ip).1 ((addressBytes ip).2 ++ rest) = some (.ip ip, rest) := by
  cases ip with
  | v4 ip =>
    have hread := readExact_append (length_beBytes 4 ip.toNat) rest
    have hvalue : beNat (beBytes 4 ip.toNat) = ip.toNat := by
      rw [beNat_beBytes]
      exact Nat.mod_eq_of_lt ip.isLt
    simp [readAddress, addressBytes, hread, hvalue]
  | v6 ip =>
    have hread := readExact_append (length_beBytes 16 ip.toNat) rest
    have hvalue : beNat (beBytes 16 ip.toNat) = ip.toNat := by
      rw [beNat_beBytes]
      exact Nat.mod_eq_of_lt ip.isLt
    simp [readAddress, addressBytes, atypV4, atypV6, hread, hvalue]

theorem readAddress_name {name : List UInt8} (hname : name.length < 256) (rest : List UInt8) :
    readAddress atypDomain (nameBytes name ++ rest) =
      some (.domain (Utf8.fromUtf8Lossy name), rest) := by
  have hlen : readExact 1 (nameBytes name ++ rest) =
      some ([UInt8.ofNat name.length], name ++ rest) := by
    simp [readExact, nameBytes]
  have hvalue : beNat [UInt8.ofNat name.length] = name.length := by
    simp [beNat, Nat.mod_eq_of_lt hname]
  have hread := readExact_append (rfl : name.length = name.length) rest
  simp [readAddress, atypV4, atypV6, atypDomain, hlen, hvalue, hread]

theorem readTarget_eq {atyp : UInt8} {address : List UInt8} {target : Target} {port : Nat}
    (hport : port < 65536) (rest : List UInt8)
    (h : readAddress atyp (address ++ (beBytes 2 port ++ rest)) =
      some (target, beBytes 2 port ++ rest)) :
    readTarget atyp (address ++ (beBytes 2 port ++ rest)) = some (target, port, rest) := by
  have hread := readExact_append (length_beBytes 2 port) rest
  have hvalue : beNat (beBytes 2 port) = port := by
    rw [beNat_beBytes]
    exact Nat.mod_eq_of_lt hport
  simp [readTarget, h, hread, hvalue]

def connectInput (address : List UInt8) (port : Nat) : List UInt8 := address ++ beBytes 2 port

theorem connectInput_eq (address : List UInt8) (port : Nat) :
    connectInput address port = address ++ (beBytes 2 port ++ []) := by
  rw [connectInput, List.append_nil]

def datagram (atyp : UInt8) (address : List UInt8) (port : Nat) (payload : List UInt8) :
    List UInt8 :=
  [0, 0, 0, atyp] ++ (address ++ (beBytes 2 port ++ payload))

namespace Surroundings

variable (s : Surroundings)

def publicText : List UInt8 := [0x38, 0x2e, 0x38, 0x2e, 0x38, 0x2e, 0x38]

def blockedText : List UInt8 := [0x31, 0x30, 0x2e, 0x31, 0x2e, 0x32, 0x2e, 0x33]

end Surroundings

end BigRocket.Socks
