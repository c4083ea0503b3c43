/-
The scan of ranges the user typed, which `wg_prober.rs` and `prober.rs` have in
the same words. An address is its 32 bits, and a sum beyond them is the fault
`overflow`. The random draws are a list; if it ends before the loop does, that
is the fault `undrawn`.
-/
import BigRocket.Net.AddressDisplay

namespace BigRocket.Prober

open Lib Net

structure Range where
  addr : BitVec 32
  bits : Nat
  deriving DecidableEq, Repr

def endsWithWildcard (v : Text) : Bool :=
  ".x".toList.isSuffixOf v || ".X".toList.isSuffixOf v || ".*".toList.isSuffixOf v

def readRange (raw : Text) : Option Range :=
  let v := raw.trim
  if v = [] then none
  else
    match v.splitOnce '/' with
    | some (ip, len) => do
        let addr ← parseIpv4 ip.trim
        let bits ← parseU8 len.trim
        if bits > 32 then none else some ⟨addr, bits⟩
    | none =>
      if endsWithWildcard v then (parseIpv4 (v.dropLast ++ ['0'])).map (⟨·, 24⟩)
      else (parseIpv4 v).map (⟨·, 32⟩)

def Range.format (r : Range) : Text := displayIpv4 r.addr ++ '/' :: Nat.toDigits 10 r.bits

def appNormalizeCidrV4 (raw : Text) : Option Text := (readRange raw).map Range.format

def parseCidrV4 (cidr : Text) : Option (Nat × Nat) := do
  let (ip, len) ← cidr.splitOnce '/'
  let addr ← parseIpv4 ip
  let bits ← parseU8 len
  return (addr.toNat, bits)

inductive Fault where
  | overflow
  | undrawn
  deriving DecidableEq, Repr

def hostAt (base off : Nat) : Except Fault (BitVec 32) :=
  if base + off < 2 ^ 32 then .ok (BitVec.ofNat 32 (base + off)) else .error .overflow

def enumerateCidrV4 (cidr : Text) : Except Fault (List (BitVec 32)) :=
  match parseCidrV4 cidr with
  | none => .ok []
  | some (base, len) =>
    let hostBits := 32 - len
    if hostBits = 0 then .ok [BitVec.ofNat 32 base]
    else if hostBits > 12 then .ok []
    else
      let size := 2 ^ hostBits
      (List.range' 1 (size - 1 - 1)).mapM (hostAt base)

def sampleLoop (base usable want : Nat) :
    List Nat → List Nat → List (BitVec 32) → Except Fault (List (BitVec 32))
  | [], _, out => if out.length < want then .error .undrawn else .ok out
  | draw :: draws, chosen, out =>
    if out.length < want then
      let off := 1 + draw % usable
      if off ∈ chosen then sampleLoop base usable want draws chosen out
      else do
        let addr ← hostAt base off
        sampleLoop base usable want draws (off :: chosen) (out ++ [addr])
    else .ok out

def sampleCidrV4 (cidr : Text) (n : Nat) (draws : List Nat) : Except Fault (List (BitVec 32)) :=
  match parseCidrV4 cidr with
  | none => .ok []
  | some (base, len) =>
    let hostBits := 32 - len
    let size := if hostBits ≥ 32 then 2 ^ 32 - 1 else 2 ^ hostBits
    if size ≤ 2 then .ok [BitVec.ofNat 32 base]
    else
      let usable := size - 2
      let want := min (n % 2 ^ 32) usable
      sampleLoop base usable want draws [] []

structure Strategy where
  fullSubnet : Bool
  samplePerCidr : Nat

structure WgStrategy extends Strategy where
  poolPortWaves : Nat

def hostsOf (st : Strategy) (draws : List Nat) (cidr : Text) : Except Fault (List (BitVec 32)) :=
  if st.fullSubnet then enumerateCidrV4 cidr else sampleCidrV4 cidr st.samplePerCidr draws

def cidrHosts (st : Strategy) (draws : Nat → List Nat) (cidrs : List Text) :
    Except Fault (List (List (BitVec 32))) :=
  cidrs.zipIdx.mapM fun entry => hostsOf st (draws entry.2) entry.1

def interleave (cidrHosts : List (List (BitVec 32))) : List IpAddr :=
  let maxLen := (cidrHosts.map List.length).foldl max 0
  (List.range maxLen).flatMap fun i => cidrHosts.filterMap fun hosts => (hosts[i]?).map IpAddr.v4

abbrev Candidate := IpAddr × Nat

def pushNew (state : List Candidate × List Candidate) (c : Candidate) :
    List Candidate × List Candidate :=
  if c ∈ state.1 then state else (c :: state.1, state.2 ++ [c])

def wgWanted (st : WgStrategy) (ports : List Nat) (excluded : List SocketAddr)
    (ips : List IpAddr) : List Candidate :=
  let ports := if ports = [] then [2408] else ports
  let waves := (List.range (max st.poolPortWaves 1)).flatMap fun wave =>
    ips.zipIdx.map fun entry => (entry.1, ports.getD ((entry.2 + wave) % ports.length) 0)
  waves.filter fun c => ⟨c.1, c.2⟩ ∉ excluded

def manualWgCandidates (st : WgStrategy) (ports : List Nat) (cidrs : List Text)
    (excluded : List SocketAddr) (draws : Nat → List Nat) : Except Fault (List Candidate) := do
  let hosts ← cidrHosts st.toStrategy draws cidrs
  return ((wgWanted st ports excluded (interleave hosts)).foldl pushNew ([], [])).2

def masqueWanted (ports : List Nat) (ips : List IpAddr) : List Candidate :=
  let primary := ports.headD 443
  (ips.map fun ip => (ip, primary)) ++
    ips.flatMap fun ip => (ports.filter (· ≠ primary)).map fun port => (ip, port)

def manualMasqueCandidates (st : Strategy) (ports : List Nat) (cidrs : List Text)
    (draws : Nat → List Nat) : Except Fault (List Candidate) := do
  let hosts ← cidrHosts st draws cidrs
  return ((masqueWanted ports (interleave hosts)).foldl pushNew ([], [])).2

end BigRocket.Prober
