/-
The networks of the crate `ipnet`: an address and the length of its network
part.
-/
import BigRocket.Net.Address

namespace BigRocket.Net

structure NetOf (w : Nat) where
  addr : BitVec w
  prefixLen : Nat
  prefixLen_le : prefixLen ≤ w

namespace NetOf

variable {w : Nat} (net : NetOf w)

def hostmask : BitVec w := BitVec.allOnes w >>> net.prefixLen

def network : BitVec w := net.addr &&& ~~~net.hostmask

def broadcast : BitVec w := net.addr ||| net.hostmask

def contains (ip : BitVec w) : Bool := net.network ≤ ip && ip ≤ net.broadcast

end NetOf

inductive IpNet where
  | v4 (net : NetOf 32)
  | v6 (net : NetOf 128)

namespace IpNet

/-- A network holds addresses of its own family only. -/
def contains : IpNet → IpAddr → Bool
  | .v4 net, .v4 ip => net.contains ip
  | .v6 net, .v6 ip => net.contains ip
  | _, _ => false

def ofIpAddr : IpAddr → IpNet
  | .v4 ip => .v4 ⟨ip, 32, le_rfl⟩
  | .v6 ip => .v6 ⟨ip, 128, le_rfl⟩

end IpNet

end BigRocket.Net
