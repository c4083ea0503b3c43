/-
The addresses of `std::net` that the tunnel core passes around. An address is
its bits, a port its number.
-/
import Mathlib

namespace BigRocket.Net

inductive IpAddr where
  | v4 (bits : BitVec 32)
  | v6 (bits : BitVec 128)
  deriving DecidableEq, Repr

structure SocketAddr where
  ip : IpAddr
  port : Nat
  deriving DecidableEq, Repr

namespace IpAddr

def ofOctets (a b c d : BitVec 8) : IpAddr := .v4 (a ++ b ++ c ++ d)

end IpAddr

end BigRocket.Net
