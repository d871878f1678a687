import Mathlib.Data.Nat.Notation

/-!
# Socket addresses

`std::net::SocketAddr` as the program uses it: a key of the configuration maps, a
port to match on, and the words that go into the sockmap key.  Two addresses are
equal when all their parts are, the flow label and the scope included.
-/

namespace Turbine

/-- `std::net::SocketAddr`. -/
inductive SocketAddr where
  | v4 (ip : BitVec 32) (port : BitVec 16)
  | v6 (ip : BitVec 128) (port : BitVec 16) (flowinfo scopeId : BitVec 32)
  deriving DecidableEq

namespace SocketAddr

/-- `SocketAddr::port`. -/
def port : SocketAddr → BitVec 16
  | v4 _ p => p
  | v6 _ p _ _ => p

/-- `SocketAddr::is_ipv4`. -/
def isIpv4 : SocketAddr → Bool
  | v4 _ _ => true
  | v6 _ _ _ _ => false

end SocketAddr

/-- `LOCAL_ADDR_V4`: `0.0.0.0:0`. -/
def localAddrV4 : SocketAddr := .v4 0 0

/-- `LOCAL_ADDR_V6`: `[::]:0`. -/
def localAddrV6 : SocketAddr := .v6 0 0 0 0

end Turbine
