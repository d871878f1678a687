import Turbine.Lib.ByteOrder
import Turbine.Net

/-!
# The key of a socket

The `INGRESS` map is filled from user space and looked up in the kernel, and the key of a
socket is computed on both sides: by `socket_hash` from the addresses of the socket, and by
the eBPF program `stream_verdict` from the context of a packet that arrives on it.  Both are
the same ten multiply-and-add steps on 32-bit words, which wrap around.

The words come to them in different ways.  `socket_hash` takes the address apart into bytes,
puts each four of them together as a number and then into network order.  The kernel copies
the address into the context as it has it, in network order, and the program reads the
context as words of the machine.  The local port is a number in both; the remote port is in
network order, as a 32-bit value.  `SkBuff.of` is what the kernel does.  Either way the key
is the `rollingHash` of the same ten words.
-/

namespace Turbine

open ByteOrder

/-- `Ipv4Addr::to_ipv6_mapped`, as the number that `u128::from` makes of it. -/
def toIpv6Mapped (ip : BitVec 32) : BitVec 128 := (0xffff : BitVec 96) ++ ip

/-- The address as one of version 6. -/
def SocketAddr.ipv6 : SocketAddr → BitVec 128
  | .v4 ip _ => toIpv6Mapped ip
  | .v6 ip _ _ _ => ip

/-- The byte at position `i` of `u128::to_be_bytes`. -/
def toBeBytes (ip : BitVec 128) (i : ℕ) : BitVec 8 := byte ip (15 - i)

/-- `socket_hash`, on a machine of this byte order. -/
def socketHash (e : Endian) (localAddr peerAddr : SocketAddr) : BitVec 32 :=
  let (lip, lport) : BitVec 128 × BitVec 32 :=
    match localAddr with
    | .v4 ip port => (toIpv6Mapped ip, port.zeroExtend 32)
    | .v6 ip port _ _ => (ip, port.zeroExtend 32)
  let (rip, rport) : BitVec 128 × BitVec 32 :=
    match peerAddr with
    | .v4 ip port => (toIpv6Mapped ip, port.zeroExtend 32)
    | .v6 ip port _ _ => (ip, port.zeroExtend 32)
  let l := toBeBytes lip
  let key := toBe e (fromBeBytes (l 0) (l 1) (l 2) (l 3))
  let key := 31 * key + toBe e (fromBeBytes (l 4) (l 5) (l 6) (l 7))
  let key := 31 * key + toBe e (fromBeBytes (l 8) (l 9) (l 10) (l 11))
  let key := 31 * key + toBe e (fromBeBytes (l 12) (l 13) (l 14) (l 15))
  -- local port is in host byte order
  let key := 31 * key + lport
  let r := toBeBytes rip
  let key := 31 * key + toBe e (fromBeBytes (r 0) (r 1) (r 2) (r 3))
  let key := 31 * key + toBe e (fromBeBytes (r 4) (r 5) (r 6) (r 7))
  let key := 31 * key + toBe e (fromBeBytes (r 8) (r 9) (r 10) (r 11))
  let key := 31 * key + toBe e (fromBeBytes (r 12) (r 13) (r 14) (r 15))
  31 * key + toBe e rport

/-- The fields of `__sk_buff` that `stream_verdict` reads. -/
structure SkBuff where
  localIpv6 : Fin 4 → BitVec 32
  localPort : BitVec 32
  remoteIpv6 : Fin 4 → BitVec 32
  remotePort : BitVec 32

/-- The key that `stream_verdict` computes. -/
def SkBuff.verdictKey (skb : SkBuff) : BitVec 32 :=
  let key := skb.localIpv6 0
  let key := 31 * key + skb.localIpv6 1
  let key := 31 * key + skb.localIpv6 2
  let key := 31 * key + skb.localIpv6 3
  let key := 31 * key + skb.localPort
  let key := 31 * key + skb.remoteIpv6 0
  let key := 31 * key + skb.remoteIpv6 1
  let key := 31 * key + skb.remoteIpv6 2
  let key := 31 * key + skb.remoteIpv6 3
  31 * key + skb.remotePort

/-- Four bytes of an address in network order, read as a word of the machine. -/
def addressWord (e : Endian) (ip : BitVec 128) (i : Fin 4) : BitVec 32 :=
  fromNeBytes e (toBeBytes ip (4 * i)) (toBeBytes ip (4 * i + 1)) (toBeBytes ip (4 * i + 2))
    (toBeBytes ip (4 * i + 3))

/-- What the kernel puts into the context of a packet that arrives on the socket with these
addresses: the addresses in network order; the local port as a number; and the bytes of the
remote port in network order, as those of a 32-bit value. -/
def SkBuff.of (e : Endian) (localAddr peerAddr : SocketAddr) : SkBuff where
  localIpv6 := addressWord e localAddr.ipv6
  localPort := localAddr.port.zeroExtend 32
  remoteIpv6 := addressWord e peerAddr.ipv6
  remotePort := fromNeBytes e 0 0 (byte peerAddr.port 1) (byte peerAddr.port 0)

/-! ## Both are a hash of ten words -/

/-- Multiply and add, word by word. -/
def rollingHash (words : List (BitVec 32)) : BitVec 32 :=
  words.foldl (fun key word => 31 * key + word) 0

/-- The words of an address. -/
def addressWords (e : Endian) (ip : BitVec 128) : List (BitVec 32) :=
  [addressWord e ip 0, addressWord e ip 1, addressWord e ip 2, addressWord e ip 3]

/-- The ten words of a socket, as the machine has them in memory. -/
def socketWords (e : Endian) (localAddr peerAddr : SocketAddr) : List (BitVec 32) :=
  addressWords e localAddr.ipv6 ++ localAddr.port.zeroExtend 32 ::
    (addressWords e peerAddr.ipv6 ++
      [fromNeBytes e 0 0 (byte peerAddr.port 1) (byte peerAddr.port 0)])

/-- The first word starts the hash. -/
theorem rollingHash_cons (word : BitVec 32) (words : List (BitVec 32)) :
    rollingHash (word :: words) = words.foldl (fun key word => 31 * key + word) word := by
  have hstart : 31 * 0 + word = word := by simp
  rw [rollingHash, List.foldl_cons, hstart]

/-- The remote port: put into network order by one side, found in it by the other. -/
theorem toBe_port (e : Endian) (port : BitVec 16) :
    toBe e (port.zeroExtend 32) = fromNeBytes e 0 0 (byte port 1) (byte port 0) := by
  rw [← fromBeBytes_half, toBe_fromBeBytes]

theorem socketHash_eq_rollingHash (e : Endian) (localAddr peerAddr : SocketAddr) :
    socketHash e localAddr peerAddr = rollingHash (socketWords e localAddr peerAddr) := by
  rw [socketWords, addressWords, List.cons_append, rollingHash_cons]
  cases localAddr <;> cases peerAddr
  all_goals
    simp only [socketHash, toBe_fromBeBytes, toBe_port]
    rfl

theorem verdictKey_eq_rollingHash (e : Endian) (localAddr peerAddr : SocketAddr) :
    (SkBuff.of e localAddr peerAddr).verdictKey =
      rollingHash (socketWords e localAddr peerAddr) := by
  rw [socketWords, addressWords, List.cons_append, rollingHash_cons]
  rfl

/-- **The two computations of the key agree.**  For every two addresses, of either version,
and on machines of either byte order. -/
theorem socketHash_eq_verdictKey (e : Endian) (localAddr peerAddr : SocketAddr) :
    socketHash e localAddr peerAddr = (SkBuff.of e localAddr peerAddr).verdictKey := by
  rw [socketHash_eq_rollingHash, verdictKey_eq_rollingHash]

end Turbine
