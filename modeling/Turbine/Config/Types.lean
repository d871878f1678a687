import Turbine.Lib.HashMap
import Turbine.Net

/-!
# The configuration and what is built from it

`config::types` is the configuration as it is read from the file; `Rule` and `Upstream`
are what `parse_config` makes of it and what a runner hands to `handle_client`.

Four things come from other crates and are kept at what the program uses of them: a
compiled regular expression is the predicate `is_match`; a certificate and a private key
are their DER bytes; a TLS acceptor is the `ServerConfig` it was made from; and an `Arc`
is a value together with the allocation it lives in, since two addresses that share one
`Arc<Rule>` share its round-robin counters.
-/

namespace Turbine

/-- `nonempty::NonEmpty`. -/
structure NonEmpty (α : Type) where
  head : α
  tail : List α

namespace NonEmpty

variable {α β : Type}

/-- `NonEmpty::iter`. -/
def toList (l : NonEmpty α) : List α := l.head :: l.tail

/-- `NonEmpty::collect`. -/
def collect : List α → Option (NonEmpty α)
  | [] => none
  | a :: as => some ⟨a, as⟩

theorem toList_ne_nil (l : NonEmpty α) : l.toList ≠ [] := List.cons_ne_nil _ _

theorem toList_of_collect {as : List α} {l : NonEmpty α} (h : collect as = some l) :
    l.toList = as := by
  cases as with
  | nil => exact absurd h (by simp [collect])
  | cons a as => rw [← Option.some.inj h, toList]

theorem collect_of_ne_nil {as : List α} (h : as ≠ []) : ∃ l, collect as = some l := by
  cases as with
  | nil => exact absurd rfl h
  | cons a as => exact ⟨_, rfl⟩

end NonEmpty

/-- `str::as_bytes`. -/
def asBytes (s : String) : List UInt8 := s.toUTF8.toList

/-- `regex::Regex`, as far as `is_match` goes. -/
structure Regex where
  isMatch : String → Bool

/-- `std::sync::Arc`: the allocation, and what is in it. -/
structure Arc (α : Type) where
  ptr : ℕ
  val : α

/-! ## The file -/

inductive Protocol where
  | tcp
  | tls
  deriving DecidableEq

inductive LoadBalancingStrategyConfig where
  | roundRobin
  | random
  deriving DecidableEq

structure BackendConfig where
  addr : SocketAddr
  deriving DecidableEq

inductive BackendDiscovery where
  | static (backends : NonEmpty BackendConfig)

inductive MatchConfig where
  | any
  | none
  | sni (name : String)
  | sniRegex (regex : Regex)
  | sniRegexNot (regex : Regex)
  | alpn (name : String)
  | destinationPort (dport : BitVec 16)

structure TlsConfig where
  certificate : String
  privateKey : String
  alpns : List String := []

/-- `UpstreamConfig`; the two durations are in nanoseconds. -/
structure UpstreamConfig where
  name : String
  backends : BackendDiscovery
  loadBalancing : LoadBalancingStrategyConfig
  proxyProtocol : Bool
  matchConfig : MatchConfig
  cnxMaxDuration : ℕ
  connectTimeout : ℕ := 10000000000
  tls : Option TlsConfig := .none

structure RuleConfig where
  protocol : Protocol
  listenAddr : NonEmpty SocketAddr
  upstreams : NonEmpty UpstreamConfig

structure Config where
  rules : List RuleConfig

/-! ## What is built from it -/

/-- `rustls::Certificate`. -/
abbrev Certificate := List UInt8

/-- `rustls::PrivateKey`. -/
abbrev PrivateKey := List UInt8

/-- `tokio_rustls::TlsAcceptor`, by the server configuration inside it. -/
structure TlsAcceptor where
  certificate : List Certificate
  privateKey : PrivateKey
  alpnProtocols : List (List UInt8)
  enableSecretExtraction : Bool
  sendTls13Tickets : ℕ

structure Backend where
  addr : SocketAddr
  deriving DecidableEq

/-- `LoadBalancingStrategy`, with the counter's current value. -/
inductive LoadBalancingStrategy where
  | roundRobin (ix : ℕ)
  | random
  deriving DecidableEq

/-- `LoadBalancingStrategy::from`. -/
def LoadBalancingStrategy.from : LoadBalancingStrategyConfig → LoadBalancingStrategy
  | .roundRobin => .roundRobin 0
  | .random => .random

structure Upstream where
  cfg : UpstreamConfig
  backends : NonEmpty Backend
  loadBalancing : LoadBalancingStrategy
  tlsAcceptor : Option TlsAcceptor

structure Rule where
  protocol : Protocol
  upstreams : NonEmpty Upstream

end Turbine
