import Turbine.Client
import Turbine.Lib.BigEndian
import Turbine.Lib.Runs

/-!
# All the connections of a rule

The connections of a rule are handled by tasks of their own, and what one of them does is
`Client.step`.  What they have in common is the rule, which does not change, and in it one
counter for each upstream that balances its load in turn: `pick_backend` is a `fetch_add` on
the counter of the upstream, so it is one step of the connection that calls it and of the
counter.  `Serving` is the connections with these counters; its steps are those of the
connections, in any order, and the picks.

Two things are shown of every state that the connections can come to.  One is about each of
them, however they interleave: the bytes it has sent to a backend are the header and the bytes
of its own client, in order, and the backend belongs to the first upstream that matches; and
if its task has panicked, then at one of three places, and for the reason that belongs to it.
The other is about all of them: in which numbers the backends of an upstream have been chosen.
Not all the connections that have been given a backend reach it, and they end in any order,
so the numbers are of the connections ever routed there.  They differ by at most one, and by
at most one more for each time that the counter has wrapped.
-/

namespace Turbine

open Runs WrappingCounter

/-- The connections of a rule, in the order they were accepted in, and the strategies of its
upstreams as they are now. -/
structure Serving where
  strategies : List LoadBalancingStrategy
  clients : List Client

/-- What happens to the connections of a rule. -/
inductive ServingEvent where
  | accept (peerAddr : SocketAddr) (localAddr : Option SocketAddr)
  | client (k : ℕ) (e : ClientEvent)
  /-- the connection `k` calls `pick_backend`, with what the clock shows -/
  | pick (k : ℕ) (now : Option ℕ)

namespace Serving

section Steps

variable {μ σ : Type} (crates : Crates μ σ) (rule : Rule)

/-- Before the first connection. -/
def start : Serving := ⟨rule.upstreams.toList.map Upstream.loadBalancing, []⟩

/-- `upstream.load_balancing.pick_backend(&upstream.backends)`, called by the connection `k`. -/
def pick (s : Serving) (k : ℕ) (now : Option ℕ) : Option Serving := do
  let c ← s.clients[k]?
  match c.phase with
  | .pick u => do
      let upstream ← rule.upstreams.toList[u]?
      let strategy ← s.strategies[u]?
      match strategy.pickBackend crates.width now upstream.backends with
      | (some (b, backend), strategy') =>
          some ⟨s.strategies.set u strategy', s.clients.set k
            { c with route := some (u, b), phase := .connect upstream backend }⟩
      | (none, strategy') =>
          some ⟨s.strategies.set u strategy', s.clients.set k
            { c with phase := .panicked (.pickBackend now) }⟩
  | _ => none

/-- One step. -/
def step (s : Serving) : ServingEvent → Option Serving
  | .accept peerAddr localAddr =>
      some { s with clients := s.clients ++ [.start peerAddr localAddr] }
  | .client k e => do
      let c ← s.clients[k]?
      let c' ← c.step crates rule e
      return { s with clients := s.clients.set k c' }
  | .pick k now => s.pick crates rule k now

/-- The steps as a relation: no pick is out of bounds, and one panics only if `Random` finds
the clock before the epoch. -/
inductive Step (s : Serving) : ServingEvent → Serving → Prop
  | accept (peerAddr : SocketAddr) (localAddr : Option SocketAddr) :
      Step s (.accept peerAddr localAddr)
        { s with clients := s.clients ++ [.start peerAddr localAddr] }
  | client {k : ℕ} {e : ClientEvent} {c c' : Client} (hk : s.clients[k]? = some c)
      (hc : c.step crates rule e = some c') :
      Step s (.client k e) { s with clients := s.clients.set k c' }
  | pick {k u b : ℕ} {now : Option ℕ} {c : Client} {upstream : Upstream} {backend : Backend}
      {strategy strategy' : LoadBalancingStrategy} (hk : s.clients[k]? = some c)
      (hphase : c.phase = .pick u) (hupstream : rule.upstreams.toList[u]? = some upstream)
      (hstrategy : s.strategies[u]? = some strategy)
      (hpick : strategy.pickBackend crates.width now upstream.backends =
        (some (b, backend), strategy'))
      (hb : upstream.backends.index b = some (b, backend)) :
      Step s (.pick k now) ⟨s.strategies.set u strategy', s.clients.set k
        { c with route := some (u, b), phase := .connect upstream backend }⟩
  | pickPanic {k u : ℕ} {c : Client} {upstream : Upstream} (hk : s.clients[k]? = some c)
      (hphase : c.phase = .pick u) (hupstream : rule.upstreams.toList[u]? = some upstream)
      (hstrategy : s.strategies[u]? = some .random) :
      Step s (.pick k none)
        { s with clients := s.clients.set k { c with phase := .panicked (.pickBackend none) } }

variable {crates rule}

/-- A strategy that stays the same can be put back. -/
theorem strategies_set {s : Serving} {u : ℕ} {strategy : LoadBalancingStrategy}
    (h : s.strategies[u]? = some strategy) : s.strategies.set u strategy = s.strategies := by
  obtain ⟨hlt, rfl⟩ := List.getElem?_eq_some_iff.mp h
  exact List.set_getElem_self hlt

theorem Step.of_pick {s s' : Serving} {k : ℕ} {now : Option ℕ}
    (h : s.pick crates rule k now = some s') : Step crates rule s (.pick k now) s' := by
  obtain ⟨c, hk, hrest⟩ := Option.bind_eq_some_iff.mp h
  split at hrest
  · rename_i u hphase
    obtain ⟨upstream, hupstream, hrest⟩ := Option.bind_eq_some_iff.mp hrest
    obtain ⟨strategy, hstrategy, hrest⟩ := Option.bind_eq_some_iff.mp hrest
    have hcases := strategy.pickBackend_cases crates.width now upstream.backends
    split at hrest
    · rename_i b' backend' strategy' heq
      obtain rfl := Option.some.inj hrest
      rw [heq] at hcases
      rcases hcases with ⟨b, backend, hpick, hb⟩ | ⟨hnone, -⟩
      · obtain ⟨rfl, rfl⟩ := Prod.mk.inj (Option.some.inj hpick)
        exact .pick hk hphase hupstream hstrategy heq hb
      · exact absurd hnone (by simp)
    · rename_i strategy' heq
      obtain rfl := Option.some.inj hrest
      have hsame := strategy.pickBackend_random_iff crates.width now upstream.backends
      rw [heq] at hcases hsame
      rcases hcases with ⟨b, backend, hpick, -⟩ | ⟨-, rfl, rfl⟩
      · exact absurd hpick (by simp)
      · obtain rfl : strategy' = .random := hsame.mpr rfl
        rw [strategies_set hstrategy]
        exact .pickPanic hk hphase hupstream hstrategy
  · exact absurd hrest (by simp)

/-- **The step function takes no other step.** -/
theorem Step.of_step {s s' : Serving} {e : ServingEvent} (h : s.step crates rule e = some s') :
    Step crates rule s e s' := by
  cases e with
  | accept peerAddr localAddr =>
    obtain rfl := Option.some.inj h
    exact .accept peerAddr localAddr
  | client k e =>
    obtain ⟨c, hk, hrest⟩ := Option.bind_eq_some_iff.mp h
    obtain ⟨c', hc, hs'⟩ := Option.bind_eq_some_iff.mp hrest
    obtain rfl := Option.some.inj hs'
    exact .client hk hc
  | pick k now => exact .of_pick h

/-! ## Each connection -/

/-- A pick is where a connection gets its route. -/
theorem sound_of_pick {c : Client} {u b : ℕ} {upstream : Upstream} {backend : Backend}
    (h : c.Sound crates rule) (hphase : c.phase = .pick u)
    (hupstream : rule.upstreams.toList[u]? = some upstream)
    (hb : upstream.backends.index b = some (b, backend)) :
    Client.Sound crates rule
      { c with route := some (u, b), phase := .connect upstream backend } := by
  rw [Client.Sound, hphase] at h
  obtain ⟨hmatched, -, huntouched⟩ := h
  exact ⟨⟨u, b, hmatched, rfl, hupstream, hb⟩, huntouched⟩

theorem sound_of_pickPanic {c : Client} {u : ℕ} {upstream : Upstream}
    (h : c.Sound crates rule) (hphase : c.phase = .pick u)
    (hupstream : rule.upstreams.toList[u]? = some upstream)
    (hrandom : upstream.loadBalancing = .random) :
    Client.Sound crates rule { c with phase := .panicked (.pickBackend none) } := by
  have houtcome : c.Outcome crates rule := h.outcome
  rw [Client.Sound, hphase] at h
  exact ⟨⟨rfl, u, upstream, h.1, hupstream, hrandom⟩, houtcome⟩

variable (crates rule)

/-- What holds of the connections at any time. -/
structure Sound (s : Serving) : Prop where
  clients : ∀ c ∈ s.clients, c.Sound crates rule
  /-- Which upstreams use `Random` does not change. -/
  random : ∀ ⦃u : ℕ⦄ ⦃upstream : Upstream⦄, rule.upstreams.toList[u]? = some upstream →
    s.strategies[u]? = some .random → upstream.loadBalancing = .random

variable {crates rule}

theorem sound_start : (start rule).Sound crates rule where
  clients := fun _ hc => absurd hc List.not_mem_nil
  random := by
    intro u upstream hupstream hrandom
    rw [start, List.getElem?_map, hupstream, Option.map_some] at hrandom
    exact Option.some.inj hrandom

/-- To change one connection it is enough to look at that one. -/
theorem Sound.set {s : Serving} (h : s.Sound crates rule) {k : ℕ} {c' : Client}
    (hc' : c'.Sound crates rule) : ∀ c ∈ s.clients.set k c', c.Sound crates rule := by
  intro c hc
  rcases List.mem_or_eq_of_mem_set hc with hc | rfl
  · exact h.clients c hc
  · exact hc'

/-- **A step keeps the connections sound.** -/
theorem sound_of_step {s s' : Serving} {e : ServingEvent} (h : s.Sound crates rule)
    (hs : s.step crates rule e = some s') : s'.Sound crates rule := by
  cases Step.of_step hs with
  | accept peerAddr localAddr =>
    refine ⟨fun c hc => ?_, h.random⟩
    rcases List.mem_append.mp hc with hc | hc
    · exact h.clients c hc
    · obtain rfl := List.mem_singleton.mp hc
      exact Client.sound_start peerAddr localAddr
  | client hk hc =>
    exact ⟨h.set (Client.sound_of_step (h.clients _ (List.mem_of_getElem? hk)) hc), h.random⟩
  | @pick k u b now c upstream backend strategy strategy' hk hphase hupstream hstrategy hpick hb =>
    refine ⟨h.set (sound_of_pick (h.clients _ (List.mem_of_getElem? hk)) hphase hupstream hb), ?_⟩
    intro v up hup hrandom
    by_cases hv : u = v
    · subst hv
      obtain ⟨hlt, -⟩ := List.getElem?_eq_some_iff.mp hstrategy
      rw [List.getElem?_set_self hlt] at hrandom
      have hsame := strategy.pickBackend_random_iff crates.width now upstream.backends
      rw [hpick] at hsame
      exact h.random hup (hstrategy.trans (congrArg some (hsame.mp (Option.some.inj hrandom))))
    · rw [List.getElem?_set_ne hv] at hrandom
      exact h.random hup hrandom
  | pickPanic hk hphase hupstream hstrategy =>
    exact ⟨h.set (sound_of_pickPanic (h.clients _ (List.mem_of_getElem? hk)) hphase hupstream
      (h.random hupstream hstrategy)), h.random⟩

theorem sound_of_run {s : Serving} {es : List ServingEvent}
    (hrun : run (step crates rule) (start rule) es = some s) : s.Sound crates rule :=
  run_invariant (I := Sound crates rule) sound_start (fun _ _ _ => sound_of_step) hrun

/-- **Every connection is forwarded by itself, in order and to the right place.**  However
the connections of a rule interleave, and whatever the kernel and the other crates answer:
what a connection has sent is nothing, or to a backend of the first upstream that matches it,
and then a prefix of the header and of what was taken from its own client, which without TLS
termination is a prefix of what that client has sent.  A connection that is passed through
and has nothing waiting has sent the header and all of it.  And `handle_client` panics in three
situations only: `local_addr` fails, for an upstream with the proxy protocol; the clock shows a
time before the epoch, for an upstream with `Random`; or rustls reads through the cork with
room for less than five bytes, or into a buffer that is not initialised, for an upstream with
TLS termination. -/
theorem forwarded {s : Serving} {es : List ServingEvent}
    (hrun : run (step crates rule) (start rule) es = some s) {k : ℕ} {c : Client}
    (hk : s.clients[k]? = some c) :
    c.Forwarded crates rule ∧
      (c.phase = .passthrough → c.pipe = [] → c.queue = [] →
        ∃ upstream header, c.Attached crates rule upstream ∧
          c.HeaderFor crates upstream header ∧ c.out = header ++ c.arrived) ∧
      ∀ panic, c.phase = .panicked panic → c.Panics crates rule panic := by
  have hsound := (sound_of_run hrun).clients c (List.mem_of_getElem? hk)
  refine ⟨hsound.outcome.2, ?_, ?_⟩
  · intro hphase hpipe hqueue
    rw [Client.Sound, hphase] at hsound
    obtain ⟨upstream, header, hattached, hheader, hout, htaken⟩ := hsound
    rw [hpipe, List.append_nil] at hout
    rw [hqueue, List.append_nil] at htaken
    exact ⟨upstream, header, hattached, hheader, htaken ▸ hout⟩
  · intro panic hphase
    rw [Client.Sound, hphase] at hsound
    exact hsound.1

end Steps

/-- The header of the proxy protocol, version 2, around the addresses: the signature, the
version and the command, the family and the protocol, and the length. -/
def headerV2 (family : UInt8) (addresses : List UInt8) : List UInt8 :=
  [0x0d, 0x0a, 0x0d, 0x0a, 0x00, 0x0d, 0x0a, 0x51, 0x55, 0x49, 0x54, 0x0a, 0x21, family] ++
    BigEndian.bytes 2 addresses.length ++ addresses

/-- The header for a stream.  Addresses of two families are not given. -/
def proxyHeaderV2 (source destination : SocketAddr) : List UInt8 :=
  match source, destination with
  | .v4 a p, .v4 b q =>
      headerV2 0x11 (BigEndian.bytes 4 a.toNat ++ BigEndian.bytes 4 b.toNat ++
        BigEndian.bytes 2 p.toNat ++ BigEndian.bytes 2 q.toNat)
  | .v6 a p _ _, .v6 b q _ _ =>
      headerV2 0x21 (BigEndian.bytes 16 a.toNat ++ BigEndian.bytes 16 b.toNat ++
        BigEndian.bytes 2 p.toNat ++ BigEndian.bytes 2 q.toNat)
  | _, _ => headerV2 0x01 []

/-- A machine with pointers of 64 bits; the text is that of whole seconds. -/
def machine : Crates ClientHello.PlainMessage (List (Option String)) where
  rustls := Rustls.plain
  width := 64
  proxyHeader source destination := .ok (proxyHeaderV2 source destination)
  debugDuration nanos := toString (nanos / 1000000000) ++ "s"

/-- The upstream for `matchConfig` with three backends in turn, from the value `ix` of the
counter on, and the proxy protocol. -/
def inTurn (matchConfig : MatchConfig) (ix : ℕ) : Upstream where
  cfg :=
    { (MatchContext.upstreamFor "api" matchConfig).cfg with
      loadBalancing := .roundRobin
      proxyProtocol := true }
  backends := LoadBalancingStrategy.threeBackends
  loadBalancing := .roundRobin ix
  tlsAcceptor := none

/-- Three backends in turn, without TLS; the counter is about to wrap. -/
def threeInTurn : Rule := ⟨.tcp, ⟨inTurn .any 18446744073709551614, []⟩⟩

/-- `10.0.0.7:40000` -/
def peer : SocketAddr := .v4 0x0a000007 40000

/-- A connection that is served while another one is accepted. -/
def servedRun : List ServingEvent :=
  [.accept peer (some (.v4 0x0a000001 443)), .client 0 (.deliver [1, 2]),
    .client 0 (.options none), .accept peer none, .pick 0 (some 0),
    .client 0 (.connect .inProgress), .client 0 (.writable .connected), .client 0 (.write 20),
    .client 0 (.deliver [3]), .client 0 (.write 20), .client 0 (.splice 3), .client 0 (.flush 3)]

/-- One upstream for each place where `handle_client` panics. -/
def threePlaces : Rule where
  protocol := .tcp
  upstreams :=
    ⟨{ inTurn (.destinationPort 443) 0 with tlsAcceptor := Loader.secureUpstream.tlsAcceptor },
      [MatchContext.upstreamFor "random" (.destinationPort 80), inTurn .any 0]⟩

/-- The clock has been set to a time before the epoch, rustls reads with room for four bytes,
and the address of the last connection is not to be had. -/
def panickingRun : List ServingEvent :=
  [.accept peer (some (.v4 0x0a000001 443)), .accept peer (some (.v4 0x0a000001 80)),
    .accept peer none, .client 0 (.options none), .client 1 (.options none),
    .client 2 (.options none), .pick 0 none, .pick 1 none, .pick 2 none,
    .client 0 (.connect .ok), .client 2 (.connect .ok), .client 0 (.write 28),
    .client 0 (.deliver [22, 3, 1, 0, 1, 1]), .client 0 (.ask (.new 4) [.bytes 4])]

theorem forwarded_servedRun :
    (∃ s c, run (step machine threeInTurn) (start threeInTurn) servedRun = some s ∧
      s.clients[0]? = some c ∧
      c.out = [0x0d, 0x0a, 0x0d, 0x0a, 0x00, 0x0d, 0x0a, 0x51, 0x55, 0x49, 0x54, 0x0a, 0x21,
        0x11, 0, 12, 10, 0, 0, 7, 10, 0, 0, 1, 156, 64, 1, 187, 1, 2, 3] ∧
      c.Forwarded machine threeInTurn) ∧
    ∃ s, run (step machine threePlaces) (start threePlaces) panickingRun = some s ∧
      s.clients.map Client.panic? =
        [some (.cork (.new 4) "you found an edge case in ktls!"), some (.pickBackend none),
          some .localAddr] ∧
      ∀ c ∈ s.clients, ∀ panic, c.panic? = some panic → c.Panics machine threePlaces panic := by
  have hforwarded : ∀ {s c},
      run (step machine threeInTurn) (start threeInTurn) servedRun = some s →
      s.clients[0]? = some c → c.Forwarded machine threeInTurn :=
    fun hrun hk => (forwarded hrun hk).1
  refine ⟨⟨_, _, rfl, rfl, rfl, hforwarded rfl rfl⟩, ?_⟩
  have hview : (run (step machine threePlaces) (start threePlaces) panickingRun).map
      (fun s => s.clients.map Client.panic?) =
        some [some (.cork (.new 4) "you found an edge case in ktls!"), some (.pickBackend none),
          some .localAddr] := by decide +kernel
  obtain ⟨s, hrun, hpanics⟩ := Option.map_eq_some_iff.mp hview
  refine ⟨s, hrun, hpanics, fun c hc panic hpanic => ?_⟩
  obtain ⟨k, hk⟩ := List.mem_iff_getElem?.mp hc
  exact (forwarded hrun hk).2.2 panic (Client.phase_of_panic? hpanic)

section Steps

variable {μ σ : Type} {crates : Crates μ σ} {rule : Rule}

/-! ## All of them -/

/-- Where the connections have been routed to. -/
def routes (s : Serving) : List (Option (ℕ × ℕ)) := s.clients.map Client.route

/-- How many have been routed to the backend at position `p` of the upstream `u`. -/
def served (s : Serving) (u p : ℕ) : ℕ := s.routes.countP fun route => route == some (u, p)

/-- How many have been routed to the upstream `u`. -/
def total (s : Serving) (u : ℕ) : ℕ := s.routes.countP fun route => route.any (·.1 == u)

theorem countP_set_of_none {α : Type} {l : List (Option α)} {k : ℕ} {P : Option α → Bool}
    (hP : P none = false) (hk : l[k]? = some none) (a : Option α) :
    (l.set k a).countP P = l.countP P + if P a then 1 else 0 := by
  obtain ⟨hlt, hnone⟩ := List.getElem?_eq_some_iff.mp hk
  rw [List.countP_set hlt, hnone, hP]
  simp

/-- Only a pick changes how the connections are distributed, and it adds one. -/
theorem routes_set {s : Serving} {k : ℕ} {c c' : Client} (hk : s.clients[k]? = some c)
    (hroute : c'.route = c.route) :
    routes { s with clients := s.clients.set k c' } = s.routes := by
  obtain ⟨hlt, rfl⟩ := List.getElem?_eq_some_iff.mp hk
  have hlen : k < s.routes.length := by rwa [routes, List.length_map]
  have hsame : s.routes[k] = s.clients[k].route := List.getElem_map _
  rw [routes, List.map_set, hroute, ← hsame]
  exact List.set_getElem_self hlen

variable (crates rule)

/-- The counters follow the connections: the counter of an upstream has advanced by one for
each connection that was routed there, and they are distributed as the counter's values. -/
def Counted (s : Serving) : Prop :=
  ∀ ⦃u upstream c⦄, rule.upstreams.toList[u]? = some upstream →
    upstream.loadBalancing = .roundRobin c → c < 2 ^ crates.width →
      s.strategies[u]? = some (.roundRobin ((c + s.total u) % 2 ^ crates.width)) ∧
        ∀ p, s.served u p = tally (2 ^ crates.width) upstream.backends.len c (s.total u) p

variable {crates rule}

theorem counted_start : (start rule).Counted crates rule := by
  intro u upstream c hupstream hstrategy hc
  have hstart : (start rule).strategies[u]? = some (.roundRobin c) := by
    rw [start, List.getElem?_map, hupstream, Option.map_some, hstrategy]
  have htotal : (start rule).total u = 0 := rfl
  refine ⟨?_, fun p => ?_⟩
  · rw [hstart, htotal, Nat.add_zero, Nat.mod_eq_of_lt hc]
  · rw [htotal]
    rfl

/-- The pick of a round-robin upstream. -/
theorem pickBackend_roundRobin {w ix b : ℕ} {now : Option ℕ} {backends : NonEmpty Backend}
    {backend : Backend} {strategy' : LoadBalancingStrategy}
    (h : LoadBalancingStrategy.pickBackend w (.roundRobin ix) now backends =
      (some (b, backend), strategy')) :
    b = ix % backends.len ∧ strategy' = .roundRobin ((ix + 1) % 2 ^ w) := by
  obtain ⟨hindex, rfl⟩ := Prod.mk.inj h
  obtain ⟨a, -, hpair⟩ := Option.map_eq_some_iff.mp hindex
  exact ⟨(Prod.mk.inj hpair).1.symm, rfl⟩

section Pick

variable {s : Serving} {k u b : ℕ} {c : Client} {upstream : Upstream} {backend : Backend}
  {strategies : List LoadBalancingStrategy}

/-- The connections after a pick of the connection `k`. -/
theorem countP_routes_pick {P : Option (ℕ × ℕ) → Bool} (hP : P none = false)
    (hk : s.clients[k]? = some c) (hroute : c.route = none) :
    (routes ⟨strategies, s.clients.set k
      { c with route := some (u, b), phase := .connect upstream backend }⟩).countP P =
        s.routes.countP P + if P (some (u, b)) then 1 else 0 := by
  have hnone : s.routes[k]? = some none := by
    rw [routes, List.getElem?_map, hk, Option.map_some, hroute]
  rw [routes, List.map_set]
  exact countP_set_of_none hP hnone _

theorem total_pick (hk : s.clients[k]? = some c) (hroute : c.route = none) (v : ℕ) :
    total ⟨strategies, s.clients.set k
      { c with route := some (u, b), phase := .connect upstream backend }⟩ v =
        s.total v + if u = v then 1 else 0 := by
  rw [total, countP_routes_pick rfl hk hroute]
  simp [total]

theorem served_pick (hk : s.clients[k]? = some c) (hroute : c.route = none) (v p : ℕ) :
    served ⟨strategies, s.clients.set k
      { c with route := some (u, b), phase := .connect upstream backend }⟩ v p =
        s.served v p + if u = v ∧ b = p then 1 else 0 := by
  rw [served, countP_routes_pick rfl hk hroute]
  simp [served]

/-- A pick of the upstream `u` advances its counter, and no other. -/
theorem counted_of_pick {now : Option ℕ} {strategy strategy' : LoadBalancingStrategy}
    (h : s.Counted crates rule) (hk : s.clients[k]? = some c) (hroute : c.route = none)
    (hupstream : rule.upstreams.toList[u]? = some upstream)
    (hstrategy : s.strategies[u]? = some strategy)
    (hpick : strategy.pickBackend crates.width now upstream.backends =
      (some (b, backend), strategy')) :
    Counted crates rule ⟨s.strategies.set u strategy', s.clients.set k
      { c with route := some (u, b), phase := .connect upstream backend }⟩ := by
  intro v up c₀ hup hrobin hc₀
  obtain ⟨hcounter, hserved⟩ := h hup hrobin hc₀
  simp only [total_pick hk hroute, served_pick hk hroute]
  by_cases hv : u = v
  · subst hv
    obtain rfl := Option.some.inj (hupstream.symm.trans hup)
    obtain rfl := Option.some.inj (hstrategy.symm.trans hcounter)
    obtain ⟨rfl, rfl⟩ := pickBackend_roundRobin hpick
    have hlt : u < s.strategies.length := (List.getElem?_eq_some_iff.mp hstrategy).1
    refine ⟨?_, fun p => ?_⟩
    · rw [List.getElem?_set_self hlt, if_pos rfl, Nat.mod_add_mod, Nat.add_assoc]
    · rw [if_pos rfl, tally_succ, hserved p, residue]
      simp only [true_and]
  · simp only [hv, false_and, if_false, Nat.add_zero]
    exact ⟨by rw [List.getElem?_set_ne hv, hcounter], hserved⟩

end Pick

/-- The count is a matter of the strategies and the routes. -/
theorem Counted.of_routes {s s' : Serving} (h : s.Counted crates rule)
    (hstrategies : s'.strategies = s.strategies)
    (hroutes : ∀ P : Option (ℕ × ℕ) → Bool, P none = false →
      s'.routes.countP P = s.routes.countP P) : s'.Counted crates rule := by
  intro u upstream c hupstream hrobin hc
  have htotal : s'.total u = s.total u := hroutes _ rfl
  have hserved : ∀ p, s'.served u p = s.served u p := fun p => hroutes _ rfl
  simp only [hstrategies, htotal, hserved]
  exact h hupstream hrobin hc

/-- **A step keeps the count.** -/
theorem counted_of_step {s s' : Serving} {e : ServingEvent} (hsound : s.Sound crates rule)
    (h : s.Counted crates rule) (hs : s.step crates rule e = some s') :
    s'.Counted crates rule := by
  cases Step.of_step hs with
  | accept peerAddr localAddr =>
    refine h.of_routes rfl fun P hP => ?_
    have hroutes : routes { s with clients := s.clients ++ [.start peerAddr localAddr] } =
        s.routes ++ [none] := by
      rw [routes, List.map_append]
      rfl
    rw [hroutes, List.countP_append, List.countP_singleton, hP]
    rfl
  | client hk hc =>
    exact h.of_routes rfl fun P _ => congrArg _ (routes_set hk (Client.route_of_step hc))
  | pick hk hphase hupstream hstrategy hpick hb =>
    have hclient := hsound.clients _ (List.mem_of_getElem? hk)
    rw [Client.Sound, hphase] at hclient
    exact counted_of_pick h hk hclient.2.1 hupstream hstrategy hpick
  | pickPanic hk hphase hupstream hstrategy =>
    exact h.of_routes rfl fun P _ => congrArg _ (routes_set hk rfl)

theorem counted_of_run {s : Serving} {es : List ServingEvent}
    (hrun : run (step crates rule) (start rule) es = some s) : s.Counted crates rule :=
  (run_invariant (I := fun s => s.Sound crates rule ∧ s.Counted crates rule)
    ⟨sound_start, counted_start⟩
    (fun _ _ _ h hs => ⟨sound_of_step h.1 hs, counted_of_step h.1 h.2 hs⟩) hrun).2

/-- **The load is balanced, up to the wraps of the counter.**  However the connections of a
rule interleave, whether they reach their backend, and whenever they end: of the connections
routed to an upstream that balances in turn, no backend has been given more than another, but
for one, and for one more each time that the counter has wrapped. -/
theorem balanced {s : Serving} {es : List ServingEvent}
    (hrun : run (step crates rule) (start rule) es = some s) {u c : ℕ} {upstream : Upstream}
    (hupstream : rule.upstreams.toList[u]? = some upstream)
    (hrobin : upstream.loadBalancing = .roundRobin c) (hc : c < 2 ^ crates.width) {p q : ℕ}
    (hp : p < upstream.backends.len) (hq : q < upstream.backends.len) :
    s.served u p ≤ s.served u q + (c + s.total u) / 2 ^ crates.width + 1 := by
  obtain ⟨-, hserved⟩ := counted_of_run hrun hupstream hrobin hc
  rw [hserved p, hserved q]
  exact tally_le hc hp hq

end Steps

/-- The connections up to their backend. -/
def routedRun : List ServingEvent :=
  [.accept peer none, .accept peer none, .client 1 (.options none), .client 0 (.options none),
    .pick 1 none, .accept peer none, .client 2 (.options none), .pick 2 (some 0),
    .client 1 (.connect (.err ["Connection refused (os error 111)"])), .pick 0 (some 0)]

/-- Across a wrap the bound is reached: two connections for one backend, and none for another. -/
theorem balanced_routedRun :
    ∃ s, run (step machine threeInTurn) (start threeInTurn) routedRun = some s ∧
      s.served 0 0 = 2 ∧ s.served 0 1 = 0 ∧ s.total 0 = 3 ∧
      s.served 0 0 ≤ s.served 0 1 + (18446744073709551614 + s.total 0) / 2 ^ 64 + 1 := by
  have hbalanced : ∀ {s},
      run (step machine threeInTurn) (start threeInTurn) routedRun = some s →
      s.served 0 0 ≤ s.served 0 1 + (18446744073709551614 + s.total 0) / 2 ^ 64 + 1 :=
    fun hrun => balanced hrun rfl rfl (by decide) (by decide) (by decide)
  exact ⟨_, rfl, rfl, rfl, rfl, hbalanced rfl⟩

end Serving
end Turbine
