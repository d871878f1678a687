import Turbine.ClientHello
import Turbine.Lib.Runs

/-!
# Choosing an upstream

What is known of a connection when its upstream is chosen is a `MatchContext`: the server
name and the protocol list of its ClientHello, if the rule is a TLS one and they were
there, and the address it was accepted on.  The first upstream of the rule whose match
accepts the context is the one.

For a TLS rule the ClientHello is read with `extract_tls_info`, which waits until the
socket is readable, *peeks* once, and gives what it got to a rustls deframer.  The bytes
stay in the receive queue, for whoever terminates the TLS session.  Of rustls the function
uses `MessageDeframer::read`, which offers a buffer of a certain size to one `read` call,
`pop`, which gives a message once the bytes hold a whole record, and the parsed message;
these are the fields of `Rustls`, and `IsClientHello` says what they do on the record that
the client sends.  `isClientHello_plain` is that rustls does it, on every record that has a
ClientHello in it.

A client's segments reach the receive queue at any time, before and between the steps of
the function.  `extract_iff` says when it finds the server name: exactly when the whole
record is in the queue at the instant of the peek, and fits the buffer.
-/

namespace Turbine

/-- `MatchContext`. -/
structure MatchContext where
  sni : Option String
  alpns : Option (List (List UInt8))
  destination : SocketAddr

namespace MatchContext

/-- `MatchContext::new`, with what `local_addr` answered. -/
def new (localAddr : Option SocketAddr) (sni : Option String)
    (alpn : Option (List (List UInt8))) : MatchContext :=
  ⟨sni, alpn, localAddr.getD (.v4 0 0)⟩

/-- The closure of `find_matching_upstream`, on the match of an upstream. -/
def accepts (ctx : MatchContext) : MatchConfig → Bool
  | .any => true
  | .none => false
  | .sni sni => (ctx.sni.map fun cnxSni => cnxSni == sni).getD false
  | .sniRegex sni => (ctx.sni.map fun cnxSni => sni.isMatch cnxSni).getD false
  | .sniRegexNot sni => (ctx.sni.map fun cnxSni => !sni.isMatch cnxSni).getD false
  | .destinationPort dport => ctx.destination.port == dport
  | .alpn alpn =>
      match ctx.alpns with
      | .none => false
      | some cnxAlpn => cnxAlpn.any fun cnxAlpn => cnxAlpn == asBytes alpn

/-- `MatchContext::find_matching_upstream`. -/
def findMatchingUpstream (ctx : MatchContext) (upstreams : NonEmpty Upstream) :
    Option Upstream :=
  upstreams.toList.find? fun upstream => ctx.accepts upstream.cfg.matchConfig

end MatchContext

/-- What `extract_tls_info` gives: the server name and the protocol list. -/
abbrev TlsInfo := Option String × Option (List (List UInt8))

/-- The first part of `handle_client`: the context of the connection and the upstream for
it; `ok none` is the connection that is dropped with a warning. -/
def chooseUpstream (rule : Rule) (localAddr : Option SocketAddr)
    (extracted : Except Error TlsInfo) : Except Error (Option Upstream) :=
  match rule.protocol with
  | .tls => do
      let (sni, alpns) ← extracted
      return (MatchContext.new localAddr sni alpns).findMatchingUpstream rule.upstreams
  | .tcp => return (MatchContext.new localAddr none none).findMatchingUpstream rule.upstreams

/-! ## Reading the ClientHello -/

/-- `PeekableStream::read`: a copy of the first bytes of the receive queue, which must not
be empty. -/
def peek (size : ℕ) (queue : List UInt8) : Except Error (List UInt8) :=
  match queue with
  | [] => .error ["Resource temporarily unavailable (os error 11)"]
  | b :: bs => .ok ((b :: bs).take size)

/-- Where `extract_tls_info` stands: waiting in `readable()`, about to peek, or back. -/
inductive ExtractPoint where
  | readable
  | peek
  | done (result : Except Error TlsInfo)

/-- A connection whose ClientHello is being read. -/
structure Extract where
  /-- The receive queue of the socket. -/
  queue : List UInt8
  point : ExtractPoint

/-- What happens: a segment of the client arrives, `readable()` returns, or the peek is
made and everything after it. -/
inductive ExtractEvent where
  | deliver (segment : List UInt8)
  | readable
  | peek

namespace Rustls

open Runs

variable {μ σ : Type} (R : Rustls μ σ)

/-- `extract_tls_info` after `readable()`, on what is then in the receive queue. -/
def extract (queue : List UInt8) : Except Error TlsInfo := do
  let bytes ← peek R.readSize queue
  match ← R.pop bytes with
  | none => throw ["No TLS frame read"]
  | some msg =>
      match ← R.tryFrom msg with
      | .handshake (.clientHello snvNames alpns) =>
          return (snvNames.bind R.getSingleHostname, alpns)
      | .handshake (.other msg) =>
          throw ["Invalid TLS msg, expecting client hello handshake: " ++ msg]
      | .other msg => throw ["Invalid TLS msg, expecting client hello handshake: " ++ msg]

/-- One step. -/
def step (s : Extract) : ExtractEvent → Option Extract
  | .deliver segment => some { s with queue := s.queue ++ segment }
  | .readable =>
      match s.point with
      | .readable => if s.queue = [] then none else some { s with point := .peek }
      | _ => none
  | .peek =>
      match s.point with
      | .peek => some { s with point := .done (R.extract s.queue) }
      | _ => none

/-- `B` is one whole ClientHello record with this server name and this protocol list: the
deframer gives its message for `B`, and nothing for less than `B`. -/
structure IsClientHello (B : List UInt8) (sni : Option String)
    (alpns : Option (List (List UInt8))) : Prop where
  ne_nil : B ≠ []
  complete : ∃ msg snvNames, R.pop B = .ok (some msg) ∧
    R.tryFrom msg = .ok (.handshake (.clientHello snvNames alpns)) ∧
    snvNames.bind R.getSingleHostname = sni
  incomplete : ∀ P, P <+: B → P ≠ B → R.pop P = .ok none

/-- What has been delivered. -/
def delivered : List ExtractEvent → List UInt8
  | [] => []
  | .deliver segment :: es => segment ++ delivered es
  | _ :: es => delivered es

theorem delivered_append (es es' : List ExtractEvent) :
    delivered (es ++ es') = delivered es ++ delivered es' := by
  induction es with
  | nil => rfl
  | cons e es ih =>
    cases e with
    | deliver segment => rw [List.cons_append, delivered, ih, delivered, List.append_assoc]
    | _ => exact ih

/-- Nothing is taken out of the receive queue. -/
theorem queue_of_run {es : List ExtractEvent} {s : Extract}
    (h : run R.step ⟨[], .readable⟩ es = some s) : s.queue = delivered es := by
  refine run_induction (motive := fun es s => s.queue = delivered es) rfl ?_ h
  intro es e s t _ ih ht
  rw [delivered_append]
  cases e with
  | deliver segment =>
    obtain rfl := Option.some.inj ht
    simp only [delivered, List.append_nil, ih]
  | readable =>
    simp only [step] at ht
    split at ht
    · obtain ⟨-, ht'⟩ := Option.ite_none_left_eq_some.mp ht
      obtain rfl := Option.some.inj ht'
      simp only [delivered, List.append_nil, ih]
    · exact absurd ht (by simp)
  | peek =>
    simp only [step] at ht
    split at ht
    · obtain rfl := Option.some.inj ht
      simp only [delivered, List.append_nil, ih]
    · exact absurd ht (by simp)

/-- A result comes from one peek, at what had been delivered by then. -/
theorem extract_of_run {es : List ExtractEvent} {s : Extract}
    (h : run R.step ⟨[], .readable⟩ es = some s) {r : Except Error TlsInfo}
    (hr : s.point = .done r) :
    ∃ pre post, es = pre ++ .peek :: post ∧ r = R.extract (delivered pre) := by
  refine run_induction (motive := fun es s => s.point = .done r →
    ∃ pre post, es = pre ++ .peek :: post ∧ r = R.extract (delivered pre)) ?_ ?_ h hr
  · intro hr
    exact absurd hr (by simp)
  · intro es e s t hs ih ht hr
    have hkeep : t.point = s.point →
        ∃ pre post, es ++ [e] = pre ++ .peek :: post ∧ r = R.extract (delivered pre) := by
      intro hpoint
      obtain ⟨pre, post, rfl, hex⟩ := ih (hpoint.symm.trans hr)
      exact ⟨pre, post ++ [e], by simp, hex⟩
    cases e with
    | deliver segment =>
      obtain rfl := Option.some.inj ht
      exact hkeep rfl
    | readable =>
      simp only [step] at ht
      split at ht
      · obtain ⟨-, ht'⟩ := Option.ite_none_left_eq_some.mp ht
        obtain rfl := Option.some.inj ht'
        exact absurd hr (by simp)
      · exact absurd ht (by simp)
    | peek =>
      simp only [step] at ht
      split at ht
      · obtain rfl := Option.some.inj ht
        refine ⟨es, [], rfl, ?_⟩
        rw [← R.queue_of_run hs]
        exact (ExtractPoint.done.inj hr).symm
      · exact absurd ht (by simp)

variable {R} {B : List UInt8} {sni : Option String} {alpns : Option (List (List UInt8))}

/-- With all of the record in the receive queue, and room for it. -/
theorem IsClientHello.extract_eq (hB : R.IsClientHello B sni alpns)
    (hsize : B.length ≤ R.readSize) :
    R.extract B = .ok (sni, alpns) := by
  obtain ⟨msg, snvNames, hpop, htry, hname⟩ := hB.complete
  have hpeek : peek R.readSize B = .ok B := by
    cases hb : B with
    | nil => exact absurd hb hB.ne_nil
    | cons b bs => rw [peek, List.take_of_length_le (hb ▸ hsize)]
  simp only [extract, hpeek, hpop, htry, bind, Except.bind, pure, Except.pure, hname]

/-- With less than the record, or no room for it. -/
theorem IsClientHello.extract_ne (hB : R.IsClientHello B sni alpns) {Q : List UInt8}
    (hQ : Q <+: B) (hne : Q.take R.readSize ≠ B) : ∃ e, R.extract Q = .error e := by
  cases Q with
  | nil => exact ⟨_, rfl⟩
  | cons b bs =>
    have hpre : (b :: bs).take R.readSize <+: B := (List.take_prefix _ _).trans hQ
    have hpop := hB.incomplete _ hpre hne
    refine ⟨["No TLS frame read"], ?_⟩
    simp only [extract, peek, hpop, bind, Except.bind]
    rfl

/-- The server name is found exactly on the whole record, if it fits. -/
theorem IsClientHello.extract_eq_iff (hB : R.IsClientHello B sni alpns) {Q : List UInt8}
    (hQ : Q <+: B) : R.extract Q = .ok (sni, alpns) ↔ Q = B ∧ B.length ≤ R.readSize := by
  constructor
  · intro hex
    by_contra hnot
    have hne : Q.take R.readSize ≠ B := by
      intro heq
      have hlen : B.length ≤ Q.length := heq ▸ (List.take_prefix _ _).length_le
      have hwhole : Q = B := hQ.eq_of_length_le hlen
      subst hwhole
      refine hnot ⟨rfl, ?_⟩
      have htake := congrArg List.length heq
      rw [List.length_take] at htake
      omega
    obtain ⟨e, he⟩ := hB.extract_ne hQ hne
    exact absurd (hex.symm.trans he) (by simp)
  · rintro ⟨rfl, hsize⟩
    exact hB.extract_eq hsize

/-- **The server name of a ClientHello is found exactly when all of it is there at the
peek.**  Whatever the segments in which the record `B` is delivered and whenever they
come: a result of `extract_tls_info` comes from one peek, and it is the server name and the
protocol list of `B` if and only if all of `B` was in the receive queue by then, and fits
the buffer of the deframer; and then the upstream is the one chosen for them. -/
theorem extract_iff (R : Rustls μ σ) (B : List UInt8) (sni : Option String)
    (alpns : Option (List (List UInt8))) (hB : R.IsClientHello B sni alpns)
    (rule : Rule) (hrule : rule.protocol = .tls) (localAddr : Option SocketAddr)
    (es : List ExtractEvent) (s : Extract) (h : run R.step ⟨[], .readable⟩ es = some s)
    (hes : delivered es <+: B) (r : Except Error TlsInfo) (hr : s.point = .done r) :
    ∃ pre post, es = pre ++ .peek :: post ∧
      (r = .ok (sni, alpns) ↔ delivered pre = B ∧ B.length ≤ R.readSize) ∧
      (delivered pre = B ∧ B.length ≤ R.readSize →
        chooseUpstream rule localAddr r =
          .ok ((MatchContext.new localAddr sni alpns).findMatchingUpstream rule.upstreams)) := by
  obtain ⟨pre, post, rfl, rfl⟩ := R.extract_of_run h hr
  have hpre : delivered pre <+: B := by
    refine List.IsPrefix.trans ?_ hes
    rw [delivered_append]
    exact List.prefix_append _ _
  have hiff := hB.extract_eq_iff hpre
  refine ⟨pre, post, rfl, hiff, fun hwhole => ?_⟩
  simp only [chooseUpstream, hrule, hiff.mpr hwhole, bind, Except.bind, pure, Except.pure]

/-! ## A ClientHello in two segments -/

/-- **rustls reads every ClientHello.**  A plain handshake record whose payload is one whole
message, and the message a ClientHello, is popped when all of it is there and not before. -/
theorem isClientHello_plain {μ : Type} {r : Record μ} {names : Option (List (Option String))}
    {alpns : Option (List (List UInt8))} (hr : ClientHello.IsHandshake r)
    (hsize : ClientHello.payloadSize r.payload = .ok (some r.payload.length))
    (hmsg : ClientHello.message ⟨22, r.payload⟩ = .ok (.handshake (.clientHello names alpns))) :
    plain.IsClientHello (Records.encode r) (names.bind plain.getSingleHostname) alpns where
  ne_nil := by
    rw [hr.encode_eq]
    exact List.cons_ne_nil _ _
  complete := by
    refine ⟨⟨22, r.payload⟩, names, ?_, hmsg, rfl⟩
    show ClientHello.pop (Records.encode r).length none (Records.encode r) = _
    rw [Records.length_encode, Nat.add_comm]
    exact hr.pop_encode hsize (r.payload.length + 4)
  incomplete := fun P hP hne => hr.pop_of_prefix hP hne P.length

/-- The record of a ClientHello, of TLS 1.2 with one cipher suite, the server name
`secure.example` and the protocol `h2`. -/
def secureRecord : Record Unit where
  typ := 22
  major := 3
  minor := 1
  payload :=
    [1, 0, 0, 159, 3, 3, 149, 50, 134, 51, 184, 249, 14, 61, 248, 181, 29, 76, 37, 98, 194, 74,
      159, 193, 212, 164, 28, 24, 187, 109, 166, 102, 187, 173, 50, 112, 10, 84, 0, 0, 4, 192,
      47, 0, 255, 1, 0, 0, 114, 0, 0, 0, 19, 0, 17, 0, 0, 14, 115, 101, 99, 117, 114, 101, 46,
      101, 120, 97, 109, 112, 108, 101, 0, 11, 0, 4, 3, 0, 1, 2, 0, 10, 0, 12, 0, 10, 0, 29, 0,
      23, 0, 30, 0, 25, 0, 24, 0, 35, 0, 0, 0, 16, 0, 5, 0, 3, 2, 104, 50, 0, 22, 0, 0, 0, 23, 0,
      0, 0, 13, 0, 42, 0, 40, 4, 3, 5, 3, 6, 3, 8, 7, 8, 8, 8, 9, 8, 10, 8, 11, 8, 4, 8, 5, 8, 6,
      4, 1, 5, 1, 6, 1, 3, 3, 3, 1, 3, 2, 4, 2, 5, 2, 6, 2]
  content := ()
  length_lt := by decide +kernel

/-- Its 168 bytes. -/
def secureHello : List UInt8 := Records.encode secureRecord

theorem isClientHello_secureHello :
    plain.IsClientHello secureHello (some "secure.example") (some [[104, 50]]) := by
  have hr : ClientHello.IsHandshake secureRecord := ⟨rfl, rfl, by decide +kernel, by decide +kernel⟩
  have hmsg : ClientHello.message ⟨22, secureRecord.payload⟩ =
      .ok (.handshake (.clientHello (some [some "secure.example"]) (some [[104, 50]]))) := by
    decide +kernel
  exact isClientHello_plain hr (by decide +kernel) hmsg

/-- A TLS rule with one upstream, for one server name. -/
def secureRule : Rule where
  protocol := .tls
  upstreams := ⟨⟨Loader.secure, ⟨⟨localAddrV4⟩, []⟩, .roundRobin 0, none⟩, []⟩

theorem extract_iff_secureHello :
    ∃ s r, run plain.step ⟨[], .readable⟩ [.deliver secureHello, .readable, .peek] = some s ∧
      s.point = .done r ∧ r = .ok (some "secure.example", some [[104, 50]]) ∧
      ∃ pre post, [.deliver secureHello, .readable, .peek] = pre ++ ExtractEvent.peek :: post ∧
        delivered pre = secureHello ∧ secureHello.length ≤ 4096 := by
  refine ⟨_, _, rfl, rfl, isClientHello_secureHello.extract_eq (by decide +kernel), ?_⟩
  obtain ⟨pre, post, heq, hiff, -⟩ := extract_iff plain secureHello _ _ isClientHello_secureHello
    secureRule rfl none [.deliver secureHello, .readable, .peek] _ rfl (List.prefix_refl _) _ rfl
  exact ⟨pre, post, heq, hiff.mp (isClientHello_secureHello.extract_eq (by decide +kernel))⟩

/-- **The second segment comes too late.**  The same ClientHello is routed when it comes
in one piece; in two, with the peek in between, the connection ends with an error. -/
theorem not_extract_two_segments :
    (∃ s r, run plain.step ⟨[], .readable⟩ [.deliver secureHello, .readable, .peek] = some s ∧
      s.point = .done r ∧ r = .ok (some "secure.example", some [[104, 50]]) ∧
      chooseUpstream secureRule none r = .ok (some secureRule.upstreams.head)) ∧
    (∃ s r, run plain.step ⟨[], .readable⟩ [.deliver (secureHello.take 100), .readable, .peek,
        .deliver (secureHello.drop 100)] = some s ∧
      s.queue = secureHello ∧ s.point = .done r ∧ r = .error ["No TLS frame read"] ∧
      chooseUpstream secureRule none r = .error ["No TLS frame read"]) := by
  have hone : plain.extract secureHello = .ok (some "secure.example", some [[104, 50]]) :=
    isClientHello_secureHello.extract_eq (by decide +kernel)
  have htwo : plain.extract (secureHello.take 100) = .error ["No TLS frame read"] := by
    decide +kernel
  refine ⟨⟨_, _, rfl, rfl, hone, ?_⟩, ⟨_, _, rfl, List.take_append_drop 100 _, rfl, htwo, ?_⟩⟩
  · rw [show plain.extract ([] ++ secureHello) = _ from hone]
    rfl
  · rw [show plain.extract ([] ++ secureHello.take 100) = _ from htwo]
    rfl

end Rustls
end Turbine
