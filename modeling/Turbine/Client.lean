import Turbine.Ktls.CorkCalls
import Turbine.LoadBalancing
import Turbine.ServerName
import Turbine.Transfer

/-!
# One connection: `handle_client`

A connection goes through `handle_client` from top to bottom, and waits at many places: for
the first bytes of the client, for the backend to accept, for room to write, for the TLS
handshake.  While it waits, the client goes on sending.  `Client` is the connection with the
place it has come to, and a step is what happens between two such places; whatever the kernel
and the other crates answer is part of the step.  The function can end early at many places:
with the errors behind each `?`, those of the peek among them, with the texts that are made up
on the way, and without an error for a connection that no upstream matches.

It can panic at three places.  `local_addr` is unwrapped for the header of the proxy protocol;
`Random` unwraps the time since the epoch; and during the handshake and the drain rustls reads
through the cork, which has to be given room for the five bytes of a header, in a buffer that
is initialised.  The buffer is for rustls to choose, so a read comes with any buffer, and
`CorkStream.pollReadBuf` is run on it.  The transfer that follows is made by another crate, and
is no more here than the bytes it moves.

One operation reaches outside of the connection.  `pick_backend` takes a turn from a counter
that all connections of the rule share, so it is not among the steps here; `Serving` has it.

Four sequences of bytes are kept.  `arrived` is all that the client has sent so far; `queue`
what is still in the receive queue of its socket; `taken` what has been taken from it to be
forwarded, which under TLS termination is plain text; and `out` what the backend has been
sent.  `Sound` says what holds of them at each place, and `Forwarded` what comes of it: the
backend is sent the header of the proxy protocol, if there is to be one, and then the bytes of
the client, in order and without a gap, whatever happened on the way.
-/

namespace Turbine

/-- What is used of other crates and of the machine. -/
structure Crates (μ σ : Type) where
  rustls : Rustls μ σ
  /-- `usize::BITS`. -/
  width : ℕ
  /-- `ppp::v2::Builder::with_addresses(..).build()`, for the source and the destination. -/
  proxyHeader : SocketAddr → SocketAddr → Except Error (List UInt8)
  /-- `{:?}` of a duration. -/
  debugDuration : ℕ → String

/-- What `connect` answers. -/
inductive Connect where
  | ok
  /-- `EINPROGRESS` -/
  | inProgress
  /-- any other error, or one of `create_socket` -/
  | err (e : Error)

/-- How the wait for a connection in progress ends. -/
inductive Writable where
  /-- `connect_timeout` has elapsed -/
  | elapsed (e : Error)
  /-- `writable` or `take_error` fails -/
  | err (e : Error)
  /-- `SO_ERROR` is set, with its `Debug` text -/
  | soError (debug : String)
  | connected

/-- The places where `handle_client` panics. -/
inductive ClientPanic where
  /-- the `unwrap` of `local_addr` -/
  | localAddr
  /-- `pick_backend`, with what the clock showed -/
  | pickBackend (now : Option ℕ)
  /-- `CorkStream::poll_read`, with the buffer that rustls gave it -/
  | cork (buf : ReadBuf) (message : String)
  deriving DecidableEq

/-- The place that `handle_client` has come to. -/
inductive ClientPhase where
  /-- `set_nodelay` and `set_tcp_keepalive` -/
  | options
  /-- `readable()` in `extract_tls_info` -/
  | readable
  /-- the peek, and everything after it up to the choice of an upstream -/
  | peek
  /-- `pick_backend`, for the upstream at position `u` -/
  | pick (u : ℕ)
  /-- `create_socket` and `connect` -/
  | connect (upstream : Upstream) (backend : Backend)
  /-- the wait after `EINPROGRESS` -/
  | connecting (upstream : Upstream)
  /-- `write_all` of the proxy header, with what is left of it -/
  | header (upstream : Upstream) (rest : List UInt8)
  /-- `splice_bidirectional` -/
  | passthrough
  /-- `accept` and `config_ktls_server`, with what is set and kept in the cork -/
  | accepting (corked : Bool) (state : CorkState)
  /-- `write_all` of the drained data, with what is left of it -/
  | drain (rest : List UInt8)
  /-- the transfer loop after TLS termination -/
  | terminated
  | ended (result : Except Error Unit)
  | panicked (panic : ClientPanic)

/-- A connection in the hands of `handle_client`. -/
structure Client where
  peerAddr : SocketAddr
  /-- What `local_addr` answers. -/
  localAddr : Option SocketAddr
  phase : ClientPhase
  matchContext : Option MatchContext
  /-- The positions of the upstream and of the backend. -/
  route : Option (ℕ × ℕ)
  /-- The address that the socket for the backend was bound to. -/
  bound : Option SocketAddr
  /-- The address that `connect` was called with. -/
  remote : Option SocketAddr
  arrived : List UInt8
  queue : List UInt8
  taken : List UInt8
  /-- What has been taken and not been sent yet. -/
  pipe : List UInt8
  out : List UInt8

/-- What happens to a connection. -/
inductive ClientEvent where
  /-- the client's bytes arrive -/
  | deliver (segment : List UInt8)
  | options (answer : Option Error)
  | readable (answer : Option Error)
  /-- the peek finds that the client has closed before it sent anything -/
  | hangup
  | peek (answer : Option Error)
  | connect (answer : Connect)
  | writable (answer : Writable)
  /-- a write of `write_all` takes `n` bytes -/
  | write (n : ℕ)
  /-- what is waited for fails -/
  | fail (e : Error)
  /-- `splice` takes `n` bytes from the client's socket -/
  | splice (n : ℕ)
  /-- `splice` puts `n` bytes into the backend's socket -/
  | flush (n : ℕ)
  /-- rustls reads through the cork, when the socket has `arrivals` for it -/
  | ask (buf : ReadBuf) (arrivals : List Arrival)
  /-- the handshake is over, and `config_ktls_server` sets the cork -/
  | cork
  /-- the session has been handed over to the kernel, with the drained data -/
  | accepted (drain : Option (List UInt8))
  /-- `splice` takes decrypted bytes, for `n` bytes of the client's socket -/
  | decrypt (n : ℕ) (bytes : List UInt8)
  /-- how a call of `zero_copy_bidirectional` ends, with `cnx_max_duration` running beside it -/
  | transfer (closing : Closing Error)

/-- The address to bind to for a backend at `addr`. -/
def bindAddr (addr : SocketAddr) : SocketAddr :=
  if addr.isIpv4 then localAddrV4 else localAddrV6

theorem isIpv4_bindAddr (addr : SocketAddr) : (bindAddr addr).isIpv4 = addr.isIpv4 := by
  cases addr <;> rfl

namespace Client

/-- A connection just accepted. -/
def start (peerAddr : SocketAddr) (localAddr : Option SocketAddr) : Client :=
  ⟨peerAddr, localAddr, .options, none, none, none, none, [], [], [], [], []⟩

/-- Where its task has panicked. -/
def panic? (c : Client) : Option ClientPanic :=
  match c.phase with
  | .panicked panic => some panic
  | _ => none

theorem phase_of_panic? {c : Client} {panic : ClientPanic} (h : c.panic? = some panic) :
    c.phase = .panicked panic := by
  unfold panic? at h
  split at h
  · rename_i hphase
    rw [hphase, Option.some.inj h]
  · exact absurd h (by simp)

/-- `find_matching_upstream`; without a match the connection is dropped. -/
def choose (rule : Rule) (c : Client) (ctx : MatchContext) : Client :=
  { c with
    matchContext := some ctx
    phase := match ctx.matchingPosition rule.upstreams with
      | some u => .pick u
      | none => .ended (.ok ()) }

/-- `create_socket`, and the call of `connect`. -/
def dial (c : Client) (backend : Backend) : Client :=
  { c with bound := some (bindAddr backend.addr), remote := some backend.addr }

/-- What comes after the header: without an acceptor the bytes are passed through. -/
def proceed (c : Client) (upstream : Upstream) : Client :=
  { c with phase := match upstream.tlsAcceptor with
      | none => .passthrough
      | some _ => .accepting false (.readHeader []) }

/-- The cork between the client's socket and rustls, when the next reads find `arrivals`. -/
def facing (c : Client) (arrivals : List Arrival) (corked : Bool) (state : CorkState) :
    CorkStream Socket :=
  ⟨⟨c.queue, arrivals⟩, corked, state⟩

section Steps

variable {μ σ : Type} (crates : Crates μ σ) (rule : Rule)

/-- What comes after the connection to the backend is there. -/
def connected (c : Client) (upstream : Upstream) : Client :=
  if upstream.cfg.proxyProtocol then
    match c.localAddr with
    | none => { c with phase := .panicked .localAddr }
    | some localAddr =>
        match crates.proxyHeader c.peerAddr localAddr with
        | .error e => { c with phase := .ended (.error e) }
        | .ok [] => c.proceed upstream
        | .ok header => { c with phase := .header upstream header }
  else c.proceed upstream

/-- After `set_nodelay` and `set_tcp_keepalive`. -/
def afterOptions (c : Client) (answer : Option Error) : Option Client :=
  match c.phase, answer with
  | .options, some e => some { c with phase := .ended (.error e) }
  | .options, none =>
      match rule.protocol with
      | .tls => some { c with phase := .readable }
      | .tcp => some (c.choose rule (.new c.localAddr none none))
  | _, _ => none

/-- After `readable()`; the socket may turn out to have nothing. -/
def afterReadable (c : Client) (answer : Option Error) : Option Client :=
  match c.phase, answer with
  | .readable, some e => some { c with phase := .ended (.error e) }
  | .readable, none => some { c with phase := .peek }
  | _, _ => none

/-- The rest of `extract_tls_info`, and the choice of an upstream. -/
def afterPeek (c : Client) (answer : Option Error) : Option Client :=
  match c.phase, answer with
  | .peek, some e => some { c with phase := .ended (.error e) }
  | .peek, none =>
      match crates.rustls.extract c.queue with
      | .error e => some { c with phase := .ended (.error e) }
      | .ok (sni, alpns) => some (c.choose rule (.new c.localAddr sni alpns))
  | _, _ => none

/-- After `create_socket` and the call of `connect`. -/
def afterConnect (c : Client) (answer : Connect) : Option Client :=
  match c.phase, answer with
  | .connect upstream backend, .ok => some ((c.dial backend).connected crates upstream)
  | .connect upstream backend, .inProgress =>
      some { c.dial backend with phase := .connecting upstream }
  | .connect _ _, .err e => some { c with phase := .ended (.error e) }
  | _, _ => none

/-- After the wait for a connection in progress. -/
def afterWritable (c : Client) (answer : Writable) : Option Client :=
  match c.phase, answer with
  | .connecting upstream, .elapsed e =>
      some { c with phase := .ended (.error (("Cannot connect to remote after " ++
        crates.debugDuration upstream.cfg.connectTimeout) :: e)) }
  | .connecting _, .err e => some { c with phase := .ended (.error e) }
  | .connecting _, .soError debug =>
      some { c with phase := .ended (.error ["Error while connecting to remote: " ++ debug]) }
  | .connecting upstream, .connected => some (c.connected crates upstream)
  | _, _ => none

/-- After a write of `write_all` that took `n` bytes. -/
def afterWrite (c : Client) (n : ℕ) : Option Client :=
  match c.phase with
  | .header upstream rest =>
      let c' := { c with out := c.out ++ rest.take n }
      if n = 0 then some { c with phase := .ended (.error ["failed to write whole buffer"]) }
      else if rest.drop n = [] then some (c'.proceed upstream)
      else some { c' with phase := .header upstream (rest.drop n) }
  | .drain rest =>
      let c' := { c with out := c.out ++ rest.take n }
      if n = 0 then some { c with phase := .ended (.error ["failed to write whole buffer"]) }
      else if rest.drop n = [] then some { c' with phase := .terminated }
      else some { c' with phase := .drain (rest.drop n) }
  | _ => none

/-- After a read of rustls through the cork. -/
def afterAsk (c : Client) (buf : ReadBuf) (arrivals : List Arrival) : Option Client :=
  match c.phase with
  | .accepting corked state =>
      let p := (c.facing arrivals corked state).pollReadBuf buf
      let c' := { c with queue := p.stream.io.wire }
      match p.poll with
      | .panic message => some { c' with phase := .panicked (.cork buf message) }
      -- what rustls makes of an error of the socket is a step of its own
      | _ => some { c' with phase := .accepting corked p.stream.state }
  | _ => none

/-- After `config_ktls_server`. -/
def afterAccepted (c : Client) (drain : Option (List UInt8)) : Option Client :=
  match c.phase with
  | .accepting true _ =>
      match drain.getD [] with
      | [] => some { c with phase := .terminated }
      | data => some { c with taken := data, phase := .drain data }
  | _ => none

/-- After a transfer. -/
def afterTransfer (c : Client) (closing : Closing Error) : Option Client :=
  match c.phase, closing with
  | .passthrough, _ => some { c with phase := .ended (.ok ()) }
  -- the loop breaks on an error only: after a transfer that has completed it starts another
  | .terminated, .completed => some c
  | .terminated, _ => some { c with phase := .ended (.ok ()) }
  | _, _ => none

/-- One step. -/
def step (c : Client) : ClientEvent → Option Client
  | .deliver segment =>
      some { c with arrived := c.arrived ++ segment, queue := c.queue ++ segment }
  | .options answer => c.afterOptions rule answer
  | .readable answer => c.afterReadable answer
  | .hangup =>
      match c.phase with
      | .peek =>
          if c.queue = [] then some { c with phase := .ended (.error ["No TLS frame read"]) }
          else none
      | _ => none
  | .peek answer => c.afterPeek crates rule answer
  | .connect answer => c.afterConnect crates answer
  | .writable answer => c.afterWritable crates answer
  | .write n => c.afterWrite n
  | .fail e =>
      match c.phase with
      | .header _ _ | .accepting _ _ | .drain _ => some { c with phase := .ended (.error e) }
      | _ => none
  | .splice n =>
      match c.phase with
      | .passthrough =>
          some { c with
            queue := c.queue.drop n
            taken := c.taken ++ c.queue.take n
            pipe := c.pipe ++ c.queue.take n }
      | _ => none
  | .flush n =>
      match c.phase with
      | .passthrough | .terminated =>
          some { c with pipe := c.pipe.drop n, out := c.out ++ c.pipe.take n }
      | _ => none
  | .ask buf arrivals => c.afterAsk buf arrivals
  | .cork =>
      match c.phase with
      | .accepting false state => some { c with phase := .accepting true state }
      | _ => none
  | .accepted drain => c.afterAccepted drain
  | .decrypt n bytes =>
      match c.phase with
      | .terminated =>
          some { c with
            queue := c.queue.drop n
            taken := c.taken ++ bytes
            pipe := c.pipe ++ bytes }
      | _ => none
  | .transfer closing => c.afterTransfer closing

/-- The context `ctx` is what is known of the connection: for a TLS rule, what was found in
the bytes that had arrived at some point. -/
def Knows (c : Client) (ctx : MatchContext) : Prop :=
  match rule.protocol with
  | .tcp => ctx = .new c.localAddr none none
  | .tls => ∃ bytes sni alpns, bytes <+: c.arrived ∧
      crates.rustls.extract bytes = .ok (sni, alpns) ∧ ctx = .new c.localAddr sni alpns

/-- The steps as a relation.  Whatever makes the function return is one constructor, `stop`. -/
inductive Step (c : Client) : ClientEvent → Client → Prop
  | deliver (segment : List UInt8) :
      Step c (.deliver segment)
        { c with arrived := c.arrived ++ segment, queue := c.queue ++ segment }
  | stop {e : ClientEvent} {result : Except Error Unit} :
      Step c e { c with phase := .ended result }
  | again : Step c (.transfer .completed) c
  | toReadable (hphase : c.phase = .options) (hprotocol : rule.protocol = .tls) :
      Step c (.options none) { c with phase := .readable }
  | toPeek (hphase : c.phase = .readable) : Step c (.readable none) { c with phase := .peek }
  | choose (hphase : c.phase = .options) (hprotocol : rule.protocol = .tcp) :
      Step c (.options none) (c.choose rule (.new c.localAddr none none))
  | peek {sni : Option String} {alpns : Option (List (List UInt8))} (hphase : c.phase = .peek)
      (hextract : crates.rustls.extract c.queue = .ok (sni, alpns)) :
      Step c (.peek none) (c.choose rule (.new c.localAddr sni alpns))
  | inProgress {upstream : Upstream} {backend : Backend}
      (hphase : c.phase = .connect upstream backend) :
      Step c (.connect .inProgress) { c.dial backend with phase := .connecting upstream }
  | connectedAtOnce {upstream : Upstream} {backend : Backend}
      (hphase : c.phase = .connect upstream backend) :
      Step c (.connect .ok) ((c.dial backend).connected crates upstream)
  | connected {upstream : Upstream} (hphase : c.phase = .connecting upstream) :
      Step c (.writable .connected) (c.connected crates upstream)
  | header {upstream : Upstream} {rest : List UInt8} (n : ℕ)
      (hphase : c.phase = .header upstream rest) :
      Step c (.write n)
        { c with out := c.out ++ rest.take n, phase := .header upstream (rest.drop n) }
  | headerDone {upstream : Upstream} {rest : List UInt8} (n : ℕ)
      (hphase : c.phase = .header upstream rest) (hdone : rest.drop n = []) :
      Step c (.write n) (proceed { c with out := c.out ++ rest.take n } upstream)
  | drain {rest : List UInt8} (n : ℕ) (hphase : c.phase = .drain rest) :
      Step c (.write n) { c with out := c.out ++ rest.take n, phase := .drain (rest.drop n) }
  | drainDone {rest : List UInt8} (n : ℕ) (hphase : c.phase = .drain rest)
      (hdone : rest.drop n = []) :
      Step c (.write n) { c with out := c.out ++ rest.take n, phase := .terminated }
  | splice (n : ℕ) (hphase : c.phase = .passthrough) :
      Step c (.splice n)
        { c with
          queue := c.queue.drop n
          taken := c.taken ++ c.queue.take n
          pipe := c.pipe ++ c.queue.take n }
  | flush (n : ℕ) (hphase : c.phase = .passthrough ∨ c.phase = .terminated) :
      Step c (.flush n) { c with pipe := c.pipe.drop n, out := c.out ++ c.pipe.take n }
  | ask {corked : Bool} {state : CorkState} (buf : ReadBuf) (arrivals : List Arrival)
      (hphase : c.phase = .accepting corked state) :
      Step c (.ask buf arrivals)
        { c with
          queue := ((c.facing arrivals corked state).pollReadBuf buf).stream.io.wire
          phase := .accepting corked
            ((c.facing arrivals corked state).pollReadBuf buf).stream.state }
  | askPanic {corked : Bool} {state : CorkState} (buf : ReadBuf) (arrivals : List Arrival)
      {message : String} (hphase : c.phase = .accepting corked state)
      (hpanic : ((c.facing arrivals corked state).pollReadBuf buf).poll = .panic message) :
      Step c (.ask buf arrivals)
        { c with
          queue := ((c.facing arrivals corked state).pollReadBuf buf).stream.io.wire
          phase := .panicked (.cork buf message) }
  | cork {state : CorkState} (hphase : c.phase = .accepting false state) :
      Step c .cork { c with phase := .accepting true state }
  | acceptedNone {drain : Option (List UInt8)} {state : CorkState}
      (hphase : c.phase = .accepting true state) :
      Step c (.accepted drain) { c with phase := .terminated }
  | accepted {drain : Option (List UInt8)} {state : CorkState} (data : List UInt8)
      (hphase : c.phase = .accepting true state) :
      Step c (.accepted drain) { c with taken := data, phase := .drain data }
  | decrypt (n : ℕ) (bytes : List UInt8) (hphase : c.phase = .terminated) :
      Step c (.decrypt n bytes)
        { c with
          queue := c.queue.drop n
          taken := c.taken ++ bytes
          pipe := c.pipe ++ bytes }

variable {crates rule}

theorem Step.of_options {c c' : Client} {answer : Option Error}
    (h : c.afterOptions rule answer = some c') : Step crates rule c (.options answer) c' := by
  unfold afterOptions at h
  split at h
  · obtain rfl := Option.some.inj h
    exact .stop
  · rename_i hphase
    split at h
    · rename_i hprotocol
      obtain rfl := Option.some.inj h
      exact .toReadable hphase hprotocol
    · rename_i hprotocol
      obtain rfl := Option.some.inj h
      exact .choose hphase hprotocol
  · exact absurd h (by simp)

theorem Step.of_readable {c c' : Client} {answer : Option Error}
    (h : c.afterReadable answer = some c') : Step crates rule c (.readable answer) c' := by
  unfold afterReadable at h
  split at h
  · obtain rfl := Option.some.inj h
    exact .stop
  · rename_i hphase
    obtain rfl := Option.some.inj h
    exact .toPeek hphase
  · exact absurd h (by simp)

theorem Step.of_peek {c c' : Client} {answer : Option Error}
    (h : c.afterPeek crates rule answer = some c') : Step crates rule c (.peek answer) c' := by
  unfold afterPeek at h
  split at h
  · obtain rfl := Option.some.inj h
    exact .stop
  · rename_i hphase
    split at h
    · obtain rfl := Option.some.inj h
      exact .stop
    · rename_i sni alpns hextract
      obtain rfl := Option.some.inj h
      exact .peek hphase hextract
  · exact absurd h (by simp)

theorem Step.of_connect {c c' : Client} {answer : Connect}
    (h : c.afterConnect crates answer = some c') : Step crates rule c (.connect answer) c' := by
  unfold afterConnect at h
  split at h
  · rename_i upstream backend hphase
    obtain rfl := Option.some.inj h
    exact .connectedAtOnce hphase
  · rename_i upstream backend hphase
    obtain rfl := Option.some.inj h
    exact .inProgress hphase
  · obtain rfl := Option.some.inj h
    exact .stop
  · exact absurd h (by simp)

theorem Step.of_writable {c c' : Client} {answer : Writable}
    (h : c.afterWritable crates answer = some c') : Step crates rule c (.writable answer) c' := by
  unfold afterWritable at h
  split at h
  · obtain rfl := Option.some.inj h
    exact .stop
  · obtain rfl := Option.some.inj h
    exact .stop
  · obtain rfl := Option.some.inj h
    exact .stop
  · rename_i upstream hphase
    obtain rfl := Option.some.inj h
    exact .connected hphase
  · exact absurd h (by simp)

theorem Step.of_write {c c' : Client} {n : ℕ} (h : c.afterWrite n = some c') :
    Step crates rule c (.write n) c' := by
  unfold afterWrite at h
  split at h
  · rename_i upstream rest hphase
    dsimp only at h
    split at h
    · obtain rfl := Option.some.inj h
      exact .stop
    · split at h
      · rename_i hdone
        obtain rfl := Option.some.inj h
        exact .headerDone _ hphase hdone
      · obtain rfl := Option.some.inj h
        exact .header _ hphase
  · rename_i rest hphase
    dsimp only at h
    split at h
    · obtain rfl := Option.some.inj h
      exact .stop
    · split at h
      · rename_i hdone
        obtain rfl := Option.some.inj h
        exact .drainDone _ hphase hdone
      · obtain rfl := Option.some.inj h
        exact .drain _ hphase
  · exact absurd h (by simp)

theorem Step.of_ask {c c' : Client} {buf : ReadBuf} {arrivals : List Arrival}
    (h : c.afterAsk buf arrivals = some c') : Step crates rule c (.ask buf arrivals) c' := by
  unfold afterAsk at h
  split at h
  · rename_i corked state hphase
    dsimp only at h
    split at h
    · rename_i message hpanic
      obtain rfl := Option.some.inj h
      exact .askPanic buf arrivals hphase hpanic
    · obtain rfl := Option.some.inj h
      exact .ask buf arrivals hphase
  · exact absurd h (by simp)

theorem Step.of_accepted {c c' : Client} {drain : Option (List UInt8)}
    (h : c.afterAccepted drain = some c') : Step crates rule c (.accepted drain) c' := by
  unfold afterAccepted at h
  split at h
  · rename_i hphase
    split at h
    · obtain rfl := Option.some.inj h
      exact .acceptedNone hphase
    · obtain rfl := Option.some.inj h
      exact .accepted _ hphase
  · exact absurd h (by simp)

theorem Step.of_transfer {c c' : Client} {closing : Closing Error}
    (h : c.afterTransfer closing = some c') : Step crates rule c (.transfer closing) c' := by
  unfold afterTransfer at h
  split at h
  · obtain rfl := Option.some.inj h
    exact .stop
  · obtain rfl := Option.some.inj h
    exact .again
  · obtain rfl := Option.some.inj h
    exact .stop
  · exact absurd h (by simp)

/-- **The step function takes no other step.** -/
theorem Step.of_step {c c' : Client} {e : ClientEvent} (h : c.step crates rule e = some c') :
    Step crates rule c e c' := by
  cases e with
  | deliver segment =>
    obtain rfl := Option.some.inj h
    exact .deliver segment
  | options answer => exact .of_options h
  | readable answer => exact .of_readable h
  | hangup =>
    simp only [step] at h
    split at h
    · obtain ⟨-, hc'⟩ := Option.ite_none_right_eq_some.mp h
      obtain rfl := Option.some.inj hc'
      exact .stop
    · exact absurd h (by simp)
  | peek answer => exact .of_peek h
  | connect answer => exact .of_connect h
  | writable answer => exact .of_writable h
  | write n => exact .of_write h
  | fail e =>
    simp only [step] at h
    split at h
    · obtain rfl := Option.some.inj h
      exact .stop
    · obtain rfl := Option.some.inj h
      exact .stop
    · obtain rfl := Option.some.inj h
      exact .stop
    · exact absurd h (by simp)
  | splice n =>
    simp only [step] at h
    split at h
    · rename_i hphase
      obtain rfl := Option.some.inj h
      exact .splice n hphase
    · exact absurd h (by simp)
  | flush n =>
    simp only [step] at h
    split at h
    · rename_i hphase
      obtain rfl := Option.some.inj h
      exact .flush n (Or.inl hphase)
    · rename_i hphase
      obtain rfl := Option.some.inj h
      exact .flush n (Or.inr hphase)
    · exact absurd h (by simp)
  | ask buf arrivals => exact .of_ask h
  | cork =>
    simp only [step] at h
    split at h
    · rename_i state hphase
      obtain rfl := Option.some.inj h
      exact .cork hphase
    · exact absurd h (by simp)
  | accepted drain => exact .of_accepted h
  | decrypt n bytes =>
    simp only [step] at h
    split at h
    · rename_i hphase
      obtain rfl := Option.some.inj h
      exact .decrypt n bytes hphase
    · exact absurd h (by simp)
  | transfer closing => exact .of_transfer h

/-! ## What the backend is sent -/

variable (crates rule)

/-- The upstream at position `u` of the rule is the first that matches what is known of the
connection. -/
def Matched (c : Client) (u : ℕ) : Prop :=
  ∃ ctx, c.matchContext = some ctx ∧ c.Knows crates rule ctx ∧
    ctx.matchingPosition rule.upstreams = some u

/-- The connection has been routed to `backend`, a backend of this upstream. -/
def Routed (c : Client) (upstream : Upstream) (backend : Backend) : Prop :=
  ∃ u b, c.Matched crates rule u ∧ c.route = some (u, b) ∧
    rule.upstreams.toList[u]? = some upstream ∧ upstream.backends.index b = some (b, backend)

/-- It has been routed to a backend of `upstream`, and that is what a socket of the backend's
family was connected to. -/
def Attached (c : Client) (upstream : Upstream) : Prop :=
  ∃ backend bound, c.Routed crates rule upstream backend ∧ c.remote = some backend.addr ∧
    c.bound = some bound ∧ bound.isIpv4 = backend.addr.isIpv4

/-- What the backend is sent before the bytes of the client. -/
def HeaderFor (c : Client) (upstream : Upstream) (header : List UInt8) : Prop :=
  if upstream.cfg.proxyProtocol then
    ∃ localAddr, c.localAddr = some localAddr ∧
      crates.proxyHeader c.peerAddr localAddr = .ok header
  else header = []

/-- The backend has been sent nothing, or a prefix of the header and what was taken from the
client; and what was taken to be passed through is a prefix of what the client has sent. -/
def Forwarded (c : Client) : Prop :=
  c.out = [] ∨ ∃ upstream header, c.Attached crates rule upstream ∧
    c.HeaderFor crates upstream header ∧ c.out <+: header ++ c.taken ∧
    (upstream.tlsAcceptor = none → c.taken <+: c.arrived)

/-- What holds of every connection, also of one that has ended. -/
def Outcome (c : Client) : Prop :=
  (c.route = none ∨ ∃ upstream backend, c.Routed crates rule upstream backend) ∧
    c.Forwarded crates rule

/-- What is the case where `handle_client` panics. -/
def Panics (c : Client) : ClientPanic → Prop
  | .localAddr =>
      c.localAddr = none ∧
        ∃ upstream, c.Attached crates rule upstream ∧ upstream.cfg.proxyProtocol = true
  | .pickBackend now =>
      now = none ∧ ∃ u upstream, c.Matched crates rule u ∧
        rule.upstreams.toList[u]? = some upstream ∧ upstream.loadBalancing = .random
  | .cork buf _ =>
      (buf.remaining < 5 ∨ buf.initialized < buf.capacity) ∧
        ∃ upstream, c.Attached crates rule upstream ∧ upstream.tlsAcceptor ≠ none

/-- Nothing has been taken from the client, and nothing sent to a backend. -/
def Untouched (c : Client) : Prop :=
  c.out = [] ∧ c.taken = [] ∧ c.pipe = [] ∧ c.queue = c.arrived

/-- What holds of a connection that has come to a place of `handle_client`. -/
def SoundAt (c : Client) : ClientPhase → Prop
  | .options => c.route = none ∧ c.Untouched
  | .readable => rule.protocol = .tls ∧ c.route = none ∧ c.Untouched
  | .peek => rule.protocol = .tls ∧ c.route = none ∧ c.Untouched
  | .pick u => c.Matched crates rule u ∧ c.route = none ∧ c.Untouched
  | .connect upstream backend => c.Routed crates rule upstream backend ∧ c.Untouched
  | .connecting upstream => c.Attached crates rule upstream ∧ c.Untouched
  | .header upstream rest =>
      c.Attached crates rule upstream ∧ c.HeaderFor crates upstream (c.out ++ rest) ∧
        c.taken = [] ∧ c.pipe = [] ∧ c.queue = c.arrived
  | .passthrough =>
      ∃ upstream header, c.Attached crates rule upstream ∧ c.HeaderFor crates upstream header ∧
        c.out ++ c.pipe = header ++ c.taken ∧ c.taken ++ c.queue = c.arrived
  | .accepting _ state =>
      CorkStream.InBounds state ∧
        ∃ upstream, c.Attached crates rule upstream ∧ upstream.tlsAcceptor ≠ none ∧
          c.HeaderFor crates upstream c.out ∧ c.taken = [] ∧ c.pipe = []
  | .drain rest =>
      ∃ upstream header, c.Attached crates rule upstream ∧ upstream.tlsAcceptor ≠ none ∧
        c.HeaderFor crates upstream header ∧ c.out ++ rest = header ++ c.taken ∧ c.pipe = []
  | .terminated =>
      ∃ upstream header, c.Attached crates rule upstream ∧ upstream.tlsAcceptor ≠ none ∧
        c.HeaderFor crates upstream header ∧ c.out ++ c.pipe = header ++ c.taken
  | .ended _ => c.Outcome crates rule
  | .panicked panic => c.Panics crates rule panic ∧ c.Outcome crates rule

/-- What holds of a connection, wherever it has come to. -/
def Sound (c : Client) : Prop := c.SoundAt crates rule c.phase

variable {crates rule}

theorem sound_start (peerAddr : SocketAddr) (localAddr : Option SocketAddr) :
    (start peerAddr localAddr).Sound crates rule :=
  ⟨rfl, rfl, rfl, rfl, rfl⟩

theorem Attached.routed {c : Client} {upstream : Upstream} (h : c.Attached crates rule upstream) :
    c.route = none ∨ ∃ upstream backend, c.Routed crates rule upstream backend := by
  obtain ⟨backend, -, hrouted, -⟩ := h
  exact Or.inr ⟨upstream, backend, hrouted⟩

/-- **What it comes to**, at every place. -/
theorem SoundAt.outcome {c : Client} {phase : ClientPhase} (h : c.SoundAt crates rule phase) :
    c.Outcome crates rule := by
  cases phase with
  | options => exact ⟨Or.inl h.1, Or.inl h.2.1⟩
  | readable => exact ⟨Or.inl h.2.1, Or.inl h.2.2.1⟩
  | peek => exact ⟨Or.inl h.2.1, Or.inl h.2.2.1⟩
  | pick u => exact ⟨Or.inl h.2.1, Or.inl h.2.2.1⟩
  | connect upstream backend => exact ⟨Or.inr ⟨_, _, h.1⟩, Or.inl h.2.1⟩
  | connecting upstream => exact ⟨h.1.routed, Or.inl h.2.1⟩
  | header upstream rest =>
    obtain ⟨hattached, hheader, htaken, -, -⟩ := h
    refine ⟨hattached.routed, Or.inr ⟨upstream, _, hattached, hheader, ?_, fun _ => ?_⟩⟩
    · rw [htaken, List.append_nil]
      exact List.prefix_append _ _
    · rw [htaken]
      exact List.nil_prefix
  | passthrough =>
    obtain ⟨upstream, header, hattached, hheader, hout, htaken⟩ := h
    exact ⟨hattached.routed, Or.inr ⟨upstream, header, hattached, hheader,
      hout ▸ List.prefix_append _ _, fun _ => htaken ▸ List.prefix_append _ _⟩⟩
  | accepting corked state =>
    obtain ⟨-, upstream, hattached, htls, hheader, -⟩ := h
    exact ⟨hattached.routed, Or.inr ⟨upstream, c.out, hattached, hheader, List.prefix_append _ _,
      fun hnone => absurd hnone htls⟩⟩
  | drain rest =>
    obtain ⟨upstream, header, hattached, htls, hheader, hout, -⟩ := h
    exact ⟨hattached.routed, Or.inr ⟨upstream, header, hattached, hheader,
      hout ▸ List.prefix_append _ _, fun hnone => absurd hnone htls⟩⟩
  | terminated =>
    obtain ⟨upstream, header, hattached, htls, hheader, hout⟩ := h
    exact ⟨hattached.routed, Or.inr ⟨upstream, header, hattached, hheader,
      hout ▸ List.prefix_append _ _, fun hnone => absurd hnone htls⟩⟩
  | ended result => exact h
  | panicked panic => exact h.2

theorem Knows.deliver {c : Client} {ctx : MatchContext} (h : c.Knows crates rule ctx)
    (segment queue : List UInt8) :
    Knows crates rule { c with arrived := c.arrived ++ segment, queue := queue } ctx := by
  unfold Knows at h ⊢
  split at h
  · exact h
  · obtain ⟨bytes, sni, alpns, hbytes, hextract, hctx⟩ := h
    exact ⟨bytes, sni, alpns, hbytes.trans (List.prefix_append _ _), hextract, hctx⟩

theorem Matched.deliver {c : Client} {u : ℕ} (h : c.Matched crates rule u)
    (segment queue : List UInt8) :
    Matched crates rule { c with arrived := c.arrived ++ segment, queue := queue } u := by
  obtain ⟨ctx, hctx, hknows, hu⟩ := h
  exact ⟨ctx, hctx, hknows.deliver segment queue, hu⟩

theorem Routed.deliver {c : Client} {upstream : Upstream} {backend : Backend}
    (h : c.Routed crates rule upstream backend) (segment queue : List UInt8) :
    Routed crates rule { c with arrived := c.arrived ++ segment, queue := queue } upstream
      backend := by
  obtain ⟨u, b, hmatched, hrest⟩ := h
  exact ⟨u, b, hmatched.deliver segment queue, hrest⟩

theorem Attached.deliver {c : Client} {upstream : Upstream}
    (h : c.Attached crates rule upstream) (segment queue : List UInt8) :
    Attached crates rule { c with arrived := c.arrived ++ segment, queue := queue } upstream := by
  obtain ⟨backend, bound, hrouted, hsocket⟩ := h
  exact ⟨backend, bound, hrouted.deliver segment queue, hsocket⟩

theorem Untouched.deliver {c : Client} (h : c.Untouched) (segment : List UInt8) :
    Untouched { c with arrived := c.arrived ++ segment, queue := c.queue ++ segment } :=
  ⟨h.1, h.2.1, h.2.2.1, by rw [h.2.2.2]⟩

theorem Forwarded.deliver {c : Client} (h : c.Forwarded crates rule) (segment queue : List UInt8) :
    Forwarded crates rule { c with arrived := c.arrived ++ segment, queue := queue } := by
  rcases h with hnil | ⟨upstream, header, hattached, hheader, hout, htaken⟩
  · exact Or.inl hnil
  · exact Or.inr ⟨upstream, header, hattached.deliver segment queue, hheader, hout,
      fun hnone => (htaken hnone).trans (List.prefix_append _ _)⟩

theorem Outcome.deliver {c : Client} (h : c.Outcome crates rule) (segment queue : List UInt8) :
    Outcome crates rule { c with arrived := c.arrived ++ segment, queue := queue } := by
  refine ⟨h.1.imp_right ?_, h.2.deliver segment queue⟩
  rintro ⟨upstream, backend, hrouted⟩
  exact ⟨upstream, backend, hrouted.deliver segment queue⟩

theorem Panics.deliver {c : Client} {panic : ClientPanic} (h : c.Panics crates rule panic)
    (segment queue : List UInt8) :
    Panics crates rule { c with arrived := c.arrived ++ segment, queue := queue } panic := by
  cases panic with
  | localAddr =>
    obtain ⟨hlocal, upstream, hattached, hproxy⟩ := h
    exact ⟨hlocal, upstream, hattached.deliver segment queue, hproxy⟩
  | pickBackend now =>
    obtain ⟨hnow, u, upstream, hmatched, hrest⟩ := h
    exact ⟨hnow, u, upstream, hmatched.deliver segment queue, hrest⟩
  | cork buf message =>
    obtain ⟨hbuf, upstream, hattached, htls⟩ := h
    exact ⟨hbuf, upstream, hattached.deliver segment queue, htls⟩

/-- What arrives from the client changes nothing. -/
theorem SoundAt.deliver {c : Client} {phase : ClientPhase} (h : c.SoundAt crates rule phase)
    (segment : List UInt8) :
    SoundAt crates rule { c with arrived := c.arrived ++ segment, queue := c.queue ++ segment }
      phase := by
  cases phase with
  | options => exact ⟨h.1, h.2.deliver segment⟩
  | readable => exact ⟨h.1, h.2.1, h.2.2.deliver segment⟩
  | peek => exact ⟨h.1, h.2.1, h.2.2.deliver segment⟩
  | pick u => exact ⟨h.1.deliver segment _, h.2.1, h.2.2.deliver segment⟩
  | connect upstream backend => exact ⟨h.1.deliver segment _, h.2.deliver segment⟩
  | connecting upstream => exact ⟨h.1.deliver segment _, h.2.deliver segment⟩
  | header upstream rest =>
    obtain ⟨hattached, hheader, htaken, hpipe, hqueue⟩ := h
    exact ⟨hattached.deliver segment _, hheader, htaken, hpipe, by rw [hqueue]⟩
  | passthrough =>
    obtain ⟨upstream, header, hattached, hheader, hout, htaken⟩ := h
    exact ⟨upstream, header, hattached.deliver segment _, hheader, hout,
      by rw [← htaken, List.append_assoc]⟩
  | accepting corked state =>
    obtain ⟨hbounds, upstream, hattached, hrest⟩ := h
    exact ⟨hbounds, upstream, hattached.deliver segment _, hrest⟩
  | drain rest =>
    obtain ⟨upstream, header, hattached, hrest⟩ := h
    exact ⟨upstream, header, hattached.deliver segment _, hrest⟩
  | terminated =>
    obtain ⟨upstream, header, hattached, hrest⟩ := h
    exact ⟨upstream, header, hattached.deliver segment _, hrest⟩
  | ended result => exact Outcome.deliver h segment _
  | panicked panic => exact ⟨h.1.deliver segment _, h.2.deliver segment _⟩

/-- The transfer starts when the header has been sent. -/
theorem sound_proceed {c : Client} {upstream : Upstream}
    (hattached : c.Attached crates rule upstream)
    (hheader : c.HeaderFor crates upstream c.out) (htaken : c.taken = []) (hpipe : c.pipe = [])
    (hqueue : c.queue = c.arrived) : (c.proceed upstream).Sound crates rule := by
  cases htls : upstream.tlsAcceptor with
  | none =>
    have hproceed : c.proceed upstream = { c with phase := .passthrough } := by
      rw [proceed, htls]
    rw [hproceed]
    refine ⟨upstream, c.out, hattached, hheader, ?_, ?_⟩
    · rw [hpipe, htaken]
    · rw [htaken, List.nil_append, hqueue]
  | some acceptor =>
    have hproceed : c.proceed upstream = { c with phase := .accepting false (.readHeader []) } := by
      rw [proceed, htls]
    rw [hproceed]
    exact ⟨Nat.zero_le 5, upstream, hattached, by simp [htls], hheader, htaken, hpipe⟩

theorem attached_dial {c : Client} {upstream : Upstream} {backend : Backend}
    (h : c.Routed crates rule upstream backend) :
    (c.dial backend).Attached crates rule upstream :=
  ⟨backend, bindAddr backend.addr, h, rfl, rfl, isIpv4_bindAddr backend.addr⟩

theorem sound_connected {c : Client} {upstream : Upstream}
    (hattached : c.Attached crates rule upstream) (huntouched : c.Untouched) :
    (c.connected crates upstream).Sound crates rule := by
  obtain ⟨hout, htaken, hpipe, hqueue⟩ := huntouched
  unfold connected
  split
  · rename_i hproxy
    split
    · rename_i hlocal
      exact ⟨⟨hlocal, upstream, hattached, hproxy⟩, hattached.routed, Or.inl hout⟩
    · rename_i localAddr hlocal
      have hheader : ∀ header, crates.proxyHeader c.peerAddr localAddr = .ok header →
          c.HeaderFor crates upstream (c.out ++ header) := by
        intro header hbuild
        rw [HeaderFor, if_pos hproxy, hout, List.nil_append]
        exact ⟨localAddr, hlocal, hbuild⟩
      split
      · exact ⟨hattached.routed, Or.inl hout⟩
      · rename_i hbuild
        have hnil := hheader [] hbuild
        rw [List.append_nil] at hnil
        exact sound_proceed hattached hnil htaken hpipe hqueue
      · rename_i header _ hbuild
        exact ⟨hattached, hheader header hbuild, htaken, hpipe, hqueue⟩
  · rename_i hproxy
    refine sound_proceed hattached ?_ htaken hpipe hqueue
    rw [HeaderFor, if_neg hproxy, hout]

theorem sound_choose {c : Client} {ctx : MatchContext} (hknows : c.Knows crates rule ctx)
    (hroute : c.route = none) (huntouched : c.Untouched) :
    (c.choose rule ctx).Sound crates rule := by
  cases hu : ctx.matchingPosition rule.upstreams with
  | some u =>
    have hchoose : c.choose rule ctx = { c with matchContext := some ctx, phase := .pick u } := by
      rw [choose, hu]
    rw [hchoose]
    exact ⟨⟨ctx, rfl, hknows, hu⟩, hroute, huntouched⟩
  | none =>
    have hchoose : c.choose rule ctx =
        { c with matchContext := some ctx, phase := .ended (.ok ()) } := by
      rw [choose, hu]
    rw [hchoose]
    exact ⟨Or.inl hroute, Or.inl huntouched.1⟩

theorem sound_of_phase {c : Client} {phase : ClientPhase} (hphase : c.phase = phase)
    (h : c.SoundAt crates rule phase) : c.Sound crates rule := by
  rw [Sound, hphase]
  exact h

/-- **A step keeps the connection sound.** -/
theorem sound_of_step {c c' : Client} {e : ClientEvent} (h : c.Sound crates rule)
    (hs : c.step crates rule e = some c') : c'.Sound crates rule := by
  cases Step.of_step hs with
  | deliver segment => exact SoundAt.deliver h segment
  | stop => exact h.outcome
  | again => exact h
  | toReadable hphase hprotocol =>
    rw [Sound, hphase] at h
    exact ⟨hprotocol, h.1, h.2⟩
  | toPeek hphase =>
    rw [Sound, hphase] at h
    exact h
  | choose hphase hprotocol =>
    rw [Sound, hphase] at h
    refine sound_choose ?_ h.1 h.2
    rw [Knows, hprotocol]
  | @peek sni alpns hphase hextract =>
    rw [Sound, hphase] at h
    obtain ⟨hprotocol, hroute, huntouched⟩ := h
    refine sound_choose ?_ hroute huntouched
    rw [Knows, hprotocol]
    exact ⟨c.queue, sni, alpns, huntouched.2.2.2 ▸ List.prefix_rfl, hextract, rfl⟩
  | inProgress hphase =>
    rw [Sound, hphase] at h
    exact ⟨attached_dial h.1, h.2⟩
  | @connectedAtOnce upstream backend hphase =>
    rw [Sound, hphase] at h
    exact sound_connected (attached_dial h.1) h.2
  | connected hphase =>
    rw [Sound, hphase] at h
    exact sound_connected h.1 h.2
  | @header upstream rest n hphase =>
    rw [Sound, hphase] at h
    obtain ⟨hattached, hheader, hrest⟩ := h
    refine ⟨hattached, ?_, hrest⟩
    rw [List.append_assoc, List.take_append_drop]
    exact hheader
  | @headerDone upstream rest n hphase hdone =>
    rw [Sound, hphase] at h
    obtain ⟨hattached, hheader, htaken, hpipe, hqueue⟩ := h
    refine sound_proceed hattached ?_ htaken hpipe hqueue
    have hall : rest.take n = rest := List.take_of_length_le (List.drop_eq_nil_iff.mp hdone)
    show c.HeaderFor crates upstream (c.out ++ rest.take n)
    rw [hall]
    exact hheader
  | @drain rest n hphase =>
    rw [Sound, hphase] at h
    obtain ⟨upstream, header, hattached, htls, hheader, hout, hpipe⟩ := h
    refine ⟨upstream, header, hattached, htls, hheader, ?_, hpipe⟩
    rw [List.append_assoc, List.take_append_drop]
    exact hout
  | @drainDone rest n hphase hdone =>
    rw [Sound, hphase] at h
    obtain ⟨upstream, header, hattached, htls, hheader, hout, hpipe⟩ := h
    refine ⟨upstream, header, hattached, htls, hheader, ?_⟩
    have hall : rest.take n = rest := List.take_of_length_le (List.drop_eq_nil_iff.mp hdone)
    show c.out ++ rest.take n ++ c.pipe = header ++ c.taken
    rw [hall, hpipe, List.append_nil, hout]
  | splice n hphase =>
    rw [Sound, hphase] at h
    obtain ⟨upstream, header, hattached, hheader, hout, htaken⟩ := h
    refine sound_of_phase hphase ⟨upstream, header, hattached, hheader, ?_, ?_⟩
    · rw [← List.append_assoc, hout, List.append_assoc]
    · rw [List.append_assoc, List.take_append_drop, htaken]
  | flush n hphase =>
    have hflush : c.out ++ c.pipe.take n ++ c.pipe.drop n = c.out ++ c.pipe := by
      rw [List.append_assoc, List.take_append_drop]
    rcases hphase with hphase | hphase
    · rw [Sound, hphase] at h
      obtain ⟨upstream, header, hattached, hheader, hout, htaken⟩ := h
      exact sound_of_phase hphase
        ⟨upstream, header, hattached, hheader, hflush.trans hout, htaken⟩
    · rw [Sound, hphase] at h
      obtain ⟨upstream, header, hattached, htls, hheader, hout⟩ := h
      exact sound_of_phase hphase
        ⟨upstream, header, hattached, htls, hheader, hflush.trans hout⟩
  | @ask corked state buf arrivals hphase =>
    rw [Sound, hphase] at h
    obtain ⟨hbounds, hrest⟩ := h
    refine ⟨?_, hrest⟩
    rw [CorkStream.stream_pollReadBuf]
    exact CorkStream.inBounds_pollRead (c := c.facing arrivals corked state) hbounds buf.remaining
  | @askPanic corked state buf arrivals message hphase hpanic =>
    rw [Sound, hphase] at h
    have houtcome : c.Outcome crates rule := h.outcome
    obtain ⟨hbounds, upstream, hattached, htls, -⟩ := h
    exact ⟨⟨CorkStream.buf_of_panic hbounds hpanic, upstream, hattached, htls⟩, houtcome⟩
  | cork hphase =>
    rw [Sound, hphase] at h
    exact h
  | acceptedNone hphase =>
    rw [Sound, hphase] at h
    obtain ⟨-, upstream, hattached, htls, hheader, htaken, hpipe⟩ := h
    exact ⟨upstream, c.out, hattached, htls, hheader, by rw [htaken, hpipe]⟩
  | @accepted drain state data hphase =>
    rw [Sound, hphase] at h
    obtain ⟨-, upstream, hattached, htls, hheader, htaken, hpipe⟩ := h
    exact ⟨upstream, c.out, hattached, htls, hheader, rfl, hpipe⟩
  | decrypt n bytes hphase =>
    rw [Sound, hphase] at h
    obtain ⟨upstream, header, hattached, htls, hheader, hout⟩ := h
    refine sound_of_phase hphase ⟨upstream, header, hattached, htls, hheader, ?_⟩
    rw [← List.append_assoc, hout, List.append_assoc]

theorem route_connected (c : Client) (upstream : Upstream) :
    (c.connected crates upstream).route = c.route := by
  unfold connected
  split
  · split
    · rfl
    · split <;> rfl
  · rfl

/-- Which upstream and which backend is not for a step of the connection to say. -/
theorem route_of_step {c c' : Client} {e : ClientEvent} (hs : c.step crates rule e = some c') :
    c'.route = c.route := by
  cases Step.of_step hs with
  | connectedAtOnce _ => exact route_connected _ _
  | connected _ => exact route_connected _ _
  | _ => rfl

end Steps

end Client
end Turbine
