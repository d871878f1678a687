import Turbine.Ktls.CorkStream

/-!
# From rustls to the kernel: `config_ktls_server` and what `handle_client` writes

To terminate a TLS session, `handle_client` lets rustls do the handshake over a
`CorkStream`, and then hands the session to the kernel.  By then rustls may have read more
than the handshake: application data it has decrypted, and part of a record.
`config_ktls_server` sets the cork and reads the session empty with `drain`; what comes out
goes into the `KtlsStream`, out of it again through `into_raw`, and is written to the
backend behind the proxy-protocol header.  The kernel then reads the socket.

Of rustls, and of tokio-rustls around it, the model keeps only what it is given and what it
gives: it asks the cork for bytes, it reports that the handshake is over, it hands out
plaintext, and it comes to an end.  It may do any of these at any time, as far as `Lawful`
lets it.  What `Lawful` says of rustls is this.

* It asks with a buffer that is not full, and not after it has received a `close_notify`.
* It hands out the plaintext of the records it has been given completely, in order.
* It reports an empty read or `UnexpectedEof` to a reader with room only when all of that
  plaintext has been handed out, and only after an empty read of its own or after a
  `close_notify`.
* A record without payload is an error, after which it does none of these.
* The plaintext it holds when the handshake is over, and one more record, fit the buffer of
  `drain`.

The client sends whole records, in any chunks, and may close the connection after them.
`handover_exact` is the result: the bytes consumed end at a record boundary, and what the
backend gets before the kernel takes over is exactly the data of the records consumed.
-/

namespace Turbine

open Records Runs

/-- What rustls finds in a record: application data, in a record of that type, or a
`close_notify`. -/
structure Content where
  app : List UInt8
  closeNotify : Bool

/-- A record that the client sends. -/
abbrev ClientRecord := Record Content

/-- The application data of a list of records. -/
def appData (rs : List ClientRecord) : List UInt8 := rs.flatMap fun r => r.content.app

@[simp] theorem appData_append (rs rs' : List ClientRecord) :
    appData (rs ++ rs') = appData rs ++ appData rs' := List.flatMap_append

/-! ## The socket -/

/-- What a read of the socket finds: nothing yet, at most so many bytes and one more, or an
error. -/
inductive Arrival where
  | pending
  | bytes (k : ℕ)
  | err (e : IoError)
  deriving DecidableEq

/-- The client's end of the connection: the bytes it has sent or will send and that have
not been read, and what the next reads find. -/
structure Socket where
  wire : List UInt8
  arrivals : List Arrival
  deriving DecidableEq

instance : AsyncRead Socket where
  pollRead io n :=
    match io.arrivals with
    | [] => (.pending, io)
    | .pending :: as => (.pending, { io with arrivals := as })
    | .err e :: as => (.err e, { io with arrivals := as })
    | .bytes k :: as =>
        (.ready (io.wire.take (min (k + 1) n)), ⟨io.wire.drop (min (k + 1) n), as⟩)

theorem source_socket : CorkStream.Source Socket.wire where
  reads := by
    intro io n r io' h
    simp only [AsyncRead.pollRead] at h
    split at h
    all_goals
      obtain ⟨rfl, rfl⟩ := Prod.mk.inj h
      simp only [InnerPoll.bytes, List.nil_append]
    rw [List.take_take, ← Nat.min_assoc, Nat.min_comm n, Nat.min_assoc, Nat.min_self,
      List.take_append_drop]
  ends := by
    intro io n bytes io' h hn hnil
    simp only [AsyncRead.pollRead] at h
    split at h
    · exact absurd (Prod.mk.inj h).1 (by simp)
    · exact absurd (Prod.mk.inj h).1 (by simp)
    · exact absurd (Prod.mk.inj h).1 (by simp)
    · rename_i k as _
      obtain ⟨hbytes, -⟩ := Prod.mk.inj h
      rw [← InnerPoll.ready.inj hbytes, List.take_take, List.take_eq_nil_iff] at hnil
      rcases hnil with hzero | hwire
      · omega
      · exact hwire

/-! ## The hand-over -/

/-- The size of the buffer of `drain`. -/
def drainSize : ℕ := 128 * 1024

/-- Where the hand-over stands. -/
inductive HandoverPhase where
  /-- in `tls_acceptor.accept` -/
  | accepting
  /-- in `drain`, with the bytes read so far -/
  | draining (filled : List UInt8)
  /-- `drain` has returned -/
  | drained (data : Option (List UInt8))
  /-- `config_ktls_server` has succeeded and `handle_client` has written the drained data -/
  | configured
  | failed
  deriving DecidableEq

/-- A connection whose TLS session is handed over. -/
structure Handover where
  cork : CorkStream Socket
  /-- The bytes consumed from the socket. -/
  taken : List UInt8
  /-- The bytes given to rustls. -/
  fed : List UInt8
  /-- The plaintext that rustls has handed out. -/
  yielded : List UInt8
  /-- The cork has answered rustls with an empty read. -/
  sawEmpty : Bool
  phase : HandoverPhase
  /-- The bytes written to the backend. -/
  backend : List UInt8
  deriving DecidableEq

/-- What happens. -/
inductive HandoverEvent where
  /-- rustls asks the cork for at most `room` bytes -/
  | ask (room : ℕ) (arrivals : List Arrival)
  /-- the handshake is over, and `config_ktls_server` is called -/
  | accepted
  /-- a read of `drain` gives plaintext -/
  | data (d : List UInt8)
  /-- a read of `drain` gives nothing -/
  | empty
  /-- a read of `drain` fails with `UnexpectedEof` -/
  | unexpectedEof
  /-- the handshake, or a read of `drain`, fails with another error -/
  | error
  /-- `setup_inner` succeeds or fails -/
  | setup (ok : Bool)

/-- `maybe_drained`. -/
def maybeDrained (filled : List UInt8) : Option (List UInt8) :=
  if filled.length = 0 then none else some filled

namespace Handover

/-- The connection when `accept` is called; the proxy-protocol header, if there is one, has
been written. -/
def start (rs : List ClientRecord) (proxyHeader : Option (List UInt8)) : Handover :=
  ⟨CorkStream.new ⟨encodeAll rs, []⟩, [], [], [], false, .accepting, proxyHeader.getD []⟩

/-- Rustls is running: in the handshake or in `drain`. -/
def running (s : Handover) : Bool :=
  match s.phase with
  | .accepting => true
  | .draining _ => true
  | _ => false

/-- The cork, at a moment when the next reads of the socket find `arrivals`. -/
def facing (s : Handover) (arrivals : List Arrival) : CorkStream Socket :=
  { s.cork with io := { s.cork.io with arrivals := arrivals } }

/-- One event. -/
def step (s : Handover) : HandoverEvent → Option Handover
  | .ask room arrivals =>
      if s.running then
        let p := (s.facing arrivals).pollRead room
        match p.poll with
        | .ready =>
            some { s with
              cork := p.stream
              taken := s.taken ++ p.taken
              fed := s.fed ++ p.put
              sawEmpty := s.sawEmpty || p.put.isEmpty }
        | .pending => some { s with cork := p.stream, taken := s.taken ++ p.taken }
        | .err _ =>
            some { s with cork := p.stream, taken := s.taken ++ p.taken, phase := .failed }
        | .panic _ => some { s with phase := .failed }
      else none
  | .accepted =>
      match s.phase with
      | .accepting => some { s with cork := { s.cork with corked := true }, phase := .draining [] }
      | _ => none
  | .data d =>
      match s.phase with
      | .draining filled =>
          -- a read of `drained[filled..]` that is not empty
          if d = [] ∨ drainSize < filled.length + d.length then none
          else some { s with yielded := s.yielded ++ d, phase := .draining (filled ++ d) }
      | _ => none
  | .empty =>
      match s.phase with
      | .draining filled => some { s with phase := .drained (maybeDrained filled) }
      | _ => none
  | .unexpectedEof =>
      match s.phase with
      | .draining filled => some { s with phase := .drained (maybeDrained filled) }
      | _ => none
  | .error => if s.running then some { s with phase := .failed } else none
  | .setup ok =>
      match s.phase with
      | .drained data =>
          if ok then
            some { s with
              backend := s.backend ++ ((KtlsStream.new data).intoRaw).getD []
              phase := .configured }
          else some { s with phase := .failed }
      | _ => none

/-- The records that rustls has been given completely. -/
def done (rs : List ClientRecord) (s : Handover) : List ClientRecord :=
  complete rs s.fed.length

/-- None of these records is without payload. -/
def Sane (rs : List ClientRecord) (s : Handover) : Prop := ∀ r ∈ s.done rs, r.payload ≠ []

/-- When a read of `drain` may give nothing, or `UnexpectedEof`. -/
def MayEnd (rs : List ClientRecord) (s : Handover) : Prop :=
  s.Sane rs ∧ ∀ filled, s.phase = .draining filled → filled.length < drainSize →
    s.yielded = appData (s.done rs) ∧
      (s.sawEmpty = true ∨ ∃ r ∈ s.done rs, r.content.closeNotify = true)

/-- What rustls does and does not do; `hold` bounds the plaintext it can hold. -/
def Lawful (rs : List ClientRecord) (hold : ℕ) (s : Handover) : HandoverEvent → Prop
  | .ask room _ => room ≠ 0 ∧ ∀ r ∈ s.done rs, r.content.closeNotify = false
  | .accepted => s.Sane rs ∧ (appData (s.done rs)).length ≤ hold
  | .data d => s.Sane rs ∧ s.yielded ++ d <+: appData (s.done rs)
  | .empty => s.MayEnd rs
  | .unexpectedEof => s.MayEnd rs
  | .error => True
  | .setup _ => True

instance (rs : List ClientRecord) (s : Handover) : Decidable (s.Sane rs) :=
  inferInstanceAs (Decidable (∀ r ∈ s.done rs, r.payload ≠ []))

instance (rs : List ClientRecord) (s : Handover) : Decidable (s.MayEnd rs) :=
  match hs : s.phase with
  | .draining filled =>
      decidable_of_iff (s.Sane rs ∧ (filled.length < drainSize → s.yielded = appData (s.done rs) ∧
        (s.sawEmpty = true ∨ ∃ r ∈ s.done rs, r.content.closeNotify = true)))
        (by simp [MayEnd, hs])
  | .accepting => decidable_of_iff (s.Sane rs) (by simp [MayEnd, hs])
  | .drained _ => decidable_of_iff (s.Sane rs) (by simp [MayEnd, hs])
  | .configured => decidable_of_iff (s.Sane rs) (by simp [MayEnd, hs])
  | .failed => decidable_of_iff (s.Sane rs) (by simp [MayEnd, hs])

instance (rs : List ClientRecord) (hold : ℕ) (s : Handover) (e : HandoverEvent) :
    Decidable (s.Lawful rs hold e) := by
  cases e <;> unfold Lawful <;> infer_instance

/-! ## Records and bytes -/

variable {rs : List ClientRecord} {s t : Handover}

/-- The bytes of the connection: what was consumed and what was not are the client's
records, the cork follows them, and it only forwards when nothing is left. -/
structure Wired (rs : List ClientRecord) (s : Handover) : Prop where
  wire : s.taken ++ s.cork.io.wire = encodeAll rs
  framed : CorkStream.Framed s.cork.state s.taken s.fed
  through : s.cork.state = .passthrough → s.cork.io.wire = []

/-- The bytes consumed are whole records, and rustls has all of them. -/
def AtBoundary (rs : List ClientRecord) (s : Handover) : Prop :=
  ∃ pre post, rs = pre ++ post ∧ s.taken = encodeAll pre ∧ s.fed = encodeAll pre ∧
    s.cork.io.wire = encodeAll post

/-- No read of the cork will consume anything any more. -/
def Stuck (s : Handover) : Prop :=
  (s.cork.corked = true ∧ s.cork.state = .readHeader []) ∨ s.cork.io.wire = []

theorem AtBoundary.done_eq (h : s.AtBoundary rs) :
    ∃ pre post, rs = pre ++ post ∧ s.taken = encodeAll pre ∧ s.cork.io.wire = encodeAll post ∧
      s.done rs = pre := by
  obtain ⟨pre, post, rfl, htaken, hfed, hwire⟩ := h
  refine ⟨pre, post, rfl, htaken, hwire, ?_⟩
  rw [done, hfed, complete_encodeAll]

/-- In state `ReadHeader`, the records fed are complete, and the bytes held back belong to
the next one. -/
theorem Wired.header (hW : s.Wired rs) {header : List UInt8}
    (hs : s.cork.state = .readHeader header) :
    ∃ pre post, rs = pre ++ post ∧ s.fed = encodeAll pre ∧ s.taken = encodeAll pre ++ header ∧
      header ++ s.cork.io.wire = encodeAll post ∧ header.length < 5 := by
  have hF := hW.framed
  rw [hs] at hF
  obtain ⟨hlen, hwhole, htaken⟩ := hF
  have hwire := hW.wire
  rw [htaken, List.append_assoc] at hwire
  obtain ⟨pre, post, hrs, hpre, hpost⟩ := hwhole.eq_encodeAll hwire
  exact ⟨pre, post, hrs, hpre, by rw [htaken, hpre], hpost, hlen⟩

/-- In state `ReadPayload`, the record that is being read is the next one. -/
theorem Wired.payload (hW : s.Wired rs) {msgSize offset : ℕ}
    (hs : s.cork.state = .readPayload msgSize offset) :
    ∃ pre r post, rs = pre ++ r :: post ∧ r.payload.length = msgSize ∧
      (offset < msgSize ∨ (msgSize = 0 ∧ offset = 0)) ∧
      s.fed = encodeAll pre ++ (Records.header r ++ r.payload.take offset) ∧ s.taken = s.fed ∧
      s.cork.io.wire = r.payload.drop offset ++ encodeAll post := by
  have hF := hW.framed
  rw [hs] at hF
  obtain ⟨bs, h, payload, hwhole, hlen, hsize, hoff, hlt, hfed, htaken⟩ := hF
  have hwire := hW.wire
  rw [htaken, hfed, List.append_assoc, List.append_assoc] at hwire
  obtain ⟨pre, post, hrs, hpre, hpost⟩ := hwhole.eq_encodeAll hwire
  obtain ⟨r, rest, hcons, hh, hr, hpay, hw⟩ := eq_cons_of_payload hlen hpost (by omega)
  rw [hoff] at hpay hw
  refine ⟨pre, r, rest, by rw [hrs, hcons], by omega, hlt, ?_, htaken, hw⟩
  rw [hfed, hpre, hh, ← hpay, List.append_assoc]

theorem Wired.atBoundary_of_header (hW : s.Wired rs) (hs : s.cork.state = .readHeader []) :
    s.AtBoundary rs := by
  obtain ⟨pre, post, hrs, hfed, htaken, hpost, -⟩ := hW.header hs
  exact ⟨pre, post, hrs, by rw [htaken, List.append_nil], hfed, hpost⟩

/-- Where nothing is left, all records were read to their end. -/
theorem Wired.atBoundary_of_wire (hW : s.Wired rs) (hs : s.cork.io.wire = []) :
    s.AtBoundary rs := by
  have htaken : s.taken = encodeAll rs := by
    have hwire := hW.wire
    rwa [hs, List.append_nil] at hwire
  have hfed : s.fed = encodeAll rs := by
    cases hstate : s.cork.state with
    | readHeader h =>
      obtain ⟨pre, post, hrs, hfed, -, hpost, hlen⟩ := hW.header hstate
      rw [hs, List.append_nil] at hpost
      obtain ⟨hnil, -⟩ := eq_nil_of_length_lt hpost hlen
      rw [hfed, hrs, hnil, List.append_nil]
    | readPayload msgSize offset =>
      obtain ⟨pre, r, post, -, -, -, -, heq, -⟩ := hW.payload hstate
      rw [← heq, htaken]
    | passthrough =>
      have hF := hW.framed
      rw [hstate] at hF
      have heq : s.taken = s.fed := hF
      rw [← heq, htaken]
  exact ⟨rs, [], by rw [List.append_nil], htaken, hfed, hs⟩

theorem Wired.atBoundary_of_stuck (hW : s.Wired rs) (hs : s.Stuck) : s.AtBoundary rs := by
  rcases hs with ⟨-, hstate⟩ | hwire
  · exact hW.atBoundary_of_header hstate
  · exact hW.atBoundary_of_wire hwire

/-! ## Rustls asks -/

/-- The state after a call of the cork that has not panicked. -/
structure Asked (s : Handover) (room : ℕ) (p : CorkPolled Socket) (t : Handover) : Prop where
  call : ∃ arrivals, p = (s.facing arrivals).pollRead room
  noPanic : CorkStream.NoPanic p
  cork : t.cork = p.stream
  taken : t.taken = s.taken ++ p.taken
  fed : t.fed = s.fed ++ p.put

variable {room : ℕ} {p : CorkPolled Socket}

theorem Asked.wire (ha : s.Asked room p t) :
    s.cork.io.wire = p.taken ++ t.cork.io.wire ∧ (p.eof = true → t.cork.io.wire = []) := by
  obtain ⟨arrivals, hp⟩ := ha.call
  rw [ha.cork, hp]
  exact CorkStream.rest_pollRead source_socket (s.facing arrivals) room

theorem Asked.corked (ha : s.Asked room p t) : t.cork.corked = s.cork.corked := by
  obtain ⟨arrivals, hp⟩ := ha.call
  rw [ha.cork, hp]
  exact CorkStream.corked_pollRead

theorem Asked.headerShape (ha : s.Asked room p t) {header : List UInt8}
    (hs : s.cork.state = .readHeader header) (hlen : header.length < 5) :
    CorkStream.HeaderShape s.cork.corked header p := by
  obtain ⟨arrivals, hp⟩ := ha.call
  have hpanic := ha.noPanic
  have hface : (s.facing arrivals).state = .readHeader header := hs
  rw [hp] at hpanic ⊢
  exact CorkStream.pollRead_header hface hlen hpanic

theorem Asked.payloadShape (ha : s.Asked room p t) {msgSize offset : ℕ}
    (hs : s.cork.state = .readPayload msgSize offset) :
    CorkStream.PayloadShape room msgSize offset p := by
  obtain ⟨arrivals, hp⟩ := ha.call
  have hpanic := ha.noPanic
  have hface : (s.facing arrivals).state = .readPayload msgSize offset := hs
  rw [hp] at hpanic ⊢
  exact CorkStream.pollRead_payload hface hpanic

theorem Asked.throughShape (ha : s.Asked room p t) (hs : s.cork.state = .passthrough) :
    CorkStream.ThroughShape room p := by
  obtain ⟨arrivals, hp⟩ := ha.call
  have hface : (s.facing arrivals).state = .passthrough := hs
  rw [hp]
  exact CorkStream.pollRead_through hface

/-- Where nothing is left, nothing is taken. -/
theorem Asked.of_wire_nil (ha : s.Asked room p t) (hs : s.cork.io.wire = []) :
    p.taken = [] ∧ t.cork.io.wire = [] := by
  have hwire := ha.wire.1
  rw [hs] at hwire
  exact List.append_eq_nil_iff.mp hwire.symm

theorem Asked.wired (ha : s.Asked room p t) (hW : s.Wired rs) : t.Wired rs := by
  refine ⟨?_, ?_, ?_⟩
  · rw [ha.taken, List.append_assoc, ← ha.wire.1, hW.wire]
  · obtain ⟨arrivals, hp⟩ := ha.call
    have hpanic := ha.noPanic
    rw [ha.cork, ha.taken, ha.fed, hp]
    rw [hp] at hpanic
    exact CorkStream.framed_pollRead hW.framed hpanic
  · rw [ha.cork]
    intro hthrough
    cases hs : s.cork.state with
    | readHeader h =>
      obtain ⟨_, _, -, -, -, -, hlen⟩ := hW.header hs
      cases ha.headerShape hs hlen with
      | corked _ _ _ _ _ hstate => exact absurd (hstate.symm.trans hthrough) (by simp)
      | wait _ _ hstate _ => exact absurd (hstate.symm.trans hthrough) (by simp)
      | eof _ _ _ _ heof => exact ha.cork ▸ ha.wire.2 heof
      | full _ _ _ hstate => exact absurd (hstate.symm.trans hthrough) (by simp)
    | readPayload msgSize offset =>
      cases ha.payloadShape hs with
      | wait _ _ _ hstate => exact absurd (hstate.symm.trans hthrough) (by simp)
      | read _ _ _ hstate _ =>
        rw [hstate] at hthrough
        split at hthrough
        · exact absurd hthrough (by simp)
        · exact absurd hthrough (by simp)
    | passthrough => exact ha.cork ▸ (ha.of_wire_nil (hW.through hs)).2

/-- Where nothing is left, nothing is given. -/
theorem Asked.put_of_wire_nil (ha : s.Asked room p t) (hW : s.Wired rs)
    (hwire : s.cork.io.wire = []) : p.put = [] := by
  obtain ⟨htaken, -⟩ := ha.of_wire_nil hwire
  cases hs : s.cork.state with
  | readHeader h =>
    obtain ⟨_, _, -, -, -, hpost, hlen⟩ := hW.header hs
    rw [hwire, List.append_nil] at hpost
    obtain ⟨-, hnil⟩ := eq_nil_of_length_lt hpost hlen
    cases ha.headerShape hs hlen with
    | corked _ _ _ hput _ _ => exact hput
    | wait _ hput _ _ => exact hput
    | eof _ hput _ _ _ => rw [hput, htaken, hnil, List.append_nil]
    | full _ hput _ _ => rw [hput, htaken, hnil, List.append_nil]
  | readPayload msgSize offset =>
    cases ha.payloadShape hs with
    | wait _ hput _ _ => exact hput
    | read _ heq _ _ _ => rw [← heq, htaken]
  | passthrough => rw [← (ha.throughShape hs).taken, htaken]

/-- A cork that is stuck stays stuck, and gives nothing. -/
theorem Asked.stuck (ha : s.Asked room p t) (hW : s.Wired rs) (hs : s.Stuck) :
    t.Stuck ∧ t.fed = s.fed := by
  rcases hs with ⟨hcorked, hstate⟩ | hwire
  · obtain ⟨arrivals, hp⟩ := ha.call
    have hface : (s.facing arrivals).pollRead room =
        { stream := s.facing arrivals, poll := .ready } :=
      CorkStream.pollRead_corked hstate hcorked
    rw [hface] at hp
    refine ⟨Or.inl ⟨ha.corked.trans hcorked, ?_⟩, ?_⟩
    · rw [ha.cork, hp]
      exact hstate
    · rw [ha.fed, hp, List.append_nil]
  · refine ⟨Or.inr (ha.of_wire_nil hwire).2, ?_⟩
    rw [ha.fed, ha.put_of_wire_nil hW hwire, List.append_nil]

/-! ## The records that rustls has -/

/-- In state `ReadHeader`, the records that rustls has are those in front of the header. -/
theorem Wired.done_of_header (hW : s.Wired rs) {h : List UInt8}
    (hs : s.cork.state = .readHeader h) :
    ∃ pre post, rs = pre ++ post ∧ s.fed = encodeAll pre ∧ h ++ s.cork.io.wire = encodeAll post ∧
      h.length < 5 ∧ s.done rs = pre := by
  obtain ⟨pre, post, rfl, hfed, -, hpost, hlen⟩ := hW.header hs
  exact ⟨pre, post, rfl, hfed, hpost, hlen, by rw [done, hfed, complete_encodeAll]⟩

theorem Asked.done_of_put (ha : s.Asked room p t) (hput : p.put = []) : t.done rs = s.done rs := by
  rw [Handover.done, Handover.done, ha.fed, hput, List.append_nil]

/-- The header of a record completes it only if the record has no payload. -/
theorem Asked.done_of_header (ha : s.Asked room p t) (hW : s.Wired rs) {h : List UInt8}
    (hs : s.cork.state = .readHeader h) :
    t.done rs = s.done rs ∨ ∃ r ∈ rs, t.done rs = s.done rs ++ [r] ∧ r.payload = [] := by
  obtain ⟨pre, post, rfl, hfed, hpost, hlen, hdone⟩ := hW.done_of_header hs
  cases ha.headerShape hs hlen with
  | corked _ _ _ hput _ _ => exact Or.inl (ha.done_of_put hput)
  | wait _ hput _ _ => exact Or.inl (ha.done_of_put hput)
  | eof _ hput hlen' _ heof =>
    -- nothing is left, so the bytes held back are no part of a record
    have hwire := ha.wire.1
    rw [ha.wire.2 heof, List.append_nil] at hwire
    rw [hwire] at hpost
    obtain ⟨-, hnil⟩ := eq_nil_of_length_lt hpost hlen'
    exact Or.inl (ha.done_of_put (hput.trans hnil))
  | full _ hput hfive _ =>
    rw [ha.wire.1, ← List.append_assoc] at hpost
    obtain ⟨r, rest, rfl, hh, -⟩ := eq_cons_of_header hfive hpost
    have hnext := complete_next pre r rest (n := 5) (by rw [length_encode]; omega)
    have htdone : t.done (pre ++ r :: rest) =
        complete (pre ++ r :: rest) ((encodeAll pre).length + 5) := by
      rw [Handover.done, ha.fed, hfed, hput, List.length_append, hfive]
    rw [htdone, hnext, hdone]
    split
    · rename_i heq
      rw [length_encode] at heq
      exact Or.inr ⟨r, by simp, rfl, List.length_eq_zero_iff.mp (by omega)⟩
    · exact Or.inl rfl

/-- The payload of a record completes it when its last byte is there. -/
theorem Asked.done_of_payload (ha : s.Asked room p t) (hW : s.Wired rs) {msgSize offset : ℕ}
    (hs : s.cork.state = .readPayload msgSize offset) :
    t.done rs = s.done rs ∨ ∃ r ∈ rs, t.done rs = s.done rs ++ [r] ∧
      t.cork.state = .readHeader [] := by
  obtain ⟨pre, r, post, rfl, hsize, hlt, hfed, -, -⟩ := hW.payload hs
  have hcount : s.fed.length = (encodeAll pre).length + (5 + offset) := by
    rw [hfed, List.length_append, List.length_append, length_header, List.length_take]
    omega
  have hlen := length_encode r
  cases ha.payloadShape hs with
  | wait _ hput _ _ => exact Or.inl (ha.done_of_put hput)
  | read _ _ hle hstate _ =>
    have hsdone := complete_next pre r post (n := 5 + offset) (by omega)
    have htdone := complete_next pre r post (n := 5 + offset + p.put.length) (by omega)
    have htcount : t.fed.length = (encodeAll pre).length + (5 + offset + p.put.length) := by
      rw [ha.fed, List.length_append, hcount]
      omega
    rw [Handover.done, Handover.done, hcount, htcount, hsdone, htdone]
    by_cases hfull : 5 + offset + p.put.length = (encode r).length
    · rw [if_pos hfull]
      by_cases hwas : 5 + offset = (encode r).length
      · exact Or.inl (by rw [if_pos hwas])
      · refine Or.inr ⟨r, by simp, by rw [if_neg hwas], ?_⟩
        rw [ha.cork, hstate, if_pos (by omega)]
    · rw [if_neg hfull, if_neg (by omega)]
      exact Or.inl rfl

/-- **One call completes at most one record**, and then the cork is at its end --- or the
record has no payload. -/
theorem Asked.done (ha : s.Asked room p t) (hW : s.Wired rs) :
    t.done rs = s.done rs ∨ ∃ r ∈ rs, t.done rs = s.done rs ++ [r] ∧
      (t.cork.state = .readHeader [] ∨ r.payload = []) := by
  cases hs : s.cork.state with
  | readHeader h =>
    rcases ha.done_of_header hW hs with hsame | ⟨r, hr, hdone, hnil⟩
    · exact Or.inl hsame
    · exact Or.inr ⟨r, hr, hdone, Or.inr hnil⟩
  | readPayload msgSize offset =>
    rcases ha.done_of_payload hW hs with hsame | ⟨r, hr, hdone, hstate⟩
    · exact Or.inl hsame
    · exact Or.inr ⟨r, hr, hdone, Or.inl hstate⟩
  | passthrough => exact Or.inl (ha.done_of_put (ha.put_of_wire_nil hW (hW.through hs)))

/-- An empty read of rustls leaves the cork stuck, if no record is without payload. -/
theorem Asked.stuck_of_empty (ha : s.Asked room p t) (hW : s.Wired rs) (hroom : room ≠ 0)
    (hready : p.poll = .ready) (hput : p.put = []) (hsane : s.Sane rs) : t.Stuck := by
  cases hs : s.cork.state with
  | readHeader h =>
    obtain ⟨_, _, -, -, -, -, hlen⟩ := hW.header hs
    cases ha.headerShape hs hlen with
    | corked _ hcorked _ _ _ hstate => exact Or.inl ⟨ha.corked.trans hcorked, ha.cork ▸ hstate⟩
    | wait hpoll _ _ _ => exact absurd hready hpoll
    | eof _ _ _ _ heof => exact Or.inr (ha.wire.2 heof)
    | full _ hfull hfive _ =>
      rw [← hfull, hput] at hfive
      exact absurd hfive (by simp)
  | readPayload msgSize offset =>
    cases ha.payloadShape hs with
    | wait hpoll _ _ _ => exact absurd hready hpoll
    | read _ _ _ _ heof =>
      obtain ⟨pre, r, post, rfl, hsize, hlt | ⟨hzero, hoff⟩, hfed, -, -⟩ := hW.payload hs
      · exact Or.inr (ha.wire.2 (heof hput hroom hlt))
      · -- the record has no payload, and rustls has it
        have hnil : r.payload = [] := List.length_eq_zero_iff.mp (hsize.trans hzero)
        have hdone : s.done (pre ++ r :: post) = pre ++ [r] := by
          have hnext := complete_next pre r post (n := 5) (by rw [length_encode]; omega)
          rw [if_pos (by rw [length_encode, hsize, hzero])] at hnext
          rw [Handover.done, hfed, hoff, List.take_zero, List.append_nil, List.length_append,
            length_header, hnext]
        exact absurd hnil (hsane r (by rw [hdone]; simp))
  | passthrough => exact Or.inr (ha.wire.2 ((ha.throughShape hs).eof hready hput hroom))

theorem Asked.sane (ha : s.Asked room p t) (hW : s.Wired rs) (ht : t.Sane rs) : s.Sane rs := by
  rcases ha.done hW with hdone | ⟨r, -, hdone, -⟩
  · rwa [Sane, hdone] at ht
  · intro r' hr'
    exact ht r' (by rw [hdone]; exact List.mem_append_left _ hr')

/-! ## The invariant of the bytes -/

/-- What holds of the cork and its bytes in every phase.  As long as no record was without
payload, an empty read means that the cork is stuck, and a `close_notify` that the bytes end
at a boundary. -/
structure Sound (rs : List ClientRecord) (s : Handover) : Prop where
  wired : s.Wired rs
  empty : s.Sane rs → s.sawEmpty = true → s.Stuck
  close : s.Sane rs → (∃ r ∈ s.done rs, r.content.closeNotify = true) → s.AtBoundary rs

/-- From `s` to `t` the cork is not called; it may be set. -/
structure Quiet (s t : Handover) : Prop where
  io : t.cork.io = s.cork.io
  state : t.cork.state = s.cork.state
  corked : s.cork.corked = true → t.cork.corked = true
  taken : t.taken = s.taken
  fed : t.fed = s.fed
  sawEmpty : t.sawEmpty = s.sawEmpty

theorem Quiet.done (hq : Quiet s t) : t.done rs = s.done rs := by
  rw [Handover.done, Handover.done, hq.fed]

theorem Quiet.sane (hq : Quiet s t) (ht : t.Sane rs) : s.Sane rs := by
  rwa [Sane, hq.done] at ht

theorem Quiet.stuck (hq : Quiet s t) (hs : s.Stuck) : t.Stuck := by
  rcases hs with ⟨hcorked, hstate⟩ | hwire
  · exact Or.inl ⟨hq.corked hcorked, hq.state.trans hstate⟩
  · exact Or.inr (by rw [hq.io, hwire])

theorem Sound.of_quiet (hS : s.Sound rs) (hq : Quiet s t) : t.Sound rs := by
  obtain ⟨hwire, hframed, hthrough⟩ := hS.wired
  refine ⟨⟨?_, ?_, ?_⟩, fun hsane hempty => ?_, fun hsane hclose => ?_⟩
  · rwa [hq.taken, hq.io]
  · rwa [hq.state, hq.taken, hq.fed]
  · rwa [hq.state, hq.io]
  · exact hq.stuck (hS.empty (hq.sane hsane) (hq.sawEmpty ▸ hempty))
  · rw [hq.done] at hclose
    have hboundary := hS.close (hq.sane hsane) hclose
    rwa [AtBoundary, hq.taken, hq.fed, hq.io]

theorem sound_start (rs : List ClientRecord) (proxyHeader : Option (List UInt8)) :
    (start rs proxyHeader).Sound rs := by
  have hdone : (start rs proxyHeader).done rs = [] := complete_encodeAll [] rs
  refine ⟨⟨rfl, ⟨by simp, .nil, rfl⟩, fun h => absurd h (by simp [start, CorkStream.new])⟩,
    fun _ h => absurd h (by simp [start]), fun _ => ?_⟩
  rintro ⟨r, hr, -⟩
  rw [hdone] at hr
  exact absurd hr (by simp)

theorem Sound.of_asked (hS : s.Sound rs) (ha : s.Asked room p t) (hroom : room ≠ 0)
    (hopen : ∀ r ∈ s.done rs, r.content.closeNotify = false)
    (hempty : t.sawEmpty = true → s.sawEmpty = true ∨ (p.poll = .ready ∧ p.put = [])) :
    t.Sound rs := by
  have hW := hS.wired
  refine ⟨ha.wired hW, fun hsane hsaw => ?_, ?_⟩
  · have hsane' := ha.sane hW hsane
    rcases hempty hsaw with hbefore | ⟨hready, hput⟩
    · exact (ha.stuck hW (hS.empty hsane' hbefore)).1
    · exact ha.stuck_of_empty hW hroom hready hput hsane'
  · rintro hsane ⟨r, hr, hclose⟩
    rcases ha.done hW with hdone | ⟨r', -, hdone, hstate⟩
    · rw [hdone] at hr
      exact absurd hclose (by rw [hopen r hr]; simp)
    · -- the `close_notify` is in the record that this call has completed
      refine (ha.wired hW).atBoundary_of_header (hstate.resolve_right ?_)
      exact hsane r' (by rw [hdone]; simp)

/-! ## The steps -/

/-- The steps as a relation.  A panic of the cork ends the connection and changes nothing
else; any other call is `Asked`, and leaves rustls where it was or ends the connection. -/
inductive Step (s : Handover) : HandoverEvent → Handover → Prop
  | panicked {room : ℕ} {arrivals : List Arrival} (hrunning : s.running = true) :
      Step s (.ask room arrivals) { s with phase := .failed }
  | asked {room : ℕ} {arrivals : List Arrival} {p : CorkPolled Socket} {t : Handover}
      (hrunning : s.running = true) (ha : s.Asked room p t) (hyielded : t.yielded = s.yielded)
      (hbackend : t.backend = s.backend) (hphase : t.phase = s.phase ∨ t.phase = .failed)
      (hempty : t.sawEmpty = true → s.sawEmpty = true ∨ (p.poll = .ready ∧ p.put = [])) :
      Step s (.ask room arrivals) t
  | accepted (hphase : s.phase = .accepting) :
      Step s .accepted { s with cork := { s.cork with corked := true }, phase := .draining [] }
  | data {d filled : List UInt8} (hphase : s.phase = .draining filled)
      (hroom : filled.length + d.length ≤ drainSize) :
      Step s (.data d) { s with yielded := s.yielded ++ d, phase := .draining (filled ++ d) }
  | empty {filled : List UInt8} (hphase : s.phase = .draining filled) :
      Step s .empty { s with phase := .drained (maybeDrained filled) }
  | unexpectedEof {filled : List UInt8} (hphase : s.phase = .draining filled) :
      Step s .unexpectedEof { s with phase := .drained (maybeDrained filled) }
  | error (hrunning : s.running = true) : Step s .error { s with phase := .failed }
  | configured {data : Option (List UInt8)} (hphase : s.phase = .drained data) :
      Step s (.setup true) { s with
        backend := s.backend ++ ((KtlsStream.new data).intoRaw).getD []
        phase := .configured }
  | refused {data : Option (List UInt8)} (hphase : s.phase = .drained data) :
      Step s (.setup false) { s with phase := .failed }

theorem Step.of_ask {arrivals : List Arrival} (h : s.step (.ask room arrivals) = some t) :
    Step s (.ask room arrivals) t := by
  rw [step] at h
  obtain ⟨hrunning, h⟩ := Option.ite_none_right_eq_some.mp h
  simp only at h
  split at h
  all_goals
    rename_i hpoll
    obtain rfl := Option.some.inj h
  · refine .asked hrunning ⟨⟨arrivals, rfl⟩, fun _ => by rw [hpoll]; simp, rfl, rfl, rfl⟩ rfl rfl
      (Or.inl rfl) fun hempty => ?_
    rcases Bool.or_eq_true_iff.mp hempty with hsaw | hput
    · exact Or.inl hsaw
    · exact Or.inr ⟨hpoll, List.isEmpty_iff.mp hput⟩
  · have hput := CorkStream.put_pollRead (by rw [hpoll]; simp)
    refine .asked hrunning ⟨⟨arrivals, rfl⟩, fun _ => by rw [hpoll]; simp, rfl, rfl, ?_⟩ rfl rfl
      (Or.inl rfl) Or.inl
    rw [hput, List.append_nil]
  · have hput := CorkStream.put_pollRead (by rw [hpoll]; simp)
    refine .asked hrunning ⟨⟨arrivals, rfl⟩, fun _ => by rw [hpoll]; simp, rfl, rfl, ?_⟩ rfl rfl
      (Or.inr rfl) Or.inl
    rw [hput, List.append_nil]
  · exact .panicked hrunning

/-- **The step function takes no other step.** -/
theorem Step.of_step {e : HandoverEvent} (h : s.step e = some t) : Step s e t := by
  cases e with
  | ask room arrivals => exact .of_ask h
  | error =>
    obtain ⟨hrunning, ht⟩ := Option.ite_none_right_eq_some.mp h
    exact Option.some.inj ht ▸ .error hrunning
  | accepted =>
    rw [step] at h
    split at h
    · rename_i hphase
      exact Option.some.inj h ▸ .accepted hphase
    · exact absurd h (by simp)
  | data d =>
    rw [step] at h
    split at h
    · rename_i filled hphase
      obtain ⟨hroom, ht⟩ := Option.ite_none_left_eq_some.mp h
      exact Option.some.inj ht ▸ .data hphase (Nat.not_lt.mp (not_or.mp hroom).2)
    · exact absurd h (by simp)
  | empty =>
    rw [step] at h
    split at h
    · rename_i filled hphase
      exact Option.some.inj h ▸ .empty hphase
    · exact absurd h (by simp)
  | unexpectedEof =>
    rw [step] at h
    split at h
    · rename_i filled hphase
      exact Option.some.inj h ▸ .unexpectedEof hphase
    · exact absurd h (by simp)
  | setup ok =>
    rw [step] at h
    split at h
    · rename_i data hphase
      cases ok with
      | true => exact Option.some.inj h ▸ .configured hphase
      | false => exact Option.some.inj h ▸ .refused hphase
    · exact absurd h (by simp)

theorem running_of_draining {filled : List UInt8} (h : s.phase = .draining filled) :
    s.running = true := by
  rw [running, h]

theorem running_ne_configured (h : s.running = true) : s.phase ≠ .configured := by
  intro hphase
  rw [running, hphase] at h
  exact absurd h (by simp)

/-- Every step but `setup_inner` is one of rustls. -/
theorem running_of_step {e : HandoverEvent} (h : s.step e = some t) (hne : ∀ ok, e ≠ .setup ok) :
    s.running = true ∧ t.phase ≠ .configured := by
  cases Step.of_step h with
  | panicked hrunning => exact ⟨hrunning, by simp⟩
  | asked hrunning _ _ _ hphase _ =>
    refine ⟨hrunning, ?_⟩
    rcases hphase with hsame | hfailed
    · rw [hsame]
      exact running_ne_configured hrunning
    · simp [hfailed]
  | accepted hphase => exact ⟨by rw [running, hphase], by simp⟩
  | data hphase _ => exact ⟨running_of_draining hphase, by simp⟩
  | empty hphase => exact ⟨running_of_draining hphase, by simp⟩
  | unexpectedEof hphase => exact ⟨running_of_draining hphase, by simp⟩
  | error hrunning => exact ⟨hrunning, by simp⟩
  | configured | refused => exact absurd rfl (hne _)

/-- Rustls does not forget records. -/
theorem done_of_step {e : HandoverEvent} (hW : s.Wired rs) (h : s.step e = some t) :
    s.done rs <+: t.done rs := by
  cases Step.of_step h with
  | asked _ ha _ _ _ _ =>
    rcases ha.done hW with hdone | ⟨r, -, hdone, -⟩
    · exact hdone ▸ List.prefix_rfl
    · exact hdone ▸ List.prefix_append _ _
  | _ => exact List.prefix_rfl

/-- The handshake ends in one way only. -/
theorem accepted_of_step {e : HandoverEvent} (h : s.step e = some t)
    (hphase : s.phase = .accepting) :
    t.phase = .accepting ∨ t.phase = .failed ∨ e = .accepted := by
  cases Step.of_step h with
  | panicked | error => exact Or.inr (Or.inl rfl)
  | asked _ _ _ _ hnext _ => exact hnext.imp (fun hsame => hsame.trans hphase) Or.inl
  | accepted => exact Or.inr (Or.inr rfl)
  | data hno | empty hno | unexpectedEof hno | configured hno | refused hno =>
    exact absurd (hphase.symm.trans hno) (by simp)

theorem of_setup {ok : Bool} (h : s.step (.setup ok) = some t) :
    ∃ data, s.phase = .drained data ∧ t.cork = s.cork ∧ t.taken = s.taken ∧ t.fed = s.fed ∧
      t.phase = if ok then .configured else .failed := by
  cases Step.of_step h with
  | @configured data hphase => exact ⟨data, hphase, rfl, rfl, rfl, rfl⟩
  | @refused data hphase => exact ⟨data, hphase, rfl, rfl, rfl, rfl⟩

/-! ## The invariant of the phases -/

/-- In `drain`, with `filled` read so far.  Once the cork is set, rustls is given at most one
more record, so what it has decrypted is at most what it held before and that record. -/
structure Draining (rs : List ClientRecord) (hold record : ℕ) (s : Handover)
    (filled : List UInt8) : Prop where
  yielded : s.yielded = filled
  corked : s.cork.corked = true
  size : filled.length ≤ drainSize
  data : filled <+: appData (s.done rs)
  held : s.Sane rs → (appData (s.done rs)).length ≤ hold ∨
    ((appData (s.done rs)).length ≤ hold + record ∧ s.Stuck)

/-- The bytes consumed are whole records, and `data` is their application data. -/
def Delivered (rs : List ClientRecord) (s : Handover) (data : List UInt8) : Prop :=
  ∃ pre post, rs = pre ++ post ∧ s.taken = encodeAll pre ∧ s.cork.io.wire = encodeAll post ∧
    data = appData pre

/-- What holds in each phase; `h` has been written to the backend before. -/
def InPhase (rs : List ClientRecord) (h : List UInt8) (hold record : ℕ) (s : Handover) :
    HandoverPhase → Prop
  | .accepting => s.yielded = [] ∧ s.backend = h
  | .draining filled => s.Draining rs hold record filled ∧ s.backend = h
  | .drained data => s.Delivered rs (data.getD []) ∧ s.backend = h
  | .configured => ∃ data, s.Delivered rs data ∧ s.backend = h ++ data
  | .failed => True

structure Inv (rs : List ClientRecord) (h : List UInt8) (hold record : ℕ) (s : Handover) :
    Prop where
  sound : s.Sound rs
  phase : s.InPhase rs h hold record s.phase

variable {hold record : ℕ} {filled : List UInt8}

theorem Draining.of_asked (hD : s.Draining rs hold record filled)
    (happ : ∀ r ∈ rs, r.content.app.length ≤ record) (hW : s.Wired rs)
    (ha : s.Asked room p t) (hyielded : t.yielded = s.yielded) :
    t.Draining rs hold record filled := by
  have hcorked : t.cork.corked = true := ha.corked.trans hD.corked
  rcases ha.done hW with hdone | ⟨r, hr, hdone, hstate⟩
  · refine ⟨hyielded.trans hD.yielded, hcorked, hD.size, hdone ▸ hD.data, fun hsane => ?_⟩
    rw [hdone]
    rcases hD.held (ha.sane hW hsane) with hle | ⟨hle, hstuck⟩
    · exact Or.inl hle
    · exact Or.inr ⟨hle, (ha.stuck hW hstuck).1⟩
  · have hlen : (appData (t.done rs)).length =
        (appData (s.done rs)).length + r.content.app.length := by
      rw [hdone, appData_append, List.length_append]
      simp [appData]
    refine ⟨hyielded.trans hD.yielded, hcorked, hD.size, ?_, fun hsane => ?_⟩
    · rw [hdone, appData_append]
      exact hD.data.trans (List.prefix_append _ _)
    · have hpayload : r.payload ≠ [] := hsane r (by rw [hdone]; simp)
      rcases hD.held (ha.sane hW hsane) with hle | ⟨-, hstuck⟩
      · have hrecord := happ r hr
        exact Or.inr ⟨by omega, Or.inl ⟨hcorked, hstate.resolve_right hpayload⟩⟩
      · -- a stuck cork completes no record
        have hsame : t.done rs = s.done rs := by
          rw [Handover.done, Handover.done, (ha.stuck hW hstuck).2]
        rw [hsame] at hdone
        exact absurd hdone (by simp)

/-- **When `drain` ends, it has read all there is to read.**  With room left in the buffer
this is what rustls promises; a full buffer holds everything because the plaintext fits. -/
theorem Draining.delivered (hD : s.Draining rs hold record filled) (hrecord : 0 < record)
    (hfit : hold + record ≤ drainSize) (hS : s.Sound rs) (hphase : s.phase = .draining filled)
    (hend : s.MayEnd rs) : s.Delivered rs filled := by
  obtain ⟨hsane, hend⟩ := hend
  have hall : s.AtBoundary rs ∧ filled = appData (s.done rs) := by
    by_cases hroom : filled.length < drainSize
    · obtain ⟨hyielded, hwhy⟩ := hend filled hphase hroom
      refine ⟨?_, hD.yielded.symm.trans hyielded⟩
      rcases hwhy with hsaw | hclose
      · exact hS.wired.atBoundary_of_stuck (hS.empty hsane hsaw)
      · exact hS.close hsane hclose
    · have hle := hD.data.length_le
      rcases hD.held hsane with hhold | ⟨hhold, hstuck⟩
      · omega
      · exact ⟨hS.wired.atBoundary_of_stuck hstuck, hD.data.eq_of_length (by omega)⟩
  obtain ⟨pre, post, hrs, htaken, hwire, hdone⟩ := hall.1.done_eq
  exact ⟨pre, post, hrs, htaken, hwire, by rw [hall.2, hdone]⟩

@[simp] theorem getD_maybeDrained (filled : List UInt8) :
    (maybeDrained filled).getD [] = filled := by
  unfold maybeDrained
  split
  · rename_i hzero
    rw [List.length_eq_zero_iff.mp hzero]
    rfl
  · rfl

@[simp] theorem intoRaw_new (data : Option (List UInt8)) :
    (KtlsStream.new data).intoRaw = data := by
  cases data <;> rfl

theorem inPhase_of_asked {h : List UInt8} (hI : s.Inv rs h hold record)
    (happ : ∀ r ∈ rs, r.content.app.length ≤ record) (hrun : s.running = true)
    (ha : s.Asked room p t) (hyielded : t.yielded = s.yielded) (hbackend : t.backend = s.backend)
    (hphase : t.phase = s.phase ∨ t.phase = .failed) : t.InPhase rs h hold record t.phase := by
  rcases hphase with hphase | hphase
  · have hin := hI.phase
    rw [hphase]
    cases hs : s.phase with
    | accepting =>
      rw [hs] at hin
      exact ⟨hyielded.trans hin.1, hbackend.trans hin.2⟩
    | draining filled =>
      rw [hs] at hin
      exact ⟨hin.1.of_asked happ hI.sound.wired ha hyielded, hbackend.trans hin.2⟩
    | drained _ => exact absurd hrun (by simp [running, hs])
    | configured => exact absurd hrun (by simp [running, hs])
    | failed => exact absurd hrun (by simp [running, hs])
  · rw [hphase]
    trivial

theorem Inv.failed {h : List UInt8} (hI : s.Inv rs h hold record) :
    Inv rs h hold record { s with phase := .failed } :=
  ⟨hI.sound.of_quiet ⟨rfl, rfl, id, rfl, rfl, rfl⟩, trivial⟩

/-- The two ways out of the loop of `drain` that are no errors. -/
theorem Inv.of_break {h : List UInt8} (hI : s.Inv rs h hold record) (hrecord : 0 < record)
    (hfit : hold + record ≤ drainSize) (hs : s.phase = .draining filled) (hend : s.MayEnd rs) :
    Inv rs h hold record { s with phase := .drained (maybeDrained filled) } := by
  have hin := hI.phase
  rw [hs] at hin
  refine ⟨hI.sound.of_quiet ⟨rfl, rfl, id, rfl, rfl, rfl⟩, ?_, hin.2⟩
  rw [getD_maybeDrained]
  exact hin.1.delivered hrecord hfit hI.sound hs hend

theorem inv_of_step {h : List UInt8} (hrecord : 0 < record) (hfit : hold + record ≤ drainSize)
    (happ : ∀ r ∈ rs, r.content.app.length ≤ record) {e : HandoverEvent}
    (hI : s.Inv rs h hold record) (hlaw : s.Lawful rs hold e) (ht : s.step e = some t) :
    t.Inv rs h hold record := by
  have hin := hI.phase
  cases Step.of_step ht with
  | panicked | error | refused => exact hI.failed
  | asked hrunning ha hyielded hbackend hphase hempty =>
    exact ⟨hI.sound.of_asked ha hlaw.1 hlaw.2 hempty,
      inPhase_of_asked hI happ hrunning ha hyielded hbackend hphase⟩
  | accepted hphase =>
    rw [hphase] at hin
    exact ⟨hI.sound.of_quiet ⟨rfl, rfl, fun _ => rfl, rfl, rfl, rfl⟩,
      ⟨hin.1, rfl, Nat.zero_le _, List.nil_prefix, fun _ => Or.inl hlaw.2⟩, hin.2⟩
  | @data d filled hphase hroom =>
    rw [hphase] at hin
    obtain ⟨hD, hbackend⟩ := hin
    have hyielded : s.yielded ++ d = filled ++ d := by rw [hD.yielded]
    refine ⟨hI.sound.of_quiet ⟨rfl, rfl, id, rfl, rfl, rfl⟩,
      ⟨hyielded, hD.corked, ?_, hyielded ▸ hlaw.2, hD.held⟩, hbackend⟩
    rwa [List.length_append]
  | empty hphase => exact hI.of_break hrecord hfit hphase hlaw
  | unexpectedEof hphase => exact hI.of_break hrecord hfit hphase hlaw
  | @configured data hphase =>
    rw [hphase] at hin
    obtain ⟨hdelivered, hbackend⟩ := hin
    refine ⟨hI.sound.of_quiet ⟨rfl, rfl, id, rfl, rfl, rfl⟩, data.getD [], hdelivered, ?_⟩
    rw [intoRaw_new, hbackend]

/-- **The hand-over loses nothing and repeats nothing.**  Whatever records the client sends,
in whatever chunks they arrive and wherever the cork is set: when the session has been
handed to the kernel, the bytes consumed are whole records `pre`, the socket still has
exactly the other records `post`, and the backend has been sent the proxy-protocol header
and the application data of `pre`. -/
theorem handover_exact (rs : List ClientRecord) (proxyHeader : Option (List UInt8))
    (hold record : ℕ) (hrecord : 0 < record) (hfit : hold + record ≤ drainSize)
    (happ : ∀ r ∈ rs, r.content.app.length ≤ record) (es : List HandoverEvent) (s : Handover)
    (hlaw : Allowed step (Lawful rs hold) (start rs proxyHeader) es)
    (h : run step (start rs proxyHeader) es = some s) (hs : s.phase = .configured) :
    ∃ pre post, rs = pre ++ post ∧ s.taken = encodeAll pre ∧ s.cork.io.wire = encodeAll post ∧
      s.backend = proxyHeader.getD [] ++ appData pre ∧
      appData pre ++ appData post = appData rs := by
  have hI : s.Inv rs (proxyHeader.getD []) hold record := by
    refine run_invariant_of_allowed ⟨sound_start rs proxyHeader, rfl, rfl⟩ ?_ hlaw h
    intro s e t hI hG ht
    exact inv_of_step hrecord hfit happ hI hG ht
  have hin := hI.phase
  rw [hs] at hin
  obtain ⟨data, ⟨pre, post, rfl, htaken, hwire, rfl⟩, hbackend⟩ := hin
  exact ⟨pre, post, rfl, htaken, hwire, hbackend, (appData_append pre post).symm⟩

/-- The last record of a handshake and three records of application data. -/
def fourRecords : List ClientRecord :=
  [⟨22, 3, 3, [1], ⟨[], false⟩, by decide⟩, ⟨23, 3, 3, [10, 11], ⟨[65, 66], false⟩, by decide⟩,
    ⟨23, 3, 3, [12, 13], ⟨[67], false⟩, by decide⟩, ⟨23, 3, 3, [14], ⟨[68], false⟩, by decide⟩]

/-- The cork is set when two bytes of the third header have been read, and the fourth record
is left to the kernel. -/
def splitHeaderRun : List HandoverEvent :=
  [.ask 4096 [.bytes 4], .ask 4096 [.bytes 9], .ask 4096 [.bytes 9], .ask 4096 [.bytes 9],
    .ask 4096 [.bytes 1, .pending], .accepted, .data [65, 66], .ask 4096 [.bytes 0, .bytes 9],
    .ask 4096 [.pending], .ask 4096 [.bytes 0], .ask 4096 [.bytes 9], .data [67], .ask 4096 [],
    .unexpectedEof, .setup true]

/-- Where that run ends. -/
def afterSplitHeader : Handover where
  cork := ⟨⟨encodeAll (fourRecords.drop 3), []⟩, true, .readHeader []⟩
  taken := encodeAll (fourRecords.take 3)
  fed := encodeAll (fourRecords.take 3)
  yielded := [65, 66, 67]
  sawEmpty := true
  phase := .configured
  backend := [13, 10, 65, 66, 67]

theorem handover_exact_splitHeaderRun :
    run step (start fourRecords (some [13, 10])) splitHeaderRun = some afterSplitHeader ∧
      ∃ pre post, fourRecords = pre ++ post ∧ afterSplitHeader.taken = encodeAll pre ∧
        afterSplitHeader.cork.io.wire = encodeAll post ∧
        afterSplitHeader.backend = [13, 10] ++ appData pre ∧
        appData pre ++ appData post = appData fourRecords := by
  have hrun : run step (start fourRecords (some [13, 10])) splitHeaderRun =
      some afterSplitHeader := by decide +kernel
  exact ⟨hrun, handover_exact fourRecords (some [13, 10]) 65536 16384 (by decide) (by decide)
    (by decide) splitHeaderRun _ (by decide +kernel) hrun rfl⟩

end Handover
end Turbine
