import Turbine.Ktls.Alert

/-!
# Two streams over one connection

`Ktls.Close` looks at one stream and lets the kernel answer anything.  Here two streams are
the two ends of one TCP connection, and what the kernel answers at one end is what the other
end has sent: a read gives application data in order, a read that meets an alert fails with
`EIO` and leaves the record to `recvmsg`, and once a half of the connection has been shut
down nothing more can be sent on it, neither data nor an alert, and every attempt fails with
`EPIPE`.  What is left open is when things arrive, how many bytes a read or a write takes,
whether `sendmsg` has room, and whether somebody on the way cuts the connection: an attacker
cannot make up records, but can make the stream end anywhere.

The two ends call `poll_read`, `poll_write` and `poll_shutdown`, and these calls interleave in
any way.  `handle_msg` is not called: it is meant for a record that is known to be there, and
panics on application data.  Both streams are built with nothing drained, since the drained
bytes are not sure to be delivered (`Session.delivers_iff`).  Then nothing is lost by closing:
when a stream has closed its read side, all that the other end ever wrote has been delivered,
and the cut is never taken for a close (`nothing_lost_by_closing`).  The reply to a
`close_notify`, which `Ktls.Close` shows to be unguarded, is guarded after all by the kernel,
if `shutdown` does what it is asked to: then each end sends one `close_notify` at most and
nothing after it.  The price is paid by the end that shut down first.  Its own reply fails
with `EPIPE`, `poll_read` hands that error to its caller, and so at most one of the two ends
ever sees the session end without an error (`quiet_and_one_clean_end`).
-/

namespace Turbine

/-- `EPIPE`. -/
def epipe : ℕ := 32

/-- What is on the way to an end.  A read may take bytes of several records, or a part of
one, so the bytes of application data are on the way one by one. -/
inductive Item where
  | byte (b : UInt8)
  | closeNotify
  deriving DecidableEq

namespace Item

/-- The application data among the items. -/
def data : List Item → List UInt8
  | [] => []
  | .byte b :: items => b :: data items
  | .closeNotify :: items => data items

/-- The application data before the first alert. -/
def leading : List Item → List UInt8
  | .byte b :: items => b :: leading items
  | _ => []

/-- No application data comes after an alert. -/
def Ordered (items : List Item) : Prop :=
  ∀ pre post, items = pre ++ .closeNotify :: post → data post = []

@[simp] theorem data_append (items rest : List Item) :
    data (items ++ rest) = data items ++ data rest := by
  induction items with
  | nil => rfl
  | cons item items ih => cases item <;> simp [data, ih]

@[simp] theorem data_map_byte (bytes : List UInt8) : data (bytes.map .byte) = bytes := by
  induction bytes with
  | nil => rfl
  | cons b bytes ih => simp [data, ih]

theorem data_drop_leading (n : ℕ) (items : List Item) :
    items = ((leading items).take n).map .byte ++ items.drop ((leading items).take n).length := by
  induction items generalizing n with
  | nil => simp [leading]
  | cons item items ih =>
    cases item with
    | closeNotify => simp [leading]
    | byte b =>
      cases n with
      | zero => simp
      | succ n => simpa [leading] using ih n

theorem Ordered.of_append {items rest : List Item} (h : Ordered (items ++ rest)) :
    Ordered rest := by
  intro pre post heq
  exact h (items ++ pre) post (by rw [heq, List.append_assoc])

theorem Ordered.of_not_mem {items : List Item} (h : .closeNotify ∉ items) : Ordered items := by
  intro pre post heq
  exact absurd (heq ▸ List.mem_append_right _ List.mem_cons_self) h

theorem Ordered.snoc {items : List Item} (h : Ordered items) :
    Ordered (items ++ [.closeNotify]) := by
  intro pre post heq
  rcases Runs.eq_append_cons_snoc heq with ⟨rfl, -⟩ | ⟨post', hsplit⟩
  · rw [(List.cons.inj (List.append_cancel_left heq)).2.symm]
    rfl
  · rw [hsplit, List.append_assoc, List.cons_append] at heq
    rw [← (List.cons.inj (List.append_cancel_left heq)).2, data_append, h pre post' hsplit]
    rfl

end Item

/-- A record, as it is on the way. -/
def SentRecord.items : SentRecord → List Item
  | .data bytes => bytes.map .byte
  | .closeNotify => [.closeNotify]

/-- The application data that has been sent. -/
def Connection.written (s : Connection) : List UInt8 :=
  Item.data (s.sent.flatMap SentRecord.items)

/-- One end of the connection. -/
structure Peer where
  conn : Connection
  /-- What the other end has sent, and no read has taken yet. -/
  inbox : List Item
  /-- The connection towards this end has been cut. -/
  cut : Bool
  /-- The write half of this end has been shut down. -/
  shut : Bool
  /-- The bytes put into the callers' buffers. -/
  got : List UInt8
  /-- What the `poll_read` that closed the read side has returned. -/
  ending : Option Poll
  deriving DecidableEq

/-- A call of `poll_read`, `poll_write` or `poll_shutdown` at one end, with what is left open
of the kernel's answers. -/
inductive PeerCall where
  /-- `poll_read` with room for `size` bytes; the kernel has at most `n` for it so far -/
  | read (size n : ℕ) (sendmsg : Option IoError)
  /-- `poll_write`, of which the kernel takes at most `n` bytes -/
  | write (buf : List UInt8) (n : ℕ)
  | shutdown (sendmsg inner : Option IoError)
  /-- no call: the connection towards this end is cut -/
  | cut

/-- The kernel does not refuse to shut down. -/
def PeerCall.Shuts : PeerCall → Prop
  | .shutdown _ inner => inner = none
  | _ => True

instance : DecidablePred PeerCall.Shuts
  | .read .. | .write .. | .cut => inferInstanceAs (Decidable True)
  | .shutdown _ inner => inferInstanceAs (Decidable (inner = none))

namespace Peer

/-- An end whose stream has just been built, with nothing drained. -/
def start : Peer := ⟨Connection.start none, [], false, false, [], none⟩

/-- What `sendmsg` answers to `send_close_notify`. -/
def sends (p : Peer) (sendmsg : Option IoError) : Option IoError :=
  if p.shut then some (some epipe) else sendmsg

/-- What the socket answers to a write. -/
def accepts (p : Peer) (buf : List UInt8) (n : ℕ) : WritePoll :=
  if p.shut then .err (some epipe)
  else if n = 0 then .pending
  else .ready (min n buf.length)

/-- What the kernel answers during a `poll_read`; `ended` says that nothing more can come
after the inbox. -/
def answers (p : Peer) (ended : Bool) (size n : ℕ) (sendmsg : Option IoError) : Answers where
  read :=
    if n = 0 then .pending
    else match p.inbox with
      | [] => if ended then .ready [] else .pending
      | .byte _ :: _ => .ready ((Item.leading p.inbox).take (min n size))
      | .closeNotify :: _ => .err (some eio)
  -- asked for after an `EIO` only, and then this is the record
  recvmsg := controlMsg 21 [1, 0] size
  closeNotify := p.sends sendmsg

/-- How many items the kernel gives away with its answers. -/
def taken (a : Answers) : ℕ :=
  match a.read with
  | .ready bytes => bytes.length
  | .err _ => 1
  | .pending => 0

/-- Records arrive, unless the connection has been cut. -/
def deliver (q : Peer) (records : List SentRecord) : Peer :=
  if q.cut then q else { q with inbox := q.inbox ++ records.flatMap SentRecord.items }

/-- One call at `p`, with `q` at the other end; there is none after a panic. -/
def act (p q : Peer) : PeerCall → Option (Peer × Peer)
  | .read size n sendmsg =>
      let answers := p.answers (p.cut || q.shut) size n sendmsg
      let polled := p.conn.stream.pollRead size answers
      (p.conn.step (.read size answers)).map fun conn =>
        ({ p with
            conn := conn
            inbox := if polled.innerRead then p.inbox.drop (taken answers) else p.inbox
            got := p.got ++ polled.put
            ending := if polled.closeNotifies = 0 then p.ending else some polled.poll },
          q.deliver (conn.sent.drop p.conn.sent.length))
  | .write buf n =>
      (p.conn.step (.write buf (p.accepts buf n))).map fun conn =>
        ({ p with conn := conn }, q.deliver (conn.sent.drop p.conn.sent.length))
  | .shutdown sendmsg inner =>
      let closeNotify := p.sends sendmsg
      let answer := match inner with
        | none => Poll.ready
        | some e => .err e
      (p.conn.step (.shutdown closeNotify answer)).map fun conn =>
        ({ p with
            conn := conn
            -- the socket is asked to shut down only if no `close_notify` was to be sent, or
            -- it was sent
            shut := p.shut || ((p.conn.stream.writeClosed || closeNotify.isNone) &&
              inner.isNone) },
          q.deliver (conn.sent.drop p.conn.sent.length))
  | .cut => some ({ p with inbox := [], cut := true }, q)

/-! ## What a call does -/

/-- The stream has no drained bytes, and its flag is set once a `close_notify` is out. -/
structure Sound (p : Peer) : Prop where
  drained : p.conn.stream.drained = none
  marked : p.conn.Marked

/-- Everything a call at `p` can do. -/
inductive Acts (p q : Peer) : PeerCall → Peer → Peer → Prop
  | idle (c : PeerCall) : Acts p q c p q
  | data (size n : ℕ) (sendmsg : Option IoError) (bytes : List UInt8) (rest : List Item)
      (hinbox : p.inbox = bytes.map .byte ++ rest) :
      Acts p q (.read size n sendmsg) { p with inbox := rest, got := p.got ++ bytes } q
  | close (size n : ℕ) (sendmsg : Option IoError) (rest : List Item)
      (hopen : p.conn.stream.readClosed = false) (hinbox : p.inbox = .closeNotify :: rest) :
      Acts p q (.read size n sendmsg)
        { p with
          conn := ⟨{ p.conn.stream with readClosed := true, writeClosed := true },
            p.conn.sent ++ sendCloseNotify (p.sends sendmsg)⟩
          inbox := rest
          ending := some (match p.sends sendmsg with
            | none => .ready
            | some e => .err e) }
        (q.deliver (sendCloseNotify (p.sends sendmsg)))
  | write (buf : List UInt8) (n : ℕ) (bytes : List UInt8)
      (hopen : p.conn.stream.writeClosed = false) :
      Acts p q (.write buf n)
        { p with conn := ⟨p.conn.stream, p.conn.sent ++ [.data bytes]⟩ }
        (q.deliver [.data bytes])
  | shutdown (sendmsg inner : Option IoError) (hopen : p.conn.stream.writeClosed = false) :
      Acts p q (.shutdown sendmsg inner)
        { p with
          conn := ⟨{ p.conn.stream with writeClosed := true },
            p.conn.sent ++ sendCloseNotify (p.sends sendmsg)⟩
          shut := p.shut || ((p.sends sendmsg).isNone && inner.isNone) }
        (q.deliver (sendCloseNotify (p.sends sendmsg)))
  | again (sendmsg inner : Option IoError) :
      Acts p q (.shutdown sendmsg inner) { p with shut := p.shut || inner.isNone } q
  | cut : Acts p q .cut { p with inbox := [], cut := true } q

theorem deliver_nil (q : Peer) : q.deliver [] = q := by
  unfold deliver
  split
  · rfl
  · rw [List.flatMap_nil, List.append_nil]

/-- Only a read that meets an alert fails, and the alert is a `close_notify`. -/
theorem answers_read_eq_err {p : Peer} {ended : Bool} {size n : ℕ} {sendmsg : Option IoError}
    {e : IoError} (h : (p.answers ended size n sendmsg).read = .err e) :
    e = some eio ∧ ∃ rest, p.inbox = .closeNotify :: rest := by
  simp only [answers] at h
  split at h
  · exact absurd h (by simp)
  · split at h
    · split at h <;> exact absurd h (by simp)
    · exact absurd h (by simp)
    · rename_i rest hinbox
      exact ⟨(InnerPoll.err.inj h).symm, rest, hinbox⟩

/-- A read that gives something gives the next bytes, and takes them. -/
theorem answers_read_eq_ready {p : Peer} {ended : Bool} {size n : ℕ} {sendmsg : Option IoError}
    {bytes : List UInt8} (h : (p.answers ended size n sendmsg).read = .ready bytes) :
    bytes.length ≤ size ∧ p.inbox = bytes.map .byte ++ p.inbox.drop bytes.length := by
  simp only [answers] at h
  split at h
  · exact absurd h (by simp)
  · split at h
    · split at h
      · obtain rfl := InnerPoll.ready.inj h
        exact ⟨Nat.zero_le _, rfl⟩
      · exact absurd h (by simp)
    · obtain rfl := InnerPoll.ready.inj h
      refine ⟨?_, Item.data_drop_leading _ _⟩
      rw [List.length_take]
      omega
    · exact absurd h (by simp)

theorem acts_of_read {p : Peer} (hp : p.Sound) (q : Peer) (size n : ℕ)
    (sendmsg : Option IoError) :
    ∃ p' q', p.act q (.read size n sendmsg) = some (p', q') ∧
      Acts p q (.read size n sendmsg) p' q' := by
  have hdrained := hp.drained
  generalize hended : (p.cut || q.shut) = ended
  by_cases hidle : p.conn.stream.readClosed = true ∨ size = 0
  · have hpolled : p.conn.stream.pollRead size (p.answers ended size n sendmsg) =
        { stream := p.conn.stream, poll := .ready } := by
      unfold KtlsStream.pollRead
      rcases hidle with hclosed | hsize
      · rw [if_pos hclosed]
      · rw [if_pos hsize, ite_self]
    refine ⟨p, q, ?_, .idle _⟩
    simp [act, hended, Connection.step, hpolled, deliver_nil]
  · obtain ⟨hclosed, hsize⟩ := not_or.mp hidle
    have hopen : p.conn.stream.readClosed = false := by simpa using hclosed
    have hpolled : p.conn.stream.pollRead size (p.answers ended size n sendmsg) =
        p.conn.stream.readInner size (p.answers ended size n sendmsg) := by
      rw [KtlsStream.pollRead_of_none hdrained hsize, if_neg hclosed]
    cases hread : (p.answers ended size n sendmsg).read with
    | pending =>
      refine ⟨p, q, ?_, .idle _⟩
      simp [act, hended, Connection.step, hpolled, KtlsStream.readInner, hread, taken, deliver_nil]
    | ready bytes =>
      obtain ⟨hlength, hinbox⟩ := answers_read_eq_ready hread
      refine ⟨_, q, ?_, .data size n sendmsg bytes _ hinbox⟩
      simp [act, hended, Connection.step, hpolled, KtlsStream.readInner, hread, taken, deliver_nil,
        List.take_of_length_le hlength]
    | err e =>
      obtain ⟨rfl, rest, hinbox⟩ := answers_read_eq_err hread
      have hcontrol : control size [.tlsGetRecordType 21] ([1, 0].take size) = .close := by
        rw [control_alert hsize, if_pos (Or.inr (Or.inr rfl))]
      have hmsg : (p.answers ended size n sendmsg).recvmsg = controlMsg 21 [1, 0] size := rfl
      have hsend : (p.answers ended size n sendmsg).closeNotify = p.sends sendmsg := rfl
      refine ⟨_, _, ?_, .close size n sendmsg rest hopen hinbox⟩
      cases hanswer : p.sends sendmsg <;>
        simp [act, hended, Connection.step, hpolled, KtlsStream.readInner, hread, hmsg, hsend,
          hanswer, controlMsg, hcontrol, taken, hinbox]

theorem acts_of_write (p q : Peer) (buf : List UInt8) (n : ℕ) :
    ∃ p' q', p.act q (.write buf n) = some (p', q') ∧ Acts p q (.write buf n) p' q' := by
  by_cases hclosed : p.conn.stream.writeClosed = true
  · refine ⟨p, q, ?_, .idle _⟩
    simp [act, Connection.step, KtlsStream.pollWrite, hclosed, deliver_nil]
  · have hopen : p.conn.stream.writeClosed = false := by simpa using hclosed
    cases haccepts : p.accepts buf n with
    | ready k =>
      by_cases hnil : buf.take k = []
      · refine ⟨p, q, ?_, .idle _⟩
        simp [act, haccepts, Connection.step, KtlsStream.pollWrite, hclosed, hnil, deliver_nil]
      · refine ⟨_, _, ?_, .write buf n (buf.take k) hopen⟩
        simp [act, haccepts, Connection.step, KtlsStream.pollWrite, hclosed, hnil]
    | _ =>
      refine ⟨p, q, ?_, .idle _⟩
      simp [act, haccepts, Connection.step, KtlsStream.pollWrite, hclosed, deliver_nil]

theorem acts_of_shutdown (p q : Peer) (sendmsg inner : Option IoError) :
    ∃ p' q', p.act q (.shutdown sendmsg inner) = some (p', q') ∧
      Acts p q (.shutdown sendmsg inner) p' q' := by
  by_cases hclosed : p.conn.stream.writeClosed = true
  · refine ⟨_, q, ?_, .again sendmsg inner⟩
    cases inner <;>
      simp [act, Connection.step, KtlsStream.pollShutdown, hclosed, deliver_nil]
  · have hopen : p.conn.stream.writeClosed = false := by simpa using hclosed
    refine ⟨_, _, ?_, .shutdown sendmsg inner hopen⟩
    cases hanswer : p.sends sendmsg <;> cases inner <;>
      simp [act, hanswer, Connection.step, KtlsStream.pollShutdown, hopen]

/-- **What a call does.**  It never panics. -/
theorem acts_of_call {p : Peer} (hp : p.Sound) (q : Peer) (c : PeerCall) :
    ∃ p' q', p.act q c = some (p', q') ∧ Acts p q c p' q' := by
  cases c with
  | read size n sendmsg => exact acts_of_read hp q size n sendmsg
  | write buf n => exact acts_of_write p q buf n
  | shutdown sendmsg inner => exact acts_of_shutdown p q sendmsg inner
  | cut => exact ⟨_, q, rfl, .cut⟩

/-! ## One direction -/

/-- What holds of one direction: `c` sends, and `q` receives. -/
structure Flow (c : Connection) (q : Peer) : Prop where
  whole : q.cut = false → c.written = q.got ++ Item.data q.inbox
  part : q.got <+: c.written
  ordered : Item.Ordered q.inbox
  sent : .closeNotify ∈ q.inbox → .closeNotify ∈ c.sent
  lost : q.cut = true → q.inbox = []
  closed : q.conn.stream.readClosed = true → q.got = c.written ∧ .closeNotify ∈ c.sent

theorem written_append (stream : KtlsStream) (sent records : List SentRecord) :
    Connection.written ⟨stream, sent ++ records⟩ =
      Connection.written ⟨stream, sent⟩ ++ Item.data (records.flatMap SentRecord.items) := by
  simp only [Connection.written, List.flatMap_append, Item.data_append]

theorem data_sendCloseNotify (answer : Option IoError) :
    Item.data ((sendCloseNotify answer).flatMap SentRecord.items) = [] := by
  cases answer <;> rfl

theorem conn_deliver (q : Peer) (records : List SentRecord) :
    (q.deliver records).conn = q.conn := by
  unfold deliver
  split <;> rfl

theorem shut_deliver (q : Peer) (records : List SentRecord) :
    (q.deliver records).shut = q.shut := by
  unfold deliver
  split <;> rfl

theorem ending_deliver (q : Peer) (records : List SentRecord) :
    (q.deliver records).ending = q.ending := by
  unfold deliver
  split <;> rfl

/-- Sending keeps the direction sound, if data is sent only before any `close_notify`. -/
theorem Flow.send {c : Connection} {q : Peer} (h : Flow c q) (stream : KtlsStream)
    {records : List SentRecord} (hordered : Item.Ordered q.inbox →
      Item.Ordered (q.inbox ++ records.flatMap SentRecord.items))
    (hlate : .closeNotify ∈ c.sent → Item.data (records.flatMap SentRecord.items) = []) :
    Flow ⟨stream, c.sent ++ records⟩ (q.deliver records) := by
  have hwritten : Connection.written ⟨stream, c.sent ++ records⟩ =
      c.written ++ Item.data (records.flatMap SentRecord.items) := written_append _ _ _
  have hpart : q.got <+: Connection.written ⟨stream, c.sent ++ records⟩ := by
    rw [hwritten]
    exact h.part.trans (List.prefix_append _ _)
  have hclosed : q.conn.stream.readClosed = true →
      q.got = Connection.written ⟨stream, c.sent ++ records⟩ ∧
        .closeNotify ∈ c.sent ++ records := by
    intro hq
    obtain ⟨hgot, hmem⟩ := h.closed hq
    rw [hwritten, hlate hmem, List.append_nil]
    exact ⟨hgot, List.mem_append_left _ hmem⟩
  by_cases hcut : q.cut = true
  · have hsame : q.deliver records = q := if_pos hcut
    rw [hsame]
    exact ⟨fun hno => absurd (hcut.symm.trans hno) (by simp), hpart, h.ordered,
      fun hmem => List.mem_append_left _ (h.sent hmem), h.lost, hclosed⟩
  · have hmore : q.deliver records =
        { q with inbox := q.inbox ++ records.flatMap SentRecord.items } := if_neg hcut
    rw [hmore]
    refine ⟨fun hno => ?_, hpart, hordered h.ordered, fun hmem => ?_,
      fun hno => absurd hno hcut, hclosed⟩
    · rw [hwritten, h.whole hno, Item.data_append, List.append_assoc]
    · rcases List.mem_append.mp hmem with hmem | hmem
      · exact List.mem_append_left _ (h.sent hmem)
      · obtain ⟨r, hr, hitem⟩ := List.mem_flatMap.mp hmem
        cases r with
        | data bytes => simp [SentRecord.items] at hitem
        | closeNotify => exact List.mem_append_right _ hr

theorem Flow.sendCloseNotify {c : Connection} {q : Peer} (h : Flow c q) (stream : KtlsStream)
    (answer : Option IoError) :
    Flow ⟨stream, c.sent ++ Turbine.sendCloseNotify answer⟩
      (q.deliver (Turbine.sendCloseNotify answer)) := by
  refine h.send stream (fun hordered => ?_) fun _ => data_sendCloseNotify answer
  cases answer with
  | none => exact hordered.snoc
  | some e => rwa [Turbine.sendCloseNotify, List.flatMap_nil, List.append_nil]

theorem Flow.sendData {c : Connection} {q : Peer} (h : Flow c q) (hno : .closeNotify ∉ c.sent)
    (stream : KtlsStream) (bytes : List UInt8) :
    Flow ⟨stream, c.sent ++ [.data bytes]⟩ (q.deliver [.data bytes]) := by
  refine h.send stream (fun _ => .of_not_mem ?_) fun hmem => absurd hmem hno
  intro hmem
  rcases List.mem_append.mp hmem with hmem | hmem
  · exact hno (h.sent hmem)
  · simp [SentRecord.items] at hmem

theorem Flow.receive {c : Connection} {q : Peer} (h : Flow c q) {bytes : List UInt8}
    {rest : List Item} (hinbox : q.inbox = bytes.map .byte ++ rest) :
    Flow c { q with inbox := rest, got := q.got ++ bytes } := by
  have hcut : q.cut = true → bytes = [] ∧ rest = [] := by
    intro hcut
    have hnil := (h.lost hcut).symm.trans hinbox
    simpa using hnil.symm
  have hwhole : q.cut = false → c.written = q.got ++ bytes ++ Item.data rest := by
    intro hno
    rw [h.whole hno, hinbox, Item.data_append, Item.data_map_byte, List.append_assoc]
  refine ⟨hwhole, ?_, (hinbox ▸ h.ordered).of_append, fun hmem => h.sent ?_,
    fun hq => (hcut hq).2, fun hclosed => ?_⟩
  · cases hq : q.cut with
    | false => exact ⟨_, (hwhole hq).symm⟩
    | true =>
      obtain ⟨rfl, -⟩ := hcut hq
      simpa using h.part
  · rw [hinbox]
    exact List.mem_append_right _ hmem
  · obtain ⟨hgot, hmem⟩ := h.closed hclosed
    refine ⟨?_, hmem⟩
    cases hq : q.cut with
    | false =>
      -- nothing is left once the read side is closed
      have hlength := congrArg List.length (hwhole hq)
      rw [← hgot, List.length_append, List.length_append] at hlength
      have hnil : bytes = [] := List.eq_nil_of_length_eq_zero (by omega)
      rw [hnil, List.append_nil, hgot]
    | true =>
      obtain ⟨rfl, -⟩ := hcut hq
      rw [List.append_nil, hgot]

/-- When an alert is next, everything before it has been delivered. -/
theorem Flow.close {c : Connection} {q : Peer} (h : Flow c q) {rest : List Item}
    (hinbox : q.inbox = .closeNotify :: rest) (conn : Connection) (ending : Option Poll) :
    Flow c { q with conn := conn, inbox := rest, ending := ending } := by
  have hrest : Item.data rest = [] := h.ordered [] rest hinbox
  have hmem : .closeNotify ∈ c.sent := h.sent (hinbox ▸ List.mem_cons_self)
  have hcut : q.cut = false := by
    cases hq : q.cut with
    | false => rfl
    | true => exact absurd ((h.lost hq).symm.trans hinbox) (by simp)
  have hwhole := h.whole hcut
  rw [hinbox, Item.data, hrest, List.append_nil] at hwhole
  refine ⟨fun _ => ?_, h.part, ?_, fun _ => hmem, fun hq => absurd (hcut.symm.trans hq) (by simp),
    fun _ => ⟨hwhole.symm, hmem⟩⟩
  · rw [hrest, List.append_nil, hwhole]
  · have hordered := h.ordered
    rw [hinbox, ← List.singleton_append] at hordered
    exact hordered.of_append

theorem Flow.cut {c : Connection} {q : Peer} (h : Flow c q) :
    Flow c { q with inbox := [], cut := true } :=
  ⟨fun hno => absurd hno (by simp), h.part, .of_not_mem (by simp),
    fun hmem => absurd hmem (by simp),
    fun _ => rfl, h.closed⟩

/-! ## Both directions -/

theorem not_mem_of_open {p : Peer} (hp : p.Sound) (hopen : p.conn.stream.writeClosed = false) :
    .closeNotify ∉ p.conn.sent :=
  fun hmem => absurd ((hp.marked hmem).symm.trans hopen) (by simp)

theorem Acts.sender {p q p' q' : Peer} {c : PeerCall} (h : Acts p q c p' q') (hp : p.Sound)
    (hf : Flow p.conn q) : Flow p'.conn q' := by
  cases h with
  | idle => exact hf
  | data => exact hf
  | close => exact hf.sendCloseNotify _ _
  | write buf n bytes hopen => exact hf.sendData (not_mem_of_open hp hopen) _ bytes
  | shutdown => exact hf.sendCloseNotify _ _
  | again => exact hf
  | cut => exact hf

theorem Acts.receiver {p q p' q' : Peer} {c : PeerCall} (h : Acts p q c p' q')
    (hf : Flow q.conn p) : Flow q'.conn p' := by
  cases h with
  | idle => exact hf
  | data _ _ _ _ _ hinbox => exact hf.receive hinbox
  | close _ _ _ _ _ hinbox =>
    rw [conn_deliver]
    exact hf.close hinbox _ _
  | write =>
    rw [conn_deliver]
    exact ⟨hf.whole, hf.part, hf.ordered, hf.sent, hf.lost, hf.closed⟩
  | shutdown =>
    rw [conn_deliver]
    exact ⟨hf.whole, hf.part, hf.ordered, hf.sent, hf.lost, hf.closed⟩
  | again => exact ⟨hf.whole, hf.part, hf.ordered, hf.sent, hf.lost, hf.closed⟩
  | cut => exact hf.cut

theorem Acts.sound {p q p' q' : Peer} {c : PeerCall} (h : Acts p q c p' q') (hp : p.Sound) :
    p'.Sound := by
  cases h with
  | idle => exact hp
  | data => exact ⟨hp.drained, hp.marked⟩
  | close => exact ⟨hp.drained, fun _ => rfl⟩
  | write buf n bytes hopen =>
    refine ⟨hp.drained, fun hmem => hp.marked ?_⟩
    simpa using hmem
  | shutdown => exact ⟨hp.drained, fun _ => rfl⟩
  | again => exact ⟨hp.drained, hp.marked⟩
  | cut => exact ⟨hp.drained, hp.marked⟩

/-- At the other end a call only adds to the inbox. -/
theorem Acts.other {p q p' q' : Peer} {c : PeerCall} (h : Acts p q c p' q') :
    q'.conn = q.conn ∧ q'.shut = q.shut ∧ q'.ending = q.ending := by
  cases h <;> first
    | exact ⟨rfl, rfl, rfl⟩
    | exact ⟨conn_deliver _ _, shut_deliver _ _, ending_deliver _ _⟩

/-- What holds of the two ends, whatever happens. -/
structure Inv (p q : Peer) : Prop where
  sound : p.Sound
  other : q.Sound
  there : Flow p.conn q
  back : Flow q.conn p

theorem Inv.symm {p q : Peer} (h : Inv p q) : Inv q p := ⟨h.other, h.sound, h.back, h.there⟩

theorem Inv.acts {p q p' q' : Peer} {c : PeerCall} (h : Inv p q) (hacts : Acts p q c p' q') :
    Inv p' q' := by
  have hconn := hacts.other.1
  have hother : q'.Sound := ⟨hconn ▸ h.other.drained, hconn ▸ h.other.marked⟩
  exact ⟨hacts.sound h.sound, hother, hacts.sender h.sound h.there, hacts.receiver h.back⟩

theorem inv_start : Inv start start := by
  have hsound : start.Sound := ⟨rfl, fun hmem => absurd hmem (by simp [start, Connection.start])⟩
  have hflow : Flow start.conn start :=
    ⟨fun _ => rfl, List.prefix_rfl, .of_not_mem (by simp [start]),
      fun hmem => absurd hmem (by simp [start]), fun _ => rfl, fun h => absurd h (by decide)⟩
  exact ⟨hsound, hsound, hflow, hflow⟩

/-! ## How a session ends -/

/-- What holds of `p`, with `q` at the other end, when no socket refuses to shut down. -/
structure Closing (p q : Peer) : Prop where
  ended : p.ending ≠ none → p.conn.stream.readClosed = true
  /-- A `close_notify` was sent by `poll_shutdown`, or was the reply of a clean end. -/
  reason : .closeNotify ∈ p.conn.sent → p.shut = true ∨ p.ending = some .ready
  quiet : p.conn.Quiet
  clean : p.ending = some .ready → q.shut = true ∧ q.ending ≠ some .ready

theorem sends_eq_none {p : Peer} {sendmsg : Option IoError} (h : p.sends sendmsg = none) :
    p.shut = false := by
  cases hshut : p.shut with
  | false => rfl
  | true => simp [sends, hshut] at h

theorem quiet_snoc {c : Connection} (hno : .closeNotify ∉ c.sent) (stream : KtlsStream)
    (r : SentRecord) : Connection.Quiet ⟨stream, c.sent ++ [r]⟩ :=
  (Connection.quiet_snoc_iff (s := c) rfl).mpr hno

/-- What the call of `p` changes about `p`. -/
theorem Acts.closing {p q p' q' : Peer} {c : PeerCall} (h : Acts p q c p' q') (hinv : Inv p q)
    (hc : c.Shuts) (hp : Closing p q) (hq : Closing q p) : Closing p' q := by
  cases h with
  | idle => exact hp
  | data => exact ⟨hp.ended, hp.reason, hp.quiet, hp.clean⟩
  | close size n sendmsg rest hopen hinbox =>
    cases hanswer : p.sends sendmsg with
    | some e =>
      rw [sendCloseNotify, List.append_nil]
      have hending : p.ending = none := by
        by_contra hended
        exact absurd ((hp.ended hended).symm.trans hopen) (by simp)
      refine ⟨fun _ => rfl, fun hmem => ?_, hp.quiet, fun heq => absurd heq (by simp)⟩
      rcases hp.reason hmem with hshut | hended
      · exact Or.inl hshut
      · exact absurd (hending.symm.trans hended) (by simp)
    | none =>
      have hshut := sends_eq_none hanswer
      have hno : .closeNotify ∉ p.conn.sent := by
        intro hmem
        rcases hp.reason hmem with htrue | hended
        · exact absurd (hshut.symm.trans htrue) (by simp)
        · exact absurd ((hp.ended (by simp [hended])).symm.trans hopen) (by simp)
      have hunclean : q.ending ≠ some .ready :=
        fun hended => absurd (hshut.symm.trans (hq.clean hended).1) (by simp)
      -- the alert that was met is the other end's shutdown, since its reply would be to ours
      have hother : q.shut = true :=
        (hq.reason (hinv.back.sent (hinbox ▸ List.mem_cons_self))).resolve_right hunclean
      exact ⟨fun _ => rfl, fun _ => Or.inr rfl, quiet_snoc hno _ _, fun _ => ⟨hother, hunclean⟩⟩
  | write buf n bytes hopen =>
    have hno := not_mem_of_open hinv.sound hopen
    exact ⟨hp.ended, fun hmem => hp.reason (by simpa using hmem), quiet_snoc hno _ _, hp.clean⟩
  | shutdown sendmsg inner hopen =>
    have hno := not_mem_of_open hinv.sound hopen
    cases hanswer : p.sends sendmsg with
    | some e =>
      rw [sendCloseNotify, List.append_nil]
      exact ⟨hp.ended, fun hmem => absurd hmem hno, hp.quiet, hp.clean⟩
    | none =>
      have hinner : inner = none := hc
      exact ⟨hp.ended, fun _ => Or.inl (by simp [hinner]), quiet_snoc hno _ _, hp.clean⟩
  | again => exact ⟨hp.ended, fun hmem => (hp.reason hmem).imp_left (by simp +contextual),
      hp.quiet, hp.clean⟩
  | cut => exact ⟨hp.ended, hp.reason, hp.quiet, hp.clean⟩

/-- A half that was shut down stays so. -/
theorem Acts.shut {p q p' q' : Peer} {c : PeerCall} (h : Acts p q c p' q') (hp : p.shut = true) :
    p'.shut = true := by
  cases h with
  | shutdown => simp [hp]
  | again => simp [hp]
  | _ => exact hp

theorem Acts.closing_both {p q p' q' : Peer} {c : PeerCall} (h : Acts p q c p' q')
    (hinv : Inv p q) (hc : c.Shuts) (hp : Closing p q) (hq : Closing q p) :
    Closing p' q' ∧ Closing q' p' := by
  obtain ⟨hconn, hshut, hending⟩ := h.other
  have hp' := h.closing hinv hc hp hq
  refine ⟨⟨hp'.ended, hp'.reason, hp'.quiet, ?_⟩, ?_, ?_, ?_, ?_⟩
  · rw [hshut, hending]
    exact hp'.clean
  · rw [hconn, hending]
    exact hq.ended
  · rw [hconn, hshut, hending]
    exact hq.reason
  · rw [hconn]
    exact hq.quiet
  · rw [hending]
    exact fun hclean => ⟨h.shut (hq.clean hclean).1, fun hboth => (hp'.clean hboth).2 hclean⟩

theorem closing_start : Closing start start :=
  ⟨fun h => absurd rfl h, fun hmem => absurd hmem (by simp [start, Connection.start]),
    fun pre post heq => absurd heq (by simp [start, Connection.start]),
    fun h => absurd h (by simp [start])⟩

end Peer

/-! ## Runs -/

/-- The two ends of a connection. -/
structure Peers where
  left : Peer
  right : Peer
  deriving DecidableEq

/-- A call at one of the ends. -/
inductive PeerEvent where
  | left (c : PeerCall)
  | right (c : PeerCall)

/-- The call of an event. -/
def PeerEvent.call : PeerEvent → PeerCall
  | .left c => c
  | .right c => c

namespace Peers

open Runs Peer

/-- Two streams just built. -/
def start : Peers := ⟨Peer.start, Peer.start⟩

/-- One call at one end. -/
def step (s : Peers) : PeerEvent → Option Peers
  | .left c => (s.left.act s.right c).map fun r => ⟨r.1, r.2⟩
  | .right c => (s.right.act s.left c).map fun r => ⟨r.2, r.1⟩

/-- Every call can be made, and does what a call can do. -/
theorem step_spec {s : Peers} (hs : Inv s.left s.right) (e : PeerEvent) :
    ∃ t, s.step e = some t ∧
      (Acts s.left s.right e.call t.left t.right ∨ Acts s.right s.left e.call t.right t.left) := by
  cases e with
  | left c =>
    obtain ⟨p', q', hact, hacts⟩ := acts_of_call hs.sound s.right c
    exact ⟨⟨p', q'⟩, by simp only [step, hact, Option.map_some], Or.inl hacts⟩
  | right c =>
    obtain ⟨p', q', hact, hacts⟩ := acts_of_call hs.other s.left c
    exact ⟨⟨q', p'⟩, by simp only [step, hact, Option.map_some], Or.inr hacts⟩

theorem acts_of_step {s t : Peers} {e : PeerEvent} (hs : Inv s.left s.right)
    (h : s.step e = some t) :
    Acts s.left s.right e.call t.left t.right ∨ Acts s.right s.left e.call t.right t.left := by
  obtain ⟨t', ht', hacts⟩ := step_spec hs e
  obtain rfl := Option.some.inj (h.symm.trans ht')
  exact hacts

theorem inv_of_step {s t : Peers} {e : PeerEvent} (hs : Inv s.left s.right)
    (h : s.step e = some t) : Inv t.left t.right := by
  rcases acts_of_step hs h with hacts | hacts
  · exact hs.acts hacts
  · exact (hs.symm.acts hacts).symm

theorem exists_run (es : List PeerEvent) :
    ∃ s, run step start es = some s ∧ Inv s.left s.right := by
  refine exists_run_of_invariant (I := fun s : Peers => Inv s.left s.right) ?_ es inv_start
  intro s e hs
  obtain ⟨t, ht, -⟩ := step_spec hs e
  exact ⟨t, ht, inv_of_step hs ht⟩

/-- **Closing loses nothing.**  Two streams built with nothing drained, on which `poll_read`,
`poll_write` and `poll_shutdown` are called in any order, and the connection may be cut
anywhere: no call panics, and each end has been given a prefix of what the other one has
written --- all of it, once its read side is closed. -/
theorem nothing_lost_by_closing (es : List PeerEvent) :
    ∃ s, run step start es = some s ∧
      (s.right.got <+: s.left.conn.written ∧
        (s.right.conn.stream.readClosed = true → s.right.got = s.left.conn.written)) ∧
      (s.left.got <+: s.right.conn.written ∧
        (s.left.conn.stream.readClosed = true → s.left.got = s.right.conn.written)) := by
  obtain ⟨s, hrun, hs⟩ := exists_run es
  exact ⟨s, hrun, ⟨hs.there.part, fun hclosed => (hs.there.closed hclosed).1⟩,
    hs.back.part, fun hclosed => (hs.back.closed hclosed).1⟩

/-- What holds when no socket refuses to shut down. -/
def Orderly (s : Peers) : Prop :=
  Inv s.left s.right ∧ Closing s.left s.right ∧ Closing s.right s.left

theorem orderly_of_step {s t : Peers} {e : PeerEvent} (hs : s.Orderly) (he : e.call.Shuts)
    (h : s.step e = some t) : t.Orderly := by
  obtain ⟨hinv, hleft, hright⟩ := hs
  refine ⟨inv_of_step hinv h, ?_⟩
  rcases acts_of_step hinv h with hacts | hacts
  · exact hacts.closing_both hinv he hleft hright
  · exact (hacts.closing_both hinv.symm he hright hleft).symm

/-- **One `close_notify` each, and one clean end.**  For the same calls, of two streams built
with nothing drained: if no socket refuses to shut down, then in every interleaving each end
sends one `close_notify` at most and nothing after it, and the read that closes a stream
returns without an error at one of the two ends only: the end that shut down first gets an
error for it. -/
theorem quiet_and_one_clean_end (es : List PeerEvent) (hes : ∀ e ∈ es, e.call.Shuts) (s : Peers)
    (h : run step start es = some s) :
    s.left.conn.Quiet ∧ s.right.conn.Quiet ∧
      (s.left.ending = some .ready → s.right.shut = true ∧ s.right.ending ≠ some .ready) ∧
      (s.right.ending = some .ready → s.left.shut = true ∧ s.left.ending ≠ some .ready) := by
  have hs : s.Orderly := run_invariant_of_allowed (G := fun _ e => e.call.Shuts) (I := Orderly)
    ⟨inv_start, closing_start, closing_start⟩ (fun _ _ _ => orderly_of_step)
    (allowed_of_forall_mem hes) h
  exact ⟨hs.2.1.quiet, hs.2.2.quiet, hs.2.1.clean, hs.2.2.clean⟩

/-- The left end writes and shuts down; the right end reads, and replies; the left end meets
the reply. -/
def closedByLeft : List PeerEvent :=
  [.left (.write [1, 2, 3] 3), .left (.shutdown none none), .right (.read 2 9 none),
    .right (.read 16 9 none), .right (.read 16 9 none), .left (.read 16 9 none)]

theorem quiet_and_one_clean_end_closedByLeft :
    ∃ s, run step start closedByLeft = some s ∧ s.right.got = [1, 2, 3] ∧
      s.right.ending = some .ready ∧ s.left.ending = some (.err (some epipe)) ∧
      s.left.conn.Quiet ∧ s.right.conn.Quiet := by
  have hrun : (run step start closedByLeft).isSome = true := by decide +kernel
  obtain ⟨s, hs⟩ := Option.isSome_iff_exists.mp hrun
  obtain ⟨hleft, hright, -⟩ := quiet_and_one_clean_end closedByLeft (by decide +kernel) s hs
  have hends : (run step start closedByLeft).map (fun s => (s.right.got, s.right.ending,
      s.left.ending)) = some ([1, 2, 3], some .ready, some (.err (some epipe))) := by
    decide +kernel
  rw [hs, Option.map_some, Option.some.injEq, Prod.mk.injEq, Prod.mk.injEq] at hends
  exact ⟨s, hs, hends.1, hends.2.1, hends.2.2, hleft, hright⟩

end Peers
end Turbine
