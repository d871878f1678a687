import Turbine.Lib.Runs

/-!
# The kernel TLS stream: `KtlsStream`

When a session is handed over to the kernel, what rustls had already decrypted is kept in
the stream as `drained`, together with an index, and `poll_read` delivers it before it
reads from the socket.  On a kernel TLS socket a read fails with `EIO` when the next record
is not application data; the record is then fetched with `recvmsg`, whose control message
has its type.

The calls of one stream are the steps of a `Session`, which keeps what has been put into
the callers' buffers and what the socket has delivered.  Everything the kernel answers
during a call is an `Answers`, and arbitrary.

The drained bytes are taken through a slice, and the slice has the name of the buffer it is
taken from: the index that was moved on is compared with the length of what was left
*before* the call, not with the length of the buffer.  `delivers_iff` says which calls see
the difference.
-/

namespace Turbine

/-- `TlsAlertLevel`. -/
inductive TlsAlertLevel where
  | warning
  | fatal
  | other (code : UInt8)
  deriving DecidableEq

/-- `TlsAlertDescription`. -/
inductive TlsAlertDescription where
  | closeNotify
  | other (code : UInt8)
  deriving DecidableEq

/-- `TlsRecordType`. -/
inductive TlsRecordType where
  | changeCipherSpec
  | alert
  | handshake
  | applicationData
  | other (code : UInt8)
  deriving DecidableEq

def TlsAlertLevel.fromPrimitive (code : UInt8) : TlsAlertLevel :=
  if code = 1 then .warning else if code = 2 then .fatal else .other code

def TlsAlertDescription.fromPrimitive (code : UInt8) : TlsAlertDescription :=
  if code = 0 then .closeNotify else .other code

def TlsRecordType.fromPrimitive (code : UInt8) : TlsRecordType :=
  if code = 20 then .changeCipherSpec
  else if code = 21 then .alert
  else if code = 22 then .handshake
  else if code = 23 then .applicationData
  else .other code

/-- `io::Error`, as its `raw_os_error`. -/
abbrev IoError := Option ℕ

/-- `EIO`. -/
def eio : ℕ := 5

/-- `EAGAIN`. -/
def eagain : ℕ := 11

/-- What a read of the inner stream answers. -/
inductive InnerPoll where
  | pending
  | ready (bytes : List UInt8)
  | err (e : IoError)

/-- The bytes an answer gives to a buffer of size `n`. -/
def InnerPoll.bytes : InnerPoll → ℕ → List UInt8
  | .ready bytes, n => bytes.take n
  | _, _ => []

/-- `ControlMessageOwned`. -/
inductive ControlMessage where
  | tlsGetRecordType (t : UInt8)
  | other

/-- What `recvmsg` answers: an errno, or control messages and the bytes of the record. -/
inductive Recvmsg where
  | err (errno : ℕ)
  | ok (cmsgs : List ControlMessage) (bytes : List UInt8)

/-- What `recvmsg` answers when the peer has sent an alert. -/
def alertMsg (level description : UInt8) : Recvmsg :=
  .ok [.tlsGetRecordType 21] [level, description]

/-- Everything the kernel answers during one `poll_read`. -/
structure Answers where
  read : InnerPoll
  recvmsg : Recvmsg
  /-- `send_close_notify`: `none` when it succeeds. -/
  closeNotify : Option IoError

/-- How a call of `poll_read` ends. -/
inductive Poll where
  | ready
  | pending
  | err (e : IoError)
  | panic (message : String)
  deriving DecidableEq

/-- `KtlsStream`, without the inner stream. -/
structure KtlsStream where
  writeClosed : Bool
  readClosed : Bool
  drained : Option (ℕ × List UInt8)
  deriving DecidableEq

/-- What a call of `poll_read` has done. -/
structure Polled where
  stream : KtlsStream
  poll : Poll
  /-- The bytes put into the caller's buffer. -/
  put : List UInt8 := []
  /-- The inner stream was read. -/
  innerRead : Bool := false
  /-- How often a `close_notify` was sent, or tried to be sent. -/
  closeNotifies : ℕ := 0

/-- What is to be done about a control record. -/
inductive Control where
  /-- a `close_notify` or a fatal alert: both directions are closed -/
  | close
  /-- an alert that is not handled -/
  | unhandled
  /-- a record that is ignored -/
  | ignored
  | panic (message : String)

/-- `(level, description)` of an alert. -/
def alertControl (level : TlsAlertLevel) (description : TlsAlertDescription) : Control :=
  match level, description with
  | _, .closeNotify => .close
  | .fatal, _ => .close
  | _, _ => .unhandled

/-- The control record that `recvmsg` gave, in a buffer of `size` bytes. -/
def control (size : ℕ) (cmsgs : List ControlMessage) (bytes : List UInt8) : Control :=
  match cmsgs with
  | [] => .panic "we should've received exactly one control message"
  | .other :: _ => .panic "unexpected cmsg type"
  | .tlsGetRecordType t :: _ =>
      match TlsRecordType.fromPrimitive t with
      | .changeCipherSpec => .panic "change_cipher_spec isn't supported by the ktls crate"
      | .alert =>
          match bytes.take size with
          | [] => .panic "expected data in iovs"
          -- half an alert, in a buffer of one byte
          | [level] => alertControl (.fromPrimitive level) .closeNotify
          | [level, description] =>
              alertControl (.fromPrimitive level) (.fromPrimitive description)
          | _ => .panic "TLS alerts are exactly 2 bytes, your kTLS is misbehaving"
      | .handshake => .ignored
      | .applicationData =>
          .panic "received TLS application in recvmsg, this is supposed to happen in the poll_read codepath"
      | .other _ => .ignored

/-- What `recvmsg` gave is an alert that closes the session: a `close_notify` or a fatal
alert, or the first byte of any alert in a buffer of one byte. -/
def Recvmsg.ClosingAlert (size : ℕ) (r : Recvmsg) : Prop :=
  ∃ cmsgs bytes, r = .ok (.tlsGetRecordType 21 :: cmsgs) bytes ∧
    ((∃ level, bytes.take size = [level]) ∨
      ∃ level description, bytes.take size = [level, description] ∧
        (level = 2 ∨ description = 0))

/-- What `recvmsg` gave is another alert. -/
def Recvmsg.OtherAlert (size : ℕ) (r : Recvmsg) : Prop :=
  ∃ cmsgs bytes, r = .ok (.tlsGetRecordType 21 :: cmsgs) bytes ∧
    ∃ level description, bytes.take size = [level, description] ∧ level ≠ 2 ∧ description ≠ 0

theorem alertControl_eq (level description : UInt8) :
    alertControl (.fromPrimitive level) (.fromPrimitive description) =
      if level = 2 ∨ description = 0 then .close else .unhandled := by
  by_cases hd : description = 0
  · rw [if_pos (Or.inr hd), TlsAlertDescription.fromPrimitive, if_pos hd]
    rfl
  · rw [TlsAlertDescription.fromPrimitive, if_neg hd]
    by_cases hl : level = 2
    · rw [if_pos (Or.inl hl), hl]
      rfl
    · rw [if_neg (by simp [hl, hd]), TlsAlertLevel.fromPrimitive]
      split
      · rfl
      · rfl

theorem fromPrimitive_eq_alert {t : UInt8} (h : TlsRecordType.fromPrimitive t = .alert) :
    t = 21 := by
  unfold TlsRecordType.fromPrimitive at h
  repeat' split at h
  all_goals first | assumption | exact absurd h (by simp)

/-- What a control record can lead to.  Only alerts do more than being ignored. -/
theorem control_cases (size : ℕ) (cmsgs : List ControlMessage) (bytes : List UInt8) :
    (∃ message, control size cmsgs bytes = .panic message) ∨
      control size cmsgs bytes = .ignored ∨
      (control size cmsgs bytes = .close ∧ (Recvmsg.ok cmsgs bytes).ClosingAlert size) ∨
      (control size cmsgs bytes = .unhandled ∧ (Recvmsg.ok cmsgs bytes).OtherAlert size) := by
  unfold control
  split
  · exact Or.inl ⟨_, rfl⟩
  · exact Or.inl ⟨_, rfl⟩
  · rename_i t cmsgs
    split
    · exact Or.inl ⟨_, rfl⟩
    · rename_i ht
      obtain rfl := fromPrimitive_eq_alert ht
      split
      · exact Or.inl ⟨_, rfl⟩
      · rename_i level hbytes
        exact Or.inr (Or.inr (Or.inl ⟨rfl, cmsgs, bytes, rfl, Or.inl ⟨level, hbytes⟩⟩))
      · rename_i level description hbytes
        rw [alertControl_eq]
        split
        · rename_i hclose
          exact Or.inr (Or.inr (Or.inl ⟨rfl, cmsgs, bytes, rfl,
            Or.inr ⟨level, description, hbytes, hclose⟩⟩))
        · rename_i hopen
          obtain ⟨hlevel, hdescription⟩ := not_or.mp hopen
          exact Or.inr (Or.inr (Or.inr ⟨rfl, cmsgs, bytes, rfl, level, description, hbytes,
            hlevel, hdescription⟩))
      · exact Or.inl ⟨_, rfl⟩
    · exact Or.inr (Or.inl rfl)
    · exact Or.inl ⟨_, rfl⟩
    · exact Or.inr (Or.inl rfl)

theorem control_of_closingAlert {size : ℕ} {cmsgs : List ControlMessage} {bytes : List UInt8}
    (h : (Recvmsg.ok cmsgs bytes).ClosingAlert size) : control size cmsgs bytes = .close := by
  obtain ⟨cmsgs', bytes', heq, hbytes⟩ := h
  obtain ⟨rfl, rfl⟩ := Recvmsg.ok.inj heq
  have halert : TlsRecordType.fromPrimitive 21 = .alert := by decide
  rcases hbytes with ⟨level, hbytes⟩ | ⟨level, description, hbytes, hclose⟩
  · simp only [control, halert, hbytes]
    rfl
  · simp only [control, halert, hbytes]
    rw [alertControl_eq, if_pos hclose]

theorem control_of_otherAlert {size : ℕ} {cmsgs : List ControlMessage} {bytes : List UInt8}
    (h : (Recvmsg.ok cmsgs bytes).OtherAlert size) : control size cmsgs bytes = .unhandled := by
  obtain ⟨cmsgs', bytes', heq, level, description, hbytes, hlevel, hdescription⟩ := h
  obtain ⟨rfl, rfl⟩ := Recvmsg.ok.inj heq
  have halert : TlsRecordType.fromPrimitive 21 = .alert := by decide
  simp only [control, halert, hbytes]
  rw [alertControl_eq, if_neg (not_or.mpr ⟨hlevel, hdescription⟩)]

/-- An alert is met with a panic, or it is one of the two, for the bytes in the buffer. -/
theorem control_alert_cases (size : ℕ) (cmsgs : List ControlMessage) (bytes : List UInt8) :
    (∃ message, control size (.tlsGetRecordType 21 :: cmsgs) bytes = .panic message) ∨
      (Recvmsg.ok (.tlsGetRecordType 21 :: cmsgs) bytes).ClosingAlert size ∨
      (Recvmsg.ok (.tlsGetRecordType 21 :: cmsgs) bytes).OtherAlert size := by
  have halert : TlsRecordType.fromPrimitive 21 = .alert := by decide
  rcases control_cases size (.tlsGetRecordType 21 :: cmsgs) bytes with h | h | ⟨-, h⟩ | ⟨-, h⟩
  · exact Or.inl h
  · refine absurd h ?_
    simp only [control, halert]
    split
    · simp
    · simp [alertControl]
    · rw [alertControl_eq]
      split <;> simp
    · simp
  · exact Or.inr (Or.inl h)
  · exact Or.inr (Or.inr h)

theorem Recvmsg.not_closingAlert {size : ℕ} {r : Recvmsg} (h : r.OtherAlert size) :
    ¬ r.ClosingAlert size := by
  intro hclosing
  cases r with
  | err errno =>
    obtain ⟨_, _, heq, -⟩ := h
    exact absurd heq (by simp)
  | ok cmsgs bytes =>
    have hclose := control_of_closingAlert hclosing
    exact absurd ((control_of_otherAlert h).symm.trans hclose) (by simp)

namespace KtlsStream

/-- `KtlsStream::new`. -/
def new (drained : Option (List UInt8)) : KtlsStream :=
  ⟨false, false, drained.map fun drained => (0, drained)⟩

/-- `KtlsStream::into_raw`: the drained data. -/
def intoRaw (s : KtlsStream) : Option (List UInt8) := s.drained.map Prod.snd

/-- `poll_read` of a stream that has nothing drained, with room for `size` bytes. -/
def readInner (s : KtlsStream) (size : ℕ) (answers : Answers) : Polled :=
  match answers.read with
  | .pending => { stream := s, poll := .pending, innerRead := true }
  | .ready bytes => { stream := s, poll := .ready, put := bytes.take size, innerRead := true }
  | .err e =>
      if e = some eio then
        match answers.recvmsg with
        | .err errno =>
            if errno = eagain then
              { stream := s, poll := .panic "expected a control message, got EAGAIN",
                innerRead := true }
            else { stream := s, poll := .err (some errno), innerRead := true }
        | .ok cmsgs bytes =>
            match control size cmsgs bytes with
            | .panic message => { stream := s, poll := .panic message, innerRead := true }
            | .ignored => { stream := s, poll := .pending, innerRead := true }
            | .unhandled => { stream := s, poll := .ready, innerRead := true }
            | .close =>
                { stream := { s with readClosed := true, writeClosed := true }
                  poll := match answers.closeNotify with
                    | none => .ready
                    | some e => .err e
                  innerRead := true
                  closeNotifies := 1 }
      else { stream := s, poll := .err e, innerRead := true }

/-- `KtlsStream::poll_read`, with room for `size` bytes in the caller's buffer. -/
def pollRead (s : KtlsStream) (size : ℕ) (answers : Answers) : Polled :=
  if s.readClosed then { stream := s, poll := .ready }
  else if size = 0 then { stream := s, poll := .ready }
  else match s.drained with
    | some (drainIndex, drained) =>
        if drained.length < drainIndex then
          { stream := s, poll := .panic "range start index out of range for slice" }
        else
          -- from here on `drained` is what is left of it, as in the source
          let rest := drained.drop drainIndex
          let len := min size rest.length
          { stream := { s with
              drained := if rest.length ≤ drainIndex + len then none
                else some (drainIndex + len, drained) }
            poll := .ready
            put := rest.take len }
    | none => s.readInner size answers

/-- The call gets as far as fetching a control record with `recvmsg`. -/
def FetchesControl (s : KtlsStream) (size : ℕ) (answers : Answers) : Prop :=
  s.readClosed = false ∧ size ≠ 0 ∧ s.drained = none ∧ answers.read = .err (some eio)

/-- What a call of `poll_read` can do. -/
inductive ReadShape (s : KtlsStream) (size : ℕ) (answers : Answers) (p : Polled) : Prop
  /-- the read side is closed, or there is no room -/
  | idle (hidle : s.readClosed = true ∨ size = 0) (hp : p = { stream := s, poll := .ready })
  | drain (hopen : s.readClosed = false) (hsize : size ≠ 0) (i : ℕ) (D : List UInt8)
      (hdrained : s.drained = some (i, D)) (hi : i ≤ D.length)
      (hstream : p.stream = { s with
        drained := if D.length - i ≤ i + min size (D.length - i) then none
          else some (i + min size (D.length - i), D) })
      (hpoll : p.poll = .ready) (hput : p.put = (D.drop i).take (min size (D.length - i)))
      (hinner : p.innerRead = false) (hclose : p.closeNotifies = 0)
  | data (hopen : s.readClosed = false) (hsize : size ≠ 0) (hdrained : s.drained = none)
      (bytes : List UInt8) (hread : answers.read = .ready bytes)
      (hp : p = { stream := s, poll := .ready, put := bytes.take size, innerRead := true })
  /-- the inner stream is not ready, something fails, or a control record is ignored -/
  | wait (hcontrol : s.FetchesControl size answers → ¬ answers.recvmsg.ClosingAlert size ∧
        ¬ answers.recvmsg.OtherAlert size) (hready : ∀ bytes, answers.read ≠ .ready bytes)
      (hpoll : p.poll ≠ .ready) (hstream : p.stream = s) (hput : p.put = [])
      (hclose : p.closeNotifies = 0)
  | panic (message : String) (hpoll : p.poll = .panic message) (hput : p.put = [])
      (hstream : p.stream = s)
  | unhandled (hfetch : s.FetchesControl size answers)
      (halert : answers.recvmsg.OtherAlert size)
      (hp : p = { stream := s, poll := .ready, innerRead := true })
  | close (hfetch : s.FetchesControl size answers)
      (halert : answers.recvmsg.ClosingAlert size)
      (hstream : p.stream = { s with readClosed := true, writeClosed := true })
      (hput : p.put = []) (hclose : p.closeNotifies = 1)
      (hpanic : ∀ message, p.poll ≠ .panic message)

theorem readInner_shape {s : KtlsStream} {size : ℕ} {answers : Answers}
    (hopen : s.readClosed = false) (hsize : size ≠ 0) (hdrained : s.drained = none) :
    ReadShape s size answers (s.readInner size answers) := by
  unfold readInner
  split
  · rename_i hread
    exact .wait (fun hfetch => absurd (hread.symm.trans hfetch.2.2.2) (by simp)) (by simp [hread])
      (by simp) rfl rfl rfl
  · rename_i bytes hread
    exact .data hopen hsize hdrained bytes hread rfl
  · rename_i e hread
    split
    · rename_i heio
      have hfetch : s.FetchesControl size answers := ⟨hopen, hsize, hdrained, heio ▸ hread⟩
      split
      · rename_i errno hmsg
        have hno : ¬ answers.recvmsg.ClosingAlert size ∧ ¬ answers.recvmsg.OtherAlert size := by
          rw [hmsg]
          exact ⟨by rintro ⟨_, _, heq, -⟩; exact absurd heq (by simp),
            by rintro ⟨_, _, heq, -⟩; exact absurd heq (by simp)⟩
        split
        · exact .panic _ rfl rfl rfl
        · exact .wait (fun _ => hno) (by simp [hread]) (by simp) rfl rfl rfl
      · rename_i cmsgs bytes hmsg
        rcases control_cases size cmsgs bytes with ⟨message, hc⟩ | hc | ⟨hc, halert⟩ | ⟨hc, halert⟩
        · rw [hc]
          exact .panic message rfl rfl rfl
        · have hno : ¬ answers.recvmsg.ClosingAlert size ∧ ¬ answers.recvmsg.OtherAlert size := by
            rw [hmsg]
            exact ⟨fun h => absurd (hc.symm.trans (control_of_closingAlert h)) (by simp),
              fun h => absurd (hc.symm.trans (control_of_otherAlert h)) (by simp)⟩
          rw [hc]
          exact .wait (fun _ => hno) (by simp [hread]) (by simp) rfl rfl rfl
        · rw [hc]
          exact .close hfetch (hmsg ▸ halert) rfl rfl rfl (by simp only; split <;> simp)
        · rw [hc]
          exact .unhandled hfetch (hmsg ▸ halert) rfl
    · rename_i hne
      refine .wait (fun hfetch => absurd ?_ hne) (by simp [hread]) (by simp) rfl rfl rfl
      exact InnerPoll.err.inj (hread.symm.trans hfetch.2.2.2)

/-- **Everything a call of `poll_read` can do.** -/
theorem pollRead_shape (s : KtlsStream) (size : ℕ) (answers : Answers) :
    ReadShape s size answers (s.pollRead size answers) := by
  unfold pollRead
  split
  · rename_i hclosed
    exact .idle (Or.inl hclosed) rfl
  · rename_i hclosed
    have hopen : s.readClosed = false := by simpa using hclosed
    split
    · rename_i hsize
      exact .idle (Or.inr hsize) rfl
    · rename_i hsize
      split
      · rename_i i D hdrained
        split
        · exact .panic _ rfl rfl rfl
        · rename_i hi
          exact .drain hopen hsize i D hdrained (by omega) (by simp only [List.length_drop]) rfl
            (by simp only [List.length_drop]) rfl rfl
      · rename_i hdrained
        exact readInner_shape hopen hsize hdrained

theorem innerRead_readInner (s : KtlsStream) (size : ℕ) (answers : Answers) :
    (s.readInner size answers).innerRead = true := by
  unfold readInner
  repeat' split
  all_goals rfl

theorem drained_readInner (s : KtlsStream) (size : ℕ) (answers : Answers) :
    (s.readInner size answers).stream.drained = s.drained := by
  unfold readInner
  repeat' split
  all_goals rfl

/-- What the socket gives is what the caller gets. -/
theorem put_readInner (s : KtlsStream) (size : ℕ) (answers : Answers) :
    (s.readInner size answers).put = answers.read.bytes size := by
  unfold readInner
  split
  all_goals
    rename_i hread
    rw [hread]
  · rfl
  · rfl
  · repeat' split
    all_goals rfl

/-- With nothing drained, a call reads the socket unless it was closed. -/
theorem pollRead_of_none {s : KtlsStream} (hs : s.drained = none) {size : ℕ} (hsize : size ≠ 0)
    (answers : Answers) :
    s.pollRead size answers =
      if s.readClosed then { stream := s, poll := .ready } else s.readInner size answers := by
  simp only [pollRead, hsize, reduceIte, hs]

/-- A call that gets as far as `recvmsg` reads the socket. -/
theorem pollRead_of_fetchesControl {s : KtlsStream} {size : ℕ} {answers : Answers}
    (h : s.FetchesControl size answers) :
    s.pollRead size answers = s.readInner size answers := by
  rw [pollRead_of_none h.2.2.1 h.2.1, h.1]
  rfl

theorem fetchesControl_of_innerRead {s : KtlsStream} {size : ℕ} {answers : Answers}
    (h : (s.pollRead size answers).innerRead = true) (hread : answers.read = .err (some eio)) :
    s.FetchesControl size answers := by
  unfold pollRead at h
  split at h
  · exact absurd h (by simp)
  · rename_i hopen
    split at h
    · exact absurd h (by simp)
    · rename_i hsize
      split at h
      · split at h <;> exact absurd h (by simp)
      · rename_i hdrained
        exact ⟨by simpa using hopen, hsize, hdrained, hread⟩

/-- What a call does about an alert that closes the session. -/
theorem stream_of_closingAlert {s : KtlsStream} {size : ℕ} {answers : Answers}
    (hfetch : s.FetchesControl size answers) (halert : answers.recvmsg.ClosingAlert size) :
    (s.pollRead size answers).stream = { s with readClosed := true, writeClosed := true } := by
  obtain ⟨cmsgs, bytes, hmsg, -⟩ := id halert
  rw [pollRead_of_fetchesControl hfetch]
  simp only [readInner, hfetch.2.2.2, reduceIte, hmsg, control_of_closingAlert (hmsg ▸ halert)]

/-- What it does about another one: it succeeds, with nothing read and nothing closed. -/
theorem pollRead_of_otherAlert {s : KtlsStream} {size : ℕ} {answers : Answers}
    (hfetch : s.FetchesControl size answers) (halert : answers.recvmsg.OtherAlert size) :
    s.pollRead size answers = { stream := s, poll := .ready, innerRead := true } := by
  obtain ⟨cmsgs, bytes, hmsg, -⟩ := id halert
  rw [pollRead_of_fetchesControl hfetch]
  simp only [readInner, hfetch.2.2.2, reduceIte, hmsg, control_of_otherAlert (hmsg ▸ halert)]

/-- With `i` bytes of `D` delivered, a call puts the next ones, and forgets `D` when the
index has passed what was left. -/
theorem pollRead_of_drained {D : List UInt8} {i size : ℕ} (hi : i ≤ D.length) (hsize : size ≠ 0)
    (answers : Answers) :
    pollRead ⟨false, false, some (i, D)⟩ size answers =
      { stream := ⟨false, false,
          if D.length - i ≤ i + min size (D.length - i) then none
          else some (i + min size (D.length - i), D)⟩
        poll := .ready
        put := (D.drop i).take (min size (D.length - i)) } := by
  have hlt : ¬ D.length < i := by omega
  simp only [pollRead, hsize, reduceIte, hlt, List.length_drop, Bool.false_eq_true]

end KtlsStream

/-! ## Sequences of calls -/

/-- A call of `poll_read`: the room in its buffer, and what the kernel answers. -/
structure ReadCall where
  size : ℕ
  answers : Answers

/-- A stream and what has come out of it. -/
structure Session where
  stream : KtlsStream
  /-- The bytes put into the callers' buffers. -/
  out : List UInt8
  /-- The bytes the inner stream has delivered. -/
  inner : List UInt8
  deriving DecidableEq

namespace Session

open Runs

/-- A stream just built, with the drained bytes `D`. -/
def start (D : List UInt8) : Session := ⟨KtlsStream.new (some D), [], []⟩

/-- One call; there is none after a panic. -/
def step (s : Session) (c : ReadCall) : Option Session :=
  let p := s.stream.pollRead c.size c.answers
  match p.poll with
  | .panic _ => none
  | _ =>
      some ⟨p.stream, s.out ++ p.put,
        if p.innerRead then s.inner ++ c.answers.read.bytes c.size else s.inner⟩

/-- The call does what the stream is for: it reads the socket only once all of `D` has been
delivered, and what has been delivered after it is a prefix of `D` and the socket's bytes,
and all of them once it goes as far as `D`. -/
def Delivers (D : List UInt8) (s : Session) (c : ReadCall) : Prop :=
  ((s.stream.pollRead c.size c.answers).innerRead = true → D <+: s.out) ∧
    ∀ t, s.step c = some t → t.out <+: D ++ t.inner ∧ (D <+: t.out → t.out = D ++ t.inner)

/-- No call before the last one leaves `D` half delivered.  With `i` bytes of the `l`
delivered, a call of size `n` takes all that is left, or leaves the index below what was
left before it. -/
def NoCut (l i : ℕ) : List ℕ → Prop
  | [] => True
  | [_] => True
  | n :: m :: ns => l ≤ i + n ∨ (2 * i + n < l ∧ NoCut l (i + n) (m :: ns))

/-! ## After the drain -/

/-- All of `D` has been delivered, and then what the socket has delivered. -/
def Finished (D : List UInt8) (s : Session) : Prop :=
  s.stream.drained = none ∧ s.out = D ++ s.inner

theorem step_eq_some {s t : Session} {c : ReadCall} (h : s.step c = some t) :
    t = ⟨(s.stream.pollRead c.size c.answers).stream,
      s.out ++ (s.stream.pollRead c.size c.answers).put,
      if (s.stream.pollRead c.size c.answers).innerRead then
        s.inner ++ c.answers.read.bytes c.size else s.inner⟩ := by
  simp only [step] at h
  split at h
  · exact absurd h (by simp)
  · exact (Option.some.inj h).symm

theorem Finished.of_step {D : List UInt8} {s t : Session} {c : ReadCall} (hs : s.Finished D)
    (hc : c.size ≠ 0) (h : s.step c = some t) : t.Finished D := by
  have ht := step_eq_some h
  rw [KtlsStream.pollRead_of_none hs.1 hc] at ht
  split at ht
  · -- the read side is closed: nothing happens
    rw [ht]
    exact ⟨hs.1, by rw [List.append_nil, hs.2]; rfl⟩
  · rw [KtlsStream.innerRead_readInner] at ht
    rw [ht]
    refine ⟨(KtlsStream.drained_readInner _ _ _).trans hs.1, ?_⟩
    show s.out ++ (s.stream.readInner c.size c.answers).put = D ++ (s.inner ++ _)
    rw [KtlsStream.put_readInner, hs.2, List.append_assoc]

theorem Finished.delivers {D : List UInt8} {s : Session} {c : ReadCall} (hs : s.Finished D)
    (hc : c.size ≠ 0) : s.Delivers D c := by
  refine ⟨fun _ => ?_, fun t ht => ?_⟩
  · rw [hs.2]
    exact List.prefix_append _ _
  · have hout := (hs.of_step hc ht).2
    exact ⟨hout ▸ List.prefix_refl _, fun _ => hout⟩

theorem Finished.allowed {D : List UInt8} {s : Session} {calls : List ReadCall}
    (hs : s.Finished D) (hsize : ∀ c ∈ calls, c.size ≠ 0) :
    Allowed step (Delivers D) s calls := by
  induction calls generalizing s with
  | nil => exact Allowed.nil
  | cons c calls ih =>
    have hc := hsize c List.mem_cons_self
    refine allowed_cons.mpr ⟨hs.delivers hc, fun t ht => ?_⟩
    exact ih (hs.of_step hc ht) fun c' hc' => hsize c' (List.mem_cons_of_mem c hc')

/-! ## During the drain -/

/-- The stream with `i` bytes of `D` delivered. -/
def draining (D : List UInt8) (i : ℕ) : Session := ⟨⟨false, false, some (i, D)⟩, D.take i, []⟩

/-- The stream after a call has forgotten `D` too early. -/
def cut (D : List UInt8) (i : ℕ) : Session := ⟨⟨false, false, none⟩, D.take i, []⟩

/-- One call during the drain: the bytes that are next, and an index that may have passed
what was left. -/
theorem step_draining {D : List UInt8} {i : ℕ} (hi : i < D.length) {c : ReadCall}
    (hc : c.size ≠ 0) :
    (draining D i).step c =
      some (if D.length - i ≤ i + min c.size (D.length - i) then
        cut D (i + min c.size (D.length - i))
      else draining D (i + min c.size (D.length - i))) := by
  simp only [step, draining, KtlsStream.pollRead_of_drained (Nat.le_of_lt hi) hc,
    Bool.false_eq_true, reduceIte, cut, List.take_add]
  split <;> rfl

theorem delivers_draining {D : List UInt8} {i : ℕ} (hi : i < D.length) {c : ReadCall}
    (hc : c.size ≠ 0) : (draining D i).Delivers D c := by
  refine ⟨fun h => ?_, fun t ht => ?_⟩
  · simp only [draining, KtlsStream.pollRead_of_drained (Nat.le_of_lt hi) hc] at h
    exact absurd h (by simp)
  · rw [step_draining hi hc] at ht
    obtain rfl := Option.some.inj ht
    split
    all_goals
      simp only [cut, draining, List.append_nil]
      refine ⟨List.take_prefix _ _, fun hall => ?_⟩
      exact (List.take_prefix _ _).eq_of_length_le hall.length_le

/-- A stream that has forgotten the rest of `D` reads the socket in the next call. -/
theorem not_delivers_cut {D : List UInt8} {i : ℕ} (hi : i < D.length) {c : ReadCall}
    (hc : c.size ≠ 0) : ¬ (cut D i).Delivers D c := by
  rintro ⟨hread, -⟩
  have hinner : ((cut D i).stream.pollRead c.size c.answers).innerRead = true := by
    rw [KtlsStream.pollRead_of_none rfl hc]
    exact KtlsStream.innerRead_readInner _ _ _
  have hlen := (hread hinner).length_le
  simp only [cut, List.length_take] at hlen
  omega

theorem allowed_draining_iff {D : List UInt8} {i : ℕ} (hi : i < D.length)
    {calls : List ReadCall} (hsize : ∀ c ∈ calls, c.size ≠ 0) :
    Allowed step (Delivers D) (draining D i) calls ↔
      NoCut D.length i (calls.map ReadCall.size) := by
  induction calls generalizing i with
  | nil => exact ⟨fun _ => trivial, fun _ => Allowed.nil⟩
  | cons c calls ih =>
    have hc := hsize c List.mem_cons_self
    have hrest : ∀ c' ∈ calls, c'.size ≠ 0 := fun c' hc' => hsize c' (List.mem_cons_of_mem c hc')
    have hstep := step_draining hi hc
    rw [allowed_cons]
    simp only [delivers_draining hi hc, true_and, hstep, Option.some.injEq, forall_eq']
    cases calls with
    | nil => exact ⟨fun _ => trivial, fun _ => Allowed.nil⟩
    | cons c' calls =>
      rw [List.map_cons, List.map_cons, NoCut]
      rcases Nat.lt_or_ge (i + c.size) D.length with hlt | hge
      · have hmin : min c.size (D.length - i) = c.size := by omega
        rw [hmin]
        rcases Nat.lt_or_ge (2 * i + c.size) D.length with hlow | hcut
        · rw [if_neg (by omega), ih hlt hrest]
          constructor
          · exact fun h => Or.inr ⟨hlow, h⟩
          · rintro (h | ⟨-, h⟩)
            · omega
            · exact h
        · -- the index has passed what was left, and bytes of `D` are still due
          rw [if_pos (by omega)]
          refine ⟨fun h => ?_, fun h => by omega⟩
          exact absurd (allowed_cons.mp h).1 (not_delivers_cut hlt (hrest c' List.mem_cons_self))
      · have hmin : min c.size (D.length - i) = D.length - i := by omega
        rw [hmin, if_pos (by omega)]
        refine ⟨fun _ => Or.inl hge, fun _ => ?_⟩
        have hfinished : (cut D (i + (D.length - i))).Finished D := by
          have hall : i + (D.length - i) = D.length := by omega
          simp only [Finished, cut, hall, List.take_length, List.append_nil, and_self]
        exact hfinished.allowed hrest

/-- **When the drained bytes are delivered whole.**  For every non-empty `D` and every
sequence of calls with room in their buffers, whatever the socket answers: every call
delivers as it should if and only if no call but the last is a cut. -/
theorem delivers_iff (D : List UInt8) (hD : D ≠ []) (calls : List ReadCall)
    (hsize : ∀ c ∈ calls, c.size ≠ 0) :
    Allowed step (Delivers D) (start D) calls ↔ NoCut D.length 0 (calls.map ReadCall.size) := by
  have hstart : start D = draining D 0 := by
    simp only [start, draining, KtlsStream.new, Option.map_some, List.take_zero]
  rw [hstart]
  exact allowed_draining_iff (List.length_pos_iff.mpr hD) hsize

/-- Calls of these sizes, on a socket that has the bytes `98` and `99` for each of them. -/
def calls (sizes : List ℕ) : List ReadCall :=
  sizes.map fun size => ⟨size, ⟨.ready [98, 99], .err eagain, none⟩⟩

theorem delivers_iff_one_buffer :
    Allowed step (Delivers [0, 1, 2, 3]) (start [0, 1, 2, 3]) (calls [4, 4]) := by
  refine (delivers_iff [0, 1, 2, 3] (by decide) (calls [4, 4]) (by decide)).mpr ?_
  exact Or.inl (by decide)

/-- **Two bytes are lost.**  Ten drained bytes, read with room for five and then for three:
the third call already reads the socket, and `8` and `9` are never delivered. -/
theorem not_delivers_five_three :
    ∃ s, run step (start [0, 1, 2, 3, 4, 5, 6, 7, 8, 9]) (calls [5, 3, 4]) = some s ∧
      s.out = [0, 1, 2, 3, 4, 5, 6, 7, 98, 99] ∧ s.inner = [98, 99] ∧
      ¬ s.out <+: [0, 1, 2, 3, 4, 5, 6, 7, 8, 9] ++ s.inner :=
  ⟨_, rfl, rfl, rfl, by decide⟩

end Session
end Turbine
