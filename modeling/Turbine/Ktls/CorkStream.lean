import Turbine.Ktls.Stream
import Turbine.Lib.Records

/-!
# The cork: `CorkStream`

A `CorkStream` sits between the socket and rustls and follows the TLS records that go
through it, so that reading can be stopped at a record boundary.  It is a state machine
with three states.  In `ReadHeader` it collects the five bytes of a header in a buffer of
its own, and hands them to the caller once they are all there; in `ReadPayload` it lets the
caller read, but not past the end of the record; and in `Passthrough`, after the end of the
stream, it only forwards.  Once it is corked, it answers with an empty read whenever it
stands at a record boundary.

The source keeps the header as an array of five bytes and an offset.  The model keeps the
bytes before the offset, and the offset is their number; the bytes behind it are never
looked at.  `decode_header` can fail in the source only where `ContentType::read_bytes` or
`ProtocolVersion::read_bytes` does, and these map every code to some variant.

The inner stream is any type with an `AsyncRead` instance.  A call reports, besides what it
returns, the bytes it took from the inner stream; `Framed` is the invariant that relates
them to the bytes handed on.
-/

namespace Turbine

open Records

/-- `tokio::io::AsyncRead`: what a read into a buffer of a given size answers. -/
class AsyncRead (ι : Type) where
  pollRead : ι → ℕ → InnerPoll × ι

/-- `State`. -/
inductive CorkState where
  | readHeader (header : List UInt8)
  | readPayload (msgSize offset : ℕ)
  | passthrough
  deriving DecidableEq

/-- `CorkStream`. -/
structure CorkStream (ι : Type) where
  io : ι
  corked : Bool
  state : CorkState
  deriving DecidableEq

/-- What a call of `CorkStream::poll_read` has done. -/
structure CorkPolled (ι : Type) where
  stream : CorkStream ι
  poll : Poll
  /-- The bytes put into the caller's buffer. -/
  put : List UInt8 := []
  /-- The bytes taken from the inner stream. -/
  taken : List UInt8 := []
  /-- An inner read into a buffer with room returned no bytes. -/
  eof : Bool := false

/-- `decode_header`: the type, the version and the length. -/
def decodeHeader : List UInt8 → Option (UInt8 × (UInt8 × UInt8) × ℕ)
  | [typ, major, minor, hi, lo] => some (typ, (major, minor), hi.toNat * 256 + lo.toNat)
  | _ => none

namespace CorkStream

variable {ι : Type}

/-- `CorkStream::new`. -/
def new (io : ι) : CorkStream ι := ⟨io, false, .readHeader []⟩

/-- The state after a complete header. -/
def afterHeader (header : List UInt8) : CorkState :=
  match decodeHeader header with
  | some (_, _, len) => .readPayload len 0
  | none => .passthrough

/-! ## Framing -/

/-- **The invariant of the framing**, for the bytes `taken` from the inner stream and the
bytes `fed` to the callers so far.  Between two records, whole records have been taken and
fed, and the bytes of the next header are held back; inside a record, all has been fed, and
it is whole records, a header and less than its payload --- or all of it, if it is empty. -/
def Framed (state : CorkState) (taken fed : List UInt8) : Prop :=
  match state with
  | .readHeader header => header.length < 5 ∧ Whole fed ∧ taken = fed ++ header
  | .readPayload msgSize offset =>
      ∃ bs header payload, Whole bs ∧ header.length = 5 ∧ lengthOf header = msgSize ∧
        payload.length = offset ∧ (offset < msgSize ∨ (msgSize = 0 ∧ offset = 0)) ∧
        fed = bs ++ header ++ payload ∧ taken = fed
  | .passthrough => taken = fed

/-- Every five bytes are a header. -/
theorem afterHeader_eq {header : List UInt8} (h : header.length = 5) :
    afterHeader header = .readPayload (lengthOf header) 0 := by
  match header, h with
  | [_, _, _, _, _], _ => rfl

theorem framed_afterHeader {header fed : List UInt8} (hfed : Whole fed) (h : header.length = 5) :
    Framed (afterHeader header) (fed ++ header) (fed ++ header) := by
  rw [afterHeader_eq h]
  refine ⟨fed, header, [], hfed, h, rfl, rfl, ?_, by rw [List.append_nil], rfl⟩
  omega

/-- **The bounds**, which are a matter of the state alone: less than a record is in progress,
or a record without a payload.  A header of five bytes is held back only after a call that
had no room for it and panicked. -/
def InBounds : CorkState → Prop
  | .readHeader header => header.length ≤ 5
  | .readPayload msgSize offset => offset < msgSize ∨ (msgSize = 0 ∧ offset = 0)
  | .passthrough => True

theorem inBounds_of_framed {state : CorkState} {taken fed : List UInt8}
    (hF : Framed state taken fed) : InBounds state := by
  cases state with
  | readHeader header => exact Nat.le_of_lt hF.1
  | readPayload msgSize offset =>
    obtain ⟨-, -, -, -, -, -, -, hlt, -⟩ := hF
    exact hlt
  | passthrough => trivial

theorem inBounds_afterHeader {header : List UInt8} (h : header.length = 5) :
    InBounds (afterHeader header) := by
  rw [afterHeader_eq h, InBounds]
  omega

/-! ## What a call can do, state by state -/

/-- What a call in state `ReadHeader` can do, with `header` held back so far: answer with an
empty read because of the cork; take some more bytes and hold them back too; find the end
of the stream and give up what it holds; or complete the header. -/
inductive HeaderShape (corked : Bool) (header : List UInt8) (p : CorkPolled ι) : Prop
  | corked (hheader : header = []) (hcorked : corked = true) (hpoll : p.poll = .ready)
      (hput : p.put = []) (htaken : p.taken = []) (hstate : p.stream.state = .readHeader [])
  | wait (hpoll : p.poll ≠ .ready) (hput : p.put = [])
      (hstate : p.stream.state = .readHeader (header ++ p.taken))
      (hlen : (header ++ p.taken).length < 5)
  | eof (hpoll : p.poll = .ready) (hput : p.put = header ++ p.taken)
      (hlen : (header ++ p.taken).length < 5) (hstate : p.stream.state = .passthrough)
      (heof : p.eof = true)
  | full (hpoll : p.poll = .ready) (hput : p.put = header ++ p.taken)
      (hlen : (header ++ p.taken).length = 5)
      (hstate : p.stream.state = .readPayload (lengthOf (header ++ p.taken)) 0)

/-- What a call in state `ReadPayload` can do: nothing, or read on in the record. -/
inductive PayloadShape (room msgSize offset : ℕ) (p : CorkPolled ι) : Prop
  | wait (hpoll : p.poll ≠ .ready) (hput : p.put = []) (htaken : p.taken = [])
      (hstate : p.stream.state = .readPayload msgSize offset)
  | read (hpoll : p.poll = .ready) (htaken : p.taken = p.put)
      (hlen : offset + p.put.length ≤ msgSize)
      (hstate : p.stream.state = if offset + p.put.length = msgSize then .readHeader []
        else .readPayload msgSize (offset + p.put.length))
      (heof : p.put = [] → room ≠ 0 → offset < msgSize → p.eof = true)

/-- The call has not panicked. -/
def NoPanic (p : CorkPolled ι) : Prop := ∀ message, p.poll ≠ .panic message

theorem framed_of_headerShape {corked : Bool} {header taken fed : List UInt8} {p : CorkPolled ι}
    (hF : Framed (.readHeader header) taken fed) (hp : HeaderShape corked header p) :
    Framed p.stream.state (taken ++ p.taken) (fed ++ p.put) := by
  obtain ⟨hheader, hfed, rfl⟩ := hF
  cases hp with
  | corked hnil _ _ hput htaken hstate =>
    rw [hstate, hput, htaken, hnil]
    exact ⟨by simp, by rwa [List.append_nil], by simp⟩
  | wait _ hput hstate hlen =>
    rw [hstate, hput]
    exact ⟨hlen, by rwa [List.append_nil], by simp⟩
  | eof _ hput _ hstate _ =>
    rw [hstate, hput]
    exact List.append_assoc _ _ _
  | full _ hput hlen hstate =>
    have hafter := framed_afterHeader hfed hlen
    rw [hput, hstate, ← afterHeader_eq hlen, List.append_assoc]
    exact hafter

theorem framed_of_payloadShape {room msgSize offset : ℕ} {taken fed : List UInt8}
    {p : CorkPolled ι} (hF : Framed (.readPayload msgSize offset) taken fed)
    (hp : PayloadShape room msgSize offset p) :
    Framed p.stream.state (taken ++ p.taken) (fed ++ p.put) := by
  cases hp with
  | wait _ hput htaken hstate =>
    rw [hstate, hput, htaken, List.append_nil, List.append_nil]
    exact hF
  | read _ htaken hlen hstate _ =>
    obtain ⟨bs, header, payload, hbs, hheader, hsize, hoff, hlt, rfl, rfl⟩ := hF
    rw [hstate, htaken]
    split
    · rename_i hfull
      refine ⟨by simp, ?_, by simp⟩
      rw [List.append_assoc (bs ++ header)]
      refine .snoc hbs hheader ?_
      rw [List.length_append, hoff, hsize, hfull]
    · rename_i hpart
      refine ⟨bs, header, payload ++ p.put, hbs, hheader, hsize, ?_, Or.inl (by omega), ?_, rfl⟩
      · rw [List.length_append, hoff]
      · rw [List.append_assoc (bs ++ header)]

/-! ## One call -/

variable [AsyncRead ι]

/-- The `loop` of `poll_read` in state `ReadHeader`, with room for `room` bytes in the
caller's buffer. -/
def readHeader (corked : Bool) (room : ℕ) (io : ι) (header : List UInt8) : CorkPolled ι :=
  if header = [] ∧ corked = true then
    { stream := ⟨io, corked, .readHeader header⟩, poll := .ready }
  else if 5 < header.length then
    { stream := ⟨io, corked, .readHeader header⟩
      poll := .panic "attempt to subtract with overflow" }
  else match AsyncRead.pollRead io (5 - header.length) with
    | (.pending, io') => { stream := ⟨io', corked, .readHeader header⟩, poll := .pending }
    | (.err e, io') => { stream := ⟨io', corked, .readHeader header⟩, poll := .err e }
    | (.ready bytes, io') =>
        if bytes.take (5 - header.length) = [] then
          -- the end of the stream: rustls shall see the cut header
          if room < header.length then
            { stream := ⟨io', corked, .readHeader header⟩
              poll := .panic "buf.len() must fit in remaining()" }
          else
            { stream := ⟨io', corked, .passthrough⟩, poll := .ready, put := header,
              eof := decide (header.length < 5) }
        else if (header ++ bytes.take (5 - header.length)).length = 5 then
          if room < 5 then
            { stream := ⟨io', corked, .readHeader (header ++ bytes.take (5 - header.length))⟩
              poll := .panic "you found an edge case in ktls!"
              taken := bytes.take (5 - header.length) }
          else
            { stream := ⟨io', corked, afterHeader (header ++ bytes.take (5 - header.length))⟩
              poll := .ready
              put := header ++ bytes.take (5 - header.length)
              taken := bytes.take (5 - header.length) }
        else
          let p := readHeader corked room io' (header ++ bytes.take (5 - header.length))
          { p with taken := bytes.take (5 - header.length) ++ p.taken }
termination_by 5 - header.length
decreasing_by
  rename_i hgot _
  have hpos : 0 < (bytes.take (5 - header.length)).length := List.length_pos_iff.mpr hgot
  have hle : (bytes.take (5 - header.length)).length ≤ 5 - header.length := by
    rw [List.length_take]
    exact Nat.min_le_left _ _
  rw [List.length_append]
  omega

/-- `poll_read` in state `ReadPayload`. -/
def readPayload (corked : Bool) (room : ℕ) (io : ι) (msgSize offset : ℕ) : CorkPolled ι :=
  if msgSize < offset then
    { stream := ⟨io, corked, .readPayload msgSize offset⟩
      poll := .panic "attempt to subtract with overflow" }
  else match AsyncRead.pollRead io (min (msgSize - offset) room) with
    | (.pending, io') => { stream := ⟨io', corked, .readPayload msgSize offset⟩, poll := .pending }
    | (.err e, io') => { stream := ⟨io', corked, .readPayload msgSize offset⟩, poll := .err e }
    | (.ready bytes, io') =>
        let got := bytes.take (min (msgSize - offset) room)
        { stream := ⟨io', corked,
            if offset + got.length = msgSize then .readHeader []
            else .readPayload msgSize (offset + got.length)⟩
          poll := .ready
          put := got
          taken := got
          eof := decide (got = [] ∧ min (msgSize - offset) room ≠ 0) }

/-- `poll_read` in state `Passthrough`. -/
def readThrough (corked : Bool) (room : ℕ) (io : ι) : CorkPolled ι :=
  match AsyncRead.pollRead io room with
  | (.pending, io') => { stream := ⟨io', corked, .passthrough⟩, poll := .pending }
  | (.err e, io') => { stream := ⟨io', corked, .passthrough⟩, poll := .err e }
  | (.ready bytes, io') =>
      { stream := ⟨io', corked, .passthrough⟩
        poll := .ready
        put := bytes.take room
        taken := bytes.take room
        eof := decide (bytes.take room = [] ∧ room ≠ 0) }

/-- `CorkStream::poll_read`. -/
def pollRead (c : CorkStream ι) (room : ℕ) : CorkPolled ι :=
  match c.state with
  | .readHeader header => readHeader c.corked room c.io header
  | .readPayload msgSize offset => readPayload c.corked room c.io msgSize offset
  | .passthrough => readThrough c.corked room c.io

theorem readHeader_shape (corked : Bool) (room : ℕ) (io : ι) (header : List UInt8)
    (hheader : header.length < 5) (hpanic : NoPanic (readHeader corked room io header)) :
    HeaderShape corked header (readHeader corked room io header) := by
  fun_induction readHeader corked room io header with
  | case1 io header hcork => exact .corked hcork.1 hcork.2 rfl rfl rfl (by rw [hcork.1])
  | case2 | case5 | case7 => exact absurd rfl (hpanic _)
  | case3 | case4 => exact .wait (by simp) rfl (by simp) (by simpa using hheader)
  | case6 io header _ _ bytes io' _ hnil hroom =>
    exact .eof rfl (by simp) (by simpa using hheader) rfl (by simpa using hheader)
  | case8 io header _ _ bytes io' _ hgot hfive hroom =>
    exact .full rfl rfl hfive (afterHeader_eq hfive)
  | case9 io header _ _ bytes io' _ hgot hfive p ih =>
    have hne : header ++ bytes.take (5 - header.length) ≠ [] := by simp [hgot]
    have hlt : (header ++ bytes.take (5 - header.length)).length < 5 := by
      rw [List.length_append, List.length_take] at hfive ⊢
      omega
    -- the rest of the loop starts with more bytes held back
    cases ih hlt hpanic with
    | corked hheader' => exact absurd hheader' hne
    | wait hpoll hput hstate hlen =>
      exact .wait hpoll hput (by rw [hstate, List.append_assoc])
        (by rwa [List.append_assoc] at hlen)
    | eof hpoll hput hlen hstate heof =>
      exact .eof hpoll (by rw [hput, List.append_assoc]) (by rwa [List.append_assoc] at hlen)
        hstate heof
    | full hpoll hput hlen hstate =>
      exact .full hpoll (by rw [hput, List.append_assoc]) (by rwa [List.append_assoc] at hlen)
        (by rw [hstate, List.append_assoc])

theorem readPayload_shape (corked : Bool) (room : ℕ) (io : ι) (msgSize offset : ℕ)
    (hpanic : NoPanic (readPayload corked room io msgSize offset)) :
    PayloadShape room msgSize offset (readPayload corked room io msgSize offset) := by
  unfold readPayload at hpanic ⊢
  split
  · rename_i hlt
    rw [if_pos hlt] at hpanic
    exact absurd rfl (hpanic _)
  · split
    · exact .wait (by simp) rfl rfl rfl
    · exact .wait (by simp) rfl rfl rfl
    · rename_i hle bytes io' _
      refine .read rfl rfl ?_ rfl ?_
      · simp only [List.length_take]
        omega
      · intro hnil hroom hlt
        have hne : min (msgSize - offset) room ≠ 0 := by omega
        exact decide_eq_true ⟨hnil, hne⟩

/-! ## A call keeps the framing -/

/-- What a call in state `Passthrough` does: it forwards. -/
structure ThroughShape (room : ℕ) (p : CorkPolled ι) : Prop where
  taken : p.taken = p.put
  state : p.stream.state = .passthrough
  eof : p.poll = .ready → p.put = [] → room ≠ 0 → p.eof = true

theorem readThrough_shape (corked : Bool) (room : ℕ) (io : ι) :
    ThroughShape room (readThrough corked room io) := by
  unfold readThrough
  split
  · exact ⟨rfl, rfl, fun h => absurd h (by simp)⟩
  · exact ⟨rfl, rfl, fun h => absurd h (by simp)⟩
  · exact ⟨rfl, rfl, fun _ hput hroom => decide_eq_true ⟨hput, hroom⟩⟩

variable {c : CorkStream ι} {room : ℕ}

theorem pollRead_header {header : List UInt8} (hc : c.state = .readHeader header)
    (hheader : header.length < 5) (hpanic : NoPanic (c.pollRead room)) :
    HeaderShape c.corked header (c.pollRead room) := by
  have hpoll : c.pollRead room = readHeader c.corked room c.io header := by rw [pollRead, hc]
  rw [hpoll] at hpanic ⊢
  exact readHeader_shape _ _ _ _ hheader hpanic

theorem pollRead_payload {msgSize offset : ℕ} (hc : c.state = .readPayload msgSize offset)
    (hpanic : NoPanic (c.pollRead room)) : PayloadShape room msgSize offset (c.pollRead room) := by
  have hpoll : c.pollRead room = readPayload c.corked room c.io msgSize offset := by
    rw [pollRead, hc]
  rw [hpoll] at hpanic ⊢
  exact readPayload_shape _ _ _ _ _ hpanic

theorem pollRead_through (hc : c.state = .passthrough) :
    ThroughShape room (c.pollRead room) := by
  have hpoll : c.pollRead room = readThrough c.corked room c.io := by rw [pollRead, hc]
  rw [hpoll]
  exact readThrough_shape _ _ _

/-- At a record boundary a corked stream does nothing. -/
theorem pollRead_corked (hc : c.state = .readHeader []) (hcorked : c.corked = true) :
    c.pollRead room = { stream := c, poll := .ready } := by
  rw [pollRead, hc]
  simp only
  rw [readHeader, if_pos ⟨rfl, hcorked⟩, ← hc]

/-- **A call that does not panic keeps the framing.** -/
theorem framed_pollRead {taken fed : List UInt8} (hF : Framed c.state taken fed)
    (hpanic : NoPanic (c.pollRead room)) :
    Framed (c.pollRead room).stream.state (taken ++ (c.pollRead room).taken)
      (fed ++ (c.pollRead room).put) := by
  cases hc : c.state with
  | readHeader header =>
    rw [hc] at hF
    exact framed_of_headerShape hF (pollRead_header hc hF.1 hpanic)
  | readPayload msgSize offset =>
    rw [hc] at hF
    exact framed_of_payloadShape hF (pollRead_payload hc hpanic)
  | passthrough =>
    rw [hc] at hF
    have hp : ThroughShape room (c.pollRead room) := pollRead_through hc
    have heq : taken = fed := hF
    rw [hp.state, hp.taken, heq]
    rfl

/-- A call leaves the cork as it is. -/
theorem corked_pollRead : (c.pollRead room).stream.corked = c.corked := by
  have hheader : ∀ corked io header,
      (readHeader corked room (io : ι) header).stream.corked = corked := by
    intro corked io header
    fun_induction readHeader corked room io header with
    | case9 _ _ _ _ _ _ _ _ _ p ih => exact ih
    | _ => rfl
  unfold pollRead
  split
  · exact hheader _ _ _
  · unfold readPayload
    repeat' split
    all_goals rfl
  · unfold readThrough
    split <;> rfl

/-- A call that is not ready gives nothing. -/
theorem put_pollRead (h : (c.pollRead room).poll ≠ .ready) : (c.pollRead room).put = [] := by
  have hheader : ∀ corked io header, (readHeader corked room (io : ι) header).poll ≠ .ready →
      (readHeader corked room (io : ι) header).put = [] := by
    intro corked io header
    fun_induction readHeader corked room io header with
    | case6 | case8 => exact fun h => absurd rfl h
    | case9 _ _ _ _ _ _ _ _ _ p ih => exact ih
    | _ => exact fun _ => rfl
  revert h
  unfold pollRead
  split
  · exact hheader _ _ _
  · unfold readPayload
    split
    · exact fun _ => rfl
    · split
      · exact fun _ => rfl
      · exact fun _ => rfl
      · exact fun h => absurd rfl h
  · unfold readThrough
    split
    · exact fun _ => rfl
    · exact fun _ => rfl
    · exact fun h => absurd rfl h

/-! ## Every call keeps the bounds -/

theorem length_append_take_le {header : List UInt8} (h : header.length ≤ 5) (bytes : List UInt8) :
    (header ++ bytes.take (5 - header.length)).length ≤ 5 := by
  rw [List.length_append, List.length_take]
  omega

theorem inBounds_readHeader (corked : Bool) (room : ℕ) (io : ι) (header : List UInt8)
    (hheader : header.length ≤ 5) :
    InBounds (readHeader corked room io header).stream.state := by
  fun_induction readHeader corked room io header with
  | case1 | case2 | case3 | case4 | case5 => exact hheader
  | case6 => trivial
  | case7 => exact length_append_take_le hheader _
  | case8 io header _ _ bytes io' _ _ hfive _ => exact inBounds_afterHeader hfive
  | case9 io header _ _ bytes io' _ _ _ p ih => exact ih (length_append_take_le hheader _)

theorem inBounds_readPayload (corked : Bool) (room : ℕ) (io : ι) {msgSize offset : ℕ}
    (h : InBounds (.readPayload msgSize offset)) :
    InBounds (readPayload corked room io msgSize offset).stream.state := by
  unfold readPayload
  split
  · exact h
  · split
    · exact h
    · exact h
    · rename_i bytes io' _
      have hle := List.length_take_le (min (msgSize - offset) room) bytes
      dsimp only
      split
      · exact Nat.zero_le 5
      · rename_i hne
        exact Or.inl (by omega)

/-- **A call keeps the bounds**, whatever the room, and also if it panics. -/
theorem inBounds_pollRead (h : InBounds c.state) (room : ℕ) :
    InBounds (c.pollRead room).stream.state := by
  unfold pollRead
  split
  · rename_i header hc
    rw [hc] at h
    exact inBounds_readHeader _ _ _ _ h
  · rename_i msgSize offset hc
    rw [hc] at h
    exact inBounds_readPayload _ _ _ h
  · rename_i hc
    have hp : ThroughShape room (readThrough c.corked room c.io) := readThrough_shape _ _ _
    rw [hp.state]
    trivial

theorem noPanic_readHeader (corked : Bool) (hroom : 5 ≤ room) (io : ι) (header : List UInt8)
    (hheader : header.length ≤ 5) : NoPanic (readHeader corked room io header) := by
  fun_induction readHeader corked room io header with
  | case1 | case3 | case4 | case6 | case8 => exact fun message => by simp
  | case2 | case5 | case7 => omega
  | case9 io header _ _ bytes io' _ _ _ p ih => exact ih (length_append_take_le hheader _)

/-- **Within its bounds a call with room for five bytes does not panic.** -/
theorem noPanic_pollRead (h : InBounds c.state) (hroom : 5 ≤ room) :
    NoPanic (c.pollRead room) := by
  unfold pollRead
  split
  · rename_i header hc
    rw [hc] at h
    exact noPanic_readHeader _ hroom _ _ h
  · rename_i msgSize offset hc
    rw [hc, InBounds] at h
    unfold readPayload
    rw [if_neg (by omega)]
    split
    all_goals exact fun message => by simp
  · unfold readThrough
    split
    all_goals exact fun message => by simp

/-! ## The reads of a call

A read of the inner stream is written down with the room there was and the answer. -/

/-- The bytes that the reads have given. -/
def consumed (reads : List (ℕ × InnerPoll)) : List UInt8 :=
  reads.flatMap fun a => a.2.bytes a.1

/-- There was room, and no byte came. -/
def isEnd : ℕ × InnerPoll → Bool
  | (n, .ready bytes) => n ≠ 0 ∧ bytes.take n = []
  | _ => false

/-- The stream has ended in one of the reads. -/
def Ended (reads : List (ℕ × InnerPoll)) : Prop := ∃ a ∈ reads, isEnd a = true

instance (reads : List (ℕ × InnerPoll)) : Decidable (Ended reads) :=
  inferInstanceAs (Decidable (∃ a ∈ reads, isEnd a = true))

@[simp] theorem consumed_append (reads reads' : List (ℕ × InnerPoll)) :
    consumed (reads ++ reads') = consumed reads ++ consumed reads' := List.flatMap_append

theorem consumed_singleton (n : ℕ) (r : InnerPoll) : consumed [(n, r)] = r.bytes n :=
  List.flatMap_singleton _ _

theorem Ended.append_left {reads : List (ℕ × InnerPoll)} (h : Ended reads)
    (reads' : List (ℕ × InnerPoll)) : Ended (reads ++ reads') := by
  obtain ⟨a, ha, hend⟩ := h
  exact ⟨a, List.mem_append_left _ ha, hend⟩

theorem Ended.append_right {reads : List (ℕ × InnerPoll)} (h : Ended reads)
    (reads' : List (ℕ × InnerPoll)) : Ended (reads' ++ reads) := by
  obtain ⟨a, ha, hend⟩ := h
  exact ⟨a, List.mem_append_right _ ha, hend⟩

/-- The reads lead from one state of the inner stream to another. -/
inductive Reads : ι → List (ℕ × InnerPoll) → ι → Prop
  | nil (io : ι) : Reads io [] io
  | cons {io io' io'' : ι} {n : ℕ} {r : InnerPoll} {reads : List (ℕ × InnerPoll)}
      (hr : AsyncRead.pollRead io n = (r, io')) (h : Reads io' reads io'') :
      Reads io ((n, r) :: reads) io''

/-- What the call has taken is what its reads have given, and the end that it has seen is
in one of them. -/
def ReadBy (io : ι) (p : CorkPolled ι) : Prop :=
  ∃ reads, Reads io reads p.stream.io ∧ consumed reads = p.taken ∧ (p.eof = true → Ended reads)

theorem readBy_none (c : CorkStream ι) (poll : Poll) :
    ReadBy c.io { stream := c, poll := poll } :=
  ⟨[], .nil _, rfl, fun h => absurd h (by simp)⟩

theorem readBy_one {io : ι} {n : ℕ} {r : InnerPoll} {p : CorkPolled ι}
    (hr : AsyncRead.pollRead io n = (r, p.stream.io)) (htaken : r.bytes n = p.taken)
    (heof : p.eof = true → isEnd (n, r) = true) : ReadBy io p :=
  ⟨[(n, r)], .cons hr (.nil _), (consumed_singleton n r).trans htaken,
    fun h => ⟨(n, r), List.mem_singleton_self _, heof h⟩⟩

theorem readBy_readHeader (corked : Bool) (room : ℕ) (io : ι) (header : List UInt8) :
    ReadBy io (readHeader corked room io header) := by
  fun_induction readHeader corked room io header with
  | case1 | case2 => exact readBy_none ⟨_, _, _⟩ _
  | case3 | case4 =>
    rename_i hr
    exact readBy_one hr rfl fun h => absurd h (by simp)
  | case5 io header _ _ bytes io' hr hnil _ =>
    exact readBy_one hr hnil fun h => absurd h (by simp)
  | case6 io header _ _ bytes io' hr hnil _ =>
    refine readBy_one hr hnil fun heof => ?_
    have hlt : header.length < 5 := of_decide_eq_true heof
    exact decide_eq_true ⟨by omega, hnil⟩
  | case7 | case8 =>
    rename_i hr _ _ _
    exact readBy_one hr rfl fun h => absurd h (by simp)
  | case9 io header _ _ bytes io' hr _ _ p ih =>
    obtain ⟨reads, hreads, htaken, hend⟩ := ih
    refine ⟨_, .cons hr hreads, ?_, fun heof => (hend heof).append_right [_]⟩
    rw [← List.singleton_append, consumed_append, consumed_singleton, htaken]
    rfl

/-- **A call takes what it reads.** -/
theorem readBy_pollRead (c : CorkStream ι) (room : ℕ) : ReadBy c.io (c.pollRead room) := by
  unfold pollRead
  split
  · exact readBy_readHeader _ _ _ _
  · unfold readPayload
    split
    · exact readBy_none ⟨c.io, c.corked, .readPayload _ _⟩ (.panic _)
    · split
      · rename_i hr
        exact readBy_one hr rfl fun h => absurd h (by simp)
      · rename_i hr
        exact readBy_one hr rfl fun h => absurd h (by simp)
      · rename_i hr
        exact readBy_one hr rfl fun heof => decide_eq_true (of_decide_eq_true heof).symm
  · unfold readThrough
    split
    · rename_i hr
      exact readBy_one hr rfl fun h => absurd h (by simp)
    · rename_i hr
      exact readBy_one hr rfl fun h => absurd h (by simp)
    · rename_i hr
      exact readBy_one hr rfl fun heof => decide_eq_true (of_decide_eq_true heof).symm

/-! ## Streams that have a content -/

/-- `rest io` are the bytes that the inner stream still has to deliver: a read takes from
its front, and comes back empty only when nothing is left. -/
structure Source (rest : ι → List UInt8) : Prop where
  reads : ∀ {io n r io'}, AsyncRead.pollRead io n = (r, io') → rest io = r.bytes n ++ rest io'
  ends : ∀ {io n bytes io'}, AsyncRead.pollRead io n = (.ready bytes, io') → n ≠ 0 →
    bytes.take n = [] → rest io = []

theorem Source.rest_eq {rest : ι → List UInt8} (src : Source rest) {io io' : ι}
    {reads : List (ℕ × InnerPoll)} (h : Reads io reads io') :
    rest io = consumed reads ++ rest io' ∧ (Ended reads → rest io' = []) := by
  induction h with
  | nil io =>
    refine ⟨rfl, ?_⟩
    rintro ⟨a, ha, -⟩
    exact absurd ha (by simp)
  | @cons io io' io'' n r reads hr h ih =>
    have hrest : rest io = consumed ((n, r) :: reads) ++ rest io'' := by
      rw [src.reads hr, ih.1, ← List.singleton_append, consumed_append, consumed_singleton,
        List.append_assoc]
    refine ⟨hrest, ?_⟩
    rintro ⟨a, ha, hend⟩
    rcases List.mem_cons.mp ha with rfl | ha
    · cases r with
      | ready bytes =>
        obtain ⟨hn, hnil⟩ := of_decide_eq_true hend
        rw [src.ends hr hn hnil] at hrest
        exact (List.append_eq_nil_iff.mp hrest.symm).2
      | pending => exact absurd hend (by simp [isEnd])
      | err e => exact absurd hend (by simp [isEnd])
    · exact ih.2 ⟨a, ha, hend⟩

/-- **A call takes its bytes from the front of the inner stream**, and after the end of the
stream nothing is left. -/
theorem rest_pollRead {rest : ι → List UInt8} (src : Source rest) (c : CorkStream ι) (room : ℕ) :
    rest c.io = (c.pollRead room).taken ++ rest (c.pollRead room).stream.io ∧
      ((c.pollRead room).eof = true → rest (c.pollRead room).stream.io = []) := by
  obtain ⟨reads, hreads, htaken, hend⟩ := readBy_pollRead c room
  obtain ⟨hrest, hover⟩ := src.rest_eq hreads
  rw [← htaken]
  exact ⟨hrest, fun heof => hover (hend heof)⟩

end CorkStream
end Turbine
