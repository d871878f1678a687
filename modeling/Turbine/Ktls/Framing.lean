import Turbine.Ktls.Handover

/-!
# What the cork keeps count of

Between any two calls of `CorkStream::poll_read`, the state of the stream says where in the
records its reader stands: the bytes consumed so far are whole records, and then part of a
header or a header and part of its payload.  All of it has been delivered, apart from the
bytes of the header that are held back.  From the moment the cork is set, nothing behind the
record in progress is consumed.

Here this is followed through any sequence of calls, over any inner stream, and the cork may
be set between any two of them.  The bytes consumed are not what the calls say about
themselves: the inner stream keeps a log of its reads, and they are read off there.  They are
asked for as long as no read with room has come back empty.

The caller's buffer is tokio's, with its marks.  In state `ReadPayload` the source reads into
what `take` cuts off the buffer, and moves the mark of the buffer itself with `set_filled`.
That panics when it would go past the bytes known to be initialised, because `take` leaves
the mark for these where it was, and then the bytes are consumed and not delivered.  This is
the only way to lose count.

A record may be empty.  Behind its header the bytes consumed are whole records, but the
state is `ReadPayload`, where the cork is not looked at: a corked stream still reads the
socket there, with no room.  `keeps_iff` says that the contract fails in these two ways, and
in no other.
-/

namespace Turbine

open Records Runs

/-! ## Buffers -/

/-- `tokio::io::ReadBuf`: how many of its bytes are filled, how many are known to be
initialised, and how many there are. -/
structure ReadBuf where
  filled : ℕ
  initialized : ℕ
  capacity : ℕ
  filled_le : filled ≤ initialized
  initialized_le : initialized ≤ capacity
  deriving DecidableEq

namespace ReadBuf

/-- An empty buffer. -/
def empty (initialized capacity : ℕ) (h : initialized ≤ capacity) : ReadBuf :=
  ⟨0, initialized, capacity, Nat.zero_le initialized, h⟩

/-- `ReadBuf::new`: all bytes are initialised. -/
def new (capacity : ℕ) : ReadBuf := empty capacity capacity (Nat.le_refl capacity)

/-- `ReadBuf::uninit`: none is. -/
def uninit (capacity : ℕ) : ReadBuf := empty 0 capacity (Nat.zero_le capacity)

/-- `ReadBuf::remaining`. -/
def remaining (buf : ReadBuf) : ℕ := buf.capacity - buf.filled

end ReadBuf

/-! ## The log -/

variable {ι : Type} [AsyncRead ι]

/-- An inner stream that writes down its reads. -/
structure Logged (ι : Type) where
  io : ι
  log : List (ℕ × InnerPoll)

instance : AsyncRead (Logged ι) where
  pollRead l n :=
    ((AsyncRead.pollRead l.io n).1,
      ⟨(AsyncRead.pollRead l.io n).2, l.log ++ [(n, (AsyncRead.pollRead l.io n).1)]⟩)

namespace CorkStream

theorem Reads.log_eq {l l' : Logged ι} {reads : List (ℕ × InnerPoll)} (h : Reads l reads l') :
    l'.log = l.log ++ reads := by
  induction h with
  | nil l => rw [List.append_nil]
  | @cons l l' l'' n r reads hr _ ih =>
    obtain ⟨hanswer, rfl⟩ := Prod.mk.inj hr
    rw [ih, List.append_assoc, List.singleton_append, hanswer]

theorem log_pollRead (c : CorkStream (Logged ι)) (room : ℕ) :
    ∃ reads, (c.pollRead room).stream.io.log = c.io.log ++ reads ∧
      consumed reads = (c.pollRead room).taken ∧ ((c.pollRead room).eof = true → Ended reads) := by
  obtain ⟨reads, hreads, htaken, hend⟩ := readBy_pollRead c room
  exact ⟨reads, hreads.log_eq, htaken, hend⟩

/-- The log of a call in state `ReadPayload`: one read. -/
theorem log_readPayload {c : CorkStream (Logged ι)} {msgSize offset : ℕ}
    (hc : c.state = .readPayload msgSize offset) (hle : offset ≤ msgSize) (room : ℕ) :
    (c.pollRead room).stream.io.log = c.io.log ++ [(min (msgSize - offset) room,
        (AsyncRead.pollRead c.io.io (min (msgSize - offset) room)).1)] ∧
      (c.pollRead room).taken = (AsyncRead.pollRead c.io.io (min (msgSize - offset) room)).1.bytes
        (min (msgSize - offset) room) := by
  have hpoll : c.pollRead room = readPayload c.corked room c.io msgSize offset := by
    rw [pollRead, hc]
  rw [hpoll, readPayload, if_neg (by omega)]
  split
  all_goals
    rename_i hr
    obtain ⟨hanswer, rfl⟩ := Prod.mk.inj hr
    rw [hanswer]
    exact ⟨rfl, rfl⟩

theorem length_bytes_le (r : InnerPoll) (n : ℕ) : (r.bytes n).length ≤ n := by
  cases r with
  | ready bytes => exact List.length_take_le n bytes
  | _ => exact Nat.zero_le n

theorem bytes_of_isEnd {n : ℕ} {r : InnerPoll} (h : isEnd (n, r) = true) : r.bytes n = [] := by
  cases r with
  | ready bytes => exact (of_decide_eq_true h).2
  | _ => rfl

/-- Where no header is held back, all has been delivered. -/
theorem eq_of_framed {state : CorkState} {taken fed : List UInt8}
    (hstate : state = .readHeader [] ∨ ∃ msgSize offset, state = .readPayload msgSize offset)
    (hF : Framed state taken fed) : taken = fed := by
  rcases hstate with rfl | ⟨msgSize, offset, rfl⟩
  · obtain ⟨-, -, heq⟩ := hF
    rwa [List.append_nil] at heq
  · obtain ⟨-, -, -, -, -, -, -, -, -, heq⟩ := hF
    exact heq

theorem offset_le_of_framed {msgSize offset : ℕ} {taken fed : List UInt8}
    (hF : Framed (.readPayload msgSize offset) taken fed) : offset ≤ msgSize := by
  have hlt : InBounds (.readPayload msgSize offset) := inBounds_of_framed hF
  rw [InBounds] at hlt
  omega

/-! ## No other way through -/

/-- Only the end of the inner stream leads to `Passthrough`. -/
theorem state_pollRead_ne_passthrough {c : CorkStream ι} {room : ℕ} {taken fed : List UInt8}
    (hF : Framed c.state taken fed) (hthrough : c.state ≠ .passthrough)
    (hpanic : NoPanic (c.pollRead room)) (heof : (c.pollRead room).eof ≠ true) :
    (c.pollRead room).stream.state ≠ .passthrough := by
  cases hc : c.state with
  | readHeader header =>
    rw [hc] at hF
    cases pollRead_header hc hF.1 hpanic with
    | corked _ _ _ _ _ hstate => simp [hstate]
    | wait _ _ hstate _ => simp [hstate]
    | eof _ _ _ _ h => exact absurd h heof
    | full _ _ _ hstate => simp [hstate]
  | readPayload msgSize offset =>
    cases pollRead_payload hc hpanic with
    | wait _ _ _ hstate => simp [hstate]
    | read _ _ _ hstate _ =>
      rw [hstate]
      split <;> simp
  | passthrough => exact absurd hc hthrough

/-! ## The record in progress -/

/-- **One call of a corked stream does not go past the end of a record**: if the bytes
consumed before it and some of those it takes are whole records, then it takes no others. -/
theorem eq_of_whole {c : CorkStream ι} {room : ℕ} {taken fed w : List UInt8}
    (hF : Framed c.state taken fed) (hthrough : c.state ≠ .passthrough) (hroom : 5 ≤ room)
    (hcorked : c.corked = true) (htaken : taken <+: w) (hw : w <+: taken ++ (c.pollRead room).taken)
    (hwhole : Whole w) : w = taken ++ (c.pollRead room).taken := by
  have hpanic := noPanic_pollRead (inBounds_of_framed hF) hroom
  obtain ⟨x, rfl⟩ := htaken
  rw [List.prefix_append_right_inj] at hw
  suffices hlen : (c.pollRead room).taken.length ≤ x.length by rw [hw.eq_of_length_le hlen]
  cases hc : c.state with
  | readHeader header =>
    rw [hc] at hF
    obtain ⟨hheader, hfed, rfl⟩ := hF
    by_cases hnil : header = []
    · subst hnil
      rw [pollRead_corked hc hcorked]
      exact Nat.zero_le _
    · rw [List.append_assoc] at hwhole
      have hfive := hwhole.five_le_length hfed (by simp [hnil])
      have hle : (header ++ (c.pollRead room).taken).length ≤ 5 := by
        cases pollRead_header hc hheader hpanic with
        | corked hheader => exact absurd hheader hnil
        | wait _ _ _ hlen => exact Nat.le_of_lt hlen
        | eof _ _ hlen => exact Nat.le_of_lt hlen
        | full _ _ hlen => exact Nat.le_of_eq hlen
      rw [List.length_append] at hfive hle
      omega
  | readPayload msgSize offset =>
    rw [hc] at hF
    obtain ⟨bs, header, payload, hbs, hheader, hsize, hoff, -, rfl, rfl⟩ := hF
    rw [List.append_assoc, List.append_assoc] at hwhole
    have hmsg := hwhole.lengthOf_le hbs hheader
    rw [List.length_append] at hmsg
    cases pollRead_payload hc hpanic with
    | wait _ _ hnil => simp [hnil]
    | read _ hput hlen =>
      rw [hput]
      omega
  | passthrough => exact absurd hc hthrough

/-! ## The call with its buffer -/

/-- `CorkStream::poll_read`, with the marks of the caller's buffer. -/
def pollReadBuf (c : CorkStream ι) (buf : ReadBuf) : CorkPolled ι :=
  match c.state with
  | .readPayload _ _ =>
      -- `set_filled`, behind a successful read into `buf.take(rest)`
      if (c.pollRead buf.remaining).poll = .ready ∧
          buf.initialized < buf.filled + (c.pollRead buf.remaining).put.length then
        { c.pollRead buf.remaining with
          poll := .panic "filled must not become larger than initialized"
          put := [] }
      else c.pollRead buf.remaining
  | _ => c.pollRead buf.remaining

theorem stream_pollReadBuf (c : CorkStream ι) (buf : ReadBuf) :
    (c.pollReadBuf buf).stream = (c.pollRead buf.remaining).stream := by
  unfold pollReadBuf
  split
  · split <;> rfl
  · rfl

theorem pollReadBuf_eq {c : CorkStream ι} {buf : ReadBuf}
    (h : ∀ msgSize offset, c.state = .readPayload msgSize offset →
      buf.filled + (c.pollRead buf.remaining).put.length ≤ buf.initialized) :
    c.pollReadBuf buf = c.pollRead buf.remaining := by
  unfold pollReadBuf
  split
  · rename_i msgSize offset hc
    exact if_neg fun hpanic => absurd (h msgSize offset hc) (by omega)
  · rfl

theorem put_pollReadBuf {c : CorkStream ι} {buf : ReadBuf} {msgSize offset : ℕ}
    (hc : c.state = .readPayload msgSize offset)
    (h : buf.initialized < buf.filled + (c.pollRead buf.remaining).put.length) :
    (c.pollReadBuf buf).put = [] := by
  have hready : (c.pollRead buf.remaining).poll = .ready := by
    by_contra hpoll
    have hle := buf.filled_le
    rw [put_pollRead hpoll] at h
    exact absurd h (by simpa using hle)
  rw [pollReadBuf, hc]
  simp only
  rw [if_pos ⟨hready, h⟩]

end CorkStream

/-! ## Calls, and the cork -/

/-- A `CorkStream` in use, and what its callers have got. -/
structure Corking (ι : Type) where
  stream : CorkStream (Logged ι)
  delivered : List UInt8

/-- What happens to it: a call with room for five bytes or more, or the cork. -/
inductive CorkEvent where
  | pollRead (buf : ReadBuf) (hroom : 5 ≤ buf.remaining)
  | cork

namespace Corking

open CorkStream

/-- A stream just built. -/
def start (io : ι) : Corking ι := ⟨CorkStream.new ⟨io, []⟩, []⟩

/-- The reads of the inner stream. -/
def log (s : Corking ι) : List (ℕ × InnerPoll) := s.stream.io.log

/-- What the inner stream has for a read of `n` bytes. -/
def next (s : Corking ι) (n : ℕ) : List UInt8 := (AsyncRead.pollRead s.stream.io.io n).1.bytes n

/-- One event.  A caller may go on after a panic. -/
def step (s : Corking ι) : CorkEvent → Option (Corking ι)
  | .pollRead buf _ =>
      some ⟨(s.stream.pollReadBuf buf).stream, s.delivered ++ (s.stream.pollReadBuf buf).put⟩
  | .cork => some ⟨{ s.stream with corked := true }, s.delivered⟩

/-- The state of the stream says which of the bytes consumed belong to whole records, and
which have been delivered. -/
def Counted (s : Corking ι) : Prop :=
  Framed s.stream.state (consumed s.log) s.delivered ∧ s.stream.state ≠ .passthrough

/-- At a record boundary, where the bytes consumed are whole records, a corked stream makes
no inner read. -/
def Stopped (s : Corking ι) (e : CorkEvent) : Prop :=
  s.stream.corked = true → Whole (consumed s.log) → ∀ t, s.step e = some t → t.log = s.log

/-- From `s` to `t` nothing has been consumed behind a record boundary. -/
def WithinRecord (s t : Corking ι) : Prop :=
  ∀ w, consumed s.log <+: w → w <+: consumed t.log → Whole w → w = consumed t.log

/-- **The contract**: as long as the inner stream has not ended, the stream keeps count, the
next call stops at a record boundary if it is corked, and since the cork was set it has not
gone past one. -/
def Keeps (io : ι) (events : List CorkEvent) : Prop :=
  ∀ pre post t, events = pre ++ post → run step (start io) pre = some t → ¬ Ended t.log →
    t.Counted ∧ (∀ e rest, post = e :: rest → t.Stopped e) ∧
      ∀ before since s, pre = before ++ since → run step (start io) before = some s →
        s.stream.corked = true → s.WithinRecord t

/-- In state `ReadPayload`, what the inner stream has for the call fits the initialised part
of the buffer. -/
def Fits (s : Corking ι) : CorkEvent → Prop
  | .pollRead buf _ =>
      match s.stream.state with
      | .readPayload msgSize offset =>
          Ended s.log ∨
            buf.filled + (s.next (min (msgSize - offset) buf.remaining)).length ≤ buf.initialized
      | _ => True
  | .cork => True

/-- A corked stream is not called behind the header of an empty record. -/
def NotEmpty (s : Corking ι) : CorkEvent → Prop
  | .pollRead _ _ => Ended s.log ∨ s.stream.corked = false ∨ s.stream.state ≠ .readPayload 0 0
  | .cork => True

instance (s : Corking ι) (e : CorkEvent) : Decidable (s.NotEmpty e) := by
  cases e with
  | pollRead buf hroom => exact inferInstanceAs (Decidable (_ ∨ _))
  | cork => exact isTrue trivial

/-! ## One event -/

variable {s t u : Corking ι} {e : CorkEvent}

theorem exists_step (s : Corking ι) (e : CorkEvent) : ∃ t, s.step e = some t := by
  cases e with
  | pollRead buf hroom => exact ⟨_, rfl⟩
  | cork => exact ⟨_, rfl⟩

theorem fits_of_ended (h : Ended s.log) : s.Fits e := by
  cases e with
  | pollRead buf hroom =>
    unfold Fits
    dsimp only
    split
    · exact Or.inl h
    · trivial
  | cork => trivial

/-- The log grows. -/
theorem log_step (h : s.step e = some t) : ∃ reads, t.log = s.log ++ reads := by
  cases e with
  | pollRead buf hroom =>
    obtain rfl := Option.some.inj h
    obtain ⟨reads, hlog, -⟩ := log_pollRead s.stream buf.remaining
    exact ⟨reads, by rw [log, stream_pollReadBuf, hlog, log]⟩
  | cork =>
    obtain rfl := Option.some.inj h
    exact ⟨[], (List.append_nil _).symm⟩

theorem not_ended_of_step (h : s.step e = some t) (ht : ¬ Ended t.log) : ¬ Ended s.log := by
  intro hs
  obtain ⟨reads, hlog⟩ := log_step h
  exact ht (hlog ▸ hs.append_left reads)

theorem corked_of_step (h : s.step e = some t) (hs : s.stream.corked = true) :
    t.stream.corked = true := by
  cases e with
  | pollRead buf hroom =>
    obtain rfl := Option.some.inj h
    simp only [stream_pollReadBuf, corked_pollRead, hs]
  | cork =>
    obtain rfl := Option.some.inj h
    rfl

/-- What is put into the buffer in state `ReadPayload` is what the inner stream has. -/
theorem put_eq_next {msgSize offset room : ℕ} (hs : s.Counted)
    (hc : s.stream.state = .readPayload msgSize offset) (hroom : 5 ≤ room) :
    (s.stream.pollRead room).put = s.next (min (msgSize - offset) room) ∧
      (s.stream.pollRead room).stream.io.log = s.log ++ [(min (msgSize - offset) room,
        (AsyncRead.pollRead s.stream.io.io (min (msgSize - offset) room)).1)] := by
  have hpanic := noPanic_pollRead (inBounds_of_framed hs.1) hroom
  have hle : offset ≤ msgSize := offset_le_of_framed (hc ▸ hs.1)
  obtain ⟨hlog, htaken⟩ := log_readPayload hc hle room
  refine ⟨?_, hlog⟩
  cases pollRead_payload hc hpanic with
  | wait _ hput hnil _ => rw [next, ← htaken, hput, hnil]
  | read _ hput _ _ _ => rw [next, ← htaken, hput]

/-- **A call that fits keeps count.** -/
theorem counted_step (hs : s.Counted) (hfits : s.Fits e) (h : s.step e = some t)
    (hend : ¬ Ended t.log) : t.Counted := by
  have hopen := not_ended_of_step h hend
  cases e with
  | cork =>
    obtain rfl := Option.some.inj h
    exact hs
  | pollRead buf hroom =>
    have hcall : s.stream.pollReadBuf buf = s.stream.pollRead buf.remaining := by
      refine pollReadBuf_eq fun msgSize offset hc => ?_
      rw [(put_eq_next hs hc hroom).1]
      rw [Fits, hc] at hfits
      exact hfits.resolve_left hopen
    obtain rfl := Option.some.inj h
    obtain ⟨reads, hlog, htaken, heof⟩ := log_pollRead s.stream buf.remaining
    have hpanic := noPanic_pollRead (inBounds_of_framed hs.1) hroom
    rw [log, hcall, hlog] at hend
    have hnot : (s.stream.pollRead buf.remaining).eof ≠ true :=
      fun h => hend ((heof h).append_right _)
    rw [Counted, log, hcall, hlog, consumed_append, htaken]
    exact ⟨framed_pollRead hs.1 hpanic, state_pollRead_ne_passthrough hs.1 hs.2 hpanic hnot⟩

/-- A call in state `ReadPayload` that consumes bytes and delivers none has not met the end
of the inner stream, and has lost count. -/
theorem not_counted_of_lost {msgSize offset room : ℕ} (hs : s.Counted) (hopen : ¬ Ended s.log)
    (hc : s.stream.state = .readPayload msgSize offset) (hroom : 5 ≤ room)
    (hsome : s.next (min (msgSize - offset) room) ≠ [])
    (ht : t = ⟨(s.stream.pollRead room).stream, s.delivered⟩) : ¬ Ended t.log ∧ ¬ t.Counted := by
  subst ht
  obtain ⟨hput, hlog⟩ := put_eq_next hs hc hroom
  constructor
  · rw [log, hlog]
    rintro ⟨a, ha, hend⟩
    rcases List.mem_append.mp ha with ha | ha
    · exact hopen ⟨a, ha, hend⟩
    · rw [List.mem_singleton.mp ha] at hend
      exact hsome (bytes_of_isEnd hend)
  · rintro ⟨hF, -⟩
    have hbefore : consumed s.log = s.delivered := eq_of_framed (Or.inr ⟨_, _, hc⟩) hs.1
    have hafter : consumed (s.stream.pollRead room).stream.io.log = s.delivered := by
      refine eq_of_framed ?_ hF
      cases pollRead_payload hc (noPanic_pollRead (inBounds_of_framed hs.1) hroom) with
      | wait _ hnil _ _ => exact absurd (hput.symm.trans hnil) hsome
      | read _ _ _ hstate _ =>
        rw [hstate]
        split
        · exact Or.inl rfl
        · exact Or.inr ⟨_, _, rfl⟩
    rw [hlog, consumed_append, consumed_singleton, hbefore] at hafter
    exact hsome (List.append_right_eq_self.mp hafter)

/-- **A call that does not fit loses count**: what it consumes is not delivered. -/
theorem fits_of_counted (hs : s.Counted) (h : s.step e = some t)
    (ht : ¬ Ended t.log → t.Counted) : s.Fits e := by
  cases e with
  | cork => trivial
  | pollRead buf hroom =>
    cases hc : s.stream.state with
    | readHeader header => simp only [Fits, hc]
    | passthrough => simp only [Fits, hc]
    | readPayload msgSize offset =>
      simp only [Fits, hc]
      by_contra hnot
      obtain ⟨hopen, hlarge⟩ := not_or.mp hnot
      have hle := buf.filled_le
      have hsome : s.next (min (msgSize - offset) buf.remaining) ≠ [] := by
        intro hnil
        rw [hnil, List.length_nil] at hlarge
        omega
      have hlost : (s.stream.pollReadBuf buf).put = [] := by
        refine put_pollReadBuf hc ?_
        rw [(put_eq_next hs hc hroom).1]
        omega
      have hnext : t = ⟨(s.stream.pollRead buf.remaining).stream, s.delivered⟩ := by
        rw [← Option.some.inj h, stream_pollReadBuf, hlost, List.append_nil]
      obtain ⟨hend, hmissing⟩ := not_counted_of_lost hs hopen hc hroom hsome hnext
      exact hmissing (ht hend)

/-! ## The whole run -/

omit [AsyncRead ι] in
theorem counted_start (io : ι) : (start io).Counted :=
  ⟨⟨by simp, .nil, rfl⟩, by simp [start, CorkStream.new]⟩

theorem counted_step_iff (h : s.step e = some t) (hs : ¬ Ended s.log → s.Counted) :
    (¬ Ended t.log → t.Counted) ↔ s.Fits e := by
  by_cases hend : Ended s.log
  · exact iff_of_true (fun hopen => absurd hend (not_ended_of_step h hopen)) (fits_of_ended hend)
  · exact ⟨fits_of_counted (hs hend) h, fun hfits => counted_step (hs hend) hfits h⟩

/-- **Calls that fit, and no others, keep count** as long as the inner stream has not ended. -/
theorem counted_iff_allowed {io : ι} {events : List CorkEvent} :
    (∀ pre post t, events = pre ++ post → run step (start io) pre = some t → ¬ Ended t.log →
      t.Counted) ↔ Allowed step Fits (start io) events := by
  have hstart : ¬ Ended (start io).log → (start io).Counted := fun _ => counted_start io
  refine (reached_iff_allowed (P := fun s : Corking ι => ¬ Ended s.log → s.Counted)
    fun s e => ?_).trans (and_iff_right hstart)
  obtain ⟨t, ht⟩ := exists_step s e
  exact ⟨t, ht, counted_step_iff ht⟩

/-! ## At a record boundary -/

omit [AsyncRead ι] in
/-- **The bytes consumed are whole records in two states**: between two records, and behind
the header of an empty one. -/
theorem whole_iff (hs : s.Counted) :
    Whole (consumed s.log) ↔
      s.stream.state = .readHeader [] ∨ s.stream.state = .readPayload 0 0 := by
  obtain ⟨hF, hthrough⟩ := hs
  cases hc : s.stream.state with
  | passthrough => exact absurd hc hthrough
  | readHeader header =>
    rw [hc] at hF
    obtain ⟨hlt, hfed, htaken⟩ := hF
    rw [htaken]
    constructor
    · intro hwhole
      refine Or.inl (congrArg _ ?_)
      by_contra hne
      have hfive := hwhole.five_le_length hfed hne
      omega
    · rintro (h | h)
      · rw [CorkState.readHeader.inj h, List.append_nil]
        exact hfed
      · exact absurd h (by simp)
  | readPayload msgSize offset =>
    rw [hc] at hF
    obtain ⟨bs, header, payload, hbs, hheader, rfl, rfl, hlt, hfed, htaken⟩ := hF
    rw [htaken, hfed]
    constructor
    · intro hwhole
      rw [List.append_assoc] at hwhole
      have hle := hwhole.lengthOf_le hbs hheader
      obtain ⟨hsize, hoffset⟩ := hlt.resolve_left (by omega)
      exact Or.inr (by rw [hsize, hoffset])
    · rintro (h | h)
      · exact absurd h (by simp)
      · obtain ⟨hsize, hoffset⟩ := CorkState.readPayload.inj h
        exact .snoc hbs hheader (hoffset.trans hsize.symm)

/-- **A corked stream stops at every record boundary but one.** -/
theorem stopped_iff (hs : s.Counted) (hopen : ¬ Ended s.log) : s.Stopped e ↔ s.NotEmpty e := by
  cases e with
  | cork =>
    refine iff_of_true (fun _ _ t ht => ?_) trivial
    obtain rfl := Option.some.inj ht
    rfl
  | pollRead buf hroom =>
    constructor
    · intro hstop
      refine Or.inr (or_iff_not_imp_left.mpr fun hcorked hstate => ?_)
      have hlog : (s.stream.pollReadBuf buf).stream.io.log = s.log :=
        hstop (by simpa using hcorked) ((whole_iff hs).mpr (Or.inr hstate)) _ rfl
      rw [stream_pollReadBuf, (put_eq_next hs hstate hroom).2] at hlog
      exact absurd hlog (by simp)
    · intro hempty hcorked hwhole t ht
      obtain rfl := Option.some.inj ht
      have hnot := (hempty.resolve_left hopen).resolve_left (by simp [hcorked])
      have hstate := ((whole_iff hs).mp hwhole).resolve_right hnot
      rw [log, stream_pollReadBuf, pollRead_corked hstate hcorked]
      rfl

theorem withinRecord_step (hs : s.WithinRecord t) (ht : t.Counted)
    (hcorked : t.stream.corked = true) (h : t.step e = some u) : s.WithinRecord u := by
  cases e with
  | cork =>
    obtain rfl := Option.some.inj h
    exact hs
  | pollRead buf hroom =>
    obtain rfl := Option.some.inj h
    obtain ⟨reads, hlog, htaken, -⟩ := log_pollRead t.stream buf.remaining
    intro w hpre hw hwhole
    rw [log, stream_pollReadBuf, hlog, consumed_append, htaken] at hw ⊢
    have hafter : consumed t.log <+: w := by
      rcases List.prefix_or_prefix_of_prefix hw (List.prefix_append _ _) with hle | hge
      · exact (hs w hpre hle hwhole) ▸ List.prefix_refl _
      · exact hge
    exact eq_of_whole ht.1 ht.2 hroom hcorked hafter hw hwhole

/-- **Since the cork was set**, calls that fit have stayed in the record in progress. -/
theorem withinRecord_of_allowed {io : ι} {before since : List CorkEvent}
    (h : Allowed step Fits (start io) (before ++ since))
    (hs : run step (start io) before = some s) (hcorked : s.stream.corked = true)
    (ht : run step s since = some t) (hend : ¬ Ended t.log) : s.WithinRecord t := by
  suffices hrun : Allowed step Fits (start io) (before ++ since) → ¬ Ended t.log →
      t.stream.corked = true ∧ s.WithinRecord t from (hrun h hend).2
  refine run_induction (motive := fun since t => Allowed step Fits (start io) (before ++ since) →
    ¬ Ended t.log → t.stream.corked = true ∧ s.WithinRecord t) ?_ ?_ ht
  · intro _ _
    exact ⟨hcorked, fun w hpre hw _ => hw.eq_of_length_le hpre.length_le⟩
  · intro as e u v hu ih hv hall hopen
    rw [← List.append_assoc] at hall
    have hbefore := not_ended_of_step hv hopen
    obtain ⟨hcork, hwithin⟩ := ih hall.of_append hbefore
    have hcounted : u.Counted := counted_iff_allowed.mpr hall.of_append (before ++ as) [] u
      (List.append_nil _).symm (run_append_eq_some.mpr ⟨s, hs, hu⟩) hbefore
    exact ⟨corked_of_step hv hcork, withinRecord_step hwithin hcounted hcork hv⟩

/-- **When `CorkStream` keeps count.**  For every inner stream and every sequence of calls
with room for five bytes, with the cork set at any time: the contract is kept if and only if,
before the inner stream ends, every call in state `ReadPayload` has a buffer whose initialised
part holds what the inner stream has for it, and no call is made of a corked stream behind
the header of an empty record. -/
theorem keeps_iff (io : ι) (events : List CorkEvent) :
    Keeps io events ↔
      Allowed step Fits (start io) events ∧ Allowed step NotEmpty (start io) events := by
  constructor
  · intro h
    refine ⟨counted_iff_allowed.mp fun pre post t heq ht hend => (h pre post t heq ht hend).1, ?_⟩
    intro pre e post t heq ht
    by_cases hend : Ended t.log
    · cases e with
      | pollRead buf hroom => exact Or.inl hend
      | cork => trivial
    · obtain ⟨hcounted, hstop, -⟩ := h pre (e :: post) t heq ht hend
      exact (stopped_iff hcounted hend).mp (hstop e post rfl)
  · rintro ⟨hfits, hempty⟩ pre post t rfl ht hend
    have hcounted := counted_iff_allowed.mpr hfits pre post t rfl ht hend
    refine ⟨hcounted, ?_, ?_⟩
    · rintro e rest rfl
      exact (stopped_iff hcounted hend).mpr (hempty pre e rest t rfl ht)
    · rintro before since s rfl hs hcorked
      obtain ⟨s', hs', hsince⟩ := run_append_eq_some.mp ht
      obtain rfl := Option.some.inj (hs.symm.trans hs')
      exact withinRecord_of_allowed hfits.of_append hs hcorked hsince hend

/-- The buffers that `ReadBuf::new` makes, of initialised bytes, always fit. -/
theorem allowed_of_initialized (io : ι) {events : List CorkEvent}
    (h : ∀ buf hroom, CorkEvent.pollRead buf hroom ∈ events → buf.initialized = buf.capacity) :
    Allowed step Fits (start io) events := by
  rintro pre e post s rfl -
  cases e with
  | cork => trivial
  | pollRead buf hroom =>
    have hall := h buf hroom (List.mem_append_right _ List.mem_cons_self)
    unfold Fits
    dsimp only
    split
    · rename_i msgSize offset _
      refine Or.inr ?_
      have hnext := length_bytes_le (AsyncRead.pollRead s.stream.io.io
        (min (msgSize - offset) buf.remaining)).1 (min (msgSize - offset) buf.remaining)
      have hroom' : buf.remaining = buf.capacity - buf.filled := rfl
      have hle := buf.filled_le
      rw [next]
      omega
    · trivial

/-- A call with eight bytes. -/
def newCall : CorkEvent := .pollRead (.new 8) (by decide)

/-- The same, of a caller that has not initialised them. -/
def uninitCall : CorkEvent := .pollRead (.uninit 8) (by decide)

/-- Two records and part of a third one, in pieces. -/
def pieces : Socket :=
  ⟨[22, 3, 3, 0, 1, 7, 23, 3, 3, 0, 2, 10, 20, 23, 3, 3],
    [.bytes 1, .pending, .bytes 4, .err none, .bytes 0, .bytes 2, .bytes 4, .bytes 4, .bytes 4]⟩

/-- The cork is set inside of the second record. -/
def corkedInside : List CorkEvent :=
  [newCall, newCall, newCall, newCall, newCall, .cork, newCall, newCall]

theorem keeps_iff_corkedInside :
    (run step (start pieces) corkedInside).map (fun t => (t.stream.state, t.delivered)) =
        some (.readHeader [], [22, 3, 3, 0, 1, 7, 23, 3, 3, 0, 2, 10, 20]) ∧
      Keeps pieces corkedInside := by
  refine ⟨by decide +kernel, (keeps_iff pieces corkedInside).mpr
    ⟨allowed_of_initialized _ ?_, by decide +kernel⟩⟩
  intro buf hroom hmem
  have heq : buf = .new 8 := by simpa [corkedInside, newCall] using hmem
  rw [heq]
  rfl

/-- A record of two bytes. -/
def oneRecord : Socket := ⟨[23, 3, 3, 0, 2, 10, 20], [.bytes 4, .bytes 4]⟩

/-- An empty record, and nothing yet behind it. -/
def emptyRecord : Socket := ⟨[23, 3, 3, 0, 0], [.bytes 4, .pending]⟩

/-- **Bytes that are lost, and a read at a record boundary.**  With buffers that are not
initialised, the second call panics when it has read the payload: the stream has consumed
the record, it stands at the record boundary, and only the header has been delivered.  And
corked behind the header of an empty record, with all it has consumed delivered, the stream
reads the socket once more. -/
theorem not_keeps_uninit_empty :
    ((∃ t, run step (start oneRecord) [uninitCall, uninitCall] = some t ∧ ¬ Ended t.log ∧
      t.stream.state = .readHeader [] ∧ consumed t.log = [23, 3, 3, 0, 2, 10, 20] ∧
      t.delivered = [23, 3, 3, 0, 2]) ∧
      ¬ Keeps oneRecord [uninitCall, uninitCall]) ∧
    (∃ t u, run step (start emptyRecord) [newCall, .cork] = some t ∧
      t.step newCall = some u ∧ consumed t.log = [23, 3, 3, 0, 0] ∧
      t.delivered = [23, 3, 3, 0, 0] ∧ t.log.length = 1 ∧ u.log.length = 2) ∧
      ¬ Keeps emptyRecord [newCall, .cork, newCall] := by
  refine ⟨?_, ?_⟩
  · have hrun : (run step (start oneRecord) [uninitCall, uninitCall]).map (fun t =>
        (decide (Ended t.log), t.stream.state, consumed t.log, t.delivered)) =
        some (false, .readHeader [], [23, 3, 3, 0, 2, 10, 20], [23, 3, 3, 0, 2]) := by
      decide +kernel
    obtain ⟨t, ht, heq⟩ := Option.map_eq_some_iff.mp hrun
    simp only [Prod.mk.injEq] at heq
    obtain ⟨hend, hstate, hconsumed, hdelivered⟩ := heq
    have hopen : ¬ Ended t.log := of_decide_eq_false hend
    refine ⟨⟨t, ht, hopen, hstate, hconsumed, hdelivered⟩, fun h => ?_⟩
    obtain ⟨⟨hF, -⟩, -⟩ := h [uninitCall, uninitCall] [] t rfl ht hopen
    rw [hstate, hconsumed, hdelivered] at hF
    exact absurd (eq_of_framed (Or.inl rfl) hF) (by decide)
  · have hrun : (run step (start emptyRecord) [newCall, .cork]).map (fun t =>
        (decide (Ended t.log), t.stream.corked, consumed t.log, t.delivered, t.log.length)) =
        some (false, true, [23, 3, 3, 0, 0], [23, 3, 3, 0, 0], 1) := by
      decide +kernel
    have hcall : (run step (start emptyRecord) ([newCall, .cork] ++ [newCall])).map
        (fun u => u.log.length) = some 2 := by
      decide +kernel
    obtain ⟨t, ht, heq⟩ := Option.map_eq_some_iff.mp hrun
    obtain ⟨u, hu, htwo⟩ := Option.map_eq_some_iff.mp hcall
    simp only [Prod.mk.injEq] at heq
    obtain ⟨hend, hcorked, hconsumed, hdelivered, hone⟩ := heq
    obtain ⟨t', ht', hstep⟩ := run_snoc_eq_some.mp hu
    obtain rfl := Option.some.inj (ht.symm.trans ht')
    refine ⟨⟨t, u, ht, hstep, hconsumed, hdelivered, hone, htwo⟩, fun h => ?_⟩
    obtain ⟨-, hstop, -⟩ := h [newCall, .cork] [newCall] t rfl ht (of_decide_eq_false hend)
    have hempty : Whole ([] ++ [23, 3, 3, 0, 0] ++ []) := .snoc .nil rfl rfl
    rw [hstop newCall [] rfl hcorked (hconsumed ▸ hempty) u hstep, hone] at htwo
    exact absurd htwo (by decide)

end Corking
end Turbine
