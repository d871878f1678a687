import Turbine.Ktls.Framing

/-!
# Any call in any state

`Ktls.Framing` follows the bytes through a `CorkStream` whose callers always have room for a
header.  This file is about a single call, made in any state that the stream can get into:
its owner may have called with buffers of any size before, may have seen it panic, and sets
and clears the cork as it likes.  What is known of such a state is only that it is within its
bounds.

That is enough for the call to be safe.  If the buffer is initialised and has room for five
bytes, then the call returns after at most five reads of the inner stream, without a panic
(`pollReadBuf_safe`): each further turn of the loop has at least one byte more of the header.

It is not enough for an empty answer to mean the end of the stream.  A record without a
payload brings the stream into the state `ReadPayload` with nothing left to read; the next
call reads into an empty buffer, and what it returns is what rustls takes for the end.
`emptyIsEnd_iff` says that this is the only way to get there.
-/

namespace Turbine

open Records Runs

/-- What the owner of a `CorkStream` does: a call, with any buffer, or the cork. -/
inductive CorkOp where
  | pollRead (buf : ReadBuf)
  | setCorked (corked : Bool)

namespace CorkStream

variable {ι : Type} [AsyncRead ι]

/-- One of these.  A caller may go on after a panic. -/
def step (c : CorkStream ι) : CorkOp → Option (CorkStream ι)
  | .pollRead buf => some (c.pollReadBuf buf).stream
  | .setCorked corked => some { c with corked }

/-- The state changes only in a call. -/
theorem state_of_step {c d : CorkStream ι} {op : CorkOp} (h : c.step op = some d) :
    d.state = c.state ∨ ∃ room, d.state = (c.pollRead room).stream.state := by
  cases op with
  | pollRead buf =>
    obtain rfl := Option.some.inj h
    exact Or.inr ⟨buf.remaining, congrArg CorkStream.state (stream_pollReadBuf c buf)⟩
  | setCorked corked =>
    obtain rfl := Option.some.inj h
    exact Or.inl rfl

theorem inBounds_of_step {c d : CorkStream ι} {op : CorkOp} (hc : InBounds c.state)
    (h : c.step op = some d) : InBounds d.state := by
  rcases state_of_step h with hd | ⟨room, hd⟩
  · rwa [hd]
  · rw [hd]
    exact inBounds_pollRead hc room

/-- **A stream stays within its bounds.** -/
theorem inBounds_of_run {io : ι} {ops : List CorkOp} {c : CorkStream ι}
    (h : run step (new io) ops = some c) : InBounds c.state := by
  have hnew : InBounds (new io).state := Nat.zero_le 5
  exact run_invariant (I := fun c : CorkStream ι => InBounds c.state) hnew
    (fun _ _ _ => inBounds_of_step) h

/-! ## How often a call reads -/

theorem length_log_of_pollRead {l l' : Logged ι} {n : ℕ} {r : InnerPoll}
    (hr : AsyncRead.pollRead l n = (r, l')) : l'.log.length = l.log.length + 1 := by
  obtain ⟨-, rfl⟩ := Prod.mk.inj hr
  exact List.length_append

/-- Each turn of the loop but the last one reads a byte of the header. -/
theorem length_log_readHeader (corked : Bool) (room : ℕ) (io : Logged ι) (header : List UInt8) :
    (readHeader corked room io header).stream.io.log.length ≤
      io.log.length + max 1 (5 - header.length) := by
  fun_induction readHeader corked room io header with
  | case1 | case2 => exact Nat.le_add_right _ _
  | case3 | case4 | case5 | case6 | case7 | case8 =>
    have hlog := length_log_of_pollRead (by assumption)
    rw [hlog]
    omega
  | case9 io header _ _ bytes io' hr hgot hfive p ih =>
    have hlog := length_log_of_pollRead hr
    have hpos : 0 < (bytes.take (5 - header.length)).length := List.length_pos_iff.mpr hgot
    have hle := List.length_take_le (5 - header.length) bytes
    rw [List.length_append] at ih hfive
    exact Nat.le_trans ih (by omega)

/-- **A call makes at most five reads.** -/
theorem length_log_pollRead (c : CorkStream (Logged ι)) (room : ℕ) :
    (c.pollRead room).stream.io.log.length ≤ c.io.log.length + 5 := by
  unfold pollRead
  split
  · rename_i header _
    exact Nat.le_trans (length_log_readHeader _ _ _ _) (by omega)
  · unfold readPayload
    split
    · exact Nat.le_add_right _ _
    · split
      all_goals
        have hlog := length_log_of_pollRead (by assumption)
        rw [hlog]
        omega
  · unfold readThrough
    split
    all_goals
      have hlog := length_log_of_pollRead (by assumption)
      rw [hlog]
      omega

/-! ## What a call puts into the buffer -/

theorem length_put_readHeader (corked : Bool) (room : ℕ) (io : ι) (header : List UInt8) :
    (readHeader corked room io header).put.length ≤ room := by
  fun_induction readHeader corked room io header with
  | case1 | case2 | case3 | case4 | case5 | case7 => exact Nat.zero_le room
  | case6 io header _ _ bytes io' _ _ hroom => exact Nat.not_lt.mp hroom
  | case8 io header _ _ bytes io' _ _ hfive hroom =>
    rw [hfive]
    exact Nat.not_lt.mp hroom
  | case9 io header _ _ bytes io' _ _ _ p ih => exact ih

theorem length_put_pollRead (c : CorkStream ι) (room : ℕ) :
    (c.pollRead room).put.length ≤ room := by
  unfold pollRead
  split
  · exact length_put_readHeader _ _ _ _
  · unfold readPayload
    split
    · exact Nat.zero_le room
    · split
      · exact Nat.zero_le room
      · exact Nat.zero_le room
      · exact Nat.le_trans (List.length_take_le _ _) (Nat.min_le_right _ _)
  · unfold readThrough
    split
    · exact Nat.zero_le room
    · exact Nat.zero_le room
    · exact List.length_take_le _ _

/-- In a buffer of initialised bytes the marks never fail. -/
theorem pollReadBuf_of_initialized (c : CorkStream ι) {buf : ReadBuf}
    (h : buf.initialized = buf.capacity) :
    c.pollReadBuf buf = c.pollRead buf.remaining ∧
      buf.filled + (c.pollReadBuf buf).put.length ≤ buf.initialized := by
  have hput := length_put_pollRead c buf.remaining
  have hfits : buf.filled + (c.pollRead buf.remaining).put.length ≤ buf.initialized := by
    have hfilled := buf.filled_le
    rw [ReadBuf.remaining] at hput ⊢
    omega
  have heq : c.pollReadBuf buf = c.pollRead buf.remaining := pollReadBuf_eq fun _ _ _ => hfits
  exact ⟨heq, heq ▸ hfits⟩

/-- A call within its bounds panics only for want of room, or of initialised bytes. -/
theorem buf_of_panic {c : CorkStream ι} {buf : ReadBuf} {message : String} (h : InBounds c.state)
    (hpanic : (c.pollReadBuf buf).poll = .panic message) :
    buf.remaining < 5 ∨ buf.initialized < buf.capacity := by
  by_contra hfine
  rw [not_or, Nat.not_lt, Nat.not_lt] at hfine
  obtain ⟨hroom, hinit⟩ := hfine
  rw [(pollReadBuf_of_initialized c (Nat.le_antisymm buf.initialized_le hinit)).1] at hpanic
  exact noPanic_pollRead h hroom message hpanic

/-- **No call panics or spins.**  In every state that a stream can get into, and over every
inner stream, a call with a buffer of initialised bytes, five of them free, does not panic.
It makes at most five reads of the inner stream.  The state is within its bounds before the
call and after it, and the buffer is filled at most to the end of what is initialised. -/
theorem pollReadBuf_safe (io : ι) (ops : List CorkOp) (c : CorkStream (Logged ι))
    (hc : run step (new ⟨io, []⟩) ops = some c) (buf : ReadBuf)
    (hinit : buf.initialized = buf.capacity) (hroom : 5 ≤ buf.remaining) :
    NoPanic (c.pollReadBuf buf) ∧
      (∃ reads, (c.pollReadBuf buf).stream.io.log = c.io.log ++ reads ∧ reads.length ≤ 5) ∧
      InBounds c.state ∧ InBounds (c.pollReadBuf buf).stream.state ∧
      buf.filled + (c.pollReadBuf buf).put.length ≤ buf.initialized := by
  obtain ⟨heq, hfits⟩ := pollReadBuf_of_initialized c hinit
  have hbounds := inBounds_of_run hc
  obtain ⟨reads, hlog, -⟩ := log_pollRead c buf.remaining
  have hlen : reads.length ≤ 5 := by
    have hle := length_log_pollRead c buf.remaining
    rw [hlog, List.length_append] at hle
    omega
  refine ⟨?_, ⟨reads, ?_, hlen⟩, hbounds, ?_, hfits⟩
  · rw [heq]
    exact noPanic_pollRead hbounds hroom
  · rw [heq, hlog]
  · rw [heq]
    exact inBounds_pollRead hbounds _

/-- A header that comes byte by byte, and is then cut off. -/
def slow : Socket := ⟨[22, 3, 3, 0], [.bytes 0, .bytes 0, .bytes 0, .bytes 0, .bytes 0]⟩

theorem pollReadBuf_safe_slow :
    NoPanic ((new (⟨slow, []⟩ : Logged Socket)).pollReadBuf (.new 8)) ∧
      ((new (⟨slow, []⟩ : Logged Socket)).pollReadBuf (.new 8)).stream.io.log.length = 5 :=
  ⟨(pollReadBuf_safe slow [] _ rfl (.new 8) rfl (by decide)).1, by decide +kernel⟩

/-! ## Empty answers -/

/-- The reads that the call makes. -/
def readsOf (c : CorkStream (Logged ι)) (buf : ReadBuf) : List (ℕ × InnerPoll) :=
  (c.pollReadBuf buf).stream.io.log.drop c.io.log.length

/-- **An empty answer means the end**: a call without the cork, and with room for five bytes,
that is ready and has put nothing into the buffer has made a read that found the end of the
inner stream. -/
def EmptyIsEnd (c : CorkStream (Logged ι)) : CorkOp → Prop
  | .pollRead buf => 5 ≤ buf.remaining → c.corked = false → (c.pollReadBuf buf).poll = .ready →
      (c.pollReadBuf buf).put = [] → Ended (c.readsOf buf)
  | .setCorked _ => True

/-- The call does not stand in a record without a payload, with the inner stream ready for a
read of no bytes. -/
def NotInEmptyRecord (c : CorkStream (Logged ι)) : CorkOp → Prop
  | .pollRead buf => 5 ≤ buf.remaining → c.corked = false → c.state = .readPayload 0 0 →
      ∀ bytes, (AsyncRead.pollRead c.io.io 0).1 ≠ .ready bytes
  | .setCorked _ => True

theorem readsOf_eq {c : CorkStream (Logged ι)} {buf : ReadBuf} {reads : List (ℕ × InnerPoll)}
    (h : (c.pollRead buf.remaining).stream.io.log = c.io.log ++ reads) : c.readsOf buf = reads := by
  rw [readsOf, stream_pollReadBuf, h, List.drop_left]

/-- The end that a call has seen is in one of its reads. -/
theorem ended_of_eof {c : CorkStream (Logged ι)} {buf : ReadBuf}
    (h : (c.pollRead buf.remaining).eof = true) : Ended (c.readsOf buf) := by
  obtain ⟨reads, hlog, -, hend⟩ := log_pollRead c buf.remaining
  rw [readsOf_eq hlog]
  exact hend h

/-- A call that is ready is one in which the marks of the buffer have not failed. -/
theorem pollReadBuf_of_ready {c : CorkStream ι} {buf : ReadBuf}
    (h : (c.pollReadBuf buf).poll = .ready) : c.pollReadBuf buf = c.pollRead buf.remaining := by
  unfold pollReadBuf at h ⊢
  split
  · rename_i hc
    rw [hc] at h
    dsimp only at h
    split
    · rename_i hpanic
      rw [if_pos hpanic] at h
      exact absurd h (by simp)
    · rfl
  · rfl

/-- What is held back of a header is given up with it. -/
theorem put_readHeader_ne_nil (corked : Bool) (room : ℕ) (io : ι) (header : List UInt8)
    (hheader : header ≠ []) (hready : (readHeader corked room io header).poll = .ready) :
    (readHeader corked room io header).put ≠ [] := by
  fun_induction readHeader corked room io header with
  | case1 io header hcork => exact absurd hcork.1 hheader
  | case2 | case3 | case4 | case5 | case7 => exact absurd hready (by simp)
  | case6 => exact hheader
  | case8 => simp [hheader]
  | case9 io header _ _ bytes io' _ _ _ p ih => exact ih (by simp [hheader]) hready

/-- **Outside of an empty record an empty answer means the end.** -/
theorem eof_of_put_eq_nil {c : CorkStream ι} {room : ℕ} (hc : InBounds c.state)
    (hempty : c.state ≠ .readPayload 0 0) (hroom : 5 ≤ room) (hcorked : c.corked = false)
    (hready : (c.pollRead room).poll = .ready) (hput : (c.pollRead room).put = []) :
    (c.pollRead room).eof = true := by
  have hpanic := noPanic_pollRead hc hroom
  cases hstate : c.state with
  | readHeader header =>
    by_cases hnil : header = []
    · subst hnil
      cases pollRead_header hstate (by simp) hpanic with
      | corked _ htrue => exact absurd htrue (by simp [hcorked])
      | wait hpoll => exact absurd hready hpoll
      | eof _ _ _ _ heof => exact heof
      | full _ hfull hlen =>
        rw [← hfull, hput] at hlen
        exact absurd hlen (by simp)
    · have hpoll : c.pollRead room = readHeader c.corked room c.io header := by
        rw [pollRead, hstate]
      rw [hpoll] at hready hput
      exact absurd hput (put_readHeader_ne_nil _ _ _ _ hnil hready)
  | readPayload msgSize offset =>
    have hlt : offset < msgSize := by
      rw [hstate] at hc hempty
      rcases hc with hlt | ⟨rfl, rfl⟩
      · exact hlt
      · exact absurd rfl hempty
    cases pollRead_payload hstate hpanic with
    | wait hpoll => exact absurd hready hpoll
    | read _ _ _ _ heof => exact heof hput (by omega) hlt
  | passthrough => exact (pollRead_through hstate).eof hready hput (by omega)

/-- The call in an empty record: a read of no bytes. -/
theorem pollRead_empty {c : CorkStream (Logged ι)} (hc : c.state = .readPayload 0 0) (room : ℕ) :
    ((c.pollRead room).poll = .ready ↔
        ∃ bytes, (AsyncRead.pollRead c.io.io 0).1 = .ready bytes) ∧
      (c.pollRead room).put = [] := by
  have hpoll : c.pollRead room = readPayload c.corked room c.io 0 0 := by rw [pollRead, hc]
  rw [hpoll, readPayload, if_neg (Nat.lt_irrefl 0), Nat.sub_self, Nat.zero_min]
  split
  all_goals
    rename_i hr
    obtain ⟨hanswer, -⟩ := Prod.mk.inj hr
    rw [hanswer]
    simp

/-- **In an empty record it does not**: the only read of the call had no room. -/
theorem not_ended_of_empty {c : CorkStream (Logged ι)} (hc : c.state = .readPayload 0 0)
    (buf : ReadBuf) : ¬ Ended (c.readsOf buf) := by
  have hlog := (log_readPayload hc (Nat.le_refl 0) buf.remaining).1
  rw [Nat.sub_self, Nat.zero_min] at hlog
  rw [readsOf_eq hlog]
  rintro ⟨a, ha, hend⟩
  rw [List.mem_singleton.mp ha] at hend
  cases hr : (AsyncRead.pollRead c.io.io 0).1 with
  | ready bytes => exact absurd hend (by simp [isEnd, hr])
  | pending => exact absurd hend (by simp [isEnd, hr])
  | err e => exact absurd hend (by simp [isEnd, hr])

/-- One call. -/
theorem emptyIsEnd_iff_of_inBounds {c : CorkStream (Logged ι)} (hc : InBounds c.state)
    (op : CorkOp) : c.EmptyIsEnd op ↔ c.NotInEmptyRecord op := by
  cases op with
  | setCorked corked => exact Iff.rfl
  | pollRead buf =>
    constructor
    · intro h hroom hcorked hstate bytes hr
      obtain ⟨hready, hput⟩ := pollRead_empty hstate buf.remaining
      have heq : c.pollReadBuf buf = c.pollRead buf.remaining := by
        refine pollReadBuf_eq fun _ _ _ => ?_
        rw [hput]
        exact buf.filled_le
      rw [← heq] at hready hput
      exact not_ended_of_empty hstate buf (h hroom hcorked (hready.mpr ⟨bytes, hr⟩) hput)
    · intro h hroom hcorked hready hput
      have heq := pollReadBuf_of_ready hready
      rw [heq] at hready hput
      by_cases hstate : c.state = .readPayload 0 0
      · obtain ⟨bytes, hr⟩ := (pollRead_empty hstate _).1.mp hready
        exact absurd hr (h hroom hcorked hstate bytes)
      · exact ended_of_eof (eof_of_put_eq_nil hc hstate hroom hcorked hready hput)

/-- **When an empty answer means the end of the stream.**  For every inner stream and every
sequence of calls, with whatever is done to the cork in between: every empty answer of a call
without the cork, and with room for five bytes, comes from a read that found the end of the
inner stream, if and only if no such call stands in a record without a payload while the inner
stream is ready for a read of no bytes. -/
theorem emptyIsEnd_iff (io : ι) (ops : List CorkOp) :
    Allowed step EmptyIsEnd (new (⟨io, []⟩ : Logged ι)) ops ↔
      Allowed step NotInEmptyRecord (new (⟨io, []⟩ : Logged ι)) ops := by
  constructor
  · intro h pre op post c heq hc
    exact (emptyIsEnd_iff_of_inBounds (inBounds_of_run hc) op).mp (h pre op post c heq hc)
  · intro h pre op post c heq hc
    exact (emptyIsEnd_iff_of_inBounds (inBounds_of_run hc) op).mpr (h pre op post c heq hc)

/-- A record without a payload, and one with a byte. -/
def emptyRecord : Socket := ⟨[22, 3, 3, 0, 0, 22, 3, 3, 0, 1, 7], [.bytes 4, .bytes 4, .bytes 4]⟩

/-- **An end of stream that is none.**  The second call behind the header of an empty record is
ready and has put nothing into the buffer, and the next record is still on the wire. -/
theorem not_emptyIsEnd_emptyRecord :
    (∃ c, run step (new (⟨emptyRecord, []⟩ : Logged Socket)) [.pollRead (.new 8)] = some c ∧
      (c.pollReadBuf (.new 8)).poll = .ready ∧ (c.pollReadBuf (.new 8)).put = [] ∧
      (c.pollReadBuf (.new 8)).stream.io.io.wire = [22, 3, 3, 0, 1, 7]) ∧
      ¬ Allowed step EmptyIsEnd (new (⟨emptyRecord, []⟩ : Logged Socket))
        [.pollRead (.new 8), .pollRead (.new 8)] := by
  refine ⟨⟨_, rfl, by decide +kernel, by decide +kernel, by decide +kernel⟩, fun h => ?_⟩
  have hend := h [.pollRead (.new 8)] (.pollRead (.new 8)) [] _ rfl rfl (by decide)
    (by decide +kernel) (by decide +kernel) (by decide +kernel)
  exact absurd hend (by decide +kernel)

end CorkStream
end Turbine
