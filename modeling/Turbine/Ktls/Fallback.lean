import Turbine.Ktls.CorkCalls

/-!
# Headers that are none

A `CorkStream` is meant to give up on anything that does not look like a TLS header: an
unknown type, a nonsensical size or an unexpected end of the stream shall bring it into
`Passthrough`, where it only forwards and leaves the errors to rustls.

For the end of the stream that is so, and `Passthrough` is what it is meant to be: it is never
left, each call in it is a plain read of the inner stream into the caller's buffer, and the
cork has no effect (`forwards_of_passthrough`, `passthrough_of_run`).  But no header leads
there.  `decode_header` fails only if rustls cannot decode the type or the version, rustls has
a variant for every code, and nobody looks at the size.  So the stream follows whatever the
five bytes say, and `fallsBack_iff` says that it keeps the promise exactly if it never has to.
-/

namespace Turbine

open Records Runs

namespace CorkStream

variable {ι : Type} [AsyncRead ι]

/-- Five bytes that look like the header of a TLS record: one of the content types 20 to 24,
and no more than the largest ciphertext. -/
def looksLikeTls : List UInt8 → Bool
  | [typ, _, _, hi, lo] => 20 ≤ typ ∧ typ ≤ 24 ∧ hi.toNat * 256 + lo.toNat ≤ 16384 + 2048
  | _ => false

/-- The header that a call completes: what was held back, and what its reads have given. -/
def headerRead (c : CorkStream (Logged ι)) (buf : ReadBuf) : Option (List UInt8) :=
  match c.state with
  | .readHeader held =>
      if held.length < 5 ∧ (held ++ consumed (c.readsOf buf)).length = 5 then
        some (held ++ consumed (c.readsOf buf))
      else none
  | _ => none

/-- A read of the inner stream with room for `n` bytes: the answer, the bytes, and what is
left. -/
def plainRead (io : ι) (n : ℕ) : Poll × List UInt8 × ι :=
  match AsyncRead.pollRead io n with
  | (.pending, io') => (.pending, [], io')
  | (.err e, io') => (.err e, [], io')
  | (.ready bytes, io') => (.ready, bytes.take n, io')

/-- A call only forwards, corked or not. -/
def Forwards (c : CorkStream ι) : Prop :=
  ∀ corked buf, (({ c with corked }.pollReadBuf buf).poll, ({ c with corked }.pollReadBuf buf).put,
    ({ c with corked }.pollReadBuf buf).stream.io) = plainRead c.io buf.remaining

/-- **The promise**: from a header on that does not look like TLS, the stream is in
`Passthrough` and forwards. -/
def FallsBack (io : ι) (ops : List CorkOp) : Prop :=
  ∀ pre buf post c header, ops = pre ++ .pollRead buf :: post →
    run step (new (⟨io, []⟩ : Logged ι)) pre = some c → c.headerRead buf = some header →
    looksLikeTls header = false →
    ∀ mid rest d, post = mid ++ rest → run step (c.pollReadBuf buf).stream mid = some d →
      d.state = .passthrough ∧ d.Forwards

/-- The header that the call completes, if it completes one, looks like TLS. -/
def ReadsTls (c : CorkStream (Logged ι)) : CorkOp → Prop
  | .pollRead buf => ∀ header, c.headerRead buf = some header → looksLikeTls header = true
  | .setCorked _ => True

/-! ## In `Passthrough` -/

theorem forwards_of_passthrough {c : CorkStream ι} (hc : c.state = .passthrough) :
    c.Forwards := by
  intro corked buf
  have hcall : { c with corked }.pollReadBuf buf = readThrough corked buf.remaining c.io := by
    simp only [pollReadBuf, pollRead, hc]
  rw [hcall]
  rcases hr : AsyncRead.pollRead c.io buf.remaining with ⟨r, io'⟩
  cases r with
  | pending => simp only [plainRead, readThrough, hr]
  | err e => simp only [plainRead, readThrough, hr]
  | ready bytes => simp only [plainRead, readThrough, hr]

theorem passthrough_of_step {c d : CorkStream ι} {op : CorkOp} (hc : c.state = .passthrough)
    (h : c.step op = some d) : d.state = .passthrough := by
  rcases state_of_step h with hd | ⟨room, hd⟩
  · rw [hd, hc]
  · rw [hd]
    exact (pollRead_through hc).state

/-- **`Passthrough` is never left.** -/
theorem passthrough_of_run {c d : CorkStream ι} {ops : List CorkOp} (hc : c.state = .passthrough)
    (h : run step c ops = some d) : d.state = .passthrough :=
  run_invariant (I := fun c : CorkStream ι => c.state = .passthrough) hc
    (fun _ _ _ => passthrough_of_step) h

/-! ## Behind a header -/

/-- The call that completes a header goes on to its payload; without the room to hand it on,
it panics. -/
theorem state_readHeader (corked : Bool) (room : ℕ) (io : ι) (header : List UInt8)
    (hheader : header.length < 5)
    (hfive : (header ++ (readHeader corked room io header).taken).length = 5) :
    (readHeader corked room io header).stream.state =
        .readPayload (lengthOf (header ++ (readHeader corked room io header).taken)) 0 ∨
      (readHeader corked room io header).stream.state =
        .readHeader (header ++ (readHeader corked room io header).taken) := by
  fun_induction readHeader corked room io header with
  | case1 | case2 | case3 | case4 | case5 | case6 =>
    rw [List.append_nil] at hfive
    omega
  | case7 => exact Or.inr rfl
  | case8 => exact Or.inl (afterHeader_eq hfive)
  | case9 io header _ _ bytes io' _ _ hne p ih =>
    have hlt : (header ++ bytes.take (5 - header.length)).length < 5 := by
      have hle := length_append_take_le (Nat.le_of_lt hheader) bytes
      omega
    rw [← List.append_assoc] at hfive ⊢
    exact ih hlt hfive

/-- **No header leads to `Passthrough`.** -/
theorem state_of_headerRead {c : CorkStream (Logged ι)} {buf : ReadBuf} {header : List UInt8}
    (h : c.headerRead buf = some header) :
    (c.pollReadBuf buf).stream.state = .readPayload (lengthOf header) 0 ∨
      (c.pollReadBuf buf).stream.state = .readHeader header := by
  cases hc : c.state with
  | readHeader held =>
    obtain ⟨reads, hlog, htaken, -⟩ := log_pollRead c buf.remaining
    have hcall : c.pollRead buf.remaining = readHeader c.corked buf.remaining c.io held := by
      rw [pollRead, hc]
    simp only [headerRead, hc, readsOf_eq hlog, htaken] at h
    split at h
    · rename_i hlen
      rw [← Option.some.inj h, stream_pollReadBuf, hcall]
      rw [hcall] at hlen
      exact state_readHeader _ _ _ _ hlen.1 hlen.2
    · exact absurd h (by simp)
  | readPayload msgSize offset =>
    simp only [headerRead, hc] at h
    exact absurd h (by simp)
  | passthrough =>
    simp only [headerRead, hc] at h
    exact absurd h (by simp)

/-- **When `CorkStream` falls back.**  For every inner stream and every sequence of calls: the
stream is in `Passthrough` and only forwards from the first header on that does not look like
TLS, if and only if it never reads such a header.  Whenever it is in `Passthrough`, for another
reason, it stays there, and it only forwards. -/
theorem fallsBack_iff (io : ι) (ops : List CorkOp) :
    (FallsBack io ops ↔ Allowed step ReadsTls (new (⟨io, []⟩ : Logged ι)) ops) ∧
      ∀ pre mid post c d, ops = pre ++ mid ++ post →
        run step (new (⟨io, []⟩ : Logged ι)) pre = some c → c.state = .passthrough →
        run step c mid = some d → d.state = .passthrough ∧ d.Forwards := by
  refine ⟨⟨?_, ?_⟩, ?_⟩
  · rintro h pre op post c rfl hc
    cases op with
    | setCorked corked => trivial
    | pollRead buf =>
      intro header hread
      by_contra hbad
      have hback := h pre buf post c header rfl hc hread (Bool.eq_false_iff.mpr hbad) [] post
        (c.pollReadBuf buf).stream rfl rfl
      rcases state_of_headerRead hread with hstate | hstate
      · exact absurd (hstate.symm.trans hback.1) (by simp)
      · exact absurd (hstate.symm.trans hback.1) (by simp)
  · intro h pre buf post c header heq hc hread hbad
    have htls := h pre (.pollRead buf) post c heq hc header hread
    exact absurd htls (by simp [hbad])
  · intro pre mid post c d _ _ hstate hd
    have hthrough := passthrough_of_run hstate hd
    exact ⟨hthrough, forwards_of_passthrough hthrough⟩

/-- A "record" of the unknown type 99 with one byte, and two more bytes. -/
def notTls : Socket := ⟨[99, 3, 3, 0, 1, 7, 8, 9], [.bytes 4, .bytes 4, .bytes 4]⟩

/-- **Bytes that are not TLS are followed all the same.**  Behind the header of the unknown type
the stream reads a payload.  Corked after that, it answers with an empty read, and the rest
stays on the wire. -/
theorem not_fallsBack_notTls :
    (new (⟨notTls, []⟩ : Logged Socket)).headerRead (.new 8) = some [99, 3, 3, 0, 1] ∧
      ((new (⟨notTls, []⟩ : Logged Socket)).pollReadBuf (.new 8)).stream.state =
        .readPayload 1 0 ∧
      (∃ c, run step (new (⟨notTls, []⟩ : Logged Socket))
          [.pollRead (.new 8), .pollRead (.new 8), .setCorked true] = some c ∧
        (c.pollReadBuf (.new 8)).poll = .ready ∧ (c.pollReadBuf (.new 8)).put = [] ∧
        (c.pollReadBuf (.new 8)).stream.io.io.wire = [8, 9]) ∧
      ¬ FallsBack notTls [.pollRead (.new 8)] := by
  have hread : (new (⟨notTls, []⟩ : Logged Socket)).headerRead (.new 8) =
      some [99, 3, 3, 0, 1] := by decide +kernel
  refine ⟨hread, by decide +kernel,
    ⟨_, rfl, by decide +kernel, by decide +kernel, by decide +kernel⟩, fun h => ?_⟩
  have hback := h [] (.new 8) [] _ _ rfl rfl hread (by decide) [] [] _ rfl rfl
  exact absurd hback.1 (by decide +kernel)

end CorkStream
end Turbine
