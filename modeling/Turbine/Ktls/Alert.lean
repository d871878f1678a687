import Turbine.Ktls.Close

/-!
# Control records, and who reads them

Two functions of `KtlsStream` fetch control records with `recvmsg`: `poll_read`, into the
caller's buffer, when a read has failed with `EIO`, and `handle_msg`, into a buffer of its
own.  What they do about a record is the same code twice, and it goes by the bytes that are
in the buffer, not by the record.  The peer chooses the record, and the caller the buffer.

An alert has two bytes.  Of an alert in a buffer of one byte the source has only the level,
and it assumes the description: "just assume it's a close_notify".  `sameEffect_iff` is what
that comes to.  An alert that has no byte, or three or more, is met with a panic; that TLS
alerts have exactly two is left to the peer.  `noPanic_iff` says that no other record of the
types that may arrive does this.
-/

namespace Turbine

/-- What `recvmsg` answers, into a buffer of `size` bytes, when the peer has sent a record of
type `t`: one control message, and the first bytes of the payload. -/
def controlMsg (t : UInt8) (payload : List UInt8) (size : ℕ) : Recvmsg :=
  .ok [.tlsGetRecordType t] (payload.take size)

/-! ## What is made of a record -/

/-- A record that is no alert is ignored. -/
theorem control_of_ne_alert {t : UInt8} (hccs : t ≠ 20) (halert : t ≠ 21) (hdata : t ≠ 23)
    (size : ℕ) (bytes : List UInt8) : control size [.tlsGetRecordType t] bytes = .ignored := by
  by_cases hhandshake : t = 22
  · subst hhandshake
    rfl
  · have htype : TlsRecordType.fromPrimitive t = .other t := by
      simp only [TlsRecordType.fromPrimitive, hccs, halert, hhandshake, hdata, reduceIte]
    simp only [control, htype]

/-- An alert is met with a panic exactly if it has not one or two bytes in the buffer. -/
theorem control_alert_eq_panic_iff (size : ℕ) (bytes : List UInt8) :
    (∃ message, control size [.tlsGetRecordType 21] bytes = .panic message) ↔
      bytes.take size = [] ∨ 2 < (bytes.take size).length := by
  have htype : TlsRecordType.fromPrimitive 21 = .alert := by decide
  simp only [control, htype]
  rcases bytes.take size with _ | ⟨level, _ | ⟨description, _ | ⟨third, rest⟩⟩⟩
  · simp
  · simp [alertControl]
  · dsimp only
    rw [alertControl_eq]
    split <;> simp
  · simp

theorem control_eq_panic_iff {t : UInt8} (hccs : t ≠ 20) (hdata : t ≠ 23) (size : ℕ)
    (bytes : List UInt8) :
    (∃ message, control size [.tlsGetRecordType t] bytes = .panic message) ↔
      t = 21 ∧ (bytes.take size = [] ∨ 2 < (bytes.take size).length) := by
  by_cases halert : t = 21
  · subst halert
    rw [control_alert_eq_panic_iff, and_iff_right rfl]
  · rw [control_of_ne_alert hccs halert hdata]
    exact iff_of_false (by simp) fun h => halert h.1

/-- One or two bytes of the payload are in a buffer of `n` bytes. -/
theorem take_bytes_iff {n : ℕ} (hn : n ≠ 0) (payload : List UInt8) :
    ¬ (payload.take n = [] ∨ 2 < (payload.take n).length) ↔
      payload ≠ [] ∧ (n ≤ 2 ∨ payload.length ≤ 2) := by
  rw [not_or, List.length_take, List.take_eq_nil_iff, or_iff_right hn]
  refine and_congr_right fun _ => ?_
  omega

/-- What is made of an alert of two bytes. -/
theorem control_alert {size : ℕ} (hsize : size ≠ 0) (level description : UInt8) :
    control size [.tlsGetRecordType 21] ([level, description].take size) =
      if size = 1 ∨ level = 2 ∨ description = 0 then .close else .unhandled := by
  have htype : TlsRecordType.fromPrimitive 21 = .alert := by decide
  by_cases hone : size = 1
  · subst hone
    rw [if_pos (Or.inl rfl)]
    rfl
  · have hall : [level, description].take size = [level, description] :=
      List.take_of_length_le (by simp only [List.length_cons, List.length_nil]; omega)
    simp only [control, htype, hall, alertControl_eq, hone, false_or]

namespace KtlsStream

/-! ## The two readers -/

/-- The index into the drained bytes is in bounds. -/
def Indexed (s : KtlsStream) : Prop := ∀ i D, s.drained = some (i, D) → i ≤ D.length

theorem indexed_pollRead {s : KtlsStream} (hs : s.Indexed) (size : ℕ) (answers : Answers) :
    (s.pollRead size answers).stream.Indexed := by
  unfold pollRead
  split
  · exact hs
  · split
    · exact hs
    · split
      · split
        · exact hs
        · -- the index moves on by at most what is left
          intro i D heq
          dsimp only at heq
          split at heq
          · exact absurd heq (by simp)
          · obtain ⟨rfl, rfl⟩ := Prod.mk.inj (Option.some.inj heq)
            rw [List.length_drop]
            omega
      · intro i D heq
        rw [drained_readInner] at heq
        exact hs i D heq

/-- A call that gets to the inner stream panics exactly if it fetches a record that is met
with a panic. -/
theorem readInner_eq_panic_iff {s : KtlsStream} (hopen : s.readClosed = false) {size : ℕ}
    (hsize : size ≠ 0) (hdrained : s.drained = none) {answers : Answers}
    {cmsgs : List ControlMessage} {bytes : List UInt8} (hmsg : answers.recvmsg = .ok cmsgs bytes) :
    (∃ message, (s.readInner size answers).poll = .panic message) ↔
      s.FetchesControl size answers ∧ ∃ message, control size cmsgs bytes = .panic message := by
  by_cases hread : answers.read = .err (some eio)
  · have hfetch : s.FetchesControl size answers := ⟨hopen, hsize, hdrained, hread⟩
    rw [and_iff_right hfetch]
    simp only [readInner, hread, hmsg, reduceIte]
    cases control size cmsgs bytes with
    | panic message => simp
    | close => cases answers.closeNotify <;> simp
    | unhandled => simp
    | ignored => simp
  · refine iff_of_false ?_ fun h => hread h.1.2.2.2
    rintro ⟨message, hpanic⟩
    unfold readInner at hpanic
    split at hpanic
    · exact absurd hpanic (by simp)
    · exact absurd hpanic (by simp)
    · rename_i e he
      have hne : e ≠ some eio := by
        intro heio
        exact hread (heio ▸ he)
      rw [if_neg hne] at hpanic
      exact absurd hpanic (by simp)

/-- `poll_read` panics exactly if it fetches a record that is met with a panic. -/
theorem pollRead_eq_panic_iff {s : KtlsStream} (hs : s.Indexed) {size : ℕ} (hsize : size ≠ 0)
    {answers : Answers} {cmsgs : List ControlMessage} {bytes : List UInt8}
    (hmsg : answers.recvmsg = .ok cmsgs bytes) :
    (∃ message, (s.pollRead size answers).poll = .panic message) ↔
      s.FetchesControl size answers ∧ ∃ message, control size cmsgs bytes = .panic message := by
  cases hopen : s.readClosed with
  | true =>
    refine iff_of_false ?_ fun h => absurd (hopen.symm.trans h.1.1) (by simp)
    simp [pollRead, hopen]
  | false =>
    cases hdrained : s.drained with
    | some p =>
      refine iff_of_false ?_ fun h => absurd (hdrained.symm.trans h.1.2.2.1) (by simp)
      have hi : ¬ p.2.length < p.1 := Nat.not_lt.mpr (hs p.1 p.2 hdrained)
      simp [pollRead, hopen, hsize, hdrained, hi]
    | none =>
      rw [pollRead_of_none hdrained hsize, hopen]
      exact readInner_eq_panic_iff hopen hsize hdrained hmsg

theorem handleMsg_eq_none_iff (s : KtlsStream) (cmsgs : List ControlMessage)
    (bytes : List UInt8) (closeNotify : Option IoError) :
    (s.handleMsg (.ok cmsgs bytes) closeNotify).result = none ↔
      ¬ ∃ message, control handleMsgSize cmsgs bytes = .panic message := by
  simp only [handleMsg]
  cases control handleMsgSize cmsgs bytes with
  | panic message => simp
  | close => simp
  | unhandled => simp
  | ignored => simp

/-! ## One alert, two readers -/

/-- `poll_read` with room for `size` bytes, when the next record is this alert. -/
def pollReadAlert (s : KtlsStream) (size : ℕ) (level description : UInt8)
    (closeNotify : Option IoError) : Polled :=
  s.pollRead size ⟨.err (some eio), controlMsg 21 [level, description] size, closeNotify⟩

/-- `handle_msg`, when the next record is this alert. -/
def handleMsgAlert (s : KtlsStream) (level description : UInt8) (closeNotify : Option IoError) :
    KtlsCalled (Option String) :=
  s.handleMsg (controlMsg 21 [level, description] handleMsgSize) closeNotify

/-- Whoever reads this alert, `poll_read` into `size` bytes or `handle_msg`: the stream is
closed in the same directions after it, and a `close_notify` is tried as often. -/
def SameEffect (s : KtlsStream) (size : ℕ) (level description : UInt8) : Prop :=
  ∀ closeNotify closeNotify',
    let p := s.pollReadAlert size level description closeNotify
    let c := s.handleMsgAlert level description closeNotify'
    p.stream.readClosed = c.stream.readClosed ∧ p.stream.writeClosed = c.stream.writeClosed ∧
      p.closeNotifies = c.closeNotifies

theorem pollReadAlert_eq {s : KtlsStream} (hopen : s.readClosed = false)
    (hdrained : s.drained = none) {size : ℕ} (hsize : size ≠ 0) (level description : UInt8)
    (closeNotify : Option IoError) :
    let p := s.pollReadAlert size level description closeNotify
    if size = 1 ∨ level = 2 ∨ description = 0 then
      p.stream = { s with readClosed := true, writeClosed := true } ∧ p.closeNotifies = 1
    else p.stream = s ∧ p.closeNotifies = 0 := by
  dsimp only
  rw [pollReadAlert, pollRead_of_none hdrained hsize, hopen]
  simp only [Bool.false_eq_true, readInner, controlMsg, reduceIte, control_alert hsize]
  split
  · exact ⟨rfl, rfl⟩
  · exact ⟨rfl, rfl⟩

theorem handleMsgAlert_eq (s : KtlsStream) (level description : UInt8)
    (closeNotify : Option IoError) :
    let c := s.handleMsgAlert level description closeNotify
    if level = 2 ∨ description = 0 then
      c.stream = { s with readClosed := true, writeClosed := true } ∧ c.closeNotifies = 1
    else c.stream = s ∧ c.closeNotifies = 0 := by
  have hone : ¬ handleMsgSize = 1 := by decide
  dsimp only
  simp only [handleMsgAlert, handleMsg, controlMsg,
    control_alert (by decide : handleMsgSize ≠ 0), hone, false_or]
  split
  · exact ⟨rfl, rfl⟩
  · exact ⟨rfl, rfl⟩

theorem sameEffect_of_eq {s t : KtlsStream} {size n : ℕ} {level description : UInt8}
    (hp : ∀ closeNotify, (s.pollReadAlert size level description closeNotify).stream = t ∧
      (s.pollReadAlert size level description closeNotify).closeNotifies = n)
    (hc : ∀ closeNotify, (s.handleMsgAlert level description closeNotify).stream = t ∧
      (s.handleMsgAlert level description closeNotify).closeNotifies = n) :
    s.SameEffect size level description := by
  intro closeNotify closeNotify'
  dsimp only
  rw [(hp closeNotify).1, (hp closeNotify).2, (hc closeNotify').1, (hc closeNotify').2]
  exact ⟨rfl, rfl, rfl⟩

/-- With nothing drained, the two readers differ about half an alert only. -/
theorem sameEffect_iff_of_none {s : KtlsStream} (hopen : s.readClosed = false)
    (hdrained : s.drained = none) {size : ℕ} (hsize : size ≠ 0) {level description : UInt8} :
    s.SameEffect size level description ↔ 2 ≤ size ∨ level = 2 ∨ description = 0 := by
  have hp := pollReadAlert_eq hopen hdrained hsize level description
  have hc := handleMsgAlert_eq s level description
  by_cases hclose : level = 2 ∨ description = 0
  · simp only [hclose, or_true, reduceIte] at hp hc
    exact iff_of_true (sameEffect_of_eq hp hc) (Or.inr hclose)
  · simp only [hclose, or_false, reduceIte] at hp hc
    rw [or_iff_left hclose]
    by_cases hone : size = 1
    · -- half an alert is taken for a `close_notify`
      simp only [hone, reduceIte] at hp
      refine iff_of_false (fun h => ?_) (by omega)
      have hread := (h none none).1
      rw [hone, (hp none).1, (hc none).1, hopen] at hread
      exact absurd hread (by simp)
    · simp only [hone, reduceIte] at hp
      exact iff_of_true (sameEffect_of_eq hp hc) (by omega)

/-- **When an alert has the same effect on both readers.**  For every open stream, every
alert of two bytes and every buffer with room: if `poll_read` fetches the alert, it does the
same about it as `handle_msg` if and only if its buffer holds two bytes, or the alert is a
`close_notify` or fatal.  In a buffer of one byte every alert is taken for a `close_notify`:
both directions are closed, and one `close_notify` is tried. -/
theorem sameEffect_iff (s : KtlsStream) (hopen : s.readClosed = false) (size : ℕ)
    (hsize : size ≠ 0) (level description : UInt8) :
    ((s.drained = none → s.SameEffect size level description) ↔
      s.drained ≠ none ∨ 2 ≤ size ∨ level = 2 ∨ description = 0) ∧
      (s.drained = none → size = 1 → ∀ closeNotify,
        s.pollReadAlert size level description closeNotify =
          s.pollReadAlert size level 0 closeNotify ∧
        (s.pollReadAlert size level description closeNotify).stream =
          { s with readClosed := true, writeClosed := true } ∧
        (s.pollReadAlert size level description closeNotify).closeNotifies = 1) := by
  refine ⟨?_, ?_⟩
  · by_cases hdrained : s.drained = none
    · rw [imp_iff_right hdrained, or_iff_right (not_not_intro hdrained)]
      exact sameEffect_iff_of_none hopen hdrained hsize
    · exact iff_of_true (fun h => absurd h hdrained) (Or.inl hdrained)
  · intro hdrained hone closeNotify
    have hp := pollReadAlert_eq hopen hdrained hsize level description closeNotify
    simp only [hone, true_or, reduceIte] at hp ⊢
    exact ⟨rfl, hp⟩

theorem sameEffect_iff_no_renegotiation :
    SameEffect ⟨true, false, none⟩ 2 1 100 ∧
      (pollReadAlert ⟨true, false, none⟩ 1 1 100 none).closeNotifies = 1 :=
  ⟨(sameEffect_iff ⟨true, false, none⟩ rfl 2 (by decide) 1 100).1.mpr
      (Or.inr (Or.inl (by decide))) rfl,
    ((sameEffect_iff ⟨true, false, none⟩ rfl 1 (by decide) 1 100).2 rfl rfl none).2.2⟩

/-- **Half a warning closes the stream.**  A warning that is no `close_notify`, read with room
for one byte: `poll_read` closes both directions and sends a `close_notify`, `handle_msg` does
nothing. -/
theorem not_sameEffect_half_alert :
    let s : KtlsStream := ⟨false, false, none⟩
    let p := s.pollReadAlert 1 1 100 none
    let c := s.handleMsgAlert 1 100 none
    (p.stream = ⟨true, true, none⟩ ∧ p.closeNotifies = 1) ∧
      (c.stream = s ∧ c.closeNotifies = 0) ∧ ¬ s.SameEffect 1 1 100 := by
  refine ⟨⟨rfl, rfl⟩, ⟨by decide, by decide⟩, fun h => ?_⟩
  exact absurd (h none none).1 (by decide)

end KtlsStream

namespace Connection

open Runs

/-! ## No record of the peer's choice panics, with one exception -/

theorem indexed_of_step {s t : Connection} {c : KtlsCall} (hs : s.stream.Indexed)
    (h : s.step c = some t) : t.stream.Indexed := by
  cases c with
  | read size answers =>
    simp only [step] at h
    split at h
    · exact absurd h (by simp)
    · rw [← Option.some.inj h]
      exact KtlsStream.indexed_pollRead hs size answers
  | write buf inner =>
    obtain rfl := Option.some.inj h
    simp only [KtlsStream.pollWrite]
    split <;> exact hs
  | shutdown closeNotify inner =>
    simp only [step] at h
    split at h
    · exact absurd h (by simp)
    · obtain rfl := Option.some.inj h
      simp only [KtlsStream.pollShutdown]
      split <;> exact hs
  | handleMsg recvmsg closeNotify =>
    simp only [step] at h
    split at h
    · exact absurd h (by simp)
    · obtain rfl := Option.some.inj h
      simp only [KtlsStream.handleMsg]
      repeat' split
      all_goals exact hs

theorem indexed_of_run {drained : Option (List UInt8)} {calls : List KtlsCall} {s : Connection}
    (h : run step (start drained) calls = some s) : s.stream.Indexed := by
  refine run_invariant (I := fun s => s.stream.Indexed) ?_ (fun _ _ _ => indexed_of_step) h
  intro i D heq
  cases drained with
  | none => exact absurd heq (by simp [start, KtlsStream.new])
  | some D' =>
    obtain ⟨rfl, rfl⟩ := Prod.mk.inj (Option.some.inj heq)
    exact Nat.zero_le _

/-- **Which control records make the stream panic.**  For every stream, whatever calls have
been made on it, every control record that is neither a change of cipher nor application data,
with any payload, and every buffer with room: `poll_read` does not panic if and only if it
does not fetch the record, or it is no alert, or one or two bytes of it are in the buffer; and
`handle_msg` does not if and only if it is no alert, or has one or two bytes. -/
theorem noPanic_iff (drained : Option (List UInt8)) (calls : List KtlsCall) (s : Connection)
    (h : run step (start drained) calls = some s) (t : UInt8) (hccs : t ≠ 20) (hdata : t ≠ 23)
    (payload : List UInt8) (size : ℕ) (hsize : size ≠ 0) (read : InnerPoll)
    (closeNotify : Option IoError) :
    ((∀ message, (s.stream.pollRead size ⟨read, controlMsg t payload size, closeNotify⟩).poll ≠
          .panic message) ↔
        (s.stream.FetchesControl size ⟨read, controlMsg t payload size, closeNotify⟩ → t = 21 →
          payload ≠ [] ∧ (size ≤ 2 ∨ payload.length ≤ 2))) ∧
      ((s.stream.handleMsg (controlMsg t payload handleMsgSize) closeNotify).result = none ↔
        (t = 21 → payload ≠ [] ∧ payload.length ≤ 2)) := by
  constructor
  · rw [← not_exists, KtlsStream.pollRead_eq_panic_iff (indexed_of_run h) hsize rfl,
      control_eq_panic_iff hccs hdata, List.take_take, Nat.min_self, ← take_bytes_iff hsize]
    exact ⟨fun hno hfetch halert hbytes => hno ⟨hfetch, halert, hbytes⟩,
      fun hyes hpanic => hyes hpanic.1 hpanic.2.1 hpanic.2.2⟩
  · have hlarge : ¬ handleMsgSize ≤ 2 := by decide
    have hbytes := take_bytes_iff (by decide : handleMsgSize ≠ 0) payload
    rw [or_iff_right hlarge] at hbytes
    rw [controlMsg, KtlsStream.handleMsg_eq_none_iff, control_eq_panic_iff hccs hdata,
      List.take_take, Nat.min_self, ← hbytes, not_and]

/-- A stream that has delivered a drained byte. -/
def afterDrain : Connection := ⟨⟨false, false, none⟩, []⟩

theorem noPanic_iff_ticket :
    (∀ message, (afterDrain.stream.pollRead 16
        ⟨.err (some eio), controlMsg 22 [4, 0, 0] 16, none⟩).poll ≠ .panic message) ∧
      (afterDrain.stream.handleMsg (controlMsg 22 [4, 0, 0] handleMsgSize) none).result = none := by
  have hrun : run step (start (some [7])) [.read 16 ⟨.pending, .err eagain, none⟩] =
      some afterDrain := rfl
  obtain ⟨hread, hhandle⟩ := noPanic_iff (some [7]) _ afterDrain hrun 22 (by decide) (by decide)
    [4, 0, 0] 16 (by decide) (.err (some eio)) none
  exact ⟨hread.mpr fun _ halert => absurd halert (by decide),
    hhandle.mpr fun halert => absurd halert (by decide)⟩

/-- **An alert of three bytes, or of none.**  Both readers panic. -/
theorem not_noPanic_odd_alerts :
    let s : KtlsStream := KtlsStream.new none
    (s.pollRead 16 ⟨.err (some eio), controlMsg 21 [2, 80, 0] 16, none⟩).poll =
        .panic "TLS alerts are exactly 2 bytes, your kTLS is misbehaving" ∧
      (s.handleMsg (controlMsg 21 [2, 80, 0] handleMsgSize) none).result =
        some "TLS alerts are exactly 2 bytes, your kTLS is misbehaving" ∧
      (s.pollRead 16 ⟨.err (some eio), controlMsg 21 [] 16, none⟩).poll =
        .panic "expected data in iovs" ∧
      (s.handleMsg (controlMsg 21 [] handleMsgSize) none).result =
        some "expected data in iovs" := by
  refine ⟨by decide, by decide, by decide, by decide⟩

end Connection
end Turbine
