import Turbine.Ktls.Stream

/-!
# Closing a kernel TLS stream

A session ends with a `close_notify` in each direction, and nothing may follow one.  Three
functions of `KtlsStream` send it.  `poll_shutdown` does when the caller is done;
`poll_read` and `handle_msg` do when the peer closes, in reply to its alert.  They share the
flag `write_closed`: all three set it before they send, `poll_write` and `poll_shutdown`
look at it, and the other two do not.

A `Connection` is a stream together with the records it has put on the socket, and its steps
are the calls, in any order, with whatever the kernel answers.  `write_closed` does its work
for the calls that look at it: once a `close_notify` is out, neither of them sends
(`Marked`).  What is left are the replies to alerts, and `quiet_iff` says that
these are all there is: nothing has followed a `close_notify` exactly if no call has replied
to an alert after one.
-/

namespace Turbine

/-- What `poll_write` answers, of the stream and of the inner stream. -/
inductive WritePoll where
  | pending
  | ready (n : ℕ)
  | err (e : IoError)

/-- A record on the socket. -/
inductive SentRecord where
  | data (bytes : List UInt8)
  | closeNotify
  deriving DecidableEq

/-- The records that `send_close_notify` has sent, when `sendmsg` answered `none` for a
success. -/
def sendCloseNotify : Option IoError → List SentRecord
  | none => [.closeNotify]
  | some _ => []

/-- The size of the buffer of `handle_msg`. -/
def handleMsgSize : ℕ := 1024

/-- What a call of the write side, or of `handle_msg`, has done. -/
structure KtlsCalled (ρ : Type) where
  stream : KtlsStream
  result : ρ
  sent : List SentRecord := []
  /-- How often a `close_notify` was sent, or tried to be sent. -/
  closeNotifies : ℕ := 0

namespace KtlsStream

/-- `KtlsStream::poll_write`, of `buf`; `inner` is what the inner stream answers. -/
def pollWrite (s : KtlsStream) (buf : List UInt8) (inner : WritePoll) : KtlsCalled WritePoll :=
  if s.writeClosed then { stream := s, result := .ready 0 }
  else
    { stream := s
      result := inner
      sent := match inner with
        | .ready n => if buf.take n = [] then [] else [.data (buf.take n)]
        | _ => [] }

/-- `KtlsStream::poll_shutdown`; `inner` is what `poll_shutdown` of the inner stream
answers. -/
def pollShutdown (s : KtlsStream) (closeNotify : Option IoError) (inner : Poll) : KtlsCalled Poll :=
  if s.writeClosed then { stream := s, result := inner }
  else
    { stream := { s with writeClosed := true }
      result := match closeNotify with
        | some e => .err e
        | none => inner
      sent := sendCloseNotify closeNotify
      closeNotifies := 1 }

/-- `KtlsStream::handle_msg`; the result is the message of a panic, if there is one. -/
def handleMsg (s : KtlsStream) (recvmsg : Recvmsg) (closeNotify : Option IoError) :
    KtlsCalled (Option String) :=
  match recvmsg with
  -- `EAGAIN` and every other error: return
  | .err _ => { stream := s, result := none }
  | .ok cmsgs bytes =>
      match control handleMsgSize cmsgs bytes with
      | .panic message => { stream := s, result := some message }
      | .ignored => { stream := s, result := none }
      | .unhandled => { stream := s, result := none }
      | .close =>
          { stream := { s with readClosed := true, writeClosed := true }
            result := none
            sent := sendCloseNotify closeNotify
            closeNotifies := 1 }

end KtlsStream

/-- A call on a stream, with what the kernel answers during it. -/
inductive KtlsCall where
  | read (size : ℕ) (answers : Answers)
  | write (buf : List UInt8) (inner : WritePoll)
  | shutdown (closeNotify : Option IoError) (inner : Poll)
  | handleMsg (recvmsg : Recvmsg) (closeNotify : Option IoError)

/-- A stream, and the records it has put on the socket. -/
structure Connection where
  stream : KtlsStream
  sent : List SentRecord
  deriving DecidableEq

namespace Connection

open Runs

/-- A stream just built. -/
def start (drained : Option (List UInt8)) : Connection := ⟨KtlsStream.new drained, []⟩

/-- One call; there is none after a panic. -/
def step (s : Connection) : KtlsCall → Option Connection
  | .read size answers =>
      let p := s.stream.pollRead size answers
      match p.poll with
      | .panic _ => none
      | _ =>
          some ⟨p.stream, s.sent ++
            if p.closeNotifies = 0 then [] else sendCloseNotify answers.closeNotify⟩
  | .write buf inner =>
      let c := s.stream.pollWrite buf inner
      some ⟨c.stream, s.sent ++ c.sent⟩
  | .shutdown closeNotify inner =>
      let c := s.stream.pollShutdown closeNotify inner
      match c.result with
      | .panic _ => none
      | _ => some ⟨c.stream, s.sent ++ c.sent⟩
  | .handleMsg recvmsg closeNotify =>
      let c := s.stream.handleMsg recvmsg closeNotify
      match c.result with
      | some _ => none
      | none => some ⟨c.stream, s.sent ++ c.sent⟩

/-- Nothing has been sent after a `close_notify`. -/
def Quiet (s : Connection) : Prop :=
  ∀ pre post, s.sent = pre ++ .closeNotify :: post → post = []

/-- The call gets an alert that closes the session, and `sendmsg` lets the reply through. -/
def RepliesToAlert (s : Connection) : KtlsCall → Prop
  | .read size answers =>
      s.stream.FetchesControl size answers ∧ answers.recvmsg.ClosingAlert size ∧
        answers.closeNotify = none
  | .handleMsg recvmsg closeNotify => recvmsg.ClosingAlert handleMsgSize ∧ closeNotify = none
  | _ => False

/-- No `close_notify` has been sent when the call replies to an alert. -/
def InTime (s : Connection) (c : KtlsCall) : Prop :=
  .closeNotify ∈ s.sent → ¬ s.RepliesToAlert c

/-! ## What a call sends -/

/-- What a call can do, as far as sending goes. -/
inductive Sends (s : Connection) (c : KtlsCall) (t : Connection) : Prop
  | nothing (hreply : ¬ s.RepliesToAlert c) (hsent : t.sent = s.sent)
      (hclosed : s.stream.writeClosed = true → t.stream.writeClosed = true)
  | data (hreply : ¬ s.RepliesToAlert c) (hopen : s.stream.writeClosed = false)
      (hstream : t.stream = s.stream) (bytes : List UInt8)
      (hsent : t.sent = s.sent ++ [.data bytes])
  | shutdown (hreply : ¬ s.RepliesToAlert c) (hopen : s.stream.writeClosed = false)
      (hclosed : t.stream.writeClosed = true) (hsent : t.sent = s.sent ++ [.closeNotify])
  | reply (hreply : s.RepliesToAlert c) (hclosed : t.stream.writeClosed = true)
      (hsent : t.sent = s.sent ++ [.closeNotify])

theorem sends_of_sendCloseNotify {s t : Connection} {c : KtlsCall} (answer : Option IoError)
    (hreply : s.RepliesToAlert c ↔ answer = none) (hclosed : t.stream.writeClosed = true)
    (hsent : t.sent = s.sent ++ sendCloseNotify answer) : Sends s c t := by
  cases answer with
  | none => exact .reply (hreply.mpr rfl) hclosed hsent
  | some e =>
    rw [sendCloseNotify, List.append_nil] at hsent
    exact .nothing (fun h => absurd (hreply.mp h) (by simp)) hsent fun _ => hclosed

theorem sends_of_read {s t : Connection} {size : ℕ} {answers : Answers}
    (h : s.step (.read size answers) = some t) : Sends s (.read size answers) t := by
  have hpanic : ∀ message, (s.stream.pollRead size answers).poll ≠ .panic message := by
    intro message hp
    simp only [step, hp] at h
    exact absurd h (by simp)
  have ht : t = ⟨(s.stream.pollRead size answers).stream, s.sent ++
      if (s.stream.pollRead size answers).closeNotifies = 0 then []
      else sendCloseNotify answers.closeNotify⟩ := by
    simp only [step] at h
    cases hp : (s.stream.pollRead size answers).poll with
    | panic message => exact absurd hp (hpanic message)
    | _ => exact (Option.some.inj h).symm
  cases s.stream.pollRead_shape size answers with
  | idle hidle hp =>
    rw [hp] at ht
    refine .nothing ?_ (by simp [ht]) (by simp [ht])
    rintro ⟨⟨hopen, hsize, -⟩, -⟩
    rcases hidle with hclosed | hzero
    · exact absurd (hopen.symm.trans hclosed) (by simp)
    · exact hsize hzero
  | drain _ _ i D hdrained _ hstream _ _ _ hclose =>
    rw [hstream, hclose] at ht
    refine .nothing ?_ (by simp [ht]) (by simp [ht])
    rintro ⟨⟨-, -, hnone, -⟩, -⟩
    exact absurd (hdrained.symm.trans hnone) (by simp)
  | data _ _ _ bytes hread hp =>
    rw [hp] at ht
    refine .nothing ?_ (by simp [ht]) (by simp [ht])
    rintro ⟨⟨-, -, -, heio⟩, -⟩
    exact absurd (hread.symm.trans heio) (by simp)
  | wait hcontrol _ _ hstream _ hclose =>
    rw [hstream, hclose] at ht
    refine .nothing ?_ (by simp [ht]) (by simp [ht])
    rintro ⟨hfetch, halert, -⟩
    exact (hcontrol hfetch).1 halert
  | panic message hp _ => exact absurd hp (hpanic message)
  | unhandled _ halert hp =>
    rw [hp] at ht
    refine .nothing ?_ (by simp [ht]) (by simp [ht])
    rintro ⟨-, hclosing, -⟩
    exact Recvmsg.not_closingAlert halert hclosing
  | close hfetch halert hstream _ hclose _ =>
    rw [hstream, hclose] at ht
    refine sends_of_sendCloseNotify answers.closeNotify ?_ (by simp [ht]) (by simp [ht])
    exact ⟨fun hreply => hreply.2.2, fun hnone => ⟨hfetch, halert, hnone⟩⟩

theorem sends_of_write {s t : Connection} {buf : List UInt8} {inner : WritePoll}
    (h : s.step (.write buf inner) = some t) : Sends s (.write buf inner) t := by
  obtain rfl := Option.some.inj h
  unfold KtlsStream.pollWrite
  split
  · exact .nothing id (List.append_nil _) id
  · rename_i hopen
    have hopen' : s.stream.writeClosed = false := by simpa using hopen
    cases inner with
    | ready n =>
      by_cases hnil : buf.take n = []
      · exact .nothing id (by simp [hnil]) id
      · exact .data id hopen' rfl (buf.take n) (by simp [hnil])
    | _ => exact .nothing id (List.append_nil _) id

theorem sends_of_shutdown {s t : Connection} {closeNotify : Option IoError} {inner : Poll}
    (h : s.step (.shutdown closeNotify inner) = some t) :
    Sends s (.shutdown closeNotify inner) t := by
  simp only [step] at h
  split at h
  · exact absurd h (by simp)
  · obtain rfl := Option.some.inj h
    unfold KtlsStream.pollShutdown
    split
    · exact .nothing id (List.append_nil _) id
    · rename_i hopen
      have hopen' : s.stream.writeClosed = false := by simpa using hopen
      cases closeNotify with
      | none => exact .shutdown id hopen' rfl rfl
      | some e => exact .nothing id (List.append_nil _) fun _ => rfl

theorem sends_of_handleMsg {s t : Connection} {recvmsg : Recvmsg} {closeNotify : Option IoError}
    (h : s.step (.handleMsg recvmsg closeNotify) = some t) :
    Sends s (.handleMsg recvmsg closeNotify) t := by
  simp only [step] at h
  split at h
  · exact absurd h (by simp)
  · rename_i hresult
    obtain rfl := Option.some.inj h
    cases recvmsg with
    | err errno =>
      refine .nothing ?_ (List.append_nil _) id
      rintro ⟨⟨_, _, heq, -⟩, -⟩
      exact absurd heq (by simp)
    | ok cmsgs bytes =>
      rcases control_cases handleMsgSize cmsgs bytes with ⟨message, hc⟩ | hc | ⟨hc, halert⟩ |
        ⟨hc, halert⟩
      · simp only [KtlsStream.handleMsg, hc] at hresult
        exact absurd hresult (by simp)
      · refine .nothing ?_ (by simp [KtlsStream.handleMsg, hc]) (by simp [KtlsStream.handleMsg, hc])
        rintro ⟨hclosing, -⟩
        exact absurd (hc.symm.trans (control_of_closingAlert hclosing)) (by simp)
      · refine sends_of_sendCloseNotify closeNotify ?_ (by simp [KtlsStream.handleMsg, hc])
          (by simp [KtlsStream.handleMsg, hc])
        exact ⟨fun hreply => hreply.2, fun hnone => ⟨halert, hnone⟩⟩
      · refine .nothing ?_ (by simp [KtlsStream.handleMsg, hc]) (by simp [KtlsStream.handleMsg, hc])
        rintro ⟨hclosing, -⟩
        exact Recvmsg.not_closingAlert halert hclosing

/-- **What a call sends.**  Unless it replies to an alert, a call sends only while
`write_closed` is not set, and a `close_notify` sets it. -/
theorem sends_of_step {s t : Connection} {c : KtlsCall} (h : s.step c = some t) : Sends s c t := by
  cases c with
  | read size answers => exact sends_of_read h
  | write buf inner => exact sends_of_write h
  | shutdown closeNotify inner => exact sends_of_shutdown h
  | handleMsg recvmsg closeNotify => exact sends_of_handleMsg h

/-! ## Runs -/

/-- A `close_notify` has been sent only when `write_closed` is set. -/
def Marked (s : Connection) : Prop := .closeNotify ∈ s.sent → s.stream.writeClosed = true

theorem marked_of_step {s t : Connection} {c : KtlsCall} (hs : s.Marked) (h : s.step c = some t) :
    t.Marked := by
  intro hmem
  cases sends_of_step h with
  | nothing _ hsent hclosed =>
    rw [hsent] at hmem
    exact hclosed (hs hmem)
  | data _ hopen _ bytes hsent =>
    rw [hsent, List.mem_append, List.mem_singleton] at hmem
    rcases hmem with hmem | heq
    · exact absurd ((hs hmem).symm.trans hopen) (by simp)
    · exact absurd heq (by simp)
  | shutdown _ _ hclosed _ => exact hclosed
  | reply _ hclosed _ => exact hclosed

/-- One record more may follow exactly if none of those before is a `close_notify`. -/
theorem quiet_snoc_iff {s t : Connection} {r : SentRecord} (ht : t.sent = s.sent ++ [r]) :
    t.Quiet ↔ .closeNotify ∉ s.sent := by
  constructor
  · intro hquiet hmem
    obtain ⟨pre, post, hsplit⟩ := List.append_of_mem hmem
    have hnil := hquiet pre (post ++ [r]) (by rw [ht, hsplit, List.append_assoc, List.cons_append])
    exact absurd hnil (by simp)
  · intro hmem pre post heq
    rcases eq_append_cons_snoc (ht.symm.trans heq) with ⟨rfl, rfl⟩ | ⟨post', hsplit⟩
    · rw [ht] at heq
      exact (List.cons.inj (List.append_cancel_left heq)).2.symm
    · exact absurd (hsplit ▸ List.mem_append_right _ List.mem_cons_self) hmem

/-- A step keeps the connection quiet exactly if it is in time. -/
theorem quiet_of_step_iff {s t : Connection} {c : KtlsCall} (hs : s.Marked)
    (h : s.step c = some t) : t.Quiet ↔ s.Quiet ∧ s.InTime c := by
  have hquiet : .closeNotify ∉ s.sent → s.Quiet := by
    intro hmem pre post heq
    exact absurd (heq ▸ List.mem_append_right _ List.mem_cons_self) hmem
  -- while `write_closed` is not set nothing can be late
  have hfirst : s.stream.writeClosed = false → .closeNotify ∉ s.sent := by
    intro hopen hmem
    exact absurd ((hs hmem).symm.trans hopen) (by simp)
  cases sends_of_step h with
  | nothing hreply hsent _ =>
    have hsame : t.Quiet ↔ s.Quiet := by rw [Quiet, hsent, Quiet]
    rw [hsame]
    exact ⟨fun hq => ⟨hq, fun _ => hreply⟩, And.left⟩
  | data hreply hopen _ _ hsent =>
    have hmem := hfirst hopen
    exact iff_of_true ((quiet_snoc_iff hsent).mpr hmem) ⟨hquiet hmem, fun _ => hreply⟩
  | shutdown hreply hopen _ hsent =>
    have hmem := hfirst hopen
    exact iff_of_true ((quiet_snoc_iff hsent).mpr hmem) ⟨hquiet hmem, fun _ => hreply⟩
  | reply hreply _ hsent =>
    rw [quiet_snoc_iff hsent]
    exact ⟨fun hmem => ⟨hquiet hmem, fun hmem' => absurd hmem' hmem⟩,
      fun hq hmem => hq.2 hmem hreply⟩

/-- **When nothing follows a `close_notify`.**  For every sequence of calls and whatever the
kernel answers: nothing has been sent after a `close_notify` if and only if no call has
replied to an alert after one had been sent. -/
theorem quiet_iff (drained : Option (List UInt8)) (calls : List KtlsCall) (s : Connection)
    (h : run step (start drained) calls = some s) :
    s.Quiet ↔ Allowed step InTime (start drained) calls := by
  refine run_iff_allowed (I := Marked) (fun hmem => absurd hmem (by simp [start])) ?_
    (fun _ _ _ => marked_of_step) (fun _ _ _ => quiet_of_step_iff) h
  intro pre post heq
  exact absurd heq (by simp [start])

/-- A write, the peer's `close_notify`, and then a shutdown and a write that come too late. -/
def closedByPeer : List KtlsCall :=
  [.write [1, 2, 3] (.ready 2), .read 16 ⟨.err (some eio), alertMsg 1 0, none⟩,
    .shutdown none .ready, .write [3] (.ready 1)]

theorem quiet_iff_closedByPeer :
    ∃ s, run step (start none) closedByPeer = some s ∧ s.sent = [.data [1, 2], .closeNotify] ∧
      Allowed step InTime (start none) closedByPeer := by
  have hrun : run step (start none) closedByPeer =
      some ⟨⟨true, true, none⟩, [.data [1, 2], .closeNotify]⟩ := rfl
  refine ⟨_, hrun, rfl, (quiet_iff none closedByPeer _ hrun).mp ?_⟩
  exact (quiet_snoc_iff (s := ⟨⟨true, true, none⟩, [.data [1, 2]]⟩) rfl).mpr (by simp)

/-- **A second `close_notify`.**  The peer sends a `close_notify` and then a fatal alert, and
they are fetched by `poll_read` and by `handle_msg`: both are replied to. -/
theorem not_quiet_two_alerts :
    ∃ s, run step (start none)
        [.read 16 ⟨.err (some eio), alertMsg 1 0, none⟩, .handleMsg (alertMsg 2 80) none] = some s ∧
      s.sent = [.closeNotify, .closeNotify] ∧ ¬ s.Quiet := by
  refine ⟨⟨⟨true, true, none⟩, [.closeNotify, .closeNotify]⟩, rfl, rfl, fun hquiet => ?_⟩
  exact absurd (hquiet [] [.closeNotify] rfl) (by simp)

end Connection
end Turbine
