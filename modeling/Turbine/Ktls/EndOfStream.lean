import Turbine.Ktls.Stream

/-!
# The end of a kernel TLS stream

A caller takes a successful read that adds nothing to its buffer for the end of the stream,
and asks no more.  So `poll_read` may answer like that only when nothing can follow: the
inner stream has ended, or an alert has closed the session.

What a caller has been told is kept in a `ReadSide`, with whether the inner stream has ended
and with the alerts that have been fetched, as the peer has sent them.  The flag
`read_closed` is the stream's own opinion, and what it stands for is looked up among the
alerts.

Of all the ways out of `poll_read` two do not respect the rule, and both are about an alert
that is neither a `close_notify` nor fatal.  Records that are not alerts and are ignored
leave the call with `Pending`; such an alert leaves it with a success, although nothing has
been read and nothing is closed.  And when the buffer has room for one byte only, the source
has half the alert, takes it for a `close_notify` and closes the stream: the end is reported,
and what the peer sends after its warning is never read.  `honest_iff` says that there is no
other way.
-/

namespace Turbine

/-- The read was answered with no bytes. -/
def InnerPoll.isEmpty : InnerPoll → Bool
  | .ready [] => true
  | _ => false

/-- The bytes of the alert, if the record that `recvmsg` gives is one.  They are those that
the peer has sent; how many of them are in the buffer is another matter. -/
def Recvmsg.alert : Recvmsg → Option (List UInt8)
  | .ok (.tlsGetRecordType t :: _) bytes => if t = 21 then some bytes else none
  | _ => none

/-- The alert that there is to fetch: the read fails with `EIO`, and `recvmsg` gives it. -/
def Answers.alert (answers : Answers) : Option (List UInt8) :=
  match answers.read with
  | .err e => if e = some eio then answers.recvmsg.alert else none
  | _ => none

/-- The bytes are those of a fatal alert, or of a `close_notify`. -/
def ClosesSession (alert : List UInt8) : Prop := alert[0]? = some 2 ∨ alert[1]? = some 0

instance : DecidablePred ClosesSession :=
  fun alert => inferInstanceAs (Decidable (alert[0]? = some 2 ∨ alert[1]? = some 0))

theorem Recvmsg.alert_eq_some {r : Recvmsg} {alert : List UInt8} (h : r.alert = some alert) :
    ∃ cmsgs, r = .ok (.tlsGetRecordType 21 :: cmsgs) alert := by
  unfold Recvmsg.alert at h
  split at h
  · rename_i t cmsgs bytes
    obtain ⟨rfl, hbytes⟩ := Option.ite_none_right_eq_some.mp h
    exact ⟨cmsgs, by rw [Option.some.inj hbytes]⟩
  · exact absurd h (by simp)

theorem Answers.alert_eq_some {answers : Answers} {alert : List UInt8}
    (h : answers.alert = some alert) :
    answers.read = .err (some eio) ∧ answers.recvmsg.alert = some alert := by
  unfold Answers.alert at h
  split at h
  · rename_i e hread
    obtain ⟨rfl, hmsg⟩ := Option.ite_none_right_eq_some.mp h
    exact ⟨hread, hmsg⟩
  · exact absurd h (by simp)

/-- An alert that has one byte or two in the buffer closes the session or is another one. -/
theorem closing_or_other {size : ℕ} {alert : List UInt8} (cmsgs : List ControlMessage)
    (hsome : alert.take size ≠ []) (htwo : (alert.take size).length ≤ 2) :
    (Recvmsg.ok (.tlsGetRecordType 21 :: cmsgs) alert).ClosingAlert size ∨
      (Recvmsg.ok (.tlsGetRecordType 21 :: cmsgs) alert).OtherAlert size := by
  match hbytes : alert.take size with
  | [] => exact absurd hbytes hsome
  | [level] => exact Or.inl ⟨cmsgs, alert, rfl, Or.inl ⟨level, hbytes⟩⟩
  | [level, description] =>
    by_cases hclose : level = 2 ∨ description = 0
    · exact Or.inl ⟨cmsgs, alert, rfl, Or.inr ⟨level, description, hbytes, hclose⟩⟩
    · obtain ⟨hlevel, hdescription⟩ := not_or.mp hclose
      exact Or.inr ⟨cmsgs, alert, rfl, level, description, hbytes, hlevel, hdescription⟩
  | _ :: _ :: _ :: rest =>
    rw [hbytes] at htwo
    exact absurd htwo (by simp)

/-- The bytes of an alert that is another one, as the peer has sent it. -/
theorem not_closesSession_of_take {size : ℕ} {alert : List UInt8} {level description : UInt8}
    (hbytes : alert.take size = [level, description]) (hlevel : level ≠ 2)
    (hdescription : description ≠ 0) : ¬ ClosesSession alert := by
  have hsplit : alert = [level, description] ++ alert.drop size := by
    rw [← hbytes, List.take_append_drop]
  rw [hsplit, ClosesSession]
  simp [hlevel, hdescription]

/-- A stream, and what is known about its end. -/
structure ReadSide where
  stream : KtlsStream
  /-- The alerts that have been fetched. -/
  alerts : List (List UInt8)
  /-- An inner read has returned no bytes. -/
  innerEnded : Bool
  /-- A call has succeeded without adding a byte. -/
  told : Bool
  deriving DecidableEq

namespace ReadSide

open Runs

/-- A stream just built. -/
def start (drained : Option (List UInt8)) : ReadSide :=
  ⟨KtlsStream.new drained, [], false, false⟩

/-- What the call does. -/
def polled (s : ReadSide) (c : ReadCall) : Polled := s.stream.pollRead c.size c.answers

/-- The alert that the call fetches. -/
def fetched (s : ReadSide) (c : ReadCall) : Option (List UInt8) :=
  if (s.polled c).innerRead then c.answers.alert else none

/-- The alerts that have been fetched when the call returns. -/
def received (s : ReadSide) (c : ReadCall) : List (List UInt8) :=
  s.alerts ++ (s.fetched c).toList

/-- One call; there is none after a panic. -/
def step (s : ReadSide) (c : ReadCall) : Option ReadSide :=
  match (s.polled c).poll with
  | .panic _ => none
  | _ =>
      some
        { stream := (s.polled c).stream
          alerts := s.received c
          innerEnded := s.innerEnded || ((s.polled c).innerRead && c.answers.read.isEmpty)
          told := s.told || ((s.polled c).poll = .ready && (s.polled c).put = []) }

/-- The call succeeds without adding a byte only at the end of the inner stream or after a
`close_notify` or a fatal alert, the read side is closed only after one of these, and no byte
is added after a success without any. -/
structure Honest (s : ReadSide) (c : ReadCall) : Prop where
  ends : (s.polled c).poll = .ready → (s.polled c).put = [] →
    ((s.polled c).innerRead = true ∧ c.answers.read = .ready []) ∨
      ∃ alert ∈ s.received c, ClosesSession alert
  closes : (s.polled c).stream.readClosed = true → ∃ alert ∈ s.received c, ClosesSession alert
  final : s.told = true → (s.polled c).put = []

/-- An inner stream that has ended has no more bytes. -/
def FinalEnd (s : ReadSide) (c : ReadCall) : Prop :=
  s.innerEnded = true → ∀ bytes, c.answers.read = .ready bytes → bytes = []

/-- An alert that the call fetches, with one byte or two of it in the buffer, is a
`close_notify` or fatal. -/
def NoOtherAlert (s : ReadSide) (c : ReadCall) : Prop :=
  ∀ alert, s.fetched c = some alert → alert.take c.size ≠ [] →
    (alert.take c.size).length ≤ 2 → ClosesSession alert

instance (s : ReadSide) (c : ReadCall) : Decidable (s.NoOtherAlert c) :=
  inferInstanceAs (Decidable (∀ alert ∈ s.fetched c, _ → _ → _))

theorem step_eq_some {s t : ReadSide} {c : ReadCall} (h : s.step c = some t) :
    (∀ message, (s.polled c).poll ≠ .panic message) ∧
      t.stream = (s.polled c).stream ∧ t.alerts = s.received c ∧
      t.innerEnded = (s.innerEnded || ((s.polled c).innerRead && c.answers.read.isEmpty)) ∧
      t.told = (s.told || ((s.polled c).poll = .ready && (s.polled c).put = [])) := by
  unfold step at h
  cases hp : (s.polled c).poll with
  | panic message =>
    rw [hp] at h
    exact absurd h (by simp)
  | _ =>
    rw [hp] at h
    obtain rfl := Option.some.inj h
    exact ⟨by simp, rfl, rfl, rfl, rfl⟩

/-! ## The alert that a call fetches -/

theorem fetched_eq_none {s : ReadSide} {c : ReadCall} (h : (s.polled c).innerRead = false) :
    s.fetched c = none := by
  rw [fetched, h]
  rfl

theorem received_of_none {s : ReadSide} {c : ReadCall} (h : s.fetched c = none) :
    s.received c = s.alerts := by
  rw [received, h]
  exact List.append_nil _

theorem mem_received {s : ReadSide} {c : ReadCall} {alert : List UInt8} :
    alert ∈ s.received c ↔ alert ∈ s.alerts ∨ s.fetched c = some alert := by
  rw [received, List.mem_append, Option.mem_toList]

/-- The call that fetches an alert reads the socket, and `recvmsg` gives it. -/
theorem fetchesControl_of_fetched {s : ReadSide} {c : ReadCall} {alert : List UInt8}
    (h : s.fetched c = some alert) :
    s.stream.FetchesControl c.size c.answers ∧
      ∃ cmsgs, c.answers.recvmsg = .ok (.tlsGetRecordType 21 :: cmsgs) alert := by
  obtain ⟨hinner, halert⟩ := Option.ite_none_right_eq_some.mp h
  obtain ⟨hread, hmsg⟩ := Answers.alert_eq_some halert
  exact ⟨KtlsStream.fetchesControl_of_innerRead hinner hread, Recvmsg.alert_eq_some hmsg⟩

theorem fetched_of_fetchesControl {s : ReadSide} {c : ReadCall} {alert : List UInt8}
    {cmsgs : List ControlMessage} (hfetch : s.stream.FetchesControl c.size c.answers)
    (hmsg : c.answers.recvmsg = .ok (.tlsGetRecordType 21 :: cmsgs) alert) :
    s.fetched c = some alert := by
  have hinner : (s.polled c).innerRead = true := by
    rw [polled, KtlsStream.pollRead_of_fetchesControl hfetch, KtlsStream.innerRead_readInner]
  rw [fetched, hinner, Answers.alert, hfetch.2.2.2, hmsg]
  rfl

/-- A call that fetches an alert and does not panic finds one of the two in its buffer. -/
theorem closing_or_other_of_fetched {s : ReadSide} {c : ReadCall} {alert : List UInt8}
    (h : s.fetched c = some alert) (hpanic : ∀ message, (s.polled c).poll ≠ .panic message) :
    c.answers.recvmsg.ClosingAlert c.size ∨ c.answers.recvmsg.OtherAlert c.size := by
  obtain ⟨hfetch, cmsgs, hmsg⟩ := fetchesControl_of_fetched h
  rw [hmsg]
  refine (control_alert_cases c.size cmsgs alert).resolve_left ?_
  rintro ⟨message, hcontrol⟩
  refine hpanic message ?_
  rw [polled, KtlsStream.pollRead_of_fetchesControl hfetch]
  simp only [KtlsStream.readInner, hfetch.2.2.2, reduceIte, hmsg, hcontrol]

/-- An alert that closes the stream, as the peer has sent it. -/
theorem NoOtherAlert.closesSession {s : ReadSide} {c : ReadCall} (h : s.NoOtherAlert c)
    (hfetch : s.stream.FetchesControl c.size c.answers)
    (halert : c.answers.recvmsg.ClosingAlert c.size) :
    ∃ alert, s.fetched c = some alert ∧ ClosesSession alert := by
  obtain ⟨cmsgs, alert, hmsg, hbytes⟩ := halert
  have hfetched := fetched_of_fetchesControl hfetch hmsg
  refine ⟨alert, hfetched, h alert hfetched ?_ ?_⟩
  · rcases hbytes with ⟨level, hbytes⟩ | ⟨level, description, hbytes, -⟩
    all_goals simp [hbytes]
  · rcases hbytes with ⟨level, hbytes⟩ | ⟨level, description, hbytes, -⟩
    all_goals simp [hbytes]

theorem NoOtherAlert.not_otherAlert {s : ReadSide} {c : ReadCall} (h : s.NoOtherAlert c)
    (hfetch : s.stream.FetchesControl c.size c.answers) :
    ¬ c.answers.recvmsg.OtherAlert c.size := by
  rintro ⟨cmsgs, alert, hmsg, level, description, hbytes, hlevel, hdescription⟩
  refine not_closesSession_of_take hbytes hlevel hdescription ?_
  exact h alert (fetched_of_fetchesControl hfetch hmsg) (by simp [hbytes]) (by simp [hbytes])

/-! ## The invariant -/

/-- Something is left of what is kept of the drained bytes, the read side is closed after an
alert that closes the session and after nothing else, and a caller that has been told the
end has been told the truth. -/
structure Truthful (s : ReadSide) : Prop where
  rest : ∀ i D, s.stream.drained = some (i, D) → i < D.length
  closed : s.stream.readClosed = true ↔ ∃ alert ∈ s.alerts, ClosesSession alert
  told : s.told = true →
    s.stream.readClosed = true ∨ (s.innerEnded = true ∧ s.stream.drained = none)

theorem truthful_start {drained : Option (List UInt8)} (h : drained ≠ some []) :
    (start drained).Truthful := by
  refine ⟨fun i D heq => ?_, ?_, fun htold => absurd htold (by simp [start])⟩
  · cases drained with
    | none => exact absurd heq (by simp [start, KtlsStream.new])
    | some D' =>
      obtain ⟨rfl, rfl⟩ := Prod.mk.inj (Option.some.inj heq)
      exact List.length_pos_iff.mpr fun hnil => h (congrArg some hnil)
  · exact iff_of_false (by simp [start, KtlsStream.new]) (by simp [start])

/-- The bytes of a drain that has some left. -/
theorem take_drop_ne_nil {D : List UInt8} {i size : ℕ} (hi : i < D.length) (hsize : size ≠ 0) :
    (D.drop i).take (min size (D.length - i)) ≠ [] := by
  intro hnil
  have hlen := congrArg List.length hnil
  simp only [List.length_take, List.length_drop, List.length_nil] at hlen
  omega

/-- Nobody has been told the end while drained bytes are left. -/
theorem Truthful.told_eq_false {s : ReadSide} {i : ℕ} {D : List UInt8} (hs : s.Truthful)
    (hopen : s.stream.readClosed = false) (hdrained : s.stream.drained = some (i, D)) :
    s.told = false := by
  rw [Bool.eq_false_iff]
  intro htold
  rcases hs.told htold with hclosed | ⟨-, hnone⟩
  · exact absurd (hopen.symm.trans hclosed) (by simp)
  · exact absurd (hdrained.symm.trans hnone) (by simp)

/-- What the read side is closed after is kept. -/
theorem Truthful.closes {s : ReadSide} (hs : s.Truthful) (c : ReadCall)
    (h : s.stream.readClosed = true) : ∃ alert ∈ s.received c, ClosesSession alert := by
  obtain ⟨alert, hmem, hcloses⟩ := hs.closed.mp h
  exact ⟨alert, mem_received.mpr (Or.inl hmem), hcloses⟩

/-- On an open stream, an alert that closes the session is the one that is being fetched. -/
theorem Truthful.closesSession {s : ReadSide} {c : ReadCall} {alert : List UInt8}
    (hs : s.Truthful) (hopen : s.stream.readClosed = false) (hfetched : s.fetched c = some alert)
    (h : ∃ alert ∈ s.received c, ClosesSession alert) : ClosesSession alert := by
  obtain ⟨alert', hmem, hcloses⟩ := h
  rcases mem_received.mp hmem with hold | hnew
  · exact absurd (hopen.symm.trans (hs.closed.mpr ⟨alert', hold, hcloses⟩)) (by simp)
  · exact Option.some.inj (hfetched.symm.trans hnew) ▸ hcloses

/-- A call that leaves the stream as it is tells no lie, if it fetches no alert and says
nothing new. -/
theorem Truthful.of_same {s t : ReadSide} (hs : s.Truthful) (hsame : t.stream = s.stream)
    (halerts : t.alerts = s.alerts) (hended : s.innerEnded = true → t.innerEnded = true)
    (hnew : t.told = true → s.told = true ∨ s.stream.readClosed = true ∨
      (t.innerEnded = true ∧ s.stream.drained = none)) :
    t.Truthful := by
  refine ⟨hsame ▸ hs.rest, by rw [hsame, halerts, hs.closed], fun htold => ?_⟩
  rw [hsame]
  rcases hnew htold with hold | hend
  · exact (hs.told hold).imp_right fun hover => ⟨hended hover.1, hover.2⟩
  · exact hend

theorem truthful_of_step {s t : ReadSide} {c : ReadCall} (hs : s.Truthful) (hsize : c.size ≠ 0)
    (halert : s.NoOtherAlert c) (h : s.step c = some t) : t.Truthful := by
  obtain ⟨hpanic, hstream, halerts, hended, htold⟩ := step_eq_some h
  have hkeep : s.innerEnded = true → t.innerEnded = true := fun he => by rw [hended, he]; rfl
  have hsame : s.fetched c = none → t.alerts = s.alerts :=
    fun hnone => halerts.trans (received_of_none hnone)
  cases s.stream.pollRead_shape c.size c.answers with
  | idle hidle hp =>
    have hnone : s.fetched c = none := fetched_eq_none (by rw [polled, hp])
    refine hs.of_same (by rw [hstream, polled, hp]) (hsame hnone) hkeep fun _ => ?_
    exact Or.inr (Or.inl (hidle.resolve_right hsize))
  | drain hopen _ i D hdrained _ hstream' _ hput hinner _ =>
    have hlt := hs.rest i D hdrained
    rw [polled, hstream'] at hstream
    refine ⟨fun j E heq => ?_, ?_, fun ht => ?_⟩
    · rw [hstream] at heq
      simp only at heq
      split at heq
      · exact absurd heq (by simp)
      · obtain ⟨rfl, rfl⟩ := Prod.mk.inj (Option.some.inj heq)
        omega
    · rw [hstream, hsame (fetched_eq_none hinner)]
      exact hs.closed
    · have hnil : (s.polled c).put ≠ [] := hput ▸ take_drop_ne_nil hlt hsize
      rw [htold, decide_eq_false hnil, Bool.and_false, Bool.or_false,
        hs.told_eq_false hopen hdrained] at ht
      exact absurd ht (by simp)
  | data _ _ hdrained bytes hread hp =>
    have hnone : s.fetched c = none := by
      rw [fetched, Answers.alert, hread]
      exact ite_self none
    rw [polled, hp] at htold hended
    refine hs.of_same (by rw [hstream, polled, hp]) (hsame hnone) hkeep fun ht => ?_
    rw [htold, Bool.or_eq_true] at ht
    refine ht.imp_right fun hnow => Or.inr ?_
    have hnil : bytes = [] := by simpa [hsize] using hnow
    refine ⟨?_, hdrained⟩
    rw [hended, hread, hnil]
    exact Bool.or_true _
  | wait hcontrol _ hpoll hstream' _ _ =>
    have hnone : s.fetched c = none := by
      rw [Option.eq_none_iff_forall_ne_some]
      intro alert hfetched
      have hno := hcontrol (fetchesControl_of_fetched hfetched).1
      exact (closing_or_other_of_fetched hfetched hpanic).elim hno.1 hno.2
    refine hs.of_same (by rw [hstream, polled, hstream']) (hsame hnone) hkeep fun ht => ?_
    rw [htold, polled, decide_eq_false hpoll, Bool.false_and, Bool.or_false] at ht
    exact Or.inl ht
  | panic message hpoll _ => exact absurd hpoll (hpanic message)
  | unhandled hfetch hother _ => exact absurd hother (halert.not_otherAlert hfetch)
  | close hfetch hclosing hstream' _ _ _ =>
    rw [polled, hstream'] at hstream
    refine ⟨fun i D heq => ?_, ?_, fun _ => Or.inl (by rw [hstream])⟩
    · rw [hstream] at heq
      exact absurd (hfetch.2.2.1.symm.trans heq) (by simp)
    · obtain ⟨alert, hfetched, hcloses⟩ := halert.closesSession hfetch hclosing
      rw [hstream, halerts]
      exact iff_of_true rfl ⟨alert, mem_received.mpr (Or.inr hfetched), hcloses⟩

/-! ## One call -/

theorem honest_of_noOtherAlert {s : ReadSide} {c : ReadCall} (hs : s.Truthful)
    (hsize : c.size ≠ 0) (hfinal : s.FinalEnd c) (halert : s.NoOtherAlert c) : s.Honest c := by
  have hkept : (s.polled c).stream = s.stream → (s.polled c).stream.readClosed = true →
      ∃ alert ∈ s.received c, ClosesSession alert := by
    intro hsame hclosed
    exact hs.closes c (hsame ▸ hclosed)
  cases s.stream.pollRead_shape c.size c.answers with
  | idle hidle hp =>
    refine ⟨fun _ _ => Or.inr (hs.closes c (hidle.resolve_right hsize)), ?_, fun _ => ?_⟩
    · exact hkept (by rw [polled, hp])
    · rw [polled, hp]
  | drain hopen _ i D hdrained _ hstream _ hput _ _ =>
    have hnil := take_drop_ne_nil (hs.rest i D hdrained) hsize
    refine ⟨fun _ heq => absurd (hput.symm.trans heq) hnil, fun hclosed => ?_, fun htold => ?_⟩
    · rw [polled, hstream] at hclosed
      exact absurd (hopen.symm.trans hclosed) (by simp)
    · exact absurd ((hs.told_eq_false hopen hdrained).symm.trans htold) (by simp)
  | data hopen _ _ bytes hread hp =>
    refine ⟨fun _ hput => ?_, hkept (by rw [polled, hp]), fun htold => ?_⟩
    · rw [polled, hp] at hput ⊢
      have hnil : bytes = [] := by simpa [hsize] using hput
      exact Or.inl ⟨rfl, hnil ▸ hread⟩
    · rw [polled, hp]
      rcases hs.told htold with hclosed | ⟨hended, -⟩
      · exact absurd (hopen.symm.trans hclosed) (by simp)
      · rw [hfinal hended bytes hread]
        exact List.take_nil
  | wait _ _ hpoll hstream hput _ =>
    exact ⟨fun hready => absurd hready hpoll, hkept hstream, fun _ => hput⟩
  | panic message hpoll hput hstream =>
    exact ⟨fun hready => absurd (hpoll.symm.trans hready) (by simp), hkept hstream, fun _ => hput⟩
  | unhandled hfetch hother _ => exact absurd hother (halert.not_otherAlert hfetch)
  | close hfetch hclosing _ hput _ _ =>
    obtain ⟨alert, hfetched, hcloses⟩ := halert.closesSession hfetch hclosing
    have hreceived : ∃ alert ∈ s.received c, ClosesSession alert :=
      ⟨alert, mem_received.mpr (Or.inr hfetched), hcloses⟩
    exact ⟨fun _ _ => Or.inr hreceived, fun _ => hreceived, fun _ => hput⟩

/-- The call that fetches another alert succeeds, with nothing read and nothing closed; or it
has half of it, and closes the stream. -/
theorem noOtherAlert_of_honest {s : ReadSide} {c : ReadCall} (hs : s.Truthful)
    (h : s.Honest c) : s.NoOtherAlert c := by
  intro alert hfetched hsome htwo
  obtain ⟨hfetch, cmsgs, hmsg⟩ := fetchesControl_of_fetched hfetched
  refine hs.closesSession hfetch.1 hfetched ?_
  rcases closing_or_other cmsgs hsome htwo with hclosing | hother
  · refine h.closes ?_
    rw [polled, KtlsStream.stream_of_closingAlert hfetch (hmsg ▸ hclosing)]
  · have hp := KtlsStream.pollRead_of_otherAlert hfetch (hmsg ▸ hother)
    refine (h.ends (by rw [polled, hp]) (by rw [polled, hp])).resolve_left ?_
    rintro ⟨-, hread⟩
    exact absurd (hfetch.2.2.2.symm.trans hread) (by simp)

/-- **When the end of the stream is reported only at the end.**  For every stream built with
nothing drained or with some bytes, every sequence of calls with room in their buffers, and
every inner stream whose end is final: every call is honest about the end if and only if
every alert that one of them fetches, with one byte or two of it in the buffer, is a
`close_notify` or fatal. -/
theorem honest_iff (drained : Option (List UInt8)) (hdrained : drained ≠ some [])
    (calls : List ReadCall) (hsize : ∀ c ∈ calls, c.size ≠ 0)
    (hfinal : Allowed step FinalEnd (start drained) calls) :
    Allowed step Honest (start drained) calls ↔
      Allowed step NoOtherAlert (start drained) calls := by
  have hstart := truthful_start hdrained
  have hroom : Allowed step (fun _ c => c.size ≠ 0) (start drained) calls :=
    allowed_of_forall_mem hsize
  constructor
  · intro h
    refine Allowed.imp hstart ?_ ?_ (hroom.and h)
    · rintro s c t hs ⟨hc, hhonest⟩ ht
      exact truthful_of_step hs hc (noOtherAlert_of_honest hs hhonest) ht
    · rintro s c hs ⟨-, hhonest⟩
      exact noOtherAlert_of_honest hs hhonest
  · intro h
    refine Allowed.imp hstart ?_ ?_ (hroom.and (hfinal.and h))
    · rintro s c t hs ⟨hc, -, halert⟩ ht
      exact truthful_of_step hs hc halert ht
    · rintro s c hs ⟨hc, hend, halert⟩
      exact honest_of_noOtherAlert hs hc hend halert

/-- A call with room for four bytes. -/
def readCall (read : InnerPoll) (recvmsg : Recvmsg) : ReadCall := ⟨4, ⟨read, recvmsg, none⟩⟩

/-- The drained bytes, a session ticket, data, a `close_notify`, and then one more call. -/
def readToEnd : List ReadCall :=
  [readCall .pending (.err eagain),
    readCall (.err (some eio)) (.ok [.tlsGetRecordType 22] [4, 0, 0]),
    readCall (.ready [1, 2, 3]) (.err eagain),
    readCall (.err (some eio)) (alertMsg 1 0),
    readCall .pending (.err eagain)]

theorem honest_iff_readToEnd :
    run step (start (some [7, 8])) readToEnd =
        some ⟨⟨true, true, none⟩, [[1, 0]], false, true⟩ ∧
      Allowed step Honest (start (some [7, 8])) readToEnd := by
  have hsize : ∀ c ∈ readToEnd, c.size ≠ 0 := by simp [readToEnd, readCall]
  refine ⟨rfl, (honest_iff (some [7, 8]) (by simp) readToEnd hsize ?_).mpr (by decide)⟩
  -- the inner stream does not end
  refine .cons (fun h => absurd h (by decide)) rfl (.cons (fun h => absurd h (by decide)) rfl ?_)
  refine .cons (fun h => absurd h (by decide)) rfl (.cons (fun h => absurd h (by decide)) rfl ?_)
  exact .cons (fun h => absurd h (by decide)) rfl .nil

/-- **A warning ends the stream, and then it goes on; or it is closed for it.**  The peer
sends an alert that is neither a `close_notify` nor fatal, and data after it.  With room for
both bytes of the alert, the first call reports the end, and the second one delivers the
data.  With room for one, the first call reports the end and closes the stream, and the data
is never read. -/
theorem not_honest_warning :
    (∃ s, run step (start none) [readCall (.err (some eio)) (alertMsg 1 100)] = some s ∧
      ¬ (start none).Honest (readCall (.err (some eio)) (alertMsg 1 100)) ∧
      s.told = true ∧ s.stream.readClosed = false ∧ s.innerEnded = false ∧
      (s.polled (readCall (.ready [1, 2, 3]) (.err eagain))).put = [1, 2, 3]) ∧
    ∃ s, run step (start none) [⟨1, ⟨.err (some eio), alertMsg 1 100, none⟩⟩] = some s ∧
      ¬ (start none).Honest ⟨1, ⟨.err (some eio), alertMsg 1 100, none⟩⟩ ∧
      s.told = true ∧ s.stream.readClosed = true ∧ s.alerts = [[1, 100]] ∧
      (s.polled (readCall (.ready [1, 2, 3]) (.err eagain))).put = [] := by
  have hstart : (start none).Truthful := truthful_start (by simp)
  refine ⟨⟨_, rfl, fun h => ?_, rfl, rfl, rfl, rfl⟩, _, rfl, fun h => ?_, rfl, rfl, rfl, rfl⟩
  all_goals exact absurd (noOtherAlert_of_honest hstart h) (by decide)

end ReadSide
end Turbine
