import Turbine.Lib.Potential
import Turbine.Splice.Order
import Turbine.Splice.Register

/-!
# The sockmap over the lifetime of the connections

`Splice.Register` is about one call of `splice`, and finds that a call that fails half-way
leaves an entry in the `INGRESS` map.  Nothing in the program ever removes an entry.  It is the
kernel that does: when a socket is closed or reset, it takes out every entry that leads to it.
`splice` borrows the two sockets; whoever calls a strategy owns them, as `handle_client` does,
and closes them some time after the call, also after one that has failed.

The connections are tasks of their own.  `splice` holds the lock of the map for one insertion
at a time, so the two insertions of a call are two steps; and the two sockets of a connection
are closed one after the other, or one of them is reset by its peer while the other one stays.
Anything of the other connections can come in between.  `run_splice_eq` says that a call that
is not interrupted does what `SockMapSplice.splice` does.

In every state that such steps can lead to, an entry leads to an open socket, from the other
socket of the same connection (`Owned`), whatever was refused, overwritten or left behind
before.  From this follow two things.  The entries do not pile up: there are at most two for
each connection that has not been closed altogether, and up to 1024 of them no insertion fails
for want of room (`room_for_all`).  And two connections can only get in each other's way as long
as neither has been closed altogether (`redirected_only_to_partner`).  It does not help that a
socket with the same key has itself been closed: its entry leads to the other socket of its
connection, and stays as long as that one is open.
-/

namespace Turbine

open ByteOrder Potential Runs

/-- A connection for which `splice` has been called. -/
structure SpliceTask where
  localSock : TcpSocket
  upstream : TcpSocket
  point : SplicePoint
  /-- `localSock` has not been closed, nor reset by its peer. -/
  localOpen : Bool
  upstreamOpen : Bool
  deriving DecidableEq

namespace SpliceTask

variable (e : Endian) (c : SpliceTask)

/-- The insertion that comes next. -/
def next : Option (BitVec 32 × TcpSocket) :=
  match c.point with
  | .firstInsert => some (c.localSock.key e, c.upstream)
  | .secondInsert => some (c.upstream.key e, c.localSock)
  | .copying | .returned => none

/-- After an insertion that went through. -/
def accept : SpliceTask :=
  match c.point with
  | .firstInsert => { c with point := .secondInsert }
  | _ => { c with point := .copying }

/-- After one that did not: the call returns. -/
def refuse : SpliceTask := { c with point := .returned }

/-- The sockets that are open. -/
def sockets : List TcpSocket :=
  (if c.localOpen then [c.localSock] else []) ++ if c.upstreamOpen then [c.upstream] else []

/-- From where to where the connection can redirect: to each of its sockets that is open, from
the other one, open or not. -/
def routes : List (TcpSocket × TcpSocket) :=
  (if c.upstreamOpen then [(c.localSock, c.upstream)] else []) ++
    if c.localOpen then [(c.upstream, c.localSock)] else []

/-- The call has come past its first insertion. -/
def madeFirst : Bool := c.point != .firstInsert

/-- The entries that the call can have made so far, as far as their sockets are open. -/
def entries : List (BitVec 32 × TcpSocket) :=
  (if c.madeFirst && c.upstreamOpen then [(c.localSock.key e, c.upstream)] else []) ++
    if c.point == .copying && c.localOpen then [(c.upstream.key e, c.localSock)] else []

variable {e c} {x : BitVec 32 × TcpSocket}

theorem mem_entries :
    x ∈ c.entries e ↔
      (c.point ≠ .firstInsert ∧ c.upstreamOpen = true ∧ x = (c.localSock.key e, c.upstream)) ∨
        (c.point = .copying ∧ c.localOpen = true ∧ x = (c.upstream.key e, c.localSock)) := by
  simp [entries, madeFirst, and_assoc]

/-- An entry is for one of the routes. -/
theorem exists_route_of_mem_entries (h : x ∈ c.entries e) :
    ∃ p ∈ c.routes, x = (p.1.key e, p.2) := by
  rcases mem_entries.mp h with ⟨-, hopen, rfl⟩ | ⟨-, hopen, rfl⟩
  · refine ⟨(c.localSock, c.upstream), ?_, rfl⟩
    simp [routes, hopen]
  · refine ⟨(c.upstream, c.localSock), ?_, rfl⟩
    simp [routes, hopen]

/-- It leads to an open socket. -/
theorem mem_sockets_of_mem_entries (h : x ∈ c.entries e) : x.2 ∈ c.sockets := by
  rcases mem_entries.mp h with ⟨-, hopen, rfl⟩ | ⟨-, hopen, rfl⟩
  · simp [sockets, hopen]
  · simp [sockets, hopen]

theorem mem_entries_accept (hnext : c.next e = some x) (hlocal : c.localOpen = true)
    (hupstream : c.upstreamOpen = true) :
    x ∈ c.accept.entries e ∧ c.entries e ⊆ c.accept.entries e := by
  cases hpoint : c.point with
  | firstInsert =>
    have haccept : c.accept = { c with point := .secondInsert } := by rw [accept, hpoint]
    have hx : x = (c.localSock.key e, c.upstream) := by simpa [next, hpoint] using hnext.symm
    rw [haccept]
    refine ⟨mem_entries.mpr (Or.inl ⟨by simp, hupstream, hx⟩), fun y hy => ?_⟩
    rcases mem_entries.mp hy with ⟨hpast, -, -⟩ | ⟨hcopying, -, -⟩
    · exact absurd hpoint hpast
    · exact absurd (hpoint.symm.trans hcopying) (by simp)
  | secondInsert =>
    have haccept : c.accept = { c with point := .copying } := by rw [accept, hpoint]
    have hx : x = (c.upstream.key e, c.localSock) := by simpa [next, hpoint] using hnext.symm
    rw [haccept]
    refine ⟨mem_entries.mpr (Or.inr ⟨rfl, hlocal, hx⟩), fun y hy => ?_⟩
    rcases mem_entries.mp hy with ⟨-, hopen, rfl⟩ | ⟨hcopying, -, -⟩
    · exact mem_entries.mpr (Or.inl ⟨by simp, hopen, rfl⟩)
    · exact absurd (hpoint.symm.trans hcopying) (by simp)
  | copying => exact absurd hnext (by simp [next, hpoint])
  | returned => exact absurd hnext (by simp [next, hpoint])

theorem entries_subset_refuse (hnext : c.next e = some x) : c.entries e ⊆ c.refuse.entries e := by
  intro y hy
  rcases mem_entries.mp hy with ⟨-, hopen, rfl⟩ | ⟨hpoint, -, -⟩
  · exact mem_entries.mpr (Or.inl ⟨by simp [refuse], hopen, rfl⟩)
  · exact absurd hnext (by simp [next, hpoint])

theorem length_entries_le : (c.entries e).length ≤ 2 := by
  rw [entries, List.length_append]
  split <;> split <;> simp

theorem length_entries_lt (hnext : c.next e = some x) : (c.entries e).length < 2 := by
  have hpoint : (c.point == .copying) = false := by
    rw [beq_eq_false_iff_ne]
    intro hcopying
    exact absurd hnext (by simp [next, hcopying])
  rw [entries, hpoint, List.length_append]
  split <;> simp

end SpliceTask

/-- The `INGRESS` map, and the connections that have not been closed altogether. -/
structure Lifetime where
  map : HashMap (BitVec 32) TcpSocket
  live : List SpliceTask

/-- What happens. -/
inductive LifetimeEvent where
  /-- `splice` is called -/
  | call (localSock upstream : TcpSocket)
  /-- the next insertion for the connection at position `k`; the kernel may refuse it -/
  | insert (k : ℕ) (refusal : Option ℕ)
  /-- the `local` of the connection at position `k` is closed, or reset -/
  | closeLocal (k : ℕ)
  /-- its `upstream` is -/
  | closeUpstream (k : ℕ)

namespace Lifetime

/-- Before the first connection. -/
def empty : Lifetime := ⟨∅, []⟩

/-- The open sockets. -/
def sockets (s : Lifetime) : List TcpSocket := s.live.flatMap SpliceTask.sockets

/-- From where to where something can be redirected. -/
def routes (s : Lifetime) : List (TcpSocket × TcpSocket) := s.live.flatMap SpliceTask.routes

/-- The connection at position `k` has lost `sock` and is `c` now. -/
def close (s : Lifetime) (k : ℕ) (sock : TcpSocket) (c : SpliceTask) : Lifetime :=
  ⟨s.map.retainValues fun x => x != sock,
    if c.sockets.isEmpty then s.live.eraseIdx k else s.live.set k c⟩

variable (e : Endian)

/-- One step.  No two open sockets have the same addresses. -/
def step (s : Lifetime) : LifetimeEvent → Option Lifetime
  | .call localSock upstream =>
      if localSock.addrs ≠ upstream.addrs ∧
          ∀ x ∈ s.sockets, x.addrs ≠ localSock.addrs ∧ x.addrs ≠ upstream.addrs then
        some ⟨s.map, s.live ++ [⟨localSock, upstream, .firstInsert, true, true⟩]⟩
      else none
  | .insert k refusal =>
      (s.live[k]?).bind fun c =>
        (c.next e).map fun x =>
          -- a socket that has been reset has no peer any more, and the `unwrap` of `peer_addr`
          -- panics; nor does the kernel take a socket that has been reset into the map
          if c.localOpen && c.upstreamOpen &&
              (SockMapSplice.insertAnswer s.map x.1 refusal).isNone then
            ⟨s.map.insert x.1 x.2, s.live.set k c.accept⟩
          else ⟨s.map, s.live.set k c.refuse⟩
  | .closeLocal k =>
      (s.live[k]?).bind fun c =>
        if c.localOpen then some (s.close k c.localSock { c with localOpen := false }) else none
  | .closeUpstream k =>
      (s.live[k]?).bind fun c =>
        if c.upstreamOpen then some (s.close k c.upstream { c with upstreamOpen := false })
        else none

/-- Every entry has been made for a connection that is still there, and leads to a socket of it
that is open. -/
def Owned (s : Lifetime) : Prop :=
  ∀ key sock, s.map.lookup key = some sock → ∃ c ∈ s.live, (key, sock) ∈ c.entries e

variable {e} {s t : Lifetime}

/-! ## A call that is not interrupted -/

/-- The steps of a call, for the connection at position `k`. -/
def callEvents (e : Endian) (map : HashMap (BitVec 32) TcpSocket) (c : SpliceCall) (k : ℕ) :
    List LifetimeEvent :=
  .call c.localSock c.upstream :: .insert k c.firstInsert ::
    if SockMapSplice.FirstAccepted e map c then [.insert k c.secondInsert] else []

/-- An insertion of the connection that was called last goes through. -/
theorem step_insert_accept {map : HashMap (BitVec 32) TcpSocket} {live : List SpliceTask}
    {c : SpliceTask} {x : BitVec 32 × TcpSocket} {refusal : Option ℕ} (hnext : c.next e = some x)
    (hopen : c.localOpen = true ∧ c.upstreamOpen = true)
    (h : SockMapSplice.insertAnswer map x.1 refusal = none) :
    step e ⟨map, live ++ [c]⟩ (.insert live.length refusal) =
      some ⟨map.insert x.1 x.2, live ++ [c.accept]⟩ := by
  simp only [step, List.getElem?_concat_length, Option.bind_some, hnext, Option.map_some, h,
    hopen, Bool.and_self, Option.isNone_none, if_true, List.set_append_right _ _ (Nat.le_refl _),
    Nat.sub_self, List.set_cons_zero]

/-- It does not. -/
theorem step_insert_refuse {map : HashMap (BitVec 32) TcpSocket} {live : List SpliceTask}
    {c : SpliceTask} {x : BitVec 32 × TcpSocket} {refusal : Option ℕ} (hnext : c.next e = some x)
    (h : SockMapSplice.insertAnswer map x.1 refusal ≠ none) :
    step e ⟨map, live ++ [c]⟩ (.insert live.length refusal) =
      some ⟨map, live ++ [c.refuse]⟩ := by
  obtain ⟨errno, herrno⟩ := Option.ne_none_iff_exists'.mp h
  simp only [step, List.getElem?_concat_length, Option.bind_some, hnext, Option.map_some, herrno,
    Option.isNone_some, Bool.and_false, Bool.false_eq_true, if_false,
    List.set_append_right _ _ (Nat.le_refl _), Nat.sub_self, List.set_cons_zero]

/-- **The two insertions, one right after the other, are `SockMapSplice.splice`.** -/
theorem run_splice_eq {c : SpliceCall} (hcall : (s.step e (.call c.localSock c.upstream)).isSome) :
    run (step e) s (callEvents e s.map c s.live.length) =
      some ⟨(SockMapSplice.splice e s.map c).map, s.live ++ [⟨c.localSock, c.upstream,
        if (SockMapSplice.splice e s.map c).copied then .copying else .returned, true, true⟩]⟩ := by
  obtain ⟨t, ht⟩ := Option.isSome_iff_exists.mp hcall
  obtain ⟨-, hlive⟩ := Option.ite_none_right_eq_some.mp ht
  rw [← hlive] at ht
  have hfirst : SpliceTask.next e ⟨c.localSock, c.upstream, .firstInsert, true, true⟩ =
      some (c.localSock.key e, c.upstream) := rfl
  have hsecond : SpliceTask.next e ⟨c.localSock, c.upstream, .secondInsert, true, true⟩ =
      some (c.upstream.key e, c.localSock) := rfl
  rw [callEvents, run_cons_eq_some]
  refine ⟨_, ht, ?_⟩
  by_cases h₁ : SockMapSplice.FirstAccepted e s.map c
  · rw [if_pos h₁, run_cons_eq_some]
    refine ⟨_, step_insert_accept hfirst ⟨rfl, rfl⟩ h₁, ?_⟩
    rw [run_singleton]
    by_cases h₂ : SockMapSplice.SecondAccepted e s.map c
    · rw [SockMapSplice.splice_of_accepted h₁ h₂]
      exact step_insert_accept hsecond ⟨rfl, rfl⟩ h₂
    · rw [SockMapSplice.splice_of_not_secondAccepted h₁ h₂]
      exact step_insert_refuse hsecond h₂
  · rw [if_neg h₁, run_singleton, SockMapSplice.splice_of_not_firstAccepted h₁]
    exact step_insert_refuse hfirst h₁

/-! ## Whose entries there are -/

/-- A connection that is not the one at `k` is still there when that one has changed. -/
theorem mem_set_of_ne {live : List SpliceTask} {k : ℕ} {c q : SpliceTask} (hk : live[k]? = some c)
    (hq : q ∈ live) (hne : q ≠ c) (c' : SpliceTask) : q ∈ live.set k c' := by
  obtain ⟨i, hi⟩ := List.getElem?_of_mem hq
  have hik : k ≠ i := by
    rintro rfl
    exact hne (Option.some.inj (hi.symm.trans hk))
  exact List.mem_of_getElem? ((List.getElem?_set_ne hik).trans hi)

/-- Nor when it is closed. -/
theorem mem_eraseIdx_of_ne {live : List SpliceTask} {k : ℕ} {c q : SpliceTask}
    (hk : live[k]? = some c) (hq : q ∈ live) (hne : q ≠ c) : q ∈ live.eraseIdx k := by
  obtain ⟨i, hi⟩ := List.getElem?_of_mem hq
  have hik : i ≠ k := by
    rintro rfl
    exact hne (Option.some.inj (hi.symm.trans hk))
  exact List.mem_eraseIdx_iff_getElem?.mpr ⟨i, hik, hi⟩

/-- An entry keeps an owner when the connection at `k` changes, if that one keeps it. -/
theorem exists_owner_set {live : List SpliceTask} {k : ℕ} {c c' : SpliceTask}
    (hk : live[k]? = some c) {x : BitVec 32 × TcpSocket}
    (hkeep : x ∈ c.entries e → x ∈ c'.entries e)
    (h : ∃ q ∈ live, x ∈ q.entries e) : ∃ q ∈ live.set k c', x ∈ q.entries e := by
  obtain ⟨q, hq, hx⟩ := h
  by_cases hne : q = c
  · subst hne
    exact ⟨c', List.mem_set (List.getElem?_eq_some_iff.mp hk).1 c', hkeep hx⟩
  · exact ⟨q, mem_set_of_ne hk hq hne c', hx⟩

/-- The same for a connection that is closed altogether, which keeps none. -/
theorem exists_owner_eraseIdx {live : List SpliceTask} {k : ℕ} {c : SpliceTask}
    (hk : live[k]? = some c) {x : BitVec 32 × TcpSocket} (hnot : x ∉ c.entries e)
    (h : ∃ q ∈ live, x ∈ q.entries e) : ∃ q ∈ live.eraseIdx k, x ∈ q.entries e := by
  obtain ⟨q, hq, hx⟩ := h
  refine ⟨q, mem_eraseIdx_of_ne hk hq ?_, hx⟩
  rintro rfl
  exact hnot hx

/-- An insertion adds its own entry. -/
theorem lookup_insert_cases {map : HashMap (BitVec 32) TcpSocket} {key key' : BitVec 32}
    {sock sock' : TcpSocket} (h : (map.insert key sock).lookup key' = some sock') :
    (key', sock') = (key, sock) ∨ map.lookup key' = some sock' := by
  by_cases hkey : key' = key
  · rw [hkey, AList.lookup_insert] at h
    exact Or.inl (Prod.ext hkey (Option.some.inj h).symm)
  · rw [AList.lookup_insert_ne hkey] at h
    exact Or.inr h

/-- The entries that lead to the socket are gone, and the connection keeps the others. -/
theorem Owned.close (h : s.Owned e) {k : ℕ} {c c' : SpliceTask} {sock : TcpSocket}
    (hk : s.live[k]? = some c)
    (hkeep : ∀ x ∈ c.entries e, x.2 ≠ sock → x ∈ c'.entries e) :
    (s.close k sock c').Owned e := by
  intro key sock' hlookup
  obtain ⟨hold, hne⟩ := HashMap.lookup_retainValues.mp hlookup
  rw [bne_iff_ne] at hne
  have hkept : (key, sock') ∈ c.entries e → (key, sock') ∈ c'.entries e := fun hx =>
    hkeep _ hx hne
  have howner := h key sock' hold
  rw [Lifetime.close]
  split
  · rename_i hempty
    refine exists_owner_eraseIdx hk (fun hx => ?_) howner
    have hmem := SpliceTask.mem_sockets_of_mem_entries (hkept hx)
    rw [List.isEmpty_iff.mp hempty] at hmem
    exact absurd hmem List.not_mem_nil
  · exact exists_owner_set hk hkept howner

/-- **Every step keeps the entries with their connections.** -/
theorem owned_of_step {ev : LifetimeEvent} (h : s.Owned e) (hs : s.step e ev = some t) :
    t.Owned e := by
  cases ev with
  | call localSock upstream =>
    obtain ⟨-, ht⟩ := Option.ite_none_right_eq_some.mp hs
    obtain rfl := Option.some.inj ht
    intro key sock hlookup
    obtain ⟨c, hc, hentry⟩ := h key sock hlookup
    exact ⟨c, List.mem_append_left _ hc, hentry⟩
  | insert k refusal =>
    obtain ⟨c, hk, hmap⟩ := Option.bind_eq_some_iff.mp hs
    obtain ⟨x, hnext, ht⟩ := Option.map_eq_some_iff.mp hmap
    split at ht
    · rename_i hgood
      obtain rfl := ht
      rw [Bool.and_eq_true, Bool.and_eq_true] at hgood
      obtain ⟨hmem, hsub⟩ := SpliceTask.mem_entries_accept hnext hgood.1.1 hgood.1.2
      intro key sock hlookup
      rcases lookup_insert_cases hlookup with hnew | hold
      · rw [hnew]
        exact ⟨c.accept, List.mem_set (List.getElem?_eq_some_iff.mp hk).1 _, hmem⟩
      · exact exists_owner_set hk (@hsub _) (h key sock hold)
    · obtain rfl := ht
      intro key sock hlookup
      exact exists_owner_set hk (@SpliceTask.entries_subset_refuse e c x hnext _)
        (h key sock hlookup)
  | closeLocal k =>
    obtain ⟨c, hk, hif⟩ := Option.bind_eq_some_iff.mp hs
    obtain ⟨-, ht⟩ := Option.ite_none_right_eq_some.mp hif
    obtain rfl := Option.some.inj ht
    refine h.close hk fun x hx hne => ?_
    rcases SpliceTask.mem_entries.mp hx with hfirst | ⟨-, -, rfl⟩
    · exact SpliceTask.mem_entries.mpr (Or.inl hfirst)
    · exact absurd rfl hne
  | closeUpstream k =>
    obtain ⟨c, hk, hif⟩ := Option.bind_eq_some_iff.mp hs
    obtain ⟨-, ht⟩ := Option.ite_none_right_eq_some.mp hif
    obtain rfl := Option.some.inj ht
    refine h.close hk fun x hx hne => ?_
    rcases SpliceTask.mem_entries.mp hx with ⟨-, -, rfl⟩ | hsecond
    · exact absurd rfl hne
    · exact SpliceTask.mem_entries.mpr (Or.inr hsecond)

theorem owned_of_run {es : List LifetimeEvent} (h : run (step e) empty es = some s) : s.Owned e :=
  run_invariant (I := Owned e) (fun _ _ h => absurd h (by simp [empty]))
    (fun _ _ _ => owned_of_step) h

/-- **Two connections get in each other's way only while neither is closed altogether.**  Calls,
insertions, refusals, closings and resets in any order.  Take a socket, and suppose that no
other socket has its key now among the sockets whose partner is open --- a socket that has been
closed itself counts as long as the other one of its connection is open.  Then what arrives on
the socket is redirected to the other socket of its own connection or not at all, even if
connections with the same key have come and gone. -/
theorem redirected_only_to_partner (e : Endian) (es : List LifetimeEvent) (s : Lifetime)
    (h : run (step e) empty es = some s) (p : TcpSocket × TcpSocket)
    (hkey : ∀ q ∈ s.routes, q.1.key e = p.1.key e → q = p) (sock : TcpSocket)
    (hverdict : s.map.lookup (p.1.verdictKey e) = some sock) : sock = p.2 := by
  rw [TcpSocket.verdictKey_eq_key] at hverdict
  obtain ⟨c, hc, hentry⟩ := owned_of_run h _ _ hverdict
  obtain ⟨q, hq, hpair⟩ := SpliceTask.exists_route_of_mem_entries hentry
  obtain ⟨hsame, rfl⟩ := Prod.mk.inj hpair
  rw [hkey q (List.mem_flatMap.mpr ⟨c, hc, hq⟩) hsame.symm]

/-- Two clients with the same key.  The second is spliced while the first is open, and then the
two sockets of the first are closed, one after the other. -/
def sameKey : List LifetimeEvent :=
  [.call (Ingress.clientSocket 4 0x0a010203 20511) (Ingress.backendSocket 5 40000),
    .insert 0 none,
    .call (Ingress.clientSocket 6 0x0a010303 12575) (Ingress.backendSocket 7 40001),
    .insert 1 none, .insert 0 none, .insert 1 none, .closeLocal 0, .closeUpstream 0]

/-- What the second client sends is redirected, and to its own backend socket. -/
theorem redirected_only_to_partner_sameKey :
    ∃ s sock, run (step .little) empty sameKey = some s ∧
      s.map.lookup ((Ingress.clientSocket 6 0x0a010303 12575).verdictKey .little) = some sock ∧
      sock = Ingress.backendSocket 7 40001 := by
  have hview : (run (step .little) empty sameKey).map (fun s => (s.routes,
        (s.map.lookup ((Ingress.clientSocket 6 0x0a010303 12575).verdictKey .little)).isSome)) =
      some ([(Ingress.clientSocket 6 0x0a010303 12575, Ingress.backendSocket 7 40001),
        (Ingress.backendSocket 7 40001, Ingress.clientSocket 6 0x0a010303 12575)], true) := by
    decide +kernel
  obtain ⟨s, hrun, hpair⟩ := Option.map_eq_some_iff.mp hview
  obtain ⟨hroutes, hsome⟩ := Prod.mk.inj hpair
  obtain ⟨sock, hverdict⟩ := Option.isSome_iff_exists.mp hsome
  refine ⟨s, sock, hrun, hverdict, redirected_only_to_partner .little sameKey s hrun
    (Ingress.clientSocket 6 0x0a010303 12575, Ingress.backendSocket 7 40001) ?_ sock hverdict⟩
  rw [hroutes]
  decide +kernel

-- A backend has closed its connection, and the client has not.  The next connection to the
-- backend has the same addresses and the same key; after the first of its two insertions, what
-- the backend sends on it goes to the client of the old connection.
example :
    (run (step .little) empty
      [.call (Ingress.clientSocket 4 0x0a010203 20511) (Ingress.backendSocket 5 40000),
        .insert 0 none, .insert 0 none, .closeUpstream 0,
        .call (Ingress.clientSocket 6 0x0a010203 20512) (Ingress.backendSocket 5 40000),
        .insert 1 none]).map
      (fun s => s.map.lookup ((Ingress.backendSocket 5 40000).verdictKey .little)) =
      some (some (Ingress.clientSocket 4 0x0a010203 20511)) := by
  decide +kernel

/-! ## How many entries there are -/

/-- A map has no more entries than its connections have made. -/
theorem Owned.length_le (h : s.Owned e) :
    s.map.entries.length ≤ (s.live.map fun c => (c.entries e).length).sum := by
  have hkeys : s.map.entries.length ≤
      (s.live.flatMap fun c => (c.entries e).map Prod.fst).length := by
    refine HashMap.length_entries_le fun key sock hlookup => ?_
    obtain ⟨c, hc, hentry⟩ := h key sock hlookup
    exact List.mem_flatMap.mpr ⟨c, hc, List.mem_map_of_mem hentry⟩
  rw [List.length_flatMap] at hkeys
  simpa only [List.length_map] using hkeys

/-- **The map is never full up to 1024 connections, and nothing is left in it.**  Calls,
insertions, refusals, closings and resets in any order, whichever keys collide: there are at
most two entries for each connection that has not been closed altogether, so none when all are;
and while there are no more than 1024 such connections, the next insertion of each of them goes
through unless the kernel has another reason to refuse it. -/
theorem room_for_all (e : Endian) (es : List LifetimeEvent) (s : Lifetime)
    (h : run (step e) empty es = some s) :
    s.map.entries.length ≤ 2 * s.live.length ∧
      (s.live.length ≤ 1024 → ∀ c ∈ s.live, ∀ x, c.next e = some x →
        SockMapSplice.insertAnswer s.map x.1 none = none) := by
  have hlen := (owned_of_run h).length_le
  have hconst : (s.live.map fun _ => 2).sum = 2 * s.live.length := by
    rw [List.map_const', List.sum_replicate, smul_eq_mul, Nat.mul_comm]
  have htwo : ∀ c ∈ s.live, (c.entries e).length ≤ 2 := fun _ _ => SpliceTask.length_entries_le
  refine ⟨Nat.le_trans hlen (hconst ▸ List.sum_le_sum htwo), fun hlive c hc x hnext => ?_⟩
  have hlt := List.sum_lt_sum _ (fun _ => 2) htwo ⟨c, hc, SpliceTask.length_entries_lt hnext⟩
  rw [SockMapSplice.insertAnswer, if_neg]
  rw [SockMapSplice.maxEntries]
  omega

/-- A connection that is spliced, one whose second insertion is refused, and the closing of
this one while a third has made its first insertion. -/
def closedAfterRefusal : List LifetimeEvent :=
  [.call (Ingress.clientSocket 4 0x0a010203 20511) (Ingress.backendSocket 5 40000),
    .insert 0 none, .insert 0 none,
    .call (Ingress.clientSocket 6 0x0a010203 20512) (Ingress.backendSocket 7 40001),
    .insert 1 none,
    .call (Ingress.clientSocket 8 0x0a010203 20513) (Ingress.backendSocket 9 40002),
    .insert 2 none, .insert 1 (some 12), .closeUpstream 1, .closeLocal 1]

/-- The entry that the refused call had left is gone, those of the other two are there, and the
third connection can be spliced. -/
theorem room_for_all_closedAfterRefusal :
    ∃ s, run (step .little) empty closedAfterRefusal = some s ∧
      s.map.entries.length = 3 ∧ s.map.entries.length ≤ 2 * s.live.length ∧
      SockMapSplice.insertAnswer s.map ((Ingress.backendSocket 9 40002).key .little) none =
        none := by
  have hview : (run (step .little) empty closedAfterRefusal).map
      (fun s => (s.map.entries.length, s.live)) =
      some (3, [
        ⟨Ingress.clientSocket 4 0x0a010203 20511, Ingress.backendSocket 5 40000, .copying,
          true, true⟩,
        ⟨Ingress.clientSocket 8 0x0a010203 20513, Ingress.backendSocket 9 40002, .secondInsert,
          true, true⟩]) := by
    decide +kernel
  obtain ⟨s, hrun, hpair⟩ := Option.map_eq_some_iff.mp hview
  obtain ⟨hentries, hlive⟩ := Prod.mk.inj hpair
  obtain ⟨hlen, hroom⟩ := room_for_all .little closedAfterRefusal s hrun
  rw [hlive] at hroom
  exact ⟨s, hrun, hentries, hlen,
    hroom (by decide) _ (List.mem_pair.mpr (Or.inr rfl)) _ rfl⟩

end Lifetime
end Turbine
