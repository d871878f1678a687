import Turbine.Lib.HashMap
import Turbine.Lib.Runs
import Turbine.Splice.Key

/-!
# The sockmap: which socket a packet is redirected to

`SockMapSplice::splice` puts the two sockets of a connection into the `INGRESS` map, each under
the key of the other, and from then on `stream_verdict` redirects what arrives on one of them
to the other.  All connections of the proxy share the map.  An insertion under a key that is
already there overwrites, and the key is a hash of 32 bits.

The state is the map, the pairs for which both insertions have gone through, and the sockets
that are open.  The kernel may refuse an insertion, for instance when the map is full, and
`splice` then returns; whether it does is part of the call.  `linked_iff` says when every pair
has kept its two entries: exactly when no insertion has hit the key of a socket that was
already spliced.
-/

namespace Turbine

open ByteOrder Runs

/-- A connected socket. -/
structure TcpSocket where
  fd : ℕ
  localAddr : SocketAddr
  peerAddr : SocketAddr
  deriving DecidableEq

namespace TcpSocket

/-- The key under which `splice` inserts the partner of the socket. -/
def key (e : Endian) (s : TcpSocket) : BitVec 32 := socketHash e s.localAddr s.peerAddr

/-- The key that `stream_verdict` looks up for a packet that arrives on the socket. -/
def verdictKey (e : Endian) (s : TcpSocket) : BitVec 32 :=
  (SkBuff.of e s.localAddr s.peerAddr).verdictKey

/-- What tells open sockets apart. -/
def addrs (s : TcpSocket) : SocketAddr × SocketAddr := (s.localAddr, s.peerAddr)

theorem verdictKey_eq_key (e : Endian) (s : TcpSocket) : s.verdictKey e = s.key e := by
  rw [verdictKey, key, verdictKey_eq_rollingHash, socketHash_eq_rollingHash]

end TcpSocket

/-- A call of `splice`, up to the point where the copying starts, with what the kernel answers
to the two insertions: an errno, or `none` for a success. -/
structure SpliceCall where
  localSock : TcpSocket
  upstream : TcpSocket
  firstInsert : Option ℕ := none
  secondInsert : Option ℕ := none

/-- The `INGRESS` map and what it is there for. -/
structure Ingress where
  map : HashMap (BitVec 32) TcpSocket
  /-- The pairs `(local, upstream)` that have been spliced. -/
  spliced : List (TcpSocket × TcpSocket)
  /-- All sockets of the calls so far; they are still open. -/
  opened : List TcpSocket

namespace Ingress

/-- Before the first call. -/
def empty : Ingress := ⟨∅, [], []⟩

variable (e : Endian)

/-- `SockMapSplice::splice`, as far as the map goes. -/
def splice (s : Ingress) (c : SpliceCall) : Ingress :=
  let opened := s.opened ++ [c.localSock, c.upstream]
  match c.firstInsert with
  | some _ => { s with opened }
  | none =>
      let map := s.map.insert (c.localSock.key e) c.upstream
      match c.secondInsert with
      | some _ => { s with map, opened }
      | none =>
          { map := map.insert (c.upstream.key e) c.localSock
            spliced := s.spliced ++ [(c.localSock, c.upstream)]
            opened }

/-- One call, on two sockets that are opened for it: no two open sockets have the same
addresses. -/
def step (s : Ingress) (c : SpliceCall) : Option Ingress :=
  if c.localSock.addrs ≠ c.upstream.addrs ∧
      c.localSock.addrs ∉ s.opened.map TcpSocket.addrs ∧
      c.upstream.addrs ∉ s.opened.map TcpSocket.addrs then
    some (s.splice e c)
  else none

/-- Packets of every pair go to the other side of the pair. -/
def Linked (s : Ingress) : Prop :=
  ∀ p ∈ s.spliced, s.map.lookup (p.1.verdictKey e) = some p.2 ∧
    s.map.lookup (p.2.verdictKey e) = some p.1

/-- The keys of the sockets that have been spliced. -/
def keys (s : Ingress) : List (BitVec 32) := s.spliced.flatMap fun p => [p.1.key e, p.2.key e]

/-- No insertion of the call that goes through hits the key of a spliced socket, nor the
second one that of the first. -/
def Fresh (s : Ingress) (c : SpliceCall) : Prop :=
  c.firstInsert = none → c.localSock.key e ∉ s.keys e ∧
    (c.secondInsert = none → c.upstream.key e ∉ s.keys e ∧ c.upstream.key e ≠ c.localSock.key e)

instance (s : Ingress) (c : SpliceCall) : Decidable (s.Fresh e c) :=
  inferInstanceAs (Decidable (_ → _ ∧ (_ → _ ∧ _)))

/-! ## One call -/

/-- The entries that the spliced pairs need. -/
def entries (s : Ingress) : List (BitVec 32 × TcpSocket) :=
  s.spliced.flatMap fun p => [(p.1.key e, p.2), (p.2.key e, p.1)]

theorem linked_iff_holds (s : Ingress) : s.Linked e ↔ HashMap.Holds s.map (s.entries e) := by
  constructor
  · intro h x hx
    obtain ⟨p, hp, hpair⟩ := List.mem_flatMap.mp hx
    have hlinked := h p hp
    rw [TcpSocket.verdictKey_eq_key, TcpSocket.verdictKey_eq_key] at hlinked
    rcases List.mem_pair.mp hpair with rfl | rfl
    · exact hlinked.1
    · exact hlinked.2
  · intro h p hp
    rw [TcpSocket.verdictKey_eq_key, TcpSocket.verdictKey_eq_key]
    have hmem : ∀ x, x ∈ [(p.1.key e, p.2), (p.2.key e, p.1)] → x ∈ s.entries e :=
      fun x hx => List.mem_flatMap.mpr ⟨p, hp, hx⟩
    exact ⟨h _ (hmem (p.1.key e, p.2) List.mem_cons_self),
      h _ (hmem (p.2.key e, p.1) (List.mem_pair.mpr (Or.inr rfl)))⟩

theorem fst_entries (s : Ingress) : (s.entries e).map Prod.fst = s.keys e := by
  simp only [entries, keys, List.map_flatMap, List.map_cons, List.map_nil]

/-- A call is made on two new sockets. -/
theorem step_eq_some {s t : Ingress} {c : SpliceCall} (h : s.step e c = some t) :
    (c.localSock.addrs ≠ c.upstream.addrs ∧ c.localSock.addrs ∉ s.opened.map TcpSocket.addrs ∧
      c.upstream.addrs ∉ s.opened.map TcpSocket.addrs) ∧ t = s.splice e c := by
  unfold step at h
  split at h
  · rename_i hnew
    exact ⟨hnew, (Option.some.inj h).symm⟩
  · exact absurd h (by simp)

/-- The spliced sockets are open. -/
def Opened (s : Ingress) : Prop := ∀ p ∈ s.spliced, p.1 ∈ s.opened ∧ p.2 ∈ s.opened

theorem opened_of_step {s t : Ingress} {c : SpliceCall} (hs : s.Opened)
    (h : s.step e c = some t) : t.Opened := by
  obtain ⟨-, rfl⟩ := step_eq_some e h
  have hold : ∀ p ∈ s.spliced, p.1 ∈ s.opened ++ [c.localSock, c.upstream] ∧
      p.2 ∈ s.opened ++ [c.localSock, c.upstream] := fun p hp =>
    ⟨List.mem_append_left _ (hs p hp).1, List.mem_append_left _ (hs p hp).2⟩
  unfold splice
  split
  · exact hold
  · split
    · exact hold
    · intro p hp
      rcases List.mem_append.mp hp with hp | hp
      · exact hold p hp
      · rw [List.mem_singleton.mp hp]
        exact ⟨List.mem_append_right _ (List.mem_pair.mpr (Or.inl rfl)),
          List.mem_append_right _ (List.mem_pair.mpr (Or.inr rfl))⟩

/-- A socket that is not open yet is in no entry. -/
theorem not_mem_entries {s : Ingress} (hs : s.Opened) {x : TcpSocket}
    (hx : x.addrs ∉ s.opened.map TcpSocket.addrs) : x ∉ (s.entries e).map Prod.snd := by
  intro hmem
  obtain ⟨y, hy, rfl⟩ := List.mem_map.mp hmem
  obtain ⟨p, hp, hpair⟩ := List.mem_flatMap.mp hy
  rcases List.mem_pair.mp hpair with rfl | rfl
  · exact hx (List.mem_map_of_mem (hs p hp).2)
  · exact hx (List.mem_map_of_mem (hs p hp).1)

/-- **One call keeps the pairs linked exactly if its keys are fresh.** -/
theorem linked_step_iff {s t : Ingress} {c : SpliceCall} (hs : s.Opened)
    (h : s.step e c = some t) : t.Linked e ↔ s.Linked e ∧ s.Fresh e c := by
  obtain ⟨⟨hne, hlocal, hupstream⟩, rfl⟩ := step_eq_some e h
  have hl := not_mem_entries e hs hlocal
  have hu := not_mem_entries e hs hupstream
  rw [linked_iff_holds, linked_iff_holds, Fresh, ← fst_entries]
  cases hfirst : c.firstInsert with
  | some errno =>
    simp only [splice, hfirst, reduceCtorEq, false_imp_iff, and_true]
    rfl
  | none =>
    cases hsecond : c.secondInsert with
    | some errno =>
      simp only [splice, hfirst, hsecond, reduceCtorEq, false_imp_iff, and_true, true_imp_iff]
      exact HashMap.holds_insert hu
    | none =>
      have hentries : (s.splice e c).entries e =
          (s.entries e ++ [(c.localSock.key e, c.upstream)]) ++
            [(c.upstream.key e, c.localSock)] := by
        simp only [splice, hfirst, hsecond, entries, List.flatMap_append, List.append_assoc]
        rfl
      have hmap : (s.splice e c).map =
          (s.map.insert (c.localSock.key e) c.upstream).insert (c.upstream.key e) c.localSock := by
        simp only [splice, hfirst, hsecond]
      have hl' : c.localSock ∉ (s.entries e ++ [(c.localSock.key e, c.upstream)]).map Prod.snd := by
        rw [List.map_append, List.mem_append, not_or]
        refine ⟨hl, fun hmem => hne ?_⟩
        rw [List.mem_singleton.mp hmem]
      rw [hentries, hmap, HashMap.holds_insert_snoc hl', HashMap.holds_insert_snoc hu,
        List.map_append, List.mem_append, not_or]
      simp only [List.map_cons, List.map_nil, List.mem_singleton, true_imp_iff, and_assoc]

/-- **When sockmap splicing never crosses two connections.**  For every sequence of calls on
open sockets with pairwise distinct addresses, and whichever insertions the kernel refuses:
the two lookups of every spliced pair give the other side of the pair if and only if no
insertion has hit the key of a spliced socket. -/
theorem linked_iff (calls : List SpliceCall) (s : Ingress)
    (h : run (step e) empty calls = some s) :
    s.Linked e ↔ Allowed (step e) (Fresh e) empty calls := by
  refine run_iff_allowed (I := Opened) ?_ ?_ (fun _ _ _ => opened_of_step e)
    (fun _ _ _ => linked_step_iff e) h
  · intro p hp
    exact absurd hp List.not_mem_nil
  · intro p hp
    exact absurd hp List.not_mem_nil

/-- The socket of a client of the listener at `10.0.0.1:443`. -/
def clientSocket (fd : ℕ) (ip : BitVec 32) (port : BitVec 16) : TcpSocket :=
  ⟨fd, .v4 0x0a000001 443, .v4 ip port⟩

/-- A socket to the backend at `10.0.0.9:8080`. -/
def backendSocket (fd : ℕ) (port : BitVec 16) : TcpSocket :=
  ⟨fd, .v4 0x0a000001 port, .v4 0x0a000009 8080⟩

/-- Two connections of one client, and a third one that the map has no room for. -/
def sameClient : List SpliceCall :=
  [⟨clientSocket 4 0x0a010203 20511, backendSocket 5 40000, none, none⟩,
    ⟨clientSocket 6 0x0a010203 20512, backendSocket 7 40001, none, none⟩,
    ⟨clientSocket 8 0x0a010203 20513, backendSocket 9 40002, some 7, none⟩]

theorem linked_iff_sameClient :
    ∃ s, run (step .little) empty sameClient = some s ∧
      s.spliced = [(clientSocket 4 0x0a010203 20511, backendSocket 5 40000),
        (clientSocket 6 0x0a010203 20512, backendSocket 7 40001)] ∧ s.Linked .little :=
  ⟨_, rfl, rfl, (linked_iff .little sameClient _ rfl).mpr (by decide)⟩

/-- **Two clients with one key.**  `10.1.2.3:20511` and `10.1.3.3:12575` are connected to the
same listener and have been spliced with backend sockets of their own.  What the first client
sends is redirected to the backend socket of the second. -/
theorem not_linked_two_clients :
    ∃ s, run (step .little) empty
        [⟨clientSocket 4 0x0a010203 20511, backendSocket 5 40000, none, none⟩,
          ⟨clientSocket 6 0x0a010303 12575, backendSocket 7 40001, none, none⟩] = some s ∧
      s.map.lookup ((clientSocket 4 0x0a010203 20511).verdictKey .little) =
        some (backendSocket 7 40001) ∧
      ¬ s.Linked .little := by
  refine ⟨_, rfl, by decide, fun h => ?_⟩
  have hfirst := h (clientSocket 4 0x0a010203 20511, backendSocket 5 40000) (by decide)
  exact absurd hfirst.1 (by decide)

end Ingress
end Turbine
