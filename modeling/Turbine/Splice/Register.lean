import Turbine.Splice.Sockmap

/-!
# What a failed insertion leaves behind

`splice` makes two insertions into the `INGRESS` map and then copies in user space.  Either
insertion can fail: the kernel refuses it, or the map has its 2048 entries and the key is not
among them.  In both cases `splice` logs the error and returns `Ok(())`; the second time the
first entry stays where it is.

`Splice.Sockmap` asks what many calls do to the pairs and takes the kernel's answers as they
come.  This file is about a single call, with the capacity of the map as part of the answer
(`insertAnswer`), with its result, and with whether the copying was reached (`splice`).  A call
registers both directions or none exactly when neither insertion fails (`bothOrNone_iff`), and
the map alone is as before exactly when it was not the second one that failed, or the first had
nothing to change.
-/

namespace Turbine

open ByteOrder

namespace SockMapSplice

/-- The `max_entries` of `INGRESS`. -/
def maxEntries : ℕ := 2048

/-- `E2BIG`, the kernel's answer to a new key in a full map. -/
def e2big : ℕ := 7

/-- The answer to an insertion: a `refusal` for whatever reason the kernel has, or that the
map is full, or `none` for a success.  An insertion under a key that is there overwrites and
needs no room. -/
def insertAnswer (map : HashMap (BitVec 32) TcpSocket) (key : BitVec 32) (refusal : Option ℕ) :
    Option ℕ :=
  match refusal with
  | some errno => some errno
  | none => if key ∉ map ∧ maxEntries ≤ map.entries.length then some e2big else none

/-- What a call of `splice` leaves and returns. -/
structure Returned where
  map : HashMap (BitVec 32) TcpSocket
  /-- `copy_bidirectional` was called; its result is dropped. -/
  copied : Bool
  result : Except ℕ Unit

section

variable (e : Endian) (map : HashMap (BitVec 32) TcpSocket) (c : SpliceCall)

/-- `SockMapSplice::splice`. -/
def splice : Returned :=
  match insertAnswer map (c.localSock.key e) c.firstInsert with
  | some _ => ⟨map, false, .ok ()⟩
  | none =>
      let map := map.insert (c.localSock.key e) c.upstream
      match insertAnswer map (c.upstream.key e) c.secondInsert with
      | some _ => ⟨map, false, .ok ()⟩
      | none => ⟨map.insert (c.upstream.key e) c.localSock, true, .ok ()⟩

/-- The first insertion goes through. -/
def FirstAccepted : Prop := insertAnswer map (c.localSock.key e) c.firstInsert = none

/-- The second one does, in the map with the first. -/
def SecondAccepted : Prop :=
  insertAnswer (map.insert (c.localSock.key e) c.upstream) (c.upstream.key e) c.secondInsert = none

instance : Decidable (FirstAccepted e map c) := inferInstanceAs (Decidable (_ = _))

instance : Decidable (SecondAccepted e map c) := inferInstanceAs (Decidable (_ = _))

/-- A call that has not reached the copying has left the map as it was. -/
def MapKept : Prop :=
  (splice e map c).copied = false → ∀ k, (splice e map c).map.lookup k = map.lookup k

/-- Both directions are registered or none is: without the copying the map is as it was, and
the call does not report a success. -/
def BothOrNone : Prop :=
  MapKept e map c ∧ ((splice e map c).copied = false → (splice e map c).result ≠ .ok ())

/-! ## The three ways through a call -/

variable {e map c}

theorem splice_of_not_firstAccepted (h : ¬ FirstAccepted e map c) :
    splice e map c = ⟨map, false, .ok ()⟩ := by
  obtain ⟨errno, herrno⟩ := Option.ne_none_iff_exists'.mp h
  rw [splice, herrno]

theorem splice_of_not_secondAccepted (h₁ : FirstAccepted e map c)
    (h₂ : ¬ SecondAccepted e map c) :
    splice e map c = ⟨map.insert (c.localSock.key e) c.upstream, false, .ok ()⟩ := by
  obtain ⟨errno, herrno⟩ := Option.ne_none_iff_exists'.mp h₂
  rw [FirstAccepted] at h₁
  simp only [splice, h₁, herrno]

theorem splice_of_accepted (h₁ : FirstAccepted e map c) (h₂ : SecondAccepted e map c) :
    splice e map c =
      ⟨(map.insert (c.localSock.key e) c.upstream).insert (c.upstream.key e) c.localSock, true,
        .ok ()⟩ := by
  rw [FirstAccepted] at h₁
  rw [SecondAccepted] at h₂
  simp only [splice, h₁, h₂]

/-- The copying is reached exactly after two insertions that go through. -/
theorem copied_splice_iff :
    (splice e map c).copied = true ↔ FirstAccepted e map c ∧ SecondAccepted e map c := by
  by_cases h₁ : FirstAccepted e map c
  · by_cases h₂ : SecondAccepted e map c
    · simp [splice_of_accepted h₁ h₂, h₁, h₂]
    · simp [splice_of_not_secondAccepted h₁ h₂, h₂]
  · simp [splice_of_not_firstAccepted h₁, h₁]

/-- Whatever happened, the result is `Ok(())`. -/
theorem result_splice : (splice e map c).result = .ok () := by
  by_cases h₁ : FirstAccepted e map c
  · by_cases h₂ : SecondAccepted e map c
    · rw [splice_of_accepted h₁ h₂]
    · rw [splice_of_not_secondAccepted h₁ h₂]
  · rw [splice_of_not_firstAccepted h₁]

theorem mapKept_iff : MapKept e map c ↔
    (FirstAccepted e map c → ¬ SecondAccepted e map c →
      map.lookup (c.localSock.key e) = some c.upstream) := by
  unfold MapKept
  by_cases h₁ : FirstAccepted e map c
  · by_cases h₂ : SecondAccepted e map c
    · simp [splice_of_accepted h₁ h₂, h₂]
    · rw [splice_of_not_secondAccepted h₁ h₂, ← HashMap.lookup_insert_eq_iff]
      simp only [h₁, h₂, not_false_eq_true, true_imp_iff]
  · simp [splice_of_not_firstAccepted h₁, h₁]

end

/-- **When a call registers both directions or none.**  For every map, full or not, every two
sockets and every pattern of refusals: both or none, and no success without the copying, if
and only if both insertions go through.  The map alone is as it was, if the copying was not
reached, exactly unless the second insertion failed after the first had changed an entry. -/
theorem bothOrNone_iff (e : Endian) (map : HashMap (BitVec 32) TcpSocket) (c : SpliceCall) :
    (BothOrNone e map c ↔ FirstAccepted e map c ∧ SecondAccepted e map c) ∧
      (MapKept e map c ↔ (FirstAccepted e map c → ¬ SecondAccepted e map c →
        map.lookup (c.localSock.key e) = some c.upstream)) := by
  refine ⟨⟨?_, ?_⟩, mapKept_iff⟩
  · rintro ⟨-, hresult⟩
    rw [← copied_splice_iff]
    by_contra hcopied
    exact hresult (Bool.eq_false_iff.mpr hcopied) result_splice
  · intro h
    have hcopied := copied_splice_iff.mpr h
    constructor
    · intro hnot
      exact absurd hcopied (by simp [hnot])
    · intro hnot
      exact absurd hcopied (by simp [hnot])

/-- A new key needs room. -/
theorem insertAnswer_full {map : HashMap (BitVec 32) TcpSocket} {key : BitVec 32}
    (hkey : key ∉ map) (hfull : maxEntries ≤ map.entries.length) :
    insertAnswer map key none = some e2big := by
  rw [insertAnswer, if_pos ⟨hkey, hfull⟩]

/-- **One entry short.**  In a map with room for one more entry, a call with two new keys and
no other refusal fills the map with its first entry, fails, and reports success. -/
theorem splice_one_short {e : Endian} {map : HashMap (BitVec 32) TcpSocket} {c : SpliceCall}
    (hsize : map.entries.length + 1 = maxEntries) (hlocal : c.localSock.key e ∉ map)
    (hupstream : c.upstream.key e ∉ map) (hne : c.upstream.key e ≠ c.localSock.key e)
    (hfirst : c.firstInsert = none) (hsecond : c.secondInsert = none) :
    splice e map c = ⟨map.insert (c.localSock.key e) c.upstream, false, .ok ()⟩ ∧
      ¬ MapKept e map c := by
  have h₁ : FirstAccepted e map c := by
    rw [FirstAccepted, hfirst, insertAnswer, if_neg]
    omega
  have h₂ : ¬ SecondAccepted e map c := by
    have hkey : c.upstream.key e ∉ map.insert (c.localSock.key e) c.upstream := by
      rw [AList.mem_insert, not_or]
      exact ⟨hne, hupstream⟩
    have hfull : maxEntries ≤ (map.insert (c.localSock.key e) c.upstream).entries.length := by
      rw [AList.entries_insert_of_notMem hlocal, List.length_cons, hsize]
    rw [SecondAccepted, hsecond, insertAnswer_full hkey hfull]
    exact Option.some_ne_none _
  refine ⟨splice_of_not_secondAccepted h₁ h₂, fun hkept => ?_⟩
  have hlookup := mapKept_iff.mp hkept h₁ h₂
  rw [AList.lookup_eq_none.mpr hlocal] at hlookup
  exact absurd hlookup (by simp)

/-- **Half of a connection.**  The second insertion into an empty map is refused, for want of
memory.  The call has copied nothing, has reported a success, and what the client sends from
now on is redirected to the backend. -/
theorem not_bothOrNone_second_refused :
    (splice .little ∅ ⟨Ingress.clientSocket 4 0x0a010203 20511, Ingress.backendSocket 5 40000,
        none, some 12⟩).map.lookup ((Ingress.clientSocket 4 0x0a010203 20511).verdictKey .little) =
        some (Ingress.backendSocket 5 40000) ∧
      ¬ BothOrNone .little ∅ ⟨Ingress.clientSocket 4 0x0a010203 20511,
        Ingress.backendSocket 5 40000, none, some 12⟩ := by
  refine ⟨by decide +kernel, fun h => ?_⟩
  have hkept := h.1 (by decide +kernel)
    ((Ingress.clientSocket 4 0x0a010203 20511).key .little)
  exact absurd hkept (by decide +kernel)

end SockMapSplice
end Turbine
