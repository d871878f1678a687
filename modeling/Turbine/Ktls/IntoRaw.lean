import Mathlib.Data.List.TakeDrop
import Turbine.Ktls.Stream

/-!
# Taking a kernel TLS stream apart: `KtlsStream::into_raw`

`into_raw` gives back the inner stream and the drained bytes, for someone who wants to go on
without the `KtlsStream`.  What its callers have read and what comes back should be the
drained bytes, as long as nothing has been read from the inner stream.

The drained bytes are kept together with an index, and `poll_read` only moves the index on;
`into_raw` drops the index and returns the whole buffer.  So after a partial read the bytes
already read come back a second time.  And when `poll_read` has forgotten the buffer too
early, nothing comes back for the bytes that were still due.  `recovered_iff` says that there
is no third way, and which calls are free of both.
-/

namespace Turbine
namespace Session

open Runs

/-- The call does not get to the inner stream. -/
def FromDrain (s : Session) (c : ReadCall) : Prop :=
  (s.stream.pollRead c.size c.answers).innerRead = false

instance (s : Session) (c : ReadCall) : Decidable (s.FromDrain c) :=
  inferInstanceAs (Decidable (_ = false))

/-- The room in the buffers of the calls. -/
def room : List ReadCall → ℕ
  | [] => 0
  | c :: calls => c.size + room calls

/-- What has been read, and what `into_raw` returns. -/
def recovered (s : Session) : List UInt8 := s.out ++ s.stream.intoRaw.getD []

/-- The state after calls with room for `n` bytes altogether: the bytes that fit have been
read, and the rest is still there, or it has been forgotten. -/
inductive Partly (D : List UInt8) (n : ℕ) (s : Session) : Prop
  | kept (hout : s.out = D.take n) (hstream : s.stream = ⟨false, false, some (n, D)⟩)
      (hn : n = 0 ∨ n < D.length)
  | forgotten (hout : s.out = D.take n) (hstream : s.stream = ⟨false, false, none⟩) (hn : n ≠ 0)

theorem partly_start (D : List UInt8) : Partly D 0 (start D) :=
  .kept (List.take_zero).symm rfl (Or.inl rfl)

theorem Partly.of_step {D : List UInt8} {n : ℕ} {s t : Session} {c : ReadCall}
    (hs : Partly D n s) (hsize : c.size ≠ 0) (hdrain : s.FromDrain c) (h : s.step c = some t) :
    Partly D (n + c.size) t := by
  have ht := step_eq_some h
  cases hs with
  | forgotten _ hstream _ =>
    -- the call would read the inner stream
    rw [FromDrain, hstream, KtlsStream.pollRead_of_none rfl hsize] at hdrain
    exact absurd ((KtlsStream.innerRead_readInner _ _ _).symm.trans hdrain) (by simp)
  | kept hout hstream hn =>
    have hle : n ≤ D.length := by omega
    rw [hstream, KtlsStream.pollRead_of_drained hle hsize] at ht
    have hput : t.out = D.take (n + c.size) := by
      rw [ht]
      show s.out ++ (D.drop n).take (min c.size (D.length - n)) = _
      rw [hout, ← List.take_add, List.take_eq_take_iff]
      omega
    by_cases hforget : D.length - n ≤ n + min c.size (D.length - n)
    · refine .forgotten hput ?_ (by omega)
      rw [ht, if_pos hforget]
    · have hmin : min c.size (D.length - n) = c.size := by omega
      refine .kept hput ?_ (Or.inr (by omega))
      rw [ht, if_neg hforget, hmin]

theorem room_snoc (calls : List ReadCall) (c : ReadCall) :
    room (calls ++ [c]) = room calls + c.size := by
  induction calls with
  | nil => exact Nat.add_comm _ _
  | cons c' calls ih => rw [List.cons_append, room, room, ih, Nat.add_assoc]

/-- **Where a sequence of calls leaves the drained bytes.** -/
theorem partly_of_run {D : List UInt8} {calls : List ReadCall} {s : Session}
    (hsize : ∀ c ∈ calls, c.size ≠ 0) (hdrain : Allowed step FromDrain (start D) calls)
    (h : run step (start D) calls = some s) : Partly D (room calls) s := by
  refine run_induction (motive := fun calls s => (∀ c ∈ calls, c.size ≠ 0) →
    Allowed step FromDrain (start D) calls → Partly D (room calls) s) ?_ ?_ h
    hsize hdrain
  · exact fun _ _ => partly_start D
  · intro calls c s t hs ih ht hsize hdrain
    rw [room_snoc]
    refine (ih (fun c' hc' => hsize c' (List.mem_append_left _ hc')) hdrain.of_append).of_step
      (hsize c (by simp)) (hdrain.last hs) ht

theorem room_eq_zero_iff {calls : List ReadCall} (hsize : ∀ c ∈ calls, c.size ≠ 0) :
    room calls = 0 ↔ calls = [] := by
  cases calls with
  | nil => exact iff_of_true rfl rfl
  | cons c calls =>
    have hc := hsize c List.mem_cons_self
    simp only [room, reduceCtorEq, iff_false]
    omega

/-- **When taking the stream apart gives back what was not read.**  For all drained bytes and
every sequence of calls with room in their buffers, before any read of the inner stream: what
has been read and what `into_raw` returns are the drained bytes if and only if there was no
call, or the calls had room for all of them. -/
theorem recovered_iff (D : List UInt8) (calls : List ReadCall) (hsize : ∀ c ∈ calls, c.size ≠ 0)
    (hdrain : Allowed step FromDrain (start D) calls) (s : Session)
    (h : run step (start D) calls = some s) :
    s.recovered = D ↔ calls = [] ∨ D.length ≤ room calls := by
  rw [← room_eq_zero_iff hsize]
  cases partly_of_run hsize hdrain h with
  | kept hout hstream hn =>
    have hraw : s.recovered = D.take (room calls) ++ D := by
      rw [recovered, hout, hstream]
      rfl
    rw [hraw, List.append_left_eq_self, List.take_eq_nil_iff, ← List.length_eq_zero_iff]
    omega
  | forgotten hout hstream hn =>
    have hraw : s.recovered = D.take (room calls) := by
      rw [recovered, hout, hstream]
      exact List.append_nil _
    rw [hraw, List.take_eq_self_iff]
    omega

theorem recovered_iff_two_buffers :
    ∃ s, run step (start [0, 1, 2, 3]) (calls [2, 4]) = some s ∧ s.recovered = [0, 1, 2, 3] :=
  ⟨_, rfl, (recovered_iff [0, 1, 2, 3] (calls [2, 4]) (by decide) (by decide) _ rfl).mpr
    (Or.inr (by decide))⟩

/-- **Read twice, or lost.**  Two bytes of four are read, and all four come back; and eight
bytes of ten are read, with room for five and then for three, and nothing comes back. -/
theorem not_recovered_partial_read :
    (∃ s, run step (start [0, 1, 2, 3]) (calls [2]) = some s ∧ s.out = [0, 1] ∧
      s.stream.intoRaw = some [0, 1, 2, 3] ∧ s.recovered ≠ [0, 1, 2, 3]) ∧
    ∃ s, run step (start [0, 1, 2, 3, 4, 5, 6, 7, 8, 9]) (calls [5, 3]) = some s ∧
      s.out = [0, 1, 2, 3, 4, 5, 6, 7] ∧ s.stream.intoRaw = none ∧
      s.recovered ≠ [0, 1, 2, 3, 4, 5, 6, 7, 8, 9] :=
  ⟨⟨_, rfl, rfl, rfl, by decide⟩, _, rfl, rfl, rfl, by decide⟩

end Session
end Turbine
