import Mathlib.Data.List.Basic

/-!
# Transferring data until the connection ends

Once a connection has its upstream, `handle_client` has one thing left to do: to copy in both
directions until both have ended, something fails, or `cnx_max_duration` has passed.  It is
written twice.  Without TLS termination it is a `tokio::time::timeout` around one transfer;
with it, a loop over a biased `select!` of a transfer and a timer.

Both look at the transfer first and at the timer only while the transfer is pending, so what
a round finds is the same for both (`Turn.found`), and so is what they do about an error and
about the timeout.  They differ in what follows a transfer that has completed: the `timeout`
is done with it, and in the loop only an error breaks, so the next round starts another
transfer on the connection.  `agrees_iff` says that this is the whole difference.
-/

namespace Turbine

/-- What polling a `zero_copy_bidirectional` call gives. -/
inductive TransferPoll (ε : Type) where
  | pending
  | ok
  | err (e : ε)
  deriving DecidableEq

/-- Why a connection is closed. -/
inductive Closing (ε : Type) where
  | completed
  | failed (e : ε)
  | timeout
  deriving DecidableEq

/-- One round: what the transfer under way gives when it is polled, and whether
`cnx_max_duration` has elapsed by then. -/
structure Turn (ε : Type) where
  transfer : TransferPoll ε
  elapsed : Bool

/-- What the round finds: the transfer is polled first, then the timer. -/
def Turn.found {ε : Type} (turn : Turn ε) : Option (Closing ε) :=
  match turn.transfer with
  | .ok => some .completed
  | .err e => some (.failed e)
  | .pending => if turn.elapsed then some .timeout else none

/-- A transfer completes before anything fails and before a round in which it is pending and
the timer has expired. -/
def CompletesFirst {ε : Type} (turns : List (Turn ε)) : Prop :=
  ∃ pre turn post, turns = pre ++ turn :: post ∧ turn.transfer = .ok ∧
    ∀ t ∈ pre, t.transfer = .pending ∧ t.elapsed = false

theorem Turn.found_eq_completed {ε : Type} {turn : Turn ε} :
    turn.found = some .completed ↔ turn.transfer = .ok := by
  unfold Turn.found
  cases turn.transfer with
  | pending => cases turn.elapsed <;> simp
  | ok => simp
  | err e => simp

theorem Turn.found_eq_none {ε : Type} {turn : Turn ε} :
    turn.found = none ↔ turn.transfer = .pending ∧ turn.elapsed = false := by
  unfold Turn.found
  cases turn.transfer with
  | pending => cases turn.elapsed <;> simp
  | ok => simp
  | err e => simp

theorem findSome?_eq_completed {ε : Type} {turns : List (Turn ε)} :
    turns.findSome? Turn.found = some .completed ↔ CompletesFirst turns := by
  simp only [List.findSome?_eq_some_iff, Turn.found_eq_completed, Turn.found_eq_none,
    CompletesFirst]

/-- How far `handle_client` has come. -/
structure Transfer (ε : Type) where
  /-- The transfers started so far. -/
  started : ℕ
  closing : Option (Closing ε)
  deriving DecidableEq

namespace Transfer

variable {ε : Type}

/-- The first transfer has been started. -/
def start : Transfer ε := ⟨1, none⟩

/-- A round of the passthrough path: `timeout` is ready with whatever it finds first. -/
def passthrough (s : Transfer ε) (turn : Turn ε) : Transfer ε :=
  match s.closing with
  | some _ => s
  | none =>
      match turn.found with
      | some closing => { s with closing := some closing }
      | none => s

/-- A round of the TLS termination path: `Err` and the timeout break out of the loop, and
after `Ok` the loop goes on with a new call. -/
def tlsTermination (s : Transfer ε) (turn : Turn ε) : Transfer ε :=
  match s.closing with
  | some _ => s
  | none =>
      match turn.found with
      | some .completed => { s with started := s.started + 1 }
      | some closing => { s with closing := some closing }
      | none => s

theorem foldl_passthrough (n : ℕ) (closing : Option (Closing ε)) (turns : List (Turn ε)) :
    turns.foldl passthrough ⟨n, closing⟩ = ⟨n, closing.or (turns.findSome? Turn.found)⟩ := by
  induction turns generalizing closing with
  | nil => rw [List.foldl_nil, List.findSome?_nil, Option.or_none]
  | cons turn turns ih =>
    rw [List.foldl_cons, List.findSome?_cons]
    cases closing with
    | some c => exact ih (some c)
    | none =>
      cases hfound : turn.found with
      | none =>
        simp only [passthrough, hfound]
        exact ih none
      | some c =>
        simp only [passthrough, hfound]
        exact ih (some c)

theorem foldl_tlsTermination_closed (n : ℕ) (c : Closing ε) (turns : List (Turn ε)) :
    turns.foldl tlsTermination ⟨n, some c⟩ = ⟨n, some c⟩ := by
  induction turns with
  | nil => rfl
  | cons turn turns ih => exact ih

/-- As long as no transfer completes first, the loop does what it should. -/
theorem foldl_tlsTermination {turns : List (Turn ε)}
    (h : turns.findSome? Turn.found ≠ some .completed) (n : ℕ) :
    turns.foldl tlsTermination ⟨n, none⟩ = ⟨n, turns.findSome? Turn.found⟩ := by
  induction turns with
  | nil => rfl
  | cons turn turns ih =>
    rw [List.findSome?_cons] at h ⊢
    rw [List.foldl_cons]
    cases hfound : turn.found with
    | none =>
      simp only [hfound] at h
      simp only [tlsTermination, hfound]
      exact ih h
    | some c =>
      cases c with
      | completed => exact absurd rfl (hfound ▸ h)
      | failed e =>
        simp only [tlsTermination, hfound]
        exact foldl_tlsTermination_closed n _ turns
      | timeout =>
        simp only [tlsTermination, hfound]
        exact foldl_tlsTermination_closed n _ turns

/-- No transfer is ever taken back. -/
theorem started_le_tlsTermination (s : Transfer ε) (turn : Turn ε) :
    s.started ≤ (s.tlsTermination turn).started := by
  unfold tlsTermination
  repeat' split
  all_goals simp

theorem started_le_foldl (s : Transfer ε) (turns : List (Turn ε)) :
    s.started ≤ (turns.foldl tlsTermination s).started := by
  induction turns generalizing s with
  | nil => exact Nat.le_refl _
  | cons turn turns ih => exact Nat.le_trans (started_le_tlsTermination s turn) (ih _)

/-- A transfer that completes first is followed by another one. -/
theorem started_lt_foldl {turns : List (Turn ε)}
    (h : turns.findSome? Turn.found = some .completed) (n : ℕ) :
    n < (turns.foldl tlsTermination ⟨n, none⟩).started := by
  induction turns with
  | nil => exact absurd h (by simp)
  | cons turn turns ih =>
    rw [List.findSome?_cons] at h
    rw [List.foldl_cons]
    cases hfound : turn.found with
    | none =>
      simp only [hfound] at h
      simp only [tlsTermination, hfound]
      exact ih h
    | some c =>
      simp only [hfound, Option.some.injEq] at h
      subst h
      simp only [tlsTermination, hfound]
      exact Nat.lt_of_succ_le (started_le_foldl ⟨n + 1, none⟩ turns)

/-- **When the TLS termination path ends as the passthrough path does.**  For every sequence
of outcomes and every moment at which the timer expires: after every round both paths have
closed the connection for the same reason or not at all, and no second transfer has been
started, if and only if the first thing that ends the waiting is not a completed transfer. -/
theorem agrees_iff (turns : List (Turn ε)) :
    (∀ k, (turns.take k).foldl tlsTermination start = (turns.take k).foldl passthrough start ∧
        ((turns.take k).foldl tlsTermination start).started = 1) ↔
      ¬ CompletesFirst turns := by
  rw [← findSome?_eq_completed]
  constructor
  · intro h hcompleted
    have hstarted := (h turns.length).2
    rw [List.take_length] at hstarted
    exact absurd hstarted (Nat.ne_of_gt (started_lt_foldl hcompleted 1))
  · intro h k
    have hk : (turns.take k).findSome? Turn.found ≠ some .completed := by
      intro hcompleted
      refine h ?_
      rw [← List.take_append_drop k turns, List.findSome?_append, hcompleted, Option.some_or]
    rw [start, foldl_tlsTermination hk, foldl_passthrough, Option.none_or]
    exact ⟨rfl, rfl⟩

/-- **Two transfers, and no timeout.**  Both directions have ended and the timer has expired:
the passthrough path has closed the connection after the first round, and the loop has not
after the third, on its fourth transfer. -/
theorem not_agrees_completed :
    [Turn.mk TransferPoll.ok true, ⟨.ok, true⟩, ⟨.ok, true⟩].foldl tlsTermination
        (start : Transfer String) = ⟨4, none⟩ ∧
      [Turn.mk TransferPoll.ok true, ⟨.ok, true⟩, ⟨.ok, true⟩].foldl passthrough
        (start : Transfer String) = ⟨1, some .completed⟩ :=
  ⟨rfl, rfl⟩

end Transfer
end Turbine
