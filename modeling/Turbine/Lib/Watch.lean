import Mathlib.Data.Nat.Notation

/-!
# A watch channel with one receiver

The channel holds one value and the number of times it has been replaced; the
receiver holds the version it has last seen.  Three things decide how it is used:

* sending overwrites, so versions between two looks of the receiver are lost;
* `changed` reports an unseen value *before* it reports that the sender is gone,
  so closing the channel never hides the last value;
* `borrowAndUpdate` reads the value of the moment, not the one `changed` reported.

The receiver never runs ahead of the sender, and that is a field of the channel
(`seen_le`), not a fact to be proved along every run.
-/

namespace Turbine

/-- The state of a watch channel, sender and receiver together. -/
structure Watch (ρ : Type*) where
  /-- The current value. -/
  value : ρ
  /-- How many times the value has been replaced. -/
  version : ℕ
  /-- The version the receiver has marked as seen. -/
  seen : ℕ
  /-- The sender has been dropped. -/
  closed : Bool
  /-- The receiver has only seen versions that were sent. -/
  seen_le : seen ≤ version
  deriving DecidableEq

/-- What one poll of `changed` can answer. -/
inductive Changed where
  | ok
  | closed
  | pending
  deriving DecidableEq

namespace Watch

variable {ρ : Type*}

/-- `watch::channel`: the first value counts as seen. -/
def channel (v : ρ) : Watch ρ := ⟨v, 0, 0, false, Nat.le_refl 0⟩

/-- `Sender::send_replace`. -/
def sendReplace (w : Watch ρ) (v : ρ) : Watch ρ :=
  { w with value := v, version := w.version + 1, seen_le := Nat.le_succ_of_le w.seen_le }

/-- The sender goes out of scope. -/
def dropSender (w : Watch ρ) : Watch ρ := { w with closed := true }

/-- The receiver catches up with the sender. -/
def markSeen (w : Watch ρ) : Watch ρ :=
  { w with seen := w.version, seen_le := Nat.le_refl w.version }

/-- One poll of `Receiver::changed`. -/
def changed (w : Watch ρ) : Changed × Watch ρ :=
  if w.seen ≠ w.version then (.ok, w.markSeen)
  else if w.closed then (.closed, w) else (.pending, w)

/-- `Receiver::borrow_and_update`. -/
def borrowAndUpdate (w : Watch ρ) : ρ × Watch ρ := (w.value, w.markSeen)

@[simp] theorem sendReplace_value (w : Watch ρ) (v : ρ) : (w.sendReplace v).value = v := rfl
@[simp] theorem sendReplace_version (w : Watch ρ) (v : ρ) :
    (w.sendReplace v).version = w.version + 1 := rfl
@[simp] theorem sendReplace_closed (w : Watch ρ) (v : ρ) :
    (w.sendReplace v).closed = w.closed := rfl

@[simp] theorem dropSender_closed (w : Watch ρ) : w.dropSender.closed = true := rfl

theorem changed_of_unseen {w : Watch ρ} (h : w.seen ≠ w.version) :
    w.changed = (.ok, w.markSeen) := if_pos h

theorem changed_of_closed {w : Watch ρ} (h : w.seen = w.version) (hc : w.closed = true) :
    w.changed = (.closed, w) := by
  rw [changed, if_neg (not_not_intro h), if_pos hc]

theorem changed_of_pending {w : Watch ρ} (h : w.seen = w.version) (hc : w.closed = false) :
    w.changed = (.pending, w) := by
  rw [changed, if_neg (not_not_intro h), if_neg (by simp [hc])]

/-- **Everything a poll of `changed` can say.**  Both of the other answers mean
that the receiver is up to date; only the closed one means that the sender is
gone. -/
theorem changed_cases (w : Watch ρ) :
    (w.changed = (.ok, w.markSeen) ∧ w.seen ≠ w.version) ∨
      (w.changed = (.closed, w) ∧ w.seen = w.version ∧ w.closed = true) ∨
      (w.changed = (.pending, w) ∧ w.seen = w.version ∧ w.closed = false) := by
  by_cases h : w.seen = w.version
  · cases hc : w.closed with
    | true => exact Or.inr (Or.inl ⟨changed_of_closed h hc, h, rfl⟩)
    | false => exact Or.inr (Or.inr ⟨changed_of_pending h hc, h, rfl⟩)
  · exact Or.inl ⟨changed_of_unseen h, h⟩

end Watch
end Turbine
