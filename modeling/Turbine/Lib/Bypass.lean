import Mathlib.Data.List.Basic
import Mathlib.Data.List.Nodup

/-!
# A queue with a bypass

Items go from a sender to an output on two paths.  One is a queue, from which a worker reads
into a buffer and writes to the output; the other is a bypass, straight to the output.  The
worker keeps the order, so as long as nothing takes the bypass while something is on the slow
path, what has come out is the beginning of what was sent (`InOrder`).

An item that overtakes another one breaks the order.  This cannot be seen when the items look
alike, so the converse is about items that are all different; and then the order is broken
for good, since the output only grows (`not_ordered_of_later`).
-/

namespace Turbine

/-- What has been sent, and where it is. -/
structure Flow (α : Type) where
  sent : List α := []
  queue : List α := []
  buffer : List α := []
  output : List α := []
  deriving DecidableEq

namespace Flow

variable {α : Type}

/-- A segment enters the queue. -/
def enqueue (segment : List α) (f : Flow α) : Flow α :=
  { f with sent := f.sent ++ segment, queue := f.queue ++ segment }

/-- A segment goes straight to the output. -/
def bypass (segment : List α) (f : Flow α) : Flow α :=
  { f with sent := f.sent ++ segment, output := f.output ++ segment }

/-- The worker reads up to `n` items. -/
def read (n : ℕ) (f : Flow α) : Flow α :=
  { f with queue := f.queue.drop n, buffer := f.buffer ++ f.queue.take n }

/-- The worker writes up to `n` items. -/
def write (n : ℕ) (f : Flow α) : Flow α :=
  { f with buffer := f.buffer.drop n, output := f.output ++ f.buffer.take n }

/-- What is on the slow path. -/
def pending (f : Flow α) : List α := f.buffer ++ f.queue

/-- What has come out is the beginning of what was sent. -/
def Ordered (f : Flow α) : Prop := f.output <+: f.sent

/-- What has come out, and then what is on the slow path, is what was sent. -/
def InOrder (f : Flow α) : Prop := f.output ++ f.pending = f.sent

/-- Nothing is lost and nothing is duplicated. -/
def Accounted (f : Flow α) : Prop := f.output.length + f.pending.length = f.sent.length

theorem InOrder.ordered {f : Flow α} (h : f.InOrder) : f.Ordered := ⟨f.pending, h⟩

@[simp] theorem pending_enqueue (segment : List α) (f : Flow α) :
    (f.enqueue segment).pending = f.pending ++ segment :=
  (List.append_assoc f.buffer f.queue segment).symm

@[simp] theorem pending_read (n : ℕ) (f : Flow α) : (f.read n).pending = f.pending := by
  show f.buffer ++ f.queue.take n ++ f.queue.drop n = f.buffer ++ f.queue
  rw [List.append_assoc, List.take_append_drop]

/-- What the worker writes comes from the head of the slow path. -/
theorem output_write_append_pending (n : ℕ) (f : Flow α) :
    (f.write n).output ++ (f.write n).pending = f.output ++ f.pending := by
  show f.output ++ f.buffer.take n ++ (f.buffer.drop n ++ f.queue) =
    f.output ++ (f.buffer ++ f.queue)
  rw [List.append_assoc, ← List.append_assoc (f.buffer.take n), List.take_append_drop]

/-! ## Keeping the order -/

theorem inOrder_enqueue (segment : List α) (f : Flow α) :
    (f.enqueue segment).InOrder ↔ f.InOrder := by
  show f.output ++ _ = f.sent ++ segment ↔ _
  rw [pending_enqueue, ← List.append_assoc, List.append_left_inj]
  rfl

theorem inOrder_read (n : ℕ) (f : Flow α) : (f.read n).InOrder ↔ f.InOrder := by
  rw [InOrder, pending_read]
  rfl

theorem inOrder_write (n : ℕ) (f : Flow α) : (f.write n).InOrder ↔ f.InOrder := by
  rw [InOrder, output_write_append_pending]
  rfl

/-- A segment may take the bypass when nothing is on the slow path. -/
theorem inOrder_bypass {segment : List α} {f : Flow α} (h : f.InOrder)
    (hfree : segment = [] ∨ f.pending = []) : (f.bypass segment).InOrder := by
  show f.output ++ segment ++ f.pending = f.sent ++ segment
  rcases hfree with rfl | hpending
  · rw [List.append_nil, List.append_nil]
    exact h
  · rw [InOrder, hpending, List.append_nil] at h
    rw [hpending, List.append_nil, h]

/-! ## Breaking it -/

theorem accounted_enqueue {segment : List α} {f : Flow α} (h : f.Accounted) :
    (f.enqueue segment).Accounted := by
  show f.output.length + (f.enqueue segment).pending.length = (f.sent ++ segment).length
  rw [pending_enqueue, List.length_append, List.length_append, ← h, Nat.add_assoc]

theorem accounted_bypass {segment : List α} {f : Flow α} (h : f.Accounted) :
    (f.bypass segment).Accounted := by
  show (f.output ++ segment).length + f.pending.length = (f.sent ++ segment).length
  rw [List.length_append, List.length_append, ← h, Nat.add_right_comm]

theorem accounted_read {n : ℕ} {f : Flow α} (h : f.Accounted) : (f.read n).Accounted := by
  rw [Accounted, pending_read]
  exact h

theorem accounted_write {n : ℕ} {f : Flow α} (h : f.Accounted) : (f.write n).Accounted := by
  rw [Accounted, ← List.length_append, output_write_append_pending, List.length_append]
  exact h

/-- The order is never restored. -/
theorem not_ordered_of_later {f g : Flow α} (hf : f.Accounted) (hout : f.output <+: g.output)
    (hsent : f.sent <+: g.sent) (hnot : ¬ f.Ordered) : ¬ g.Ordered := by
  intro hg
  refine hnot (List.prefix_of_prefix_length_le (hout.trans hg) hsent ?_)
  rw [← hf]
  exact Nat.le_add_right _ _

/-- A segment that overtakes something breaks the order, if the items are all different. -/
theorem not_ordered_bypass {segment : List α} {f : Flow α} (h : f.InOrder)
    (hsegment : segment ≠ []) (hpending : f.pending ≠ []) (hnodup : (f.sent ++ segment).Nodup) :
    ¬ (f.bypass segment).Ordered := by
  intro hordered
  obtain ⟨x, xs, rfl⟩ := List.exists_cons_of_ne_nil hsegment
  obtain ⟨y, ys, hy⟩ := List.exists_cons_of_ne_nil hpending
  -- after the same output, `x` is next on one side and `y` on the other
  have hprefix : f.output ++ x :: xs <+: f.output ++ (y :: ys ++ x :: xs) := by
    rw [← List.append_assoc, ← hy, h]
    exact hordered
  have hxy : x = y := (List.cons_prefix_cons.mp ((List.prefix_append_right_inj _).mp hprefix)).1
  have hmem : y ∈ f.sent := by
    rw [← h, hy]
    exact List.mem_append_right _ List.mem_cons_self
  exact (List.disjoint_of_nodup_append hnodup) hmem (hxy ▸ List.mem_cons_self)

end Flow
end Turbine
