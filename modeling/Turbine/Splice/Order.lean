import Turbine.Lib.Bypass
import Turbine.Lib.Runs

/-!
# The order of bytes through a sockmap splice

While `SockMapSplice::splice` sets a connection up, the bytes of either side have two ways to
the other one.  What arrives before the socket is in the map goes to its receive queue, and
`copy_bidirectional` forwards it in user space; what arrives later is redirected by the
kernel.  The source says about the copying that it is there to forward what is already
buffered, and nothing makes the redirected segments wait for it.

Each direction is a `Flow`, a queue with a bypass.  The steps are the arrival of a segment on
either side, the two insertions of `splice`, each of which may fail, and the reads and writes
of the copying.  A segment is redirected when its socket's key is found in the map and the
socket itself is in it: the first insertion puts `upstream` there under the key of `local`,
and the second one `local` under the key of `upstream`.
-/

namespace Turbine

open Runs

/-- Where the bytes are going. -/
inductive Direction where
  | toUpstream
  | toLocal
  deriving DecidableEq

/-- Where `splice` stands. -/
inductive SplicePoint where
  | firstInsert
  | secondInsert
  | copying
  | returned
  deriving DecidableEq

/-- One connection that is being spliced. -/
structure Splicing (α : Type) where
  point : SplicePoint
  /-- `upstream` is in the map, under the key of `local`. -/
  upstreamInserted : Bool
  /-- `local` is in the map, under the key of `upstream`. -/
  localInserted : Bool
  toUpstream : Flow α
  toLocal : Flow α
  deriving DecidableEq

/-- What happens on the connection. -/
inductive SpliceEvent (α : Type) where
  /-- a segment for this direction arrives -/
  | arrive (d : Direction) (segment : List α)
  /-- the next insertion, and whether it succeeds -/
  | insert (ok : Bool)
  /-- `copy_bidirectional` reads up to `n` bytes -/
  | read (d : Direction) (n : ℕ)
  /-- it writes up to `n` bytes of those it has read -/
  | write (d : Direction) (n : ℕ)
  /-- it ends, with or without an error -/
  | finish

namespace Splicing

variable {α : Type}

/-- Before the first insertion. -/
def start : Splicing α := ⟨.firstInsert, false, false, {}, {}⟩

def flow (s : Splicing α) : Direction → Flow α
  | .toUpstream => s.toUpstream
  | .toLocal => s.toLocal

/-- The bytes of one direction are moved. -/
def move (s : Splicing α) (d : Direction) (f : Flow α → Flow α) : Splicing α :=
  match d with
  | .toUpstream => { s with toUpstream := f s.toUpstream }
  | .toLocal => { s with toLocal := f s.toLocal }

/-- `stream_verdict` finds the key of the socket on which the segments of this direction
arrive. -/
def keyFound (s : Splicing α) : Direction → Bool
  | .toUpstream => s.upstreamInserted
  | .toLocal => s.localInserted

/-- That socket is in the map, so that `stream_verdict` runs on what arrives. -/
def inMap (s : Splicing α) : Direction → Bool
  | .toUpstream => s.localInserted
  | .toLocal => s.upstreamInserted

/-- A segment of this direction is redirected. -/
def redirects (s : Splicing α) (d : Direction) : Bool := s.keyFound d && s.inMap d

/-- One step. -/
def step (s : Splicing α) : SpliceEvent α → Option (Splicing α)
  | .arrive d segment =>
      some (s.move d (if s.redirects d then Flow.bypass segment else Flow.enqueue segment))
  | .insert ok =>
      match s.point with
      | .firstInsert =>
          if ok then some { s with point := .secondInsert, upstreamInserted := true }
          else some { s with point := .returned }
      | .secondInsert =>
          if ok then some { s with point := .copying, localInserted := true }
          else some { s with point := .returned }
      | _ => none
  | .read d n => if s.point = .copying then some (s.move d (Flow.read n)) else none
  | .write d n => if s.point = .copying then some (s.move d (Flow.write n)) else none
  | .finish => if s.point = .copying then some { s with point := .returned } else none

/-- What has been sent on either side is the beginning of what the other side has sent. -/
def Ordered (s : Splicing α) : Prop := ∀ d, (s.flow d).Ordered

/-- No bytes are redirected past bytes of the same direction that are still in the receive
queue or in the buffer of the copying. -/
def NoOvertaking (s : Splicing α) : SpliceEvent α → Prop
  | .arrive d segment =>
      s.redirects d = true → segment = [] ∨ ((s.flow d).queue = [] ∧ (s.flow d).buffer = [])
  | _ => True

/-! ## What a step does to a flow -/

/-- What a step can do to the flow of one direction. -/
inductive FlowStep (s : Splicing α) (a : SpliceEvent α) (d : Direction) (f : Flow α) : Prop
  | same (hf : f = s.flow d)
  | enqueue (segment : List α) (hf : f = (s.flow d).enqueue segment)
  | bypass (segment : List α) (ha : a = .arrive d segment) (hredirects : s.redirects d = true)
      (hf : f = (s.flow d).bypass segment)
  | read (n : ℕ) (hf : f = (s.flow d).read n)
  | write (n : ℕ) (hf : f = (s.flow d).write n)

theorem flow_move (s : Splicing α) (d d' : Direction) (f : Flow α → Flow α) :
    (s.move d f).flow d' = if d' = d then f (s.flow d') else s.flow d' := by
  cases d <;> cases d' <;> rfl

/-- Bytes of one direction are moved, and those of the other one stay where they are. -/
theorem flowStep_move {s : Splicing α} {a : SpliceEvent α} {d' : Direction} {f : Flow α → Flow α}
    (h : FlowStep s a d' (f (s.flow d'))) (d : Direction) :
    FlowStep s a d ((s.move d' f).flow d) := by
  rw [flow_move]
  by_cases hd : d = d'
  · subst hd
    rw [if_pos rfl]
    exact h
  · rw [if_neg hd]
    exact .same rfl

theorem flowStep_of_step {s t : Splicing α} {a : SpliceEvent α} (h : s.step a = some t)
    (d : Direction) : FlowStep s a d (t.flow d) := by
  cases a with
  | arrive d' segment =>
    obtain rfl := Option.some.inj h
    refine flowStep_move ?_ d
    by_cases hredirects : s.redirects d' = true
    · rw [if_pos hredirects]
      exact .bypass segment rfl hredirects rfl
    · rw [if_neg hredirects]
      exact .enqueue segment rfl
  | insert ok =>
    -- an insertion moves no bytes
    simp only [step] at h
    split at h
    · cases ok <;> obtain rfl := Option.some.inj h <;> exact .same (by cases d <;> rfl)
    · cases ok <;> obtain rfl := Option.some.inj h <;> exact .same (by cases d <;> rfl)
    · exact absurd h (by simp)
  | read d' n =>
    simp only [step] at h
    split at h
    · obtain rfl := Option.some.inj h
      exact flowStep_move (.read n rfl) d
    · exact absurd h (by simp)
  | write d' n =>
    simp only [step] at h
    split at h
    · obtain rfl := Option.some.inj h
      exact flowStep_move (.write n rfl) d
    · exact absurd h (by simp)
  | finish =>
    simp only [step] at h
    split at h
    · obtain rfl := Option.some.inj h
      exact .same (by cases d <;> rfl)
    · exact absurd h (by simp)

/-- Both directions are in order. -/
def InOrder (s : Splicing α) : Prop := ∀ d, (s.flow d).InOrder

/-- Nothing is lost in either direction. -/
def Accounted (s : Splicing α) : Prop := ∀ d, (s.flow d).Accounted

theorem InOrder.ordered {s : Splicing α} (h : s.InOrder) : s.Ordered := fun d => (h d).ordered

theorem inOrder_of_step {s t : Splicing α} {a : SpliceEvent α} (hs : s.InOrder)
    (ha : s.NoOvertaking a) (h : s.step a = some t) : t.InOrder := by
  intro d
  cases flowStep_of_step h d with
  | same hf =>
    rw [hf]
    exact hs d
  | enqueue segment hf =>
    rw [hf]
    exact (Flow.inOrder_enqueue segment _).mpr (hs d)
  | bypass segment harrive hredirects hf =>
    subst harrive
    rw [hf]
    refine Flow.inOrder_bypass (hs d) ((ha hredirects).imp_right fun hempty => ?_)
    rw [Flow.pending, hempty.1, hempty.2, List.append_nil]
  | read n hf =>
    rw [hf]
    exact (Flow.inOrder_read n _).mpr (hs d)
  | write n hf =>
    rw [hf]
    exact (Flow.inOrder_write n _).mpr (hs d)

theorem accounted_of_step {s t : Splicing α} {a : SpliceEvent α} (hs : s.Accounted)
    (h : s.step a = some t) : t.Accounted := by
  intro d
  cases flowStep_of_step h d with
  | same hf => exact hf ▸ hs d
  | enqueue segment hf => exact hf ▸ Flow.accounted_enqueue (hs d)
  | bypass segment _ _ hf => exact hf ▸ Flow.accounted_bypass (hs d)
  | read n hf => exact hf ▸ Flow.accounted_read (hs d)
  | write n hf => exact hf ▸ Flow.accounted_write (hs d)

/-- What has been sent, and what has come out, stays. -/
theorem prefix_of_step {s t : Splicing α} {a : SpliceEvent α} (h : s.step a = some t)
    (d : Direction) :
    (s.flow d).output <+: (t.flow d).output ∧ (s.flow d).sent <+: (t.flow d).sent := by
  cases flowStep_of_step h d with
  | same hf => exact hf ▸ ⟨List.prefix_refl _, List.prefix_refl _⟩
  | enqueue segment hf => exact hf ▸ ⟨List.prefix_refl _, List.prefix_append _ _⟩
  | bypass segment _ _ hf => exact hf ▸ ⟨List.prefix_append _ _, List.prefix_append _ _⟩
  | read n hf => exact hf ▸ ⟨List.prefix_refl _, List.prefix_refl _⟩
  | write n hf => exact hf ▸ ⟨List.prefix_append _ _, List.prefix_refl _⟩

/-- A step after which distinct bytes are in order has overtaken none. -/
theorem noOvertaking_of_ordered {s t : Splicing α} {a : SpliceEvent α} (hs : s.InOrder)
    (hnodup : ∀ d, (t.flow d).sent.Nodup) (h : s.step a = some t) (ht : t.Ordered) :
    s.NoOvertaking a := by
  cases a with
  | arrive d segment =>
    intro hredirects
    have hflow : t.flow d = (s.flow d).bypass segment := by
      obtain rfl := Option.some.inj h
      rw [flow_move, if_pos rfl, if_pos hredirects]
    by_contra hnot
    obtain ⟨hsegment, hslow⟩ := not_or.mp hnot
    have hpending : (s.flow d).pending ≠ [] := by
      intro hnil
      obtain ⟨hbuffer, hqueue⟩ := List.append_eq_nil_iff.mp hnil
      exact hslow ⟨hqueue, hbuffer⟩
    have hsent := hnodup d
    rw [hflow] at hsent
    exact Flow.not_ordered_bypass (hs d) hsegment hpending hsent (hflow ▸ ht d)
  | _ => trivial

theorem inOrder_start : (start : Splicing α).InOrder := by
  intro d
  cases d <;> rfl

theorem accounted_start : (start : Splicing α).Accounted := by
  intro d
  cases d <;> rfl

/-- If distinct bytes are in order at the end of a run, they have been all along. -/
theorem allowed_of_ordered {events : List (SpliceEvent α)} {s : Splicing α}
    (h : run step start events = some s) (hnodup : ∀ d, (s.flow d).sent.Nodup)
    (hs : s.Ordered) : Allowed step NoOvertaking start events ∧ s.InOrder := by
  refine run_induction (motive := fun events s => (∀ d, (s.flow d).sent.Nodup) → s.Ordered →
    Allowed step NoOvertaking start events ∧ s.InOrder) ?_ ?_ h hnodup hs
  · exact fun _ _ => ⟨.nil, inOrder_start⟩
  · intro events a s t hrun ih hstep hnodup ht
    have hacc : s.Accounted := run_invariant accounted_start (fun _ _ _ => accounted_of_step) hrun
    have hs : s.Ordered := by
      intro d
      by_contra hnot
      obtain ⟨hout, hsent⟩ := prefix_of_step hstep d
      exact Flow.not_ordered_of_later (hacc d) hout hsent hnot (ht d)
    have hnodup' : ∀ d, (s.flow d).sent.Nodup := fun d =>
      (hnodup d).sublist (prefix_of_step hstep d).2.sublist
    obtain ⟨hallowed, hin⟩ := ih hnodup' hs
    have ha := noOvertaking_of_ordered hin hnodup hstep ht
    exact ⟨(allowed_snoc hrun).mpr ⟨hallowed, ha⟩, inOrder_of_step hin ha hstep⟩

/-- **When a sockmap splice keeps the order of the bytes.**  In every run in which no bytes
are redirected past others of their direction, what has been sent on either side is at all
times the beginning of what the other side has sent.  And this is the only way: with bytes
that can be told apart, the order at the end of a run shows that none were. -/
theorem ordered_iff (events : List (SpliceEvent α)) (s : Splicing α)
    (h : run step start events = some s) :
    (Allowed step NoOvertaking start events → s.Ordered) ∧
      ((∀ d, (s.flow d).sent.Nodup) →
        (s.Ordered ↔ Allowed step NoOvertaking start events)) := by
  have hordered : Allowed step NoOvertaking start events → s.Ordered := fun hallowed =>
    (run_invariant_of_allowed inOrder_start (fun _ _ _ => inOrder_of_step) hallowed h).ordered
  exact ⟨hordered, fun hnodup => ⟨fun hs => (allowed_of_ordered h hnodup hs).1, hordered⟩⟩

/-- The client's first segment is copied before its second one arrives. -/
def copiedInTime : List (SpliceEvent ℕ) :=
  [.insert true, .arrive .toUpstream [1, 2], .insert true, .read .toUpstream 8192,
    .write .toUpstream 1, .write .toUpstream 8192, .arrive .toUpstream [3], .arrive .toLocal [4]]

instance (s : Splicing α) [DecidableEq α] (a : SpliceEvent α) : Decidable (s.NoOvertaking a) :=
  match a with
  | .arrive _ _ => inferInstanceAs (Decidable (_ = true → _ = [] ∨ (_ = [] ∧ _ = [])))
  | .insert _ => isTrue trivial
  | .read _ _ => isTrue trivial
  | .write _ _ => isTrue trivial
  | .finish => isTrue trivial

theorem ordered_iff_copiedInTime :
    ∃ s, run step start copiedInTime = some s ∧ s.toUpstream.output = [1, 2, 3] ∧
      s.toLocal.output = [4] ∧ s.Ordered :=
  ⟨_, rfl, rfl, rfl, (ordered_iff copiedInTime _ rfl).1 (by decide)⟩

/-- **The second segment overtakes the first.**  The client's first segment arrives between
the insertions and waits in the receive queue; the second one arrives after them, before
anything has been copied. -/
theorem not_ordered_second_segment :
    ∃ s, run step start
        [.insert true, .arrive .toUpstream [1], .insert true, .arrive .toUpstream [2],
          .read .toUpstream 8192, .write .toUpstream 8192] = some s ∧
      s.toUpstream.sent = [1, 2] ∧ s.toUpstream.output = [2, 1] ∧ ¬ s.Ordered := by
  refine ⟨_, rfl, rfl, rfl, fun h => ?_⟩
  have hprefix : [2, 1] <+: [1, 2] := h .toUpstream
  exact absurd hprefix (by decide)

end Splicing
end Turbine
