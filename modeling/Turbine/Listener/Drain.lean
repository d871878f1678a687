import Turbine.Listener.NewestRule

/-!
# What the drain of a stopped listener leaves behind

When the event loop drops the sender, the runner goes on round its loop, takes one
connection out of the accept queue each time with `poll_accept`, and returns as soon
as `poll_accept` gives it anything else.  Three answers are not a connection: the
queue is empty, the head of the queue is an error, or the task's cooperative budget
is spent.  The loop never yields while it drains, so the budget is never refilled,
and it takes the last two for the first.

`Drainable b q` says which queues survive that with a budget of `b`: all connections
stand before the first error, and there are at most `b` of them.  Where the runner
stands when the sender is dropped decides which queue and which budget count
(`DrainsFrom`): an accept that is already under way still takes the head of the queue
by the normal branch, where an error is harmless, and a task that has yielded starts
with a full budget.

`step_drainsFrom` is the one case analysis: no step of a runner whose sender is gone
changes whether the rest of its old queue will be drained.  The new arrivals stand
behind the old queue and are never reached before it is gone.
-/

namespace Turbine
namespace LBRunner

open Runs

variable {ρ κ : Type}

/-! ## Queues that a budget can drain -/

/-- The connections in a queue. -/
def conns (q : List (Incoming κ)) : List κ := q.filterMap Incoming.conn?

@[simp] theorem conns_nil : conns ([] : List (Incoming κ)) = [] := rfl

@[simp] theorem conns_conn (c : κ) (q : List (Incoming κ)) :
    conns (.conn c :: q) = c :: conns q := rfl

@[simp] theorem conns_err (q : List (Incoming κ)) : conns (.err :: q) = conns q := rfl

/-- All connections of the queue stand before the first error, and they are at most
`b`. -/
def Drainable (b : ℕ) (q : List (Incoming κ)) : Prop :=
  ∃ (cs : List κ) (rest : List (Incoming κ)),
    q = cs.map .conn ++ rest ∧ conns rest = [] ∧ cs.length ≤ b

theorem drainable_of_conns_eq_nil {b : ℕ} {q : List (Incoming κ)} (h : conns q = []) :
    Drainable b q :=
  ⟨[], q, rfl, h, Nat.zero_le b⟩

theorem drainable_zero_iff {q : List (Incoming κ)} : Drainable 0 q ↔ conns q = [] := by
  constructor
  · rintro ⟨cs, rest, rfl, hrest, hlen⟩
    have hcs : cs = [] := List.eq_nil_of_length_eq_zero (Nat.le_zero.mp hlen)
    rw [hcs]
    exact hrest
  · exact drainable_of_conns_eq_nil

/-- A connection at the head costs one unit of budget. -/
theorem drainable_conn_iff {b : ℕ} {c : κ} {q : List (Incoming κ)} (hb : b ≠ 0) :
    Drainable b (.conn c :: q) ↔ Drainable (b - 1) q := by
  constructor
  · rintro ⟨cs, rest, heq, hrest, hlen⟩
    cases cs with
    | nil =>
      -- the connection at the head would have to be among the errors
      have hc : conns rest = c :: conns q := by rw [← conns_conn, heq]; rfl
      exact absurd (hrest.symm.trans hc) (by simp)
    | cons c' cs =>
      have htail : q = cs.map .conn ++ rest := (List.cons.inj heq).2
      rw [List.length_cons] at hlen
      exact ⟨cs, rest, htail, hrest, by omega⟩
  · rintro ⟨cs, rest, rfl, hrest, hlen⟩
    refine ⟨c :: cs, rest, rfl, hrest, ?_⟩
    rw [List.length_cons]
    omega

/-- An error at the head hides everything behind it. -/
theorem drainable_err_iff {b : ℕ} {q : List (Incoming κ)} :
    Drainable b (.err :: q) ↔ conns q = [] := by
  constructor
  · rintro ⟨cs, rest, heq, hrest, -⟩
    cases cs with
    | nil =>
      have hr : rest = .err :: q := heq.symm
      rw [hr, conns_err] at hrest
      exact hrest
    | cons c' cs => exact absurd (List.cons.inj heq).1 (by simp)
  · intro h
    exact drainable_of_conns_eq_nil h

/-- Whether a runner that stands at `task` with this budget when its sender is gone
will hand over every connection of the queue `q`. -/
def DrainsFrom (task : Task ρ) (budget : ℕ) (q : List (Incoming κ)) : Prop :=
  match task with
  | .spawned => conns q = []
  | .exited _ => conns q = []
  -- the accept under way takes the head, whatever it is, unless the budget is spent
  | .running .accept _ =>
      if budget = 0 then Drainable coopBudget q else Drainable (budget - 1) q.tail
  | .running .parked _ => Drainable coopBudget q
  | .running .select _ => Drainable budget q
  | .running .update _ => Drainable budget q
  | .running .drain _ => Drainable budget q

theorem drainsFrom_nil (task : Task ρ) (budget : ℕ) :
    DrainsFrom task budget ([] : List (Incoming κ)) := by
  have hnil : ∀ b, Drainable b ([] : List (Incoming κ)) := fun b =>
    drainable_of_conns_eq_nil rfl
  cases task with
  | spawned => rfl
  | exited ok => rfl
  | running p rule =>
    cases p with
    | accept =>
      rw [DrainsFrom]
      split
      · exact hnil _
      · exact hnil _
    | _ => exact hnil _

/-! ## One step after the drop -/

/-- A task that has not started is not listening yet, and its queue stays empty. -/
theorem queue_of_spawned_step {r r' : LBRunner ρ κ} {e : RunnerEvent ρ κ}
    (hs : r.step e = some r') (ih : r.task = .spawned → r.queue = []) :
    r'.task = .spawned → r'.queue = [] := by
  intro ht
  cases Step.of_step hs with
  | sendReplace v hc => exact ih ht
  | dropSender hc => exact ih ht
  | arrive x h₁ =>
    have ht' : r.task = .spawned := ht
    exact absurd (h₁.symm.trans ht') (by simp)
  | _ => exact absurd ht (by simp)

theorem queue_of_spawned {addr : SocketAddr} {config : ρ} {es : List (RunnerEvent ρ κ)}
    {r : LBRunner ρ κ} (h : run step (spawn addr config) es = some r) :
    r.task = .spawned → r.queue = [] := by
  exact run_invariant (I := fun r : LBRunner ρ κ => r.task = .spawned → r.queue = [])
    (fun _ => rfl) (fun _ _ _ ih hs => queue_of_spawned_step hs ih) h

/-- What one step does to the old queue `q` of a runner: it leaves its connections
alone, or hands over the first of them, or hands over something that stood behind an
old queue that is already gone. -/
def TakesFrom (r r' : LBRunner ρ κ) (q q' : List (Incoming κ)) : Prop :=
  (r'.handed = r.handed ∧ conns q' = conns q) ∨
    ∃ c rule, r'.handed = r.handed ++ [(c, rule)] ∧
      (conns q = c :: conns q' ∨ (q = [] ∧ q' = []))

/-- The step takes the head off the queue.  If the old queue is not gone yet, that is its
own head. -/
theorem takes_head {r r' : LBRunner ρ κ} {x : Incoming κ} {q₁ q later : List (Incoming κ)}
    (hq₁ : r.queue = x :: q₁) (hq : r.queue = q ++ later) (hqueue : r'.queue = q₁)
    (hgone : TakesFrom r r' [] []) (htakes : ∀ q', TakesFrom r r' (x :: q') q')
    (hiff : ∀ q', DrainsFrom r.task r.budget (x :: q') ↔ DrainsFrom r'.task r'.budget q') :
    ∃ q' later', r'.queue = q' ++ later' ∧ TakesFrom r r' q q' ∧
      (DrainsFrom r.task r.budget q ↔ DrainsFrom r'.task r'.budget q') := by
  cases q with
  | nil =>
    exact ⟨[], q₁, hqueue, hgone, iff_of_true (drainsFrom_nil _ _) (drainsFrom_nil _ _)⟩
  | cons y q =>
    obtain ⟨rfl, rfl⟩ := List.cons.inj (hq₁.symm.trans hq)
    exact ⟨q, later, hqueue, htakes q, hiff q⟩

theorem takesFrom_conn {r r' : LBRunner ρ κ} {c : κ} {rule : ρ}
    (h : r'.handed = r.handed ++ [(c, rule)]) (q : List (Incoming κ)) :
    TakesFrom r r' (.conn c :: q) q := Or.inr ⟨c, rule, h, Or.inl rfl⟩

theorem takesFrom_gone {r r' : LBRunner ρ κ} {c : κ} {rule : ρ}
    (h : r'.handed = r.handed ++ [(c, rule)]) : TakesFrom r r' [] [] :=
  Or.inr ⟨c, rule, h, Or.inr ⟨rfl, rfl⟩⟩

/-- **No step of a runner whose sender is gone changes its prospects.** -/
theorem step_drainsFrom {r r' : LBRunner ρ κ} {e : RunnerEvent ρ κ} {q later : List (Incoming κ)}
    (hs : r.step e = some r') (hc : r.configRx.closed = true)
    (hsp : r.task = .spawned → r.queue = []) (hq : r.queue = q ++ later) :
    ∃ q' later', r'.queue = q' ++ later' ∧ TakesFrom r r' q q' ∧
      (DrainsFrom r.task r.budget q ↔ DrainsFrom r'.task r'.budget q') := by
  have hempty : r.queue = [] → q = [] := fun hnil =>
    (List.append_eq_nil_iff.mp (hq.symm.trans hnil)).1
  cases Step.of_step hs with
  | start h₁ =>
    obtain rfl := hempty (hsp h₁)
    exact ⟨[], later, hq, Or.inl ⟨rfl, rfl⟩, iff_of_true (drainsFrom_nil _ _) (drainsFrom_nil _ _)⟩
  | startFail h₁ | changedOk h₁ hv | changedClosed h₁ hv hc' | borrowAndUpdate h₁ | wake h₁ =>
    refine ⟨q, later, hq, Or.inl ⟨rfl, rfl⟩, ?_⟩
    rw [h₁]
    exact Iff.rfl
  | changedPending h₁ hv hc' => exact absurd hc (by simp [hc'])
  | sendReplace v hc' => exact absurd hc (by simp [hc'])
  | dropSender hc' => exact absurd hc (by simp [hc'])
  | arrive x h₁ =>
    refine ⟨q, later ++ [x], ?_, Or.inl ⟨rfl, rfl⟩, Iff.rfl⟩
    rw [← List.append_assoc, ← hq]
  | @drainConn rule c q₁ h₁ hb hq₁ =>
    refine takes_head hq₁ hq rfl (takesFrom_gone rfl) (takesFrom_conn rfl) fun q' => ?_
    rw [h₁]
    exact drainable_conn_iff hb
  | @drainErr rule q₁ h₁ hb hq₁ =>
    refine takes_head hq₁ hq rfl (Or.inl ⟨rfl, rfl⟩) (fun _ => Or.inl ⟨rfl, rfl⟩) fun q' => ?_
    rw [h₁]
    exact drainable_err_iff
  | drainPending h₁ hp =>
    refine ⟨q, later, hq, Or.inl ⟨rfl, rfl⟩, ?_⟩
    rw [h₁]
    rcases hp with hb | hnil
    · show Drainable r.budget q ↔ conns q = []
      rw [hb]
      exact drainable_zero_iff
    · obtain rfl := hempty hnil
      exact iff_of_true (drainsFrom_nil _ _) rfl
  | @acceptConn rule c q₁ h₁ hb hq₁ =>
    refine takes_head hq₁ hq rfl (takesFrom_gone rfl) (takesFrom_conn rfl) fun q' => ?_
    rw [h₁, DrainsFrom, if_neg hb]
    exact Iff.rfl
  | @acceptErr rule q₁ h₁ hb hq₁ =>
    refine takes_head hq₁ hq rfl (Or.inl ⟨rfl, rfl⟩) (fun _ => Or.inl ⟨rfl, rfl⟩) fun q' => ?_
    rw [h₁, DrainsFrom, if_neg hb]
    exact Iff.rfl
  | acceptPending h₁ hp =>
    refine ⟨q, later, hq, Or.inl ⟨rfl, rfl⟩, ?_⟩
    rw [h₁]
    rcases hp with hb | hnil
    · rw [DrainsFrom, if_pos hb]
      exact Iff.rfl
    · obtain rfl := hempty hnil
      exact iff_of_true (drainsFrom_nil _ _) (drainsFrom_nil _ _)

/-! ## The whole drain -/

/-- A whole run after the drop: what has been handed over is a first part of the old
connections, or all of them and then some, and the prospects are the old ones. -/
theorem run_drainsFrom {s t : LBRunner ρ κ} {fs : List (RunnerEvent ρ κ)}
    (hc : s.configRx.closed = true) (hsp : s.task = .spawned → s.queue = [])
    (h : run step s fs = some t) :
    ∃ q later hs, t.queue = q ++ later ∧
      t.handed.map Prod.fst = s.handed.map Prod.fst ++ hs ∧
      (conns s.queue = hs ++ conns q ∨ (conns q = [] ∧ conns s.queue <+: hs)) ∧
      (DrainsFrom s.task s.budget s.queue ↔ DrainsFrom t.task t.budget q) := by
  have hinv : t.configRx.closed = true ∧ (t.task = .spawned → t.queue = []) ∧
      ∃ q later hs, t.queue = q ++ later ∧
        t.handed.map Prod.fst = s.handed.map Prod.fst ++ hs ∧
        (conns s.queue = hs ++ conns q ∨ (conns q = [] ∧ conns s.queue <+: hs)) ∧
        (DrainsFrom s.task s.budget s.queue ↔ DrainsFrom t.task t.budget q) := by
    refine run_invariant (I := fun t : LBRunner ρ κ => t.configRx.closed = true ∧
      (t.task = .spawned → t.queue = []) ∧
      ∃ q later hs, t.queue = q ++ later ∧
        t.handed.map Prod.fst = s.handed.map Prod.fst ++ hs ∧
        (conns s.queue = hs ++ conns q ∨ (conns q = [] ∧ conns s.queue <+: hs)) ∧
        (DrainsFrom s.task s.budget s.queue ↔ DrainsFrom t.task t.budget q))
      ⟨hc, hsp, s.queue, [], [], by simp, by simp, Or.inl rfl, Iff.rfl⟩ ?_ h
    rintro t e t' ⟨hc, hsp, q, later, hs, hq, hh, hold, hiff⟩ ht
    refine ⟨closed_of_step ht hc, queue_of_spawned_step ht hsp, ?_⟩
    obtain ⟨q', later', hq', htake, hiff'⟩ := step_drainsFrom ht hc hsp hq
    rcases htake with ⟨hh', hconns⟩ | ⟨c, rule, hh', hconns⟩
    · refine ⟨q', later', hs, hq', by rw [hh', hh], ?_, hiff.trans hiff'⟩
      rw [hconns]
      exact hold
    · refine ⟨q', later', hs ++ [c], hq', ?_, ?_, hiff.trans hiff'⟩
      · rw [hh', List.map_append, hh, List.append_assoc]
        rfl
      · rcases hconns with hconns | ⟨rfl, rfl⟩
        · rcases hold with hold | ⟨hnil, -⟩
          · left
            rw [hold, hconns, List.append_assoc]
            rfl
          · exact absurd (hnil.symm.trans hconns) (by simp)
        · -- the old queue is gone: what is taken now stood behind it
          right
          refine ⟨rfl, ?_⟩
          rcases hold with hold | ⟨-, hold⟩
          · rw [hold, conns_nil, List.append_nil]
            exact List.prefix_append _ _
          · exact List.IsPrefix.trans hold (List.prefix_append _ _)
  exact hinv.2.2

/-- When the runner has returned, its prospects are what it has done. -/
theorem handed_iff_of_exited {s t : LBRunner ρ κ} {fs : List (RunnerEvent ρ κ)}
    (hc : s.configRx.closed = true) (hsp : s.task = .spawned → s.queue = [])
    (h : run step s fs = some t) (ht : t.exited = true) :
    (∃ later, t.handed.map Prod.fst = s.handed.map Prod.fst ++ (conns s.queue ++ later)) ↔
      DrainsFrom s.task s.budget s.queue := by
  obtain ⟨q, later, hs, -, hh, hold, hiff⟩ := run_drainsFrom hc hsp h
  obtain ⟨ok, hok⟩ := exited_iff.mp ht
  have hdone : DrainsFrom s.task s.budget s.queue ↔ conns q = [] := by
    rw [hiff, hok]
    exact Iff.rfl
  rw [hdone]
  constructor
  · rintro ⟨more, hmore⟩
    rw [hh] at hmore
    have hhs : hs = conns s.queue ++ more := List.append_cancel_left hmore
    rcases hold with hold | ⟨hnil, -⟩
    · -- a connection left over would make the old queue longer than what was handed over
      have hlen := congrArg List.length hold
      rw [hhs, List.length_append, List.length_append] at hlen
      exact List.eq_nil_of_length_eq_zero (by omega)
    · exact hnil
  · intro hnil
    rcases hold with hold | ⟨-, more, hmore⟩
    · exact ⟨[], by rw [hh, hold, hnil, List.append_nil, List.append_nil]⟩
    · exact ⟨more, by rw [hh, hmore]⟩

/-! ## The drain ends -/

/-- The event is an operation of the runner, not of its environment. -/
def own : RunnerEvent ρ κ → Bool
  | .sendReplace _ => false
  | .dropSender => false
  | .arrive _ => false
  | _ => true

/-- A bound on the operations that a runner whose sender is gone has still to do. -/
def stepsLeft (r : LBRunner ρ κ) : ℕ :=
  match r.task with
  | .exited _ => 0
  | .running .drain _ => 2 * r.budget + 1
  | .running .select _ =>
      if r.configRx.seen = r.configRx.version then 2 * r.budget + 2 else 2 * r.budget + 4
  | .running .update _ => 2 * r.budget + 3
  | .running .parked _ => 2 * coopBudget + 5
  | .running .accept _ => 2 * coopBudget + 6
  | .spawned => 2 * coopBudget + 7

theorem budget_le_of_step {r r' : LBRunner ρ κ} {e : RunnerEvent ρ κ} (hs : r.step e = some r')
    (hb : r.budget ≤ coopBudget) : r'.budget ≤ coopBudget := by
  cases Step.of_step hs with
  | drainConn | drainErr | acceptConn | acceptErr => exact Nat.le_trans (Nat.sub_le _ _) hb
  | wake => exact Nat.le_refl _
  | _ => exact hb

theorem stepsLeft_select_le (r : LBRunner ρ κ) {rule : ρ} (h : r.task = .running .select rule) :
    r.stepsLeft ≤ 2 * r.budget + 4 := by
  rw [stepsLeft, h]
  dsimp only
  split <;> omega

theorem stepsLeft_select_of_seen (r : LBRunner ρ κ) {rule : ρ}
    (h : r.task = .running .select rule) (hv : r.configRx.seen = r.configRx.version) :
    r.stepsLeft = 2 * r.budget + 2 := by
  rw [stepsLeft, h]
  exact if_pos hv

/-- Every operation of a runner whose sender is gone uses up one of the steps it has
left; an arrival uses none. -/
theorem stepsLeft_of_step {r r' : LBRunner ρ κ} {e : RunnerEvent ρ κ} (hs : r.step e = some r')
    (hc : r.configRx.closed = true) (hd : DrainClosed r) (hb : r.budget ≤ coopBudget) :
    r'.stepsLeft + (if own e then 1 else 0) ≤ r.stepsLeft := by
  cases Step.of_step hs with
  | start h₁ =>
    rw [stepsLeft_select_of_seen _ rfl rfl, stepsLeft, h₁]
    simp only [own, reduceIte]
    omega
  | startFail h₁ =>
    rw [stepsLeft, stepsLeft, h₁]
    simp [own]
  | changedOk h₁ hv =>
    rw [stepsLeft, stepsLeft, h₁]
    simp [own, hv]
  | changedClosed h₁ hv hc' =>
    rw [stepsLeft_select_of_seen r h₁ hv, stepsLeft]
    simp [own]
  | changedPending h₁ hv hc' => exact absurd hc (by simp [hc'])
  | borrowAndUpdate h₁ =>
    rw [stepsLeft_select_of_seen _ rfl rfl, stepsLeft, h₁]
    simp [own]
  | @drainConn rule c q h₁ hb₁ hq₁ =>
    -- everything sent has been seen, so the next poll finds the channel closed again
    have hnext := stepsLeft_select_of_seen { r with
      queue := q, budget := r.budget - 1
      handed := r.handed ++ [(c, rule)], task := .running .select rule } rfl (hd _ h₁).2
    rw [hnext, stepsLeft, h₁]
    simp only [own, reduceIte]
    omega
  | drainErr h₁ hb₁ hq₁ =>
    rw [stepsLeft, stepsLeft, h₁]
    simp [own]
  | drainPending h₁ hp =>
    rw [stepsLeft, stepsLeft, h₁]
    simp [own]
  | acceptConn h₁ hb₁ hq₁ | acceptErr h₁ hb₁ hq₁ =>
    refine Nat.le_trans (Nat.add_le_add_right (stepsLeft_select_le _ rfl) _) ?_
    rw [stepsLeft, h₁]
    simp only [own, reduceIte]
    omega
  | acceptPending h₁ hp =>
    rw [stepsLeft, stepsLeft, h₁]
    simp [own]
  | wake h₁ =>
    refine Nat.le_trans (Nat.add_le_add_right (stepsLeft_select_le _ rfl) _) ?_
    rw [stepsLeft, h₁]
    simp [own]
  | sendReplace v hc' => exact absurd hc (by simp [hc'])
  | dropSender hc' => exact absurd hc (by simp [hc'])
  | arrive x h₁ =>
    rw [stepsLeft, stepsLeft]
    simp [own]

/-- A runner whose sender is gone does at most `stepsLeft` more operations, whatever
arrives meanwhile. -/
theorem own_le_stepsLeft {s t : LBRunner ρ κ} {fs : List (RunnerEvent ρ κ)}
    (hc : s.configRx.closed = true) (hd : DrainClosed s) (hb : s.budget ≤ coopBudget)
    (h : run step s fs = some t) : (fs.filter own).length ≤ s.stepsLeft := by
  induction fs generalizing s with
  | nil => exact Nat.zero_le _
  | cons e fs ih =>
    obtain ⟨u, hu, ht⟩ := run_cons_eq_some.mp h
    have hrest := ih (closed_of_step hu hc) (drainClosed_of_step hu hd) (budget_le_of_step hu hb) ht
    have hone := stepsLeft_of_step hu hc hd hb
    rw [List.filter_cons]
    split
    · rename_i he
      rw [if_pos he] at hone
      rw [List.length_cons]
      omega
    · omega

/-- A runner that has not returned always has an operation to do. -/
theorem exists_own_step {r : LBRunner ρ κ} (h : r.exited = false) :
    ∃ e, own e = true ∧ (r.step e).isSome = true := by
  cases ht : r.task with
  | spawned => exact ⟨.start, rfl, by simp [step, ht]⟩
  | exited ok => exact absurd h (by simp [exited, ht])
  | running p rule =>
    cases p with
    | select =>
      refine ⟨.pollChanged, rfl, ?_⟩
      rcases r.configRx.changed_cases with ⟨hw, -⟩ | ⟨hw, -⟩ | ⟨hw, -⟩ <;> simp [step, ht, hw]
    | update => exact ⟨.borrowAndUpdate, rfl, by simp [step, ht]⟩
    | drain =>
      refine ⟨.pollDrain, rfl, ?_⟩
      rcases r.pollAccept_cases with ⟨hp, -⟩ | ⟨x, q, -, -, hp⟩
      · simp [step, ht, hp]
      · cases x <;> simp [step, ht, hp]
    | accept =>
      refine ⟨.pollAccept, rfl, ?_⟩
      rcases r.pollAccept_cases with ⟨hp, -⟩ | ⟨x, q, -, -, hp⟩
      · simp [step, ht, hp]
      · cases x <;> simp [step, ht, hp]
    | parked => exact ⟨.wake, rfl, by simp [step, ht]⟩

theorem stepsLeft_le {r : LBRunner ρ κ} (hb : r.budget ≤ coopBudget) :
    r.stepsLeft ≤ 2 * coopBudget + 7 := by
  cases ht : r.task with
  | spawned => simp [stepsLeft, ht]
  | exited ok => simp [stepsLeft, ht]
  | running p rule =>
    cases p with
    | select =>
      have hle := stepsLeft_select_le r ht
      omega
    | update => simp only [stepsLeft, ht]; omega
    | drain => simp only [stepsLeft, ht]; omega
    | accept => simp only [stepsLeft, ht]; omega
    | parked => simp only [stepsLeft, ht]; omega

theorem budget_le_of_run {addr : SocketAddr} {config : ρ} {es : List (RunnerEvent ρ κ)}
    {r : LBRunner ρ κ} (h : run step (spawn addr config) es = some r) :
    r.budget ≤ coopBudget :=
  run_invariant (I := fun r : LBRunner ρ κ => r.budget ≤ coopBudget) (Nat.le_refl _)
    (fun _ _ _ ih hs => budget_le_of_step hs ih) h

/-! ## When a stopped listener drains its whole queue -/

/-- **A stopped listener drains its whole accept queue exactly when the errors and the
budget allow it.**  Drop the sender of a runner in any state it can reach.  Whatever
arrives meanwhile, it returns after a bounded number of operations; and when it has
returned, the connections that were queued at the drop have all been handed over, in
order and once each, if and only if they stood before the first accept error and did
not outnumber the budget the drain started with. -/
theorem drained_iff_drainsFrom (addr : SocketAddr) (config : ρ) (es : List (RunnerEvent ρ κ))
    (r s : LBRunner ρ κ) (hr : run step (spawn addr config) es = some r)
    (hs : r.step .dropSender = some s) :
    (∀ fs t, run step s fs = some t → (fs.filter own).length ≤ 2 * coopBudget + 7 ∧
      (t.exited = false → ∃ e, own e = true ∧ (t.step e).isSome = true)) ∧
    ∀ fs t, run step s fs = some t → t.exited = true →
      ((∃ later, t.handed.map Prod.fst = r.handed.map Prod.fst ++ (conns r.queue ++ later)) ↔
        DrainsFrom r.task r.budget r.queue) := by
  have hsrun : run step (spawn addr config) (es ++ [.dropSender]) = some s :=
    run_snoc_eq_some.mpr ⟨r, hr, hs⟩
  have hb : s.budget ≤ coopBudget := budget_le_of_run hsrun
  have hd : DrainClosed s := drainClosed_of_run hsrun
  have hsp : s.task = .spawned → s.queue = [] := queue_of_spawned hsrun
  obtain ⟨hc, htask, hbudget, hqueue, hhanded⟩ : s.configRx.closed = true ∧ s.task = r.task ∧
      s.budget = r.budget ∧ s.queue = r.queue ∧ s.handed = r.handed := by
    cases Step.of_step hs with
    | dropSender hc => exact ⟨rfl, rfl, rfl, rfl, rfl⟩
  refine ⟨fun fs t ht => ⟨?_, exists_own_step⟩, fun fs t ht hex => ?_⟩
  · exact Nat.le_trans (own_le_stepsLeft hc hd hb ht) (stepsLeft_le hb)
  · rw [← hhanded, ← hqueue, ← htask, ← hbudget]
    exact handed_iff_of_exited hc hsp ht hex

/-- A listener that has yielded, and then finds `q` in its accept queue. -/
def parkedWith (q : List (Incoming ℕ)) : List (RunnerEvent ℕ ℕ) :=
  [.start, .pollChanged, .pollAccept] ++ q.map .arrive

/-- Woken by the drop, the listener goes round its drain `n` times. -/
def drainRounds (n : ℕ) : List (RunnerEvent ℕ ℕ) :=
  .wake :: (List.replicate n [.pollChanged, .pollDrain]).flatten

theorem drained_iff_drainsFrom_two_connections :
    ∃ r s t, run step (spawn localAddrV4 0) (parkedWith [.conn 7, .conn 8, .err]) = some r ∧
      r.step .dropSender = some s ∧ run step s (drainRounds 3) = some t ∧ t.exited = true ∧
      ∃ later, t.handed.map Prod.fst = r.handed.map Prod.fst ++ (conns r.queue ++ later) := by
  refine ⟨_, _, _, rfl, rfl, rfl, rfl, ?_⟩
  refine ((drained_iff_drainsFrom localAddrV4 0 (parkedWith [.conn 7, .conn 8, .err]) _ _
    rfl rfl).2 (drainRounds 3) _ rfl rfl).mpr ?_
  exact ⟨[7, 8], [.err], rfl, rfl, by decide⟩

/-- **The drain leaves connections behind.**  The first listener has the connections `7`
and `8` in its queue with an aborted one between them, and returns with only `7` handed
over; the second has 129 connections and no error, and returns after 128. -/
theorem not_drained_behind_error_or_budget :
    ((run step (spawn localAddrV4 0) (parkedWith [.conn 7, .err, .conn 8])).map
        (fun r => (conns r.queue, r.handed.map Prod.fst)) = some ([7, 8], []) ∧
      (run step (spawn localAddrV4 0)
        (parkedWith [.conn 7, .err, .conn 8] ++ .dropSender :: drainRounds 2)).map
        (fun t => (t.exited, t.handed.map Prod.fst)) = some (true, [7])) ∧
    ((run step (spawn localAddrV4 0) (parkedWith ((List.range 129).map .conn))).map
        (fun r => (conns r.queue, r.handed.map Prod.fst)) = some (List.range 129, []) ∧
      (run step (spawn localAddrV4 0)
        (parkedWith ((List.range 129).map .conn) ++ .dropSender :: drainRounds 129)).map
        (fun t => (t.exited, t.handed.map Prod.fst)) = some (true, List.range 128)) := by
  refine ⟨⟨by decide, by decide⟩, by decide +kernel, by decide +kernel⟩

end LBRunner
end Turbine
