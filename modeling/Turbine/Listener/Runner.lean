import Turbine.Lib.Runs
import Turbine.Lib.Watch
import Turbine.Net

/-!
# One listener task: `LBRunner::run`

`LBRunner::run` opens the listening socket, copies the current rule out of its
watch channel, and then goes round a biased `select!`: first `config_rx.changed()`,
then `tcp_server.accept()`.  The task runs on its own thread, so anything the
event loop does to the channel, and anything that reaches the accept queue, can
fall between any two of its operations.  The model therefore stops between them:
`Point` names the operation that comes next, and each `RunnerEvent` is one
operation of the task or of its environment.

Four points of the source are kept on purpose.

* The rule is copied with `borrow_and_update`, a second look at the channel after
  `changed()` has answered; the value may have moved on in between, so the two
  are separate steps.
* When both branches are pending the task yields.  It is woken later, and only
  then is its cooperative budget full again: `poll_accept` answers `Pending` on an
  empty queue and also when the budget is spent.
* Once the sender is gone `changed()` is always ready, so the accept branch is
  never reached again and the queue is drained from the first branch, with
  `poll_accept` and a waker that wakes nobody.
* An accept error means `continue` in the accept branch and `break` in the drain.

A connection handed to `handle_client` is recorded in `handed` together with the
copy of the rule it was given.
-/

namespace Turbine

/-- What stands in the accept queue of a listening socket: a connection, or a
transient error such as `ECONNABORTED` in the place of one. -/
inductive Incoming (κ : Type) where
  | conn (c : κ)
  | err
  deriving DecidableEq

namespace Incoming

variable {κ : Type}

/-- The connection, if the entry is one. -/
def conn? : Incoming κ → Option κ
  | conn c => some c
  | err => none

end Incoming

/-- Where a running `LBRunner::run` stands: the operation it does next. -/
inductive Point where
  /-- poll `config_rx.changed()` -/
  | select
  /-- `changed()` was `Ok`: copy the rule with `borrow_and_update` -/
  | update
  /-- `changed()` was `Err`: `poll_accept`, to drain the accept queue -/
  | drain
  /-- `changed()` was pending: poll `tcp_server.accept()` -/
  | accept
  /-- both branches were pending: the task has yielded -/
  | parked
  deriving DecidableEq

/-- The life of the task spawned for a listener. -/
inductive Task (ρ : Type) where
  /-- spawned, `run` not polled yet -/
  | spawned
  /-- in the loop, with its own copy of the rule -/
  | running (point : Point) (rule : ρ)
  /-- `run` has returned, with `Ok` or with an error -/
  | exited (ok : Bool)
  deriving DecidableEq

/-- `Budget::initial`: the operations a task may do before it has to yield. -/
def coopBudget : ℕ := 128

/-- `LBRunner` with the task that runs it, its listening socket and the
connections it has handed to `handle_client`. -/
structure LBRunner (ρ κ : Type) where
  /-- The address it listens on. -/
  listenAddr : SocketAddr
  /-- Its end of the watch channel, and the sender's. -/
  configRx : Watch ρ
  /-- The task. -/
  task : Task ρ
  /-- The accept queue of the listening socket. -/
  queue : List (Incoming κ)
  /-- What is left of the task's cooperative budget. -/
  budget : ℕ
  /-- The spawned handlers, in order, each with the rule it was given. -/
  handed : List (κ × ρ)
  deriving DecidableEq

/-- The operations of a runner and of its environment. -/
inductive RunnerEvent (ρ κ : Type) where
  /-- the socket is listening, the rule is read for the first time -/
  | start
  /-- `create_socket`, `listen` or `from_std` fails -/
  | startFail
  | pollChanged
  | borrowAndUpdate
  | pollDrain
  | pollAccept
  /-- the executor polls the task again -/
  | wake
  /-- the event loop sends a rule -/
  | sendReplace (v : ρ)
  /-- the event loop drops the sender -/
  | dropSender
  /-- the kernel queues a connection, or an error -/
  | arrive (x : Incoming κ)
  deriving DecidableEq

namespace LBRunner

variable {ρ κ : Type}

/-- The runner as the event loop spawns it, on a fresh channel. -/
def spawn (addr : SocketAddr) (config : ρ) : LBRunner ρ κ :=
  ⟨addr, Watch.channel config, .spawned, [], coopBudget, []⟩

/-- `run` has returned. -/
def exited (r : LBRunner ρ κ) : Bool :=
  match r.task with
  | .exited _ => true
  | _ => false

theorem exited_iff {r : LBRunner ρ κ} : r.exited = true ↔ ∃ ok, r.task = .exited ok := by
  cases ht : r.task <;> simp [exited, ht]

/-- `TcpListener::poll_accept`: the head of the queue, and one unit of budget; or
`none` for `Pending`, on an empty queue or a spent budget. -/
def pollAccept (r : LBRunner ρ κ) : Option (Incoming κ × LBRunner ρ κ) :=
  if r.budget = 0 then none
  else match r.queue with
    | [] => none
    | x :: q => some (x, { r with queue := q, budget := r.budget - 1 })

/-- `tokio::spawn(proxied_client_loop)`, and back to the top of the loop. -/
def handOver (r : LBRunner ρ κ) (c : κ) (rule : ρ) : LBRunner ρ κ :=
  { r with handed := r.handed ++ [(c, rule)], task := .running .select rule }

/-- One operation of `LBRunner::run` or of its environment; `none` when the task
is not at the point where it does this operation. -/
def step (r : LBRunner ρ κ) : RunnerEvent ρ κ → Option (LBRunner ρ κ)
  | .start =>
      match r.task with
      | .spawned =>
          some { r with
            configRx := r.configRx.borrowAndUpdate.2
            task := .running .select r.configRx.borrowAndUpdate.1 }
      | _ => none
  | .startFail =>
      match r.task with
      | .spawned => some { r with task := .exited false }
      | _ => none
  | .pollChanged =>
      match r.task with
      | .running .select rule =>
          match r.configRx.changed with
          | (.ok, rx) => some { r with configRx := rx, task := .running .update rule }
          | (.closed, rx) => some { r with configRx := rx, task := .running .drain rule }
          | (.pending, rx) => some { r with configRx := rx, task := .running .accept rule }
      | _ => none
  | .borrowAndUpdate =>
      match r.task with
      | .running .update _ =>
          some { r with
            configRx := r.configRx.borrowAndUpdate.2
            task := .running .select r.configRx.borrowAndUpdate.1 }
      | _ => none
  | .pollDrain =>
      match r.task with
      | .running .drain rule =>
          match r.pollAccept with
          | some (.conn c, r') => some (r'.handOver c rule)
          -- the drain gives up on an error, unlike the accept branch
          | some (.err, r') => some { r' with task := .exited true }
          | none => some { r with task := .exited true }
      | _ => none
  | .pollAccept =>
      match r.task with
      | .running .accept rule =>
          match r.pollAccept with
          | some (.conn c, r') => some (r'.handOver c rule)
          | some (.err, r') => some { r' with task := .running .select rule }
          | none => some { r with task := .running .parked rule }
      | _ => none
  | .wake =>
      match r.task with
      | .running .parked rule =>
          some { r with budget := coopBudget, task := .running .select rule }
      | _ => none
  | .sendReplace v =>
      if r.configRx.closed then none
      else some { r with configRx := r.configRx.sendReplace v }
  | .dropSender =>
      if r.configRx.closed then none
      else some { r with configRx := r.configRx.dropSender }
  | .arrive x =>
      match r.task with
      | .running _ _ => some { r with queue := r.queue ++ [x] }
      | _ => none

/-! ## What one step can do -/

/-- The transitions of a runner, one constructor for each way `step` can answer.
Every invariant below is a case analysis of this relation, and none of them opens
`step` again. -/
inductive Step : LBRunner ρ κ → RunnerEvent ρ κ → LBRunner ρ κ → Prop
  | start {r : LBRunner ρ κ} (h : r.task = .spawned) :
      Step r .start { r with
        configRx := r.configRx.markSeen, task := .running .select r.configRx.value }
  | startFail {r : LBRunner ρ κ} (h : r.task = .spawned) :
      Step r .startFail { r with task := .exited false }
  | changedOk {r : LBRunner ρ κ} {rule : ρ} (h : r.task = .running .select rule)
      (hv : r.configRx.seen ≠ r.configRx.version) :
      Step r .pollChanged { r with
        configRx := r.configRx.markSeen, task := .running .update rule }
  | changedClosed {r : LBRunner ρ κ} {rule : ρ} (h : r.task = .running .select rule)
      (hv : r.configRx.seen = r.configRx.version) (hc : r.configRx.closed = true) :
      Step r .pollChanged { r with task := .running .drain rule }
  | changedPending {r : LBRunner ρ κ} {rule : ρ} (h : r.task = .running .select rule)
      (hv : r.configRx.seen = r.configRx.version) (hc : r.configRx.closed = false) :
      Step r .pollChanged { r with task := .running .accept rule }
  | borrowAndUpdate {r : LBRunner ρ κ} {rule : ρ} (h : r.task = .running .update rule) :
      Step r .borrowAndUpdate { r with
        configRx := r.configRx.markSeen, task := .running .select r.configRx.value }
  | drainConn {r : LBRunner ρ κ} {rule : ρ} {c : κ} {q : List (Incoming κ)}
      (h : r.task = .running .drain rule) (hb : r.budget ≠ 0) (hq : r.queue = .conn c :: q) :
      Step r .pollDrain { r with
        queue := q, budget := r.budget - 1
        handed := r.handed ++ [(c, rule)], task := .running .select rule }
  | drainErr {r : LBRunner ρ κ} {rule : ρ} {q : List (Incoming κ)}
      (h : r.task = .running .drain rule) (hb : r.budget ≠ 0) (hq : r.queue = .err :: q) :
      Step r .pollDrain { r with queue := q, budget := r.budget - 1, task := .exited true }
  | drainPending {r : LBRunner ρ κ} {rule : ρ} (h : r.task = .running .drain rule)
      (hp : r.budget = 0 ∨ r.queue = []) :
      Step r .pollDrain { r with task := .exited true }
  | acceptConn {r : LBRunner ρ κ} {rule : ρ} {c : κ} {q : List (Incoming κ)}
      (h : r.task = .running .accept rule) (hb : r.budget ≠ 0) (hq : r.queue = .conn c :: q) :
      Step r .pollAccept { r with
        queue := q, budget := r.budget - 1
        handed := r.handed ++ [(c, rule)], task := .running .select rule }
  | acceptErr {r : LBRunner ρ κ} {rule : ρ} {q : List (Incoming κ)}
      (h : r.task = .running .accept rule) (hb : r.budget ≠ 0) (hq : r.queue = .err :: q) :
      Step r .pollAccept { r with
        queue := q, budget := r.budget - 1, task := .running .select rule }
  | acceptPending {r : LBRunner ρ κ} {rule : ρ} (h : r.task = .running .accept rule)
      (hp : r.budget = 0 ∨ r.queue = []) :
      Step r .pollAccept { r with task := .running .parked rule }
  | wake {r : LBRunner ρ κ} {rule : ρ} (h : r.task = .running .parked rule) :
      Step r .wake { r with budget := coopBudget, task := .running .select rule }
  | sendReplace {r : LBRunner ρ κ} (v : ρ) (hc : r.configRx.closed = false) :
      Step r (.sendReplace v) { r with configRx := r.configRx.sendReplace v }
  | dropSender {r : LBRunner ρ κ} (hc : r.configRx.closed = false) :
      Step r .dropSender { r with configRx := r.configRx.dropSender }
  | arrive {r : LBRunner ρ κ} {p : Point} {rule : ρ} (x : Incoming κ)
      (h : r.task = .running p rule) :
      Step r (.arrive x) { r with queue := r.queue ++ [x] }

/-- The three answers of `poll_accept`. -/
theorem pollAccept_cases (r : LBRunner ρ κ) :
    (r.pollAccept = none ∧ (r.budget = 0 ∨ r.queue = [])) ∨
      ∃ x q, r.budget ≠ 0 ∧ r.queue = x :: q ∧
        r.pollAccept = some (x, { r with queue := q, budget := r.budget - 1 }) := by
  by_cases hb : r.budget = 0
  · exact Or.inl ⟨if_pos hb, Or.inl hb⟩
  · cases hq : r.queue with
    | nil => exact Or.inl ⟨by rw [pollAccept, if_neg hb, hq], Or.inr rfl⟩
    | cons x q => exact Or.inr ⟨x, q, hb, rfl, by rw [pollAccept, if_neg hb, hq]⟩

theorem Step.of_pollChanged {r r' : LBRunner ρ κ} (h : r.step .pollChanged = some r') :
    Step r .pollChanged r' := by
  cases ht : r.task with
  | spawned => simp [step, ht] at h
  | exited ok => simp [step, ht] at h
  | running p rule =>
    cases p with
    | select =>
      rcases r.configRx.changed_cases with ⟨hw, hv⟩ | ⟨hw, hv, hc⟩ | ⟨hw, hv, hc⟩
      · simp only [step, ht, hw, Option.some.injEq] at h
        exact h ▸ Step.changedOk ht hv
      · simp only [step, ht, hw, Option.some.injEq] at h
        exact h ▸ Step.changedClosed ht hv hc
      · simp only [step, ht, hw, Option.some.injEq] at h
        exact h ▸ Step.changedPending ht hv hc
    | update => simp [step, ht] at h
    | drain => simp [step, ht] at h
    | accept => simp [step, ht] at h
    | parked => simp [step, ht] at h

theorem Step.of_pollDrain {r r' : LBRunner ρ κ} (h : r.step .pollDrain = some r') :
    Step r .pollDrain r' := by
  cases ht : r.task with
  | spawned => simp [step, ht] at h
  | exited ok => simp [step, ht] at h
  | running p rule =>
    cases p with
    | drain =>
      rcases r.pollAccept_cases with ⟨hp, hor⟩ | ⟨x, q, hb, hq, hp⟩
      · simp only [step, ht, hp, Option.some.injEq] at h
        exact h ▸ Step.drainPending ht hor
      · cases x with
        | conn c =>
          simp only [step, ht, hp, Option.some.injEq] at h
          exact h ▸ Step.drainConn ht hb hq
        | err =>
          simp only [step, ht, hp, Option.some.injEq] at h
          exact h ▸ Step.drainErr ht hb hq
    | select => simp [step, ht] at h
    | update => simp [step, ht] at h
    | accept => simp [step, ht] at h
    | parked => simp [step, ht] at h

theorem Step.of_pollAccept {r r' : LBRunner ρ κ} (h : r.step .pollAccept = some r') :
    Step r .pollAccept r' := by
  cases ht : r.task with
  | spawned => simp [step, ht] at h
  | exited ok => simp [step, ht] at h
  | running p rule =>
    cases p with
    | accept =>
      rcases r.pollAccept_cases with ⟨hp, hor⟩ | ⟨x, q, hb, hq, hp⟩
      · simp only [step, ht, hp, Option.some.injEq] at h
        exact h ▸ Step.acceptPending ht hor
      · cases x with
        | conn c =>
          simp only [step, ht, hp, Option.some.injEq] at h
          exact h ▸ Step.acceptConn ht hb hq
        | err =>
          simp only [step, ht, hp, Option.some.injEq] at h
          exact h ▸ Step.acceptErr ht hb hq
    | select => simp [step, ht] at h
    | update => simp [step, ht] at h
    | drain => simp [step, ht] at h
    | parked => simp [step, ht] at h

/-- **The step function takes no other step.** -/
theorem Step.of_step {r r' : LBRunner ρ κ} {e : RunnerEvent ρ κ} (h : r.step e = some r') :
    Step r e r' := by
  cases e with
  | pollChanged => exact Step.of_pollChanged h
  | pollDrain => exact Step.of_pollDrain h
  | pollAccept => exact Step.of_pollAccept h
  | start =>
    cases ht : r.task <;> simp only [step, ht, Option.some.injEq, reduceCtorEq] at h
    exact h ▸ Step.start ht
  | startFail =>
    cases ht : r.task <;> simp only [step, ht, Option.some.injEq, reduceCtorEq] at h
    exact h ▸ Step.startFail ht
  | borrowAndUpdate =>
    simp only [step] at h
    split at h
    · rename_i rule ht
      exact Option.some.inj h ▸ Step.borrowAndUpdate ht
    · exact absurd h (by simp)
  | wake =>
    simp only [step] at h
    split at h
    · rename_i rule ht
      exact Option.some.inj h ▸ Step.wake ht
    · exact absurd h (by simp)
  | sendReplace v =>
    simp only [step] at h
    split at h
    · exact absurd h (by simp)
    · rename_i hc
      exact Option.some.inj h ▸ Step.sendReplace v (by simpa using hc)
  | dropSender =>
    simp only [step] at h
    split at h
    · exact absurd h (by simp)
    · rename_i hc
      exact Option.some.inj h ▸ Step.dropSender (by simpa using hc)
  | arrive x =>
    simp only [step] at h
    split at h
    · rename_i p rule ht
      exact Option.some.inj h ▸ Step.arrive x ht
    · exact absurd h (by simp)

/-- The step handed over nothing, or one connection. -/
theorem handed_of_step {s t : LBRunner ρ κ} {e : RunnerEvent ρ κ} (hs : s.step e = some t) :
    t.handed = s.handed ∨ ∃ c rule, t.handed = s.handed ++ [(c, rule)] := by
  cases Step.of_step hs with
  | drainConn h₁ => exact Or.inr ⟨_, _, rfl⟩
  | acceptConn h₁ => exact Or.inr ⟨_, _, rfl⟩
  | _ => exact Or.inl rfl

end LBRunner
end Turbine
