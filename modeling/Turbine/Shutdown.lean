import Turbine.Reload

/-!
# Shutting down: `main`'s drain loop and the task counter

On a signal `main` sends on `shutdown_tx` and then reads `tasks_running` once a
second, and leaves when it reads `0`.  Four kinds of task move at the same time: `main`
itself, the event loop, which breaks out of its loop and drops all its senders; the
runners, which drain their accept queues and spawn a handler for each connection; and
the handlers.  A handler raises the counter inside its own body, that is when it is
polled for the first time, and lowers it again when it ends.

`App` is the state of all four, and a step is one operation of one of them.  When `main`
returns the runtime is dropped and everything that still runs with it, so there is no
step after that.

`tasksRunning_of_run` is what the counter is: the number of handlers that have been
polled and have not ended.  What it is not is the rest of this file.  It does not count
a handler that has been spawned and waits for its first poll, it does not count the
runners, and it does not say whether the event loop has told them to stop.
`drained_iff_settled` is the exact condition under which reading `0` means that the drain
is over.
-/

namespace Turbine

/-- How far a handler task has come. -/
inductive HandlerPhase where
  /-- `tokio::spawn`ed, not polled yet: the counter does not know it -/
  | spawned
  /-- polled: the counter was raised, `handle_client` runs -/
  | running
  /-- dropped, and the guard with it: the counter was lowered -/
  | ended
  deriving DecidableEq

/-- A handler task, `proxied_client_loop`. -/
structure Handler (ρ κ : Type) where
  /-- The runner that spawned it. -/
  runner : ℕ
  /-- The connection and the rule it was given. -/
  job : κ × ρ
  phase : HandlerPhase

/-- Where `listen_config_change` stands. -/
inductive LoopPhase (ρ : Type) where
  /-- at the `select!` -/
  | select
  /-- it has received an update, and will apply it -/
  | reloading (u : HashMap SocketAddr ρ)
  /-- it has returned -/
  | exited

/-- Where `main` stands, from the moment the listeners are up. -/
inductive MainPhase where
  /-- before `shutdown_tx.send` -/
  | serving
  /-- about to load the counter -/
  | load
  /-- in the `select!` of the drain loop, after a counter that was not `0` -/
  | sleeping
  /-- `main` has returned, because it read `0` or because of a signal -/
  | exited (readZero : Bool)
  deriving DecidableEq

/-- The whole program. -/
structure App (ρ κ : Type) where
  eventLoop : EventLoop ρ κ
  phase : LoopPhase ρ
  main : MainPhase
  /-- Every handler ever spawned, in the order of spawning. -/
  handlers : List (Handler ρ κ)
  /-- The counter the program calls `tasks_running`. -/
  tasksRunning : ℕ

/-- The operations of the tasks. -/
inductive AppEvent (ρ κ : Type) where
  /-- `config_changes_rx.recv()` wins the event loop's `select!` -/
  | recv (u : HashMap SocketAddr ρ)
  /-- the event loop applies the update it has received -/
  | reload
  /-- `shutdown_rx` wins the event loop's `select!` -/
  | leave
  /-- runner `i` takes a step, or something reaches its accept queue -/
  | runner (i : ℕ) (e : RunnerEvent ρ κ)
  /-- runner `i` ends with an error -/
  | fail (i : ℕ)
  /-- handler `k` is polled for the first time -/
  | poll (k : ℕ)
  /-- handler `k` ends -/
  | finish (k : ℕ)
  /-- `shutdown_tx.send(())` -/
  | sendShutdown
  /-- `task_counter.load(..)`, and `break` on `0` -/
  | load
  /-- the second of sleep is over -/
  | sleepOver
  /-- `sigint` -/
  | signal

namespace LBRunner

variable {ρ κ : Type}

/-- `run` has not returned, whether or not the runner has been told to stop: what is in its
accept queue is still its own to drain. -/
def Draining (r : LBRunner ρ κ) : Prop := r.exited = false

end LBRunner

namespace EventLoop

variable {ρ κ : Type}

/-- What runner `i` has handed over. -/
def handed (w : EventLoop ρ κ) (i : ℕ) : List (κ × ρ) :=
  match w.runners[i]? with
  | some r => r.handed
  | none => []

theorem handed_of_some {w : EventLoop ρ κ} {i : ℕ} {r : LBRunner ρ κ}
    (h : w.runners[i]? = some r) : w.handed i = r.handed := by
  rw [handed, h]

theorem handed_set {w : EventLoop ρ κ} {i : ℕ} {r : LBRunner ρ κ} (hr : w.runners[i]? = some r)
    (r' : LBRunner ρ κ) :
    handed { w with runners := w.runners.set i r' } i = r'.handed ∧
      ∀ j, i ≠ j → handed { w with runners := w.runners.set i r' } j = w.handed j := by
  have hlt := (List.getElem?_eq_some_iff.mp hr).1
  refine ⟨handed_of_some (by simp [hlt]), ?_⟩
  intro j hij
  simp only [handed, List.getElem?_set_ne hij]

theorem handed_touched (w : EventLoop ρ κ) (u : HashMap SocketAddr ρ) (i : ℕ)
    (r : LBRunner ρ κ) : (w.touched u i r).handed = r.handed := by
  rw [touched]
  split
  · split <;> rfl
  · rfl

/-- An update hands nothing over. -/
theorem handed_applyUpdate {w : EventLoop ρ κ} (hw : w.Agrees) (u : HashMap SocketAddr ρ)
    (i : ℕ) : (w.applyUpdate u).handed i = w.handed i := by
  have hspec := applyUpdate_spec hw u
  cases hr : w.runners[i]? with
  | some r => rw [handed_of_some hr, handed_of_some (hspec.old hr), handed_touched]
  | none =>
    have hnil : w.handed i = [] := by rw [handed, hr]
    cases hr' : (w.applyUpdate u).runners[i]? with
    | none => rw [hnil, handed, hr']
    | some r' =>
      obtain ⟨v, -, -, hspawn, -⟩ := hspec.new (List.getElem?_eq_none_iff.mp hr) hr'
      rw [hnil, handed_of_some hr', hspawn]
      rfl

/-- What a step of runner `i` is. -/
theorem of_runner_step {w w' : EventLoop ρ κ} {i : ℕ} {e : RunnerEvent ρ κ}
    (h : w.step (.runner i e) = some w') :
    ∃ r r', LBRunner.onChannel e = false ∧ w.runners[i]? = some r ∧ r.step e = some r' ∧
      w' = { w with runners := w.runners.set i r' } := by
  simp only [step] at h
  split at h
  · exact absurd h (by simp)
  · rename_i hchannel
    obtain ⟨r, hr, hmap⟩ := Option.bind_eq_some_iff.mp h
    obtain ⟨r', hr', rfl⟩ := Option.map_eq_some_iff.mp hmap
    exact ⟨r, r', by simpa using hchannel, hr, hr', rfl⟩

theorem of_fail_step {w w' : EventLoop ρ κ} {i : ℕ} (h : w.step (.fail i) = some w') :
    ∃ r, w.runners[i]? = some r ∧ r.exited = false ∧
      w' = { w with runners := w.runners.set i { r with task := .exited false } } := by
  obtain ⟨r, hr, hif⟩ := Option.bind_eq_some_iff.mp h
  split at hif
  · exact absurd hif (by simp)
  · rename_i hexited
    obtain rfl := Option.some.inj hif
    exact ⟨r, hr, by simpa using hexited, rfl⟩

/-- A step of runner `i` adds to what it has handed over, and to nobody else's. -/
theorem handed_of_runner_step {w w' : EventLoop ρ κ} {i : ℕ} {e : RunnerEvent ρ κ}
    (h : w.step (.runner i e) = some w') :
    w.handed i <+: w'.handed i ∧ ∀ j, i ≠ j → w'.handed j = w.handed j := by
  obtain ⟨r, r', -, hr, hr', rfl⟩ := of_runner_step h
  obtain ⟨hi, hj⟩ := handed_set hr r'
  refine ⟨?_, hj⟩
  rw [hi, handed_of_some hr]
  rcases LBRunner.handed_of_step hr' with heq | ⟨c, rule, heq⟩
  · exact heq ▸ List.prefix_refl _
  · rw [heq]
    exact List.prefix_append _ _

theorem handed_of_fail {w w' : EventLoop ρ κ} {i : ℕ} (h : w.step (.fail i) = some w') (j : ℕ) :
    w'.handed j = w.handed j := by
  obtain ⟨r, hr, -, rfl⟩ := of_fail_step h
  obtain ⟨hi, hne⟩ := handed_set hr { r with task := .exited false }
  by_cases hij : i = j
  · subst hij
    rw [hi, handed_of_some hr]
  · exact hne j hij

end EventLoop

namespace App

open Runs

variable {ρ κ : Type}

/-- The program once `main` has spawned the event loop. -/
def start : App ρ κ := ⟨EventLoop.new, .select, .serving, [], 0⟩

/-- The handlers that runner `i` has spawned between two states of the event loop. -/
def spawned (i : ℕ) (w w' : EventLoop ρ κ) : List (Handler ρ κ) :=
  ((w'.handed i).drop (w.handed i).length).map fun job => ⟨i, job, .spawned⟩

/-- One operation of a program whose `main` has not returned. -/
def act (s : App ρ κ) : AppEvent ρ κ → Option (App ρ κ)
  | .recv u =>
      -- the `select!` is biased: no update is received once the shutdown was sent
      match s.phase, s.main with
      | .select, .serving => some { s with phase := .reloading u }
      | _, _ => none
  | .reload =>
      match s.phase with
      | .reloading u =>
          some { s with eventLoop := s.eventLoop.applyUpdate u, phase := .select }
      | _ => none
  | .leave =>
      match s.phase with
      | .select =>
          if s.main = .serving then none
          -- `listeners` goes out of scope: nothing of it is retained
          else some { s with eventLoop := s.eventLoop.retain ∅, phase := .exited }
      | _ => none
  | .runner i e =>
      (s.eventLoop.step (.runner i e)).map fun w =>
        { s with eventLoop := w, handlers := s.handlers ++ spawned i s.eventLoop w }
  | .fail i => (s.eventLoop.step (.fail i)).map fun w => { s with eventLoop := w }
  | .poll k =>
      (s.handlers[k]?).bind fun h =>
        if h.phase = .spawned then
          some { s with
            handlers := s.handlers.set k { h with phase := .running }
            tasksRunning := s.tasksRunning + 1 }
        else none
  | .finish k =>
      (s.handlers[k]?).bind fun h =>
        if h.phase = .running then
          some { s with
            handlers := s.handlers.set k { h with phase := .ended }
            tasksRunning := s.tasksRunning - 1 }
        else none
  | .sendShutdown => if s.main = .serving then some { s with main := .load } else none
  | .load =>
      if s.main = .load then
        if s.tasksRunning = 0 then some { s with main := .exited true }
        else some { s with main := .sleeping }
      else none
  | .sleepOver => if s.main = .sleeping then some { s with main := .load } else none
  | .signal => if s.main = .sleeping then some { s with main := .exited false } else none

/-- One operation; none is left once `main` has returned. -/
def step (s : App ρ κ) (e : AppEvent ρ κ) : Option (App ρ κ) :=
  match s.main with
  | .exited _ => none
  | _ => s.act e

/-- The operations as a relation, with what each of them needs. -/
inductive Step (s : App ρ κ) : AppEvent ρ κ → App ρ κ → Prop
  | recv {u} (hphase : s.phase = .select) (hmain : s.main = .serving) :
      Step s (.recv u) { s with phase := .reloading u }
  | reload {u} (hphase : s.phase = .reloading u) :
      Step s .reload { s with eventLoop := s.eventLoop.applyUpdate u, phase := .select }
  | leave (hphase : s.phase = .select) (hmain : s.main ≠ .serving) :
      Step s .leave { s with eventLoop := s.eventLoop.applyUpdate ∅, phase := .exited }
  | runner {i e w} (hw : s.eventLoop.step (.runner i e) = some w) :
      Step s (.runner i e)
        { s with eventLoop := w, handlers := s.handlers ++ spawned i s.eventLoop w }
  | fail {i w} (hw : s.eventLoop.step (.fail i) = some w) :
      Step s (.fail i) { s with eventLoop := w }
  | poll {k h} (hk : s.handlers[k]? = some h) (hp : h.phase = .spawned) :
      Step s (.poll k)
        { s with
          handlers := s.handlers.set k { h with phase := .running }
          tasksRunning := s.tasksRunning + 1 }
  | finish {k h} (hk : s.handlers[k]? = some h) (hp : h.phase = .running) :
      Step s (.finish k)
        { s with
          handlers := s.handlers.set k { h with phase := .ended }
          tasksRunning := s.tasksRunning - 1 }
  | sendShutdown (hmain : s.main = .serving) : Step s .sendShutdown { s with main := .load }
  | loadZero (hmain : s.main = .load) (hz : s.tasksRunning = 0) :
      Step s .load { s with main := .exited true }
  | loadBusy (hmain : s.main = .load) (hz : s.tasksRunning ≠ 0) :
      Step s .load { s with main := .sleeping }
  | sleepOver (hmain : s.main = .sleeping) : Step s .sleepOver { s with main := .load }
  | signal (hmain : s.main = .sleeping) : Step s .signal { s with main := .exited false }

theorem Step.of_act {s t : App ρ κ} {e : AppEvent ρ κ} (h : s.act e = some t) : Step s e t := by
  cases e with
  | recv u =>
    simp only [act] at h
    split at h
    · rename_i hphase hmain
      obtain rfl := Option.some.inj h
      exact .recv hphase hmain
    · exact absurd h (by simp)
  | reload =>
    simp only [act] at h
    split at h
    · rename_i u hphase
      obtain rfl := Option.some.inj h
      exact .reload hphase
    · exact absurd h (by simp)
  | leave =>
    simp only [act] at h
    split at h
    · rename_i hphase
      split at h
      · exact absurd h (by simp)
      · rename_i hmain
        obtain rfl := Option.some.inj h
        exact .leave hphase hmain
    · exact absurd h (by simp)
  | runner i e =>
    obtain ⟨w, hw, rfl⟩ := Option.map_eq_some_iff.mp h
    exact .runner hw
  | fail i =>
    obtain ⟨w, hw, rfl⟩ := Option.map_eq_some_iff.mp h
    exact .fail hw
  | poll k =>
    obtain ⟨x, hk, hx⟩ := Option.bind_eq_some_iff.mp h
    obtain ⟨hp, ht⟩ := Option.ite_none_right_eq_some.mp hx
    obtain rfl := Option.some.inj ht
    exact .poll hk hp
  | finish k =>
    obtain ⟨x, hk, hx⟩ := Option.bind_eq_some_iff.mp h
    obtain ⟨hp, ht⟩ := Option.ite_none_right_eq_some.mp hx
    obtain rfl := Option.some.inj ht
    exact .finish hk hp
  | sendShutdown =>
    obtain ⟨hmain, ht⟩ := Option.ite_none_right_eq_some.mp h
    obtain rfl := Option.some.inj ht
    exact .sendShutdown hmain
  | load =>
    obtain ⟨hmain, hx⟩ := Option.ite_none_right_eq_some.mp h
    split at hx
    · rename_i hz
      obtain rfl := Option.some.inj hx
      exact .loadZero hmain hz
    · rename_i hz
      obtain rfl := Option.some.inj hx
      exact .loadBusy hmain hz
  | sleepOver =>
    obtain ⟨hmain, ht⟩ := Option.ite_none_right_eq_some.mp h
    obtain rfl := Option.some.inj ht
    exact .sleepOver hmain
  | signal =>
    obtain ⟨hmain, ht⟩ := Option.ite_none_right_eq_some.mp h
    obtain rfl := Option.some.inj ht
    exact .signal hmain

theorem Step.of_step {s t : App ρ κ} {e : AppEvent ρ κ} (h : s.step e = some t) : Step s e t := by
  rw [step] at h
  split at h
  · exact absurd h (by simp)
  · exact Step.of_act h

/-! ## What the counter counts -/

/-- The handlers that have been polled and have not ended. -/
def running (s : App ρ κ) : ℕ := s.handlers.countP fun h => h.phase = .running

theorem countP_spawned (i : ℕ) (w w' : EventLoop ρ κ) :
    (spawned i w w').countP (fun h => decide (h.phase = .running)) = 0 := by
  rw [List.countP_eq_zero]
  intro h hh
  obtain ⟨job, -, rfl⟩ := List.mem_map.mp hh
  simp

/-- The count after handler `k` has moved to phase `p`. -/
theorem countP_set_phase {hs : List (Handler ρ κ)} {k : ℕ} {h : Handler ρ κ}
    (hk : hs[k]? = some h) (p : HandlerPhase) :
    (hs.set k { h with phase := p }).countP (fun h => decide (h.phase = .running)) =
      hs.countP (fun h => decide (h.phase = .running)) - (if h.phase = .running then 1 else 0) +
        (if p = .running then 1 else 0) := by
  obtain ⟨hlt, rfl⟩ := List.getElem?_eq_some_iff.mp hk
  rw [List.countP_set hlt]
  simp only [decide_eq_true_eq]

theorem tasksRunning_of_step {s t : App ρ κ} {e : AppEvent ρ κ}
    (hI : s.tasksRunning = s.running) (h : s.step e = some t) : t.tasksRunning = t.running := by
  cases Step.of_step h with
  | runner hw =>
    simp only [running, List.countP_append, countP_spawned, Nat.add_zero]
    exact hI
  | poll hk hp =>
    simp only [running, countP_set_phase hk, hp, reduceCtorEq, reduceIte, Nat.sub_zero]
    exact congrArg (· + 1) hI
  | finish hk hp =>
    simp only [running, countP_set_phase hk, hp, reduceCtorEq, reduceIte, Nat.add_zero]
    exact congrArg (· - 1) hI
  | _ => exact hI

/-- **The counter is the number of handlers between their first poll and their end.** -/
theorem tasksRunning_of_run {es : List (AppEvent ρ κ)} {s : App ρ κ}
    (h : run step start es = some s) : s.tasksRunning = s.running :=
  run_invariant (I := fun s : App ρ κ => s.tasksRunning = s.running) rfl
    (fun _ _ _ hI hs => tasksRunning_of_step hI hs) h

/-! ## The handlers and the runners -/

theorem agrees_of_step {s t : App ρ κ} {e : AppEvent ρ κ} (hI : s.eventLoop.Agrees)
    (h : s.step e = some t) : t.eventLoop.Agrees := by
  cases Step.of_step h with
  | reload hphase => exact (EventLoop.applyUpdate_spec hI _).agrees hI
  | leave hphase hmain => exact (EventLoop.applyUpdate_spec hI ∅).agrees hI
  | runner hw => exact EventLoop.agrees_of_step hI hw
  | fail hw => exact EventLoop.agrees_of_step hI hw
  | _ => exact hI

/-- The connections, with their rules, that the handlers of runner `i` were given. -/
def jobs (s : App ρ κ) (i : ℕ) : List (κ × ρ) :=
  s.handlers.filterMap fun h => if h.runner = i then some h.job else none

theorem jobs_set {hs : List (Handler ρ κ)} {k : ℕ} {h : Handler ρ κ} (hk : hs[k]? = some h)
    (p : HandlerPhase) (i : ℕ) :
    ((hs.set k { h with phase := p }).filterMap fun h =>
        if h.runner = i then some h.job else none) =
      hs.filterMap fun h => if h.runner = i then some h.job else none := by
  induction hs generalizing k with
  | nil => rfl
  | cons x hs ih =>
    cases k with
    | zero =>
      obtain rfl := Option.some.inj hk
      simp only [List.set_cons_zero, List.filterMap_cons]
    | succ k =>
      simp only [List.set_cons_succ, List.filterMap_cons, ih hk]

theorem jobs_spawned {i : ℕ} {w w' : EventLoop ρ κ} (h : w.handed i <+: w'.handed i) :
    w.handed i ++ ((spawned i w w').filterMap fun h =>
      if h.runner = i then some h.job else none) = w'.handed i := by
  obtain ⟨l, hl⟩ := h
  rw [spawned, ← hl, List.drop_left, List.filterMap_map]
  simp

theorem jobs_spawned_of_ne {i j : ℕ} (hij : i ≠ j) (w w' : EventLoop ρ κ) :
    ((spawned i w w').filterMap fun h => if h.runner = j then some h.job else none) = [] := by
  rw [spawned, List.filterMap_map]
  simp [hij]

theorem jobs_of_step {s t : App ρ κ} {e : AppEvent ρ κ} (hI : s.eventLoop.Agrees)
    (hjobs : ∀ i, s.jobs i = s.eventLoop.handed i) (h : s.step e = some t) (i : ℕ) :
    t.jobs i = t.eventLoop.handed i := by
  cases Step.of_step h with
  | reload hphase => exact (hjobs i).trans (EventLoop.handed_applyUpdate hI _ i).symm
  | leave hphase hmain => exact (hjobs i).trans (EventLoop.handed_applyUpdate hI ∅ i).symm
  | fail hw => exact (hjobs i).trans (EventLoop.handed_of_fail hw i).symm
  | poll hk hp => exact (jobs_set hk _ i).trans (hjobs i)
  | finish hk hp => exact (jobs_set hk _ i).trans (hjobs i)
  | @runner j e w hw =>
    have hs : s.jobs i = s.eventLoop.handed i := hjobs i
    obtain ⟨hpre, hne⟩ := EventLoop.handed_of_runner_step hw
    simp only [jobs, List.filterMap_append] at hs ⊢
    rw [hs]
    by_cases hij : j = i
    · subst hij
      exact jobs_spawned hpre
    · rw [jobs_spawned_of_ne hij, List.append_nil, hne i hij]
  | _ => exact hjobs i

/-- **Every connection that a runner has handed over has its handler.**  In every state
the handlers of runner `i` are, in order, the connections that it has handed over, each
with the rule it was handed over with. -/
theorem jobs_of_run {es : List (AppEvent ρ κ)} {s : App ρ κ} (h : run step start es = some s)
    (i : ℕ) : s.jobs i = s.eventLoop.handed i := by
  refine (run_invariant (I := fun s : App ρ κ => s.eventLoop.Agrees ∧
    ∀ i, s.jobs i = s.eventLoop.handed i) ⟨EventLoop.agrees_new, fun _ => rfl⟩ ?_ h).2 i
  rintro s e t ⟨hI, hjobs⟩ hs
  exact ⟨agrees_of_step hI hs, jobs_of_step hI hjobs hs⟩

/-! ## The runners after the event loop has returned -/

/-- The map of an event loop that has returned is empty. -/
def Emptied (s : App ρ κ) : Prop := s.phase = .exited → ∀ a, a ∉ s.eventLoop.listeners

theorem emptied_of_step {s t : App ρ κ} {e : AppEvent ρ κ} (hI : s.eventLoop.Agrees)
    (h : s.Emptied) (hs : s.step e = some t) : t.Emptied := by
  intro hleft a
  cases Step.of_step hs with
  | recv | reload => exact absurd hleft (by simp)
  | leave =>
    rw [EventLoop.mem_listeners_applyUpdate hI ∅ a]
    exact AList.notMem_empty a
  | runner hw =>
    obtain ⟨r, r', -, hr, hr', rfl⟩ := EventLoop.of_runner_step hw
    exact h hleft a
  | fail hw =>
    obtain ⟨r, hr, -, rfl⟩ := EventLoop.of_fail_step hw
    exact h hleft a
  | _ => exact h hleft a

/-- **Once the event loop has returned, every runner has been told to stop.**  A runner that
has not been told has a sender, and the sender is in the map. -/
theorem Emptied.closed {s : App ρ κ} (h : s.Emptied) (hI : s.eventLoop.Agrees)
    (hleft : s.phase = .exited) : ∀ r ∈ s.eventLoop.runners, r.configRx.closed = true := by
  intro r hr
  obtain ⟨i, hi⟩ := List.getElem?_of_mem hr
  by_contra hopen
  have hlookup := hI.lookup_of_open hi (by simpa using hopen)
  exact h hleft r.listenAddr (AList.lookup_isSome.mp (by rw [hlookup]; rfl))

theorem emptied_of_run {es : List (AppEvent ρ κ)} {s : App ρ κ} (h : run step start es = some s) :
    s.eventLoop.Agrees ∧ s.Emptied := by
  refine run_invariant (I := fun s : App ρ κ => s.eventLoop.Agrees ∧ s.Emptied)
    ⟨EventLoop.agrees_new, fun hleft => absurd hleft (by simp [start])⟩ ?_ h
  rintro s e t ⟨hI, hE⟩ hs
  exact ⟨agrees_of_step hI hs, emptied_of_step hI hE hs⟩

/-! ## Reading zero -/

/-- The drain is over: no runner has still an accept queue to drain, and every handler that
was spawned has ended. -/
def Drained (s : App ρ κ) : Prop :=
  (∀ r ∈ s.eventLoop.runners, ¬ r.Draining) ∧ ∀ h ∈ s.handlers, h.phase = .ended

/-- What the counter does not tell. -/
structure Settled (s : App ρ κ) : Prop where
  /-- The event loop has returned, unless there is no runner left for it to tell. -/
  left : (∃ r ∈ s.eventLoop.runners, r.exited = false) → s.phase = .exited
  /-- Every runner that has been told to stop has returned. -/
  returned : ∀ r ∈ s.eventLoop.runners, r.configRx.closed = true → r.exited = true
  /-- Every handler that was spawned has been polled. -/
  polled : ∀ h ∈ s.handlers, h.phase ≠ .spawned

/-- The runners have returned if the event loop has told them to and they have done so. -/
theorem not_draining_iff {s : App ρ κ} (hI : s.eventLoop.Agrees) (hE : s.Emptied) :
    (∀ r ∈ s.eventLoop.runners, ¬ r.Draining) ↔
      ((∃ r ∈ s.eventLoop.runners, r.exited = false) → s.phase = .exited) ∧
        ∀ r ∈ s.eventLoop.runners, r.configRx.closed = true → r.exited = true := by
  constructor
  · intro h
    refine ⟨fun ⟨r, hr, hrunning⟩ => absurd hrunning (h r hr), fun r hr _ => ?_⟩
    simpa [LBRunner.Draining] using h r hr
  · rintro ⟨hleft, hreturned⟩ r hr hrunning
    have hclosed := hE.closed hI (hleft ⟨r, hr, hrunning⟩) r hr
    exact absurd (hrunning.symm.trans (hreturned r hr hclosed)) (by simp)

/-- A counter of `0` leaves a handler two phases: not polled yet, or ended. -/
theorem phase_of_tasksRunning_eq_zero {s : App ρ κ} (hI : s.tasksRunning = s.running)
    (hz : s.tasksRunning = 0) {h : Handler ρ κ} (hh : h ∈ s.handlers) :
    h.phase = .ended ↔ h.phase ≠ .spawned := by
  have hcount : s.running = 0 := hI ▸ hz
  have hne : ¬ h.phase = .running := by simpa using List.countP_eq_zero.mp hcount h hh
  cases hp : h.phase with
  | running => exact absurd hp hne
  | _ => simp

/-- `main` leaves its drain loop with `0` only in a `load` that read it. -/
theorem load_of_exited {s t : App ρ κ} {e : AppEvent ρ κ} (h : s.step e = some t)
    (hz : t.main = .exited true) :
    e = .load ∧ s.tasksRunning = 0 ∧ t = { s with main := .exited true } := by
  have hlive : s.main ≠ .exited true := by
    intro hm
    rw [step, hm] at h
    exact absurd h (by simp)
  cases Step.of_step h with
  | loadZero hmain hzero => exact ⟨rfl, hzero, rfl⟩
  | sendShutdown | loadBusy | sleepOver | signal => exact absurd hz (by simp)
  | _ => exact absurd hz hlive

/-- **Reading zero means drained exactly when the program had settled.**  A run at whose
end `main` has left because it read `0` ends with that `load`; the drain is over then if
and only if, when the counter was loaded, the event loop had returned (or no runner was left),
every runner that it had told to stop had returned as well, and every spawned handler had been
polled. -/
theorem drained_iff_settled (es : List (AppEvent ρ κ)) (t : App ρ κ)
    (h : run step start es = some t) (hz : t.main = .exited true) :
    ∃ pre s, es = pre ++ [.load] ∧ run step start pre = some s ∧ (t.Drained ↔ s.Settled) := by
  rcases List.eq_nil_or_concat es with rfl | ⟨pre, e, rfl⟩
  · obtain rfl := Option.some.inj h
    exact absurd hz (by simp [start])
  · rw [List.concat_eq_append] at h ⊢
    obtain ⟨s, hs, hstep⟩ := run_snoc_eq_some.mp h
    obtain ⟨rfl, hzero, rfl⟩ := load_of_exited hstep hz
    refine ⟨pre, s, rfl, hs, ?_⟩
    have hphase : ∀ x ∈ s.handlers, x.phase = .ended ↔ x.phase ≠ .spawned := fun x hx =>
      phase_of_tasksRunning_eq_zero (tasksRunning_of_run hs) hzero hx
    obtain ⟨hI, hE⟩ := emptied_of_run hs
    constructor
    · rintro ⟨hr, hh⟩
      obtain ⟨hleft, hreturned⟩ := (not_draining_iff hI hE).mp hr
      exact ⟨hleft, hreturned, fun x hx => (hphase x hx).mp (hh x hx)⟩
    · rintro ⟨hleft, hreturned, hh⟩
      exact ⟨(not_draining_iff hI hE).mpr ⟨hleft, hreturned⟩,
        fun x hx => (hphase x hx).mpr (hh x hx)⟩

/-- One listener, two clients in its accept queue when the shutdown is sent; the runner
has handed over the first. -/
def drainingRun : List (AppEvent ℕ ℕ) :=
  [.recv ((∅ : HashMap SocketAddr ℕ).insert EventLoop.web 1), .reload, .runner 0 .start,
    .runner 0 (.arrive (.conn 7)), .runner 0 (.arrive (.conn 8)), .sendShutdown, .leave,
    .runner 0 .pollChanged, .runner 0 .pollDrain]

/-- The same run, with everything done before `main` looks. -/
def patientRun : List (AppEvent ℕ ℕ) :=
  drainingRun ++ [.runner 0 .pollChanged, .runner 0 .pollDrain, .runner 0 .pollChanged,
    .runner 0 .pollDrain, .poll 0, .poll 1, .finish 1, .finish 0, .load]

theorem drained_iff_settled_patientRun :
    ∃ t, run step start patientRun = some t ∧ t.main = .exited true ∧ t.Drained ∧
      ∃ pre s, patientRun = pre ++ [.load] ∧ run step start pre = some s ∧ s.Settled := by
  have hrun : ∃ t, run step start patientRun = some t ∧ t.main = .exited true ∧
      (∀ r ∈ t.eventLoop.runners, r.exited = true) ∧ ∀ h ∈ t.handlers, h.phase = .ended :=
    ⟨_, rfl, rfl, by decide, by decide⟩
  obtain ⟨t, ht, hmain, hrunners, hhandlers⟩ := hrun
  have hdrained : t.Drained := ⟨fun r hr => by simp [LBRunner.Draining, hrunners r hr], hhandlers⟩
  obtain ⟨pre, s, hpre, hs, hiff⟩ := drained_iff_settled patientRun t ht hmain
  exact ⟨t, ht, hmain, hdrained, pre, s, hpre, hs, hiff.mp hdrained⟩

/-- **`main` can leave in the middle of the drain, or before it.**  It reads `0` while the
runner still has a client in its accept queue, and while the handler of the other one waits for
its first poll.  It also reads `0` when it looks at once, before the event loop has seen that
it is to stop, and both clients are left in the queue. -/
theorem not_drained_drainingRun :
    (∃ t, run step start (drainingRun ++ [.load]) = some t ∧ t.main = .exited true ∧
      (∃ r ∈ t.eventLoop.runners, r.configRx.closed = true ∧ r.Draining ∧ r.queue = [.conn 8]) ∧
      (∃ h ∈ t.handlers, h.job = (7, 1) ∧ h.phase = .spawned) ∧ ¬ t.Drained) ∧
    ∃ t, run step start (drainingRun.take 6 ++ [.load]) = some t ∧ t.main = .exited true ∧
      (∃ r ∈ t.eventLoop.runners, r.Draining ∧ r.queue = [.conn 7, .conn 8]) ∧
      ¬ t.Drained := by
  have hmiddle : ∃ t, run step start (drainingRun ++ [.load]) = some t ∧ t.main = .exited true ∧
      (∃ r ∈ t.eventLoop.runners, r.configRx.closed = true ∧ r.Draining ∧ r.queue = [.conn 8]) ∧
      (∃ h ∈ t.handlers, h.job = (7, 1) ∧ h.phase = .spawned) :=
    ⟨_, rfl, rfl, ⟨_, List.mem_singleton.mpr rfl, rfl, rfl, rfl⟩,
      ⟨_, List.mem_singleton.mpr rfl, rfl, rfl⟩⟩
  have hbefore : ∃ t, run step start (drainingRun.take 6 ++ [.load]) = some t ∧
      t.main = .exited true ∧
      ∃ r ∈ t.eventLoop.runners, r.Draining ∧ r.queue = [.conn 7, .conn 8] :=
    ⟨_, rfl, rfl, _, List.mem_singleton.mpr rfl, rfl, rfl⟩
  obtain ⟨t, hrun, hmain, ⟨r, hr, hclosed, hdrain, hqueue⟩, hspawned⟩ := hmiddle
  obtain ⟨t', hrun', hmain', r', hr', hdrain', hqueue'⟩ := hbefore
  exact ⟨⟨t, hrun, hmain, ⟨r, hr, hclosed, hdrain, hqueue⟩, hspawned,
    fun hd => hd.1 r hr hdrain⟩,
    ⟨t', hrun', hmain', ⟨r', hr', hdrain', hqueue'⟩, fun hd => hd.1 r' hr' hdrain'⟩⟩

end App
end Turbine
