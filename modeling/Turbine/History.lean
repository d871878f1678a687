import Turbine.Reload

/-!
# Which update a rule comes from

A rule passes through three hands before a connection is given it: the event loop puts it
into the watch channel of the runner, the runner copies it out, and the copy is what
`handle_client` gets.  `Listener.NewestRule` follows one runner whose channel is written by
anybody; here the channels are written by the event loop, update by update, and every copy
is traced back to the update that it comes from.

The updates of the event loop are numbered.  An update either sends a rule to a runner or
takes its sender away, so as long as a runner has a sender its channel holds the rule of the
latest update, and version `v` of the channel is the rule of update `n + v`, where `n` is the
update that spawned the runner.  `Follows` is that statement, together with the same one about
the runner's copy and about everything it has handed over.  The runner never goes back to an
older version, so the updates behind its connections come in order.
-/

namespace Turbine

variable {ρ κ : Type}

/-- Update `j` has the rule `v` for the address `a`. -/
def Gave (us : List (HashMap SocketAddr ρ)) (a : SocketAddr) (j : ℕ) (v : ρ) : Prop :=
  ∃ u, us[j]? = some u ∧ u.lookup a = some v

theorem Gave.append {us : List (HashMap SocketAddr ρ)} {a : SocketAddr} {j : ℕ} {v : ρ}
    (h : Gave us a j v) (vs : List (HashMap SocketAddr ρ)) : Gave (us ++ vs) a j v := by
  obtain ⟨u, hu, hv⟩ := h
  have hlt := (List.getElem?_eq_some_iff.mp hu).1
  exact ⟨u, by rw [List.getElem?_append_left hlt, hu], hv⟩

theorem gave_last {us : List (HashMap SocketAddr ρ)} {u : HashMap SocketAddr ρ} {a : SocketAddr}
    {v : ρ} (hv : u.lookup a = some v) : Gave (us ++ [u]) a us.length v :=
  ⟨u, by simp, hv⟩

/-- The rules of `jobs` are rules for `a` of updates up to `top`, and these come in order. -/
def InOrderUpTo (us : List (HashMap SocketAddr ρ)) (a : SocketAddr) (top : ℕ)
    (jobs : List (κ × ρ)) : Prop :=
  ∃ js : List ℕ, js.Pairwise (· ≤ ·) ∧ (∀ j ∈ js, j ≤ top) ∧
    List.Forall₂ (fun j job => Gave us a j job.2) js jobs

namespace InOrderUpTo

variable {us : List (HashMap SocketAddr ρ)} {a : SocketAddr} {top : ℕ} {jobs : List (κ × ρ)}

theorem nil : InOrderUpTo us a top ([] : List (κ × ρ)) :=
  ⟨[], List.Pairwise.nil, by simp, .nil⟩

theorem mono (h : InOrderUpTo us a top jobs) (vs : List (HashMap SocketAddr ρ)) {top' : ℕ}
    (htop : top ≤ top') : InOrderUpTo (us ++ vs) a top' jobs := by
  obtain ⟨js, hsorted, hle, hgave⟩ := h
  exact ⟨js, hsorted, fun j hj => Nat.le_trans (hle j hj) htop,
    hgave.imp fun _ _ hg => hg.append vs⟩

theorem snoc (h : InOrderUpTo us a top jobs) {c : κ} {v : ρ} (hv : Gave us a top v) :
    InOrderUpTo us a top (jobs ++ [(c, v)]) := by
  obtain ⟨js, hsorted, hle, hgave⟩ := h
  refine ⟨js ++ [top], ?_, ?_, List.rel_append hgave (.cons hv .nil)⟩
  · rw [List.pairwise_append]
    refine ⟨hsorted, List.pairwise_singleton _ _, fun j hj k hk => ?_⟩
    rw [List.mem_singleton.mp hk]
    exact hle j hj
  · intro j hj
    rcases List.mem_append.mp hj with hj | hj
    · exact hle j hj
    · exact Nat.le_of_eq (List.mem_singleton.mp hj)

end InOrderUpTo

namespace LBRunner

/-- The runner was spawned by update `n` of `us`: its channel, its copy and what it has handed
over are rules of these updates. -/
structure Follows (us : List (HashMap SocketAddr ρ)) (n : ℕ) (r : LBRunner ρ κ) : Prop where
  value : Gave us r.listenAddr (n + r.configRx.version) r.configRx.value
  /-- As long as it has a sender, no update passes it by. -/
  latest : r.configRx.closed = false → n + r.configRx.version + 1 = us.length
  /-- Between `changed()` and `borrow_and_update` the copy is older than what was seen. -/
  copy : ∀ p rule, r.task = .running p rule → p ≠ .update →
    Gave us r.listenAddr (n + r.configRx.seen) rule
  handed : InOrderUpTo us r.listenAddr (n + r.configRx.seen) r.handed

theorem follows_spawn {us : List (HashMap SocketAddr ρ)} {u : HashMap SocketAddr ρ}
    {a : SocketAddr} {v : ρ} (hv : u.lookup a = some v) :
    Follows (us ++ [u]) us.length (spawn a v : LBRunner ρ κ) :=
  ⟨gave_last hv, fun _ => by simp [spawn, Watch.channel], fun p rule ht => by simp [spawn] at ht,
    .nil⟩

/-- A runner that has no sender is passed by. -/
theorem Follows.pass {us : List (HashMap SocketAddr ρ)} {n : ℕ} {r : LBRunner ρ κ}
    (h : Follows us n r) (hclosed : r.configRx.closed = true) (vs : List (HashMap SocketAddr ρ)) :
    Follows (us ++ vs) n r :=
  ⟨h.value.append vs, fun hopen => absurd (hclosed.symm.trans hopen) (by simp),
    fun p rule ht hp => (h.copy p rule ht hp).append vs, h.handed.mono vs (Nat.le_refl _)⟩

theorem Follows.sendReplace {us : List (HashMap SocketAddr ρ)} {n : ℕ} {r : LBRunner ρ κ}
    (h : Follows us n r) (hopen : r.configRx.closed = false) {u : HashMap SocketAddr ρ} {v : ρ}
    (hv : u.lookup r.listenAddr = some v) : Follows (us ++ [u]) n (r.sendReplace v) := by
  have hlatest := h.latest hopen
  refine ⟨?_, fun _ => ?_, fun p rule ht hp => (h.copy p rule ht hp).append _,
    h.handed.mono _ (Nat.le_refl _)⟩
  · have hnext : n + (r.configRx.version + 1) = us.length := by omega
    rw [sendReplace_listenAddr, sendReplace_value]
    show Gave _ _ (n + (r.configRx.version + 1)) v
    rw [hnext]
    exact gave_last hv
  · show n + (r.configRx.version + 1) + 1 = _
    rw [List.length_append, List.length_singleton]
    omega

theorem Follows.dropSender {us : List (HashMap SocketAddr ρ)} {n : ℕ} {r : LBRunner ρ κ}
    (h : Follows us n r) : Follows us n r.dropSender :=
  ⟨h.value, fun hopen => absurd hopen (by simp), h.copy, h.handed⟩

/-- What the runner itself does, and what reaches its accept queue, keeps it so. -/
theorem Follows.of_step {us : List (HashMap SocketAddr ρ)} {n : ℕ} {r r' : LBRunner ρ κ}
    {e : RunnerEvent ρ κ} (h : Follows us n r) (hs : r.step e = some r')
    (he : onChannel e = false) : Follows us n r' := by
  have hseen : n + r.configRx.seen ≤ n + r.configRx.version :=
    Nat.add_le_add_left r.configRx.seen_le n
  have hcaught : InOrderUpTo us r.listenAddr (n + r.configRx.version) r.handed := by
    have hmono := h.handed.mono [] hseen
    rwa [List.append_nil] at hmono
  cases Step.of_step hs with
  | start ht =>
    refine ⟨h.value, h.latest, fun p rule ht' _ => ?_, hcaught⟩
    obtain ⟨-, rfl⟩ := Task.running.inj ht'
    exact h.value
  | borrowAndUpdate ht =>
    refine ⟨h.value, h.latest, fun p rule ht' _ => ?_, hcaught⟩
    obtain ⟨-, rfl⟩ := Task.running.inj ht'
    exact h.value
  | changedOk ht =>
    exact ⟨h.value, h.latest, fun p rule ht' hp => absurd (Task.running.inj ht').1.symm hp, hcaught⟩
  | startFail | drainErr | drainPending =>
    exact ⟨h.value, h.latest, fun p rule ht' => absurd ht' (by simp), h.handed⟩
  | changedClosed ht | changedPending ht | acceptErr ht | acceptPending ht | wake ht =>
    refine ⟨h.value, h.latest, fun p rule ht' _ => ?_, h.handed⟩
    obtain ⟨-, rfl⟩ := Task.running.inj ht'
    exact h.copy _ _ ht (by simp)
  | drainConn ht | acceptConn ht =>
    have hcopy := h.copy _ _ ht (by simp)
    refine ⟨h.value, h.latest, fun p rule ht' _ => ?_, h.handed.snoc hcopy⟩
    obtain ⟨-, rfl⟩ := Task.running.inj ht'
    exact hcopy
  | sendReplace | dropSender => exact absurd he (by simp [onChannel])
  | arrive => exact ⟨h.value, h.latest, h.copy, h.handed⟩

end LBRunner

namespace EventLoop

open LBRunner

/-- Every runner follows the updates. -/
def Traces (us : List (HashMap SocketAddr ρ)) (w : EventLoop ρ κ) : Prop :=
  ∀ ⦃i : ℕ⦄ ⦃r : LBRunner ρ κ⦄, w.runners[i]? = some r → ∃ n, Follows us n r

theorem traces_new : Traces [] (new : EventLoop ρ κ) :=
  fun i r h => absurd h (by simp [new])

/-- What an update does to a runner that it finds. -/
theorem follows_touched {us : List (HashMap SocketAddr ρ)} {w : EventLoop ρ κ} (hw : w.Agrees)
    (u : HashMap SocketAddr ρ) {i n : ℕ} {r : LBRunner ρ κ} (hr : w.runners[i]? = some r)
    (h : Follows us n r) : Follows (us ++ [u]) n (w.touched u i r) := by
  by_cases hl : w.listeners.lookup r.listenAddr = some i
  · obtain ⟨r₀, hr₀, -, hopen⟩ := hw.open_of_lookup hl
    obtain rfl := Option.some.inj (hr.symm.trans hr₀)
    cases hu : u.lookup r.listenAddr with
    | some v =>
      rw [touched_of_some hl hu]
      exact h.sendReplace hopen hu
    | none =>
      rw [touched_of_none hl hu]
      exact h.dropSender.pass rfl [u]
  · have hclosed : r.configRx.closed = true := by
      cases hc : r.configRx.closed with
      | true => rfl
      | false => exact absurd (hw.lookup_of_open hr hc) hl
    rw [touched_of_ne hl]
    exact h.pass hclosed [u]

/-- **An update is one more update to follow.** -/
theorem Traces.applyUpdate {us : List (HashMap SocketAddr ρ)} {w : EventLoop ρ κ}
    (h : Traces us w) (hw : w.Agrees) (u : HashMap SocketAddr ρ) :
    Traces (us ++ [u]) (w.applyUpdate u) := by
  have hspec := applyUpdate_spec hw u
  intro i r' hr'
  cases hr : w.runners[i]? with
  | some r =>
    obtain ⟨n, hn⟩ := h hr
    obtain rfl := Option.some.inj (hr'.symm.trans (hspec.old hr))
    exact ⟨n, follows_touched hw u hr hn⟩
  | none =>
    obtain ⟨v, hv, -, hspawn, -⟩ := hspec.new (List.getElem?_eq_none_iff.mp hr) hr'
    rw [hspawn]
    exact ⟨us.length, follows_spawn hv⟩

/-- When the event loop leaves, all senders are dropped, and no update has come. -/
theorem Traces.leave {us : List (HashMap SocketAddr ρ)} {w : EventLoop ρ κ} (h : Traces us w)
    (hw : w.Agrees) : Traces us (w.applyUpdate ∅) := by
  have hspec := applyUpdate_spec hw (∅ : HashMap SocketAddr ρ)
  intro i r' hr'
  cases hr : w.runners[i]? with
  | some r =>
    obtain ⟨n, hn⟩ := h hr
    obtain rfl := Option.some.inj (hr'.symm.trans (hspec.old hr))
    refine ⟨n, ?_⟩
    by_cases hl : w.listeners.lookup r.listenAddr = some i
    · rw [touched_of_none hl (AList.lookup_empty _)]
      exact hn.dropSender
    · rw [touched_of_ne hl]
      exact hn
  | none =>
    obtain ⟨v, hv, -⟩ := hspec.new (List.getElem?_eq_none_iff.mp hr) hr'
    rw [AList.lookup_empty] at hv
    exact absurd hv (by simp)

/-- What happens between updates leaves every runner following them. -/
theorem Traces.of_step {us : List (HashMap SocketAddr ρ)} {w w' : EventLoop ρ κ}
    (h : Traces us w) {e : LoopEvent ρ κ} (he : ∀ u, e ≠ .update u) (hs : w.step e = some w') :
    Traces us w' := by
  have hset : ∀ {i : ℕ} {r r' : LBRunner ρ κ}, w.runners[i]? = some r →
      (∀ n, Follows us n r → Follows us n r') →
      Traces us { w with runners := w.runners.set i r' } := by
    intro i r r' hr hkeep j q hq
    by_cases hij : i = j
    · subst hij
      rw [List.getElem?_set_self (List.getElem?_eq_some_iff.mp hr).1] at hq
      obtain rfl := Option.some.inj hq
      obtain ⟨n, hn⟩ := h hr
      exact ⟨n, hkeep n hn⟩
    · rw [List.getElem?_set_ne hij] at hq
      exact h hq
  cases e with
  | update u => exact absurd rfl (he u)
  | runner i e =>
    simp only [step] at hs
    split at hs
    · exact absurd hs (by simp)
    · rename_i hchannel
      obtain ⟨r, hr, hmap⟩ := Option.bind_eq_some_iff.mp hs
      obtain ⟨r', hr', rfl⟩ := Option.map_eq_some_iff.mp hmap
      exact hset hr fun n hn => hn.of_step hr' (by simpa using hchannel)
  | fail i =>
    obtain ⟨r, hr, hif⟩ := Option.bind_eq_some_iff.mp hs
    split at hif
    · exact absurd hif (by simp)
    · obtain rfl := Option.some.inj hif
      exact hset hr fun n hn =>
        ⟨hn.value, hn.latest, fun p rule ht => absurd ht (by simp), hn.handed⟩

/-- The channel of an address in the map holds the rule of the last update. -/
theorem Traces.value {us : List (HashMap SocketAddr ρ)} {w : EventLoop ρ κ} (h : Traces us w)
    (hw : w.Agrees) {u : HashMap SocketAddr ρ} (hu : us.getLast? = some u) {a : SocketAddr} {i : ℕ}
    (hl : w.listeners.lookup a = some i) :
    ∃ r, w.runners[i]? = some r ∧ r.listenAddr = a ∧ r.configRx.closed = false ∧
      u.lookup a = some r.configRx.value := by
  obtain ⟨r, hr, rfl, hopen⟩ := hw.open_of_lookup hl
  obtain ⟨n, hn⟩ := h hr
  obtain ⟨u', hu', hv⟩ := hn.value
  have hindex : n + r.configRx.version = us.length - 1 := by
    have := hn.latest hopen
    omega
  rw [hindex, ← List.getLast?_eq_getElem?, hu] at hu'
  obtain rfl := Option.some.inj hu'
  exact ⟨r, hr, rfl, hopen, hv⟩

end EventLoop
end Turbine
