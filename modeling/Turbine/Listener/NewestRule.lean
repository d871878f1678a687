import Turbine.Listener.Runner

/-!
# Which rule a connection is handled with

A runner keeps three things that have to agree: the value in its watch channel,
the version it has marked as seen, and its own copy of the rule.  Between two of
its operations the event loop may send any number of rules, or drop the sender.

The rules that have been in the channel are read off the labels of the run
(`sentRules`): the one it was spawned with, then every one sent.  Version `n` is
entry `n`, and `channel_of_run` says that the channel holds the last one.

The invariant that carries everything is `copy_of_run`: except between `changed()`
and `borrow_and_update`, the runner's copy is the rule of the version it has marked
as seen.  A poll of `changed()` that reports nothing new therefore certifies the
copy, and the two points where a connection can be accepted lie directly behind
such a poll.
-/

namespace Turbine
namespace LBRunner

open Runs

variable {ρ κ : Type}

/-! ## The rules that have been in the channel -/

/-- The rule an event puts into the channel. -/
def sent? : RunnerEvent ρ κ → Option ρ
  | .sendReplace v => some v
  | _ => none

/-- The rules that have been in the channel, oldest first, when the runner was
spawned with `config` and the events `es` have happened. -/
def sentRules (config : ρ) (es : List (RunnerEvent ρ κ)) : List ρ :=
  config :: es.filterMap sent?

theorem sentRules_append (config : ρ) (es fs : List (RunnerEvent ρ κ)) :
    sentRules config (es ++ fs) = sentRules config es ++ fs.filterMap sent? := by
  rw [sentRules, List.filterMap_append]
  rfl

theorem sentRules_snoc_send (config v : ρ) (es : List (RunnerEvent ρ κ)) :
    sentRules config (es ++ [.sendReplace v]) = sentRules config es ++ [v] :=
  sentRules_append config es _

theorem sentRules_snoc_of_none {config : ρ} {es : List (RunnerEvent ρ κ)} {e : RunnerEvent ρ κ}
    (h : sent? e = none) : sentRules config (es ++ [e]) = sentRules config es := by
  rw [sentRules_append, List.filterMap_cons_none h, List.filterMap_nil, List.append_nil]

/-- A version keeps its rule when more rules are sent. -/
theorem sentRules_append_of_eq_some {config v : ρ} {es : List (RunnerEvent ρ κ)} {n : ℕ}
    (fs : List (RunnerEvent ρ κ)) (h : (sentRules config es)[n]? = some v) :
    (sentRules config (es ++ fs))[n]? = some v := by
  obtain ⟨hn, -⟩ := List.getElem?_eq_some_iff.mp h
  rw [sentRules_append, List.getElem?_append_left hn, h]

variable {addr : SocketAddr} {config : ρ} {es : List (RunnerEvent ρ κ)} {r : LBRunner ρ κ}

/-- **The channel holds the last rule sent**, and its version counts the sends. -/
theorem channel_of_run (h : run step (spawn addr config) es = some r) :
    (sentRules config es).length = r.configRx.version + 1 ∧
      (sentRules config es)[r.configRx.version]? = some r.configRx.value := by
  refine run_induction (motive := fun es r =>
    (sentRules config es).length = r.configRx.version + 1 ∧
      (sentRules config es)[r.configRx.version]? = some r.configRx.value) ⟨rfl, rfl⟩ ?_ h
  intro es e r r' _ ih hs
  cases Step.of_step hs with
  | sendReplace v hc =>
    obtain ⟨hlen, -⟩ := ih
    refine ⟨?_, ?_⟩
    · rw [sentRules_snoc_send, List.length_append, hlen]
      rfl
    · rw [sentRules_snoc_send, List.getElem?_append_right (by simp [hlen])]
      simp [hlen]
  | _ =>
    rw [sentRules_snoc_of_none rfl]
    exact ih

/-- **The runner's copy is the rule of the version it has marked as seen**, at
every point but the one between `changed()` and `borrow_and_update`. -/
theorem copy_of_run (h : run step (spawn addr config) es = some r) :
    ∀ p rule, r.task = .running p rule → p ≠ .update →
      (sentRules config es)[r.configRx.seen]? = some rule := by
  refine run_induction (motive := fun es r => ∀ p rule, r.task = .running p rule →
    p ≠ .update → (sentRules config es)[r.configRx.seen]? = some rule)
    (fun p rule ht => absurd ht (by simp [spawn])) ?_ h
  intro es e r r' hrun ih hs p rule ht hp
  have hch := (channel_of_run hrun).2
  refine sentRules_append_of_eq_some [e] ?_
  cases Step.of_step hs with
  | start h₁ =>
    obtain ⟨-, rfl⟩ := Task.running.inj ht
    exact hch
  | borrowAndUpdate h₁ =>
    obtain ⟨-, rfl⟩ := Task.running.inj ht
    exact hch
  | startFail h₁ => exact absurd ht (by simp)
  | drainErr h₁ => exact absurd ht (by simp)
  | drainPending h₁ => exact absurd ht (by simp)
  | changedOk h₁ => exact absurd (Task.running.inj ht).1.symm hp
  | changedClosed h₁ | changedPending h₁ | drainConn h₁ | acceptConn h₁ | acceptErr h₁
  | acceptPending h₁ | wake h₁ =>
    obtain ⟨-, rfl⟩ := Task.running.inj ht
    exact ih _ _ h₁ (by simp)
  | sendReplace v hc => exact ih p rule ht hp
  | dropSender hc => exact ih p rule ht hp
  | arrive x h₁ => exact ih p rule ht hp

/-! ## The poll behind an accept -/

/-- In the events `es`, the last poll of `changed()` found version `n` and the rule
`rule` in the channel. -/
def LastPoll (addr : SocketAddr) (config : ρ) (es : List (RunnerEvent ρ κ)) (n : ℕ)
    (rule : ρ) : Prop :=
  ∃ pre mid p, es = pre ++ .pollChanged :: mid ∧ .pollChanged ∉ mid ∧
    run step (spawn addr config) pre = some p ∧
    p.configRx.version = n ∧ p.configRx.value = rule

theorem LastPoll.snoc {n : ℕ} {rule : ρ} {e : RunnerEvent ρ κ}
    (h : LastPoll addr config es n rule) (he : .pollChanged ≠ e) :
    LastPoll addr config (es ++ [e]) n rule := by
  obtain ⟨pre, mid, p, rfl, hmid, hp, hn, hr⟩ := h
  refine ⟨pre, mid ++ [e], p, ?_, ?_, hp, hn, hr⟩
  · rw [List.append_assoc, List.cons_append]
  · rw [List.mem_append, List.mem_singleton]
    rintro (hm | hm)
    · exact hmid hm
    · exact he hm

/-- A poll that finds nothing new certifies the copy: the version it leaves marked
is the channel's, so the copy is the channel's value. -/
theorem lastPoll_of_up_to_date {p : Point} {rule : ρ}
    (h : run step (spawn addr config) es = some r) (ht : r.task = .running p rule)
    (hp : p ≠ .update) (hv : r.configRx.seen = r.configRx.version) :
    LastPoll addr config (es ++ [.pollChanged]) r.configRx.seen rule := by
  have hcopy := copy_of_run h p rule ht hp
  rw [hv, (channel_of_run h).2] at hcopy
  exact ⟨es, [], r, rfl, List.not_mem_nil, h, hv.symm, Option.some.inj hcopy⟩

/-- At both points where a connection can be accepted, the runner's copy is the
rule that the last poll of `changed()` found in the channel. -/
theorem lastPoll_of_run (h : run step (spawn addr config) es = some r) :
    ∀ p rule, r.task = .running p rule → p = .accept ∨ p = .drain →
      LastPoll addr config es r.configRx.seen rule := by
  refine run_induction (motive := fun es r => ∀ p rule, r.task = .running p rule →
    p = .accept ∨ p = .drain → LastPoll addr config es r.configRx.seen rule)
    (fun p rule ht => absurd ht (by simp [spawn])) ?_ h
  intro es e r r' hrun ih hs p rule ht hp
  cases Step.of_step hs with
  | changedClosed h₁ hv hc =>
    obtain ⟨-, rfl⟩ := Task.running.inj ht
    have hpoll := lastPoll_of_up_to_date hrun h₁ (by simp) hv
    exact hpoll
  | changedPending h₁ hv hc =>
    obtain ⟨-, rfl⟩ := Task.running.inj ht
    have hpoll := lastPoll_of_up_to_date hrun h₁ (by simp) hv
    exact hpoll
  | sendReplace v hc => exact (ih p rule ht hp).snoc (by simp)
  | dropSender hc => exact (ih p rule ht hp).snoc (by simp)
  | arrive x h₁ => exact (ih p rule ht hp).snoc (by simp)
  | startFail h₁ | drainErr h₁ | drainPending h₁ => exact absurd ht (by simp)
  | start h₁ | changedOk h₁ | borrowAndUpdate h₁ | drainConn h₁ | acceptConn h₁ | acceptErr h₁
  | acceptPending h₁ | wake h₁ =>
    -- these steps lead elsewhere
    obtain ⟨rfl, -⟩ := Task.running.inj ht
    exact absurd hp (by simp)

/-! ## After the sender is gone -/

/-- A closed channel stays closed. -/
theorem closed_of_step {r r' : LBRunner ρ κ} {e : RunnerEvent ρ κ} (hs : r.step e = some r')
    (hc : r.configRx.closed = true) : r'.configRx.closed = true := by
  cases Step.of_step hs with
  | dropSender _ => rfl
  | _ => exact hc

/-- Nothing is sent on a closed channel. -/
theorem sent?_of_closed {r r' : LBRunner ρ κ} {e : RunnerEvent ρ κ} (hs : r.step e = some r')
    (hc : r.configRx.closed = true) : sent? e = none := by
  cases Step.of_step hs with
  | sendReplace v h₁ => exact absurd hc (by simp [h₁])
  | _ => rfl

theorem sentRules_of_closed {fs : List (RunnerEvent ρ κ)} {s : LBRunner ρ κ}
    (hc : r.configRx.closed = true) (h : run step r fs = some s) (es : List (RunnerEvent ρ κ)) :
    sentRules config (es ++ fs) = sentRules config es := by
  induction fs generalizing r es with
  | nil => rw [List.append_nil]
  | cons e fs ih =>
    obtain ⟨t, ht, hs⟩ := run_cons_eq_some.mp h
    have hnone : sentRules config (es ++ [e]) = sentRules config es :=
      sentRules_snoc_of_none (sent?_of_closed ht hc)
    rw [← hnone, ← ih (closed_of_step ht hc) hs (es ++ [e]), List.append_assoc]
    rfl

/-- The runner is in its drain only when the sender is gone and everything it sent
has been seen. -/
def DrainClosed (r : LBRunner ρ κ) : Prop :=
  ∀ rule, r.task = .running .drain rule →
    r.configRx.closed = true ∧ r.configRx.seen = r.configRx.version

theorem drainClosed_of_step {r r' : LBRunner ρ κ} {e : RunnerEvent ρ κ}
    (hs : r.step e = some r') (ih : DrainClosed r) : DrainClosed r' := by
  intro rule ht
  cases Step.of_step hs with
  | changedClosed h₁ hv hc => exact ⟨hc, hv⟩
  | sendReplace v hc => exact absurd (ih rule ht).1 (by simp [hc])
  | dropSender hc => exact ⟨rfl, (ih rule ht).2⟩
  | arrive x h₁ => exact ih rule ht
  | _ => exact absurd ht (by simp)

theorem drainClosed_of_run (h : run step (spawn addr config) es = some r) : DrainClosed r :=
  run_invariant (I := DrainClosed) (fun _ ht => absurd ht (by simp [spawn]))
    (fun _ _ _ ih hs => drainClosed_of_step hs ih) h

/-- A connection drained after the drop gets the last rule that was ever sent. -/
theorem getLast?_sentRules_of_drain {fs : List (RunnerEvent ρ κ)} {s : LBRunner ρ κ} {rule : ρ}
    (h : run step (spawn addr config) es = some r) (ht : r.task = .running .drain rule)
    (hf : run step r fs = some s) : (sentRules config (es ++ fs)).getLast? = some rule := by
  obtain ⟨hc, hv⟩ := drainClosed_of_run h rule ht
  have hcopy := copy_of_run h _ rule ht (by simp)
  rw [sentRules_of_closed hc hf, List.getLast?_eq_getElem?, (channel_of_run h).1,
    Nat.add_sub_cancel, ← hv, hcopy]

/-! ## Every connection -/

/-- A step that hands over a connection is taken at one of the two accepting
points, and gives the connection the runner's copy of the rule. -/
theorem point_of_handOver {s t : LBRunner ρ κ} {e : RunnerEvent ρ κ} {c : κ} {rule : ρ}
    (hs : s.step e = some t) (hh : t.handed = s.handed ++ [(c, rule)]) :
    (e = .pollAccept ∧ s.task = .running .accept rule) ∨
      (e = .pollDrain ∧ s.task = .running .drain rule) := by
  cases Step.of_step hs with
  | drainConn h₁ =>
    obtain ⟨-, rfl⟩ : _ ∧ _ = rule := by simpa using hh
    exact Or.inr ⟨rfl, h₁⟩
  | acceptConn h₁ =>
    obtain ⟨-, rfl⟩ : _ ∧ _ = rule := by simpa using hh
    exact Or.inl ⟨rfl, h₁⟩
  | _ => exact absurd hh (by simp)

/-- The version marked as seen only grows. -/
theorem seen_le_of_step {s t : LBRunner ρ κ} {e : RunnerEvent ρ κ} (hs : s.step e = some t) :
    s.configRx.seen ≤ t.configRx.seen := by
  cases Step.of_step hs with
  | start | changedOk | borrowAndUpdate => exact s.configRx.seen_le
  | _ => exact Nat.le_refl _

/-- The versions of the rules the connections were handled with, in the order of
the connections: each is the one the poll before its accept found, none is older
than the one before it, and none is newer than what the runner has seen. -/
theorem exists_versions_of_run (h : run step (spawn addr config) es = some r) :
    ∃ versions : List ℕ, versions.length = r.handed.length ∧ versions.Pairwise (· ≤ ·) ∧
      (∀ n ∈ versions, n ≤ r.configRx.seen) ∧
      ∀ pre e post s t c rule, es = pre ++ e :: post →
        run step (spawn addr config) pre = some s → s.step e = some t →
        t.handed = s.handed ++ [(c, rule)] →
        ∃ n, versions[s.handed.length]? = some n ∧ LastPoll addr config pre n rule := by
  refine run_induction (motive := fun es r => ∃ versions : List ℕ,
    versions.length = r.handed.length ∧ versions.Pairwise (· ≤ ·) ∧
      (∀ n ∈ versions, n ≤ r.configRx.seen) ∧
      ∀ pre e post s t c rule, es = pre ++ e :: post →
        run step (spawn addr config) pre = some s → s.step e = some t →
        t.handed = s.handed ++ [(c, rule)] →
        ∃ n, versions[s.handed.length]? = some n ∧ LastPoll addr config pre n rule)
    ⟨[], rfl, List.Pairwise.nil, by simp, by simp⟩ ?_ h
  rintro es e r r' hrun ⟨versions, hlen, hsorted, hle, hpolls⟩ hs
  have hseen := seen_le_of_step hs
  rcases handed_of_step hs with hh | ⟨c, rule, hh⟩
  · -- nothing was handed over: the hand-overs are those of the shorter run
    refine ⟨versions, by rw [hh, hlen], hsorted, fun n hn => Nat.le_trans (hle n hn) hseen, ?_⟩
    intro pre e' post s t c rule heq hp ht hc
    rcases eq_append_cons_snoc heq with ⟨rfl, rfl⟩ | ⟨post', heq'⟩
    · obtain rfl := Option.some.inj (hrun.symm.trans hp)
      obtain rfl := Option.some.inj (hs.symm.trans ht)
      exact absurd (hh.symm.trans hc) (by simp)
    · exact hpolls pre e' post' s t c rule heq' hp ht hc
  · -- one connection was: its version is the one marked as seen
    refine ⟨versions ++ [r.configRx.seen], by simp [hh, hlen], ?_, ?_, ?_⟩
    · rw [List.pairwise_append]
      refine ⟨hsorted, List.pairwise_singleton _ _, ?_⟩
      intro n hn m hm
      rw [List.mem_singleton.mp hm]
      exact hle n hn
    · intro n hn
      rcases List.mem_append.mp hn with hn | hn
      · exact Nat.le_trans (hle n hn) hseen
      · rw [List.mem_singleton.mp hn]
        exact hseen
    · intro pre e' post s t c' rule' heq hp ht hc
      rcases eq_append_cons_snoc heq with ⟨rfl, rfl⟩ | ⟨post', heq'⟩
      · obtain rfl := Option.some.inj (hrun.symm.trans hp)
        refine ⟨r.configRx.seen, by rw [← hlen]; simp, ?_⟩
        rcases point_of_handOver ht hc with ⟨-, hpt⟩ | ⟨-, hpt⟩
        · exact lastPoll_of_run hrun _ _ hpt (Or.inl rfl)
        · exact lastPoll_of_run hrun _ _ hpt (Or.inr rfl)
      · obtain ⟨n, hn, hlast⟩ := hpolls pre e' post' s t c' rule' heq' hp ht hc
        obtain ⟨hlt, -⟩ := List.getElem?_eq_some_iff.mp hn
        exact ⟨n, by rw [List.getElem?_append_left hlt, hn], hlast⟩

/-- **Every connection is handled with the newest rule.**  In any interleaving of the
event loop's sends and its drop of the sender with the operations of the runner, a
connection is handed over with the rule that was in the channel when `changed()` was
last polled before the accept.  The versions used by successive connections never go
back, and what is drained after the drop gets the last rule sent before it. -/
theorem handed_newest_rule (addr : SocketAddr) (config : ρ) (es : List (RunnerEvent ρ κ))
    (r : LBRunner ρ κ) (h : run step (spawn addr config) es = some r) :
    ∃ versions : List ℕ, versions.length = r.handed.length ∧ versions.Pairwise (· ≤ ·) ∧
      ∀ pre e post s t c rule, es = pre ++ e :: post →
        run step (spawn addr config) pre = some s → s.step e = some t →
        t.handed = s.handed ++ [(c, rule)] →
        (∃ n, versions[s.handed.length]? = some n ∧ LastPoll addr config pre n rule) ∧
          (e = .pollDrain → s.configRx.closed = true ∧
            (sentRules config es).getLast? = some rule) := by
  obtain ⟨versions, hlen, hsorted, -, hpolls⟩ := exists_versions_of_run h
  refine ⟨versions, hlen, hsorted, ?_⟩
  intro pre e post s t c rule heq hp ht hc
  refine ⟨hpolls pre e post s t c rule heq hp ht hc, ?_⟩
  rintro rfl
  rcases point_of_handOver ht hc with ⟨hne, -⟩ | ⟨-, hpt⟩
  · exact absurd hne (by simp)
  · rw [heq, run_append_eq_some] at h
    obtain ⟨s', hs', hrest⟩ := h
    obtain rfl := Option.some.inj (hp.symm.trans hs')
    exact ⟨(drainClosed_of_run hp rule hpt).1, heq ▸ getLast?_sentRules_of_drain hp hpt hrest⟩

/-- A run that skips a version and drains: rule `11` arrives after the poll behind the
first accept and is overwritten before the next one; `13` is sent just before the drop. -/
def skippingRun : List (RunnerEvent ℕ ℕ) :=
  [.start, .arrive (.conn 0), .pollChanged, .sendReplace 11, .pollAccept,
    .sendReplace 12, .arrive (.conn 1), .pollChanged, .borrowAndUpdate, .pollChanged, .pollAccept,
    .arrive (.conn 2), .sendReplace 13, .dropSender, .pollChanged, .borrowAndUpdate,
    .pollChanged, .pollDrain, .pollChanged, .pollDrain]

theorem handed_newest_rule_skippingRun :
    ∃ r, run step (spawn localAddrV4 10) skippingRun = some r ∧
      r.handed = [(0, 10), (1, 12), (2, 13)] ∧
      ∃ versions : List ℕ, versions.length = 3 ∧ versions.Pairwise (· ≤ ·) := by
  refine ⟨_, rfl, rfl, ?_⟩
  obtain ⟨versions, hlen, hsorted, -⟩ := handed_newest_rule localAddrV4 10 skippingRun _ rfl
  exact ⟨versions, hlen, hsorted⟩

end LBRunner
end Turbine
