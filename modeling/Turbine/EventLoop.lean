import Turbine.Lib.HashMap
import Turbine.Listener.Runner

/-!
# The event loop: `LBAppContext::listen_config_change`

The loop owns one map, `listeners`, from the configured addresses to the senders of
the watch channels of their runners.  An update is handled in two passes: `retain`
throws out the addresses that are no longer configured, which drops their senders,
and a `for` loop over the update then sends the new rule to every address that is
still in the map and spawns a runner for every address that is not.

Three views of the listeners have to agree --- the map, the channels, and the tasks
that are really alive --- and the loop only looks at the first.  A runner is named
here by its index among all runners ever spawned, and a sender by the runner at the
other end; the tasks run on their own between two updates, and may end with an error
at any time (`LoopEvent.fail`), which the map does not notice.

`Agrees` is the invariant of the first two views: the map holds exactly the open
channels.  `applyUpdate_spec` says what an update does to all three, in terms of the
update as a map, so that nothing after it depends on the order in which the update
was iterated.
-/

namespace Turbine

namespace LBRunner

variable {ρ κ : Type}

/-- The event loop sends a rule to the runner. -/
def sendReplace (r : LBRunner ρ κ) (config : ρ) : LBRunner ρ κ :=
  { r with configRx := r.configRx.sendReplace config }

/-- The event loop drops the runner's sender. -/
def dropSender (r : LBRunner ρ κ) : LBRunner ρ κ :=
  { r with configRx := r.configRx.dropSender }

@[simp] theorem sendReplace_listenAddr (r : LBRunner ρ κ) (v : ρ) :
    (r.sendReplace v).listenAddr = r.listenAddr := rfl

@[simp] theorem sendReplace_closed (r : LBRunner ρ κ) (v : ρ) :
    (r.sendReplace v).configRx.closed = r.configRx.closed := rfl

@[simp] theorem sendReplace_value (r : LBRunner ρ κ) (v : ρ) :
    (r.sendReplace v).configRx.value = v := rfl

@[simp] theorem dropSender_closed (r : LBRunner ρ κ) :
    r.dropSender.configRx.closed = true := rfl

@[simp] theorem spawn_listenAddr (addr : SocketAddr) (v : ρ) :
    (spawn addr v : LBRunner ρ κ).listenAddr = addr := rfl

/-- The event is one of the event loop's own, on the runner's channel. -/
def onChannel : RunnerEvent ρ κ → Bool
  | .sendReplace _ => true
  | .dropSender => true
  | _ => false

/-- The runner itself, and its clients, leave the sender's side of the channel alone. -/
theorem sender_of_step {r r' : LBRunner ρ κ} {e : RunnerEvent ρ κ} (hs : r.step e = some r')
    (he : onChannel e = false) :
    r'.listenAddr = r.listenAddr ∧ r'.configRx.closed = r.configRx.closed ∧
      r'.configRx.value = r.configRx.value := by
  cases Step.of_step hs with
  | sendReplace v hc => exact absurd he (by simp [onChannel])
  | dropSender hc => exact absurd he (by simp [onChannel])
  | _ => exact ⟨rfl, rfl, rfl⟩

end LBRunner

/-- The state of the event loop and of the runners it has spawned, oldest first. -/
structure EventLoop (ρ κ : Type) where
  /-- The senders the loop holds, each by the index of its runner. -/
  listeners : HashMap SocketAddr ℕ
  /-- Every runner ever spawned. -/
  runners : List (LBRunner ρ κ)

/-- What happens to an event loop and its runners. -/
inductive LoopEvent (ρ κ : Type) where
  /-- `config_changes_rx.recv()` gives an update -/
  | update (u : HashMap SocketAddr ρ)
  /-- runner `i` takes a step, or something reaches its accept queue -/
  | runner (i : ℕ) (e : RunnerEvent ρ κ)
  /-- runner `i` ends with an error -/
  | fail (i : ℕ)

namespace EventLoop

variable {ρ κ : Type}

/-- `let mut listeners = HashMap::new()`. -/
def new : EventLoop ρ κ := ⟨∅, []⟩

/-- `listeners.retain(|k, _| listeners_update.contains_key(k))`: the entries thrown out
take their senders with them. -/
def retain (w : EventLoop ρ κ) (u : HashMap SocketAddr ρ) : EventLoop ρ κ :=
  let dropped := (w.listeners.entries.filter fun e => !decide (e.1 ∈ u)).map Sigma.snd
  { listeners := HashMap.retain (fun a => decide (a ∈ u)) w.listeners
    runners := w.runners.mapIdx fun i r => if i ∈ dropped then r.dropSender else r }

/-- One round of the `for` loop over the update. -/
def serve (w : EventLoop ρ κ) (listenAddr : SocketAddr) (config : ρ) : EventLoop ρ κ :=
  match w.listeners.lookup listenAddr with
  | none =>
      { listeners := w.listeners.insert listenAddr w.runners.length
        runners := w.runners ++ [LBRunner.spawn listenAddr config] }
  | some i =>
      { w with runners := w.runners.modify i fun r => r.sendReplace config }

/-- The body of the loop: one update, from `retain` to the end of the `for`. -/
def applyUpdate (w : EventLoop ρ κ) (u : HashMap SocketAddr ρ) : EventLoop ρ κ :=
  u.entries.foldl (fun w e => w.serve e.1 e.2) (w.retain u)

/-- One event. -/
def step (w : EventLoop ρ κ) : LoopEvent ρ κ → Option (EventLoop ρ κ)
  | .update u => some (w.applyUpdate u)
  | .runner i e =>
      if LBRunner.onChannel e then none
      else (w.runners[i]?).bind fun r =>
        (r.step e).map fun r' => { w with runners := w.runners.set i r' }
  | .fail i =>
      (w.runners[i]?).bind fun r =>
        if r.exited then none
        else some { w with runners := w.runners.set i { r with task := .exited false } }

/-! ## The map and the channels -/

/-- The map of senders and the channels agree: an entry of the map is the sender of an
open channel of a runner for that address, and every open channel is in the map. -/
structure Agrees (w : EventLoop ρ κ) : Prop where
  open_of_lookup : ∀ {a i}, w.listeners.lookup a = some i →
    ∃ r, w.runners[i]? = some r ∧ r.listenAddr = a ∧ r.configRx.closed = false
  lookup_of_open : ∀ {i r}, w.runners[i]? = some r → r.configRx.closed = false →
    w.listeners.lookup r.listenAddr = some i

theorem agrees_new : (new : EventLoop ρ κ).Agrees :=
  ⟨fun h => absurd h (by simp [new]), fun h => absurd h (by simp [new])⟩

/-! ## The first pass -/

theorem lookup_retain (w : EventLoop ρ κ) (u : HashMap SocketAddr ρ) (a : SocketAddr) :
    (w.retain u).listeners.lookup a = if a ∈ u then w.listeners.lookup a else none := by
  have h := HashMap.lookup_retain (fun a => decide (a ∈ u)) a w.listeners
  simp only [decide_eq_true_eq] at h
  exact h

/-- A runner loses its sender in the first pass exactly when the map holds the sender
for an address that the update does not have. -/
theorem getElem?_retain {w : EventLoop ρ κ} (hw : w.Agrees) (u : HashMap SocketAddr ρ) {i : ℕ}
    {r : LBRunner ρ κ} (hr : w.runners[i]? = some r) :
    (w.retain u).runners[i]? =
      some (if w.listeners.lookup r.listenAddr = some i ∧ r.listenAddr ∉ u then r.dropSender
        else r) := by
  have hmem : i ∈ (w.listeners.entries.filter fun e => !decide (e.1 ∈ u)).map Sigma.snd ↔
      w.listeners.lookup r.listenAddr = some i ∧ r.listenAddr ∉ u := by
    rw [List.mem_map]
    constructor
    · rintro ⟨⟨a, j⟩, hmem, rfl⟩
      rw [List.mem_filter] at hmem
      have hl : w.listeners.lookup a = some j := HashMap.mem_entries_iff.mp hmem.1
      obtain ⟨r', hr', ha, -⟩ := hw.open_of_lookup hl
      obtain rfl : r = r' := Option.some.inj (hr.symm.trans hr')
      rw [ha]
      exact ⟨hl, by simpa using hmem.2⟩
    · rintro ⟨hl, hu⟩
      refine ⟨⟨r.listenAddr, i⟩, List.mem_filter.mpr ⟨HashMap.mem_entries_iff.mpr hl, ?_⟩, rfl⟩
      simpa using hu
  simp only [retain, List.getElem?_mapIdx, hr, Option.map_some, hmem]

/-! ## The second pass -/

/-- A runner that held the sender of its address before the second pass has been sent
the rule that the entries `l` have for it; any other runner is as it was. -/
def sentTo (w : EventLoop ρ κ) (l : List (Σ _ : SocketAddr, ρ)) (i : ℕ) (r : LBRunner ρ κ) :
    LBRunner ρ κ :=
  if w.listeners.lookup r.listenAddr = some i then
    match l.dlookup r.listenAddr with
    | some v => r.sendReplace v
    | none => r
  else r

theorem sentTo_of_dlookup_none {w : EventLoop ρ κ} {l : List (Σ _ : SocketAddr, ρ)} {i : ℕ}
    {r : LBRunner ρ κ} (h : l.dlookup r.listenAddr = none) : w.sentTo l i r = r := by
  rw [sentTo, h]
  split <;> rfl

/-- What the entries `l` of an update, with distinct addresses, do to an event loop: the
runners it had are sent their rules, every address of `l` that was not in the map gets
a new runner, and nothing else changes. -/
structure Served (w : EventLoop ρ κ) (l : List (Σ _ : SocketAddr, ρ)) (w' : EventLoop ρ κ) :
    Prop where
  old : ∀ {i r}, w.runners[i]? = some r → w'.runners[i]? = some (w.sentTo l i r)
  kept : ∀ {a i}, w.listeners.lookup a = some i → w'.listeners.lookup a = some i
  absent : ∀ {a}, l.dlookup a = none → w'.listeners.lookup a = w.listeners.lookup a
  fresh : ∀ {a v}, l.dlookup a = some v → w.listeners.lookup a = none →
    ∃ i, w.runners.length ≤ i ∧ w'.listeners.lookup a = some i ∧
      w'.runners[i]? = some (LBRunner.spawn a v)
  new : ∀ {i r}, w.runners.length ≤ i → w'.runners[i]? = some r →
    ∃ v, l.dlookup r.listenAddr = some v ∧ w.listeners.lookup r.listenAddr = none ∧
      r = LBRunner.spawn r.listenAddr v ∧ w'.listeners.lookup r.listenAddr = some i

theorem served_nil (w : EventLoop ρ κ) : w.Served [] w where
  old := fun h => by rw [h, sentTo_of_dlookup_none rfl]
  kept := id
  absent := fun _ => rfl
  fresh := fun h => absurd h (by simp)
  new := fun hi h => absurd (List.getElem?_eq_some_iff.mp h).1 (by omega)

/-- The entries of the map point to runners for their addresses. -/
def Pointed (w : EventLoop ρ κ) : Prop :=
  ∀ {a i}, w.listeners.lookup a = some i → ∃ r, w.runners[i]? = some r ∧ r.listenAddr = a

theorem pointed_serve {w : EventLoop ρ κ} (hw : w.Pointed) (a : SocketAddr) (v : ρ) :
    (w.serve a v).Pointed := by
  intro b i hb
  cases hl : w.listeners.lookup a with
  | none =>
    simp only [serve, hl] at hb ⊢
    by_cases hab : b = a
    · subst hab
      rw [AList.lookup_insert] at hb
      obtain rfl := Option.some.inj hb
      exact ⟨LBRunner.spawn b v, by simp, rfl⟩
    · rw [AList.lookup_insert_ne hab] at hb
      obtain ⟨r, hr, hra⟩ := hw hb
      have hlt := (List.getElem?_eq_some_iff.mp hr).1
      exact ⟨r, by rw [List.getElem?_append_left hlt, hr], hra⟩
  | some j =>
    simp only [serve, hl] at hb ⊢
    obtain ⟨r, hr, hra⟩ := hw hb
    by_cases hij : j = i
    · subst hij
      exact ⟨r.sendReplace v, by simp [hr], hra⟩
    · exact ⟨r, by simp [hij, hr], hra⟩

/-- The second pass, first entry: the address is in the map. -/
theorem Served.cons_some {w w' : EventLoop ρ κ} {a : SocketAddr} {v : ρ} {j : ℕ}
    {l : List (Σ _ : SocketAddr, ρ)} (hw : w.Pointed) (hl : w.listeners.lookup a = some j)
    (ha : l.dlookup a = none) (h : (w.serve a v).Served l w') :
    w.Served (⟨a, v⟩ :: l) w' := by
  obtain ⟨rj, hrj, hrja⟩ := hw hl
  have hserve : w.serve a v =
      { w with runners := w.runners.modify j fun r => r.sendReplace v } := by
    simp only [serve, hl]
  rw [hserve] at h
  have hne : ∀ {b}, w.listeners.lookup b ≠ some j → b ≠ a := by
    rintro b hb rfl
    exact hb hl
  constructor
  · intro i r hr
    by_cases hij : j = i
    · subst hij
      obtain rfl := Option.some.inj (hr.symm.trans hrj)
      have hold := h.old (i := j) (r := r.sendReplace v) (by simp [hr])
      rw [sentTo_of_dlookup_none (by rw [LBRunner.sendReplace_listenAddr, hrja, ha])] at hold
      rw [hold, sentTo, hrja, if_pos hl, List.dlookup_cons_eq]
    · have hold := h.old (i := i) (r := r) (by simp [hij, hr])
      rw [hold]
      by_cases hli : w.listeners.lookup r.listenAddr = some i
      · have hra : r.listenAddr ≠ a := by
          rintro hra
          rw [hra, hl] at hli
          exact hij (Option.some.inj hli)
        rw [sentTo, sentTo, List.dlookup_cons_ne l _ hra]
      · rw [sentTo, sentTo, if_neg hli, if_neg hli]
  · exact fun hb => h.kept hb
  · intro b hb
    exact h.absent (HashMap.dlookup_cons_eq_none hb).2
  · intro b v' hb hnone
    have hba : b ≠ a := hne (by simp [hnone])
    rw [List.dlookup_cons_ne l _ hba] at hb
    obtain ⟨i, hi, hli, hri⟩ := h.fresh hb hnone
    exact ⟨i, by simpa using hi, hli, hri⟩
  · intro i r hi hr
    obtain ⟨v', hv', hnone, hspawn, hli⟩ := h.new (i := i) (by simpa using hi) hr
    have hra : r.listenAddr ≠ a := hne (by rw [hnone]; simp)
    exact ⟨v', by rw [List.dlookup_cons_ne l _ hra, hv'], hnone, hspawn, hli⟩

/-- The second pass, first entry: the address is not in the map. -/
theorem Served.cons_none {w w' : EventLoop ρ κ} {a : SocketAddr} {v : ρ}
    {l : List (Σ _ : SocketAddr, ρ)} (hl : w.listeners.lookup a = none)
    (ha : l.dlookup a = none) (h : (w.serve a v).Served l w') :
    w.Served (⟨a, v⟩ :: l) w' := by
  have hserve : w.serve a v =
      { listeners := w.listeners.insert a w.runners.length
        runners := w.runners ++ [LBRunner.spawn a v] } := by
    simp only [serve, hl]
  rw [hserve] at h
  have hlast : w'.runners[w.runners.length]? = some (LBRunner.spawn a v) := by
    have hold := h.old (i := w.runners.length) (r := LBRunner.spawn a v) (by simp)
    rwa [sentTo_of_dlookup_none (by rw [LBRunner.spawn_listenAddr, ha])] at hold
  have hlook : w'.listeners.lookup a = some w.runners.length := h.kept (by simp)
  constructor
  · intro i r hr
    have hlt := (List.getElem?_eq_some_iff.mp hr).1
    have hold := h.old (i := i) (r := r) (by rw [List.getElem?_append_left hlt, hr])
    rw [hold, sentTo, sentTo]
    by_cases hra : r.listenAddr = a
    · rw [hra, AList.lookup_insert, hl, if_neg (by simp; omega), if_neg (by simp)]
    · rw [AList.lookup_insert_ne hra, List.dlookup_cons_ne l _ hra]
  · intro b i hb
    have hba : b ≠ a := by
      rintro rfl
      exact absurd (hl.symm.trans hb) (by simp)
    exact h.kept (by rw [AList.lookup_insert_ne hba, hb])
  · intro b hb
    obtain ⟨hba, hb'⟩ := HashMap.dlookup_cons_eq_none hb
    rw [h.absent hb', AList.lookup_insert_ne hba]
  · intro b v' hb hnone
    by_cases hba : b = a
    · subst hba
      rw [List.dlookup_cons_eq] at hb
      obtain rfl := Option.some.inj hb
      exact ⟨w.runners.length, Nat.le_refl _, hlook, hlast⟩
    · rw [List.dlookup_cons_ne l _ hba] at hb
      obtain ⟨i, hi, hli, hri⟩ := h.fresh hb (by rw [AList.lookup_insert_ne hba, hnone])
      exact ⟨i, by simp at hi; omega, hli, hri⟩
  · intro i r hi hr
    rcases Nat.eq_or_lt_of_le hi with rfl | hlt
    · obtain rfl := Option.some.inj (hr.symm.trans hlast)
      exact ⟨v, by simp, hl, rfl, hlook⟩
    · obtain ⟨v', hv', hnone, hspawn, hli⟩ := h.new (i := i) (by simp; omega) hr
      have hra : r.listenAddr ≠ a := by
        intro hra
        rw [hra, AList.lookup_insert] at hnone
        exact absurd hnone (by simp)
      rw [AList.lookup_insert_ne hra] at hnone
      exact ⟨v', by rw [List.dlookup_cons_ne l _ hra, hv'], hnone, hspawn, hli⟩

/-- The second pass as a whole. -/
theorem served_foldl {w : EventLoop ρ κ} (hw : w.Pointed) (l : List (Σ _ : SocketAddr, ρ))
    (hl : l.NodupKeys) : w.Served l (l.foldl (fun w e => w.serve e.1 e.2) w) := by
  induction l generalizing w with
  | nil => exact served_nil w
  | cons e l ih =>
    obtain ⟨a, v⟩ := e
    obtain ⟨ha, hl'⟩ := List.nodupKeys_cons.mp hl
    have hnone : l.dlookup a = none := List.dlookup_eq_none.mpr ha
    have hrest := ih (pointed_serve hw a v) hl'
    cases hlook : w.listeners.lookup a with
    | none => exact Served.cons_none hlook hnone hrest
    | some j => exact Served.cons_some hw hlook hnone hrest

/-! ## One update -/

/-- What an update does to a runner it finds: the holder of its address's sender is sent
the new rule, or loses the sender; any other runner is as it was. -/
def touched (w : EventLoop ρ κ) (u : HashMap SocketAddr ρ) (i : ℕ) (r : LBRunner ρ κ) :
    LBRunner ρ κ :=
  if w.listeners.lookup r.listenAddr = some i then
    match u.lookup r.listenAddr with
    | some v => r.sendReplace v
    | none => r.dropSender
  else r

theorem touched_of_some {w : EventLoop ρ κ} {u : HashMap SocketAddr ρ} {i : ℕ}
    {r : LBRunner ρ κ} {v : ρ} (hl : w.listeners.lookup r.listenAddr = some i)
    (hu : u.lookup r.listenAddr = some v) : w.touched u i r = r.sendReplace v := by
  rw [touched, if_pos hl, hu]

theorem touched_of_none {w : EventLoop ρ κ} {u : HashMap SocketAddr ρ} {i : ℕ}
    {r : LBRunner ρ κ} (hl : w.listeners.lookup r.listenAddr = some i)
    (hu : u.lookup r.listenAddr = none) : w.touched u i r = r.dropSender := by
  rw [touched, if_pos hl, hu]

theorem touched_of_ne {w : EventLoop ρ κ} {u : HashMap SocketAddr ρ} {i : ℕ}
    {r : LBRunner ρ κ} (hl : w.listeners.lookup r.listenAddr ≠ some i) :
    w.touched u i r = r := if_neg hl

/-- What an update as a whole does to an event loop. -/
structure Updated (w : EventLoop ρ κ) (u : HashMap SocketAddr ρ) (w' : EventLoop ρ κ) :
    Prop where
  old : ∀ {i r}, w.runners[i]? = some r → w'.runners[i]? = some (w.touched u i r)
  gone : ∀ {a}, u.lookup a = none → w'.listeners.lookup a = none
  kept : ∀ {a v i}, u.lookup a = some v → w.listeners.lookup a = some i →
    w'.listeners.lookup a = some i
  fresh : ∀ {a v}, u.lookup a = some v → w.listeners.lookup a = none →
    ∃ i, w.runners.length ≤ i ∧ w'.listeners.lookup a = some i ∧
      w'.runners[i]? = some (LBRunner.spawn a v)
  new : ∀ {i r}, w.runners.length ≤ i → w'.runners[i]? = some r →
    ∃ v, u.lookup r.listenAddr = some v ∧ w.listeners.lookup r.listenAddr = none ∧
      r = LBRunner.spawn r.listenAddr v ∧ w'.listeners.lookup r.listenAddr = some i

theorem length_retain (w : EventLoop ρ κ) (u : HashMap SocketAddr ρ) :
    (w.retain u).runners.length = w.runners.length := by
  simp [retain]

theorem pointed_retain {w : EventLoop ρ κ} (hw : w.Agrees) (u : HashMap SocketAddr ρ) :
    (w.retain u).Pointed := by
  intro a i ha
  rw [lookup_retain] at ha
  split at ha
  · rename_i hau
    obtain ⟨r, hr, rfl, -⟩ := hw.open_of_lookup ha
    refine ⟨r, ?_, rfl⟩
    rw [getElem?_retain hw u hr, if_neg (fun hand => hand.2 hau)]
  · exact absurd ha (by simp)

/-- The two passes, on a runner that was there before. -/
theorem sentTo_retain {w : EventLoop ρ κ} (hw : w.Agrees) (u : HashMap SocketAddr ρ) {i : ℕ}
    {r : LBRunner ρ κ} (hr : w.runners[i]? = some r) {w' : EventLoop ρ κ}
    (h : (w.retain u).Served u.entries w') : w'.runners[i]? = some (w.touched u i r) := by
  have hold := h.old (getElem?_retain hw u hr)
  rw [hold]
  by_cases hl : w.listeners.lookup r.listenAddr = some i
  · cases hu : u.lookup r.listenAddr with
    | none =>
      have hau : r.listenAddr ∉ u := AList.lookup_eq_none.mp hu
      have hdl : u.entries.dlookup r.dropSender.listenAddr = none := hu
      rw [touched_of_none hl hu, if_pos ⟨hl, hau⟩, sentTo_of_dlookup_none hdl]
    | some v =>
      have hau : r.listenAddr ∈ u := AList.lookup_isSome.mp (by simp [hu])
      have hdl : u.entries.dlookup r.listenAddr = some v := hu
      rw [touched_of_some hl hu, if_neg (fun hand => hand.2 hau), sentTo, lookup_retain,
        if_pos hau, if_pos hl, hdl]
  · have hl' : (w.retain u).listeners.lookup r.listenAddr ≠ some i := by
      rw [lookup_retain]
      split
      · exact hl
      · simp
    rw [touched_of_ne hl, if_neg (fun hand => hl hand.1), sentTo, if_neg hl']

/-- **One update, in terms of the update as a map.**  The order in which it was iterated
no longer appears. -/
theorem applyUpdate_spec {w : EventLoop ρ κ} (hw : w.Agrees) (u : HashMap SocketAddr ρ) :
    w.Updated u (w.applyUpdate u) := by
  have h : (w.retain u).Served u.entries (w.applyUpdate u) :=
    served_foldl (pointed_retain hw u) u.entries u.nodupKeys
  constructor
  · intro i r hr
    exact sentTo_retain hw u hr h
  · intro a ha
    have hau : a ∉ u := AList.lookup_eq_none.mp ha
    have hnone : u.entries.dlookup a = none := ha
    rw [h.absent hnone, lookup_retain, if_neg hau]
  · intro a v i ha hl
    have hau : a ∈ u := AList.lookup_isSome.mp (by simp [ha])
    exact h.kept (by rw [lookup_retain, if_pos hau, hl])
  · intro a v ha hl
    have hau : a ∈ u := AList.lookup_isSome.mp (by simp [ha])
    obtain ⟨i, hi, hli, hri⟩ := h.fresh (show u.entries.dlookup a = some v from ha)
      (by rw [lookup_retain, if_pos hau, hl])
    rw [length_retain] at hi
    exact ⟨i, hi, hli, hri⟩
  · intro i r hi hr
    obtain ⟨v, hv, hl, hspawn, hli⟩ := h.new (by rw [length_retain]; exact hi) hr
    have hv' : u.lookup r.listenAddr = some v := hv
    have hau : r.listenAddr ∈ u := AList.lookup_isSome.mp (by simp [hv'])
    rw [lookup_retain, if_pos hau] at hl
    exact ⟨v, hv', hl, hspawn, hli⟩

/-- An update leaves the map and the channels in agreement. -/
theorem Updated.agrees {w w' : EventLoop ρ κ} {u : HashMap SocketAddr ρ} (hw : w.Agrees)
    (h : w.Updated u w') : w'.Agrees := by
  constructor
  · intro a i ha
    cases hu : u.lookup a with
    | none => exact absurd (ha.symm.trans (h.gone hu)) (by simp)
    | some v =>
      cases hl : w.listeners.lookup a with
      | none =>
        obtain ⟨j, -, hj, hr⟩ := h.fresh hu hl
        obtain rfl := Option.some.inj (ha.symm.trans hj)
        exact ⟨_, hr, rfl, rfl⟩
      | some j =>
        obtain rfl := Option.some.inj (ha.symm.trans (h.kept hu hl))
        obtain ⟨r, hr, rfl, hopen⟩ := hw.open_of_lookup hl
        exact ⟨_, h.old hr, by rw [touched_of_some hl hu]; rfl,
          by rw [touched_of_some hl hu]; exact hopen⟩
  · intro i r' hr' hopen
    rcases Nat.lt_or_ge i w.runners.length with hlt | hge
    · have hr : w.runners[i]? = some w.runners[i] := List.getElem?_eq_getElem hlt
      generalize w.runners[i] = r at hr
      obtain rfl := Option.some.inj (hr'.symm.trans (h.old hr))
      by_cases hl : w.listeners.lookup r.listenAddr = some i
      · cases hu : u.lookup r.listenAddr with
        | none =>
          rw [touched_of_none hl hu] at hopen
          exact absurd hopen (by simp)
        | some v =>
          rw [touched_of_some hl hu]
          exact h.kept hu hl
      · rw [touched_of_ne hl] at hopen
        exact absurd (hw.lookup_of_open hr hopen) hl
    · obtain ⟨v, -, -, -, hl⟩ := h.new hge hr'
      exact hl

theorem Updated.length_le {w w' : EventLoop ρ κ} {u : HashMap SocketAddr ρ}
    (h : w.Updated u w') : w.runners.length ≤ w'.runners.length := by
  rcases Nat.eq_zero_or_pos w.runners.length with h0 | hpos
  · omega
  · have hr : w.runners[w.runners.length - 1]? = some w.runners[w.runners.length - 1] :=
      List.getElem?_eq_getElem (by omega)
    have hlt := (List.getElem?_eq_some_iff.mp (h.old hr)).1
    omega

end EventLoop
end Turbine
