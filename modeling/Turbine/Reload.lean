import Turbine.EventLoop

/-!
# Reloading: what holds after any sequence of updates

An event loop starts with no listeners and handles updates one after the other, while
its runners run, accept connections and fail.  The two results of this file pull in
opposite directions.

`reload_converges` is about what the loop controls.  After an update the map has
exactly its addresses, each with one open channel that holds the update's rule; an
address that is never left out keeps its runner, and a runner whose address is left
out once has lost its sender for good.  None of this looks at the tasks, and none of
it is disturbed by their failures.

`allServed_iff` is about what a client sees: that every configured address has a
*living* runner with the new rule.  The loop decides whether to spawn by looking for
the address in its map, and a dead runner is still in the map.  So the update serves
all its addresses exactly when no runner that the map still holds for one of them has
died before; and otherwise the rule is sent into a channel that nobody reads.
-/

namespace Turbine
namespace EventLoop

open Runs

variable {ρ κ : Type}

/-! ## What one event can do -/

/-- Between updates the map stays as it is, no runner appears, and a runner keeps its
address, its rule and its sender. -/
structure Untouched (w w' : EventLoop ρ κ) : Prop where
  listeners : w'.listeners = w.listeners
  length : w'.runners.length = w.runners.length
  runner : ∀ {i : ℕ} {r : LBRunner ρ κ}, w.runners[i]? = some r → ∃ r', w'.runners[i]? = some r' ∧
    r'.listenAddr = r.listenAddr ∧ r'.configRx.closed = r.configRx.closed ∧
    r'.configRx.value = r.configRx.value

theorem untouched_refl (w : EventLoop ρ κ) : w.Untouched w :=
  ⟨rfl, rfl, fun h => ⟨_, h, rfl, rfl, rfl⟩⟩

theorem Untouched.trans {w w' w'' : EventLoop ρ κ} (h : w.Untouched w')
    (h' : w'.Untouched w'') : w.Untouched w'' := by
  refine ⟨h'.listeners.trans h.listeners, h'.length.trans h.length, ?_⟩
  intro i r hr
  obtain ⟨r', hr', ha, hc, hv⟩ := h.runner hr
  obtain ⟨r'', hr'', ha', hc', hv'⟩ := h'.runner hr'
  exact ⟨r'', hr'', ha'.trans ha, hc'.trans hc, hv'.trans hv⟩

/-- Replacing one runner by itself after a step leaves the event loop untouched. -/
theorem untouched_set {w : EventLoop ρ κ} {i : ℕ} {r r' : LBRunner ρ κ}
    (hr : w.runners[i]? = some r) (ha : r'.listenAddr = r.listenAddr)
    (hc : r'.configRx.closed = r.configRx.closed)
    (hv : r'.configRx.value = r.configRx.value) :
    w.Untouched { w with runners := w.runners.set i r' } := by
  refine ⟨rfl, by simp, ?_⟩
  intro j s hs
  by_cases hij : i = j
  · subst hij
    obtain rfl := Option.some.inj (hr.symm.trans hs)
    have hlt := (List.getElem?_eq_some_iff.mp hr).1
    exact ⟨r', by simp [hlt], ha, hc, hv⟩
  · exact ⟨s, by simp [hij, hs], rfl, rfl, rfl⟩

/-- **An event is an update, or it leaves the event loop's own state alone.** -/
theorem step_cases {w w' : EventLoop ρ κ} {e : LoopEvent ρ κ} (h : w.step e = some w') :
    (∃ u, e = .update u ∧ w' = w.applyUpdate u) ∨
      ((∀ u, e ≠ .update u) ∧ w.Untouched w') := by
  cases e with
  | update u => exact Or.inl ⟨u, rfl, (Option.some.inj h).symm⟩
  | runner i e =>
    right
    refine ⟨fun u => by simp, ?_⟩
    simp only [step] at h
    split at h
    · exact absurd h (by simp)
    · rename_i he
      obtain ⟨r, hr, hmap⟩ := Option.bind_eq_some_iff.mp h
      obtain ⟨r', hr', rfl⟩ := Option.map_eq_some_iff.mp hmap
      obtain ⟨ha, hc, hv⟩ := LBRunner.sender_of_step hr' (by simpa using he)
      exact untouched_set hr ha hc hv
  | fail i =>
    right
    refine ⟨fun u => by simp, ?_⟩
    simp only [step] at h
    obtain ⟨r, hr, hif⟩ := Option.bind_eq_some_iff.mp h
    split at hif
    · exact absurd hif (by simp)
    · obtain rfl := Option.some.inj hif
      exact untouched_set hr rfl rfl rfl

theorem Untouched.agrees {w w' : EventLoop ρ κ} (hw : w.Agrees) (h : w.Untouched w') :
    w'.Agrees := by
  constructor
  · intro a i ha
    rw [h.listeners] at ha
    obtain ⟨r, hr, hra, hopen⟩ := hw.open_of_lookup ha
    obtain ⟨r', hr', ha', hc', -⟩ := h.runner hr
    exact ⟨r', hr', ha'.trans hra, hc'.trans hopen⟩
  · intro i r' hr' hopen
    have hlt : i < w.runners.length := h.length ▸ (List.getElem?_eq_some_iff.mp hr').1
    obtain ⟨r'', hr'', ha, hc, -⟩ := h.runner (List.getElem?_eq_getElem hlt)
    obtain rfl := Option.some.inj (hr'.symm.trans hr'')
    rw [h.listeners, ha]
    exact hw.lookup_of_open (List.getElem?_eq_getElem hlt) (hc.symm.trans hopen)

theorem agrees_of_step {w w' : EventLoop ρ κ} {e : LoopEvent ρ κ} (hw : w.Agrees)
    (h : w.step e = some w') : w'.Agrees := by
  rcases step_cases h with ⟨u, -, rfl⟩ | ⟨-, hunt⟩
  · exact (applyUpdate_spec hw u).agrees hw
  · exact hunt.agrees hw

/-- **The map of senders and the channels agree in every state.** -/
theorem agrees_of_run {ls : List (LoopEvent ρ κ)} {w : EventLoop ρ κ}
    (h : run step new ls = some w) : w.Agrees :=
  run_invariant (I := Agrees) agrees_new (fun _ _ _ hw hs => agrees_of_step hw hs) h

/-! ## Along a run -/

theorem untouched_of_run {w w' : EventLoop ρ κ} {ls : List (LoopEvent ρ κ)}
    (hls : ∀ u, .update u ∉ ls) (h : run step w ls = some w') : w.Untouched w' := by
  induction ls generalizing w with
  | nil =>
    obtain rfl := Option.some.inj h
    exact untouched_refl w
  | cons e ls ih =>
    obtain ⟨t, ht, hrest⟩ := run_cons_eq_some.mp h
    rcases step_cases ht with ⟨u, rfl, -⟩ | ⟨-, hunt⟩
    · exact absurd List.mem_cons_self (hls u)
    · exact hunt.trans (ih (fun u hu => hls u (List.mem_cons_of_mem _ hu)) hrest)

/-- A runner keeps its address, and never gets a lost sender back. -/
theorem runner_of_step {w w' : EventLoop ρ κ} {e : LoopEvent ρ κ} (hw : w.Agrees)
    (h : w.step e = some w') {i : ℕ} {r : LBRunner ρ κ} (hr : w.runners[i]? = some r) :
    ∃ r', w'.runners[i]? = some r' ∧ r'.listenAddr = r.listenAddr ∧
      (r.configRx.closed = true → r'.configRx.closed = true) := by
  rcases step_cases h with ⟨u, -, rfl⟩ | ⟨-, hunt⟩
  · refine ⟨_, (applyUpdate_spec hw u).old hr, ?_, ?_⟩
    · rw [touched]
      split
      · split <;> rfl
      · rfl
    · intro hc
      rw [touched]
      split
      · split
        · exact hc
        · rfl
      · exact hc
  · obtain ⟨r', hr', ha, hc, -⟩ := hunt.runner hr
    exact ⟨r', hr', ha, fun hclosed => hc.trans hclosed⟩

theorem runner_of_run {w w' : EventLoop ρ κ} {ls : List (LoopEvent ρ κ)} (hw : w.Agrees)
    (h : run step w ls = some w') {i : ℕ} {r : LBRunner ρ κ} (hr : w.runners[i]? = some r) :
    ∃ r', w'.runners[i]? = some r' ∧ r'.listenAddr = r.listenAddr ∧
      (r.configRx.closed = true → r'.configRx.closed = true) := by
  induction ls generalizing w r with
  | nil =>
    obtain rfl := Option.some.inj h
    exact ⟨r, hr, rfl, id⟩
  | cons e ls ih =>
    obtain ⟨t, ht, hrest⟩ := run_cons_eq_some.mp h
    obtain ⟨r₁, hr₁, ha₁, hc₁⟩ := runner_of_step hw ht hr
    obtain ⟨r₂, hr₂, ha₂, hc₂⟩ := ih (agrees_of_step hw ht) hrest hr₁
    exact ⟨r₂, hr₂, ha₂.trans ha₁, fun hc => hc₂ (hc₁ hc)⟩

/-- One event keeps the runner of an address that it does not leave out, and spawns no
other for it. -/
theorem lookup_of_step {w w' : EventLoop ρ κ} {e : LoopEvent ρ κ} (hw : w.Agrees)
    (h : w.step e = some w') {a : SocketAddr} {i : ℕ} (hl : w.listeners.lookup a = some i)
    (hu : ∀ u, e = .update u → a ∈ u) :
    w'.listeners.lookup a = some i ∧
      ∀ j r, w.runners.length ≤ j → w'.runners[j]? = some r → r.listenAddr ≠ a := by
  rcases step_cases h with ⟨u, rfl, rfl⟩ | ⟨-, hunt⟩
  · have hspec := applyUpdate_spec hw u
    obtain ⟨v, hv⟩ := Option.isSome_iff_exists.mp (AList.lookup_isSome.mpr (hu u rfl))
    refine ⟨hspec.kept hv hl, ?_⟩
    intro j r hj hr hra
    obtain ⟨v', -, hnone, -⟩ := hspec.new hj hr
    rw [hra, hl] at hnone
    exact absurd hnone (by simp)
  · refine ⟨by rw [hunt.listeners, hl], ?_⟩
    intro j r hj hr
    have hlt := (List.getElem?_eq_some_iff.mp hr).1
    rw [hunt.length] at hlt
    omega

/-- **An address that is never left out is never restarted.** -/
theorem lookup_of_run {w w' : EventLoop ρ κ} {ls : List (LoopEvent ρ κ)} (hw : w.Agrees)
    (h : run step w ls = some w') {a : SocketAddr} {i : ℕ} (hl : w.listeners.lookup a = some i)
    (hu : ∀ u, .update u ∈ ls → a ∈ u) :
    w'.listeners.lookup a = some i ∧
      ∀ j r, w.runners.length ≤ j → w'.runners[j]? = some r → r.listenAddr ≠ a := by
  induction ls generalizing w with
  | nil =>
    obtain rfl := Option.some.inj h
    refine ⟨hl, fun j r hj hr => ?_⟩
    exact absurd (List.getElem?_eq_some_iff.mp hr).1 (by omega)
  | cons e ls ih =>
    obtain ⟨t, ht, hrest⟩ := run_cons_eq_some.mp h
    obtain ⟨hlt, hnew⟩ := lookup_of_step hw ht hl fun u he => hu u (he ▸ List.mem_cons_self)
    have ht' := agrees_of_step hw ht
    obtain ⟨hl', hnew'⟩ := ih ht' hrest hlt fun u hm => hu u (List.mem_cons_of_mem _ hm)
    refine ⟨hl', fun j r hj hr => ?_⟩
    rcases Nat.lt_or_ge j t.runners.length with hjt | hjt
    · have hget := List.getElem?_eq_getElem hjt
      obtain ⟨r', hr', ha', -⟩ := runner_of_run ht' hrest hget
      obtain rfl := Option.some.inj (hr.symm.trans hr')
      rw [ha']
      exact hnew j _ hj hget
    · exact hnew' j r hjt hr

/-- An update drops the sender of every runner whose address it leaves out. -/
theorem closed_of_update {w : EventLoop ρ κ} (hw : w.Agrees) {u : HashMap SocketAddr ρ} {i : ℕ}
    {r : LBRunner ρ κ} (hr : w.runners[i]? = some r) (hu : r.listenAddr ∉ u) :
    ∃ r', (w.applyUpdate u).runners[i]? = some r' ∧ r'.configRx.closed = true := by
  refine ⟨_, (applyUpdate_spec hw u).old hr, ?_⟩
  by_cases hl : w.listeners.lookup r.listenAddr = some i
  · rw [touched_of_none hl (AList.lookup_eq_none.mpr hu)]
    rfl
  · rw [touched_of_ne hl]
    cases hc : r.configRx.closed with
    | true => rfl
    | false => exact absurd (hw.lookup_of_open hr hc) hl

/-- **A runner whose address is left out once has lost its sender for good.** -/
theorem closed_of_run {w w' : EventLoop ρ κ} {ls : List (LoopEvent ρ κ)} (hw : w.Agrees)
    (h : run step w ls = some w') {i : ℕ} {r : LBRunner ρ κ} (hr : w.runners[i]? = some r)
    {u : HashMap SocketAddr ρ} (hu : .update u ∈ ls) (hra : r.listenAddr ∉ u) :
    ∃ r', w'.runners[i]? = some r' ∧ r'.configRx.closed = true := by
  obtain ⟨ls₁, ls₂, rfl⟩ := List.append_of_mem hu
  obtain ⟨s, hs, hrest⟩ := run_append_eq_some.mp h
  obtain ⟨t, ht, hlast⟩ := run_cons_eq_some.mp hrest
  have hsw : s.Agrees :=
    run_invariant (I := Agrees) hw (fun _ _ _ hw hs => agrees_of_step hw hs) hs
  obtain ⟨r₁, hr₁, ha₁, -⟩ := runner_of_run hw hs hr
  obtain rfl : s.applyUpdate u = t := Option.some.inj ht
  obtain ⟨r₂, hr₂, hc₂⟩ := closed_of_update hsw hr₁ (ha₁ ▸ hra)
  obtain ⟨r₃, hr₃, -, hc₃⟩ := runner_of_run (agrees_of_step hsw ht) hlast hr₂
  exact ⟨r₃, hr₃, hc₃ hc₂⟩

/-! ## The state after an update -/

theorem mem_listeners_applyUpdate {w : EventLoop ρ κ} (hw : w.Agrees) (u : HashMap SocketAddr ρ)
    (a : SocketAddr) : a ∈ (w.applyUpdate u).listeners ↔ a ∈ u := by
  have hspec := applyUpdate_spec hw u
  cases hu : u.lookup a with
  | none =>
    have hgone := AList.lookup_eq_none.mp (hspec.gone hu)
    exact ⟨fun h => absurd h hgone, fun h => absurd h (AList.lookup_eq_none.mp hu)⟩
  | some v =>
    refine ⟨fun _ => AList.lookup_isSome.mp (by simp [hu]), fun _ => ?_⟩
    apply AList.lookup_isSome.mp
    cases hl : w.listeners.lookup a with
    | none =>
      obtain ⟨i, -, hi, -⟩ := hspec.fresh hu hl
      simp [hi]
    | some i => simp [hspec.kept hu hl]

/-- The runner that an update leaves in the map for one of its addresses holds the
update's rule; it is as alive as the one the map had for the address before, and freshly
spawned if there was none. -/
theorem holder_of_update {w : EventLoop ρ κ} (hw : w.Agrees) {u : HashMap SocketAddr ρ}
    {a : SocketAddr} {v : ρ} (hu : u.lookup a = some v) :
    ∃ i r, (w.applyUpdate u).listeners.lookup a = some i ∧
      (w.applyUpdate u).runners[i]? = some r ∧ r.listenAddr = a ∧
      r.configRx.closed = false ∧ r.configRx.value = v ∧
      ((w.listeners.lookup a = none ∧ r.exited = false) ∨
        (w.listeners.lookup a = some i ∧
          ∃ r₀, w.runners[i]? = some r₀ ∧ r.exited = r₀.exited)) := by
  have hspec := applyUpdate_spec hw u
  cases hl : w.listeners.lookup a with
  | none =>
    obtain ⟨i, -, hi, hr⟩ := hspec.fresh hu hl
    exact ⟨i, _, hi, hr, rfl, rfl, rfl, Or.inl ⟨rfl, rfl⟩⟩
  | some i =>
    obtain ⟨r, hr, rfl, hopen⟩ := hw.open_of_lookup hl
    have hr' := hspec.old hr
    rw [touched_of_some hl hu] at hr'
    exact ⟨i, _, hspec.kept hu hl, hr', rfl, hopen, rfl, Or.inr ⟨rfl, r, hr, rfl⟩⟩

/-- **Reload converges to the last configuration.**  For every run in which `u` is the
last update, whatever the runners did before, in between and after: the map has exactly
the addresses of `u`; each has one runner with an open channel, which holds the rule of
`u`; an address that was in the map at some earlier point of the run, and in every update
since, still has the runner it had, and no other was spawned for it; and a runner whose
address some later update lacks has lost its sender. -/
theorem reload_converges (pre post : List (LoopEvent ρ κ)) (u : HashMap SocketAddr ρ)
    (w : EventLoop ρ κ) (h : run step new (pre ++ .update u :: post) = some w)
    (hlast : ∀ u', .update u' ∉ post) :
    (∀ a, a ∈ w.listeners ↔ a ∈ u) ∧
    (∀ a v, u.lookup a = some v →
      ∃ i r, w.listeners.lookup a = some i ∧ w.runners[i]? = some r ∧ r.listenAddr = a ∧
        r.configRx.closed = false ∧ r.configRx.value = v ∧
        ∀ j r', w.runners[j]? = some r' → r'.listenAddr = a → r'.configRx.closed = false →
          j = i) ∧
    (∀ (ls₁ ls₂ : List (LoopEvent ρ κ)) (s : EventLoop ρ κ) (a : SocketAddr) (i : ℕ),
      pre ++ .update u :: post = ls₁ ++ ls₂ → run step new ls₁ = some s →
      s.listeners.lookup a = some i → (∀ u', .update u' ∈ ls₂ → a ∈ u') →
      w.listeners.lookup a = some i ∧
        ∀ j r, s.runners.length ≤ j → w.runners[j]? = some r → r.listenAddr ≠ a) ∧
    (∀ (ls₁ ls₂ : List (LoopEvent ρ κ)) (s : EventLoop ρ κ) (i : ℕ) (r : LBRunner ρ κ)
      (u' : HashMap SocketAddr ρ),
      pre ++ .update u :: post = ls₁ ++ ls₂ → run step new ls₁ = some s →
      s.runners[i]? = some r → .update u' ∈ ls₂ → r.listenAddr ∉ u' →
      ∃ r', w.runners[i]? = some r' ∧ r'.configRx.closed = true) := by
  obtain ⟨s, hs, hrest⟩ := run_append_eq_some.mp h
  obtain ⟨t, ht, hpost⟩ := run_cons_eq_some.mp hrest
  obtain rfl : s.applyUpdate u = t := Option.some.inj ht
  have hsa := agrees_of_run hs
  have hwa := agrees_of_run h
  have hunt := untouched_of_run hlast hpost
  have hcut : ∀ {ls₁ ls₂ s'}, pre ++ .update u :: post = ls₁ ++ ls₂ →
      run step new ls₁ = some s' → run step s' ls₂ = some w := by
    intro ls₁ ls₂ s' heq hs'
    rw [heq, run_append, hs'] at h
    exact h
  refine ⟨?_, ?_, ?_, ?_⟩
  · intro a
    rw [hunt.listeners]
    exact mem_listeners_applyUpdate hsa u a
  · intro a v hu
    obtain ⟨i, r, hl, hr, ha, hc, hv, -⟩ := holder_of_update hsa hu
    obtain ⟨r', hr', ha', hc', hv'⟩ := hunt.runner hr
    have hl' : w.listeners.lookup a = some i := by rw [hunt.listeners, hl]
    refine ⟨i, r', hl', hr', ha'.trans ha, hc'.trans hc, hv'.trans hv, ?_⟩
    intro j q hq hqa hopen
    have hj := hwa.lookup_of_open hq hopen
    rw [hqa, hl'] at hj
    exact (Option.some.inj hj).symm
  · intro ls₁ ls₂ s' a i heq hs' hl hin
    exact lookup_of_run (agrees_of_run hs') (hcut heq hs') hl hin
  · intro ls₁ ls₂ s' i r u' heq hs' hr hmem hra
    exact closed_of_run (agrees_of_run hs') (hcut heq hs') hr hmem hra

/-- Two addresses, one of which leaves and comes back. -/
def web : SocketAddr := .v4 0x7f000001 80

def tls : SocketAddr := .v4 0x7f000001 443

/-- `web` stays throughout, `tls` is left out by the second update and gets a second
runner from the third. -/
def leavingRun : List (LoopEvent ℕ ℕ) :=
  [.update ((∅ : HashMap SocketAddr ℕ).insert tls 1 |>.insert web 1),
    .runner 0 .start, .runner 1 .start,
    .update ((∅ : HashMap SocketAddr ℕ).insert web 2), .fail 0]

theorem reload_converges_leavingRun :
    ∃ w, run step new (leavingRun ++
        .update ((∅ : HashMap SocketAddr ℕ).insert tls 3 |>.insert web 3) :: []) = some w ∧
      w.listeners.lookup web = some 0 ∧ w.listeners.lookup tls = some 2 ∧
      ∃ r, w.runners[1]? = some r ∧ r.configRx.closed = true := by
  refine ⟨_, rfl, rfl, rfl, ?_⟩
  obtain ⟨-, -, -, hgone⟩ := reload_converges leavingRun [] _ _ rfl (by simp)
  exact hgone (leavingRun.take 3) _ _ 1 _ ((∅ : HashMap SocketAddr ℕ).insert web 2) rfl rfl rfl
    (by simp) (by decide)

/-! ## Dead runners -/

/-- A living runner for `a` holds the rule `v`: its task has not ended, its sender has not
been dropped, and what it reads from its channel is `v`. -/
def Serves (w : EventLoop ρ κ) (a : SocketAddr) (v : ρ) : Prop :=
  ∃ (i : ℕ) (r : LBRunner ρ κ), w.runners[i]? = some r ∧ r.listenAddr = a ∧ r.exited = false ∧
    r.configRx.closed = false ∧ r.configRx.value = v

/-- Every address of the update is served, with the rule of the update. -/
def AllServed (w : EventLoop ρ κ) (u : HashMap SocketAddr ρ) : Prop :=
  ∀ a v, u.lookup a = some v → w.Serves a v

/-- No runner that the map holds for an address of the update has died. -/
def NoDeadKept (w : EventLoop ρ κ) (u : HashMap SocketAddr ρ) : Prop :=
  ∀ a i r, a ∈ u → w.listeners.lookup a = some i → w.runners[i]? = some r → r.exited = false

/-- **An update serves all its addresses exactly when it meets no dead runner.**  This
holds at every update of every run. -/
theorem allServed_iff (ls : List (LoopEvent ρ κ)) (s w : EventLoop ρ κ)
    (hs : run step new ls = some s) (u : HashMap SocketAddr ρ)
    (hw : s.step (.update u) = some w) : w.AllServed u ↔ s.NoDeadKept u := by
  have hsa := agrees_of_run hs
  have hwa := agrees_of_step hsa hw
  obtain rfl : s.applyUpdate u = w := Option.some.inj hw
  constructor
  · intro hall a i r hau hl hr
    obtain ⟨v, hv⟩ := Option.isSome_iff_exists.mp (AList.lookup_isSome.mpr hau)
    obtain ⟨j, r', hr', hra', hlive, hopen, -⟩ := hall a v hv
    -- the living runner has an open channel, so it is the one the map holds
    have hj := hwa.lookup_of_open hr' hopen
    rw [hra', (applyUpdate_spec hsa u).kept hv hl] at hj
    obtain rfl := Option.some.inj hj
    obtain ⟨q, hq, hqa, -⟩ := hsa.open_of_lookup hl
    obtain rfl := Option.some.inj (hr.symm.trans hq)
    have hold := (applyUpdate_spec hsa u).old hr
    rw [touched_of_some (hqa ▸ hl) (hqa ▸ hv)] at hold
    obtain rfl := Option.some.inj (hr'.symm.trans hold)
    exact hlive
  · intro hdead a v hv
    obtain ⟨i, r, -, hr, ha, hc, hval, hcase⟩ := holder_of_update hsa hv
    refine ⟨i, r, hr, ha, ?_, hc, hval⟩
    rcases hcase with ⟨-, hlive⟩ | ⟨hl, r₀, hr₀, heq⟩
    · exact hlive
    · rw [heq]
      exact hdead a i r₀ (AList.lookup_isSome.mp (by simp [hv])) hl hr₀

/-- One healthy runner. -/
def healthyRun : List (LoopEvent ℕ ℕ) :=
  [.update ((∅ : HashMap SocketAddr ℕ).insert web 1), .runner 0 .start]

theorem allServed_iff_healthyRun :
    ∃ s w, run step new healthyRun = some s ∧
      s.step (.update ((∅ : HashMap SocketAddr ℕ).insert web 2)) = some w ∧
      w.AllServed ((∅ : HashMap SocketAddr ℕ).insert web 2) := by
  refine ⟨_, _, rfl, rfl, (allServed_iff healthyRun _ _ rfl _ rfl).mpr ?_⟩
  intro a i r _ _ hr
  match i, hr with
  | 0, hr =>
    obtain rfl := Option.some.inj hr
    rfl

/-- **A listener that could not be bound is not retried.**  The runner of `web` dies when
it starts; the next update, which configures `web` again, sends its rule to the dead
runner and spawns nothing. -/
theorem not_allServed_after_failed_start :
    ∃ w, run step new [.update ((∅ : HashMap SocketAddr ℕ).insert web 1),
        .runner 0 .startFail,
        .update ((∅ : HashMap SocketAddr ℕ).insert web 2)] = some (w : EventLoop ℕ ℕ) ∧
      ¬ w.AllServed ((∅ : HashMap SocketAddr ℕ).insert web 2) := by
  refine ⟨_, rfl, fun hall => ?_⟩
  obtain ⟨i, r, hr, -, hlive, -⟩ := hall web 2 rfl
  match i, hr with
  | 0, hr =>
    obtain rfl := Option.some.inj hr
    exact absurd hlive (by decide)

end EventLoop
end Turbine
