import Turbine.Lib.Runs

/-!
# Watching the configuration file: `ConfigWatcher`

`main` parses the configuration file, sends the result to the event loop, and then
`ConfigWatcher::new` puts a `PollWatcher` on the file.  A poll watcher remembers the
content it has last seen, its *baseline*; when a scan finds something else it moves the
baseline and calls `handle_event`, which does three things one after the other.

1. `parse_config` reads the file; if that fails the handler gives up.
2. A new `PollWatcher` is made, and `watch` takes the file's content *at that moment*
   as its baseline.
3. Under the lock, the configuration is sent and the new watcher takes the place of the
   installed one.

The file can be written between any two of these, and two calls can overlap: a watcher
scans from the moment it exists, before it is installed and until its thread notices that
it has been dropped.  A watcher calls its handler on its own thread, so the calls of one
watcher do not overlap.

`parse` stands for `parse_config` as a function of the file's content; nothing is
assumed of it.  Each watcher is kept with the configuration its maker had parsed and with
the number of that read, counted from the start of the program; both are only there to
say when a change is lost, and no step looks at them.

`lastSent_of_quiescent` gives three conditions, one for each of the three steps, under
which no change is ever lost.  `changes_lost` shows a short run against each of them.
-/

namespace Turbine

open Runs

/-- The kinds of `notify::Event`. -/
inductive EventKind where
  | any
  | access
  | create
  | modify
  | remove
  | other
  deriving DecidableEq

/-- The events `handle_event` goes on with; `none` is an error of `notify`. -/
def reloadsOn : Option EventKind → Bool
  | some .create => true
  | some .modify => true
  | _ => false

/-- A `notify::PollWatcher` on the configuration file. -/
structure PollWatcher (γ χ : Type) where
  /-- The content it has last seen. -/
  baseline : γ
  /-- What its maker had parsed. -/
  config : χ
  /-- The number of the read its maker parsed. -/
  readAt : ℕ

/-- How far a call of `handle_event` has come. -/
inductive ReloadPhase (χ : Type) where
  /-- called, nothing read yet -/
  | called
  /-- step 1 is done: the configuration, and the number of the read -/
  | parsed (config : χ) (readAt : ℕ)
  /-- step 2 is done: the configuration, and the new watcher -/
  | watching (config : χ) (w : ℕ)
  /-- step 3 is done, the call has returned -/
  | sent
  /-- `parse_config` failed, the call has returned -/
  | failed

namespace ReloadPhase

variable {χ : Type}

/-- The call has not returned. -/
def running : ReloadPhase χ → Bool
  | called => true
  | parsed _ _ => true
  | watching _ _ => true
  | sent => false
  | failed => false

end ReloadPhase

/-- A call of `handle_event`. -/
structure Reload (γ χ : Type) where
  /-- The watcher that made the call. -/
  watcher : ℕ
  /-- The content its scan had found. -/
  found : γ
  phase : ReloadPhase χ

/-- Where `main` stands: `parse_config`, `config_tx.send`, and in `ConfigWatcher::new`
the `watch` and the assignment to the installed watcher. -/
inductive StartUp (χ : Type) where
  | parse
  | send (config : χ) (readAt : ℕ)
  | watch (config : χ) (readAt : ℕ)
  | install (w : ℕ)
  | up
  /-- the first `parse_config` failed, and `main` returned the error -/
  | failed

/-- The file, `main`, every watcher made and every call of `handle_event`. -/
structure ConfigWatcher (γ χ : Type) where
  file : γ
  main : StartUp χ
  watchers : List (PollWatcher γ χ)
  reloads : List (Reload γ χ)
  /-- The last configuration put into `config_tx`. -/
  lastSent : Option χ
  /-- The watcher in `ConfigWatcherInner`; `none` is the first one, which watches nothing. -/
  installed : Option ℕ
  /-- How often `parse_config` has read the file. -/
  reads : ℕ

/-- What happens: the file is written, `main` goes on, a watcher calls its handler, or a
call of `handle_event` takes its next step. -/
inductive WatchEvent (γ : Type) where
  | write (content : γ)
  | mainParse
  | mainSend
  | newWatch
  | newInstall
  | notify (w : ℕ) (e : Option EventKind)
  | read (k : ℕ)
  | watch (k : ℕ)
  | publish (k : ℕ)

namespace ConfigWatcher

variable {γ χ : Type}

/-- The program before `main` has read the file. -/
def start (file : γ) : ConfigWatcher γ χ := ⟨file, .parse, [], [], none, none, 0⟩

/-- Watcher `w` is inside a call of its handler. -/
def busy (s : ConfigWatcher γ χ) (w : ℕ) : Bool :=
  s.reloads.any fun h => h.watcher == w && h.phase.running

/-- Call `k` of `handle_event` has come to `phase`. -/
def setPhase (s : ConfigWatcher γ χ) (k : ℕ) (h : Reload γ χ) (phase : ReloadPhase χ) :
    List (Reload γ χ) :=
  s.reloads.set k { h with phase := phase }

section Steps

variable [DecidableEq γ] (parse : γ → Option χ)

/-- One step. -/
def step (s : ConfigWatcher γ χ) : WatchEvent γ → Option (ConfigWatcher γ χ)
  | .write content => some { s with file := content }
  | .mainParse =>
      match s.main with
      | .parse =>
          match parse s.file with
          | none => some { s with main := .failed, reads := s.reads + 1 }
          | some c => some { s with main := .send c s.reads, reads := s.reads + 1 }
      | _ => none
  | .mainSend =>
      match s.main with
      | .send c r => some { s with lastSent := some c, main := .watch c r }
      | _ => none
  | .newWatch =>
      match s.main with
      | .watch c r =>
          some { s with
            watchers := s.watchers ++ [⟨s.file, c, r⟩]
            main := .install s.watchers.length }
      | _ => none
  | .newInstall =>
      match s.main with
      | .install w => some { s with installed := some w, main := .up }
      | _ => none
  | .notify w e =>
      (s.watchers[w]?).bind fun p =>
        if reloadsOn e then
          if p.baseline = s.file ∨ s.busy w = true then none
          else some { s with
            watchers := s.watchers.set w { p with baseline := s.file }
            reloads := s.reloads ++ [⟨w, s.file, .called⟩] }
        -- `handle_event` returns at once
        else some s
  | .read k =>
      (s.reloads[k]?).bind fun h =>
        match h.phase with
        | .called =>
            match parse s.file with
            | none => some { s with reloads := s.setPhase k h .failed, reads := s.reads + 1 }
            | some c =>
                some { s with reloads := s.setPhase k h (.parsed c s.reads), reads := s.reads + 1 }
        | _ => none
  | .watch k =>
      (s.reloads[k]?).bind fun h =>
        match h.phase with
        | .parsed c r =>
            some { s with
              watchers := s.watchers ++ [⟨s.file, c, r⟩]
              reloads := s.setPhase k h (.watching c s.watchers.length) }
        | _ => none
  | .publish k =>
      (s.reloads[k]?).bind fun h =>
        match h.phase with
        | .watching c w =>
            some { s with
              lastSent := some c
              installed := some w
              reloads := s.setPhase k h .sent }
        | _ => none

/-- The steps as a relation, with what each of them needs. -/
inductive Step (s : ConfigWatcher γ χ) : WatchEvent γ → ConfigWatcher γ χ → Prop
  | write {content} : Step s (.write content) { s with file := content }
  | parseFail (hm : s.main = .parse) (hp : parse s.file = none) :
      Step s .mainParse { s with main := .failed, reads := s.reads + 1 }
  | parseOk {c} (hm : s.main = .parse) (hp : parse s.file = some c) :
      Step s .mainParse { s with main := .send c s.reads, reads := s.reads + 1 }
  | send {c r} (hm : s.main = .send c r) :
      Step s .mainSend { s with lastSent := some c, main := .watch c r }
  | newWatch {c r} (hm : s.main = .watch c r) :
      Step s .newWatch
        { s with
          watchers := s.watchers ++ [⟨s.file, c, r⟩]
          main := .install s.watchers.length }
  | newInstall {w} (hm : s.main = .install w) :
      Step s .newInstall { s with installed := some w, main := .up }
  | ignore {w e} (he : reloadsOn e = false) : Step s (.notify w e) s
  | fire {w e p} (hw : s.watchers[w]? = some p) (he : reloadsOn e = true)
      (hne : p.baseline ≠ s.file) (hbusy : s.busy w = false) :
      Step s (.notify w e)
        { s with
          watchers := s.watchers.set w { p with baseline := s.file }
          reloads := s.reloads ++ [⟨w, s.file, .called⟩] }
  | readFail {k h} (hk : s.reloads[k]? = some h) (hph : h.phase = .called)
      (hp : parse s.file = none) :
      Step s (.read k) { s with reloads := s.setPhase k h .failed, reads := s.reads + 1 }
  | readOk {k h c} (hk : s.reloads[k]? = some h) (hph : h.phase = .called)
      (hp : parse s.file = some c) :
      Step s (.read k)
        { s with reloads := s.setPhase k h (.parsed c s.reads), reads := s.reads + 1 }
  | watch {k h c r} (hk : s.reloads[k]? = some h) (hph : h.phase = .parsed c r) :
      Step s (.watch k)
        { s with
          watchers := s.watchers ++ [⟨s.file, c, r⟩]
          reloads := s.setPhase k h (.watching c s.watchers.length) }
  | publish {k h c w} (hk : s.reloads[k]? = some h) (hph : h.phase = .watching c w) :
      Step s (.publish k)
        { s with
          lastSent := some c
          installed := some w
          reloads := s.setPhase k h .sent }

variable {parse}

theorem Step.of_step {s t : ConfigWatcher γ χ} {e : WatchEvent γ}
    (h : s.step parse e = some t) : Step parse s e t := by
  cases e with
  | write content =>
    obtain rfl := Option.some.inj h
    exact .write
  | mainParse =>
    simp only [step] at h
    split at h
    · rename_i hm
      split at h
      · rename_i hp
        obtain rfl := Option.some.inj h
        exact .parseFail hm hp
      · rename_i c hp
        obtain rfl := Option.some.inj h
        exact .parseOk hm hp
    · exact absurd h (by simp)
  | mainSend =>
    simp only [step] at h
    split at h
    · rename_i c r hm
      obtain rfl := Option.some.inj h
      exact .send hm
    · exact absurd h (by simp)
  | newWatch =>
    simp only [step] at h
    split at h
    · rename_i c r hm
      obtain rfl := Option.some.inj h
      exact .newWatch hm
    · exact absurd h (by simp)
  | newInstall =>
    simp only [step] at h
    split at h
    · rename_i w hm
      obtain rfl := Option.some.inj h
      exact .newInstall hm
    · exact absurd h (by simp)
  | notify w e =>
    obtain ⟨p, hw, hif⟩ := Option.bind_eq_some_iff.mp h
    split at hif
    · rename_i he
      split at hif
      · exact absurd hif (by simp)
      · rename_i hidle
        obtain rfl := Option.some.inj hif
        rw [not_or, Bool.not_eq_true] at hidle
        exact .fire hw he hidle.1 hidle.2
    · rename_i he
      obtain rfl := Option.some.inj hif
      exact .ignore (by simpa using he)
  | read k =>
    obtain ⟨x, hk, hx⟩ := Option.bind_eq_some_iff.mp h
    split at hx
    · rename_i hph
      split at hx
      · rename_i hp
        obtain rfl := Option.some.inj hx
        exact .readFail hk hph hp
      · rename_i c hp
        obtain rfl := Option.some.inj hx
        exact .readOk hk hph hp
    · exact absurd hx (by simp)
  | watch k =>
    obtain ⟨x, hk, hx⟩ := Option.bind_eq_some_iff.mp h
    split at hx
    · rename_i c r hph
      obtain rfl := Option.some.inj hx
      exact .watch hk hph
    · exact absurd hx (by simp)
  | publish k =>
    obtain ⟨x, hk, hx⟩ := Option.bind_eq_some_iff.mp h
    split at hx
    · rename_i c w hph
      obtain rfl := Option.some.inj hx
      exact .publish hk hph
    · exact absurd hx (by simp)

end Steps

/-! ## The three conditions -/

/-- The file still means what the maker of a watcher has parsed, or nothing at all. -/
def Means (parse : γ → Option χ) (s : ConfigWatcher γ χ) (c : χ) : Prop :=
  parse s.file = none ∨ parse s.file = some c

/-- The installed watcher goes back to an earlier read than the `r`-th. -/
def Before (s : ConfigWatcher γ χ) (r : ℕ) : Prop :=
  ∀ i p, s.installed = some i → s.watchers[i]? = some p → p.readAt < r

/-- What the steps must keep so that no change is lost.  A call that cannot parse the
file has been called for a content that cannot be parsed; when a watcher takes its
baseline, the file still means what was parsed, or cannot be parsed; and watchers are
installed in the order of the reads they go back to. -/
def Orderly (parse : γ → Option χ) (s : ConfigWatcher γ χ) : WatchEvent γ → Prop
  | .read k => ∀ h, s.reloads[k]? = some h → parse s.file = none → parse h.found = none
  | .watch k => ∀ h c r, s.reloads[k]? = some h → h.phase = .parsed c r → s.Means parse c
  | .newWatch => ∀ c r, s.main = .watch c r → s.Means parse c
  | .publish k => ∀ h c w p, s.reloads[k]? = some h → h.phase = .watching c w →
      s.watchers[w]? = some p → s.Before p.readAt
  | .newInstall => ∀ w p, s.main = .install w → s.watchers[w]? = some p → s.Before p.readAt
  | _ => True

/-! ## What a step keeps -/

/-- Watcher `w` was made with configuration `c`, from the `r`-th read. -/
def Made (s : ConfigWatcher γ χ) (w : ℕ) (c : χ) (r : ℕ) : Prop :=
  ∃ p, s.watchers[w]? = some p ∧ p.config = c ∧ p.readAt = r

theorem Made.unique {s : ConfigWatcher γ χ} {w : ℕ} {c c' : χ} {r r' : ℕ} (h : s.Made w c r)
    (h' : s.Made w c' r') : c = c' ∧ r = r' := by
  obtain ⟨p, hp, rfl, rfl⟩ := h
  obtain ⟨p', hp', rfl, rfl⟩ := h'
  obtain rfl := Option.some.inj (hp.symm.trans hp')
  exact ⟨rfl, rfl⟩

/-- Watcher `w` has called its handler for the content `c`. -/
def Called (s : ConfigWatcher γ χ) (w : ℕ) (c : γ) : Prop :=
  ∃ h ∈ s.reloads, h.watcher = w ∧ h.found = c

/-- A later state: no watcher and no call is forgotten, reads are counted, and the
installed watcher only gives way to one from a later read. -/
structure Later (s t : ConfigWatcher γ χ) : Prop where
  made : ∀ {w c r}, s.Made w c r → t.Made w c r
  called : ∀ {w c}, s.Called w c → t.Called w c
  reads : s.reads ≤ t.reads
  installed : ∀ {i c r}, s.installed = some i → s.Made i c r →
    ∃ i' c' r', t.installed = some i' ∧ t.Made i' c' r' ∧ r ≤ r'

theorem made_append {s : ConfigWatcher γ χ} {w : ℕ} {c : χ} {r : ℕ} (h : s.Made w c r)
    (p : PollWatcher γ χ) {t : ConfigWatcher γ χ} (ht : t.watchers = s.watchers ++ [p]) :
    t.Made w c r := by
  obtain ⟨q, hq, hc, hr⟩ := h
  have hlt := (List.getElem?_eq_some_iff.mp hq).1
  exact ⟨q, by rw [ht, List.getElem?_append_left hlt, hq], hc, hr⟩

theorem made_set {s t : ConfigWatcher γ χ} {w v : ℕ} {c : χ} {r : ℕ} {p : PollWatcher γ χ}
    (h : s.Made w c r) (hv : s.watchers[v]? = some p) (b : γ)
    (ht : t.watchers = s.watchers.set v { p with baseline := b }) : t.Made w c r := by
  obtain ⟨q, hq, hc, hr⟩ := h
  by_cases hvw : v = w
  · subst hvw
    obtain rfl := Option.some.inj (hv.symm.trans hq)
    have hlt := (List.getElem?_eq_some_iff.mp hv).1
    exact ⟨{ p with baseline := b }, by simp [ht, hlt], hc, hr⟩
  · exact ⟨q, by simp [ht, hvw, hq], hc, hr⟩

theorem called_setPhase {s t : ConfigWatcher γ χ} {w k : ℕ} {c : γ} {h : Reload γ χ}
    {phase : ReloadPhase χ} (hc : s.Called w c) (hk : s.reloads[k]? = some h)
    (ht : t.reloads = s.setPhase k h phase) : t.Called w c := by
  obtain ⟨x, hx, hw, hf⟩ := hc
  obtain ⟨j, hj⟩ := List.mem_iff_getElem?.mp hx
  by_cases hkj : k = j
  · subst hkj
    obtain rfl := Option.some.inj (hk.symm.trans hj)
    have hlt := (List.getElem?_eq_some_iff.mp hk).1
    refine ⟨{ h with phase := phase }, ?_, hw, hf⟩
    rw [ht, setPhase]
    exact List.mem_iff_getElem?.mpr ⟨k, by simp [hlt]⟩
  · refine ⟨x, ?_, hw, hf⟩
    rw [ht, setPhase]
    exact List.mem_iff_getElem?.mpr ⟨j, by simp [hkj, hj]⟩

theorem mem_setPhase {s : ConfigWatcher γ χ} {k : ℕ} {h x : Reload γ χ} {phase : ReloadPhase χ}
    (hx : x ∈ s.setPhase k h phase) : x ∈ s.reloads ∨ x = { h with phase := phase } :=
  List.mem_or_eq_of_mem_set hx

section Invariant

variable {parse : γ → Option χ}

/-- What is known of a call: its watcher exists, what it has read or made goes back to a
later read than its watcher, what it has sent was replaced by nothing older, and if it
has failed then so would the content it was called for. -/
def Sound (parse : γ → Option χ) (s : ConfigWatcher γ χ) (h : Reload γ χ) : Prop :=
  ∃ c r, s.Made h.watcher c r ∧
    match h.phase with
    | .called => True
    | .parsed _ r' => r < r' ∧ r' < s.reads
    | .watching c' w => ∃ r', s.Made w c' r' ∧ r < r'
    | .sent => ∃ i c' r', s.installed = some i ∧ s.Made i c' r' ∧ r < r'
    | .failed => parse h.found = none

theorem Sound.later {s t : ConfigWatcher γ χ} {h : Reload γ χ} (hs : s.Sound parse h)
    (hst : Later s t) : t.Sound parse h := by
  obtain ⟨c, r, hmade, hphase⟩ := hs
  refine ⟨c, r, hst.made hmade, ?_⟩
  cases hp : h.phase with
  | called => trivial
  | parsed c' r' =>
    rw [hp] at hphase
    exact ⟨hphase.1, Nat.lt_of_lt_of_le hphase.2 hst.reads⟩
  | watching c' w =>
    rw [hp] at hphase
    obtain ⟨r', hw, hlt⟩ := hphase
    exact ⟨r', hst.made hw, hlt⟩
  | sent =>
    rw [hp] at hphase
    obtain ⟨i, c', r', hi, hw, hlt⟩ := hphase
    obtain ⟨i', c'', r'', hi', hw', hle⟩ := hst.installed hi hw
    exact ⟨i', c'', r'', hi', hw', Nat.lt_of_lt_of_le hlt hle⟩
  | failed =>
    rw [hp] at hphase
    exact hphase

/-- What is known of watcher `w`: its baseline means what its maker has parsed, or
nothing, or else it has called its handler for it. -/
def Answered (parse : γ → Option χ) (s : ConfigWatcher γ χ) (w : ℕ) (p : PollWatcher γ χ) : Prop :=
  p.readAt < s.reads ∧
    (parse p.baseline = none ∨ parse p.baseline = some p.config ∨ s.Called w p.baseline)

theorem Answered.later {s t : ConfigWatcher γ χ} {w : ℕ} {p : PollWatcher γ χ}
    (hs : s.Answered parse w p) (hst : Later s t) : t.Answered parse w p :=
  ⟨Nat.lt_of_lt_of_le hs.1 hst.reads, hs.2.imp_right (Or.imp_right hst.called)⟩

/-- What is known of `main`: its read is the first, until it has made its watcher there
is none, and what it has sent stays the last configuration sent until a watcher is
installed. -/
def MainSound (s : ConfigWatcher γ χ) : Prop :=
  match s.main with
  | .parse => s.watchers = [] ∧ s.reads = 0
  | .send _ r => s.watchers = [] ∧ r = 0 ∧ 0 < s.reads
  | .watch c r => s.watchers = [] ∧ r = 0 ∧ 0 < s.reads ∧ s.lastSent = some c
  | .install w => ∃ c, s.Made w c 0 ∧ (s.installed = none → s.lastSent = some c)
  | .up => True
  | .failed => True

/-- The invariant of the runs that keep the three conditions. -/
structure Inv (parse : γ → Option χ) (s : ConfigWatcher γ χ) : Prop where
  main : s.MainSound
  installed : ∀ {i}, s.installed = some i → ∃ c r, s.Made i c r ∧ s.lastSent = some c
  watcher : ∀ {w p}, s.watchers[w]? = some p → s.Answered parse w p
  reload : ∀ {h}, h ∈ s.reloads → s.Sound parse h

theorem inv_start (file : γ) : (start file : ConfigWatcher γ χ).Inv parse :=
  ⟨⟨rfl, rfl⟩, fun h => absurd h (by simp [start]), fun h => absurd h (by simp [start]),
    fun h => absurd h (by simp [start])⟩

theorem Inv.made_of_watching {s : ConfigWatcher γ χ} (hI : s.Inv parse) {k : ℕ} {h : Reload γ χ}
    {c : χ} {w : ℕ} (hk : s.reloads[k]? = some h) (hph : h.phase = .watching c w) :
    ∃ r, s.Made w c r := by
  obtain ⟨_, _, _, hphase⟩ := hI.reload (List.mem_of_getElem? hk)
  rw [hph] at hphase
  obtain ⟨r, hw, -⟩ := hphase
  exact ⟨r, hw⟩

theorem Inv.made_of_install {s : ConfigWatcher γ χ} (hI : s.Inv parse) {w : ℕ}
    (hm : s.main = .install w) :
    ∃ c, s.Made w c 0 ∧ (s.installed = none → s.lastSent = some c) := by
  have hmain := hI.main
  rw [MainSound, hm] at hmain
  exact hmain

/-- Before `main` has made its watcher, no handler was called. -/
theorem Inv.watchers_ne_nil {s : ConfigWatcher γ χ} (hI : s.Inv parse) {k : ℕ} {h : Reload γ χ}
    (hk : s.reloads[k]? = some h) : s.watchers ≠ [] := by
  obtain ⟨c, r, ⟨p, hp, -⟩, -⟩ := hI.reload (List.mem_of_getElem? hk)
  rintro hnil
  rw [hnil] at hp
  exact absurd hp (by simp)

/-- Once there is a watcher, a step that is not one of `main` keeps what is known of it. -/
theorem MainSound.later {s t : ConfigWatcher γ χ} (hs : s.MainSound) (hst : Later s t)
    (hmain : t.main = s.main) (hw : s.watchers ≠ [])
    (hsent : t.installed = none → s.installed = none ∧ t.lastSent = s.lastSent) :
    t.MainSound := by
  rw [MainSound] at hs
  rw [MainSound, hmain]
  cases hm : s.main with
  | up => trivial
  | failed => trivial
  | install w =>
    rw [hm] at hs
    obtain ⟨c, hmade, hlast⟩ := hs
    refine ⟨c, hst.made hmade, fun hnone => ?_⟩
    obtain ⟨hnone', heq⟩ := hsent hnone
    exact heq.trans (hlast hnone')
  | _ =>
    rw [hm] at hs
    exact absurd hs.1 hw

end Invariant

section Lossless

variable [DecidableEq γ] {parse : γ → Option χ}

theorem later_of_step {s t : ConfigWatcher γ χ} {e : WatchEvent γ} (hI : s.Inv parse)
    (hG : s.Orderly parse e) (h : s.step parse e = some t) : Later s t := by
  cases Step.of_step h with
  | newWatch hm =>
    exact ⟨fun hw => made_append hw _ rfl, id, Nat.le_refl _,
      fun hi hw => ⟨_, _, _, hi, made_append hw _ rfl, Nat.le_refl _⟩⟩
  | fire hw he hne hbusy =>
    refine ⟨fun hv => made_set hv hw _ rfl, ?_, Nat.le_refl _,
      fun hi hv => ⟨_, _, _, hi, made_set hv hw _ rfl, Nat.le_refl _⟩⟩
    rintro w c ⟨x, hx, hxw, hxf⟩
    exact ⟨x, List.mem_append_left _ hx, hxw, hxf⟩
  | readFail hk hph hp =>
    exact ⟨id, fun hc => called_setPhase hc hk rfl, Nat.le_succ _,
      fun hi hw => ⟨_, _, _, hi, hw, Nat.le_refl _⟩⟩
  | readOk hk hph hp =>
    exact ⟨id, fun hc => called_setPhase hc hk rfl, Nat.le_succ _,
      fun hi hw => ⟨_, _, _, hi, hw, Nat.le_refl _⟩⟩
  | watch hk hph =>
    exact ⟨fun hw => made_append hw _ rfl, fun hc => called_setPhase hc hk rfl, Nat.le_refl _,
      fun hi hw => ⟨_, _, _, hi, made_append hw _ rfl, Nat.le_refl _⟩⟩
  | parseFail hm hp =>
    exact ⟨id, id, Nat.le_succ _, fun hi hw => ⟨_, _, _, hi, hw, Nat.le_refl _⟩⟩
  | parseOk hm hp =>
    exact ⟨id, id, Nat.le_succ _, fun hi hw => ⟨_, _, _, hi, hw, Nat.le_refl _⟩⟩
  | publish hk hph =>
    refine ⟨id, fun hc => called_setPhase hc hk rfl, Nat.le_refl _, ?_⟩
    rintro i c r hi ⟨q, hq, -, rfl⟩
    obtain ⟨r', p, hp, hc, hr⟩ := hI.made_of_watching hk hph
    have hlt := hG _ _ _ p hk hph hp i q hi hq
    exact ⟨_, _, _, rfl, ⟨p, hp, hc, rfl⟩, Nat.le_of_lt hlt⟩
  | newInstall hm =>
    refine ⟨id, id, Nat.le_refl _, ?_⟩
    rintro i c r hi ⟨q, hq, -, rfl⟩
    obtain ⟨c', ⟨p, hp, hc, -⟩, -⟩ := hI.made_of_install hm
    have hlt := hG _ p hm hp i q hi hq
    exact ⟨_, _, _, rfl, ⟨p, hp, hc, rfl⟩, Nat.le_of_lt hlt⟩
  | _ => exact ⟨id, id, Nat.le_refl _, fun hi hw => ⟨_, _, _, hi, hw, Nat.le_refl _⟩⟩

/-- Step 1 and step 2 of the calls, seen from the watchers. -/
theorem watcher_of_step {s t : ConfigWatcher γ χ} {e : WatchEvent γ} (hI : s.Inv parse)
    (hG : s.Orderly parse e) (h : s.step parse e = some t) {w : ℕ} {p : PollWatcher γ χ}
    (hp : t.watchers[w]? = some p) : t.Answered parse w p := by
  have hst := later_of_step hI hG h
  -- a watcher that was just made has taken the file as its baseline
  have hfresh : ∀ {c r}, s.Means parse c → r < s.reads →
      (s.watchers ++ [⟨s.file, c, r⟩])[w]? = some p → t.Answered parse w p := by
    intro c r hmeans hr hget
    rw [List.getElem?_append] at hget
    split at hget
    · exact (hI.watcher hget).later hst
    · obtain ⟨-, rfl⟩ := List.getElem?_eq_some_iff.mp hget
      simp only [List.getElem_singleton]
      exact ⟨Nat.lt_of_lt_of_le hr hst.reads, hmeans.imp_right Or.inl⟩
  cases Step.of_step h with
  | newWatch hm =>
    have hmain := hI.main
    rw [MainSound, hm] at hmain
    obtain ⟨-, rfl, hpos, -⟩ := hmain
    exact hfresh (hG _ _ hm) hpos hp
  | watch hk hph =>
    obtain ⟨_, _, _, hphase⟩ := hI.reload (List.mem_of_getElem? hk)
    rw [hph] at hphase
    exact hfresh (hG _ _ _ hk hph) hphase.2 hp
  | @fire v e q hv he hne hbusy =>
    by_cases hvw : v = w
    · subst hvw
      have hlt := (List.getElem?_eq_some_iff.mp hv).1
      obtain rfl : { q with baseline := s.file } = p := by
        simpa [hlt] using hp
      exact ⟨(hI.watcher hv).1, Or.inr (Or.inr ⟨⟨v, s.file, .called⟩, by simp, rfl, rfl⟩)⟩
    · exact (hI.watcher (by simpa [hvw] using hp)).later hst
  | _ => exact (hI.watcher hp).later hst

theorem reload_of_step {s t : ConfigWatcher γ χ} {e : WatchEvent γ} (hI : s.Inv parse)
    (hG : s.Orderly parse e) (h : s.step parse e = some t) {x : Reload γ χ}
    (hx : x ∈ t.reloads) : t.Sound parse x := by
  have hst := later_of_step hI hG h
  cases Step.of_step h with
  | @fire v e q hv he hne hbusy =>
    rcases List.mem_append.mp hx with hx | hx
    · exact (hI.reload hx).later hst
    · obtain rfl := List.mem_singleton.mp hx
      exact ⟨q.config, q.readAt, hst.made ⟨q, hv, rfl, rfl⟩, trivial⟩
  | @readFail k y hk hph hp =>
    rcases mem_setPhase hx with hx | rfl
    · exact (hI.reload hx).later hst
    · obtain ⟨c, r, hw, -⟩ := hI.reload (List.mem_of_getElem? hk)
      exact ⟨c, r, hst.made hw, hG y hk hp⟩
  | readOk hk hph hp =>
    rcases mem_setPhase hx with hx | rfl
    · exact (hI.reload hx).later hst
    · obtain ⟨c, r, hw, -⟩ := hI.reload (List.mem_of_getElem? hk)
      obtain ⟨p, hget, -, rfl⟩ := hw
      exact ⟨p.config, p.readAt, hst.made ⟨p, hget, rfl, rfl⟩, (hI.watcher hget).1,
        Nat.lt_succ_self _⟩
  | watch hk hph =>
    rcases mem_setPhase hx with hx | rfl
    · exact (hI.reload hx).later hst
    · obtain ⟨c, r, hw, hphase⟩ := hI.reload (List.mem_of_getElem? hk)
      rw [hph] at hphase
      exact ⟨c, r, hst.made hw, _, ⟨_, List.getElem?_concat_length, rfl, rfl⟩, hphase.1⟩
  | publish hk hph =>
    rcases mem_setPhase hx with hx | rfl
    · exact (hI.reload hx).later hst
    · obtain ⟨c, r, hw, hphase⟩ := hI.reload (List.mem_of_getElem? hk)
      rw [hph] at hphase
      obtain ⟨r', hw', hlt⟩ := hphase
      exact ⟨c, r, hst.made hw, _, _, r', rfl, hst.made hw', hlt⟩
  | _ => exact (hI.reload hx).later hst

theorem installed_of_step {s t : ConfigWatcher γ χ} {e : WatchEvent γ} (hI : s.Inv parse)
    (hG : s.Orderly parse e) (h : s.step parse e = some t) {i : ℕ} (hi : t.installed = some i) :
    ∃ c r, t.Made i c r ∧ t.lastSent = some c := by
  have hst := later_of_step hI hG h
  have hkeep : s.installed = some i → t.lastSent = s.lastSent →
      ∃ c r, t.Made i c r ∧ t.lastSent = some c := by
    intro hs heq
    obtain ⟨c, r, hw, hc⟩ := hI.installed hs
    exact ⟨c, r, hst.made hw, heq.trans hc⟩
  cases Step.of_step h with
  | send hm =>
    -- there is no watcher yet, so none is installed
    obtain ⟨c, r, ⟨p, hp, -⟩, -⟩ := hI.installed hi
    have hmain := hI.main
    rw [MainSound, hm] at hmain
    rw [hmain.1] at hp
    exact absurd hp (by simp)
  | newInstall hm =>
    obtain ⟨c, hmade, hsent⟩ := hI.made_of_install hm
    obtain rfl := Option.some.inj hi
    refine ⟨c, 0, hmade, hsent ?_⟩
    -- a watcher installed before would go back to an earlier read than the first
    cases hold : s.installed with
    | none => rfl
    | some j =>
      obtain ⟨p, hp, -, hr⟩ := hmade
      obtain ⟨c', r', ⟨q, hq, -⟩, -⟩ := hI.installed hold
      have hlt := hG _ p hm hp j q hold hq
      omega
  | publish hk hph =>
    obtain rfl := Option.some.inj hi
    obtain ⟨r, hw⟩ := hI.made_of_watching hk hph
    exact ⟨_, r, hw, rfl⟩
  | _ => exact hkeep hi rfl

theorem main_of_step {s t : ConfigWatcher γ χ} {e : WatchEvent γ} (hI : s.Inv parse)
    (hG : s.Orderly parse e) (h : s.step parse e = some t) : t.MainSound := by
  have hst := later_of_step hI hG h
  have hmain := hI.main
  cases Step.of_step h with
  | write => exact hmain
  | ignore he => exact hmain
  | parseFail hm hp => trivial
  | parseOk hm hp =>
    rw [MainSound, hm] at hmain
    exact ⟨hmain.1, hmain.2, Nat.succ_pos _⟩
  | send hm =>
    rw [MainSound, hm] at hmain
    exact ⟨hmain.1, hmain.2.1, hmain.2.2, rfl⟩
  | newWatch hm =>
    rw [MainSound, hm] at hmain
    obtain ⟨-, rfl, -, hsent⟩ := hmain
    exact ⟨_, ⟨_, List.getElem?_concat_length, rfl, rfl⟩, fun _ => hsent⟩
  | newInstall hm => trivial
  | fire hw he hne hbusy =>
    refine hmain.later hst rfl ?_ fun hnone => ⟨hnone, rfl⟩
    rintro hnil
    rw [hnil] at hw
    exact absurd hw (by simp)
  | readFail hk hph hp =>
    exact hmain.later hst rfl (hI.watchers_ne_nil hk) fun hnone => ⟨hnone, rfl⟩
  | readOk hk hph hp =>
    exact hmain.later hst rfl (hI.watchers_ne_nil hk) fun hnone => ⟨hnone, rfl⟩
  | watch hk hph =>
    exact hmain.later hst rfl (hI.watchers_ne_nil hk) fun hnone => ⟨hnone, rfl⟩
  | publish hk hph =>
    exact hmain.later hst rfl (hI.watchers_ne_nil hk) fun hnone => absurd hnone (by simp)

theorem inv_of_step {s t : ConfigWatcher γ χ} {e : WatchEvent γ} (hI : s.Inv parse)
    (hG : s.Orderly parse e) (h : s.step parse e = some t) : t.Inv parse :=
  ⟨main_of_step hI hG h, installed_of_step hI hG h, watcher_of_step hI hG h,
    reload_of_step hI hG h⟩

/-! ## When nothing more will fire -/

/-- No call of `handle_event` is running, and the installed watcher has seen the file as
it is: nothing more will happen until the file is written again. -/
def Quiescent (s : ConfigWatcher γ χ) : Prop :=
  (∀ h ∈ s.reloads, h.phase.running = false) ∧
    ∃ i p, s.installed = some i ∧ s.watchers[i]? = some p ∧ p.baseline = s.file

/-- **No change is lost in an orderly run.**  In every state that a run reaches whose
steps all keep the three conditions: when nothing more will fire and the file can be
parsed, the last configuration sent is the one the file holds. -/
theorem lastSent_of_quiescent (parse : γ → Option χ) (file : γ) (es : List (WatchEvent γ))
    (s : ConfigWatcher γ χ) (hG : Allowed (step parse) (Orderly parse) (start file) es)
    (h : run (step parse) (start file) es = some s) (hq : s.Quiescent) (config : χ)
    (hp : parse s.file = some config) : s.lastSent = some config := by
  have hI : s.Inv parse := run_invariant_of_allowed (I := fun s => s.Inv parse) (inv_start file)
    (fun _ _ _ hI hG hs => inv_of_step hI hG hs) hG h
  obtain ⟨hdone, i, p, hi, hget, hbase⟩ := hq
  obtain ⟨c, r, hmade, hsent⟩ := hI.installed hi
  have hthis : s.Made i p.config p.readAt := ⟨p, hget, rfl, rfl⟩
  obtain ⟨rfl, rfl⟩ := hmade.unique hthis
  rw [← hbase] at hp
  rcases (hI.watcher hget).2 with hnone | hsome | ⟨x, hx, hxw, hxf⟩
  · exact absurd (hp.symm.trans hnone) (by simp)
  · rw [hsent, ← hp, hsome]
  · -- the installed watcher has fired for this content: the call can neither have sent
    -- nor have failed
    obtain ⟨c', r', hmade', hphase⟩ := hI.reload hx
    rw [hxw] at hmade'
    obtain ⟨-, rfl⟩ := hmade'.unique hmade
    have hstop := hdone x hx
    cases hph : x.phase with
    | sent =>
      rw [hph] at hphase
      obtain ⟨j, c'', r'', hj, hmadej, hlt⟩ := hphase
      obtain rfl := Option.some.inj (hi.symm.trans hj)
      obtain ⟨-, rfl⟩ := hmade.unique hmadej
      exact absurd hlt (Nat.lt_irrefl _)
    | failed =>
      rw [hph, hxf] at hphase
      exact absurd (hp.symm.trans hphase) (by simp)
    | _ =>
      rw [hph] at hstop
      exact absurd hstop (by simp [ReloadPhase.running])

end Lossless

/-! ## Changes that are lost -/

/-- A parser for the runs below: `0` is a file that cannot be parsed. -/
def parseNat : ℕ → Option ℕ
  | 0 => none
  | n + 1 => some (n + 1)

/-- Start-up on the file `1`, and then one change, to `2`. -/
def orderlyRun : List (WatchEvent ℕ) :=
  [.mainParse, .mainSend, .newWatch, .newInstall, .write 2, .notify 0 (some .modify), .read 0,
    .watch 0, .publish 0]

theorem lastSent_of_quiescent_orderlyRun :
    ∃ s, run (step parseNat) (start 1) orderlyRun = some s ∧ s.file = 2 ∧
      s.lastSent = some 2 := by
  refine ⟨_, rfl, rfl, lastSent_of_quiescent parseNat 1 orderlyRun _ ?_ rfl ?_ 2 rfl⟩
  · refine .cons trivial rfl (.cons trivial rfl (.cons ?_ rfl (.cons ?_ rfl (.cons trivial rfl
      (.cons trivial rfl (.cons ?_ rfl (.cons ?_ rfl (.cons ?_ rfl .nil))))))))
    · rintro c r ⟨⟩
      exact Or.inr rfl
    · rintro w p ⟨⟩ ⟨⟩ i q ⟨⟩
    · rintro h ⟨⟩ ⟨⟩
    · rintro h c r ⟨⟩ ⟨⟩
      exact Or.inr rfl
    · rintro h c w p ⟨⟩ ⟨⟩ ⟨⟩ i q ⟨⟩ ⟨⟩
      exact Nat.zero_lt_one
  · exact ⟨by decide, 1, _, rfl, rfl, rfl⟩

/-- A change is lost: nothing more will fire, the file can be parsed, and what was last
sent is something else. -/
def Lost (s : ConfigWatcher ℕ ℕ) : Prop :=
  s.Quiescent ∧ ∃ c, parseNat s.file = some c ∧ s.lastSent ≠ some c

/-- The file is written while `main` starts, between its read and its `watch`. -/
def staleBaseline : List (WatchEvent ℕ) :=
  [.mainParse, .write 2, .mainSend, .newWatch, .newInstall]

/-- The watcher of an unfinished call sees the next change; its call overtakes the first. -/
def overtaken : List (WatchEvent ℕ) :=
  [.mainParse, .mainSend, .newWatch, .newInstall, .write 2, .notify 0 (some .modify), .read 0,
    .watch 0, .write 3, .notify 1 (some .modify), .read 1, .watch 1, .publish 1, .publish 0]

/-- The file is broken for a moment, just when the call reads it. -/
def flicker : List (WatchEvent ℕ) :=
  [.mainParse, .mainSend, .newWatch, .newInstall, .write 2, .notify 0 (some .modify), .write 0,
    .read 0, .write 2]

/-- **Each of the three conditions is needed.**  Starting on the file `1`, these runs end
with the file `2`, `3` and `2`, nothing left to fire, and the configuration `1`, `2` and
`1` sent last. -/
theorem changes_lost :
    (∃ s, run (step parseNat) (start 1) staleBaseline = some s ∧ s.Lost) ∧
    (∃ s, run (step parseNat) (start 1) overtaken = some s ∧ s.Lost) ∧
    (∃ s, run (step parseNat) (start 1) flicker = some s ∧ s.Lost) := by
  refine ⟨⟨_, rfl, ⟨by decide, 0, _, rfl, rfl, rfl⟩, 2, rfl, by decide⟩,
    ⟨_, rfl, ⟨by decide, 1, _, rfl, rfl, rfl⟩, 3, rfl, by decide⟩,
    ⟨_, rfl, ⟨by decide, 0, _, rfl, rfl, rfl⟩, 2, rfl, by decide⟩⟩

end ConfigWatcher
end Turbine
