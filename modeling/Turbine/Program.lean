import Turbine.Config.Watcher
import Turbine.History
import Turbine.Shutdown

/-!
# The whole program: from the file to the connection

`main` makes one channel, `mpsc::channel(10)`, and everything a connection is served by comes
through it: `ConfigWatcher` reads the file and sends what it has parsed, and the event loop
receives it, applies it to the listeners, and lets the runners do the rest.  The parts have
been looked at one by one; `Program` puts them together.

Three things about the channel are the program's own.  A sender waits while ten
configurations are in it: `blocking_send` is called with the lock held, so the next
`handle_event` waits as well.  The configurations are received in the order they were
sent in.  And when the event loop has left, the receiver is gone and a send fails, which is
ignored.  `applied` is there to say what has come out at the other end, and no step looks at
it.

The program simulates `App`, the part behind the channel (`app_of_run`), so what was shown of
it holds here.  Two results are about the whole.  `served_from_file`: every connection is served
by a rule that the file had, for the address that the connection came in on, in a content the
file has really had; and the connections of one runner are never given the rule of an older
configuration than the one before got.  `listeners_of_lastSent`: whenever the channel is
empty and the event loop at rest, the keys of the `listeners` map are the addresses of the
last configuration sent.  A key says that a runner was started for the address and has not
been told to go: it may have died when it could not bind the socket, and a runner that was
removed may still be draining its own.
-/

namespace Turbine

open Runs

variable {γ ρ κ : Type}

/-- What `listen_config_change` has received, and not applied yet. -/
def LoopPhase.inHand : LoopPhase ρ → List (HashMap SocketAddr ρ)
  | .reloading u => [u]
  | _ => []

/-- `listen_config_change` has returned, and `config_changes_rx` is dropped. -/
def LoopPhase.gone : LoopPhase ρ → Bool
  | .exited => true
  | _ => false

/-- `main` is past `ConfigWatcher::new`. -/
def StartUp.isUp {χ : Type} : StartUp χ → Bool
  | .up => true
  | _ => false

/-- The steps that put a configuration into the channel. -/
def WatchEvent.sends : WatchEvent γ → Bool
  | .mainSend => true
  | .publish _ => true
  | _ => false

/-- The program: who reads the file, the channel, and who serves. -/
structure Program (γ ρ κ : Type) where
  watcher : ConfigWatcher γ (HashMap SocketAddr ρ)
  /-- What has been sent and not received, oldest first. -/
  channel : List (HashMap SocketAddr ρ)
  app : App ρ κ
  /-- The configurations that the event loop has applied, oldest first. -/
  applied : List (HashMap SocketAddr ρ)

/-- What happens to the program. -/
inductive ProgramEvent (γ ρ κ : Type) where
  | watcher (e : WatchEvent γ)
  /-- `config_changes_rx.recv()` wins the event loop's `select!` -/
  | recv
  | app (e : AppEvent ρ κ)

namespace Program

/-- The capacity of the channel. -/
def capacity : ℕ := 10

/-- The program when `main` is called. -/
def start (file : γ) : Program γ ρ κ := ⟨ConfigWatcher.start file, [], App.start, []⟩

section Steps

variable [DecidableEq γ] (parse : γ → Option (HashMap SocketAddr ρ))

/-- What comes of a step of the watcher: a send waits for room, and fails if nobody
receives. -/
def watch (s : Program γ ρ κ) (e : WatchEvent γ) : Option (Program γ ρ κ) :=
  (s.watcher.step parse e).bind fun w =>
    if e.sends = false ∨ s.app.phase.gone = true then some { s with watcher := w }
    else if s.channel.length < capacity then
      some { s with watcher := w, channel := s.channel ++ w.lastSent.toList }
    else none

/-- One step of a program whose `main` has not returned. -/
def act (s : Program γ ρ κ) : ProgramEvent γ ρ κ → Option (Program γ ρ κ)
  | .watcher e => s.watch parse e
  | .recv =>
      match s.channel with
      | [] => none
      | u :: rest => (s.app.step (.recv u)).map fun a => { s with app := a, channel := rest }
  -- what is received is what the channel has
  | .app (.recv _) => none
  | .app .reload =>
      (s.app.step .reload).map fun a =>
        { s with app := a, applied := s.applied ++ s.app.phase.inHand }
  | .app .leave => (s.app.step .leave).map fun a => { s with app := a, channel := [] }
  | .app .sendShutdown =>
      if s.watcher.main.isUp then
        (s.app.step .sendShutdown).map fun a => { s with app := a }
      else none
  | .app e => (s.app.step e).map fun a => { s with app := a }

/-- One step; none is left once `main` has returned. -/
def step (s : Program γ ρ κ) (e : ProgramEvent γ ρ κ) : Option (Program γ ρ κ) :=
  match s.app.main with
  | .exited _ => none
  | _ => s.act parse e

/-- The steps as a relation, with what each of them needs. -/
inductive Step (s : Program γ ρ κ) : ProgramEvent γ ρ κ → Program γ ρ κ → Prop
  | watch {e w} (hw : s.watcher.step parse e = some w)
      (hquiet : e.sends = false ∨ s.app.phase.gone = true) :
      Step s (.watcher e) { s with watcher := w }
  | send {e w} (hw : s.watcher.step parse e = some w) (hsends : e.sends = true)
      (hroom : s.channel.length < capacity) :
      Step s (.watcher e) { s with watcher := w, channel := s.channel ++ w.lastSent.toList }
  | recv {u rest a} (hchannel : s.channel = u :: rest) (ha : s.app.step (.recv u) = some a) :
      Step s .recv { s with app := a, channel := rest }
  | reload {a} (ha : s.app.step .reload = some a) :
      Step s (.app .reload) { s with app := a, applied := s.applied ++ s.app.phase.inHand }
  | leave {a} (ha : s.app.step .leave = some a) :
      Step s (.app .leave) { s with app := a, channel := [] }
  | app {e a} (he : (∀ u, e ≠ .recv u) ∧ e ≠ .reload ∧ e ≠ .leave) (ha : s.app.step e = some a) :
      Step s (.app e) { s with app := a }

variable {parse}

theorem Step.of_act {s t : Program γ ρ κ} {e : ProgramEvent γ ρ κ} (h : s.act parse e = some t) :
    Step parse s e t := by
  cases e with
  | watcher e =>
    obtain ⟨w, hw, hif⟩ := Option.bind_eq_some_iff.mp h
    split at hif
    · rename_i hquiet
      obtain rfl := Option.some.inj hif
      exact .watch hw hquiet
    · rename_i hsends
      obtain ⟨hroom, ht⟩ := Option.ite_none_right_eq_some.mp hif
      obtain rfl := Option.some.inj ht
      exact .send hw (by simpa using (not_or.mp hsends).1) hroom
  | recv =>
    simp only [act] at h
    split at h
    · exact absurd h (by simp)
    · rename_i u rest hchannel
      obtain ⟨a, ha, rfl⟩ := Option.map_eq_some_iff.mp h
      exact .recv hchannel ha
  | app e =>
    cases e with
    | recv u => exact absurd h (by simp [act])
    | reload =>
      obtain ⟨a, ha, rfl⟩ := Option.map_eq_some_iff.mp h
      exact .reload ha
    | leave =>
      obtain ⟨a, ha, rfl⟩ := Option.map_eq_some_iff.mp h
      exact .leave ha
    | sendShutdown =>
      obtain ⟨-, hx⟩ := Option.ite_none_right_eq_some.mp h
      obtain ⟨a, ha, rfl⟩ := Option.map_eq_some_iff.mp hx
      exact .app (by simp) ha
    | _ =>
      obtain ⟨a, ha, rfl⟩ := Option.map_eq_some_iff.mp h
      exact .app (by simp) ha

theorem Step.of_step {s t : Program γ ρ κ} {e : ProgramEvent γ ρ κ}
    (h : s.step parse e = some t) : Step parse s e t := by
  rw [step] at h
  split at h
  · exact absurd h (by simp)
  · exact Step.of_act h

/-! ## The parts -/

/-- What the event loop, the runners and the handlers do in a run of the program, they do on
their own. -/
theorem app_of_run {file : γ} {es : List (ProgramEvent γ ρ κ)} {s : Program γ ρ κ}
    (h : run (step parse) (start file) es = some s) :
    ∃ as, run App.step App.start as = some s.app := by
  refine run_simulation (f := Program.app) ?_ h
  intro s e t hs
  cases Step.of_step hs with
  | watch | send => exact ⟨[], rfl⟩
  | @recv u rest a hchannel ha => exact ⟨[.recv u], by rw [run_singleton, ha]⟩
  | reload ha => exact ⟨[.reload], by rw [run_singleton, ha]⟩
  | leave ha => exact ⟨[.leave], by rw [run_singleton, ha]⟩
  | @app e a he ha => exact ⟨[e], by rw [run_singleton, ha]⟩

end Steps

end Program

/-! ## What is read -/

/-- The configuration that `main` holds. -/
def StartUp.config? {χ : Type} : StartUp χ → Option χ
  | .send c _ => some c
  | .watch c _ => some c
  | _ => none

/-- The configuration that a call of `handle_event` holds. -/
def ReloadPhase.config? {χ : Type} : ReloadPhase χ → Option χ
  | .parsed c _ => some c
  | .watching c _ => some c
  | _ => none

namespace ConfigWatcher

variable {χ : Type}

/-- Every configuration that is held, or was sent last, has the property `P`. -/
structure Known (P : χ → Prop) (s : ConfigWatcher γ χ) : Prop where
  main : ∀ {c}, s.main.config? = some c → P c
  reload : ∀ {h c}, h ∈ s.reloads → h.phase.config? = some c → P c
  lastSent : ∀ {c}, s.lastSent = some c → P c

theorem known_start (P : χ → Prop) (file : γ) : Known P (start file : ConfigWatcher γ χ) :=
  ⟨fun h => absurd h (by simp [start, StartUp.config?]), fun h => absurd h (by simp [start]),
    fun h => absurd h (by simp [start])⟩

theorem Known.mono {P Q : χ → Prop} {s : ConfigWatcher γ χ} (h : Known P s)
    (hPQ : ∀ c, P c → Q c) : Known Q s :=
  ⟨fun hm => hPQ _ (h.main hm), fun hx hp => hPQ _ (h.reload hx hp),
    fun hl => hPQ _ (h.lastSent hl)⟩

/-- A call goes on to a phase whose configuration has the property. -/
theorem Known.setPhase {P : χ → Prop} {s : ConfigWatcher γ χ} (h : Known P s) (k : ℕ)
    (x : Reload γ χ) (phase : ReloadPhase χ) (hphase : ∀ c, phase.config? = some c → P c)
    {y : Reload γ χ} {c : χ} (hy : y ∈ s.setPhase k x phase) (hc : y.phase.config? = some c) :
    P c := by
  rcases List.mem_or_eq_of_mem_set hy with hy | rfl
  · exact h.reload hy hc
  · exact hphase c hc

variable [DecidableEq γ] {parse : γ → Option χ}

/-- What comes from the file has the property, and nothing comes from anywhere else. -/
theorem Known.of_step {P : χ → Prop} {s t : ConfigWatcher γ χ} {e : WatchEvent γ} (h : Known P s)
    (hfile : ∀ c, parse s.file = some c → P c) (hs : s.step parse e = some t) : Known P t := by
  cases Step.of_step hs with
  | write => exact ⟨h.main, h.reload, h.lastSent⟩
  | parseFail | newWatch | newInstall =>
    exact ⟨fun hm => absurd hm (by simp [StartUp.config?]), h.reload, h.lastSent⟩
  | parseOk hm hp => exact ⟨fun hm' => hfile _ (Option.some.inj hm' ▸ hp), h.reload, h.lastSent⟩
  | send hm =>
    have hP := h.main (congrArg StartUp.config? hm)
    exact ⟨fun hm' => Option.some.inj hm' ▸ hP, h.reload, fun hl => Option.some.inj hl ▸ hP⟩
  | ignore => exact h
  | fire hw he hne hbusy =>
    refine ⟨h.main, fun hx hc => ?_, h.lastSent⟩
    rcases List.mem_append.mp hx with hx | hx
    · exact h.reload hx hc
    · rw [List.mem_singleton.mp hx] at hc
      exact absurd hc (by simp [ReloadPhase.config?])
  | @readFail k x hk hph hp =>
    exact ⟨h.main, h.setPhase k x .failed (by simp [ReloadPhase.config?]), h.lastSent⟩
  | @readOk k x c hk hph hp =>
    refine ⟨h.main, h.setPhase k x (.parsed c s.reads) fun _ hc => ?_, h.lastSent⟩
    exact hfile _ (Option.some.inj hc ▸ hp)
  | @watch k x c r hk hph =>
    have hP := h.reload (List.mem_of_getElem? hk) (congrArg ReloadPhase.config? hph)
    refine ⟨h.main, h.setPhase k x (.watching c s.watchers.length) fun _ hc => ?_, h.lastSent⟩
    exact Option.some.inj hc ▸ hP
  | @publish k x c w hk hph =>
    have hP := h.reload (List.mem_of_getElem? hk) (congrArg ReloadPhase.config? hph)
    exact ⟨h.main, h.setPhase k x .sent (by simp [ReloadPhase.config?]),
      fun hl => Option.some.inj hl ▸ hP⟩

/-- The last configuration sent changes in the steps that send one. -/
theorem lastSent_of_step {s t : ConfigWatcher γ χ} {e : WatchEvent γ}
    (hs : s.step parse e = some t) :
    (e.sends = false ∧ t.lastSent = s.lastSent) ∨ (e.sends = true ∧ ∃ c, t.lastSent = some c) := by
  cases Step.of_step hs with
  | send | publish => exact Or.inr ⟨rfl, _, rfl⟩
  | _ => exact Or.inl ⟨rfl, rfl⟩

/-- The file changes when it is written. -/
theorem file_of_step {s t : ConfigWatcher γ χ} {e : WatchEvent γ} (hs : s.step parse e = some t) :
    e = .write t.file ∨ t.file = s.file := by
  cases Step.of_step hs with
  | write => exact Or.inl rfl
  | _ => exact Or.inr rfl

end ConfigWatcher

/-! ## What is served -/

/-- Apart from what the event loop does with updates, a step of the tasks leaves its phase
alone, and its listeners to the runners. -/
theorem App.eventLoop_of_step {s t : App ρ κ} {e : AppEvent ρ κ}
    (he : (∀ u, e ≠ .recv u) ∧ e ≠ .reload ∧ e ≠ .leave) (h : s.step e = some t) :
    t.phase = s.phase ∧ (t.eventLoop = s.eventLoop ∨
      ∃ l, (∀ u, l ≠ .update u) ∧ s.eventLoop.step l = some t.eventLoop) := by
  cases App.Step.of_step h with
  | @recv u => exact absurd rfl (he.1 u)
  | reload => exact absurd rfl he.2.1
  | leave => exact absurd rfl he.2.2
  | runner hw => exact ⟨rfl, Or.inr ⟨_, by simp, hw⟩⟩
  | fail hw => exact ⟨rfl, Or.inr ⟨_, by simp, hw⟩⟩
  | _ => exact ⟨rfl, Or.inl rfl⟩

namespace Program

/-- What is written to the file by an event. -/
def written? : ProgramEvent γ ρ κ → Option γ
  | .watcher (.write content) => some content
  | _ => none

/-- The contents that the file has had. -/
def contents (file : γ) (es : List (ProgramEvent γ ρ κ)) : List γ := file :: es.filterMap written?

/-- The configuration is what one of the contents means. -/
def FromFile (parse : γ → Option (HashMap SocketAddr ρ)) (contents : List γ)
    (u : HashMap SocketAddr ρ) : Prop :=
  ∃ content ∈ contents, parse content = some u

/-- The configurations on their way, and those that have arrived, oldest first. -/
def sent (s : Program γ ρ κ) : List (HashMap SocketAddr ρ) :=
  s.applied ++ (s.app.phase.inHand ++ s.channel)

variable {parse : γ → Option (HashMap SocketAddr ρ)}

/-- What holds in every state; `contents` are those that the file has had. -/
structure Inv (parse : γ → Option (HashMap SocketAddr ρ)) (contents : List γ)
    (s : Program γ ρ κ) : Prop where
  file : s.watcher.file ∈ contents
  known : s.watcher.Known (FromFile parse contents)
  fromFile : ∀ u ∈ s.sent, FromFile parse contents u
  agrees : s.app.eventLoop.Agrees
  traces : EventLoop.Traces s.applied s.app.eventLoop
  last : s.app.phase.gone = false → s.sent.getLast? = s.watcher.lastSent
  listeners : s.app.phase.gone = false → ∀ u, s.applied.getLast? = some u →
    ∀ a, a ∈ s.app.eventLoop.listeners ↔ a ∈ u
  room : s.channel.length ≤ capacity

theorem inv_start (file : γ) : Inv parse [file] (start file : Program γ ρ κ) where
  file := List.mem_singleton.mpr rfl
  known := ConfigWatcher.known_start _ file
  fromFile := fun u hu => absurd hu (by simp [start, sent, App.start, LoopPhase.inHand])
  agrees := EventLoop.agrees_new
  traces := EventLoop.traces_new
  last := fun _ => rfl
  listeners := fun _ u hu => absurd hu (by simp [start])
  room := Nat.zero_le _

theorem FromFile.append {contents : List γ} {u : HashMap SocketAddr ρ}
    (h : FromFile parse contents u) (more : List γ) : FromFile parse (contents ++ more) u := by
  obtain ⟨content, hmem, hu⟩ := h
  exact ⟨content, List.mem_append_left _ hmem, hu⟩

theorem contents_snoc (file : γ) (es : List (ProgramEvent γ ρ κ)) (e : ProgramEvent γ ρ κ) :
    contents file (es ++ [e]) = contents file es ++ (written? e).toList := by
  rw [contents, contents, List.filterMap_append, ← List.cons_append]
  cases he : written? e <;> simp [he]

theorem getLast?_append_toList (l : List (HashMap SocketAddr ρ)) (c : HashMap SocketAddr ρ) :
    (l ++ (some c).toList).getLast? = some c := by
  rw [Option.toList_some, List.getLast?_append, List.getLast?_singleton, Option.some_or]

/-- More contents do no harm. -/
theorem Inv.append {contents : List γ} {s : Program γ ρ κ} (h : Inv parse contents s)
    (more : List γ) : Inv parse (contents ++ more) s :=
  { h with
    file := List.mem_append_left _ h.file
    known := h.known.mono fun _ hu => hu.append more
    fromFile := fun u hu => (h.fromFile u hu).append more }

/-! Each kind of step keeps the invariant. -/

theorem Inv.recv {contents : List γ} {s : Program γ ρ κ} (h : Inv parse contents s)
    {u : HashMap SocketAddr ρ} {rest : List (HashMap SocketAddr ρ)} {a : App ρ κ}
    (hchannel : s.channel = u :: rest) (ha : s.app.step (.recv u) = some a) :
    Inv parse contents { s with app := a, channel := rest } := by
  cases App.Step.of_step ha with
  | recv hphase hmain =>
    have hsent : sent { s with
        app := { s.app with phase := .reloading u }, channel := rest } = s.sent := by
      simp [sent, hphase, hchannel, LoopPhase.inHand]
    have hgone : s.app.phase.gone = false := by rw [hphase]; rfl
    refine ⟨h.file, h.known, ?_, h.agrees, h.traces, fun _ => ?_, fun _ => h.listeners hgone, ?_⟩
    · rw [hsent]
      exact h.fromFile
    · rw [hsent]
      exact h.last hgone
    · have hroom := h.room
      rw [hchannel, List.length_cons] at hroom
      show rest.length ≤ capacity
      omega

theorem Inv.reload {contents : List γ} {s : Program γ ρ κ} (h : Inv parse contents s)
    {a : App ρ κ} (ha : s.app.step .reload = some a) :
    Inv parse contents { s with app := a, applied := s.applied ++ s.app.phase.inHand } := by
  cases App.Step.of_step ha with
  | @reload u hphase =>
    have hsent : sent { s with
        app := { s.app with eventLoop := s.app.eventLoop.applyUpdate u, phase := .select }
        applied := s.applied ++ s.app.phase.inHand } = s.sent := by
      simp [sent, hphase, LoopPhase.inHand]
    have hgone : s.app.phase.gone = false := by rw [hphase]; rfl
    have hinHand : s.app.phase.inHand = [u] := by rw [hphase]; rfl
    refine ⟨h.file, h.known, ?_, (EventLoop.applyUpdate_spec h.agrees u).agrees h.agrees, ?_,
      fun _ => ?_, ?_, h.room⟩
    · rw [hsent]
      exact h.fromFile
    · rw [hinHand]
      exact h.traces.applyUpdate h.agrees u
    · rw [hsent]
      exact h.last hgone
    · intro _ u' hu' a
      rw [hinHand, ← Option.toList_some, getLast?_append_toList, Option.some.injEq] at hu'
      rw [← hu']
      exact EventLoop.mem_listeners_applyUpdate h.agrees u a

theorem Inv.leave {contents : List γ} {s : Program γ ρ κ} (h : Inv parse contents s)
    {a : App ρ κ} (ha : s.app.step .leave = some a) :
    Inv parse contents { s with app := a, channel := [] } := by
  cases App.Step.of_step ha with
  | leave hphase hmain =>
    refine ⟨h.file, h.known, fun u hu => h.fromFile u ?_,
      (EventLoop.applyUpdate_spec h.agrees ∅).agrees h.agrees, h.traces.leave h.agrees,
      fun hgone => absurd hgone (by simp [LoopPhase.gone]),
      fun hgone => absurd hgone (by simp [LoopPhase.gone]), Nat.zero_le _⟩
    have hmem : u ∈ s.applied := by simpa [sent, LoopPhase.inHand] using hu
    exact List.mem_append_left _ hmem

theorem Inv.app {contents : List γ} {s : Program γ ρ κ} (h : Inv parse contents s)
    {e : AppEvent ρ κ} {a : App ρ κ} (he : (∀ u, e ≠ .recv u) ∧ e ≠ .reload ∧ e ≠ .leave)
    (ha : s.app.step e = some a) : Inv parse contents { s with app := a } := by
  obtain ⟨hphase, hloop⟩ := App.eventLoop_of_step he ha
  have hsent : sent { s with app := a } = s.sent := by simp only [sent, hphase]
  refine ⟨h.file, h.known, ?_, App.agrees_of_step h.agrees ha, ?_, ?_, ?_, h.room⟩
  · rw [hsent]
    exact h.fromFile
  · rcases hloop with hsame | ⟨l, hl, hstep⟩
    · exact hsame ▸ h.traces
    · exact h.traces.of_step hl hstep
  · rw [hphase, hsent]
    exact h.last
  · intro hgone u hu b
    rw [hphase] at hgone
    rcases hloop with hsame | ⟨l, hl, hstep⟩
    · rw [hsame]
      exact h.listeners hgone u hu b
    · rcases EventLoop.step_cases hstep with ⟨u', hl', -⟩ | ⟨-, hunt⟩
      · exact absurd hl' (hl u')
      · rw [hunt.listeners]
        exact h.listeners hgone u hu b

variable [DecidableEq γ]

/-- What a step of the watcher reads is a content that the file has had. -/
theorem Inv.watch {contents : List γ} {s : Program γ ρ κ} (h : Inv parse contents s)
    {e : WatchEvent γ} {w : ConfigWatcher γ (HashMap SocketAddr ρ)}
    (hw : s.watcher.step parse e = some w) :
    w.file ∈ contents ++ (written? (.watcher e : ProgramEvent γ ρ κ)).toList ∧
      w.Known
        (FromFile parse (contents ++ (written? (.watcher e : ProgramEvent γ ρ κ)).toList)) := by
  refine ⟨?_, (h.known.of_step (fun c hc => ⟨_, h.file, hc⟩) hw).mono fun _ hu => hu.append _⟩
  rcases ConfigWatcher.file_of_step hw with rfl | hsame
  · exact List.mem_append_right _ (by simp [written?])
  · rw [hsame]
    exact List.mem_append_left _ h.file

theorem Inv.quiet {contents : List γ} {s : Program γ ρ κ} (h : Inv parse contents s)
    {e : WatchEvent γ} {w : ConfigWatcher γ (HashMap SocketAddr ρ)}
    (hw : s.watcher.step parse e = some w) (hquiet : e.sends = false ∨ s.app.phase.gone = true) :
    Inv parse (contents ++ (written? (.watcher e : ProgramEvent γ ρ κ)).toList)
      { s with watcher := w } := by
  obtain ⟨hfile, hknown⟩ := h.watch hw
  refine ⟨hfile, hknown, (h.append _).fromFile, h.agrees, h.traces, fun hgone => ?_, h.listeners,
    h.room⟩
  rcases ConfigWatcher.lastSent_of_step hw with ⟨-, hsame⟩ | ⟨hsends, -⟩
  · exact (h.last hgone).trans hsame.symm
  · rcases hquiet with hquiet | hgone'
    · exact absurd (hsends.symm.trans hquiet) (by simp)
    · exact absurd (hgone.symm.trans hgone') (by simp)

theorem Inv.send {contents : List γ} {s : Program γ ρ κ} (h : Inv parse contents s)
    {e : WatchEvent γ} {w : ConfigWatcher γ (HashMap SocketAddr ρ)}
    (hw : s.watcher.step parse e = some w) (hsends : e.sends = true)
    (hroom : s.channel.length < capacity) :
    Inv parse (contents ++ (written? (.watcher e : ProgramEvent γ ρ κ)).toList)
      { s with watcher := w, channel := s.channel ++ w.lastSent.toList } := by
  obtain ⟨hfile, hknown⟩ := h.watch hw
  rcases ConfigWatcher.lastSent_of_step hw with ⟨hquiet, -⟩ | ⟨-, c, hc⟩
  · exact absurd (hsends.symm.trans hquiet) (by simp)
  · have hsent : sent { s with watcher := w, channel := s.channel ++ w.lastSent.toList } =
        s.sent ++ (some c).toList := by
      simp only [sent, hc, List.append_assoc]
    refine ⟨hfile, hknown, fun u hu => ?_, h.agrees, h.traces, fun _ => ?_, h.listeners, ?_⟩
    · rw [hsent, Option.toList_some, List.mem_append, List.mem_singleton] at hu
      rcases hu with hu | rfl
      · exact (h.fromFile u hu).append _
      · exact hknown.lastSent hc
    · rw [hsent, getLast?_append_toList, hc]
    · rw [hc, Option.toList_some, List.length_append, List.length_singleton]
      exact hroom

theorem inv_of_step {contents : List γ} {s t : Program γ ρ κ} {e : ProgramEvent γ ρ κ}
    (h : Inv parse contents s) (hs : s.step parse e = some t) :
    Inv parse (contents ++ (written? e).toList) t := by
  cases Step.of_step hs with
  | watch hw hquiet => exact h.quiet hw hquiet
  | send hw hsends hroom => exact h.send hw hsends hroom
  | recv hchannel ha => exact (h.recv hchannel ha).append _
  | reload ha => exact (h.reload ha).append _
  | leave ha => exact (h.leave ha).append _
  | app he ha => exact (h.app he ha).append _

theorem inv_of_run {file : γ} {es : List (ProgramEvent γ ρ κ)} {s : Program γ ρ κ}
    (h : run (step parse) (start file) es = some s) : Inv parse (contents file es) s := by
  refine run_induction (motive := fun es s => Inv parse (contents file es) s) (inv_start file) ?_ h
  intro es e s t _ hI hs
  rw [contents_snoc]
  exact inv_of_step hI hs

/-- **Every connection is served by what the file had for its address.**  In every run, with
the file written at any time: every configuration that the event loop has applied is what a
content of the file meant; and the handlers of a runner have been given, in order, the rules
that these configurations have for the runner's address, and never that of an older
configuration after that of a newer one. -/
theorem served_from_file (parse : γ → Option (HashMap SocketAddr ρ)) (file : γ)
    (es : List (ProgramEvent γ ρ κ)) (s : Program γ ρ κ)
    (h : run (step parse) (start file) es = some s) :
    (∀ u ∈ s.applied, ∃ content ∈ contents file es, parse content = some u) ∧
      ∀ i r, s.app.eventLoop.runners[i]? = some r → ∃ js : List ℕ, js.Pairwise (· ≤ ·) ∧
        List.Forall₂ (fun j job => Gave s.applied r.listenAddr j job.2) js (s.app.jobs i) := by
  have hI := inv_of_run h
  refine ⟨fun u hu => hI.fromFile u (List.mem_append_left _ hu), fun i r hr => ?_⟩
  obtain ⟨as, happ⟩ := app_of_run h
  obtain ⟨n, hn⟩ := hI.traces hr
  obtain ⟨js, hsorted, -, hgave⟩ := hn.handed
  refine ⟨js, hsorted, ?_⟩
  rw [App.jobs_of_run happ, EventLoop.handed_of_some hr]
  exact hgave

/-- A file that holds a number; it means that rule for one address. -/
def parseOne (content : ℕ) : Option (HashMap SocketAddr ℕ) :=
  some ((∅ : HashMap SocketAddr ℕ).insert EventLoop.web content)

/-- The file holds `1`, a client is served, `2` is written and found, and another client is
served. -/
def reloadRun : List (ProgramEvent ℕ ℕ ℕ) :=
  [.watcher .mainParse, .watcher .mainSend, .recv, .app .reload, .watcher .newWatch,
    .watcher .newInstall, .app (.runner 0 .start), .app (.runner 0 (.arrive (.conn 7))),
    .app (.runner 0 .pollChanged), .app (.runner 0 .pollAccept), .watcher (.write 2),
    .watcher (.notify 0 (some .modify)), .watcher (.read 0), .watcher (.watch 0),
    .watcher (.publish 0), .recv, .app .reload, .app (.runner 0 .pollChanged),
    .app (.runner 0 .borrowAndUpdate), .app (.runner 0 (.arrive (.conn 8))),
    .app (.runner 0 .pollChanged), .app (.runner 0 .pollAccept)]

theorem served_from_file_reloadRun :
    ∃ s, run (step parseOne) (start 1) reloadRun = some s ∧
      s.app.jobs 0 = [(7, 1), (8, 2)] ∧
      (∀ u ∈ s.applied, ∃ content ∈ contents 1 reloadRun, parseOne content = some u) ∧
      ∀ i r, s.app.eventLoop.runners[i]? = some r → ∃ js : List ℕ, js.Pairwise (· ≤ ·) ∧
        List.Forall₂ (fun j job => Gave s.applied r.listenAddr j job.2) js (s.app.jobs i) :=
  ⟨_, rfl, rfl, served_from_file parseOne 1 reloadRun _ rfl⟩

/-- **The `listeners` map has the addresses of the last configuration sent.**  In every run:
never are more than ten configurations in the channel; and when there is none, and the event
loop is at its `select!`, then the keys of the map are the addresses of the last configuration
sent, and the watch channel behind each of them is open and holds the rule of that
configuration.  Whether the runner that was started for the key is alive is not said. -/
theorem listeners_of_lastSent (parse : γ → Option (HashMap SocketAddr ρ)) (file : γ)
    (es : List (ProgramEvent γ ρ κ)) (s : Program γ ρ κ)
    (h : run (step parse) (start file) es = some s) :
    s.channel.length ≤ 10 ∧
      (s.channel = [] → s.app.phase = .select → ∀ u, s.watcher.lastSent = some u →
        (∀ a, a ∈ s.app.eventLoop.listeners ↔ a ∈ u) ∧
          ∀ a v, u.lookup a = some v → ∃ i r, s.app.eventLoop.listeners.lookup a = some i ∧
            s.app.eventLoop.runners[i]? = some r ∧ r.listenAddr = a ∧
            r.configRx.closed = false ∧ r.configRx.value = v) := by
  have hI := inv_of_run h
  refine ⟨hI.room, fun hempty hphase u hu => ?_⟩
  have hgone : s.app.phase.gone = false := by rw [hphase]; rfl
  have hlast : s.applied.getLast? = some u := by
    simpa [sent, hphase, hempty, LoopPhase.inHand, hu] using hI.last hgone
  have haddresses := hI.listeners hgone u hlast
  refine ⟨haddresses, fun a v hv => ?_⟩
  have hmem : a ∈ s.app.eventLoop.listeners :=
    (haddresses a).mpr (AList.lookup_isSome.mp (by rw [hv]; rfl))
  obtain ⟨i, hi⟩ := Option.isSome_iff_exists.mp (AList.lookup_isSome.mpr hmem)
  obtain ⟨r, hr, ha, hopen, hvalue⟩ := hI.traces.value hI.agrees hlast hi
  exact ⟨i, r, hi, hr, ha, hopen, (Option.some.inj (hv.symm.trans hvalue)).symm⟩

theorem listeners_of_lastSent_reloadRun :
    ∃ s, run (step parseOne) (start 1) reloadRun = some s ∧
      ∃ i r, s.app.eventLoop.listeners.lookup EventLoop.web = some i ∧
        s.app.eventLoop.runners[i]? = some r ∧ r.listenAddr = EventLoop.web ∧
        r.configRx.closed = false ∧ r.configRx.value = 2 :=
  ⟨_, rfl, ((listeners_of_lastSent parseOne 1 reloadRun _ rfl).2 rfl rfl _ rfl).2 EventLoop.web 2
    rfl⟩

end Program
end Turbine
