import Mathlib.Data.List.Dedup
import Turbine.Config.Parse
import Turbine.Config.Watcher

/-!
# The files that are watched

A reload of the configuration is triggered by a change of the file itself, or of one of the
certificates and private keys that it names.  So the installed watcher has to watch the
configuration file and the files that the configuration last sent depends on (`DependsOn`):
the certificate and the key of every upstream of every rule that terminates TLS.  The source
has its own way of collecting them, and `mem_filesOf` says that it is right.

A watcher is made in two places.  `handle_event` makes one for the configuration it has just
parsed, and watches all its files; `ConfigWatcher::new` makes the first one, and watches the
configuration file alone.  The calls are taken one after the other here, each as a whole,
with everything it meets outside: what is on disk when it parses, and which of the calls into
`notify` and of the channel fail.  Two of these failures are ignored by the source, that of
watching the configuration file and that of sending.

A call that fails changes nothing (`handleEvent_of_err`).  `covered_iff` says what else can go
wrong: the files of the first configuration, and the two failures that are ignored.
-/

namespace Turbine

open Runs

/-- `Rule::files_to_watch_for_reload`. -/
def Rule.filesToWatchForReload (rule : Rule) : List String :=
  (rule.upstreams.toList.filterMap fun u =>
    u.cfg.tls.map fun t => [t.privateKey, t.certificate]).flatten

/-- The files of all rules of a configuration, each of them once. -/
def filesOf (config : HashMap SocketAddr (Arc Rule)) : List String :=
  (config.entries.flatMap fun x => x.2.val.filesToWatchForReload).dedup

/-- **A file the configuration depends on**: the certificate or the private key of an upstream
that terminates TLS, in the rule of some address. -/
def DependsOn (config : HashMap SocketAddr (Arc Rule)) (path : String) : Prop :=
  ∃ addr rule, config.lookup addr = some rule ∧ ∃ u ∈ rule.val.upstreams.toList,
    ∃ tls, u.cfg.tls = some tls ∧ (path = tls.certificate ∨ path = tls.privateKey)

theorem Rule.mem_filesToWatchForReload {rule : Rule} {path : String} :
    path ∈ rule.filesToWatchForReload ↔ ∃ u ∈ rule.upstreams.toList,
      ∃ tls, u.cfg.tls = some tls ∧ (path = tls.certificate ∨ path = tls.privateKey) := by
  simp only [filesToWatchForReload, List.mem_flatten, List.mem_filterMap, Option.map_eq_some_iff]
  constructor
  · rintro ⟨-, ⟨u, hu, tls, htls, rfl⟩, hpath⟩
    exact ⟨u, hu, tls, htls, (List.mem_pair.mp hpath).symm⟩
  · rintro ⟨u, hu, tls, htls, hpath⟩
    exact ⟨_, ⟨u, hu, tls, htls, rfl⟩, List.mem_pair.mpr hpath.symm⟩

/-- The files that the source collects are those that the configuration depends on. -/
theorem mem_filesOf {config : HashMap SocketAddr (Arc Rule)} {path : String} :
    path ∈ filesOf config ↔ DependsOn config path := by
  rw [filesOf, List.mem_dedup, List.mem_flatMap]
  constructor
  · rintro ⟨⟨addr, rule⟩, hmem, hpath⟩
    exact ⟨addr, rule, HashMap.mem_entries_iff.mp hmem, Rule.mem_filesToWatchForReload.mp hpath⟩
  · rintro ⟨addr, rule, hlookup, hpath⟩
    exact ⟨⟨addr, rule⟩, HashMap.mem_entries_iff.mpr hlookup,
      Rule.mem_filesToWatchForReload.mpr hpath⟩

/-- What a call of `handle_event` meets. -/
structure FileEvent where
  /-- The event; `none` is an error of `notify`. -/
  kind : Option EventKind
  /-- What is on disk when the configuration is parsed. -/
  env : Loader
  /-- `PollWatcher::new`: `none` when it succeeds, and so in the other fields. -/
  newWatcher : Option Error := none
  /-- `watch` of the configuration file. -/
  watchConfig : Option Error := none
  /-- `watch` of another file. -/
  watch : String → Option Error := fun _ => none
  /-- `blocking_send`. -/
  send : Option Error := none

/-- The installed watcher and the configuration last sent. -/
structure WatchState where
  /-- The files the watcher watches. -/
  watched : List String
  lastSent : HashMap SocketAddr (Arc Rule)

namespace WatchState

/-- `ConfigWatcher::new`, after `main` has sent `config`; the arguments of type `Option Error`
are what the two calls of `PollWatcher::new` and that of `watch` answer. -/
def new (configPath : String) (config : HashMap SocketAddr (Arc Rule))
    (firstWatcher secondWatcher watchConfig : Option Error) : Except Error WatchState :=
  match firstWatcher with
  | some e => .error e
  | none =>
      match secondWatcher with
      | some e => .error ("Cannot create configuration watcher" :: e)
      | none =>
          match watchConfig with
          | some e => .error e
          | none => .ok ⟨[configPath], config⟩

/-- The loop that watches the files of the configuration, and stops at an error. -/
def watchAll (watch : String → Option Error) :
    List String → List String → Except Error (List String)
  | watched, [] => .ok watched
  | watched, path :: paths =>
      match watch path with
      | some e => .error e
      | none => watchAll watch (watched ++ [path]) paths

variable (configPath : String)

/-- `ConfigWatcher::handle_event`. -/
def handleEvent (s : WatchState) (event : FileEvent) : Outcome Unit × WatchState :=
  if reloadsOn event.kind then
    match event.env.parseConfig configPath with
    | .err e => (.err e, s)
    | .panic message => (.panic message, s)
    | .ok config =>
        match event.newWatcher with
        | some e => (.err ("Cannot create configuration watcher" :: e), s)
        | none =>
            let watched := match event.watchConfig with
              | some _ => []
              | none => [configPath]
            match watchAll event.watch watched (filesOf config) with
            | .error e => (.err e, s)
            | .ok watched =>
                let lastSent := match event.send with
                  | some _ => s.lastSent
                  | none => config
                (.ok (), ⟨watched, lastSent⟩)
  else (.ok (), s)

/-- One file event. -/
def step (s : WatchState) (event : FileEvent) : Option WatchState :=
  some (s.handleEvent configPath event).2

/-- The watched files are the configuration file and those that the configuration last sent
depends on. -/
def Covered (s : WatchState) : Prop :=
  ∀ path, path ∈ s.watched ↔ path = configPath ∨ DependsOn s.lastSent path

/-- The event gets as far as sending this configuration. -/
def Publishes (event : FileEvent) (config : HashMap SocketAddr (Arc Rule)) : Prop :=
  reloadsOn event.kind = true ∧ event.env.parseConfig configPath = .ok config ∧
    event.newWatcher = none ∧ ∀ path, DependsOn config path → event.watch path = none

/-- When the event publishes a configuration, the failures that are ignored make no
difference: the configuration file is watched, and the configuration is sent or depends on
the same files as the last one. -/
def Harmless (s : WatchState) (event : FileEvent) : Prop :=
  ∀ config, Publishes configPath event config →
    (event.watchConfig = none ∨ DependsOn config configPath) ∧
      (event.send = none ∨
        ∀ path, path ≠ configPath → (DependsOn config path ↔ DependsOn s.lastSent path))

/-! ## One event -/

theorem watchAll_eq_ok {watch : String → Option Error} {watched paths watched' : List String}
    (h : watchAll watch watched paths = .ok watched') :
    watched' = watched ++ paths ∧ ∀ path ∈ paths, watch path = none := by
  induction paths generalizing watched with
  | nil =>
    obtain rfl := Except.ok.inj h
    exact ⟨(List.append_nil _).symm, fun path hpath => absurd hpath List.not_mem_nil⟩
  | cons path paths ih =>
    unfold watchAll at h
    cases hwatch : watch path with
    | some e =>
      rw [hwatch] at h
      exact absurd h (by simp)
    | none =>
      rw [hwatch] at h
      obtain ⟨rfl, hpaths⟩ := ih h
      refine ⟨by rw [List.append_assoc, List.singleton_append], fun p hp => ?_⟩
      rcases List.mem_cons.mp hp with rfl | hp
      · exact hwatch
      · exact hpaths p hp

theorem watchAll_of_forall {watch : String → Option Error} {paths : List String}
    (h : ∀ path ∈ paths, watch path = none) (watched : List String) :
    watchAll watch watched paths = .ok (watched ++ paths) := by
  induction paths generalizing watched with
  | nil => rw [watchAll, List.append_nil]
  | cons path paths ih =>
    rw [watchAll, h path List.mem_cons_self]
    show watchAll watch (watched ++ [path]) paths = _
    rw [ih fun p hp => h p (List.mem_cons_of_mem path hp), List.append_assoc, List.singleton_append]

/-- What `handle_event` can do. -/
inductive Handled (s : WatchState) (event : FileEvent) (r : Outcome Unit × WatchState) : Prop
  /-- nothing: an ignored kind, an error or a panic -/
  | unchanged (hpublish : ∀ config, ¬ Publishes configPath event config) (hstate : r.2 = s)
  | published (config : HashMap SocketAddr (Arc Rule))
      (hpublish : Publishes configPath event config)
      (hresult : r.1 = .ok ())
      (hwatched : r.2.watched =
        (if event.watchConfig = none then [configPath] else []) ++ filesOf config)
      (hsent : r.2.lastSent = if event.send = none then config else s.lastSent)

theorem handleEvent_handled (s : WatchState) (event : FileEvent) :
    Handled configPath s event (s.handleEvent configPath event) := by
  unfold handleEvent
  split
  · rename_i hkind
    split
    · rename_i e hparse
      exact .unchanged (fun config hp => absurd (hparse.symm.trans hp.2.1) (by simp)) rfl
    · rename_i message hparse
      exact .unchanged (fun config hp => absurd (hparse.symm.trans hp.2.1) (by simp)) rfl
    · rename_i config hparse
      split
      · rename_i e hnew
        exact .unchanged (fun config hp => absurd (hnew.symm.trans hp.2.2.1) (by simp)) rfl
      · rename_i hnew
        dsimp only
        split
        · rename_i e hall
          refine .unchanged (fun config' hp => ?_) rfl
          obtain rfl := Outcome.ok.inj (hparse.symm.trans hp.2.1)
          have hwatch : ∀ path ∈ filesOf config, event.watch path = none :=
            fun path hpath => hp.2.2.2 path (mem_filesOf.mp hpath)
          exact absurd ((watchAll_of_forall hwatch _).symm.trans hall) (by simp)
        · rename_i watched hall
          obtain ⟨rfl, hwatch⟩ := watchAll_eq_ok hall
          refine .published config ⟨hkind, hparse, hnew, fun path hpath =>
            hwatch path (mem_filesOf.mpr hpath)⟩ rfl ?_ ?_
          · cases event.watchConfig <;> simp
          · cases event.send <;> simp
  · rename_i hkind
    exact .unchanged (fun config hp => hkind hp.1) rfl

/-- A call that fails changes neither the configuration last sent nor the watcher. -/
theorem handleEvent_of_err {s : WatchState} {event : FileEvent} {e : Error}
    (h : (s.handleEvent configPath event).1 = .err e) : (s.handleEvent configPath event).2 = s := by
  cases handleEvent_handled configPath s event with
  | unchanged _ hstate => exact hstate
  | published config _ hresult _ _ => exact absurd (hresult.symm.trans h) (by simp)

/-- What it takes for the watched files to be right when a configuration has been published,
whatever they were before. -/
theorem covered_of_published {s t : WatchState} {event : FileEvent}
    {config : HashMap SocketAddr (Arc Rule)}
    (hwatched : t.watched =
      (if event.watchConfig = none then [configPath] else []) ++ filesOf config)
    (hsent : t.lastSent = if event.send = none then config else s.lastSent) :
    t.Covered configPath ↔
      (event.watchConfig = none ∨ DependsOn config configPath) ∧
        (event.send = none ∨
          ∀ path, path ≠ configPath → (DependsOn config path ↔ DependsOn s.lastSent path)) := by
  have hmem : ∀ path, path ∈ t.watched ↔
      (event.watchConfig = none ∧ path = configPath) ∨ DependsOn config path := by
    intro path
    rw [hwatched, List.mem_append, mem_filesOf]
    by_cases hconfig : event.watchConfig = none
    · simp only [hconfig, reduceIte, List.mem_singleton, true_and]
    · simp only [hconfig, reduceIte, List.not_mem_nil, false_and]
  constructor
  · intro h
    constructor
    · rcases (hmem configPath).mp ((h configPath).mpr (Or.inl rfl)) with hconfig | hfile
      · exact Or.inl hconfig.1
      · exact Or.inr hfile
    · by_cases hsend : event.send = none
      · exact Or.inl hsend
      · refine Or.inr fun path hpath => ?_
        have hiff := (hmem path).symm.trans (h path)
        rw [hsent, if_neg hsend] at hiff
        simpa only [hpath, and_false, false_or] using hiff
  · rintro ⟨hconfig, hsend⟩ path
    rw [hmem]
    by_cases hpath : path = configPath
    · subst hpath
      exact iff_of_true (hconfig.imp_left fun hnone => ⟨hnone, rfl⟩) (Or.inl rfl)
    · simp only [hpath, and_false, false_or]
      by_cases hnone : event.send = none
      · rw [hsent, if_pos hnone]
      · rw [hsent, if_neg hnone]
        exact hsend.resolve_left hnone path hpath

/-- Where the watched files are right, they stay right exactly if the event is harmless. -/
theorem covered_handleEvent_iff {s : WatchState} {event : FileEvent} (hs : s.Covered configPath) :
    (s.handleEvent configPath event).2.Covered configPath ↔ s.Harmless configPath event := by
  cases handleEvent_handled configPath s event with
  | unchanged hpublish hstate =>
    rw [hstate]
    exact iff_of_true hs fun config hp => absurd hp (hpublish config)
  | published config hp _ hwatched hsent =>
    rw [covered_of_published configPath hwatched hsent]
    refine ⟨fun h config' hp' => ?_, fun h => h config hp⟩
    obtain rfl := Outcome.ok.inj (hp.2.1.symm.trans hp'.2.1)
    exact h

/-! ## Sequences of events -/

/-- The first watcher watches the configuration file, and that is right when the first
configuration names no other. -/
theorem covered_new_iff {config : HashMap SocketAddr (Arc Rule)} {s : WatchState}
    {firstWatcher secondWatcher watchConfig : Option Error}
    (h : new configPath config firstWatcher secondWatcher watchConfig = .ok s) :
    s.Covered configPath ↔ ∀ path, DependsOn config path → path = configPath := by
  have hs : s = ⟨[configPath], config⟩ := by
    unfold new at h
    repeat' split at h
    all_goals first | exact (Except.ok.inj h).symm | exact absurd h (by simp)
  rw [hs]
  constructor
  · intro hcovered path hpath
    exact List.mem_singleton.mp ((hcovered path).mpr (Or.inr hpath))
  · intro hfiles path
    rw [List.mem_singleton]
    exact ⟨Or.inl, fun hor => hor.elim id (hfiles path)⟩

/-- **When the watcher watches what the running configuration depends on.**  After
`ConfigWatcher::new` has succeeded, and for every sequence of file events and of failures on
the way: the watched files are right in every state reached if and only if the first
configuration depends on no file beside the configuration file, and the failures
that `handle_event` ignores make no difference.  And a call that returns an error always
leaves everything as it was. -/
theorem covered_iff (config : HashMap SocketAddr (Arc Rule)) (s₀ : WatchState)
    (firstWatcher secondWatcher watchConfig : Option Error)
    (hnew : new configPath config firstWatcher secondWatcher watchConfig = .ok s₀)
    (events : List FileEvent) :
    ((∀ pre post s, events = pre ++ post → run (step configPath) s₀ pre = some s →
          s.Covered configPath) ↔
        (∀ path, DependsOn config path → path = configPath) ∧
          Allowed (step configPath) (Harmless configPath) s₀ events) ∧
      ∀ (s : WatchState) (event : FileEvent) (e : Error),
        (s.handleEvent configPath event).1 = .err e → (s.handleEvent configPath event).2 = s := by
  refine ⟨?_, fun s event e => handleEvent_of_err configPath⟩
  rw [← covered_new_iff configPath hnew]
  refine reached_iff_allowed fun s event => ⟨_, rfl, fun hs => ?_⟩
  exact covered_handleEvent_iff configPath hs

/-- The configuration with one rule of one upstream. -/
def ruleWith (up : Upstream) : HashMap SocketAddr (Arc Rule) :=
  AList.insert localAddrV4 ⟨0, ⟨.tls, ⟨up, []⟩⟩⟩ ∅

theorem parseConfig_secureOnly :
    (Loader.disk Loader.secureOnly false).parseConfig "config.yaml" =
      .ok (ruleWith Loader.secureUpstream) := by
  rw [Loader.parseConfig_disk]
  simp only [Loader.secureOnly, Loader.oneRule, Loader.collectRules, Loader.rule, Loader.ups,
    NonEmpty.toList, List.flatMap_cons, List.flatMap_nil, Loader.upstream_secure]
  rfl

theorem filesOf_secure : filesOf (ruleWith Loader.secureUpstream) = ["key.pem", "cert.pem"] := by
  decide

/-- TLS termination is added to the configuration, and then the key becomes unreadable for
the watcher. -/
def tlsAdded : List FileEvent :=
  [{ kind := some .modify, env := .disk Loader.secureOnly false },
    { kind := some .modify, env := .disk Loader.secureOnly false,
      watch := fun path => if path = "key.pem" then some ["Permission denied"] else none }]

/-- Where that ends. -/
def afterTlsAdded : WatchState :=
  ⟨["config.yaml", "key.pem", "cert.pem"], ruleWith Loader.secureUpstream⟩

theorem covered_iff_tlsAdded :
    ∃ s₀, new "config.yaml" (ruleWith Loader.plainUpstream) none none none = .ok s₀ ∧
      run (step "config.yaml") s₀ tlsAdded = some afterTlsAdded ∧
      afterTlsAdded.Covered "config.yaml" := by
  have hplain : ∀ path, ¬ DependsOn (ruleWith Loader.plainUpstream) path := by
    have hnone : filesOf (ruleWith Loader.plainUpstream) = [] := rfl
    intro path h
    rw [← mem_filesOf, hnone] at h
    exact absurd h (by simp)
  have hfirst : step "config.yaml" ⟨["config.yaml"], ruleWith Loader.plainUpstream⟩
      { kind := some .modify, env := .disk Loader.secureOnly false } = some afterTlsAdded := by
    simp only [step, handleEvent, parseConfig_secureOnly, filesOf_secure]
    rfl
  have hsecond : step "config.yaml" afterTlsAdded
      { kind := some .modify, env := .disk Loader.secureOnly false,
        watch := fun path => if path = "key.pem" then some ["Permission denied"] else none } =
      some afterTlsAdded := by
    simp only [step, handleEvent, parseConfig_secureOnly, filesOf_secure]
    rfl
  have hrun : run (step "config.yaml") ⟨["config.yaml"], ruleWith Loader.plainUpstream⟩ tlsAdded =
      some afterTlsAdded := run_cons_eq_some.mpr ⟨_, hfirst, run_cons_eq_some.mpr ⟨_, hsecond, rfl⟩⟩
  refine ⟨_, rfl, hrun, ?_⟩
  refine (covered_iff "config.yaml" (ruleWith Loader.plainUpstream) _ none none none rfl
    tlsAdded).1.mpr ⟨fun path h => absurd h (hplain path), ?_⟩ tlsAdded [] _
    (List.append_nil _).symm hrun
  exact .cons (fun _ _ => ⟨Or.inl rfl, Or.inl rfl⟩) hfirst
    (.cons (fun _ _ => ⟨Or.inl rfl, Or.inl rfl⟩) hsecond .nil)

/-- **The certificate of the first configuration is not watched.** -/
theorem not_covered_first_configuration :
    ∃ s₀, new "config.yaml" (ruleWith Loader.secureUpstream) none none none = .ok s₀ ∧
      s₀.watched = ["config.yaml"] ∧ DependsOn s₀.lastSent "cert.pem" ∧
      DependsOn s₀.lastSent "key.pem" ∧ ¬ s₀.Covered "config.yaml" := by
  have hfiles : ∀ path ∈ ["key.pem", "cert.pem"],
      DependsOn (ruleWith Loader.secureUpstream) path :=
    fun path hpath => mem_filesOf.mp (filesOf_secure ▸ hpath)
  refine ⟨_, rfl, rfl, hfiles _ (by simp), hfiles _ (by simp), fun h => ?_⟩
  exact absurd ((h "cert.pem").mpr (Or.inr (hfiles _ (by simp)))) (by decide)

end WatchState
end Turbine
