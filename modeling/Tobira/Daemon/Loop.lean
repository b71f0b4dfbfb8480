import Tobira.Daemon.Reload
import Tobira.Framework.Halt

namespace Tobira.Daemon

open Tobira.Framework Tobira.Http Tobira.Subscription Tobira.Vmess

/-- The kinds of a `notify` event. -/
inductive EventKind where
  | any
  | access
  | create
  | modify
  | remove
  | other
  deriving DecidableEq,Repr

structure FsEvent (P : Type) where
  paths : List P
  kind : EventKind
  deriving DecidableEq,Repr

/-- What `watch_file` asks of paths: a path joined to an absolute one is absolute. -/
structure Paths (P : Type) where
  isAbsolute : P → Bool
  join : P → P → P
  parent : P → Option P
  dot : P
  join_absolute : ∀ base p, isAbsolute base=true → isAbsolute (join base p)=true

/-- What `watch_file` compares the paths of an event with. -/
structure Watch (P : Type) where
  paths : Paths P
  watchDir : P
  target : P
  absolute : paths.isAbsolute target=true

/-- `watch_file` up to its loop, started in the absolute directory `cwd`. Without one, `notify`
cannot watch a relative directory. -/
def Watch.new {P : Type} (paths : Paths P) (cwd : Option { p : P // paths.isAbsolute p=true })
    (requested : P) : Option (Watch P) :=
  if h : paths.isAbsolute requested=true then
    some ⟨paths,(paths.parent requested).getD paths.dot,requested,h⟩
  else cwd.map (fun cwd =>
    let target := paths.join cwd.1 requested
    ⟨paths,(paths.parent target).getD paths.dot,target,paths.join_absolute _ _ cwd.2⟩)

/-- What can happen to the file. -/
inductive FileChange where
  | created
  | written
  | renamed
  | removed
  | unclear
  deriving DecidableEq,Repr

/-- The kind of event that `notify` reports it with. -/
def FileChange.kind : FileChange → EventKind
  | .created => .create
  | .written | .renamed => .modify
  | .removed => .remove
  | .unclear => .any

def EventKind.triggers : EventKind → Bool
  | .modify | .create | .remove | .any => true
  | _ => false

section Watching
variable {P : Type} [DecidableEq P]

def Watch.touchesTarget (w : Watch P) (ev : FsEvent P) : Bool :=
  ev.paths.any (fun p =>
    decide ((if w.paths.isAbsolute p then p else w.paths.join w.watchDir p)=w.target))

def Watch.triggers (w : Watch P) (ev : FsEvent P) : Bool := w.touchesTarget ev && ev.kind.triggers

/-- What `notify` promises of a change of the file: an event of its kind with the file's absolute
path. -/
def Watch.Announces (w : Watch P) (change : FileChange) (ev : FsEvent P) : Prop :=
  ev.kind=change.kind ∧ w.target∈ev.paths

instance (w : Watch P) (change : FileChange) (ev : FsEvent P) : Decidable (w.Announces change ev) :=
  inferInstanceAs (Decidable (_ ∧ _))

/-- `watch_file` lets through what announces a change of the file. -/
theorem announced_triggers {w : Watch P} {change : FileChange} {ev : FsEvent P}
    (h : w.Announces change ev) : w.triggers ev=true := by
  have hkind : ev.kind.triggers=true := by
    rw [h.1]
    cases change <;> rfl
  have htouches : w.touchesTarget ev=true := by
    rw [Watch.touchesTarget,List.any_eq_true]
    refine ⟨w.target,h.2,?_⟩
    rw [if_pos w.absolute]
    exact decide_eq_true rfl
  rw [Watch.triggers,htouches,hkind]
  rfl

end Watching

/-- Where `main` stands: at the `select!` of its loop, in an attempt to load the file or in the
rest of `reload_full`, in `reload_subs`, or out of the loop. -/
inductive Main where
  | select
  | loading (attempt : Nat)
  | fetching (cfg : Config)
  | refreshing
  | stopped

def Main.ended : Main → Bool
  | .stopped => true
  | _ => false

/-- The tasks that end up in the loop of `main`, with the file they watch. Each of `watcher`,
`usr1` and `timer` says that the task is in its `send`; `changed` and `last` are read by no
step: whether the file has changed since a full reload last read it, and what the last full
reload read and whether it succeeded. -/
structure Process (σ P : Type) where
  daemon : State σ
  file : Except ConfigError Config
  events : List (FsEvent P)
  watcher : Bool
  signal : Bool
  usr1 : Bool
  timer : Bool
  full : Nat
  subs : Nat
  quit : Bool
  main : Main
  changed : Bool
  last : Option (Except ConfigError Config×Bool)

/-- The process when the watcher has started. -/
def Process.new {σ : Type} (P : Type) (daemon : State σ) (file : Except ConfigError Config) :
    Process σ P where
  daemon := daemon
  file := file
  events := []
  watcher := false
  signal := false
  usr1 := false
  timer := false
  full := 0
  subs := 0
  quit := false
  main := .select
  changed := false
  last := none

inductive LoopAction (P : Type) where
  | change (file : Except ConfigError Config) (how : FileChange) (ev : FsEvent P)
  | noise (ev : FsEvent P)
  | sigusr1
  | sleepOver
  | shutdown
  | watch
  | watchSend
  | usr1
  | usr1Send
  | timerSend
  | stop
  | recvFull
  | load
  | fetched (env : Env)
  | recvSubs
  | refreshed (env : Env)

/-- What the process does by itself. -/
def LoopAction.own {P : Type} : LoopAction P → Prop
  | .change _ _ _ | .noise _ | .sigusr1 | .sleepOver | .shutdown => False
  | _ => True

/-- `mpsc::channel::<()>(4)`. -/
def channelSize : Nat := 4

/-- `max_attempts` of `load_config_with_retry`. -/
def maxAttempts : Nat := 6

section
variable {σ P : Type}

/-- The last attempt of a full reload gave an error. -/
def Process.loadFailed (p : Process σ P) : Process σ P :=
  { p with main := .select,changed := false,last := some (p.file,false) }

def loadAttempt (p : Process σ P) (attempt : Nat) : Process σ P :=
  match p.file with
  | .ok cfg => { p with main := .fetching cfg,changed := false }
  | .error .notFound =>
    if attempt < maxAttempts then { p with main := .loading (attempt+1) } else p.loadFailed
  | .error (.other _) => p.loadFailed

/-- A reload ends in the loop of `main`, or ends it with a panic. -/
def Process.finish (p : Process σ P) (cfg : Config) :
    State σ×Except (Fault DaemonError) Nat → Process σ P
  | (d,.ok _) => { p with daemon := d,main := .select,last := some (.ok cfg,true) }
  | (d,.error (.error _)) => { p with daemon := d,main := .select,last := some (.ok cfg,false) }
  | (d,.error (.panic _)) => { p with daemon := d,main := .stopped }

def fetchedFull (crates : DaemonCrates) (p : Process σ P) (cfg : Config) (env : Env) :
    Process σ P :=
  match loadSubscriptions crates cfg.subscription env.reads env.content with
  | .error e => p.finish cfg (p.daemon,.error e)
  | .ok loaded => p.finish cfg (commitFull crates p.daemon env cfg loaded)

def Process.refreshed (p : Process σ P) : State σ×Except (Fault DaemonError) Nat → Process σ P
  | (d,.error (.panic _)) => { p with daemon := d,main := .stopped }
  | (d,_) => { p with daemon := d,main := .select }

variable [DecidableEq P]

/-- The `select!`s poll `quit_rx` first, and the full reloads before the others. -/
def loopStep (crates : DaemonCrates) (w : Watch P) (p : Process σ P) :
    LoopAction P → Option (Process σ P)
  | .change file how ev =>
    if w.Announces how ev then
      some { p with file := file,events := p.events++[ev],changed := true }
    else none
  | .noise ev => some { p with events := p.events++[ev] }
  | .sigusr1 => some { p with signal := true }
  | .sleepOver => if p.timer then none else some { p with timer := true }
  | .shutdown => some { p with quit := true }
  | .watch =>
    match p.watcher,p.events with
    | false,ev::events => some { p with events := events,watcher := w.triggers ev }
    | _,_ => none
  | .watchSend =>
    if p.watcher=true ∧ p.full<channelSize then
      some { p with watcher := false,full := p.full+1 }
    else none
  | .usr1 =>
    if p.signal=true ∧ p.usr1=false then some { p with signal := false,usr1 := true } else none
  | .usr1Send =>
    if p.usr1=true ∧ p.full<channelSize then some { p with usr1 := false,full := p.full+1 }
    else none
  | .timerSend =>
    if p.timer=true ∧ p.subs<channelSize then some { p with timer := false,subs := p.subs+1 }
    else none
  | .stop =>
    if p.quit=true ∧ p.main.ended=false then some { p with main := .stopped } else none
  | .recvFull =>
    match p.quit,p.main,p.full with
    | false,.select,n+1 => some { p with full := n,main := .loading 1 }
    | _,_,_ => none
  | .load =>
    match p.quit,p.main with
    | false,.loading attempt => some (loadAttempt p attempt)
    | _,_ => none
  | .fetched env =>
    match p.quit,p.main with
    | false,.fetching cfg => some (fetchedFull crates p cfg env)
    | _,_ => none
  | .recvSubs =>
    match p.quit,p.main,p.full,p.subs with
    | false,.select,0,n+1 => some { p with subs := n,main := .refreshing }
    | _,_,_,_ => none
  | .refreshed env =>
    match p.quit,p.main with
    | false,.refreshing => some (p.refreshed (reloadSubs crates p.daemon env))
    | _,_ => none

/-- The daemon runs on what the file says, its listener settings apart. -/
structure Applied (d : State σ) (cfg : Config) : Prop where
  config : d.sharedCfg=(preserveRunningRelay cfg d.sharedCfg.relay).1
  users : d.httpState.users=cfg.http.users
  relayIdle : d.relayIdleTimeout=durationFromSeconds cfg.relay.idleTimeout
  poolIdle : d.poolIdleTimeout=durationFromSeconds cfg.relay.grpcPoolIdleTimeout

/-- Only the listener settings of the running relay matter. -/
theorem preserveRunningRelay_again (cfg : Config) (running : RelayConfig) :
    preserveRunningRelay cfg (preserveRunningRelay cfg running).1.relay=
      preserveRunningRelay cfg running := by
  obtain ⟨hlisten,hport,hnetwork,hservice⟩ := preserveRunningRelay_spec cfg running
  generalize (preserveRunningRelay cfg running).1.relay=again at hlisten hport hnetwork hservice
  simp only [preserveRunningRelay,hlisten,hport,hnetwork,hservice]

theorem preserveRunningRelay_rest (cfg : Config) (running : RelayConfig) :
    (preserveRunningRelay cfg running).1.http=cfg.http ∧
      (preserveRunningRelay cfg running).1.relay.idleTimeout=cfg.relay.idleTimeout ∧
      (preserveRunningRelay cfg running).1.relay.grpcPoolIdleTimeout=
        cfg.relay.grpcPoolIdleTimeout := by
  simp only [preserveRunningRelay]
  split_ifs <;> exact ⟨rfl,rfl,rfl⟩

theorem commitFull_applied {crates : DaemonCrates} {d d' : State σ} {env : Env} {cfg : Config}
    {loaded : LoadedSubscriptions} {n : Nat}
    (h : commitFull crates d env cfg loaded=(d',.ok n)) : Applied d' cfg := by
  obtain ⟨hhttp,hidle,hpool⟩ := preserveRunningRelay_rest cfg d.sharedCfg.relay
  simp only [commitFull] at h
  split at h
  · cases h
  · split at h
    · cases h
    · next hnew =>
      cases h
      refine ⟨?_,?_,?_,?_⟩
      · exact (congrArg Prod.fst (preserveRunningRelay_again cfg d.sharedCfg.relay)).symm
      · rw [(httpState_new_ok hnew).1,hhttp]
      · exact congrArg durationFromSeconds hidle
      · exact congrArg durationFromSeconds hpool

/-- A refresh of the subscriptions leaves the settings alone. -/
theorem reloadSubs_applied {crates : DaemonCrates} {d d' : State σ} {env : Env} {cfg : Config}
    {r : Except (Fault DaemonError) Nat} (ha : Applied d cfg)
    (h : reloadSubs crates d env=(d',r)) : Applied d' cfg := by
  simp only [reloadSubs] at h
  split at h
  · cases h
    exact ha
  · simp only [commitSubs] at h
    split at h
    · cases h
      exact ⟨ha.config,ha.users,ha.relayIdle,ha.poolIdle⟩
    · next hnew =>
      cases h
      exact ⟨ha.config,(httpState_new_ok hnew).1.trans ha.users,ha.relayIdle,ha.poolIdle⟩

/-- A reload that has yet to read the file is on its way. -/
def Pending (w : Watch P) (p : Process σ P) : Prop :=
  (∃ ev∈p.events, w.triggers ev=true) ∨ p.watcher=true ∨ 0<p.full ∨
    (∃ n, p.main=.loading n) ∨ p.main=.stopped

theorem Pending.outside {w : Watch P} {p p' : Process σ P} (h : Pending w p)
    (he : p'.events=p.events) (hw : p'.watcher=p.watcher) (hf : p'.full=p.full)
    (hl : ∀ n, p.main≠.loading n) (hs : p.main≠.stopped) : Pending w p' := by
  rcases h with h|h|h|⟨n,h⟩|h
  · exact Or.inl (he ▸ h)
  · exact Or.inr (Or.inl (hw ▸ h))
  · exact Or.inr (Or.inr (Or.inl (hf ▸ h)))
  · exact absurd h (hl n)
  · exact absurd h hs

/-- What the last full reload made of the file as it is. -/
def Settled (file : Except ConfigError Config) (p : Process σ P) : Prop :=
  (p.last=none ∧ p.file=file) ∨
    ∃ ok, p.last=some (p.file,ok) ∧ (ok=true → ∃ cfg, p.file=.ok cfg ∧ Applied p.daemon cfg)

/-- Every change of the file that no reload has read has one on its way, and without such a
change the loop knows the file; `file` is what it was when the watcher started. -/
structure Heard (w : Watch P) (file : Except ConfigError Config) (p : Process σ P) : Prop where
  changed : p.changed=true → Pending w p
  attempts : ∀ {n}, p.main=.loading n → n ≤ maxAttempts
  fetching : p.changed=false → ∀ {cfg}, p.main=.fetching cfg → p.file=.ok cfg
  settled : p.changed=false → p.main=.select ∨ p.main=.refreshing → Settled file p

theorem heard_new (w : Watch P) (d : State σ) (file : Except ConfigError Config) :
    Heard w file (Process.new P d file) where
  changed := fun h => by cases h
  attempts := fun h => by cases h
  fetching := fun _ _ h => by cases h
  settled := fun _ _ => Or.inl ⟨rfl,rfl⟩

theorem heard_stopped {w : Watch P} {file : Except ConfigError Config} {p : Process σ P}
    (hm : p.main=.stopped) : Heard w file p where
  changed := fun _ => Or.inr (Or.inr (Or.inr (Or.inr hm)))
  attempts := fun h => by
    rw [hm] at h
    cases h
  fetching := fun _ _ h => by
    rw [hm] at h
    cases h
  settled := fun _ h => by
    rw [hm] at h
    rcases h with h|h <;> cases h

/-- A step that leaves the file, the daemon and `main` alone. -/
theorem Heard.aside {w : Watch P} {file : Except ConfigError Config} {p p' : Process σ P}
    (h : Heard w file p) (hp : Pending w p → Pending w p') (hc : p'.changed=p.changed)
    (hf : p'.file=p.file) (hm : p'.main=p.main) (hd : p'.daemon=p.daemon) (hl : p'.last=p.last) :
    Heard w file p' where
  changed := fun hx => hp (h.changed (hc ▸ hx))
  attempts := fun hx => h.attempts (hm ▸ hx)
  fetching := fun hx _ hy => by
    rw [hf]
    exact h.fetching (hc ▸ hx) (hm ▸ hy)
  settled := fun hx hy => by
    rw [Settled,hl,hf,hd]
    exact h.settled (hc ▸ hx) (hm ▸ hy)

/-- An attempt reads the file, or another one is to come. -/
theorem heard_loadAttempt (w : Watch P) (file : Except ConfigError Config) (p : Process σ P)
    (n : Nat) : Heard w file (loadAttempt p n) := by
  have failed : Heard w file p.loadFailed := by
    refine ⟨fun hx => (by cases hx),fun hx => (by cases hx),fun _ _ hx => (by cases hx),?_⟩
    exact fun _ _ => Or.inr ⟨false,rfl,fun hx => by cases hx⟩
  simp only [loadAttempt]
  split
  · next cfg hcfg =>
    refine ⟨fun hx => (by cases hx),fun hx => (by cases hx),?_,?_⟩
    · intro _ cfg' hx
      cases hx
      exact hcfg
    · rintro _ (hx|hx) <;> cases hx
  · split_ifs with hlt
    · refine ⟨fun _ => Or.inr (Or.inr (Or.inr (Or.inl ⟨_,rfl⟩))),?_,fun _ _ hx => (by cases hx),?_⟩
      · intro k hx
        cases hx
        exact hlt
      · rintro _ (hx|hx) <;> cases hx
    · exact failed
  · exact failed

/-- A reload that has read the file ends. -/
theorem Heard.finish {w : Watch P} {file : Except ConfigError Config} {p : Process σ P}
    {cfg : Config} (h : Heard w file p) (hm : p.main=.fetching cfg) (d : State σ)
    (r : Except (Fault DaemonError) Nat) (ha : ∀ n, r=.ok n → Applied d cfg) :
    Heard w file (p.finish cfg (d,r)) := by
  -- A change since the read has its event; nothing of what is pending goes away.
  have pending {p' : Process σ P} (he : p'.events=p.events) (hw : p'.watcher=p.watcher)
      (hf : p'.full=p.full) (hx : p.changed=true) : Pending w p' :=
    (h.changed hx).outside he hw hf (fun n => by rw [hm]; simp) (by rw [hm]; simp)
  cases r with
  | ok n =>
    refine ⟨fun hx => pending rfl rfl rfl hx,fun hx => (by cases hx),
      fun _ _ hx => (by cases hx),fun hx _ => Or.inr ⟨true,?_,fun _ => ⟨cfg,h.fetching hx hm,ha n rfl⟩⟩⟩
    exact congrArg (fun f => some (f,true)) (h.fetching hx hm).symm
  | error e =>
    cases e with
    | error e =>
      refine ⟨fun hx => pending rfl rfl rfl hx,fun hx => (by cases hx),
        fun _ _ hx => (by cases hx),fun hx _ => Or.inr ⟨false,?_,fun hx => (by cases hx)⟩⟩
      exact congrArg (fun f => some (f,false)) (h.fetching hx hm).symm
    | panic e => exact heard_stopped rfl

theorem Heard.fetched {w : Watch P} {file : Except ConfigError Config} {p : Process σ P}
    {cfg : Config} (h : Heard w file p) (hm : p.main=.fetching cfg) (crates : DaemonCrates)
    (env : Env) : Heard w file (fetchedFull crates p cfg env) := by
  simp only [fetchedFull]
  split
  · exact h.finish hm _ _ (fun n hx => by cases hx)
  · next loaded hl =>
    cases hc : commitFull crates p.daemon env cfg loaded with
    | mk d r =>
      refine h.finish hm d r (fun n hr => ?_)
      subst hr
      exact commitFull_applied hc

theorem Heard.refreshed {w : Watch P} {file : Except ConfigError Config} {p : Process σ P}
    (h : Heard w file p) (hm : p.main=.refreshing) (crates : DaemonCrates) (env : Env) :
    Heard w file (p.refreshed (reloadSubs crates p.daemon env)) := by
  have pending {p' : Process σ P} (he : p'.events=p.events) (hw : p'.watcher=p.watcher)
      (hf : p'.full=p.full) (hx : p.changed=true) : Pending w p' :=
    (h.changed hx).outside he hw hf (fun n => by rw [hm]; simp) (by rw [hm]; simp)
  cases hr : reloadSubs crates p.daemon env with
  | mk d r =>
    have settled (hx : p.changed=false) :
        Settled file { p with daemon := d,main := .select } := by
      rcases h.settled hx (Or.inr hm) with hs|⟨ok,hs,ha⟩
      · exact Or.inl hs
      · refine Or.inr ⟨ok,hs,fun ht => ?_⟩
        obtain ⟨cfg,hcfg,ha⟩ := ha ht
        exact ⟨cfg,hcfg,reloadSubs_applied ha hr⟩
    have back : Heard w file { p with daemon := d,main := .select } :=
      ⟨fun hx => pending rfl rfl rfl hx,fun hx => (by cases hx),
        fun _ _ hx => (by cases hx),fun hx _ => settled hx⟩
    cases r with
    | ok n => exact back
    | error e =>
      cases e with
      | error e => exact back
      | panic e => exact heard_stopped rfl

theorem Heard.step {crates : DaemonCrates} {w : Watch P} {file : Except ConfigError Config}
    {p p' : Process σ P} {a : LoopAction P} (h : Heard w file p)
    (hs : loopStep crates w p a=some p') : Heard w file p' := by
  cases a with
  | change new how ev =>
    simp only [loopStep] at hs
    split_ifs at hs with hev
    cases hs
    have hp : ∃ e∈p.events++[ev], w.triggers e=true := ⟨ev,by simp,announced_triggers hev⟩
    exact ⟨fun _ => Or.inl hp,h.attempts,fun hx => (by cases hx),fun hx => (by cases hx)⟩
  | noise ev =>
    cases hs
    refine h.aside ?_ rfl rfl rfl rfl rfl
    rintro (⟨e,he,ht⟩|hp)
    · exact Or.inl ⟨e,List.mem_append_left _ he,ht⟩
    · exact Or.inr hp
  | sigusr1 =>
    cases hs
    exact h.aside (fun hp => hp) rfl rfl rfl rfl rfl
  | sleepOver =>
    simp only [loopStep] at hs
    split_ifs at hs
    cases hs
    exact h.aside (fun hp => hp) rfl rfl rfl rfl rfl
  | shutdown =>
    cases hs
    exact h.aside (fun hp => hp) rfl rfl rfl rfl rfl
  | watch =>
    simp only [loopStep] at hs
    split at hs <;> cases hs
    next ev events hw he =>
    refine h.aside ?_ rfl rfl rfl rfl rfl
    -- The event leaves the queue for the send that it triggers.
    rintro (⟨e,hmem,ht⟩|hp|hp)
    · rw [he] at hmem
      rcases List.mem_cons.mp hmem with rfl|hmem
      · exact Or.inr (Or.inl ht)
      · exact Or.inl ⟨e,hmem,ht⟩
    · rw [hw] at hp
      cases hp
    · exact Or.inr (Or.inr hp)
  | watchSend =>
    simp only [loopStep] at hs
    split_ifs at hs
    cases hs
    exact h.aside (fun _ => Or.inr (Or.inr (Or.inl (Nat.succ_pos _)))) rfl rfl rfl rfl rfl
  | usr1 =>
    simp only [loopStep] at hs
    split_ifs at hs
    cases hs
    exact h.aside (fun hp => hp) rfl rfl rfl rfl rfl
  | usr1Send =>
    simp only [loopStep] at hs
    split_ifs at hs
    cases hs
    exact h.aside (fun _ => Or.inr (Or.inr (Or.inl (Nat.succ_pos _)))) rfl rfl rfl rfl rfl
  | timerSend =>
    simp only [loopStep] at hs
    split_ifs at hs
    cases hs
    exact h.aside (fun hp => hp) rfl rfl rfl rfl rfl
  | stop =>
    simp only [loopStep] at hs
    split_ifs at hs
    cases hs
    exact heard_stopped rfl
  | recvFull =>
    simp only [loopStep] at hs
    split at hs <;> cases hs
    refine ⟨fun _ => Or.inr (Or.inr (Or.inr (Or.inl ⟨1,rfl⟩))),?_,fun _ _ hx => (by cases hx),?_⟩
    · intro n hx
      cases hx
      decide
    · rintro _ (hx|hx) <;> cases hx
  | load =>
    simp only [loopStep] at hs
    split at hs <;> cases hs
    exact heard_loadAttempt w file p _
  | fetched env =>
    simp only [loopStep] at hs
    split at hs <;> cases hs
    next hm => exact h.fetched hm crates env
  | recvSubs =>
    simp only [loopStep] at hs
    split at hs <;> cases hs
    next hm hf hn =>
    refine ⟨?_,fun hx => (by cases hx),fun _ _ hx => (by cases hx),?_⟩
    · exact fun hx => (h.changed hx).outside rfl rfl rfl (fun n => by rw [hm]; simp) (by rw [hm]; simp)
    · exact fun hx _ => h.settled hx (Or.inl hm)
  | refreshed env =>
    simp only [loopStep] at hs
    split at hs <;> cases hs
    next hm => exact h.refreshed hm crates env

def Main.work : Main → Nat
  | .select => 1
  | .loading attempt => 9-attempt
  | .fetching _ => 2
  | .refreshing => 2
  | .stopped => 0

/-- A bound on what the process still does by itself. -/
def Process.work (p : Process σ P) : Nat :=
  10*p.events.length+9*p.watcher.toNat+10*p.signal.toNat+9*p.usr1.toNat+8*p.full+
    3*p.timer.toNat+2*p.subs+p.main.work

omit [DecidableEq P] in
theorem work_finish (p : Process σ P) (cfg : Config)
    (r : State σ×Except (Fault DaemonError) Nat) :
    (p.finish cfg r).work ≤ { p with main := .select }.work := by
  rcases r with ⟨d,n|e⟩
  · cases n <;> simp [Process.finish,Process.work,Main.work]
  · simp [Process.finish,Process.work,Main.work]

omit [DecidableEq P] in
theorem work_refreshed (p : Process σ P) (r : State σ×Except (Fault DaemonError) Nat) :
    (p.refreshed r).work ≤ { p with main := .select }.work := by
  rcases r with ⟨d,n|e⟩
  · cases n <;> simp [Process.refreshed,Process.work,Main.work]
  · simp [Process.refreshed,Process.work,Main.work]

omit [DecidableEq P] in
theorem work_load {p : Process σ P} {n : Nat} (hm : p.main=.loading n) (hn : n ≤ maxAttempts) :
    (loadAttempt p n).work<p.work := by
  have hn : n ≤ 6 := hn
  have hw : p.work={ p with main := .select }.work+(8-n) := by
    simp only [Process.work,hm,Main.work]
    omega
  simp only [loadAttempt]
  split
  · rw [hw]
    simp only [Process.work,Main.work]
    omega
  · split_ifs with hlt
    · rw [hw]
      simp only [Process.work,Main.work]
      have hlt : n<6 := hlt
      omega
    · rw [hw]
      simp only [Process.loadFailed,Process.work,Main.work]
      omega
  · rw [hw]
    simp only [Process.loadFailed,Process.work,Main.work]
    omega

/-- Everything the process does by itself is done with. -/
theorem work_step {crates : DaemonCrates} {w : Watch P} {file : Except ConfigError Config}
    {p p' : Process σ P} {a : LoopAction P} (h : Heard w file p) (ha : a.own)
    (hs : loopStep crates w p a=some p') : p'.work<p.work := by
  cases a with
  | watch =>
    simp only [loopStep] at hs
    split at hs <;> cases hs
    next ev events hw he =>
    have hb := Bool.toNat_le (w.triggers ev)
    simp only [Process.work,hw,he,List.length_cons,Bool.toNat_false]
    omega
  | watchSend =>
    simp only [loopStep] at hs
    split_ifs at hs with hc
    cases hs
    simp only [Process.work,hc.1,Bool.toNat_true,Bool.toNat_false]
    omega
  | usr1 =>
    simp only [loopStep] at hs
    split_ifs at hs with hc
    cases hs
    simp only [Process.work,hc.1,hc.2,Bool.toNat_true,Bool.toNat_false]
    omega
  | usr1Send =>
    simp only [loopStep] at hs
    split_ifs at hs with hc
    cases hs
    simp only [Process.work,hc.1,Bool.toNat_true,Bool.toNat_false]
    omega
  | timerSend =>
    simp only [loopStep] at hs
    split_ifs at hs with hc
    cases hs
    simp only [Process.work,hc.1,Bool.toNat_true,Bool.toNat_false]
    omega
  | stop =>
    simp only [loopStep] at hs
    split_ifs at hs with hc
    cases hs
    have hpos : 0<p.main.work := by
      cases hm : p.main with
      | stopped =>
        rw [hm] at hc
        cases hc.2
      | loading n =>
        have hn : n ≤ 6 := h.attempts hm
        simp only [Main.work]
        omega
      | _ => simp [Main.work]
    have hzero : Main.stopped.work=0 := rfl
    simp only [Process.work,hzero]
    omega
  | recvFull =>
    simp only [loopStep] at hs
    split at hs <;> cases hs
    next hm hf =>
    simp only [Process.work,Main.work,hm,hf]
    omega
  | load =>
    simp only [loopStep] at hs
    split at hs <;> cases hs
    next hm => exact work_load hm (h.attempts hm)
  | fetched env =>
    simp only [loopStep] at hs
    split at hs <;> cases hs
    next cfg hq hm =>
    have hw : { p with main := .select }.work<p.work := by
      simp only [Process.work,Main.work,hm]
      omega
    simp only [fetchedFull]
    split <;> exact Nat.lt_of_le_of_lt (work_finish p cfg _) hw
  | recvSubs =>
    simp only [loopStep] at hs
    split at hs <;> cases hs
    next hm hf hn =>
    simp only [Process.work,Main.work,hm,hf,hn]
    omega
  | refreshed env =>
    simp only [loopStep] at hs
    split at hs <;> cases hs
    next hm =>
    refine Nat.lt_of_le_of_lt (work_refreshed p _) ?_
    simp only [Process.work,Main.work,hm]
    omega
  | _ => exact ha.elim

/-- A process that can do nothing by itself has ended, or waits in its loop with every channel
empty: no sender and no reload is stuck. -/
theorem blocked_waits {crates : DaemonCrates} {w : Watch P} {p : Process σ P}
    (hb : Blocked (loopStep crates w) LoopAction.own p) :
    p.main=.stopped ∨ (p.main=.select ∧ p.events=[] ∧ p.watcher=false ∧ p.full=0) := by
  by_cases hs : p.main=.stopped
  · exact Or.inl hs
  right
  have hq : p.quit=false := by
    cases hq : p.quit with
    | false => rfl
    | true =>
      have h := hb .stop trivial
      have he : p.main.ended=false := by
        cases hm : p.main with
        | stopped => exact absurd hm hs
        | _ => rfl
      rw [loopStep,if_pos ⟨hq,he⟩] at h
      cases h
  have hm : p.main=.select := by
    cases hm : p.main with
    | select => rfl
    | stopped => exact absurd hm hs
    | loading n =>
      have h := hb .load trivial
      simp only [loopStep,hq,hm] at h
      cases h
    | fetching cfg =>
      have h := hb (.fetched ⟨fun _ => .error .notFound,fun _ => .error [],none,.ok ()⟩) trivial
      simp only [loopStep,hq,hm] at h
      cases h
    | refreshing =>
      have h := hb (.refreshed ⟨fun _ => .error .notFound,fun _ => .error [],none,.ok ()⟩) trivial
      simp only [loopStep,hq,hm] at h
      cases h
  have hf : p.full=0 := by
    cases hf : p.full with
    | zero => rfl
    | succ n =>
      have h := hb .recvFull trivial
      simp only [loopStep,hq,hm,hf] at h
      cases h
  have hw : p.watcher=false := by
    cases hw : p.watcher with
    | false => rfl
    | true =>
      have h := hb .watchSend trivial
      have hc : p.watcher=true ∧ p.full<channelSize := ⟨hw,by rw [hf]; decide⟩
      rw [loopStep,if_pos hc] at h
      cases h
  refine ⟨hm,?_,hw,hf⟩
  cases he : p.events with
  | nil => rfl
  | cons ev events =>
    have h := hb .watch trivial
    simp only [loopStep,hw,he] at h
    cases h

/-- No change of the config file is lost. Left to itself the process comes to rest, within the
work it has left; at rest, unless it was shut down or has panicked, the last full reload read
the file as it now is (or the file has never changed and no reload was asked for), and if that
reload succeeded the daemon runs on what the file says. -/
theorem config_changes_reach_the_daemon (crates : DaemonCrates) (w : Watch P) (d : State σ)
    (file : Except ConfigError Config) {as : List (LoopAction P)} {p : Process σ P}
    (h : run (loopStep crates w) (Process.new P d file) as=some p) :
    (∃ bs p', (∀ b∈bs, b.own) ∧ run (loopStep crates w) p bs=some p' ∧
      Blocked (loopStep crates w) LoopAction.own p') ∧
    (∀ bs p', (∀ b∈bs, b.own) → run (loopStep crates w) p bs=some p' → bs.length+p'.work ≤ p.work) ∧
    (Blocked (loopStep crates w) LoopAction.own p →
      p.main=.stopped ∨ (p.main=.select ∧ ((p.last=none ∧ p.file=file) ∨
        ∃ ok, p.last=some (p.file,ok) ∧
          (ok=true → ∃ cfg, p.file=.ok cfg ∧ Applied p.daemon cfg)))) := by
  have hh : Heard w file p :=
    run_invariant (fun _ _ _ hx hs => hx.step hs) (heard_new w d file) h
  have keep : ∀ (q : Process σ P) a q', Heard w file q → loopStep crates w q a=some q' →
      Heard w file q' := fun _ _ _ hx hs => hx.step hs
  have drop : ∀ (q : Process σ P) a q', Heard w file q → a.own → loopStep crates w q a=some q' →
      q'.work<q.work := fun _ _ _ hx ha hs => work_step hx ha hs
  refine ⟨exists_blocked keep drop hh,fun bs p' hb hr => run_length_le keep drop hh hb hr,?_⟩
  intro hb
  rcases blocked_waits hb with hm|⟨hm,he,hw,hf⟩
  · exact Or.inl hm
  · refine Or.inr ⟨hm,?_⟩
    have hc : p.changed=false := by
      cases hc : p.changed with
      | false => rfl
      | true =>
        rcases hh.changed hc with ⟨ev,hev,-⟩|hp|hp|⟨n,hp⟩|hp
        · rw [he] at hev
          cases hev
        · rw [hw] at hp
          cases hp
        · omega
        · rw [hm] at hp
          cases hp
        · rw [hm] at hp
          cases hp
    exact hh.settled hc (Or.inl hm)

end

/-- Paths as numbers: those from 10 on are absolute, and each lies in the directory 10. -/
def numberedPaths : Paths Nat where
  isAbsolute p := decide (10 ≤ p)
  join base p := base+p
  parent _ := some 10
  dot := 0
  join_absolute base p h := by
    have hbase : 10 ≤ base := of_decide_eq_true h
    exact decide_eq_true (Nat.le_add_right_of_le hbase)

/-- The watch of the file 1 of the working directory 10. -/
def plainWatch : Watch Nat := ⟨numberedPaths,10,11,rfl⟩

example : Watch.new numberedPaths (some ⟨10,rfl⟩) 1=some plainWatch := rfl

/-- The file goes away and comes back changed while a reload is under way. -/
def replaceFile : List (LoopAction Nat) :=
  [.change (.error .notFound) .removed ⟨[11],.remove⟩,.noise ⟨[12],.modify⟩,.watch,.watchSend,
    .recvFull,.load,.change (.ok changedConfig) .created ⟨[11],.create⟩,.load,
    .fetched (plainEnv changedConfig (.ok ())),.watch,.watch,.watchSend,.recvFull,.load,
    .fetched (plainEnv changedConfig (.ok ()))]

theorem config_changes_reach_the_daemon_replaced : ∃ (s : State Unit) (p : Process Unit Nat),
    run (loopStep plainDaemon plainWatch) (Process.new Nat s (.ok plainConfig)) replaceFile=some p ∧
    p.daemon.httpState.users=changedConfig.http.users ∧
    (Blocked (loopStep plainDaemon plainWatch) LoopAction.own p →
      p.main=.stopped ∨ (p.main=.select ∧ ((p.last=none ∧ p.file=.ok plainConfig) ∨
        ∃ ok, p.last=some (p.file,ok) ∧
          (ok=true → ∃ cfg, p.file=.ok cfg ∧ Applied p.daemon cfg)))) := by
  have hsome : ((start Unit plainDaemon plainConfig (fun _ => .ok oneLink) none).toOption.bind
      (fun q => (run (loopStep plainDaemon plainWatch) (Process.new Nat q.2 (.ok plainConfig))
        replaceFile).bind (fun p => if p.daemon.httpState.users=changedConfig.http.users then
          some p else none))).isSome=true := by decide +kernel
  obtain ⟨p,hp⟩ := Option.isSome_iff_exists.mp hsome
  obtain ⟨q,-,hq⟩ := Option.bind_eq_some_iff.mp hp
  obtain ⟨p',hr,hi⟩ := Option.bind_eq_some_iff.mp hq
  split_ifs at hi with hu
  exact ⟨q.2,p',hr,hu,(config_changes_reach_the_daemon plainDaemon plainWatch q.2 _ hr).2.2⟩

end Tobira.Daemon
