import Tobira.Daemon.Model
import Tobira.Http.Render
import Tobira.Subscription.Merge
import Tobira.Vmess.Identity

namespace Tobira.Daemon

open Tobira.Framework Tobira.Http Tobira.Subscription Tobira.Vmess

inductive Call where
  | full (env : Env)
  | subs (env : Env)

section
variable {σ : Type} (crates : DaemonCrates)

def call (s : State σ) : Call → State σ×Except (Fault DaemonError) Nat
  | .full env => reloadFull crates s env
  | .subs env => reloadSubs crates s env

/-- What a call loads before it changes anything. -/
def callLoad (s : State σ) : Call → Except (Fault DaemonError) LoadedSubscriptions
  | .full env => (loadFull crates env).map Prod.snd
  | .subs env => loadSubscriptions crates s.sharedCfg.subscription env.reads env.content

/-- The state with the load that its validator comes from. -/
structure Tracked (σ : Type) where
  loaded : LoadedSubscriptions
  state : State σ

/-- A call that succeeds or fails while it loads; other ends have no successor. -/
def step (t : Tracked σ) (c : Call) : Option (Tracked σ) :=
  let after := call crates t.state c
  match callLoad crates t.state c with
  | .error _ => some { t with state := after.1 }
  | .ok loaded =>
    match after.2 with
    | .ok _ => some ⟨loaded,after.1⟩
    | .error _ => none

variable {crates}

theorem preserveRunningRelay_spec (cfg : Config) (running : RelayConfig) :
    let effective := (preserveRunningRelay cfg running).1
    effective.relay.listen=running.listen ∧ effective.relay.port=running.port ∧
      effective.relay.network=running.network ∧
      effective.relay.serviceName=running.serviceName := by
  simp only [preserveRunningRelay]
  split_ifs with h
  · exact ⟨rfl,rfl,rfl,rfl⟩
  · simpa only [not_or,ne_eq,not_not] using h

theorem liftPanic_ok {α : Type} {x : Except Panic α} {a : α} (h : liftPanic x=.ok a) :
    x=.ok a := by
  cases x with
  | error p => cases h
  | ok b => exact congrArg Except.ok (Except.ok.inj h)

theorem httpState_new_ok {http : Crates} {users : List HttpUser} {outputs : List OutputConfig}
    {nodes : List VMessNode} {network : RelayNetwork} {serviceName : Text} {s : HttpState}
    (h : HttpState.new http users outputs nodes network serviceName=.ok s) :
    s.users=users ∧ outputs.mapM (renderOutput http nodes network serviceName)=.ok s.outputs := by
  obtain ⟨out,ho,rfl⟩ := map_ok h
  exact ⟨rfl,ho⟩

theorem loadSubscriptions_ok {config : SubscriptionConfig} {reads : Nat → Except Text Text}
    {content : Option Text} {loaded : LoadedSubscriptions}
    (h : loadSubscriptions crates config reads content=.ok loaded) :
    buildValidator crates.crypto crates.uriParse loaded.nodes=.ok loaded.validator := by
  simp only [loadSubscriptions] at h
  split at h
  · cases h
  · next v hv =>
    cases h
    exact hv

/-- A call whose loading fails changes nothing. -/
theorem call_load_error {s : State σ} {c : Call} {e : Fault DaemonError}
    (h : callLoad crates s c=.error e) : call crates s c=(s,.error e) := by
  cases c with
  | full env =>
    simp only [callLoad] at h
    simp only [call,reloadFull]
    cases hl : loadFull crates env with
    | error e' =>
      rw [hl] at h
      cases h
      rfl
    | ok p =>
      rw [hl] at h
      cases h
  | subs env =>
    simp only [callLoad] at h
    simp only [call,reloadSubs,h]

/-- The listener settings are those of the startup, and the validator and the HTTP state belong
to one node list. -/
structure Consistent (crates : DaemonCrates) (startup : RelayConfig) (t : Tracked σ) : Prop where
  listen : t.state.sharedCfg.relay.listen=startup.listen
  port : t.state.sharedCfg.relay.port=startup.port
  network : t.state.sharedCfg.relay.network=startup.network
  serviceName : t.state.sharedCfg.relay.serviceName=startup.serviceName
  users : t.state.httpState.users=t.state.sharedCfg.http.users
  validator : t.state.validator=t.loaded.validator
  built : buildValidator crates.crypto crates.uriParse t.loaded.nodes=.ok t.state.validator
  rendered : t.state.sharedCfg.http.outputs.mapM
    (renderOutput crates.http t.loaded.nodes startup.network startup.serviceName)=
      .ok t.state.httpState.outputs

theorem start_consistent {cfg : Config} {reads : Nat → Except Text Text} {content : Option Text}
    {loaded : LoadedSubscriptions} {s : State σ}
    (h : start σ crates cfg reads content=.ok (loaded,s)) :
    Consistent crates cfg.relay ⟨loaded,s⟩ := by
  obtain ⟨p,hp,he⟩ := map_ok h
  obtain ⟨l,hl,hp⟩ := bind_ok hp
  obtain ⟨http,hh,hp⟩ := bind_ok hp
  cases hp
  cases he
  obtain ⟨husers,hout⟩ := httpState_new_ok (liftPanic_ok hh)
  exact ⟨rfl,rfl,rfl,rfl,husers,rfl,loadSubscriptions_ok hl,hout⟩

theorem commitFull_consistent {startup : RelayConfig} {t : Tracked σ}
    (hc : Consistent crates startup t) {env : Env} {cfg : Config} {loaded : LoadedSubscriptions}
    (hb : buildValidator crates.crypto crates.uriParse loaded.nodes=.ok loaded.validator) {n : Nat}
    (hn : (commitFull crates t.state env cfg loaded).2=.ok n) :
    Consistent crates startup ⟨loaded,(commitFull crates t.state env cfg loaded).1⟩ := by
  obtain ⟨hlisten,hport,hnetwork,hservice⟩ :=
    preserveRunningRelay_spec cfg t.state.sharedCfg.relay
  simp only [commitFull] at hn ⊢
  split at hn
  · cases hn
  · split at hn
    · cases hn
    · next http hnew =>
      obtain ⟨husers,hout⟩ := httpState_new_ok hnew
      rw [hnetwork,hservice,hc.network,hc.serviceName] at hout
      exact ⟨hlisten.trans hc.listen,hport.trans hc.port,hnetwork.trans hc.network,
        hservice.trans hc.serviceName,husers,rfl,hb,hout⟩

theorem commitSubs_consistent {startup : RelayConfig} {t : Tracked σ}
    (hc : Consistent crates startup t) {loaded : LoadedSubscriptions}
    (hb : buildValidator crates.crypto crates.uriParse loaded.nodes=.ok loaded.validator) {n : Nat}
    (hn : (commitSubs crates t.state loaded).2=.ok n) :
    Consistent crates startup ⟨loaded,(commitSubs crates t.state loaded).1⟩ := by
  simp only [commitSubs] at hn ⊢
  split at hn
  · cases hn
  · next http hnew =>
    obtain ⟨husers,hout⟩ := httpState_new_ok hnew
    rw [hc.network,hc.serviceName] at hout
    exact ⟨hc.listen,hc.port,hc.network,hc.serviceName,husers.trans hc.users,rfl,hb,hout⟩

theorem step_consistent {startup : RelayConfig} {t t' : Tracked σ} {c : Call}
    (hc : Consistent crates startup t) (h : step crates t c=some t') :
    Consistent crates startup t' := by
  simp only [step] at h
  cases hl : callLoad crates t.state c with
  | error e =>
    rw [hl] at h
    cases h
    rw [call_load_error hl]
    exact hc
  | ok loaded =>
    rw [hl] at h
    simp only at h
    cases hr : (call crates t.state c).2 with
    | error e =>
      rw [hr] at h
      cases h
    | ok n =>
      rw [hr] at h
      cases h
      cases c with
      | full env =>
        simp only [callLoad] at hl
        obtain ⟨⟨cfg,l⟩,hf,rfl⟩ := map_ok hl
        simp only [call,reloadFull,hf] at hr ⊢
        apply commitFull_consistent hc ?_ hr
        rw [loadFull] at hf
        split at hf
        · cases hf
        · obtain ⟨l',hs,he⟩ := map_ok hf
          cases he
          exact loadSubscriptions_ok hs
      | subs env =>
        simp only [callLoad] at hl
        simp only [call,reloadSubs,hl] at hr ⊢
        exact commitSubs_consistent hc (loadSubscriptions_ok hl) hr

/-- Every node has an entry with its UUID. -/
theorem buildValidator_uuid {c : Crypto} {uriParse : Text → Except Text Uri}
    {nodes : List VMessNode} {v : Validator} (h : buildValidator c uriParse nodes=.ok v)
    {node : VMessNode} (hn : node∈nodes) : ∃ e∈v.entries, e.uuid=node.uuid := by
  obtain ⟨pairs,hp,h⟩ := bind_ok h
  have hnew : Validator.new c pairs=.ok v := mapError_ok h
  obtain ⟨p,hm,hf⟩ := mapM_ok_mem hp hn
  have hu : p.1=node.uuid := by
    simp only [nodePair] at hf
    split at hf
    · cases hf
    · split at hf
      · cases hf
      · cases hf
        rfl
  rw [← (new_spec hnew).1] at hm
  obtain ⟨e,he,rfl⟩ := List.mem_map.mp hm
  exact ⟨e,he,hu⟩

/-- Every node that an output renders has an entry in the validator. -/
theorem Consistent.covered {startup : RelayConfig} {t : Tracked σ}
    (h : Consistent crates startup t) (steps : List ProcessStep) {node : VMessNode}
    (hn : node∈applyPipeline crates.http.regex t.loaded.nodes steps) :
    ∃ e∈t.state.validator.entries, e.uuid=node.uuid := by
  rw [applyPipeline_eq] at hn
  obtain ⟨node',hm,ho⟩ := List.mem_filterMap.mp hn
  rw [(onNode_route ho).uuid]
  exact buildValidator_uuid h.built hm

/-- After any calls, each of which succeeded or failed while it loaded, the state is consistent
with the startup, every rendered node has an entry, and a further call that fails while it
loads changes nothing. -/
theorem reload_runs_consistent {cfg : Config} {reads : Nat → Except Text Text}
    {content : Option Text} {loaded : LoadedSubscriptions} {s : State σ}
    (hstart : start σ crates cfg reads content=.ok (loaded,s)) {calls : List Call} {t : Tracked σ}
    (hrun : run (step crates) ⟨loaded,s⟩ calls=some t) :
    Consistent crates cfg.relay t ∧
    (∀ output∈t.state.sharedCfg.http.outputs,
      ∀ node∈applyPipeline crates.http.regex t.loaded.nodes output.process,
        ∃ e∈t.state.validator.entries, e.uuid=node.uuid) ∧
    ∀ c e, callLoad crates t.state c=.error e → call crates t.state c=(t.state,.error e) := by
  have hc : Consistent crates cfg.relay t :=
    run_invariant (fun _ _ _ hi hs => step_consistent hi hs) (start_consistent hstart) hrun
  refine ⟨hc,?_,?_⟩
  · intro output _ node hn
    exact hc.covered output.process hn
  · intro c e he
    exact call_load_error he

end

/-- Nodes over TCP never reach the URI parser. -/
def plainDaemon : DaemonCrates where
  subscription := plainSubscription
  http := plainCrates
  crypto := tailCrypto
  uriParse _ := .error "invalid uri character".toList

def plainConfig : Config where
  logLevel := "info".toList
  relay := {
    listen := "[::]".toList
    port := 10808
    network := .tcp
    serviceName := "GunService".toList
    idleTimeout := 0
    grpcPoolIdleTimeout := 0 }
  http := {
    listen := "[::]".toList
    port := 8080
    users := []
    outputs := [plainOutput] }
  subscription := {
    cacheFile := none
    updateInterval := 0
    sources := [urlSource "sub" "https://a.example/"]
    deduplication := "rename".toList }

/-- Another user and another port for the listener. -/
def changedConfig : Config :=
  { plainConfig with
    relay := { plainConfig.relay with port := 10809 }
    http := { plainConfig.http with users := [⟨"alice".toList,"s3cr3t".toList,none⟩] } }

/-- The file holds `cfg`, the source gives one node, and the log filter is as told. -/
def plainEnv (cfg : Config) (logReload : Except Text Unit) : Env where
  loads _ := .ok cfg
  reads _ := .ok oneLink
  content := none
  logReload := logReload

def missingEnv : Env := { plainEnv plainConfig (.ok ()) with loads := fun _ => .error .notFound }

theorem reload_runs_consistent_plain : ∃ loaded s t,
    start Unit plainDaemon plainConfig (fun _ => .ok oneLink) none=.ok (loaded,s) ∧
    run (step plainDaemon) ⟨loaded,s⟩ [.full (plainEnv changedConfig (.ok ())),.full missingEnv,
      .subs (plainEnv plainConfig (.ok ()))]=some t ∧
    Consistent plainDaemon plainConfig.relay t := by
  have hsome : (((start Unit plainDaemon plainConfig (fun _ => .ok oneLink) none).toOption).bind
      (fun p => run (step plainDaemon) ⟨p.1,p.2⟩ [.full (plainEnv changedConfig (.ok ())),
        .full missingEnv,.subs (plainEnv plainConfig (.ok ()))])).isSome=true := by decide +kernel
  obtain ⟨t,ht⟩ := Option.isSome_iff_exists.mp hsome
  obtain ⟨p,hp,hr⟩ := Option.bind_eq_some_iff.mp ht
  have hs : start Unit plainDaemon plainConfig (fun _ => .ok oneLink) none=.ok (p.1,p.2) :=
    ok_of_toOption hp
  exact ⟨p.1,p.2,t,hs,hr,(reload_runs_consistent hs hr).1⟩

section
variable {σ : Type} {crates : DaemonCrates}

/-- `reload_full` returns an `Err` without having changed anything. -/
def FailsAtomically (crates : DaemonCrates) (s : State σ) (env : Env) : Prop :=
  ∀ e, (reloadFull crates s env).2=.error (.error e) → (reloadFull crates s env).1=s

/-- The config that `reload_full` stores once everything is loaded. -/
def effectiveCfg (cfg : Config) (s : State σ) : Config :=
  (preserveRunningRelay cfg s.sharedCfg.relay).1

theorem reloadFull_log_error {s : State σ} {env : Env} {cfg : Config}
    {loaded : LoadedSubscriptions} (hl : loadFull crates env=.ok (cfg,loaded)) {cause : Text}
    (hlog : env.logReload=.error cause) : reloadFull crates s env=
      ({ s with sharedCfg := effectiveCfg cfg s },.error (.error (.logFilter cause))) := by
  simp only [reloadFull,hl,commitFull,hlog]
  rfl

/-- The one `Err` that comes after an assignment is that of the log filter. -/
theorem reload_full_atomic_iff (s : State σ) (env : Env) :
    FailsAtomically crates s env ↔
      ((∃ cause, env.logReload=.error cause) → ∀ cfg loaded, loadFull crates env=.ok (cfg,loaded) →
        effectiveCfg cfg s=s.sharedCfg) := by
  rw [FailsAtomically]
  cases hl : loadFull crates env with
  | error e => simp [reloadFull,hl]
  | ok p =>
    obtain ⟨cfg,loaded⟩ := p
    cases hlog : env.logReload with
    | error cause =>
      rw [reloadFull_log_error hl hlog]
      constructor
      · intro h _ cfg' loaded' he
        cases he
        exact congrArg State.sharedCfg (h _ rfl)
      · intro h e _
        have hcfg := h ⟨cause,rfl⟩ cfg loaded rfl
        rw [hcfg]
    | ok u =>
      constructor
      · rintro _ ⟨cause,he⟩
        cases he
      · intro _ e he
        simp only [reloadFull,hl,commitFull,hlog] at he
        split at he
        · cases he
        · cases he

end

/-- The shared config has changed although the reload failed, and nothing else has. -/
theorem log_filter_error_not_atomic : ∃ loaded s,
    start Unit plainDaemon plainConfig (fun _ => .ok oneLink) none=.ok (loaded,s) ∧
    (reloadFull plainDaemon s (plainEnv changedConfig (.error "error sending".toList))).2=
      .error (.error (.logFilter "error sending".toList)) ∧
    (reloadFull plainDaemon s (plainEnv changedConfig (.error "error sending".toList))).1=
      { s with sharedCfg := effectiveCfg changedConfig s } ∧
    effectiveCfg changedConfig s≠s.sharedCfg := by
  have hsome : (start Unit plainDaemon plainConfig (fun _ => .ok oneLink) none).toOption.isSome=
      true := by decide +kernel
  obtain ⟨⟨loaded,s⟩,hp⟩ := Option.isSome_iff_exists.mp hsome
  have hs := ok_of_toOption hp
  have hload : (loadFull plainDaemon
      (plainEnv changedConfig (.error "error sending".toList))).toOption.map Prod.fst=
        some changedConfig := by decide +kernel
  obtain ⟨⟨cfg,l⟩,hl,he⟩ := Option.map_eq_some_iff.mp hload
  obtain rfl : cfg=changedConfig := he
  have hfail := reloadFull_log_error (s := s) (ok_of_toOption hl) rfl
  have hcfg : s.sharedCfg=plainConfig := by
    obtain ⟨q,_,he⟩ := map_ok hs
    cases he
    rfl
  refine ⟨loaded,s,hs,by rw [hfail],by rw [hfail],?_⟩
  rw [effectiveCfg,hcfg]
  decide

end Tobira.Daemon
