import Tobira.Framework.Run
import Tobira.Http.Links
import Tobira.Subscription.Manager
import Tobira.Subscription.Reload

namespace Tobira.Daemon

open Tobira.Framework Tobira.Http Tobira.Subscription Tobira.Vmess

/-- The crates that a reload calls. -/
structure DaemonCrates where
  subscription : SubscriptionCrates
  http : Crates
  crypto : Crypto
  uriParse : Text → Except Text Uri

inductive ConfigError where
  | notFound
  | other (cause : Text)
  deriving DecidableEq,Repr

inductive DaemonError where
  | config (e : ConfigError)
  | manager (e : ManagerError)
  | logFilter (cause : Text)
  deriving DecidableEq,Repr

structure LoadedSubscriptions where
  validator : Validator
  nodes : List VMessNode
  grpcEndpoints : List (Text×Text)

/-- What one call meets outside: the config file at each attempt, the sources, the cache file,
and the log filter's reload handle. -/
structure Env where
  loads : Nat → Except ConfigError Config
  reads : Nat → Except Text Text
  content : Option Text
  logReload : Except Text Unit

/-- The pieces of state that the reloads share with the other tasks; `σ` is what the pool keeps
for a key. -/
structure State (σ : Type) where
  sharedCfg : Config
  validator : Validator
  httpState : HttpState
  relayIdleTimeout : Option UInt64
  poolIdleTimeout : Option UInt64
  pool : List (Text×σ)

def durationFromSeconds (seconds : UInt64) : Option UInt64 :=
  if seconds=0 then none else some seconds

/-- The loop over the attempts, `left` of which are left after this one. -/
def loadAttempts (loads : Nat → Except ConfigError Config) (attempt : Nat) :
    Nat → Except ConfigError Config
  | 0 => loads attempt
  | left+1 =>
    match loads attempt with
    | .ok cfg => .ok cfg
    | .error .notFound => loadAttempts loads (attempt+1) left
    | .error e => .error e

def loadConfigWithRetry (loads : Nat → Except ConfigError Config) : Except ConfigError Config :=
  loadAttempts loads 1 5

def liftManager : Fault ManagerError → Fault DaemonError
  | .error e => .error (.manager e)
  | .panic p => .panic p

def loadSubscriptions (crates : DaemonCrates) (config : SubscriptionConfig)
    (reads : Nat → Except Text Text) (content : Option Text) :
    Except (Fault DaemonError) LoadedSubscriptions :=
  let nodes := (reload crates.subscription config reads content).allNodes
  match buildValidator crates.crypto crates.uriParse nodes with
  | .error e => .error (liftManager e)
  | .ok validator => .ok ⟨validator,nodes,validator.grpcEndpoints⟩

def preserveRunningRelay (cfg : Config) (running : RelayConfig) : Config×Bool :=
  if cfg.relay.listen≠running.listen ∨ cfg.relay.port≠running.port ∨
      cfg.relay.network≠running.network ∨ cfg.relay.serviceName≠running.serviceName then
    ({ cfg with relay := { cfg.relay with
        listen := running.listen
        port := running.port
        network := running.network
        serviceName := running.serviceName } },true)
  else (cfg,false)

def poolKey (addr tlsSni : Text) : Text := tlsSni++":".toList++addr

def pruneToEndpoints {σ : Type} (pool : List (Text×σ)) (active : List (Text×Text)) :
    List (Text×σ) :=
  pool.filter (fun entry => (active.map (fun p => poolKey p.1 p.2)).contains entry.1)

def liftPanic {α : Type} : Except Panic α → Except (Fault DaemonError) α
  | .ok a => .ok a
  | .error p => .error (.panic p)

def buildState (crates : DaemonCrates) (cfg : Config) (reads : Nat → Except Text Text)
    (content : Option Text) : Except (Fault DaemonError) (LoadedSubscriptions×HttpState) := do
  let loaded ← loadSubscriptions crates cfg.subscription reads content
  let httpState ← liftPanic (HttpState.new crates.http cfg.http.users cfg.http.outputs loaded.nodes
    cfg.relay.network cfg.relay.serviceName)
  return (loaded,httpState)

section
variable {σ : Type}

/-- What `reload_full` does before it changes anything. -/
def loadFull (crates : DaemonCrates) (env : Env) :
    Except (Fault DaemonError) (Config×LoadedSubscriptions) :=
  match loadConfigWithRetry env.loads with
  | .error e => .error (.error (.config e))
  | .ok cfg => (loadSubscriptions crates cfg.subscription env.reads env.content).map (Prod.mk cfg)

/-- What `reload_full` changes, in the order of its assignments. -/
def commitFull (crates : DaemonCrates) (s : State σ) (env : Env) (cfg : Config)
    (loaded : LoadedSubscriptions) : State σ×Except (Fault DaemonError) Nat :=
  let effective := (preserveRunningRelay cfg s.sharedCfg.relay).1
  let s := { s with sharedCfg := effective }
  match env.logReload with
  | .error cause => (s,.error (.error (.logFilter cause)))
  | .ok () =>
    let s := { s with
      relayIdleTimeout := durationFromSeconds effective.relay.idleTimeout
      poolIdleTimeout := durationFromSeconds effective.relay.grpcPoolIdleTimeout
      validator := loaded.validator
      pool := pruneToEndpoints s.pool loaded.grpcEndpoints }
    match HttpState.new crates.http effective.http.users effective.http.outputs loaded.nodes
        effective.relay.network effective.relay.serviceName with
    | .error p => (s,.error (.panic p))
    | .ok httpState => ({ s with httpState := httpState },.ok loaded.nodes.length)

def reloadFull (crates : DaemonCrates) (s : State σ) (env : Env) :
    State σ×Except (Fault DaemonError) Nat :=
  match loadFull crates env with
  | .error e => (s,.error e)
  | .ok (cfg,loaded) => commitFull crates s env cfg loaded

def commitSubs (crates : DaemonCrates) (s : State σ) (loaded : LoadedSubscriptions) :
    State σ×Except (Fault DaemonError) Nat :=
  let s := { s with
    validator := loaded.validator
    pool := pruneToEndpoints s.pool loaded.grpcEndpoints }
  match HttpState.new crates.http s.httpState.users s.sharedCfg.http.outputs loaded.nodes
      s.sharedCfg.relay.network s.sharedCfg.relay.serviceName with
  | .error p => (s,.error (.panic p))
  | .ok httpState => ({ s with httpState := httpState },.ok loaded.nodes.length)

def reloadSubs (crates : DaemonCrates) (s : State σ) (env : Env) :
    State σ×Except (Fault DaemonError) Nat :=
  match loadSubscriptions crates s.sharedCfg.subscription env.reads env.content with
  | .error e => (s,.error e)
  | .ok loaded => commitSubs crates s loaded

end

/-- The state that `main` puts together; the pool is empty. -/
def start (σ : Type) (crates : DaemonCrates) (cfg : Config) (reads : Nat → Except Text Text)
    (content : Option Text) : Except (Fault DaemonError) (LoadedSubscriptions×State σ) :=
  (buildState crates cfg reads content).map (fun p => (p.1,{
    sharedCfg := cfg
    validator := p.1.validator
    httpState := p.2
    relayIdleTimeout := durationFromSeconds cfg.relay.idleTimeout
    poolIdleTimeout := durationFromSeconds cfg.relay.grpcPoolIdleTimeout
    pool := [] }))

end Tobira.Daemon
