import Mathlib.Data.List.AList
import Mathlib.Data.List.Perm.Basic
import Mathlib.Tactic.Simps.Basic
import Tobira.Framework.Mutex
import Tobira.Framework.Run

namespace Tobira.Pool

open Tobira.Framework

/-- The identity of one `Arc<Mutex<Option<PooledConn>>>` with the key it was inserted under. -/
structure SlotId (K : Type) where
  key : K
  serial : Nat
  deriving DecidableEq,Repr

structure PooledConn where
  id : Nat
  lastUsed : Nat
  deriving DecidableEq,Repr

/-- Who can wait for a slot: a task that calls the pool or the driver of a connection. -/
inductive Owner where
  | task (t : Nat)
  | driver (c : Nat)
  deriving DecidableEq,Repr

abbrev Slot := Mutex Owner (Option PooledConn)

/-- The driver task of a connection: polling it, past its end, waiting for the slot, or done
with its locked section. -/
inductive Phase where
  | running
  | closing
  | locking
  | finished
  deriving DecidableEq,Repr

structure Driver (K : Type) where
  slot : SlotId K
  phase : Phase
  deriving DecidableEq,Repr

/-- The two calls of `get_or_create` in `open_grpc_tunnel`; the second one follows the failure
of connection `c`. -/
inductive Caller where
  | first
  | retry (c : Nat)
  deriving DecidableEq,Repr

/-- What is left of a `prune_to_endpoints` or `prune_idle` call at the head of its loop. -/
inductive Rest (K : Type) where
  | prune (stale : List (SlotId K))
  | pruned
  | scan (now maxIdle : Nat) (slots : List (SlotId K))
  deriving DecidableEq,Repr

/-- Why a task locks a slot. -/
inductive Job (K : Type) where
  | get (caller : Caller)
  | clear (stale : List (SlotId K))
  | scan (now maxIdle : Nat) (slots : List (SlotId K))
  | count (slots : List (SlotId K)) (rest : Rest K)
  deriving DecidableEq,Repr

/-- Where a task stands. It has called `lock` in `locking`, and holds the slot when the
mutex says so; `dialing` and `dialed` are inside `connect_h2`, before and after its spawn. -/
inductive Task (K : Type) where
  | idle
  | enter (s : SlotId K) (job : Job K)
  | locking (s : SlotId K) (job : Job K)
  | dialing (caller : Caller) (s : SlotId K) (id : Nat)
  | dialed (caller : Caller) (s : SlotId K) (id : Nat)
  | ready (key : K) (c : Nat)
  | dead (key : K) (c : Nat)
  | evicted (key : K) (c : Nat)
  | again (key : K) (old c : Nat)
  | tunnel (key : K) (c : Nat)
  | snapshot (rest : Rest K)
  | counting (slots : List (SlotId K)) (rest : Rest K)
  | loop (rest : Rest K)
  deriving DecidableEq,Repr

/-- What happens to the slots, oldest first; no step reads it. -/
inductive Event (K : Type) where
  | handshake (s : SlotId K) (c : Nat)
  | returned (t : Nat) (s : SlotId K) (c : Nat)
  | cleared (s : SlotId K) (c : Nat)
  | evict (c : Nat) (s : SlotId K) (removed : Option Nat)
  deriving DecidableEq,Repr

structure State (K : Type) where
  conns : AList (fun _ : K => Nat)
  nextSlot : Nat
  slots : SlotId K → Slot
  nextConnId : Nat
  idleTimeout : Option Nat
  drivers : Nat → Option (Driver K)
  failed : Nat → Bool
  tasks : Nat → Task K
  now : Nat
  log : List (Event K)

inductive Action (K : Type) where
  | connect (t : Nat) (key : K)
  | reconnect (t : Nat)
  | lock (t : Nat)
  | work (t : Nat)
  | handshake (t : Nat) (ok : Bool)
  | store (t : Nat)
  | pollReady (t : Nat) (ok : Bool)
  | evict (t : Nat)
  | closeTunnel (t : Nat)
  | pruneToEndpoints (t : Nat) (active : List K) (stale : List (SlotId K)) (debug : Bool)
  | poolCounts (t : Nat) (slots : List (SlotId K))
  | pruneIdle (t : Nat) (slots : List (SlotId K)) (debug : Bool)
  | next (t : Nat) (debug : Bool)
  | fail (c : Nat)
  | close (c : Nat)
  | driverLock (c : Nat)
  | driverWork (c : Nat)
  | setIdleTimeout (timeout : Option Nat)
  | tick
  deriving DecidableEq,Repr

variable {K : Type} [DecidableEq K]

namespace State

def new (idleTimeout : Option Nat) : State K where
  conns := ∅
  nextSlot := 0
  slots := fun _ => .new none
  nextConnId := 1
  idleTimeout := idleTimeout
  drivers := fun _ => none
  failed := fun _ => false
  tasks := fun _ => .idle
  now := 0
  log := []

/-- The slot is the one the map has under its key. -/
def Registered (st : State K) (s : SlotId K) : Prop := st.conns.lookup s.key=some s.serial

instance (st : State K) (s : SlotId K) : Decidable (st.Registered s) :=
  inferInstanceAs (Decidable (st.conns.lookup s.key=some s.serial))

def held (st : State K) (s : SlotId K) : Option Nat := (st.slots s).value.map PooledConn.id

def entries (st : State K) : List (SlotId K) := st.conns.entries.map (fun e => ⟨e.1,e.2⟩)

@[simps] def setTask (st : State K) (t : Nat) (x : Task K) : State K :=
  { st with tasks := Function.update st.tasks t x }

@[simps] def setDriver (st : State K) (c : Nat) (d : Driver K) : State K :=
  { st with drivers := Function.update st.drivers c (some d) }

@[simps] def setSlot (st : State K) (s : SlotId K) (x : Slot) : State K :=
  { st with slots := Function.update st.slots s x }

@[simps] def note (st : State K) (e : Event K) : State K := { st with log := st.log++[e] }

@[simps!] def lockSlot (st : State K) (s : SlotId K) (o : Owner) : State K :=
  st.setSlot s ((st.slots s).lock o)

@[simps!] def unlockSlot (st : State K) (s : SlotId K) : State K := st.setSlot s (st.slots s).unlock

@[simps!] def putConn (st : State K) (s : SlotId K) (conn : PooledConn) : State K :=
  st.setSlot s ((st.slots s).set (some conn))

/-- `*guard = None`. -/
def clearSlot (st : State K) (s : SlotId K) : State K :=
  match st.held s with
  | none => st
  | some c => (st.setSlot s ((st.slots s).set none)).note (.cleared s c)

end State

/-- `entry(key).or_insert_with(..).clone()`. -/
def slotFor (st : State K) (key : K) : State K×SlotId K :=
  match st.conns.lookup key with
  | some n => (st,⟨key,n⟩)
  | none => ({ st with conns := st.conns.insert key st.nextSlot,nextSlot := st.nextSlot+1 },
      ⟨key,st.nextSlot⟩)

def getOrCreate (st : State K) (t : Nat) (caller : Caller) (key : K) : State K :=
  let p := slotFor st key
  p.1.setTask t (.enter p.2 (.get caller))

/-- Where `open_grpc_tunnel` goes on with the connection `get_or_create` returned. -/
def resume (key : K) (c : Nat) : Caller → Task K
  | .first => .ready key c
  | .retry old => .again key old c

/-- The end of `get_or_create`: the guard is dropped and the connection returned. -/
def finish (st : State K) (t : Nat) (caller : Caller) (s : SlotId K) (c : Nat) : State K :=
  ((st.unlockSlot s).note (.returned t s c)).setTask t (resume s.key c caller)

/-- The part of `get_or_create` that starts with the guard, up to the first wait. -/
def lockedGet (st : State K) (t : Nat) (caller : Caller) (s : SlotId K) : State K :=
  match (st.slots s).value with
  | some conn => finish (st.putConn s { conn with lastUsed := st.now }) t caller s conn.id
  | none =>
    { st with nextConnId := st.nextConnId+1 }.setTask t (.dialing caller s st.nextConnId)

/-- `connect_h2` has spawned the driver of the new connection. -/
def connected (st : State K) (t : Nat) (caller : Caller) (s : SlotId K) (id : Nat) : State K :=
  ((st.setDriver id ⟨s,.running⟩).note (.handshake s id)).setTask t (.dialed caller s id)

def evict (st : State K) (key : K) (c : Nat) : State K :=
  match st.conns.lookup key with
  | none => st
  | some n =>
    let s : SlotId K := ⟨key,n⟩
    if (st.slots s).holder=none then (st.note (.evict c s (st.held s))).clearSlot s else st

/-- One round of the loop in `prune_idle_older_than`, under the guard. -/
def scanSlot (st : State K) (now maxIdle : Nat) (s : SlotId K) : State K :=
  match (st.slots s).value with
  | some conn => if maxIdle≤now-conn.lastUsed then st.clearSlot s else st
  | none => st

/-- The locked section of a task, up to its next wait or the end of the guard. -/
def locked (st : State K) (t : Nat) (s : SlotId K) : Job K → State K
  | .get caller => lockedGet st t caller s
  | .clear stale => ((st.clearSlot s).unlockSlot s).setTask t (.loop (.prune stale))
  | .scan now maxIdle slots =>
    ((scanSlot st now maxIdle s).unlockSlot s).setTask t (.loop (.scan now maxIdle slots))
  | .count slots rest => (st.unlockSlot s).setTask t (.counting slots rest)

/-- The round of the loop in `prune_to_endpoints` up to the lock. -/
def pruneNext (st : State K) (t : Nat) (s : SlotId K) (stale : List (SlotId K)) : State K :=
  match st.conns.lookup s.key with
  | none => st.setTask t (.loop (.prune stale))
  | some _ => { st with conns := st.conns.erase s.key }.setTask t (.enter s (.clear stale))

/-- The locked section of the close handler in `connect_h2`. -/
def closeHandler (st : State K) (c : Nat) (s : SlotId K) : State K :=
  ((if st.held s=some c then st.clearSlot s else st).unlockSlot s).setDriver c ⟨s,.finished⟩

def stepNext (st : State K) (t : Nat) (debug : Bool) : Option (State K) :=
  match st.tasks t with
  | .loop (.prune []) => some (st.setTask t (if debug then .snapshot .pruned else .idle))
  | .loop (.prune (s::stale)) => some (pruneNext st t s stale)
  | .loop .pruned => some (st.setTask t .idle)
  | .loop (.scan _ _ []) => some (st.setTask t .idle)
  | .loop (.scan now maxIdle (s::slots)) => some (st.setTask t (.enter s (.scan now maxIdle slots)))
  | .counting [] rest => some (st.setTask t (.loop rest))
  | .counting (s::slots) rest => some (st.setTask t (.enter s (.count slots rest)))
  | _ => none

def stepPollReady (st : State K) (t : Nat) (ok : Bool) : Option (State K) :=
  match st.tasks t,ok with
  | .ready key c,true => some (st.setTask t (.tunnel key c))
  | .ready key c,false => if st.failed c then some (st.setTask t (.dead key c)) else none
  | .again key _ c,true => some (st.setTask t (.tunnel key c))
  | .again _ _ c,false => if st.failed c then some (st.setTask t .idle) else none
  | _,_ => none

/-- `stale` and `slots` are in the order in which the map is iterated. -/
def step (st : State K) : Action K → Option (State K)
  | .connect t key =>
    match st.tasks t with
    | .idle => some (getOrCreate st t .first key)
    | _ => none
  | .reconnect t =>
    match st.tasks t with
    | .evicted key c => some (getOrCreate st t (.retry c) key)
    | _ => none
  | .lock t =>
    match st.tasks t with
    | .enter s job => some ((st.lockSlot s (.task t)).setTask t (.locking s job))
    | _ => none
  | .work t =>
    match st.tasks t with
    | .locking s job => if (st.slots s).holder=some (.task t) then some (locked st t s job) else none
    | _ => none
  | .handshake t ok =>
    match st.tasks t with
    | .dialing caller s id =>
      some (if ok then connected st t caller s id else (st.unlockSlot s).setTask t .idle)
    | _ => none
  | .store t =>
    match st.tasks t with
    | .dialed caller s id => some (finish (st.putConn s ⟨id,st.now⟩) t caller s id)
    | _ => none
  | .pollReady t ok => stepPollReady st t ok
  | .evict t =>
    match st.tasks t with
    | .dead key c => some ((evict st key c).setTask t (.evicted key c))
    | .tunnel key c => if st.failed c then some (evict st key c) else none
    | _ => none
  | .closeTunnel t =>
    match st.tasks t with
    | .tunnel _ _ => some (st.setTask t .idle)
    | _ => none
  | .pruneToEndpoints t active stale debug =>
    if st.tasks t=.idle ∧ stale.Perm (st.entries.filter (fun s => s.key∉active)) then
      some (st.setTask t (if debug then .snapshot (.prune stale) else .loop (.prune stale)))
    else none
  | .poolCounts t slots =>
    match st.tasks t with
    | .snapshot rest =>
      if slots.Perm st.entries then some (st.setTask t (.counting slots rest)) else none
    | _ => none
  | .pruneIdle t slots debug =>
    if st.tasks t=.idle then
      match st.idleTimeout with
      | none => some st
      | some maxIdle =>
        let rest := Rest.scan st.now maxIdle slots
        if slots.Perm st.entries then
          some (st.setTask t (if debug then .counting slots rest else .loop rest))
        else none
    else none
  | .next t debug => stepNext st t debug
  | .fail c =>
    match st.drivers c with
    | some ⟨_,.running⟩ => some { st with failed := Function.update st.failed c true }
    | _ => none
  | .close c =>
    match st.drivers c with
    | some ⟨s,.running⟩ =>
      some ({ st with failed := Function.update st.failed c true }.setDriver c ⟨s,.closing⟩)
    | _ => none
  | .driverLock c =>
    match st.drivers c with
    | some ⟨s,.closing⟩ => some ((st.lockSlot s (.driver c)).setDriver c ⟨s,.locking⟩)
    | _ => none
  | .driverWork c =>
    match st.drivers c with
    | some ⟨s,.locking⟩ =>
      if (st.slots s).holder=some (.driver c) then some (closeHandler st c s) else none
    | _ => none
  | .setIdleTimeout timeout => some { st with idleTimeout := timeout }
  | .tick => some { st with now := st.now+1 }

/-- The pool in every state it can be in, under some initial idle timeout. -/
def Reachable (st : State K) : Prop :=
  ∃ timeout as, run step (State.new timeout) as=some st

end Tobira.Pool
