import Tobira.Framework.Halt
import Tobira.Framework.Watchdog
import Tobira.Relay.Codecs

namespace Tobira.Relay

open Tobira.Framework Tobira.Transport

/-- In milliseconds: a quarter of the timeout, between one and five seconds. -/
def idleCheckInterval (idleTimeout : Nat) : Nat := max 1000 (min (idleTimeout/4) 5000)

/-- What distinguishes `relay_grpc` from `relay_grpc_to_grpc_fast`: the codecs of the two tasks,
the errors their streams can report, and what is sent before the first task starts. `late` bounds
the delay with which the runtime serves a timer. -/
structure TunnelSetup where
  first : Codec UInt8 UInt8 TaskError
  second : Codec UInt8 UInt8 TaskError
  firstErrors : TaskError → Bool
  secondErrors : TaskError → Bool
  opening : Bytes
  idleTimeout : Option Nat
  late : Nat

/-- Where the relay function stands: it sends the opening, waits for the response headers, ends
the first task because there are none, waits for both tasks with the results it has so far, ends
them for idleness, has left the loop, has returned, or has panicked. -/
inductive Stage where
  | opening
  | headers
  | refused
  | relaying (r1 r2 : Bool)
  | closing (r1 r2 : Bool)
  | left (r1 r2 : Bool)
  | returned (ok : Bool)
  | panicked
  deriving DecidableEq,Repr

/-- An open gRPC tunnel with its client and its upstream. `requested` and `answered` are
everything the two have sent; `refusal`, `idle` and `evictions` record the error in place of the
headers, the idle time that ended the relay, and the calls of `evict`. -/
structure Tunnel where
  stage : Stage
  requested : Bytes
  answered : Bytes
  unsent : Bytes
  opened : Bytes
  first : Pump UInt8 UInt8 TaskError
  second : Pump UInt8 UInt8 TaskError
  refusal : Option H2Error
  idle : Option Nat
  evictions : Nat
  clock : Watchdog
  deriving DecidableEq,Repr

inductive TunnelAction where
  | request (bytes : Bytes)
  | requestEnd
  | answer (bytes : Bytes)
  | answerEnd
  | headersOk
  | headersFail (e : H2Error)
  | openingSend (n : Nat)
  | openingFail
  | spawn
  | first (a : PumpAction TaskError)
  | second (a : PumpAction TaskError)
  | abort
  | join
  | collectFirst
  | collectSecond
  | tick
  | leave
  | expect
  | advance (d : Nat)
  deriving DecidableEq,Repr

/-- The client's bytes that have not been handed to a frame reader are in `pending`; `buf` is
what its reader has buffered. -/
def Tunnel.start (setup : TunnelSetup) (buf pending : Bytes) (now : Nat) : Tunnel where
  stage := .opening
  requested := buf++pending
  answered := []
  unsent := setup.opening
  opened := []
  first := .new ⟨pending,false⟩ buf
  second := .new ⟨[],false⟩ []
  refusal := none
  idle := none
  evictions := 0
  clock := .new now

/-- An error that the task's streams can report. -/
def admits (errors : TaskError → Bool) : PumpAction TaskError → Bool
  | .fail e => errors e
  | _ => true

/-- The calls of `mark`: with a unit in hand, and when it has been written as a whole. -/
def marks (p : Pump UInt8 UInt8 TaskError) : PumpAction TaskError → Bool
  | .take => !p.pending.isEmpty
  | .put _ => p.pending.isEmpty
  | _ => false

/-- The first task calls `evict` when it ends with a connection error. -/
def evicts (p : Pump UInt8 UInt8 TaskError) : Nat :=
  match p.state with
  | .failed e => e.isConnection.toNat
  | _ => 0

def Tunnel.touch (st : Tunnel) (marked : Bool) : Watchdog :=
  if marked then st.clock.mark else st.clock

/-- The steps of `await_grpc_response_headers` and the `wait_` functions after an abort. -/
def endStep (st : Tunnel) : TunnelAction → Option Tunnel
  | .abort =>
    match st.stage with
    | .refused | .closing false _ =>
      if st.first.state=.running then
        some { st with first := { st.first with state := .cancelled } }
      else none
    | .closing true false =>
      if st.second.state=.running then
        some { st with second := { st.second with state := .cancelled } }
      else none
    | _ => none
  | .join =>
    match st.stage with
    | .refused =>
      if st.first.state≠.running then some { st with stage := .returned false } else none
    | .closing false r2 =>
      if st.first.state≠.running then some { st with stage := .closing true r2 } else none
    | .closing true false =>
      if st.second.state≠.running then some { st with stage := .closing true true } else none
    | _ => none
  | _ => none

/-- The loop of the `wait_` functions and what follows it. -/
def waitStep (setup : TunnelSetup) (st : Tunnel) : TunnelAction → Option Tunnel
  | .collectFirst =>
    match st.stage with
    | .relaying false r2 =>
      if st.first.state≠.running then some { st with stage := .relaying true r2 } else none
    | _ => none
  | .collectSecond =>
    match st.stage with
    | .relaying r1 false =>
      if st.second.state≠.running then some { st with stage := .relaying r1 true } else none
    | _ => none
  | .tick =>
    match st.stage,setup.idleTimeout with
    | .relaying r1 r2,some timeout =>
      if r1 && r2 then none
      else (st.clock.tick (idleCheckInterval timeout)).map (fun w =>
        if timeout ≤ w.idleFor then
          { st with stage := .closing r1 r2,idle := some w.idleFor,clock := w }
        else { st with clock := w })
    | _,_ => none
  | .leave =>
    match st.stage with
    | .relaying r1 r2 | .closing r1 r2 =>
      if r1 && r2 then some { st with stage := .left r1 r2 } else none
    | _ => none
  | .expect =>
    match st.stage with
    | .left r1 r2 => some { st with stage := if r1 && r2 then .returned true else .panicked }
    | _ => none
  | _ => none

/-- A step of any party. Here the peers take at once what they are sent; in `tunnelRoomStep` they
need not. -/
def tunnelStep (setup : TunnelSetup) (st : Tunnel) : TunnelAction → Option Tunnel
  | .request bytes =>
    if st.first.source.closed=false then
      some { st with
        requested := st.requested++bytes
        first := { st.first with source := ⟨st.first.source.items++bytes,st.first.source.closed⟩ } }
    else none
  | .requestEnd =>
    some { st with first := { st.first with source := ⟨st.first.source.items,true⟩ } }
  | .answer bytes =>
    -- The body of the response follows its headers.
    if st.second.state≠.waiting ∧ st.second.source.closed=false then
      some { st with
        answered := st.answered++bytes
        second := { st.second with
          source := ⟨st.second.source.items++bytes,st.second.source.closed⟩ } }
    else none
  | .answerEnd =>
    if st.second.state≠.waiting then
      some { st with second := { st.second with source := ⟨st.second.source.items,true⟩ } }
    else none
  | .headersOk =>
    if st.stage=.headers then
      some { st with
        stage := .relaying false false
        second := { st.second with state := .running }
        clock := st.clock.start }
    else none
  | .headersFail e =>
    if st.stage=.headers then
      some { st with
        stage := .refused
        refusal := some e
        evictions := st.evictions+(isH2ConnectionError e).toNat }
    else none
  | .openingSend n =>
    if st.stage=.opening ∧ 0<n ∧ n ≤ st.unsent.length then
      some { st with unsent := st.unsent.drop n,opened := st.opened++st.unsent.take n }
    else none
  | .openingFail => if st.stage=.opening then some { st with stage := .returned false } else none
  | .spawn =>
    if st.stage=.opening ∧ st.unsent=[] then
      some { st with
        stage := .headers
        first := { st.first with state := .running }
        clock := st.clock.mark }
    else none
  | .first a =>
    if admits setup.firstErrors a then
      (st.first.step setup.first a).map (fun p =>
        { st with
          first := p
          evictions := st.evictions+evicts p
          clock := st.touch (marks p a) })
    else none
  | .second a =>
    if admits setup.secondErrors a then
      (st.second.step setup.second a).map (fun p =>
        { st with second := p,clock := st.touch (marks p a) })
    else none
  | .advance d =>
    match st.stage,setup.idleTimeout with
    | .relaying _ _,some _ => (st.clock.advance setup.late d).map (fun w => { st with clock := w })
    | _,_ => some { st with clock := { st.clock with now := st.clock.now+d } }
  | .abort => endStep st .abort
  | .join => endStep st .join
  | a => waitStep setup st a

/-- The bytes on the request stream. -/
def Tunnel.upstream (st : Tunnel) : Bytes := st.opened++st.first.sent

end Tobira.Relay
