import Tobira.Framework.Run
import Tobira.Relay.Auth
import Tobira.Relay.TcpRelay

namespace Tobira.Relay

open Tobira.Framework Tobira.Transport

/-- Both `tokio::io::duplex` pipes hold this much. -/
def duplexSize : Nat := 64*1024

inductive Status where
  | running
  | ok
  | failed
  | cancelled
  deriving DecidableEq,Repr

/-- The decode task: the cached frames it has still to decode, the buffer of its reader, the
Auth ID bytes it has still to skip, and the rest of the `write_all` in progress. -/
structure Decode where
  cached : List Bytes
  buf : Bytes
  skip : Nat
  writing : Bytes
  status : Status
  deriving DecidableEq,Repr

/-- The encode future, `raw_to_grpc`: the rest of the frame it is sending. -/
structure Encode where
  pending : Bytes
  sent : List DataFrame
  status : Status
  deriving DecidableEq,Repr

/-- Where `relay_grpc_via_core` itself stands: in the outer or the inner `select!`, waiting for
the tasks it has aborted, waiting for the encode future, or back with a result. -/
inductive Main where
  | outer
  | inner
  | abortBoth (ok : Bool)
  | abortRelay (ok : Bool)
  | abortDecode (ok : Bool)
  | awaitEncode
  | returned (ok : Bool)
  deriving DecidableEq,Repr

/-- `relay_grpc_via_core` with its client and its upstream. `requested` is everything the
client has sent on the request stream and `answered` everything the upstream has sent; no
step of the relay reads them. -/
structure ViaCore where
  requested : Bytes
  clientEnded : Bool
  chunks : List Bytes
  decode : Decode
  relay : TcpRelay
  relayStatus : Status
  answered : Bytes
  encode : Encode
  main : Main
  deriving DecidableEq,Repr

inductive ViaAction where
  | send (chunk : Bytes)
  | endStream
  | respond (bytes : Bytes)
  | closeWrite
  | decodeNext
  | decodeWrite (n : Nat)
  | decodeFail
  | tcp (a : TcpAction)
  | relayFail
  | encodeRead (n : Nat)
  | encodeSend (n : Nat)
  | encodeEnd
  | encodeFail
  | pickDecode
  | pickEncode
  | pickRelay
  | cancelDecode
  | cancelRelay
  | join
  deriving DecidableEq,Repr

/-- `relay_grpc_via_core` called with what `read_initial_auth` returned. -/
def ViaCore.start (authId : Bytes) (cached : List Bytes) (reader : GrpcFrameReader) : ViaCore where
  requested := cached.flatten++reader.bytes
  clientEnded := false
  chunks := reader.recvStream.chunks
  decode := ⟨cached,reader.buf,authIdSize,[],.running⟩
  relay := .start authId ⟨[],false⟩
  relayStatus := .running
  answered := []
  encode := ⟨[],[],.running⟩
  main := .outer

/-- The decode task is over, in whatever way: its end of the pipe is dropped. -/
def ViaCore.endDecode (st : ViaCore) (status : Status) : ViaCore :=
  { st with
    decode := { st.decode with status := status }
    relay := { st.relay with inbound := ⟨st.relay.inbound.items,true⟩ } }

/-- The relay task is over, in whatever way: its end of the other pipe is dropped. -/
def ViaCore.endRelay (st : ViaCore) (status : Status) : ViaCore :=
  { st with
    relayStatus := status
    relay := { st.relay with outbound := ⟨st.relay.outbound.items,true⟩ } }

/-- The decode task takes one frame: it decodes, skips and starts to write. -/
def ViaCore.takeFrame (m : Build) (st : ViaCore) (frame : Bytes) : ViaCore :=
  match decodeGrpcFrameData m frame with
  | .error _ => st.endDecode .failed
  | .ok none => st
  | .ok (some data) =>
    let p := skipAuthIdBytes data st.decode.skip
    { st with decode := { st.decode with skip := p.2,writing := p.1 } }

/-- The next frame of the decode task: cached ones first, then those of the reader. -/
def ViaCore.decodeNext (m : Build) (st : ViaCore) : Option ViaCore :=
  match st.decode.cached with
  | frame::cached =>
    some ({ st with decode := { st.decode with cached := cached } }.takeFrame m frame)
  | [] =>
    match peekFrame st.decode.buf with
    | .frame frame rest =>
      some ({ st with decode := { st.decode with buf := rest } }.takeFrame m frame)
    | .tooLarge _ => some (st.endDecode .failed)
    | .more =>
      match st.chunks with
      | chunk::chunks =>
        some { st with
          chunks := chunks
          decode := { st.decode with buf := st.decode.buf++chunk } }
      | [] => if st.clientEnded=true then some (st.endDecode .ok) else none

/-- The encode future runs only inside `relay_grpc_via_core`. -/
def Main.polls : Main → Bool
  | .outer | .inner | .awaitEncode => true
  | _ => false

def encodeStep (st : ViaCore) : ViaAction → Option ViaCore
  | .encodeRead n =>
    if st.encode.pending=[] ∧ 0<n ∧ n ≤ rawToGrpcReadBufSize ∧ n ≤ st.relay.outbound.items.length then
      some { st with
        encode := { st.encode with pending := encodeGrpcFrame (st.relay.outbound.items.take n) }
        relay := { st.relay with
          outbound := ⟨st.relay.outbound.items.drop n,st.relay.outbound.closed⟩ } }
    else none
  | .encodeSend n =>
    if 0<n ∧ n ≤ st.encode.pending.length then
      some { st with
        encode := { st.encode with
          pending := st.encode.pending.drop n
          sent := st.encode.sent++[⟨st.encode.pending.take n,false⟩] } }
    else none
  | .encodeEnd =>
    if st.encode.pending=[] ∧ st.relay.outbound.items=[] ∧ st.relay.outbound.closed=true then
      some { st with
        encode := { st.encode with sent := st.encode.sent++[⟨[],true⟩],status := .ok } }
    else none
  | .encodeFail => some { st with encode := { st.encode with status := .failed } }
  | _ => none

/-- A join result as the `_to_result` functions read it: `Ok` of the task, or an error. The relay
task counts as `Ok` when it was cancelled. -/
def relayOk : Status → Bool
  | .ok | .cancelled => true
  | _ => false

def mainStep (st : ViaCore) : ViaAction → Option ViaCore
  | .pickDecode =>
    if st.main=.outer ∧ st.decode.status≠.running then
      some { st with main := if st.decode.status=.ok then .inner else .abortRelay false }
    else none
  | .pickEncode =>
    if st.encode.status=.running then none
    else match st.main with
      | .outer => some { st with main := .abortBoth (decide (st.encode.status=.ok)) }
      | .inner => some { st with main := .abortRelay (decide (st.encode.status=.ok)) }
      | _ => none
  | .pickRelay =>
    if st.relayStatus=.running then none
    else match st.main with
      | .outer => some { st with main := .abortDecode (relayOk st.relayStatus) }
      | .inner =>
        some { st with main := if relayOk st.relayStatus then .awaitEncode else .returned false }
      | _ => none
  | .cancelDecode =>
    match st.main with
    | .abortBoth _ | .abortDecode _ =>
      if st.decode.status=.running then some (st.endDecode .cancelled) else none
    | _ => none
  | .cancelRelay =>
    match st.main with
    | .abortBoth _ | .abortRelay _ =>
      if st.relayStatus=.running then some (st.endRelay .cancelled) else none
    | _ => none
  | .join =>
    match st.main with
    | .abortBoth ok =>
      if st.decode.status≠.running ∧ st.relayStatus≠.running then
        some { st with main := .returned ok }
      else none
    | .abortRelay ok =>
      if st.relayStatus≠.running then some { st with main := .returned ok } else none
    | .abortDecode ok =>
      if st.decode.status≠.running then
        some { st with main := if ok then .awaitEncode else .returned false }
      else none
    | .awaitEncode =>
      if st.encode.status≠.running then
        some { st with main := .returned (decide (st.encode.status=.ok)) }
      else none
    | _ => none
  | _ => none

/-- A step of any party. Here the peers take at once what they are sent; in `viaRoomStep` they need
not. -/
def viaStep (m : Build) (st : ViaCore) : ViaAction → Option ViaCore
  | .send chunk =>
    if st.clientEnded=false then
      some { st with requested := st.requested++chunk,chunks := st.chunks++[chunk] }
    else none
  | .endStream => some { st with clientEnded := true }
  | .respond bytes =>
    if st.relay.phase≠.connecting ∧ st.relay.response.closed=false then
      some { st with
        answered := st.answered++bytes
        relay := { st.relay with
          response := ⟨st.relay.response.items++bytes,st.relay.response.closed⟩ } }
    else none
  | .closeWrite =>
    if st.relay.phase≠.connecting then
      some { st with relay := { st.relay with response := ⟨st.relay.response.items,true⟩ } }
    else none
  | .decodeNext =>
    if st.decode.status=.running ∧ st.decode.writing=[] then st.decodeNext m else none
  | .decodeWrite n =>
    if st.decode.status=.running ∧ st.relayStatus=.running ∧ 0<n ∧ n ≤ st.decode.writing.length ∧
        st.relay.inbound.items.length+n≤duplexSize then
      some { st with
        decode := { st.decode with writing := st.decode.writing.drop n }
        relay := { st.relay with inbound :=
          ⟨st.relay.inbound.items++st.decode.writing.take n,st.relay.inbound.closed⟩ } }
    else none
  | .decodeFail => if st.decode.status=.running then some (st.endDecode .failed) else none
  | .tcp a =>
    if st.relayStatus=.running then
      (relayTcp (some duplexSize) st.relay a).map (fun r =>
        let st := { st with relay := r }
        if r.phase=.finished then st.endRelay .ok else st)
    else none
  | .relayFail => if st.relayStatus=.running then some (st.endRelay .failed) else none
  | .encodeRead n =>
    if st.main.polls ∧ st.encode.status=.running then encodeStep st (.encodeRead n) else none
  | .encodeSend n =>
    if st.main.polls ∧ st.encode.status=.running then encodeStep st (.encodeSend n) else none
  | .encodeEnd =>
    if st.main.polls ∧ st.encode.status=.running then encodeStep st .encodeEnd else none
  | .encodeFail =>
    if st.main.polls ∧ st.encode.status=.running then encodeStep st .encodeFail else none
  | a => mainStep st a

end Tobira.Relay
