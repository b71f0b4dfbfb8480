import Tobira.Framework.Pipe
import Tobira.Transport.RoundTrip

namespace Tobira.Relay

open Tobira.Framework Tobira.Transport

/-- `copy_bidirectional` has one buffer of this size for each direction. -/
def copyBufSize : Nat := 8*1024

/-- Where `relay_tcp` stands: `TfoStream::connect`, `write_all(&auth_id)`, the copy, its end. -/
inductive Phase where
  | connecting
  | writing
  | copying
  | finished
  deriving DecidableEq,Repr

/-- `relay_tcp` between an inbound stream and an upstream socket. `inbound` and `response` are
what the two peers have sent and `relay_tcp` has not read; `upstream` is everything it has
written to the socket and `outbound` what it has written to the inbound stream and the other
side has not taken yet. -/
structure TcpRelay where
  phase : Phase
  authLeft : Bytes
  inbound : Pipe UInt8
  up : Copy UInt8
  upstream : Bytes
  response : Pipe UInt8
  down : Copy UInt8
  outbound : Pipe UInt8
  deriving DecidableEq,Repr

inductive TcpAction where
  | connect
  | writeAuth (n : Nat)
  | startCopy
  | upRead (n : Nat)
  | upWrite (n : Nat)
  | upEof
  | upShutdown
  | downRead (n : Nat)
  | downWrite (n : Nat)
  | downEof
  | downShutdown
  | finish
  deriving DecidableEq,Repr

def TcpRelay.start (authId : Bytes) (inbound : Pipe UInt8) : TcpRelay where
  phase := .connecting
  authLeft := authId
  inbound := inbound
  up := .new
  upstream := []
  response := ⟨[],false⟩
  down := .new
  outbound := ⟨[],false⟩

/-- The steps of `copy_bidirectional`; `capacity` bounds what `outbound` holds. -/
def copyStep (capacity : Option Nat) (r : TcpRelay) : TcpAction → Option TcpRelay
  | .upRead n =>
    (r.up.read copyBufSize n r.inbound).map (fun p => { r with up := p.1,inbound := p.2 })
  | .upWrite n =>
    (r.up.write n).map (fun p => { r with up := p.1,upstream := r.upstream++p.2 })
  | .upEof => (r.up.sawEnd r.inbound).map (fun c => { r with up := c })
  | .upShutdown => r.up.shutdown.map (fun c => { r with up := c })
  | .downRead n =>
    (r.down.read copyBufSize n r.response).map (fun p => { r with down := p.1,response := p.2 })
  | .downWrite n =>
    if ∀ size∈capacity, r.outbound.items.length+n ≤ size then
      (r.down.write n).map
        (fun p => { r with down := p.1,outbound := ⟨r.outbound.items++p.2,r.outbound.closed⟩ })
    else none
  | .downEof => (r.down.sawEnd r.response).map (fun c => { r with down := c })
  | .downShutdown =>
    r.down.shutdown.map (fun c => { r with down := c,outbound := ⟨r.outbound.items,true⟩ })
  | .finish =>
    if r.up.done=true ∧ r.down.done=true then some { r with phase := .finished } else none
  | _ => none

def relayTcp (capacity : Option Nat) (r : TcpRelay) (a : TcpAction) : Option TcpRelay :=
  match r.phase,a with
  | .connecting,.connect => some { r with phase := .writing }
  | .writing,.writeAuth n =>
    if 0<n ∧ n ≤ r.authLeft.length then
      some { r with upstream := r.upstream++r.authLeft.take n,authLeft := r.authLeft.drop n }
    else none
  | .writing,.startCopy => if r.authLeft=[] then some { r with phase := .copying } else none
  | .copying,a => copyStep capacity r a
  | _,_ => none

/-- Everything a step of `relay_tcp` can do. -/
inductive TcpSteps (r : TcpRelay) : TcpRelay → Prop where
  | connect (hp : r.phase=.connecting) : TcpSteps r { r with phase := .writing }
  | writeAuth (n : Nat) (hp : r.phase=.writing) :
      TcpSteps r { r with
        upstream := r.upstream++r.authLeft.take n,authLeft := r.authLeft.drop n }
  | startCopy (hp : r.phase=.writing) (ha : r.authLeft=[]) :
      TcpSteps r { r with phase := .copying }
  | up {c : Copy UInt8} {src : Pipe UInt8} {out : Bytes} (hp : r.phase=.copying)
      (h : r.up.Moves c r.inbound src out) :
      TcpSteps r { r with up := c,inbound := src,upstream := r.upstream++out }
  | down {c : Copy UInt8} {src : Pipe UInt8} {out : Bytes} (hp : r.phase=.copying)
      (h : r.down.Moves c r.response src out) (hd : c.done=r.down.done) :
      TcpSteps r { r with
        down := c,response := src,outbound := ⟨r.outbound.items++out,r.outbound.closed⟩ }
  | shutdown {c : Copy UInt8} (hp : r.phase=.copying)
      (h : r.down.Moves c r.response r.response []) (hd : c.done=true) :
      TcpSteps r { r with down := c,outbound := ⟨r.outbound.items,true⟩ }
  | finish (hp : r.phase=.copying) (hu : r.up.done=true) (hd : r.down.done=true) :
      TcpSteps r { r with phase := .finished }

theorem copyStep_steps {capacity : Option Nat} {r r' : TcpRelay} {a : TcpAction}
    (hp : r.phase=.copying) (h : copyStep capacity r a=some r') : TcpSteps r r' := by
  have up {c : Copy UInt8} {src : Pipe UInt8} (hm : r.up.Moves c r.inbound src []) :
      TcpSteps r { r with up := c,inbound := src } := by
    have hs := TcpSteps.up hp hm
    rwa [List.append_nil] at hs
  have down {c : Copy UInt8} {src : Pipe UInt8} (hm : r.down.Moves c r.response src [])
      (hd : c.done=r.down.done) : TcpSteps r { r with down := c,response := src } := by
    have hs := TcpSteps.down hp hm hd
    rwa [List.append_nil] at hs
  cases a with
  | upRead n =>
    obtain ⟨⟨c,src⟩,hc,rfl⟩ := Option.map_eq_some_iff.mp h
    exact up (Copy.read_moves hc).1
  | upWrite n =>
    obtain ⟨⟨c,out⟩,hc,rfl⟩ := Option.map_eq_some_iff.mp h
    exact .up hp (Copy.write_moves r.inbound hc).1
  | upEof =>
    obtain ⟨c,hc,rfl⟩ := Option.map_eq_some_iff.mp h
    exact up (Copy.sawEnd_moves hc).1
  | upShutdown =>
    obtain ⟨c,hc,rfl⟩ := Option.map_eq_some_iff.mp h
    exact up (Copy.shutdown_moves r.inbound hc).1
  | downRead n =>
    obtain ⟨⟨c,src⟩,hc,rfl⟩ := Option.map_eq_some_iff.mp h
    obtain ⟨hm,hd⟩ := Copy.read_moves hc
    exact down hm hd
  | downWrite n =>
    simp only [copyStep] at h
    split_ifs at h
    obtain ⟨⟨c,out⟩,hc,rfl⟩ := Option.map_eq_some_iff.mp h
    obtain ⟨hm,hd⟩ := Copy.write_moves r.response hc
    exact .down hp hm hd
  | downEof =>
    obtain ⟨c,hc,rfl⟩ := Option.map_eq_some_iff.mp h
    obtain ⟨hm,hd⟩ := Copy.sawEnd_moves hc
    exact down hm hd
  | downShutdown =>
    obtain ⟨c,hc,rfl⟩ := Option.map_eq_some_iff.mp h
    obtain ⟨hm,hd⟩ := Copy.shutdown_moves r.response hc
    exact .shutdown hp hm hd
  | finish =>
    simp only [copyStep] at h
    split_ifs at h with hc
    cases h
    exact .finish hp hc.1 hc.2
  | _ => cases h

theorem relayTcp_steps {capacity : Option Nat} {r r' : TcpRelay} {a : TcpAction}
    (h : relayTcp capacity r a=some r') : TcpSteps r r' := by
  simp only [relayTcp] at h
  split at h
  · cases h
    exact .connect ‹_›
  · split_ifs at h
    cases h
    exact .writeAuth _ ‹_›
  · split_ifs at h with ha
    cases h
    exact .startCopy ‹_› ha
  · exact copyStep_steps ‹_› h
  · cases h

/-- The request direction: the Auth ID and everything that came in are on their way to the
upstream in order. -/
structure UpFlow (authId fed : Bytes) (r : TcpRelay) : Prop where
  bytes : r.upstream++r.authLeft++r.up.buf++r.inbound.items=authId++fed
  early : r.phase=.connecting ∨ r.phase=.writing → r.up=.new
  late : r.phase=.copying ∨ r.phase=.finished → r.authLeft=[]
  sound : r.up.Sound r.inbound
  ended : r.phase=.finished → r.up.done=true

/-- The response direction: what the upstream sent has been taken or is on its way. -/
structure DownFlow (answered taken : Bytes) (r : TcpRelay) : Prop where
  bytes : taken++r.outbound.items++r.down.buf++r.response.items=answered
  sound : r.down.Sound r.response
  ended : r.phase=.finished → r.down.done=true
  shut : r.down.done=true → r.outbound.closed=true

theorem upFlow_start (authId : Bytes) (inbound : Pipe UInt8) :
    UpFlow authId inbound.items (.start authId inbound) where
  bytes := by simp [TcpRelay.start,Copy.new]
  early := fun _ => rfl
  late := fun h => by rcases h with h|h <;> cases h
  sound := Copy.sound_new _
  ended := fun h => by cases h

theorem downFlow_start (authId : Bytes) (inbound : Pipe UInt8) :
    DownFlow [] [] (.start authId inbound) where
  bytes := rfl
  sound := Copy.sound_new _
  ended := fun h => by cases h
  shut := fun h => by cases h

/-- The request direction does not read the fields of the other one. -/
theorem UpFlow.respond {authId fed : Bytes} {r : TcpRelay} (hf : UpFlow authId fed r)
    (response : Pipe UInt8) (down : Copy UInt8) (outbound : Pipe UInt8) :
    UpFlow authId fed { r with response := response,down := down,outbound := outbound } :=
  ⟨hf.bytes,hf.early,hf.late,hf.sound,hf.ended⟩

theorem UpFlow.relayTcp {authId fed : Bytes} {capacity : Option Nat} {r r' : TcpRelay}
    {a : TcpAction} (hf : UpFlow authId fed r) (h : relayTcp capacity r a=some r') :
    UpFlow authId fed r' := by
  have hb := hf.bytes
  cases relayTcp_steps h with
  | connect hp =>
    have hnew := hf.early (Or.inl hp)
    exact ⟨hb,fun _ => hnew,by simp,hf.sound,by simp⟩
  | writeAuth n hp =>
    have hnew := hf.early (Or.inr hp)
    refine ⟨?_,fun _ => hnew,by simp [hp],hf.sound,by simp [hp]⟩
    change r.upstream++r.authLeft.take n++r.authLeft.drop n++r.up.buf++r.inbound.items=_
    rw [List.append_assoc r.upstream,List.take_append_drop,hb]
  | startCopy hp ha => exact ⟨hb,by simp,fun _ => ha,hf.sound,by simp⟩
  | @up c src out hp hm =>
    have hl := hf.late (Or.inl hp)
    refine ⟨?_,by simp [hp],fun _ => hl,hm.sound hf.sound,by simp [hp]⟩
    change r.upstream++out++r.authLeft++c.buf++src.items=authId++fed
    rw [hl,List.append_nil,List.append_assoc] at hb
    rw [hl,List.append_nil,List.append_assoc,List.append_assoc,← List.append_assoc out,hm.bytes,hb]
  | down hp hm hd => exact hf.respond _ _ _
  | shutdown hp hm hd => exact hf.respond _ _ _
  | finish hp hu hd => exact ⟨hb,by simp,fun _ => hf.late (Or.inl hp),hf.sound,fun _ => hu⟩

theorem DownFlow.relayTcp {answered taken : Bytes} {capacity : Option Nat} {r r' : TcpRelay}
    {a : TcpAction} (hf : DownFlow answered taken r) (h : relayTcp capacity r a=some r') :
    DownFlow answered taken r' := by
  have hb := hf.bytes
  cases relayTcp_steps h with
  | connect hp => exact ⟨hb,hf.sound,by simp,hf.shut⟩
  | writeAuth n hp => exact ⟨hb,hf.sound,hf.ended,hf.shut⟩
  | startCopy hp ha => exact ⟨hb,hf.sound,by simp,hf.shut⟩
  | up hp hm => exact ⟨hb,hf.sound,hf.ended,hf.shut⟩
  | @down c src out hp hm hd =>
    refine ⟨?_,hm.sound hf.sound,by simp [hp],fun he => hf.shut (hd ▸ he)⟩
    change taken++(r.outbound.items++out)++c.buf++src.items=answered
    rw [List.append_assoc] at hb
    rw [← List.append_assoc taken,List.append_assoc,List.append_assoc,← List.append_assoc out,
      hm.bytes,hb]
  | @shutdown c hp hm hd =>
    refine ⟨?_,hm.sound hf.sound,by simp [hp],fun _ => rfl⟩
    change taken++r.outbound.items++c.buf++r.response.items=answered
    have hm' := hm.bytes
    rw [List.nil_append] at hm'
    rw [List.append_assoc] at hb ⊢
    rw [hm',hb]
  | finish hp hu hd => exact ⟨hb,hf.sound,fun _ => hd,hf.shut⟩

/-- More bytes arrive on the inbound stream. -/
theorem UpFlow.feed {authId fed : Bytes} {r : TcpRelay} (hf : UpFlow authId fed r)
    (hc : r.inbound.closed=false) (more : Bytes) :
    UpFlow authId (fed++more)
      { r with inbound := ⟨r.inbound.items++more,r.inbound.closed⟩ } where
  bytes := by
    change r.upstream++r.authLeft++r.up.buf++(r.inbound.items++more)=authId++(fed++more)
    rw [← List.append_assoc,hf.bytes,List.append_assoc]
  early := hf.early
  late := hf.late
  sound := hf.sound.feed hc more
  ended := hf.ended

theorem UpFlow.close {authId fed : Bytes} {r : TcpRelay} (hf : UpFlow authId fed r) :
    UpFlow authId fed { r with inbound := ⟨r.inbound.items,true⟩ } :=
  ⟨hf.bytes,hf.early,hf.late,hf.sound.close,hf.ended⟩

/-- Once the upstream's write side is shut down, it has everything. -/
theorem UpFlow.complete {authId fed : Bytes} {r : TcpRelay} (hf : UpFlow authId fed r)
    (hd : r.up.done=true) : r.upstream=authId++fed ∧ r.inbound.closed=true := by
  obtain ⟨he,hb⟩ := hf.sound.done hd
  obtain ⟨hi,hc⟩ := hf.sound.eof he
  have hl : r.authLeft=[] := by
    cases hp : r.phase with
    | connecting =>
      rw [hf.early (Or.inl hp)] at hd
      cases hd
    | writing =>
      rw [hf.early (Or.inr hp)] at hd
      cases hd
    | copying => exact hf.late (Or.inl hp)
    | finished => exact hf.late (Or.inr hp)
  have h := hf.bytes
  rw [hl,hb,hi] at h
  exact ⟨by simpa using h,hc⟩

/-- The upstream sends more of its response. -/
theorem DownFlow.answer {answered taken : Bytes} {r : TcpRelay} (hf : DownFlow answered taken r)
    (hc : r.response.closed=false) (more : Bytes) :
    DownFlow (answered++more) taken
      { r with response := ⟨r.response.items++more,r.response.closed⟩ } where
  bytes := by
    change taken++r.outbound.items++r.down.buf++(r.response.items++more)=answered++more
    rw [← List.append_assoc,hf.bytes]
  sound := hf.sound.feed hc more
  ended := hf.ended
  shut := hf.shut

theorem DownFlow.close {answered taken : Bytes} {r : TcpRelay} (hf : DownFlow answered taken r) :
    DownFlow answered taken { r with response := ⟨r.response.items,true⟩ } :=
  ⟨hf.bytes,hf.sound.close,hf.ended,hf.shut⟩

/-- Only the other end closes the inbound stream. -/
theorem relayTcp_closed {capacity : Option Nat} {r r' : TcpRelay} {a : TcpAction}
    (h : relayTcp capacity r a=some r') : r'.inbound.closed=r.inbound.closed := by
  cases relayTcp_steps h with
  | up hp hm => exact hm.closed
  | _ => rfl

/-- What no step of `relay_tcp` undoes. -/
structure Keeps (r r' : TcpRelay) : Prop where
  up : r.up.done=true → r'.up.done=true
  down : r.down.done=true → r'.down.done=true ∧ r'.outbound.items=r.outbound.items
  outbound : r'.outbound.closed=true → r.outbound.closed=true ∨ r'.down.done=true

theorem relayTcp_keeps {capacity : Option Nat} {r r' : TcpRelay} {a : TcpAction}
    (h : relayTcp capacity r a=some r') (hs : r.down.Sound r.response) : Keeps r r' := by
  cases relayTcp_steps h with
  | up hp hm => exact ⟨hm.done,fun he => ⟨he,rfl⟩,Or.inl⟩
  | @down c src out hp hm hd =>
    refine ⟨fun he => he,?_,Or.inl⟩
    intro he
    refine ⟨hm.done he,?_⟩
    change r.outbound.items++out=r.outbound.items
    rw [hm.quiet hs he,List.append_nil]
  | shutdown hp hm hd => exact ⟨fun he => he,fun _ => ⟨hd,rfl⟩,fun _ => Or.inr hd⟩
  | _ => exact ⟨fun he => he,fun he => ⟨he,rfl⟩,Or.inl⟩

end Tobira.Relay
