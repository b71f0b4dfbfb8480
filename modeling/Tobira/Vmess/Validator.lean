import Tobira.Framework.Net
import Tobira.Vmess.Kdf

namespace Tobira.Vmess

open Tobira.Framework Tobira.Framework.Net Tobira.Transport

/-- The parts of an `http::Uri`. -/
structure Uri where
  scheme : Text
  authority : Text
  path : Text
  query : Option Text
  deriving DecidableEq,Repr

inductive Transport where
  | tcp
  | grpc (serviceName tlsSni : Text) (requestUri : Uri)
  deriving DecidableEq,Repr

structure Upstream where
  addr : Text
  parsedAddr : SocketAddr
  transport : Transport
  tcpFastOpen : Bool
  deriving DecidableEq,Repr

structure Entry where
  uuid : Text
  verifier : AuthVerifier
  upstream : Upstream

structure Validator where
  entries : List Entry

/-- The loop of `Validator::new`; `seen` holds the UUIDs of the pairs before. -/
def newEntries (c : Crypto) (seen : List Text) :
    List (Text×Upstream) → Except (Fault VmessError) (List Entry)
  | [] => .ok []
  | (uuid,upstream)::pairs =>
    if uuid∈seen then .error (.error (.duplicateUuid uuid))
    else do
      let verifier ← AuthVerifier.fromUuid c uuid
      let entries ← newEntries c (uuid::seen) pairs
      return ⟨uuid,verifier,upstream⟩::entries

def Validator.new (c : Crypto) (pairs : List (Text×Upstream)) :
    Except (Fault VmessError) Validator := (newEntries c [] pairs).map Validator.mk

/-- The first entry whose verifier accepts the Auth ID. -/
def Validator.matchAuthId (c : Crypto) (now : UInt64) (v : Validator) (authId : ByteArr 16) :
    Option Upstream :=
  (v.entries.find? (fun entry => entry.verifier.verify c now authId)).map Entry.upstream

/-- `grpc_endpoints`, as the list of what it puts into the set. -/
def Validator.grpcEndpoints (v : Validator) : List (Text×Text) :=
  v.entries.filterMap (fun entry => match entry.upstream.transport with
    | .grpc _ tlsSni _ => some (entry.upstream.addr,tlsSni)
    | .tcp => none)

/-- What the round for the first pair did, and what was left to the others. -/
theorem newEntries_cons {c : Crypto} {seen : List Text} {uuid : Text} {upstream : Upstream}
    {pairs : List (Text×Upstream)} {entries : List Entry}
    (h : newEntries c seen ((uuid,upstream)::pairs)=.ok entries) :
    ∃ verifier rest, uuid∉seen ∧ AuthVerifier.fromUuid c uuid=.ok verifier ∧
      newEntries c (uuid::seen) pairs=.ok rest ∧ entries=⟨uuid,verifier,upstream⟩::rest := by
  rw [newEntries] at h
  split_ifs at h with hseen
  obtain ⟨verifier,hv,h⟩ := bind_ok h
  obtain ⟨rest,ht,h⟩ := bind_ok h
  cases h
  exact ⟨verifier,rest,hseen,hv,ht,rfl⟩

/-- One entry for each pair, in order, and every UUID parses. -/
theorem newEntries_spec {c : Crypto} {seen : List Text} {pairs : List (Text×Upstream)}
    {entries : List Entry} (h : newEntries c seen pairs=.ok entries) :
    entries.map (fun e => (e.uuid,e.upstream))=pairs ∧
      (∀ p∈pairs, p.1∉seen ∧ ∃ bytes, parseUuid p.1=.ok bytes) ∧
      (pairs.map Prod.fst).Nodup := by
  induction pairs generalizing seen entries with
  | nil =>
    cases h
    simp
  | cons p pairs ih =>
    obtain ⟨uuid,upstream⟩ := p
    obtain ⟨v,rest,hseen,hv,ht,rfl⟩ := newEntries_cons h
    obtain ⟨hmap,hall,hnodup⟩ := ih ht
    have hparse : ∃ bytes, parseUuid uuid=.ok bytes := by
      cases hp : parseUuid uuid with
      | error e =>
        rw [(fromUuid_spec c uuid).1 e hp] at hv
        cases hv
      | ok bytes => exact ⟨bytes,rfl⟩
    refine ⟨by simp [hmap],?_,?_⟩
    · intro p hp
      rcases List.mem_cons.mp hp with rfl|hp
      · exact ⟨hseen,hparse⟩
      · exact ⟨fun hs => (hall p hp).1 (by simp [hs]),(hall p hp).2⟩
    · rw [List.map_cons,List.nodup_cons]
      refine ⟨?_,hnodup⟩
      intro hm
      obtain ⟨q,hq,he⟩ := List.mem_map.mp hm
      exact (hall q hq).1 (by simp [he])

end Tobira.Vmess
