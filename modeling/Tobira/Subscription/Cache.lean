import Mathlib.Data.List.AList
import Tobira.Framework.Json
import Tobira.Subscription.Parser

namespace Tobira.Subscription

open Tobira.Framework Tobira.Framework.Json

/-- The nodes of each source by its name. -/
abbrev CacheMap := AList (fun _ : Text => List VMessNode)

def optionValue : Option Text → Value
  | none => .null
  | some s => .str s

/-- The derived `Serialize` of a node. -/
def nodeValue (node : VMessNode) : Value :=
  .obj [("name".toList,.str node.name),
    ("source".toList,.str node.source),
    ("server".toList,.str node.server),
    ("port".toList,.int node.port.toNat),
    ("uuid".toList,.str node.uuid),
    ("alter_id".toList,.int node.alterId.toNat),
    ("security".toList,.str node.security),
    ("network".toList,.str node.network),
    ("tls".toList,.bool node.tls),
    ("sni".toList,.str node.sni),
    ("grpc_service_name".toList,optionValue node.grpcServiceName),
    ("ws_path".toList,optionValue node.wsPath),
    ("ws_host".toList,optionValue node.wsHost),
    ("packet_encoding".toList,.str node.packetEncoding.asStr)]

/-- An unsigned integer below the bound of its type. -/
def natValue (bound : Nat) : Value → Option Nat
  | .int n => if 0 ≤ n ∧ n<bound then some n.toNat else none
  | _ => none

def boolValue : Value → Option Bool
  | .bool b => some b
  | _ => none

def optionTextValue : Value → Option (Option Text)
  | .null => some none
  | .str s => some (some s)
  | _ => none

/-- A field that has to be there. -/
def required {α : Type} (members : List (Text×Value)) (name : String)
    (decode : Value → Option α) : Option α :=
  match members.filter (fun m => m.1=name.toList) with
  | [m] => decode m.2
  | _ => none

def nodeOfMembers (members : List (Text×Value)) : Option VMessNode := do
  let name ← required members "name" stringValue
  let source ← field members ["source".toList] stringValue []
  let server ← required members "server" stringValue
  let port ← required members "port" (natValue 65536)
  let uuid ← required members "uuid" stringValue
  let alterId ← required members "alter_id" (natValue 4294967296)
  let security ← required members "security" stringValue
  let network ← required members "network" stringValue
  let tls ← required members "tls" boolValue
  let sni ← required members "sni" stringValue
  let grpcServiceName ← field members ["grpc_service_name".toList] optionTextValue none
  let wsPath ← field members ["ws_path".toList] optionTextValue none
  let wsHost ← field members ["ws_host".toList] optionTextValue none
  let packetEncoding ← field members ["packet_encoding".toList] packetEncodingValue .default
  return ⟨name,source,server,UInt16.ofNat port,uuid,UInt32.ofNat alterId,security,network,tls,sni,
    grpcServiceName,wsPath,wsHost,packetEncoding⟩

def nodeFields : List Text :=
  ["name","source","server","port","uuid","alter_id","security","network","tls","sni",
    "grpc_service_name","ws_path","ws_host","packet_encoding"].map String.toList

/-- The derived `Deserialize` of a node; in an array only the last field may be missing. -/
def nodeOfValue : Value → Option VMessNode
  | .obj members => nodeOfMembers members
  | .arr values =>
    if values.length=nodeFields.length ∨ values.length+1=nodeFields.length then
      nodeOfMembers (nodeFields.zip values)
    else none
  | _ => none

def nodesOfValue : Value → Option (List VMessNode)
  | .arr values => values.mapM nodeOfValue
  | _ => none

def cacheValue (cache : CacheMap) : Value :=
  .obj (cache.entries.map (fun e => (e.1,.arr (e.2.map nodeValue))))

/-- The members of an object go into the map one after the other. -/
def cacheOfMembers (cache : CacheMap) : List (Text×Value) → Option CacheMap
  | [] => some cache
  | (name,v)::members => do
    let nodes ← nodesOfValue v
    cacheOfMembers (cache.insert name nodes) members

def cacheOfValue : Value → Option CacheMap
  | .obj members => cacheOfMembers ∅ members
  | _ => none

/-- `content` is what the file holds; `none` when it cannot be read. -/
def loadCache (json : Text → Option Value) (content : Option Text) : CacheMap :=
  ((content.bind json).bind cacheOfValue).getD ∅

/-- The content that `save_cache` writes. -/
def saveCache (jsonText : Value → Text) (cache : CacheMap) : Text := jsonText (cacheValue cache)

theorem required_mem {members : List (Text×Value)} (hn : (members.map Prod.fst).Nodup)
    {name : String} {v : Value} (hm : (name.toList,v)∈members) {α : Type}
    (decode : Value → Option α) : required members name decode=decode v := by
  rw [required,filter_key hn hm]

theorem optionTextValue_optionValue (o : Option Text) : optionTextValue (optionValue o)=some o := by
  cases o <;> rfl

theorem natValue_int {bound n : Nat} (h : n<bound) : natValue bound (.int n)=some n := by
  have hb : (0 : Int) ≤ n ∧ (n : Int)<bound := by omega
  rw [natValue,if_pos hb]
  rfl

/-- The members that a node is written as. -/
def nodeMembers (node : VMessNode) : List (Text×Value) :=
  match nodeValue node with
  | .obj members => members
  | _ => []

theorem nodeValue_eq (node : VMessNode) : nodeValue node=.obj (nodeMembers node) := rfl

theorem nodeMembers_nodup (node : VMessNode) : ((nodeMembers node).map Prod.fst).Nodup := by
  have hk : (nodeMembers node).map Prod.fst=nodeFields := rfl
  rw [hk]
  decide

theorem nodeOfValue_nodeValue (node : VMessNode) : nodeOfValue (nodeValue node)=some node := by
  have hn := nodeMembers_nodup node
  have hport := natValue_int (show node.port.toNat<65536 from node.port.toNat_lt)
  have halter := natValue_int (show node.alterId.toNat<4294967296 from node.alterId.toNat_lt)
  have hencoding := PacketEncoding.parse_asStr node.packetEncoding
  have hr (name : String) (v : Value) (hm : (name.toList,v)∈nodeMembers node) {α : Type}
      (decode : Value → Option α) : required (nodeMembers node) name decode=decode v :=
    required_mem hn hm decode
  have hf (name : String) (v : Value) (hm : (name.toList,v)∈nodeMembers node) {α : Type}
      (decode : Value → Option α) (missing : α) :
      field (nodeMembers node) [name.toList] decode missing=decode v := field_mem hn hm decode missing
  rw [nodeValue_eq,nodeOfValue,nodeOfMembers]
  simp only [hr "name" (.str node.name) (by simp [nodeMembers,nodeValue]),
    hf "source" (.str node.source) (by simp [nodeMembers,nodeValue]),
    hr "server" (.str node.server) (by simp [nodeMembers,nodeValue]),
    hr "port" (.int node.port.toNat) (by simp [nodeMembers,nodeValue]),
    hr "uuid" (.str node.uuid) (by simp [nodeMembers,nodeValue]),
    hr "alter_id" (.int node.alterId.toNat) (by simp [nodeMembers,nodeValue]),
    hr "security" (.str node.security) (by simp [nodeMembers,nodeValue]),
    hr "network" (.str node.network) (by simp [nodeMembers,nodeValue]),
    hr "tls" (.bool node.tls) (by simp [nodeMembers,nodeValue]),
    hr "sni" (.str node.sni) (by simp [nodeMembers,nodeValue]),
    hf "grpc_service_name" (optionValue node.grpcServiceName) (by simp [nodeMembers,nodeValue]),
    hf "ws_path" (optionValue node.wsPath) (by simp [nodeMembers,nodeValue]),
    hf "ws_host" (optionValue node.wsHost) (by simp [nodeMembers,nodeValue]),
    hf "packet_encoding" (.str node.packetEncoding.asStr) (by simp [nodeMembers,nodeValue]),
    stringValue,boolValue,packetEncodingValue,hport,halter,hencoding,optionTextValue_optionValue,
    Option.bind_eq_bind,Option.bind_some,Option.pure_def,UInt16.ofNat_toNat,UInt32.ofNat_toNat]

theorem nodesOfValue_map (nodes : List VMessNode) :
    nodesOfValue (.arr (nodes.map nodeValue))=some nodes := by
  rw [nodesOfValue]
  induction nodes with
  | nil => rfl
  | cons node nodes ih =>
    simp only [List.map_cons,List.mapM_cons,nodeOfValue_nodeValue,ih,Option.bind_eq_bind,
      Option.bind_some,Option.pure_def]

/-- Reading the entries back puts each of them into the map. -/
theorem cacheOfMembers_lookup (entries : List (Sigma fun _ : Text => List VMessNode))
    (hn : entries.NodupKeys) (cache : CacheMap) :
    ∃ cache', cacheOfMembers cache
        (entries.map (fun e => (e.1,.arr (e.2.map nodeValue))))=some cache' ∧
      ∀ name, cache'.lookup name=(entries.dlookup name).or (cache.lookup name) := by
  induction entries generalizing cache with
  | nil => exact ⟨cache,rfl,fun name => rfl⟩
  | cons e entries ih =>
    obtain ⟨k,nodes⟩ := e
    rw [List.nodupKeys_cons] at hn
    obtain ⟨cache',hc,hl⟩ := ih hn.2 (cache.insert k nodes)
    refine ⟨cache',?_,?_⟩
    · simp only [List.map_cons,cacheOfMembers,nodesOfValue_map,Option.bind_eq_bind,Option.bind_some]
      exact hc
    · intro name
      rw [hl name]
      by_cases hk : name=k
      · subst hk
        have hnone : entries.dlookup name=none := List.dlookup_eq_none.mpr hn.1
        rw [hnone,List.dlookup_cons_eq,AList.lookup_insert]
        rfl
      · rw [List.dlookup_cons_ne _ _ hk,AList.lookup_insert_ne hk]

theorem nodeValue_plain (node : VMessNode) : Plain (nodeValue node) := by
  have hport := node.port.toNat_lt
  have halter := node.alterId.toNat_lt
  have hoption : ∀ o, Plain (optionValue o) := by
    intro o
    cases o <;> trivial
  simp only [nodeValue,Plain,PlainMembers,hoption,and_true,true_and]
  omega

theorem cacheValue_plain (cache : CacheMap) : Plain (cacheValue cache) := by
  have hnodes : ∀ nodes : List VMessNode, PlainValues (nodes.map nodeValue) := by
    intro nodes
    induction nodes with
    | nil => trivial
    | cons node nodes ih => exact ⟨nodeValue_plain node,ih⟩
  rw [cacheValue,Plain]
  induction cache.entries with
  | nil => trivial
  | cons e entries ih => exact ⟨hnodes e.2,ih⟩

theorem nodeValue_depth (node : VMessNode) : depth (nodeValue node)=1 := by
  have hoption : ∀ o, depth (optionValue o)=0 := by
    intro o
    cases o <;> rfl
  simp only [nodeValue,depth,depthMembers,hoption,Nat.max_self]

/-- The map, the nodes of a source, and a node. -/
theorem cacheValue_depth (cache : CacheMap) : depth (cacheValue cache) ≤ 3 := by
  rw [cacheValue,depth]
  apply Nat.succ_le_succ
  apply depthMembers_le
  intro m hm
  obtain ⟨e,-,rfl⟩ := List.mem_map.mp hm
  rw [depth]
  apply Nat.succ_le_succ
  apply depthValues_le
  intro v hv
  obtain ⟨node,-,rfl⟩ := List.mem_map.mp hv
  exact (nodeValue_depth node).le

/-- `serde_json` reads back what it writes, as far as a cache file nests; its reader gives up on
more than 127 levels only. -/
def ReadsBack (json : Text → Option Value) (jsonText : Value → Text) : Prop :=
  ∀ v, Plain v → depth v ≤ 3 → json (jsonText v)=some v

/-- A cache that was saved is read back with the same entries. -/
theorem loadCache_saveCache {json : Text → Option Value} {jsonText : Value → Text}
    (hjson : ReadsBack json jsonText) (cache : CacheMap) (name : Text) :
    (loadCache json (some (saveCache jsonText cache))).lookup name=cache.lookup name := by
  obtain ⟨cache',hc,hl⟩ := cacheOfMembers_lookup cache.entries cache.nodupKeys ∅
  rw [loadCache,saveCache,Option.bind_some,hjson _ (cacheValue_plain cache) (cacheValue_depth cache),
    Option.bind_some,cacheValue,cacheOfValue,hc,Option.getD_some,hl name,AList.lookup_empty,Option.or_none]
  rfl

end Tobira.Subscription
