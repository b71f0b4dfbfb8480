import Tobira.Subscription.Cache
import Tobira.Subscription.Dedup

namespace Tobira.Subscription

open Tobira.Framework Tobira.Framework.Json

/-- What the manager calls; `jsonText` is `serde_json::to_string`. -/
structure SubscriptionCrates where
  parser : ParserCrates
  regex : RegexCrate
  jsonText : Value → Text

/-- `read` is the body that the URL or the file gives, or the text of the error. -/
def fetchSource (crates : SubscriptionCrates) (source : SubscriptionSource)
    (read : Except Text Text) : Except SourceError (List VMessNode) :=
  match source.url,source.path with
  | some _,some _ => .error .bothSet
  | none,none => .error .neitherSet
  | _,_ =>
    match read with
    | .error cause => .error (.read cause)
    | .ok body =>
      let rawNodes := parseSubscription crates.parser body
      .ok (applyPipeline crates.regex rawNodes source.process)

def tag (name : Text) (node : VMessNode) : VMessNode := { node with source := name }

/-- A source with the outcome of `fetch_source`. -/
abbrev Fetched := SubscriptionSource×Except SourceError (List VMessNode)

/-- The maps that the loop of `reload` updates. -/
structure Loading where
  cache : CacheMap
  newSourceMap : CacheMap

def loadSource (l : Loading) (f : Fetched) : Loading :=
  let name := f.1.name
  match f.2 with
  | .ok nodes =>
    let nodes := nodes.map (tag name)
    { cache := l.cache.insert name nodes, newSourceMap := l.newSourceMap.insert name nodes }
  | .error _ =>
    match l.cache.lookup name with
    | some cached => { l with newSourceMap := l.newSourceMap.insert name (cached.map (tag name)) }
    | none => l

def loadSources (cache : CacheMap) (fetched : List Fetched) : Loading :=
  fetched.foldl loadSource ⟨cache,∅⟩

/-- The sources in config order, the `i`-th with what reading it gives. -/
def fetchSources (crates : SubscriptionCrates) (sources : List SubscriptionSource)
    (reads : Nat → Except Text Text) : List Fetched :=
  sources.zipIdx.map (fun p => (p.1,fetchSource crates p.1 (reads p.2)))

/-- What a source contributes to the flat list: the entry of its name. -/
def contribution (newSourceMap : CacheMap) (source : SubscriptionSource) : List VMessNode :=
  (newSourceMap.lookup source.name).getD []

structure Reloaded where
  /-- What is written to the cache file; `none` without one. -/
  content : Option Text
  nodesBySource : CacheMap
  /-- What `deduplicate_nodes` is called with. -/
  merged : List VMessNode
  allNodes : List VMessNode

/-- The cache that a reload starts with. -/
def startCache (crates : SubscriptionCrates) (config : SubscriptionConfig)
    (content : Option Text) : CacheMap :=
  if config.cacheFile.isSome then loadCache crates.parser.json content else ∅

def reload (crates : SubscriptionCrates) (config : SubscriptionConfig)
    (reads : Nat → Except Text Text) (content : Option Text) : Reloaded :=
  let l := loadSources (startCache crates config content) (fetchSources crates config.sources reads)
  let all := config.sources.flatMap (contribution l.newSourceMap)
  { content := config.cacheFile.map (fun _ => saveCache crates.jsonText l.cache)
    nodesBySource := l.newSourceMap
    merged := all
    allNodes := deduplicateNodes all config.deduplication }

theorem fetchSources_fst (crates : SubscriptionCrates) (sources : List SubscriptionSource)
    (reads : Nat → Except Text Text) :
    (fetchSources crates sources reads).map Prod.fst=sources := by
  have hfst : (fun p : SubscriptionSource×Nat => p.1)=Prod.fst := rfl
  simp only [fetchSources,List.map_map,Function.comp_def,hfst,List.zipIdx_map_fst]

@[simp] theorem tag_tag (name : Text) (node : VMessNode) :
    tag name (tag name node)=tag name node := rfl

theorem SameRoute.tag {node node' : VMessNode} (h : SameRoute node node') (name : Text) :
    SameRoute (tag name node) (tag name node') :=
  ⟨rfl,h.server,h.port,h.uuid,h.alterId,h.network,h.tls,h.sni,h.grpcServiceName,h.wsPath,h.wsHost⟩

/-- The nodes of the last source of a name that was fetched. -/
def lastSuccess (name : Text) : List Fetched → Option (List VMessNode)
  | [] => none
  | f::fetched => (lastSuccess name fetched).or
      (if f.1.name=name then f.2.toOption.map (List.map (tag name)) else none)

/-- A failed source leaves the cache as it is, and its name as it is. -/
theorem loadSource_lookup (l : Loading) (f : Fetched) (name : Text) :
    (loadSource l f).cache.lookup name=
      (if f.1.name=name then f.2.toOption.map (List.map (tag name)) else none).or
        (l.cache.lookup name) ∧
    (loadSource l f).newSourceMap.lookup name=
      (if f.1.name=name then
        (f.2.toOption.map (List.map (tag name))).or
          ((l.cache.lookup name).map (List.map (tag name))) else none).or
        (l.newSourceMap.lookup name) := by
  obtain ⟨source,result⟩ := f
  by_cases hn : source.name=name
  · subst hn
    cases result with
    | ok nodes => simp [loadSource,Except.toOption]
    | error e =>
      cases hc : l.cache.lookup source.name with
      | none => simp [loadSource,Except.toOption,hc]
      | some cached => simp [loadSource,Except.toOption,hc]
  · have hne : name≠source.name := fun h => hn h.symm
    cases result with
    | ok nodes => simp [loadSource,hn,AList.lookup_insert_ne hne]
    | error e =>
      cases hc : l.cache.lookup source.name with
      | none => simp [loadSource,hc,hn]
      | some cached => simp [loadSource,hc,hn,AList.lookup_insert_ne hne]

theorem foldl_cache_lookup (fetched : List Fetched) (l : Loading) (name : Text) :
    (fetched.foldl loadSource l).cache.lookup name=
      (lastSuccess name fetched).or (l.cache.lookup name) := by
  induction fetched generalizing l with
  | nil => rfl
  | cons f fetched ih =>
    rw [List.foldl_cons,ih,(loadSource_lookup l f name).1,lastSuccess,Option.or_assoc]

/-- After the loop a name holds its last fetched nodes, else what was cached for it before. -/
theorem foldl_newSourceMap_lookup (fetched : List Fetched) (l : Loading) (name : Text) :
    (fetched.foldl loadSource l).newSourceMap.lookup name=
      ((lastSuccess name fetched).or
        (if name∈fetched.map (fun f => f.1.name) then
          (l.cache.lookup name).map (List.map (tag name)) else none)).or
        (l.newSourceMap.lookup name) := by
  induction fetched generalizing l with
  | nil => rfl
  | cons f fetched ih =>
    obtain ⟨hc,hs⟩ := loadSource_lookup l f name
    rw [List.foldl_cons,ih,hc,hs,lastSuccess]
    by_cases hn : f.1.name=name
    · have hm : name∈(f::fetched).map (fun f => f.1.name) := by simp [hn]
      rw [if_pos hm]
      simp only [if_pos hn]
      cases lastSuccess name fetched with
      | some nodes => rfl
      | none =>
        cases f.2.toOption with
        | some nodes => by_cases hm : name∈fetched.map (fun f => f.1.name) <;> simp [hm]
        | none =>
          cases l.cache.lookup name with
          | some cached => by_cases hm : name∈fetched.map (fun f => f.1.name) <;> simp [hm]
          | none => by_cases hm : name∈fetched.map (fun f => f.1.name) <;> simp [hm]
    · have hm : name∈(f::fetched).map (fun f => f.1.name) ↔ name∈fetched.map (fun f => f.1.name) := by
        have hne : name≠f.1.name := fun h => hn h.symm
        simp [hne]
      simp only [if_neg hn,hm,Option.none_or,Option.or_none]

theorem loadSources_cache (cache : CacheMap) (fetched : List Fetched) (name : Text) :
    (loadSources cache fetched).cache.lookup name=
      (lastSuccess name fetched).or (cache.lookup name) :=
  foldl_cache_lookup fetched _ name

theorem loadSources_newSourceMap (cache : CacheMap) {fetched : List Fetched} {f : Fetched}
    (h : f∈fetched) : (loadSources cache fetched).newSourceMap.lookup f.1.name=
      (lastSuccess f.1.name fetched).or
        ((cache.lookup f.1.name).map (List.map (tag f.1.name))) := by
  have hm : f.1.name∈fetched.map (fun f => f.1.name) := List.mem_map.mpr ⟨f,h,rfl⟩
  rw [loadSources,foldl_newSourceMap_lookup,if_pos hm,AList.lookup_empty,Option.or_none]

/-- The last success of a name is one of the sources of that name. -/
theorem lastSuccess_some {name : Text} {fetched : List Fetched} {nodes : List VMessNode}
    (h : lastSuccess name fetched=some nodes) :
    ∃ f∈fetched, f.1.name=name ∧ ∃ raw, f.2=.ok raw ∧ raw.map (tag name)=nodes := by
  induction fetched with
  | nil => cases h
  | cons f fetched ih =>
    rw [lastSuccess,Option.or_eq_some_iff] at h
    rcases h with h|⟨-,h⟩
    · obtain ⟨g,hg,hrest⟩ := ih h
      exact ⟨g,by simp [hg],hrest⟩
    · split_ifs at h with hn
      obtain ⟨raw,hr,hm⟩ := Option.map_eq_some_iff.mp h
      refine ⟨f,by simp,hn,raw,?_,hm⟩
      cases hf : f.2 with
      | error e =>
        rw [hf] at hr
        cases hr
      | ok nodes' =>
        rw [hf] at hr
        cases hr
        rfl

theorem lastSuccess_none {name : Text} {fetched : List Fetched}
    (h : lastSuccess name fetched=none) {f : Fetched} (hf : f∈fetched) (hn : f.1.name=name) :
    ∃ e, f.2=.error e := by
  induction fetched with
  | nil => cases hf
  | cons g fetched ih =>
    rw [lastSuccess,Option.or_eq_none_iff] at h
    rcases List.mem_cons.mp hf with rfl|hf
    · have hr := h.2
      rw [if_pos hn,Option.map_eq_none_iff] at hr
      cases hf : f.2 with
      | error e => exact ⟨e,rfl⟩
      | ok nodes =>
        rw [hf] at hr
        cases hr
    · exact ih h.1 hf

theorem lastSuccess_of_failed {name : Text} {fetched : List Fetched}
    (h : ∀ f∈fetched, f.1.name=name → ∃ e, f.2=.error e) : lastSuccess name fetched=none := by
  cases hs : lastSuccess name fetched with
  | none => rfl
  | some nodes =>
    obtain ⟨f,hf,hn,raw,hraw,-⟩ := lastSuccess_some hs
    obtain ⟨e,he⟩ := h f hf hn
    rw [hraw] at he
    cases he

end Tobira.Subscription
