import Tobira.Subscription.Reader
import Tobira.Subscription.Reload

namespace Tobira.Subscription

open Tobira.Framework

/-- A source's own contribution: what it fetched itself, else what was cached for it. -/
def ownContribution (cache : CacheMap) (f : Fetched) : List VMessNode :=
  match f.2 with
  | .ok nodes => nodes.map (tag f.1.name)
  | .error _ => ((cache.lookup f.1.name).map (List.map (tag f.1.name))).getD []

/-- What each source contributes in the code: the entry under its name after the loop. -/
def contributions (cache : CacheMap) (fetched : List Fetched) : List (List VMessNode) :=
  fetched.map (fun f => contribution (loadSources cache fetched).newSourceMap f.1)

/-- Sources with one name contribute the same nodes. -/
def Agree (cache : CacheMap) (fetched : List Fetched) : Prop :=
  ∀ f∈fetched, ∀ g∈fetched, f.1.name=g.1.name → ownContribution cache f=ownContribution cache g

theorem contribution_eq (cache : CacheMap) {fetched : List Fetched} {f : Fetched}
    (h : f∈fetched) : contribution (loadSources cache fetched).newSourceMap f.1=
      ((lastSuccess f.1.name fetched).or
        ((cache.lookup f.1.name).map (List.map (tag f.1.name)))).getD [] := by
  rw [contribution,loadSources_newSourceMap cache h]

/-- The entry of a name is the own contribution of one of the sources with that name. -/
theorem contribution_own (cache : CacheMap) {fetched : List Fetched} {f : Fetched}
    (h : f∈fetched) : ∃ g∈fetched, g.1.name=f.1.name ∧
      contribution (loadSources cache fetched).newSourceMap f.1=ownContribution cache g := by
  rw [contribution_eq cache h]
  cases hs : lastSuccess f.1.name fetched with
  | some nodes =>
    obtain ⟨g,hg,hn,raw,hr,hm⟩ := lastSuccess_some hs
    refine ⟨g,hg,hn,?_⟩
    rw [ownContribution,hr,hn,← hm]
    rfl
  | none =>
    obtain ⟨e,he⟩ := lastSuccess_none hs h rfl
    refine ⟨f,h,rfl,?_⟩
    rw [ownContribution,he]
    rfl

theorem contributions_iff (cache : CacheMap) (fetched : List Fetched) :
    contributions cache fetched=fetched.map (ownContribution cache) ↔ Agree cache fetched := by
  rw [contributions,List.map_inj_left]
  constructor
  · intro h f hf g hg hn
    rw [← h f hf,← h g hg,contribution,contribution,hn]
  · intro h f hf
    obtain ⟨g,hg,hn,he⟩ := contribution_own cache hf
    rw [he]
    exact h g hg f hf hn

theorem merged_eq (crates : SubscriptionCrates) (config : SubscriptionConfig)
    (reads : Nat → Except Text Text) (content : Option Text) :
    (reload crates config reads content).merged=
      (contributions (startCache crates config content)
        (fetchSources crates config.sources reads)).flatten := by
  have hsources : ∀ g : SubscriptionSource → List VMessNode, config.sources.flatMap g=
      (fetchSources crates config.sources reads).flatMap (fun f => g f.1) := by
    intro g
    have hm := List.flatMap_map Prod.fst g (l := fetchSources crates config.sources reads)
    rwa [fetchSources_fst] at hm
  rw [contributions,← List.flatMap_def]
  exact hsources _

/-- Where every source was read, every node came from one of them. -/
theorem allNodes_source {crates : SubscriptionCrates} {config : SubscriptionConfig}
    {reads : Nat → Except Text Text} {content : Option Text}
    (h : ∀ f∈fetchSources crates config.sources reads, ∃ nodes, f.2=.ok nodes) {node : VMessNode}
    (hn : node∈(reload crates config reads content).allNodes) :
    ∃ f∈fetchSources crates config.sources reads, ∃ nodes, f.2=.ok nodes ∧
      ∃ node'∈nodes, SameRoute (tag f.1.name node') node := by
  obtain ⟨merged,hm,hr⟩ := deduplicateNodes_route hn
  have heq := merged_eq crates config reads content
  simp only [reload] at heq
  rw [heq] at hm
  obtain ⟨part,hp,hm⟩ := List.mem_flatten.mp hm
  obtain ⟨f,hf,rfl⟩ := List.mem_map.mp hp
  obtain ⟨g,hg,-,hown⟩ := contribution_own (startCache crates config content) hf
  obtain ⟨nodes,hok⟩ := h g hg
  rw [hown,ownContribution,hok] at hm
  obtain ⟨node',hn',rfl⟩ := List.mem_map.mp hm
  exact ⟨g,hg,nodes,hok,node',hn',hr⟩

/-- The merged list is put together from one part for each source, in config order, and the
parts are the sources' own contributions exactly when sources that share a name contribute
the same nodes. -/
theorem merge_keeps_contributions_iff (crates : SubscriptionCrates) (config : SubscriptionConfig)
    (reads : Nat → Except Text Text) (content : Option Text) :
    let cache := startCache crates config content
    let fetched := fetchSources crates config.sources reads
    (contributions cache fetched=fetched.map (ownContribution cache) ↔ Agree cache fetched) ∧
    (reload crates config reads content).merged=(contributions cache fetched).flatten ∧
    (Agree cache fetched → (reload crates config reads content).merged=
      fetched.flatMap (ownContribution cache)) := by
  intro cache fetched
  have hiff := contributions_iff cache fetched
  have hmerged := merged_eq crates config reads content
  refine ⟨hiff,hmerged,?_⟩
  intro ha
  rw [hmerged,hiff.mpr ha,List.flatMap_def]

/-- No pattern compiles; the pipelines it is used with have none. -/
def emptyRegex : RegexCrate where
  Regex := Empty
  compile _ := none
  isMatch re _ := re.elim
  replaceAll re _ _ := re.elim

def plainSubscription : SubscriptionCrates where
  parser := plainParser
  regex := emptyRegex
  jsonText := Json.render

def urlSource (name url : String) : SubscriptionSource where
  name := name.toList
  url := some url.toList
  path := none
  userAgent := "tobira".toList
  process := []

/-- Two sources with one name. -/
def twinConfig : SubscriptionConfig where
  cacheFile := none
  updateInterval := 0
  sources := [urlSource "sub" "https://a.example/",urlSource "sub" "https://b.example/"]
  deduplication := "rename".toList

def oneLink : Text :=
  "vmess://550e8400-e29b-41d4-a716-446655440000@192.0.2.1:443?type=tcp#node".toList

/-- Both sources are fetched; the first gives one node, the second none. -/
def firstReads (i : Nat) : Except Text Text := if i=0 then .ok oneLink else .ok []

/-- Both sources are fetched; the first gives no node, the second one. -/
def secondReads (i : Nat) : Except Text Text := if i=0 then .ok [] else .ok oneLink

/-- The loader accepts both sources. In one order the node is lost, in the other it is there
twice. -/
theorem twin_sources_merge :
    (∀ source∈twinConfig.sources, SubscriptionSource.deserialize source=.ok source) ∧
    ((fetchSources plainSubscription twinConfig.sources firstReads).flatMap
      (ownContribution ∅)).length=1 ∧
    (reload plainSubscription twinConfig firstReads none).merged=[] ∧
    ((fetchSources plainSubscription twinConfig.sources secondReads).flatMap
      (ownContribution ∅)).length=1 ∧
    (reload plainSubscription twinConfig secondReads none).merged.length=2 := by
  decide +kernel

end Tobira.Subscription
