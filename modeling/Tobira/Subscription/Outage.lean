import Tobira.Subscription.Merge

namespace Tobira.Subscription

open Tobira.Framework Tobira.Framework.Json

/-- One reload: the config it runs with and what reading each source gives. -/
structure Round where
  config : SubscriptionConfig
  reads : Nat → Except Text Text

section
variable (crates : SubscriptionCrates)

def Round.fetched (r : Round) : List Fetched := fetchSources crates r.config.sources r.reads

/-- The cache file after the reloads; each of them reads what the one before has written. -/
def contentAfter (content : Option Text) : List Round → Option Text
  | [] => content
  | r::rounds => contentAfter (reload crates r.config r.reads content).content rounds

/-- The nodes of the most recent successful load of a source, as they were stored. -/
def lastGood (name : Text) : List Round → Option (List VMessNode)
  | [] => none
  | r::rounds => (lastGood name rounds).or (lastSuccess name (r.fetched crates))

/-- No load of the source has succeeded. -/
def NeverLoaded (name : Text) (rounds : List Round) : Prop :=
  ∀ r∈rounds, ∀ f∈r.fetched crates, f.1.name=name → ∃ e, f.2=.error e

/-- A reload that uses the file at `path` for its cache. -/
structure Round.Uses (path : Text) (r : Round) : Prop where
  cacheFile : r.config.cacheFile=some path
  distinct : (r.config.sources.map SubscriptionSource.name).Nodup

variable {crates}

/-- What a reload leaves in the file: the nodes it has fetched over those that were there. -/
theorem reload_content (hjson : ReadsBack crates.parser.json crates.jsonText)
    {r : Round} {path : Text} (h : r.config.cacheFile=some path) (content : Option Text)
    (name : Text) :
    (loadCache crates.parser.json (reload crates r.config r.reads content).content).lookup name=
      (lastSuccess name (r.fetched crates)).or
        ((loadCache crates.parser.json content).lookup name) := by
  have hstart : startCache crates r.config content=loadCache crates.parser.json content := by
    rw [startCache,h]
    rfl
  have hc : (reload crates r.config r.reads content).content=
      some (saveCache crates.jsonText (loadSources (loadCache crates.parser.json content)
        (r.fetched crates)).cache) := by
    simp only [reload,h,hstart]
    rfl
  rw [hc,loadCache_saveCache hjson,loadSources_cache]

theorem contentAfter_lookup (hjson : ReadsBack crates.parser.json crates.jsonText)
    {path : Text} {rounds : List Round} (h : ∀ r∈rounds, r.config.cacheFile=some path)
    (content : Option Text) (name : Text) :
    (loadCache crates.parser.json (contentAfter crates content rounds)).lookup name=
      (lastGood crates name rounds).or ((loadCache crates.parser.json content).lookup name) := by
  induction rounds generalizing content with
  | nil => rfl
  | cons r rounds ih =>
    rw [contentAfter,ih (fun q hq => h q (by simp [hq])),reload_content hjson (h r (by simp)),
      lastGood,Option.or_assoc]

theorem lastGood_none_iff {name : Text} {rounds : List Round} :
    lastGood crates name rounds=none ↔ NeverLoaded crates name rounds := by
  induction rounds with
  | nil => simp [lastGood,NeverLoaded]
  | cons r rounds ih =>
    rw [lastGood,Option.or_eq_none_iff,ih]
    constructor
    · rintro ⟨hrest,hr⟩ q hq f hf hn
      rcases List.mem_cons.mp hq with rfl|hq
      · exact lastSuccess_none hr hf hn
      · exact hrest q hq f hf hn
    · intro h
      exact ⟨fun q hq => h q (by simp [hq]),lastSuccess_of_failed (h r (by simp))⟩

/-- The nodes in the cache carry the name of their source. -/
theorem lastGood_tagged {name : Text} {rounds : List Round} {nodes : List VMessNode}
    (h : lastGood crates name rounds=some nodes) : nodes.map (tag name)=nodes := by
  induction rounds with
  | nil => cases h
  | cons r rounds ih =>
    rw [lastGood,Option.or_eq_some_iff] at h
    rcases h with h|⟨-,h⟩
    · exact ih h
    · obtain ⟨f,-,-,raw,-,rfl⟩ := lastSuccess_some h
      simp

/-- With distinct names nothing else is loaded under the name of a source that failed. -/
theorem Round.Uses.failed {path : Text} {r : Round} (hr : r.Uses path) {f : Fetched}
    (hf : f∈r.fetched crates) {e : SourceError} (he : f.2=.error e) :
    lastSuccess f.1.name (r.fetched crates)=none := by
  have hnodup : ((r.fetched crates).map (fun f => f.1.name)).Nodup := by
    have hd := hr.distinct
    rw [← fetchSources_fst crates r.config.sources r.reads,List.map_map] at hd
    exact hd
  apply lastSuccess_of_failed
  intro g hg hn
  have hsame : g=f := List.inj_on_of_nodup_map hnodup hg hf hn
  exact ⟨e,by rw [hsame,he]⟩

theorem loadSource_error_cache (l : Loading) {f : Fetched} {e : SourceError} (h : f.2=.error e) :
    (loadSource l f).cache=l.cache := by
  simp only [loadSource,h]
  split <;> rfl

/-- After any reloads over one cache file, a source that fails contributes the nodes of its most
recent successful load, and has no entry exactly when there was none. A source that fails
leaves the cache as it is, and so does a reload for every name it has not loaded. -/
theorem outage_falls_back
    (hjson : ReadsBack crates.parser.json crates.jsonText) {path : Text}
    {past : List Round} (hpast : ∀ q∈past, q.Uses path) {r : Round} (hr : r.Uses path) :
    let content := contentAfter crates none past
    let reloaded := reload crates r.config r.reads content
    (∀ f∈r.fetched crates, (∃ e, f.2=.error e) →
      reloaded.nodesBySource.lookup f.1.name=lastGood crates f.1.name past ∧
      contribution reloaded.nodesBySource f.1=(lastGood crates f.1.name past).getD [] ∧
      (reloaded.nodesBySource.lookup f.1.name=none ↔ NeverLoaded crates f.1.name past)) ∧
    (∀ l f, (∃ e, f.2=.error e) → (loadSource l f).cache=l.cache) ∧
    ∀ name, (∀ f∈r.fetched crates, f.1.name=name → ∃ e, f.2=.error e) →
      (loadCache crates.parser.json reloaded.content).lookup name=
        (loadCache crates.parser.json content).lookup name := by
  intro content reloaded
  have hcache : ∀ name, (loadCache crates.parser.json content).lookup name=
      lastGood crates name past := by
    intro name
    have h := contentAfter_lookup hjson (fun q hq => (hpast q hq).cacheFile) none name
    have hempty : (loadCache crates.parser.json none).lookup name=none := rfl
    rw [hempty,Option.or_none] at h
    exact h
  refine ⟨?_,?_,?_⟩
  · rintro f hf ⟨e,he⟩
    have hlookup : reloaded.nodesBySource.lookup f.1.name=lastGood crates f.1.name past := by
      have hstart : startCache crates r.config content=loadCache crates.parser.json content := by
        rw [startCache,hr.cacheFile]
        rfl
      have h : reloaded.nodesBySource.lookup f.1.name=
          (lastSuccess f.1.name (r.fetched crates)).or
            (((startCache crates r.config content).lookup f.1.name).map
              (List.map (tag f.1.name))) := loadSources_newSourceMap _ hf
      rw [h,hr.failed hf he,Option.none_or,hstart,hcache]
      cases hg : lastGood crates f.1.name past with
      | none => rfl
      | some nodes => rw [Option.map_some,lastGood_tagged hg]
    refine ⟨hlookup,?_,?_⟩
    · rw [contribution,hlookup]
    · rw [hlookup]
      exact lastGood_none_iff
  · rintro l f ⟨e,he⟩
    exact loadSource_error_cache l he
  · intro name hfail
    have h := reload_content hjson hr.cacheFile content name
    rw [lastSuccess_of_failed hfail,Option.none_or] at h
    exact h

end

/-- Two sources over one cache file; reading one of them fails. -/
def outageRound (failing : Nat) : Round where
  config := {
    cacheFile := some "cache.json".toList
    updateInterval := 0
    sources := [urlSource "a" "https://a.example/",urlSource "b" "https://b.example/"]
    deduplication := "rename".toList }
  reads i := if i=failing then .error "timed out".toList else .ok oneLink

theorem outage_falls_back_twice :
    let content := contentAfter plainSubscription none [outageRound 1,outageRound 0]
    (reload plainSubscription (outageRound 1).config (outageRound 1).reads
      content).nodesBySource.lookup "b".toList=
        lastGood plainSubscription "b".toList [outageRound 1,outageRound 0] ∧
    ((lastGood plainSubscription "b".toList [outageRound 1,outageRound 0]).map List.length)=some 1 := by
  have hnames : ["a".toList,"b".toList].Nodup := by decide
  have huses : ∀ i, (outageRound i).Uses "cache.json".toList := fun i => ⟨rfl,hnames⟩
  have hjson : ReadsBack plainSubscription.parser.json plainSubscription.jsonText :=
    fun _ hv _ => read_render hv
  have hpast : ∀ q∈[outageRound 1,outageRound 0], q.Uses "cache.json".toList := by
    intro q hq
    rcases List.mem_pair.mp hq with rfl|rfl
    · exact huses 1
    · exact huses 0
  have hb : (urlSource "b" "https://b.example/",.error (.read "timed out".toList))∈
      (outageRound 1).fetched plainSubscription := by decide +kernel
  refine ⟨?_,by decide +kernel⟩
  exact ((outage_falls_back hjson hpast (huses 1)).1 _ hb ⟨_,rfl⟩).1

end Tobira.Subscription
