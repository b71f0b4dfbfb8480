import Tobira.Daemon.Reload
import Tobira.Http.Chain
import Tobira.Subscription.Routing
import Tobira.Vmess.AuthId

namespace Tobira.Daemon

open Tobira.Framework Tobira.Http Tobira.Subscription Tobira.Vmess

/-- The format of the answer to a request for a subscription. -/
def servedFormat (req : Request) : Option LinkFormat :=
  match route req.path with
  | .allOutputs format => some (format.resolve req.headers)
  | .namedOutput _ format => some (format.resolve req.headers)
  | .notFound => none

/-- A request is refused, or answered for a user and the outputs that it names. -/
theorem dispatch_subscription (crates : Crates) (state : HttpState) {req : Request}
    {format : LinkFormat} (h : servedFormat req=some format) :
    dispatch crates state req=unauthorized ∨ ∃ user outputName,
      dispatch crates state req=buildSubscriptionResponse crates state user outputName format := by
  simp only [servedFormat] at h
  simp only [dispatch]
  cases authenticate crates req.headers state.users with
  | none => exact Or.inl rfl
  | some user =>
    refine Or.inr ⟨user,?_⟩
    cases hr : route req.path with
    | allOutputs asked =>
      rw [hr] at h
      cases h
      exact ⟨none,rfl⟩
    | namedOutput name asked =>
      rw [hr] at h
      cases h
      exact ⟨some name,rfl⟩
    | notFound =>
      rw [hr] at h
      cases h

theorem parse_unauthorized {parser : ParserCrates} (he : parser.Engines) :
    parseSubscription parser unauthorized.body=[] := by
  have hdecode : tryBase64Decode parser (trim unauthorized.body)=none := by
    simp only [tryBase64Decode,he.eq_decode]
    decide +kernel
  have hlines : lines unauthorized.body=["Unauthorized".toList] := by decide
  have hvmess : isVmess (trim "Unauthorized".toList)=false := by decide
  simp only [parseSubscription,hdecode,Option.getD_none,hlines,List.filterMap_cons,
    List.filterMap_nil,parseLine,hvmess,Bool.false_eq_true,if_false]

section Reading
variable {crates : Crates} {parser : ParserCrates} {users : List HttpUser}
  {outputs : List OutputConfig} {nodes : List VMessNode} {network : RelayNetwork}
  {serviceName : Text} {state : HttpState}

/-- What is read out of a v2rayN answer is what the pipelines of the outputs let through. -/
theorem parse_v2rayn (hd : Documented crates parser)
    (hs : HttpState.new crates users outputs nodes network serviceName=.ok state)
    (hu : ∀ output∈outputs, ∀ node∈applyPipeline crates.regex nodes output.process, node.uuid≠[])
    (ho : ∀ output∈outputs, output.host≠[] ∧ 1 ≤ output.port.toNat) (user : HttpUser)
    (outputName : Option Text) :
    parseSubscription parser
        (buildSubscriptionResponse crates state user outputName .v2rayN).body=
      (outputs.filter (fun output => mayRead user outputName output.name)).flatMap
        (fun output => (applyPipeline crates.regex nodes output.process).map
          (relayed network serviceName output)) := by
  rw [v2rayn_body hs]
  simp only
  split_ifs with hnone
  · rw [hnone,parse_noMatching hd.engines]
    rfl
  · apply parseSubscription_encoded hd
    · intro link hl
      obtain ⟨output,-,hl⟩ := List.mem_flatMap.mp hl
      obtain ⟨node,-,rfl⟩ := List.mem_map.mp hl
      exact jsonLink_line hd node output network serviceName
    · rw [List.map_flatMap,List.map_flatMap]
      apply List.flatMap_congr
      intro output hm
      have hmem := List.mem_of_mem_filter hm
      obtain ⟨hhost,hport⟩ := ho output hmem
      rw [List.map_map,List.map_map]
      apply List.map_congr_left
      intro node hn
      exact parseLine_jsonLink hd (hu output hmem node hn) hhost hport network serviceName

end Reading

section Entries
variable {c : Crypto} {uriParse : Text → Except Text Uri} {nodes : List VMessNode} {v : Validator}

/-- The entries and the nodes, in order: the entry of a node has its UUID, the verifier of that
UUID, and the upstream built for it. -/
theorem buildValidator_entries (h : buildValidator c uriParse nodes=.ok v) :
    (∀ e∈v.entries, AuthVerifier.fromUuid c e.uuid=.ok e.verifier) ∧
    (v.entries.map Entry.uuid).Nodup ∧
    List.Forall₂ (fun node e => nodePair uriParse node=.ok (e.uuid,e.upstream)) nodes v.entries := by
  obtain ⟨pairs,hp,h⟩ := bind_ok h
  obtain ⟨entries,he,rfl⟩ := map_ok (mapError_ok h)
  obtain ⟨hmap,-,hnodup⟩ := newEntries_spec he
  subst hmap
  rw [List.map_map] at hnodup
  have hall := mapM_ok_forall₂ hp
  rw [List.forall₂_map_right_iff] at hall
  exact ⟨newEntries_verifier he,hnodup,hall⟩

/-- The entry of a node. -/
theorem buildValidator_entry (h : buildValidator c uriParse nodes=.ok v) {node : VMessNode}
    (hn : node∈nodes) : ∃ e∈v.entries, e.uuid=node.uuid ∧
      AuthVerifier.fromUuid c node.uuid=.ok e.verifier ∧
      nodePair uriParse node=.ok (node.uuid,e.upstream) := by
  obtain ⟨hver,-,hall⟩ := buildValidator_entries h
  obtain ⟨i,hi,rfl⟩ := List.mem_iff_getElem.mp hn
  have hlt : i < v.entries.length := hall.length_eq ▸ hi
  have hpair := List.Forall₂.get hall hi hlt
  simp only [List.get_eq_getElem] at hpair
  have hu := (nodePair_spec hpair).1
  simp only at hu
  have hmem : v.entries[i]∈v.entries := List.getElem_mem hlt
  refine ⟨v.entries[i],hmem,hu,?_,?_⟩
  · rw [← hu]
    exact hver _ hmem
  · rw [hpair,hu]

/-- The node of an entry. -/
theorem buildValidator_node (h : buildValidator c uriParse nodes=.ok v) {e : Entry}
    (he : e∈v.entries) : ∃ node∈nodes, e.uuid=node.uuid ∧
      AuthVerifier.fromUuid c node.uuid=.ok e.verifier ∧
      nodePair uriParse node=.ok (node.uuid,e.upstream) := by
  obtain ⟨hver,-,hall⟩ := buildValidator_entries h
  obtain ⟨i,hi,rfl⟩ := List.mem_iff_getElem.mp he
  have hlt : i < nodes.length := hall.length_eq.symm ▸ hi
  have hpair := List.Forall₂.get hall hlt hi
  simp only [List.get_eq_getElem] at hpair
  have hu := (nodePair_spec hpair).1
  simp only at hu
  refine ⟨nodes[i],List.getElem_mem hlt,hu,?_,?_⟩
  · rw [← hu]
    exact hver _ he
  · rw [hpair,hu]

end Entries

/-- An Auth ID is matched exactly when some entry accepts it. -/
theorem matchAuthId_isSome {c : Crypto} {v : Validator} {now : UInt64} {authId : ByteArr 16}
    {e : Entry} (he : e∈v.entries) (ha : e.verifier.verify c now authId=true) :
    ∃ upstream, v.matchAuthId c now authId=some upstream := by
  rw [← Option.isSome_iff_exists,Validator.matchAuthId,Option.isSome_map,List.find?_isSome]
  exact ⟨e,he,ha⟩

/-- The entry that a matched Auth ID belongs to. -/
theorem matchAuthId_some {c : Crypto} {v : Validator} {now : UInt64} {authId : ByteArr 16}
    {upstream : Upstream} (h : v.matchAuthId c now authId=some upstream) :
    ∃ e∈v.entries, e.verifier.verify c now authId=true ∧ e.upstream=upstream := by
  obtain ⟨e,hf,hu⟩ := Option.map_eq_some_iff.mp h
  have ha := List.find?_some hf
  exact ⟨e,List.mem_of_find?_eq_some hf,ha,hu⟩

/-- Where every other entry refuses an Auth ID, the one that accepts it is found. -/
theorem matchAuthId_only {c : Crypto} {v : Validator} (hv : (v.entries.map Entry.uuid).Nodup)
    {now : UInt64} {authId : ByteArr 16} {e : Entry} (he : e∈v.entries)
    (ha : e.verifier.verify c now authId=true)
    (hothers : ∀ e'∈v.entries, e'.uuid≠e.uuid → e'.verifier.verify c now authId=false) :
    v.matchAuthId c now authId=some e.upstream := by
  obtain ⟨upstream,hm⟩ := matchAuthId_isSome he ha
  obtain ⟨e',he',ha',rfl⟩ := matchAuthId_some hm
  have hu : e'.uuid=e.uuid := by
    by_contra hne
    rw [hothers e' he' hne] at ha'
    cases ha'
  rw [hm,List.inj_on_of_nodup_map hv he' he hu]

section Daemons
variable {σ : Type} {crates : DaemonCrates}

theorem Consistent.state_new {startup : RelayConfig} {t : Tracked σ}
    (h : Consistent crates startup t) :
    HttpState.new crates.http t.state.httpState.users t.state.sharedCfg.http.outputs t.loaded.nodes
      startup.network startup.serviceName=.ok t.state.httpState := by
  rw [HttpState.new,h.rendered]
  rfl

/-- The outputs can be written into a link. -/
def Published (t : Tracked σ) : Prop :=
  ∀ output∈t.state.sharedCfg.http.outputs, output.host≠[] ∧ 1 ≤ output.port.toNat

theorem Consistent.uuid {startup : RelayConfig} {t : Tracked σ} (h : Consistent crates startup t)
    {node : VMessNode} (hn : node∈t.loaded.nodes) : node.uuid≠[] := by
  obtain ⟨e,he,hu,hv,-⟩ := buildValidator_entry h.built hn
  intro hnil
  rw [hnil] at hv
  cases hv

theorem applyPipeline_route {rx : RegexCrate} {nodes : List VMessNode} {steps : List ProcessStep}
    {shown : VMessNode} (h : shown∈applyPipeline rx nodes steps) :
    ∃ source∈nodes, SameRoute source shown := by
  rw [applyPipeline_eq] at h
  obtain ⟨source,hm,ho⟩ := List.mem_filterMap.mp h
  exact ⟨source,hm,onNode_route ho⟩

/-- What a client reads in the answer for a user. -/
theorem Consistent.answer {startup : RelayConfig} {t : Tracked σ}
    (h : Consistent crates startup t) {parser : ParserCrates} (hd : Documented crates.http parser)
    (ho : Published t) (user : HttpUser) (outputName : Option Text) :
    parseSubscription parser (buildSubscriptionResponse crates.http t.state.httpState user
        outputName .v2rayN).body=
      (t.state.sharedCfg.http.outputs.filter
        (fun output => mayRead user outputName output.name)).flatMap (fun output =>
          (applyPipeline crates.http.regex t.loaded.nodes output.process).map
            (relayed startup.network startup.serviceName output)) := by
  apply parse_v2rayn hd h.state_new ?_ ho
  intro output _ shown hs
  obtain ⟨source,hm,hr⟩ := applyPipeline_route hs
  rw [hr.uuid]
  exact h.uuid hm

/-- What a client reads in any answer: a node that was loaded, as the pipeline of an output shows
it, behind the listener of the startup. -/
theorem Consistent.read {startup : RelayConfig} {t : Tracked σ} (h : Consistent crates startup t)
    {parser : ParserCrates} (hd : Documented crates.http parser) (ho : Published t)
    {req : Request} (hf : servedFormat req=some .v2rayN) {node : VMessNode}
    (hn : node∈parseSubscription parser (dispatch crates.http t.state.httpState req).body) :
    ∃ output∈t.state.sharedCfg.http.outputs,
      ∃ shown∈applyPipeline crates.http.regex t.loaded.nodes output.process,
        ∃ source∈t.loaded.nodes, SameRoute source shown ∧
          node=relayed startup.network startup.serviceName output shown := by
  rcases dispatch_subscription crates.http t.state.httpState hf with hr|⟨user,outputName,hr⟩
  · rw [hr,parse_unauthorized hd.engines] at hn
    cases hn
  · rw [hr,h.answer hd ho] at hn
    obtain ⟨output,hm,hn⟩ := List.mem_flatMap.mp hn
    obtain ⟨shown,hs,rfl⟩ := List.mem_map.mp hn
    obtain ⟨source,hsource,hr⟩ := applyPipeline_route hs
    exact ⟨output,List.mem_of_mem_filter hm,shown,hs,source,hsource,hr,rfl⟩

/-- What the daemon answers with, it lets in: after any reloads, every node that a client reads in
an answer is a loaded node as an output shows it, behind the running listener, and every Auth ID
made for its UUID within the window is matched, by the upstream of the node it was loaded from
unless another entry accepts it too. -/
theorem served_nodes_are_accepted {parser : ParserCrates} (hd : Documented crates.http parser)
    {cfg : Config} {reads : Nat → Except Text Text} {content : Option Text}
    {loaded : LoadedSubscriptions} {s : State σ}
    (hstart : start σ crates cfg reads content=.ok (loaded,s)) {calls : List Call} {t : Tracked σ}
    (hrun : run (step crates) ⟨loaded,s⟩ calls=some t) (ho : Published t) {req : Request}
    (hf : servedFormat req=some .v2rayN) {node : VMessNode}
    (hn : node∈parseSubscription parser (dispatch crates.http t.state.httpState req).body) :
    ∃ output∈t.state.sharedCfg.http.outputs,
      ∃ shown∈applyPipeline crates.http.regex t.loaded.nodes output.process,
        ∃ source∈t.loaded.nodes, SameRoute source shown ∧
          node=relayed cfg.relay.network cfg.relay.serviceName output shown ∧
          ∃ v upstream, AuthVerifier.fromUuid crates.crypto node.uuid=.ok v ∧
            nodePair crates.uriParse source=.ok (node.uuid,upstream) ∧
            ∀ (now time : UInt64) (r : ByteArr 4) (authId : ByteArr 16),
              crates.crypto.aesDecrypt v.ecbKey authId=authBlock crates.crypto time r →
              ((now.toNat : Int)-time.toNat).natAbs ≤ 120 →
              (∃ other, t.state.validator.matchAuthId crates.crypto now authId=some other) ∧
              ((∀ e∈t.state.validator.entries, e.uuid≠node.uuid →
                  e.verifier.verify crates.crypto now authId=false) →
                t.state.validator.matchAuthId crates.crypto now authId=some upstream) := by
  have hc : Consistent crates cfg.relay t :=
    run_invariant (fun _ _ _ hi hs => step_consistent hi hs) (start_consistent hstart) hrun
  obtain ⟨output,hm,shown,hshown,source,hsource,hr,rfl⟩ := hc.read hd ho hf hn
  refine ⟨output,hm,shown,hshown,source,hsource,hr,rfl,?_⟩
  obtain ⟨e,he,hu,hv,hp⟩ := buildValidator_entry hc.built hsource
  have huuid : (relayed cfg.relay.network cfg.relay.serviceName output shown).uuid=source.uuid :=
    hr.uuid
  rw [huuid]
  refine ⟨e.verifier,e.upstream,hv,hp,?_⟩
  intro now time r authId hblock htime
  have ha := (verify_block crates.crypto now e.verifier authId).mpr ⟨time,r,hblock,htime⟩
  refine ⟨matchAuthId_isSome he ha,?_⟩
  intro hothers
  apply matchAuthId_only (buildValidator_entries hc.built).2.1 he ha
  intro e' he' hne
  exact hothers e' he' (hu ▸ hne)

end Daemons

/-- `GET /sub` without any headers. -/
def subRequest : Request := ⟨"/sub".toList,[]⟩

/-- The Auth ID of second 60, under a cipher that leaves blocks alone. -/
def minuteAuthId : ByteArr 16 := authBlock tailCrypto 60 ⟨[1,2,3,4],rfl⟩

theorem dispatch_sub {crates : Crates} {state : HttpState} (h : state.users=[]) :
    dispatch crates state subRequest=
      buildSubscriptionResponse crates state anonymous none .v2rayN := by
  have hroute : route subRequest.path=.allOutputs .auto := by decide
  simp only [dispatch,authenticate,if_pos h,hroute]
  rfl

theorem served_nodes_are_accepted_plain : ∃ loaded s t node,
    start Unit plainDaemon plainConfig (fun _ => .ok oneLink) none=.ok (loaded,s) ∧
    run (step plainDaemon) ⟨loaded,s⟩ [.full missingEnv,.subs (plainEnv plainConfig (.ok ()))]=
      some t ∧
    node∈parseSubscription plainParser (dispatch plainCrates t.state.httpState subRequest).body ∧
    ∃ upstream, t.state.validator.matchAuthId tailCrypto 100 minuteAuthId=some upstream := by
  have hsome : (((start Unit plainDaemon plainConfig (fun _ => .ok oneLink) none).toOption).bind
      (fun p => (run (step plainDaemon) ⟨p.1,p.2⟩
        [.full missingEnv,.subs (plainEnv plainConfig (.ok ()))]).bind (fun t =>
          if t.state.sharedCfg.http.outputs=[plainOutput] ∧ t.state.httpState.users=[] then
            t.loaded.nodes.head?
          else none))).isSome=true := by decide +kernel
  obtain ⟨source,hsource⟩ := Option.isSome_iff_exists.mp hsome
  obtain ⟨p,hp,hsource⟩ := Option.bind_eq_some_iff.mp hsource
  obtain ⟨t,hr,hsource⟩ := Option.bind_eq_some_iff.mp hsource
  split_ifs at hsource with ht
  obtain ⟨hout,husers⟩ := ht
  have hs : start Unit plainDaemon plainConfig (fun _ => .ok oneLink) none=.ok (p.1,p.2) :=
    ok_of_toOption hp
  have hpublished : Published t := by
    rw [Published,hout]
    decide
  have hd : Documented plainDaemon.http plainParser := plain_documented
  have hc : Consistent plainDaemon plainConfig.relay t :=
    run_invariant (fun _ _ _ hi hs => step_consistent hi hs) (start_consistent hs) hr
  have hn : relayed .tcp "GunService".toList plainOutput source∈parseSubscription plainParser
      (dispatch plainDaemon.http t.state.httpState subRequest).body := by
    rw [dispatch_sub husers,hc.answer hd hpublished,hout]
    exact List.mem_flatMap.mpr ⟨plainOutput,by decide,
      List.mem_map.mpr ⟨source,List.mem_of_head? hsource,rfl⟩⟩
  obtain ⟨-,-,-,-,-,-,-,-,v,upstream,-,-,hauth⟩ :=
    served_nodes_are_accepted hd hs hr hpublished rfl hn
  obtain ⟨hmatch,-⟩ := hauth 100 60 ⟨[1,2,3,4],rfl⟩ minuteAuthId rfl (by decide)
  exact ⟨p.1,p.2,t,_,hs,hr,hn,hmatch⟩

section Chains
variable {σ : Type} {crates : DaemonCrates}

/-- A daemon that was started and has reloaded since. -/
def Reached (crates : DaemonCrates) (t : Tracked σ) : Prop :=
  ∃ cfg reads content loaded s calls, start σ crates cfg reads content=.ok (loaded,s) ∧
    run (step crates) ⟨loaded,s⟩ calls=some t

/-- Every source of `b`, when it last loaded, was an answer of `a`, as `a` still is, with v2rayN
links. -/
def Feeds (crates : DaemonCrates) (a b : Tracked σ) : Prop :=
  ∃ config reads content, loadSubscriptions crates config reads content=.ok b.loaded ∧
    ∀ i source, config.sources[i]?=some source → source.url.isSome=true ∧ source.path=none ∧
      ∃ req, servedFormat req=some .v2rayN ∧
        reads i=.ok (dispatch crates.http a.state.httpState req).body

/-- The upstream is the listener of the daemon, as an output of its config publishes it. -/
def LeadsTo (t : Tracked σ) (upstream : Upstream) : Prop :=
  ∃ output∈t.state.sharedCfg.http.outputs, upstream.addr=addressText output.host output.port ∧
    match t.state.sharedCfg.relay.network with
    | .tcp => upstream.transport=.tcp
    | .grpc => ∃ sni uri,
        upstream.transport=.grpc t.state.sharedCfg.relay.serviceName sni uri

theorem Reached.consistent {t : Tracked σ} (h : Reached crates t) :
    Consistent crates t.state.sharedCfg.relay t := by
  obtain ⟨cfg,reads,content,loaded,s,calls,hstart,hrun⟩ := h
  have hc : Consistent crates cfg.relay t :=
    run_invariant (fun _ _ _ hi hs => step_consistent hi hs) (start_consistent hstart) hrun
  have hrendered := hc.rendered
  rw [← hc.network,← hc.serviceName] at hrendered
  exact ⟨rfl,rfl,rfl,rfl,hc.users,hc.validator,hc.built,hrendered⟩

theorem start_ok {cfg : Config} {reads : Nat → Except Text Text} {content : Option Text}
    {r : LoadedSubscriptions×State σ} (h : start σ crates cfg reads content=.ok r) :
    r.2.sharedCfg=cfg ∧ loadSubscriptions crates cfg.subscription reads content=.ok r.1 := by
  obtain ⟨pair,hpair,he⟩ := map_ok h
  obtain ⟨loaded,hl,hpair⟩ := bind_ok hpair
  obtain ⟨http,-,hpair⟩ := bind_ok hpair
  cases hpair
  cases he
  exact ⟨rfl,hl⟩

/-- Only what is read in a body counts. -/
theorem fetchSource_congr {crates : SubscriptionCrates} (source : SubscriptionSource)
    {body body' : Text}
    (h : parseSubscription crates.parser body=parseSubscription crates.parser body') :
    fetchSource crates source (.ok body)=fetchSource crates source (.ok body') := by
  simp only [fetchSource,h]

theorem start_congr {cfg : Config} {reads reads' : Nat → Except Text Text}
    {content : Option Text} (h : ∀ source i, fetchSource crates.subscription source (reads i)=
      fetchSource crates.subscription source (reads' i)) :
    start σ crates cfg reads content=start σ crates cfg reads' content := by
  have hf : fetchSources crates.subscription cfg.subscription.sources reads=
      fetchSources crates.subscription cfg.subscription.sources reads' := by
    simp only [fetchSources,h]
  simp only [start,buildState,loadSubscriptions,reload,hf]

/-- The nodes of a daemon that is fed by another are nodes that the other serves. -/
theorem Feeds.read {a b : Tracked σ} (h : Feeds crates a b) {node : VMessNode}
    (hn : node∈b.loaded.nodes) : ∃ req, servedFormat req=some .v2rayN ∧
      ∃ read∈parseSubscription crates.subscription.parser
          (dispatch crates.http a.state.httpState req).body,
        ∃ name, SameRoute (tag name read) node := by
  obtain ⟨config,reads,content,hl,hsources⟩ := h
  have hnodes : b.loaded.nodes=(reload crates.subscription config reads content).allNodes := by
    rw [loadSubscriptions] at hl
    split at hl
    · cases hl
    · rw [← Except.ok.inj hl]
  have hfetched : ∀ f∈fetchSources crates.subscription config.sources reads, ∃ req,
      servedFormat req=some .v2rayN ∧ f.2=.ok (applyPipeline crates.subscription.regex
        (parseSubscription crates.subscription.parser
          (dispatch crates.http a.state.httpState req).body) f.1.process) := by
    intro f hf
    obtain ⟨⟨source,i⟩,hp,rfl⟩ := List.mem_map.mp hf
    obtain ⟨hurl,hpath,req,hformat,hread⟩ :=
      hsources i source (List.mk_mem_zipIdx_iff_getElem?.mp hp)
    obtain ⟨url,hurl⟩ := Option.isSome_iff_exists.mp hurl
    refine ⟨req,hformat,?_⟩
    simp only [fetchSource,hurl,hpath,hread]
  rw [hnodes] at hn
  obtain ⟨f,hf,nodes,hok,node',hn',hr⟩ := allNodes_source
    (fun f hf => by
      obtain ⟨req,-,hok⟩ := hfetched f hf
      exact ⟨_,hok⟩) hn
  obtain ⟨req,hformat,hok'⟩ := hfetched f hf
  rw [hok] at hok'
  cases hok'
  rw [applyPipeline_eq] at hn'
  obtain ⟨read,hread,ho⟩ := List.mem_filterMap.mp hn'
  exact ⟨req,hformat,read,hread,f.1.name,((onNode_route ho).tag f.1.name).trans hr⟩

/-- Where a loaded node leads, read off the node that its source gave. -/
theorem nodePair_leads {t : Tracked σ} {output : OutputConfig}
    (hm : output∈t.state.sharedCfg.http.outputs) {shown node : VMessNode} {name : Text}
    (hr : SameRoute (tag name (relayed t.state.sharedCfg.relay.network
      t.state.sharedCfg.relay.serviceName output shown)) node) {uuid : Text} {upstream : Upstream}
    (hp : nodePair crates.uriParse node=.ok (uuid,upstream)) : LeadsTo t upstream := by
  obtain ⟨addr,transport,-,ht,he⟩ := nodePair_iff.mp hp
  cases he
  refine ⟨output,hm,?_,?_⟩
  · rw [hr.server,hr.port]
    rfl
  · cases hn : t.state.sharedCfg.relay.network with
    | tcp =>
      rw [hn] at hr
      have hnetwork : node.network="tcp".toList := hr.network
      rw [nodeTransport,hnetwork] at ht
      exact (Except.ok.inj ht).symm
    | grpc =>
      rw [hn] at hr
      have hnetwork : node.network="grpc".toList := hr.network
      have hservice : node.grpcServiceName=some t.state.sharedCfg.relay.serviceName :=
        hr.grpcServiceName
      rw [nodeTransport,if_pos hnetwork,hservice] at ht
      simp only [Option.getD_some] at ht
      split at ht
      · cases ht
      · exact ⟨node.sni,_,(Except.ok.inj ht).symm⟩

/-- One hop: what `b` lets in, it sends to `a`, and `a` lets it in. -/
theorem Feeds.admits {a b : Tracked σ} (h : Feeds crates a b)
    (hd : Documented crates.http crates.subscription.parser) (ha : Reached crates a)
    (hb : Reached crates b) (ho : Published a) {now : UInt64} {authId : ByteArr 16}
    {upstream : Upstream}
    (hm : b.state.validator.matchAuthId crates.crypto now authId=some upstream) :
    LeadsTo a upstream ∧
      ∃ next, a.state.validator.matchAuthId crates.crypto now authId=some next := by
  obtain ⟨e,he,haccept,rfl⟩ := matchAuthId_some hm
  obtain ⟨node,hn,hu,hv,hp⟩ := buildValidator_node hb.consistent.built he
  obtain ⟨req,hf,read,hread,name,hr⟩ := h.read hn
  obtain ⟨output,hout,shown,-,source,hsource,hshown,rfl⟩ := ha.consistent.read hd ho hf hread
  refine ⟨nodePair_leads hout hr hp,?_⟩
  obtain ⟨e',he',-,hv',-⟩ := buildValidator_entry ha.consistent.built hsource
  have huuid : node.uuid=source.uuid := hr.uuid.trans hshown.uuid
  rw [huuid,hv'] at hv
  rw [← Except.ok.inj hv] at haccept
  exact matchAuthId_isSome he' haccept

/-- A chain of daemons, each fed by the one before it, lets a client through as a whole: an Auth
ID that the last one matches is matched by all of them at that time, and each sends it to the one
before. -/
theorem relay_chain_admits (hd : Documented crates.http crates.subscription.parser)
    {chain : List (Tracked σ)} (hr : ∀ t∈chain, Reached crates t ∧ Published t)
    (hc : chain.IsChain (Feeds crates)) {now : UInt64} {authId : ByteArr 16}
    (hm : ∀ last∈chain.getLast?, ∃ upstream,
      last.state.validator.matchAuthId crates.crypto now authId=some upstream) :
    (∀ t∈chain, ∃ upstream,
      t.state.validator.matchAuthId crates.crypto now authId=some upstream) ∧
    chain.IsChain (fun a b => ∃ upstream,
      b.state.validator.matchAuthId crates.crypto now authId=some upstream ∧
        LeadsTo a upstream) := by
  induction chain with
  | nil => exact ⟨by simp,List.isChain_nil⟩
  | cons a chain ih =>
    cases chain with
    | nil =>
      refine ⟨?_,List.isChain_singleton a⟩
      intro t ht
      rw [List.mem_singleton] at ht
      subst ht
      exact hm t rfl
    | cons b chain =>
      rw [List.isChain_cons_cons] at hc
      obtain ⟨hall,hleads⟩ := ih (fun t ht => hr t (List.mem_cons_of_mem _ ht)) hc.2 hm
      obtain ⟨upstream,hb⟩ := hall b List.mem_cons_self
      obtain ⟨ha,ho⟩ := hr a List.mem_cons_self
      have hreached := (hr b (List.mem_cons_of_mem _ List.mem_cons_self)).1
      obtain ⟨hlead,hnext⟩ := hc.1.admits hd ha hreached ho hb
      refine ⟨?_,List.isChain_cons_cons.mpr ⟨⟨upstream,hb,hlead⟩,hleads⟩⟩
      intro t ht
      rcases List.mem_cons.mp ht with rfl|ht
      · exact hnext
      · exact hall t ht

end Chains

/-- The listener is published under an address, so that another daemon can load it. -/
def nearOutput : OutputConfig := { plainOutput with host := "192.0.2.9".toList }

def nearConfig : Config :=
  { plainConfig with http := { plainConfig.http with outputs := [nearOutput] } }

/-- A link that is read as the node which `nearConfig` publishes. -/
def nearLink : Text :=
  "vmess://550e8400-e29b-41d4-a716-446655440000@192.0.2.9:10808?type=tcp#node".toList

/-- The node of `oneLink`. -/
def farNode : VMessNode :=
  { plainNode "550e8400-e29b-41d4-a716-446655440000" with
    source := "sub".toList, server := "192.0.2.1".toList, sni := "192.0.2.1".toList }

/-- The first daemon of the pair. -/
theorem near_first : ∃ p : LoadedSubscriptions×State Unit,
    start Unit plainDaemon nearConfig (fun _ => .ok oneLink) none=.ok p ∧
    p.1.nodes=[farNode] := by
  have hsome : ((start Unit plainDaemon nearConfig (fun _ => .ok oneLink) none).toOption).map
      (fun p => p.1.nodes)=some [farNode] := by decide +kernel
  obtain ⟨p,hp,hnodes⟩ := Option.map_eq_some_iff.mp hsome
  exact ⟨p,ok_of_toOption hp,hnodes⟩

theorem parse_nearLink : parseSubscription plainParser nearLink=
    [relayed .tcp "GunService".toList nearOutput farNode] := by
  decide +kernel

/-- The second one, on what the first one publishes. -/
theorem near_second : ∃ (q : LoadedSubscriptions×State Unit) (upstream : Upstream),
    start Unit plainDaemon nearConfig (fun _ => .ok nearLink) none=.ok q ∧
    q.2.validator.matchAuthId tailCrypto 100 minuteAuthId=some upstream := by
  have hsome : (((start Unit plainDaemon nearConfig (fun _ => .ok nearLink) none).toOption).bind
      (fun q => q.2.validator.matchAuthId tailCrypto 100 minuteAuthId)).isSome=true := by
    decide +kernel
  obtain ⟨upstream,hmatch⟩ := Option.isSome_iff_exists.mp hsome
  obtain ⟨q,hq,hmatch⟩ := Option.bind_eq_some_iff.mp hmatch
  exact ⟨q,upstream,ok_of_toOption hq,hmatch⟩

theorem relay_chain_admits_pair : ∃ a b : Tracked Unit,
    Reached plainDaemon a ∧ Reached plainDaemon b ∧ Feeds plainDaemon a b ∧
    ∃ upstream, b.state.validator.matchAuthId tailCrypto 100 minuteAuthId=some upstream ∧
      LeadsTo a upstream ∧
      ∃ next, a.state.validator.matchAuthId tailCrypto 100 minuteAuthId=some next := by
  obtain ⟨p,ha,hnodes⟩ := near_first
  obtain ⟨q,upstream,hq,hmatch⟩ := near_second
  have hra : Reached plainDaemon ⟨p.1,p.2⟩ := ⟨_,_,_,_,_,[],ha,rfl⟩
  have hd : Documented plainDaemon.http plainDaemon.subscription.parser := plain_documented
  have hnear : ∀ {r : LoadedSubscriptions×State Unit}, r.2.sharedCfg=nearConfig →
      Published (⟨r.1,r.2⟩ : Tracked Unit) := by
    intro r hcfg
    rw [Published,hcfg]
    decide
  obtain ⟨hcfg,-⟩ := start_ok ha
  have hc := start_consistent ha
  have hread : parseSubscription plainParser
      (dispatch plainDaemon.http p.2.httpState subRequest).body=
        parseSubscription plainParser nearLink := by
    have husers : p.2.httpState.users=[] := by
      rw [hc.users,hcfg]
      rfl
    have hanswer := hc.answer hd (hnear hcfg) anonymous none
    simp only [hcfg,hnodes] at hanswer
    rw [dispatch_sub husers,parse_nearLink]
    exact hanswer
  have hb : start Unit plainDaemon nearConfig (fun _ =>
      .ok (dispatch plainDaemon.http p.2.httpState subRequest).body) none=.ok (q.1,q.2) := by
    rw [start_congr (fun source _ => fetchSource_congr source hread)]
    exact hq
  have hrb : Reached plainDaemon ⟨q.1,q.2⟩ := ⟨_,_,_,_,_,[],hb,rfl⟩
  obtain ⟨hcfg',hload⟩ := start_ok hb
  have hfeeds : Feeds plainDaemon (⟨p.1,p.2⟩ : Tracked Unit) ⟨q.1,q.2⟩ := by
    refine ⟨_,_,_,hload,?_⟩
    intro i source hs
    have hone : source∈[urlSource "sub" "https://a.example/"] := List.mem_of_getElem? hs
    rw [List.mem_singleton.mp hone]
    exact ⟨rfl,rfl,subRequest,rfl,rfl⟩
  have hreached : ∀ t∈[(⟨p.1,p.2⟩ : Tracked Unit),⟨q.1,q.2⟩],
      Reached plainDaemon t ∧ Published t := by
    intro t ht
    rcases List.mem_pair.mp ht with rfl|rfl
    · exact ⟨hra,hnear hcfg⟩
    · exact ⟨hrb,hnear hcfg'⟩
  obtain ⟨hall,hleads⟩ := relay_chain_admits hd hreached
    (List.isChain_cons_cons.mpr ⟨hfeeds,List.isChain_singleton _⟩) (by
      intro last hl
      cases hl
      exact ⟨upstream,hmatch⟩)
  obtain ⟨upstream',hb',hlead⟩ := (List.isChain_cons_cons.mp hleads).1
  exact ⟨_,_,hra,hrb,hfeeds,upstream',hb',hlead,hall _ List.mem_cons_self⟩

end Tobira.Daemon
