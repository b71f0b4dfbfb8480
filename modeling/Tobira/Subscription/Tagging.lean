import Mathlib.Data.List.Induction
import Mathlib.Data.List.Infix
import Tobira.Framework.Machine
import Tobira.Subscription.Merge

namespace Tobira.Subscription

open Tobira.Framework

theorem buildNode_source {lower : Text → Text} {opts : V2rayNJson} {node : VMessNode}
    (h : buildNode lower opts=.ok node) : node.source=[] := by
  rw [(buildNode_ok_iff.mp h).2.2.2]
  rfl

/-- A parsed node has no source yet, whatever its format. -/
theorem parseVmessLink_source {crates : ParserCrates} {link : Text} {node : VMessNode}
    (h : parseVmessLink crates link=.ok node) : node.source=[] := by
  simp only [parseVmessLink] at h
  split_ifs at h
  cases hp : crates.url.parse (trim link) with
  | error cause =>
    rw [hp] at h
    cases h
  | ok parsed =>
    rw [hp] at h
    simp only at h
    split_ifs at h
    · simp only [parseShadowrocketFormat] at h
      split at h
      · cases h
      split at h
      · cases h
      split at h
      · cases h
      obtain ⟨built,hb,rfl⟩ := map_ok h
      have hs : built.source=[] := buildNode_source hb
      exact hs
    · simp only [parseBase64Json] at h
      split at h
      · cases h
      split at h
      · cases h
      exact buildNode_source h
    · exact buildNode_source h

theorem parseSubscription_source {crates : ParserCrates} {body : Text} {node : VMessNode}
    (h : node∈parseSubscription crates body) : node.source=[] := by
  obtain ⟨line,-,hl⟩ := List.mem_filterMap.mp h
  simp only [parseLine] at hl
  split_ifs at hl
  cases hp : parseVmessLink crates (trim line) with
  | error e =>
    rw [hp] at hl
    cases hl
  | ok parsed =>
    rw [hp] at hl
    cases hl
    exact parseVmessLink_source hp

section
variable {rx : RegexCrate}

/-- The half of the selection that looks at the name. -/
def CompiledStep.nameOk (step : CompiledStep rx) (name : Text) : Bool :=
  step.filterCompiled.isEmpty || step.filterCompiled.any (fun re => rx.isMatch re name)

/-- The half of the selection that looks at the source. -/
def CompiledStep.sourceOk (step : CompiledStep rx) (source : Text) : Bool :=
  step.filterSourceCompiled.isEmpty || step.filterSourceCompiled.any (fun re => rx.isMatch re source)

/-- The step does nothing to the node, whether it selects it by the source or not. -/
def CompiledStep.Idle (step : CompiledStep rx) (node : VMessNode) : Prop :=
  step.nameOk node.name=false ∨ (step.remove=false ∧ step.transform node=node)

theorem isSelected_eq (step : CompiledStep rx) (node : VMessNode) :
    step.isSelected node=(step.invert ^^ (step.nameOk node.name && step.sourceOk node.source)) := by
  have h : step.isSelected node=if step.invert then
      !(step.nameOk node.name && step.sourceOk node.source) else
      step.nameOk node.name && step.sourceOk node.source := rfl
  rw [h]
  cases step.invert <;> simp

theorem transform_tag (step : CompiledStep rx) (name : Text) (node : VMessNode) :
    step.transform (tag name node)=tag name (step.transform node) := rfl

theorem tag_injective {name : Text} {node node' : VMessNode} (hs : node.source=node'.source)
    (h : tag name node=tag name node') : node=node' := by
  cases node
  cases node'
  simp only [tag,VMessNode.mk.injEq] at h hs ⊢
  simp [h,hs]

/-- Where the two sources are read alike, the selection is the same. -/
theorem isSelected_tag {step : CompiledStep rx} {name : Text} {node : VMessNode}
    (hs : node.source=[]) (h : step.sourceOk []=step.sourceOk name ∨ step.nameOk node.name=false) :
    step.isSelected (tag name node)=step.isSelected node := by
  have hn : (tag name node).name=node.name := rfl
  have ht : (tag name node).source=name := rfl
  rw [isSelected_eq,isSelected_eq,hn,ht,hs]
  rcases h with h|h
  · rw [h]
  · rw [h]
    rfl

theorem isSelected_tag_ne {step : CompiledStep rx} {name : Text} {node : VMessNode}
    (hs : node.source=[]) (h : step.sourceOk []≠step.sourceOk name)
    (hn : step.nameOk node.name=true) :
    step.isSelected (tag name node)=!step.isSelected node := by
  have hname : (tag name node).name=node.name := rfl
  have ht : (tag name node).source=name := rfl
  rw [isSelected_eq,isSelected_eq,hname,ht,hs,hn]
  cases h1 : step.sourceOk [] <;> cases h2 : step.sourceOk name <;> cases step.invert <;>
    simp_all

/-- A step that removes: the two lists differ in any node that only one of them keeps. -/
theorem filter_tag_iff {step : CompiledStep rx} {name : Text} {nodes : List VMessNode}
    (hs : ∀ node∈nodes, node.source=[]) (hne : step.sourceOk []≠step.sourceOk name) :
    (nodes.filter (fun node => !step.isSelected node)).map (tag name)=
        (nodes.map (tag name)).filter (fun node => !step.isSelected node) ↔
      ∀ node∈nodes, step.nameOk node.name=false := by
  have hmap : (nodes.map (tag name)).filter (fun node => !step.isSelected node)=
      (nodes.filter (fun node => !step.isSelected (tag name node))).map (tag name) := by
    rw [List.filter_map]
    rfl
  rw [hmap]
  constructor
  · intro h node hn
    by_contra hname
    have hflip := isSelected_tag_ne (hs node hn) hne (by simpa using hname)
    have hmem : ∀ p : VMessNode → Bool,
        tag name node∈(nodes.filter p).map (tag name) ↔ p node=true := by
      intro p
      rw [List.mem_map]
      constructor
      · rintro ⟨node',hm,he⟩
        obtain ⟨hm,hp⟩ := List.mem_filter.mp hm
        rwa [← tag_injective (by rw [hs node' hm,hs node hn]) he]
      · exact fun hp => ⟨node,List.mem_filter.mpr ⟨hn,hp⟩,rfl⟩
    have hiff := (hmem (fun node => !step.isSelected node)).symm.trans
      ((by rw [h] : _ ↔ _).trans (hmem (fun node => !step.isSelected (tag name node))))
    simp only [hflip,Bool.not_not] at hiff
    cases hsel : step.isSelected node <;> simp [hsel] at hiff
  · intro h
    congr 1
    apply List.filter_congr
    intro node hn
    rw [isSelected_tag (hs node hn) (Or.inr (h node hn))]

/-- A step that rewrites: the two lists differ in any node that it changes. -/
theorem map_tag_iff {step : CompiledStep rx} {name : Text} {nodes : List VMessNode}
    (hs : ∀ node∈nodes, node.source=[]) (hne : step.sourceOk []≠step.sourceOk name) :
    (nodes.map (fun node => if step.isSelected node then step.transform node else node)).map
        (tag name)=
        (nodes.map (tag name)).map
          (fun node => if step.isSelected node then step.transform node else node) ↔
      ∀ node∈nodes, step.nameOk node.name=false ∨ step.transform node=node := by
  rw [List.map_map,List.map_map,List.map_inj_left]
  apply forall_congr'
  intro node
  apply forall_congr'
  intro hn
  simp only [Function.comp_apply]
  cases hname : step.nameOk node.name with
  | false =>
    rw [isSelected_tag (hs node hn) (Or.inr hname),transform_tag]
    simp only [true_or,iff_true]
    split_ifs <;> rfl
  | true =>
    have hsrc : (step.transform node).source=node.source := rfl
    rw [isSelected_tag_ne (hs node hn) hne hname,transform_tag]
    simp only [reduceCtorEq,false_or]
    cases step.isSelected node with
    | true => exact ⟨fun h => tag_injective hsrc h,fun h => congrArg (tag name) h⟩
    | false => exact ⟨fun h => (tag_injective hsrc.symm h).symm,fun h => congrArg (tag name) h.symm⟩

/-- One step commutes with the tagging exactly when it reads the two sources alike or does
nothing to the nodes. -/
theorem applyStep_tag_iff (step : CompiledStep rx) (name : Text) {nodes : List VMessNode}
    (hs : ∀ node∈nodes, node.source=[]) :
    (applyStep nodes step).map (tag name)=applyStep (nodes.map (tag name)) step ↔
      step.sourceOk []=step.sourceOk name ∨ ∀ node∈nodes, step.Idle node := by
  by_cases hsame : step.sourceOk []=step.sourceOk name
  · refine iff_of_true ?_ (Or.inl hsame)
    rw [applyStep_eq,applyStep_eq,List.map_filterMap,List.filterMap_map]
    apply List.filterMap_congr
    intro node hn
    have hsel := isSelected_tag (hs node hn) (Or.inl hsame)
    simp only [Function.comp_apply,CompiledStep.onNode,hsel,transform_tag]
    split_ifs <;> rfl
  · rw [or_iff_right hsame]
    simp only [applyStep,CompiledStep.Idle]
    cases hr : step.remove with
    | true =>
      simp only [if_true,reduceCtorEq,false_and,or_false]
      exact filter_tag_iff hs hsame
    | false =>
      simp only [Bool.false_eq_true,if_false,true_and]
      exact map_tag_iff hs hsame

theorem applyPipeline_concat (nodes : List VMessNode) (steps : List ProcessStep)
    (step : ProcessStep) : applyPipeline rx nodes (steps++[step])=
      applyStep (applyPipeline rx nodes steps) (CompiledStep.fromStep rx step) := by
  rw [applyPipeline,List.foldl_append]
  rfl

theorem applyPipeline_source {nodes : List VMessNode} {source : Text}
    (hs : ∀ node∈nodes, node.source=source) (steps : List ProcessStep) :
    ∀ node∈applyPipeline rx nodes steps, node.source=source := by
  intro node hn
  rw [applyPipeline_eq] at hn
  obtain ⟨node',hm,ho⟩ := List.mem_filterMap.mp hn
  rw [(onNode_route ho).source,hs node' hm]

/-- Each step reads the empty source and the name alike, or does nothing to the nodes that
reach it. -/
def SourceBlind (rx : RegexCrate) (name : Text) (nodes : List VMessNode)
    (steps : List ProcessStep) : Prop :=
  ∀ before step after, steps=before++step::after →
    (CompiledStep.fromStep rx step).sourceOk []=(CompiledStep.fromStep rx step).sourceOk name ∨
      ∀ node∈applyPipeline rx nodes before, (CompiledStep.fromStep rx step).Idle node

/-- Tagging commutes with every beginning of a pipeline exactly when no step can tell. -/
theorem applyPipeline_tag_iff (name : Text) {nodes : List VMessNode}
    (hs : ∀ node∈nodes, node.source=[]) (steps : List ProcessStep) :
    (∀ before after, steps=before++after →
        (applyPipeline rx nodes before).map (tag name)=
          applyPipeline rx (nodes.map (tag name)) before) ↔
      SourceBlind rx name nodes steps := by
  constructor
  · intro h before step after hsteps
    have hbefore := h before (step::after) hsteps
    have hstep := h (before++[step]) after (by rw [hsteps,List.append_assoc]; rfl)
    rw [applyPipeline_concat,applyPipeline_concat,← hbefore] at hstep
    exact (applyStep_tag_iff _ name (applyPipeline_source hs before)).mp hstep
  · intro h before
    -- the last step of the beginning, after the steps before it have been dealt with
    induction before using List.reverseRecOn with
    | nil =>
      intro _ _
      rfl
    | append_singleton before step ih =>
      intro after hsteps
      have hcons : steps=before++step::after := by
        rw [hsteps,List.append_assoc]
        rfl
      have hbefore := ih (step::after) hcons
      rw [applyPipeline_concat,applyPipeline_concat,← hbefore]
      exact (applyStep_tag_iff _ name (applyPipeline_source hs before)).mpr (h before step after hcons)

end

/-- The nodes that `reload` stores for a source whose body was read. -/
def storedNodes (crates : SubscriptionCrates) (l : Loading) (source : SubscriptionSource)
    (body : Text) : Option (List VMessNode) :=
  (loadSource l (source,fetchSource crates source (.ok body))).newSourceMap.lookup source.name

/-- The pipeline of the source has seen its name. -/
def SeesName (crates : SubscriptionCrates) (l : Loading) (source : SubscriptionSource)
    (body : Text) : Prop :=
  storedNodes crates l source body=some (applyPipeline crates.regex
    ((parseSubscription crates.parser body).map (tag source.name)) source.process)

theorem storedNodes_eq (crates : SubscriptionCrates) (l : Loading) {source : SubscriptionSource}
    (h : source.url.isSome≠source.path.isSome) (body : Text) :
    storedNodes crates l source body=
      some ((applyPipeline crates.regex (parseSubscription crates.parser body) source.process).map
        (tag source.name)) := by
  have hf : fetchSource crates source (.ok body)=
      .ok (applyPipeline crates.regex (parseSubscription crates.parser body) source.process) := by
    rw [fetchSource]
    cases hu : source.url <;> cases hp : source.path
    · simp [hu,hp] at h
    · rfl
    · rfl
    · simp [hu,hp] at h
  rw [storedNodes,hf,loadSource]
  exact AList.lookup_insert _

theorem deserialize_ok {raw source : SubscriptionSource}
    (h : SubscriptionSource.deserialize raw=.ok source) : source.url.isSome≠source.path.isSome := by
  simp only [SubscriptionSource.deserialize] at h
  split at h
  · cases h
  · cases h
  · next hboth hneither =>
    cases h
    intro he
    cases hu : (raw.url.filter (fun s => trim s≠[])).isSome
    · exact hneither hu (he ▸ hu)
    · exact hboth hu (he ▸ hu)

/-- For a source that the loader accepts: its pipeline sees the name of the source when no step
could tell the name from the empty text, and every beginning of it does so only then. -/
theorem pipeline_sees_name_iff (crates : SubscriptionCrates) (l : Loading)
    {raw source : SubscriptionSource} (hload : SubscriptionSource.deserialize raw=.ok source)
    (body : Text) :
    (SourceBlind crates.regex source.name (parseSubscription crates.parser body) source.process →
      SeesName crates l source body) ∧
    ((∀ before after, source.process=before++after →
        SeesName crates l { source with process := before } body) ↔
      SourceBlind crates.regex source.name (parseSubscription crates.parser body)
        source.process) := by
  have hset := deserialize_ok hload
  have hsees : ∀ before, SeesName crates l { source with process := before } body ↔
      (applyPipeline crates.regex (parseSubscription crates.parser body) before).map
        (tag source.name)=
      applyPipeline crates.regex ((parseSubscription crates.parser body).map (tag source.name))
        before := by
    intro before
    rw [SeesName,@storedNodes_eq crates l { source with process := before } hset body,
      Option.some.injEq]
  have hiff : (∀ before after, source.process=before++after →
        SeesName crates l { source with process := before } body) ↔
      SourceBlind crates.regex source.name (parseSubscription crates.parser body)
        source.process := by
    simp only [hsees]
    exact applyPipeline_tag_iff source.name (fun node hn => parseSubscription_source hn) _
  refine ⟨?_,hiff⟩
  intro hb
  exact hiff.mpr hb source.process [] (List.append_nil _).symm

/-- Patterns without special characters: a search for the text itself. -/
def literalRegex : RegexCrate where
  Regex := Text
  compile pattern := some pattern
  isMatch re text := decide (re <:+: text)
  replaceAll _ text _ := text

def literalSubscription : SubscriptionCrates := { plainSubscription with regex := literalRegex }

def removeStep (filter filterSource : List String) : ProcessStep where
  filter := filter.map String.toList
  filterSource := filterSource.map String.toList
  invert := false
  remove := true
  rename := []
  removeEmoji := false
  overrideSecurity := none
  packetEncoding := none

/-- A source that removes nodes by their names only. -/
def namedSource : SubscriptionSource :=
  { urlSource "free_sub" "https://free.example/" with process := [removeStep ["expired"] []] }

/-- A source that is to remove its own nodes. -/
def freeSource : SubscriptionSource :=
  { urlSource "free_sub" "https://free.example/" with process := [removeStep [] ["free_sub"]] }

theorem pipeline_sees_name_by_name : SeesName literalSubscription ⟨∅,∅⟩ namedSource oneLink := by
  have hload : SubscriptionSource.deserialize namedSource=.ok namedSource := by decide
  apply (pipeline_sees_name_iff literalSubscription ⟨∅,∅⟩ hload oneLink).1
  intro before step after h
  have hstep : step=removeStep ["expired"] [] := by
    have hm : step∈namedSource.process := by simp [h]
    simpa [namedSource] using hm
  left
  rw [hstep]
  rfl

/-- The documented step stays without effect: the node is stored, though its source is named. -/
theorem filter_source_ignored :
    SubscriptionSource.deserialize freeSource=.ok freeSource ∧
    (storedNodes literalSubscription ⟨∅,∅⟩ freeSource oneLink).map List.length=some 1 ∧
    applyPipeline literalRegex
      ((parseSubscription literalSubscription.parser oneLink).map (tag freeSource.name))
      freeSource.process=[] ∧
    ¬SeesName literalSubscription ⟨∅,∅⟩ freeSource oneLink := by
  have hload : SubscriptionSource.deserialize freeSource=.ok freeSource := by decide
  have hstored : (storedNodes literalSubscription ⟨∅,∅⟩ freeSource oneLink).map List.length=
      some 1 := by decide +kernel
  have hspec : applyPipeline literalRegex
      ((parseSubscription literalSubscription.parser oneLink).map (tag freeSource.name))
      freeSource.process=[] := by decide +kernel
  refine ⟨hload,hstored,hspec,?_⟩
  intro h
  rw [SeesName] at h
  rw [h,Option.map_some,Option.some.injEq] at hstored
  exact absurd (hspec ▸ hstored) (by decide)

end Tobira.Subscription
