import Tobira.Config

namespace Tobira.Subscription

open Tobira.Framework

structure VMessNode where
  name : Text
  source : Text
  server : Text
  port : UInt16
  uuid : Text
  alterId : UInt32
  security : Text
  network : Text
  tls : Bool
  sni : Text
  grpcServiceName : Option Text
  wsPath : Option Text
  wsHost : Option Text
  packetEncoding : PacketEncoding
  deriving DecidableEq,Repr

/-- What the `regex` crate provides: `Regex::new`, `is_match` and `replace_all`. -/
structure RegexCrate where
  Regex : Type
  compile : Text → Option Regex
  isMatch : Regex → Text → Bool
  replaceAll : Regex → Text → Text → Text

structure CompiledStep (rx : RegexCrate) where
  filterCompiled : List rx.Regex
  filterSourceCompiled : List rx.Regex
  renameCompiled : List (rx.Regex×Text)
  removeEmoji : Bool
  overrideSecurity : Option Text
  packetEncoding : Option PacketEncoding
  remove : Bool
  invert : Bool

/-- A pattern that does not compile is dropped. -/
def compilePatterns (rx : RegexCrate) (patterns : List Text) : List rx.Regex :=
  patterns.filterMap rx.compile

def CompiledStep.fromStep (rx : RegexCrate) (step : ProcessStep) : CompiledStep rx where
  filterCompiled := compilePatterns rx step.filter
  filterSourceCompiled := compilePatterns rx step.filterSource
  renameCompiled := step.rename.filterMap (fun p => (rx.compile p.1).map (fun re => (re,p.2)))
  removeEmoji := step.removeEmoji
  overrideSecurity := step.overrideSecurity
  packetEncoding := step.packetEncoding
  remove := step.remove
  invert := step.invert

def emojiRanges : List (Nat×Nat) :=
  [(0x1F600,0x1F64F),(0x1F300,0x1F5FF),(0x1F680,0x1F6FF),(0x1F1E0,0x1F1FF),(0x2600,0x26FF),
    (0x2700,0x27BF),(0xFE00,0xFE0F),(0x1F900,0x1F9FF),(0x1FA70,0x1FAFF)]

def isEmoji (c : Char) : Bool :=
  emojiRanges.any (fun r => decide (r.1 ≤ c.toNat) && decide (c.toNat ≤ r.2))

def stripEmoji (s : Text) : Text := s.filter (fun c => !isEmoji c)

section Pipeline
variable {rx : RegexCrate}

/-- The closure `is_selected` of `apply_step`; an empty list of patterns matches all nodes. -/
def CompiledStep.isSelected (step : CompiledStep rx) (node : VMessNode) : Bool :=
  let nameOk := step.filterCompiled.isEmpty ||
    step.filterCompiled.any (fun re => rx.isMatch re node.name)
  let sourceOk := step.filterSourceCompiled.isEmpty ||
    step.filterSourceCompiled.any (fun re => rx.isMatch re node.source)
  let matched := nameOk && sourceOk
  if step.invert then !matched else matched

/-- What `apply_step` does to a selected node. -/
def CompiledStep.transform (step : CompiledStep rx) (node : VMessNode) : VMessNode :=
  let name := step.renameCompiled.foldl (fun name p => rx.replaceAll p.1 name p.2) node.name
  { node with
    name := if step.removeEmoji then stripEmoji name else name
    security := step.overrideSecurity.getD node.security
    packetEncoding := step.packetEncoding.getD node.packetEncoding }

def applyStep (nodes : List VMessNode) (step : CompiledStep rx) : List VMessNode :=
  if step.remove then nodes.filter (fun node => !step.isSelected node)
  else nodes.map (fun node => if step.isSelected node then step.transform node else node)

def applyPipeline (rx : RegexCrate) (nodes : List VMessNode) (steps : List ProcessStep) :
    List VMessNode :=
  steps.foldl (fun nodes step => applyStep nodes (CompiledStep.fromStep rx step)) nodes

/-- A step on one node: `none` when it is removed. -/
def CompiledStep.onNode (step : CompiledStep rx) (node : VMessNode) : Option VMessNode :=
  if step.isSelected node then if step.remove then none else some (step.transform node)
  else some node

/-- A pipeline on one node. -/
def onNode (rx : RegexCrate) (steps : List ProcessStep) (node : VMessNode) : Option VMessNode :=
  steps.foldl (fun node step => node.bind (CompiledStep.fromStep rx step).onNode) (some node)

theorem applyStep_eq (nodes : List VMessNode) (step : CompiledStep rx) :
    applyStep nodes step=nodes.filterMap step.onNode := by
  induction nodes with
  | nil => simp [applyStep]
  | cons node nodes ih =>
    rw [List.filterMap_cons,← ih]
    cases hs : step.isSelected node <;> cases hr : step.remove <;>
      simp [applyStep,CompiledStep.onNode,hs,hr]

theorem onNode_cons (step : ProcessStep) (steps : List ProcessStep) (node : VMessNode) :
    onNode rx (step::steps) node=
      ((CompiledStep.fromStep rx step).onNode node).bind (onNode rx steps) := by
  have hnone : ∀ steps : List ProcessStep,
      steps.foldl (fun node step => node.bind (CompiledStep.fromStep rx step).onNode) none=none := by
    intro steps
    induction steps with
    | nil => rfl
    | cons s steps ih => exact ih
  rw [onNode,List.foldl_cons,Option.bind_some]
  cases (CompiledStep.fromStep rx step).onNode node with
  | none => exact hnone steps
  | some node => rfl

/-- A pipeline looks at each node by itself. -/
theorem applyPipeline_eq (nodes : List VMessNode) (steps : List ProcessStep) :
    applyPipeline rx nodes steps=nodes.filterMap (onNode rx steps) := by
  induction steps generalizing nodes with
  | nil => exact (List.filterMap_some).symm
  | cons step steps ih =>
    have hs : applyPipeline rx nodes (step::steps)=
        applyPipeline rx (applyStep nodes (CompiledStep.fromStep rx step)) steps := rfl
    rw [hs,ih,applyStep_eq,List.filterMap_filterMap]
    apply List.filterMap_congr
    intro node _
    rw [onNode_cons]

/-- What routes a node: no step touches any of it. -/
structure SameRoute (node node' : VMessNode) : Prop where
  source : node'.source=node.source
  server : node'.server=node.server
  port : node'.port=node.port
  uuid : node'.uuid=node.uuid
  alterId : node'.alterId=node.alterId
  network : node'.network=node.network
  tls : node'.tls=node.tls
  sni : node'.sni=node.sni
  grpcServiceName : node'.grpcServiceName=node.grpcServiceName
  wsPath : node'.wsPath=node.wsPath
  wsHost : node'.wsHost=node.wsHost

theorem SameRoute.refl (node : VMessNode) : SameRoute node node :=
  ⟨rfl,rfl,rfl,rfl,rfl,rfl,rfl,rfl,rfl,rfl,rfl⟩

theorem SameRoute.trans {a b c : VMessNode} (h : SameRoute a b) (h' : SameRoute b c) :
    SameRoute a c where
  source := h'.source.trans h.source
  server := h'.server.trans h.server
  port := h'.port.trans h.port
  uuid := h'.uuid.trans h.uuid
  alterId := h'.alterId.trans h.alterId
  network := h'.network.trans h.network
  tls := h'.tls.trans h.tls
  sni := h'.sni.trans h.sni
  grpcServiceName := h'.grpcServiceName.trans h.grpcServiceName
  wsPath := h'.wsPath.trans h.wsPath
  wsHost := h'.wsHost.trans h.wsHost

theorem CompiledStep.onNode_route {step : CompiledStep rx} {node node' : VMessNode}
    (h : step.onNode node=some node') : SameRoute node node' := by
  rw [CompiledStep.onNode] at h
  split_ifs at h
  · cases h
    exact ⟨rfl,rfl,rfl,rfl,rfl,rfl,rfl,rfl,rfl,rfl,rfl⟩
  · cases h
    exact SameRoute.refl _

theorem onNode_route {steps : List ProcessStep} {node node' : VMessNode}
    (h : onNode rx steps node=some node') : SameRoute node node' := by
  induction steps generalizing node with
  | nil =>
    cases h
    exact SameRoute.refl _
  | cons step steps ih =>
    rw [onNode_cons] at h
    obtain ⟨mid,hm,hr⟩ := Option.bind_eq_some_iff.mp h
    exact (CompiledStep.onNode_route hm).trans (ih hr)

end Pipeline

end Tobira.Subscription
