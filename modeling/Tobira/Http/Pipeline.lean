import Tobira.Http.Links

namespace Tobira.Http

open Tobira.Framework Tobira.Subscription

/-- What the filter keeps it may change, but not what is looked at. -/
theorem filterMap_map_sublist {α β : Type} {g : α → Option α} {view : α → β}
    (hg : ∀ a b, g a=some b → view b=view a) (l : List α) :
    ((l.filterMap g).map view).Sublist (l.map view) := by
  induction l with
  | nil => exact List.Sublist.slnil
  | cons a l ih =>
    cases ha : g a with
    | none =>
      rw [List.filterMap_cons_none ha,List.map_cons]
      exact ih.cons _
    | some b =>
      rw [List.filterMap_cons_some ha,List.map_cons,List.map_cons,hg a b ha]
      exact ih.cons_cons _

/-- The links of an output, each built from one node, in the order of the nodes. -/
structure LinksOf (crates : Crates) (output : OutputConfig) (network : RelayNetwork)
    (serviceName : Text) (nodes : List VMessNode) (rendered : RenderedOutput) : Prop where
  v2rayn : rendered.v2raynLinks=
    nodes.map (fun node => buildVmessJsonLink crates node output network serviceName)
  standard : rendered.standardLinks.map Except.ok=
    nodes.map (fun node => buildVmessUrlLink crates node output network serviceName)
  shadowrocket : rendered.shadowrocketLinks=
    nodes.map (fun node => buildShadowrocketLink crates node output network serviceName)

theorem renderOutput_links {crates : Crates} {nodes : List VMessNode} {network : RelayNetwork}
    {serviceName : Text} {output : OutputConfig} {rendered : RenderedOutput}
    (h : renderOutput crates nodes network serviceName output=.ok rendered) :
    LinksOf crates output network serviceName
      (applyPipeline crates.regex nodes output.process) rendered := by
  simp only [renderOutput] at h
  obtain ⟨links,hl,h⟩ := bind_ok h
  cases h
  refine ⟨rfl,?_,rfl⟩
  exact mapM_ok_map (fun _ _ hb => hb.symm) hl

/-- A pipeline treats each node by itself and never touches what routes it; so the nodes of a
rendered output are, in their order, some of the nodes it was given. -/
theorem pipeline_by_node (rx : RegexCrate) (steps : List ProcessStep) :
    ∃ g : VMessNode → Option VMessNode,
      (∀ nodes, applyPipeline rx nodes steps=nodes.filterMap g) ∧
      (∀ node node', g node=some node' → SameRoute node node') ∧
      ∀ (crates : Crates) (output : OutputConfig) (network : RelayNetwork) (serviceName : Text)
        (nodes : List VMessNode) (rendered : RenderedOutput),
        crates.regex=rx → output.process=steps →
        renderOutput crates nodes network serviceName output=.ok rendered →
        LinksOf crates output network serviceName (nodes.filterMap g) rendered ∧
        ((nodes.filterMap g).map VMessNode.uuid).Sublist (nodes.map VMessNode.uuid) := by
  refine ⟨onNode rx steps,fun nodes => applyPipeline_eq nodes steps,
    fun node node' h => onNode_route h,?_⟩
  rintro crates output network serviceName nodes rendered rfl rfl h
  constructor
  · rw [← applyPipeline_eq]
    exact renderOutput_links h
  · exact filterMap_map_sublist (fun a b hab => (onNode_route hab).uuid) nodes

end Tobira.Http
