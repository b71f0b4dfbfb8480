import Tobira.Subscription.Rename
import Tobira.Subscription.Tagging

namespace Tobira.Subscription

open Tobira.Framework

section
variable {rx : RegexCrate}

/-- The value of `matched` in `is_selected`, before it is inverted. -/
def CompiledStep.matched (step : CompiledStep rx) (node : VMessNode) : Bool :=
  step.nameOk node.name && step.sourceOk node.source

theorem CompiledStep.isSelected_matched (step : CompiledStep rx) (node : VMessNode) :
    step.isSelected node=if step.invert then !step.matched node else step.matched node := rfl

end

variable (rx : RegexCrate)

/-- What a list of patterns of the configuration asks of a text; a pattern that does not compile
matches nothing. -/
def Wanted (patterns : List Text) (text : Text) : Prop :=
  patterns=[] ∨ ∃ pattern∈patterns, ∃ re, rx.compile pattern=some re ∧ rx.isMatch re text=true

/-- Patterns are configured and none of them compiles. -/
def Void (patterns : List Text) : Prop := patterns≠[] ∧ compilePatterns rx patterns=[]

/-- No node is matched that the configuration does not ask for, and none is removed that no valid
pattern names. -/
structure NeverWidens (step : ProcessStep) (nodes : List VMessNode) : Prop where
  matched : ∀ node∈nodes, (CompiledStep.fromStep rx step).matched node=true →
    Wanted rx step.filter node.name ∧ Wanted rx step.filterSource node.source
  removed : step.remove=true → step.invert=false → step.filter≠[] → ∀ node∈nodes,
    (∀ pattern∈step.filter, ∀ re, rx.compile pattern=some re → rx.isMatch re node.name=false) →
    node∈applyStep nodes (CompiledStep.fromStep rx step)

/-- Where no pattern of one list compiles, the other list is not in the same state and asks for
none of the nodes. -/
def NeverVoid (step : ProcessStep) (nodes : List VMessNode) : Prop :=
  ∀ node∈nodes, ¬(Void rx step.filter ∧ Void rx step.filterSource) ∧
    (Void rx step.filter → ¬Wanted rx step.filterSource node.source) ∧
    (Void rx step.filterSource → ¬Wanted rx step.filter node.name)

variable {rx}

/-- The test of one list: it passes when the list asks for the text, -/
theorem admits_wanted {patterns : List Text} {text : Text} (h : Wanted rx patterns text) :
    ((compilePatterns rx patterns).isEmpty ||
      (compilePatterns rx patterns).any (fun re => rx.isMatch re text))=true := by
  rcases h with rfl|⟨pattern,hp,re,hc,hm⟩
  · rfl
  · apply Bool.or_eq_true_iff.mpr
    right
    exact List.any_eq_true.mpr ⟨re,List.mem_filterMap.mpr ⟨pattern,hp,hc⟩,hm⟩

/-- and when none of its patterns compiles, -/
theorem admits_void {patterns : List Text} (h : Void rx patterns) (text : Text) :
    ((compilePatterns rx patterns).isEmpty ||
      (compilePatterns rx patterns).any (fun re => rx.isMatch re text))=true := by
  rw [h.2]
  rfl

/-- and at no other time. -/
theorem wanted_or_void {patterns : List Text} {text : Text}
    (h : ((compilePatterns rx patterns).isEmpty ||
      (compilePatterns rx patterns).any (fun re => rx.isMatch re text))=true) :
    Wanted rx patterns text ∨ Void rx patterns := by
  rcases Bool.or_eq_true_iff.mp h with he|hany
  · by_cases hp : patterns=[]
    · exact Or.inl (Or.inl hp)
    · exact Or.inr ⟨hp,List.isEmpty_iff.mp he⟩
  · obtain ⟨re,hr,hm⟩ := List.any_eq_true.mp hany
    obtain ⟨pattern,hp,hc⟩ := List.mem_filterMap.mp hr
    exact Or.inl (Or.inr ⟨pattern,hp,re,hc,hm⟩)

theorem void_not_wanted {patterns : List Text} (h : Void rx patterns) (text : Text) :
    ¬Wanted rx patterns text := by
  obtain ⟨hne,hnil⟩ := h
  rintro (hp|⟨pattern,hp,re,hc,-⟩)
  · exact hne hp
  · have hm : re∈compilePatterns rx patterns := List.mem_filterMap.mpr ⟨pattern,hp,hc⟩
    rw [hnil] at hm
    cases hm

theorem matched_wanted {step : ProcessStep} {nodes : List VMessNode} (h : NeverVoid rx step nodes)
    {node : VMessNode} (hn : node∈nodes)
    (hm : (CompiledStep.fromStep rx step).matched node=true) :
    Wanted rx step.filter node.name ∧ Wanted rx step.filterSource node.source := by
  obtain ⟨hname,hsource⟩ := Bool.and_eq_true_iff.mp hm
  obtain ⟨hboth,hf,hs⟩ := h node hn
  rcases wanted_or_void hname with hw|hv <;> rcases wanted_or_void hsource with hw'|hv'
  · exact ⟨hw,hw'⟩
  · exact absurd hw (hs hv')
  · exact absurd hw' (hf hv)
  · exact absurd ⟨hv,hv'⟩ hboth

/-- An invalid pattern widens no selection exactly when it does not leave its list void where the
other list lets a node through. -/
theorem neverWidens_iff (rx : RegexCrate) (step : ProcessStep) (nodes : List VMessNode) :
    NeverWidens rx step nodes ↔ NeverVoid rx step nodes := by
  constructor
  · intro h node hn
    have hmatched : (CompiledStep.fromStep rx step).nameOk node.name=true →
        (CompiledStep.fromStep rx step).sourceOk node.source=true →
        Wanted rx step.filter node.name ∧ Wanted rx step.filterSource node.source :=
      fun hname hsource => h.matched node hn (Bool.and_eq_true_iff.mpr ⟨hname,hsource⟩)
    refine ⟨?_,?_,?_⟩
    · rintro ⟨hv,hv'⟩
      have hw := hmatched (admits_void hv node.name) (admits_void hv' node.source)
      exact void_not_wanted hv node.name hw.1
    · intro hv hw
      have hw' := hmatched (admits_void hv node.name) (admits_wanted hw)
      exact void_not_wanted hv node.name hw'.1
    · intro hv hw
      have hw' := hmatched (admits_wanted hw) (admits_void hv node.source)
      exact void_not_wanted hv node.source hw'.2
  · intro h
    refine ⟨fun node hn hm => matched_wanted h hn hm,?_⟩
    intro hremove hinvert hfilter node hn hnone
    have hkeep : (CompiledStep.fromStep rx step).isSelected node=false := by
      rw [CompiledStep.isSelected_matched,if_neg (by simp [CompiledStep.fromStep,hinvert]),
        ← Bool.not_eq_true]
      intro hm
      rcases (matched_wanted h hn hm).1 with hf|⟨pattern,hp,re,hc,hmatch⟩
      · exact hfilter hf
      · rw [hnone pattern hp re hc] at hmatch
        cases hmatch
    have hr : (CompiledStep.fromStep rx step).remove=true := hremove
    rw [applyStep,if_pos hr,List.mem_filter,hkeep]
    exact ⟨hn,rfl⟩

/-- A step that removes the nodes named by a pattern with a typing error in it. -/
def brokenStep : ProcessStep where
  filter := ["(".toList]
  filterSource := []
  invert := false
  remove := true
  rename := []
  removeEmoji := false
  overrideSecurity := none
  packetEncoding := none

/-- Texts as patterns, but for those with a parenthesis. -/
def wordRegex : RegexCrate where
  Regex := Text
  compile pattern := if pattern.contains '(' then none else some pattern
  isMatch re text := decide (re <:+: text)
  replaceAll _ text _ := text

/-- The step removes every node, although its pattern matches none. -/
theorem broken_step_removes_all : ¬NeverWidens wordRegex brokenStep [namedNode "x"] := by
  intro h
  have hnone : ∀ pattern∈brokenStep.filter, ∀ re, wordRegex.compile pattern=some re →
      wordRegex.isMatch re (namedNode "x").name=false := by
    intro pattern hp re hc
    obtain rfl := List.mem_singleton.mp hp
    cases hc
  have hkept := h.removed rfl rfl (by decide) (namedNode "x") (by simp) hnone
  have hgone : applyStep [namedNode "x"] (CompiledStep.fromStep wordRegex brokenStep)=[] := by
    decide
  rw [hgone] at hkept
  cases hkept

end Tobira.Subscription
