import Mathlib.Data.List.Nodup
import Tobira.Framework.Str
import Tobira.Subscription.Dedup

namespace Tobira.Subscription

open Tobira.Framework

section
variable {α : Type} [BEq α] [LawfulBEq α]

/-- The occurrences of an element are numbered from zero on. -/
theorem exists_rank {l : List α} {a : α} {k : Nat} (h : k<l.count a) :
    ∃ i, l[i]?=some a ∧ (l.take i).count a=k := by
  induction l generalizing k with
  | nil => simp at h
  | cons b l ih =>
    by_cases hb : b=a
    · subst hb
      rw [List.count_cons_self] at h
      cases k with
      | zero => exact ⟨0,rfl,rfl⟩
      | succ k =>
        obtain ⟨i,hi,hc⟩ := ih (Nat.lt_of_succ_lt_succ h)
        exact ⟨i+1,hi,by rw [List.take_succ_cons,List.count_cons_self,hc]⟩
    · rw [List.count_cons_of_ne hb] at h
      obtain ⟨i,hi,hc⟩ := ih h
      exact ⟨i+1,hi,by rw [List.take_succ_cons,List.count_cons_of_ne hb,hc]⟩

theorem count_take_succ {l : List α} {a : α} {i : Nat} (h : l[i]?=some a) :
    (l.take (i+1)).count a=(l.take i).count a+1 := by
  rw [List.take_add_one,h,List.count_append]
  simp

theorem count_take_lt {l : List α} {a : α} {i j : Nat} (h : l[i]?=some a) (hij : i<j) :
    (l.take i).count a<(l.take j).count a := by
  have hs : (l.take (i+1)).Sublist (l.take j) :=
    (List.take_prefix_take_left (by omega)).sublist
  have hle := hs.count_le a
  rw [count_take_succ h] at hle
  omega

theorem count_take_lt_count {l : List α} {a : α} {i : Nat} (h : l[i]?=some a) :
    (l.take i).count a<l.count a := by
  have hle := (List.take_sublist (i+1) l).count_le a
  rw [count_take_succ h] at hle
  omega

end

/-- The name a duplicate gets: `format!("{} ({})", tag, count)`. -/
def numbered (name : Text) (k : Nat) : Text := name++" (".toList++decimal k++")".toList

theorem numbered_inj {name name' : Text} {k k' : Nat} (h : numbered name k=numbered name' k') :
    name=name' ∧ k=k' := by
  have hparen : ∀ n, '('∉decimal n := by
    intro n hm
    have hd := decimal_isDigit hm
    revert hd
    decide
  -- Without the closing parenthesis, the last opening one stands before the number.
  have h' := List.append_cancel_right h
  have hopen : ∀ (text : Text) (n : Nat),
      text++" (".toList++decimal n=(text++[' ']) ++ '('::decimal n := by
    intro text n
    simp
  rw [hopen,hopen] at h'
  obtain ⟨hn,hk⟩ := append_cons_inj_last (hparen k) (hparen k') h'
  refine ⟨List.append_cancel_right hn,?_⟩
  rw [← digitsValue_decimal k,hk,digitsValue_decimal]

theorem ne_numbered (name : Text) (k : Nat) : name≠numbered name k := by
  intro h
  have hl := congrArg List.length h
  simp only [numbered,List.length_append] at hl
  have hone : (")".toList).length=1 := rfl
  omega

/-- The name of a node that comes after nodes with the names `before`. -/
def freshName (before : List Text) (name : Text) : Text :=
  if before.contains name then numbered name (before.count name) else name

theorem freshName_first {before : List Text} {name : Text} (h : before.count name=0) :
    freshName before name=name := by
  have hc : ¬before.contains name=true := by
    rw [List.contains_iff_mem]
    exact List.count_eq_zero.mp h
  rw [freshName,if_neg hc]

theorem freshName_later {before : List Text} {name : Text} (h : 0<before.count name) :
    freshName before name=numbered name (before.count name) := by
  have hc : before.contains name=true := by
    rw [List.contains_iff_mem]
    exact List.count_pos_iff.mp h
  rw [freshName,if_pos hc]

theorem freshName_reverse (before : List Text) (name : Text) :
    freshName before.reverse name=freshName before name := by
  simp only [freshName,List.contains_reverse,List.count_reverse]

theorem renameDuplicates_cons (seen : List Text) (node : VMessNode) (nodes : List VMessNode) :
    renameDuplicates seen (node::nodes)=
      { node with name := freshName seen node.name }::renameDuplicates (node.name::seen) nodes :=
  rfl

theorem renameDuplicates_getElem (seen : List Text) (nodes : List VMessNode) (i : Nat) :
    (renameDuplicates seen nodes)[i]?=(nodes[i]?).map (fun node =>
      { node with
        name := freshName (((nodes.map VMessNode.name).take i).reverse++seen) node.name }) := by
  induction nodes generalizing seen i with
  | nil => rfl
  | cons node nodes ih =>
    rw [renameDuplicates_cons]
    cases i with
    | zero => rfl
    | succ i =>
      rw [List.getElem?_cons_succ,List.getElem?_cons_succ,ih]
      simp

/-- Each node with the names of the nodes before it. -/
theorem renameDuplicates_spec (nodes : List VMessNode) (i : Nat) :
    (renameDuplicates [] nodes)[i]?=(nodes[i]?).map (fun node =>
      { node with name := freshName ((nodes.map VMessNode.name).take i) node.name }) := by
  rw [renameDuplicates_getElem]
  simp only [List.append_nil,freshName_reverse]

/-- No name of the input is one that a repeated name of the input is given. -/
def NoneGenerated (names : List Text) : Prop :=
  ∀ name∈names, ∀ k, 0<k → k<names.count name → numbered name k∉names

section
variable {names out : List Text} (h : ∀ i, out[i]?=(names[i]?).map (freshName (names.take i)))
include h

theorem noneGenerated_of_nodup (hn : out.Nodup) : NoneGenerated names := by
  intro name _ k hk hlt hm
  -- The duplicate that is given the number, and the first node that has this name already.
  obtain ⟨i,hi,hci⟩ := exists_rank hlt
  obtain ⟨j,hj,hcj⟩ := exists_rank (List.count_pos_iff.mpr hm)
  have hout : ∀ {m a}, names[m]?=some a → out[m]?=some (freshName (names.take m) a) := by
    intro m a ha
    rw [h,ha,Option.map_some]
  have hoi : out[i]?=some (numbered name k) := by
    rw [hout hi,freshName_later (by omega),hci]
  have hoj : out[j]?=some (numbered name k) := by
    rw [hout hj,freshName_first hcj]
  have hij : i=j :=
    (List.getElem?_inj (List.getElem?_eq_some_iff.mp hoi).1 hn).mp (hoi.trans hoj.symm)
  subst hij
  rw [hi,Option.some.injEq] at hj
  exact ne_numbered name k hj

theorem nodup_of_noneGenerated (hg : NoneGenerated names) : out.Nodup := by
  rw [List.nodup_iff_getElem?_ne_getElem?]
  intro i j hij hj heq
  rw [h,h] at heq
  have hlen : out.length=names.length := by
    apply Nat.le_antisymm
    · have hnone := h names.length
      rw [List.getElem?_eq_none (le_refl _)] at hnone
      exact List.getElem?_eq_none_iff.mp hnone
    · have hnone := h out.length
      rw [List.getElem?_eq_none (le_refl _)] at hnone
      exact List.getElem?_eq_none_iff.mp (Option.map_eq_none_iff.mp hnone.symm)
  have ha : names[i]?=some names[i] := List.getElem?_eq_getElem (by omega)
  have hb : names[j]?=some names[j] := List.getElem?_eq_getElem (by omega)
  have hma : names[i]∈names := List.getElem_mem _
  have hmb : names[j]∈names := List.getElem_mem _
  generalize names[i]=a at ha hma
  generalize names[j]=b at hb hmb
  rw [ha,hb,Option.map_some,Option.map_some,Option.some.injEq] at heq
  rcases Nat.eq_zero_or_pos ((names.take i).count a) with hca|hca <;>
    rcases Nat.eq_zero_or_pos ((names.take j).count b) with hcb|hcb
  · rw [freshName_first hca,freshName_first hcb] at heq
    subst heq
    have hlt := count_take_lt ha hij
    omega
  · rw [freshName_first hca,freshName_later hcb] at heq
    exact hg b hmb _ hcb (count_take_lt_count hb) (heq ▸ hma)
  · rw [freshName_later hca,freshName_first hcb] at heq
    exact hg a hma _ hca (count_take_lt_count ha) (heq ▸ hmb)
  · rw [freshName_later hca,freshName_later hcb] at heq
    obtain ⟨hab,hc⟩ := numbered_inj heq
    subst hab
    have hlt := count_take_lt ha hij
    omega

end

/-- What renaming is for. -/
structure RenamedApart (nodes out : List VMessNode) : Prop where
  length : out.length=nodes.length
  same : ∀ (i : Nat) (node node' : VMessNode), nodes[i]?=some node → out[i]?=some node' →
    node'={ node with name := node'.name }
  first : ∀ (i : Nat) (node node' : VMessNode), nodes[i]?=some node → out[i]?=some node' →
    (∀ (j : Nat) (other : VMessNode), j < i → nodes[j]?=some other → other.name≠node.name) →
    node'.name=node.name
  distinct : (out.map VMessNode.name).Nodup

/-- What the strategies `""` and `"rename"` do to any list: all but the names stays. -/
theorem renameDuplicates_kept (nodes : List VMessNode) (i : Nat) {node node' : VMessNode}
    (hi : nodes[i]?=some node) (ho : (renameDuplicates [] nodes)[i]?=some node') :
    node'={ node with name := freshName ((nodes.map VMessNode.name).take i) node.name } := by
  rw [renameDuplicates_spec,hi,Option.map_some,Option.some.injEq] at ho
  exact ho.symm

theorem renameDuplicates_length (seen : List Text) (nodes : List VMessNode) :
    (renameDuplicates seen nodes).length=nodes.length := by
  induction nodes generalizing seen with
  | nil => rfl
  | cons node nodes ih => rw [renameDuplicates_cons,List.length_cons,ih,List.length_cons]

theorem renameDuplicates_names (nodes : List VMessNode) (i : Nat) :
    ((renameDuplicates [] nodes).map VMessNode.name)[i]?=
      ((nodes.map VMessNode.name)[i]?).map
        (freshName ((nodes.map VMessNode.name).take i)) := by
  rw [List.getElem?_map,renameDuplicates_spec,List.getElem?_map,Option.map_map,Option.map_map]
  rfl

theorem deduplicateNodes_rename {strategy : Text}
    (h : strategy=[] ∨ strategy="rename".toList) (nodes : List VMessNode) :
    deduplicateNodes nodes strategy=renameDuplicates [] nodes := by
  have hs : DedupStrategy.parse strategy=.rename := by rw [DedupStrategy.parse,if_pos h]
  rw [deduplicateNodes,hs]
  rfl

/-- Renaming makes the names distinct exactly when no name of the input is one it gives out. -/
theorem rename_apart_iff (nodes : List VMessNode) (strategy : Text)
    (h : strategy=[] ∨ strategy="rename".toList) :
    RenamedApart nodes (deduplicateNodes nodes strategy) ↔
      NoneGenerated (nodes.map VMessNode.name) := by
  rw [deduplicateNodes_rename h]
  constructor
  · intro hr
    exact noneGenerated_of_nodup (renameDuplicates_names nodes) hr.distinct
  · intro hg
    refine ⟨renameDuplicates_length [] nodes,?_,?_,?_⟩
    · intro i node node' hi ho
      rw [renameDuplicates_kept nodes i hi ho]
    · intro i node node' hi ho hfirst
      rw [renameDuplicates_kept nodes i hi ho]
      apply freshName_first
      rw [List.count_eq_zero,List.mem_take_iff_getElem]
      rintro ⟨j,hj,hn⟩
      rw [List.length_map] at hj
      rw [List.getElem_map] at hn
      exact hfirst j nodes[j] (by omega) (List.getElem?_eq_getElem (by omega)) hn
    · exact nodup_of_noneGenerated (renameDuplicates_names nodes) hg

/-- A node of which only the name matters. -/
def namedNode (name : String) : VMessNode where
  name := name.toList
  source := []
  server := "192.0.2.1".toList
  port := 443
  uuid := "550e8400-e29b-41d4-a716-446655440000".toList
  alterId := 0
  security := "auto".toList
  network := "tcp".toList
  tls := false
  sni := []
  grpcServiceName := none
  wsPath := none
  wsHost := none
  packetEncoding := .default

/-- Three nodes of one name. -/
theorem rename_apart_three : RenamedApart [namedNode "x",namedNode "x",namedNode "x"]
    (deduplicateNodes [namedNode "x",namedNode "x",namedNode "x"] "rename".toList) := by
  apply (rename_apart_iff _ _ (Or.inr rfl)).mpr
  intro name hn k _ _ hm
  have hx : ∀ text∈[namedNode "x",namedNode "x",namedNode "x"].map VMessNode.name,
      text="x".toList := by decide
  rw [hx name hn] at hm
  exact ne_numbered "x".toList k (hx _ hm).symm

/-- The third node already has the name that the second is given. -/
theorem rename_collides : ¬RenamedApart [namedNode "x",namedNode "x",namedNode "x (1)"]
    (deduplicateNodes [namedNode "x",namedNode "x",namedNode "x (1)"] []) := by
  intro h
  have hd := h.distinct
  revert hd
  decide

end Tobira.Subscription
