import Mathlib.Data.List.Nodup
import Tobira.Subscription.Rename

namespace Tobira.Subscription

open Tobira.Framework

/-- The documented order of the address types, the best first; `Unknown` is in none of them. -/
def DedupStrategy.documented : DedupStrategy → List AddressType
  | preferIpv4 => [.ipv4,.domain,.ipv6]
  | preferIpv6 => [.ipv6,.domain,.ipv4]
  | preferDomainThenIpv4 => [.domain,.ipv4,.ipv6]
  | preferDomainThenIpv6 => [.domain,.ipv6,.ipv4]
  | _ => []

def DedupStrategy.rank (strategy : DedupStrategy) (node : VMessNode) : Nat :=
  strategy.documented.idxOf (getAddressType node.server)

/-- Of two nodes of one name, each with its index, the first is to be kept. -/
def Precedes (strategy : DedupStrategy) (p q : VMessNode×Nat) : Prop :=
  match strategy with
  | .last => q.2 ≤ p.2
  | .preferIpv4 | .preferIpv6 | .preferDomainThenIpv4 | .preferDomainThenIpv6 =>
    strategy.rank p.1<strategy.rank q.1 ∨
      (strategy.rank p.1=strategy.rank q.1 ∧ p.2 ≤ q.2)
  | _ => p.2 ≤ q.2

/-- The node to be kept of those with its name. -/
def Chosen (strategy : DedupStrategy) (nodes : List VMessNode) (p : VMessNode×Nat) : Prop :=
  ∀ q∈nameIndices nodes p.1.name, Precedes strategy p q

/-- What selecting is for. -/
structure KeepsOne (strategy : DedupStrategy) (nodes out : List VMessNode) : Prop where
  kept : ∃ kept : List (VMessNode×Nat), kept.Sublist nodes.zipIdx ∧ kept.map Prod.fst=out ∧
    ∀ p∈nodes.zipIdx, p∈kept ↔ Chosen strategy nodes p
  one : ∀ name∈nodes.map VMessNode.name,
    ∃! p, p∈nodes.zipIdx ∧ p.1.name=name ∧ Chosen strategy nodes p

theorem Precedes.antisymm {strategy : DedupStrategy} {p q : VMessNode×Nat}
    (h : Precedes strategy p q) (h' : Precedes strategy q p) : p.2=q.2 := by
  cases strategy <;> simp only [Precedes] at h h' <;> omega

section
variable (strategy : DedupStrategy)

/-- The priority the loop of `deduplicate_nodes` gives to a node. -/
def priority (p : VMessNode×Nat) : Int :=
  strategy.addressPriority (getAddressType p.1.server)

variable {strategy}

theorem Precedes.refl (p : VMessNode×Nat) : Precedes strategy p p := by
  cases strategy <;> simp [Precedes]

end

section
variable {nodes : List VMessNode} {p q : VMessNode×Nat}

theorem zipIdx_sorted (nodes : List VMessNode) :
    nodes.zipIdx.Pairwise (fun p q => p.2<q.2) := by
  rw [← List.pairwise_map (f := Prod.snd) (R := fun i j => i<j),List.zipIdx_map_snd]
  exact List.pairwise_lt_range'

theorem mem_nameIndices {name : Text} :
    p∈nameIndices nodes name ↔ p∈nodes.zipIdx ∧ p.1.name=name := by
  rw [nameIndices,List.mem_filter,decide_eq_true_iff]

theorem zipIdx_inj (hp : p∈nodes.zipIdx) (hq : q∈nodes.zipIdx) (h : p.2=q.2) : p=q := by
  have hp' := List.mem_zipIdx_iff_getElem?.mp hp
  have hq' := List.mem_zipIdx_iff_getElem?.mp hq
  rw [h,hq',Option.some.injEq] at hp'
  exact Prod.ext hp'.symm h

variable {strategy : DedupStrategy}

theorem Chosen.unique (hp : p∈nodes.zipIdx) (hq : q∈nodes.zipIdx) (hn : p.1.name=q.1.name)
    (h : Chosen strategy nodes p) (h' : Chosen strategy nodes q) : p=q := by
  apply zipIdx_inj hp hq
  apply Precedes.antisymm
  · exact h q (mem_nameIndices.mpr ⟨hq,hn.symm⟩)
  · exact h' p (mem_nameIndices.mpr ⟨hp,hn⟩)

end

section
variable {strategy : Text} (hs : strategy≠[]) (hr : strategy≠"rename".toList)
include hs hr

section
variable {order : List Text} {nodes : List VMessNode}
  (ho : ∀ name, name∈order ↔ name∈nodes.map VMessNode.name)
include ho

end

end

theorem KeepsOne.nodup {strategy : DedupStrategy} {nodes out : List VMessNode}
    (h : KeepsOne strategy nodes out) : (out.map VMessNode.name).Nodup := by
  obtain ⟨kept,hsub,rfl,hk⟩ := h.kept
  rw [List.map_map,List.Nodup,List.pairwise_map]
  have hsorted : kept.Pairwise (fun p q => p.2<q.2) := (zipIdx_sorted nodes).sublist hsub
  refine hsorted.imp_of_mem ?_
  intro p q hp hq hlt hn
  have hpz := hsub.subset hp
  have hqz := hsub.subset hq
  have he := ((hk p hpz).mp hp).unique hpz hqz hn ((hk q hqz).mp hq)
  rw [he] at hlt
  exact Nat.lt_irrefl _ hlt

end Tobira.Subscription
