import Tobira.Framework.Net
import Tobira.Subscription.Process

namespace Tobira.Subscription

open Tobira.Framework Tobira.Framework.Net

inductive AddressType where
  | domain
  | ipv4
  | ipv6
  | unknown
  deriving DecidableEq,Repr

inductive DedupStrategy where
  | rename
  | first
  | last
  | preferIpv4
  | preferIpv6
  | preferDomainThenIpv4
  | preferDomainThenIpv6
  | unknown
  deriving DecidableEq,Repr

namespace DedupStrategy

def parse (strategy : Text) : DedupStrategy :=
  if strategy=[] ∨ strategy="rename".toList then rename
  else if strategy="first".toList then first
  else if strategy="last".toList then last
  else if strategy="prefer_ipv4".toList then preferIpv4
  else if strategy="prefer_ipv6".toList then preferIpv6
  else if strategy="prefer_domain_then_ipv4".toList then preferDomainThenIpv4
  else if strategy="prefer_domain_then_ipv6".toList then preferDomainThenIpv6
  else unknown

def addressPriority : DedupStrategy → AddressType → Int
  | _,.unknown => 0
  | preferIpv4,.ipv4 => 3
  | preferIpv4,.domain => 2
  | preferIpv4,.ipv6 => 1
  | preferIpv6,.ipv6 => 3
  | preferIpv6,.domain => 2
  | preferIpv6,.ipv4 => 1
  | preferDomainThenIpv4,.domain => 3
  | preferDomainThenIpv4,.ipv4 => 2
  | preferDomainThenIpv4,.ipv6 => 1
  | preferDomainThenIpv6,.domain => 3
  | preferDomainThenIpv6,.ipv6 => 2
  | preferDomainThenIpv6,.ipv4 => 1
  | rename,_ => 0
  | first,_ => 0
  | last,_ => 0
  | unknown,_ => 0

end DedupStrategy

def getAddressType (address : Text) : AddressType :=
  if address=[] then .unknown
  else if (parseIpv4Addr address).isSome then .ipv4
  else if (parseIpv6Addr address).isSome then .ipv6
  else .domain

/-- The strategy `rename`; `seen` holds the names of the nodes before, as they came in. -/
def renameDuplicates : List Text → List VMessNode → List VMessNode
  | _,[] => []
  | seen,node::nodes =>
    let name :=
      if seen.contains node.name then
        node.name++" (".toList++decimal (seen.count node.name)++")".toList
      else node.name
    { node with name := name }::renameDuplicates (node.name::seen) nodes

/-- The nodes with one name, each with its index. -/
def nameIndices (nodes : List VMessNode) (name : Text) : List (VMessNode×Nat) :=
  nodes.zipIdx.filter (fun p => p.1.name=name)

/-- The loop over the indices of one name: the best index and its priority so far. -/
def bestIndex (strategy : DedupStrategy) (best : Nat×Int) : List (VMessNode×Nat) → Nat
  | [] => best.1
  | (node,idx)::rest =>
    let priority := strategy.addressPriority (getAddressType node.server)
    bestIndex strategy (if best.2<priority then (idx,priority) else best) rest

/-- The index that is kept of the nodes with one name. -/
def selectIndex (strategy : DedupStrategy) : List (VMessNode×Nat) → Option Nat
  | [] => none
  | [p] => some p.2
  | p::q::rest => match strategy with
    | .first => some p.2
    | .last => ((p::q::rest).getLast?).map Prod.snd
    | _ => some (bestIndex strategy (p.2,-1) (p::q::rest))

def deduplicateNodes (nodes : List VMessNode) (strategy : Text) : List VMessNode :=
  let strategy := DedupStrategy.parse strategy
  if strategy=.rename then renameDuplicates [] nodes
  else
    let keep := nodes.map (fun node => selectIndex strategy (nameIndices nodes node.name))
    (nodes.zipIdx.filter (fun p => keep.contains (some p.2))).map Prod.fst

theorem renameDuplicates_route {seen : List Text} {nodes : List VMessNode} {node : VMessNode}
    (h : node∈renameDuplicates seen nodes) : ∃ node'∈nodes, SameRoute node' node := by
  induction nodes generalizing seen with
  | nil => cases h
  | cons first nodes ih =>
    rcases List.mem_cons.mp h with rfl|h
    · exact ⟨first,by simp,⟨rfl,rfl,rfl,rfl,rfl,rfl,rfl,rfl,rfl,rfl,rfl⟩⟩
    · obtain ⟨node',hm,hr⟩ := ih h
      exact ⟨node',by simp [hm],hr⟩

/-- Every node that is left came in, perhaps under another name. -/
theorem deduplicateNodes_route {nodes : List VMessNode} {strategy : Text} {node : VMessNode}
    (h : node∈deduplicateNodes nodes strategy) : ∃ node'∈nodes, SameRoute node' node := by
  simp only [deduplicateNodes] at h
  split_ifs at h
  · exact renameDuplicates_route h
  · obtain ⟨⟨node',i⟩,hp,rfl⟩ := List.mem_map.mp h
    have hi := List.mk_mem_zipIdx_iff_getElem?.mp (List.mem_of_mem_filter hp)
    exact ⟨node',List.mem_of_getElem? hi,SameRoute.refl node'⟩

end Tobira.Subscription
