import Tobira.Http.Server
import Tobira.Subscription.Routing

namespace Tobira.Relay

open Tobira.Framework Tobira.Framework.Url Tobira.Http Tobira.Subscription Tobira.Vmess

/-- What an inbound sees of a request: HTTP/2 carries the method and the parts of the URI. -/
structure GrpcRequest where
  method : Text
  uri : Uri
  headers : HeaderMap

/-- The status of the response where the request is refused. -/
def validateRequest (request : GrpcRequest) (serviceName : Text) : Except Nat Unit :=
  if request.method≠"POST".toList then .error 405
  else
    let expectedPath := "/".toList++serviceName++"/Tun".toList
    if request.uri.path≠expectedPath then .error 404
    else
      let contentType := ((request.headers.get "content-type").bind headerToStr).getD []
      if "application/grpc".toList.isPrefixOf contentType then .ok () else .error 415

/-- The request that `open_grpc_tunnel` sends. -/
def tunnelRequest (requestUri : Uri) : GrpcRequest where
  method := "POST".toList
  uri := requestUri
  headers := [("content-type".toList,utf8 "application/grpc".toList),
    ("user-agent".toList,utf8 "grpc-go/1.48.0".toList),("te".toList,utf8 "trailers".toList)]

/-- `str::parse::<http::Uri>`: what follows the authority ends at the first `#`, and its path ends
at the first `?`. -/
def UriSplits (uriParse : Text → Except Text Uri) : Prop :=
  ∀ sni port rest uri, DnsName sni →
    uriParse ("https://".toList++sni++":".toList++decimal port ++ '/'::rest)=.ok uri →
    uri.path = '/'::(rest.takeWhile (· ≠ '#')).takeWhile (· ≠ '?')

theorem takeWhile_ne_self {c : Char} {text : Text} : text.takeWhile (· ≠ c)=text ↔ c∉text := by
  rw [List.takeWhile_eq_self_iff]
  constructor
  · intro h hm
    exact absurd (h c hm) (by simp)
  · intro h d hd
    rw [decide_eq_true_eq]
    rintro rfl
    exact h hd

/-- Both cuts leave a text alone exactly when neither mark stands in it. -/
theorem cuts_self (text : Text) :
    (text.takeWhile (· ≠ '#')).takeWhile (· ≠ '?')=text ↔ '?'∉text ∧ '#'∉text := by
  constructor
  · intro h
    have hle := List.takeWhile_prefix (l := text.takeWhile (· ≠ '#')) (fun c => decide (c ≠ '?'))
    rw [h] at hle
    have hhash : text.takeWhile (· ≠ '#')=text :=
      (List.takeWhile_prefix _).eq_of_length_le hle.length_le
    rw [hhash] at h
    exact ⟨takeWhile_ne_self.mp h,takeWhile_ne_self.mp hhash⟩
  · rintro ⟨hq,hh⟩
    rw [takeWhile_ne_self.mpr hh,takeWhile_ne_self.mpr hq]

theorem validateRequest_tunnel (uri : Uri) (serviceName : Text) :
    validateRequest (tunnelRequest uri) serviceName=
      if uri.path="/".toList++serviceName++"/Tun".toList then .ok () else .error 404 := by
  have hmethod : (tunnelRequest uri).method="POST".toList := rfl
  have htype : "application/grpc".toList.isPrefixOf
      ((((tunnelRequest uri).headers.get "content-type").bind headerToStr).getD [])=true := by
    have hget : (tunnelRequest uri).headers.get "content-type"=
      some (utf8 "application/grpc".toList) := rfl
    rw [hget]
    decide
  simp only [validateRequest,hmethod,ne_eq,not_true_eq_false,if_false,htype,if_true,ite_not]
  rfl

/-- What `node_transport` has parsed where it returns a gRPC transport. -/
theorem nodeTransport_uri {uriParse : Text → Except Text Uri} {node : VMessNode} {port : Nat}
    {serviceName tlsSni : Text} {requestUri : Uri}
    (h : nodeTransport uriParse node port=.ok (.grpc serviceName tlsSni requestUri)) :
    tlsSni=node.sni ∧ uriParse (requestUriText node.sni port serviceName)=.ok requestUri := by
  have htext : "https://".toList++node.sni++":".toList++decimal port++"/".toList++
      node.grpcServiceName.getD []++"/Tun".toList=
      requestUriText node.sni port (node.grpcServiceName.getD []) := rfl
  by_cases hn : node.network="grpc".toList
  · simp only [nodeTransport,if_pos hn,htext] at h
    cases hp : uriParse (requestUriText node.sni port (node.grpcServiceName.getD [])) with
    | error e =>
      rw [hp] at h
      cases h
    | ok uri =>
      rw [hp] at h
      cases h
      exact ⟨rfl,hp⟩
  · rw [nodeTransport,if_neg hn] at h
    cases h

/-- Whatever the outbound pasted into its URI, the inbound with the service name of the node takes
its requests exactly when the name has no mark of the URI grammar in it. -/
theorem servicePath_iff (uriParse : Text → Except Text Uri) (hu : UriSplits uriParse)
    (node : VMessNode) (port : Nat) (serviceName tlsSni : Text) (requestUri : Uri)
    (hs : DnsName node.sni)
    (h : nodeTransport uriParse node port=.ok (.grpc serviceName tlsSni requestUri)) :
    (requestUri.path="/".toList++serviceName++"/Tun".toList ∧
      validateRequest (tunnelRequest requestUri) serviceName=.ok ()) ↔
      '?'∉serviceName ∧ '#'∉serviceName := by
  obtain ⟨-,hp⟩ := nodeTransport_uri h
  have hslash : ∀ a b c : Text, a++"/".toList++b++c=a ++ '/'::(b++c) := by
    intro a b c
    rw [List.append_assoc,List.append_assoc]
    rfl
  have htext : requestUriText node.sni port serviceName=
      "https://".toList++node.sni++":".toList++decimal port ++ '/'::(serviceName++"/Tun".toList) :=
    hslash _ _ _
  rw [htext] at hp
  have hpath := hu _ _ _ _ hs hp
  have hexpected : "/".toList++serviceName++"/Tun".toList = '/'::(serviceName++"/Tun".toList) :=
    hslash [] serviceName _
  have hmark : ∀ c : Char, c∉"/Tun".toList → (c∉serviceName++"/Tun".toList ↔ c∉serviceName) := by
    intro c hc
    rw [List.mem_append,not_or]
    exact and_iff_left hc
  have hcut : requestUri.path="/".toList++serviceName++"/Tun".toList ↔
      '?'∉serviceName ∧ '#'∉serviceName := by
    rw [hexpected,hpath,List.cons_inj_right,cuts_self,hmark _ (by decide),hmark _ (by decide)]
  rw [validateRequest_tunnel,← hcut]
  constructor
  · rintro ⟨hq,-⟩
    exact hq
  · intro hq
    exact ⟨hq,if_pos hq⟩

/-- The URI grammar as far as request URIs need it. -/
def splitUri (text : Text) : Except Text Uri :=
  let target := (text.drop 8).takeWhile (· ≠ '#')
  let beforeQuery := target.takeWhile (· ≠ '?')
  .ok ⟨"https".toList,beforeQuery.takeWhile (· ≠ '/'),beforeQuery.dropWhile (· ≠ '/'),
    (target.dropWhile (· ≠ '?')).head?.map (fun _ => (target.dropWhile (· ≠ '?')).tail)⟩

theorem splitUri_splits : UriSplits splitUri := by
  intro sni port rest uri hs h
  have hfront : ∀ c∈sni++":".toList++decimal port, c ≠ '#' ∧ c ≠ '?' ∧ c ≠ '/' := by
    intro c hc
    rcases List.mem_append.mp hc with hc|hc
    · rcases List.mem_append.mp hc with hc|hc
      · have hn := hs.2 c hc
        exact ⟨nameChar_ne hn (by decide),nameChar_ne hn (by decide),nameChar_ne hn (by decide)⟩
      · rw [List.mem_singleton.mp hc]
        decide
    · have hn : NameChar c := Or.inl (by simp [Char.isAlphanum,decimal_isDigit hc])
      exact ⟨nameChar_ne hn (by decide),nameChar_ne hn (by decide),nameChar_ne hn (by decide)⟩
  have hdrop : ("https://".toList++sni++":".toList++decimal port ++ '/'::rest).drop 8=
      (sni++":".toList++decimal port) ++ '/'::rest := by simp
  -- A cut at a mark that is not in the authority passes over it and over the first slash.
  have hcut : ∀ d : Char, d ≠ '/' → (∀ c∈sni++":".toList++decimal port, c≠d) → ∀ tail : Text,
      ((sni++":".toList++decimal port) ++ '/'::tail).takeWhile (· ≠ d)=
        (sni++":".toList++decimal port) ++ '/'::tail.takeWhile (· ≠ d) := by
    intro d hd hall tail
    have hslash : (fun c : Char => decide (c≠d)) '/'=true := decide_eq_true hd.symm
    rw [List.takeWhile_append_of_pos (fun c hc => decide_eq_true (hall c hc)),
      List.takeWhile_cons_of_pos (p := fun c => decide (c≠d)) hslash]
  have hlast : ∀ tail : Text, ((sni++":".toList++decimal port) ++ '/'::tail).dropWhile (· ≠ '/')=
      '/'::tail := by
    intro tail
    rw [List.dropWhile_append_of_pos (fun c hc => decide_eq_true (hfront c hc).2.2),
      List.dropWhile_cons_of_neg (by simp)]
  rw [splitUri,hdrop] at h
  simp only [hcut '#' (by decide) (fun c hc => (hfront c hc).1),
    hcut '?' (by decide) (fun c hc => (hfront c hc).2.1),hlast] at h
  cases h
  rfl

/-- The node of a gRPC outbound, by its service name. -/
def serviceNode (serviceName : String) : VMessNode :=
  { urlNode "192.0.2.1" with grpcServiceName := some serviceName.toList }

theorem serviceNode_sni (serviceName : String) : DnsName (serviceNode serviceName).sni := by
  have hsni : ∀ c∈"example.com".toList, NameChar c := all_chars (by decide)
  exact ⟨List.cons_ne_nil _ _,hsni⟩

theorem servicePath_nested : ∃ uri, UriSplits splitUri ∧
    nodeTransport splitUri (serviceNode "pkg.Gun/v1") 443=
      .ok (.grpc "pkg.Gun/v1".toList "example.com".toList uri) ∧
    validateRequest (tunnelRequest uri) "pkg.Gun/v1".toList=.ok () := by
  refine ⟨_,splitUri_splits,rfl,?_⟩
  exact ((servicePath_iff splitUri splitUri_splits (serviceNode "pkg.Gun/v1") 443 _ _ _
    (serviceNode_sni _) rfl).mpr (by decide)).2

/-- A service name with a query mark: the path ends before it, and the inbound with this service
name does not know the path. -/
theorem marked_service_refused : ∃ uri, UriSplits splitUri ∧ DnsName (serviceNode "Gun?v1").sni ∧
    nodeTransport splitUri (serviceNode "Gun?v1") 443=
      .ok (.grpc "Gun?v1".toList "example.com".toList uri) ∧
    uri.path="/Gun".toList ∧ uri.path≠"/".toList++"Gun?v1".toList++"/Tun".toList ∧
    validateRequest (tunnelRequest uri) "Gun?v1".toList=.error 404 := by
  refine ⟨_,splitUri_splits,serviceNode_sni _,rfl,by decide,by decide,by decide⟩

end Tobira.Relay
