import Tobira.Framework.Base64
import Tobira.Http.Links
import Tobira.Subscription.Manager

namespace Tobira.Http

open Tobira.Framework Tobira.Framework.Net Tobira.Framework.Url Tobira.Subscription Tobira.Vmess

/-- A text the parser does not trim at its end. -/
def Trimmed (text : Text) : Prop := ∀ c∈text.getLast?, ' '<c

/-- `Url::parse` on a `vmess` URL: the scheme is not special, so it succeeds exactly when the
authority can be parsed. -/
structure UrlCrate.Whatwg (u : UrlCrate) : Prop where
  parse : ∀ rest, Trimmed rest →
    (u.parse ("vmess://".toList++rest)).isSome=validAuthority rest

/-- A DNS name, an IPv4 address, or an IPv6 address with or without brackets. -/
def ValidHost (host : Text) : Prop :=
  (host≠[] ∧ ∀ c∈host, NameChar c) ∨ (parseIpv6Addr ((stripBrackets host).getD host)).isSome=true

-- The list is walked: characters are finite, but deciding over all of them would not end.
instance (host : Text) : Decidable (ValidHost host) :=
  have : Decidable (∀ c∈host, NameChar c) := List.decidableBAll _ _
  inferInstanceAs (Decidable ((_ ∧ _) ∨ _))

theorem formatUrlHost_plain {host : Text} (h : ValidHost host) : PlainHost (formatUrlHost host) := by
  rw [formatUrlHost]
  cases hp : parseIpv6Addr ((stripBrackets host).getD host) with
  | some ip => exact plainHost_ipv6 hp
  | none =>
    rcases h with h|h
    · exact plainHost_name h.1 h.2
    · rw [hp] at h
      cases h

/-- A UUID text keeps the URL parseable when it leaves the authority open, or ends it with
something that is an authority itself. -/
def UuidSafe (uuid : Text) : Prop :=
  (∀ c∈uuid, endsAuthority c=false) ∨ validAuthority uuid=true

instance (uuid : Text) : Decidable (UuidSafe uuid) :=
  have : Decidable (∀ c∈uuid, endsAuthority c=false) := List.decidableBAll _ _
  inferInstanceAs (Decidable (_ ∨ _))

theorem decimal_trimmed (before : Text) (n : Nat) : Trimmed (before++decimal n) := by
  intro c hc
  have hne : decimal n≠[] := Nat.toDigits_ne_nil
  rw [List.getLast?_append_of_ne_nil _ hne] at hc
  have hd := decimal_isDigit (List.mem_of_getLast? hc)
  have hlt : ∀ d : Char, d.isDigit=true → ' '<d := by
    intro d hd
    simp only [Char.isDigit,Bool.and_eq_true,decide_eq_true_eq] at hd
    exact UInt32.lt_of_lt_of_le (show ' '.val < '0'.val by decide) hd.1
  exact hlt c hd

theorem vmessBase_authority (node : VMessNode) {output : OutputConfig}
    (h : ValidHost output.host) :
    validAuthority (node.uuid ++ '@'::(formatUrlHost output.host ++ ':'::decimal output.port.toNat))=
      true ↔ UuidSafe node.uuid := by
  have hp : output.port.toNat≤65535 := by
    have hlt := output.port.toNat_lt
    omega
  by_cases hu : ∀ c∈node.uuid, endsAuthority c=false
  · rw [validAuthority_userinfo hu (formatUrlHost_plain h) hp]
    exact iff_of_true rfl (Or.inl hu)
  · have he : ∃ c∈node.uuid, endsAuthority c=true := by
      simpa only [not_forall,Bool.not_eq_false,exists_prop] using hu
    rw [validAuthority_ended _ he]
    exact ⟨Or.inr,fun hs => hs.resolve_left hu⟩

/-- The only panic of the link builders is the `expect` on `Url::parse`. -/
theorem buildVmessUrlLink_parse (crates : Crates) (node : VMessNode) (output : OutputConfig)
    (network : RelayNetwork) (serviceName : Text) :
    (∃ link, buildVmessUrlLink crates node output network serviceName=.ok link) ↔
      (crates.url.parse (vmessBase node output)).isSome=true := by
  rw [buildVmessUrlLink]
  cases crates.url.parse (vmessBase node output) with
  | none =>
    constructor
    · rintro ⟨link,h⟩
      cases h
    · intro h
      cases h
  | some url => exact iff_of_true ⟨_,rfl⟩ rfl

theorem vmessBase_trimmed (node : VMessNode) (output : OutputConfig) : Trimmed
    (node.uuid ++ '@'::(formatUrlHost output.host ++ ':'::decimal output.port.toNat)) := by
  have heq : node.uuid ++ '@'::(formatUrlHost output.host ++ ':'::decimal output.port.toNat)=
      (node.uuid ++ '@'::(formatUrlHost output.host++[':']))++decimal output.port.toNat := by
    simp only [List.append_assoc,List.cons_append,List.nil_append]
  rw [heq]
  exact decimal_trimmed _ _

theorem UrlCrate.Whatwg.parse_vmessBase {u : UrlCrate} (hw : u.Whatwg) (node : VMessNode)
    (output : OutputConfig) : (u.parse (vmessBase node output)).isSome=
      validAuthority (node.uuid ++ '@'::(formatUrlHost output.host ++ ':'::decimal output.port.toNat)) :=
  hw.parse _ (vmessBase_trimmed node output)

theorem buildVmessUrlLink_ok_iff {crates : Crates} (hw : crates.url.Whatwg) (node : VMessNode)
    {output : OutputConfig} (h : ValidHost output.host) (network : RelayNetwork)
    (serviceName : Text) :
    (∃ link, buildVmessUrlLink crates node output network serviceName=.ok link) ↔
      UuidSafe node.uuid := by
  rw [buildVmessUrlLink_parse,hw.parse_vmessBase,vmessBase_authority node h]

/-- The node is still there after the pipeline. -/
def Kept (rx : RegexCrate) (steps : List ProcessStep) (node : VMessNode) : Prop :=
  applyPipeline rx [node] steps≠[]

theorem kept_iff {rx : RegexCrate} {steps : List ProcessStep} {node : VMessNode} :
    Kept rx steps node ↔ ∃ node', onNode rx steps node=some node' := by
  rw [Kept,applyPipeline_eq]
  cases h : onNode rx steps node <;> simp [h]

theorem renderOutput_ok_iff {crates : Crates} (hw : crates.url.Whatwg) {output : OutputConfig}
    (h : ValidHost output.host) (nodes : List VMessNode) (network : RelayNetwork)
    (serviceName : Text) :
    (∃ out, renderOutput crates nodes network serviceName output=.ok out) ↔
      ∀ node∈nodes, Kept crates.regex output.process node → UuidSafe node.uuid := by
  have hlinks := mapM_ok_iff (fun node => buildVmessUrlLink crates node output network serviceName)
    (applyPipeline crates.regex nodes output.process)
  have hrender : (∃ out, renderOutput crates nodes network serviceName output=.ok out) ↔
      ∃ links, (applyPipeline crates.regex nodes output.process).mapM
        (fun node => buildVmessUrlLink crates node output network serviceName)=.ok links := by
    simp only [renderOutput]
    cases (applyPipeline crates.regex nodes output.process).mapM
        (fun node => buildVmessUrlLink crates node output network serviceName) with
    | error e => simp [bind,Except.bind]
    | ok links => simp [bind,Except.bind,pure,Except.pure]
  rw [hrender,hlinks,applyPipeline_eq]
  constructor
  · intro hall node hn hk
    obtain ⟨node',hn'⟩ := kept_iff.mp hk
    have hmem := List.mem_filterMap.mpr ⟨node,hn,hn'⟩
    rw [← (onNode_route hn').uuid]
    exact (buildVmessUrlLink_ok_iff hw node' h network serviceName).mp (hall node' hmem)
  · intro hall node' hmem
    obtain ⟨node,hn,hn'⟩ := List.mem_filterMap.mp hmem
    apply (buildVmessUrlLink_ok_iff hw node' h network serviceName).mpr
    rw [(onNode_route hn').uuid]
    exact hall node hn (kept_iff.mpr ⟨node',hn'⟩)

/-- Rendering comes back without a panic exactly when every UUID that reaches a link leaves
the URL parseable. -/
theorem render_never_panics_iff {crates : Crates} (hw : crates.url.Whatwg)
    {outputs : List OutputConfig} (hh : ∀ output∈outputs, ValidHost output.host)
    (users : List HttpUser) (nodes : List VMessNode) (network : RelayNetwork)
    (serviceName : Text) :
    (∃ state, HttpState.new crates users outputs nodes network serviceName=.ok state) ↔
      ∀ output∈outputs, ∀ node∈nodes,
        Kept crates.regex output.process node → UuidSafe node.uuid := by
  have hnew : (∃ state, HttpState.new crates users outputs nodes network serviceName=.ok state) ↔
      ∃ out, outputs.mapM (renderOutput crates nodes network serviceName)=.ok out := by
    rw [HttpState.new]
    cases outputs.mapM (renderOutput crates nodes network serviceName) with
    | error e => simp [Except.map]
    | ok out => simp [Except.map]
  rw [hnew,mapM_ok_iff]
  apply forall_congr'
  intro output
  apply forall_congr'
  intro ho
  exact renderOutput_ok_iff hw (hh output ho) nodes network serviceName

/-- A URL as the text that was parsed, the query pairs and the fragment put to it. -/
def plainUrl : UrlCrate where
  Url := Text×List Text×Text
  parse text :=
    if "vmess://".toList.isPrefixOf text && validAuthority (text.drop 8) then some (text,[],[])
    else none
  appendPair url key value := (url.1,url.2.1++[key ++ '='::value],url.2.2)
  setFragment url fragment := (url.1,url.2.1,fragment)
  toText url :=
    url.1 ++ '?'::['&'].intercalate url.2.1++(if url.2.2=[] then [] else '#'::url.2.2)

/-- No pattern compiles; the pipelines it is used with have none. -/
def noRegex : RegexCrate where
  Regex := Empty
  compile _ := none
  isMatch re _ := re.elim
  replaceAll re _ _ := re.elim

def plainCrates : Crates where
  url := plainUrl
  regex := noRegex
  base64Standard := Base64.encode false true
  base64StandardDecode := Base64.decode false true
  base64UrlSafeNoPad := Base64.encode true false
  jsonObject := Json.object

theorem plainUrl_whatwg : plainUrl.Whatwg where
  parse := by
    intro rest _
    have hd : ("vmess://".toList++rest).drop 8=rest := rfl
    have hp : "vmess://".toList.isPrefixOf ("vmess://".toList++rest)=true := by
      rw [List.isPrefixOf_iff_prefix]
      exact List.prefix_append _ _
    simp only [plainUrl,hd,hp,Bool.true_and]
    cases validAuthority rest <;> rfl

def plainNode (uuid : String) : VMessNode where
  name := "node".toList
  source := []
  server := "192.0.2.1".toList
  port := 443
  uuid := uuid.toList
  alterId := 0
  security := "auto".toList
  network := "tcp".toList
  tls := false
  sni := "192.0.2.1".toList
  grpcServiceName := none
  wsPath := none
  wsHost := none
  packetEncoding := .default

def plainOutput : OutputConfig where
  name := "main".toList
  host := "relay.example.com".toList
  port := 10808
  sni := none
  skipCertVerify := false
  process := []

/-- A second output, at an IPv6 address. -/
def spareOutput : OutputConfig where
  name := "spare".toList
  host := "2001:db8::9".toList
  port := 8443
  sni := some "relay.example.com".toList
  skipCertVerify := true
  process := []

def plainNodes : List VMessNode :=
  [plainNode "550e8400-e29b-41d4-a716-446655440000",
    { plainNode "6ba7b810-9dad-11d1-80b4-00c04fd430c8" with name := "spare node".toList }]

theorem render_never_panics_plain : ∃ state,
    HttpState.new plainCrates [] [plainOutput,spareOutput] plainNodes .tcp "GunService".toList=
      .ok state := by
  have hh : ∀ output∈[plainOutput,spareOutput], ValidHost output.host := by decide
  have hu : ∀ node∈plainNodes, UuidSafe node.uuid := by decide
  exact (render_never_panics_iff plainUrl_whatwg hh [] _ .tcp _).mpr
    (fun _ _ node hn _ => hu node hn)

/-- The digits of a UUID, then a colon, a letter and a slash. -/
def colonNode : VMessNode := plainNode "550e8400e29b41d4a716446655440000:x/"

theorem colon_uuid_panics :
    (∀ c uriParse, ∃ v, buildValidator c uriParse [colonNode]=.ok v) ∧
    ValidHost plainOutput.host ∧
    ∀ crates : Crates, crates.url.Whatwg → ∀ users network serviceName,
      HttpState.new crates users [plainOutput] [colonNode] network serviceName=
        .error (.expect "vmess URL is always valid") := by
  refine ⟨?_,by decide,?_⟩
  · intro c uriParse
    have hp : ∃ bytes, parseUuid colonNode.uuid=.ok bytes := ⟨_,rfl⟩
    obtain ⟨bytes,hp⟩ := hp
    obtain ⟨v,hv⟩ := (fromUuid_spec c colonNode.uuid).2 bytes hp
    have hpair : ∃ upstream, nodePair uriParse colonNode=.ok (colonNode.uuid,upstream) := ⟨_,rfl⟩
    obtain ⟨upstream,hpair⟩ := hpair
    refine ⟨⟨[⟨colonNode.uuid,v,upstream⟩]⟩,?_⟩
    simp only [buildValidator,List.mapM_cons,List.mapM_nil,hpair,bind,Except.bind,pure,Except.pure,
      Validator.new,newEntries,List.not_mem_nil,if_false,hv]
    rfl
  · intro crates hw users network serviceName
    have hbad : validAuthority (colonNode.uuid ++ '@'::(formatUrlHost plainOutput.host++
        ':'::decimal plainOutput.port.toNat))=false := by decide
    have hparse := hw.parse_vmessBase colonNode plainOutput
    rw [hbad,Option.isSome_eq_false_iff,Option.isNone_iff_eq_none] at hparse
    have hlink : buildVmessUrlLink crates colonNode plainOutput network serviceName=
        .error (.expect "vmess URL is always valid") := by
      rw [buildVmessUrlLink,hparse]
    have hout : renderOutput crates [colonNode] network serviceName plainOutput=
        .error (.expect "vmess URL is always valid") := by
      have hpipe : applyPipeline crates.regex [colonNode] plainOutput.process=[colonNode] := rfl
      simp only [renderOutput,hpipe,List.mapM_cons,hlink,bind,Except.bind]
    simp only [HttpState.new,List.mapM_cons,hout,bind,Except.bind,Except.map]

end Tobira.Http
