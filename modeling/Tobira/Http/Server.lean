import Mathlib.Data.List.Infix
import Tobira.Framework.Str
import Tobira.Http.Render

namespace Tobira.Http

open Tobira.Framework

/-- The headers of a request in their order, their names in lower case. -/
abbrev HeaderMap := List (Text×List UInt8)

/-- `HeaderMap::get`: the first value of a name. -/
def HeaderMap.get (headers : HeaderMap) (name : String) : Option (List UInt8) :=
  (headers.find? (fun h => h.1=name.toList)).map Prod.snd

/-- `HeaderValue::to_str`: visible ASCII, spaces and tabs only. -/
def headerToStr (value : List UInt8) : Option Text :=
  if value.all (fun b => b=0x09 || (decide (0x20 ≤ b) && decide (b<0x7F))) then
    some (value.map Char.ofUInt8)
  else none

structure Request where
  path : Text
  headers : HeaderMap

structure Response where
  status : Nat
  headers : List (Text×Text)
  body : Text
  deriving DecidableEq,Repr

inductive LinkFormat where
  | v2rayN
  | standard
  | shadowrocket
  deriving DecidableEq,Repr

inductive RequestedFormat where
  | auto
  | explicit (format : LinkFormat)
  deriving DecidableEq,Repr

inductive Route where
  | allOutputs (format : RequestedFormat)
  | namedOutput (name : Text) (format : RequestedFormat)
  | notFound
  deriving DecidableEq,Repr

/-- The format that a path ends with. -/
def formatOfPart (part : Text) : Option LinkFormat :=
  if part="base64".toList ∨ part="v2rayn".toList then some .v2rayN
  else if part="standard".toList ∨ part="url".toList then some .standard
  else if part="shadowrocket".toList then some .shadowrocket
  else none

/-- The arms of the match on the parts of a path; a second part that names a format is never
the name of an output. -/
def routeParts : List Text → Route
  | [sub] => if sub="sub".toList then .allOutputs .auto else .notFound
  | [sub,part] =>
    if sub="sub".toList then
      match formatOfPart part with
      | some format => .allOutputs (.explicit format)
      | none => .namedOutput part .auto
    else .notFound
  | [sub,name,part] =>
    if sub="sub".toList then
      match formatOfPart part with
      | some format => .namedOutput name (.explicit format)
      | none => .notFound
    else .notFound
  | _ => .notFound

def route (path : Text) : Route := routeParts ((path.splitOn '/').filter (· ≠ []))

def linkFormatForUserAgent (headers : HeaderMap) : LinkFormat :=
  match headers.get "user-agent" with
  | none => .v2rayN
  | some value =>
    match headerToStr value with
    | none => .v2rayN
    | some userAgent =>
      if "shadowrocket".toList <:+: userAgent.map Char.toLower then .shadowrocket else .v2rayN

def RequestedFormat.resolve (headers : HeaderMap) : RequestedFormat → LinkFormat
  | .auto => linkFormatForUserAgent headers
  | .explicit format => format

def extractBasicAuth (crates : Crates) (headers : HeaderMap) : Option (Text×Text) := do
  let header ← headers.get "authorization"
  let value ← headerToStr header
  let encoded ← if "Basic ".toList.isPrefixOf value then some (value.drop 6) else none
  let decoded ← crates.base64StandardDecode encoded
  let s ← utf8Decode decoded
  splitOnce ':' s

/-- The user of a server without users. -/
def anonymous : HttpUser := ⟨[],[],none⟩

/-- The loop over all users; the first that matches is kept. -/
def matchUser (username password : Text) (users : List HttpUser) : Option HttpUser :=
  users.foldl (fun matched user =>
    let unOk := decide (utf8 username=utf8 user.username)
    let pwOk := decide (utf8 password=utf8 user.password)
    if unOk && pwOk && matched.isNone then some user else matched) none

def authenticate (crates : Crates) (headers : HeaderMap) (users : List HttpUser) :
    Option HttpUser :=
  if users=[] then some anonymous
  else (extractBasicAuth crates headers).bind (fun p => matchUser p.1 p.2 users)

def RenderedOutput.links (output : RenderedOutput) : LinkFormat → List Text
  | .v2rayN => output.v2raynLinks
  | .standard => output.standardLinks
  | .shadowrocket => output.shadowrocketLinks

/-- The filter on the name in the URL and on what the user may see. -/
def allowed (user : HttpUser) (outputName : Option Text) (output : RenderedOutput) : Bool :=
  outputName.all (fun name => output.name=name) &&
    (match user.outputs with
      | some userOutputs => userOutputs.any (fun name => name=output.name)
      | none => true)

def buildSubscriptionResponse (crates : Crates) (state : HttpState) (user : HttpUser)
    (outputName : Option Text) (format : LinkFormat) : Response :=
  let allowedOutputs := state.outputs.filter (allowed user outputName)
  if allowedOutputs=[] then ⟨404,[],"no matching outputs".toList⟩
  else
    let links := allowedOutputs.flatMap (fun output => output.links format)
    let content := ['\n'].intercalate links
    let body := match format with
      | .standard => content
      | _ => crates.base64Standard (utf8 content)
    ⟨200,[("content-type".toList,"text/plain; charset=utf-8".toList),
      ("subscription-userinfo".toList,"upload=0; download=0; total=0; expire=0".toList)],body⟩

def unauthorized : Response :=
  ⟨401,[("www-authenticate".toList,"Basic realm=\"Subscription\"".toList),
    ("content-type".toList,"text/plain".toList)],"Unauthorized".toList⟩

def dispatch (crates : Crates) (state : HttpState) (req : Request) : Response :=
  match authenticate crates req.headers state.users with
  | none => unauthorized
  | some user =>
    match route req.path with
    | .allOutputs format =>
      buildSubscriptionResponse crates state user none (format.resolve req.headers)
    | .namedOutput name format =>
      buildSubscriptionResponse crates state user (some name) (format.resolve req.headers)
    | .notFound => ⟨404,[],"Not Found".toList⟩

/-- The outputs with a name in the list. -/
def visible (names : List Text) (outputs : List RenderedOutput) : List RenderedOutput :=
  outputs.filter (fun output => names.contains output.name)

/-- A restricted user is answered from the outputs it may see. -/
theorem filter_allowed {user : HttpUser} {names : List Text} (h : user.outputs=some names)
    (outputName : Option Text) (outputs : List RenderedOutput) :
    outputs.filter (allowed user outputName)=
      (visible names outputs).filter
        (fun output => outputName.all (fun name => output.name=name)) := by
  rw [visible,List.filter_filter]
  apply List.filter_congr
  intro output _
  have hany : names.any (fun name => name=output.name)=names.contains output.name := by
    rw [Bool.eq_iff_iff]
    simp
  rw [allowed,h]
  simp only [hany]

theorem buildSubscriptionResponse_visible (crates : Crates) {user : HttpUser} {names : List Text}
    (h : user.outputs=some names) (users : List HttpUser)
    {outputs outputs' : List RenderedOutput} (hv : visible names outputs=visible names outputs')
    (outputName : Option Text) (format : LinkFormat) :
    buildSubscriptionResponse crates ⟨users,outputs⟩ user outputName format=
      buildSubscriptionResponse crates ⟨users,outputs'⟩ user outputName format := by
  simp only [buildSubscriptionResponse,filter_allowed h,hv]

/-- Two states with the same users answer a request alike when it is not authenticated, or when
its user is restricted and sees the same outputs in both. -/
theorem output_restriction_noninterference (crates : Crates) (users : List HttpUser)
    (outputs outputs' : List RenderedOutput) (req : Request) :
    (authenticate crates req.headers users=none →
      dispatch crates ⟨users,outputs⟩ req=dispatch crates ⟨users,outputs'⟩ req) ∧
    ∀ user names, authenticate crates req.headers users=some user → user.outputs=some names →
      visible names outputs=visible names outputs' →
      dispatch crates ⟨users,outputs⟩ req=dispatch crates ⟨users,outputs'⟩ req := by
  constructor
  · intro h
    simp only [dispatch,h]
  · intro user names h hn hv
    have hbuild := buildSubscriptionResponse_visible crates hn users hv
    simp only [dispatch,h]
    cases route req.path with
    | allOutputs format => exact hbuild none _
    | namedOutput name format => exact hbuild (some name) _
    | notFound => rfl

/-- A user that may see the output `home` only. -/
def guest : HttpUser := ⟨"guest".toList,"secret".toList,some ["home".toList]⟩

/-- The credentials `guest:secret`, asking for an output the user may not see. -/
def guestRequest : Request where
  path := "/sub/office".toList
  headers := [("authorization".toList,utf8 "Basic Z3Vlc3Q6c2VjcmV0".toList)]

def homeOutput : RenderedOutput := ⟨"home".toList,["vmess://aG9tZQ==".toList],[],[]⟩

def officeOutput : RenderedOutput := ⟨"office".toList,["vmess://b2ZmaWNl".toList],[],[]⟩

/-- With the output `office` in the state or without it, the guest and a stranger get the same
answers. -/
theorem output_restriction_guest :
    dispatch plainCrates ⟨[guest],[homeOutput,officeOutput]⟩ guestRequest=
      dispatch plainCrates ⟨[guest],[homeOutput]⟩ guestRequest ∧
    dispatch plainCrates ⟨[guest],[homeOutput,officeOutput]⟩ ⟨"/sub".toList,[]⟩=
      dispatch plainCrates ⟨[guest],[homeOutput]⟩ ⟨"/sub".toList,[]⟩ :=
  ⟨(output_restriction_noninterference plainCrates [guest] _ _ guestRequest).2 guest
      ["home".toList] (by decide +kernel) rfl rfl,
    (output_restriction_noninterference plainCrates [guest] _ _ _).1 rfl⟩

end Tobira.Http
