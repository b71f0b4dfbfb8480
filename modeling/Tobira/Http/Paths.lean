import Tobira.Framework.Parts
import Tobira.Http.Server

namespace Tobira.Http

open Tobira.Framework Tobira.Framework.Url

/-- The path of an output: its name as a client writes it, with the characters of a set
percent-encoded. -/
def outputPath (set : Char → Bool) (name : Text) : Text := "/sub/".toList++percentEncode set name

/-- What may stand in a segment of a path as it is: the unreserved characters, the sub-delimiters,
`:` and `@`. -/
def segmentChar (c : Char) : Bool := c.isAlphanum || "-._~!$&'()*+,;=:@".toList.contains c

/-- A set that an encoding of path segments can use: `/`, `?`, `#` and `%` are in it. -/
def SegmentSet (set : Char → Bool) : Prop := ∀ c, set c=false → segmentChar c=true

/-- All but the unreserved characters. -/
def componentSet (c : Char) : Bool := !(c.isAlphanum || "-._~".toList.contains c)

theorem componentSet_segment : SegmentSet componentSet := by
  intro c hc
  rw [componentSet,Bool.not_eq_false',Bool.or_eq_true] at hc
  rw [segmentChar,Bool.or_eq_true]
  refine hc.imp_right ?_
  have hsub : ∀ d∈"-._~".toList, "-._~!$&'()*+,;=:@".toList.contains d=true :=
    all_chars (by decide)
  exact fun h => hsub c (List.contains_iff_mem.mp h)

/-- What the encoding of a segment leaves as it is has no slash. -/
theorem SegmentSet.no_slash {set : Char → Bool} (h : SegmentSet set) {name : Text}
    (hset : ∀ c∈name, set c=false) : '/'∉name := by
  intro hm
  have hc := h '/' (hset _ hm)
  revert hc
  decide

/-- The body of an answer with these links. -/
def linksBody (crates : Crates) (links : List Text) : LinkFormat → Text
  | .standard => ['\n'].intercalate links
  | _ => crates.base64Standard (utf8 (['\n'].intercalate links))

/-- A path is taken apart at the slashes it was joined with. -/
theorem route_joined {parts : List Text} (h : ∀ part∈parts, part≠[] ∧ '/'∉part) :
    route (['/'].intercalate ([]::parts))=routeParts parts := by
  have hsplit : (['/'].intercalate ([]::parts)).splitOn '/'=[]::parts := by
    apply List.splitOn_intercalate
    · intro part hp
      rcases List.mem_cons.mp hp with rfl|hp
      · exact List.not_mem_nil
      · exact (h part hp).2
    · exact List.cons_ne_nil _ _
  have hfilter : parts.filter (fun part => part≠[])=parts := by
    rw [List.filter_eq_self]
    intro part hp
    exact decide_eq_true (h part hp).1
  rw [route,hsplit,List.filter_cons_of_neg (by simp),hfilter]

theorem formatOfPart_some {part : Text} {format : LinkFormat} (h : formatOfPart part=some format) :
    part≠[] ∧ '/'∉part := by
  rw [formatOfPart] at h
  split_ifs at h with h1 h2 h3
  · rcases h1 with rfl|rfl <;> exact ⟨by decide,by decide⟩
  · rcases h2 with rfl|rfl <;> exact ⟨by decide,by decide⟩
  · rw [h3]
    exact ⟨by decide,by decide⟩

section
variable {name : Text} (hn : name≠[]) (hs : '/'∉name)
include hn hs

theorem route_named : route ("/sub/".toList++name)=
    match formatOfPart name with
    | some format => .allOutputs (.explicit format)
    | none => .namedOutput name .auto := by
  have hpath : "/sub/".toList++name=['/'].intercalate [[],"sub".toList,name] := by
    simp [List.intercalate]
  rw [hpath,route_joined]
  · rfl
  · intro part hp
    simp only [List.mem_cons,List.not_mem_nil,or_false] at hp
    rcases hp with rfl|rfl
    · exact ⟨by decide,by decide⟩
    · exact ⟨hn,hs⟩

theorem route_named_format {part : Text} {format : LinkFormat} (hf : formatOfPart part=some format) :
    route ("/sub/".toList++name ++ '/'::part)=.namedOutput name (.explicit format) := by
  have hpath : "/sub/".toList++name ++ '/'::part=
      ['/'].intercalate [[],"sub".toList,name,part] := by
    simp [List.intercalate]
  rw [hpath,route_joined]
  · simp [routeParts,hf]
  · intro p hp
    simp only [List.mem_cons,List.not_mem_nil,or_false] at hp
    rcases hp with rfl|rfl|rfl
    · exact ⟨by decide,by decide⟩
    · exact ⟨hn,hs⟩
    · exact formatOfPart_some hf

end

/-- An unrestricted user gets the links of the outputs with the name. -/
theorem buildSubscriptionResponse_named (crates : Crates) (state : HttpState) {user : HttpUser}
    (hu : user.outputs=none) {name : Text} (ho : ∃ output∈state.outputs, output.name=name)
    (format : LinkFormat) :
    (buildSubscriptionResponse crates state user (some name) format).status=200 ∧
    (buildSubscriptionResponse crates state user (some name) format).body=
      linksBody crates ((state.outputs.filter (fun output => output.name=name)).flatMap
        (fun output => output.links format)) format := by
  have hallowed : allowed user (some name)=fun output => decide (output.name=name) := by
    funext output
    simp [allowed,hu]
  have hsome : state.outputs.filter (fun output => decide (output.name=name))≠[] := by
    obtain ⟨output,hm,he⟩ := ho
    exact List.ne_nil_of_mem (List.mem_filter.mpr ⟨hm,decide_eq_true he⟩)
  rw [buildSubscriptionResponse]
  simp only [hallowed,if_neg hsome]
  cases format <;> exact ⟨trivial,rfl⟩

/-- An output whose name percent-encoding leaves alone is reached by its name with a format, and
by its name alone unless this is the name of a format. -/
theorem output_reachable (crates : Crates) (set : Char → Bool) (hs : SegmentSet set) (name : Text)
    (hn : name≠[]) (hset : ∀ c∈name, set c=false) :
    (formatOfPart name=none → route (outputPath set name)=.namedOutput name .auto) ∧
    (∀ format, formatOfPart name=some format →
      route (outputPath set name)=.allOutputs (.explicit format)) ∧
    (∀ part format, formatOfPart part=some format →
      route (outputPath set name ++ '/'::part)=.namedOutput name (.explicit format)) ∧
    ∀ state req user requested, authenticate crates req.headers state.users=some user →
      user.outputs=none → (∃ output∈state.outputs, output.name=name) →
      route req.path=.namedOutput name requested →
      (dispatch crates state req).status=200 ∧
      (dispatch crates state req).body=linksBody crates
        ((state.outputs.filter (fun output => output.name=name)).flatMap
          (fun output => output.links (requested.resolve req.headers)))
        (requested.resolve req.headers) := by
  have hslash := hs.no_slash hset
  rw [outputPath,percentEncode_eq hset]
  refine ⟨?_,?_,fun part format hf => route_named_format hn hslash hf,?_⟩
  · intro hf
    rw [route_named hn hslash,hf]
  · intro format hf
    rw [route_named hn hslash,hf]
  · intro state req user requested hauth hu ho hr
    simp only [dispatch,hauth,hr]
    exact buildSubscriptionResponse_named crates state hu ho _

theorem output_reachable_home : ∃ req : Request, req.path="/sub/home/url".toList ∧
    route req.path=.namedOutput "home".toList (.explicit .standard) ∧
    (dispatch plainCrates ⟨[],[homeOutput,officeOutput]⟩ req).status=200 := by
  have h := output_reachable plainCrates componentSet componentSet_segment "home".toList
    (by decide) (all_chars (by decide))
  have hr : route "/sub/home/url".toList=.namedOutput "home".toList (.explicit .standard) :=
    h.2.2.1 "url".toList .standard (by decide)
  exact ⟨⟨"/sub/home/url".toList,[]⟩,rfl,hr,
    (h.2.2.2 ⟨[],[homeOutput,officeOutput]⟩ ⟨"/sub/home/url".toList,[]⟩ anonymous _ rfl rfl
      ⟨homeOutput,by simp,rfl⟩ hr).1⟩

/-- The name of a format stands for all outputs in this format, and the name of an output is
looked for as it stands in the path, still encoded. -/
theorem reserved_and_encoded_names :
    route (outputPath componentSet "url".toList)=.allOutputs (.explicit .standard) ∧
    route (outputPath componentSet "url".toList)≠.namedOutput "url".toList .auto ∧
    route (outputPath componentSet "my home".toList)=.namedOutput "my%20home".toList .auto ∧
    route (outputPath componentSet "my home".toList)≠.namedOutput "my home".toList .auto ∧
    (dispatch plainCrates ⟨[],[⟨"my home".toList,["vmess://aG9tZQ==".toList],[],[]⟩]⟩
      ⟨outputPath componentSet "my home".toList,[]⟩).status=404 := by
  exact ⟨by decide,by decide,by decide,by decide,by decide⟩

end Tobira.Http
