import Tobira.Http.Server

namespace Tobira.Http

open Tobira.Framework

/-- The `Authorization` header that a client sends for the credentials of a user. -/
def basicHeader (user : HttpUser) : List UInt8 :=
  utf8 ("Basic ".toList++Base64.encode false true (utf8 (user.username++ ':'::user.password)))

/-- The bytes that `to_str` lets through. -/
def visibleByte (b : UInt8) : Bool := b=0x09 || (decide (0x20 ≤ b) && decide (b<0x7F))

theorem visibleByte_char {b : UInt8} (h : visibleByte b=true) :
    String.utf8EncodeChar (Char.ofUInt8 b)=[b] := by
  have hall : ∀ n<128, String.utf8EncodeChar (Char.ofUInt8 (UInt8.ofNat n))=[UInt8.ofNat n] := by
    decide +kernel
  have hlt : b.toNat<128 := by
    simp only [visibleByte,Bool.or_eq_true,Bool.and_eq_true,decide_eq_true_eq] at h
    rcases h with rfl|⟨-,h⟩
    · decide
    · have h : b.toNat<127 := h
      omega
  have hb := hall b.toNat hlt
  rwa [UInt8.ofNat_toNat] at hb

/-- What `to_str` returns are the characters of the value. -/
theorem headerToStr_utf8 {value : List UInt8} {text : Text} (h : headerToStr value=some text) :
    value=utf8 text := by
  simp only [headerToStr] at h
  split_ifs at h with hall
  cases h
  induction value with
  | nil => rfl
  | cons b value ih =>
    rw [List.all_cons,Bool.and_eq_true] at hall
    rw [List.map_cons,utf8,List.flatMap_cons,visibleByte_char hall.1]
    exact congrArg (b::·) (ih hall.2)

/-- A character that is one visible byte. -/
def visibleChar (c : Char) : Prop :=
  (String.utf8EncodeChar c).all visibleByte=true ∧ (String.utf8EncodeChar c).map Char.ofUInt8=[c]

instance : DecidablePred visibleChar := fun c =>
  inferInstanceAs (Decidable ((String.utf8EncodeChar c).all visibleByte=true ∧
    (String.utf8EncodeChar c).map Char.ofUInt8=[c]))

theorem headerToStr_of_visible {text : Text} (h : ∀ c∈text, visibleChar c) :
    headerToStr (utf8 text)=some text := by
  have hall : (utf8 text).all visibleByte=true := by
    rw [List.all_eq_true]
    intro b hb
    obtain ⟨c,hc,hb⟩ := List.mem_flatMap.mp hb
    exact List.all_eq_true.mp (h c hc).1 b hb
  have hmap : (utf8 text).map Char.ofUInt8=text := by
    clear hall
    induction text with
    | nil => rfl
    | cons c text ih =>
      rw [utf8,List.flatMap_cons,List.map_append,(h c (by simp)).2]
      exact congrArg (c::·) (ih (fun d hd => h d (by simp [hd])))
  rw [headerToStr,show (fun b : UInt8 => b=0x09 || (decide (0x20 ≤ b) && decide (b<0x7F)))=
    visibleByte from rfl,if_pos hall,hmap]

theorem splitOnce_eq_some_iff {c : Char} {text before rest : Text} :
    splitOnce c text=some (before,rest) ↔ text=before++c::rest ∧ c∉before := by
  constructor
  · intro h
    simp only [splitOnce] at h
    split at h
    · cases h
    · rename_i d tail hd
      cases h
      have hhead : d=c := by
        have hn := List.head?_dropWhile_not (fun x => decide (x≠c)) text
        rw [hd] at hn
        simpa using hn
      subst hhead
      refine ⟨?_,?_⟩
      · rw [← hd,List.takeWhile_append_dropWhile]
      · intro hm
        have hp := List.mem_takeWhile_imp hm
        simp at hp
  · rintro ⟨rfl,hn⟩
    exact splitOnce_append hn rest

theorem utf8_injective {a b : Text} (h : utf8 a=utf8 b) : a=b := by
  have hd := utf8Decode_utf8 a
  rw [h,utf8Decode_utf8] at hd
  exact (Option.some.inj hd).symm

/-- The loop over all users finds the first with the credentials. -/
theorem matchUser_find (username password : Text) (users : List HttpUser) :
    matchUser username password users=
      users.find? (fun user => decide (user.username=username ∧ user.password=password)) := by
  have hfold : ∀ matched, users.foldl (fun matched user =>
      let unOk := decide (utf8 username=utf8 user.username)
      let pwOk := decide (utf8 password=utf8 user.password)
      if unOk && pwOk && matched.isNone then some user else matched) matched=
      matched.or
        (users.find? (fun user => decide (user.username=username ∧ user.password=password))) := by
    induction users with
    | nil => simp
    | cons user users ih =>
      intro matched
      have hu : utf8 username=utf8 user.username ↔ user.username=username :=
        ⟨fun h => (utf8_injective h).symm,fun h => by rw [h]⟩
      have hp : utf8 password=utf8 user.password ↔ user.password=password :=
        ⟨fun h => (utf8_injective h).symm,fun h => by rw [h]⟩
      rw [List.foldl_cons,ih]
      by_cases hc : user.username=username ∧ user.password=password
      · cases matched <;> simp [hc.1,hc.2]
      · have hne : (decide (user.username=username) && decide (user.password=password))=false := by
          simpa using hc
        cases matched <;> simp [hu,hp,hne]
  exact hfold none

/-- The credentials that are read are those that the header was made from. -/
theorem extractBasicAuth_iff {crates : Crates}
    (hb : Base64.Strict false true crates.base64StandardDecode) {headers : HeaderMap}
    {user : HttpUser} :
    extractBasicAuth crates headers=some (user.username,user.password) ↔
      headers.get "authorization"=some (basicHeader user) ∧ ':'∉user.username := by
  constructor
  · intro h
    simp only [extractBasicAuth,Option.bind_eq_bind] at h
    obtain ⟨header,hh,h⟩ := Option.bind_eq_some_iff.mp h
    obtain ⟨value,hv,h⟩ := Option.bind_eq_some_iff.mp h
    split_ifs at h with hbasic
    · obtain ⟨encoded,rfl⟩ := List.isPrefixOf_iff_prefix.mp hbasic
      rw [Option.bind_some] at h
      obtain ⟨decoded,hd,h⟩ := Option.bind_eq_some_iff.mp h
      obtain ⟨s,hs,h⟩ := Option.bind_eq_some_iff.mp h
      obtain ⟨rfl,hcolon⟩ := splitOnce_eq_some_iff.mp h
      have henc : encoded=Base64.encode false true decoded := (hb _ _).mp hd
      refine ⟨?_,hcolon⟩
      rw [hh,headerToStr_utf8 hv,henc,utf8Decode_eq_some_iff.mp hs]
      rfl
    · cases h
  · rintro ⟨hh,hcolon⟩
    have hbasic : ∀ c∈"Basic ".toList, visibleChar c := all_chars (by decide +kernel)
    have hvis : ∀ c∈"Basic ".toList++
        Base64.encode false true (utf8 (user.username++ ':'::user.password)), visibleChar c := by
      intro c hc
      rcases List.mem_append.mp hc with hc|hc
      · exact hbasic c hc
      · exact Base64.encode_forall (by decide +kernel) c hc
    have hdrop : ("Basic ".toList++Base64.encode false true
        (utf8 (user.username++ ':'::user.password))).drop 6=
        Base64.encode false true (utf8 (user.username++ ':'::user.password)) := rfl
    simp only [extractBasicAuth,Option.bind_eq_bind]
    rw [hh,Option.bind_some,basicHeader,headerToStr_of_visible hvis,Option.bind_some,
      if_pos (List.isPrefixOf_iff_prefix.mpr (List.prefix_append _ _)),Option.bind_some,hdrop,
      (hb _ _).mpr rfl,Option.bind_some,utf8Decode_utf8,Option.bind_some,
      splitOnce_append hcolon]

theorem authenticate_iff {crates : Crates}
    (hb : Base64.Strict false true crates.base64StandardDecode) {headers : HeaderMap}
    {users : List HttpUser} {user : HttpUser} (hu : users≠[]) :
    authenticate crates headers users=some user ↔
      headers.get "authorization"=some (basicHeader user) ∧ ':'∉user.username ∧
      ∃ before after, users=before++user::after ∧
        ∀ other∈before, ¬(other.username=user.username ∧ other.password=user.password) := by
  rw [authenticate,if_neg hu]
  constructor
  · intro h
    obtain ⟨⟨username,password⟩,he,hm⟩ := Option.bind_eq_some_iff.mp h
    rw [matchUser_find,List.find?_eq_some_iff_append] at hm
    obtain ⟨hc,before,after,hl,hfirst⟩ := hm
    obtain ⟨rfl,rfl⟩ := of_decide_eq_true hc
    obtain ⟨hh,hcolon⟩ := (extractBasicAuth_iff hb).mp he
    refine ⟨hh,hcolon,before,after,hl,fun other ho hc => ?_⟩
    have hn := hfirst other ho
    rw [decide_eq_true hc] at hn
    cases hn
  · rintro ⟨hh,hcolon,before,after,hl,hfirst⟩
    refine Option.bind_eq_some_iff.mpr ⟨_,(extractBasicAuth_iff hb).mpr ⟨hh,hcolon⟩,?_⟩
    rw [matchUser_find,List.find?_eq_some_iff_append]
    refine ⟨by simp,before,after,hl,fun other ho => ?_⟩
    rw [decide_eq_false (hfirst other ho)]
    rfl

/-- Only a request without valid credentials is answered with 401. -/
theorem dispatch_unauthorized (crates : Crates) (state : HttpState) (req : Request) :
    dispatch crates state req=unauthorized ↔ authenticate crates req.headers state.users=none := by
  simp only [dispatch]
  cases authenticate crates req.headers state.users with
  | none => simp
  | some user =>
    have hbuild (name : Option Text) (format : LinkFormat) :
        buildSubscriptionResponse crates state user name format≠unauthorized := by
      intro h
      have hs := congrArg Response.status h
      simp only [buildSubscriptionResponse,unauthorized] at hs
      split_ifs at hs <;> cases hs
    simp only [reduceCtorEq,iff_false]
    cases route req.path with
    | allOutputs format => exact hbuild none _
    | namedOutput name format => exact hbuild (some name) _
    | notFound => exact fun h => by cases congrArg Response.status h

/-- Who gets in: with users configured, a request is served as a user exactly when its header
is the one spelling of that user's credentials and the user is the first with them, and it is
refused exactly when no user with a name free of colons has that header. -/
theorem basic_auth_exact (crates : Crates)
    (hb : Base64.Strict false true crates.base64StandardDecode) (state : HttpState) (req : Request)
    (hu : state.users≠[]) :
    (∀ user, authenticate crates req.headers state.users=some user ↔
      req.headers.get "authorization"=some (basicHeader user) ∧ ':'∉user.username ∧
      ∃ before after, state.users=before++user::after ∧
        ∀ other∈before, ¬(other.username=user.username ∧ other.password=user.password)) ∧
    (dispatch crates state req=unauthorized ↔ ∀ user∈state.users,
      req.headers.get "authorization"=some (basicHeader user) → ':'∈user.username) := by
  refine ⟨fun user => authenticate_iff hb hu,?_⟩
  rw [dispatch_unauthorized]
  constructor
  · intro h user hm hh
    by_contra hcolon
    rw [authenticate,if_neg hu,(extractBasicAuth_iff hb).mpr ⟨hh,hcolon⟩,Option.bind_some,
      matchUser_find,List.find?_eq_none] at h
    exact h user hm (by simp)
  · intro h
    apply Option.eq_none_iff_forall_ne_some.mpr
    intro user ha
    obtain ⟨hh,hcolon,before,after,hl,-⟩ := (authenticate_iff hb hu).mp ha
    exact hcolon (h user (by rw [hl]; simp) hh)

theorem basic_auth_exact_guest :
    guestRequest.headers.get "authorization"=some (basicHeader guest) ∧
    (authenticate plainCrates guestRequest.headers [guest]=some guest ↔
      guestRequest.headers.get "authorization"=some (basicHeader guest) ∧ ':'∉guest.username ∧
      ∃ before after, [guest]=before++guest::after ∧
        ∀ other∈before, ¬(other.username=guest.username ∧ other.password=guest.password)) ∧
    (dispatch plainCrates ⟨[guest],[homeOutput]⟩ ⟨"/sub".toList,[]⟩=unauthorized ↔
      ∀ user∈[guest], HeaderMap.get [] "authorization"=some (basicHeader user) →
        ':'∈user.username) :=
  ⟨by decide +kernel,
    (basic_auth_exact plainCrates (Base64.decode_strict _ _) ⟨[guest],[homeOutput]⟩ guestRequest (by simp)).1 guest,
    (basic_auth_exact plainCrates (Base64.decode_strict _ _) ⟨[guest],[homeOutput]⟩ ⟨"/sub".toList,[]⟩ (by simp)).2⟩

end Tobira.Http
