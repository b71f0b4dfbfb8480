import Mathlib.Data.List.Pairwise
import Tobira.Framework.Encodings
import Tobira.Vmess.Validator

namespace Tobira.Vmess

open Tobira.Framework Tobira.Framework.Net Tobira.Transport

/-- The hexadecimal digits of a text, in lower case. -/
def hexDigits (uuid : Text) : Text := (uuid.filter (isDigit 16)).map Char.toLower

/-- The lower-case spelling of a digit is a function of its value. -/
theorem toLower_digit {c : Char} (h : isDigit 16 c=true) :
    (toDigit 16 c).getD 0<16 ∧ c.toLower=Json.hexLower ((toDigit 16 c).getD 0) := by
  have hall : ∀ n<128, isDigit 16 (Char.ofNat n)=true →
      (toDigit 16 (Char.ofNat n)).getD 0<16 ∧
      (Char.ofNat n).toLower=Json.hexLower ((toDigit 16 (Char.ofNat n)).getD 0) := by
    decide +kernel
  exact of_ascii (p := fun c => isDigit 16 c=true → (toDigit 16 c).getD 0<16 ∧
    c.toLower=Json.hexLower ((toDigit 16 c).getD 0)) (isDigit_ascii h) hall h

theorem hexLower_injective {m n : Nat} (hm : m<16) (hn : n<16)
    (h : Json.hexLower m=Json.hexLower n) : m=n := by
  have hall : ∀ m<16, ∀ n<16, Json.hexLower m=Json.hexLower n → m=n := by decide
  exact hall m hm n hn h

/-- Digits are read to one value exactly when they are one digit in some case. -/
theorem digit_value_eq_iff {c d : Char} (hc : isDigit 16 c=true) (hd : isDigit 16 d=true) :
    (toDigit 16 c).getD 0=(toDigit 16 d).getD 0 ↔ c.toLower=d.toLower := by
  obtain ⟨hm,hcl⟩ := toLower_digit hc
  obtain ⟨hn,hdl⟩ := toLower_digit hd
  rw [hcl,hdl]
  constructor
  · intro h
    rw [h]
  · intro h
    exact hexLower_injective hm hn h

theorem digitsValue_pair (a b : Char) :
    digitsValue 16 [a,b]=16*(toDigit 16 a).getD 0+(toDigit 16 b).getD 0 := by
  simp [digitsValue]

/-- Two digits to a byte loses nothing but the case. -/
theorem hexBytes_eq_iff {s t : Text} (hs : ∀ c∈s, isDigit 16 c=true)
    (ht : ∀ c∈t, isDigit 16 c=true) (hl : s.length=t.length) (heven : s.length%2=0) :
    hexBytes s=hexBytes t ↔ s.map Char.toLower=t.map Char.toLower := by
  induction s using hexBytes.induct generalizing t with
  | case1 a b s ih =>
    cases t with
    | nil => simp at hl
    | cons a' t =>
      cases t with
      | nil => simp at hl
      | cons b' t =>
        have ha := hs a (by simp)
        have hb := hs b (by simp)
        have ha' := ht a' (by simp)
        have hb' := ht b' (by simp)
        have hrest := ih (t := t) (fun c hc => hs c (by simp [hc])) (fun c hc => ht c (by simp [hc]))
          (by simpa using hl) (by simp at heven; omega)
        have hbyte : UInt8.ofNat (digitsValue 16 [a,b])=UInt8.ofNat (digitsValue 16 [a',b']) ↔
            a.toLower=a'.toLower ∧ b.toLower=b'.toLower := by
          rw [← digit_value_eq_iff ha ha',← digit_value_eq_iff hb hb',← UInt8.toNat_inj,
            digitsValue_pair,digitsValue_pair]
          have h1 := (toLower_digit ha).1
          have h2 := (toLower_digit hb).1
          have h3 := (toLower_digit ha').1
          have h4 := (toLower_digit hb').1
          simp only [UInt8.toNat_ofNat']
          omega
        simp only [hexBytes,List.map_cons,List.cons.injEq,hbyte,hrest,and_assoc]
  | case2 s h =>
    cases s with
    | nil =>
      have h : t=[] := List.eq_nil_of_length_eq_zero (by simpa using hl.symm)
      simp [h]
    | cons a s =>
      cases s with
      | nil => simp at heven
      | cons b s => exact absurd rfl (h a b s)

theorem parseUuid_ok {uuid : Text} {bytes : ByteArr 16} (h : parseUuid uuid=.ok bytes) :
    (uuid.filter (isDigit 16)).length=32 ∧ bytes.1=hexBytes (uuid.filter (isDigit 16)) := by
  rw [parseUuid] at h
  split_ifs at h with hl
  cases h
  exact ⟨hl,rfl⟩

theorem parseUuid_of_length {uuid : Text} (h : (uuid.filter (isDigit 16)).length=32) :
    ∃ bytes, parseUuid uuid=.ok bytes := by
  rw [parseUuid]
  exact ⟨_,dif_pos h⟩

/-- Two texts name one UUID exactly when their hexadecimal digits agree up to case. -/
theorem parseUuid_eq_iff {uuid uuid' : Text} {bytes bytes' : ByteArr 16}
    (h : parseUuid uuid=.ok bytes) (h' : parseUuid uuid'=.ok bytes') :
    bytes=bytes' ↔ hexDigits uuid=hexDigits uuid' := by
  obtain ⟨hl,hb⟩ := parseUuid_ok h
  obtain ⟨hl',hb'⟩ := parseUuid_ok h'
  rw [Subtype.ext_iff,hb,hb',hexDigits,hexDigits]
  apply hexBytes_eq_iff
  · exact fun c hc => (List.mem_filter.mp hc).2
  · exact fun c hc => (List.mem_filter.mp hc).2
  · rw [hl,hl']
  · rw [hl]

/-- `Validator::new` succeeds exactly when no text occurs twice and each has 32 digits. -/
theorem newEntries_ok_iff (c : Crypto) (seen : List Text) (pairs : List (Text×Upstream)) :
    (∃ entries, newEntries c seen pairs=.ok entries) ↔
      (∀ p∈pairs, p.1∉seen ∧ (hexDigits p.1).length=32) ∧ (pairs.map Prod.fst).Nodup := by
  have hdigits : ∀ uuid : Text, (hexDigits uuid).length=(uuid.filter (isDigit 16)).length := by
    intro uuid
    simp [hexDigits]
  constructor
  · rintro ⟨entries,h⟩
    obtain ⟨-,hall,hnodup⟩ := newEntries_spec h
    refine ⟨?_,hnodup⟩
    intro p hp
    obtain ⟨bytes,hb⟩ := (hall p hp).2
    exact ⟨(hall p hp).1,by rw [hdigits,(parseUuid_ok hb).1]⟩
  · intro h
    induction pairs generalizing seen with
    | nil => exact ⟨[],rfl⟩
    | cons p pairs ih =>
      obtain ⟨uuid,upstream⟩ := p
      obtain ⟨hall,hnodup⟩ := h
      obtain ⟨hseen,hlen⟩ := hall (uuid,upstream) (by simp)
      rw [List.map_cons,List.nodup_cons] at hnodup
      rw [hdigits] at hlen
      obtain ⟨bytes,hb⟩ := parseUuid_of_length hlen
      obtain ⟨v,hv⟩ := (fromUuid_spec c uuid).2 bytes hb
      have hrest : ∃ entries, newEntries c (uuid::seen) pairs=.ok entries := by
        apply ih
        refine ⟨?_,hnodup.2⟩
        intro q hq
        refine ⟨?_,(hall q (by simp [hq])).2⟩
        intro hm
        rcases List.mem_cons.mp hm with he|hm
        · exact hnodup.1 (List.mem_map.mpr ⟨q,hq,he⟩)
        · exact (hall q (by simp [hq])).1 hm
      obtain ⟨entries,he⟩ := hrest
      refine ⟨⟨uuid,v,upstream⟩::entries,?_⟩
      rw [newEntries,if_neg hseen,hv]
      simp only [bind,Except.bind,he]
      rfl

theorem new_ok_iff (c : Crypto) (pairs : List (Text×Upstream)) :
    (∃ v, Validator.new c pairs=.ok v) ↔
      (∀ p∈pairs, (hexDigits p.1).length=32) ∧ (pairs.map Prod.fst).Nodup := by
  have hnew : (∃ v, Validator.new c pairs=.ok v) ↔
      ∃ entries, newEntries c [] pairs=.ok entries := by
    rw [Validator.new]
    cases newEntries c [] pairs with
    | error e => simp [Except.map]
    | ok entries => simp [Except.map]
  rw [hnew,newEntries_ok_iff]
  simp

/-- Every entry holds the verifier of its own text. -/
theorem newEntries_verifier {c : Crypto} {seen : List Text} {pairs : List (Text×Upstream)}
    {entries : List Entry} (h : newEntries c seen pairs=.ok entries) :
    ∀ e∈entries, AuthVerifier.fromUuid c e.uuid=.ok e.verifier := by
  induction pairs generalizing seen entries with
  | nil =>
    cases h
    simp
  | cons p pairs ih =>
    obtain ⟨uuid,upstream⟩ := p
    obtain ⟨v,rest,-,hv,ht,rfl⟩ := newEntries_cons h
    intro e he
    rcases List.mem_cons.mp he with rfl|he
    · exact hv
    · exact ih ht e he

/-- Two spellings of one UUID: different texts with the same digits. -/
def Respelled (uuid uuid' : Text) : Prop := uuid≠uuid' ∧ hexDigits uuid=hexDigits uuid'

instance (uuid uuid' : Text) : Decidable (Respelled uuid uuid') :=
  inferInstanceAs (Decidable (_ ∧ _))

/-- What the table promises: every entry has an identity and a key of its own, and its Auth IDs
reach it unless an entry with another key accepts them first. -/
structure Identified (c : Crypto) (v : Validator) : Prop where
  values : v.entries.Pairwise (fun e e' => parseUuid e.uuid≠parseUuid e'.uuid)
  keys : v.entries.Pairwise (fun e e' => e.verifier.ecbKey≠e'.verifier.ecbKey)
  reachable : ∀ past e later, v.entries=past++e::later → ∀ now authId,
    e.verifier.verify c now authId=true →
    (∀ e'∈past, e'.verifier.ecbKey≠e.verifier.ecbKey → e'.verifier.verify c now authId=false) →
    v.matchAuthId c now authId=some e.upstream

/-- No two different UUIDs of the list have one derived key. -/
def NoCollision (c : Crypto) (pairs : List (Text×Upstream)) : Prop :=
  ∀ p∈pairs, ∀ q∈pairs, ∀ v w, AuthVerifier.fromUuid c p.1=.ok v →
    AuthVerifier.fromUuid c q.1=.ok w → v.ecbKey=w.ecbKey → parseUuid p.1=parseUuid q.1

/-- Keys of their own make entries reachable. -/
theorem reachable_of_keys {c : Crypto} {v : Validator}
    (hk : v.entries.Pairwise (fun e e' => e.verifier.ecbKey≠e'.verifier.ecbKey)) {past : List Entry}
    {e : Entry} {later : List Entry} (hv : v.entries=past++e::later) {now : UInt64}
    {authId : ByteArr 16} (he : e.verifier.verify c now authId=true)
    (hpast : ∀ e'∈past, e'.verifier.ecbKey≠e.verifier.ecbKey →
      e'.verifier.verify c now authId=false) :
    v.matchAuthId c now authId=some e.upstream := by
  rw [hv,List.pairwise_append] at hk
  have hskip : past.find? (fun e => e.verifier.verify c now authId)=none := by
    rw [List.find?_eq_none]
    intro e' he'
    rw [hpast e' he' (hk.2.2 e' he' e (by simp))]
    simp
  rw [Validator.matchAuthId,hv,List.find?_append,hskip,List.find?_cons,he]
  rfl

/-- What an accepted list puts into the table. -/
theorem new_spec {c : Crypto} {pairs : List (Text×Upstream)} {v : Validator}
    (h : Validator.new c pairs=.ok v) :
    v.entries.map (fun e => (e.uuid,e.upstream))=pairs ∧
      v.entries.map Entry.uuid=pairs.map Prod.fst ∧
      (∀ e∈v.entries, AuthVerifier.fromUuid c e.uuid=.ok e.verifier) ∧
      (∀ e∈v.entries, ∃ bytes, parseUuid e.uuid=.ok bytes) := by
  obtain ⟨entries,he,rfl⟩ := map_ok h
  obtain ⟨hmap,hall,-⟩ := newEntries_spec he
  refine ⟨hmap,?_,newEntries_verifier he,?_⟩
  · rw [← hmap,List.map_map]
    rfl
  · intro e hm
    have hp : (e.uuid,e.upstream)∈pairs := by
      rw [← hmap]
      exact List.mem_map.mpr ⟨e,hm,rfl⟩
    exact (hall _ hp).2

/-- Two different texts of the table have the same value exactly when one respells the other. -/
theorem respelled_iff {uuid uuid' : Text} (h : ∃ bytes, parseUuid uuid=.ok bytes)
    (h' : ∃ bytes, parseUuid uuid'=.ok bytes) :
    Respelled uuid uuid' ↔ uuid≠uuid' ∧ parseUuid uuid=parseUuid uuid' := by
  obtain ⟨bytes,hb⟩ := h
  obtain ⟨bytes',hb'⟩ := h'
  rw [Respelled,← parseUuid_eq_iff hb hb',hb,hb',Except.ok.injEq]

/-- The table of a list without respellings. -/
theorem identified_of_spellings {c : Crypto} {pairs : List (Text×Upstream)}
    (hc : NoCollision c pairs) (hs : ∀ p∈pairs, ∀ q∈pairs, ¬Respelled p.1 q.1) {v : Validator}
    (h : Validator.new c pairs=.ok v) : Identified c v := by
  obtain ⟨hmap,huuid,hver,hparse⟩ := new_spec h
  have hmem : ∀ e∈v.entries, (e.uuid,e.upstream)∈pairs := by
    intro e he
    rw [← hmap]
    exact List.mem_map.mpr ⟨e,he,rfl⟩
  have hnodup : v.entries.Pairwise (fun e e' => e.uuid≠e'.uuid) := by
    have hn := ((new_ok_iff c pairs).mp ⟨v,h⟩).2
    rw [← huuid] at hn
    exact List.pairwise_map.mp hn
  have hvalues : v.entries.Pairwise (fun e e' => parseUuid e.uuid≠parseUuid e'.uuid) := by
    apply hnodup.imp_of_mem
    intro e e' he he' hne heq
    have hr := (respelled_iff (hparse e he) (hparse e' he')).mpr ⟨hne,heq⟩
    exact hs _ (hmem e he) _ (hmem e' he') hr
  have hkeys : v.entries.Pairwise (fun e e' => e.verifier.ecbKey≠e'.verifier.ecbKey) := by
    apply hvalues.imp_of_mem
    intro e e' he he' hne heq
    exact hne (hc _ (hmem e he) _ (hmem e' he') _ _ (hver e he) (hver e' he') heq)
  exact ⟨hvalues,hkeys,fun _ _ _ hv _ _ he hpast => reachable_of_keys hkeys hv he hpast⟩

/-- A table whose entries have values of their own holds no respelling. -/
theorem spellings_of_identified {c : Crypto} {pairs : List (Text×Upstream)} {v : Validator}
    (h : Validator.new c pairs=.ok v) (hi : Identified c v) :
    ∀ p∈pairs, ∀ q∈pairs, ¬Respelled p.1 q.1 := by
  obtain ⟨hmap,-,-,hparse⟩ := new_spec h
  intro p hp q hq hr
  rw [← hmap] at hp hq
  obtain ⟨e,he,rfl⟩ := List.mem_map.mp hp
  obtain ⟨e',he',rfl⟩ := List.mem_map.mp hq
  obtain ⟨hne,heq⟩ := (respelled_iff (hparse e he) (hparse e' he')).mp hr
  have hsym : Std.Symm (fun e e' : Entry => parseUuid e.uuid≠parseUuid e'.uuid) :=
    ⟨fun _ _ h => h.symm⟩
  exact hi.values.forall he he' (fun hee => hne (by rw [hee])) heq

/-- An accepted list gives every entry an identity of its own exactly when it holds no two
spellings of one UUID. -/
theorem validator_identified_iff {c : Crypto} {pairs : List (Text×Upstream)}
    (hc : NoCollision c pairs) :
    (∀ v, Validator.new c pairs=.ok v → Identified c v) ↔
      (∃ p∈pairs, (hexDigits p.1).length≠32) ∨ ¬(pairs.map Prod.fst).Nodup ∨
      ∀ p∈pairs, ∀ q∈pairs, ¬Respelled p.1 q.1 := by
  constructor
  · intro h
    by_cases hd : ∀ p∈pairs, (hexDigits p.1).length=32
    · by_cases hn : (pairs.map Prod.fst).Nodup
      · obtain ⟨v,hv⟩ := (new_ok_iff c pairs).mpr ⟨hd,hn⟩
        exact Or.inr (Or.inr (spellings_of_identified hv (h v hv)))
      · exact Or.inr (Or.inl hn)
    · left
      simpa only [not_forall,exists_prop] using hd
  · intro h v hv
    obtain ⟨hd,hn⟩ := (new_ok_iff c pairs).mp ⟨v,hv⟩
    rcases h with ⟨p,hp,hl⟩|h|h
    · exact absurd (hd p hp) hl
    · exact absurd hn h
    · exact identified_of_spellings hc h hv

def tcpUpstream (addr : String) (a b c d : UInt8) (port : Nat) : Upstream where
  addr := addr.toList
  parsedAddr := .v4 ⟨a,b,c,d⟩ port
  transport := .tcp
  tcpFastOpen := false

def firstUpstream : Upstream := tcpUpstream "192.0.2.1:443" 192 0 2 1 443

def secondUpstream : Upstream := tcpUpstream "192.0.2.2:443" 192 0 2 2 443

def plainUuid : Text := "550e8400-e29b-41d4-a716-446655440000".toList

def otherUuid : Text := "650e8400-e29b-41d4-a716-446655440000".toList

theorem validator_identified_two : ∃ v,
    Validator.new tailCrypto [(plainUuid,firstUpstream),(otherUuid,secondUpstream)]=.ok v ∧
      Identified tailCrypto v := by
  have hkeys : (AuthVerifier.fromUuid tailCrypto plainUuid).map AuthVerifier.ecbKey≠
      (AuthVerifier.fromUuid tailCrypto otherUuid).map AuthVerifier.ecbKey := by decide +kernel
  obtain ⟨v,hv⟩ := (new_ok_iff tailCrypto
    [(plainUuid,firstUpstream),(otherUuid,secondUpstream)]).mpr (by decide +kernel)
  refine ⟨v,hv,(validator_identified_iff ?_).mpr ?_ v hv⟩
  rotate_left
  · right; right
    decide +kernel
  · intro p hp q hq v w hv hw he
    have hm : (AuthVerifier.fromUuid tailCrypto p.1).map AuthVerifier.ecbKey=
        (AuthVerifier.fromUuid tailCrypto q.1).map AuthVerifier.ecbKey := by
      rw [hv,hw]
      exact congrArg Except.ok he
    simp only [List.mem_cons,List.not_mem_nil,or_false] at hp hq
    rcases hp with rfl|rfl <;> rcases hq with rfl|rfl
    · rfl
    · exact absurd hm hkeys
    · exact absurd hm.symm hkeys
    · rfl

/-- The same UUID in upper case and without hyphens. -/
def upperUuid : Text := "550E8400E29B41D4A716446655440000".toList

/-- The second entry can never be reached: the first one has its value and its key. -/
theorem respelled_uuid_accepted : plainUuid≠upperUuid ∧ ∀ c : Crypto, ∃ e e',
    Validator.new c [(plainUuid,firstUpstream),(upperUuid,secondUpstream)]=.ok ⟨[e,e']⟩ ∧
    parseUuid e.uuid=parseUuid e'.uuid ∧ e.verifier=e'.verifier ∧
    e'.upstream=secondUpstream ∧ e.upstream≠secondUpstream ∧
    ∀ now authId, Validator.matchAuthId c now ⟨[e,e']⟩ authId≠some e'.upstream := by
  refine ⟨by decide +kernel,?_⟩
  intro c
  have hsame : parseUuid plainUuid=parseUuid upperUuid := by decide +kernel
  obtain ⟨v,hv⟩ := (new_ok_iff c [(plainUuid,firstUpstream),(upperUuid,secondUpstream)]).mpr
    (by decide +kernel)
  obtain ⟨hmap,-,hver,-⟩ := new_spec hv
  obtain ⟨entries⟩ := v
  match entries,hmap with
  | [e,e'],hmap =>
    simp only [List.map_cons,List.map_nil,List.cons.injEq,and_true,Prod.mk.injEq] at hmap
    obtain ⟨⟨hu,hup⟩,hu',hup'⟩ := hmap
    have hkey : AuthVerifier.fromUuid c plainUuid=AuthVerifier.fromUuid c upperUuid := by
      rw [AuthVerifier.fromUuid,AuthVerifier.fromUuid,hsame]
    have hvv : e.verifier=e'.verifier := by
      have h1 := hver e (by simp)
      have h2 := hver e' (by simp)
      rw [hu,hkey] at h1
      rw [hu',h1] at h2
      exact Except.ok.inj h2
    have hne : firstUpstream≠secondUpstream := by decide
    refine ⟨e,e',hv,by rw [hu,hu',hsame],hvv,hup',by rw [hup]; exact hne,?_⟩
    intro now authId
    rw [Validator.matchAuthId,List.find?_cons,List.find?_cons,← hvv]
    cases e.verifier.verify c now authId with
    | true =>
      rw [hup']
      simpa [hup] using hne
    | false => simp

end Tobira.Vmess
