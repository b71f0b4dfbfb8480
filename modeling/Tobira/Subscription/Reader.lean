import Tobira.Framework.Json
import Tobira.Framework.Parts
import Tobira.Subscription.Parser

namespace Tobira.Subscription

open Tobira.Framework Tobira.Framework.Net Tobira.Framework.Url

/-- A text the URL parser does not trim at its end. -/
def Untrimmed (text : Text) : Prop := ∀ c∈text.getLast?, ' '<c

/-- `Url::parse` and its accessors on a `vmess` URL. The scheme is not special; a host in square
brackets is left open. -/
structure UrlReader.Whatwg (r : UrlReader) : Prop where
  accepts : ∀ rest, Untrimmed rest →
    ((∃ u, r.parse ("vmess://".toList++rest)=.ok u) ↔ validAuthority rest=true)
  username : ∀ rest u, Untrimmed rest → r.parse ("vmess://".toList++rest)=.ok u →
    r.username u=usernamePart rest
  hostStr : ∀ rest u, Untrimmed rest → r.parse ("vmess://".toList++rest)=.ok u →
    (hostText rest).head? ≠ some '[' → r.hostStr u=hostPart rest
  port : ∀ rest u, Untrimmed rest → r.parse ("vmess://".toList++rest)=.ok u →
    r.port u=portPart rest
  query : ∀ rest u, Untrimmed rest → r.parse ("vmess://".toList++rest)=.ok u →
    r.query u=queryPart rest
  fragment : ∀ rest u, Untrimmed rest → r.parse ("vmess://".toList++rest)=.ok u →
    r.fragment u=fragmentPart rest
  queryPairs : ∀ u pairs, formDecode ((r.query u).getD [])=some pairs → r.queryPairs u=pairs

/-- Neither `trim` nor the URL parser takes anything away from the ends. -/
def Solid (text : Text) : Prop := ∀ c∈text, isWhitespace c=false ∧ ' '<c

theorem Solid.untrimmed {text : Text} (h : Solid text) : Untrimmed text :=
  fun c hc => (h c (List.mem_of_getLast? hc)).2

theorem Solid.trim {text : Text} (h : Solid text) : trim text=text :=
  trim_eq (fun c hc => (h c (List.mem_of_head? hc)).1) (fun c hc => (h c (List.mem_of_getLast? hc)).1)

theorem solid_append {a b : Text} (ha : Solid a) (hb : Solid b) : Solid (a++b) := by
  intro c hc
  rcases List.mem_append.mp hc with hc|hc
  · exact ha c hc
  · exact hb c hc

instance (text : Text) : Decidable (Solid text) := List.decidableBAll _ _

theorem solid_cons {c : Char} {text : Text} (hc : isWhitespace c=false ∧ ' '<c) (h : Solid text) :
    Solid (c::text) := by
  intro d hd
  rcases List.mem_cons.mp hd with rfl|hd
  · exact hc
  · exact h d hd

/-- Printable ASCII other than the space. -/
theorem solid_printable {c : Char} (h : controlSet c=false) (hs : c ≠ ' ') :
    isWhitespace c=false ∧ ' '<c := by
  have hall : ∀ n<128, controlSet (Char.ofNat n)=false → Char.ofNat n ≠ ' ' →
      isWhitespace (Char.ofNat n)=false ∧ ' '<Char.ofNat n := by decide +kernel
  have hc : c.toNat<128 := by
    have hle : ¬0x7E<c.toNat := of_decide_eq_false (Bool.or_eq_false_iff.mp h).2
    omega
  exact of_ascii (p := fun c => controlSet c=false → c ≠ ' ' → isWhitespace c=false ∧ ' '<c)
    hc hall h hs

theorem solid_querySet {text : Text} (h : ∀ c∈text, querySet c=false) : Solid text := by
  intro c hc
  obtain ⟨hcontrol,hlist⟩ := Bool.or_eq_false_iff.mp (h c hc)
  apply solid_printable hcontrol
  rintro rfl
  cases hlist

theorem solid_fragmentSet {text : Text} (h : ∀ c∈text, fragmentSet c=false) : Solid text := by
  intro c hc
  obtain ⟨hcontrol,hlist⟩ := Bool.or_eq_false_iff.mp (h c hc)
  apply solid_printable hcontrol
  rintro rfl
  cases hlist

theorem solid_scheme : Solid "vmess://".toList := by decide

theorem nameChar_control {c : Char} (h : NameChar c) : controlSet c=false := by
  have hascii : c.toNat<128 := by
    rcases h with h|rfl|rfl|rfl
    · have hle : ∀ d : Char, c.val ≤ d.val → c.toNat ≤ d.toNat := fun _ hcd => hcd
      rcases Bool.or_eq_true_iff.mp h with h|h
      · rcases Bool.or_eq_true_iff.mp h with h|h
        · exact Nat.lt_of_le_of_lt (hle 'Z' (of_decide_eq_true h).2) (by decide)
        · have hz := of_decide_eq_true (Bool.and_eq_true_iff.mp h).2
          exact Nat.lt_of_le_of_lt (hle 'z' hz) (by decide)
      · have hn := of_decide_eq_true (Bool.and_eq_true_iff.mp h).2
        exact Nat.lt_of_le_of_lt (hle '9' hn) (by decide)
    · decide
    · decide
    · decide
  have hall : ∀ n<128, NameChar (Char.ofNat n) → controlSet (Char.ofNat n)=false := by
    decide +kernel
  exact of_ascii (p := fun c => NameChar c → controlSet c=false) hascii hall h

section
variable {user host : Text} (hu : ∀ c∈user, userinfoSet c=false) (hn : host≠[])
  (hh : ∀ c∈host, NameChar c) (port : Nat)
include hu hh

theorem solid_located : Solid (located user host port) := by
  have huser : Solid user :=
    solid_fragmentSet (fun c hc => (Bool.or_eq_false_iff.mp (hu c hc)).1)
  have hhost : Solid host := by
    intro c hc
    apply solid_printable (nameChar_control (hh c hc))
    exact nameChar_ne (hh c hc) (by decide)
  have hport : Solid (decimal port) := by
    intro c hc
    have hd : NameChar c := Or.inl (by simp [Char.isAlphanum,decimal_isDigit hc])
    exact solid_printable (nameChar_control hd) (nameChar_ne hd (by decide))
  exact solid_append huser (solid_cons (by decide)
    (solid_append hhost (solid_cons (by decide) hport)))

include hn

/-- What the accessors give for a URL that was put together from plain parts. -/
theorem UrlReader.Whatwg.parse_located {r : UrlReader} (hr : r.Whatwg) (hp : port≤65535)
    {query fragment : Option Text} (hq : ∀ q∈query, ∀ c∈q, querySet c=false)
    (hf : ∀ f∈fragment, ∀ c∈f, fragmentSet c=false) :
    Solid (assemble (located user host port) query fragment) ∧
    ∃ u, r.parse ("vmess://".toList++assemble (located user host port) query fragment)=.ok u ∧
      r.username u=user ∧ r.hostStr u=some host ∧ r.port u=some (UInt16.ofNat port) ∧
      r.query u=query ∧ r.fragment u=fragment := by
  have hplain := plainHost_name hn hh
  have h := located_plain port hu hplain hq hf
  have hsolid : Solid (assemble (located user host port) query fragment) := by
    apply solid_append (solid_located hu hh port)
    apply solid_append
    · cases query with
      | none => exact fun c hc => nomatch hc
      | some q => exact solid_cons (by decide) (solid_querySet (hq q rfl))
    · cases fragment with
      | none => exact fun c hc => nomatch hc
      | some f => exact solid_cons (by decide) (solid_fragmentSet (hf f rfl))
  have hs := hsolid.untrimmed
  obtain ⟨u,hu'⟩ := (hr.accepts _ hs).mpr (validAuthority_located hu hplain hp h)
  have hbracket : (hostText (assemble (located user host port) query fragment)).head? ≠ some '[' := by
    rw [hostText_located hplain h]
    intro hc
    exact nameChar_ne (hh _ (List.mem_of_head? hc)) (by decide) rfl
  have hcontrol : ∀ c∈host, controlSet c=false := fun c hc => nameChar_control (hh c hc)
  refine ⟨hsolid,u,hu',?_,?_,?_,?_,?_⟩
  · rw [hr.username _ u hs hu',usernamePart_located hu hplain h]
  · rw [hr.hostStr _ u hs hu' hbracket,hostPart_located hplain hcontrol h]
  · rw [hr.port _ u hs hu',portPart_located hplain h]
  · rw [hr.query _ u hs hu',queryPart_assemble h]
  · rw [hr.fragment _ u hs hu',fragmentPart_assemble h]

end

/-- A URL as what follows its scheme. -/
def plainReader : UrlReader where
  Url := Text
  parse text :=
    if "vmess://".toList.isPrefixOf text then
      if validAuthority (text.drop 8) then .ok (text.drop 8) else .error "invalid port number".toList
    else .error "relative URL without a base".toList
  username := usernamePart
  hostStr := hostPart
  port := portPart
  path rest := ((withoutFragment rest).takeWhile (· ≠ '?')).dropWhile (· ≠ '/')
  query := queryPart
  queryPairs rest := (formDecode ((queryPart rest).getD [])).getD []
  fragment := fragmentPart

theorem plainReader_parse (rest : Text) : plainReader.parse ("vmess://".toList++rest)=
    if validAuthority rest then .ok rest else .error "invalid port number".toList := by
  have hd : ("vmess://".toList++rest).drop 8=rest := rfl
  have hp : "vmess://".toList.isPrefixOf ("vmess://".toList++rest)=true := by
    rw [List.isPrefixOf_iff_prefix]
    exact List.prefix_append _ _
  simp only [plainReader,hp,if_true,hd]

theorem plainReader_ok {rest u : Text} (h : plainReader.parse ("vmess://".toList++rest)=.ok u) :
    u=rest := by
  rw [plainReader_parse] at h
  split_ifs at h
  cases h
  rfl

theorem plainReader_whatwg : plainReader.Whatwg where
  accepts := by
    intro rest _
    rw [plainReader_parse]
    cases validAuthority rest with
    | true => exact iff_of_true ⟨rest,rfl⟩ rfl
    | false => simp
  username := by
    intro rest u _ h
    rw [plainReader_ok h]
    rfl
  hostStr := by
    intro rest u _ h _
    rw [plainReader_ok h]
    rfl
  port := by
    intro rest u _ h
    rw [plainReader_ok h]
    rfl
  query := by
    intro rest u _ h
    rw [plainReader_ok h]
    rfl
  fragment := by
    intro rest u _ h
    rw [plainReader_ok h]
    rfl
  queryPairs := by
    intro u pairs h
    have hp : plainReader.queryPairs u=(formDecode ((plainReader.query u).getD [])).getD [] := rfl
    rw [hp,h]
    rfl

/-- Lower case is right for ASCII only. -/
def plainParser : ParserCrates where
  url := plainReader
  base64 := Base64.decode
  json := Json.read
  jsonError _ := "expected value at line 1 column 1".toList
  toLowercase := List.map Char.toLower

theorem plainParser_engines : plainParser.Engines := fun _ _ => Base64.decode_strict _ _

end Tobira.Subscription
