import Tobira.Framework.Whatwg

namespace Tobira.Framework.Url

theorem percentDecode_cons {b : UInt8} (h : b≠0x25) (rest : List UInt8) :
    percentDecode (b::rest)=b::percentDecode rest := by
  cases rest with
  | nil => rfl
  | cons c rest =>
    cases rest with
    | nil => rfl
    | cons d rest => rw [percentDecode,if_neg h]

theorem percentDecode_percentByte (b : UInt8) (rest : List UInt8) :
    percentDecode (utf8 (percentByte b)++rest)=b::percentDecode rest := by
  have hdigit : ∀ n<16, utf8 [hexDigit n]=[UInt8.ofNat (hexDigit n).toNat] ∧
      hexValue (UInt8.ofNat (hexDigit n).toNat)=some n := by decide
  have hb := b.toNat_lt
  obtain ⟨hh,hhv⟩ := hdigit (b.toNat/16) (by omega)
  obtain ⟨hl,hlv⟩ := hdigit (b.toNat%16) (by omega)
  have hbytes : utf8 (percentByte b)=utf8 ['%']++utf8 [hexDigit (b.toNat/16)]++
      utf8 [hexDigit (b.toNat%16)] := by
    simp [percentByte,utf8]
  have hval : 16*(b.toNat/16)+b.toNat%16=b.toNat := by omega
  rw [hbytes,hh,hl]
  have hstep : ∀ x y : UInt8, utf8 ['%']++[x]++[y]++rest=0x25::x::y::rest := fun _ _ => rfl
  rw [hstep,percentDecode,if_pos rfl]
  simp only [hhv,hlv,hval,UInt8.ofNat_toNat]

/-- A character that is data in a query, to the URL parser and to the form decoder. -/
def QueryData (c : Char) : Prop := c ≠ '&' ∧ c ≠ '=' ∧ querySet c=false

instance (c : Char) : Decidable (QueryData c) := inferInstanceAs (Decidable (_ ∧ _ ∧ _))

/-- The byte is written as three characters, or as one that stands for it. -/
def EscapesByte (enc : UInt8 → Text) (b : UInt8) : Prop :=
  ((enc b).map plusToSpace=percentByte b ∨ (utf8 ((enc b).map plusToSpace)=[b] ∧ b≠0x25)) ∧
    ∀ c∈enc b, QueryData c

instance (enc : UInt8 → Text) (b : UInt8) : Decidable (EscapesByte enc b) :=
  have : Decidable (∀ c∈enc b, QueryData c) := List.decidableBAll _ _
  inferInstanceAs (Decidable (_ ∧ _))

/-- A way of writing bytes that the form decoder reads back. -/
def Escapes (enc : UInt8 → Text) : Prop := ∀ b, EscapesByte enc b

theorem escapes_of_bytes {enc : UInt8 → Text} (h : ∀ n<256, EscapesByte enc (UInt8.ofNat n)) :
    Escapes enc := by
  intro b
  have hb := h b.toNat b.toNat_lt
  rwa [UInt8.ofNat_toNat] at hb

theorem formByte_escapes : Escapes formByte := escapes_of_bytes (by decide +kernel)

section
variable {enc : UInt8 → Text}

theorem percentDecode_escape (h : Escapes enc) (bytes : List UInt8) :
    percentDecode (utf8 ((bytes.flatMap enc).map plusToSpace))=bytes := by
  induction bytes with
  | nil => rfl
  | cons b bytes ih =>
    have hsplit : utf8 (((b::bytes).flatMap enc).map plusToSpace)=
        utf8 ((enc b).map plusToSpace)++utf8 ((bytes.flatMap enc).map plusToSpace) := by
      simp [utf8]
    rw [hsplit]
    rcases (h b).1 with he|⟨he,hne⟩
    · rw [he,percentDecode_percentByte,ih]
    · rw [he,List.singleton_append,percentDecode_cons hne,ih]

/-- One name or value, as it stands in a query. -/
def escapeComponent (enc : UInt8 → Text) (text : Text) : Text := (utf8 text).flatMap enc

theorem formComponent_escape (h : Escapes enc) (text : Text) :
    formComponent (escapeComponent enc text)=some text := by
  rw [formComponent,escapeComponent,percentDecode_escape h,utf8Decode_utf8]

theorem escapeComponent_data (h : Escapes enc) {text : Text} :
    ∀ c∈escapeComponent enc text, QueryData c := by
  intro c hc
  obtain ⟨b,-,hb⟩ := List.mem_flatMap.mp hc
  exact (h b).2 c hb

def escapePair (enc : UInt8 → Text) (p : Text×Text) : Text :=
  escapeComponent enc p.1 ++ '='::escapeComponent enc p.2

def escapePairs (enc : UInt8 → Text) (pairs : List (Text×Text)) : Text :=
  ['&'].intercalate (pairs.map (escapePair enc))

theorem formPair_escape (h : Escapes enc) (p : Text×Text) :
    formPair (escapePair enc p)=some p := by
  have hn : '='∉escapeComponent enc p.1 := fun hm => (escapeComponent_data h _ hm).2.1 rfl
  have hc : cut '=' (escapePair enc p)=(escapeComponent enc p.1,some (escapeComponent enc p.2)) := by
    rw [cut,escapePair,splitOnce_append hn]
  simp only [formPair,hc,Option.getD_some,formComponent_escape h,Option.map_some,Option.bind_some]

theorem escapePair_data (h : Escapes enc) {p : Text×Text} :
    ∀ c∈escapePair enc p, c ≠ '&' ∧ querySet c=false := by
  intro c hc
  rcases List.mem_append.mp hc with hc|hc
  · obtain ⟨ha,-,hq⟩ := escapeComponent_data h c hc
    exact ⟨ha,hq⟩
  · rcases List.mem_cons.mp hc with rfl|hc
    · decide
    · obtain ⟨ha,-,hq⟩ := escapeComponent_data h c hc
      exact ⟨ha,hq⟩

/-- What was written pair by pair is read back. -/
theorem formDecode_escape (h : Escapes enc) (pairs : List (Text×Text)) :
    formDecode (escapePairs enc pairs)=some pairs := by
  have hpairs : ∀ ps : List (Text×Text), (ps.map (escapePair enc)).mapM formPair=some ps := by
    intro ps
    induction ps with
    | nil => rfl
    | cons p ps ih =>
      simp only [List.map_cons,List.mapM_cons,formPair_escape h,ih,Option.pure_def,
        Option.bind_eq_bind,Option.bind_some]
  cases pairs with
  | nil => rfl
  | cons p pairs =>
    have hsplit : (escapePairs enc (p::pairs)).splitOn '&'=(p::pairs).map (escapePair enc) := by
      apply List.splitOn_intercalate
      · intro piece hp hm
        obtain ⟨q,-,rfl⟩ := List.mem_map.mp hp
        exact (escapePair_data h _ hm).1 rfl
      · simp
    have hfilter : ((p::pairs).map (escapePair enc)).filter (fun piece => piece≠[])=
        (p::pairs).map (escapePair enc) := by
      rw [List.filter_eq_self]
      intro piece hp
      obtain ⟨q,-,rfl⟩ := List.mem_map.mp hp
      simp [escapePair]
    rw [formDecode,hsplit,hfilter,hpairs]

theorem escapePairs_cons (p q : Text×Text) (pairs : List (Text×Text)) :
    escapePairs enc (p::q::pairs)=escapePair enc p ++ '&'::escapePairs enc (q::pairs) := by
  simp [escapePairs,List.intercalate]

theorem escapePairs_eq_nil {pairs : List (Text×Text)} : escapePairs enc pairs=[] ↔ pairs=[] := by
  cases pairs with
  | nil => exact iff_of_true rfl rfl
  | cons p pairs =>
    cases pairs with
    | nil => simp [escapePairs,List.intercalate,escapePair]
    | cons q pairs =>
      rw [escapePairs_cons]
      simp

theorem escapePairs_concat (pairs : List (Text×Text)) (p : Text×Text) :
    escapePairs enc (pairs++[p])=
      if pairs=[] then escapePair enc p else escapePairs enc pairs ++ '&'::escapePair enc p := by
  induction pairs with
  | nil => simp [escapePairs,List.intercalate]
  | cons q pairs ih =>
    cases pairs with
    | nil => simp [escapePairs,List.intercalate]
    | cons q' pairs =>
      rw [if_neg (by simp)] at ih ⊢
      rw [List.cons_append,List.cons_append,escapePairs_cons,escapePairs_cons]
      rw [List.cons_append] at ih
      rw [ih]
      simp

theorem escapePairs_query (h : Escapes enc) (pairs : List (Text×Text)) :
    ∀ c∈escapePairs enc pairs, querySet c=false := by
  induction pairs with
  | nil => simp [escapePairs,List.intercalate]
  | cons p pairs ih =>
    intro c hc
    cases pairs with
    | nil =>
      have hone : escapePairs enc [p]=escapePair enc p := by
        simp [escapePairs,List.intercalate]
      rw [hone] at hc
      exact (escapePair_data h c hc).2
    | cons q pairs =>
      rw [escapePairs_cons] at hc
      rcases List.mem_append.mp hc with hc|hc
      · exact (escapePair_data h c hc).2
      · rcases List.mem_cons.mp hc with rfl|hc
        · decide
        · exact ih c hc

end

theorem formEncode_eq (pairs : List (Text×Text)) : formEncode pairs=escapePairs formByte pairs := rfl

end Tobira.Framework.Url
