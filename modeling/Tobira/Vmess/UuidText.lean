import Tobira.Framework.Json
import Tobira.Vmess.Identity

namespace Tobira.Vmess

open Tobira.Framework Tobira.Transport

/-- Two hexadecimal digits for each byte. -/
def hexText (bytes : Bytes) : Text :=
  bytes.flatMap (fun b => [Json.hexLower (b.toNat/16),Json.hexLower (b.toNat%16)])

/-- Hyphens at the 8-4-4-4-12 positions. -/
def hyphenated (digits : Text) : Text :=
  digits.take 8 ++ '-'::((digits.drop 8).take 4 ++ '-'::((digits.drop 12).take 4 ++
    '-'::((digits.drop 16).take 4 ++ '-'::digits.drop 20)))

/-- The digits of the bytes in either case, with all hyphens or none. -/
def UuidText (uuid : Text) (bytes : ByteArr 16) : Prop :=
  ∃ digits, digits.map Char.toLower=hexText bytes.1 ∧ (uuid=digits ∨ uuid=hyphenated digits)

/-- Nothing but the digits of the text, or nothing but these and the four hyphens. -/
def UuidShape (uuid : Text) : Prop :=
  uuid=uuid.filter (isDigit 16) ∨ uuid=hyphenated (uuid.filter (isDigit 16))

instance (uuid : Text) : Decidable (UuidShape uuid) := inferInstanceAs (Decidable (_ ∨ _))

/-- What is left of a text when case and hyphens do not count. -/
def bareText (uuid : Text) : Text := (uuid.filter (· ≠ '-')).map Char.toLower

example : hyphenated (hexText (hexBytes "550e8400e29b41d4a716446655440000".toList))=
    "550e8400-e29b-41d4-a716-446655440000".toList := by decide

theorem hexText_digit (bytes : Bytes) :
    ∀ c∈hexText bytes, isDigit 16 c=true ∧ c.toLower=c := by
  have hall : ∀ n<16, isDigit 16 (Json.hexLower n)=true ∧ (Json.hexLower n).toLower=Json.hexLower n := by
    decide
  intro c hc
  obtain ⟨b,-,hb⟩ := List.mem_flatMap.mp hc
  have hlt := b.toNat_lt
  rcases List.mem_cons.mp hb with rfl|hb
  · exact hall _ (by omega)
  · rw [List.mem_singleton.mp hb]
    exact hall _ (by omega)

theorem hexText_length (bytes : Bytes) : (hexText bytes).length=2*bytes.length := by
  induction bytes with
  | nil => rfl
  | cons b bytes ih =>
    rw [hexText,List.flatMap_cons,List.length_append,← hexText,ih,List.length_cons]
    simp only [List.length_cons,List.length_nil]
    omega

theorem hexBytes_hexText (bytes : Bytes) : hexBytes (hexText bytes)=bytes := by
  induction bytes with
  | nil => rfl
  | cons b bytes ih =>
    have hb := b.toNat_lt
    have hval : 16*(b.toNat/16)+b.toNat%16=b.toNat := by omega
    have hcons : hexText (b::bytes)=
        Json.hexLower (b.toNat/16)::Json.hexLower (b.toNat%16)::hexText bytes := rfl
    rw [hcons,hexBytes,digitsValue_pair,Json.hexLower_digit (by omega),
      Json.hexLower_digit (by omega),Option.getD_some,Option.getD_some,hval,UInt8.ofNat_toNat,ih]

/-- Lower case is a matter of ASCII, and keeps a digit a digit. -/
theorem isDigit_toLower (c : Char) : isDigit 16 c.toLower=isDigit 16 c := by
  by_cases hc : c.toNat<128
  · have hall : ∀ n<128, isDigit 16 (Char.ofNat n).toLower=isDigit 16 (Char.ofNat n) := by
      decide +kernel
    exact of_ascii (p := fun c => isDigit 16 c.toLower=isDigit 16 c) hc hall
  · have hsame : c.toLower=c := by
      apply dif_neg
      intro h
      have hle : c.toNat ≤ 'Z'.toNat := h.2
      exact hc (Nat.lt_of_le_of_lt hle (by decide))
    rw [hsame]

/-- A filter that takes the hyphens away and keeps the digits undoes the hyphenation. -/
theorem filter_hyphenated {p : Char → Bool} (hp : p '-'=false) {digits : Text}
    (h : ∀ c∈digits, p c=true) : (hyphenated digits).filter p=digits := by
  have hpart : ∀ part : Text, (∀ c∈part, c∈digits) → part.filter p=part :=
    fun part hm => List.filter_eq_self.mpr (fun c hc => h c (hm c hc))
  have htake : ∀ n k, ∀ c∈(digits.drop n).take k, c∈digits :=
    fun n k c hc => List.mem_of_mem_drop (List.mem_of_mem_take hc)
  have hdrop : ∀ n k, digits.drop (n+k)=(digits.drop n).drop k := by
    intro n k
    rw [List.drop_drop]
  rw [hyphenated]
  simp only [List.filter_append,List.filter_cons,hp,Bool.false_eq_true,if_false]
  rw [hpart _ (fun c hc => List.mem_of_mem_take hc),hpart _ (htake 8 4),hpart _ (htake 12 4),
    hpart _ (htake 16 4),hpart _ (fun c hc => List.mem_of_mem_drop hc),hdrop 16 4,
    List.take_append_drop,hdrop 12 4,List.take_append_drop,hdrop 8 4,List.take_append_drop,
    List.take_append_drop]

/-- Without its hyphens a well-shaped text is its digits. -/
theorem bareText_shape {uuid : Text} (h : UuidShape uuid) :
    bareText uuid=(uuid.filter (isDigit 16)).map Char.toLower := by
  have hdigit : ∀ c∈uuid.filter (isDigit 16), decide (c ≠ '-')=true := by
    intro c hc
    rw [decide_eq_true_eq]
    rintro rfl
    exact absurd (List.mem_filter.mp hc).2 (by decide)
  rw [bareText]
  rcases h with h|h
  · congr 1
    rw [← h] at hdigit ⊢
    exact List.filter_eq_self.mpr hdigit
  · congr 1
    conv_lhs => rw [h]
    exact filter_hyphenated (by decide) hdigit

section
variable {uuid : Text} {bytes : ByteArr 16}

/-- The digits of a UUID text are those it was made of. -/
theorem uuidText_digits (h : UuidText uuid bytes) :
    (uuid.filter (isDigit 16)).map Char.toLower=hexText bytes.1 ∧ UuidShape uuid := by
  obtain ⟨digits,hd,hu⟩ := h
  have hall : ∀ c∈digits, isDigit 16 c=true := by
    intro c hc
    rw [← isDigit_toLower]
    have hm : c.toLower∈hexText bytes.1 := by
      rw [← hd]
      exact List.mem_map_of_mem hc
    exact (hexText_digit _ _ hm).1
  have hfilter : uuid.filter (isDigit 16)=digits := by
    rcases hu with rfl|rfl
    · exact List.filter_eq_self.mpr hall
    · exact filter_hyphenated (by decide) hall
  rw [UuidShape,hfilter]
  exact ⟨hd,hu⟩

/-- The parser looks at the digits only. -/
theorem parseUuid_iff : parseUuid uuid=.ok bytes ↔
    (uuid.filter (isDigit 16)).map Char.toLower=hexText bytes.1 := by
  have hdigits : ∀ c∈uuid.filter (isDigit 16), isDigit 16 c=true :=
    fun c hc => (List.mem_filter.mp hc).2
  have hlower : (hexText bytes.1).map Char.toLower=hexText bytes.1 := by
    rw [List.map_congr_left (fun c hc => (hexText_digit _ c hc).2),List.map_id']
  have hlen : (hexText bytes.1).length=32 := by rw [hexText_length,bytes.2]
  have hbytes : (uuid.filter (isDigit 16)).length=32 →
      (hexBytes (uuid.filter (isDigit 16))=bytes.1 ↔
        (uuid.filter (isDigit 16)).map Char.toLower=hexText bytes.1) := by
    intro hl
    have hiff := hexBytes_eq_iff hdigits (fun c hc => (hexText_digit bytes.1 c hc).1)
      (hl.trans hlen.symm) (by rw [hl])
    rwa [hexBytes_hexText,hlower] at hiff
  constructor
  · intro h
    obtain ⟨hl,hb⟩ := parseUuid_ok h
    exact (hbytes hl).mp hb.symm
  · intro h
    have hl : (uuid.filter (isDigit 16)).length=32 := by
      rw [← hlen,← h,List.length_map]
    rw [parseUuid]
    simp only [dif_pos hl]
    congr 1
    exact Subtype.ext ((hbytes hl).mpr h)

end

/-- The parser takes exactly UUID text among the texts that have no 32 digits or nothing else
than digits and the four hyphens; both forms of a value are read as this value, and two such texts
of one value are the same up to case and hyphens. -/
theorem parseUuid_exact_iff (uuid : Text) :
    ((∀ bytes, parseUuid uuid=.ok bytes ↔ UuidText uuid bytes) ↔
      ((uuid.filter (isDigit 16)).length=32 → UuidShape uuid)) ∧
    (∀ bytes, UuidText uuid bytes → parseUuid uuid=.ok bytes) ∧
    ∀ uuid' bytes, UuidShape uuid → UuidShape uuid' → parseUuid uuid=.ok bytes →
      parseUuid uuid'=.ok bytes → bareText uuid=bareText uuid' := by
  have htext : ∀ bytes, UuidText uuid bytes → parseUuid uuid=.ok bytes :=
    fun bytes h => parseUuid_iff.mpr (uuidText_digits h).1
  refine ⟨?_,htext,?_⟩
  · constructor
    · intro h hl
      obtain ⟨bytes,hb⟩ := parseUuid_of_length hl
      exact (uuidText_digits ((h bytes).mp hb)).2
    · intro h bytes
      refine ⟨?_,htext bytes⟩
      intro hb
      exact ⟨_,parseUuid_iff.mp hb,h (parseUuid_ok hb).1⟩
  · intro uuid' bytes hs hs' hb hb'
    rw [bareText_shape hs,bareText_shape hs',parseUuid_iff.mp hb,parseUuid_iff.mp hb']

theorem parseUuid_exact_plain : (∃ bytes, parseUuid plainUuid=.ok bytes) ∧
    ∀ bytes, parseUuid plainUuid=.ok bytes ↔ UuidText plainUuid bytes := by
  have hl : (plainUuid.filter (isDigit 16)).length=32 := by decide +kernel
  exact ⟨parseUuid_of_length hl,(parseUuid_exact_iff plainUuid).1.mpr (fun _ => by decide +kernel)⟩

/-- A UUID with other characters around and between its digits. -/
def strayUuid : Text := "<550e8400 e29b 41d4 a716 446655440000>".toList

/-- The text is taken for the UUID whose digits it has, and so are two texts that differ in more
than case and hyphens. -/
theorem stray_uuid_accepted : ∃ bytes, parseUuid strayUuid=.ok bytes ∧
    parseUuid plainUuid=.ok bytes ∧ ¬UuidText strayUuid bytes ∧
    bareText strayUuid≠bareText plainUuid := by
  have hl : (strayUuid.filter (isDigit 16)).length=32 := by decide +kernel
  have hsame : parseUuid plainUuid=parseUuid strayUuid := by decide +kernel
  obtain ⟨bytes,hb⟩ := parseUuid_of_length hl
  refine ⟨bytes,hb,hsame.trans hb,?_,by decide +kernel⟩
  intro h
  exact absurd (uuidText_digits h).2 (by decide +kernel)

end Tobira.Vmess
