import Mathlib.Data.List.Basic
import Mathlib.Data.List.TakeWhile

namespace Tobira.Framework

/-- A string as its characters. -/
abbrev Text := List Char

/-- `as_bytes`. -/
def utf8 (text : Text) : List UInt8 := text.flatMap String.utf8EncodeChar

/-- `String::from_utf8`. -/
def utf8Decode (bytes : List UInt8) : Option Text := bytes.toByteArray.utf8Decode?.map Array.toList

theorem utf8Decode_utf8 (text : Text) : utf8Decode (utf8 text)=some text := by
  have h : (utf8 text).toByteArray=text.utf8Encode := rfl
  rw [utf8Decode,h,List.utf8Decode?_utf8Encode]
  rfl

theorem utf8Decode_eq_some_iff {bytes : List UInt8} {text : Text} :
    utf8Decode bytes=some text ↔ bytes=utf8 text := by
  constructor
  · intro h
    obtain ⟨chars,hc,rfl⟩ := Option.map_eq_some_iff.mp h
    have hb := ByteArray.utf8Encode_get_utf8Decode? (b := bytes.toByteArray)
      (h := by rw [hc]; rfl)
    simp only [hc,Option.get_some] at hb
    have hl : (utf8 chars.toList).toByteArray=bytes.toByteArray := hb
    simpa using (congrArg (fun b => b.data.toList) hl).symm
  · rintro rfl
    exact utf8Decode_utf8 text

/-- What `Display` prints for an unsigned integer. -/
def decimal (n : Nat) : Text := Nat.toDigits 10 n

/-- `char::to_digit` for a radix up to 16. -/
def toDigit (radix : Nat) (c : Char) : Option Nat :=
  let value : Option Nat :=
    if '0' ≤ c ∧ c ≤ '9' then some (c.toNat - '0'.toNat)
    else if 'a' ≤ c ∧ c ≤ 'f' then some (c.toNat - 'a'.toNat+10)
    else if 'A' ≤ c ∧ c ≤ 'F' then some (c.toNat - 'A'.toNat+10)
    else none
  value.filter (· < radix)

def isDigit (radix : Nat) (c : Char) : Bool := (toDigit radix c).isSome

/-- The number a run of digits spells. -/
def digitsValue (radix : Nat) (digits : Text) : Nat :=
  digits.foldl (fun n c => radix*n+(toDigit radix c).getD 0) 0

/-- `strip_prefix` with a single character. -/
def readGivenChar (c : Char) : Text → Option Text
  | [] => none
  | d::text => if d=c then some text else none

/-- What stands after the last occurrence of `c`; `none` when there is none. -/
def afterLast (c : Char) : Text → Option Text
  | [] => none
  | d::text =>
    match afterLast c text with
    | some rest => some rest
    | none => if d=c then some text else none

theorem afterLast_none {c : Char} {text : Text} (h : c∉text) : afterLast c text=none := by
  induction text with
  | nil => rfl
  | cons d text ih =>
    have hd : d≠c := fun he => h (by simp [he])
    have ht : c∉text := fun he => h (by simp [he])
    rw [afterLast,ih ht]
    simp [hd]

/-- The last occurrence of `c` is the one with no further one behind it. -/
theorem afterLast_append {c : Char} (before : Text) {rest : Text} (h : c∉rest) :
    afterLast c (before++c::rest)=some rest := by
  induction before with
  | nil => simp [afterLast,afterLast_none h]
  | cons d before ih => rw [List.cons_append,afterLast,ih]

/-- Something in the first part stops the scan, so the second part is never seen. -/
theorem takeWhile_append_some {α : Type*} {p : α → Bool} {a : List α} (b : List α)
    (h : ∃ x∈a, p x=false) : (a++b).takeWhile p=a.takeWhile p := by
  rw [List.takeWhile_append,if_neg]
  intro hl
  have hall := List.takeWhile_eq_self_iff.mp ((List.takeWhile_prefix p).eq_of_length hl)
  obtain ⟨x,hx,hp⟩ := h
  rw [hall x hx] at hp
  cases hp

theorem isDigit_ascii {c : Char} (h : isDigit 16 c=true) : c.toNat<128 := by
  have hle : ∀ {d : Char}, c ≤ d → c.toNat≤d.toNat := fun hc => hc
  simp only [isDigit,toDigit] at h
  split_ifs at h with h0 ha hA
  · exact Nat.lt_of_le_of_lt (hle h0.2) (by decide)
  · exact Nat.lt_of_le_of_lt (hle ha.2) (by decide)
  · exact Nat.lt_of_le_of_lt (hle hA.2) (by decide)
  · cases h

/-- The characters of a text are looked at one by one; characters are finite, but deciding over all
of them would not end. -/
theorem all_chars {p : Char → Prop} [DecidablePred p] {text : Text}
    (h : text.all (fun c => decide (p c))=true) : ∀ c∈text, p c := by
  intro c hc
  exact of_decide_eq_true (List.all_eq_true.mp h c hc)

/-- What holds of every ASCII character is decided code point by code point. -/
theorem of_ascii {p : Char → Prop} {c : Char} (hc : c.toNat<128)
    (h : ∀ n<128, p (Char.ofNat n)) : p c := by
  have hn := h c.toNat hc
  rwa [Char.ofNat_toNat] at hn

theorem toDigit_ten {c : Char} (h : c.isDigit=true) :
    toDigit 10 c=some (c.toNat - '0'.toNat) := by
  simp only [Char.isDigit,Bool.and_eq_true,decide_eq_true_eq] at h
  have hc : '0' ≤ c ∧ c ≤ '9' := h
  have hn : c.toNat≤57 := h.2
  rw [toDigit]
  simp only [if_pos hc]
  rw [Option.filter_some,if_pos]
  simp only [decide_eq_true_eq,Char.reduceToNat]
  omega

theorem decimal_isDigit {n : Nat} {c : Char} (h : c∈decimal n) : c.isDigit=true :=
  Nat.isDigit_of_mem_toDigits (by decide) (by decide) h

theorem decimal_cons (n : Nat) : ∃ c text, decimal n=c::text ∧ c.isDigit=true := by
  have hne : decimal n≠[] := Nat.toDigits_ne_nil
  obtain ⟨c,text,hd⟩ := List.exists_cons_of_ne_nil hne
  have hc : c∈decimal n := by simp [hd]
  exact ⟨c,text,hd,decimal_isDigit hc⟩

theorem digitsValue_decimal (n : Nat) : digitsValue 10 (decimal n)=n := by
  have hfold : ∀ (text : Text) (k : Nat), (∀ c∈text, c.isDigit=true) →
      text.foldl (fun n c => 10*n+(toDigit 10 c).getD 0) k=Nat.ofDigitChars 10 text k := by
    intro text
    induction text with
    | nil => simp
    | cons c text ih =>
      intro k h
      rw [List.foldl_cons,Nat.ofDigitChars_cons,ih _ (fun d hd => h d (by simp [hd])),
        toDigit_ten (h c (by simp))]
      rfl
  rw [digitsValue,hfold _ _ (fun c hc => decimal_isDigit hc)]
  exact Nat.ofDigitChars_ten_toDigits

end Tobira.Framework
