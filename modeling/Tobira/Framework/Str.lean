import Mathlib.Algebra.Group.Int.Defs
import Mathlib.Algebra.Group.Nat.Defs
import Tobira.Framework.Text

namespace Tobira.Framework

/-- `char::is_whitespace`: the characters with the property `White_Space`. -/
def isWhitespace (c : Char) : Bool :=
  ("\t\n\x0b\x0c\r \u0085\u00a0\u1680\u2028\u2029\u202f\u205f\u3000".toList).contains c ||
    (decide (0x2000 ≤ c.toNat) && decide (c.toNat ≤ 0x200A))

/-- `trim_end_matches` with a predicate. -/
def trimEnd (p : Char → Bool) (text : Text) : Text := (text.reverse.dropWhile p).reverse

/-- `str::trim`. -/
def trim (text : Text) : Text := trimEnd isWhitespace (text.dropWhile isWhitespace)

/-- The pieces of a text, each with the newline that ends it. -/
def splitInclusive : Text → List Text
  | [] => []
  | c::rest =>
    if c = '\n' then [c]::splitInclusive rest
    else match splitInclusive rest with
      | [] => [[c]]
      | piece::pieces => (c::piece)::pieces

/-- `strip_suffix` with a single character. -/
def stripSuffixChar (c : Char) (text : Text) : Option Text :=
  (readGivenChar c text.reverse).map List.reverse

/-- A newline, and a carriage return before it, end a line. -/
def stripNewline (piece : Text) : Text :=
  match stripSuffixChar '\n' piece with
  | none => piece
  | some line => (stripSuffixChar '\r' line).getD line

/-- `str::lines`. -/
def lines (text : Text) : List Text := (splitInclusive text).map stripNewline

example : lines "a\r\n\nb\r".toList=["a".toList,[],"b\r".toList] ∧ lines "a\n".toList=["a".toList] := by
  decide

/-- `split_once` with a single character. -/
def splitOnce (c : Char) (text : Text) : Option (Text×Text) :=
  match text.dropWhile (· ≠ c) with
  | [] => none
  | _::rest => some (text.takeWhile (· ≠ c),rest)

/-- `str::parse::<i64>`. -/
def parseI64 (text : Text) : Option Int :=
  let negative := decide (text.head? = some '-')
  let digits := if text.head? = some '-' ∨ text.head? = some '+' then text.tail else text
  if digits=[] ∨ digits.any (fun c => !isDigit 10 c) then none
  else
    let n : Int := digitsValue 10 digits
    let n := if negative then -n else n
    if -(2^63) ≤ n ∧ n<2^63 then some n else none

example : parseI64 "-12".toList=some (-12) ∧ parseI64 "+7".toList=some 7 ∧
    parseI64 "9223372036854775808".toList=none ∧ parseI64 "".toList=none := by decide

theorem trimEnd_eq {p : Char → Bool} {text : Text} (h : ∀ c∈text.getLast?, p c=false) :
    trimEnd p text=text := by
  rw [trimEnd]
  cases hr : text.reverse with
  | nil =>
    rw [List.reverse_eq_nil_iff.mp hr]
    rfl
  | cons c rest =>
    have hc : p c=false := by
      apply h c
      rw [← List.head?_reverse,hr]
      rfl
    rw [List.dropWhile_cons,hc,if_neg (by simp),← hr,List.reverse_reverse]

/-- Nothing is trimmed where neither end is white space. -/
theorem trim_eq {text : Text} (hh : ∀ c∈text.head?, isWhitespace c=false)
    (hl : ∀ c∈text.getLast?, isWhitespace c=false) : trim text=text := by
  have hd : text.dropWhile isWhitespace=text := by
    cases text with
    | nil => rfl
    | cons c text => rw [List.dropWhile_cons,hh c rfl,if_neg (by simp)]
  rw [trim,hd,trimEnd_eq hl]

theorem trimEnd_append {p : Char → Bool} {text after : Text} (ha : ∀ c∈after, p c=true)
    (h : ∀ c∈text.getLast?, p c=false) : trimEnd p (text++after)=text := by
  have hr : ∀ c∈after.reverse, p c=true := fun c hc => ha c (List.mem_reverse.mp hc)
  rw [trimEnd,List.reverse_append,List.dropWhile_append_of_pos hr]
  exact trimEnd_eq h

/-- White space around a text that has none at its ends. -/
theorem trim_surrounded {before text after : Text} (hb : ∀ c∈before, isWhitespace c=true)
    (ha : ∀ c∈after, isWhitespace c=true) (hne : text≠[])
    (hh : ∀ c∈text.head?, isWhitespace c=false) (hl : ∀ c∈text.getLast?, isWhitespace c=false) :
    trim (before++text++after)=text := by
  have hd : (text++after).dropWhile isWhitespace=text++after := by
    cases text with
    | nil => exact absurd rfl hne
    | cons c text => rw [List.cons_append,List.dropWhile_cons,hh c rfl,if_neg (by simp)]
  rw [trim,List.append_assoc,List.dropWhile_append_of_pos hb,hd,trimEnd_append ha hl]

theorem mem_dropWhile {p : Char → Bool} {c : Char} (hc : p c=false) {text : Text}
    (h : c∈text) : c∈text.dropWhile p := by
  rw [← List.takeWhile_append_dropWhile (p := p) (l := text)] at h
  rcases List.mem_append.mp h with h|h
  · rw [List.mem_takeWhile_imp h] at hc
    cases hc
  · exact h

theorem mem_trimEnd {p : Char → Bool} {c : Char} (hc : p c=false) {text : Text} (h : c∈text) :
    c∈trimEnd p text := by
  rw [trimEnd,List.mem_reverse]
  exact mem_dropWhile hc (List.mem_reverse.mpr h)

theorem mem_trim {c : Char} (hc : isWhitespace c=false) {text : Text} (h : c∈text) :
    c∈trim text :=
  mem_trimEnd hc (mem_dropWhile hc h)

theorem splitInclusive_line {line : Text} (h : '\n'∉line) (rest : Text) :
    splitInclusive (line ++ '\n'::rest)=(line++['\n'])::splitInclusive rest := by
  induction line with
  | nil => rfl
  | cons c line ih =>
    have hc : c ≠ '\n' := fun he => h (by simp [he])
    have ht := ih (fun hm => h (by simp [hm]))
    rw [List.cons_append,splitInclusive,if_neg hc,ht]
    rfl

theorem splitInclusive_last {line : Text} (hn : line≠[]) (h : '\n'∉line) :
    splitInclusive line=[line] := by
  induction line with
  | nil => exact absurd rfl hn
  | cons c line ih =>
    have hc : c ≠ '\n' := fun he => h (by simp [he])
    rw [splitInclusive,if_neg hc]
    cases line with
    | nil => rfl
    | cons d line => rw [ih (by simp) (fun hm => h (by simp [hm]))]

theorem stripSuffixChar_append (c : Char) (text : Text) :
    stripSuffixChar c (text++[c])=some text := by
  simp [stripSuffixChar,readGivenChar]

theorem stripSuffixChar_none {c : Char} {text : Text} (h : c∉text) :
    stripSuffixChar c text=none := by
  rw [stripSuffixChar]
  cases hr : text.reverse with
  | nil => rfl
  | cons d rest =>
    have hd : d≠c := by
      rintro rfl
      exact h (List.mem_reverse.mp (by simp [hr]))
    rw [readGivenChar,if_neg hd]
    rfl

/-- Lines that were joined are read one by one. -/
theorem lines_intercalate {ls : List Text}
    (h : ∀ line∈ls, line≠[] ∧ '\n'∉line ∧ '\r'∉line) : lines (['\n'].intercalate ls)=ls := by
  induction ls with
  | nil => rfl
  | cons line ls ih =>
    obtain ⟨hne,hn,hr⟩ := h line (by simp)
    have hrest := ih (fun l hl => h l (by simp [hl]))
    rw [lines] at hrest ⊢
    cases ls with
    | nil =>
      have hone : ['\n'].intercalate [line]=line := by simp [List.intercalate]
      rw [hone,splitInclusive_last hne hn,List.map_singleton,stripNewline,stripSuffixChar_none hn]
    | cons line' ls =>
      have hcons : ['\n'].intercalate (line::line'::ls)=
          line ++ '\n'::['\n'].intercalate (line'::ls) := by
        simp [List.intercalate]
      rw [hcons,splitInclusive_line hn,List.map_cons,hrest,stripNewline,stripSuffixChar_append]
      simp only [stripSuffixChar_none hr,Option.getD_none]

theorem splitOnce_append {c : Char} {before : Text} (h : c∉before) (rest : Text) :
    splitOnce c (before++c::rest)=some (before,rest) := by
  have hb : ∀ d∈before, decide (d≠c)=true := by
    intro d hd
    simp only [decide_eq_true_eq]
    rintro rfl
    exact h hd
  rw [splitOnce,List.dropWhile_append_of_pos hb,List.takeWhile_append_of_pos hb]
  simp

/-- A text is cut in one way at the first of a character, -/
theorem append_cons_inj {c : Char} {a b a' b' : Text} (ha : c∉a) (ha' : c∉a')
    (h : a++c::b=a'++c::b') : a=a' ∧ b=b' := by
  have hs := congrArg (splitOnce c) h
  rw [splitOnce_append ha,splitOnce_append ha',Option.some.injEq,Prod.mk.injEq] at hs
  exact hs

/-- and in one way at the last. -/
theorem append_cons_inj_last {c : Char} {a b a' b' : Text} (hb : c∉b) (hb' : c∉b')
    (h : a++c::b=a'++c::b') : a=a' ∧ b=b' := by
  have hr := congrArg List.reverse h
  simp only [List.reverse_append,List.reverse_cons,List.append_assoc,List.singleton_append] at hr
  obtain ⟨hx,hy⟩ := append_cons_inj (by rwa [List.mem_reverse]) (by rwa [List.mem_reverse]) hr
  exact ⟨List.reverse_injective hy,List.reverse_injective hx⟩

theorem parseI64_decimal {n : Nat} (h : n<2^63) : parseI64 (decimal n)=some (n : Int) := by
  have hne : decimal n≠[] := Nat.toDigits_ne_nil
  obtain ⟨c,rest,hd,hc⟩ := decimal_cons n
  have hall : ∀ d∈decimal n, d.isDigit=true := fun d hd => decimal_isDigit hd
  have hsign : ∀ d : Char, d.isDigit=false → (decimal n).head?≠some d := by
    intro d hn he
    rw [hd,List.head?_cons,Option.some.injEq] at he
    rw [← he,hc] at hn
    cases hn
  have hminus := hsign '-' (by decide)
  have hplus := hsign '+' (by decide)
  have hdigits : (decimal n).any (fun c => !isDigit 10 c)=false := by
    rw [List.any_eq_false]
    intro d hm
    rw [isDigit,toDigit_ten (hall d hm)]
    simp
  have hbound : -(2^63)≤(n : Int) ∧ (n : Int)<2^63 := by
    constructor <;> omega
  simp only [parseI64,hminus,hplus,or_self,if_false,hne,hdigits,Bool.false_eq_true,
    digitsValue_decimal,decide_false,if_pos hbound]

end Tobira.Framework
