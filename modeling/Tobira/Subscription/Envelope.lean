import Tobira.Subscription.Reader

namespace Tobira.Subscription

open Tobira.Framework

/-- A text with a colon is nothing that an engine reads. -/
theorem tryBase64Decode_colon {crates : ParserCrates} (he : crates.Engines) {text : Text}
    (h : ':'∈text) : tryBase64Decode crates text=none := by
  have halphabet : ∀ urlSafe, ':'∉Base64.alphabet urlSafe := by decide +kernel
  have hne : ':' ≠ '=' := by decide
  have hstrip : ':'∈trimEnd (· = '=') text := mem_trimEnd (by decide) h
  have hnone : ∀ urlSafe pad, Base64.decode urlSafe pad text=none :=
    fun urlSafe pad => Base64.decode_none hne (halphabet urlSafe) h
  have hnone' : ∀ urlSafe pad, Base64.decode urlSafe pad (trimEnd (· = '=') text)=none :=
    fun urlSafe pad => Base64.decode_none hne (halphabet urlSafe) hstrip
  simp only [tryBase64Decode,he.eq_decode,hnone,hnone',Option.bind_none,Option.or_none]

theorem parseSubscription_colon {crates : ParserCrates} (he : crates.Engines) {text : Text}
    (h : ':'∈text) :
    parseSubscription crates text=(lines text).filterMap (parseLine crates) := by
  rw [parseSubscription,tryBase64Decode_colon he (mem_trim (by decide) h)]
  rfl

/-- The symbols of an encoded text and the padding are not white space. -/
theorem encode_not_whitespace {urlSafe : Bool} {bytes : List UInt8} {k : Nat} :
    ∀ c∈Base64.encode urlSafe false bytes++List.replicate k '=', isWhitespace c=false := by
  intro c hc
  rcases List.mem_append.mp hc with hc|hc
  · have hall : ∀ u, (Base64.alphabet u++['=']).all (fun c => decide (isWhitespace c=false))=
        true := by decide +kernel
    exact Base64.encode_forall (p := fun c => isWhitespace c=false) (hall urlSafe) c hc
  · rw [List.eq_of_mem_replicate hc]
    decide

theorem encode_ne_nil {urlSafe : Bool} {bytes : List UInt8} (h : bytes≠[]) :
    Base64.encode urlSafe false bytes≠[] := by
  intro he
  have hd := Base64.decode_encode urlSafe false bytes
  rw [he] at hd
  exact h (Option.some.inj hd).symm

theorem parseSubscription_padded {crates : ParserCrates} (he : crates.Engines)
    {text before after : Text} (h : text≠[]) (hb : ∀ c∈before, isWhitespace c=true) (ha : ∀ c∈after, isWhitespace c=true)
    (urlSafe : Bool) (k : Nat) :
    parseSubscription crates (before++
      (Base64.encode urlSafe false (utf8 text)++List.replicate k '=')++after)=
      (lines text).filterMap (parseLine crates) := by
  have hu : utf8 text≠[] := by
    intro hu
    have hd := utf8Decode_utf8 text
    rw [hu] at hd
    exact h (Option.some.inj hd).symm
  have hne : Base64.encode urlSafe false (utf8 text)++List.replicate k '='≠[] :=
    List.append_ne_nil_of_left_ne_nil (encode_ne_nil hu) _
  have htrim := trim_surrounded hb ha hne
    (fun c hc => encode_not_whitespace c (List.mem_of_head? hc))
    (fun c hc => encode_not_whitespace c (List.mem_of_getLast? hc))
  rw [parseSubscription,htrim,tryBase64Decode_padded he]
  rfl

/-- A subscription may come as it is or in any Base64 spelling, its padding right or wrong. -/
theorem envelope_transparent (crates : ParserCrates) (he : crates.Engines)
    (text before after : Text) (h : ':'∈text) (hb : ∀ c∈before, isWhitespace c=true) (ha : ∀ c∈after, isWhitespace c=true) :
    parseSubscription crates text=(lines text).filterMap (parseLine crates) ∧
    ∀ urlSafe pad,
      parseSubscription crates (before++Base64.encode urlSafe pad (utf8 text)++after)=
        parseSubscription crates text ∧
      ∀ k, parseSubscription crates
        (before++(trimEnd (· = '=') (Base64.encode urlSafe pad (utf8 text))++
          List.replicate k '=')++after)=
        parseSubscription crates text := by
  have hplain := parseSubscription_colon he h
  have hne : text≠[] := List.ne_nil_of_mem h
  refine ⟨hplain,?_⟩
  intro urlSafe pad
  obtain ⟨n,hn⟩ := Base64.encode_padded urlSafe pad (utf8 text)
  constructor
  · rw [hn,hplain]
    exact parseSubscription_padded he hne hb ha urlSafe n
  · intro k
    rw [hn,Base64.trimEnd_padded,hplain]
    exact parseSubscription_padded he hne hb ha urlSafe k

/-- One `=` where two are required, and a line break after it. -/
theorem envelope_transparent_short :
    parseSubscription plainParser (trimEnd (· = '=')
      (Base64.encode false true (utf8 "vmess://x:1".toList))++List.replicate 1 '='++"\n".toList)=
      parseSubscription plainParser "vmess://x:1".toList := by
  have hws : ∀ c∈"\n".toList, isWhitespace c=true := all_chars (by decide)
  exact ((envelope_transparent plainParser plainParser_engines "vmess://x:1".toList [] "\n".toList (by decide)
    (by simp) hws).2 false true).2 1

end Tobira.Subscription
