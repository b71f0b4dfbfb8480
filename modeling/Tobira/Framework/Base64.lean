import Tobira.Framework.Encodings
import Tobira.Framework.Str

namespace Tobira.Framework.Base64

def value (urlSafe : Bool) (c : Char) : Option Nat := (alphabet urlSafe).idxOf? c

/-- Four values to three bytes; the bits that a short last group leaves over are zero. -/
def decodeGroups : List Nat → Option (List UInt8)
  | a::b::c::d::rest =>
    let n := a*262144+b*4096+c*64+d
    (decodeGroups rest).map
      ([UInt8.ofNat (n/65536),UInt8.ofNat (n/256%256),UInt8.ofNat (n%256)]++·)
  | [a,b,c] =>
    let n := a*4096+b*64+c
    if n%4=0 then some [UInt8.ofNat (n/1024),UInt8.ofNat (n/4%256)] else none
  | [a,b] =>
    let n := a*64+b
    if n%16=0 then some [UInt8.ofNat (n/16)] else none
  | [_] => none
  | [] => some []

/-- The padding after `n` symbols. -/
def padding (pad : Bool) (n : Nat) : Text := if pad then List.replicate ((4-n%4)%4) '=' else []

/-- With `pad` the padding has to be there in full, without it there may be none. -/
def decode (urlSafe pad : Bool) (text : Text) : Option (List UInt8) :=
  let symbols := text.takeWhile (· ≠ '=')
  if text.dropWhile (· ≠ '=')=padding pad symbols.length then
    (symbols.mapM (value urlSafe)).bind decodeGroups
  else none

example : decode false true "TWFueSE=".toList=some (utf8 "Many!".toList) ∧
    decode false true "TWFueSE".toList=none ∧ decode false false "TWFueSF".toList=none := by decide

/-- The six-bit groups of a byte sequence. -/
def sextets : List UInt8 → List Nat
  | a::b::c::rest =>
    let n := a.toNat*65536+b.toNat*256+c.toNat
    [n/262144,n/4096%64,n/64%64,n%64]++sextets rest
  | [a,b] =>
    let n := a.toNat*1024+b.toNat*4
    [n/4096,n/64%64,n%64]
  | [a] => [a.toNat*16/64,a.toNat*16%64]
  | [] => []

theorem sextets_lt (bytes : List UInt8) : ∀ n∈sextets bytes, n<64 := by
  induction bytes using sextets.induct with
  | case1 a b c rest ih =>
    have ha := a.toNat_lt
    have hb := b.toNat_lt
    have hc := c.toNat_lt
    intro m hm
    simp only [sextets,List.cons_append,List.nil_append,List.mem_cons] at hm
    rcases hm with rfl|rfl|rfl|rfl|hm
    · omega
    · omega
    · omega
    · omega
    · exact ih m hm
  | case2 a b =>
    have ha := a.toNat_lt
    have hb := b.toNat_lt
    intro m hm
    simp only [sextets,List.mem_cons,List.not_mem_nil,or_false] at hm
    omega
  | case3 a =>
    have ha := a.toNat_lt
    intro m hm
    simp only [sextets,List.mem_cons,List.not_mem_nil,or_false] at hm
    omega
  | case4 => simp [sextets]

theorem ofNat_eq {n : Nat} {b : UInt8} (h : n=b.toNat) : UInt8.ofNat n=b := by
  rw [h]
  exact UInt8.ofNat_toNat

theorem decodeGroups_sextets (bytes : List UInt8) : decodeGroups (sextets bytes)=some bytes := by
  induction bytes using sextets.induct with
  | case1 a b c rest ih =>
    have ha := a.toNat_lt
    have hb := b.toNat_lt
    have hc := c.toNat_lt
    simp only [sextets,List.cons_append,List.nil_append,decodeGroups,ih,Option.map_some]
    rw [ofNat_eq (b := a),ofNat_eq (b := b),ofNat_eq (b := c)]
    all_goals omega
  | case2 a b =>
    have ha := a.toNat_lt
    have hb := b.toNat_lt
    simp only [sextets,decodeGroups]
    rw [if_pos (by omega),ofNat_eq (b := a),ofNat_eq (b := b)]
    all_goals omega
  | case3 a =>
    have ha := a.toNat_lt
    simp only [sextets,decodeGroups]
    rw [if_pos (by omega),ofNat_eq (b := a)]
    omega
  | case4 => rfl

theorem encode_eq (urlSafe pad : Bool) (bytes : List UInt8) : encode urlSafe pad bytes=
    (sextets bytes).map (symbol urlSafe)++padding pad (sextets bytes).length := by
  induction bytes using sextets.induct with
  | case1 a b c rest ih =>
    have hpad : padding pad (4+(sextets rest).length)=padding pad (sextets rest).length := by
      simp only [padding,Nat.add_mod_left]
    simp only [encode,sextets,ih,List.map_append,List.length_append,List.append_assoc]
    rw [← hpad]
    rfl
  | case2 a b => cases pad <;> rfl
  | case3 a => cases pad <;> rfl
  | case4 => cases pad <;> rfl

theorem symbol_getElem (urlSafe : Bool) {n : Nat} (h : n<64) :
    (alphabet urlSafe)[n]?=some (symbol urlSafe n) := by
  have hlen : n<(alphabet urlSafe).length := by
    cases urlSafe <;> exact h
  rw [symbol,List.getD_eq_getElem?_getD,List.getElem?_eq_getElem hlen]
  rfl

theorem symbol_mem (urlSafe : Bool) {n : Nat} (h : n<64) : symbol urlSafe n∈alphabet urlSafe :=
  List.mem_of_getElem? (symbol_getElem urlSafe h)

/-- No symbol is the padding character. -/
theorem symbol_ne_pad (urlSafe : Bool) {n : Nat} (h : n<64) : symbol urlSafe n ≠ '=' := by
  have hall : ∀ u : Bool, '='∉alphabet u := by decide +kernel
  intro he
  exact hall urlSafe (he ▸ symbol_mem urlSafe h)

/-- The symbols that two alphabets share stand for the same values. -/
theorem value_cases (urlSafe urlSafe' : Bool) {n : Nat} (h : n<64) :
    value urlSafe' (symbol urlSafe n)=some n ∨
      (urlSafe≠urlSafe' ∧ value urlSafe' (symbol urlSafe n)=none) := by
  -- The alphabets are walked together with their indices, which the kernel does fastest.
  have hall : ∀ u u' : Bool, (alphabet u).zipIdx.all (fun p =>
      decide (value u' p.1=some p.2 ∨ (u≠u' ∧ value u' p.1=none)))=true := by decide +kernel
  have hm : (symbol urlSafe n,n)∈(alphabet urlSafe).zipIdx :=
    List.mem_zipIdx_iff_getElem?.mpr (symbol_getElem urlSafe h)
  exact of_decide_eq_true (List.all_eq_true.mp (hall urlSafe urlSafe') _ hm)

theorem value_symbol (urlSafe urlSafe' : Bool) {n m : Nat} (h : n<64)
    (hv : value urlSafe' (symbol urlSafe n)=some m) : m=n := by
  rcases value_cases urlSafe urlSafe' h with hn|⟨-,hn⟩
  · rw [hn] at hv
    exact (Option.some.inj hv).symm
  · rw [hn] at hv
    cases hv

theorem value_symbol_self (urlSafe : Bool) {n : Nat} (h : n<64) :
    value urlSafe (symbol urlSafe n)=some n :=
  (value_cases urlSafe urlSafe h).resolve_right (fun hn => hn.1 rfl)

theorem values_symbols (urlSafe : Bool) {ns : List Nat} (h : ∀ n∈ns, n<64) :
    (ns.map (symbol urlSafe)).mapM (value urlSafe)=some ns := by
  induction ns with
  | nil => rfl
  | cons n ns ih =>
    have hn := value_symbol_self urlSafe (h n (by simp))
    have ht := ih (fun m hm => h m (by simp [hm]))
    simp only [List.map_cons,List.mapM_cons,hn,ht,Option.pure_def,Option.bind_eq_bind,
      Option.bind_some]

theorem values_symbols_eq (urlSafe urlSafe' : Bool) {ns ms : List Nat} (h : ∀ n∈ns, n<64)
    (hm : (ns.map (symbol urlSafe)).mapM (value urlSafe')=some ms) : ms=ns := by
  induction ns generalizing ms with
  | nil =>
    cases hm
    rfl
  | cons n ns ih =>
    simp only [List.map_cons,List.mapM_cons,Option.pure_def,Option.bind_eq_bind] at hm
    obtain ⟨m,hv,hm⟩ := Option.bind_eq_some_iff.mp hm
    obtain ⟨ms',hms,hm⟩ := Option.bind_eq_some_iff.mp hm
    cases hm
    rw [value_symbol urlSafe urlSafe' (h n (by simp)) hv,ih (fun k hk => h k (by simp [hk])) hms]

/-- Scanning for the padding character splits an encoded text where it was put together. -/
theorem encode_scan (urlSafe pad : Bool) (bytes : List UInt8) :
    (encode urlSafe pad bytes).takeWhile (· ≠ '=')=(sextets bytes).map (symbol urlSafe) ∧
    (encode urlSafe pad bytes).dropWhile (· ≠ '=')=padding pad (sextets bytes).length := by
  have hsym : ∀ c∈(sextets bytes).map (symbol urlSafe), decide (c ≠ '=')=true := by
    intro c hc
    obtain ⟨n,hn,rfl⟩ := List.mem_map.mp hc
    simpa using symbol_ne_pad urlSafe (sextets_lt bytes n hn)
  have hpad : ∀ n, (padding pad n).takeWhile (· ≠ '=')=[] ∧
      (padding pad n).dropWhile (· ≠ '=')=padding pad n := by
    intro n
    rw [padding]
    cases pad with
    | false => simp
    | true => cases (4-n%4)%4 <;> simp [List.replicate_succ]
  rw [encode_eq,List.takeWhile_append_of_pos hsym,List.dropWhile_append_of_pos hsym]
  simp only [hpad,List.append_nil,and_self]

theorem decode_encode (urlSafe pad : Bool) (bytes : List UInt8) :
    decode urlSafe pad (encode urlSafe pad bytes)=some bytes := by
  obtain ⟨ht,hd⟩ := encode_scan urlSafe pad bytes
  rw [decode,ht,hd,List.length_map]
  simp only [if_true,values_symbols urlSafe (sextets_lt bytes),Option.bind_some,
    decodeGroups_sextets]

/-- Whatever engine accepts the symbols of a byte sequence reads these bytes. -/
theorem decode_symbols_eq {urlSafe urlSafe' pad' : Bool} {bytes bytes' : List UInt8} {text : Text}
    (ht : text.takeWhile (· ≠ '=')=(sextets bytes).map (symbol urlSafe))
    (h : decode urlSafe' pad' text=some bytes') : bytes'=bytes := by
  simp only [decode] at h
  split_ifs at h
  obtain ⟨ns,hn,h⟩ := Option.bind_eq_some_iff.mp h
  rw [ht] at hn
  rw [values_symbols_eq urlSafe urlSafe' (sextets_lt bytes) hn,decodeGroups_sextets] at h
  exact (Option.some.inj h).symm

theorem encode_unpadded (urlSafe : Bool) (bytes : List UInt8) :
    encode urlSafe false bytes=(sextets bytes).map (symbol urlSafe) := by
  rw [encode_eq]
  exact List.append_nil _

/-- Any number of padding characters after the symbols. -/
theorem takeWhile_padded (urlSafe : Bool) (bytes : List UInt8) (k : Nat) :
    (encode urlSafe false bytes++List.replicate k '=').takeWhile (· ≠ '=')=
      (sextets bytes).map (symbol urlSafe) := by
  have hpad : (List.replicate k '=').takeWhile (· ≠ '=')=[] := by
    cases k <;> simp [List.replicate_succ]
  have hall : ∀ c∈(sextets bytes).map (symbol urlSafe), decide (c ≠ '=')=true := by
    intro c hc
    obtain ⟨n,hn,rfl⟩ := List.mem_map.mp hc
    simpa using symbol_ne_pad urlSafe (sextets_lt bytes n hn)
  rw [encode_unpadded,List.takeWhile_append_of_pos hall,hpad,List.append_nil]

theorem encode_padded (urlSafe pad : Bool) (bytes : List UInt8) :
    ∃ k, encode urlSafe pad bytes=encode urlSafe false bytes++List.replicate k '=' := by
  rw [encode_unpadded,encode_eq]
  cases pad with
  | false => exact ⟨0,rfl⟩
  | true => exact ⟨_,rfl⟩

/-- A character that is no symbol and no padding is in nothing an engine accepts. -/
theorem decode_none {urlSafe pad : Bool} {c : Char} (hc : c ≠ '=') (ha : c∉alphabet urlSafe)
    {text : Text} (h : c∈text) : decode urlSafe pad text=none := by
  simp only [decode]
  split_ifs with hpad
  · rw [← List.takeWhile_append_dropWhile (p := (· ≠ '=')) (l := text)] at h
    rcases List.mem_append.mp h with h|h
    · have hv : value urlSafe c=none := List.idxOf?_eq_none_iff.mpr ha
      have hm : (text.takeWhile (· ≠ '=')).mapM (value urlSafe)=none := by
        generalize text.takeWhile (· ≠ '=')=symbols at h
        induction symbols with
        | nil => cases h
        | cons d symbols ih =>
          rw [List.mapM_cons]
          rcases List.mem_cons.mp h with rfl|h
          · rw [hv]
            rfl
          · rw [ih h]
            cases value urlSafe d <;> rfl
      rw [hm]
      rfl
    · rw [hpad,padding] at h
      split_ifs at h
      · exact absurd (List.eq_of_mem_replicate h) hc
      · cases h
  · rfl

/-- An encoded text has symbols and padding only. -/
theorem encode_chars {urlSafe pad : Bool} {bytes : List UInt8} :
    ∀ c∈encode urlSafe pad bytes, c∈alphabet urlSafe ∨ c = '=' := by
  intro c hc
  rw [encode_eq] at hc
  rcases List.mem_append.mp hc with hc|hc
  · obtain ⟨n,hn,rfl⟩ := List.mem_map.mp hc
    exact Or.inl (symbol_mem urlSafe (sextets_lt bytes n hn))
  · rw [padding] at hc
    split_ifs at hc
    · exact Or.inr (List.eq_of_mem_replicate hc)
    · cases hc

/-- What holds of the symbols and the padding holds of every encoded text. -/
theorem encode_forall {p : Char → Prop} [DecidablePred p] {urlSafe : Bool}
    (h : (alphabet urlSafe++['=']).all (fun c => decide (p c))=true) {pad : Bool}
    {bytes : List UInt8} : ∀ c∈encode urlSafe pad bytes, p c := by
  intro c hc
  apply all_chars h
  rcases encode_chars c hc with hc|rfl
  · exact List.mem_append_left _ hc
  · simp

/-- Without its padding a text is what the unpadded engine writes. -/
theorem trimEnd_padded (urlSafe : Bool) (bytes : List UInt8) (k : Nat) :
    trimEnd (· = '=') (encode urlSafe false bytes++List.replicate k '=')=
      encode urlSafe false bytes := by
  apply trimEnd_append
  · intro c hc
    simpa using List.eq_of_mem_replicate hc
  · intro c hc
    rw [encode_unpadded] at hc
    obtain ⟨n,hn,rfl⟩ := List.mem_map.mp (List.mem_of_getLast? hc)
    simpa using symbol_ne_pad urlSafe (sextets_lt bytes n hn)

/-- A character with a value is the symbol of it. -/
theorem symbol_value {urlSafe : Bool} {c : Char} {n : Nat} (h : value urlSafe c=some n) :
    n<64 ∧ symbol urlSafe n=c := by
  obtain ⟨hlt,hc,-⟩ := List.idxOf?_eq_some_iff.mp h
  refine ⟨?_,?_⟩
  · cases urlSafe <;> exact hlt
  · rw [symbol,List.getD_eq_getElem?_getD,List.getElem?_eq_getElem hlt]
    exact hc

theorem symbols_values {urlSafe : Bool} {symbols : Text} {ns : List Nat}
    (h : symbols.mapM (value urlSafe)=some ns) :
    (∀ n∈ns, n<64) ∧ ns.map (symbol urlSafe)=symbols := by
  induction symbols generalizing ns with
  | nil =>
    cases h
    exact ⟨fun n hn => (by cases hn),rfl⟩
  | cons c symbols ih =>
    simp only [List.mapM_cons,Option.pure_def,Option.bind_eq_bind] at h
    obtain ⟨n,hv,h⟩ := Option.bind_eq_some_iff.mp h
    obtain ⟨ms,hm,h⟩ := Option.bind_eq_some_iff.mp h
    cases h
    obtain ⟨hn,hc⟩ := symbol_value hv
    obtain ⟨hlt,hs⟩ := ih hm
    refine ⟨?_,by rw [List.map_cons,hc,hs]⟩
    intro k hk
    rcases List.mem_cons.mp hk with rfl|hk
    · exact hn
    · exact hlt k hk

/-- The bits of the groups are those of the bytes, and nothing else. -/
theorem sextets_decodeGroups {ns : List Nat} {bytes : List UInt8} (hlt : ∀ n∈ns, n<64)
    (h : decodeGroups ns=some bytes) : sextets bytes=ns := by
  induction ns using decodeGroups.induct generalizing bytes with
  | case1 a b c d rest ih =>
    simp only [decodeGroups] at h
    obtain ⟨more,hm,rfl⟩ := Option.map_eq_some_iff.mp h
    have ha := hlt a (by simp)
    have hb := hlt b (by simp)
    have hc := hlt c (by simp)
    have hd := hlt d (by simp)
    have hrest := ih (fun k hk => hlt k (by simp [hk])) hm
    simp only [List.cons_append,List.nil_append,sextets,hrest,List.cons.injEq,and_true,
      UInt8.toNat_ofNat']
    omega
  | case2 a b c n =>
    rename_i hn
    rw [decodeGroups] at h
    cases (if_pos hn).symm.trans h
    have ha := hlt a (by simp)
    have hb := hlt b (by simp)
    have hc := hlt c (by simp)
    simp only [sextets,List.cons.injEq,and_true,UInt8.toNat_ofNat']
    omega
  | case3 a b c n =>
    rename_i hn
    rw [decodeGroups] at h
    cases (if_neg hn).symm.trans h
  | case4 a b n =>
    rename_i hn
    rw [decodeGroups] at h
    cases (if_pos hn).symm.trans h
    have ha := hlt a (by simp)
    have hb := hlt b (by simp)
    simp only [sextets,List.cons.injEq,and_true,UInt8.toNat_ofNat']
    omega
  | case5 a b n =>
    rename_i hn
    rw [decodeGroups] at h
    cases (if_neg hn).symm.trans h
  | case6 a => cases h
  | case7 =>
    cases h
    rfl

/-- An engine accepts a byte sequence in one spelling only, its own. -/
theorem decode_eq_some_iff {urlSafe pad : Bool} {text : Text} {bytes : List UInt8} :
    decode urlSafe pad text=some bytes ↔ text=encode urlSafe pad bytes := by
  constructor
  · intro h
    simp only [decode] at h
    split_ifs at h with hpad
    obtain ⟨ns,hm,hg⟩ := Option.bind_eq_some_iff.mp h
    obtain ⟨hlt,hs⟩ := symbols_values hm
    have hn := sextets_decodeGroups hlt hg
    rw [encode_eq,hn,hs,← List.length_map (symbol urlSafe),hs,← hpad,
      List.takeWhile_append_dropWhile]
  · rintro rfl
    exact decode_encode urlSafe pad bytes

/-- A strict engine: it reads what the encoder of its alphabet and padding writes, and nothing
else. -/
def Strict (urlSafe pad : Bool) (engine : Text → Option (List UInt8)) : Prop :=
  ∀ text bytes, engine text=some bytes ↔ text=encode urlSafe pad bytes

theorem decode_strict (urlSafe pad : Bool) : Strict urlSafe pad (decode urlSafe pad) :=
  fun _ _ => decode_eq_some_iff

/-- There is one such engine. -/
theorem Strict.eq_decode {urlSafe pad : Bool} {engine : Text → Option (List UInt8)}
    (h : Strict urlSafe pad engine) : engine=decode urlSafe pad := by
  funext text
  apply Option.ext
  intro bytes
  rw [h text bytes,decode_eq_some_iff]

end Tobira.Framework.Base64
