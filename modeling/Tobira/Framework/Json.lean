import Mathlib.Algebra.Group.Int.Defs
import Mathlib.Algebra.Group.Nat.Defs
import Tobira.Framework.Encodings

namespace Tobira.Framework.Json

def renderInt (n : Int) : Text := if n<0 then '-'::decimal n.natAbs else decimal n.natAbs

mutual

/-- The compact form of a value. -/
def render : Value → Text
  | .null => "null".toList
  | .bool b => if b then "true".toList else "false".toList
  | .int n => renderInt n
  | .float => "0.0".toList
  | .str s => quote s
  | .arr values => '['::renderValues values
  | .obj members => '\x7b'::renderMembers members

/-- The rest of an array, its closing bracket included. -/
def renderValues : List Value → Text
  | [] => [']']
  | [v] => render v++[']']
  | v::w::values => render v ++ ','::renderValues (w::values)

def renderMembers : List (Text×Value) → Text
  | [] => ['\x7d']
  | [(k,v)] => quote k ++ ':'::(render v++['\x7d'])
  | (k,v)::m::members => quote k ++ ':'::(render v ++ ','::renderMembers (m::members))

end

/-- The character that a letter stands for after a backslash. -/
def unescape (c : Char) : Option Char :=
  if c = '"' ∨ c = '\\' ∨ c = '/' then some c
  else if c = 'n' then some '\n'
  else if c = 'r' then some '\r'
  else if c = 't' then some '\t'
  else if c = 'b' then some '\x08'
  else if c = 'f' then some '\x0c'
  else none

/-- A string up to its closing quote. -/
def readString : Text → Option (Text×Text)
  | [] => none
  | '"'::rest => some ([],rest)
  | '\\':: 'u'::a::b::c::d::rest =>
    (readString rest).map (fun p => (Char.ofNat (digitsValue 16 [a,b,c,d])::p.1,p.2))
  | '\\'::e::rest => (unescape e).bind (fun c => (readString rest).map (fun p => (c::p.1,p.2)))
  | c::rest => (readString rest).map (fun p => (c::p.1,p.2))

def readNat (text : Text) : Option (Nat×Text) :=
  let digits := text.takeWhile Char.isDigit
  if digits=[] then none else some (digitsValue 10 digits,text.dropWhile Char.isDigit)

def readNumber (text : Text) : Option (Value×Text) :=
  match text with
  | '-'::rest => (readNat rest).map (fun p => (.int (-p.1),p.2))
  | _ => (readNat text).map (fun p => (.int p.1,p.2))

mutual

/-- Reads what `render` writes; `fuel` bounds the nesting. -/
def readValue : Nat → Text → Option (Value×Text)
  | 0,_ => none
  | fuel+1,text =>
    match text with
    | '"'::rest => (readString rest).map (fun p => (.str p.1,p.2))
    | '[':: ']'::rest => some (.arr [],rest)
    | '['::rest => (readValues fuel rest).map (fun p => (.arr p.1,p.2))
    | '\x7b':: '\x7d'::rest => some (.obj [],rest)
    | '\x7b'::rest => (readMembers fuel rest).map (fun p => (.obj p.1,p.2))
    | 'n':: 'u':: 'l':: 'l'::rest => some (.null,rest)
    | 't':: 'r':: 'u':: 'e'::rest => some (.bool true,rest)
    | 'f':: 'a':: 'l':: 's':: 'e'::rest => some (.bool false,rest)
    | text => readNumber text

def readValues : Nat → Text → Option (List Value×Text)
  | 0,_ => none
  | fuel+1,text =>
    (readValue fuel text).bind (fun p =>
      match p.2 with
      | ']'::rest => some ([p.1],rest)
      | ','::rest => (readValues fuel rest).map (fun q => (p.1::q.1,q.2))
      | _ => none)

def readMembers : Nat → Text → Option (List (Text×Value)×Text)
  | 0,_ => none
  | fuel+1,text =>
    match text with
    | '"'::text =>
      (readString text).bind (fun k =>
        match k.2 with
        | ':'::text =>
          (readValue fuel text).bind (fun p =>
            match p.2 with
            | '\x7d'::rest => some ([(k.1,p.1)],rest)
            | ','::rest => (readMembers fuel rest).map (fun q => ((k.1,p.1)::q.1,q.2))
            | _ => none)
        | _ => none)
    | _ => none

end

def read (text : Text) : Option Value :=
  (readValue (text.length+1) text).bind (fun p => if p.2=[] then some p.1 else none)

mutual

/-- Values without floats, their integers within 64 bits. -/
def Plain : Value → Prop
  | .null => True
  | .bool _ => True
  | .int n => -(2^63) ≤ n ∧ n<2^64
  | .float => False
  | .str _ => True
  | .arr values => PlainValues values
  | .obj members => PlainMembers members

def PlainValues : List Value → Prop
  | [] => True
  | v::values => Plain v ∧ PlainValues values

def PlainMembers : List (Text×Value) → Prop
  | [] => True
  | m::members => Plain m.2 ∧ PlainMembers members

end

mutual

/-- How deep arrays and objects are nested. -/
def depth : Value → Nat
  | .arr values => depthValues values+1
  | .obj members => depthMembers members+1
  | _ => 0

def depthValues : List Value → Nat
  | [] => 0
  | v::values => max (depth v) (depthValues values)

def depthMembers : List (Text×Value) → Nat
  | [] => 0
  | m::members => max (depth m.2) (depthMembers members)

end

theorem depthValues_le {n : Nat} {values : List Value} (h : ∀ v∈values, depth v ≤ n) :
    depthValues values ≤ n := by
  induction values with
  | nil => exact Nat.zero_le n
  | cons v values ih =>
    rw [depthValues]
    exact max_le (h v (by simp)) (ih (fun w hw => h w (by simp [hw])))

theorem depthMembers_le {n : Nat} {members : List (Text×Value)} (h : ∀ m∈members, depth m.2 ≤ n) :
    depthMembers members ≤ n := by
  induction members with
  | nil => exact Nat.zero_le n
  | cons m members ih =>
    rw [depthMembers]
    exact max_le (h m (by simp)) (ih (fun w hw => h w (by simp [hw])))

theorem hexLower_digit {n : Nat} (h : n<16) : toDigit 16 (hexLower n)=some n := by
  have hall : ∀ n<16, toDigit 16 (hexLower n)=some n := by decide
  exact hall n h

theorem readString_escape (c : Char) (text : Text) :
    readString (escapeChar c++text)=(readString text).map (fun p => (c::p.1,p.2)) := by
  rw [escapeChar]
  split_ifs with h1 h2 h3 h4 h5 h6 h7 h8
  · subst h1; rfl
  · subst h2; rfl
  · subst h3; rfl
  · subst h4; rfl
  · subst h5; rfl
  · subst h6; rfl
  · subst h7; rfl
  · have hv : digitsValue 16 ['0','0',hexLower (c.toNat/16),hexLower (c.toNat%16)]=c.toNat := by
      have h0 : toDigit 16 '0'=some 0 := by decide
      simp only [digitsValue,List.foldl_cons,List.foldl_nil,h0,hexLower_digit (by omega : c.toNat/16<16),
        hexLower_digit (by omega : c.toNat%16<16),Option.getD_some]
      omega
    have hr : readString ("\\u00".toList++[hexLower (c.toNat/16),hexLower (c.toNat%16)]++text)=
        (readString text).map (fun p => (Char.ofNat
          (digitsValue 16 ['0','0',hexLower (c.toNat/16),hexLower (c.toNat%16)])::p.1,p.2)) := rfl
    rw [hr,hv,Char.ofNat_toNat]
  · rw [List.cons_append,List.nil_append,readString]
    · exact h1
    · intro a b d e rest hc
      exact absurd hc h2
    · intro e rest hc
      exact absurd hc h2

theorem readString_quote (s rest : Text) :
    readString (s.flatMap escapeChar ++ '"'::rest)=some (s,rest) := by
  induction s with
  | nil => rfl
  | cons c s ih =>
    rw [List.flatMap_cons,List.append_assoc,readString_escape,ih]
    rfl

/-- What follows a number does not continue it. -/
def EndsNumber (rest : Text) : Prop := ∀ c∈rest.head?, c.isDigit=false

theorem readNat_decimal (n : Nat) {rest : Text} (h : EndsNumber rest) :
    readNat (decimal n++rest)=some (n,rest) := by
  have hall : ∀ c∈decimal n, c.isDigit=true := fun c hc => decimal_isDigit hc
  have hne : decimal n≠[] := Nat.toDigits_ne_nil
  have hrest : rest.takeWhile Char.isDigit=[] ∧ rest.dropWhile Char.isDigit=rest := by
    cases rest with
    | nil => exact ⟨rfl,rfl⟩
    | cons c rest =>
      have hc := h c rfl
      simp [hc]
  simp only [readNat,List.takeWhile_append_of_pos hall,List.dropWhile_append_of_pos hall,hrest,
    List.append_nil,if_neg hne,digitsValue_decimal]

theorem renderInt_head (n : Int) (rest : Text) : ∃ c text, renderInt n++rest=c::text ∧
    (c = '-' ∨ c.isDigit=true) := by
  rw [renderInt]
  split_ifs
  · exact ⟨_,_,rfl,Or.inl rfl⟩
  · obtain ⟨c,text,hd,hc⟩ := decimal_cons n.natAbs
    exact ⟨c,text++rest,by rw [hd,List.cons_append],Or.inr hc⟩

theorem readNumber_renderInt (n : Int) {rest : Text} (h : EndsNumber rest) :
    readNumber (renderInt n++rest)=some (.int n,rest) := by
  rw [renderInt]
  split_ifs with hn
  · rw [List.cons_append,readNumber,readNat_decimal _ h,Option.map_some]
    have hv : -(n.natAbs : Int)=n := by omega
    rw [hv]
  · obtain ⟨c,text,hd,hc⟩ := decimal_cons n.natAbs
    have hm : c ≠ '-' := by
      rintro rfl
      revert hc
      decide
    have hr := readNat_decimal n.natAbs h
    have hv : (n.natAbs : Int)=n := by omega
    rw [hd,List.cons_append] at hr ⊢
    rw [readNumber]
    · rw [hr,Option.map_some,hv]
    · intro rest' he
      exact hm (List.cons.inj he).1

/-- A number is not taken for anything else. -/
theorem readValue_number (fuel : Nat) {c : Char} (text : Text) (h : c = '-' ∨ c.isDigit=true) :
    readValue (fuel+1) (c::text)=readNumber (c::text) := by
  have hne : ∀ d : Char, d ≠ '-' → d.isDigit=false → c≠d := by
    rintro d hd hdd rfl
    rcases h with h|h
    · exact hd h
    · rw [hdd] at h
      cases h
  rw [readValue]
  · rintro rest he
    exact hne '"' (by decide) (by decide) (List.cons.inj he).1
  · rintro rest he
    exact hne '[' (by decide) (by decide) (List.cons.inj he).1
  · rintro rest he
    exact hne '[' (by decide) (by decide) (List.cons.inj he).1
  · rintro rest he
    exact hne '\x7b' (by decide) (by decide) (List.cons.inj he).1
  · rintro rest he
    exact hne '\x7b' (by decide) (by decide) (List.cons.inj he).1
  · rintro rest he
    exact hne 'n' (by decide) (by decide) (List.cons.inj he).1
  · rintro rest he
    exact hne 't' (by decide) (by decide) (List.cons.inj he).1
  · rintro rest he
    exact hne 'f' (by decide) (by decide) (List.cons.inj he).1

theorem endsNumber_cons {c : Char} (rest : Text) (h : c.isDigit=false) : EndsNumber (c::rest) := by
  intro d hd
  cases hd
  exact h

/-- No value starts like the end of an array or of an object. -/
theorem render_head {v : Value} (h : Plain v) (rest : Text) :
    ∃ c text, render v++rest=c::text ∧ c ≠ ']' ∧ c ≠ '\x7d' := by
  cases v with
  | null => exact ⟨_,_,rfl,by decide,by decide⟩
  | bool b => cases b <;> exact ⟨_,_,rfl,by decide,by decide⟩
  | int n =>
    obtain ⟨c,text,he,hc⟩ := renderInt_head n rest
    refine ⟨c,text,he,?_,?_⟩
    · rintro rfl
      revert hc
      decide
    · rintro rfl
      revert hc
      decide
  | float => exact h.elim
  | str s => exact ⟨_,_,rfl,by decide,by decide⟩
  | arr values => exact ⟨_,_,rfl,by decide,by decide⟩
  | obj members => exact ⟨_,_,rfl,by decide,by decide⟩

mutual

/-- The length of the text is fuel enough. -/
theorem readValue_render : ∀ (v : Value) (fuel : Nat) (rest : Text), Plain v →
    (render v).length ≤ fuel → EndsNumber rest → readValue fuel (render v++rest)=some (v,rest)
  | .null,0,_,_,hf,_ => by simp [render] at hf
  | .null,fuel+1,rest,_,_,_ => rfl
  | .bool true,0,_,_,hf,_ => by simp [render] at hf
  | .bool false,0,_,_,hf,_ => by simp [render] at hf
  | .bool true,fuel+1,rest,_,_,_ => rfl
  | .bool false,fuel+1,rest,_,_,_ => rfl
  | .int n,0,rest,_,hf,_ => by
    obtain ⟨c,text,he,-⟩ := renderInt_head n []
    rw [List.append_nil] at he
    simp [render,he] at hf
  | .int n,fuel+1,rest,_,_,hr => by
    obtain ⟨c,text,he,hc⟩ := renderInt_head n rest
    rw [render,he,readValue_number fuel text hc,← he]
    exact readNumber_renderInt n hr
  | .float,_,_,hp,_,_ => hp.elim
  | .str s,0,_,_,hf,_ => by simp [render,quote] at hf
  | .str s,fuel+1,rest,_,_,_ => by
    have hq : render (.str s)++rest = '"'::(s.flatMap escapeChar ++ '"'::rest) := by
      simp [render,quote]
    rw [hq,readValue,readString_quote]
    rfl
  | .arr values,0,_,_,hf,_ => by simp [render] at hf
  | .arr [],fuel+1,rest,_,_,_ => rfl
  | .arr (v::values),fuel+1,rest,hp,hf,_ => by
    have hl : (renderValues (v::values)).length ≤ fuel := by simpa [render] using hf
    have hv := readValues_render v values fuel rest hp hl
    obtain ⟨c,text,he,hc,-⟩ : ∃ c text, renderValues (v::values)++rest=c::text ∧ c ≠ ']' ∧
        c ≠ '\x7d' := by
      cases values with
      | nil =>
        rw [renderValues,List.append_assoc]
        exact render_head hp.1 _
      | cons w values =>
        rw [renderValues,List.append_assoc]
        exact render_head hp.1 _
    rw [he] at hv
    rw [render,List.cons_append,he,readValue]
    · rw [hv]
      rfl
    · intro rest' ht
      exact hc (List.cons.inj ht).1
  | .obj members,0,_,_,hf,_ => by simp [render] at hf
  | .obj [],fuel+1,rest,_,_,_ => rfl
  | .obj (m::members),fuel+1,rest,hp,hf,_ => by
    have hl : (renderMembers (m::members)).length ≤ fuel := by simpa [render] using hf
    have hv := readMembers_render m members fuel rest hp hl
    obtain ⟨text,he⟩ : ∃ text, renderMembers (m::members)++rest = '"'::text := by
      cases members with
      | nil => exact ⟨_,rfl⟩
      | cons m' members => exact ⟨_,rfl⟩
    rw [he] at hv
    rw [render,List.cons_append,he,readValue]
    · rw [hv]
      rfl
    · intro rest' ht
      exact absurd (List.cons.inj ht).1 (by decide)

theorem readValues_render : ∀ (v : Value) (values : List Value) (fuel : Nat) (rest : Text),
    PlainValues (v::values) → (renderValues (v::values)).length ≤ fuel →
    readValues fuel (renderValues (v::values)++rest)=some (v::values,rest)
  | v,[],0,_,_,hf => by simp [renderValues] at hf
  | v,_::_,0,_,_,hf => by simp [renderValues] at hf
  | v,[],fuel+1,rest,hp,hf => by
    have hl : (render v).length ≤ fuel := by simpa [renderValues] using hf
    have hv := readValue_render v fuel (']'::rest) hp.1 hl (endsNumber_cons rest (by decide))
    rw [renderValues,List.append_assoc,List.cons_append,List.nil_append,readValues,hv]
    rfl
  | v,w::values,fuel+1,rest,hp,hf => by
    have hl : (render v).length+(renderValues (w::values)).length ≤ fuel := by
      simp only [renderValues,List.length_append,List.length_cons] at hf
      omega
    have hv := readValue_render v fuel (','::(renderValues (w::values)++rest)) hp.1 (by omega)
      (endsNumber_cons _ (by decide))
    have hw := readValues_render w values fuel rest hp.2 (by omega)
    rw [renderValues,List.append_assoc,List.cons_append,readValues,hv]
    simp only [Option.bind_some,hw,Option.map_some]

theorem readMembers_render : ∀ (m : Text×Value) (members : List (Text×Value)) (fuel : Nat)
    (rest : Text), PlainMembers (m::members) → (renderMembers (m::members)).length ≤ fuel →
    readMembers fuel (renderMembers (m::members)++rest)=some (m::members,rest)
  | (k,v),[],0,_,_,hf => by simp [renderMembers] at hf
  | (k,v),_::_,0,_,_,hf => by simp [renderMembers] at hf
  | (k,v),[],fuel+1,rest,hp,hf => by
    have hl : (render v).length ≤ fuel := by
      simp only [renderMembers,List.length_append,List.length_cons] at hf
      omega
    have hv := readValue_render v fuel ('\x7d'::rest) hp.1 hl (endsNumber_cons rest (by decide))
    have hk := readString_quote k (':'::(render v ++ '\x7d'::rest))
    have he : renderMembers [(k,v)]++rest=
        '"'::(k.flatMap escapeChar ++ '"':: ':'::(render v ++ '\x7d'::rest)) := by
      simp [renderMembers,quote]
    rw [he,readMembers,hk]
    simp only [Option.bind_some,hv]
  | (k,v),m::members,fuel+1,rest,hp,hf => by
    have hl : (render v).length+(renderMembers (m::members)).length ≤ fuel := by
      simp only [renderMembers,List.length_append,List.length_cons] at hf
      omega
    have hv := readValue_render v fuel (','::(renderMembers (m::members)++rest)) hp.1 (by omega)
      (endsNumber_cons _ (by decide))
    have hw := readMembers_render m members fuel rest hp.2 (by omega)
    have hk := readString_quote k (':'::(render v ++ ','::(renderMembers (m::members)++rest)))
    have he : renderMembers ((k,v)::m::members)++rest=
        '"'::(k.flatMap escapeChar ++ '"':: ':'::(render v ++ ','::(renderMembers (m::members)++rest))) := by
      simp [renderMembers,quote]
    rw [he,readMembers,hk]
    simp only [Option.bind_some,hv,hw,Option.map_some]

end

theorem read_render {v : Value} (h : Plain v) : read (render v)=some v := by
  have hr := readValue_render v ((render v).length+1) [] h (by omega) (by intro c hc; cases hc)
  rw [List.append_nil] at hr
  rw [read,hr]
  rfl

theorem insertMember_perm (p : Text×Text) (members : List (Text×Text)) :
    (insertMember p members).Perm (p::members) := by
  induction members with
  | nil => exact List.Perm.refl _
  | cons q members ih =>
    rw [insertMember]
    split_ifs
    · exact List.Perm.refl _
    · exact (ih.cons q).trans (List.Perm.swap p q members)

theorem sorted_perm (members : List (Text×Text)) : (members.foldr insertMember []).Perm members := by
  induction members with
  | nil => exact List.Perm.refl _
  | cons p members ih => exact (insertMember_perm p _).trans (ih.cons p)

def stringMember (p : Text×Text) : Text×Value := (p.1,.str p.2)

theorem renderMembers_strings (members : List (Text×Text)) :
    renderMembers (members.map stringMember)=
      [','].intercalate (members.map (fun p => quote p.1 ++ ':'::quote p.2))++['\x7d'] := by
  induction members with
  | nil => rfl
  | cons p members ih =>
    cases members with
    | nil => simp [renderMembers,stringMember,render,List.intercalate]
    | cons q members =>
      have hr : renderMembers ((p::q::members).map stringMember)=
          quote p.1 ++ ':'::(quote p.2 ++ ','::renderMembers ((q::members).map stringMember)) := by
        simp [renderMembers,stringMember,render]
      rw [hr,ih]
      simp [List.intercalate]

theorem plain_strings (members : List (Text×Text)) : PlainMembers (members.map stringMember) := by
  induction members with
  | nil => exact True.intro
  | cons p members ih => exact ⟨True.intro,ih⟩

/-- An object of strings is read back with its members in some order. -/
theorem read_object (members : List (Text×Text)) :
    ∃ l, read (object members)=some (.obj l) ∧ l.Perm (members.map stringMember) := by
  have heq : object members=render (.obj ((members.foldr insertMember []).map stringMember)) := by
    rw [render,renderMembers_strings,object]
    rfl
  refine ⟨_,?_,(sorted_perm members).map stringMember⟩
  rw [heq]
  exact read_render (plain_strings _)

end Tobira.Framework.Json
