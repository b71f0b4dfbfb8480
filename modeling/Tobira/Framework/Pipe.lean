import Mathlib.Data.List.Basic

namespace Tobira.Framework

/-- What has been written and not read yet, and whether the writer has ended. -/
structure Pipe (α : Type*) where
  items : List α
  closed : Bool
  deriving DecidableEq,Repr

/-- One direction of a copy between two streams: what is buffered, whether the reader has
ended, and whether the writer has been shut down. -/
structure Copy (α : Type*) where
  buf : List α
  eof : Bool
  done : Bool
  deriving DecidableEq,Repr

variable {α : Type*}

namespace Copy

def new : Copy α := ⟨[],false,false⟩

/-- Reads `n` items into a buffer of the given size. -/
def read (size n : Nat) (c : Copy α) (src : Pipe α) : Option (Copy α×Pipe α) :=
  if 0<n ∧ n ≤ src.items.length ∧ c.buf.length+n ≤ size ∧ c.eof=false then
    some ({ c with buf := c.buf++src.items.take n },{ src with items := src.items.drop n })
  else none

/-- Hands the first `n` buffered items to the writer. -/
def write (n : Nat) (c : Copy α) : Option (Copy α×List α) :=
  if 0<n ∧ n ≤ c.buf.length then some ({ c with buf := c.buf.drop n },c.buf.take n) else none

def sawEnd (c : Copy α) (src : Pipe α) : Option (Copy α) :=
  if src.items=[] ∧ src.closed=true ∧ c.eof=false then some { c with eof := true } else none

def shutdown (c : Copy α) : Option (Copy α) :=
  if c.eof=true ∧ c.buf=[] ∧ c.done=false then some { c with done := true } else none

/-- The reader ends after its last item and the writer after the last buffered one. -/
structure Sound (c : Copy α) (src : Pipe α) : Prop where
  eof : c.eof=true → src.items=[] ∧ src.closed=true
  done : c.done=true → c.eof=true ∧ c.buf=[]

theorem sound_new (src : Pipe α) : Sound new src where
  eof := fun h => by cases h
  done := fun h => by cases h

/-- A step of the copy, in which the writer gets `out`. -/
structure Moves (c c' : Copy α) (src src' : Pipe α) (out : List α) : Prop where
  bytes : out++c'.buf++src'.items=c.buf++src.items
  closed : src'.closed=src.closed
  done : c.done=true → c'.done=true
  quiet : Sound c src → c.done=true → out=[]
  sound : Sound c src → Sound c' src'

theorem read_moves {size n : Nat} {c c' : Copy α} {src src' : Pipe α}
    (h : c.read size n src=some (c',src')) : Moves c c' src src' [] ∧ c'.done=c.done := by
  rw [read] at h
  split_ifs at h with hc
  cases h
  obtain ⟨-,-,-,he⟩ := hc
  refine ⟨⟨by simp,rfl,fun hd => hd,fun _ _ => rfl,?_⟩,rfl⟩
  intro hs
  constructor
  · intro ht
    rw [show c.eof=true from ht] at he
    cases he
  · intro ht
    rw [(hs.done ht).1] at he
    cases he

theorem write_moves {n : Nat} {c c' : Copy α} {out : List α} (src : Pipe α)
    (h : c.write n=some (c',out)) : Moves c c' src src out ∧ c'.done=c.done := by
  rw [write] at h
  split_ifs at h with hc
  cases h
  have quiet (hs : Sound c src) : c.done≠true := by
    intro hd
    rw [(hs.done hd).2] at hc
    have hn : n≤0 := hc.2
    omega
  refine ⟨⟨by simp,rfl,fun hd => hd,fun hs hd => absurd hd (quiet hs),?_⟩,rfl⟩
  exact fun hs => ⟨hs.eof,fun hd => absurd hd (quiet hs)⟩

theorem sawEnd_moves {c c' : Copy α} {src : Pipe α} (h : c.sawEnd src=some c') :
    Moves c c' src src [] ∧ c'.done=c.done := by
  rw [sawEnd] at h
  split_ifs at h with hc
  cases h
  refine ⟨⟨rfl,rfl,fun hd => hd,fun _ _ => rfl,?_⟩,rfl⟩
  exact fun hs => ⟨fun _ => ⟨hc.1,hc.2.1⟩,fun hd => ⟨rfl,(hs.done hd).2⟩⟩

theorem shutdown_moves {c c' : Copy α} (src : Pipe α) (h : c.shutdown=some c') :
    Moves c c' src src [] ∧ c'.done=true := by
  rw [shutdown] at h
  split_ifs at h with hc
  cases h
  refine ⟨⟨rfl,rfl,fun _ => rfl,fun _ _ => rfl,?_⟩,rfl⟩
  exact fun hs => ⟨hs.eof,fun _ => ⟨hc.1,hc.2.1⟩⟩

/-- While its writer has not ended, more may come through the pipe. -/
theorem Sound.feed {c : Copy α} {src : Pipe α} (hs : Sound c src) (hc : src.closed=false)
    (more : List α) : Sound c ⟨src.items++more,src.closed⟩ := by
  refine ⟨?_,hs.done⟩
  intro he
  rw [(hs.eof he).2] at hc
  cases hc

theorem Sound.close {c : Copy α} {src : Pipe α} (hs : Sound c src) :
    Sound c ⟨src.items,true⟩ := ⟨fun he => ⟨(hs.eof he).1,rfl⟩,hs.done⟩

/-- What a copy still has to do, where each item it writes makes `w` more work. -/
def load (w : Nat) (c : Copy α) (src : Pipe α) : Nat :=
  (w+1)*c.buf.length+(w+2)*src.items.length+(!c.eof).toNat+(!c.done).toNat

theorem read_load {size n w : Nat} {c c' : Copy α} {src src' : Pipe α}
    (h : c.read size n src=some (c',src')) : c'.load w src'<c.load w src := by
  rw [read] at h
  split_ifs at h with hc
  cases h
  obtain ⟨hn,hlen,-,-⟩ := hc
  obtain ⟨k,hk⟩ := Nat.exists_eq_add_of_le hlen
  simp only [load,List.length_append,List.length_take,List.length_drop,hk]
  rw [Nat.min_eq_left (by omega),Nat.add_sub_cancel_left,Nat.mul_add,Nat.mul_add,
    Nat.add_mul w 2 n,Nat.add_mul w 1 n]
  omega

theorem write_load {n w : Nat} {c c' : Copy α} {out : List α} (src : Pipe α)
    (h : c.write n=some (c',out)) : c'.load w src+w*out.length<c.load w src := by
  rw [write] at h
  split_ifs at h with hc
  cases h
  obtain ⟨hn,hlen⟩ := hc
  obtain ⟨k,hk⟩ := Nat.exists_eq_add_of_le hlen
  simp only [load,List.length_take,List.length_drop,hk]
  rw [Nat.min_eq_left (by omega),Nat.add_sub_cancel_left,Nat.mul_add,Nat.add_mul w 1 n]
  omega

theorem sawEnd_load {w : Nat} {c c' : Copy α} {src : Pipe α} (h : c.sawEnd src=some c') :
    c'.load w src<c.load w src := by
  rw [sawEnd] at h
  split_ifs at h with hc
  cases h
  simp [load,hc.2.2]

theorem shutdown_load {w : Nat} {c c' : Copy α} (src : Pipe α) (h : c.shutdown=some c') :
    c'.load w src<c.load w src := by
  rw [shutdown] at h
  split_ifs at h with hc
  cases h
  simp [load,hc.2.2]

theorem write_none {c : Copy α} (h : c.write 1=none) : c.buf=[] := by
  rw [write] at h
  split_ifs at h with hc
  rw [← List.length_eq_zero_iff]
  omega

/-- A copy that has passed on everything and can do nothing is over, or waits for its source. -/
theorem Sound.stuck {n : Nat} {c : Copy α} {src : Pipe α} (hs : Sound c src) (hn : 0<n)
    (hb : c.buf=[]) (hr : c.read n 1 src=none) (he : c.sawEnd src=none) (hd : c.shutdown=none) :
    src.items=[] ∧ (c.done=true ∨ src.closed=false) := by
  have hi : src.items=[] := by
    cases heof : c.eof with
    | true => exact (hs.eof heof).1
    | false =>
      rw [read] at hr
      split_ifs at hr with hc
      simp only [hb,heof,List.length_nil,and_true] at hc
      rw [← List.length_eq_zero_iff]
      omega
  refine ⟨hi,?_⟩
  cases heof : c.eof with
  | true =>
    rw [shutdown] at hd
    split_ifs at hd with hc
    simp only [hb,heof,true_and] at hc
    exact Or.inl (by simpa using hc)
  | false =>
    rw [sawEnd] at he
    split_ifs at he with hc
    simp only [hi,heof,true_and,and_true] at hc
    exact Or.inr (by simpa using hc)

end Copy

end Tobira.Framework
