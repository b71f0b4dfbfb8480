import Mathlib.Data.List.Infix
import Mathlib.Logic.Function.Basic
import Tobira.Framework.Run
import Tobira.Transport.Varint

namespace Tobira.Buf

open Tobira.Framework Tobira.Transport

/-- A `BytesMut`: its bytes and the capacity counted from the first of them. -/
structure BytesMut where
  bytes : Bytes
  capacity : Nat
  fits : bytes.length≤capacity

namespace BytesMut

/-- The allocator gives the capacity it was asked for, or more. -/
def withCapacity (size spare : Nat) : BytesMut := ⟨[],size+spare,Nat.zero_le _⟩

def clear (buf : BytesMut) : BytesMut := ⟨[],buf.capacity,Nat.zero_le _⟩

/-- Nothing happens while the bytes fit; else there is room for them, or for more. -/
def reserve (buf : BytesMut) (additional spare : Nat) : BytesMut :=
  if buf.bytes.length+additional ≤ buf.capacity then buf
  else ⟨buf.bytes,buf.bytes.length+additional+spare,by omega⟩

theorem reserve_bytes (buf : BytesMut) (additional spare : Nat) :
    (buf.reserve additional spare).bytes=buf.bytes ∧
      buf.bytes.length+additional≤(buf.reserve additional spare).capacity := by
  rw [reserve]
  split_ifs with h
  · exact ⟨rfl,h⟩
  · exact ⟨rfl,Nat.le_add_right _ _⟩

def extendFromSlice (buf : BytesMut) (data : Bytes) (spare : Nat) : BytesMut where
  bytes := buf.bytes++data
  capacity := (buf.reserve data.length spare).capacity
  fits := by
    rw [List.length_append]
    exact (buf.reserve_bytes data.length spare).2

/-- What remains in the buffer; it panics where there are not so many bytes. -/
def splitTo (buf : BytesMut) (at' : Nat) : Option BytesMut :=
  if h : at' ≤ buf.bytes.length then
    some ⟨buf.bytes.drop at',buf.capacity-at',by
      have hf := buf.fits
      rw [List.length_drop]
      omega⟩
  else none

end BytesMut

def sizeClasses : List Nat := [1024,2048,4096,8192,16384,32768,65536]

def maxPoolPerClass : Nat := 64

/-- The buffers of each size class, the one that was put last in front. -/
structure BufPool where
  buckets : Nat → List BytesMut

namespace BufPool

def new : BufPool := ⟨fun _ => []⟩

def classFor (size : Nat) : Option Nat := sizeClasses.findIdx? (fun s => size ≤ s)

def classSize (idx : Nat) : Nat := sizeClasses.getD idx 0

def get (pool : BufPool) (minSize spare : Nat) : BytesMut×BufPool :=
  match classFor minSize with
  | some idx =>
    match pool.buckets idx with
    | buf::rest => (buf.clear,⟨Function.update pool.buckets idx rest⟩)
    | [] => (.withCapacity (classSize idx) spare,pool)
  | none => (.withCapacity minSize spare,pool)

def put (pool : BufPool) (buf : BytesMut) : BufPool :=
  match classFor buf.capacity with
  | some idx =>
    if (pool.buckets idx).length < maxPoolPerClass then
      ⟨Function.update pool.buckets idx (buf::pool.buckets idx)⟩
    else pool
  | none => pool

end BufPool

/-- The pool, the buffers that are out, and what each call of `get` asked for and got. -/
structure State where
  pool : BufPool
  out : Nat → Option BytesMut
  log : List (Nat×BytesMut)

def State.new : State := ⟨.new,fun _ => none,[]⟩

/-- The calls of the pool, and what its callers do with a buffer in between. -/
inductive Action where
  | get (b minSize spare : Nat)
  | reserve (b additional spare : Nat)
  | extend (b : Nat) (data : Bytes) (spare : Nat)
  | clear (b : Nat)
  | splitTo (b n : Nat)
  | put (b : Nat)

def step (st : State) : Action → Option State
  | .get b minSize spare =>
    match st.out b with
    | some _ => none
    | none =>
      let p := st.pool.get minSize spare
      some ⟨p.2,Function.update st.out b (some p.1),st.log++[(minSize,p.1)]⟩
  | .reserve b additional spare =>
    (st.out b).map (fun buf =>
      { st with out := Function.update st.out b (some (buf.reserve additional spare)) })
  | .extend b data spare =>
    (st.out b).map (fun buf =>
      { st with out := Function.update st.out b (some (buf.extendFromSlice data spare)) })
  | .clear b =>
    (st.out b).map (fun buf => { st with out := Function.update st.out b (some buf.clear) })
  | .splitTo b n =>
    (st.out b).bind (fun buf => (buf.splitTo n).map (fun rest =>
      { st with out := Function.update st.out b (some rest) }))
  | .put b =>
    (st.out b).map (fun buf =>
      { st with pool := st.pool.put buf,out := Function.update st.out b none })

/-- What a caller was promised: an empty buffer with at least the room it asked for. -/
def Honoured (call : Nat×BytesMut) : Prop := call.2.bytes=[] ∧ call.1≤call.2.capacity

/-- A buffer that comes back has the very size of its class, or none, or the class is full. -/
def Sized (st : State) : Action → Prop
  | .put b => ∀ buf∈st.out b, ∀ idx∈BufPool.classFor buf.capacity,
      buf.capacity=BufPool.classSize idx ∨ maxPoolPerClass≤(st.pool.buckets idx).length
  | _ => True

/-- Every buffer of a class has at least its size. -/
def Stocked (pool : BufPool) : Prop :=
  ∀ idx, ∀ buf∈pool.buckets idx, BufPool.classSize idx≤buf.capacity

namespace BufPool

/-- The class of a size is the first that is large enough. -/
theorem classFor_some {size idx : Nat} (h : classFor size=some idx) :
    size ≤ classSize idx ∧ classFor (classSize idx)=some idx := by
  obtain ⟨hlt,hle,-⟩ := List.findIdx?_eq_some_iff_getElem.mp h
  have hself : ∀ idx<7, classFor (classSize idx)=some idx := by decide
  refine ⟨?_,hself idx hlt⟩
  rw [classSize,List.getD_eq_getElem _ _ hlt]
  exact of_decide_eq_true hle

theorem stocked_update {pool : BufPool} (h : Stocked pool) {idx : Nat} {bufs : List BytesMut}
    (hb : ∀ buf∈bufs, classSize idx≤buf.capacity) :
    Stocked ⟨Function.update pool.buckets idx bufs⟩ := by
  intro i buf hm
  by_cases hi : i=idx
  · subst hi
    simp only [Function.update_self] at hm
    exact hb buf hm
  · simp only [Function.update_of_ne hi] at hm
    exact h i buf hm

theorem get_honoured {pool : BufPool} (h : Stocked pool) (minSize spare : Nat) :
    Honoured (minSize,(pool.get minSize spare).1) ∧ Stocked (pool.get minSize spare).2 := by
  rw [get]
  cases hc : classFor minSize with
  | none => exact ⟨⟨rfl,Nat.le_add_right _ _⟩,h⟩
  | some idx =>
    have hsize := (classFor_some hc).1
    dsimp only
    cases hb : pool.buckets idx with
    | nil => exact ⟨⟨rfl,Nat.le_trans hsize (Nat.le_add_right _ _)⟩,h⟩
    | cons buf rest =>
      have hstock : ∀ x∈buf::rest, classSize idx≤x.capacity := hb ▸ h idx
      refine ⟨⟨rfl,Nat.le_trans hsize (hstock buf (List.mem_cons_self ..))⟩,?_⟩
      exact stocked_update h (fun x hx => hstock x (List.mem_cons_of_mem _ hx))

theorem put_stocked {pool : BufPool} (h : Stocked pool) {buf : BytesMut}
    (hs : ∀ idx∈classFor buf.capacity,
      buf.capacity=classSize idx ∨ maxPoolPerClass≤(pool.buckets idx).length) :
    Stocked (pool.put buf) := by
  rw [put]
  cases hc : classFor buf.capacity with
  | none => exact h
  | some idx =>
    dsimp only
    split_ifs with hroom
    · apply stocked_update h
      intro x hx
      rcases List.mem_cons.mp hx with rfl|hx
      · exact (hs idx hc).elim (fun he => Nat.le_of_eq he.symm) (fun hf => absurd hroom (by omega))
      · exact h idx x hx
    · exact h

end BufPool

/-- What a step does to the pool and the log. -/
theorem step_cases {st st' : State} {a : Action} (h : step st a=some st') :
    (∃ b minSize spare, a=.get b minSize spare ∧ st'.pool=(st.pool.get minSize spare).2 ∧
      st'.log=st.log++[(minSize,(st.pool.get minSize spare).1)]) ∨
    (∃ b buf, a=.put b ∧ st.out b=some buf ∧ st'.pool=st.pool.put buf ∧ st'.log=st.log) ∨
    (st'.pool=st.pool ∧ st'.log=st.log) := by
  cases a with
  | get b minSize spare =>
    rw [step] at h
    cases hb : st.out b with
    | some buf =>
      rw [hb] at h
      cases h
    | none =>
      rw [hb] at h
      cases h
      exact Or.inl ⟨b,minSize,spare,rfl,rfl,rfl⟩
  | reserve b additional spare =>
    obtain ⟨buf,-,rfl⟩ := Option.map_eq_some_iff.mp h
    exact Or.inr (Or.inr ⟨rfl,rfl⟩)
  | extend b data spare =>
    obtain ⟨buf,-,rfl⟩ := Option.map_eq_some_iff.mp h
    exact Or.inr (Or.inr ⟨rfl,rfl⟩)
  | clear b =>
    obtain ⟨buf,-,rfl⟩ := Option.map_eq_some_iff.mp h
    exact Or.inr (Or.inr ⟨rfl,rfl⟩)
  | splitTo b n =>
    obtain ⟨buf,-,hr⟩ := Option.bind_eq_some_iff.mp h
    obtain ⟨rest,-,rfl⟩ := Option.map_eq_some_iff.mp hr
    exact Or.inr (Or.inr ⟨rfl,rfl⟩)
  | put b =>
    obtain ⟨buf,hb,rfl⟩ := Option.map_eq_some_iff.mp h
    exact Or.inr (Or.inl ⟨b,buf,rfl,hb,rfl,rfl⟩)

/-- The promise so far, and what it rests on. -/
def Kept (st : State) : Prop := Stocked st.pool ∧ ∀ call∈st.log, Honoured call

theorem kept_new : Kept State.new := by
  refine ⟨?_,?_⟩
  · intro idx buf hb
    cases hb
  · intro call hc
    cases hc

theorem Kept.step (st : State) (a : Action) (st' : State) (h : Kept st) (hs : Sized st a)
    (ha : step st a=some st') : Kept st' := by
  rcases step_cases ha with ⟨b,minSize,spare,rfl,hp,hl⟩|⟨b,buf,rfl,hb,hp,hl⟩|⟨hp,hl⟩
  · obtain ⟨hget,hstock⟩ := BufPool.get_honoured h.1 minSize spare
    rw [Kept,hp,hl]
    refine ⟨hstock,?_⟩
    intro call hc
    rcases List.mem_append.mp hc with hc|hc
    · exact h.2 call hc
    · rw [List.mem_singleton.mp hc]
      exact hget
  · rw [Kept,hp,hl]
    exact ⟨BufPool.put_stocked h.1 (hs buf hb),h.2⟩
  · rw [Kept,hp,hl]
    exact h

/-- A buffer that is smaller than its class is handed out to the next caller that needs the size of
the class. -/
theorem undersized_returned {st : State} {b : Nat} (h : ¬Sized st (.put b)) :
    ∃ st' minSize buf, run step st [.put b,.get b minSize 0]=some st' ∧ (minSize,buf)∈st'.log ∧
      buf.capacity < minSize := by
  simp only [Sized,not_forall,not_or,Nat.not_le,exists_prop] at h
  obtain ⟨buf,hb,idx,hc,hne,hroom⟩ := h
  have hb' : st.out b=some buf := hb
  have hc' : BufPool.classFor buf.capacity=some idx := hc
  obtain ⟨hle,hself⟩ := BufPool.classFor_some hc'
  have hput : (st.pool.put buf).buckets idx=buf::st.pool.buckets idx := by
    rw [BufPool.put,hc']
    simp only [if_pos hroom,Function.update_self]
  have hget : ((st.pool.put buf).get (BufPool.classSize idx) 0).1=buf.clear := by
    rw [BufPool.get,hself]
    simp only [hput]
  have hrun : run step st [.put b,.get b (BufPool.classSize idx) 0]=
      some ⟨((st.pool.put buf).get (BufPool.classSize idx) 0).2,
        Function.update (Function.update st.out b none) b (some buf.clear),
        st.log++[(BufPool.classSize idx,buf.clear)]⟩ := by
    simp only [run,step,hb',Option.map_some,Option.bind_some,Function.update_self,hget]
  exact ⟨_,BufPool.classSize idx,buf.clear,hrun,List.mem_append_right _ (List.mem_singleton_self _),
    Nat.lt_of_le_of_ne hle hne⟩

/-- The pool keeps its promise along every run in which no buffer comes back between two sizes; one
that does breaks it for a later caller. -/
theorem pool_honours_sizes (as : List Action) (st : State) (hr : run step State.new as=some st) :
    (Within step Sized State.new as → ∀ call∈st.log, Honoured call) ∧
    ∀ b, ¬Sized st (.put b) → ∃ st' minSize buf,
      run step st [.put b,.get b minSize 0]=some st' ∧ (minSize,buf)∈st'.log ∧
      ¬Honoured (minSize,buf) := by
  constructor
  · intro hw
    exact (run_within Kept.step hw kept_new hr).2
  · intro b h
    obtain ⟨st',minSize,buf,hget,hm,hlt⟩ := undersized_returned h
    exact ⟨st',minSize,buf,hget,hm,fun hc => absurd hc.2 (Nat.not_le.mpr hlt)⟩

/-- A frame is encoded in a pooled buffer, sent, and its buffer used again. -/
theorem pool_honours_frames : ∃ as st, run step State.new as=some st ∧
    Within step Sized State.new as ∧ st.log.length=2 ∧ ∀ call∈st.log, Honoured call := by
  have hrun : ((run step State.new [.get 0 9 0,.extend 0 [0,0,0,0,2,10,0] 0,.clear 0,.put 0,
      .get 1 1000 0]).map (fun st => st.log.length))=some 2 := by rfl
  obtain ⟨st,hr,hl⟩ := Option.map_eq_some_iff.mp hrun
  have hw : Within step Sized State.new [.get 0 9 0,.extend 0 [0,0,0,0,2,10,0] 0,.clear 0,.put 0,
      .get 1 1000 0] := by
    refine within_cons trivial rfl (within_cons trivial rfl (within_cons trivial rfl
      (within_cons ?_ rfl (within_cons trivial rfl trivial))))
    intro buf hb idx hc
    cases hb
    cases hc
    exact Or.inl rfl
  exact ⟨_,st,hr,hw,hl,(pool_honours_sizes _ st hr).1 hw⟩

/-- The reader of frames: ten bytes are split off before the buffer comes back. -/
def readerRun : List Action :=
  [.get 0 16384 0,.extend 0 (List.replicate 10 0) 0,.splitTo 0 10,.clear 0,.put 0,.get 1 16384 0]

theorem reader_shrinks_buffers : ∃ st, run step State.new readerRun=some st ∧
    ∃ call∈st.log, ¬Honoured call := by
  have hlog : (run step State.new readerRun).map
      (fun st => st.log.map (fun call => (call.1,call.2.capacity)))=
      some [(16384,16384),(16384,16374)] := by rfl
  obtain ⟨st,hr,hcalls⟩ := Option.map_eq_some_iff.mp hlog
  refine ⟨st,hr,?_⟩
  have hm : (16384,16374)∈st.log.map (fun call => (call.1,call.2.capacity)) := by
    rw [hcalls]
    decide
  obtain ⟨call,hc,he⟩ := List.mem_map.mp hm
  obtain ⟨hsize,hcap⟩ := Prod.mk.inj he
  refine ⟨call,hc,?_⟩
  intro hh
  have hle := hh.2
  omega

end Tobira.Buf
