import Mathlib.Data.List.Basic
import Mathlib.Algebra.Group.Nat.Defs

namespace Tobira.Framework

/-- Integer overflow panics in a `dev` build and wraps in a `release` build. -/
inductive Build where
  | dev
  | release
  deriving DecidableEq,Repr

inductive Panic where
  | addOverflow
  | sliceOrder (start stop : Nat)
  | sliceEnd (stop len : Nat)
  | expect (message : String)
  | assertion (message : String)
  deriving DecidableEq,Repr

/-- How a fallible function ends other than with a value: an `Err` or a panic. -/
inductive Fault (ε : Type*) where
  | error (e : ε)
  | panic (p : Panic)
  deriving DecidableEq,Repr

def usizeBound : Nat := 2^64

/-- `a + b` on a 64-bit `usize`. -/
def usizeAdd (m : Build) (a b : Nat) : Except Panic Nat :=
  if a+b<usizeBound then .ok (a+b)
  else match m with
    | .dev => .error .addOverflow
    | .release => .ok ((a+b)%usizeBound)

/-- `&b[start..stop]`. -/
def slice {α : Type*} (b : List α) (start stop : Nat) : Except Panic (List α) :=
  if stop<start then .error (.sliceOrder start stop)
  else if b.length<stop then .error (.sliceEnd stop b.length)
  else .ok ((b.drop start).take (stop-start))

theorem usizeAdd_fits (m : Build) {a b : Nat} (h : a+b<usizeBound) :
    usizeAdd m a b=.ok (a+b) := by
  simp only [usizeAdd]
  rw [if_pos h]

theorem slice_fits {α : Type*} {b : List α} {start stop : Nat} (h : start ≤ stop)
    (hb : stop≤b.length) : slice b start stop=.ok ((b.drop start).take (stop-start)) := by
  rw [slice,if_neg (Nat.not_lt.mpr h),if_neg (Nat.not_lt.mpr hb)]

/-- A wrapped sum is below its first summand, so the slice it ends is inverted. -/
theorem slice_wrapped {α : Type*} (b : List α) {start len : Nat}
    (hl : len<usizeBound) (h : usizeBound ≤ start+len) (hs : start<usizeBound) :
    slice b start ((start+len)%usizeBound)=
      .error (.sliceOrder start (start+len-usizeBound)) := by
  have hm : (start+len)%usizeBound=start+len-usizeBound := by
    rw [Nat.mod_eq_sub_mod h,Nat.mod_eq_of_lt (by omega)]
  rw [hm,slice,if_pos (by omega)]

section

variable {ε α β : Type}

theorem bind_ok {x : Except ε α} {f : α → Except ε β} {b : β} (h : x >>= f=.ok b) :
    ∃ a, x=.ok a ∧ f a=.ok b := by
  cases x with
  | error e => cases h
  | ok a => exact ⟨a,rfl,h⟩

theorem map_ok {x : Except ε α} {f : α → β} {b : β} (h : x.map f=.ok b) :
    ∃ a, x=.ok a ∧ f a=b := by
  cases x with
  | error e => cases h
  | ok a => exact ⟨a,rfl,Except.ok.inj h⟩

theorem mapError_ok {δ : Type} {x : Except ε α} {f : ε → δ} {a : α} (h : x.mapError f=.ok a) :
    x=.ok a := by
  cases x with
  | error e => cases h
  | ok b => exact congrArg Except.ok (Except.ok.inj h)

theorem ok_of_toOption {x : Except ε α} {a : α} (h : x.toOption=some a) : x=.ok a := by
  cases x with
  | error e => cases h
  | ok b => exact congrArg Except.ok (Option.some.inj h)

/-- Every element has its result among the results. -/
theorem mapM_ok_mem {f : α → Except ε β} {l : List α} {out : List β} (h : l.mapM f=.ok out)
    {a : α} (ha : a∈l) : ∃ b∈out, f a=.ok b := by
  induction l generalizing out with
  | nil => cases ha
  | cons x l ih =>
    rw [List.mapM_cons] at h
    obtain ⟨b,hb,h⟩ := bind_ok h
    obtain ⟨bs,hbs,h⟩ := bind_ok h
    cases h
    rcases List.mem_cons.mp ha with rfl|ha
    · exact ⟨b,by simp,hb⟩
    · obtain ⟨b',hm,hf⟩ := ih hbs ha
      exact ⟨b',by simp [hm],hf⟩

/-- Where a view of each result is a function of the element, so is the view of the list. -/
theorem mapM_ok_map {γ : Type} {f : α → Except ε β} {view : β → γ} {image : α → γ}
    (hf : ∀ a b, f a=.ok b → view b=image a) {l : List α} {out : List β} (h : l.mapM f=.ok out) :
    out.map view=l.map image := by
  induction l generalizing out with
  | nil =>
    cases h
    rfl
  | cons x l ih =>
    rw [List.mapM_cons] at h
    obtain ⟨b,hb,h⟩ := bind_ok h
    obtain ⟨bs,hbs,h⟩ := bind_ok h
    cases h
    rw [List.map_cons,List.map_cons,hf x b hb,ih hbs]

theorem mapM_ok_forall₂ {f : α → Except ε β} {l : List α} {out : List β} (h : l.mapM f=.ok out) :
    List.Forall₂ (fun a b => f a=.ok b) l out := by
  induction l generalizing out with
  | nil =>
    cases h
    exact List.Forall₂.nil
  | cons a l ih =>
    rw [List.mapM_cons] at h
    obtain ⟨b,hb,h⟩ := bind_ok h
    obtain ⟨bs,hbs,h⟩ := bind_ok h
    cases h
    exact List.Forall₂.cons hb (ih hbs)

theorem mapM_ok_iff (f : α → Except ε β) (l : List α) :
    (∃ out, l.mapM f=.ok out) ↔ ∀ a∈l, ∃ b, f a=.ok b := by
  induction l with
  | nil => simp [pure,Except.pure]
  | cons a l ih =>
    rw [List.mapM_cons]
    constructor
    · rintro ⟨out,h⟩ x hx
      obtain ⟨b,hb,h⟩ := bind_ok h
      obtain ⟨bs,hbs,-⟩ := bind_ok h
      rcases List.mem_cons.mp hx with rfl|hx
      · exact ⟨b,hb⟩
      · exact ih.mp ⟨bs,hbs⟩ x hx
    · intro h
      obtain ⟨b,hb⟩ := h a (by simp)
      obtain ⟨bs,hbs⟩ := ih.mpr (fun x hx => h x (by simp [hx]))
      exact ⟨b::bs,by rw [hb,hbs]; rfl⟩

end

end Tobira.Framework
