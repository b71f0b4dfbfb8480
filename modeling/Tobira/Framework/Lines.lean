import Mathlib.Data.List.Nodup
import Mathlib.Logic.Function.Basic
import Mathlib.Tactic.Simps.Basic
import Mathlib.Algebra.Order.BigOperators.Group.List
import Mathlib.Algebra.Order.Ring.Nat
import Tobira.Framework.Run

namespace Tobira.Framework

/-- Who waits where: the line at each lock with the holder at its head, the lock each party
stands at, and how many steps a holder still takes before it lets go. -/
@[ext] structure Queues (σ ω : Type*) where
  line : σ → List ω
  place : ω → Option σ
  left : ω → Nat

namespace Queues
variable {σ ω : Type*} [DecidableEq σ] [DecidableEq ω] {n : Nat} {q q' : Queues σ ω}

@[simps -fullyApplied] def ask (q : Queues σ ω) (o : ω) (s : σ) (k : Nat) : Queues σ ω where
  line := Function.update q.line s (q.line s++[o])
  place := Function.update q.place o (some s)
  left := Function.update q.left o k

@[simps -fullyApplied] def advance (q : Queues σ ω) (o : ω) (k : Nat) : Queues σ ω where
  line := q.line
  place := q.place
  left := Function.update q.left o k

@[simps -fullyApplied] def release (q : Queues σ ω) (o : ω) (s : σ) (k : Nat) : Queues σ ω where
  line := Function.update q.line s (q.line s).tail
  place := Function.update q.place o none
  left := Function.update q.left o k

/-- What can happen to the lines; the mover is the holder whose step it is. -/
inductive Step (n : Nat) (q : Queues σ ω) : Option ω → Queues σ ω → Prop where
  | quiet : Step n q none q
  | ask {o : ω} {s : σ} {k : Nat} (free : q.place o=none) (fits : 0<k ∧ k ≤ n) :
      Step n q none (q.ask o s k)
  | advance {o : ω} {s : σ} {k : Nat} (head : (q.line s).head?=some o) (less : k<q.left o)
      (more : 0<k) : Step n q (some o) (q.advance o k)
  | release {o : ω} {s : σ} {k : Nat} (head : (q.line s).head?=some o) :
      Step n q (some o) (q.release o s k)

/-- Everyone who stands at a lock stands in its line, once, and lets go within `n` steps of
holding it. -/
structure Lined (n : Nat) (q : Queues σ ω) : Prop where
  nodup : ∀ s, (q.line s).Nodup
  mem : ∀ s o, o∈q.line s ↔ q.place o=some s
  left : ∀ o, q.place o≠none → 0<q.left o ∧ q.left o ≤ n

omit [DecidableEq σ] [DecidableEq ω] in
theorem Lined.head (h : Lined n q) {s : σ} {o : ω} (hh : (q.line s).head?=some o) :
    q.place o=some s := (h.mem s o).mp (List.mem_of_mem_head? hh)

theorem Lined.ask (h : Lined n q) {o : ω} {k : Nat} (s : σ) (free : q.place o=none)
    (fits : 0<k ∧ k ≤ n) : Lined n (q.ask o s k) := by
  have away (x : σ) : o∉q.line x := by
    rw [h.mem,free]
    simp
  refine ⟨?_,?_,?_⟩
  · intro x
    rw [ask_line]
    by_cases hx : x=s
    · subst hx
      rw [Function.update_self,List.nodup_append]
      refine ⟨h.nodup x,List.nodup_singleton o,?_⟩
      intro a ha b hb
      rw [List.mem_singleton.mp hb]
      exact fun he => away x (he ▸ ha)
    · rw [Function.update_of_ne hx]
      exact h.nodup x
  · intro x p
    rw [ask_line,ask_place]
    by_cases hp : p=o
    · subst hp
      rw [Function.update_self]
      by_cases hx : x=s
      · simp [hx]
      · simp [hx,away x,Ne.symm hx]
    · rw [Function.update_of_ne hp,← h.mem x p]
      by_cases hx : x=s
      · simp [hx,hp]
      · rw [Function.update_of_ne hx]
  · intro p hp
    rw [ask_place] at hp
    rw [ask_left]
    by_cases he : p=o
    · rw [he,Function.update_self]
      exact fits
    · rw [Function.update_of_ne he] at hp ⊢
      exact h.left p hp

omit [DecidableEq σ] in
theorem Lined.advance (h : Lined n q) {o : ω} {k : Nat} (less : k<q.left o) (more : 0<k) :
    Lined n (q.advance o k) := by
  refine ⟨h.nodup,h.mem,?_⟩
  intro p hp
  have hl := h.left p hp
  rw [advance_left]
  by_cases he : p=o
  · subst he
    rw [Function.update_self]
    exact ⟨more,by omega⟩
  · rw [Function.update_of_ne he]
    exact hl

theorem Lined.release (h : Lined n q) {o : ω} {s : σ} (k : Nat)
    (head : (q.line s).head?=some o) : Lined n (q.release o s k) := by
  obtain ⟨rest,hl⟩ := List.head?_eq_some_iff.mp head
  have hnd := h.nodup s
  rw [hl,List.nodup_cons] at hnd
  have hplace := h.head head
  refine ⟨?_,?_,?_⟩
  · intro x
    rw [release_line]
    by_cases hx : x=s
    · subst hx
      rw [Function.update_self,hl]
      exact hnd.2
    · rw [Function.update_of_ne hx]
      exact h.nodup x
  · intro x p
    rw [release_line,release_place]
    by_cases hp : p=o
    · subst hp
      rw [Function.update_self]
      by_cases hx : x=s
      · subst hx
        simp [hl,hnd.1]
      · rw [Function.update_of_ne hx,h.mem,hplace]
        simp [Ne.symm hx]
    · rw [Function.update_of_ne hp,← h.mem x p]
      by_cases hx : x=s
      · subst hx
        simp [hl,hp]
      · rw [Function.update_of_ne hx]
  · intro p hp
    rw [release_place] at hp
    have he : p≠o := by
      intro he
      subst he
      exact hp (Function.update_self _ _ _)
    rw [Function.update_of_ne he] at hp
    rw [release_left,Function.update_of_ne he]
    exact h.left p hp

theorem Lined.step {m : Option ω} (h : Lined n q) (hs : Step n q m q') : Lined n q' := by
  cases hs with
  | quiet => exact h
  | ask free fits => exact h.ask _ free fits
  | advance head less more => exact h.advance less more
  | release head => exact h.release _ head

/-- How many steps the parties in front of `o` at `s` still take. -/
def rank (q : Queues σ ω) (o : ω) (s : σ) : Nat :=
  (((q.line s).take ((q.line s).idxOf o)).map q.left).sum

omit [DecidableEq σ] in
theorem rank_cons {o h : ω} {s : σ} {rest : List ω} (hl : q.line s=h::rest) (ho : o≠h) :
    rank q o s=q.left h+((rest.take (rest.idxOf o)).map q.left).sum := by
  rw [rank,hl,List.idxOf_cons_ne rest (Ne.symm ho),List.take_succ_cons,List.map_cons,
    List.sum_cons]

omit [DecidableEq σ] in
theorem Lined.rank_le (hq : Lined n q) (o : ω) (s : σ) : rank q o s ≤ n*(q.line s).idxOf o := by
  have hle : ∀ x∈((q.line s).take ((q.line s).idxOf o)).map q.left, x ≤ n := by
    intro x hx
    obtain ⟨p,hp,rfl⟩ := List.mem_map.mp hx
    have hplace := (hq.mem s p).mp (List.mem_of_mem_take hp)
    exact (hq.left p (by rw [hplace]; simp)).2
  have hsum := List.sum_le_card_nsmul _ n hle
  rw [List.length_map,Nat.nsmul_eq_mul,Nat.mul_comm] at hsum
  exact hsum.trans (Nat.mul_le_mul_left n (List.length_take_le _ _))

theorem map_update_left {l : List ω} {o : ω} (f : ω → Nat) (k : Nat) (h : o∉l) :
    l.map (Function.update f o k)=l.map f := by
  apply List.map_congr_left
  intro p hp
  have hpo : p≠o := by
    rintro rfl
    exact h hp
  exact Function.update_of_ne hpo _ _

/-- Whoever waits in a line: no step puts it back, and each step of the holder brings it on. -/
theorem Lined.rank_step {m : Option ω} (hq : Lined n q) (hs : Step n q m q') {o : ω} {s : σ}
    (ho : o∈(q.line s).tail) :
    rank q' o s ≤ rank q o s ∧ (m=(q.line s).head? → rank q' o s < rank q o s) := by
  cases hl : q.line s with
  | nil =>
    rw [hl] at ho
    cases ho
  | cons h rest =>
    have hnd := hq.nodup s
    rw [hl,List.nodup_cons] at hnd
    rw [hl,List.tail_cons] at ho
    have hne : o≠h := by
      rintro rfl
      exact hnd.1 ho
    have hplace : q.place h=some s := (hq.mem s h).mp (by rw [hl]; simp)
    have hleft := hq.left h (by rw [hplace]; simp)
    -- Whoever stands elsewhere or nowhere is not among those in front of `o`.
    have away {p : ω} (hp : q.place p≠some s) : h≠p ∧ p∉rest.take (rest.idxOf o) := by
      refine ⟨?_,?_⟩
      · rintro rfl
        exact hp hplace
      · intro hm
        exact hp ((hq.mem s p).mp (by rw [hl]; exact List.mem_cons_of_mem _ (List.mem_of_mem_take hm)))
    rw [List.head?_cons,rank_cons hl hne]
    cases hs with
    | quiet =>
      rw [rank_cons hl hne]
      exact ⟨Nat.le_refl _,fun he => by cases he⟩
    | @ask p x k free fits =>
      obtain ⟨hph,hpr⟩ := away (p := p) (by rw [free]; simp)
      refine ⟨Nat.le_of_eq ?_,fun he => by cases he⟩
      by_cases hx : s=x
      · subst hx
        rw [rank_cons (by rw [ask_line,Function.update_self,hl,List.cons_append]) hne,ask_left,
          Function.update_of_ne hph,List.idxOf_append_of_mem ho,
          List.take_append_of_le_length (List.idxOf_le_length),map_update_left _ _ hpr]
      · rw [rank_cons (by rw [ask_line,Function.update_of_ne hx,hl]) hne,ask_left,
          Function.update_of_ne hph,map_update_left _ _ hpr]
    | @advance p x k head less more =>
      rw [rank_cons (by rw [advance_line,hl]) hne,advance_left]
      by_cases hph : h=p
      · subst hph
        have hpr : h∉rest.take (rest.idxOf o) := fun hm => hnd.1 (List.mem_of_mem_take hm)
        rw [Function.update_self,map_update_left _ _ hpr]
        exact ⟨by omega,fun _ => by omega⟩
      · have hxs : q.place p≠some s := by
          intro he
          have hxx := (hq.head head).symm.trans he
          obtain rfl := Option.some.inj hxx
          rw [hl,List.head?_cons] at head
          exact hph (Option.some.inj head)
        rw [Function.update_of_ne hph,map_update_left _ _ (away hxs).2]
        exact ⟨Nat.le_refl _,fun he => absurd (Option.some.inj he).symm hph⟩
    | @release p x k head =>
      by_cases hx : s=x
      · subst hx
        rw [hl,List.head?_cons] at head
        obtain rfl := Option.some.inj head
        have hpr : h∉rest.take (rest.idxOf o) := fun hm => hnd.1 (List.mem_of_mem_take hm)
        have hrank : rank (q.release h s k) o s=((rest.take (rest.idxOf o)).map q.left).sum := by
          rw [rank,release_line,Function.update_self,hl,List.tail_cons,release_left,
            map_update_left _ _ hpr]
        rw [hrank]
        exact ⟨by omega,fun _ => by omega⟩
      · have hxs : q.place p≠some s := by
          rw [hq.head head]
          exact fun he => hx (Option.some.inj he).symm
        obtain ⟨hph,hpr⟩ := away hxs
        rw [rank_cons (by rw [release_line,Function.update_of_ne hx,hl]) hne,release_left,
          Function.update_of_ne hph,map_update_left _ _ hpr]
        exact ⟨Nat.le_refl _,fun he => absurd (Option.some.inj he).symm hph⟩

end Queues

end Tobira.Framework
