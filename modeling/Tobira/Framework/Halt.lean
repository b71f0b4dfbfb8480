import Tobira.Framework.Run

namespace Tobira.Framework

section Halting
variable {σ α : Type*} {step : σ → α → Option σ}

/-- No action of this kind is enabled. -/
def Blocked (step : σ → α → Option σ) (k : α → Prop) (s : σ) : Prop :=
  ∀ a, k a → step s a=none

/-- A measure that every action of a kind lowers bounds the schedules of these actions. -/
theorem run_length_le {k : α → Prop} {I : σ → Prop} {w : σ → Nat}
    (keep : ∀ s a s', I s → step s a=some s' → I s')
    (drop : ∀ s a s', I s → k a → step s a=some s' → w s'<w s) {s s' : σ} {as : List α}
    (hi : I s) (ha : ∀ a∈as, k a) (h : run step s as=some s') :
    as.length+w s'≤w s := by
  induction as generalizing s with
  | nil =>
    cases h
    simp
  | cons a as ih =>
    obtain ⟨mid,hs,hr⟩ := run_cons h
    have hd := drop s a mid hi (ha a (by simp)) hs
    have hl := ih (keep s a mid hi hs) (fun b hb => ha b (by simp [hb])) hr
    rw [List.length_cons]
    omega

/-- A machine whose measure falls comes to a state in which it is blocked. -/
theorem exists_blocked {k : α → Prop} {I : σ → Prop} {w : σ → Nat}
    (keep : ∀ s a s', I s → step s a=some s' → I s')
    (drop : ∀ s a s', I s → k a → step s a=some s' → w s'<w s) {s : σ} (hi : I s) :
    ∃ as s', (∀ a∈as, k a) ∧ run step s as=some s' ∧ Blocked step k s' := by
  induction hw : w s using Nat.strongRecOn generalizing s with
  | ind n ih =>
    by_cases hb : Blocked step k s
    · exact ⟨[],s,by simp,rfl,hb⟩
    · simp only [Blocked,not_forall] at hb
      obtain ⟨a,ha,hs⟩ := hb
      obtain ⟨mid,hm⟩ := Option.ne_none_iff_exists'.mp hs
      have hlt : w mid<n := hw ▸ drop s a mid hi ha hm
      obtain ⟨as,s',has,hr,hblocked⟩ := ih (w mid) hlt (keep s a mid hi hm) rfl
      refine ⟨a::as,s',?_,?_,hblocked⟩
      · intro b hb
        rcases List.mem_cons.mp hb with rfl|hb
        · exact ha
        · exact has b hb
      · rw [run,hm]
        exact hr

/-- How many actions of a run were of a kind when they were taken. -/
def turns (step : σ → α → Option σ) (turn : σ → α → Bool) : σ → List α → Nat
  | _,[] => 0
  | s,a::as => (turn s a).toNat+(step s a).elim 0 (fun s' => turns step turn s' as)

/-- A measure that no action raises and each one of a kind lowers bounds how many there are. -/
theorem turns_le {turn : σ → α → Bool} {guard : σ → α → Prop} {I : σ → Prop} {w : σ → Nat}
    (keep : ∀ s a s', I s → step s a=some s' → I s')
    (drop : ∀ s a s', I s → guard s a → step s a=some s' → w s'+(turn s a).toNat ≤ w s)
    {s s' : σ} {as : List α} (hi : I s) (hg : Within step guard s as)
    (h : run step s as=some s') : turns step turn s as ≤ w s := by
  induction as generalizing s with
  | nil => exact Nat.zero_le _
  | cons a as ih =>
    obtain ⟨mid,hs,hr⟩ := run_cons h
    have hl := ih (keep s a mid hi hs) (hg.2 mid hs) hr
    have hd := drop s a mid hi hg.1 hs
    rw [turns,hs,Option.elim_some]
    omega

end Halting

end Tobira.Framework
