import Mathlib.Data.List.Basic

namespace Tobira.Framework

section Runs
variable {σ α : Type*} (step : σ → α → Option σ)

/-- The state after a schedule; `none` when one of its actions is not enabled. -/
def run : σ → List α → Option σ
  | s,[] => some s
  | s,a::as => (step s a).bind (fun s' => run s' as)

/-- Every action of the schedule is taken in a state that meets its guard. -/
def Within (guard : σ → α → Prop) : σ → List α → Prop
  | _,[] => True
  | s,a::as => guard s a ∧ ∀ s', step s a=some s' → Within guard s' as

variable {step}

theorem run_cons {s s' : σ} {a : α} {as : List α} (h : run step s (a::as)=some s') :
    ∃ mid, step s a=some mid ∧ run step mid as=some s' := by
  rw [run] at h
  exact Option.bind_eq_some_iff.mp h

theorem run_append {s mid : σ} {as bs : List α} (h : run step s as=some mid) :
    run step s (as++bs)=run step mid bs := by
  induction as generalizing s with
  | nil =>
    cases h
    rfl
  | cons a as ih =>
    obtain ⟨s',hs,hr⟩ := run_cons h
    rw [List.cons_append,run,hs]
    exact ih hr

/-- What each guarded step preserves, each guarded run preserves. -/
theorem run_within {guard : σ → α → Prop} {I : σ → Prop}
    (keep : ∀ s a s', I s → guard s a → step s a=some s' → I s') {s s' : σ} {as : List α}
    (hg : Within step guard s as) (hi : I s) (h : run step s as=some s') : I s' := by
  induction as generalizing s with
  | nil =>
    cases h
    exact hi
  | cons a as ih =>
    obtain ⟨mid,hs,hr⟩ := run_cons h
    exact ih (hg.2 mid hs) (keep s a mid hi hg.1 hs) hr

theorem within_cons {guard : σ → α → Prop} {s mid : σ} {a : α} {as : List α} (hg : guard s a)
    (hs : step s a=some mid) (h : Within step guard mid as) : Within step guard s (a::as) := by
  refine ⟨hg,?_⟩
  intro s' hs'
  rw [hs] at hs'
  cases hs'
  exact h

/-- Guards that can be evaluated make schedules that can be checked. -/
instance Within.decidable (step : σ → α → Option σ) (guard : σ → α → Prop)
    [∀ s a, Decidable (guard s a)] : ∀ s as, Decidable (Within step guard s as)
  | _,[] => inferInstanceAs (Decidable True)
  | s,a::as =>
    have : ∀ s', Decidable (Within step guard s' as) := fun s' => Within.decidable step guard s' as
    inferInstanceAs (Decidable (guard s a ∧ ∀ s'∈step s a, Within step guard s' as))

/-- The guard holds where a prefix of the schedule ends. -/
theorem Within.at_run {guard : σ → α → Prop} {s mid : σ} {as bs : List α} {a : α}
    (h : Within step guard s (as++a::bs)) (hr : run step s as=some mid) : guard mid a := by
  induction as generalizing s with
  | nil =>
    cases hr
    exact h.1
  | cons b as ih =>
    obtain ⟨s',hs,hr'⟩ := run_cons hr
    exact ih (h.2 s' hs) hr'

theorem within_true (s : σ) (as : List α) : Within step (fun _ _ => True) s as := by
  induction as generalizing s with
  | nil => trivial
  | cons a as ih => exact ⟨trivial,fun s' _ => ih s'⟩

/-- What every step preserves, every run preserves. -/
theorem run_invariant {I : σ → Prop} (keep : ∀ s a s', I s → step s a=some s' → I s')
    {s s' : σ} {as : List α} (hi : I s) (h : run step s as=some s') : I s' := by
  have hw : Within step (fun _ _ => True) s as := within_true s as
  exact run_within (fun s a s' hi _ hs => keep s a s' hi hs) hw hi h

/-- Two guards that agree wherever an invariant holds admit the same schedules. -/
theorem within_congr {guard guard' : σ → α → Prop} {I : σ → Prop}
    (keep : ∀ s a s', I s → step s a=some s' → I s')
    (same : ∀ s a, I s → (guard s a ↔ guard' s a)) {s : σ} (hi : I s) (as : List α) :
    Within step guard s as ↔ Within step guard' s as := by
  induction as generalizing s with
  | nil => exact Iff.rfl
  | cons a as ih =>
    apply and_congr (same s a hi)
    apply forall_congr'
    intro s'
    apply imp_congr_right
    intro hs
    exact ih (keep s a s' hi hs)

/-- A machine each of whose steps is a step of another one, or none, has only runs of the other. -/
theorem run_refines {τ β : Type*} {step' : τ → β → Option τ} {v : σ → τ}
    (sim : ∀ s a s', step s a=some s' → v s'=v s ∨ ∃ b, step' (v s) b=some (v s'))
    {s s' : σ} {as : List α} (h : run step s as=some s') :
    ∃ bs, run step' (v s) bs=some (v s') := by
  induction as generalizing s with
  | nil =>
    cases h
    exact ⟨[],rfl⟩
  | cons a as ih =>
    obtain ⟨mid,hs,hr⟩ := run_cons h
    obtain ⟨bs,hbs⟩ := ih hr
    rcases sim s a mid hs with he|⟨b,hb⟩
    · rw [he] at hbs
      exact ⟨bs,hbs⟩
    · refine ⟨b::bs,?_⟩
      rw [run,hb]
      exact hbs

end Runs

section Histories
variable {ε : Type*}

/-- Each event of the history stands in relation `P` to the events before it. -/
def Along (P : List ε → ε → Prop) (log : List ε) : Prop :=
  ∀ past e later, log=past++e::later → P past e

theorem along_nil (P : List ε → ε → Prop) : Along P [] := by
  intro past e later h
  simp at h

theorem along_concat {P : List ε → ε → Prop} {log : List ε} {e : ε} :
    Along P (log++[e]) ↔ Along P log ∧ P log e := by
  constructor
  · intro h
    refine ⟨?_,h log e [] rfl⟩
    intro past x later hl
    apply h past x (later++[e])
    rw [hl,List.append_assoc,List.cons_append]
  · intro h past x later hl
    rcases List.eq_nil_or_concat later with rfl|⟨later,y,rfl⟩
    · obtain ⟨rfl,hx⟩ := List.append_inj' hl rfl
      cases hx
      exact h.2
    · have hs : log++[e]=(past++x::later)++[y] := by simpa using hl
      exact h.1 past x later (List.append_inj' hs rfl).1

end Histories

end Tobira.Framework
