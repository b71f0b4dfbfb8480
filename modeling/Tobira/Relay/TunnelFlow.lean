import Tobira.Relay.TunnelSteps

namespace Tobira.Relay

open Tobira.Framework Tobira.Transport

def Over (p : Pump UInt8 UInt8 TaskError) : Prop := p.state≠.waiting ∧ p.state≠.running

/-- What the relay function knows of its tasks at each of its waits. -/
def Tasks (st : Tunnel) : Prop :=
  match st.stage with
  | .opening => st.first.state=.waiting ∧ st.second.state=.waiting
  | .headers | .refused => st.first.state≠.waiting ∧ st.second.state=.waiting
  | .relaying r1 r2 | .closing r1 r2 =>
    (st.first.state≠.waiting ∧ st.second.state≠.waiting) ∧
      (r1=true → Over st.first) ∧ (r2=true → Over st.second)
  | .left r1 r2 => r1=true ∧ r2=true ∧ Over st.first ∧ Over st.second
  | .returned ok =>
    (st.first.state≠.running ∧ st.second.state≠.running) ∧
      (ok=true → Over st.first ∧ Over st.second)
  | .panicked => False

/-- What has been recorded at each wait. -/
def Recorded (st : Tunnel) : Prop :=
  match st.stage with
  | .opening | .headers | .relaying _ _ => st.refusal=none ∧ st.idle=none
  | .refused => st.refusal≠none
  | .closing _ _ => st.refusal=none ∧ st.idle≠none
  | .left _ _ => st.refusal=none
  | .returned ok => ok=true → st.refusal=none
  | .panicked => True

/-- The calls of `evict` for the headers. -/
def refusals (st : Tunnel) : Nat := st.refusal.elim 0 (fun e => (isH2ConnectionError e).toNat)

structure Controlled (setup : TunnelSetup) (st : Tunnel) : Prop where
  tasks : Tasks st
  recorded : Recorded st
  cancelFirst : st.first.state=.cancelled → st.refusal≠none ∨ st.idle≠none
  cancelSecond : st.second.state=.cancelled → st.idle≠none
  evictions : st.evictions=refusals st+evicts st.first
  idle : ∀ d∈st.idle, ∃ timeout∈setup.idleTimeout, timeout ≤ d

theorem controlled_start (setup : TunnelSetup) (buf pending : Bytes) (now : Nat) :
    Controlled setup (.start setup buf pending now) where
  tasks := ⟨rfl,rfl⟩
  recorded := ⟨rfl,rfl⟩
  cancelFirst := fun h => by cases h
  cancelSecond := fun h => by cases h
  evictions := rfl
  idle := fun _ h => by cases h

/-- The waits stay justified while the tasks go on: a task that is over stays so. -/
theorem Tasks.mono {st st' : Tunnel} (h : Tasks st) (hs : st'.stage=st.stage)
    (h1 : st'.first.state=st.first.state ∨ st.first.state=.running ∧ st'.first.state≠.waiting)
    (h2 : st'.second.state=st.second.state ∨
      st.second.state=.running ∧ st'.second.state≠.waiting) : Tasks st' := by
  have waits1 (hw : st.first.state≠.waiting) : st'.first.state≠.waiting := by
    rcases h1 with h1|h1
    · rwa [h1]
    · exact h1.2
  have waits2 (hw : st.second.state≠.waiting) : st'.second.state≠.waiting := by
    rcases h2 with h2|h2
    · rwa [h2]
    · exact h2.2
  have keeps1 (hr : st.first.state≠.running) : st'.first.state=st.first.state := by
    rcases h1 with h1|h1
    · exact h1
    · exact absurd h1.1 hr
  have keeps2 (hr : st.second.state≠.running) : st'.second.state=st.second.state := by
    rcases h2 with h2|h2
    · exact h2
    · exact absurd h2.1 hr
  have over1 (ho : Over st.first) : Over st'.first := by
    rw [Over,keeps1 ho.2]
    exact ho
  have over2 (ho : Over st.second) : Over st'.second := by
    rw [Over,keeps2 ho.2]
    exact ho
  have early1 (hw : st.first.state=.waiting) : st'.first.state=.waiting := by
    rw [keeps1 (by rw [hw]; simp),hw]
  have early2 (hw : st.second.state=.waiting) : st'.second.state=.waiting := by
    rw [keeps2 (by rw [hw]; simp),hw]
  simp only [Tasks] at h ⊢
  rw [hs]
  cases hstage : st.stage with
  | opening =>
    rw [hstage] at h
    exact ⟨early1 h.1,early2 h.2⟩
  | headers =>
    rw [hstage] at h
    exact ⟨waits1 h.1,early2 h.2⟩
  | refused =>
    rw [hstage] at h
    exact ⟨waits1 h.1,early2 h.2⟩
  | relaying r1 r2 =>
    rw [hstage] at h
    exact ⟨⟨waits1 h.1.1,waits2 h.1.2⟩,fun hr => over1 (h.2.1 hr),fun hr => over2 (h.2.2 hr)⟩
  | closing r1 r2 =>
    rw [hstage] at h
    exact ⟨⟨waits1 h.1.1,waits2 h.1.2⟩,fun hr => over1 (h.2.1 hr),fun hr => over2 (h.2.2 hr)⟩
  | left r1 r2 =>
    rw [hstage] at h
    exact ⟨h.1,h.2.1,over1 h.2.2.1,over2 h.2.2.2⟩
  | returned ok =>
    rw [hstage] at h
    refine ⟨⟨?_,?_⟩,fun ho => ⟨over1 (h.2 ho).1,over2 (h.2 ho).2⟩⟩
    · rw [keeps1 h.1.1]
      exact h.1.1
    · rw [keeps2 h.1.2]
      exact h.1.2
  | panicked =>
    rw [hstage] at h
    exact h

theorem Pump.step_started {c : Codec UInt8 UInt8 TaskError} {p p' : Pump UInt8 UInt8 TaskError}
    {a : PumpAction TaskError} (h : p.step c a=some p') :
    p.state=.running ∧ p'.state≠.waiting ∧ p'.state≠.cancelled := by
  obtain ⟨hr,hs⟩ := Pump.step_steps h
  refine ⟨hr,?_⟩
  cases hs <;> simp [hr]

theorem evicts_running {p : Pump UInt8 UInt8 TaskError} (h : p.state=.running) : evicts p=0 := by
  rw [evicts,h]

/-- Only the stage changes. -/
theorem Controlled.setStage {setup : TunnelSetup} {st : Tunnel} {stage : Stage}
    (h : Controlled setup st) (ht : Tasks { st with stage := stage })
    (hr : Recorded { st with stage := stage }) : Controlled setup { st with stage := stage } :=
  ⟨ht,hr,h.cancelFirst,h.cancelSecond,h.evictions,h.idle⟩

theorem Controlled.step {setup : TunnelSetup} {st st' : Tunnel} {a : TunnelAction}
    (h : Controlled setup st) (hs : tunnelStep setup st a=some st') : Controlled setup st' := by
  have ht := h.tasks
  have hrec := h.recorded
  simp only [Tasks] at ht
  simp only [Recorded] at hrec
  cases tunnelStep_steps hs with
  | request hc =>
    exact ⟨h.tasks.mono rfl (Or.inl rfl) (Or.inl rfl),h.recorded,h.cancelFirst,h.cancelSecond,
      h.evictions,h.idle⟩
  | requestEnd =>
    exact ⟨h.tasks.mono rfl (Or.inl rfl) (Or.inl rfl),h.recorded,h.cancelFirst,h.cancelSecond,
      h.evictions,h.idle⟩
  | answer hw hc =>
    exact ⟨h.tasks.mono rfl (Or.inl rfl) (Or.inl rfl),h.recorded,h.cancelFirst,h.cancelSecond,
      h.evictions,h.idle⟩
  | answerEnd hw =>
    exact ⟨h.tasks.mono rfl (Or.inl rfl) (Or.inl rfl),h.recorded,h.cancelFirst,h.cancelSecond,
      h.evictions,h.idle⟩
  | headersOk hstage =>
    rw [hstage] at ht hrec
    refine ⟨⟨⟨ht.1,by simp⟩,by simp,by simp⟩,hrec,h.cancelFirst,?_,h.evictions,h.idle⟩
    intro hc
    cases hc
  | @headersFail e hstage =>
    rw [hstage] at ht hrec
    refine ⟨ht,Option.some_ne_none e,fun _ => Or.inl (Option.some_ne_none e),h.cancelSecond,?_,
      h.idle⟩
    have he := h.evictions
    rw [refusals,hrec.1,Option.elim_none,Nat.zero_add] at he
    change st.evictions+_=(isH2ConnectionError e).toNat+evicts st.first
    rw [he,Nat.add_comm]
  | openingSend hstage hn =>
    exact ⟨h.tasks.mono rfl (Or.inl rfl) (Or.inl rfl),h.recorded,h.cancelFirst,h.cancelSecond,
      h.evictions,h.idle⟩
  | openingFail hstage =>
    rw [hstage] at ht
    apply h.setStage
    · refine ⟨⟨?_,?_⟩,fun he => by cases he⟩
      · rw [ht.1]
        simp
      · rw [ht.2]
        simp
    · intro he
      cases he
  | spawn hstage hu =>
    rw [hstage] at ht hrec
    have he := h.evictions
    have hw : evicts st.first=0 := by rw [evicts,ht.1]
    refine ⟨⟨by simp,ht.2⟩,hrec,?_,h.cancelSecond,?_,h.idle⟩
    · intro hc
      cases hc
    · rw [hw] at he
      exact he
  | @first a p ha hp =>
    obtain ⟨hr,hw,hc⟩ := Pump.step_started hp
    refine ⟨h.tasks.mono rfl (Or.inr ⟨hr,hw⟩) (Or.inl rfl),h.recorded,fun he => absurd he hc,
      h.cancelSecond,?_,h.idle⟩
    have he := h.evictions
    rw [evicts_running hr,Nat.add_zero] at he
    change st.evictions+evicts p=refusals st+evicts p
    rw [he]
  | @second a p ha hp =>
    obtain ⟨hr,hw,hc⟩ := Pump.step_started hp
    exact ⟨h.tasks.mono rfl (Or.inl rfl) (Or.inr ⟨hr,hw⟩),h.recorded,h.cancelFirst,
      fun he => absurd he hc,h.evictions,h.idle⟩
  | abortFirst hstage hr =>
    refine ⟨h.tasks.mono rfl (Or.inr ⟨hr,by simp⟩) (Or.inl rfl),h.recorded,?_,h.cancelSecond,?_,
      h.idle⟩
    · intro _
      rcases hstage with hstage|⟨r2,hstage⟩
      · rw [hstage] at hrec
        exact Or.inl hrec
      · rw [hstage] at hrec
        exact Or.inr hrec.2
    · have he := h.evictions
      rw [evicts_running hr] at he
      exact he
  | abortSecond hstage hr =>
    rw [hstage] at hrec
    exact ⟨h.tasks.mono rfl (Or.inl rfl) (Or.inr ⟨hr,by simp⟩),h.recorded,h.cancelFirst,
      fun _ => hrec.2,h.evictions,h.idle⟩
  | joinRefused hstage hr =>
    rw [hstage] at ht
    apply h.setStage
    · refine ⟨⟨hr,?_⟩,fun he => by cases he⟩
      rw [ht.2]
      simp
    · intro he
      cases he
  | joinFirst hstage hr =>
    rw [hstage] at ht hrec
    exact h.setStage ⟨ht.1,fun _ => ⟨ht.1.1,hr⟩,ht.2.2⟩ hrec
  | joinSecond hstage hr =>
    rw [hstage] at ht hrec
    exact h.setStage ⟨ht.1,ht.2.1,fun _ => ⟨ht.1.2,hr⟩⟩ hrec
  | collectFirst hstage hr =>
    rw [hstage] at ht hrec
    exact h.setStage ⟨ht.1,fun _ => ⟨ht.1.1,hr⟩,ht.2.2⟩ hrec
  | collectSecond hstage hr =>
    rw [hstage] at ht hrec
    exact h.setStage ⟨ht.1,ht.2.1,fun _ => ⟨ht.1.2,hr⟩⟩ hrec
  | tick hstage hto hw hi =>
    exact ⟨h.tasks.mono rfl (Or.inl rfl) (Or.inl rfl),h.recorded,h.cancelFirst,h.cancelSecond,
      h.evictions,h.idle⟩
  | @expire r1 r2 timeout w hstage hto hw hi =>
    rw [hstage] at ht hrec
    refine ⟨ht,⟨hrec.1,Option.some_ne_none _⟩,?_,fun _ => Option.some_ne_none _,h.evictions,?_⟩
    · intro _
      exact Or.inr (Option.some_ne_none _)
    · intro d hd
      cases hd
      exact ⟨timeout,hto,hi⟩
  | @leave r1 r2 hstage hb =>
    obtain ⟨h1,h2⟩ := Bool.and_eq_true_iff.mp hb
    have hover : (Over st.first ∧ Over st.second) ∧ st.refusal=none := by
      rcases hstage with hstage|hstage
      · rw [hstage] at ht hrec
        exact ⟨⟨ht.2.1 h1,ht.2.2 h2⟩,hrec.1⟩
      · rw [hstage] at ht hrec
        exact ⟨⟨ht.2.1 h1,ht.2.2 h2⟩,hrec.1⟩
    exact h.setStage ⟨h1,h2,hover.1⟩ hover.2
  | expect hstage =>
    rw [hstage] at ht hrec
    obtain ⟨rfl,rfl,h1,h2⟩ := ht
    exact h.setStage ⟨⟨h1.2,h2.2⟩,fun _ => ⟨h1,h2⟩⟩ (fun _ => hrec)
  | advance hl =>
    exact ⟨h.tasks.mono rfl (Or.inl rfl) (Or.inl rfl),h.recorded,h.cancelFirst,h.cancelSecond,
      h.evictions,h.idle⟩

theorem controlled_run {setup : TunnelSetup} {buf pending : Bytes} {now : Nat}
    {as : List TunnelAction} {st : Tunnel}
    (hr : run (tunnelStep setup) (.start setup buf pending now) as=some st) :
    Controlled setup st :=
  run_invariant (fun _ _ _ hi hs => hi.step hs) (controlled_start setup buf pending now) hr

/-- Both directions of an open tunnel. -/
structure Delivers (setup : TunnelSetup) (st : Tunnel) : Prop where
  request : ∃ units, st.first.Flow setup.first st.requested units
  response : ∃ units, st.second.Flow setup.second st.answered units
  opening : st.opened++st.unsent=setup.opening
  early : st.first.state=.waiting → st.first.sent=[]
  late : st.first.state≠.waiting → st.unsent=[]
  stage : st.stage=.opening → st.first.state=.waiting

theorem delivers_start {setup : TunnelSetup} {buf : Bytes}
    (hb : ∀ size∈setup.first.limit, buf.length ≤ size) (pending : Bytes) (now : Nat) :
    Delivers setup (.start setup buf pending now) where
  request := ⟨[],Pump.flow_new setup.first ⟨pending,false⟩ hb⟩
  response := by
    have hz : ∀ size∈setup.second.limit, ([] : Bytes).length ≤ size := fun _ _ => Nat.zero_le _
    exact ⟨[],Pump.flow_new setup.second ⟨[],false⟩ hz⟩
  opening := rfl
  early := fun _ => rfl
  late := fun h => absurd rfl h
  stage := fun _ => rfl

theorem Delivers.step {setup : TunnelSetup} {st st' : Tunnel} {a : TunnelAction}
    (h : Delivers setup st) (hs : tunnelStep setup st a=some st') : Delivers setup st' := by
  obtain ⟨u1,h1⟩ := h.request
  obtain ⟨u2,h2⟩ := h.response
  cases tunnelStep_steps hs with
  | request hc =>
    exact ⟨⟨u1,h1.feed hc _⟩,h.response,h.opening,h.early,h.late,h.stage⟩
  | requestEnd => exact ⟨⟨u1,h1.close⟩,h.response,h.opening,h.early,h.late,h.stage⟩
  | answer hw hc => exact ⟨h.request,⟨u2,h2.feed hc _⟩,h.opening,h.early,h.late,h.stage⟩
  | answerEnd hw => exact ⟨h.request,⟨u2,h2.close⟩,h.opening,h.early,h.late,h.stage⟩
  | headersOk hstage =>
    exact ⟨h.request,⟨u2,h2.setState (by simp)⟩,h.opening,h.early,h.late,fun he => by cases he⟩
  | headersFail hstage =>
    exact ⟨h.request,h.response,h.opening,h.early,h.late,fun he => by cases he⟩
  | @openingSend n hstage hn =>
    refine ⟨h.request,h.response,?_,h.early,fun hw => absurd (h.stage hstage) hw,h.stage⟩
    change st.opened++st.unsent.take n++st.unsent.drop n=_
    rw [List.append_assoc,List.take_append_drop,h.opening]
  | openingFail hstage =>
    exact ⟨h.request,h.response,h.opening,h.early,h.late,fun he => by cases he⟩
  | spawn hstage hu =>
    exact ⟨⟨u1,h1.setState (by simp)⟩,h.response,h.opening,(fun he => by cases he),fun _ => hu,
      fun he => by cases he⟩
  | first ha hp =>
    obtain ⟨hr,hw,-⟩ := Pump.step_started hp
    have hne : st.first.state≠.waiting := by
      rw [hr]
      simp
    exact ⟨h1.step hp,h.response,h.opening,fun he => absurd he hw,fun _ => h.late hne,
      fun he => absurd (h.stage he) hne⟩
  | second ha hp => exact ⟨h.request,h2.step hp,h.opening,h.early,h.late,h.stage⟩
  | abortFirst hstage hr =>
    have hne : st.first.state≠.waiting := by
      rw [hr]
      simp
    exact ⟨⟨u1,h1.setState (by simp)⟩,h.response,h.opening,(fun he => by cases he),
      fun _ => h.late hne,fun he => absurd (h.stage he) hne⟩
  | abortSecond hstage hr =>
    exact ⟨h.request,⟨u2,h2.setState (by simp)⟩,h.opening,h.early,h.late,h.stage⟩
  | tick hstage hto hw hi => exact ⟨h.request,h.response,h.opening,h.early,h.late,h.stage⟩
  | advance hl => exact ⟨h.request,h.response,h.opening,h.early,h.late,h.stage⟩
  | expect hstage =>
    refine ⟨h.request,h.response,h.opening,h.early,h.late,?_⟩
    intro he
    change (if _ then _ else _)=Stage.opening at he
    split_ifs at he
  | _ => exact ⟨h.request,h.response,h.opening,h.early,h.late,fun he => by cases he⟩

theorem delivers_run {setup : TunnelSetup} {buf pending : Bytes} {now : Nat}
    {as : List TunnelAction} {st : Tunnel} (hb : ∀ size∈setup.first.limit, buf.length ≤ size)
    (hr : run (tunnelStep setup) (.start setup buf pending now) as=some st) :
    Delivers setup st :=
  run_invariant (fun _ _ _ hi hs => hi.step hs) (delivers_start hb pending now) hr

/-- The opening, then the units of the first task, are on the request stream or on their way. -/
theorem Delivers.upstream {setup : TunnelSetup} {st : Tunnel} {units : List (Bytes×Bytes)}
    (h : Delivers setup st) (hf : st.first.Flow setup.first st.requested units) :
    st.upstream <+: setup.opening++(units.map Prod.snd).flatten := by
  rw [Tunnel.upstream]
  cases hs : st.first.state with
  | waiting =>
    rw [h.early hs,List.append_nil,← h.opening,List.append_assoc]
    exact List.prefix_append _ _
  | _ =>
    have hu := h.late (by rw [hs]; simp)
    have ho := h.opening
    rw [hu,List.append_nil] at ho
    rw [ho,← hf.output,← List.append_assoc]
    exact List.prefix_append _ _

theorem Delivers.complete {setup : TunnelSetup} {st : Tunnel} {units : List (Bytes×Bytes)}
    (h : Delivers setup st) (hf : st.first.Flow setup.first st.requested units)
    (hs : st.first.state=.ok) : st.upstream=setup.opening++(units.map Prod.snd).flatten := by
  have hu := h.late (by rw [hs]; simp)
  have ho := h.opening
  rw [hu,List.append_nil] at ho
  rw [Tunnel.upstream,ho,(hf.complete hs).2.2]

end Tobira.Relay
