import Tobira.Framework.Pipe

namespace Tobira.Framework

variable {α β ε : Type*}

/-- What a task finds at the front of its buffer. -/
inductive Next (α β ε : Type*) where
  | unit (out : List β) (rest : List α)
  | more
  | bad (e : ε)

/-- How a task turns what it reads into what it writes. Each unit comes from a non-empty front of
the buffer and is at most `gain` times as long; a task whose reads are bounded reads into an
empty buffer. -/
structure Codec (α β ε : Type*) where
  limit : Option Nat
  gain : Nat
  next : List α → Next α β ε
  unit : List α → List β → Prop
  limit_pos : ∀ size∈limit, 0 < size
  whole : ∀ size∈limit, ∀ buf, next buf=.more → buf=[]
  spec : ∀ buf out rest, (∀ size∈limit, buf.length ≤ size) → next buf=.unit out rest →
    ∃ inp, 0 < inp.length ∧ buf=inp++rest ∧ out.length ≤ gain*inp.length ∧ unit inp out

inductive TaskState (ε : Type*) where
  | waiting
  | running
  | ok
  | failed (e : ε)
  | cancelled
  deriving DecidableEq,Repr

/-- The task has been started and has not ended. -/
def TaskState.left : TaskState ε → Nat
  | .running => 1
  | _ => 0

/-- A task that copies from a source through a codec: what it has read, what it is writing and
what it has written. -/
structure Pump (α β ε : Type*) where
  source : Pipe α
  buf : List α
  pending : List β
  sent : List β
  state : TaskState ε
  deriving DecidableEq,Repr

inductive PumpAction (ε : Type*) where
  | pull (n : Nat)
  | take
  | put (n : Nat)
  | finish
  | reject
  | fail (e : ε)
  deriving DecidableEq,Repr

namespace Pump

def new (source : Pipe α) (buf : List α) : Pump α β ε := ⟨source,buf,[],[],.waiting⟩

def act (c : Codec α β ε) (p : Pump α β ε) : PumpAction ε → Option (Pump α β ε)
  | .pull n =>
    match p.pending,c.next p.buf with
    | [],.more =>
      if 0<n ∧ n ≤ p.source.items.length ∧ ∀ size∈c.limit, n ≤ size then
        some { p with
          source := ⟨p.source.items.drop n,p.source.closed⟩
          buf := p.buf++p.source.items.take n }
      else none
    | _,_ => none
  | .take =>
    match p.pending,c.next p.buf with
    | [],.unit out rest => some { p with buf := rest,pending := out }
    | _,_ => none
  | .put n =>
    if 0<n ∧ n ≤ p.pending.length then
      some { p with pending := p.pending.drop n,sent := p.sent++p.pending.take n }
    else none
  | .finish =>
    match p.pending,c.next p.buf,p.source with
    | [],.more,⟨[],true⟩ => some { p with state := .ok }
    | _,_,_ => none
  | .reject =>
    match p.pending,c.next p.buf with
    | [],.bad e => some { p with state := .failed e }
    | _,_ => none
  | .fail e => some { p with state := .failed e }

/-- Only a running task does anything. -/
def step (c : Codec α β ε) (p : Pump α β ε) (a : PumpAction ε) : Option (Pump α β ε) :=
  match p.state with
  | .running => p.act c a
  | _ => none

/-- Everything a step can do. -/
inductive Steps (c : Codec α β ε) (p : Pump α β ε) : PumpAction ε → Pump α β ε → Prop where
  | pull {n : Nat} (empty : p.pending=[]) (more : c.next p.buf=.more)
      (len : 0<n ∧ n ≤ p.source.items.length) (fits : ∀ size∈c.limit, n ≤ size) :
      Steps c p (.pull n) { p with
        source := ⟨p.source.items.drop n,p.source.closed⟩
        buf := p.buf++p.source.items.take n }
  | take {out : List β} {rest : List α} (empty : p.pending=[]) (unit : c.next p.buf=.unit out rest) :
      Steps c p .take { p with buf := rest,pending := out }
  | put {n : Nat} (len : 0<n ∧ n ≤ p.pending.length) :
      Steps c p (.put n) { p with pending := p.pending.drop n,sent := p.sent++p.pending.take n }
  | finish (empty : p.pending=[]) (more : c.next p.buf=.more) (drained : p.source=⟨[],true⟩) :
      Steps c p .finish { p with state := .ok }
  | reject {e : ε} (empty : p.pending=[]) (bad : c.next p.buf=.bad e) :
      Steps c p .reject { p with state := .failed e }
  | fail (e : ε) : Steps c p (.fail e) { p with state := .failed e }

theorem act_steps {c : Codec α β ε} {p p' : Pump α β ε} {a : PumpAction ε}
    (h : p.act c a=some p') : Steps c p a p' := by
  cases a with
  | pull n =>
    simp only [act] at h
    split at h
    · rename_i hp hn
      split_ifs at h with hc
      cases h
      exact .pull hp hn ⟨hc.1,hc.2.1⟩ hc.2.2
    · cases h
  | take =>
    simp only [act] at h
    split at h
    · cases h
      exact .take ‹_› ‹_›
    · cases h
  | put n =>
    simp only [act] at h
    split_ifs at h with hc
    cases h
    exact .put hc
  | finish =>
    simp only [act] at h
    split at h
    · cases h
      exact .finish ‹_› ‹_› ‹_›
    · cases h
  | reject =>
    simp only [act] at h
    split at h
    · cases h
      exact .reject ‹_› ‹_›
    · cases h
  | fail e =>
    cases h
    exact .fail e

theorem step_steps {c : Codec α β ε} {p p' : Pump α β ε} {a : PumpAction ε}
    (h : p.step c a=some p') : p.state=.running ∧ Steps c p a p' := by
  simp only [step] at h
  split at h
  · exact ⟨‹_›,act_steps h⟩
  · cases h

/-- The units taken so far: what they came from, then what is buffered and what the source
still holds, is everything the source was given; what they gave is written or being written. -/
structure Flow (c : Codec α β ε) (fed : List α) (p : Pump α β ε) (units : List (List α×List β)) :
    Prop where
  input : (units.map Prod.fst).flatten++(p.buf++p.source.items)=fed
  output : p.sent++p.pending=(units.map Prod.snd).flatten
  units : ∀ u∈units, c.unit u.1 u.2
  fits : ∀ size∈c.limit, p.buf.length ≤ size
  ended : p.state=.ok → p.source=⟨[],true⟩ ∧ p.pending=[] ∧ c.next p.buf=.more

theorem flow_new (c : Codec α β ε) (source : Pipe α) {buf : List α}
    (h : ∀ size∈c.limit, buf.length ≤ size) : Flow c (buf++source.items) (new source buf) [] where
  input := rfl
  output := rfl
  units := fun _ hu => by cases hu
  fits := h
  ended := fun ho => by cases ho

theorem Flow.step {c : Codec α β ε} {fed : List α} {p p' : Pump α β ε} {a : PumpAction ε}
    {units : List (List α×List β)} (h : Flow c fed p units) (hs : p.step c a=some p') :
    ∃ units', Flow c fed p' units' := by
  obtain ⟨hrun,hs⟩ := step_steps hs
  have running : p.state≠.ok := by
    rw [hrun]
    simp
  cases hs with
  | pull empty more len fits =>
    refine ⟨units,⟨?_,h.output,h.units,?_,fun ho => absurd ho running⟩⟩
    · simpa using h.input
    · intro size hsize
      rw [c.whole size hsize p.buf more,List.nil_append,List.length_take]
      exact Nat.le_trans (Nat.min_le_left _ _) (fits size hsize)
  | @take out rest empty unit =>
    obtain ⟨inp,-,hb,-,hu⟩ := c.spec p.buf out rest h.fits unit
    refine ⟨units++[(inp,out)],⟨?_,?_,?_,?_,fun ho => absurd ho running⟩⟩
    · have hi := h.input
      rw [hb] at hi
      simpa using hi
    · have ho := h.output
      rw [empty,List.append_nil] at ho
      simp [ho]
    · intro u hmem
      rcases List.mem_append.mp hmem with hmem|hmem
      · exact h.units u hmem
      · rw [List.mem_singleton.mp hmem]
        exact hu
    · intro size hsize
      have hl := h.fits size hsize
      rw [hb,List.length_append] at hl
      change rest.length ≤ size
      omega
  | @put n len =>
    refine ⟨units,⟨h.input,?_,h.units,h.fits,fun ho => absurd ho running⟩⟩
    change p.sent++p.pending.take n++p.pending.drop n=_
    rw [List.append_assoc,List.take_append_drop,h.output]
  | finish empty more drained =>
    exact ⟨units,⟨h.input,h.output,h.units,h.fits,fun _ => ⟨drained,empty,more⟩⟩⟩
  | reject empty bad =>
    exact ⟨units,⟨h.input,h.output,h.units,h.fits,fun ho => by cases ho⟩⟩
  | fail e => exact ⟨units,⟨h.input,h.output,h.units,h.fits,fun ho => by cases ho⟩⟩

/-- A task that has not ended well may be started, stopped, or let go. -/
theorem Flow.setState {c : Codec α β ε} {fed : List α} {p : Pump α β ε}
    {units : List (List α×List β)} (h : Flow c fed p units) {state : TaskState ε}
    (hs : state≠.ok) : Flow c fed { p with state := state } units :=
  ⟨h.input,h.output,h.units,h.fits,fun ho => absurd ho hs⟩

/-- The source sends more. -/
theorem Flow.feed {c : Codec α β ε} {fed : List α} {p : Pump α β ε}
    {units : List (List α×List β)} (h : Flow c fed p units) (hc : p.source.closed=false)
    (more : List α) :
    Flow c (fed++more) { p with source := ⟨p.source.items++more,p.source.closed⟩ } units where
  input := by
    rw [← h.input]
    simp
  output := h.output
  units := h.units
  fits := h.fits
  ended := by
    intro ho
    rw [(h.ended ho).1] at hc
    cases hc

theorem Flow.close {c : Codec α β ε} {fed : List α} {p : Pump α β ε}
    {units : List (List α×List β)} (h : Flow c fed p units) :
    Flow c fed { p with source := ⟨p.source.items,true⟩ } units where
  input := h.input
  output := h.output
  units := h.units
  fits := h.fits
  ended := by
    intro ho
    obtain ⟨hd,hp,hm⟩ := h.ended ho
    exact ⟨by rw [hd],hp,hm⟩

/-- A task that ended well has taken everything but what its codec leaves behind, and has
written all units. -/
theorem Flow.complete {c : Codec α β ε} {fed : List α} {p : Pump α β ε}
    {units : List (List α×List β)} (h : Flow c fed p units) (ho : p.state=.ok) :
    (units.map Prod.fst).flatten++p.buf=fed ∧ c.next p.buf=.more ∧
      p.sent=(units.map Prod.snd).flatten := by
  obtain ⟨hd,hp,hm⟩ := h.ended ho
  have hi := h.input
  have hout := h.output
  rw [hd,List.append_nil] at hi
  rw [hp,List.append_nil] at hout
  exact ⟨hi,hm,hout⟩

/-- What a task still has to do. -/
def load (c : Codec α β ε) (p : Pump α β ε) : Nat :=
  (c.gain+2)*p.source.items.length+(c.gain+1)*p.buf.length+p.pending.length+p.state.left

theorem step_load {c : Codec α β ε} {p p' : Pump α β ε} {a : PumpAction ε}
    (hf : ∀ size∈c.limit, p.buf.length ≤ size) (hs : p.step c a=some p') :
    p'.load c<p.load c := by
  obtain ⟨hrun,hs⟩ := step_steps hs
  have hleft : p.state.left=1 := by
    rw [hrun]
    rfl
  cases hs with
  | @pull n empty more len fits =>
    obtain ⟨k,hk⟩ := Nat.exists_eq_add_of_le len.2
    have hpos := len.1
    simp only [load,List.length_append,List.length_take,List.length_drop,hk]
    rw [Nat.min_eq_left (by omega),Nat.add_sub_cancel_left,Nat.mul_add,Nat.mul_add,
      Nat.add_mul c.gain 2 n,Nat.add_mul c.gain 1 n]
    omega
  | @take out rest empty unit =>
    obtain ⟨inp,hpos,hb,hlen,-⟩ := c.spec p.buf out rest hf unit
    simp only [load,hb,empty,List.length_append,List.length_nil]
    rw [Nat.mul_add,Nat.add_mul c.gain 1 inp.length]
    omega
  | @put n len =>
    simp only [load,List.length_drop]
    omega
  | finish empty more drained =>
    change _+_+_+0<_
    simp only [load,hleft]
    omega
  | reject empty bad =>
    change _+_+_+0<_
    simp only [load,hleft]
    omega
  | fail e =>
    change _+_+_+0<_
    simp only [load,hleft]
    omega

theorem put_none {c : Codec α β ε} {p : Pump α β ε} (hrun : p.state=.running)
    (h : p.step c (.put 1)=none) : p.pending=[] := by
  simp only [step,hrun,act] at h
  split_ifs at h with hc
  rw [← List.length_eq_zero_iff]
  omega

/-- A running task that has written everything and can do nothing waits for its source. -/
theorem stuck {c : Codec α β ε} {p : Pump α β ε} (hrun : p.state=.running) (hp : p.pending=[])
    (hpull : p.step c (.pull 1)=none) (htake : p.step c .take=none)
    (hfinish : p.step c .finish=none) (hreject : p.step c .reject=none) :
    c.next p.buf=.more ∧ p.source=⟨[],false⟩ := by
  simp only [step,hrun,act,hp] at hpull htake hfinish hreject
  have hm : c.next p.buf=.more := by
    cases hn : c.next p.buf with
    | unit out rest => simp [hn] at htake
    | more => rfl
    | bad e => simp [hn] at hreject
  simp only [hm] at hpull hfinish
  have hi : p.source.items=[] := by
    split_ifs at hpull with hc
    rw [← List.length_eq_zero_iff]
    by_contra hne
    exact hc ⟨Nat.one_pos,by omega,fun size hs => c.limit_pos size hs⟩
  have hc : p.source.closed=false := by
    cases hclosed : p.source.closed with
    | false => rfl
    | true =>
      have hd : p.source=⟨[],true⟩ := by
        rw [← hi,← hclosed]
      rw [hd] at hfinish
      cases hfinish
  refine ⟨hm,?_⟩
  rw [← hi,← hc]

end Pump

end Tobira.Framework
