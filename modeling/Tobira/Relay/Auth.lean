import Tobira.Transport.GrpcToRaw

namespace Tobira.Relay

open Tobira.Framework Tobira.Transport

def authIdSize : Nat := 16

/-- `read_exact` over the segments a TCP stream delivers; the rest of the last segment stays
in the socket. `none` is an end of the stream before `n` bytes. -/
def readExact : Nat → List Bytes → Option (Bytes×List Bytes)
  | 0,segments => some ([],segments)
  | _+1,[] => none
  | n+1,segment::segments =>
    if n+1 ≤ segment.length then some (segment.take (n+1),segment.drop (n+1)::segments)
    else (readExact (n+1-segment.length) segments).map (fun p => (segment++p.1,p.2))

/-- The first bytes of the stream, however it is cut. -/
theorem readExact_eq {n : Nat} {segments rest : List Bytes} {taken : Bytes}
    (h : readExact n segments=some (taken,rest)) :
    taken=segments.flatten.take n ∧ rest.flatten=segments.flatten.drop n ∧
      n ≤ segments.flatten.length := by
  induction segments generalizing n taken rest with
  | nil =>
    cases n with
    | zero =>
      cases h
      simp
    | succ n => cases h
  | cons segment segments ih =>
    cases n with
    | zero =>
      cases h
      simp
    | succ n =>
      rw [readExact] at h
      split_ifs at h with hn
      · cases h
        refine ⟨?_,?_,?_⟩
        · rw [List.flatten_cons,List.take_append_of_le_length hn]
        · rw [List.flatten_cons,List.flatten_cons,List.drop_append_of_le_length hn]
        · rw [List.flatten_cons,List.length_append]
          omega
      · obtain ⟨⟨t,q⟩,hr,hq⟩ := Option.map_eq_some_iff.mp h
        cases hq
        obtain ⟨ht,hq,hl⟩ := ih hr
        have hs : segment.length≤n+1 := by omega
        refine ⟨?_,?_,?_⟩
        · rw [List.flatten_cons,List.take_append,ht,List.take_of_length_le hs]
        · rw [List.flatten_cons,List.drop_append,hq,List.drop_of_length_le hs,List.nil_append]
        · rw [List.flatten_cons,List.length_append]
          omega

theorem readExact_total {n : Nat} {segments : List Bytes} (h : n ≤ segments.flatten.length) :
    ∃ taken rest, readExact n segments=some (taken,rest) := by
  induction segments generalizing n with
  | nil =>
    cases n with
    | zero => exact ⟨[],[],rfl⟩
    | succ n => simp at h
  | cons segment segments ih =>
    cases n with
    | zero => exact ⟨[],_,rfl⟩
    | succ n =>
      rw [readExact]
      split_ifs with hn
      · exact ⟨_,_,rfl⟩
      · rw [List.flatten_cons,List.length_append] at h
        obtain ⟨taken,rest,hr⟩ := @ih (n+1-segment.length) (by omega)
        exact ⟨_,_,by rw [hr]; rfl⟩

/-- The data of the frames that decode, in order. -/
def framesData (m : Build) (frames : List Bytes) : Bytes :=
  (frames.filterMap (acceptedData m)).flatten

@[simp] theorem framesData_nil (m : Build) : framesData m []=[] := rfl

@[simp] theorem framesData_append (m : Build) (a b : List Bytes) :
    framesData m (a++b)=framesData m a++framesData m b := by
  simp [framesData]

/-- The loop of `read_initial_auth`. -/
def readInitialAuthFrom (m : Build) (cached : List Bytes) (raw : Bytes) (r : GrpcFrameReader) :
    Except Stop (List Bytes×Bytes×GrpcFrameReader) :=
  if authIdSize ≤ raw.length then .ok (cached,raw.take authIdSize,r)
  else
    match _h : r.nextFrame with
    | .error e => .error (.error e)
    | .ok (none,_) => .error (.error .endedBeforeAuthId)
    | .ok (some frame,q) =>
      match decodeGrpcFrameData m frame with
      | .error p => .error (.panic p)
      | .ok data => readInitialAuthFrom m (cached++[frame]) (raw++data.getD []) q
termination_by r.bytes.length
decreasing_by exact nextFrame_lt _h

def readInitialAuth (m : Build) (r : GrpcFrameReader) :
    Except Stop (List Bytes×Bytes×GrpcFrameReader) := readInitialAuthFrom m [] [] r

theorem framesData_cons (m : Build) (f : Bytes) (fs : List Bytes) :
    framesData m (f::fs)=(acceptedData m f).getD []++framesData m fs := by
  cases ha : acceptedData m f <;> simp [framesData,ha]

/-- What `read_initial_auth` hands on: the frames it took off the stream, the first bytes of
their data, and the reader with the rest. -/
structure InitialAuth (m : Build) (raw : Bytes) (r : GrpcFrameReader) (cached : List Bytes)
    (authId : Bytes) (q : GrpcFrameReader) : Prop where
  bytes : r.bytes=cached.flatten++q.bytes
  frames : ∀ f∈cached, ExactFrame f ∧ Decodes m f
  enough : authIdSize≤(raw++framesData m cached).length
  authId : authId=(raw++framesData m cached).take authIdSize
  ending : q.recvStream.ending=r.recvStream.ending

theorem readInitialAuthFrom_spec {m : Build} {cached frames : List Bytes} {raw authId : Bytes}
    {r q : GrpcFrameReader} (h : readInitialAuthFrom m cached raw r=.ok (frames,authId,q)) :
    ∃ new, frames=cached++new ∧ InitialAuth m raw r new authId q := by
  induction hn : r.bytes.length using Nat.strongRecOn generalizing r raw cached with
  | ind n ih =>
    rw [readInitialAuthFrom] at h
    split_ifs at h with hraw
    · cases h
      refine ⟨[],by simp,⟨by simp,by simp,?_,?_,rfl⟩⟩
      · simpa using hraw
      · simp
    · split at h
      · cases h
      · cases h
      · rename_i frame p hp
        obtain ⟨hcat,hexact⟩ := peekFrame_frame (nextFrame_some hp)
        obtain ⟨p',hp',-,hend⟩ := nextFrame_frame (nextFrame_some hp)
        rw [hp] at hp'
        cases hp'
        cases hd : decodeGrpcFrameData m frame with
        | error e =>
          rw [hd] at h
          cases h
        | ok data =>
          rw [hd] at h
          have hacc : acceptedData m frame=data := by rw [acceptedData,hd]
          have hlt : p.bytes.length<n := hn ▸ nextFrame_lt hp
          obtain ⟨new,hf,ha⟩ := ih _ hlt h rfl
          have hdata : raw++framesData m (frame::new)=raw++data.getD []++framesData m new := by
            rw [framesData_cons,hacc,List.append_assoc]
          refine ⟨frame::new,by simp [hf],⟨?_,?_,?_,?_,ha.ending.trans hend⟩⟩
          · rw [hcat,ha.bytes,List.flatten_cons,List.append_assoc]
          · intro f hmem
            rcases List.mem_cons.mp hmem with rfl|hmem
            · exact ⟨hexact,data,hd⟩
            · exact ha.frames f hmem
          · rw [hdata]
            exact ha.enough
          · rw [hdata]
            exact ha.authId

theorem readInitialAuth_spec {m : Build} {cached : List Bytes} {authId : Bytes}
    {r q : GrpcFrameReader} (h : readInitialAuth m r=.ok (cached,authId,q)) :
    InitialAuth m [] r cached authId q := by
  obtain ⟨new,rfl,ha⟩ := readInitialAuthFrom_spec h
  exact ha

/-- Enough data in frames that decode is enough for the Auth ID, wherever it is cut. -/
theorem readInitialAuthFrom_total {m : Build} {frames : List Bytes} {rest : Bytes}
    {cached : List Bytes} {raw : Bytes} {r : GrpcFrameReader} (hb : r.bytes=frames.flatten++rest)
    (hf : ∀ f∈frames, ExactFrame f ∧ Decodes m f)
    (he : authIdSize≤(raw++framesData m frames).length) :
    ∃ out, readInitialAuthFrom m cached raw r=.ok out := by
  induction frames generalizing cached raw r with
  | nil =>
    rw [readInitialAuthFrom,if_pos (by simpa using he)]
    exact ⟨_,rfl⟩
  | cons f fs ih =>
    rw [readInitialAuthFrom]
    split_ifs with hraw
    · exact ⟨_,rfl⟩
    · obtain ⟨hexact,data,hd⟩ := hf f (by simp)
      have hp : peekFrame r.bytes=.frame f (fs.flatten++rest) := by
        rw [hb,List.flatten_cons,List.append_assoc]
        exact peekFrame_exact _ hexact
      obtain ⟨q,hq,hqb,-⟩ := nextFrame_frame hp
      have hacc : acceptedData m f=data := by rw [acceptedData,hd]
      have hnext := @ih (cached++[f]) (raw++data.getD []) q hqb (fun g hg => hf g (by simp [hg]))
        (by rw [framesData_cons,hacc] at he; simpa [Nat.add_assoc] using he)
      split
      · rename_i e heq
        rw [hq] at heq
        cases heq
      · rename_i p heq
        rw [hq] at heq
        cases heq
      · rename_i frame p heq
        rw [hq] at heq
        cases heq
        rw [hd]
        exact hnext

/-- `skip_auth_id_bytes`: what is left of the data and of the bytes to skip. -/
def skipAuthIdBytes (data : Bytes) (skip : Nat) : Bytes×Nat :=
  let n := min skip data.length
  (data.drop n,skip-n)

/-- Skipping frame by frame is dropping from the whole. -/
theorem skipAuthIdBytes_eq (before data : Bytes) :
    (before++data).drop authIdSize=before.drop authIdSize++
      (skipAuthIdBytes data (authIdSize-before.length)).1 ∧
    (skipAuthIdBytes data (authIdSize-before.length)).2=
      authIdSize-(before++data).length := by
  constructor
  · rw [List.drop_append]
    congr 1
    by_cases h : authIdSize-before.length≤data.length
    · simp only [skipAuthIdBytes,min_eq_left h]
    · have hl : data.length≤authIdSize-before.length := by omega
      simp only [skipAuthIdBytes,min_eq_right hl]
      rw [List.drop_of_length_le hl,List.drop_length]
  · simp only [skipAuthIdBytes,List.length_append]
    omega

end Tobira.Relay
