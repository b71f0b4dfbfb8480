import Tobira.Transport.Sender

namespace Tobira.Transport

open Tobira.Framework

/-- A send window that reopens again and again, with zeros and grants of any size between. -/
structure Grants where
  capacity : Nat → Nat
  live : ∀ n, ∃ k, n≤k ∧ 0<capacity k

def Grants.upTo (g : Grants) (n : Nat) : List Capacity :=
  (List.range n).map (fun k => .granted (g.capacity k))

theorem Grants.upTo_granted (g : Grants) (n : Nat) : AllGranted (g.upTo n) := by
  intro c hc
  obtain ⟨k,-,rfl⟩ := List.mem_map.mp hc
  exact ⟨_,rfl⟩

theorem positives_append (a b : List Capacity) : positives (a++b)=positives a+positives b := by
  induction a with
  | nil => simp [positives]
  | cons c a ih =>
    cases c with
    | granted n =>
      simp only [List.cons_append,positives,ih]
      omega
    | closed => simp only [List.cons_append,positives,ih]
    | failed e => simp only [List.cons_append,positives,ih]

theorem Grants.positives_mono (g : Grants) {n k : Nat} (h : n≤k) :
    positives (g.upTo n)≤positives (g.upTo k) := by
  induction h with
  | refl => exact le_refl _
  | step h ih =>
    apply ih.trans
    simp only [Grants.upTo,List.range_succ,List.map_append,positives_append]
    omega

theorem Grants.positives_unbounded (g : Grants) (b : Nat) : ∃ n, b≤positives (g.upTo n) := by
  induction b with
  | zero => exact ⟨0,Nat.zero_le _⟩
  | succ b ih =>
    obtain ⟨n,hn⟩ := ih
    obtain ⟨k,hk,hpos⟩ := g.live n
    refine ⟨k+1,?_⟩
    have hm := g.positives_mono hk
    have hs : positives (g.upTo (k+1))=positives (g.upTo k)+1 := by
      simp only [Grants.upTo,List.range_succ,List.map_append,positives_append,List.map_cons,
        List.map_nil,positives,if_neg (Nat.pos_iff_ne_zero.mp hpos)]
    omega

/-- One group of DATA frames for each read, then the empty DATA frame that ends the stream. -/
def Framed (reads : List Bytes) (sent : List DataFrame) : Prop :=
  ∃ parts : List (List DataFrame), sent=parts.flatten++[⟨[],true⟩] ∧
    List.Forall₂ (fun d part => Carries (encodeGrpcFrame d) part) reads parts

theorem encodeGrpcFrame_ne_nil (d : Bytes) : encodeGrpcFrame d≠[] := by
  rw [encodeGrpcFrame_eq]
  simp

theorem rawToGrpc_framed {reads : List Bytes} {caps left : List Capacity} {sent : List DataFrame}
    (hr : ∀ d∈reads, d≠[]) (h : rawToGrpc reads caps=.ok (sent,left)) : Framed reads sent := by
  induction reads generalizing caps sent with
  | nil =>
    simp only [rawToGrpc,sendGrpcData,if_true,Except.ok.injEq,Prod.mk.injEq] at h
    exact ⟨[],by simp [← h.1],List.Forall₂.nil⟩
  | cons d ds ih =>
    simp only [rawToGrpc,if_neg (hr d (by simp))] at h
    obtain ⟨⟨part,caps'⟩,hs,h⟩ := bind_ok h
    obtain ⟨⟨rest,l⟩,ht,h⟩ := bind_ok h
    cases h
    obtain ⟨parts,hp,hf⟩ := ih (fun x hx => hr x (by simp [hx])) ht
    have hc := sendGrpcData_carries (encodeGrpcFrame_ne_nil d) hs
    exact ⟨part::parts,by simp [hp],List.Forall₂.cons hc hf⟩

theorem Framed.wire_eq {reads : List Bytes} {sent : List DataFrame} (h : Framed reads sent) :
    wire sent=(reads.map encodeGrpcFrame).flatten := by
  obtain ⟨parts,rfl,hf⟩ := h
  rw [wire_append,show wire [⟨[],true⟩]=[] from rfl,List.append_nil]
  induction hf with
  | nil => rfl
  | cons hc _ ih => rw [List.flatten_cons,wire_append,ih,hc.1,List.map_cons,List.flatten_cons]

theorem exactFrame_encode {d : Bytes} (h : encodedLen d ≤ maxGrpcFrameSize) :
    ExactFrame (encodeGrpcFrame d) := by
  have h32 : encodedLen d<2^32 := by
    simp only [maxGrpcFrameSize] at h
    omega
  have ho := outerLen_encode d [] h32
  rw [List.append_nil] at ho
  exact ⟨by rw [encodeGrpcFrame_length,ho],by rw [ho]; exact h⟩

theorem accepted_encode (m : Build) {d : Bytes} (h : encodedLen d ≤ maxGrpcFrameSize) :
    Decodes m (encodeGrpcFrame d) ∧ acceptedData m (encodeGrpcFrame d)=some d := by
  have hf := frameData_encode d [] h
  rw [List.append_nil] at hf
  exact ⟨decodes_of_fits m hf.2,by rw [acceptedData_of_fits m hf.2,hf.1]⟩

theorem read_fits {d : Bytes} (h : d.length ≤ rawToGrpcReadBufSize) :
    encodedLen d ≤ maxGrpcFrameSize := by
  have he := encodedLen_le d
  simp only [rawToGrpcReadBufSize] at h
  simp only [maxGrpcFrameSize]
  omega

theorem accepted_encode_all (m : Build) {reads : List Bytes}
    (hr : ∀ d∈reads, d.length ≤ rawToGrpcReadBufSize) :
    (reads.map encodeGrpcFrame).filterMap (acceptedData m)=reads := by
  rw [List.filterMap_map]
  conv_rhs => rw [← List.filterMap_some (l := reads)]
  apply List.filterMap_congr
  intro d hd
  exact (accepted_encode m (read_fits (hr d hd))).2

/-- The receiving side undoes the framing for every chunking of the bytes sent. -/
theorem grpcToRaw_framed (m : Build) {reads chunks : List Bytes}
    (hr : ∀ d∈reads, d.length ≤ rawToGrpcReadBufSize)
    (hc : chunks.flatten=(reads.map encodeGrpcFrame).flatten) (io : WriterAnswers) (w : Writer) :
    grpcToRaw m io ⟨chunks,none⟩ w=.ok ⟨w.out++reads.flatten,true⟩ ∨
    StoppedBy io (grpcToRaw m io ⟨chunks,none⟩ w) := by
  have hrec : Received m chunks (reads.map encodeGrpcFrame) [] := by
    refine ⟨by rw [hc,List.append_nil],?_⟩
    intro f hf
    obtain ⟨d,hd,rfl⟩ := List.mem_map.mp hf
    have hl := read_fits (hr d hd)
    exact ⟨exactFrame_encode hl,(accepted_encode m hl).1⟩
  have h := grpcToRaw_incomplete hrec (Or.inl (by decide)) io w
  rw [accepted_encode_all m hr] at h
  exact h

theorem rawToGrpc_progress {reads : List Bytes} {caps : List Capacity} (hr : ∀ d∈reads, d≠[])
    (hg : AllGranted caps)
    (hp : (reads.map encodeGrpcFrame).flatten.length≤positives caps) :
    ∃ sent left, rawToGrpc reads caps=.ok (sent,left) := by
  induction reads generalizing caps with
  | nil => exact ⟨_,caps,by simp only [rawToGrpc,sendGrpcData,if_true]; rfl⟩
  | cons d ds ih =>
    rw [List.map_cons,List.flatten_cons,List.length_append] at hp
    obtain ⟨part,caps',hs,hg',hq⟩ :=
      sendChunks_progress false caps (encodeGrpcFrame d) hg (by omega)
    obtain ⟨rest,left,ht⟩ := @ih caps' (fun x hx => hr x (by simp [hx])) hg' (by omega)
    have hsend : sendGrpcData caps (encodeGrpcFrame d) false=.ok (part,caps') := by
      rw [sendGrpcData,if_neg (encodeGrpcFrame_ne_nil d),hs]
    refine ⟨part++rest,left,?_⟩
    simp only [rawToGrpc,if_neg (hr d (by simp)),hsend,ht,bind,Except.bind,pure,Except.pure]

/-- Whatever the grants and the chunking, the sender frames each read exactly and the
receiver delivers the reads in order, to any writer that does not itself fail or stop taking them;
and a window that keeps reopening lets the sender finish. -/
theorem framing_round_trip (m : Build) (reads : List Bytes)
    (hr : ∀ d∈reads, 0<d.length ∧ d.length ≤ rawToGrpcReadBufSize) :
    (∀ caps sent left, rawToGrpc reads caps=.ok (sent,left) →
      Framed reads sent ∧ ∀ chunks : List Bytes, chunks.flatten=wire sent →
        grpcToRaw m .reliable ⟨chunks,none⟩ ⟨[],false⟩=.ok ⟨reads.flatten,true⟩ ∧
        ∀ io, grpcToRaw m io ⟨chunks,none⟩ ⟨[],false⟩=.ok ⟨reads.flatten,true⟩ ∨
          StoppedBy io (grpcToRaw m io ⟨chunks,none⟩ ⟨[],false⟩)) ∧
    (∀ g : Grants, ∃ n sent left, rawToGrpc reads (g.upTo n)=.ok (sent,left)) := by
  have hne : ∀ d∈reads, d≠[] := fun d hd => List.ne_nil_of_length_pos (hr d hd).1
  constructor
  · intro caps sent left h
    have hf := rawToGrpc_framed hne h
    refine ⟨hf,?_⟩
    intro chunks hc
    rw [hf.wire_eq] at hc
    have hall := fun io => grpcToRaw_framed m (fun d hd => (hr d hd).2) hc io ⟨[],false⟩
    exact ⟨(hall .reliable).resolve_right (reliable_not_stopped _),hall⟩
  · intro g
    obtain ⟨n,hn⟩ := g.positives_unbounded (reads.map encodeGrpcFrame).flatten.length
    obtain ⟨sent,left,h⟩ := rawToGrpc_progress hne (g.upTo_granted n) hn
    exact ⟨n,sent,left,h⟩

/-- Two reads over a window that opens with a zero, then four bytes, then everything,
cut by the network into three chunks of which one is empty. -/
theorem framing_round_trip_two_reads :
    rawToGrpc [[1,2,3],[4]] [.granted 0,.granted 4,.granted 100,.granted 100]=
      .ok ([⟨[0,0,0,0],false⟩,⟨[5,0x0A,3,1,2,3],false⟩,⟨[0,0,0,0,3,0x0A,1,4],false⟩,
        ⟨[],true⟩],[]) ∧
    grpcToRaw .release .reliable ⟨[[0,0,0],[],[0,5,0x0A,3,1,2,3,0,0,0,0,3,0x0A,1,4]],none⟩
      ⟨[],false⟩=.ok ⟨[1,2,3,4],true⟩ := by
  have sent : rawToGrpc [[1,2,3],[4]] [.granted 0,.granted 4,.granted 100,.granted 100]=
      .ok ([⟨[0,0,0,0],false⟩,⟨[5,0x0A,3,1,2,3],false⟩,⟨[0,0,0,0,3,0x0A,1,4],false⟩,
        ⟨[],true⟩],[]) := by decide +kernel
  have received := ((framing_round_trip .release [[1,2,3],[4]] (by decide)).1 _ _ _ sent).2
    [[0,0,0],[],[0,5,0x0A,3,1,2,3,0,0,0,0,3,0x0A,1,4]] rfl
  exact ⟨sent,received.1⟩

end Tobira.Transport
