import Tobira.Daemon.Model
import Tobira.Framework.SocketText
import Tobira.Pool.Handshakes

namespace Tobira.Daemon

open Tobira.Framework Tobira.Framework.Net

/-- The condition that `build_validator` checks. -/
def IsSocketAddr (text : Text) : Prop := ∃ addr, parseSocketAddr text=some addr

/-- A host that is an address shows where it begins, whatever stands before it. -/
theorem host_unique {before before' host host' : Text}
    (h : (∀ c∈host, Ipv4Char c) ∨ ∃ inner, host = '['::(inner++[']']) ∧ '['∉inner)
    (h' : (∀ c∈host', Ipv4Char c) ∨ ∃ inner, host' = '['::(inner++[']']) ∧ '['∉inner)
    (he : before ++ ':'::host=before' ++ ':'::host') : before=before' ∧ host=host' := by
  have hv4 : ∀ {host : Text}, (∀ c∈host, Ipv4Char c) → ∀ d : Char, ¬Ipv4Char d → d∉host :=
    fun hall d hd hm => hd (hall d hm)
  have hcolon : ¬Ipv4Char ':' := by
    rw [Ipv4Char]
    decide
  have hbracket : ¬Ipv4Char ']' := by
    rw [Ipv4Char]
    decide
  -- What ends in a bracket is not what ends in an octet.
  have hmixed : ∀ {before before' host inner : Text}, (∀ c∈host, Ipv4Char c) →
      before ++ ':'::host≠before' ++ ':':: '['::(inner++[']']) := by
    intro before before' host inner hall he
    have hlast := congrArg List.getLast? he
    rw [List.getLast?_append_of_ne_nil _ (List.cons_ne_nil _ _),
      List.getLast?_append_of_ne_nil _ (List.cons_ne_nil _ _)] at hlast
    have hend : (':':: '['::(inner++[']'])).getLast?=some ']' := by
      rw [← List.cons_append,← List.cons_append,List.getLast?_concat]
    rw [hend] at hlast
    rcases List.mem_cons.mp (List.mem_of_getLast? hlast) with hm|hm
    · cases hm
    · exact hv4 hall _ hbracket hm
  rcases h with h|⟨inner,rfl,hi⟩
  · rcases h' with h'|⟨inner',rfl,hi'⟩
    · exact append_cons_inj_last (hv4 h _ hcolon) (hv4 h' _ hcolon) he
    · exact absurd he (hmixed h)
  · rcases h' with h'|⟨inner',rfl,hi'⟩
    · exact absurd he.symm (hmixed h')
    · have hclose : ∀ {inner : Text}, '['∉inner → '['∉inner++[']'] := by
        intro inner hn hm
        rcases List.mem_append.mp hm with hm|hm
        · exact hn hm
        · cases List.mem_singleton.mp hm
      have hopen : (before++[':']) ++ '['::(inner++[']'])=(before'++[':']) ++ '['::(inner'++[']']) := by
        simpa using he
      obtain ⟨hb,ht⟩ := append_cons_inj_last (hclose hi) (hclose hi') hopen
      exact ⟨(List.append_inj' hb rfl).1,by rw [ht]⟩

theorem poolKey_injective {addr addr' sni sni' : Text} (h : IsSocketAddr addr)
    (h' : IsSocketAddr addr') (he : poolKey addr sni=poolKey addr' sni') :
    addr=addr' ∧ sni=sni' := by
  obtain ⟨a,ha⟩ := h
  obtain ⟨a',ha'⟩ := h'
  obtain ⟨host,port,rfl,hp,hs⟩ := parseSocketAddr_shape ha
  obtain ⟨host',port',rfl,hp',hs'⟩ := parseSocketAddr_shape ha'
  have hcut : (sni ++ ':'::host) ++ ':'::port=(sni' ++ ':'::host') ++ ':'::port' := by
    simpa [poolKey] using he
  obtain ⟨hleft,rfl⟩ := append_cons_inj_last hp hp' hcut
  obtain ⟨rfl,rfl⟩ := host_unique hs hs' hleft
  exact ⟨rfl,rfl⟩

/-- A key stands for one endpoint: a connection that was authenticated for one is never returned
for another, and pruning looks at no other. -/
theorem poolKey_identifies (addr addr' sni sni' : Text) (h : IsSocketAddr addr)
    (h' : IsSocketAddr addr') :
    (poolKey addr sni=poolKey addr' sni' → addr=addr' ∧ sni=sni') ∧
    (∀ st : Pool.State Text, Pool.Reachable st → ∀ t s s' c,
      .handshake s c∈st.log → .returned t s' c∈st.log →
      s.key=poolKey addr sni → s'.key=poolKey addr' sni' → addr=addr' ∧ sni=sni') ∧
    ∀ (st st' : Pool.State Text) t (active : List (Text×Text)) stale debug,
      (∀ p∈active, IsSocketAddr p.1) →
      Pool.step st (.pruneToEndpoints t (active.map (fun p => poolKey p.1 p.2)) stale debug)=
        some st' →
      ∀ s∈st.entries, s.key=poolKey addr sni → (s∈stale ↔ (addr,sni)∉active) := by
  refine ⟨poolKey_injective h h',?_,?_⟩
  · intro st hr t s s' c hs hc hk hk'
    have hsame := (Pool.returned_handshake hr hc).2 s hs
    rw [hsame,hk'] at hk
    obtain ⟨ha,hn⟩ := poolKey_injective h' h hk
    exact ⟨ha.symm,hn.symm⟩
  · intro st st' t active stale debug hall hstep s hs hk
    have hkey : poolKey addr sni∈active.map (fun p => poolKey p.1 p.2) ↔ (addr,sni)∈active := by
      constructor
      · intro hm
        obtain ⟨p,hp,hpk⟩ := List.mem_map.mp hm
        obtain ⟨ha,hn⟩ := poolKey_injective (hall p hp) h hpk
        rwa [← ha,← hn]
      · intro hm
        exact List.mem_map.mpr ⟨(addr,sni),hm,rfl⟩
    rw [Pool.mem_stale hstep,hk,hkey]
    exact and_iff_right hs

/-- A server name that looks like an address and a server name. -/
theorem poolKey_identifies_ipv6 : ∃ addr addr' sni sni', IsSocketAddr addr ∧ IsSocketAddr addr' ∧
    addr≠addr' ∧ ':'∈sni' ∧ poolKey addr sni≠poolKey addr' sni' := by
  have h : IsSocketAddr "[::1]:443".toList := ⟨_,rfl⟩
  have h' : IsSocketAddr "192.0.2.1:443".toList := ⟨_,rfl⟩
  refine ⟨"[::1]:443".toList,"192.0.2.1:443".toList,"a".toList,"a:[::1]".toList,h,h',by decide,
    by decide,?_⟩
  intro he
  obtain ⟨ha,-⟩ := (poolKey_identifies _ _ _ _ h h').1 he
  exact absurd ha (by decide)

end Tobira.Daemon
