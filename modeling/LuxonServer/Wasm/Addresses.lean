import LuxonServer.Wasm.Confinement
import LuxonServer.Wasm.Words

/-! The socket addresses of the guest as bytes: what `sockaddr_h2g` writes is what `sockaddr_g2h`
reads. -/

namespace LuxonServer

open Traced

namespace Wasm

/-- The bytes of a `sockaddr_in` or `sockaddr_in6` of the guest. -/
def HostAddr.guestBytes : HostAddr → List UInt8
  | .inet port addr => le16 2 ++ (le16 port ++ (le32 addr ++ List.replicate 8 0))
  | .inet6 port flowinfo addr scopeId =>
    le16 10 ++ (le16 port ++ (le32 flowinfo ++ (addr.toList ++ le32 scopeId)))
  | .other => []

variable {downgradeIpv6 : Bool} {hostAddr : HostAddr} {guestAddr : Nat}
  {guestMaxLen guestLen : UInt32} {memory : Memory}

/-- What `sockaddr_h2g` writes. -/
theorem holds_sockaddrH2g (hlen :
    ((sockaddrH2g downgradeIpv6 hostAddr guestAddr guestMaxLen).run memory).value = some guestLen) :
    Memory.Holds ((sockaddrH2g downgradeIpv6 hostAddr guestAddr guestMaxLen).run memory).state
      guestAddr hostAddr.guestBytes := by
  cases hostAddr with
  | other => cases hlen
  | inet port addr =>
    unfold sockaddrH2g at hlen ⊢
    dsimp only at hlen ⊢
    split at hlen
    · cases hlen
    next hroom =>
    rw [if_neg hroom]
    simp only [bind_state, store_state, store32_state, run_pure]
    have hzeros : (memory.write guestAddr (List.replicate 16 0)).Holds (guestAddr + 8)
        (List.replicate 8 0) :=
      (Memory.holds_append.mp
        (Memory.holds_write memory guestAddr (List.replicate 8 0 ++ List.replicate 8 0))).2
    have hfamily := Memory.holds_write (memory.write guestAddr (List.replicate 16 0)) guestAddr
      (le16 2)
    have hport := hfamily.push (guestAddr + 2) (le16 port) rfl
    have haddr := hport.push (guestAddr + 4) (le32 addr) rfl
    have hrest := ((hzeros.write guestAddr (le16 2) (.inr (by simp [le16]))).write
      (guestAddr + 2) (le16 port) (.inr (by simp [le16]))).write
      (guestAddr + 4) (le32 addr) (.inr (by simp [le16, le32]))
    have := Memory.holds_append.mpr ⟨haddr, hrest⟩
    simpa only [HostAddr.guestBytes, List.append_assoc] using this
  | inet6 port flowinfo addr scopeId =>
    unfold sockaddrH2g at hlen ⊢
    dsimp only at hlen ⊢
    split at hlen
    · cases hlen
    split at hlen
    · cases hlen
    next hdowngrade hroom =>
    rw [if_neg hdowngrade, if_neg hroom]
    simp only [bind_state, store_state, store32_state, run_pure]
    have hfamily := Memory.holds_write (memory.write guestAddr (List.replicate 28 0)) guestAddr
      (le16 10)
    have hport := hfamily.push (guestAddr + 2) (le16 port) rfl
    have hflowinfo := hport.push (guestAddr + 4) (le32 flowinfo) rfl
    have haddr := hflowinfo.push (guestAddr + 8) addr.toList rfl
    have hscopeId := haddr.push (guestAddr + 24) (le32 scopeId) (by simp [le16, le32])
    simpa only [HostAddr.guestBytes, List.append_assoc] using hscopeId

/-- What `sockaddr_g2h` reads of an IPv4 address. -/
theorem sockaddrG2h_inet {port : UInt16} {addr : UInt32}
    (hholds : memory.Holds guestAddr (HostAddr.inet port addr).guestBytes)
    (hlen : 16 ≤ guestLen) :
    ((sockaddrG2h downgradeIpv6 guestAddr guestLen).run memory).value = some (.inet port addr) := by
  obtain ⟨hfamily, hrest⟩ := Memory.holds_append.mp hholds
  obtain ⟨hport, hrest⟩ := Memory.holds_append.mp hrest
  have haddr := (Memory.holds_append.mp hrest).1
  have hshort : ¬guestLen < 16 := UInt32.not_lt.mpr hlen
  have htwo : ¬guestLen < 2 := UInt32.not_lt.mpr (UInt32.le_trans (by decide) hlen)
  have hport' : memory.word16 (guestAddr + 2) = port := hport.word16
  have haddr' : memory.word32 (guestAddr + 4) = addr := haddr.word32
  simp [sockaddrG2h, htwo, hfamily.word16, hshort, hport', haddr']

theorem sockaddrG2h_inet6 {port : UInt16} {flowinfo : UInt32} {addr : Vector UInt8 16}
    {scopeId : UInt32}
    (hholds : memory.Holds guestAddr (HostAddr.inet6 port flowinfo addr scopeId).guestBytes)
    (hlen : 28 ≤ guestLen) :
    ((sockaddrG2h false guestAddr guestLen).run memory).value =
      some (.inet6 port flowinfo addr scopeId) := by
  obtain ⟨hfamily, hrest⟩ := Memory.holds_append.mp hholds
  obtain ⟨hport, hrest⟩ := Memory.holds_append.mp hrest
  obtain ⟨hflowinfo, hrest⟩ := Memory.holds_append.mp hrest
  obtain ⟨haddr, hscopeId⟩ := Memory.holds_append.mp hrest
  have hshort : ¬guestLen < 28 := UInt32.not_lt.mpr hlen
  have htwo : ¬guestLen < 2 := UInt32.not_lt.mpr (UInt32.le_trans (by decide) hlen)
  have hport' : memory.word16 (guestAddr + 2) = port := hport.word16
  have hflowinfo' : memory.word32 (guestAddr + 4) = flowinfo := hflowinfo.word32
  have haddr' : memory.block16 (guestAddr + 8) = addr := haddr.block16
  have hscopeId' : memory.word32 (guestAddr + 24) = scopeId := by
    have := hscopeId.word32
    rwa [Vector.length_toList] at this
  simp [sockaddrG2h, htwo, hfamily.word16, hshort, hport', hflowinfo', haddr', hscopeId']

/-- What an address can be that `sockaddr_g2h` reads. -/
theorem sockaddrG2h_cases
    (haddr : ((sockaddrG2h downgradeIpv6 guestAddr guestLen).run memory).value = some hostAddr) :
    (∃ port addr, hostAddr = .inet port addr ∧ 16 ≤ guestLen) ∨
      downgradeIpv6 = false ∧ 28 ≤ guestLen ∧ memory.Holds guestAddr hostAddr.guestBytes ∧
        ∃ port flowinfo addr scopeId, hostAddr = .inet6 port flowinfo addr scopeId := by
  unfold sockaddrG2h at haddr
  by_cases htwo : guestLen < 2
  · rw [if_pos htwo] at haddr
    cases haddr
  simp only [if_neg htwo, bind_value, load16_value, load16_state] at haddr
  by_cases hinet : memory.word16 guestAddr = 2
  · simp only [hinet, if_true] at haddr
    by_cases hlen : guestLen < 16
    · rw [if_pos hlen] at haddr
      cases haddr
    · rw [if_neg hlen] at haddr
      cases haddr
      exact .inl ⟨_, _, rfl, UInt32.not_lt.mp hlen⟩
  simp only [hinet, if_false] at haddr
  by_cases hinet6 : memory.word16 guestAddr = 10
  · simp only [hinet6, if_true] at haddr
    by_cases hshort : guestLen < 28
    · rw [if_pos hshort] at haddr
      cases haddr
    have hlen := UInt32.not_lt.mp hshort
    rw [if_neg hshort] at haddr
    cases downgradeIpv6 with
    | true =>
      cases haddr
      exact .inl ⟨_, _, rfl, UInt32.le_trans (by decide) hlen⟩
    | false =>
      cases haddr
      refine .inr ⟨rfl, hlen, ?_, _, _, _, _, rfl⟩
      refine Memory.holds_append.mpr ⟨hinet6 ▸ Memory.holds_word16, ?_⟩
      refine Memory.holds_append.mpr ⟨Memory.holds_word16, ?_⟩
      refine Memory.holds_append.mpr ⟨Memory.holds_word32, ?_⟩
      refine Memory.holds_append.mpr ⟨Memory.holds_block16, ?_⟩
      rw [Vector.length_toList]
      exact Memory.holds_word32
  · simp only [hinet6, if_false] at haddr
    cases haddr

/-- How long the address is that `sockaddr_h2g` reports. -/
theorem sockaddrH2g_cases (hlen :
    ((sockaddrH2g downgradeIpv6 hostAddr guestAddr guestMaxLen).run memory).value = some guestLen) :
    (∃ port addr, hostAddr = .inet port addr ∧ guestLen = 16) ∨
      downgradeIpv6 = false ∧ guestLen = 28 ∧
        ∃ port flowinfo addr scopeId, hostAddr = .inet6 port flowinfo addr scopeId := by
  cases hostAddr with
  | other => cases hlen
  | inet port addr =>
    dsimp only [sockaddrH2g] at hlen
    split at hlen
    · cases hlen
    · cases hlen
      exact .inl ⟨port, addr, rfl, rfl⟩
  | inet6 port flowinfo addr scopeId =>
    dsimp only [sockaddrH2g] at hlen
    split at hlen
    · cases hlen
    next hdowngrade =>
    split at hlen
    · cases hlen
    · cases hlen
      exact .inr ⟨eq_false_of_ne_true hdowngrade, rfl, _, _, _, _, rfl⟩

/-- Nothing but the address is written. -/
theorem sockaddrH2g_outside {address : Nat}
    (hout : ¬ByteRange.Covers ⟨guestAddr, hostAddr.guestBytes.length⟩ address) :
    ((sockaddrH2g downgradeIpv6 hostAddr guestAddr guestMaxLen).run memory).state address =
      memory address := by
  refine confined_sockaddrH2g.state_eq (P := fun r => guestAddr ≤ r.start ∧
    r.start + r.length ≤ guestAddr + hostAddr.guestBytes.length) ?_
    (fun r hr i hi => ⟨hr.1.trans hi.1, hi.2.trans_le hr.2⟩) hout
  cases hostAddr with
  | other => exact each_pure _
  | inet port addr =>
    by_cases hroom : guestMaxLen < 16
    · simp [sockaddrH2g, hroom]
    · simp [sockaddrH2g, hroom, HostAddr.guestBytes, le16, le32]
  | inet6 port flowinfo addr scopeId =>
    by_cases hroom : guestMaxLen < 28
    · simp [sockaddrH2g, hroom]
    · cases downgradeIpv6
      · simp [sockaddrH2g, hroom, HostAddr.guestBytes, le16, le32]
      · simp [sockaddrH2g]

/-- An address that is written where its bytes are already leaves the memory as it is. -/
theorem rewritten_of_holds (hholds : memory.Holds guestAddr hostAddr.guestBytes)
    (hlen : ((sockaddrH2g downgradeIpv6 hostAddr guestAddr guestMaxLen).run memory).value =
      some guestLen) :
    ((sockaddrH2g downgradeIpv6 hostAddr guestAddr guestMaxLen).run memory).state = memory := by
  funext address
  by_cases hin : ByteRange.Covers ⟨guestAddr, hostAddr.guestBytes.length⟩ address
  · obtain ⟨k, rfl⟩ := Nat.exists_eq_add_of_le hin.1
    have hk : k < hostAddr.guestBytes.length := Nat.lt_of_add_lt_add_left hin.2
    rw [hholds k hk, holds_sockaddrH2g hlen k hk]
  · exact sockaddrH2g_outside hin

/-- An address that goes to the guest comes back as it was, and one that comes from the guest fits
where it came from and comes back as the host knows it; an IPv6 address is written over itself. -/
theorem sockaddr_roundTrip (downgradeIpv6 : Bool) (hostAddr : HostAddr) (guestAddr : Nat)
    (guestMaxLen : UInt32) (memory : Memory) :
    (∀ guestLen,
      ((sockaddrH2g downgradeIpv6 hostAddr guestAddr guestMaxLen).run memory).value =
        some guestLen →
      ((sockaddrG2h downgradeIpv6 guestAddr guestLen).run
        ((sockaddrH2g downgradeIpv6 hostAddr guestAddr guestMaxLen).run memory).state).value =
          some hostAddr) ∧
    (((sockaddrG2h downgradeIpv6 guestAddr guestMaxLen).run memory).value = some hostAddr →
      (∃ guestLen ≤ guestMaxLen,
        ((sockaddrH2g downgradeIpv6 hostAddr guestAddr guestMaxLen).run memory).value =
          some guestLen) ∧
      (hostAddr.guestBytes.length = 28 →
        ((sockaddrH2g downgradeIpv6 hostAddr guestAddr guestMaxLen).run memory).state =
          memory)) := by
  refine ⟨fun guestLen hlen => ?_, fun haddr => ?_⟩
  · have hholds := holds_sockaddrH2g hlen
    obtain ⟨port, addr, rfl, rfl⟩ | ⟨rfl, rfl, port, flowinfo, addr, scopeId, rfl⟩ :=
      sockaddrH2g_cases hlen
    · exact sockaddrG2h_inet hholds (UInt32.le_refl 16)
    · exact sockaddrG2h_inet6 hholds (UInt32.le_refl 28)
  · obtain ⟨port, addr, rfl, hlen⟩ | ⟨rfl, hlen, hholds, port, flowinfo, addr, scopeId, rfl⟩ :=
      sockaddrG2h_cases haddr
    · have hroom : ¬guestMaxLen < 16 := UInt32.not_lt.mpr hlen
      refine ⟨⟨16, hlen, by simp [sockaddrH2g, hroom]⟩, fun hlength => ?_⟩
      exact absurd hlength (by simp [HostAddr.guestBytes, le16, le32])
    · have hroom : ¬guestMaxLen < 28 := UInt32.not_lt.mpr hlen
      have hvalue : ((sockaddrH2g false (.inet6 port flowinfo addr scopeId) guestAddr
          guestMaxLen).run memory).value = some 28 := by simp [sockaddrH2g, hroom]
      exact ⟨⟨28, hlen, hvalue⟩, fun _ => rewritten_of_holds hholds hvalue⟩

end Wasm

end LuxonServer
