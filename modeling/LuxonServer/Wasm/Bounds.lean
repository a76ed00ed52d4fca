import LuxonServer.Wasm.Sockets
import LuxonServer.Wasm.Wasi

/-! When the ranges of memory that the host functions access lie in the guest's memory.  A check
adds a pointer and a length at 32 bits, so it is sound for the sums that do not wrap; the
destination of `sendto` has no check at all. -/

namespace LuxonServer

open Traced

namespace Wasm

/-- The sum that a check compares is the one in unbounded arithmetic. -/
def Unwrapped (ptr len : UInt32) : Prop := ptr.toNat + len.toNat < 2 ^ 32

/-- How far from its start a guest's socket address of at least two bytes is read. -/
def guestReach (downgradeIpv6 : Bool) (memory : Memory) (guestAddr : Nat) (guestLen : UInt32) :
    Nat :=
  if memory.word16 guestAddr = 2 ∧ 16 ≤ guestLen then 8
  else if memory.word16 guestAddr = 10 ∧ 28 ≤ guestLen then if downgradeIpv6 then 24 else 28
  else 2

/-- How far a host's socket address is written, with room for `guestMaxLen` bytes. -/
def hostReach (downgradeIpv6 : Bool) (guestMaxLen : UInt32) : HostAddr → Nat
  | .inet .. => if 16 ≤ guestMaxLen then 16 else 0
  | .inet6 .. => if ¬downgradeIpv6 ∧ 28 ≤ guestMaxLen then 28 else 0
  | .other => 0

/-- What is read of the guest's socket address lies in memory. -/
def AddressFits (downgradeIpv6 : Bool) (memSize : UInt32) (memory : Memory)
    (addrPtr addrlen : UInt32) : Prop :=
  addrlen < 2 ∨
    addrPtr.toNat + guestReach downgradeIpv6 memory addrPtr.toNat addrlen ≤ memSize.toNat

/-- What is written of the host's socket address lies in memory. -/
def SourceFits (downgradeIpv6 : Bool) (memSize : UInt32) (srcAddr : HostAddr)
    (srcAddrPtr guestMaxLen : UInt32) : Prop :=
  hostReach downgradeIpv6 guestMaxLen srcAddr = 0 ∨
    srcAddrPtr.toNat + hostReach downgradeIpv6 guestMaxLen srcAddr ≤ memSize.toNat

/-- Memory after the random bytes. -/
def filled (host : FileHost) (i : Nat) (bufPtr : UInt32) : Nat → Nat → Memory → Memory
  | 0, _, memory => memory
  | n + 1, j, memory =>
    filled host i bufPtr n (j + 1)
      (memory.write (bufPtr + UInt32.ofNat j).toNat [host.rand i j])

/-- How a round goes on with a buffer, by its number, the buffer and the total so far. -/
abbrev Effect := Nat → UInt32 → UInt32 → UInt32 → Memory → Turn UInt32 UInt32 × Memory

def randomEffect (host : FileHost) : Effect := fun i bufPtr bufLen total memory =>
  (.next (total + bufLen), filled host i bufPtr bufLen.toNat 0 memory)

def readEffect (host : FileHost) (fd : UInt32) : Effect := fun i bufPtr bufLen total memory =>
  (readTurn (host.read i fd bufLen) bufLen total,
    memory.write bufPtr.toNat ((host.read i fd bufLen).data.take bufLen.toNat))

def writeEffect (host : FileHost) (fd : UInt32) : Effect := fun i bufPtr bufLen total memory =>
  (writeTurn (host.write i fd (memory.bytes bufPtr.toNat bufLen.toNat)) bufLen total, memory)

/-- No check of the rounds to come accepts a sum that wraps, and neither did that of the result if
it is stored in the end. -/
def IovsFit (memSize iovsPtr resultPtr : UInt32) (effect : Effect) :
    Nat → Nat → UInt32 → Memory → Prop
  | 0, _, _, _ => Unwrapped resultPtr 4
  | n + 1, i, total, memory =>
    let iov := iovPtr iovsPtr i
    let bufPtr := memory.word32 iov.toNat
    let bufLen := memory.word32 (iov.toNat + 4)
    let after := effect i bufPtr bufLen total memory
    refuses memSize iov 8 ∨ Unwrapped iov 8 ∧
      (refuses memSize bufPtr bufLen ∨ Unwrapped bufPtr bufLen ∧ after.1.elim
        (fun total => IovsFit memSize iovsPtr resultPtr effect n (i + 1) total after.2)
        (fun _ => Unwrapped resultPtr 4) (fun _ => True))

/-- A call of a host function by the guest. -/
inductive Call where
  | bind (sockfd addrPtr addrlen : UInt32)
  | connect (sockfd addrPtr addrlen : UInt32)
  | send (sockfd bufPtr len flags : UInt32)
  | recv (sockfd bufPtr len flags : UInt32)
  | sendto (sockfd bufPtr len flags destAddrPtr addrlen : UInt32)
  | recvfrom (sockfd bufPtr len flags srcAddrPtr addrlenPtr : UInt32)
  | fdRead (fd iovsPtr iovsLen nreadPtr : UInt32)
  | fdWrite (fd iovsPtr iovsLen nwrittenPtr : UInt32)
  deriving DecidableEq, Repr

namespace Call

variable (sockets : SocketHost) (files : FileHost) (memSize : UInt32)

/-- The function that is called. -/
def perform : Call → Access UInt32
  | bind sockfd addrPtr addrlen => socketBind sockets memSize sockfd addrPtr addrlen
  | connect sockfd addrPtr addrlen => socketConnect sockets memSize sockfd addrPtr addrlen
  | send sockfd bufPtr len flags => socketSend sockets memSize sockfd bufPtr len flags
  | recv sockfd bufPtr len flags => socketRecv sockets memSize sockfd bufPtr len flags
  | sendto sockfd bufPtr len flags destAddrPtr addrlen =>
    socketSendto sockets memSize sockfd bufPtr len flags destAddrPtr addrlen
  | recvfrom sockfd bufPtr len flags srcAddrPtr addrlenPtr =>
    socketRecvfrom sockets memSize sockfd bufPtr len flags srcAddrPtr addrlenPtr
  | fdRead fd iovsPtr iovsLen nreadPtr => Wasm.fdRead files memSize fd iovsPtr iovsLen nreadPtr
  | fdWrite fd iovsPtr iovsLen nwrittenPtr =>
    Wasm.fdWrite files memSize fd iovsPtr iovsLen nwrittenPtr

/-- Every range that the call accesses or hands on lies in memory. -/
def InBounds (memory : Memory) (call : Call) : Prop :=
  Each (ByteRange.Within memSize) (call.perform sockets files memSize) memory

instance (memory : Memory) (call : Call) :
    Decidable (call.InBounds sockets files memSize memory) :=
  inferInstanceAs (Decidable
    (Each (ByteRange.Within memSize) (call.perform sockets files memSize) memory))

/-- No check that the call comes to accepts a sum that wraps, unless what is used of the range
fits all the same, and the destination of `sendto` fits without a check. -/
def Fits (memory : Memory) : Call → Prop
  | bind _ addrPtr addrlen | connect _ addrPtr addrlen =>
    refuses memSize addrPtr addrlen ∨ Unwrapped addrPtr addrlen ∨
      AddressFits sockets.downgradeIpv6 memSize memory addrPtr addrlen
  | send _ bufPtr len _ | recv _ bufPtr len _ => refuses memSize bufPtr len ∨ Unwrapped bufPtr len
  | sendto _ bufPtr len _ destAddrPtr addrlen =>
    refuses memSize bufPtr len ∨ Unwrapped bufPtr len ∧ (destAddrPtr = 0 ∨
      AddressFits sockets.downgradeIpv6 memSize memory destAddrPtr addrlen)
  | recvfrom sockfd bufPtr len flags srcAddrPtr addrlenPtr =>
    let (received, srcAddr) := sockets.recvfrom sockfd len flags
    let guestMaxLen :=
      (memory.write bufPtr.toNat (received.data.take len.toNat)).word32 addrlenPtr.toNat
    refuses memSize bufPtr len ∨ (addrlenPtr ≠ 0 ∧ refuses memSize addrlenPtr 4) ∨
      Unwrapped bufPtr len ∧ (received.res < 0 ∨ srcAddrPtr = 0 ∨ addrlenPtr = 0 ∨
        Unwrapped addrlenPtr 4 ∧ (refuses memSize srcAddrPtr guestMaxLen ∨
          Unwrapped srcAddrPtr guestMaxLen ∨
          SourceFits sockets.downgradeIpv6 memSize srcAddr srcAddrPtr guestMaxLen))
  | fdRead fd iovsPtr iovsLen nreadPtr =>
    refuses memSize nreadPtr 4 ∨ IovsFit memSize iovsPtr nreadPtr
      (if fd = fakeRandomFd then randomEffect files else readEffect files fd)
      iovsLen.toNat 0 0 memory
  | fdWrite fd iovsPtr iovsLen nwrittenPtr =>
    refuses memSize nwrittenPtr 4 ∨ fd = fakeRandomFd ∨
      IovsFit memSize iovsPtr nwrittenPtr (writeEffect files fd) iovsLen.toNat 0 0 memory

end Call

section Checks

variable {memSize ptr len : UInt32}

/-- An accepted range lies in memory exactly if its sum does not wrap. -/
theorem within_iff_unwrapped (haccepts : refuses memSize ptr len = false) :
    ptr.toNat + len.toNat ≤ memSize.toNat ↔ Unwrapped ptr len := by
  have hsum : (ptr + len).toNat ≤ memSize.toNat :=
    Nat.not_lt.mp fun hlt => Bool.eq_false_iff.mp haccepts (decide_eq_true hlt)
  rw [UInt32.toNat_add] at hsum
  have hsize := memSize.toNat_lt
  unfold Unwrapped
  omega

/-- A check before something that is in bounds exactly if the sum does not wrap, and then some. -/
theorem each_checked {P : ByteRange → Prop} {memory : Memory} {α : Type} {a : α} {x : Access α}
    {good : Prop} (hx : refuses memSize ptr len = false → (Each P x memory ↔ good)) :
    Each P (if refuses memSize ptr len then pure a else x) memory ↔
      refuses memSize ptr len ∨ good := by
  cases hchecked : refuses memSize ptr len with
  | true => simp
  | false => simpa using hx hchecked

end Checks

section Sockets

variable {memSize : UInt32} {memory : Memory} {downgradeIpv6 : Bool}

theorem each_sockaddrG2h {addrPtr addrlen : UInt32} :
    Each (ByteRange.Within memSize) (sockaddrG2h downgradeIpv6 addrPtr.toNat addrlen) memory ↔
      AddressFits downgradeIpv6 memSize memory addrPtr addrlen := by
  unfold sockaddrG2h AddressFits guestReach
  by_cases hlen : addrlen < 2
  · simp [hlen]
  simp only [hlen, if_false, each_bind, each_load16, load16_value, load16_state, false_or,
    ByteRange.within_mk]
  by_cases hinet : memory.word16 addrPtr.toNat = 2
  · by_cases hshort : addrlen < 16
    · simp [hinet, hshort, UInt32.not_le.mpr hshort]
    · simp [hinet, hshort, UInt32.not_lt.mp hshort]
      omega
  by_cases hinet6 : memory.word16 addrPtr.toNat = 10
  · by_cases hshort : addrlen < 28
    · simp [hinet6, hshort, UInt32.not_le.mpr hshort]
    · cases downgradeIpv6
      · simp [hinet6, hshort, UInt32.not_lt.mp hshort]
        omega
      · simp [hinet6, hshort, UInt32.not_lt.mp hshort]
        omega
  · simp [hinet, hinet6]

theorem each_sockaddrH2g {srcAddr : HostAddr} {srcAddrPtr guestMaxLen : UInt32} :
    Each (ByteRange.Within memSize)
        (sockaddrH2g downgradeIpv6 srcAddr srcAddrPtr.toNat guestMaxLen) memory ↔
      SourceFits downgradeIpv6 memSize srcAddr srcAddrPtr guestMaxLen := by
  unfold SourceFits
  cases srcAddr with
  | inet port addr =>
    by_cases hshort : guestMaxLen < 16
    · simp [sockaddrH2g, hostReach, hshort, UInt32.not_le.mpr hshort]
    · simp [sockaddrH2g, hostReach, hshort, UInt32.not_lt.mp hshort, le16]
      omega
  | inet6 port flowinfo addr scopeId =>
    by_cases hshort : guestMaxLen < 28
    · simp [sockaddrH2g, hostReach, hshort, UInt32.not_le.mpr hshort]
    · cases downgradeIpv6
      · simp [sockaddrH2g, hostReach, hshort, UInt32.not_lt.mp hshort, le16]
        omega
      · simp [sockaddrH2g, hostReach]
  | other => simp [sockaddrH2g, hostReach]

theorem guestReach_le (downgradeIpv6 : Bool) (memory : Memory) (guestAddr : Nat)
    {guestLen : UInt32} (hlen : ¬guestLen < 2) :
    guestReach downgradeIpv6 memory guestAddr guestLen ≤ guestLen.toNat := by
  have htwo : 2 ≤ guestLen.toNat := UInt32.le_iff_toNat_le.mp (UInt32.not_lt.mp hlen)
  unfold guestReach
  split
  · next hinet =>
    have hlong : 16 ≤ guestLen.toNat := UInt32.le_iff_toNat_le.mp hinet.2
    omega
  · split
    · next hinet6 =>
      have hlong : 28 ≤ guestLen.toNat := UInt32.le_iff_toNat_le.mp hinet6.2
      split <;> omega
    · exact htwo

theorem hostReach_le (downgradeIpv6 : Bool) (guestMaxLen : UInt32) (srcAddr : HostAddr) :
    hostReach downgradeIpv6 guestMaxLen srcAddr ≤ guestMaxLen.toNat := by
  cases srcAddr with
  | inet port addr =>
    simp only [hostReach]
    split
    · next hlong => exact UInt32.le_iff_toNat_le.mp hlong
    · exact Nat.zero_le _
  | inet6 port flowinfo addr scopeId =>
    simp only [hostReach]
    split
    · next hlong => exact UInt32.le_iff_toNat_le.mp hlong.2
    · exact Nat.zero_le _
  | other => exact Nat.zero_le _

/-- A checked address whose sum does not wrap fits. -/
theorem Unwrapped.addressFits {addrPtr addrlen : UInt32}
    (haccepts : refuses memSize addrPtr addrlen = false) (hsum : Unwrapped addrPtr addrlen) :
    AddressFits downgradeIpv6 memSize memory addrPtr addrlen := by
  refine or_iff_not_imp_left.mpr fun hlen => ?_
  have hreach := guestReach_le downgradeIpv6 memory addrPtr.toNat hlen
  have hwithin := (within_iff_unwrapped haccepts).mpr hsum
  omega

theorem Unwrapped.sourceFits {srcAddr : HostAddr} {srcAddrPtr guestMaxLen : UInt32}
    (haccepts : refuses memSize srcAddrPtr guestMaxLen = false)
    (hsum : Unwrapped srcAddrPtr guestMaxLen) :
    SourceFits downgradeIpv6 memSize srcAddr srcAddrPtr guestMaxLen := by
  have hreach := hostReach_le downgradeIpv6 guestMaxLen srcAddr
  have hwithin := (within_iff_unwrapped haccepts).mpr hsum
  exact Or.inr (by omega)

variable (host : SocketHost)

theorem each_withAddress {call : HostAddr → Int} {addrPtr addrlen : UInt32} :
    Each (ByteRange.Within memSize) (withAddress host memSize call addrPtr addrlen) memory ↔
      refuses memSize addrPtr addrlen ∨ Unwrapped addrPtr addrlen ∨
        AddressFits host.downgradeIpv6 memSize memory addrPtr addrlen := by
  refine each_checked fun haccepts => ?_
  rw [each_bind, each_sockaddrG2h, or_iff_right_of_imp (Unwrapped.addressFits haccepts),
    and_iff_left_iff_imp]
  intro _
  split <;> exact each_pure _

theorem each_socketSend {sockfd bufPtr len flags : UInt32} :
    Each (ByteRange.Within memSize) (socketSend host memSize sockfd bufPtr len flags) memory ↔
      refuses memSize bufPtr len ∨ Unwrapped bufPtr len := by
  refine each_checked fun haccepts => ?_
  rw [each_bind, each_lend, and_iff_left (each_pure _)]
  exact within_iff_unwrapped haccepts

theorem each_socketRecv {sockfd bufPtr len flags : UInt32} :
    Each (ByteRange.Within memSize) (socketRecv host memSize sockfd bufPtr len flags) memory ↔
      refuses memSize bufPtr len ∨ Unwrapped bufPtr len := by
  refine each_checked fun haccepts => ?_
  rw [each_bind, each_receive, and_iff_left (each_pure _)]
  exact within_iff_unwrapped haccepts

theorem each_destination {destAddrPtr addrlen : UInt32} :
    Each (ByteRange.Within memSize) (destination host destAddrPtr addrlen) memory ↔
      destAddrPtr = 0 ∨ AddressFits host.downgradeIpv6 memSize memory destAddrPtr addrlen := by
  unfold destination
  by_cases hdest : destAddrPtr = 0
  · simp [hdest]
  · simpa [hdest] using each_sockaddrG2h

theorem each_socketSendto {sockfd bufPtr len flags destAddrPtr addrlen : UInt32} :
    Each (ByteRange.Within memSize)
        (socketSendto host memSize sockfd bufPtr len flags destAddrPtr addrlen) memory ↔
      refuses memSize bufPtr len ∨ Unwrapped bufPtr len ∧ (destAddrPtr = 0 ∨
        AddressFits host.downgradeIpv6 memSize memory destAddrPtr addrlen) := by
  refine each_checked fun haccepts => ?_
  rw [each_bind, each_destination, each_bind, each_lend, and_iff_left (each_pure _), and_comm]
  exact and_congr_left fun _ => within_iff_unwrapped haccepts

theorem each_socketRecvfrom {sockfd bufPtr len flags srcAddrPtr addrlenPtr : UInt32}
    {received : Received} {srcAddr : HostAddr}
    (hcall : host.recvfrom sockfd len flags = (received, srcAddr)) {guestMaxLen : UInt32}
    (hmax : guestMaxLen = (memory.write bufPtr.toNat (received.data.take len.toNat)).word32
      addrlenPtr.toNat) :
    Each (ByteRange.Within memSize)
        (socketRecvfrom host memSize sockfd bufPtr len flags srcAddrPtr addrlenPtr) memory ↔
      refuses memSize bufPtr len ∨ (addrlenPtr ≠ 0 ∧ refuses memSize addrlenPtr 4) ∨
        Unwrapped bufPtr len ∧ (received.res < 0 ∨ srcAddrPtr = 0 ∨ addrlenPtr = 0 ∨
          Unwrapped addrlenPtr 4 ∧ (refuses memSize srcAddrPtr guestMaxLen ∨
            Unwrapped srcAddrPtr guestMaxLen ∨
            SourceFits host.downgradeIpv6 memSize srcAddr srcAddrPtr guestMaxLen)) := by
  refine each_checked fun haccepts => ?_
  by_cases hroom : addrlenPtr ≠ 0 ∧ refuses memSize addrlenPtr 4
  · simp [hroom]
  rw [if_neg hroom, or_iff_right hroom, hcall]
  dsimp only
  rw [each_bind, each_receive, receive_state]
  refine and_congr (within_iff_unwrapped haccepts) ?_
  by_cases hsource : received.res ≥ 0 ∧ srcAddrPtr ≠ 0 ∧ addrlenPtr ≠ 0
  · obtain ⟨hres, hsrc, haddrlen⟩ := hsource
    have hlenAccepts : refuses memSize addrlenPtr 4 = false :=
      Bool.eq_false_iff.mpr fun hrefuses => hroom ⟨haddrlen, hrefuses⟩
    rw [if_pos ⟨hres, hsrc, haddrlen⟩, or_iff_right (not_lt.mpr hres), or_iff_right hsrc,
      or_iff_right haddrlen, each_bind, each_load32, load32_value, load32_state, ← hmax]
    have hlen := within_iff_unwrapped hlenAccepts
    refine (and_congr_right fun hwithin => each_checked fun hmaxAccepts => ?_).trans
      (and_congr_left fun _ => hlen)
    rw [each_bind, each_sockaddrH2g, each_bind, each_store32, and_iff_left (each_pure _),
      and_iff_left hwithin, or_iff_right_of_imp (Unwrapped.sourceFits hmaxAccepts)]
  · have hnone : received.res < 0 ∨ srcAddrPtr = 0 ∨ addrlenPtr = 0 := by
      by_contra hall
      simp only [not_or, not_lt] at hall
      exact hsource hall
    rw [if_neg hsource]
    refine iff_of_true (each_pure _) ?_
    tauto

end Sockets

section Iovs

variable {memSize : UInt32} (host : FileHost)

theorem each_fillRandom {i : Nat} {bufPtr : UInt32} (n : Nat) : ∀ j memory,
    Each (ByteRange.Within memSize) (fillRandom host i bufPtr n j) memory ↔
      ∀ k, j ≤ k → k < j + n → (bufPtr + UInt32.ofNat k).toNat < memSize.toNat := by
  induction n with
  | zero =>
    intro j memory
    refine iff_of_true (each_pure _) fun k hlow hhigh => ?_
    omega
  | succ n ih =>
    intro j memory
    rw [fillRandom, each_bind, each_store, ih]
    constructor
    · rintro ⟨hfirst, hrest⟩ k hlow hhigh
      rcases Nat.eq_or_lt_of_le hlow with heq | hlt
      · rw [← heq]
        exact hfirst
      · exact hrest k hlt (by omega)
    · intro hall
      exact ⟨hall j (Nat.le_refl j) (by omega), fun k hlow hhigh => hall k (by omega) (by omega)⟩

theorem fillRandom_state {i : Nat} {bufPtr : UInt32} (n : Nat) : ∀ j memory,
    ((fillRandom host i bufPtr n j).run memory).state = filled host i bufPtr n j memory := by
  induction n with
  | zero => exact fun _ _ => rfl
  | succ n ih => exact fun j memory => ih (j + 1) _

/-- The bytes of a buffer whose sum wraps go up to the last one that 32 bits can address, which is
in no memory. -/
theorem bytes_lt_iff_unwrapped {bufPtr bufLen : UInt32}
    (haccepts : refuses memSize bufPtr bufLen = false) :
    (∀ k, 0 ≤ k → k < 0 + bufLen.toNat → (bufPtr + UInt32.ofNat k).toNat < memSize.toNat) ↔
      Unwrapped bufPtr bufLen := by
  have haddress : ∀ k, bufPtr.toNat + k < 2 ^ 32 →
      (bufPtr + UInt32.ofNat k).toNat = bufPtr.toNat + k := by
    intro k hk
    rw [UInt32.toNat_add, UInt32.toNat_ofNat']
    omega
  have hptr := bufPtr.toNat_lt
  have hsize := memSize.toNat_lt
  constructor
  · intro hall
    by_contra hwraps
    unfold Unwrapped at hwraps
    have hlast := hall (2 ^ 32 - 1 - bufPtr.toNat) (Nat.zero_le _) (by omega)
    rw [haddress _ (by omega)] at hlast
    omega
  · intro hsum k _ hk
    have hwithin := (within_iff_unwrapped haccepts).mpr hsum
    unfold Unwrapped at hsum
    rw [haddress k (by omega)]
    omega

/-- What a loop does with a checked buffer goes on by `effect`, and is in bounds exactly if the sum
of the check does not wrap. -/
structure Handles (memSize : UInt32)
    (use : Nat → UInt32 → UInt32 → UInt32 → Access (Turn UInt32 UInt32)) (effect : Effect) :
    Prop where
  each : ∀ i bufPtr bufLen total memory, refuses memSize bufPtr bufLen = false →
    (Each (ByteRange.Within memSize) (use i bufPtr bufLen total) memory ↔ Unwrapped bufPtr bufLen)
  value : ∀ i bufPtr bufLen total memory,
    ((use i bufPtr bufLen total).run memory).value = (effect i bufPtr bufLen total memory).1
  state : ∀ i bufPtr bufLen total memory,
    ((use i bufPtr bufLen total).run memory).state = (effect i bufPtr bufLen total memory).2

theorem handles_useRandom : Handles memSize (useRandom host) (randomEffect host) where
  each i bufPtr bufLen total memory haccepts := by
    rw [useRandom, each_bind, and_iff_left (each_pure _), each_fillRandom]
    exact bytes_lt_iff_unwrapped haccepts
  value _ _ _ _ _ := rfl
  state i bufPtr bufLen total memory := fillRandom_state host bufLen.toNat 0 memory

theorem handles_useRead (fd : UInt32) :
    Handles memSize (useRead host fd) (readEffect host fd) where
  each i bufPtr bufLen total memory haccepts := by
    rw [useRead, each_bind, each_receive, and_iff_left (each_pure _)]
    exact within_iff_unwrapped haccepts
  value _ _ _ _ _ := rfl
  state _ _ _ _ _ := rfl

theorem handles_useWrite (fd : UInt32) :
    Handles memSize (useWrite host fd) (writeEffect host fd) where
  each i bufPtr bufLen total memory haccepts := by
    rw [useWrite, each_bind, each_lend, and_iff_left (each_pure _)]
    exact within_iff_unwrapped haccepts
  value _ _ _ _ _ := rfl
  state _ _ _ _ _ := rfl

variable {use : Nat → UInt32 → UInt32 → UInt32 → Access (Turn UInt32 UInt32)} {effect : Effect}

/-- The pair of an accepted round is in memory exactly if its sum does not wrap. -/
theorem pair_iff_unwrapped {iov : UInt32} (haccepts : refuses memSize iov 8 = false) :
    iov.toNat + 4 ≤ memSize.toNat ∧ iov.toNat + 4 + 4 ≤ memSize.toNat ↔ Unwrapped iov 8 := by
  rw [← within_iff_unwrapped haccepts]
  change _ ↔ iov.toNat + 8 ≤ memSize.toNat
  omega

/-- A round goes on as its effect says, unless a check ends the function. -/
theorem each_iovRound (huse : Handles memSize use effect) {iovsPtr total : UInt32} {i : Nat}
    {memory : Memory} (next stop quit : UInt32 → Memory → Prop)
    (hquit : ∀ code memory, quit code memory) :
    let iov := iovPtr iovsPtr i
    let bufPtr := memory.word32 iov.toNat
    let bufLen := memory.word32 (iov.toNat + 4)
    let after := effect i bufPtr bufLen total memory
    let round := iovRound memSize iovsPtr use i total
    (Each (ByteRange.Within memSize) round memory ∧ (round.run memory).value.elim
        (next · (round.run memory).state) (stop · (round.run memory).state)
        (quit · (round.run memory).state)) ↔
      (refuses memSize iov 8 ∨ Unwrapped iov 8 ∧
        (refuses memSize bufPtr bufLen ∨ Unwrapped bufPtr bufLen ∧
          after.1.elim (next · after.2) (stop · after.2) (fun _ => True))) := by
  intro iov bufPtr bufLen after round
  cases hpair : refuses memSize iov 8 with
  | true =>
    have hround : round = pure (.quit 28) := if_pos hpair
    simp [hround, Turn.elim, hquit]
  | false =>
    have hround : round = (load32 iov.toNat >>= fun bufPtr => load32 (iov.toNat + 4) >>=
        fun bufLen => if refuses memSize bufPtr bufLen then pure (.quit 28)
          else use i bufPtr bufLen total) := if_neg (Bool.eq_false_iff.mp hpair)
    rw [hround, each_bind, each_bind, bind_value, bind_value, bind_state, bind_state, each_load32,
      each_load32, load32_state, load32_state, load32_value, load32_value, ← and_assoc,
      or_iff_right Bool.false_ne_true, and_assoc]
    refine and_congr (pair_iff_unwrapped hpair) ?_
    cases hbuffer : refuses memSize bufPtr bufLen with
    | true => simp [Turn.elim, hquit]
    | false =>
      rw [if_neg Bool.false_ne_true, huse.each _ _ _ _ _ hbuffer, huse.value, huse.state,
        or_iff_right Bool.false_ne_true]
      exact and_congr_right fun _ => Turn.elim_iff_of_quit (hquit · _) _

theorem each_overIovs (huse : Handles memSize use effect) {iovsPtr iovsLen resultPtr : UInt32}
    (haccepts : refuses memSize resultPtr 4 = false) (memory : Memory) :
    Each (ByteRange.Within memSize) (overIovs memSize iovsPtr iovsLen resultPtr use) memory ↔
      IovsFit memSize iovsPtr resultPtr effect iovsLen.toNat 0 0 memory := by
  have hstore : ∀ (total : UInt32) memory, Each (ByteRange.Within memSize)
      (do store32 resultPtr.toNat total; pure (0 : UInt32)) memory ↔ Unwrapped resultPtr 4 := by
    intro total memory
    rw [each_bind, each_store32, and_iff_left (each_pure _)]
    exact within_iff_unwrapped haccepts
  refine each_rounds_bind (fun _ total memory => hstore total memory) ?_ iovsLen.toNat 0 0 memory
  intro n i total memory
  simp only [hstore]
  exact each_iovRound huse (IovsFit memSize iovsPtr resultPtr effect n (i + 1))
    (fun _ _ => Unwrapped resultPtr 4)
    (fun code => Each (ByteRange.Within memSize) (pure code : Access UInt32))
    (fun code _ => each_pure code)

end Iovs

section Calls

variable (sockets : SocketHost) (files : FileHost) (memSize : UInt32) (memory : Memory)

theorem each_fdRead {fd iovsPtr iovsLen nreadPtr : UInt32} :
    Each (ByteRange.Within memSize) (fdRead files memSize fd iovsPtr iovsLen nreadPtr) memory ↔
      refuses memSize nreadPtr 4 ∨ IovsFit memSize iovsPtr nreadPtr
        (if fd = fakeRandomFd then randomEffect files else readEffect files fd)
        iovsLen.toNat 0 0 memory := by
  refine each_checked fun haccepts => ?_
  by_cases hfake : fd = fakeRandomFd
  · rw [if_pos hfake, if_pos hfake]
    exact each_overIovs (handles_useRandom files) haccepts memory
  · rw [if_neg hfake, if_neg hfake]
    exact each_overIovs (handles_useRead files fd) haccepts memory

theorem each_fdWrite {fd iovsPtr iovsLen nwrittenPtr : UInt32} :
    Each (ByteRange.Within memSize) (fdWrite files memSize fd iovsPtr iovsLen nwrittenPtr) memory ↔
      refuses memSize nwrittenPtr 4 ∨ fd = fakeRandomFd ∨
        IovsFit memSize iovsPtr nwrittenPtr (writeEffect files fd) iovsLen.toNat 0 0 memory := by
  refine each_checked fun haccepts => ?_
  by_cases hfake : fd = fakeRandomFd
  · rw [if_pos hfake]
    exact iff_of_true (each_pure _) (Or.inl hfake)
  · rw [if_neg hfake, or_iff_right hfake]
    exact each_overIovs (handles_useWrite files fd) haccepts memory

/-- Exactly the calls that fit keep to the guest's memory. -/
theorem inBounds_iff (call : Call) :
    call.InBounds sockets files memSize memory ↔ call.Fits sockets files memSize memory := by
  cases call with
  | bind sockfd addrPtr addrlen => exact each_withAddress sockets
  | connect sockfd addrPtr addrlen => exact each_withAddress sockets
  | send sockfd bufPtr len flags => exact each_socketSend sockets
  | recv sockfd bufPtr len flags => exact each_socketRecv sockets
  | sendto sockfd bufPtr len flags destAddrPtr addrlen => exact each_socketSendto sockets
  | recvfrom sockfd bufPtr len flags srcAddrPtr addrlenPtr =>
    exact each_socketRecvfrom sockets rfl rfl
  | fdRead fd iovsPtr iovsLen nreadPtr => exact each_fdRead files memSize memory
  | fdWrite fd iovsPtr iovsLen nwrittenPtr => exact each_fdWrite files memSize memory

/-- Socket calls that come to nothing. -/
def quietSockets : SocketHost where
  downgradeIpv6 := false
  bind _ _ := 0
  connect _ _ := 0
  send _ _ _ := 0
  recv _ _ _ := ⟨0, []⟩
  sendto _ _ _ _ := 0
  recvfrom _ _ _ := (⟨0, []⟩, .other)

/-- Files at their end. -/
def quietFiles : FileHost where
  read _ _ _ := ⟨0, .none, []⟩
  write _ _ _ := ⟨0, .none, []⟩
  rand _ _ := 0

/-- In 64 KiB of zeros: a buffer whose sum wraps to 16, a destination past the memory, and a place
for the result whose sum wraps to 2. -/
theorem not_inBounds_of_wraps_or_unchecked :
    ¬(Call.send 3 0xFFFFFFF0 0x20 0).InBounds quietSockets quietFiles 0x10000 (fun _ => 0) ∧
    ¬(Call.sendto 3 0 0 0 0x20000 16).InBounds quietSockets quietFiles 0x10000 (fun _ => 0) ∧
    ¬(Call.fdRead 0 0 0 0xFFFFFFFE).InBounds quietSockets quietFiles 0x10000 (fun _ => 0) := by
  decide +kernel

end Calls

end Wasm

end LuxonServer
