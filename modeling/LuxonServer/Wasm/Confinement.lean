import LuxonServer.Wasm.Bounds

/-! The ranges that a host function records are all that it sees and changes of memory, so a call
whose ranges lie in the guest's memory neither changes nor gives away what is past it. -/

namespace LuxonServer

open Traced

namespace Wasm

section Sockets

theorem confined_sockaddrG2h {downgradeIpv6 : Bool} {guestAddr : Nat} {guestLen : UInt32} :
    Confined ByteRange.Covers (sockaddrG2h downgradeIpv6 guestAddr guestLen) := by
  refine Confined.ite (confined_pure _) (confined_load16.bind fun guestFamily => ?_)
  refine Confined.ite (Confined.ite (confined_pure _) ?_) (Confined.ite
    (Confined.ite (confined_pure _) ?_) (confined_pure _))
  · exact confined_load16.bind fun port => confined_load32.bind fun addr => confined_pure _
  · refine Confined.ite ?_ ?_
    · exact confined_load16.bind fun port => confined_block16.bind fun rawIp =>
        confined_load32.bind fun last => confined_pure _
    · exact confined_load16.bind fun port => confined_load32.bind fun flowinfo =>
        confined_block16.bind fun addr => confined_load32.bind fun scopeId => confined_pure _

theorem confined_sockaddrH2g {downgradeIpv6 : Bool} {srcAddr : HostAddr} {guestAddr : Nat}
    {guestMaxLen : UInt32} :
    Confined ByteRange.Covers (sockaddrH2g downgradeIpv6 srcAddr guestAddr guestMaxLen) := by
  cases srcAddr with
  | inet port addr =>
    refine Confined.ite (confined_pure _) ?_
    exact confined_receive.bind fun _ => confined_receive.bind fun _ =>
      confined_receive.bind fun _ => confined_receive.bind fun _ => confined_pure _
  | inet6 port flowinfo addr scopeId =>
    refine Confined.ite (confined_pure _) (Confined.ite (confined_pure _) ?_)
    exact confined_receive.bind fun _ => confined_receive.bind fun _ =>
      confined_receive.bind fun _ => confined_receive.bind fun _ =>
      confined_receive.bind fun _ => confined_receive.bind fun _ => confined_pure _
  | other => exact confined_pure _

variable (host : SocketHost) {memSize : UInt32}

theorem confined_withAddress {call : HostAddr → Int} {addrPtr addrlen : UInt32} :
    Confined ByteRange.Covers (withAddress host memSize call addrPtr addrlen) := by
  refine Confined.ite (confined_pure _) (confined_sockaddrG2h.bind fun hostAddr => ?_)
  cases hostAddr with
  | none => exact confined_pure _
  | some hostAddr => exact confined_pure _

theorem confined_socketSend {sockfd bufPtr len flags : UInt32} :
    Confined ByteRange.Covers (socketSend host memSize sockfd bufPtr len flags) :=
  Confined.ite (confined_pure _) (confined_lend.bind fun _ => confined_pure _)

theorem confined_socketRecv {sockfd bufPtr len flags : UInt32} :
    Confined ByteRange.Covers (socketRecv host memSize sockfd bufPtr len flags) :=
  Confined.ite (confined_pure _) (confined_receive.bind fun _ => confined_pure _)

theorem confined_socketSendto {sockfd bufPtr len flags destAddrPtr addrlen : UInt32} :
    Confined ByteRange.Covers
      (socketSendto host memSize sockfd bufPtr len flags destAddrPtr addrlen) := by
  have hdest : Confined ByteRange.Covers (destination host destAddrPtr addrlen) :=
    Confined.ite confined_sockaddrG2h (confined_pure _)
  exact Confined.ite (confined_pure _)
    (hdest.bind fun dest => confined_lend.bind fun bytes => confined_pure _)

theorem confined_socketRecvfrom {sockfd bufPtr len flags srcAddrPtr addrlenPtr : UInt32} :
    Confined ByteRange.Covers
      (socketRecvfrom host memSize sockfd bufPtr len flags srcAddrPtr addrlenPtr) := by
  refine Confined.ite (confined_pure _) (Confined.ite (confined_pure _) ?_)
  refine confined_receive.bind fun _ => Confined.ite ?_ (confined_pure _)
  refine confined_load32.bind fun guestMaxLen => Confined.ite (confined_pure _) ?_
  exact confined_sockaddrH2g.bind fun guestLen => confined_receive.bind fun _ => confined_pure _

end Sockets

section Iovs

variable (host : FileHost) {memSize : UInt32}

theorem confined_fillRandom {i : Nat} {bufPtr : UInt32} (n : Nat) :
    ∀ j, Confined ByteRange.Covers (fillRandom host i bufPtr n j) := by
  induction n with
  | zero => exact fun _ => confined_pure _
  | succ n ih => exact fun j => confined_receive.bind fun _ => ih (j + 1)

variable {use : Nat → UInt32 → UInt32 → UInt32 → Access (Turn UInt32 UInt32)}

theorem confined_overIovs (huse : ∀ i bufPtr bufLen total,
    Confined ByteRange.Covers (use i bufPtr bufLen total)) {iovsPtr iovsLen resultPtr : UInt32} :
    Confined ByteRange.Covers (overIovs memSize iovsPtr iovsLen resultPtr use) := by
  have hround : ∀ i total, Confined ByteRange.Covers (iovRound memSize iovsPtr use i total) := by
    intro i total
    refine Confined.ite (confined_pure _) ?_
    refine confined_load32.bind fun bufPtr => confined_load32.bind fun bufLen => ?_
    exact Confined.ite (confined_pure _) (huse i bufPtr bufLen total)
  refine (confined_rounds hround iovsLen.toNat 0 0).bind fun result => ?_
  cases result with
  | error code => exact confined_pure _
  | ok total => exact confined_receive.bind fun _ => confined_pure _

theorem confined_fdRead {fd iovsPtr iovsLen nreadPtr : UInt32} :
    Confined ByteRange.Covers (fdRead host memSize fd iovsPtr iovsLen nreadPtr) := by
  refine Confined.ite (confined_pure _) (Confined.ite
    (confined_overIovs fun i bufPtr bufLen total => ?_)
    (confined_overIovs fun i bufPtr bufLen total => ?_))
  · exact (confined_fillRandom host bufLen.toNat 0).bind fun _ => confined_pure _
  · exact confined_receive.bind fun _ => confined_pure _

theorem confined_fdWrite {fd iovsPtr iovsLen nwrittenPtr : UInt32} :
    Confined ByteRange.Covers (fdWrite host memSize fd iovsPtr iovsLen nwrittenPtr) :=
  Confined.ite (confined_pure _) (Confined.ite (confined_pure _)
    (confined_overIovs fun _ _ _ _ => confined_lend.bind fun _ => confined_pure _))

end Iovs

variable (sockets : SocketHost) (files : FileHost) {memSize : UInt32}

/-- A call sees and changes no byte outside the ranges that it records. -/
theorem confined_perform (call : Call) :
    Confined ByteRange.Covers (call.perform sockets files memSize) := by
  cases call with
  | bind sockfd addrPtr addrlen => exact confined_withAddress sockets
  | connect sockfd addrPtr addrlen => exact confined_withAddress sockets
  | send sockfd bufPtr len flags => exact confined_socketSend sockets
  | recv sockfd bufPtr len flags => exact confined_socketRecv sockets
  | sendto sockfd bufPtr len flags destAddrPtr addrlen => exact confined_socketSendto sockets
  | recvfrom sockfd bufPtr len flags srcAddrPtr addrlenPtr => exact confined_socketRecvfrom sockets
  | fdRead fd iovsPtr iovsLen nreadPtr => exact confined_fdRead files
  | fdWrite fd iovsPtr iovsLen nwrittenPtr => exact confined_fdWrite files

/-- A call that stays in bounds leaves the memory past the guest's as it was. -/
theorem Call.InBounds.host_memory_eq {memory : Memory} {call : Call}
    (hcall : call.InBounds sockets files memSize memory) {address : Nat}
    (haddress : memSize.toNat ≤ address) :
    ((call.perform sockets files memSize).run memory).state address = memory address :=
  (confined_perform sockets files call).state_eq hcall (fun _ hr => hr.lt_of_covers)
    (Nat.not_lt.mpr haddress)

/-- A call that stays in bounds returns what it would whatever is past the guest's memory. -/
theorem Call.InBounds.value_eq {memory memory' : Memory} {call : Call}
    (hcall : call.InBounds sockets files memSize memory)
    (hagree : ∀ address < memSize.toNat, memory address = memory' address) :
    ((call.perform sockets files memSize).run memory').value =
      ((call.perform sockets files memSize).run memory).value :=
  (confined_perform sockets files call).value_eq hcall (fun _ hr => hr.lt_of_covers) hagree

end Wasm

end LuxonServer
