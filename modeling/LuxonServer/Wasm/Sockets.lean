import LuxonServer.Wasm.Memory

/-! The socket functions that the host gives to the guest, for the ones that pass on a range of the
guest's memory.  What the host's own calls come to is a parameter, `SocketHost`. -/

namespace LuxonServer

open Traced

namespace Wasm

/-- A `sockaddr` of the host; ports and IPv4 addresses are as they are in memory. -/
inductive HostAddr where
  | inet (port : UInt16) (addr : UInt32)
  | inet6 (port : UInt16) (flowinfo : UInt32) (addr : Vector UInt8 16) (scopeId : UInt32)
  | other
  deriving DecidableEq, Repr

/-- A result, and what the call left in the buffer that it was given. -/
structure Received where
  res : Int
  data : List UInt8

/-- The host's socket calls, and whether `WASM_DOWNGRADE_IPV6` is defined there. -/
structure SocketHost where
  downgradeIpv6 : Bool
  bind : UInt32 → HostAddr → Int
  connect : UInt32 → HostAddr → Int
  send : UInt32 → List UInt8 → UInt32 → Int
  recv : UInt32 → UInt32 → UInt32 → Received
  sendto : UInt32 → List UInt8 → UInt32 → Option HostAddr → Int
  recvfrom : UInt32 → UInt32 → UInt32 → Received × HostAddr

/-- The address that an IPv6 address becomes where there is no IPv6. -/
def downgraded (rawIp : Vector UInt8 16) (last : UInt32) : UInt32 :=
  if rawIp.toList.take 12 = List.replicate 10 0 ++ [0xFF, 0xFF] then last
  else if rawIp.toList = List.replicate 16 0 then 0
  else 0x0100007F

/-- `sockaddr_g2h`. -/
def sockaddrG2h (downgradeIpv6 : Bool) (guestAddr : Nat) (guestLen : UInt32) :
    Access (Option HostAddr) :=
  if guestLen < 2 then pure none else do
    let guestFamily ← load16 guestAddr
    if guestFamily = 2 then
      if guestLen < 16 then pure none else do
        let port ← load16 (guestAddr + 2)
        let addr ← load32 (guestAddr + 4)
        pure (some (.inet port addr))
    else if guestFamily = 10 then
      if guestLen < 28 then pure none
      else if downgradeIpv6 then do
        let port ← load16 (guestAddr + 2)
        let rawIp ← load 16 Memory.block16 (guestAddr + 8)
        let last ← load32 (guestAddr + 20)
        pure (some (.inet port (downgraded rawIp last)))
      else do
        let port ← load16 (guestAddr + 2)
        let flowinfo ← load32 (guestAddr + 4)
        let addr ← load 16 Memory.block16 (guestAddr + 8)
        let scopeId ← load32 (guestAddr + 24)
        pure (some (.inet6 port flowinfo addr scopeId))
    else pure none

/-- `sockaddr_h2g`, with `guest_len_out` if it is written. -/
def sockaddrH2g (downgradeIpv6 : Bool) (hostAddr : HostAddr) (guestAddr : Nat)
    (guestMaxLen : UInt32) : Access (Option UInt32) :=
  match hostAddr with
  | .inet port addr =>
    if guestMaxLen < 16 then pure none else do
      store guestAddr (List.replicate 16 0)
      store guestAddr (le16 2)
      store (guestAddr + 2) (le16 port)
      store32 (guestAddr + 4) addr
      pure (some 16)
  | .inet6 port flowinfo addr scopeId =>
    if downgradeIpv6 then pure none
    else if guestMaxLen < 28 then pure none else do
      store guestAddr (List.replicate 28 0)
      store guestAddr (le16 10)
      store (guestAddr + 2) (le16 port)
      store32 (guestAddr + 4) flowinfo
      store (guestAddr + 8) addr.toList
      store32 (guestAddr + 24) scopeId
      pure (some 28)
  | .other => pure none

section Functions

variable (host : SocketHost) (memSize : UInt32)

/-- What `w2c_env_socket_bind` and `w2c_env_socket_connect` share: the address is checked and read,
and goes to the host's call. -/
def withAddress (call : HostAddr → Int) (addrPtr addrlen : UInt32) : Access UInt32 :=
  if refuses memSize addrPtr addrlen then pure (-1) else do
    match ← sockaddrG2h host.downgradeIpv6 addrPtr.toNat addrlen with
    | none => pure (-1)
    | some hostAddr => pure (UInt32.ofInt (call hostAddr))

/-- `w2c_env_socket_bind`; that `setsockopt` comes first is the host's business. -/
def socketBind (sockfd addrPtr addrlen : UInt32) : Access UInt32 :=
  withAddress host memSize (host.bind sockfd) addrPtr addrlen

/-- `w2c_env_socket_connect`. -/
def socketConnect (sockfd addrPtr addrlen : UInt32) : Access UInt32 :=
  withAddress host memSize (host.connect sockfd) addrPtr addrlen

/-- `w2c_env_socket_send`. -/
def socketSend (sockfd bufPtr len flags : UInt32) : Access UInt32 :=
  if refuses memSize bufPtr len then pure (-1) else do
    let bytes ← lend bufPtr.toNat len.toNat
    pure (UInt32.ofInt (host.send sockfd bytes flags))

/-- `w2c_env_socket_recv`. -/
def socketRecv (sockfd bufPtr len flags : UInt32) : Access UInt32 :=
  if refuses memSize bufPtr len then pure (-1) else do
    let received := host.recv sockfd len flags
    receive bufPtr.toNat len.toNat received.data
    pure (UInt32.ofInt received.res)

/-- The destination of `w2c_env_socket_sendto`, which is read without a check. -/
def destination (destAddrPtr addrlen : UInt32) : Access (Option HostAddr) :=
  if destAddrPtr ≠ 0 then sockaddrG2h host.downgradeIpv6 destAddrPtr.toNat addrlen else pure none

/-- `w2c_env_socket_sendto`. -/
def socketSendto (sockfd bufPtr len flags destAddrPtr addrlen : UInt32) : Access UInt32 :=
  if refuses memSize bufPtr len then pure (-1) else do
    let dest ← destination host destAddrPtr addrlen
    let bytes ← lend bufPtr.toNat len.toNat
    pure (UInt32.ofInt (host.sendto sockfd bytes flags dest))

/-- `w2c_env_socket_recvfrom`.  The room for the address is read after the data has arrived. -/
def socketRecvfrom (sockfd bufPtr len flags srcAddrPtr addrlenPtr : UInt32) : Access UInt32 :=
  if refuses memSize bufPtr len then pure (-1)
  else if addrlenPtr ≠ 0 ∧ refuses memSize addrlenPtr 4 then pure (-1)
  else do
    let (received, srcAddr) := host.recvfrom sockfd len flags
    receive bufPtr.toNat len.toNat received.data
    if received.res ≥ 0 ∧ srcAddrPtr ≠ 0 ∧ addrlenPtr ≠ 0 then do
      let guestMaxLen ← load32 addrlenPtr.toNat
      if refuses memSize srcAddrPtr guestMaxLen then pure (-1) else do
        let guestLen ← sockaddrH2g host.downgradeIpv6 srcAddr srcAddrPtr.toNat guestMaxLen
        store32 addrlenPtr.toNat (guestLen.getD 0)
        pure (UInt32.ofInt received.res)
    else pure (UInt32.ofInt received.res)

end Functions

end Wasm

end LuxonServer
