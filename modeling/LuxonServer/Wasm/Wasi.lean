import LuxonServer.Wasm.Memory

/-! `fd_read` and `fd_write`: loops over the `iovs_len` pairs of a pointer and a length that are at
`iovs_ptr`.  What the host's `read`, `write` and `rand` come to is a parameter, `FileHost`. -/

namespace LuxonServer

open Traced

namespace Wasm

/-- The values of `errno` that the host functions tell apart. -/
inductive Errno where
  | none | eperm | enoent | ebadf | eagain | enomem | eacces | ebusy | eexist | einval | enospc
  | epipe | enosys | econnreset | other
  deriving DecidableEq, Repr

/-- `errno_to_wasi`. -/
def errnoToWasi : Errno → UInt32
  | .none => 0
  | .eperm => 63
  | .enoent => 44
  | .ebadf => 8
  | .eagain => 6
  | .enomem => 48
  | .eacces => 2
  | .ebusy => 10
  | .eexist => 20
  | .einval => 28
  | .enospc => 51
  | .epipe => 64
  | .enosys => 52
  | .econnreset => 15
  | .other => 29

/-- `FAKE_RANDOM_FD`. -/
def fakeRandomFd : UInt32 := 0x7FFFFFFF

/-- The result of a call of `read` or `write`, with `errno` and what it left in the buffer. -/
structure FileReply where
  res : Int
  errno : Errno
  data : List UInt8

/-- The host's calls for files; the first argument of each is the round of the loop that makes it,
so that they need not come to the same every time. -/
structure FileHost where
  read : Nat → UInt32 → UInt32 → FileReply
  write : Nat → UInt32 → List UInt8 → FileReply
  rand : Nat → Nat → UInt8

/-- Where the pair of round `i` is. -/
def iovPtr (iovsPtr : UInt32) (i : Nat) : UInt32 := iovsPtr + UInt32.ofNat i * 8

section Functions

variable (host : FileHost) (memSize : UInt32)

/-- A round of the loops: the pair is checked and read, its buffer is checked, and `use` is what
the loop does with the buffer and the total so far. -/
def iovRound (iovsPtr : UInt32)
    (use : Nat → UInt32 → UInt32 → UInt32 → Access (Turn UInt32 UInt32)) (i : Nat)
    (total : UInt32) : Access (Turn UInt32 UInt32) :=
  if refuses memSize (iovPtr iovsPtr i) 8 then pure (.quit 28) else do
    let bufPtr ← load32 (iovPtr iovsPtr i).toNat
    let bufLen ← load32 ((iovPtr iovsPtr i).toNat + 4)
    if refuses memSize bufPtr bufLen then pure (.quit 28)
    else use i bufPtr bufLen total

/-- The loops, and the store of the total that they end with. -/
def overIovs (iovsPtr iovsLen resultPtr : UInt32)
    (use : Nat → UInt32 → UInt32 → UInt32 → Access (Turn UInt32 UInt32)) : Access UInt32 := do
  match ← rounds (iovRound memSize iovsPtr use) iovsLen.toNat 0 0 with
  | .error code => pure code
  | .ok total => do
    store32 resultPtr.toNat total
    pure 0

/-- `mem[buf_ptr + j] = rand() & 0xff` from `j` on, `n` times; the index is one of 32 bits. -/
def fillRandom (i : Nat) (bufPtr : UInt32) : Nat → Nat → Access Unit
  | 0, _ => pure ()
  | n + 1, j => do
    store (bufPtr + UInt32.ofNat j).toNat [host.rand i j]
    fillRandom i bufPtr n (j + 1)

/-- A buffer of the fake file of random bytes. -/
def useRandom (i : Nat) (bufPtr bufLen total : UInt32) : Access (Turn UInt32 UInt32) := do
  fillRandom host i bufPtr bufLen.toNat 0
  pure (.next (total + bufLen))

/-- How a round ends after `read`. -/
def readTurn (reply : FileReply) (bufLen total : UInt32) : Turn UInt32 UInt32 :=
  if reply.res < 0 then
    if total > 0 then .stop total else .quit (errnoToWasi reply.errno)
  else if reply.res < bufLen.toNat ∨ reply.res = 0 then .stop (total + UInt32.ofInt reply.res)
  else .next (total + UInt32.ofInt reply.res)

/-- A buffer that `read` fills. -/
def useRead (fd : UInt32) (i : Nat) (bufPtr bufLen total : UInt32) :
    Access (Turn UInt32 UInt32) := do
  let reply := host.read i fd bufLen
  receive bufPtr.toNat bufLen.toNat reply.data
  pure (readTurn reply bufLen total)

/-- How a round ends after `write`. -/
def writeTurn (reply : FileReply) (bufLen total : UInt32) : Turn UInt32 UInt32 :=
  if reply.res < 0 then
    if total > 0 then .stop total else .quit (errnoToWasi reply.errno)
  else if reply.res < bufLen.toNat then .stop (total + UInt32.ofInt reply.res)
  else .next (total + UInt32.ofInt reply.res)

/-- A buffer that `write` sends. -/
def useWrite (fd : UInt32) (i : Nat) (bufPtr bufLen total : UInt32) :
    Access (Turn UInt32 UInt32) := do
  let bytes ← lend bufPtr.toNat bufLen.toNat
  pure (writeTurn (host.write i fd bytes) bufLen total)

/-- `fd_read`. -/
def fdRead (fd iovsPtr iovsLen nreadPtr : UInt32) : Access UInt32 :=
  if refuses memSize nreadPtr 4 then pure 28
  else if fd = fakeRandomFd then overIovs memSize iovsPtr iovsLen nreadPtr (useRandom host)
  else overIovs memSize iovsPtr iovsLen nreadPtr (useRead host fd)

/-- `fd_write`. -/
def fdWrite (fd iovsPtr iovsLen nwrittenPtr : UInt32) : Access UInt32 :=
  if refuses memSize nwrittenPtr 4 then pure 28
  else if fd = fakeRandomFd then pure 28
  else overIovs memSize iovsPtr iovsLen nwrittenPtr (useWrite host fd)

end Functions

end Wasm

end LuxonServer
