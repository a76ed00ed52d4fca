import Mathlib.Data.List.Infix
import LuxonServer.Http.Path
import LuxonServer.Lib.Run

/-! The connections of the HTTP server: a pass over its clients for each round of the main loop,
with what the socket calls come to as an argument.  A client has its answer, and then the end of
the stream. -/

namespace LuxonServer

namespace Http

/-- What `recv` comes to; no bytes stand for the end of the stream. -/
inductive Received where
  | bytes (bytes : Bytes)
  | wouldBlock
  | error

/-- What `send` comes to: how many bytes it has taken. -/
inductive Sent where
  | count (n : Nat)
  | wouldBlock
  | error

/-- `MAX_PAYLOAD_SIZE`. -/
def maxPayloadSize : Nat := 64 * 1024

/-- `MAX_CLIENTS`. -/
def maxClients : Nat := 256

/-- `IDLE_TIMEOUT` in nanoseconds. -/
def idleTimeout : Nat := 30 * 1000000000

/-- The blank line that ends the head of a request. -/
def headerEnd : Bytes := [0x0D, 0x0A, 0x0D, 0x0A]

def hasHeader (buffer : Bytes) : Bool := headerEnd <:+: buffer

/-- `HttpClient`. -/
structure HttpClient where
  fd : Nat
  requestBuffer : Bytes := []
  writeBuffer : Bytes := []
  markForDelete : Bool := false
  closeAfterWrite : Bool := false
  shutdownSent : Bool := false
  lastActivity : Nat
  /-- Ghost: whether the selector has taken the descriptor. -/
  registered : Bool := true
  /-- Ghost: all that the client has sent. -/
  received : Bytes := []
  /-- Ghost: all that has been sent to it. -/
  sent : Bytes := []
  /-- Ghost: the answers that were queued. -/
  queued : List Bytes := []
  /-- Ghost: the request that was handled, in two parts, the last of which had just arrived; and its
  answer. -/
  handled : Option (Bytes × Bytes × Bytes) := none

/-- A pass over the clients: the time, the descriptors that the selector has reported since the last
one, and what the calls come to.  `registers` is what `add_read_fd` returns, which nobody looks at;
`answer` is what `handle_client_data` queues for a buffer. -/
structure Pass where
  now : Nat
  ready : List Nat
  accept : Option Nat
  registers : Bool := true
  recv : Nat → Received
  send : Nat → Sent
  answer : Bytes → Bytes

namespace HttpClient

/-- `queue_data` with `close_connection`, as every caller has it. -/
def queueData (data : Bytes) (c : HttpClient) : HttpClient :=
  { c with
    writeBuffer := c.writeBuffer ++ data
    closeAfterWrite := true
    queued := c.queued ++ [data] }

/-- Some bytes have arrived; `true` if the pass is over for the client. -/
def handleBytes (tooLarge : Bytes) (p : Pass) (bytes : Bytes) (c : HttpClient) :
    HttpClient × Bool :=
  let c := { c with lastActivity := p.now, received := c.received ++ bytes }
  if c.requestBuffer.length + bytes.length > maxPayloadSize then (c.queueData tooLarge, true)
  else
    let before := c.requestBuffer
    let c := { c with requestBuffer := before ++ bytes }
    if !c.closeAfterWrite && hasHeader c.requestBuffer then
      let c := { c with handled := some (before, bytes, p.answer c.requestBuffer) }
      (c.queueData (p.answer c.requestBuffer), false)
    else (c, false)

def receive (tooLarge : Bytes) (p : Pass) (c : HttpClient) : HttpClient × Bool :=
  if c.fd ∈ p.ready then
    match p.recv c.fd with
    | .bytes [] => ({ c with markForDelete := true }, false)
    | .bytes (byte :: bytes) => c.handleBytes tooLarge p (byte :: bytes)
    | .wouldBlock => (c, false)
    | .error => ({ c with markForDelete := true }, false)
  else (c, false)

def flush (p : Pass) (c : HttpClient) : HttpClient :=
  if c.writeBuffer = [] then c
  else
    match p.send c.fd with
    | .count 0 => c
    | .count (n + 1) =>
      { c with
        lastActivity := p.now
        writeBuffer := c.writeBuffer.drop (n + 1)
        sent := c.sent ++ c.writeBuffer.take (n + 1) }
    | .wouldBlock => c
    | .error => { c with markForDelete := true }

/-- `shutdown` when the last answer is on its way. -/
def shutdown (c : HttpClient) : HttpClient :=
  if c.closeAfterWrite && c.writeBuffer = [] then { c with shutdownSent := true } else c

/-- The pass for one client. -/
def service (tooLarge : Bytes) (p : Pass) (c : HttpClient) : HttpClient :=
  if c.markForDelete then c
  else if p.now - c.lastActivity > idleTimeout then { c with markForDelete := true }
  else
    match c.receive tooLarge p with
    | (c, true) => c
    | (c, false) => (c.flush p).shutdown

end HttpClient

/-- The server, with the callbacks of the selector and the descriptors that it has open. -/
structure HttpServer where
  serverFd : Nat
  clients : List HttpClient := []
  callbacks : List Nat
  opened : List Nat
  /-- Ghost: the clients that have been dropped. -/
  gone : List HttpClient := []
  /-- Ghost: descriptors that were closed and not open. -/
  faults : List Nat := []

namespace HttpServer

/-- `add_read_fd`, which may fail. -/
def addReadFd (registers : Bool) (fd : Nat) (callbacks : List Nat) : List Nat :=
  if registers then callbacks ++ [fd] else callbacks

/-- After `bind`. -/
def listening (serverFd : Nat) (registers : Bool := true) : HttpServer where
  serverFd
  callbacks := addReadFd registers serverFd []
  opened := [serverFd]

def acceptClient (p : Pass) (s : HttpServer) : HttpServer :=
  if s.clients.length < maxClients ∧ s.serverFd ∈ p.ready then
    match p.accept with
    | none => s
    | some fd =>
      { s with
        clients := s.clients ++ [{ fd, lastActivity := p.now, registered := p.registers }]
        callbacks := addReadFd p.registers fd s.callbacks
        opened := s.opened ++ [fd] }
  else s

/-- `CLOSE_SOCKET` and `on_delete_fd`. -/
def close (s : HttpServer) (c : HttpClient) : HttpServer :=
  { s with
    callbacks := s.callbacks.erase c.fd
    opened := s.opened.erase c.fd
    gone := s.gone ++ [c]
    faults := if c.fd ∈ s.opened then s.faults else c.fd :: s.faults }

/-- The `erase_if` of `service_now`: the clients that are marked are closed in their order. -/
def erase (s : HttpServer) (clients : List HttpClient) : HttpServer :=
  (clients.filter (·.markForDelete)).foldl close
    { s with clients := clients.filter fun c => !c.markForDelete }

/-- `service_now`. -/
def serviceNow (tooLarge : Bytes) (s : HttpServer) (p : Pass) : HttpServer :=
  (s.acceptClient p).erase ((s.acceptClient p).clients.map (HttpClient.service tooLarge p))

/-- The system gives a new connection a descriptor that is not in use. -/
def Allocates (s : HttpServer) (p : Pass) : Prop := ∀ fd ∈ p.accept, fd ∉ s.opened

instance (s : HttpServer) (p : Pass) : Decidable (Allocates s p) :=
  inferInstanceAs (Decidable (∀ fd ∈ p.accept, fd ∉ s.opened))

end HttpServer

end Http

end LuxonServer
