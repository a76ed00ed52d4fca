import LuxonServer.Lib.Framing
import LuxonServer.Lib.Run
import Mathlib.Data.List.Forall2
import Mathlib.Logic.Function.Basic

/-! The two ends of an `IPC`: messages are framed, queued and sent over a non-blocking socket, and
taken off what has arrived at the other end. -/

namespace LuxonServer

/-- `IPCBinaryProtocol`. -/
structure IpcProtocol (Msg : Type) where
  serialize : Msg → Except String (List UInt8)
  deserialize : List UInt8 → Except String Msg

namespace IpcProtocol

variable {Msg : Type} (protocol : IpcProtocol Msg)

/-- The frame that `send_message` makes of a message. -/
def frame (msg : Msg) : Except String (List UInt8) :=
  match protocol.serialize msg with
  | .error message => .error ("Failed to serialize IPC message: " ++ message)
  | .ok payload =>
    if payload.length > 0xffffffff then .error "IPC message too large!"
    else .ok (Framing.frame 4 payload)

/-- A message whose payload fits into a frame, and is the message again at the other end. -/
structure Carries (msg : Msg) (payload : List UInt8) : Prop where
  serialize : protocol.serialize msg = .ok payload
  length_lt : payload.length < 2 ^ 32
  deserialize : protocol.deserialize payload = .ok msg

end IpcProtocol

/-- How a call of `send` comes out. -/
inductive SendResult where
  | sent (n : Nat)
  | interrupted
  /-- An error that is none of the other two. -/
  | failed

/-- How a call of `recv` comes out. -/
inductive RecvResult where
  /-- Up to `n` bytes have arrived. -/
  | read (n : Nat)
  | interrupted
  | closed
  /-- An error that is none of the other two. -/
  | failed

/-- The loop of `send_message`, with `written` of `size` bytes written: how many are at its end, and
whether the socket is still there.  The call after the last of the results would block. -/
def IPC.flush (size : Nat) : List SendResult → Nat → Nat × Bool
  | [], written => (written, true)
  | result :: results, written =>
    if written < size then
      match result with
      | .interrupted => flush size results written
      | .failed => (written, false)
      | .sent n =>
        if n = 0 then (written, false) else flush size results (written + min n (size - written))
    else (written, true)

/-- The loop of `receive_message`: what is in the buffer at its end, what is still on the wire, and
the error that it is left with.  The call after the last of the results would block. -/
def IPC.drain : List RecvResult → List UInt8 → List UInt8 →
    List UInt8 × List UInt8 × Option String
  | [], buffer, wire => (buffer, wire, none)
  | .interrupted :: results, buffer, wire => drain results buffer wire
  | .closed :: _, buffer, wire =>
    (buffer, wire, some "Unrecoverable communication error in IPC: Connection reset")
  | .failed :: _, buffer, wire =>
    (buffer, wire, some "Unrecoverable communication error in IPC: Socket error")
  | .read n :: results, buffer, wire =>
    let chunk := wire.take (min n 4096)
    -- With nothing there, the call would block.
    if chunk = [] then (buffer, wire, none)
    else drain results (buffer ++ chunk) (wire.drop chunk.length)

/-- `IPC`, with its socket open or not. -/
structure IPC where
  isOpen : Bool := true
  recvBuffer : List UInt8 := []
  sendBuffer : List UInt8 := []

namespace IPC

variable {Msg : Type} (protocol : IpcProtocol Msg)

/-- `send_message`, with the bytes that go out. -/
def sendMessage (msg : Msg) (results : List SendResult) (ipc : IPC) :
    Except String Unit × IPC × List UInt8 :=
  if ipc.isOpen then
    match protocol.frame msg with
    | .error message => (.error message, ipc, [])
    | .ok frame =>
      let buffer := ipc.sendBuffer ++ frame
      match IPC.flush buffer.length results 0 with
      | (written, true) =>
        (.ok (), { ipc with sendBuffer := buffer.drop written }, buffer.take written)
      | (written, false) =>
        (.error "Unrecoverable communication error in IPC: Connection reset?",
          { ipc with isOpen := false, sendBuffer := buffer }, buffer.take written)
  else (.error "Attempted to send message over unconnected IPC!", ipc, [])

/-- `receive_message`, with what is left on the wire. -/
def receiveMessage (results : List RecvResult) (wire : List UInt8) (ipc : IPC) :
    Except String (Option Msg) × IPC × List UInt8 :=
  if ipc.isOpen then
    match IPC.drain results ipc.recvBuffer wire with
    | (recvBuffer, wire, some message) =>
      (.error message, { ipc with isOpen := false, recvBuffer }, wire)
    | (recvBuffer, wire, none) =>
      match Framing.next 4 recvBuffer with
      | none => (.ok none, { ipc with recvBuffer }, wire)
      | some (payload, rest) =>
        let result := match protocol.deserialize payload with
          | .error message => .error ("Failed to deserialize IPC message: " ++ message)
          | .ok msg => .ok (some msg)
        (result, { ipc with recvBuffer := rest }, wire)
  else (.ok none, ipc, wire)

end IPC

/-- The two processes that an `IPC` connects. -/
inductive IpcSide where
  | parent
  | child
  deriving DecidableEq, Repr

def IpcSide.other : IpcSide → IpcSide
  | parent => child
  | child => parent

/-- A connection: its ends, the bytes on their way from each of them, and what each has sent and
received. -/
structure IpcStream (Msg : Type) where
  ends : IpcSide → IPC := fun _ => {}
  wire : IpcSide → List UInt8 := fun _ => []
  sent : IpcSide → List Msg := fun _ => []
  received : IpcSide → List Msg := fun _ => []

inductive IpcCall (Msg : Type) where
  | send (side : IpcSide) (msg : Msg) (results : List SendResult)
  | receive (side : IpcSide) (results : List RecvResult)

namespace IpcStream

variable {Msg : Type} (protocol : IpcProtocol Msg)

/-- `send_message` at an end.  A message has been sent once its frame is in the buffer. -/
def send (side : IpcSide) (msg : Msg) (results : List SendResult) (s : IpcStream Msg) :
    IpcStream Msg :=
  let (_, ipc, bytes) := (s.ends side).sendMessage protocol msg results
  let queued := (s.ends side).isOpen && (protocol.frame msg).isOk
  { s with
    ends := Function.update s.ends side ipc
    wire := Function.update s.wire side (s.wire side ++ bytes)
    sent := Function.update s.sent side (s.sent side ++ if queued then [msg] else []) }

/-- What `receive_message` returns or throws at an end. -/
def receives (side : IpcSide) (results : List RecvResult) (s : IpcStream Msg) :
    Except String (Option Msg) :=
  ((s.ends side).receiveMessage protocol results (s.wire side.other)).1

/-- `receive_message` at an end. -/
def receive (side : IpcSide) (results : List RecvResult) (s : IpcStream Msg) : IpcStream Msg :=
  let (result, ipc, wire) := (s.ends side).receiveMessage protocol results (s.wire side.other)
  { s with
    ends := Function.update s.ends side ipc
    wire := Function.update s.wire side.other wire
    received := Function.update s.received side
      (s.received side ++ result.toOption.join.toList) }

def step (s : IpcStream Msg) : IpcCall Msg → IpcStream Msg
  | .send side msg results => s.send protocol side msg results
  | .receive side results => s.receive protocol side results

end IpcStream

/-- Whether no call of `send` or `recv` fails, or finds the connection closed. -/
def IpcCall.IsSmooth {Msg : Type} : IpcCall Msg → Prop
  | .send _ _ results => .failed ∉ results ∧ .sent 0 ∉ results
  | .receive _ results => .closed ∉ results ∧ .failed ∉ results

def IpcCall.IsCarried {Msg : Type} (protocol : IpcProtocol Msg) : IpcCall Msg → Prop
  | .send _ msg _ => ∃ payload, protocol.Carries msg payload
  | .receive _ _ => True

def IpcCall.given {Msg : Type} (side : IpcSide) (calls : List (IpcCall Msg)) : List Msg :=
  calls.filterMap fun call =>
    match call with
    | .send sender msg _ => if sender = side then some msg else none
    | .receive _ _ => none

namespace IpcProtocol

variable {Msg : Type} {protocol : IpcProtocol Msg} {msg : Msg} {payload : List UInt8}

theorem Carries.frame (h : protocol.Carries msg payload) :
    protocol.frame msg = .ok (Framing.frame 4 payload) := by
  have hfits : ¬payload.length > 0xffffffff := by
    have := h.length_lt
    omega
  unfold IpcProtocol.frame
  rw [h.serialize]
  exact if_neg hfits

theorem length_lt_of_carries {msgs : List Msg} {payloads : List (List UInt8)}
    (h : List.Forall₂ protocol.Carries msgs payloads) :
    ∀ payload ∈ payloads, payload.length < 256 ^ 4 := by
  induction h with
  | nil => simp
  | cons hmsg _ ih => exact List.forall_mem_cons.mpr ⟨hmsg.length_lt, ih⟩

end IpcProtocol

namespace IPC

theorem flush_smooth (size : Nat) {results : List SendResult} (hfailed : .failed ∉ results)
    (hnone : .sent 0 ∉ results) (written : Nat) : (flush size results written).2 = true := by
  induction results generalizing written with
  | nil => rfl
  | cons result results ih =>
    rw [List.mem_cons, not_or] at hfailed hnone
    unfold flush
    split
    · cases result with
      | interrupted => exact ih hfailed.2 hnone.2 written
      | failed => exact absurd rfl hfailed.1
      | sent n =>
        have hn : n ≠ 0 := fun hzero => hnone.1 (by rw [hzero])
        simp only [if_neg hn]
        exact ih hfailed.2 hnone.2 _
    · rfl

/-- Bytes only go from the wire to the buffer. -/
theorem drain_append (results : List RecvResult) (buffer wire : List UInt8) :
    (drain results buffer wire).1 ++ (drain results buffer wire).2.1 = buffer ++ wire := by
  induction results generalizing buffer wire with
  | nil => rfl
  | cons result results ih =>
    cases result with
    | interrupted => exact ih buffer wire
    | closed => rfl
    | failed => rfl
    | read n =>
      simp only [drain]
      split
      · rfl
      · rw [ih, List.append_assoc, List.prefix_iff_eq_append.mp (List.take_prefix _ wire)]

theorem drain_smooth {results : List RecvResult} (hclosed : .closed ∉ results)
    (hfailed : .failed ∉ results) (buffer wire : List UInt8) :
    (drain results buffer wire).2.2 = none := by
  induction results generalizing buffer wire with
  | nil => rfl
  | cons result results ih =>
    rw [List.mem_cons, not_or] at hclosed hfailed
    cases result with
    | interrupted => exact ih hclosed.2 hfailed.2 buffer wire
    | closed => exact absurd rfl hclosed.1
    | failed => exact absurd rfl hfailed.1
    | read n =>
      simp only [drain]
      split
      · rfl
      · exact ih hclosed.2 hfailed.2 _ _

variable {Msg : Type} {protocol : IpcProtocol Msg} {msg : Msg} {payload : List UInt8} {ipc : IPC}

/-- A message is queued behind what has not gone out; what goes out is the front of the queue, and
the rest stays in the buffer as long as the socket is there. -/
theorem sendMessage_spec (h : protocol.Carries msg payload) (hopen : ipc.isOpen = true)
    (results : List SendResult) :
    ∃ result ipc' bytes tail, ipc.sendMessage protocol msg results = (result, ipc', bytes) ∧
      bytes ++ tail = ipc.sendBuffer ++ Framing.frame 4 payload ∧
      ipc'.recvBuffer = ipc.recvBuffer ∧ tail <:+ ipc'.sendBuffer ∧
      (ipc'.isOpen = true → tail = ipc'.sendBuffer) ∧
      (.failed ∉ results → .sent 0 ∉ results → ipc'.isOpen = true) := by
  unfold sendMessage
  rw [if_pos hopen, h.frame]
  simp only
  cases hflush : IPC.flush (ipc.sendBuffer ++ Framing.frame 4 payload).length results 0 with
  | mk written alive =>
  cases alive with
  | true =>
    exact ⟨_, _, _, _, rfl, List.take_append_drop _ _, rfl, List.suffix_refl _, fun _ => rfl,
      fun _ _ => hopen⟩
  | false =>
    refine ⟨_, _, _, _, rfl, List.take_append_drop written _, rfl, List.drop_suffix _ _, ?_, ?_⟩
    · exact fun hclosed => by cases hclosed
    · intro hfailed hnone
      have halive := flush_smooth (ipc.sendBuffer ++ Framing.frame 4 payload).length
        hfailed hnone 0
      rw [hflush] at halive
      cases halive

variable (protocol) in
theorem sendMessage_of_closed (hclosed : ipc.isOpen = false) (msg : Msg)
    (results : List SendResult) : ∃ result, ipc.sendMessage protocol msg results = (result, ipc, []) :=
  ⟨_, if_neg (by simp [hclosed])⟩

variable (protocol) in
theorem receiveMessage_frame (results : List RecvResult) (wire : List UInt8) (ipc : IPC) :
    (ipc.receiveMessage protocol results wire).2.1.sendBuffer = ipc.sendBuffer ∧
    ((ipc.receiveMessage protocol results wire).2.1.isOpen = true → ipc.isOpen = true) ∧
    (.closed ∉ results → .failed ∉ results → ipc.isOpen = true →
      (ipc.receiveMessage protocol results wire).2.1.isOpen = true) := by
  unfold receiveMessage
  split
  · next hopen =>
    cases hdrain : IPC.drain results ipc.recvBuffer wire with
    | mk buffer after =>
    obtain ⟨wire', error⟩ := after
    cases error with
    | some message =>
      refine ⟨rfl, fun _ => hopen, fun hclosed hfailed => ?_⟩
      have hnone := drain_smooth hclosed hfailed ipc.recvBuffer wire
      rw [hdrain] at hnone
      cases hnone
    | none =>
      simp only
      split
      · exact ⟨rfl, fun _ => hopen, fun _ _ _ => hopen⟩
      · exact ⟨rfl, fun _ => hopen, fun _ _ _ => hopen⟩
  · exact ⟨rfl, id, fun _ _ => id⟩

/-- No byte is lost, and no message comes of a call, or the first of those that are under way. -/
theorem receiveMessage_spec {rest : List Msg} {payloads : List (List UInt8)} {wire tail : List UInt8}
    (hcarried : List.Forall₂ protocol.Carries rest payloads)
    (hstream : ipc.recvBuffer ++ (wire ++ tail) = payloads.flatMap (Framing.frame 4))
    (results : List RecvResult) :
    ∃ result ipc' wire', ipc.receiveMessage protocol results wire = (result, ipc', wire') ∧
      ((result.toOption.join = none ∧
          ipc'.recvBuffer ++ (wire' ++ tail) = payloads.flatMap (Framing.frame 4)) ∨
        ∃ msg others payload payloads', rest = msg :: others ∧ payloads = payload :: payloads' ∧
          result = .ok (some msg) ∧
          ipc'.recvBuffer ++ (wire' ++ tail) = payloads'.flatMap (Framing.frame 4)) := by
  unfold receiveMessage
  split
  · have hdrain := drain_append results ipc.recvBuffer wire
    cases hafter : IPC.drain results ipc.recvBuffer wire with
    | mk buffer after =>
    obtain ⟨wire', error⟩ := after
    rw [hafter] at hdrain
    rw [← List.append_assoc, ← hdrain, List.append_assoc] at hstream
    cases error with
    | some message => exact ⟨_, _, _, rfl, Or.inl ⟨rfl, hstream⟩⟩
    | none =>
      rcases Framing.next_of_stream (by decide) (IpcProtocol.length_lt_of_carries hcarried) hstream
        with ⟨hnone, -⟩ | ⟨payload, payloads', buffer', rfl, hnext, hrest⟩
      · simp only [hnone]
        exact ⟨_, _, _, rfl, Or.inl ⟨rfl, hstream⟩⟩
      · cases hcarried with
        | cons hmsg hothers =>
          simp only [hnext, hmsg.deserialize]
          exact ⟨_, _, _, rfl, Or.inr ⟨_, _, _, _, rfl, rfl, rfl, hrest⟩⟩
  · exact ⟨_, _, _, rfl, Or.inl ⟨rfl, hstream⟩⟩

end IPC

namespace IpcStream

variable {Msg : Type} {protocol : IpcProtocol Msg} {s : IpcStream Msg} {side : IpcSide}

/-- The messages `rest` are under way from a side, as `payloads`; of their frames, `tail` has not
gone out yet. -/
structure InFlight (protocol : IpcProtocol Msg) (side : IpcSide) (s : IpcStream Msg)
    (rest : List Msg) (payloads : List (List UInt8)) (tail : List UInt8) : Prop where
  sent : s.sent side = s.received side.other ++ rest
  carried : List.Forall₂ protocol.Carries rest payloads
  stream : (s.ends side.other).recvBuffer ++ (s.wire side ++ tail) =
    payloads.flatMap (Framing.frame 4)
  suffix : tail <:+ (s.ends side).sendBuffer
  whole : (s.ends side).isOpen = true → tail = (s.ends side).sendBuffer

/-- Of either side, what has been sent has been received or is under way. -/
def Sound (protocol : IpcProtocol Msg) (s : IpcStream Msg) : Prop :=
  ∀ side, ∃ rest payloads tail, s.InFlight protocol side rest payloads tail

theorem sound_start (protocol : IpcProtocol Msg) : Sound protocol ({} : IpcStream Msg) := fun _ =>
  ⟨[], [], [],
    { sent := rfl
      carried := .nil
      stream := rfl
      suffix := List.suffix_refl _
      whole := fun _ => rfl }⟩

end IpcStream

theorem IpcSide.other_ne (side : IpcSide) : side.other ≠ side := by cases side <;> decide

@[simp] theorem IpcSide.other_other (side : IpcSide) : side.other.other = side := by
  cases side <;> rfl

theorem IpcSide.eq_or_eq_other (side other : IpcSide) : other = side ∨ other = side.other := by
  cases side <;> cases other <;> decide

namespace IpcStream

variable {Msg : Type} {protocol : IpcProtocol Msg} {s : IpcStream Msg} {side : IpcSide}
  {msg : Msg} {payload : List UInt8}

theorem Sound.send (hs : s.Sound protocol) (h : protocol.Carries msg payload) (side : IpcSide)
    (results : List SendResult) : (s.send protocol side msg results).Sound protocol := by
  cases hopen : (s.ends side).isOpen with
  | false =>
    obtain ⟨result, heq⟩ := IPC.sendMessage_of_closed protocol hopen msg results
    unfold IpcStream.send
    simpa [heq, hopen] using hs
  | true =>
    obtain ⟨result, ipc, bytes, left, heq, hbytes, hrecv, hsuffix, hwhole, -⟩ :=
      IPC.sendMessage_spec h hopen results
    unfold IpcStream.send
    simp only [heq, hopen, h.frame]
    intro sender
    obtain ⟨rest, payloads, tail, hflight⟩ := hs sender
    rcases side.eq_or_eq_other sender with rfl | rfl
    · refine ⟨rest ++ [msg], payloads ++ [payload], left, ?_⟩
      have htail := hflight.whole hopen
      exact
        { sent := by
            simp only [Function.update_self, Bool.true_and, Except.isOk, Except.toBool, if_true]
            rw [hflight.sent, List.append_assoc]
          carried := List.rel_append hflight.carried (.cons h .nil)
          stream := by
            have hstream := hflight.stream
            rw [htail] at hstream
            simp only [Function.update_self, Function.update_of_ne sender.other_ne]
            rw [List.flatMap_append, ← hstream, List.flatMap_singleton, List.append_assoc,
              List.append_assoc, List.append_assoc, hbytes]
          suffix := by
            simpa only [Function.update_self] using hsuffix
          whole := by
            simpa only [Function.update_self] using hwhole }
    · refine ⟨rest, payloads, tail, ?_⟩
      have hne := side.other_ne
      exact
        { sent := by
            simpa only [Function.update_of_ne hne] using hflight.sent
          carried := hflight.carried
          stream := by
            simpa only [IpcSide.other_other, Function.update_self, Function.update_of_ne hne, hrecv]
              using hflight.stream
          suffix := by
            simpa only [Function.update_of_ne hne] using hflight.suffix
          whole := by
            simpa only [Function.update_of_ne hne] using hflight.whole }

/-- What a call of `receive_message` does to the messages under way to its end. -/
theorem InFlight.receive {rest : List Msg} {payloads : List (List UInt8)} {tail : List UInt8}
    (h : s.InFlight protocol side rest payloads tail) (results : List RecvResult) :
    ∃ rest' payloads', (s.receive protocol side.other results).InFlight protocol side rest' payloads'
        tail ∧
      (rest' = rest ∧ (s.receives protocol side.other results).toOption.join = none ∨
        ∃ msg, rest = msg :: rest' ∧ s.receives protocol side.other results = .ok (some msg)) := by
  have hne := side.other_ne
  obtain ⟨result, ipc, wire, heq, hcases⟩ :=
    IPC.receiveMessage_spec h.carried h.stream results
  unfold IpcStream.receive IpcStream.receives
  simp only [IpcSide.other_other, heq]
  rcases hcases with ⟨hnone, hstream⟩ | ⟨msg, others, payload, payloads', rfl, rfl, rfl, hstream⟩
  · refine ⟨rest, payloads, ?_, Or.inl ⟨rfl, hnone⟩⟩
    exact
      { sent := by
          simp only [Function.update_self, hnone, Option.toList_none, List.append_nil]
          exact h.sent
        carried := h.carried
        stream := by
          simpa only [Function.update_self] using hstream
        suffix := by
          simpa only [Function.update_of_ne hne.symm] using h.suffix
        whole := by
          simpa only [Function.update_of_ne hne.symm] using h.whole }
  · refine ⟨others, payloads', ?_, Or.inr ⟨msg, rfl, rfl⟩⟩
    exact
      { sent := by
          simp only [Function.update_self]
          rw [h.sent, List.append_assoc]
          rfl
        carried := by
          cases h.carried with
          | cons _ hothers => exact hothers
        stream := by
          simpa only [Function.update_self] using hstream
        suffix := by
          simpa only [Function.update_of_ne hne.symm] using h.suffix
        whole := by
          simpa only [Function.update_of_ne hne.symm] using h.whole }

/-- A call of `receive_message` at the end that they come from changes nothing about them. -/
theorem InFlight.receive_back {rest : List Msg} {payloads : List (List UInt8)} {tail : List UInt8}
    (h : s.InFlight protocol side rest payloads tail) (results : List RecvResult) :
    (s.receive protocol side results).InFlight protocol side rest payloads tail := by
  have hne := side.other_ne
  obtain ⟨hsend, hopen, -⟩ :=
    IPC.receiveMessage_frame protocol results (s.wire side.other) (s.ends side)
  unfold IpcStream.receive
  exact
    { sent := by
        simpa only [Function.update_of_ne hne] using h.sent
      carried := h.carried
      stream := by
        simpa only [Function.update_of_ne hne, Function.update_of_ne hne.symm] using h.stream
      suffix := by
        simpa only [Function.update_self, hsend] using h.suffix
      whole := by
        simp only [Function.update_self, hsend]
        exact fun hstill => h.whole (hopen hstill) }

theorem Sound.receive (hs : s.Sound protocol) (side : IpcSide) (results : List RecvResult) :
    (s.receive protocol side results).Sound protocol := by
  intro sender
  obtain ⟨rest, payloads, tail, hflight⟩ := hs sender
  rcases sender.eq_or_eq_other side with rfl | rfl
  · exact ⟨rest, payloads, tail, hflight.receive_back results⟩
  · obtain ⟨rest', payloads', hafter, -⟩ := hflight.receive results
    exact ⟨rest', payloads', tail, hafter⟩

theorem sound_keeps (protocol : IpcProtocol Msg) :
    Transition.Keeps (step protocol) (fun _ call => call.IsCarried protocol) (Sound protocol) := by
  intro s call hs hcall
  cases call with
  | send side msg results =>
    obtain ⟨payload, h⟩ := hcall
    exact hs.send h side results
  | receive side results => exact hs.receive side results

theorem InFlight.received_isPrefix {rest : List Msg} {payloads : List (List UInt8)}
    {tail : List UInt8} (h : s.InFlight protocol side rest payloads tail) :
    s.received side.other <+: s.sent side :=
  ⟨rest, h.sent.symm⟩

/-- All frames of a side have arrived at the other end, and that is still there. -/
structure Delivered (side : IpcSide) (s : IpcStream Msg) : Prop where
  wire : s.wire side = []
  sendBuffer : (s.ends side).sendBuffer = []
  isOpen : (s.ends side.other).isOpen = true

def calling (protocol : IpcProtocol Msg) (side : IpcSide) (n : Nat) (s : IpcStream Msg) :
    IpcStream Msg :=
  Transition.run (step protocol) s (List.replicate n (.receive side []))

/-- Once all frames have arrived, a call that returns nothing finds no message under way. -/
theorem InFlight.eq_nil {rest : List Msg} {payloads : List (List UInt8)} {tail : List UInt8}
    (h : s.InFlight protocol side rest payloads tail) (hdelivered : s.Delivered side)
    (hnothing : s.receives protocol side.other [] = .ok none) : rest = [] := by
  have htail : tail = [] := by
    have hsuffix := h.suffix
    rw [hdelivered.sendBuffer] at hsuffix
    exact List.suffix_nil.mp hsuffix
  have hstream := h.stream
  rw [hdelivered.wire, htail] at hstream
  rcases Framing.next_of_stream (by decide) (IpcProtocol.length_lt_of_carries h.carried) hstream with
    ⟨-, hnil⟩ | ⟨payload, payloads', buffer, rfl, hnext, -⟩
  · have hpayloads : payloads = [] := hnil rfl
    have hcarried := h.carried
    rw [hpayloads] at hcarried
    exact List.forall₂_nil_right_iff.mp hcarried
  · have hcarried := h.carried
    cases hcarried with
    | cons hmsg hothers =>
      simp only [receives, IPC.receiveMessage, IPC.drain, hdelivered.isOpen, if_true, hnext,
        hmsg.deserialize] at hnothing
      cases hnothing

/-- With its socket open, and nothing there to read, an end does not throw. -/
theorem InFlight.receives_nil {rest : List Msg} {payloads : List (List UInt8)} {tail : List UInt8}
    (h : s.InFlight protocol side rest payloads tail) (hopen : (s.ends side.other).isOpen = true) :
    ∃ found, s.receives protocol side.other [] = .ok found := by
  simp only [receives, IPC.receiveMessage, hopen, if_true, IPC.drain]
  rcases Framing.next_of_stream (by decide) (IpcProtocol.length_lt_of_carries h.carried) h.stream with
    ⟨hnone, -⟩ | ⟨payload, payloads', buffer, rfl, hnext, -⟩
  · rw [hnone]
    exact ⟨none, rfl⟩
  · have hcarried := h.carried
    cases hcarried with
    | cons hmsg hothers =>
      simp only [hnext, hmsg.deserialize]
      exact ⟨_, rfl⟩

variable (protocol) in
theorem Delivered.receive_nil (h : s.Delivered side) :
    (s.receive protocol side.other []).Delivered side := by
  have hne := side.other_ne
  obtain ⟨-, -, hstill⟩ := IPC.receiveMessage_frame protocol [] (s.wire side) (s.ends side.other)
  constructor
  · simp only [IpcStream.receive, IpcSide.other_other, Function.update_self, h.wire,
      IPC.receiveMessage, h.isOpen, if_true, IPC.drain]
    split <;> rfl
  · simp only [IpcStream.receive, Function.update_of_ne hne.symm, h.sendBuffer]
  · simp only [IpcStream.receive, IpcSide.other_other, Function.update_self]
    exact hstill (by simp) (by simp) h.isOpen

/-- Once all frames have arrived, the calls of `receive_message` return all messages, and then
nothing. -/
theorem InFlight.collect {rest : List Msg} {payloads : List (List UInt8)} {tail : List UInt8}
    (h : s.InFlight protocol side rest payloads tail) (hdelivered : s.Delivered side) :
    ∃ n, (s.calling protocol side.other n).receives protocol side.other [] = .ok none ∧
      (s.calling protocol side.other n).received side.other = s.sent side := by
  induction rest generalizing s payloads tail with
  | nil =>
    obtain ⟨found, hfound⟩ := h.receives_nil hdelivered.isOpen
    obtain ⟨_, _, -, ⟨-, hnone⟩ | ⟨_, hcons, -⟩⟩ := h.receive []
    · rw [hfound] at hnone
      obtain rfl : found = none := hnone
      refine ⟨0, hfound, ?_⟩
      rw [h.sent, List.append_nil]
      rfl
    · cases hcons
  | cons msg rest ih =>
    obtain ⟨found, hfound⟩ := h.receives_nil hdelivered.isOpen
    obtain ⟨_, payloads', hafter, ⟨-, hnone⟩ | ⟨_, hcons, -⟩⟩ := h.receive []
    · rw [hfound] at hnone
      obtain rfl : found = none := hnone
      cases h.eq_nil hdelivered hfound
    · cases hcons
      obtain ⟨n, hnothing, hall⟩ := ih hafter (hdelivered.receive_nil protocol)
      exact ⟨n + 1, hnothing, hall⟩

/-- Without a failure, both ends stay open, and a message that is given is sent. -/
theorem step_smooth {call : IpcCall Msg} (hsmooth : call.IsSmooth)
    (hcarried : call.IsCarried protocol) (hopen : ∀ side, (s.ends side).isOpen = true) :
    (∀ side, ((s.step protocol call).ends side).isOpen = true) ∧
    ∀ side, (s.step protocol call).sent side = s.sent side ++ IpcCall.given side [call] := by
  cases call with
  | send sender msg results =>
    obtain ⟨payload, h⟩ := hcarried
    obtain ⟨result, ipc, bytes, tail, heq, -, -, -, -, hstill⟩ :=
      IPC.sendMessage_spec h (hopen sender) results
    simp only [step, IpcStream.send, heq, hopen sender, h.frame]
    constructor
    · intro side
      rcases sender.eq_or_eq_other side with rfl | rfl
      · rw [Function.update_self]
        exact hstill hsmooth.1 hsmooth.2
      · rw [Function.update_of_ne sender.other_ne]
        exact hopen _
    · intro side
      rcases sender.eq_or_eq_other side with rfl | rfl
      · rw [Function.update_self]
        simp [IpcCall.given, Except.isOk, Except.toBool]
      · rw [Function.update_of_ne sender.other_ne]
        simp [IpcCall.given, sender.other_ne.symm]
  | receive receiver results =>
    obtain ⟨-, -, hstill⟩ := IPC.receiveMessage_frame protocol results
      (s.wire receiver.other) (s.ends receiver)
    simp only [step, IpcStream.receive]
    constructor
    · intro side
      rcases receiver.eq_or_eq_other side with rfl | rfl
      · rw [Function.update_self]
        exact hstill hsmooth.1 hsmooth.2 (hopen _)
      · rw [Function.update_of_ne receiver.other_ne]
        exact hopen _
    · intro side
      simp [IpcCall.given]

theorem run_smooth {calls : List (IpcCall Msg)} (hsmooth : ∀ call ∈ calls, call.IsSmooth)
    (hcarried : ∀ call ∈ calls, call.IsCarried protocol)
    (hopen : ∀ side, (s.ends side).isOpen = true) :
    (∀ side, ((Transition.run (step protocol) s calls).ends side).isOpen = true) ∧
    ∀ side, (Transition.run (step protocol) s calls).sent side =
      s.sent side ++ IpcCall.given side calls := by
  induction calls generalizing s with
  | nil => exact ⟨hopen, fun side => (List.append_nil _).symm⟩
  | cons call calls ih =>
    rw [List.forall_mem_cons] at hsmooth hcarried
    obtain ⟨hopen', hsent⟩ := step_smooth hsmooth.1 hcarried.1 hopen
    obtain ⟨hopen'', hsent'⟩ := ih hsmooth.2 hcarried.2 hopen'
    refine ⟨hopen'', fun side => ?_⟩
    have hgiven : IpcCall.given side (call :: calls) =
        IpcCall.given side [call] ++ IpcCall.given side calls := List.filterMap_append (l := [call])
    rw [Transition.run_cons, hsent', hsent, List.append_assoc, hgiven]

/-- What is received is at every moment the first part of what has been sent.  Once all frames have
arrived, it is the whole as soon as a call returns nothing, as the next calls do in the end.  And as
long as nothing fails, all messages given are sent, and both ends stay open. -/
theorem received_isPrefix_sent (protocol : IpcProtocol Msg) (calls : List (IpcCall Msg))
    (hcarried : ∀ call ∈ calls, call.IsCarried protocol) (side : IpcSide) :
    let s := Transition.run (step protocol) {} calls
    Transition.Always (step protocol) (fun s => s.received side.other <+: s.sent side) {} calls ∧
    (s.Delivered side →
      (s.receives protocol side.other [] = .ok none → s.received side.other = s.sent side) ∧
      ∃ n, (s.calling protocol side.other n).receives protocol side.other [] = .ok none ∧
        (s.calling protocol side.other n).received side.other = s.sent side) ∧
    ((∀ call ∈ calls, call.IsSmooth) →
      s.sent side = IpcCall.given side calls ∧ ∀ side, (s.ends side).isOpen = true) := by
  intro s
  have hsteps : Transition.EachStep (step protocol) (fun _ call => call.IsCarried protocol) {} calls :=
    Transition.eachStep_of_forall fun call hcall _ => hcarried call hcall
  have hsound := (sound_keeps protocol).always (sound_start protocol) hsteps
  refine ⟨hsound.imp fun s hs => ?_, fun hdelivered => ?_, fun hsmooth => ?_⟩
  · obtain ⟨_, _, _, hflight⟩ := hs side
    exact hflight.received_isPrefix
  · obtain ⟨rest, payloads, tail, hflight⟩ := hsound.last side
    refine ⟨fun hnothing => ?_, hflight.collect hdelivered⟩
    have hrest := hflight.eq_nil hdelivered hnothing
    rw [hflight.sent, hrest, List.append_nil]
  · obtain ⟨hopen, hsent⟩ := run_smooth (s := {}) hsmooth hcarried fun _ => rfl
    exact ⟨hsent side, hopen⟩

def plainProtocol : IpcProtocol (List UInt8) where
  serialize := .ok
  deserialize := .ok

/-- Two messages: the first is cut within its header, and the rest of it comes with the second. -/
def twoMessages : List (IpcCall (List UInt8)) :=
  [.send .parent [7, 8, 9] [.sent 2, .interrupted], .receive .child [.read 1, .interrupted],
    .send .parent [1] [.sent 3, .sent 100], .receive .child [.read 4, .read 4096],
    .receive .child []]

theorem received_twoMessages :
    Transition.Always (step plainProtocol) (fun s => s.received .child <+: s.sent .parent) {}
      twoMessages ∧
    (Transition.run (step plainProtocol) {} twoMessages).received .child =
      (Transition.run (step plainProtocol) {} twoMessages).sent .parent := by
  have hcarried : ∀ call ∈ twoMessages, call.IsCarried plainProtocol := by
    unfold twoMessages
    simp only [List.forall_mem_cons, IpcCall.IsCarried, true_and]
    exact ⟨⟨_, rfl, by decide, rfl⟩, ⟨_, rfl, by decide, rfl⟩, by simp⟩
  obtain ⟨halways, hdelivered, -⟩ := received_isPrefix_sent plainProtocol twoMessages hcarried .parent
  exact ⟨halways, (hdelivered ⟨rfl, rfl, rfl⟩).1 rfl⟩

end IpcStream

end LuxonServer
