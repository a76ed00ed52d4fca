import LuxonServer.Ipc.Stream

/-! The end of a connection: what becomes of the messages that have arrived together with the end of
the stream. -/

namespace LuxonServer

variable {Msg : Type}

namespace IpcStream

variable {protocol : IpcProtocol Msg} {s : IpcStream Msg} {side : IpcSide}

/-- The first messages of a side, as far as their frames have come to the other end: up to some that
are whole in its buffer with what is on the wire. -/
def Reached (protocol : IpcProtocol Msg) (side : IpcSide) (s : IpcStream Msg) (msgs : List Msg) :
    Prop :=
  ∃ pending payloads, msgs = s.received side.other ++ pending ∧ msgs <+: s.sent side ∧
    List.Forall₂ protocol.Carries pending payloads ∧
    payloads.flatMap (Framing.frame 4) <+: (s.ends side.other).recvBuffer ++ s.wire side

/-- A call of `receive_message` at the other end meets the end of the stream, behind all bytes of
the side. -/
structure MeetsEnd (side : IpcSide) (results : List RecvResult) (s : IpcStream Msg) : Prop where
  isOpen : (s.ends side.other).isOpen = true
  drained : ∃ buffer, IPC.drain results (s.ends side.other).recvBuffer (s.wire side) =
    (buffer, [], some "Unrecoverable communication error in IPC: Connection reset")

/-- The call throws, closes the socket, and returns no message. -/
theorem MeetsEnd.receive (protocol : IpcProtocol Msg) {results : List RecvResult}
    (h : s.MeetsEnd side results) :
    s.receives protocol side.other results =
        .error "Unrecoverable communication error in IPC: Connection reset" ∧
      ((s.receive protocol side.other results).ends side.other).isOpen = false ∧
      (s.receive protocol side.other results).received side.other = s.received side.other := by
  obtain ⟨buffer, hdrained⟩ := h.drained
  have hcall : (s.ends side.other).receiveMessage protocol results (s.wire side) =
      (.error "Unrecoverable communication error in IPC: Connection reset",
        { s.ends side.other with isOpen := false, recvBuffer := buffer }, []) := by
    rw [IPC.receiveMessage, if_pos h.isOpen, hdrained]
  simp only [receives, IpcStream.receive, IpcSide.other_other, hcall, Function.update_self,
    Except.toOption, Option.join_none, Option.toList_none, List.append_nil, true_and]

/-- An end without its socket returns no more messages. -/
theorem step_of_closed (protocol : IpcProtocol Msg) (hclosed : (s.ends side).isOpen = false)
    (call : IpcCall Msg) :
    ((s.step protocol call).ends side).isOpen = false ∧
      (s.step protocol call).received side = s.received side := by
  cases call with
  | send sender msg results =>
    refine ⟨?_, rfl⟩
    simp only [step, IpcStream.send]
    rcases sender.eq_or_eq_other side with rfl | rfl
    · obtain ⟨_, heq⟩ := IPC.sendMessage_of_closed protocol hclosed msg results
      rw [Function.update_self, heq]
      exact hclosed
    · rw [Function.update_of_ne sender.other_ne]
      exact hclosed
  | receive receiver results =>
    simp only [step, IpcStream.receive]
    rcases receiver.eq_or_eq_other side with rfl | rfl
    · have hnothing : (s.ends side).receiveMessage protocol results (s.wire side.other) =
          (.ok none, s.ends side, s.wire side.other) := if_neg (by simp [hclosed])
      rw [hnothing]
      simp [Except.toOption, hclosed]
    · rw [Function.update_of_ne receiver.other_ne, Function.update_of_ne receiver.other_ne]
      exact ⟨hclosed, rfl⟩

theorem run_of_closed (hclosed : (s.ends side).isOpen = false) (calls : List (IpcCall Msg)) :
    (Transition.run (step protocol) s calls).received side = s.received side := by
  induction calls generalizing s with
  | nil => rfl
  | cons call calls ih =>
    obtain ⟨hstill, hsame⟩ := step_of_closed protocol hclosed call
    rw [Transition.run_cons, ih hstill, hsame]

/-- The messages under way that have reached the other end are those whose frames it can take out of
its buffer; there is none if it finds no frame there. -/
theorem InFlight.reached_iff {rest : List Msg} {payloads : List (List UInt8)} {tail : List UInt8}
    (h : s.InFlight protocol side rest payloads tail) :
    (∀ msgs, s.Reached protocol side msgs → msgs <+: s.received side.other) ↔
      Framing.next 4 ((s.ends side.other).recvBuffer ++ s.wire side) = none := by
  have hfits := IpcProtocol.length_lt_of_carries h.carried
  constructor
  · intro hall
    have hstream := h.stream
    rw [← List.append_assoc] at hstream
    rcases Framing.next_of_stream (by decide) hfits hstream with
      ⟨hnone, -⟩ | ⟨payload, others, buffer, rfl, hnext, hrest⟩
    · exact hnone
    · obtain ⟨msg, others', hmsg, hothers, rfl⟩ := List.forall₂_cons_right_iff.mp h.carried
      have hreached : s.Reached protocol side (s.received side.other ++ [msg]) := by
        refine ⟨[msg], [payload], rfl, ?_, .cons hmsg .nil, ?_⟩
        · rw [h.sent]
          exact ⟨others', by simp⟩
        · rw [List.flatMap_cons, ← hrest, ← List.append_assoc] at hstream
          rw [List.flatMap_singleton, List.append_cancel_right hstream]
          exact List.prefix_append _ _
      have hlength := (hall _ hreached).length_le
      simp at hlength
  · rintro hnone msgs ⟨pending, reached, rfl, -, hcarried, hprefix⟩
    cases hcarried with
    | nil => simp
    | cons hmsg hothers =>
      obtain ⟨more, hmore⟩ := hprefix
      rw [List.flatMap_cons, List.append_assoc] at hmore
      rw [← hmore, Framing.next_frame_append hmsg.length_lt] at hnone
      cases hnone

/-- In every run of sends and receives, up to a call that meets the end of the stream of a side, and
on from there: all messages of the side whose frames have come to the other end before the end of
the stream are returned there exactly if that call finds no whole frame, in the buffer with what has
arrived behind it. -/
theorem received_at_close_iff (protocol : IpcProtocol Msg) (calls later : List (IpcCall Msg))
    (hcarried : ∀ call ∈ calls, call.IsCarried protocol) {side : IpcSide}
    {results : List RecvResult} :
    let s := Transition.run (step protocol) {} calls
    s.MeetsEnd side results →
      ((∀ msgs, s.Reached protocol side msgs →
          msgs <+: (Transition.run (step protocol) (s.receive protocol side.other results)
            later).received side.other) ↔
        Framing.next 4 ((s.ends side.other).recvBuffer ++ s.wire side) = none) := by
  intro s hend
  have hsteps : Transition.EachStep (step protocol) (fun _ call => call.IsCarried protocol) {}
      calls := Transition.eachStep_of_forall fun call hcall _ => hcarried call hcall
  obtain ⟨rest, payloads, tail, hflight⟩ :=
    ((sound_keeps protocol).always (sound_start protocol) hsteps).last side
  obtain ⟨-, hclosed, hreceived⟩ := hend.receive protocol
  rw [run_of_closed hclosed, hreceived]
  exact hflight.reached_iff

/-- The parent's message is returned before the child meets the end of the stream. -/
theorem received_at_close_apart :
    let s := Transition.run (step plainProtocol) {}
      [.send .parent [7] [.sent 100], .receive .child [.read 4096]]
    ∀ msgs, s.Reached plainProtocol .parent msgs →
      msgs <+: (s.receive plainProtocol .child [.closed]).received .child := by
  have hcarried : ∀ call ∈ [IpcCall.send .parent [7] [.sent 100], .receive .child [.read 4096]],
      call.IsCarried plainProtocol := by
    simp only [List.forall_mem_cons, IpcCall.IsCarried, true_and]
    exact ⟨⟨_, rfl, by decide, rfl⟩, by simp⟩
  exact (@received_at_close_iff _ plainProtocol _ [] hcarried .parent [.closed] ⟨rfl, _, rfl⟩).mpr
    (by decide)

/-- A message that arrives together with the end of the stream is lost. -/
theorem not_received_at_close_together :
    let s := Transition.run (step plainProtocol) {} [.send .parent [7] [.sent 100]]
    s.MeetsEnd .parent [.read 4096, .closed] ∧ s.Reached plainProtocol .parent [[7]] ∧
      (Transition.run (step plainProtocol)
        (s.receive plainProtocol .child [.read 4096, .closed])
        [.receive .child []]).received .child = [] := by
  refine ⟨⟨rfl, _, rfl⟩, ⟨[[7]], [[7]], rfl, List.prefix_refl _, ?_, ?_⟩, rfl⟩
  · exact .cons ⟨rfl, by decide, rfl⟩ .nil
  · decide

end IpcStream

end LuxonServer
