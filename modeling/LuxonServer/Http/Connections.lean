import Mathlib.Data.List.Nodup
import LuxonServer.Http.Service

/-! What the clients of the HTTP server get, and the descriptors that it has open. -/

namespace LuxonServer

open Transition

namespace Http

theorem hasHeader_of_isPrefix {buffer buffer' : Bytes} (hinitial : buffer <+: buffer')
    (hheader : hasHeader buffer = true) : hasHeader buffer' = true :=
  decide_eq_true ((of_decide_eq_true hheader).trans hinitial.isInfix)

/-- What a client has been sent, where `Answers request answer` says how a request is answered.
A client that keeps to the size of a request gets one answer, to what had arrived when the blank
line was complete, and the end of the stream after it. -/
structure Served (tooLarge : Bytes) (Answers : Bytes → Bytes → Prop) (c : HttpClient) : Prop where
  buffer : c.requestBuffer.length ≤ maxPayloadSize
  arrived : c.requestBuffer.length ≤ c.received.length
  written : c.sent ++ c.writeBuffer = c.queued.flatten
  answers : ∃ n, c.queued = (c.handled.map (·.2.2)).toList ++ List.replicate n tooLarge ∧
    (c.received.length ≤ maxPayloadSize → n = 0)
  request : ∀ before last answer, c.handled = some (before, last, answer) →
    before ++ last <+: c.received ∧ hasHeader before = false ∧
      hasHeader (before ++ last) = true ∧ Answers (before ++ last) answer
  waiting : c.closeAfterWrite = false → c.requestBuffer = c.received ∧
    hasHeader c.received = false ∧ c.handled = none ∧ c.queued = []
  closing : c.closeAfterWrite = true → c.queued ≠ []
  ended : c.shutdownSent = true → c.closeAfterWrite = true ∧
    (c.received.length ≤ maxPayloadSize → c.writeBuffer = [])

namespace HttpClient

variable {tooLarge : Bytes} {Answers : Bytes → Bytes → Prop} {p : Pass} {c : HttpClient}

theorem new_served (fd now : Nat) (registered : Bool) :
    Served tooLarge Answers { fd, lastActivity := now, registered } where
  buffer := Nat.zero_le _
  arrived := Nat.zero_le _
  written := rfl
  answers := ⟨0, rfl, fun _ => rfl⟩
  request := fun _ _ _ hnone => nomatch hnone
  waiting := fun _ => ⟨rfl, show hasHeader [] = false by decide, rfl, rfl⟩
  closing := fun hfalse => nomatch hfalse
  ended := fun hfalse => nomatch hfalse

/-- More bytes arrive and stay unread: the client has said too much. -/
theorem overflow_served (hc : Served tooLarge Answers c) (now : Nat) {bytes : Bytes}
    (hlarge : maxPayloadSize < c.requestBuffer.length + bytes.length) :
    Served tooLarge Answers
      (queueData tooLarge { c with lastActivity := now, received := c.received ++ bytes }) := by
  obtain ⟨n, hqueued, -⟩ := hc.answers
  have hreceived : ¬(c.received ++ bytes).length ≤ maxPayloadSize := by
    have harrived := hc.arrived
    rw [List.length_append]
    omega
  refine { hc with
    arrived := ?_
    written := ?_
    answers := ⟨n + 1, ?_, fun hsmall => absurd hsmall hreceived⟩
    request := ?_
    waiting := fun hwaiting => nomatch hwaiting
    closing := fun _ => List.append_ne_nil_of_right_ne_nil _ (List.cons_ne_nil _ _)
    ended := fun _ => ⟨rfl, fun hsmall => absurd hsmall hreceived⟩ }
  · exact hc.arrived.trans (List.prefix_append _ _).length_le
  · show c.sent ++ (c.writeBuffer ++ tooLarge) = (c.queued ++ [tooLarge]).flatten
    rw [← List.append_assoc, hc.written, List.flatten_append, List.flatten_singleton]
  · show c.queued ++ [tooLarge] = _
    rw [hqueued, List.append_assoc, ← List.replicate_succ']
    rfl
  · intro before last answer hhandled
    obtain ⟨hinitial, hheader⟩ := hc.request before last answer hhandled
    exact ⟨hinitial.trans (List.prefix_append _ _), hheader⟩

/-- The bytes that complete the blank line. -/
theorem handled_served (hc : Served tooLarge Answers c) (hwaiting : c.closeAfterWrite = false)
    (now : Nat) {bytes answer : Bytes}
    (hfits : c.requestBuffer.length + bytes.length ≤ maxPayloadSize)
    (hheader : hasHeader (c.requestBuffer ++ bytes) = true)
    (hanswer : Answers (c.requestBuffer ++ bytes) answer) :
    Served tooLarge Answers (queueData answer
      { c with
        lastActivity := now
        received := c.received ++ bytes
        requestBuffer := c.requestBuffer ++ bytes
        handled := some (c.requestBuffer, bytes, answer) }) := by
  obtain ⟨hbuffer, hno, hnone, hqueued⟩ := hc.waiting hwaiting
  refine
    { buffer := ?_
      arrived := ?_
      written := ?_
      answers := ⟨0, ?_, fun _ => rfl⟩
      request := ?_
      waiting := fun hwaiting => nomatch hwaiting
      closing := fun _ => List.append_ne_nil_of_right_ne_nil _ (List.cons_ne_nil _ _)
      ended := ?_ }
  · show (c.requestBuffer ++ bytes).length ≤ maxPayloadSize
    rw [List.length_append]
    exact hfits
  · show (c.requestBuffer ++ bytes).length ≤ (c.received ++ bytes).length
    rw [hbuffer]
  · show c.sent ++ (c.writeBuffer ++ answer) = (c.queued ++ [answer]).flatten
    rw [← List.append_assoc, hc.written, List.flatten_append, List.flatten_singleton]
  · show c.queued ++ [answer] = [answer] ++ []
    rw [hqueued]
    rfl
  · intro before last answer' hhandled
    cases hhandled
    refine ⟨?_, ?_, hheader, hanswer⟩
    · show c.requestBuffer ++ bytes <+: c.received ++ bytes
      rw [hbuffer]
    · rw [hbuffer]
      exact hno
  · intro hended
    rw [(hc.ended hended).1] at hwaiting
    nomatch hwaiting

/-- Bytes that are kept and not looked at, or that do not complete the blank line. -/
theorem kept_served (hc : Served tooLarge Answers c) (now : Nat) {bytes : Bytes}
    (hfits : c.requestBuffer.length + bytes.length ≤ maxPayloadSize)
    (hno : c.closeAfterWrite = false → hasHeader (c.requestBuffer ++ bytes) = false) :
    Served tooLarge Answers
      { c with
        lastActivity := now
        received := c.received ++ bytes
        requestBuffer := c.requestBuffer ++ bytes } := by
  have hsmall : (c.received ++ bytes).length ≤ maxPayloadSize →
      c.received.length ≤ maxPayloadSize := fun hsmall =>
    (List.prefix_append _ _).length_le.trans hsmall
  obtain ⟨n, hqueued, hcount⟩ := hc.answers
  refine { hc with
    buffer := ?_
    arrived := ?_
    answers := ⟨n, hqueued, fun hle => hcount (hsmall hle)⟩
    request := ?_
    waiting := ?_
    ended := fun hended => ⟨(hc.ended hended).1, fun hle => (hc.ended hended).2 (hsmall hle)⟩ }
  · show (c.requestBuffer ++ bytes).length ≤ maxPayloadSize
    rw [List.length_append]
    exact hfits
  · show (c.requestBuffer ++ bytes).length ≤ (c.received ++ bytes).length
    rw [List.length_append, List.length_append]
    exact Nat.add_le_add_right hc.arrived _
  · intro before last answer hhandled
    obtain ⟨hinitial, hheader⟩ := hc.request before last answer hhandled
    exact ⟨hinitial.trans (List.prefix_append _ _), hheader⟩
  · intro hwaiting
    obtain ⟨hbuffer, -, hnone⟩ := hc.waiting hwaiting
    refine ⟨?_, ?_, hnone⟩
    · show c.requestBuffer ++ bytes = c.received ++ bytes
      rw [hbuffer]
    · show hasHeader (c.received ++ bytes) = false
      rw [← hbuffer]
      exact hno hwaiting

theorem handleBytes_served (hanswers : ∀ buffer, Answers buffer (p.answer buffer))
    (hc : Served tooLarge Answers c) (bytes : Bytes) :
    Served tooLarge Answers (c.handleBytes tooLarge p bytes).1 := by
  unfold handleBytes
  dsimp only
  split
  · next hlarge => exact overflow_served hc p.now hlarge
  · next hfits =>
    have hfits := Nat.not_lt.mp hfits
    split
    · next hanswer =>
      obtain ⟨hwaiting, hheader⟩ := Bool.and_eq_true_iff.mp hanswer
      exact handled_served hc (by simpa using hwaiting) p.now hfits hheader (hanswers _)
    · next hno =>
      refine kept_served hc p.now hfits fun hwaiting => ?_
      simpa [hwaiting] using hno

theorem marked_served (hc : Served tooLarge Answers c) :
    Served tooLarge Answers { c with markForDelete := true } :=
  { hc with }

theorem receive_served (hanswers : ∀ buffer, Answers buffer (p.answer buffer))
    (hc : Served tooLarge Answers c) :
    Served tooLarge Answers (c.receive tooLarge p).1 := by
  unfold receive
  split
  · split
    · exact marked_served hc
    · exact handleBytes_served hanswers hc _
    · exact hc
    · exact marked_served hc
  · exact hc

theorem flush_served (hc : Served tooLarge Answers c) : Served tooLarge Answers (c.flush p) := by
  unfold flush
  split
  · exact hc
  · split
    · exact hc
    · next n _ =>
      refine { hc with written := ?_, ended := ?_ }
      · show c.sent ++ c.writeBuffer.take (n + 1) ++ c.writeBuffer.drop (n + 1) = c.queued.flatten
        rw [List.append_assoc, List.take_append_drop, hc.written]
      · intro hended
        obtain ⟨hclosing, hempty⟩ := hc.ended hended
        refine ⟨hclosing, fun hsmall => ?_⟩
        show c.writeBuffer.drop (n + 1) = []
        rw [hempty hsmall, List.drop_nil]
    · exact hc
    · exact marked_served hc

theorem shutdown_served (hc : Served tooLarge Answers c) : Served tooLarge Answers c.shutdown := by
  unfold shutdown
  split
  · next hend =>
    obtain ⟨hclosing, hempty⟩ := Bool.and_eq_true_iff.mp hend
    exact { hc with ended := fun _ => ⟨hclosing, fun _ => of_decide_eq_true hempty⟩ }
  · exact hc

theorem service_served (hanswers : ∀ buffer, Answers buffer (p.answer buffer))
    (hc : Served tooLarge Answers c) : Served tooLarge Answers (c.service tooLarge p) := by
  have hreceive := receive_served hanswers hc
  unfold service
  split
  · exact hc
  split
  · exact marked_served hc
  · split
    · next hover =>
      rw [hover] at hreceive
      exact hreceive
    · next hmore =>
      rw [hmore] at hreceive
      exact shutdown_served (flush_served hreceive)

/-- What the selector and the system know of a client. -/
def descriptor (c : HttpClient) : Nat × Bool := (c.fd, c.registered)

theorem handleBytes_descriptor (bytes : Bytes) :
    (c.handleBytes tooLarge p bytes).1.descriptor = c.descriptor := by
  unfold handleBytes queueData
  dsimp only
  split
  · rfl
  · split <;> rfl

theorem receive_descriptor : (c.receive tooLarge p).1.descriptor = c.descriptor := by
  unfold receive
  split
  · split
    · rfl
    · exact handleBytes_descriptor _
    · rfl
    · rfl
  · rfl

theorem flush_descriptor : (c.flush p).descriptor = c.descriptor := by
  unfold flush
  split
  · rfl
  · split <;> rfl

theorem shutdown_descriptor : c.shutdown.descriptor = c.descriptor := by
  unfold shutdown
  split <;> rfl

theorem service_descriptor : (c.service tooLarge p).descriptor = c.descriptor := by
  have hreceive : (c.receive tooLarge p).1.descriptor = c.descriptor := receive_descriptor
  unfold service
  split
  · rfl
  split
  · rfl
  · split
    · next hover =>
      rw [hover] at hreceive
      exact hreceive
    · next hmore =>
      rw [hmore] at hreceive
      exact shutdown_descriptor.trans (flush_descriptor.trans hreceive)

/-- A client is heard of at the time of the pass or as long ago as before. -/
def Heard (p : Pass) (lastActivity : Nat) (c : HttpClient) : Prop :=
  c.lastActivity = p.now ∨ c.lastActivity = lastActivity

theorem handleBytes_heard (bytes : Bytes) :
    (c.handleBytes tooLarge p bytes).1.lastActivity = p.now := by
  unfold handleBytes queueData
  dsimp only
  split
  · rfl
  · split <;> rfl

theorem receive_heard : Heard p c.lastActivity (c.receive tooLarge p).1 := by
  unfold receive
  split
  · split
    · exact .inr rfl
    · exact .inl (handleBytes_heard _)
    · exact .inr rfl
    · exact .inr rfl
  · exact .inr rfl

theorem flush_heard {lastActivity : Nat} (hc : Heard p lastActivity c) :
    Heard p lastActivity (c.flush p) := by
  unfold flush
  split
  · exact hc
  · split
    · exact hc
    · exact .inl rfl
    · exact hc
    · exact hc

theorem shutdown_heard {lastActivity : Nat} (hc : Heard p lastActivity c) :
    Heard p lastActivity c.shutdown := by
  unfold shutdown
  split
  · exact hc
  · exact hc

theorem service_active (hc : (c.service tooLarge p).markForDelete = false) :
    p.now - (c.service tooLarge p).lastActivity ≤ idleTimeout := by
  have hreceive : Heard p c.lastActivity (c.receive tooLarge p).1 := receive_heard
  unfold service at hc ⊢
  split at hc
  · next hmarked => exact absurd (hmarked.symm.trans hc) (by decide)
  · next hlive =>
    rw [if_neg hlive]
    split at hc
    · nomatch hc
    · next hidle =>
      have hheard : ∀ {c' : HttpClient}, Heard p c.lastActivity c' →
          p.now - c'.lastActivity ≤ idleTimeout := by
        intro c' hheard
        rcases hheard with hnow | hsame
        · rw [hnow, Nat.sub_self]
          exact Nat.zero_le _
        · rw [hsame]
          exact Nat.not_lt.mp hidle
      rw [if_neg hidle]
      split
      · next hover =>
        rw [hover] at hreceive
        exact hheard hreceive
      · next hmore =>
        rw [hmore] at hreceive
        exact hheard (shutdown_heard (flush_heard hreceive))

end HttpClient

namespace HttpServer

variable {tooLarge : Bytes} {Answers : Bytes → Bytes → Prop} {s : HttpServer} {p : Pass}

/-- The descriptors that the selector has taken. -/
def watched (clients : List HttpClient) : List Nat :=
  (clients.filter (·.registered)).map (·.fd)

/-- The system knows of the listening socket and the clients, each once, and the selector of those
that it has taken. -/
structure Tracked (serverFd : Nat) (registers : Bool) (s : HttpServer) : Prop where
  server : s.serverFd = serverFd
  opened : s.opened = serverFd :: s.clients.map (·.fd)
  callbacks : s.callbacks = addReadFd registers serverFd [] ++ watched s.clients
  nodup : s.opened.Nodup
  count : s.clients.length ≤ maxClients
  faults : s.faults = []

theorem listening_tracked (fd : Nat) (registers : Bool) :
    Tracked fd registers (listening fd registers) where
  server := rfl
  opened := rfl
  callbacks := (List.append_nil _).symm
  nodup := List.nodup_singleton fd
  count := Nat.zero_le _
  faults := rfl

theorem acceptClient_tracked {fd : Nat} {registers : Bool} (hs : Tracked fd registers s)
    (hallocates : Allocates s p) : Tracked fd registers (s.acceptClient p) := by
  unfold acceptClient
  split
  · next hroom =>
    split
    · exact hs
    · next new hnew =>
      refine { hs with
        opened := ?_
        callbacks := ?_
        nodup := ?_
        count := ?_ }
      · show s.opened ++ [new] = _
        rw [hs.opened, List.map_append]
        rfl
      · show addReadFd p.registers new s.callbacks = _
        rw [hs.callbacks]
        cases hregisters : p.registers <;> simp [addReadFd, watched]
      · show (s.opened ++ [new]).Nodup
        rw [← List.concat_eq_append]
        exact hs.nodup.concat (hallocates new hnew)
      · show (s.clients ++ [_]).length ≤ maxClients
        rw [List.length_append]
        exact hroom.1
  · exact hs

theorem foldl_close_kept (gone : List HttpClient) : ∀ s : HttpServer,
    (gone.foldl close s).serverFd = s.serverFd ∧ (gone.foldl close s).clients = s.clients ∧
      (gone.foldl close s).gone = s.gone ++ gone := by
  induction gone with
  | nil => exact fun s => ⟨rfl, rfl, (List.append_nil _).symm⟩
  | cons c gone ih =>
    intro s
    obtain ⟨hserver, hclients, hgone⟩ := ih (s.close c)
    exact ⟨hserver, hclients, hgone.trans (List.append_assoc _ _ _)⟩

/-- The clients that go are closed; the others keep their descriptors. -/
theorem foldl_close_descriptors (clients : List HttpClient) : ∀ {s : HttpServer}
    (before taken : List Nat), s.opened = before ++ clients.map (·.fd) →
    s.callbacks = taken ++ watched clients → taken ⊆ before → s.opened.Nodup → s.faults = [] →
    ((clients.filter (·.markForDelete)).foldl close s).opened =
        before ++ (clients.filter fun c => !c.markForDelete).map (·.fd) ∧
      ((clients.filter (·.markForDelete)).foldl close s).callbacks =
        taken ++ watched (clients.filter fun c => !c.markForDelete) ∧
      ((clients.filter (·.markForDelete)).foldl close s).opened.Nodup ∧
      ((clients.filter (·.markForDelete)).foldl close s).faults = [] := by
  induction clients with
  | nil =>
    exact fun _ _ hopened hcallbacks _ hnodup hfaults => ⟨hopened, hcallbacks, hnodup, hfaults⟩
  | cons c clients ih =>
    intro s before taken hopened hcallbacks htaken hnodup hfaults
    by_cases hmark : c.markForDelete
    · have hmem : c.fd ∈ s.opened := by
        rw [hopened]
        exact List.mem_append_right _ List.mem_cons_self
      have hparts := List.nodup_append.mp (hopened ▸ hnodup)
      have hnot : c.fd ∉ before := fun hbefore =>
        hparts.2.2 _ hbefore _ List.mem_cons_self rfl
      have hopen : s.opened.erase c.fd = before ++ clients.map (·.fd) := by
        rw [hopened, List.erase_append_right _ hnot, List.map_cons, List.erase_cons_head]
      have hwatch : s.callbacks.erase c.fd = taken ++ watched clients := by
        rw [hcallbacks, List.erase_append_right _ (mt (htaken ·) hnot)]
        by_cases hregistered : c.registered
        · rw [watched, List.filter_cons_of_pos hregistered, List.map_cons, List.erase_cons_head]
          rfl
        · -- Nobody else has the descriptor, so there is no callback to erase.
          have hother : c.fd ∉ watched clients := by
            intro hwatched
            obtain ⟨other, hother, hfd⟩ := List.mem_map.mp hwatched
            refine (List.nodup_cons.mp hparts.2.1).1 (List.mem_map.mpr ⟨other, ?_, hfd⟩)
            exact (List.mem_filter.mp hother).1
          rw [watched, List.filter_cons_of_neg hregistered, ← watched,
            List.erase_of_not_mem hother]
      rw [List.filter_cons_of_pos hmark, List.foldl_cons,
        List.filter_cons_of_neg (by simpa using hmark)]
      apply ih before taken
      · exact hopen
      · exact hwatch
      · exact htaken
      · exact hnodup.erase _
      · exact (if_pos hmem).trans hfaults
    · rw [List.filter_cons_of_neg hmark, List.filter_cons_of_pos (by simpa using hmark),
        List.map_cons, List.append_cons]
      have hwatched : ∀ rest, taken ++ watched (c :: rest) =
          (if c.registered then taken ++ [c.fd] else taken) ++ watched rest := by
        intro rest
        by_cases hregistered : c.registered <;> simp [watched, hregistered]
      rw [hwatched]
      apply ih (before ++ [c.fd])
      · rw [hopened, List.map_cons, List.append_cons]
      · rw [hcallbacks, hwatched]
      · split
        · exact List.append_subset.mpr ⟨List.subset_append_of_subset_left _ htaken,
            List.subset_append_right _ _⟩
        · exact List.subset_append_of_subset_left _ htaken
      · exact hnodup
      · exact hfaults

theorem erase_kept (clients : List HttpClient) : (s.erase clients).serverFd = s.serverFd ∧
    (s.erase clients).clients = clients.filter (fun c => !c.markForDelete) ∧
    (s.erase clients).gone = s.gone ++ clients.filter (·.markForDelete) :=
  foldl_close_kept (clients.filter (·.markForDelete))
    { s with clients := clients.filter fun c => !c.markForDelete }

theorem erase_tracked {fd : Nat} {registers : Bool} {clients : List HttpClient}
    (hs : Tracked fd registers s)
    (hclients : clients.map HttpClient.descriptor = s.clients.map HttpClient.descriptor) :
    Tracked fd registers (s.erase clients) := by
  obtain ⟨hserver, hkept, -⟩ := erase_kept (s := s) clients
  have hopen : s.opened = [fd] ++ clients.map (·.fd) := by
    have hfds := congrArg (List.map Prod.fst) hclients
    simp only [List.map_map, Function.comp_def, HttpClient.descriptor] at hfds
    rw [hs.opened, hfds]
    rfl
  have hwatch : s.callbacks = addReadFd registers fd [] ++ watched clients := by
    have htaken := congrArg (fun known => (known.filter Prod.snd).map Prod.fst) hclients
    simp only [List.filter_map, List.map_map, Function.comp_def, HttpClient.descriptor] at htaken
    rw [hs.callbacks, watched, watched, htaken]
  have htaken : addReadFd registers fd [] ⊆ [fd] := by
    cases registers <;> simp [addReadFd]
  obtain ⟨hopened, hcallbacks, hnodup, hfaults⟩ := foldl_close_descriptors clients [fd] _
    (s := { s with clients := clients.filter fun c => !c.markForDelete }) hopen hwatch htaken
    hs.nodup hs.faults
  refine
    { server := hserver.trans hs.server
      opened := hopened.trans ?_
      callbacks := hcallbacks.trans ?_
      nodup := hnodup
      count := ?_
      faults := hfaults }
  · rw [hkept]
    rfl
  · rw [hkept]
  · rw [hkept]
    calc (clients.filter fun c => !c.markForDelete).length
        ≤ clients.length := List.length_filter_le _ _
      _ = s.clients.length := by
        rw [← List.length_map HttpClient.descriptor, hclients, List.length_map]
      _ ≤ maxClients := hs.count

theorem serviceNow_tracked {fd : Nat} {registers : Bool} (hs : Tracked fd registers s)
    (hallocates : Allocates s p) : Tracked fd registers (s.serviceNow tooLarge p) := by
  apply erase_tracked (acceptClient_tracked hs hallocates)
  rw [List.map_map]
  exact List.map_congr_left fun c _ => HttpClient.service_descriptor

/-- Every client of the server, those that it has dropped included, was served. -/
def AllServed (tooLarge : Bytes) (Answers : Bytes → Bytes → Prop) (s : HttpServer) : Prop :=
  ∀ c, c ∈ s.clients ∨ c ∈ s.gone → Served tooLarge Answers c

theorem acceptClient_served (hs : AllServed tooLarge Answers s) :
    AllServed tooLarge Answers (s.acceptClient p) := by
  unfold acceptClient
  split
  · split
    · exact hs
    · intro c hc
      rcases hc with hc | hc
      · rcases List.mem_append.mp hc with hold | hnew
        · exact hs c (.inl hold)
        · rw [List.mem_singleton.mp hnew]
          exact HttpClient.new_served _ _ _
      · exact hs c (.inr hc)
  · exact hs

theorem serviceNow_served (hanswers : ∀ buffer, Answers buffer (p.answer buffer))
    (hs : AllServed tooLarge Answers s) : AllServed tooLarge Answers (s.serviceNow tooLarge p) := by
  have haccept := acceptClient_served (p := p) hs
  obtain ⟨-, hclients, hgone⟩ := erase_kept (s := s.acceptClient p)
    ((s.acceptClient p).clients.map (HttpClient.service tooLarge p))
  have hserved : ∀ c ∈ (s.acceptClient p).clients.map (HttpClient.service tooLarge p),
      Served tooLarge Answers c := by
    intro c hc
    obtain ⟨old, hold, rfl⟩ := List.mem_map.mp hc
    exact HttpClient.service_served hanswers (haccept old (.inl hold))
  intro c hc
  unfold serviceNow at hc
  rw [hclients, hgone] at hc
  rcases hc with hlive | hgone
  · exact hserved c (List.mem_filter.mp hlive).1
  · rcases List.mem_append.mp hgone with hold | hnew
    · exact haccept c (.inr hold)
    · exact hserved c (List.mem_filter.mp hnew).1

theorem serviceNow_active {c : HttpClient} (hc : c ∈ (s.serviceNow tooLarge p).clients) :
    p.now - c.lastActivity ≤ idleTimeout := by
  unfold serviceNow at hc
  rw [(erase_kept _).2.1] at hc
  obtain ⟨hlive, hmark⟩ := List.mem_filter.mp hc
  obtain ⟨old, -, rfl⟩ := List.mem_map.mp hlive
  exact HttpClient.service_active (by simpa using hmark)

theorem run_served (tooLarge : Bytes) (fd : Nat) (passes : List Pass) :
    AllServed tooLarge (fun request answer => ∃ p ∈ passes, answer = p.answer request)
      (run (serviceNow tooLarge) (listening fd) passes) := by
  refine Keeps.run (C := fun _ p => p ∈ passes) (fun s p hs hp => ?_) ?_ ?_
  · exact serviceNow_served (fun _ => ⟨p, hp, rfl⟩) hs
  · intro c hc
    rcases hc with hc | hc
    · nomatch hc
    · nomatch hc
  · exact eachStep_of_forall fun p hp _ => hp

/-- Whatever the passes bring, a client is sent nothing but its answer and refusals of what goes
beyond the size of a request.  One that keeps to that size is answered once, from the arrival that
completes the head of its request, and its stream ends after the whole of the answer. -/
theorem clients_answered (tooLarge : Bytes) (fd : Nat) (passes : List Pass) :
    let s := run (serviceNow tooLarge) (listening fd) passes
    ∀ c, c ∈ s.clients ∨ c ∈ s.gone →
      c.sent <+: c.queued.flatten ∧
      (∃ n, c.queued = (c.handled.map (·.2.2)).toList ++ List.replicate n tooLarge) ∧
      (∀ before last answer, c.handled = some (before, last, answer) →
        before ++ last <+: c.received ∧ hasHeader before = false ∧
          hasHeader (before ++ last) = true ∧ ∃ p ∈ passes, answer = p.answer (before ++ last)) ∧
      (c.received.length ≤ maxPayloadSize →
        c.queued = (c.handled.map (·.2.2)).toList ∧
        (c.handled.isSome ↔ hasHeader c.received = true) ∧
        (c.shutdownSent = true →
          ∃ before last answer, c.handled = some (before, last, answer) ∧ c.sent = answer)) := by
  intro s c hc
  have hserved := run_served tooLarge fd passes c hc
  obtain ⟨n, hqueued, hcount⟩ := hserved.answers
  refine ⟨⟨c.writeBuffer, hserved.written⟩, ⟨n, hqueued⟩, hserved.request, fun hsmall => ?_⟩
  have hone : c.queued = (c.handled.map (·.2.2)).toList := by
    rw [hqueued, hcount hsmall]
    exact List.append_nil _
  refine ⟨hone, ⟨fun hhandled => ?_, fun hheader => ?_⟩, fun hended => ?_⟩
  · obtain ⟨⟨before, last, answer⟩, hsome⟩ := Option.isSome_iff_exists.mp hhandled
    obtain ⟨hinitial, -, hheader, -⟩ := hserved.request before last answer hsome
    exact hasHeader_of_isPrefix hinitial hheader
  · cases hclosing : c.closeAfterWrite with
    | false =>
      rw [(hserved.waiting hclosing).2.1] at hheader
      nomatch hheader
    | true =>
      cases hhandled : c.handled with
      | none =>
        rw [hhandled] at hone
        exact absurd hone (hserved.closing hclosing)
      | some _ => rfl
  · obtain ⟨hclosing, hempty⟩ := hserved.ended hended
    have hwritten := hserved.written
    rw [hempty hsmall, List.append_nil] at hwritten
    cases hhandled : c.handled with
    | none =>
      rw [hhandled] at hone
      exact absurd hone (hserved.closing hclosing)
    | some request =>
      rw [hone, hhandled] at hwritten
      exact ⟨_, _, _, rfl, hwritten.trans (List.append_nil _)⟩

/-- Through a run of any passes, the descriptors that are open are the listening socket and the live
clients, each once, and those that the selector watches are the ones of them that it has taken; none
is closed that is not open, and no client stays that has been silent for longer than the timeout. -/
theorem descriptors_tracked (tooLarge : Bytes) (fd : Nat) (registers : Bool) (passes : List Pass)
    (hallocates : EachStep (serviceNow tooLarge) Allocates (listening fd registers) passes) :
    Always (serviceNow tooLarge)
        (fun s => s.opened = fd :: s.clients.map (·.fd) ∧ s.opened.Nodup ∧
          s.callbacks = addReadFd registers fd [] ++ watched s.clients ∧
          s.faults = [] ∧ s.clients.length ≤ maxClients)
        (listening fd registers) passes ∧
      EachStep (serviceNow tooLarge)
        (fun s p => ∀ c ∈ (s.serviceNow tooLarge p).clients,
          p.now - c.lastActivity ≤ idleTimeout)
        (listening fd registers) passes := by
  refine ⟨?_, eachStep_of_forall fun p _ s c hc => serviceNow_active hc⟩
  have hkeeps : Keeps (serviceNow tooLarge) Allocates (Tracked fd registers) :=
    fun s p hs hp => serviceNow_tracked hs hp
  apply (hkeeps.always (listening_tracked fd registers) hallocates).imp
  intro s hs
  exact ⟨hs.opened, hs.nodup, hs.callbacks, hs.faults, hs.count⟩

/-- A client comes, asks and goes, and its descriptor is given to the next one, which the selector
does not take. -/
theorem descriptors_tracked_reused :
    let pass (now : Nat) (ready : List Nat) (accept : Option Nat) (registers : Bool)
        (bytes : Bytes) : Pass :=
      { now, ready, accept, registers, recv := fun _ => .bytes bytes, send := fun _ => .count 8,
        answer := fun _ => [0x4F, 0x4B] }
    let passes := [pass 0 [3] (some 4) true [], pass 1 [4] none true headerEnd,
      pass 2 [4] none true [], pass 3 [3] (some 4) false []]
    EachStep (serviceNow []) Allocates (listening 3) passes ∧
      Always (serviceNow [])
        (fun s => s.opened = 3 :: s.clients.map (·.fd) ∧ s.opened.Nodup ∧
          s.callbacks = 3 :: watched s.clients ∧
          s.faults = [] ∧ s.clients.length ≤ maxClients)
        (listening 3) passes := by
  intro pass passes
  have hallocates : EachStep (serviceNow []) Allocates (listening 3) passes := by decide
  exact ⟨hallocates, (descriptors_tracked [] 3 true passes hallocates).1⟩

end HttpServer

end Http

end LuxonServer
