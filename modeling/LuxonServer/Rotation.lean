import Mathlib.Data.Int.CardIntervalMod
import LuxonServer.Config.Subprocess
import LuxonServer.Lib.Run

/-! The round-robin over the servers in `run_once`: a tick has a budget of time, and the next one
goes on with the server at which it ran out. -/

namespace LuxonServer

open Transition

/-- What `service_peers` leaves of the budget that it is given, for each server. -/
abbrev ServicePeers := UInt16 → UInt32 → UInt32

/-- The ports of `servers_` in the order of its iteration, `next_server_it_` as a position, and the
servers that were serviced. -/
structure ServerLoop where
  ports : List UInt16
  nextServer : Nat
  serviced : List UInt16 := []

namespace ServerLoop

/-- After `setup`, where the iterator is at the end. -/
def setup (ports : List UInt16) : ServerLoop where
  ports
  nextServer := ports.length

/-- The iterator, after the wrap around to the beginning. -/
def current (s : ServerLoop) : Nat :=
  if s.nextServer = s.ports.length then 0 else s.nextServer

/-- The loop of a tick over at most `serversToProcess` servers. -/
def serviceServers (servicePeers : ServicePeers) : Nat → UInt32 → ServerLoop → ServerLoop
  | 0, _, s => s
  | serversToProcess + 1, remaining, s =>
    if 0 < remaining then
      match s.ports[s.current]? with
      | none => s
      | some port =>
        serviceServers servicePeers serversToProcess (servicePeers port remaining)
          { s with
            nextServer := s.current + 1
            serviced := s.serviced ++ [port] }
    else s

/-- The part of `run_once` that services the peers. -/
def tick (budget : UInt32) (s : ServerLoop) (servicePeers : ServicePeers) : ServerLoop :=
  serviceServers servicePeers s.ports.length budget s

/-- The first `count` turns of the rotation. -/
def turns (ports : List UInt16) (count : Nat) : List UInt16 :=
  (List.range count).filterMap fun turn => ports[turn % ports.length]?

/-- The loop has made `count` turns and stands where the next one is. -/
structure Rotated (ports : List UInt16) (count : Nat) (s : ServerLoop) : Prop where
  servers : s.ports = ports
  position : s.current = count % ports.length
  serviced : s.serviced = turns ports count

section

variable {ports : List UInt16} {s : ServerLoop} {budget : UInt32} {count : Nat}

theorem setup_rotated (ports : List UInt16) : Rotated ports 0 (setup ports) where
  servers := rfl
  position := (if_pos rfl).trans (Nat.zero_mod _).symm
  serviced := rfl

theorem turns_succ {port : UInt16} (hport : ports[count % ports.length]? = some port) :
    turns ports (count + 1) = turns ports count ++ [port] := by
  unfold turns
  rw [List.range_succ, List.filterMap_append]
  exact congrArg _ (List.filterMap_cons_some hport)

/-- The turn that comes next. -/
theorem rotated_next (hpos : 0 < ports.length) (hs : Rotated ports count s) :
    ∃ port, s.ports[s.current]? = some port ∧
      Rotated ports (count + 1)
        { s with
          nextServer := s.current + 1
          serviced := s.serviced ++ [port] } := by
  have hlt : count % ports.length < ports.length := Nat.mod_lt _ hpos
  have hport : ports[count % ports.length]? = some (ports.get ⟨_, hlt⟩) :=
    List.getElem?_eq_getElem hlt
  refine ⟨ports.get ⟨_, hlt⟩, ?_, hs.servers, ?_, ?_⟩
  · rw [hs.servers, hs.position, hport]
  · show (if s.current + 1 = s.ports.length then 0 else s.current + 1) = _
    rw [hs.servers, hs.position, ← Nat.mod_add_mod]
    split
    · next hend => rw [hend, Nat.mod_self]
    · next hnext => exact (Nat.mod_eq_of_lt (by omega)).symm
  · show s.serviced ++ [_] = turns ports (count + 1)
    rw [turns_succ hport, hs.serviced]

/-- A tick goes on with the rotation, for one turn at least and for one of each server at most. -/
theorem serviceServers_rotated (servicePeers : ServicePeers) (hpos : 0 < ports.length)
    (serversToProcess : Nat) : ∀ {s : ServerLoop} {count : Nat} (remaining : UInt32),
    Rotated ports count s →
    ∃ made, Rotated ports (count + made)
        (serviceServers servicePeers serversToProcess remaining s) ∧
      made ≤ serversToProcess ∧ (0 < serversToProcess → 0 < remaining → 0 < made) := by
  induction serversToProcess with
  | zero => exact fun _ hs => ⟨0, hs, Nat.le_refl 0, fun hfalse => absurd hfalse (Nat.lt_irrefl 0)⟩
  | succ serversToProcess ih =>
    intro s count remaining hs
    unfold serviceServers
    split
    · next hbudget =>
      obtain ⟨port, hport, hnext⟩ := rotated_next hpos hs
      obtain ⟨made, hmade, hle, -⟩ := ih (servicePeers port remaining) hnext
      rw [hport]
      refine ⟨made + 1, ?_, Nat.succ_le_succ hle, fun _ _ => Nat.succ_pos made⟩
      rw [Nat.add_comm made 1, ← Nat.add_assoc]
      exact hmade
    · next hexhausted => exact ⟨0, hs, Nat.zero_le _, fun _ hbudget => absurd hbudget hexhausted⟩

theorem run_rotated (hpos : 0 < ports.length) (hbudget : 0 < budget) (calls : List ServicePeers) :
    ∀ {s : ServerLoop} {count : Nat}, Rotated ports count s →
    ∃ made, Rotated ports (count + made) (run (tick budget) s calls) ∧
      calls.length ≤ made ∧ made ≤ calls.length * ports.length := by
  induction calls with
  | nil => exact fun hs => ⟨0, hs, Nat.le_refl 0, Nat.zero_le _⟩
  | cons servicePeers calls ih =>
    intro s count hs
    obtain ⟨first, hfirst, hmost, hleast⟩ :=
      serviceServers_rotated servicePeers hpos s.ports.length budget hs
    rw [hs.servers] at hmost hleast
    obtain ⟨rest, hrest, hrestLeast, hrestMost⟩ := ih (s := tick budget s servicePeers) hfirst
    refine ⟨first + rest, ?_, ?_, ?_⟩
    · rw [← Nat.add_assoc]
      exact hrest
    · have hone := hleast hpos hbudget
      rw [List.length_cons]
      omega
    · rw [List.length_cons, Nat.succ_mul]
      omega

/-- How often a server has had its turn. -/
theorem count_turns (hnodup : ports.Nodup) {position : Nat} (hposition : position < ports.length)
    (count : Nat) :
    (turns ports count).count ports[position] =
      count / ports.length + if position < count % ports.length then 1 else 0 := by
  have hcount : (turns ports count).count ports[position] =
      Nat.count (· ≡ position [MOD ports.length]) count := by
    induction count with
    | zero => rfl
    | succ count ih =>
      have hlt : count % ports.length < ports.length := Nat.mod_lt _ (Nat.zero_lt_of_lt hposition)
      rw [turns_succ (List.getElem?_eq_getElem hlt), List.count_append, List.count_singleton, ih,
        Nat.count_succ]
      simp only [beq_iff_eq, hnodup.getElem_inj_iff, Nat.ModEq, Nat.mod_eq_of_lt hposition]
  rw [hcount, Nat.count_modEq_card _ (Nat.zero_lt_of_lt hposition), Nat.mod_eq_of_lt hposition]

theorem count_turns_mono {count' : Nat} (hle : count ≤ count') (port : UInt16) :
    (turns ports count).count port ≤ (turns ports count').count port :=
  ((List.range_sublist.mpr hle).filterMap _).count_le port

/-- A full round is one turn for each server. -/
theorem count_turns_round (hnodup : ports.Nodup) {port : UInt16} (hport : port ∈ ports)
    (count : Nat) :
    (turns ports (count + ports.length)).count port = (turns ports count).count port + 1 := by
  obtain ⟨position, hposition, rfl⟩ := List.getElem_of_mem hport
  rw [count_turns hnodup hposition, count_turns hnodup hposition, Nat.add_mod_right,
    Nat.add_div_right _ (Nat.zero_lt_of_lt hposition)]
  omega

theorem length_turns (hpos : 0 < ports.length) (count : Nat) :
    (turns ports count).length = count := by
  induction count with
  | zero => rfl
  | succ count ih =>
    rw [turns_succ (List.getElem?_eq_getElem (Nat.mod_lt _ hpos)), List.length_append, ih]
    rfl

theorem mem_of_mem_turns {port : UInt16} (hport : port ∈ turns ports count) : port ∈ ports := by
  obtain ⟨turn, -, hturn⟩ := List.mem_filterMap.mp hport
  exact List.mem_of_getElem? hturn

/-- A tick services some servers, and none of them twice. -/
theorem serviced_tick (hnodup : ports.Nodup) (hpos : 0 < ports.length) (hbudget : 0 < budget)
    (hs : Rotated ports count s) (servicePeers : ServicePeers) :
    ∃ served, (tick budget s servicePeers).serviced = s.serviced ++ served ∧ served ≠ [] ∧
      served.Nodup := by
  obtain ⟨made, hmade, hmost, hleast⟩ :=
    serviceServers_rotated servicePeers hpos s.ports.length budget hs
  rw [hs.servers] at hmost hleast
  have hone : 0 < made := hleast hpos hbudget
  obtain ⟨served, hserved⟩ :
      ∃ served, turns ports (count + made) = turns ports count ++ served := by
    unfold turns
    rw [List.range_add, List.filterMap_append]
    exact ⟨_, rfl⟩
  refine ⟨served, ?_, ?_, List.nodup_iff_count_le_one.mpr fun port => ?_⟩
  · show (serviceServers servicePeers s.ports.length budget s).serviced = s.serviced ++ served
    rw [hmade.serviced, hs.serviced, hserved]
  · rintro rfl
    have hlength := congrArg List.length hserved
    rw [List.append_nil, length_turns hpos, length_turns hpos] at hlength
    omega
  · have hcount := congrArg (List.count port) hserved
    rw [List.count_append] at hcount
    by_cases hport : port ∈ ports
    · have hround := count_turns_round hnodup hport count
      have hmono : (turns ports (count + made)).count port ≤
          (turns ports (count + ports.length)).count port :=
        count_turns_mono (Nat.add_le_add_left hmost count) port
      omega
    · have hnone : (turns ports (count + made)).count port = 0 :=
        List.count_eq_zero.mpr (mt mem_of_mem_turns hport)
      omega

/-- A budget of 0 stands for no limit. -/
theorem tickTimeBudget_pos (isWritable : String → Bool) (config : ServerManagerConfig) :
    0 < (ConfiguredManager.create isWritable config).tickTimeBudget := by
  show 0 < (if config.tickTimeBudget = 0 then ~~~config.tickTimeBudget else config.tickTimeBudget)
  split
  · next hunlimited =>
    rw [hunlimited]
    decide
  · next hlimited => exact UInt32.pos_iff_ne_zero.mpr hlimited

end

/-- Whatever the calls take of a tick's budget, the servers have their turns in a fixed rotation, at
least one and each at most once in every tick: no server is ever more than one turn ahead of
another, and as many ticks as there are servers give each of them a turn. -/
theorem servers_rotate (isWritable : String → Bool) (config : ServerManagerConfig)
    {ports : List UInt16} (hnodup : ports.Nodup) (hports : ports ≠ [])
    (calls more : List ServicePeers) (hmore : ports.length ≤ more.length) :
    let budget := (ConfiguredManager.create isWritable config).tickTimeBudget
    let before := run (tick budget) (setup ports) calls
    let after := run (tick budget) before more
    before.serviced = turns ports before.serviced.length ∧
      (∀ servicePeers, ∃ served, (tick budget before servicePeers).serviced =
        before.serviced ++ served ∧ served ≠ [] ∧ served.Nodup) ∧
      calls.length ≤ before.serviced.length ∧
      before.serviced.length ≤ calls.length * ports.length ∧
      (∀ port ∈ ports, ∀ port' ∈ ports,
        before.serviced.count port ≤ before.serviced.count port' + 1) ∧
      ∀ port ∈ ports, before.serviced.count port < after.serviced.count port := by
  intro budget before after
  have hpos : 0 < ports.length := List.length_pos_of_ne_nil hports
  have hbudget : 0 < budget := tickTimeBudget_pos isWritable config
  obtain ⟨made, hbefore, hleast, hmost⟩ := run_rotated hpos hbudget calls (setup_rotated ports)
  obtain ⟨next, hafter, hround, -⟩ := run_rotated hpos hbudget more hbefore
  rw [Nat.zero_add] at hbefore hafter
  have hlength : before.serviced.length = made := by
    rw [hbefore.serviced, length_turns hpos]
  rw [hlength]
  refine ⟨hbefore.serviced, serviced_tick hnodup hpos hbudget hbefore, hleast, hmost, ?_, ?_⟩
  · intro port hport port' hport'
    obtain ⟨position, hposition, rfl⟩ := List.getElem_of_mem hport
    obtain ⟨position', hposition', rfl⟩ := List.getElem_of_mem hport'
    rw [hbefore.serviced, count_turns hnodup hposition, count_turns hnodup hposition']
    split <;> split <;> omega
  · intro port hport
    rw [hbefore.serviced, hafter.serviced]
    calc (turns ports made).count port
        < (turns ports (made + ports.length)).count port := by
          rw [count_turns_round hnodup hport]
          exact Nat.lt_succ_self _
      _ ≤ (turns ports (made + next)).count port :=
          count_turns_mono (Nat.add_le_add_left (hmore.trans hround) made) port

/-- Two servers, where the first call of each tick takes all of its budget. -/
theorem servers_rotate_exhausted :
    let spent : ServicePeers := fun _ _ => 0
    let before := run (tick 2000) (setup [5056, 5055]) [spent]
    before.serviced.count 5055 < (run (tick 2000) before [spent, spent]).serviced.count 5055 := by
  have hnodup : ([5056, 5055] : List UInt16).Nodup := by decide
  have hrotate := servers_rotate (fun _ => true) {} hnodup (List.cons_ne_nil _ _)
    [fun _ _ => 0] [fun _ _ => 0, fun _ _ => 0] (Nat.le_refl 2)
  exact hrotate.2.2.2.2.2 5055 (by decide)

end ServerLoop

end LuxonServer
