import LuxonServer.Game.Party

/-! When the clients of a room agree with it about its players. -/

namespace LuxonServer

open Transition

namespace Roster

variable {roster : Roster} {n : Int}

theorem view_insert (props : Hashtable) : view (AList.insert n props roster) =
    Function.update roster.view n (some fun key => props.lookup key) := by
  funext m
  by_cases hm : m = n
  · subst hm
    rw [view, AList.lookup_insert, Function.update_self, Option.map_some]
  · rw [view, AList.lookup_insert_ne hm, Function.update_of_ne hm, view]

theorem view_erase : view (AList.erase n roster) = Function.update roster.view n none := by
  funext m
  by_cases hm : m = n
  · subst hm
    rw [view, AList.lookup_erase, Function.update_self, Option.map_none]
  · rw [view, AList.lookup_erase_ne hm, Function.update_of_ne hm, view]

theorem view_onUpdate (deleteNull : Bool) {event : PropertyUpdateEvent}
    (htarget : event.targetActorNo ≠ 0) : (roster.onUpdate deleteNull event).view =
      Function.update roster.view event.targetActorNo
        ((roster.view event.targetActorNo).map fun old key =>
          (event.properties.lookup key).elim (old key) (told deleteNull)) := by
  unfold onUpdate
  rw [if_neg htarget]
  cases hprops : roster.lookup event.targetActorNo with
  | none =>
    have hnone : roster.view event.targetActorNo = none := by rw [view, hprops, Option.map_none]
    rw [hnone, Option.map_none, ← hnone, Function.update_eq_self]
  | some props =>
    have hsome : roster.view event.targetActorNo = some fun key => props.lookup key := by
      rw [view, hprops, Option.map_some]
    rw [hsome, Option.map_some]
    dsimp only
    rw [view_insert]
    congr 2
    funext key
    exact lookup_overwrite deleteNull event.properties props key

end Roster

namespace Party

open Game

variable {settings : AppSettings} {p : Party} {peer : PeerRef} {n : Int}

/-- A told client is reached by its event. -/
theorem mem_reached {h : PeerHeap} {g : Game} (hp : g.PeersSound h) {group : UInt8} {sender : Int}
    (hn : n ∈ g.actorIds) (hgroup : group = allGroup ∨ group = othersGroup ∧ n ≠ sender) :
    n ∈ reached h group sender g := by
  obtain ⟨gp, hgp, rfl⟩ := List.mem_map.mp hn
  obtain ⟨r, hpeer, hlive⟩ := hp.live gp.peer (List.mem_map_of_mem hgp)
  have hlock : h.lock gp.peer = some r := by
    rw [hpeer]
    exact PeerHeap.lock_eq_some.mpr ⟨rfl, hlive⟩
  refine List.mem_map_of_mem (List.mem_filter.mpr ⟨?_, by rw [hlock]; rfl⟩)
  unfold recipients
  refine List.mem_filter.mpr ⟨?_, rfl⟩
  rcases hgroup with rfl | ⟨rfl, hne⟩
  · simpa [allGroup, masterClientGroup, othersGroup] using hgp
  · simpa [masterClientGroup, othersGroup] using ⟨hgp, hne⟩

/-- An event that every client hears of. -/
theorem hear_eq {actors : List Int} {change : Roster → Roster} {rosters : Int → Option Roster}
    (hall : ∀ n, (rosters n).isSome → n ∈ actors) :
    hear actors change rosters = fun n => (rosters n).map change := by
  funext n
  unfold hear
  split
  · rfl
  · next hn =>
    rw [Option.not_isSome_iff_eq_none.mp fun hsome => hn (hall n hsome)]
    rfl

/-- Nothing has happened to the actors or to what the clients know. -/
theorem Sound.same {p' : Party} (hp : p.Sound) (hgame : SamePeers p.game p'.game)
    (hpeers : p'.game.PeersSound p'.heap) (hrosters : p'.rosters = p.rosters) :
    p'.Sound ∧ (p.Agrees → p'.Agrees) := by
  have hids : p'.game.actorIds = p.game.actorIds := by rw [actorIds, hgame.peers, actorIds]
  refine ⟨⟨hgame.actors hp.actors, hpeers, ?_, ?_, ?_⟩, fun hagrees => ?_⟩
  · rw [hids, hrosters]
    exact hp.rosters
  · rw [hgame.flags]
    exact hp.roomEvents
  · rw [hgame.flags]
    exact hp.playerInfo
  · intro n roster hroster actorNo
    rw [hrosters] at hroster
    rw [actorTable_congr hgame.peers, Joining, hids, hrosters]
    exact hagrees n roster hroster actorNo

theorem connect_sound (hp : p.Sound) (persistent : PeerPersistent) :
    (p.step settings (.connect peer persistent)).Sound ∧
      (p.Agrees → (p.step settings (.connect peer persistent)).Agrees) := by
  unfold step
  dsimp only
  split
  · next hunused =>
    refine hp.same (SamePeers.refl _) ⟨fun c hc => ?_, hp.peers.distinct⟩ rfl
    obtain ⟨r, rfl, hlive⟩ := hp.peers.live c hc
    have hne : r ≠ peer := by
      rintro rfl
      exact PeerHeap.ne_unused_of_get hlive hunused
    exact ⟨r, rfl, by simpa [PeerHeap.get, hne] using hlive⟩
  · exact ⟨hp, id⟩

/-- A client that is let in is new to the room and to everyone in it. -/
theorem enters_sound (hp : p.Sound) {gp : GamePeer} {game : Game}
    (hout : p.game.findPeer p.heap (some peer) = none) (hlive : (p.heap.get peer).isSome)
    (henters : Enters (some peer) gp p.game game) :
    Sound { p with game } ∧ (p.Agrees → Agrees { p with game }) := by
  have hids : game.actorIds = p.game.actorIds ++ [gp.actorId] := by
    rw [actorIds, henters.peers, List.map_append, actorIds]
    rfl
  have hconnections : game.connections = p.game.connections ++ [some peer] := by
    rw [connections, henters.peers, List.map_append, List.map_singleton, henters.connection,
      connections]
  have hnew : p.rosters gp.actorId = none :=
    Option.not_isSome_iff_eq_none.mp fun hsome => henters.number (hp.rosters _ hsome)
  refine ⟨⟨henters.actors, ⟨fun c hc => ?_, ?_⟩, fun n hn => ?_, ?_, ?_⟩, fun hagrees => ?_⟩
  · rcases List.mem_append.mp (hconnections ▸ hc) with hold | hlast
    · exact hp.peers.live c hold
    · exact ⟨peer, List.mem_singleton.mp hlast, hlive⟩
  · rw [hconnections]
    refine List.nodup_append.mpr ⟨hp.peers.distinct, List.nodup_singleton _, ?_⟩
    rintro c hc _ hlast rfl
    obtain rfl := List.mem_singleton.mp hlast
    obtain ⟨other, hother, hpeer⟩ := List.mem_map.mp hc
    have hfound : (p.game.findPeer p.heap (some peer)).isSome := by
      refine findPeer_isSome.mpr ⟨other, hother, hp.actors.active other hother, ?_⟩
      rw [hpeer]
      exact PeerHeap.lock_eq_some.mpr ⟨rfl, hlive⟩
    rw [hout] at hfound
    cases hfound
  · rw [hids]
    exact List.mem_append_left _ (hp.rosters n hn)
  · rw [henters.flags]
    exact hp.roomEvents
  · rw [henters.flags]
    exact hp.playerInfo
  · intro n roster hroster actorNo
    have hold := hagrees n roster hroster actorNo
    by_cases hself : actorNo = gp.actorId
    · subst hself
      refine .inr ⟨⟨hids ▸ List.mem_append_right _ List.mem_cons_self, hnew⟩, ?_⟩
      rcases hold with hold | ⟨-, hold⟩
      · rw [hold, actorTable_eq_none hp.actors]
        exact henters.number
      · exact hold
    · have htable : game.actorTable actorNo = p.game.actorTable actorNo := by
        ext table
        rw [actorTable_eq_some henters.actors, actorTable_eq_some hp.actors, henters.peers]
        constructor
        · rintro ⟨other, hother, rfl, htable⟩
          rcases List.mem_append.mp hother with hother | hlast
          · exact ⟨other, hother, rfl, htable⟩
          · exact absurd (congrArg _ (List.mem_singleton.mp hlast)) hself
        · rintro ⟨other, hother, htable⟩
          exact ⟨other, List.mem_append_left _ hother, htable⟩
      rcases hold with hold | ⟨hjoining, hold⟩
      · exact .inl (hold.trans htable.symm)
      · exact .inr ⟨⟨hids ▸ List.mem_append_left _ hjoining.1, hjoining.2⟩, hold⟩

theorem beginJoin_sound (hp : p.Sound) (expectedUsers : List String)
    (beforeJoin : GamePluginResult) :
    (p.step settings (.beginJoin peer expectedUsers beforeJoin)).Sound ∧
      (p.Agrees → (p.step settings (.beginJoin peer expectedUsers beforeJoin)).Agrees) := by
  unfold step
  dsimp only
  split
  · exact ⟨hp, id⟩
  · next userId huser =>
    split
    · exact ⟨hp, id⟩
    · next hout =>
      have hout : p.game.findPeer p.heap (some peer) = none := by
        rw [actorIdForPeer, if_neg (by simp)] at hout
        simpa using hout
      rcases beginJoin_cases hp.actors hout settings userId expectedUsers beforeJoin with
        ⟨answer, game, heq, hsame⟩ | ⟨added, game, gp, heq, henters⟩
      · rw [heq]
        exact hp.same hsame (hsame.peersSound hp.peers) rfl
      · rw [heq]
        refine enters_sound hp hout ?_ henters
        rw [PeerHeap.userId_some, Option.bind_eq_some_iff] at huser
        obtain ⟨_, hget, -⟩ := huser
        rw [hget]
        rfl

/-- What everyone knows after the answer to a join and its event. -/
theorem complete_sound (hp : p.Sound)
    (hn : p.game.actorIdForPeer p.heap (some peer) = some n) (request : JoinRequest)
    (publishUserId : Bool) :
    (p.complete peer n request publishUserId true).Sound ∧
      (p.Agrees → (p.complete peer n request publishUserId true).Agrees) := by
  have honly := onlyActor_completeJoin p.heap (some peer) request { publishUserId } p.game
  rw [hn, Option.getD_some] at honly
  unfold complete
  dsimp only
  generalize p.game.completeJoin p.heap (some peer) request { publishUserId } = game at honly
  have hactors := honly.actors hp.actors
  have hpeers : game.PeersSound p.heap :=
    ⟨honly.connections ▸ hp.peers.live, honly.connections ▸ hp.peers.distinct⟩
  have hmem : n ∈ game.actorIds := by
    obtain ⟨gp, hgp, -, rfl⟩ := (actorIdForPeer_eq_some hp.actors hp.peers).mp hn
    rw [honly.ids]
    exact List.mem_map_of_mem hgp
  have hanswer : Roster.ofJoin (game.joinResponse n true) = game.getActorProps := rfl
  obtain ⟨props, hprops⟩ : ∃ props, (game.findActor n).map (·.actorProps) = some props := by
    rw [← Option.isSome_iff_exists, Option.isSome_map]
    exact (findActor_of_active hactors.active).mpr hmem
  have hself : game.actorTable n = some fun key => props.lookup key := by
    obtain ⟨gp, hfind, rfl⟩ := Option.map_eq_some_iff.mp hprops
    rw [actorTable, hfind]
    rfl
  have hevent : game.joinEvent n true = some
      { actorNo := n, actorList := game.actorIds, actorProperties := some props } := by
    rw [joinEvent, honly.flags, hp.roomEvents, hp.playerInfo, hprops]
    rfl
  have hrosters : ∀ m, (Function.update p.rosters n (some game.getActorProps) m).isSome →
      m ∈ game.actorIds := by
    intro m hm
    by_cases heq : m = n
    · rw [heq]
      exact hmem
    · rw [Function.update_of_ne heq] at hm
      rw [honly.ids]
      exact hp.rosters m hm
  rw [hanswer, hevent]
  dsimp only
  rw [hear_eq fun m hm => mem_reached hpeers (hrosters m hm) (.inl rfl)]
  refine ⟨⟨hactors, hpeers, fun m hm => hrosters m (by simpa using hm), ?_, ?_⟩, fun hagrees => ?_⟩
  · rw [honly.flags]
    exact hp.roomEvents
  · rw [honly.flags]
    exact hp.playerInfo
  · intro m roster hroster actorNo
    obtain ⟨before, hbefore, rfl⟩ := Option.map_eq_some_iff.mp hroster
    dsimp only [Roster.onJoin]
    rw [Option.getD_some, Roster.view_insert]
    by_cases hactor : actorNo = n
    · rw [hactor, Function.update_self]
      exact .inl hself.symm
    · rw [Function.update_of_ne hactor]
      by_cases heq : m = n
      · rw [heq, Function.update_self] at hbefore
        cases hbefore
        rw [view_getActorProps hactors]
        exact .inl rfl
      · rw [Function.update_of_ne heq] at hbefore
        obtain ⟨table, htable⟩ := honly.table
        rw [htable, Function.update_of_ne hactor]
        rcases hagrees m before hbefore actorNo with hold | ⟨hjoining, hold⟩
        · exact .inl hold
        · refine .inr ⟨⟨honly.ids ▸ hjoining.1, ?_⟩, hold⟩
          simp [hactor, hjoining.2]

theorem mem_actorIds_left (hp : p.Sound) {game : Game} (hgame : game.ActorsSound)
    (htable : game.actorTable = Function.update p.game.actorTable n none) {m : Int} :
    m ∈ game.actorIds ↔ m ≠ n ∧ m ∈ p.game.actorIds := by
  rw [← actorTable_isSome hgame, ← actorTable_isSome hp.actors, htable]
  by_cases hm : m = n
  · simp [hm]
  · simp [hm]

/-- A join that is turned down was never announced: no one else may have heard of the actor. -/
theorem refuseJoin_sound (hp : p.Sound)
    (hn : p.game.actorIdForPeer p.heap (some peer) = some n) (hnew : p.rosters n = none)
    (added : List (String × Nat)) :
    Sound { p with game := p.game.refuseJoin p.heap (some peer) added } ∧
      (p.Agrees → (Agrees { p with game := p.game.refuseJoin p.heap (some peer) added } ↔
        ∀ m roster, p.rosters m = some roster → roster.view n = none)) := by
  obtain ⟨hpeers, hflags, -, htable⟩ := removePeer_sound hp.actors hp.peers hn
  have hback := samePeers_rollbackExpectedUsers added (p.game.removePeer p.heap (some peer)).2
  have hactors := hback.actors (hp.actors.removePeer (some peer))
  have htable := (actorTable_congr hback.peers).trans htable
  have hflags := hback.flags.trans hflags
  have hpeers := hback.peersSound hpeers
  unfold refuseJoin rollbackJoinExisting
  rw [if_neg (by simp)]
  generalize ((p.game.removePeer p.heap (some peer)).2).rollbackExpectedUsers added = game at *
  have hids := fun m => mem_actorIds_left hp hactors htable (m := m)
  refine ⟨⟨hactors, hpeers, fun m hm => (hids m).mpr ⟨?_, hp.rosters m hm⟩, ?_, ?_⟩,
    fun hagrees => ⟨fun hafter m roster hroster => ?_, fun hunknown m roster hroster actorNo => ?_⟩⟩
  · rintro rfl
    rw [hnew] at hm
    cases hm
  · rw [hflags]
    exact hp.roomEvents
  · rw [hflags]
    exact hp.playerInfo
  · rcases hafter m roster hroster n with hview | ⟨-, hview⟩
    · rw [hview]
      exact (congrFun htable n).trans (Function.update_self ..)
    · exact hview
  · dsimp only
    by_cases hactor : actorNo = n
    · rw [hactor, htable, Function.update_self]
      exact .inl (hunknown m roster hroster)
    · rw [htable, Function.update_of_ne hactor]
      rcases hagrees m roster hroster actorNo with hold | ⟨hjoining, hold⟩
      · exact .inl hold
      · exact .inr ⟨⟨(hids actorNo).mpr ⟨hactor, hjoining.1⟩, hjoining.2⟩, hold⟩

/-- Everyone hears of a client that is gone. -/
theorem disconnect_sound (hp : p.Sound) :
    (p.step settings (.disconnect peer)).Sound ∧
      (p.Agrees → (p.step settings (.disconnect peer)).Agrees) := by
  have hlive : ∀ c : Option PeerRef, c ≠ some peer → (∃ r, c = some r ∧ (p.heap.get r).isSome) →
      ∃ r, c = some r ∧ (PeerHeap.get (Function.update p.heap peer .dead) r).isSome := by
    rintro _ hne ⟨r, rfl, hlive⟩
    have hne : r ≠ peer := fun heq => hne (congrArg some heq)
    exact ⟨r, rfl, by simpa [PeerHeap.get, hne] using hlive⟩
  obtain ⟨eventCache, heq⟩ := handleDisconnect_eq (h := p.heap) hp.actors (some peer)
  unfold step
  dsimp only
  rw [heq]
  cases hn : p.game.actorIdForPeer p.heap (some peer) with
  | none =>
    refine hp.same (SamePeers.refl _) ⟨fun c hc => hlive c ?_ (hp.peers.live c hc),
      hp.peers.distinct⟩ rfl
    rintro rfl
    obtain ⟨gp, hgp, hpeer⟩ := List.mem_map.mp hc
    have hsome := (actorIdForPeer_eq_some hp.actors hp.peers).mpr ⟨gp, hgp, hpeer, rfl⟩
    rw [hn] at hsome
    cases hsome
  | some n =>
    have hsame : SamePeers p.game { p.game with eventCache } :=
      ⟨fun hactors => hactors.congr rfl rfl rfl rfl, rfl, rfl⟩
    have hactors := hsame.actors hp.actors
    have hn' : actorIdForPeer p.heap (some peer) { p.game with eventCache } = some n := hn
    obtain ⟨hpeers, hflags, hgone, htable⟩ :=
      removePeer_sound hactors (hsame.peersSound hp.peers) hn'
    have hactors := hactors.removePeer (h := p.heap) (some peer)
    dsimp only
    generalize ({ p.game with eventCache }.removePeer p.heap (some peer)).2 = game at *
    have htable : game.actorTable = Function.update p.game.actorTable n none := by
      rw [htable, actorTable_congr hsame.peers]
    have hids := fun m => mem_actorIds_left hp hactors htable (m := m)
    have hflags : game.flags = p.game.flags := hflags
    have hquiet : GameFlag.suppressRoomEvents.isSet game.flags = false := by
      rw [hflags]
      exact hp.roomEvents
    have hrosters : ∀ m, (Function.update p.rosters n none m).isSome → m ∈ game.actorIds := by
      intro m hm
      have hne : m ≠ n := by
        rintro rfl
        rw [Function.update_self] at hm
        cases hm
      rw [Function.update_of_ne hne] at hm
      exact (hids m).mpr ⟨hne, hp.rosters m hm⟩
    rw [hquiet]
    simp only [Bool.false_eq_true, if_false]
    rw [hear_eq fun m hm => mem_reached hpeers (hrosters m hm) (.inl rfl)]
    refine ⟨⟨hactors, ⟨fun c hc => hlive c ?_ (hpeers.live c hc), hpeers.distinct⟩,
      fun m hm => hrosters m (by simpa using hm), hquiet, ?_⟩, fun hagrees => ?_⟩
    · rintro rfl
      exact hgone hc
    · rw [hflags]
      exact hp.playerInfo
    · intro m roster hroster actorNo
      obtain ⟨before, hbefore, rfl⟩ := Option.map_eq_some_iff.mp hroster
      have hne : m ≠ n := by
        rintro rfl
        rw [Function.update_self] at hbefore
        cases hbefore
      rw [Function.update_of_ne hne] at hbefore
      dsimp only [Roster.onLeave]
      rw [Roster.view_erase, htable]
      by_cases hactor : actorNo = n
      · rw [hactor, Function.update_self, Function.update_self]
        exact .inl rfl
      · rw [Function.update_of_ne hactor, Function.update_of_ne hactor]
        rcases hagrees m before hbefore actorNo with hold | ⟨hjoining, hold⟩
        · exact .inl hold
        · refine .inr ⟨⟨(hids actorNo).mpr ⟨hactor, hjoining.1⟩, ?_⟩, hold⟩
          simp [hactor, hjoining.2]

theorem told_eq_storedForActor_iff {deleteNull : Bool} {table : Props} {key value : Value} :
    told deleteNull value = storedForActor deleteNull key value (table key) ↔
      EchoedActor deleteNull table key value := by
  unfold EchoedActor
  cases key with
  | null =>
    cases deleteNull with
    | false => simp [told, storedForActor, eq_comm]
    | true => simp [told, storedForActor]
  | _ => simp [told, storedForActor]

variable {request : SetPropertiesRequest} {actorNo : Int} {props : Hashtable}

theorem Accepts.unique {props' : Hashtable} (ha : p.Accepts peer request actorNo props)
    (ha' : p.Accepts peer request actorNo props') : props' = props :=
  Option.some.inj (ha'.properties.symm.trans ha.properties)

theorem insertActorProps_of_not_mem {g : Game} (hn : (g.insertActorProps n props).1 = false) :
    (g.insertActorProps n props).2 = g := by
  unfold insertActorProps at hn ⊢
  dsimp only at hn ⊢
  split
  · next hfound => simp [hfound] at hn
  · rfl

/-- A request for an actor's properties that succeeds, and one that leaves the room as it is. -/
theorem setActorProperties_cases (hp : p.Sound) (htarget : actorNo ≠ 0) :
    (∃ props sender, p.Accepts peer request actorNo props ∧
      p.game.actorIdForPeer p.heap (some peer) = some sender ∧
      p.game.setActorProperties p.heap (some peer) request actorNo =
        { game := (p.game.insertActorProps actorNo props).2
          response := some (.ok, "")
          event :=
            if request.broadcast then
              some ((p.game.insertActorProps actorNo props).2.createPropertyUpdateEvent sender
                props actorNo)
            else none }) ∨
      (∀ props, ¬p.Accepts peer request actorNo props) ∧
        (p.game.setActorProperties p.heap (some peer) request actorNo).game = p.game ∧
        (p.game.setActorProperties p.heap (some peer) request actorNo).event = none := by
  unfold setActorProperties
  cases hsender : p.game.actorIdForPeer p.heap (some peer) with
  | none =>
    refine .inr ⟨fun props ha => ?_, rfl, rfl⟩
    have hsome := ha.sender
    rw [hsender] at hsome
    cases hsome
  | some sender =>
    have hpos : sender ≠ 0 := by
      obtain ⟨gp, hgp, -, rfl⟩ := (actorIdForPeer_eq_some hp.actors hp.peers).mp hsender
      have hrange := hp.actors.range _ (List.mem_map_of_mem hgp)
      omega
    cases hprops : request.properties.filter fun props => props.entries != [] with
    | none =>
      refine .inr ⟨fun props ha => ?_, rfl, rfl⟩
      rw [ha.properties, Option.filter_some, if_pos (by simpa using ha.nonempty)] at hprops
      cases hprops
    | some props =>
      obtain ⟨hproperties, hnonempty⟩ := Option.filter_eq_some_iff.mp hprops
      have hrefused : (∀ game, p.game.applyActorProps actorNo props request.expectedValues ≠
          some (true, game)) → ∀ props, ¬p.Accepts peer request actorNo props := by
        intro hnot props' ha
        obtain rfl := Option.some.inj (hproperties.symm.trans ha.properties)
        obtain ⟨game, hgame⟩ := ha.applied
        exact hnot game hgame
      have happly : p.game.applyActorProps actorNo props request.expectedValues = none ∨
          p.game.applyActorProps actorNo props request.expectedValues = some (false, p.game) ∨
          p.game.applyActorProps actorNo props request.expectedValues =
            some (p.game.insertActorProps actorNo props) := by
        unfold applyActorProps
        cases request.expectedValues with
        | none => exact .inr (.inr rfl)
        | some expected =>
          dsimp only
          rcases p.game.expectActorProps actorNo expected with _ | _ | _
          · exact .inl rfl
          · exact .inr (.inl rfl)
          · exact .inr (.inr rfl)
      dsimp only
      rw [if_neg hpos]
      rcases happly with heq | heq | heq
      · rw [heq]
        exact .inr ⟨hrefused fun game => by rw [heq]; exact nofun, rfl, rfl⟩
      · rw [heq]
        exact .inr ⟨hrefused fun game => by rw [heq]; exact nofun, rfl, rfl⟩
      · cases hok : (p.game.insertActorProps actorNo props).1 with
        | false =>
          have hpair : p.game.insertActorProps actorNo props = (false, p.game) :=
            Prod.ext hok (insertActorProps_of_not_mem hok)
          rw [heq, hpair]
          exact .inr ⟨hrefused fun game => by rw [heq, hpair]; exact nofun, rfl, rfl⟩
        | true =>
          have hpair : p.game.insertActorProps actorNo props =
              (true, (p.game.insertActorProps actorNo props).2) := Prod.ext hok rfl
          refine .inl ⟨props, sender, ⟨htarget, by rw [hsender]; rfl, hproperties,
            by simpa using hnonempty, _, heq.trans (congrArg some hpair)⟩, rfl, ?_⟩
          rw [heq, hpair]
          simp

/-- The one who asks hears of the update either way. -/
theorem hearUpdate_eq {h : PeerHeap} {g : Game} (hp : g.PeersSound h)
    {rosters : Int → Option Roster} (hrosters : ∀ n, (rosters n).isSome → n ∈ g.actorIds)
    (sender : Int) (props : Hashtable) (target : Int) :
    hearUpdate h g (g.createPropertyUpdateEvent sender props target) rosters =
      fun n => (rosters n).map (Roster.onUpdate (GameFlag.deleteNullProps.isSet g.flags)
        (g.createPropertyUpdateEvent sender props target)) := by
  refine hear_eq fun n hn => ?_
  by_cases hself : n = sender
  · exact List.mem_cons.mpr (.inl hself)
  · refine List.mem_cons_of_mem _ (mem_reached hp (hrosters n hn) ?_)
    dsimp only [createPropertyUpdateEvent]
    split
    · next heq => exact .inl rfl
    · next heq => exact .inr ⟨rfl, hself⟩

/-- The clients that know the actor overwrite its properties, as the room merges them. -/
theorem update_sound (hp : p.Sound) (ha : p.Accepts peer request actorNo props) (sender : Int) :
    let game := (p.game.insertActorProps actorNo props).2
    let after : Party := { p with
      game
      rosters := hearUpdate p.heap game (game.createPropertyUpdateEvent sender props actorNo)
        p.rosters }
    after.Sound ∧ (p.Agrees →
      (after.Agrees ↔ p.Faithful (.setProperties peer request actorNo))) := by
  intro game after
  have honly : OnlyActor actorNo p.game game := onlyActor_insertActorProps props p.game
  have hpeers : game.PeersSound p.heap :=
    ⟨honly.connections ▸ hp.peers.live, honly.connections ▸ hp.peers.distinct⟩
  have hrosters : ∀ n, (p.rosters n).isSome → n ∈ game.actorIds :=
    fun n hn => honly.ids ▸ hp.rosters n hn
  have htable : game.actorTable = _ := actorTable_insertActorProps props p.game
  have heard : after.rosters = _ := hearUpdate_eq hpeers hrosters sender props actorNo
  rw [honly.flags] at heard
  set deleteNull := GameFlag.deleteNullProps.isSet p.game.flags with hdelete
  refine ⟨⟨honly.actors hp.actors, hpeers, fun n hn => ?_, ?_, ?_⟩, fun hagrees => ?_⟩
  · rw [heard, Option.isSome_map] at hn
    exact hrosters n hn
  · show GameFlag.suppressRoomEvents.isSet game.flags = false
    rw [honly.flags]
    exact hp.roomEvents
  · show GameFlag.suppressPlayerInfo.isSet game.flags = false
    rw [honly.flags]
    exact hp.playerInfo
  have hjoining : ∀ n, after.Joining n ↔ p.Joining n := by
    intro n
    rw [Joining, Joining, heard, Option.map_eq_none_iff]
    exact and_congr_left fun _ => by rw [show after.game.actorIds = _ from honly.ids]
  -- What a client and the room make of the actor's old properties.
  have hboth : ∀ table : Props,
      ((fun key => (props.lookup key).elim (table key) (told deleteNull)) =
        fun key => (props.lookup key).elim (table key) fun value =>
          storedForActor deleteNull key value (table key)) ↔
      ∀ key value, props.lookup key = some value → EchoedActor deleteNull table key value := by
    intro table
    rw [funext_iff]
    refine forall_congr' fun key => ?_
    cases hvalue : props.lookup key with
    | none => simp
    | some value =>
      simp only [Option.elim_some, Option.some.injEq, forall_eq']
      exact told_eq_storedForActor_iff
  constructor
  · rintro hafter props' ha' ⟨n, roster, hroster, hknows⟩ table hold
    obtain rfl := ha.unique ha'
    rw [← hboth]
    have hview : roster.view actorNo = some table := by
      rcases hagrees n roster hroster actorNo with hview | ⟨-, hview⟩
      · rw [hview, hold]
      · rw [hview] at hknows
        cases hknows
    have hnow := hafter n _ (by rw [heard]; exact congrArg _ hroster) actorNo
    rw [Roster.view_onUpdate _ ha.target] at hnow
    dsimp only [createPropertyUpdateEvent] at hnow
    rw [Function.update_self, hview, Option.map_some] at hnow
    rcases hnow with hnow | ⟨-, hnow⟩
    · rw [show after.game.actorTable = _ from htable, Function.update_self, hold,
        Option.map_some] at hnow
      exact Option.some.inj hnow
    · cases hnow
  · intro hfaithful n roster' hroster' m
    rw [heard] at hroster'
    obtain ⟨roster, hroster, rfl⟩ := Option.map_eq_some_iff.mp hroster'
    rw [Roster.view_onUpdate _ ha.target, show after.game.actorTable = _ from htable, hjoining]
    dsimp only [createPropertyUpdateEvent]
    by_cases hm : m = actorNo
    · subst hm
      rw [Function.update_self, Function.update_self]
      rcases hagrees n roster hroster m with hview | ⟨hjoin, hview⟩
      · cases hold : p.game.actorTable m with
        | none =>
          rw [hview, hold]
          exact .inl rfl
        | some table =>
          rw [hview, hold, Option.map_some, Option.map_some]
          refine .inl (congrArg some ((hboth table).mpr ?_))
          exact hfaithful props ha ⟨n, roster, hroster, by rw [hview, hold]; rfl⟩ table hold
      · rw [hview]
        exact .inr ⟨hjoin, rfl⟩
    · rw [Function.update_of_ne hm, Function.update_of_ne hm]
      exact hagrees n roster hroster m

/-- The properties of the room are not a player's. -/
theorem hearUpdate_of_room {h : PeerHeap} {g : Game} {event : PropertyUpdateEvent}
    (htarget : event.targetActorNo = 0) (rosters : Int → Option Roster) :
    hearUpdate h g event rosters = rosters := by
  have hid : Roster.onUpdate (GameFlag.deleteNullProps.isSet g.flags) event = id := by
    funext roster
    exact if_pos htarget
  funext n
  unfold hearUpdate hear
  rw [hid, Option.map_id, id, ite_self]

theorem setProperties_sound (hp : p.Sound) (hbroadcast : request.broadcast = true) :
    (p.step settings (.setProperties peer request actorNo)).Sound ∧
      (p.Agrees → ((p.step settings (.setProperties peer request actorNo)).Agrees ↔
        p.Faithful (.setProperties peer request actorNo))) := by
  unfold step
  dsimp only
  by_cases htarget : actorNo = 0
  · rw [if_pos htarget]
    have hsame : SamePeers p.game (p.game.setProperties p.heap settings (some peer) request).game ∧
        ∀ event, (p.game.setProperties p.heap settings (some peer) request).event = some event →
          event.targetActorNo = 0 := by
      unfold setProperties
      split
      · exact ⟨SamePeers.refl _, nofun⟩
      split
      · exact ⟨SamePeers.refl _, nofun⟩
      split
      · exact ⟨SamePeers.refl _, nofun⟩
      · refine ⟨(propsOnly_applyGameProps settings _ _ _).samePeers, fun event hevent => ?_⟩
        dsimp only at hevent
        split at hevent
        · cases hevent
          rfl
        · cases hevent
    generalize p.game.setProperties p.heap settings (some peer) request = out at hsame
    obtain ⟨hsame, hevents⟩ := hsame
    have hsound : Sound { p with game := out.game } ∧
        (p.Agrees → Agrees { p with game := out.game }) :=
      hp.same hsame (hsame.peersSound hp.peers) rfl
    have hfaithful : p.Faithful (.setProperties peer request actorNo) := fun props ha =>
      absurd htarget ha.target
    cases hevent : out.event with
    | none => exact ⟨hsound.1, fun hagrees => iff_of_true (hsound.2 hagrees) hfaithful⟩
    | some event =>
      dsimp only
      rw [hearUpdate_of_room (hevents event hevent)]
      exact ⟨hsound.1, fun hagrees => iff_of_true (hsound.2 hagrees) hfaithful⟩
  · rw [if_neg htarget]
    rcases setActorProperties_cases hp htarget with
      ⟨props, sender, ha, -, heq⟩ | ⟨hnone, hgame, hevent⟩
    · rw [heq, hbroadcast]
      exact update_sound hp ha sender
    · rw [hgame, hevent]
      exact ⟨hp, fun hagrees => iff_of_true hagrees fun props ha => absurd ha (hnone props)⟩

theorem step_sound (hp : p.Sound) {op : PartyOp} (hannounced : op.Announced) :
    (p.step settings op).Sound ∧
      (p.Agrees → ((p.step settings op).Agrees ↔ p.Faithful op)) := by
  cases op with
  | connect peer persistent =>
    have hconnect : (p.step settings (.connect peer persistent)).Sound ∧
        (p.Agrees → (p.step settings (.connect peer persistent)).Agrees) :=
      connect_sound hp persistent
    exact ⟨hconnect.1, fun hagrees => iff_of_true (hconnect.2 hagrees) trivial⟩
  | beginJoin peer expectedUsers beforeJoin =>
    have hbegin : (p.step settings (.beginJoin peer expectedUsers beforeJoin)).Sound ∧
        (p.Agrees → (p.step settings (.beginJoin peer expectedUsers beforeJoin)).Agrees) :=
      beginJoin_sound hp expectedUsers beforeJoin
    exact ⟨hbegin.1, fun hagrees => iff_of_true (hbegin.2 hagrees) trivial⟩
  | completeJoin peer request publishUserId broadcastActorProps =>
    obtain rfl : broadcastActorProps = true := hannounced
    unfold step
    dsimp only
    split
    · exact ⟨hp, fun hagrees => iff_of_true hagrees trivial⟩
    · next n hn =>
      split
      · exact ⟨hp, fun hagrees => iff_of_true hagrees trivial⟩
      · obtain ⟨hsound, hkeeps⟩ := complete_sound hp hn request publishUserId
        exact ⟨hsound, fun hagrees => iff_of_true (hkeeps hagrees) trivial⟩
  | refuseJoin peer added =>
    unfold step
    dsimp only [Faithful]
    cases hn : p.game.actorIdForPeer p.heap (some peer) with
    | none => exact ⟨hp, fun hagrees => iff_of_true hagrees nofun⟩
    | some n =>
      dsimp only
      split
      · next hsome =>
        refine ⟨hp, fun hagrees => iff_of_true hagrees ?_⟩
        rintro _ heq hnone
        obtain rfl := Option.some.inj heq
        rw [hnone] at hsome
        cases hsome
      · next hnone =>
        have hnone := Option.not_isSome_iff_eq_none.mp hnone
        obtain ⟨hsound, hkeeps⟩ := refuseJoin_sound hp hn hnone added
        refine ⟨hsound, fun hagrees => (hkeeps hagrees).trans ?_⟩
        simp [hnone]
  | setProperties peer request actorNo => exact setProperties_sound hp hannounced
  | disconnect peer =>
    have hleave : (p.step settings (.disconnect peer)).Sound ∧
        (p.Agrees → (p.step settings (.disconnect peer)).Agrees) := disconnect_sound hp
    exact ⟨hleave.1, fun hagrees => iff_of_true (hleave.2 hagrees) trivial⟩

/-- Whatever order clients join, leave and set properties in, all of them know the players of the
room as it does, exactly if each update is one that the room and a client read alike, and a join is
turned down only before anyone has heard of it. -/
theorem rosters_agree_iff (settings : AppSettings) (hp : p.Sound) (hagrees : p.Agrees)
    {ops : List PartyOp} (hannounced : ∀ op ∈ ops, op.Announced) :
    Always (step settings) Agrees p ops ↔ EachStep (step settings) Faithful p ops :=
  always_iff_eachStep (fun _ _ hp hop => (step_sound hp hop).1)
    (fun _ _ hp hop hagrees => (step_sound hp hop).2 hagrees) hp hagrees
    (eachStep_of_forall fun op hop _ => hannounced op hop)

/-- Ada is alone in her room. -/
def adas : Party where
  heap := Room.adas.heap
  game := Room.adas.game
  rosters := Function.update (fun _ => none) 1 (some Room.adas.game.getActorProps)

theorem sound_adas : adas.Sound where
  actors := Room.reachable_adas.valid.actors
  peers := by
    refine ⟨fun c hc => ⟨1, ?_, by decide⟩, by decide⟩
    exact List.mem_singleton.mp (show c ∈ [some 1] from hc)
  rosters n hn := by
    by_cases heq : n = 1
    · subst heq
      decide
    · simp [adas, heq] at hn
  roomEvents := by decide
  playerInfo := by decide

theorem agrees_adas : adas.Agrees := by
  intro n roster hroster actorNo
  by_cases heq : n = 1
  · subst heq
    obtain rfl : Room.adas.game.getActorProps = roster := by simpa [adas] using hroster
    rw [view_getActorProps Room.reachable_adas.valid.actors]
    exact .inl rfl
  · simp [adas, heq] at hroster

/-- A request for a team, with an event. -/
def teamRequest (team : Value) : SetPropertiesRequest where
  broadcast := true
  properties := some (AList.insert (.string "team") team ∅)
  expectedValues := none

/-- Bob joins, puts Ada in his team, and is left alone. -/
theorem rosters_agree_iff_team :
    Always (step {}) Agrees adas
      [.connect 2 { userId := "bob", token := "b" }, .beginJoin 2 [] .continue,
        .completeJoin 2 { actorProperties := some (AList.insert (.string "team") (.int32 2) ∅) }
          true true,
        .setProperties 2 (teamRequest (.int32 2)) 1, .disconnect 1] := by
  refine (rosters_agree_iff {} sound_adas agrees_adas ?_).mpr
    ⟨trivial, trivial, trivial, ?_, trivial, trivial⟩
  · simp [PartyOp.Announced, teamRequest]
  · intro props ha _ table _ key value hvalue
    obtain rfl : _ = props := Option.some.inj ha.properties
    simp only [AList.lookup_insert_eq, AList.lookup_empty] at hvalue
    split at hvalue
    · next hkey =>
      subst hkey
      cases hvalue
      exact nofun
    · cases hvalue

/-- Bob's join comes to its end while the plugins still look at Carol's.  They turn her down, and
Bob goes on to show her. -/
theorem not_agrees_turned_down :
    ¬Always (step {}) Agrees adas
      [.connect 2 { userId := "bob", token := "b" }, .connect 3 { userId := "carol", token := "c" },
        .beginJoin 3 [] .continue, .beginJoin 2 [] .continue, .completeJoin 2 {} true true,
        .refuseJoin 3 []] := by
  intro halways
  rcases halways.last 3 _ rfl 2 with hview | ⟨-, hview⟩
  all_goals
    have hknows := congrArg Option.isSome hview
    revert hknows
    decide

end Party

end LuxonServer
