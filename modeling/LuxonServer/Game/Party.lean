import LuxonServer.Game.ActorProps

/-! The players of a room as its clients know them: what a client is told when it joins, and what
the events say to it after that.  Other clients join, leave and set properties while the plugins
still look at a join. -/

namespace LuxonServer

open Transition

namespace Roster

/-- The roster that the answer to a join tells. -/
def ofJoin (response : JoinResponse) : Roster :=
  match response.actorProperties with
  | some roster => roster
  | none => response.actorList.foldl (fun roster actorNo => AList.insert actorNo ∅ roster) ∅

def onJoin (event : JoinEvent) (roster : Roster) : Roster :=
  AList.insert event.actorNo (event.actorProperties.getD ∅) roster

def onLeave (event : LeaveEvent) (roster : Roster) : Roster :=
  AList.erase event.senderActorId roster

/-- A client takes no notice of the properties of an actor that it has not heard of. -/
def onUpdate (deleteNull : Bool) (event : PropertyUpdateEvent) (roster : Roster) : Roster :=
  if event.targetActorNo = 0 then roster
  else
    match roster.lookup event.targetActorNo with
    | none => roster
    | some props =>
      AList.insert event.targetActorNo (overwrite deleteNull event.properties props) roster

end Roster

/-- A room, its connections, and the rosters of the actors whose clients have had the answer to
their join. -/
structure Party where
  heap : PeerHeap
  game : Game
  rosters : Int → Option Roster

/-- What happens in a room that is created.  Between `beginJoin` and `completeJoin` or `refuseJoin`
the plugins have the join. -/
inductive PartyOp where
  | connect (peer : PeerRef) (persistent : PeerPersistent)
  | beginJoin (peer : PeerRef) (expectedUsers : List String) (beforeJoin : GamePluginResult)
  | completeJoin (peer : PeerRef) (request : JoinRequest)
      (publishUserId broadcastActorProps : Bool)
  | refuseJoin (peer : PeerRef) (added : List (String × Nat))
  | setProperties (peer : PeerRef) (request : SetPropertiesRequest) (actorNo : Int)
  | disconnect (peer : PeerRef)

/-- The room is told of it, as far as that is for the request or the plugins to say. -/
def PartyOp.Announced : PartyOp → Prop
  | .completeJoin _ _ _ broadcastActorProps => broadcastActorProps = true
  | .setProperties _ request _ => request.broadcast = true
  | _ => True

namespace Party

/-- The actors that `broadcast_event` reaches. -/
def reached (h : PeerHeap) (group : UInt8) (senderActorId : Int) (g : Game) : List Int :=
  ((g.recipients { code := propertiesUpdateCode, senderActorId, receivers := .group group }).filter
    fun gp => (h.lock gp.peer).isSome).map (·.actorId)

/-- Some clients hear of an event. -/
def hear (actors : List Int) (change : Roster → Roster) (rosters : Int → Option Roster) :
    Int → Option Roster :=
  fun actorNo => if actorNo ∈ actors then (rosters actorNo).map change else rosters actorNo

/-- A client that has set properties knows from the answer, where the event goes to the others. -/
def hearUpdate (h : PeerHeap) (g : Game) (event : PropertyUpdateEvent)
    (rosters : Int → Option Roster) : Int → Option Roster :=
  let group := match event.receivers with
    | .all => allGroup
    | .others => othersGroup
  hear (event.senderActorId :: reached h group event.senderActorId g)
    (Roster.onUpdate (GameFlag.deleteNullProps.isSet g.flags) event) rosters

/-- The join of an actor that the plugins have agreed to. -/
def complete (p : Party) (peer : PeerRef) (actorNo : Int) (request : JoinRequest)
    (publishUserId broadcastActorProps : Bool) : Party :=
  let game := p.game.completeJoin p.heap (some peer) request { publishUserId }
  let rosters := Function.update p.rosters actorNo
    (some (.ofJoin (game.joinResponse actorNo broadcastActorProps)))
  { p with
    game
    rosters :=
      match game.joinEvent actorNo broadcastActorProps with
      | none => rosters
      | some event => hear (reached p.heap allGroup actorNo game) (Roster.onJoin event) rosters }

def step (settings : AppSettings) (p : Party) : PartyOp → Party
  | .connect peer persistent =>
    if p.heap peer = .unused then
      { p with heap := Function.update p.heap peer (.live { persistent := some persistent }) }
    else p
  | .beginJoin peer expectedUsers beforeJoin =>
    match p.heap.userId (some peer) with
    | none => p
    | some userId =>
      if (p.game.actorIdForPeer p.heap (some peer)).isSome then p
      else
        match p.game.beginJoin p.heap settings (some peer) userId expectedUsers beforeJoin with
        | .refused _ game => { p with game }
        | .admitted _ game => { p with game }
  | .completeJoin peer request publishUserId broadcastActorProps =>
    match p.game.actorIdForPeer p.heap (some peer) with
    | none => p
    | some actorNo =>
      if (p.rosters actorNo).isSome then p
      else p.complete peer actorNo request publishUserId broadcastActorProps
  | .refuseJoin peer added =>
    match p.game.actorIdForPeer p.heap (some peer) with
    | none => p
    | some actorNo =>
      if (p.rosters actorNo).isSome then p
      else { p with game := p.game.refuseJoin p.heap (some peer) added }
  | .setProperties peer request actorNo =>
    let out :=
      if actorNo = 0 then p.game.setProperties p.heap settings (some peer) request
      else p.game.setActorProperties p.heap (some peer) request actorNo
    { p with
      game := out.game
      rosters :=
        match out.event with
        | none => p.rosters
        | some event => hearUpdate p.heap out.game event p.rosters }
  | .disconnect peer =>
    let out := p.game.handleDisconnect p.heap (some peer) 0
    { heap := Function.update p.heap peer .dead
      game := out.game
      rosters :=
        match p.game.actorIdForPeer p.heap (some peer) with
        | none => p.rosters
        | some actorNo =>
          let rosters := Function.update p.rosters actorNo none
          match out.leaveEvent with
          | none => rosters
          | some event =>
            hear (reached p.heap allGroup actorNo out.game) (Roster.onLeave event) rosters }

/-- A room that tells its clients who comes and goes. -/
structure Sound (p : Party) : Prop where
  actors : p.game.ActorsSound
  peers : p.game.PeersSound p.heap
  rosters : ∀ actorNo, (p.rosters actorNo).isSome → actorNo ∈ p.game.actorIds
  roomEvents : GameFlag.suppressRoomEvents.isSet p.game.flags = false
  playerInfo : GameFlag.suppressPlayerInfo.isSet p.game.flags = false

/-- The actor's client has not had the answer to its join. -/
def Joining (p : Party) (actorNo : Int) : Prop :=
  actorNo ∈ p.game.actorIds ∧ p.rosters actorNo = none

/-- Every client knows the properties of the actors as the room does; of an actor that is still
joining it may know nothing. -/
def Agrees (p : Party) : Prop :=
  ∀ n roster, p.rosters n = some roster → ∀ actorNo,
    roster.view actorNo = p.game.actorTable actorNo ∨
      p.Joining actorNo ∧ roster.view actorNo = none

/-- The room accepts an update of an actor's properties. -/
structure Accepts (p : Party) (peer : PeerRef) (request : SetPropertiesRequest) (actorNo : Int)
    (props : Hashtable) : Prop where
  target : actorNo ≠ 0
  sender : (p.game.actorIdForPeer p.heap (some peer)).isSome
  properties : request.properties = some props
  nonempty : props.entries ≠ []
  applied : ∃ game,
    p.game.applyActorProps actorNo props request.expectedValues = some (true, game)

/-- What an entry of an update says is what becomes of the property: the null key is deleted, or has
the value already; and under any other key the value is one that stays in the table. -/
def EchoedActor (deleteNull : Bool) (table : Props) (key value : Value) : Prop :=
  match key with
  | .null => if deleteNull then value = .null else table .null = some value
  | _ => ¬(deleteNull = true ∧ value = .null)

/-- A client that hears of it ends up with what the room has. -/
def Faithful (p : Party) : PartyOp → Prop
  | .setProperties peer request actorNo =>
    ∀ props, p.Accepts peer request actorNo props →
      (∃ n roster, p.rosters n = some roster ∧ (roster.view actorNo).isSome) →
      ∀ table, p.game.actorTable actorNo = some table → ∀ key value,
        props.lookup key = some value →
          EchoedActor (GameFlag.deleteNullProps.isSet p.game.flags) table key value
  | .refuseJoin peer _ =>
    ∀ actorNo, p.game.actorIdForPeer p.heap (some peer) = some actorNo →
      p.rosters actorNo = none → ∀ n roster, p.rosters n = some roster →
        roster.view actorNo = none
  | _ => True

end Party

end LuxonServer
