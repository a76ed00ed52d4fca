import Mathlib.Data.Int.Lemmas
import LuxonServer.Ipc
import LuxonServer.DataModel

/-! The events that the messages between processes are written as: what the senders put under which
key, and what `process_ipc_event` reads there. -/

namespace LuxonServer

/-- A parameter of an event: a `ser::Value`, or a table that the server looks into. -/
inductive EventValue where
  | plain (value : Value)
  | table (entries : Hashtable)
  deriving DecidableEq

namespace EventValue

/-- `get_ptr<T>()`; `none` is the null pointer. -/
def getPtr (t : ValueTag) : EventValue → Option (Value.Payload t)
  | plain value => Value.getPtr t value
  | table _ => none

/-- `get_or<HashtablePtr>(nullptr)`. -/
def getTable : EventValue → Option Hashtable
  | plain _ => none
  | table entries => some entries

end EventValue

/-- The keys under which the events have their parameters. -/
inductive EventKey where
  | gameId
  | broadcast
  | gameProperties
  | playerTtl
  | address
  | userId
  | applicationId
  | token
  | appVersion
  | lobbyName
  | lobbyType
  | revision
  | isCreating
  | isVisible
  | expectedUsers
  deriving DecidableEq, Repr

/-- The codes of the keys: those of the protocol, and then those of `IPCDictKeyCodes`. -/
def EventKey.code : EventKey → UInt8
  | gameId => 255
  | broadcast => 250
  | gameProperties => 248
  | playerTtl => 235
  | address => 230
  | userId => 225
  | applicationId => 224
  | token => 221
  | appVersion => 220
  | lobbyName => 213
  | lobbyType => 212
  | revision => 190
  | isCreating => 188
  | isVisible => 187
  | expectedUsers => 186

/-- No two keys collide. -/
theorem EventKey.code_injective : Function.Injective EventKey.code := by
  intro key key' heq
  cases key <;> cases key' <;> first | rfl | exact absurd heq (by decide)

/-- `ParameterList` of an event. -/
abbrev EventParameters := AList fun _ : UInt8 => EventValue

namespace EventParameters

/-- `params[key] = value`. -/
def set (key : EventKey) (value : EventValue) (params : EventParameters) : EventParameters :=
  params.insert key.code value

/-- A parameter that may be missing. -/
def setSome (key : EventKey) (value : Option EventValue) (params : EventParameters) :
    EventParameters :=
  value.elim params fun value => params.set key value

def get (key : EventKey) (params : EventParameters) : Option EventValue := params.lookup key.code

/-- `params[key].get_ptr<T>()`; a parameter that is not there is the null value. -/
def getPtr (key : EventKey) (t : ValueTag) (params : EventParameters) : Option (Value.Payload t) :=
  (params.get key).bind fun value => value.getPtr t

/-- `params[key].get_or<HashtablePtr>(nullptr)`. -/
def getTable (key : EventKey) (params : EventParameters) : Option Hashtable :=
  (params.get key).bind EventValue.getTable

/-- What a loop over the parameters reads with `val.get<T>()`, which throws (`none`) on another
alternative.  A key that is not there leaves the initial value. -/
def read (key : EventKey) (t : ValueTag) (initial : Value.Payload t) (params : EventParameters) :
    Option (Value.Payload t) :=
  (params.get key).elim (some initial) fun value => value.getPtr t

variable (key key' : EventKey) (params : EventParameters)

@[simp] theorem get_empty : get key ∅ = none := rfl

@[simp] theorem get_set (value : EventValue) :
    (params.set key' value).get key = if key = key' then some value else params.get key := by
  unfold get set
  by_cases hkey : key = key'
  · rw [if_pos hkey, hkey, AList.lookup_insert]
  · rw [if_neg hkey, AList.lookup_insert_ne fun heq => hkey (EventKey.code_injective heq)]

@[simp] theorem get_setSome (value : Option EventValue) :
    (params.setSome key' value).get key =
      if key = key' then value.or (params.get key) else params.get key := by
  cases value with
  | none => simp [setSome]
  | some value => simp [setSome]

end EventParameters

/-- `ser::EventMessage`, between processes. -/
structure IpcEvent where
  eventCode : UInt8
  parameters : EventParameters := ∅

/-- `IPCEventCodes`. -/
inductive IpcEventCode where
  | gameUpdate
  | gameDelete
  | persistentPeerStore
  | persistentPeerConsume
  deriving DecidableEq, Repr

def IpcEventCode.code : IpcEventCode → UInt8
  | gameUpdate => 0
  | gameDelete => 1
  | persistentPeerStore => 2
  | persistentPeerConsume => 3

/-- `static_cast<int64_t>` of a 64-bit counter. -/
def toInt64 (n : Nat) : Int := (n : Int).bmod (2 ^ 64)

namespace GameInfo

/-- `add_app_info`. -/
def addAppInfo (info : GameInfo) (params : EventParameters) : EventParameters :=
  let params := params.set .applicationId (.plain (.string info.appId))
  params.set .appVersion (.plain (.string info.appVersion))

/-- `add_lobby_info`. -/
def addLobbyInfo (info : GameInfo) (params : EventParameters) : EventParameters :=
  let params := params.set .lobbyName (.plain (.string info.lobbyName))
  let params := params.set .lobbyType (.plain (.byte info.lobbyType))
  info.addAppInfo params

/-- `add_game_info`. -/
def addGameInfo (info : GameInfo) (params : EventParameters) : EventParameters :=
  let params := params.set .gameId (.plain (.string info.id))
  let params := params.set .address (.plain (.string info.serverAddress))
  info.addLobbyInfo params

/-- `has_game_info`. -/
def hasGameInfo (info : GameInfo) : Bool := info.appId != "" && info.id != ""

/-- `encode_app_info`. -/
def encodeAppInfo (info : GameInfo) (params : EventParameters) : EventParameters :=
  if info.appId = "" then params else info.addAppInfo params

/-- `encode_lobby_info`. -/
def encodeLobbyInfo (info : GameInfo) (params : EventParameters) : EventParameters :=
  info.encodeAppInfo <|
    if info.appId = "" then params
    else
      let params := params.set .lobbyName (.plain (.string info.lobbyName))
      params.set .lobbyType (.plain (.byte info.lobbyType))

/-- `encode_game_info`. -/
def encodeGameInfo (info : GameInfo) (params : EventParameters) : EventParameters :=
  info.encodeLobbyInfo <|
    if info.hasGameInfo then
      let params := params.set .gameId (.plain (.string info.id))
      params.set .address (.plain (.string info.serverAddress))
    else params

/-- `decode_game_info`, with `decode_lobby_info` and `decode_app_info`; `none` where it throws. -/
def decode (params : EventParameters) : Option GameInfo := do
  let appId ← params.read .applicationId .string ""
  let appVersion ← params.read .appVersion .string ""
  let lobbyName ← params.read .lobbyName .string ""
  let lobbyType ← params.read .lobbyType .byte (0 : UInt8)
  let id ← params.read .gameId .string ""
  let serverAddress ← params.read .address .string ""
  return { appId, appVersion, lobbyName, lobbyType, id, serverAddress }

end GameInfo

/-- The event of a `GameUpdate`. -/
def GameUpdate.event (m : GameUpdate) : IpcEvent where
  eventCode := IpcEventCode.gameUpdate.code
  parameters :=
    let params := m.info.addGameInfo ∅
    let params := params.setSome .broadcast (m.created.map fun created => .plain (.bool created))
    let params := params.setSome .revision
      (m.revision.map fun revision => .plain (.int64 (revision.bmod (2 ^ 64))))
    let params := params.setSome .isCreating
      (m.creating.map fun creating => .plain (.bool creating))
    let params := params.setSome .expectedUsers
      (m.expectedUsers.map fun users => .plain (.stringArray users))
    let params := params.setSome .isVisible (m.visible.map fun visible => .plain (.bool visible))
    let params := params.setSome .gameProperties (m.gameProperties.map .table)
    if m.info.serverAddress = "" then params
    else params.set .address (.plain (.string m.info.serverAddress))

/-- The event of `trigger_lobby_update`. -/
def Game.gameUpdateEvent (g : Game) : IpcEvent where
  eventCode := IpcEventCode.gameUpdate.code
  parameters :=
    let params := g.info.addGameInfo ∅
    let params := params.set .broadcast (.plain (.bool g.isCreated))
    let params := params.set .revision (.plain (.int64 (toInt64 g.stateRevision)))
    let params := params.set .isCreating (.plain (.bool g.isCreating))
    let params := params.set .expectedUsers (.plain (.stringArray g.expectedUsers.toList))
    let params := params.set .isVisible (.plain (.bool g.isVisible))
    let params := params.set .gameProperties (.table g.getLobbyGameProps)
    if g.info.serverAddress = "" then params
    else params.set .address (.plain (.string g.info.serverAddress))

/-- The event of `~Game`. -/
def Game.gameDeleteEvent (g : Game) : IpcEvent where
  eventCode := IpcEventCode.gameDelete.code
  parameters := g.info.addGameInfo ∅

namespace PeerPersistent

/-- The event of `sync_persistent_peer`. -/
def storeEvent (pp : PeerPersistent) : IpcEvent where
  eventCode := IpcEventCode.persistentPeerStore.code
  parameters :=
    let params := EventParameters.set .token (.plain (.string pp.token)) ∅
    let params := params.set .userId (.plain (.string pp.userId))
    let params := params.set .playerTtl (.plain (.int32 pp.reconnectTtlMs))
    let params := params.set .revision (.plain (.int64 (toInt64 pp.storeGeneration)))
    if pp.hasInvitation then (pp.invitation.getD default).encodeGameInfo params
    else
      match pp.app with
      | none => params
      | some (appId, appVersion) =>
        GameInfo.addAppInfo { (default : GameInfo) with appId, appVersion } params

/-- The event of `load_persistent_peer`. -/
def consumeEvent (pp : PeerPersistent) : IpcEvent where
  eventCode := IpcEventCode.persistentPeerConsume.code
  parameters :=
    let params := EventParameters.set .token (.plain (.string pp.token)) ∅
    params.set .revision (.plain (.int64 (toInt64 pp.storeGeneration)))

end PeerPersistent

namespace IpcEvent

/-- The message that an event is read as, when it names what it is about. -/
def message (event : IpcEvent) : Option IpcMessage := do
  let params := event.parameters
  if event.eventCode = IpcEventCode.persistentPeerConsume.code then
    let token ← params.getPtr .token .string
    return .token (.consume token (params.getPtr .revision .int64))
  else if event.eventCode = IpcEventCode.gameDelete.code then
    let info ← GameInfo.decode params
    return .gameDelete info
  else if event.eventCode = IpcEventCode.gameUpdate.code then
    let info ← GameInfo.decode params
    return .gameUpdate
      { info
        created := params.getPtr .broadcast .bool
        revision := params.getPtr .revision .int64
        creating := params.getPtr .isCreating .bool
        expectedUsers := params.getPtr .expectedUsers .stringArray
        visible := params.getPtr .isVisible .bool
        gameProperties := params.getTable .gameProperties }
  else if event.eventCode = IpcEventCode.persistentPeerStore.code then
    let token ← params.getPtr .token .string
    let userId ← params.getPtr .userId .string
    let info ← GameInfo.decode params
    return .token
      (.store token userId (params.getPtr .playerTtl .int32) (params.getPtr .revision .int64) info)
  else none

end IpcEvent

/-- `process_ipc_event` on an event; `none` where it throws.  `released` are the rooms that lose
their last pointer on the way. -/
def ServerManager.processEvent (event : IpcEvent) (released : List GameRef) (sm : ServerManager) :
    Option (ServerManager × IpcActivity) :=
  let params := event.parameters
  let revision := params.getPtr .revision .int64
  if event.eventCode = IpcEventCode.persistentPeerConsume.code then
    match params.getPtr .token .string with
    | some token => some (sm.processIpcEvent (.token (.consume token revision)) released)
    | none => some (sm.dropGames released)
  else if event.eventCode = IpcEventCode.gameUpdate.code ∨
      event.eventCode = IpcEventCode.gameDelete.code then
    match GameInfo.decode params with
    | none => none
    | some info =>
      if event.eventCode = IpcEventCode.gameDelete.code then
        some (sm.processIpcEvent (.gameDelete info) released)
      else
        some (sm.processIpcEvent (.gameUpdate
          { info
            created := params.getPtr .broadcast .bool
            revision
            creating := params.getPtr .isCreating .bool
            expectedUsers := params.getPtr .expectedUsers .stringArray
            visible := params.getPtr .isVisible .bool
            gameProperties := params.getTable .gameProperties }) released)
  else if event.eventCode = IpcEventCode.persistentPeerStore.code then
    match params.getPtr .token .string, params.getPtr .userId .string with
    | some token, some userId =>
      -- a store that is stale is dropped before the names are read
      if sm.tokens.hasNewer token revision then some (sm.dropGames released)
      else
        match GameInfo.decode params with
        | none => none
        | some info =>
          some (sm.processIpcEvent
            (.token (.store token userId (params.getPtr .playerTtl .int32) revision info)) released)
    | _, _ => some (sm.dropGames released)
  else some (sm.dropGames released)

/-- A process does with an event what it does with the message that the event is read as. -/
theorem ServerManager.processEvent_of_message {event : IpcEvent} {m : IpcMessage}
    (hm : event.message = some m) (released : List GameRef) (sm : ServerManager) :
    sm.processEvent event released = some (sm.processIpcEvent m released) := by
  unfold IpcEvent.message at hm
  unfold processEvent
  by_cases hconsume : event.eventCode = IpcEventCode.persistentPeerConsume.code
  · rw [if_pos hconsume] at hm ⊢
    cases htoken : event.parameters.getPtr .token .string with
    | none => simp [htoken] at hm
    | some token =>
      simp only [htoken, Option.bind_eq_bind, Option.bind_some, Option.pure_def,
        Option.some.injEq] at hm
      rw [← hm]
  rw [if_neg hconsume] at hm ⊢
  by_cases hdelete : event.eventCode = IpcEventCode.gameDelete.code
  · rw [if_pos hdelete] at hm
    rw [if_pos (Or.inr hdelete)]
    cases hinfo : GameInfo.decode event.parameters with
    | none => simp [hinfo] at hm
    | some info =>
      simp only [hinfo, Option.bind_eq_bind, Option.bind_some, Option.pure_def,
        Option.some.injEq] at hm
      simp only [if_pos hdelete, ← hm]
  rw [if_neg hdelete] at hm
  by_cases hupdate : event.eventCode = IpcEventCode.gameUpdate.code
  · rw [if_pos hupdate] at hm
    rw [if_pos (Or.inl hupdate)]
    cases hinfo : GameInfo.decode event.parameters with
    | none => simp [hinfo] at hm
    | some info =>
      simp only [hinfo, Option.bind_eq_bind, Option.bind_some, Option.pure_def,
        Option.some.injEq] at hm
      simp only [if_neg hdelete, ← hm]
  rw [if_neg hupdate] at hm
  rw [if_neg (not_or.mpr ⟨hupdate, hdelete⟩)]
  by_cases hstore : event.eventCode = IpcEventCode.persistentPeerStore.code
  · rw [if_pos hstore] at hm ⊢
    cases htoken : event.parameters.getPtr .token .string with
    | none => simp [htoken] at hm
    | some token =>
      cases huser : event.parameters.getPtr .userId .string with
      | none => simp [htoken, huser] at hm
      | some userId =>
        cases hinfo : GameInfo.decode event.parameters with
        | none => simp [htoken, huser, hinfo] at hm
        | some info =>
          simp only [htoken, huser, hinfo, Option.bind_eq_bind, Option.bind_some, Option.pure_def,
            Option.some.injEq] at hm
          rw [← hm]
          by_cases hnewer : sm.tokens.hasNewer token (event.parameters.getPtr .revision .int64)
          · simp only [hnewer, if_true, processIpcEvent, TokenStore.receive]
          · simp only [hnewer, Bool.false_eq_true, if_false]
  · rw [if_neg hstore] at hm
    cases hm

theorem toInt64_of_lt {n : Nat} (hn : n < 2 ^ 63) : toInt64 n = n := by
  unfold toInt64
  rw [Int.bmod_eq_of_le] <;> omega

/-- A revision that the signed type has no room for is read as none. -/
theorem storedRevision_toInt64 {n : Nat} (hlow : 2 ^ 63 ≤ n) (hhigh : n < 2 ^ 64) :
    storedRevision (some (toInt64 n)) = none := by
  have hneg : ¬toInt64 n ≥ 0 := by
    unfold toInt64
    rw [Int.bmod_def, if_neg (by omega)]
    omega
  rw [storedRevision, Option.bind_some, if_neg hneg]

section Written

attribute [local simp] IpcEvent.message IpcEventCode.code GameInfo.decode GameInfo.addGameInfo
  GameInfo.addLobbyInfo GameInfo.addAppInfo EventParameters.getPtr EventParameters.getTable
  EventParameters.read EventValue.getPtr EventValue.getTable Value.getPtr

/-- What an event of an update is read as. -/
theorem message_event (m : GameUpdate) :
    m.event.message = some (.gameUpdate { m with
      revision := m.revision.map fun revision => revision.bmod (2 ^ 64) }) := by
  have hrevision : (m.revision.bind fun revision => some (revision.bmod (2 ^ 64))) =
      m.revision.map fun revision => revision.bmod (2 ^ 64) := by
    rw [Option.map_eq_bind]
    rfl
  by_cases haddress : m.info.serverAddress = ""
  · simp [GameUpdate.event, haddress, Option.bind_map, Function.comp_def]
    exact ⟨by rw [← haddress], hrevision⟩
  · simp [GameUpdate.event, haddress, Option.bind_map, Function.comp_def]
    exact hrevision

theorem message_gameUpdateEvent (g : Game) :
    g.gameUpdateEvent.message =
      some (.gameUpdate { g.gameUpdateMessage with revision := some (toInt64 g.stateRevision) }) :=
  message_event g.gameUpdateMessage

theorem message_gameDelete (info : GameInfo) :
    IpcEvent.message ⟨IpcEventCode.gameDelete.code, info.addGameInfo ∅⟩ =
      some (.gameDelete info) := by
  simp

variable {pp : PeerPersistent} (hfits : pp.storeGeneration < 2 ^ 63)

include hfits

theorem message_storeEvent :
    pp.storeEvent.message = some (.token (syncPersistentPeer pp)) := by
  by_cases hinvited : pp.hasInvitation = true
  · cases hinfo : pp.invitation with
    | none => simp [PeerPersistent.hasInvitation, hinfo] at hinvited
    | some info =>
      obtain ⟨happ, hid⟩ : info.appId ≠ "" ∧ info.id ≠ "" := by
        simpa [PeerPersistent.hasInvitation, hinfo] using hinvited
      have hnames : info.hasGameInfo = true := by simp [GameInfo.hasGameInfo, happ, hid]
      simp [PeerPersistent.storeEvent, GameInfo.encodeGameInfo, GameInfo.encodeLobbyInfo,
        GameInfo.encodeAppInfo, syncPersistentPeer, hinvited, hinfo, hnames, happ,
        toInt64_of_lt hfits]
  · cases happ : pp.app with
    | none =>
      simp [PeerPersistent.storeEvent, syncPersistentPeer, hinvited, happ, toInt64_of_lt hfits]
      rfl
    | some app =>
      simp [PeerPersistent.storeEvent, syncPersistentPeer, hinvited, happ, toInt64_of_lt hfits]
      exact ⟨rfl, rfl, rfl, rfl⟩

theorem message_consumeEvent :
    pp.consumeEvent.message = some (.token (.consume pp.token (some pp.storeGeneration))) := by
  simp [PeerPersistent.consumeEvent, toInt64_of_lt hfits]

end Written

section Revision

variable {r r' : Option Int} (hread : storedRevision r = storedRevision r')

include hread

/-- Of the revision of a message only its reading counts. -/
theorem Game.receiveUpdate_revision (settings : AppSettings) (isNew : Bool) (m : GameUpdate)
    (g : Game) :
    g.receiveUpdate settings isNew { m with revision := r } =
      g.receiveUpdate settings isNew { m with revision := r' } := by
  have hremote : Game.remoteRevision { m with revision := r } =
      Game.remoteRevision { m with revision := r' } := hread
  have haccepts : g.acceptsUpdate isNew { m with revision := r } =
      g.acceptsUpdate isNew { m with revision := r' } := by
    simp only [Game.acceptsUpdate, hremote]
  have hflags : g.applyUpdateFlags { m with revision := r } =
      g.applyUpdateFlags { m with revision := r' } := by
    simp only [Game.applyUpdateFlags, hremote]
  have hstate : g.applyUpdateState { m with revision := r } =
      g.applyUpdateState { m with revision := r' } := by
    simp only [Game.applyUpdateState, hflags]
  unfold Game.receiveUpdate Game.applyUpdate
  rw [haccepts, hstate]
  rfl

theorem Process.processGameUpdate_revision (m : GameUpdate) (p : Process) :
    p.processGameUpdate { m with revision := r } =
      p.processGameUpdate { m with revision := r' } := by
  have hfind : p.findGame { m with revision := r } = p.findGame { m with revision := r' } := rfl
  simp only [Process.processGameUpdate, hfind, Process.updateGame,
    Game.receiveUpdate_revision hread]

end Revision

/-- The revision of an event is read as this one. -/
def readRevision (n : Nat) : Option Int := if n < 2 ^ 63 then some n else none

theorem storedRevision_readRevision {n : Nat} (hn : n < 2 ^ 64) :
    storedRevision (some (toInt64 n)) = storedRevision (readRevision n) := by
  unfold readRevision
  split
  · next hlow => rw [toInt64_of_lt hlow]
  · next hlow =>
    rw [storedRevision_toInt64 (Nat.le_of_not_lt hlow) hn, storedRevision, Option.bind_none]

/-- Every process does with the events of a process what it does with the messages that they are
to say, as long as the counters fit into the signed type; an update of a later revision counts as
one without a revision. -/
theorem ServerManager.events_read_back (released : List GameRef) (sm : ServerManager) :
    (∀ g : Game, g.stateRevision < 2 ^ 64 →
      sm.processEvent g.gameUpdateEvent released = some (sm.processIpcEvent (.gameUpdate
        { g.gameUpdateMessage with revision := readRevision g.stateRevision }) released)) ∧
    (∀ g : Game, sm.processEvent g.gameDeleteEvent released =
      some (sm.processIpcEvent (.gameDelete g.info) released)) ∧
    ∀ pp : PeerPersistent, pp.storeGeneration < 2 ^ 63 →
      sm.processEvent pp.storeEvent released =
        some (sm.processIpcEvent (.token (syncPersistentPeer pp)) released) ∧
      sm.processEvent pp.consumeEvent released = some (sm.processIpcEvent
        (.token (.consume pp.token (some pp.storeGeneration))) released) := by
  refine ⟨fun g hbound => ?_, fun g => ?_, fun pp hfits => ⟨?_, ?_⟩⟩
  · rw [processEvent_of_message (message_gameUpdateEvent g)]
    simp only [processIpcEvent,
      Process.processGameUpdate_revision (storedRevision_readRevision hbound)]
  · exact processEvent_of_message (message_gameDelete g.info) released sm
  · exact processEvent_of_message (message_storeEvent hfits) released sm
  · exact processEvent_of_message (message_consumeEvent hfits) released sm

/-- A process that has just started stores the record of Ada, whose room is at a revision that the
signed type has no room for. -/
theorem ServerManager.events_read_back_late :
    let sm : ServerManager := { process := Process.idle }
    let ada : PeerPersistent := { userId := "ada", token := "a", app := some ("app", "1.0") }
    let g : Game :=
      { (Process.ownerAfter []) with stateRevision := 2 ^ 63 }
    sm.processEvent g.gameUpdateEvent [] = some (sm.processIpcEvent (.gameUpdate
      { g.gameUpdateMessage with revision := none }) []) ∧
    sm.processEvent ada.storeEvent [] =
      some (sm.processIpcEvent (.token (syncPersistentPeer ada)) []) := by
  intro sm ada g
  obtain ⟨hupdate, -, htoken⟩ := ServerManager.events_read_back [] sm
  exact ⟨hupdate g (by decide), (htoken ada (by decide)).1⟩

end LuxonServer
