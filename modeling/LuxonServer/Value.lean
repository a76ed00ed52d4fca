import LuxonServer.Lib.ListSet

/-! The values and property tables of the serialization layer, as far as the server looks into
them, and the protocol's codes. -/

namespace LuxonServer

/-- `ser::Value`, a tagged union.  A payload of an alternative that the server never looks into is
`other`: the tag of the alternative and the payload's encoding. -/
inductive Value where
  | null
  | byte (v : UInt8)
  | bool (v : Bool)
  | int16 (v : Int)
  | int32 (v : Int)
  | int64 (v : Int)
  | string (v : String)
  | stringArray (v : List String)
  | other (tag : UInt8) (encoding : List UInt8)
  deriving DecidableEq, Repr, Inhabited

/-- `ser::Hashtable`, in the order in which a loop over it meets its entries. -/
abbrev Hashtable := AList fun _ : Value => Value

/-- `get_ptr<uint8_t>`. -/
def Value.byte? : Value → Option UInt8
  | .byte v => some v
  | _ => none

/-- `fres.emplace(key, value)`: an entry that is there already stays. -/
def Hashtable.emplace (key value : Value) (table : Hashtable) : Hashtable :=
  if key ∈ table then table else table.insert key value

theorem Hashtable.lookup_emplace (k key value : Value) (table : Hashtable) :
    (Hashtable.emplace key value table).lookup k =
      if k = key ∧ key ∉ table then some value else table.lookup k := by
  unfold Hashtable.emplace
  by_cases hmem : key ∈ table
  · simp [hmem]
  · simp only [hmem, if_false, AList.lookup_insert_eq, not_false_eq_true, and_true]

/-- The codes of the room flags, one bit each. -/
inductive GameFlag where
  | checkUserOnJoin
  | deleteCacheOnLeave
  | suppressRoomEvents
  | publishUserId
  | deleteNullProps
  | broadcastPropsChangeToAll
  | suppressPlayerInfo
  deriving DecidableEq, Repr

namespace GameFlag

def bit : GameFlag → UInt8
  | checkUserOnJoin => 1
  | deleteCacheOnLeave => 2
  | suppressRoomEvents => 4
  | publishUserId => 8
  | deleteNullProps => 16
  | broadcastPropsChangeToAll => 32
  | suppressPlayerInfo => 64

/-- `flags & flag`. -/
def isSet (flag : GameFlag) (flags : UInt8) : Bool := flags &&& flag.bit != 0

/-- The handler's `set_flag`: a flag that the request does not mention stays as it is. -/
def assign (flag : GameFlag) (value : Option Bool) (flags : UInt8) : UInt8 :=
  match value with
  | none => flags
  | some true => flags ||| flag.bit
  | some false => flags &&& ~~~flag.bit

end GameFlag

/-- The return codes that the room operations answer with. -/
inductive ErrorCode where
  | ok
  | gameIdNotExists
  | gameIdAlreadyExists
  | gameClosed
  | gameFull
  | actorListFull
  | joinFailedPeerAlreadyJoined
  | serverFull
  deriving DecidableEq, Repr

/-- `ActorProps::UserId`, the key of an actor's published user id. -/
def userIdKey : Value := .byte 253

/-- `GameProps::PlayerCount`, the key of the derived player count. -/
def playerCountKey : Value := .byte 252

/-- `AppSettings`, as far as the rooms read them; `0` stands for no limit. -/
structure AppSettings where
  maxPeersPerGame : Nat := 0
  maxGameCount : Nat := 0
  allowChangeMaster : Bool := true
  deriving DecidableEq, Repr, Inhabited

/-- `GameInfo`: what names a room, with its lobby and its app. -/
structure GameInfo where
  appId : String
  appVersion : String
  lobbyName : String
  lobbyType : UInt8
  id : String
  serverAddress : String
  deriving DecidableEq, Repr, Inhabited

end LuxonServer
