import LuxonServer.Lib.Run
import LuxonServer.Lib.Network
import LuxonServer.Peer

/-! Login tokens: the records of `peer_persistent_data` in each process, and the messages by which
the processes copy and consume them. -/

namespace LuxonServer

/-- `has_invitation`. -/
def PeerPersistent.hasInvitation (pp : PeerPersistent) : Bool :=
  pp.invitation.any fun info => info.appId != "" && info.id != ""

/-- The messages about tokens.  What the receiver reads as optional is optional here. -/
inductive TokenMessage where
  /-- `PersistentPeerStore`. -/
  | store (token userId : String) (playerTtl : Option Int) (revision : Option Int) (info : GameInfo)
  /-- `PersistentPeerConsume`. -/
  | consume (token : String) (revision : Option Int)
  deriving DecidableEq, Repr

/-- The revision of a message; a negative one counts as absent. -/
def storedRevision (revision : Option Int) : Option Nat :=
  revision.bind fun r => if r ≥ 0 then some r.toNat else none

/-- The task that ends the time of a record. -/
structure RecordExpiry where
  ttlMs : Int
  token : String
  storeGeneration : Nat
  deriving DecidableEq, Repr

/-- The records that a process holds, with its counter of stores.  `hasApp` tells for which apps
`get_app` succeeds. -/
structure TokenStore where
  nextStoreGeneration : Nat := 0
  stored : List PeerPersistent := []
  expiries : List RecordExpiry := []
  hasApp : String × String → Bool := fun _ => true

/-- `sync_persistent_peer`, the message that is broadcast. -/
def syncPersistentPeer (pp : PeerPersistent) : TokenMessage :=
  let appInfo : GameInfo :=
    match pp.app with
    | none => default
    | some (appId, appVersion) => { (default : GameInfo) with appId, appVersion }
  .store pp.token pp.userId (some pp.reconnectTtlMs) (some pp.storeGeneration)
    (if pp.hasInvitation then pp.invitation.getD default else appInfo)

namespace TokenMessage

/-- The token that a message is about. -/
def token : TokenMessage → String
  | .store token _ _ _ _ | .consume token _ => token

/-- Whether a consume takes the record of a token with a generation away. -/
def takes (token : String) (generation : Nat) : TokenMessage → Bool
  | .store _ _ _ _ _ => false
  | .consume consumed revision =>
    token == consumed && (storedRevision revision).all fun r => generation ≤ r

end TokenMessage

namespace TokenStore

/-- `store_persistent_peer`. -/
def storePersistentPeer (pp : PeerPersistent) (ts : TokenStore) : TokenStore :=
  if pp.app = none then ts
  else
    let storeGeneration := ts.nextStoreGeneration + 1
    { ts with
      nextStoreGeneration := storeGeneration
      stored := ts.stored.filter (fun value => value.token != pp.token) ++ [{ pp with storeGeneration }]
      expiries :=
        if pp.reconnectTtlMs ≥ 0 then
          ts.expiries ++ [⟨max 30000 pp.reconnectTtlMs, pp.token, storeGeneration⟩]
        else ts.expiries }

/-- `load_persistent_peer`, with the token that the record gets if it is refreshed, and the
messages that are broadcast. -/
def loadPersistentPeer (token : String) (fresh : Option String) (ts : TokenStore) :
    Option PeerPersistent × TokenStore × List TokenMessage :=
  match ts.stored.find? fun pp => pp.token == token with
  | none => (none, ts, [])
  | some pp =>
    (some { pp with token := fresh.getD pp.token },
      { ts with stored := ts.stored.eraseP fun pp => pp.token == token },
      [.consume pp.token (some pp.storeGeneration)])

/-- Whether a record is newer than a store that arrives. -/
def hasNewer (token : String) (revision : Option Int) (ts : TokenStore) : Bool :=
  (storedRevision revision).any fun r =>
    ts.stored.any fun existing => existing.token == token && existing.storeGeneration > r

/-- Whether a message makes the process store a record. -/
def accepts (ts : TokenStore) : TokenMessage → Bool
  | .store token _ _ revision info =>
    !ts.hasNewer token revision && ts.hasApp (info.appId, info.appVersion)
  | .consume _ _ => false

/-- `process_ipc_event` on a message about a token. -/
def receive (m : TokenMessage) (ts : TokenStore) : TokenStore :=
  match m with
  | .consume _ _ =>
    { ts with stored := ts.stored.filter fun pp => !m.takes pp.token pp.storeGeneration }
  | .store token userId playerTtl revision info =>
    if ts.hasNewer token revision then ts
    else if ts.hasApp (info.appId, info.appVersion) then
      ts.storePersistentPeer
        { userId
          token
          reconnectTtlMs := playerTtl.getD 30000
          storeGeneration := (storedRevision revision).getD 0
          app := some (info.appId, info.appVersion)
          invitation := some info }
    else ts

/-- A scheduled task runs. -/
def expire (task : RecordExpiry) (ts : TokenStore) : TokenStore :=
  if task ∈ ts.expiries then
    { ts with
      expiries := ts.expiries.erase task
      stored := ts.stored.filter fun value =>
        !(value.token == task.token && value.storeGeneration == task.storeGeneration) }
  else ts

end TokenStore

/-- What happens to the tokens in a network of processes. -/
inductive TokenOp (ν : Type*) where
  | store (n : ν) (pp : PeerPersistent)
  | sync (n : ν) (pp : PeerPersistent)
  | load (n : ν) (token : String) (fresh : Option String)
  | deliver (a b : ν)
  | expire (n : ν) (task : RecordExpiry)

namespace TokenOp

variable {ν : Type*} [DecidableEq ν]

def step (linked : ν → ν → Bool) (net : Network ν TokenStore TokenMessage) :
    TokenOp ν → Network ν TokenStore TokenMessage
  | .store n pp => net.modify n fun ts => ts.storePersistentPeer pp
  | .sync n pp => net.broadcast linked n (syncPersistentPeer pp)
  | .load n token fresh =>
    let (_, ts, messages) := (net.node n).loadPersistentPeer token fresh
    messages.foldl (fun net m => net.broadcast linked n m) (net.modify n fun _ => ts)
  | .deliver a b => net.deliver TokenStore.receive a b
  | .expire n task => net.modify n fun ts => ts.expire task

end TokenOp

namespace TokenStore

variable {ts : TokenStore} {pp : PeerPersistent} {m : TokenMessage}

/-- No token has two records. -/
def Distinct (ts : TokenStore) : Prop := (ts.stored.map PeerPersistent.token).Nodup

theorem not_takes_of_accepts (haccepts : ts.accepts m = true) (token : String)
    (generation : Nat) : m.takes token generation = false := by
  cases m with
  | store => rfl
  | consume => cases haccepts

theorem mem_storePersistentPeer (happ : pp.app ≠ none) {value : PeerPersistent} :
    value ∈ (ts.storePersistentPeer pp).stored ↔
      value ∈ ts.stored ∧ value.token ≠ pp.token ∨
        value = { pp with storeGeneration := ts.nextStoreGeneration + 1 } := by
  simp [storePersistentPeer, happ]

theorem Distinct.storePersistentPeer (hts : ts.Distinct) (pp : PeerPersistent) :
    (ts.storePersistentPeer pp).Distinct := by
  unfold TokenStore.storePersistentPeer
  split
  · exact hts
  · unfold Distinct
    rw [List.map_append, List.map_singleton, List.nodup_append]
    refine ⟨hts.sublist (List.filter_sublist.map _), List.nodup_singleton _, ?_⟩
    rintro token htoken _ hlast rfl
    obtain ⟨value, hvalue, rfl⟩ := List.mem_map.mp htoken
    have hother := (List.mem_filter.mp hvalue).2
    simp only [List.mem_singleton] at hlast
    simp [hlast] at hother

theorem Distinct.eraseP_eq (hts : ts.Distinct) (token : String) :
    ts.stored.eraseP (fun pp => pp.token == token) =
      ts.stored.filter fun pp => pp.token != token := by
  unfold Distinct at hts
  generalize ts.stored = stored at hts
  induction stored with
  | nil => rfl
  | cons pp stored ih =>
    rw [List.map_cons, List.nodup_cons] at hts
    by_cases hpp : pp.token = token
    · have hrest : ∀ value ∈ stored, (value.token != token) = true := by
        intro value hvalue
        rw [bne_iff_ne]
        rintro rfl
        exact hts.1 (hpp ▸ List.mem_map_of_mem hvalue)
      rw [List.eraseP_cons_of_pos (by simp [hpp]), List.filter_cons_of_neg (by simp [hpp]),
        List.filter_eq_self.mpr hrest]
    · rw [List.eraseP_cons_of_neg (by simp [hpp]), List.filter_cons_of_pos (by simp [hpp]),
        ih hts.2]

/-- A load takes the only record of the token, or finds none. -/
theorem loadPersistentPeer_cases (hts : ts.Distinct) (token : String) (fresh : Option String) :
    (∀ value ∈ ts.stored, value.token ≠ token) ∧
        ts.loadPersistentPeer token fresh = (none, ts, []) ∨
      ∃ pp ts', pp ∈ ts.stored ∧ pp.token = token ∧
        (∀ value, value ∈ ts'.stored ↔ value ∈ ts.stored ∧ value.token ≠ token) ∧
        ts'.Distinct ∧ ts'.nextStoreGeneration = ts.nextStoreGeneration ∧
        ts.loadPersistentPeer token fresh =
          (some { pp with token := fresh.getD pp.token }, ts',
            [.consume token (some pp.storeGeneration)]) := by
  unfold TokenStore.loadPersistentPeer
  cases hfind : ts.stored.find? fun pp => pp.token == token with
  | none =>
    refine Or.inl ⟨fun value hvalue => ?_, rfl⟩
    simpa using List.find?_eq_none.mp hfind value hvalue
  | some pp =>
    have hpp : pp.token = token := by simpa using List.find?_some hfind
    refine Or.inr ⟨pp, { ts with stored := ts.stored.eraseP fun pp => pp.token == token },
      List.mem_of_find?_eq_some hfind, hpp, fun value => ?_, ?_, rfl, by rw [← hpp]⟩
    · simp [hts.eraseP_eq]
    · exact hts.sublist ((List.eraseP_sublist).map _)

/-- A record that is loaded leaves the store. -/
theorem perm_of_loadPersistentPeer {token : String} {fresh : Option String} {after : TokenStore}
    {loaded : PeerPersistent} {messages : List TokenMessage}
    (h : ts.loadPersistentPeer token fresh = (some loaded, after, messages)) :
    ∃ pp, loaded = { pp with token := fresh.getD pp.token } ∧
      ts.stored.Perm (pp :: after.stored) := by
  unfold TokenStore.loadPersistentPeer at h
  split at h
  · cases h
  · next pp hfind =>
    cases h
    obtain ⟨hpp, before, rest, hstored, hbefore⟩ := List.find?_eq_some_iff_append.mp hfind
    have herase : ts.stored.eraseP (fun pp => pp.token == token) = before ++ rest := by
      rw [hstored, List.eraseP_append_right _ fun value hvalue => by simpa using hbefore value hvalue,
        List.eraseP_cons, hpp, cond_true]
    refine ⟨pp, rfl, ?_⟩
    simp only [herase]
    rw [hstored]
    exact List.perm_middle

theorem receive_cases (m : TokenMessage) (ts : TokenStore) :
    ts.accepts m = false ∧
        (∀ value, value ∈ (ts.receive m).stored ↔
          value ∈ ts.stored ∧ m.takes value.token value.storeGeneration = false) ∧
        (ts.receive m).nextStoreGeneration = ts.nextStoreGeneration ∨
      ts.accepts m = true ∧ ∃ pp, pp.token = m.token ∧ pp.app ≠ none ∧
        ts.receive m = ts.storePersistentPeer pp := by
  cases m with
  | consume token revision =>
    refine Or.inl ⟨rfl, fun value => ?_, rfl⟩
    simp [receive]
  | store token userId playerTtl revision info =>
    unfold receive accepts
    by_cases hnewer : ts.hasNewer token revision = true
    · simp [hnewer, TokenMessage.takes]
    · by_cases happ : ts.hasApp (info.appId, info.appVersion) = true
      · let pp : PeerPersistent :=
          { userId
            token
            reconnectTtlMs := playerTtl.getD 30000
            storeGeneration := (storedRevision revision).getD 0
            app := some (info.appId, info.appVersion)
            invitation := some info }
        refine Or.inr ⟨by simp [hnewer, happ], pp, rfl, nofun, ?_⟩
        simp only [hnewer, happ, if_true, Bool.false_eq_true, if_false, pp]
      · simp [hnewer, happ, TokenMessage.takes]

theorem Distinct.receive (hts : ts.Distinct) (m : TokenMessage) : (ts.receive m).Distinct := by
  cases m with
  | consume token revision => exact hts.sublist (List.filter_sublist.map _)
  | store token userId playerTtl revision info =>
    simp only [TokenStore.receive]
    split
    · exact hts
    · split
      · exact hts.storePersistentPeer _
      · exact hts

theorem expire_sublist (task : RecordExpiry) (ts : TokenStore) :
    (ts.expire task).stored.Sublist ts.stored := by
  unfold expire
  split
  · exact List.filter_sublist
  · exact List.Sublist.refl _

end TokenStore

end LuxonServer
