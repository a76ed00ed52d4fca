import LuxonServer.Hosting.Instance

/-! The caps on connections and on the sessions of an app.  An app counts the stored tokens and the
players in its rooms, so it misses the clients that are connected and in no room; the process counts
the connection that asks along with the others. -/

namespace LuxonServer

namespace AuthSettings

/-- Whether an app gives out an identity itself. -/
def Grants (settings : AuthSettings) (authType : UInt8) : Prop :=
  settings.authMode = .weak ∨ settings.authMode = .anonymous ∧ authType = 0

def IsFull (settings : AuthSettings) (count : Nat) : Prop :=
  settings.maxPeers ≠ 0 ∧ count ≥ settings.maxPeers

end AuthSettings

def StandardAuthParams.app (params : StandardAuthParams) : AppKey :=
  (params.applicationId, params.version)

/-- The response of an authentication that fails at once. -/
def AuthProgress.refused : AuthProgress → Option AuthResponse
  | .returned (.error resp) => some resp
  | _ => none

namespace AuthRequest

variable {otherName : UInt8 → String} {req : AuthRequest otherName} {server : AuthServer}
  {random : AuthRandom}

/-- A request decodes, and its app is there and has `count` peers. -/
structure AsksFor (req : AuthRequest otherName) (server : AuthServer) (params : StandardAuthParams)
    (settings : AuthSettings) (count : Nat) : Prop where
  decoded : req.standardParams = .ok params
  app : server.getApp params.applicationId params.version = some (settings, count)

theorem AsksFor.unique {params params' : StandardAuthParams} {settings settings' : AuthSettings}
    {count count' : Nat} (h : req.AsksFor server params settings count)
    (h' : req.AsksFor server params' settings' count') :
    params' = params ∧ settings' = settings ∧ count' = count := by
  have hparams := h'.decoded
  rw [h.decoded] at hparams
  cases hparams
  have happ := h'.app
  rw [h.app] at happ
  cases happ
  exact ⟨rfl, rfl, rfl⟩

theorem not_maxCcuReached_of_decode {W : WireFormat} {ps : Model W} {operationCode : UInt8}
    {parameters : ParameterList W} (hkeys : (ps.map (·.wireKey)).Nodup) {e : DecodeError}
    (h : Model.decode ps operationCode parameters = .error e) : e.returnCode ≠ maxCcuReached := by
  have hcheck : ∀ (p : Parameter W) (src : Option W.Value) (e : DecodeError),
      p.checkOne operationCode (p.decoded operationCode src) = some e → e.returnCode = -2 := by
    intro p src e he
    unfold Parameter.checkOne at he
    split at he
    · next e' herr =>
      cases he
      cases src with
      | none => cases herr
      | some v =>
        simp only [Parameter.decoded, Option.elim_some, Parameter.decodeOneInto] at herr
        split at herr
        · split at herr
          · cases herr
          · split at herr
            · cases herr
              rfl
            · cases herr
        · split at herr
          · cases herr
            rfl
          · split at herr
            · split at herr
              · cases herr
              · cases herr
                rfl
            · cases herr
    · split at he
      · cases he
        rfl
      · cases he
  have hfail : ∀ (qs : List (Parameter W)) (src : ∀ p : Parameter W, Option W.Value)
      (e : DecodeError), Model.fail operationCode qs
        (Fields.ofFn (fun p => p.decoded operationCode (src p)) qs) = some e →
      e.returnCode = -2 := by
    intro qs src e he
    induction qs with
    | nil => cases he
    | cons p qs ih =>
      rw [Fields.ofFn, Model.fail, Option.or_eq_some_iff] at he
      rcases he with hfirst | ⟨-, hrest⟩
      · exact hcheck p _ e hfirst
      · exact ih hrest
  rw [Model.decode_eq hkeys] at h
  split at h
  · next e' he =>
    cases h
    rw [hfail ps (fun p => parameters.lookup p.wireKey) e he]
    decide
  · cases h

theorem not_maxCcuReached_of_params {ps : Model (Value.wireFormat otherName)}
    {hkeys : (ps.map (·.wireKey)).Nodup} {e : DecodeError} (h : req.params ps hkeys = .error e) :
    e.returnCode ≠ maxCcuReached := by
  unfold params at h
  split at h
  · next e' he =>
    cases h
    exact not_maxCcuReached_of_decode hkeys he
  · cases h

/-- How far an authentication without a token gets: it fails, for want of a place exactly if the app
is full; or the app grants an identity; or a plugin is asked. -/
inductive StandardCase (req : AuthRequest otherName) (server : AuthServer) : AuthProgress → Prop
  | failed (resp : AuthResponse)
      (full : resp.returnCode = maxCcuReached ↔ ∃ params settings count,
        req.AsksFor server params settings count ∧ settings.IsFull count)
      (refused : ∀ params settings count, req.AsksFor server params settings count →
        ¬settings.IsFull count → ¬settings.Grants params.authType) :
      StandardCase req server (.returned (.error resp))
  | granted {pp : PeerPersistent} {params : StandardAuthParams} {settings : AuthSettings}
      {count : Nat} (asks : req.AsksFor server params settings count)
      (notFull : ¬settings.IsFull count) (grants : settings.Grants params.authType)
      (app : pp.app = some params.app) (invitation : pp.invitation = none) :
      StandardCase req server (.returned (.ok pp))
  | asked {pending : PendingAuth} {params : StandardAuthParams} {settings : AuthSettings}
      {count : Nat} (asks : req.AsksFor server params settings count)
      (notFull : ¬settings.IsFull count) (refused : ¬settings.Grants params.authType)
      (app : pending.persistent.app = some params.app)
      (invitation : pending.persistent.invitation = none) :
      StandardCase req server (.awaiting pending)

theorem standardCase (req : AuthRequest otherName) (server : AuthServer) (random : AuthRandom) :
    StandardCase req server (req.authenticateStandard server random) := by
  have hnone : ∀ {resp : AuthResponse}, resp.returnCode ≠ maxCcuReached →
      (∀ params settings count, ¬req.AsksFor server params settings count) →
      StandardCase req server (.returned (.error resp)) := by
    intro resp hcode hasks
    refine .failed resp (iff_of_false hcode ?_) fun params settings count h => ?_
    · rintro ⟨params, settings, count, h, -⟩
      exact hasks params settings count h
    · exact absurd h (hasks params settings count)
  have hparamsCode : ∀ e, req.standardParams = .error e → e.returnCode ≠ maxCcuReached := by
    intro e he
    unfold standardParams at he
    split at he
    · next e' hdecode =>
      cases he
      exact not_maxCcuReached_of_params hdecode
    · cases he
  unfold authenticateStandard
  cases hparams : req.standardParams with
  | error e =>
    refine hnone (hparamsCode e hparams) fun params settings count h => ?_
    have hdecoded := h.decoded
    rw [hparams] at hdecoded
    cases hdecoded
  | ok params =>
    simp only
    cases happ : server.getApp params.applicationId params.version with
    | none =>
      refine hnone (by simp [invalidAuthentication, maxCcuReached]) fun params' settings count h => ?_
      have hdecoded := h.decoded
      rw [hparams] at hdecoded
      cases hdecoded
      have happ' := h.app
      rw [happ] at happ'
      cases happ'
    | some entry =>
      obtain ⟨settings, count⟩ := entry
      have hasks : req.AsksFor server params settings count := ⟨hparams, happ⟩
      have hfull : (∃ params' settings' count', req.AsksFor server params' settings' count' ∧
          settings'.IsFull count') ↔ settings.IsFull count := by
        constructor
        · rintro ⟨params', settings', count', h, hfull⟩
          obtain ⟨-, rfl, rfl⟩ := hasks.unique h
          exact hfull
        · exact fun hfull => ⟨params, settings, count, hasks, hfull⟩
      have hfails : ∀ {resp : AuthResponse}, resp.returnCode ≠ maxCcuReached →
          ¬settings.IsFull count → ¬settings.Grants params.authType →
          StandardCase req server (.returned (.error resp)) := by
        intro resp hcode hplace hrefused
        refine .failed resp (iff_of_false hcode (hfull.not.mpr hplace)) ?_
        intro params' settings' count' h _
        obtain ⟨rfl, rfl, -⟩ := hasks.unique h
        exact hrefused
      simp only
      split
      · next hplace =>
        refine .failed _ (iff_of_true rfl (hfull.mpr hplace)) ?_
        intro params' settings' count' h hnot
        obtain ⟨-, rfl, rfl⟩ := hasks.unique h
        exact absurd hplace hnot
      · next hplace =>
        split
        · next hgrants => exact .granted hasks hplace hgrants rfl rfl
        · next hrefused =>
          split
          · exact hfails (by simp [customAuthenticationFailed, maxCcuReached]) hplace hrefused
          · split
            · exact hfails (by simp [invalidAuthentication, maxCcuReached]) hplace hrefused
            · split
              · exact hfails (by simp [customAuthenticationFailed, maxCcuReached]) hplace hrefused
              · exact .asked hasks hplace hrefused rfl rfl

/-- What `authenticate` does for a client without an identity. -/
inductive AuthCase (req : AuthRequest otherName) (server : AuthServer) (tokens : TokenStore) :
    AuthProgress → AuthState → Prop
  | full (resp : AuthResponse) (code : resp.returnCode = maxCcuReached)
      (full : server.maxConnections ≠ 0 ∧ server.connectionCount ≥ server.maxConnections) :
      AuthCase req server tokens (.returned (.error resp)) { persistent := none, tokens }
  | tokenFailed (resp : AuthResponse) (code : resp.returnCode ≠ maxCcuReached)
      (notFull : ¬(server.maxConnections ≠ 0 ∧ server.connectionCount ≥ server.maxConnections))
      (token : req.hasToken = true) :
      AuthCase req server tokens (.returned (.error resp)) { persistent := none, tokens }
  | loaded (token : String) (fresh : Option String) (pp : PeerPersistent) (after : TokenStore)
      (messages : List TokenMessage)
      (notFull : ¬(server.maxConnections ≠ 0 ∧ server.connectionCount ≥ server.maxConnections))
      (hasToken : req.hasToken = true)
      (load : tokens.loadPersistentPeer token fresh = (some pp, after, messages)) :
      AuthCase req server tokens (.returned (.ok pp)) { persistent := some pp, tokens := after }
  | standard (progress : AuthProgress)
      (notFull : ¬(server.maxConnections ≠ 0 ∧ server.connectionCount ≥ server.maxConnections))
      (tokenless : req.hasToken = false) (case : StandardCase req server progress) :
      AuthCase req server tokens progress
        { persistent := match progress with
            | .returned (.ok pp) => some pp
            | _ => none
          tokens }

theorem authCase (req : AuthRequest otherName) (server : AuthServer) (refreshToken : Bool)
    (random : AuthRandom) (tokens : TokenStore) :
    AuthCase req server tokens
      (req.authenticate server refreshToken random { persistent := none, tokens }).1
      (req.authenticate server refreshToken random { persistent := none, tokens }).2 := by
  unfold authenticate
  split
  · next hfull => exact .full _ rfl hfull
  · next hplace =>
    split
    · next htoken =>
      simp only
      unfold authenticateToken
      cases hparams : req.tokenParams with
      | error e =>
        refine .tokenFailed _ ?_ hplace htoken
        unfold tokenParams at hparams
        split at hparams
        · next e' hdecode =>
          cases hparams
          exact not_maxCcuReached_of_params hdecode
        · cases hparams
      | ok token =>
        simp only
        cases hload : tokens.loadPersistentPeer token
            (if refreshToken then some random.token else none) with
        | mk found rest =>
        obtain ⟨after, messages⟩ := rest
        cases found with
        | none =>
          have hafter : after = tokens := by
            unfold TokenStore.loadPersistentPeer at hload
            split at hload
            · cases hload
              rfl
            · cases hload
          rw [hafter]
          exact .tokenFailed _ (by simp [authenticationTokenExpired, maxCcuReached]) hplace htoken
        | some pp => exact .loaded token _ pp after messages hplace htoken hload
    · next htoken =>
      have hcase := standardCase req server random
      have htokenless : req.hasToken = false := Bool.eq_false_iff.mpr htoken
      generalize req.authenticateStandard server random = progress at hcase
      cases hcase with
      | failed resp full refused => exact .standard _ hplace htokenless (.failed resp full refused)
      | granted asks notFull grants app invitation =>
        exact .standard _ hplace htokenless (.granted asks notFull grants app invitation)
      | asked asks notFull refused app invitation =>
        exact .standard _ hplace htokenless (.asked asks notFull refused app invitation)

end AuthRequest

theorem ServerType.hasToken_sees {otherName : UInt8 → String} (req : AuthRequest otherName) :
    (ServerType.gameServer.sees req).hasToken = true := by
  unfold ServerType.sees AuthRequest.hasToken
  split
  · exact decide_eq_true ((AList.mem_insert _).mpr (Or.inl rfl))
  · next hhas => simpa using hhas

theorem ServerType.ne_of_tokenless {otherName : UInt8 → String} {server : ServerType}
    {req : AuthRequest otherName} (htokenless : (server.sees req).hasToken = false) :
    server ≠ .gameServer := by
  rintro rfl
  rw [hasToken_sees] at htokenless
  cases htokenless

theorem ServerType.sees_of_ne {otherName : UInt8 → String} {server : ServerType}
    (hserver : server ≠ .gameServer) (req : AuthRequest otherName) : server.sees req = req :=
  if_neg fun hboth => hserver hboth.1

theorem ServerType.not_hasToken_sees {otherName : UInt8 → String} {server : ServerType}
    {req : AuthRequest otherName} (hserver : server ≠ .gameServer)
    (htokenless : req.hasToken = false) : (server.sees req).hasToken ≠ true := by
  rw [sees_of_ne hserver, htokenless]
  exact Bool.false_ne_true

namespace Instance

variable {otherName : UInt8 → String} {w : Instance}

/-- A client whose request comes to `authenticate`. -/
structure MayAsk (w : Instance) (peer : PeerRef) (req : AuthRequest otherName) (client : Client) :
    Prop where
  lookup : w.clients.lookup peer = some client
  connected : client.disconnected = false
  anonymous : client.persistent = none
  ready : w.keepsWaiting client.server req = false

theorem request_eq_some {peer : PeerRef} {req : AuthRequest otherName} {random : AuthRandom}
    {client : Client} {progress : AuthProgress} {st : AuthState} :
    w.request peer req random = some (client, progress, st) ↔ w.MayAsk peer req client ∧
      (client.server.sees req).authenticate w.authServer (client.server != .gameServer) random
        { persistent := none, tokens := w.tokens } = (progress, st) := by
  unfold request
  rw [Option.bind_eq_some_iff]
  constructor
  · rintro ⟨client', hl, hsome⟩
    split at hsome
    · cases hsome
    · next hasks =>
      simp only [not_or, Bool.not_eq_true, Option.isSome_eq_false_iff, Option.isNone_iff_eq_none]
        at hasks
      obtain ⟨rfl, heq⟩ := Prod.mk.inj (Option.some.inj hsome)
      exact ⟨⟨hl, hasks.1, hasks.2.1, hasks.2.2⟩, heq⟩
  · rintro ⟨⟨hl, hconnected, hanonymous, hready⟩, heq⟩
    refine ⟨client, hl, ?_⟩
    rw [if_neg (by simp [hconnected, hanonymous, hready]), heq]

theorem MayAsk.request {peer : PeerRef} {req : AuthRequest otherName} {client : Client}
    (h : w.MayAsk peer req client) (random : AuthRandom) :
    ∃ result, w.request peer req random = some result :=
  ⟨_, request_eq_some.mpr ⟨h, Prod.mk.eta.symm⟩⟩

/-- Whoever asks is in no room. -/
theorem MayAsk.currentGame {peer : PeerRef} {req : AuthRequest otherName} {client : Client}
    (hw : w.Sound) (h : w.MayAsk peer req client) : client.currentGame = none := by
  cases hgame : client.currentGame with
  | none => rfl
  | some game =>
    have hplays := ((hw.clients peer client h.lookup).playing game.1 game.2 hgame).1
    rw [Client.isOf, h.anonymous] at hplays
    cases hplays

theorem ofApp_of_load {token : String} {fresh : Option String} {ts after : TokenStore}
    {pp : PeerPersistent} {messages : List TokenMessage} (hts : ∀ pp ∈ ts.stored, pp.OfApp)
    (hload : ts.loadPersistentPeer token fresh = (some pp, after, messages)) :
    pp.OfApp ∧ ∀ pp ∈ after.stored, pp.OfApp := by
  obtain ⟨pp', rfl, hperm⟩ := TokenStore.perm_of_loadPersistentPeer hload
  exact ⟨hts pp' (hperm.mem_iff.mpr List.mem_cons_self),
    fun value hvalue => hts value (hperm.mem_iff.mpr (List.mem_cons_of_mem _ hvalue))⟩

theorem Sound.authenticate (hw : w.Sound) (peer : PeerRef) (req : AuthRequest otherName)
    (random : AuthRandom) : (w.authenticate peer req random).Sound := by
  unfold Instance.authenticate
  cases hrequest : w.request peer req random with
  | none => exact hw
  | some result =>
    obtain ⟨client, progress, st⟩ := result
    obtain ⟨hasks, heq⟩ := request_eq_some.mp hrequest
    have hidle := hasks.currentGame hw
    have hcase := (client.server.sees req).authCase w.authServer (client.server != .gameServer)
      random w.tokens
    rw [heq] at hcase
    have hsettle : ∀ (tokens : TokenStore) (persistent : Option PeerPersistent),
        (∀ pp ∈ tokens.stored, pp.OfApp) → (∀ pp ∈ persistent, pp.OfApp) →
        (({ w with tokens } : Instance).settle peer { client with persistent }).Sound :=
      fun tokens persistent htokens hpersistent =>
        (hw.withTokens htokens).settle hasks.lookup hidle (fun _ => hasks.connected) hpersistent
    simp only at hcase ⊢
    cases hcase with
    | full resp code hfull => exact hsettle w.tokens none hw.stored fun _ hmem => by cases hmem
    | tokenFailed resp code notFull token =>
      exact hsettle w.tokens none hw.stored fun _ hmem => by cases hmem
    | loaded token fresh pp after messages notFull hasToken load =>
      obtain ⟨hpp, hafter⟩ := ofApp_of_load hw.stored load
      refine hsettle after (some pp) hafter fun value hvalue => ?_
      obtain rfl := Option.mem_some_iff.mp hvalue
      exact hpp
    | standard progress notFull tokenless case =>
      cases case with
      | failed resp full refused => exact hsettle w.tokens none hw.stored fun _ hmem => by cases hmem
      | granted asks hplace grants app invitation =>
        refine hsettle w.tokens (some _) hw.stored fun value hvalue => ?_
        obtain rfl := Option.mem_some_iff.mp hvalue
        intro info hinfo
        rw [invitation] at hinfo
        cases hinfo
      | asked asks hplace refused app invitation =>
        refine { hw with pending := fun other pending hmem => ?_ }
        rcases List.mem_append.mp hmem with hold | hnew
        · exact hw.pending other pending hold
        · obtain ⟨rfl, rfl⟩ := Prod.mk.inj (List.mem_singleton.mp hnew)
          refine ⟨invitation, client, hasks.lookup, fun hserver => ?_⟩
          rw [hserver, ServerType.hasToken_sees] at tokenless
          cases tokenless

theorem Sound.answer (hw : w.Sound) (index : Nat) (result : PluginResult) :
    (w.answer index result).Sound := by
  unfold Instance.answer
  cases hindex : w.pending[index]? with
  | none => exact hw
  | some entry =>
    obtain ⟨peer, pending⟩ := entry
    have hrest : ({ w with pending := w.pending.eraseIdx index } : Instance).Sound :=
      { hw with pending := fun other p hmem => hw.pending other p (List.mem_of_mem_eraseIdx hmem) }
    obtain ⟨hinvitation, client, hl, hserver⟩ :=
      hw.pending peer pending (List.mem_of_getElem? hindex)
    simp only [hl]
    have hclient := hw.clients peer client hl
    refine hrest.settle hl ?_ (fun hgameServer => absurd hgameServer hserver) ?_
    · cases hgame : client.currentGame with
      | none => rfl
      | some game => exact absurd (hclient.playing game.1 game.2 hgame).2.1 hserver
    · intro pp hpp
      cases result with
      | none => exact hclient.invited pp hpp
      | some answer =>
        cases answer with
        | error e => exact hclient.invited pp hpp
        | ok userId =>
          obtain rfl := Option.mem_some_iff.mp hpp
          intro info hinfo
          rw [hinvitation] at hinfo
          cases hinfo

theorem Sound.step (hw : w.Sound) (op : InstanceOp otherName) : (w.step op).Sound := by
  cases op with
  | connect server => exact hw.connect server
  | authenticate peer req random => exact hw.authenticate peer req random
  | answer index result => exact hw.answer index result
  | route peer ref isNew => exact hw.route peer ref isNew
  | app key op => exact hw.onApp key op
  | room key ref op => exact hw.onRoom key ref op
  | join peer users lease => exact hw.join peer users lease
  | disconnect peer => exact hw.disconnect peer
  | unlist peer =>
    simp only [Instance.step, Instance.modify]
    split
    · exact hw
    · next client hl =>
      have hclient := hw.clients peer client hl
      refine hw.replaceClient hl ⟨hclient.playing, hclient.invited, fun hconnected => ?_⟩ rfl
        fun game hgame => hgame
      simp [hclient.listed hconnected, show client.disconnected = false from hconnected]
  | destroy peer => exact hw.destroy peer
  | expire task =>
    exact hw.withTokens fun pp hpp =>
      hw.stored pp ((TokenStore.expire_sublist task w.tokens).subset hpp)

/-- The sessions of an app: its stored tokens, and the identities of connected clients. -/
def sessions (key : AppKey) (w : Instance) : Nat :=
  w.storedCount key + w.clients.entries.countP fun entry => entry.2.isOf key

/-- The sessions of an app without that of one client. -/
def sessionsBut (key : AppKey) (peer : PeerRef) (w : Instance) : Nat :=
  w.storedCount key + (w.clients.erase peer).entries.countP fun entry => entry.2.isOf key

/-- Whether a client is in a room. -/
def playsIn (w : Instance) (entry : Σ _ : PeerRef, Client) : Bool :=
  entry.2.currentGame.any fun game =>
    ((w.apps game.1).live.lookup game.2).any fun g => some entry.1 ∈ g.connections

/-- The other clients of an app that are in no room. -/
def outside (key : AppKey) (peer : PeerRef) (w : Instance) : Nat :=
  (w.clients.erase peer).entries.countP fun entry => entry.2.isOf key && !w.playsIn entry

def others (peer : PeerRef) (w : Instance) : Nat :=
  (w.clients.erase peer).entries.countP fun entry => entry.2.listed

section Counting

variable {key : AppKey}

theorem mem_players {app : App} (hi : app.Indexed) {c : Option PeerRef} :
    c ∈ app.players ↔ ∃ ref g, app.live.lookup ref = some g ∧ c ∈ g.connections := by
  unfold App.players
  simp only [List.mem_flatMap]
  constructor
  · rintro ⟨⟨id, lobby⟩, -, ref, -, hc⟩
    cases hg : app.live.lookup ref with
    | none =>
      rw [hg] at hc
      exact (List.not_mem_nil hc).elim
    | some g =>
      rw [hg] at hc
      exact ⟨ref, g, hg, hc⟩
  · rintro ⟨ref, g, hg, hc⟩
    obtain ⟨lobby, hlobby⟩ := AList.mem_iff_lookup.mp (hi.sound.lobby ref g hg)
    refine ⟨⟨g.lobbyId, lobby⟩, AList.mem_entries_iff.mpr hlobby, ref,
      (hi.listed g.lobbyId lobby hlobby ref g hg).mpr rfl, ?_⟩
    rw [hg]
    exact hc

/-- A lobby's list has no room twice, no room is in two lists, and no one is in two rooms. -/
theorem Sound.nodup_players (hw : w.Sound) (key : AppKey) : (w.apps key).players.Nodup := by
  have hi := hw.indexed key
  have hroom : ∀ {weak : GameRef} {c : Option PeerRef},
      c ∈ ((w.apps key).live.lookup weak).elim [] Game.connections →
      ∃ g, (w.apps key).live.lookup weak = some g ∧ c ∈ g.connections := by
    intro weak c hc
    cases hg : (w.apps key).live.lookup weak with
    | none =>
      rw [hg] at hc
      exact (List.not_mem_nil hc).elim
    | some g =>
      rw [hg] at hc
      exact ⟨g, rfl, hc⟩
  have hsame : ∀ {ref ref' : GameRef} {g g' : Game} {c : Option PeerRef},
      (w.apps key).live.lookup ref = some g → c ∈ g.connections →
      (w.apps key).live.lookup ref' = some g' → c ∈ g'.connections → ref = ref' := by
    intro ref ref' g g' c hg hc hg' hc'
    obtain ⟨peer, client, rfl, hl, hplays⟩ := (hw.placed key ref g hg).2 c hc
    have hplays' := hw.currentGame_of_mem hl hg' hc'
    rw [hplays] at hplays'
    cases hplays'
    rfl
  unfold App.players
  rw [List.nodup_flatMap]
  constructor
  · rintro ⟨id, lobby⟩ hentry
    rw [List.nodup_flatMap]
    refine ⟨fun weak _ => ?_, ?_⟩
    · cases hg : (w.apps key).live.lookup weak with
      | none => exact List.nodup_nil
      | some g => exact (hw.placed key weak g hg).1
    · refine (hi.nodup id lobby (AList.mem_entries_iff.mp hentry)).imp fun {ref ref'} hne => ?_
      rw [Function.onFun, List.disjoint_left]
      intro c hc hc'
      obtain ⟨g, hg, hmem⟩ := hroom hc
      obtain ⟨g', hg', hmem'⟩ := hroom hc'
      exact hne (hsame hg hmem hg' hmem')
  · have hkeys : (w.apps key).lobbies.entries.Pairwise fun e e' => e.1 ≠ e'.1 :=
      List.pairwise_map.mp (w.apps key).lobbies.nodupKeys
    refine hkeys.imp_of_mem fun {e e'} he he' hne => ?_
    rw [Function.onFun, List.disjoint_left]
    intro c hc hc'
    obtain ⟨ref, href, hin⟩ := List.mem_flatMap.mp hc
    obtain ⟨ref', href', hin'⟩ := List.mem_flatMap.mp hc'
    obtain ⟨g, hg, hmem⟩ := hroom hin
    obtain ⟨g', hg', hmem'⟩ := hroom hin'
    obtain rfl := hsame hg hmem hg' hmem'
    have hlobby := (hi.listed e.1 e.2 (AList.mem_entries_iff.mp he) ref g hg).mp href
    have hlobby' := (hi.listed e'.1 e'.2 (AList.mem_entries_iff.mp he') ref g hg).mp href'
    exact hne (hlobby.symm.trans hlobby')

theorem foldl_add_eq {α : Type*} (f : α → Nat) (l : List α) (n : Nat) :
    l.foldl (fun fres a => fres + f a) n = n + (l.map f).sum := by
  induction l generalizing n with
  | nil => rfl
  | cons a l ih =>
    rw [List.foldl_cons, ih, List.map_cons, List.sum_cons]
    omega

theorem getPeerCount_eq (key : AppKey) (w : Instance) :
    w.getPeerCount key = w.storedCount key + (w.apps key).players.length := by
  unfold getPeerCount App.players Lobby.getPeerCount
  rw [foldl_add_eq, List.length_flatMap]
  congr 2
  refine List.map_congr_left fun entry _ => ?_
  rw [foldl_add_eq, List.length_flatMap, Nat.zero_add]
  congr 1
  refine List.map_congr_left fun weak _ => ?_
  cases (w.apps key).live.lookup weak with
  | none => rfl
  | some g => simp [Game.activePeerCount, Game.connections]

/-- What an app counts, with what it misses, are the sessions of its clients. -/
theorem Sound.getPeerCount_add_outside (hw : w.Sound) {peer : PeerRef} {client : Client}
    (hl : w.clients.lookup peer = some client) (hidle : client.currentGame = none) (key : AppKey) :
    w.getPeerCount key + w.outside key peer = w.sessionsBut key peer := by
  have hplayers : (w.apps key).players.Perm
      (((w.clients.erase peer).entries.filter fun entry =>
        entry.2.isOf key && w.playsIn entry).map fun entry => some entry.1) := by
    refine (List.perm_ext_iff_of_nodup (hw.nodup_players key) ?_).mpr fun c => ?_
    · have hkeys : ((w.clients.erase peer).entries.map Sigma.fst).Nodup :=
        (w.clients.erase peer).nodupKeys
      have hnodup := ((hkeys.map (Option.some_injective _)).sublist
        ((List.filter_sublist (p := fun entry : Σ _ : PeerRef, Client =>
          entry.2.isOf key && w.playsIn entry)).map _ |>.map _))
      rwa [List.map_map] at hnodup
    · rw [mem_players (hw.indexed key), List.mem_map]
      constructor
      · rintro ⟨ref, g, hg, hc⟩
        obtain ⟨other, old, rfl, hother, hplays⟩ := (hw.placed key ref g hg).2 c hc
        have hne : other ≠ peer := by
          rintro rfl
          rw [hl] at hother
          cases hother
          rw [hidle] at hplays
          cases hplays
        refine ⟨⟨other, old⟩, List.mem_filter.mpr ⟨AList.mem_entries_iff.mpr ?_, ?_⟩, rfl⟩
        · rw [AList.lookup_erase_ne hne, hother]
        · have hof := ((hw.clients other old hother).playing key ref hplays).1
          simp [hof, playsIn, hplays, hg, hc]
      · rintro ⟨⟨other, old⟩, hentry, rfl⟩
        obtain ⟨hmem, hin⟩ := List.mem_filter.mp hentry
        have hother : w.clients.lookup other = some old := by
          have hlookup := AList.mem_entries_iff.mp hmem
          rw [AList.lookup_erase_eq] at hlookup
          split at hlookup
          · cases hlookup
          · exact hlookup
        obtain ⟨hof, hplays⟩ := Bool.and_eq_true_iff.mp hin
        obtain ⟨⟨key', ref⟩, hgame, hroom⟩ := (Option.any_eq_true ..).mp hplays
        obtain ⟨g, hg, hc⟩ := (Option.any_eq_true ..).mp hroom
        have hof' := ((hw.clients other old hother).playing key' ref hgame).1
        obtain ⟨pp, hpp, happ⟩ := (Option.any_eq_true ..).mp hof
        obtain ⟨pp', hpp', happ'⟩ := (Option.any_eq_true ..).mp hof'
        rw [hpp] at hpp'
        cases hpp'
        rw [beq_iff_eq] at happ happ'
        rw [happ] at happ'
        cases happ'
        exact ⟨ref, g, hg, by simpa using hc⟩
  have hsplit := List.countP_eq_countP_filter_add (w.clients.erase peer).entries
    (fun entry => entry.2.isOf key) w.playsIn
  rw [List.countP_filter, List.countP_filter] at hsplit
  rw [getPeerCount_eq, hplayers.length_eq, List.length_map, ← List.countP_eq_length_filter]
  unfold outside sessionsBut
  rw [hsplit, Nat.add_assoc]

end Counting

section Steps

variable {peer : PeerRef} {client : Client}

theorem sessions_eq (hl : w.clients.lookup peer = some client) (key : AppKey) :
    w.sessions key = w.sessionsBut key peer + if client.isOf key = true then 1 else 0 := by
  unfold sessions sessionsBut
  rw [AList.countP_eq_erase hl, Nat.add_assoc]

theorem sessions_settle (peer : PeerRef) (client : Client) (w : Instance) (key : AppKey) :
    (w.settle peer client).sessions key =
      w.sessionsBut key peer + if client.isOf key = true then 1 else 0 := by
  obtain ⟨apps, client', heq, hof, -⟩ := settle_frame peer client w
  rw [heq]
  unfold sessions sessionsBut
  rw [AList.countP_insert, hof, Nat.add_assoc]
  rfl

theorem countP_storePersistentPeer (pp : PeerPersistent) (ts : TokenStore) (key : AppKey) :
    (ts.storePersistentPeer pp).stored.countP (fun value => value.app == some key) ≤
      ts.stored.countP (fun value => value.app == some key) +
        if pp.app = some key then 1 else 0 := by
  unfold TokenStore.storePersistentPeer
  split
  · omega
  · rw [List.countP_append, List.countP_singleton]
    refine Nat.add_le_add (List.filter_sublist.countP_le) ?_
    simp

theorem storedCount_storePersistentPeer (pp : PeerPersistent) (w : Instance) (key : AppKey) :
    (w.storePersistentPeer pp).storedCount key ≤
      w.storedCount key + if pp.app = some key then 1 else 0 := by
  obtain ⟨tokens, heq, htokens⟩ := storePersistentPeer_frame pp w
  rw [heq]
  rcases htokens with rfl | ⟨pp', happ, -, rfl⟩
  · exact Nat.le_add_right _ _
  · rw [← happ]
    exact countP_storePersistentPeer pp' w.tokens key

theorem clients_storePersistentPeer (pp : PeerPersistent) (w : Instance) :
    (w.storePersistentPeer pp).clients = w.clients := by
  obtain ⟨tokens, heq, -⟩ := storePersistentPeer_frame pp w
  rw [heq]

theorem isOf_eq {pp : PeerPersistent} (hpp : client.persistent = some pp) (key : AppKey) :
    client.isOf key = true ↔ pp.app = some key := by
  rw [Client.isOf, hpp, Option.any_some, beq_iff_eq]

/-- A token that is stored leaves the connection that it comes from. -/
theorem sessions_store_le {pp pp' : PeerPersistent} {clients : AList fun _ : PeerRef => Client}
    {key : AppKey} (hl : w.clients.lookup peer = some client) (hpp : client.persistent = some pp)
    (happ : pp'.app = pp.app)
    (hclients : clients.entries.countP (fun entry => entry.2.isOf key) =
      (w.clients.erase peer).entries.countP fun entry => entry.2.isOf key) :
    (({ w with clients } : Instance).storePersistentPeer pp').sessions key ≤ w.sessions key := by
  have hstored := storedCount_storePersistentPeer pp' { w with clients } key
  have hkept : ({ w with clients } : Instance).storedCount key = w.storedCount key := rfl
  rw [hkept, happ] at hstored
  rw [sessions_eq hl, sessions, clients_storePersistentPeer, hclients]
  simp only [isOf_eq hpp]
  unfold sessionsBut
  omega

/-- A change of a client that does not touch its identity. -/
theorem sessions_modify {change : Client → Client} {w' : Instance}
    (htokens : w'.tokens = w.tokens) (hclients : w'.clients = w.clients)
    (hchange : ∀ client, (change client).persistent = client.persistent) (key : AppKey) :
    (w'.modify peer change).sessions key = w.sessions key := by
  have hsame : w'.sessions key = w.sessions key := by
    unfold sessions storedCount
    rw [htokens, hclients]
  rw [← hsame]
  unfold Instance.modify
  split
  · rfl
  · next client hl =>
    have hof : (change client).isOf key = client.isOf key := by
      unfold Client.isOf
      rw [hchange]
    unfold sessions
    rw [AList.countP_insert, AList.countP_eq_erase hl, hof]
    rfl

/-- Sessions come with authentications only. -/
theorem sessions_step_le (hw : w.Sound) {op : InstanceOp otherName}
    (hauth : ∀ peer req random, op ≠ .authenticate peer req random)
    (hanswer : ∀ index result, op ≠ .answer index result) (key : AppKey) :
    (w.step op).sessions key ≤ w.sessions key := by
  cases op with
  | authenticate peer req random => exact absurd rfl (hauth peer req random)
  | answer index result => exact absurd rfl (hanswer index result)
  | connect server =>
    have hnew : w.nextPeer ∉ w.clients := fun hmem => Nat.lt_irrefl _ (hw.fresh _ hmem)
    refine le_of_eq ?_
    simp only [Instance.step, sessions]
    rw [AList.countP_insert, AList.erase_of_notMem hnew]
    rfl
  | route peer ref isNew =>
    simp only [Instance.step, Instance.route]
    split
    · exact le_rfl
    · next client hl =>
      split
      · next pp hserver hpp =>
        split
        · exact le_rfl
        · next appId appVersion g hroom =>
          have happ : (pp.invite { g.info with appId, appVersion } ref isNew).app = pp.app := rfl
          refine sessions_store_le hl hpp happ ?_
          rw [AList.countP_insert]
          rfl
      · exact le_rfl
  | app key' op =>
    simp only [Instance.step, Instance.onApp]
    split <;> exact le_rfl
  | room key' ref op =>
    simp only [Instance.step, Instance.onRoom]
    split
    · exact le_rfl
    · split <;> exact le_rfl
  | join peer users lease =>
    simp only [Instance.step, Instance.join]
    split
    · split
      · exact le_rfl
      · split
        · exact le_rfl
        · split <;> exact le_rfl
    · exact le_rfl
  | disconnect peer =>
    simp only [Instance.step, Instance.disconnect]
    refine le_of_eq (sessions_modify ?_ ?_ ?_ key)
    · split
      · rfl
      · split <;> rfl
    · split
      · rfl
      · split <;> rfl
    · exact fun _ => rfl
  | unlist peer =>
    simp only [Instance.step]
    refine le_of_eq (sessions_modify rfl rfl ?_ key)
    exact fun _ => rfl
  | destroy peer =>
    simp only [Instance.step, Instance.destroy]
    split
    · exact le_rfl
    · next client hl =>
      split
      · exact le_rfl
      · split
        · rw [sessions_eq hl]
          exact Nat.le_add_right _ _
        · next pp hpp => exact sessions_store_le hl hpp rfl rfl
  | expire task =>
    simp only [Instance.step, sessions, storedCount]
    exact Nat.add_le_add_right (TokenStore.expire_sublist task w.tokens).countP_le _

end Steps

/-- No app has more sessions than its settings allow. -/
def WithinCaps (w : Instance) : Prop :=
  ∀ key settings, w.settings key = some settings → settings.maxPeers ≠ 0 →
    w.sessions key ≤ settings.maxPeers

/-- The response that an authentication fails with, and whom it goes to. -/
def refusal (w : Instance) : InstanceOp otherName → Option (PeerRef × AuthResponse)
  | .authenticate peer req random =>
    (w.request peer req random).bind fun result => result.2.1.refused.map (Prod.mk peer)
  | .answer index result =>
    w.pending[index]?.bind fun entry =>
      let persistent := (w.clients.lookup entry.1).bind fun client => client.persistent
      match (entry.2.resume result { persistent, tokens := w.tokens }).1 with
      | .error resp => some (entry.1, resp)
      | .ok _ => none
  | _ => none

/-- A client is turned away for want of a place only if there are as many other connections as the
process may have. -/
def RefusesRightly (w : Instance) (op : InstanceOp otherName) : Prop :=
  ∀ peer resp, w.refusal op = some (peer, resp) → resp.returnCode = maxCcuReached →
    w.maxConnections ≠ 0 → w.maxConnections ≤ w.others peer

/-- A client without a token whom no count keeps out. -/
structure LetsIn (w : Instance) (peer : PeerRef) (req : AuthRequest otherName) (client : Client)
    (params : StandardAuthParams) (settings : AuthSettings) : Prop where
  asks : w.MayAsk peer req client
  server : client.server ≠ .gameServer
  tokenless : req.hasToken = false
  notFull : ¬(w.maxConnections ≠ 0 ∧ w.getConnectionCount ≥ w.maxConnections)
  decoded : req.standardParams = .ok params
  app : w.settings params.app = some settings
  hasPlace : ¬settings.IsFull (w.getPeerCount params.app)
  grants : settings.Grants params.authType

/-- An app that is full with the clients whom it does not count gives out a further identity, at
once or as a plugin answers. -/
def Overfills (w : Instance) : InstanceOp otherName → Prop
  | .authenticate peer req _ => ∃ client params settings,
    w.LetsIn peer req client params settings ∧
      settings.IsFull (w.getPeerCount params.app + w.outside params.app peer)
  | .answer index result => ∃ peer pending userId key settings,
    w.pending[index]? = some (peer, pending) ∧ result = some (.ok userId) ∧
      pending.persistent.app = some key ∧ w.settings key = some settings ∧
      settings.IsFull (w.getPeerCount key + w.outside key peer)
  | _ => False

/-- With fewer others than there may be, a client asks who is the last one that there is place for;
or an app is full by its own count; or a plugin turns the client away in the name of the cap. -/
def RefusesEarly (w : Instance) : InstanceOp otherName → Prop
  | .authenticate peer req _ => ∃ client, w.MayAsk peer req client ∧
    (w.others peer + 1 = w.maxConnections ∨
      w.others peer + 1 < w.maxConnections ∧ client.server ≠ .gameServer ∧ req.hasToken = false ∧
        ∃ params settings, req.standardParams = .ok params ∧
          w.settings params.app = some settings ∧ settings.IsFull (w.getPeerCount params.app))
  | .answer index result => ∃ peer pending e, w.pending[index]? = some (peer, pending) ∧
    result = some (.error e) ∧ e.returnCode = maxCcuReached ∧ w.others peer < w.maxConnections
  | _ => False

section Caps

variable {peer : PeerRef} {client : Client}

theorem getConnectionCount_eq (hl : w.clients.lookup peer = some client)
    (hlisted : client.listed = true) : w.getConnectionCount = w.others peer + 1 := by
  unfold getConnectionCount others
  rw [AList.countP_eq_erase hl, hlisted, if_pos rfl]

theorem asksFor_iff {req : AuthRequest otherName} {params : StandardAuthParams}
    {settings : AuthSettings} {count : Nat} :
    req.AsksFor w.authServer params settings count ↔ req.standardParams = .ok params ∧
      w.settings params.app = some settings ∧ count = w.getPeerCount params.app := by
  constructor
  · rintro ⟨hdecoded, happ⟩
    obtain ⟨settings', hsettings, heq⟩ := Option.map_eq_some_iff.mp happ
    cases heq
    exact ⟨hdecoded, hsettings, rfl⟩
  · rintro ⟨hdecoded, hsettings, rfl⟩
    exact ⟨hdecoded, Option.map_eq_some_iff.mpr ⟨settings, hsettings, rfl⟩⟩

/-- When one more session of an app fits in. -/
theorem withinCaps_iff_of_one_more {w' : Instance} (hcaps : w.WithinCaps)
    (hsettings : w'.settings = w.settings) {key₀ : AppKey} {n : AppKey → Nat}
    (hn : ∀ key, n key ≤ w.sessions key)
    (hsessions : ∀ key, w'.sessions key = n key + if key₀ = key then 1 else 0) :
    w'.WithinCaps ↔ ¬∃ settings, w.settings key₀ = some settings ∧ settings.IsFull (n key₀) := by
  unfold WithinCaps AuthSettings.IsFull
  rw [hsettings]
  constructor
  · rintro hwithin ⟨settings, hsome, hcapped, hfull⟩
    have hle := hwithin key₀ settings hsome hcapped
    rw [hsessions, if_pos rfl] at hle
    omega
  · intro hplace key settings hsome hcapped
    have hle := hcaps key settings hsome hcapped
    have hold := hn key
    rw [hsessions]
    split
    · next hkey =>
      subst hkey
      by_contra hover
      exact hplace ⟨settings, hsome, hcapped, by omega⟩
    · omega

theorem withinCaps_of_le {w' : Instance} (hcaps : w.WithinCaps)
    (hsettings : w'.settings = w.settings) (hle : ∀ key, w'.sessions key ≤ w.sessions key) :
    w'.WithinCaps := by
  intro key settings hsome hcapped
  rw [hsettings] at hsome
  exact (hle key).trans (hcaps key settings hsome hcapped)

/-- One client at most asks for a connection. -/
theorem MayAsk.unique {req : AuthRequest otherName} {client' : Client}
    (h : w.MayAsk peer req client) (h' : w.MayAsk peer req client') : client' = client := by
  have hl := h'.lookup
  rw [h.lookup] at hl
  exact (Option.some.inj hl).symm

theorem sessionsBut_of_asks {req : AuthRequest otherName} (h : w.MayAsk peer req client)
    (key : AppKey) : w.sessionsBut key peer = w.sessions key := by
  have hnone : client.isOf key = false := by
    rw [Client.isOf, h.anonymous, Option.any_none]
  rw [sessions_eq h.lookup, hnone]
  rfl

theorem countP_of_load {token : String} {fresh : Option String} {ts after : TokenStore}
    {pp : PeerPersistent} {messages : List TokenMessage}
    (hload : ts.loadPersistentPeer token fresh = (some pp, after, messages)) (key : AppKey) :
    after.stored.countP (fun value => value.app == some key) +
        (if pp.app = some key then 1 else 0) =
      ts.stored.countP fun value => value.app == some key := by
  obtain ⟨pp', rfl, hperm⟩ := TokenStore.perm_of_loadPersistentPeer hload
  rw [hperm.countP_eq, List.countP_cons]
  simp

theorem withinCaps_authenticate_iff (hw : w.Sound) (hcaps : w.WithinCaps)
    (req : AuthRequest otherName) (random : AuthRandom) :
    (w.authenticate peer req random).WithinCaps ↔ ¬w.Overfills (.authenticate peer req random) := by
  unfold Instance.authenticate
  cases hrequest : w.request peer req random with
  | none =>
    refine iff_of_true hcaps ?_
    rintro ⟨client, params, settings, hin, -⟩
    obtain ⟨result, hsome⟩ := hin.asks.request random
    rw [hrequest] at hsome
    cases hsome
  | some result =>
    obtain ⟨client, progress, st⟩ := result
    obtain ⟨hasks, heq⟩ := request_eq_some.mp hrequest
    have hcase := (client.server.sees req).authCase w.authServer (client.server != .gameServer)
      random w.tokens
    rw [heq] at hcase
    simp only at hcase ⊢
    -- Without a new identity there is no new session.
    have hkept : ∀ {tokens : TokenStore} {persistent : Option PeerPersistent},
        (∀ key, tokens.stored.countP (fun value => value.app == some key) +
          (if ({ client with persistent } : Client).isOf key = true then 1 else 0) ≤
            w.storedCount key) →
        (({ w with tokens } : Instance).settle peer { client with persistent }).WithinCaps := by
      intro tokens persistent hle
      obtain ⟨apps, client', hframe, -, -⟩ :=
        settle_frame peer { client with persistent } ({ w with tokens } : Instance)
      refine withinCaps_of_le hcaps (by rw [hframe]) fun key => ?_
      rw [sessions_settle, ← sessionsBut_of_asks hasks]
      have hkey := hle key
      simp only [sessionsBut, storedCount] at hkey ⊢
      omega
    have hsame : (({ w with tokens := w.tokens } : Instance).settle peer
        { client with persistent := none }).WithinCaps := hkept fun key => le_rfl
    have hnotIn : (∀ params settings, client.server ≠ .gameServer → req.hasToken = false →
        ¬(w.maxConnections ≠ 0 ∧ w.getConnectionCount ≥ w.maxConnections) →
        req.AsksFor w.authServer params settings (w.getPeerCount params.app) →
        ¬settings.IsFull (w.getPeerCount params.app) → ¬settings.Grants params.authType) →
        ¬w.Overfills (.authenticate peer req random) := by
      rintro hrefused ⟨client', params, settings, hin, -⟩
      obtain rfl := hasks.unique hin.asks
      exact hrefused params settings hin.server hin.tokenless hin.notFull
        (asksFor_iff.mpr ⟨hin.decoded, hin.app, rfl⟩) hin.hasPlace hin.grants
    cases hcase with
    | full resp code hfull =>
      exact iff_of_true hsame (hnotIn fun _ _ _ _ hplace _ _ _ => hplace hfull)
    | tokenFailed resp code notFull token =>
      refine iff_of_true hsame (hnotIn fun _ _ hserver htokenless _ _ _ _ => ?_)
      exact ServerType.not_hasToken_sees hserver htokenless token
    | loaded token fresh pp after messages notFull hasToken load =>
      refine iff_of_true (hkept fun key => ?_) (hnotIn fun _ _ hserver htokenless _ _ _ _ => ?_)
      · rw [storedCount, ← countP_of_load load key]
        simp [Client.isOf]
      · exact ServerType.not_hasToken_sees hserver htokenless hasToken
    | standard progress notFull tokenless case =>
      have hserver := ServerType.ne_of_tokenless tokenless
      rw [ServerType.sees_of_ne hserver] at tokenless case
      cases case with
      | failed resp full refused =>
        exact iff_of_true hsame (hnotIn fun params settings _ _ _ hasked hplace =>
          refused params settings _ hasked hplace)
      | asked asked hplace refused app invitation =>
        refine iff_of_true hcaps (hnotIn fun params settings _ _ _ hasked _ => ?_)
        obtain ⟨rfl, rfl, -⟩ := asked.unique hasked
        exact refused
      | @granted pp params settings count asked hplace grants app invitation =>
        obtain ⟨hdecoded, hsettings, rfl⟩ := asksFor_iff.mp asked
        obtain ⟨apps, client', hframe, -, -⟩ :=
          settle_frame peer { client with persistent := some pp } w
        have hidle := hasks.currentGame hw
        have hsessions : ∀ key, (w.settle peer { client with persistent := some pp }).sessions key =
            w.sessionsBut key peer + if params.app = key then 1 else 0 := by
          intro key
          rw [sessions_settle]
          simp [Client.isOf, app]
        rw [withinCaps_iff_of_one_more hcaps (by rw [hframe])
          (fun key => (sessionsBut_of_asks hasks key).le) hsessions, not_iff_not,
          ← hw.getPeerCount_add_outside hasks.lookup hidle]
        constructor
        · rintro ⟨settings', hsettings', hfull⟩
          rw [hsettings] at hsettings'
          cases hsettings'
          exact ⟨client, params, settings, ⟨hasks, hserver, tokenless, notFull, hdecoded,
            hsettings, hplace, grants⟩, hfull⟩
        · rintro ⟨client₁, params₁, settings₁, hin, hfull⟩
          have hdecoded₁ := hin.decoded
          rw [hdecoded] at hdecoded₁
          cases hdecoded₁
          exact ⟨settings₁, hin.app, hfull⟩

theorem Sound.currentGame_of_pending (hw : w.Sound) {pending : PendingAuth}
    (hpending : (peer, pending) ∈ w.pending) :
    ∃ client, w.clients.lookup peer = some client ∧ client.currentGame = none := by
  obtain ⟨-, client, hl, hserver⟩ := hw.pending peer pending hpending
  refine ⟨client, hl, ?_⟩
  cases hgame : client.currentGame with
  | none => rfl
  | some game =>
    exact absurd ((hw.clients peer client hl).playing game.1 game.2 hgame).2.1 hserver

theorem withinCaps_answer_iff (hw : w.Sound) (hcaps : w.WithinCaps) (index : Nat)
    (result : PluginResult) : (w.answer index result).WithinCaps ↔
      ¬w.Overfills (.answer index result : InstanceOp otherName) := by
  unfold Instance.answer
  cases hindex : w.pending[index]? with
  | none =>
    refine iff_of_true hcaps ?_
    rintro ⟨peer, pending, userId, key, settings, hpending, -⟩
    rw [hindex] at hpending
    cases hpending
  | some entry =>
    obtain ⟨peer, pending⟩ := entry
    obtain ⟨client, hl, hidle⟩ := hw.currentGame_of_pending (List.mem_of_getElem? hindex)
    simp only [hl]
    have hsessions : ∀ persistent key,
        (({ w with pending := w.pending.eraseIdx index } : Instance).settle peer
          { client with persistent }).sessions key = w.sessionsBut key peer +
            if ({ client with persistent } : Client).isOf key = true then 1 else 0 :=
      fun persistent key => sessions_settle peer _ _ key
    have hsettings : ∀ persistent,
        (({ w with pending := w.pending.eraseIdx index } : Instance).settle peer
          { client with persistent }).settings = w.settings := by
      intro persistent
      obtain ⟨apps, client', hframe, -, -⟩ := settle_frame peer { client with persistent }
        ({ w with pending := w.pending.eraseIdx index } : Instance)
      rw [hframe]
    have hfails : (∀ userId, result ≠ some (.ok userId)) →
        (({ w with pending := w.pending.eraseIdx index } : Instance).settle peer
          { client with persistent := client.persistent }).WithinCaps ∧
        ¬w.Overfills (.answer index result : InstanceOp otherName) := by
      intro hresult
      refine ⟨withinCaps_of_le hcaps (hsettings _) fun key => ?_, ?_⟩
      · rw [hsessions, sessions_eq hl]
      · rintro ⟨-, -, userId, -, -, -, hok, -⟩
        exact hresult userId hok
    cases result with
    | none => exact iff_of_true (hfails (by simp)).1 (hfails (by simp)).2
    | some answer =>
      cases answer with
      | error e =>
        have hnot : ∀ userId, (some (.error e) : PluginResult) ≠ some (.ok userId) := by simp
        exact iff_of_true (hfails hnot).1 (hfails hnot).2
      | ok userId =>
        simp only [PendingAuth.resume]
        rcases Option.eq_none_or_eq_some pending.persistent.app with happ | ⟨key₀, happ⟩
        · refine iff_of_true (withinCaps_of_le hcaps (hsettings _) fun key => ?_) ?_
          · rw [hsessions, sessions_eq hl]
            simp [Client.isOf, happ]
          · rintro ⟨peer', pending', -, key, -, hpending, -, hkey, -⟩
            rw [hindex] at hpending
            cases hpending
            rw [happ] at hkey
            cases hkey
        · have hone : ∀ key, (({ w with pending := w.pending.eraseIdx index } : Instance).settle peer
              { client with persistent := some { pending.persistent with userId } }).sessions key =
                w.sessionsBut key peer + if key₀ = key then 1 else 0 := by
            intro key
            rw [hsessions]
            simp [Client.isOf, happ]
          have hle : ∀ key, w.sessionsBut key peer ≤ w.sessions key := by
            intro key
            rw [sessions_eq hl]
            exact Nat.le_add_right _ _
          refine (withinCaps_iff_of_one_more hcaps (hsettings _) hle hone).trans (not_congr ?_)
          rw [← hw.getPeerCount_add_outside hl hidle]
          constructor
          · rintro ⟨settings, hsome, hfull⟩
            exact ⟨peer, pending, userId, key₀, settings, hindex, rfl, happ, hsome, hfull⟩
          · rintro ⟨peer', pending', -, key, settings, hpending, -, hkey, hsome, hfull⟩
            rw [hindex] at hpending
            cases hpending
            rw [happ] at hkey
            cases hkey
            exact ⟨settings, hsome, hfull⟩

theorem settings_step (w : Instance) (op : InstanceOp otherName) :
    (w.step op).settings = w.settings := by
  have hsettle : ∀ peer client (w : Instance), (w.settle peer client).settings = w.settings := by
    intro peer client w
    obtain ⟨_, _, heq, -, -⟩ := settle_frame peer client w
    rw [heq]
  have hstore : ∀ pp (w : Instance), (w.storePersistentPeer pp).settings = w.settings := by
    intro pp w
    obtain ⟨_, heq, -⟩ := storePersistentPeer_frame pp w
    rw [heq]
  cases op with
  | connect server => rfl
  | authenticate peer req random =>
    simp only [Instance.step, Instance.authenticate]
    split
    · rfl
    · split
      · exact hsettle _ _ _
      · rfl
  | answer index result =>
    simp only [Instance.step, Instance.answer]
    split
    · rfl
    · split
      · rfl
      · exact hsettle _ _ _
  | route peer ref isNew =>
    simp only [Instance.step, Instance.route]
    split
    · rfl
    · split
      · split
        · rfl
        · exact hstore _ _
      · rfl
  | app key op =>
    simp only [Instance.step, Instance.onApp]
    split <;> rfl
  | room key ref op =>
    simp only [Instance.step, Instance.onRoom]
    split
    · rfl
    · split <;> rfl
  | join peer users lease =>
    simp only [Instance.step, Instance.join]
    split
    · split
      · rfl
      · split
        · rfl
        · split <;> rfl
    · rfl
  | disconnect peer =>
    simp only [Instance.step, Instance.disconnect, Instance.modify]
    split
    · split
      · rfl
      · split <;> rfl
    · split
      · rfl
      · split <;> rfl
  | unlist peer =>
    simp only [Instance.step, Instance.modify]
    split <;> rfl
  | destroy peer =>
    simp only [Instance.step, Instance.destroy]
    split
    · rfl
    · split
      · rfl
      · split
        · rfl
        · exact hstore _ _
  | expire task => rfl

/-- A step keeps the sessions within the caps exactly if it does not overfill an app. -/
theorem withinCaps_step_iff (hw : w.Sound) (hcaps : w.WithinCaps) (op : InstanceOp otherName) :
    (w.step op).WithinCaps ↔ ¬w.Overfills op := by
  have hothers : (∀ peer req random, op ≠ .authenticate peer req random) →
      (∀ index result, op ≠ .answer index result) → (w.step op).WithinCaps :=
    fun hauth hanswer => withinCaps_of_le hcaps (settings_step w op) (sessions_step_le hw hauth hanswer)
  cases op with
  | authenticate peer req random => exact withinCaps_authenticate_iff hw hcaps req random
  | answer index result => exact withinCaps_answer_iff hw hcaps index result
  | _ => exact iff_of_true (hothers (by simp) (by simp)) id

theorem refusesRightly_of_refusal {op : InstanceOp otherName} {resp : AuthResponse}
    (hrefusal : w.refusal op = some (peer, resp)) : w.RefusesRightly op ↔
      (resp.returnCode = maxCcuReached → w.maxConnections ≠ 0 →
        w.maxConnections ≤ w.others peer) := by
  unfold RefusesRightly
  rw [hrefusal]
  constructor
  · exact fun hright => hright peer resp rfl
  · intro hright other resp' hsome
    cases hsome
    exact hright

theorem refusesRightly_of_none {op : InstanceOp otherName} (hrefusal : w.refusal op = none) :
    w.RefusesRightly op := by
  intro peer resp hsome
  rw [hrefusal] at hsome
  cases hsome

/-- Who is turned away by `authenticate`: the first count is of all connections, so a client is
turned away from the last place. -/
theorem refusesRightly_authenticate_iff (hw : w.Sound) (req : AuthRequest otherName)
    (random : AuthRandom) : w.RefusesRightly (.authenticate peer req random) ↔
      ¬w.RefusesEarly (.authenticate peer req random) := by
  cases hrequest : w.request peer req random with
  | none =>
    refine iff_of_true (refusesRightly_of_none ?_) ?_
    · simp only [refusal, hrequest, Option.bind_none]
    · rintro ⟨client, hasks, -⟩
      obtain ⟨result, hsome⟩ := hasks.request random
      rw [hrequest] at hsome
      cases hsome
  | some result =>
    obtain ⟨client, progress, st⟩ := result
    obtain ⟨hasks, heq⟩ := request_eq_some.mp hrequest
    have hcount := getConnectionCount_eq hasks.lookup
      ((hw.clients peer client hasks.lookup).listed hasks.connected)
    have hcase := (client.server.sees req).authCase w.authServer (client.server != .gameServer)
      random w.tokens
    rw [heq] at hcase
    simp only at hcase
    have hplace : ¬(w.maxConnections ≠ 0 ∧ w.getConnectionCount ≥ w.maxConnections) →
        ¬w.others peer + 1 = w.maxConnections := by
      intro hnot hlast
      refine hnot ⟨?_, ?_⟩ <;> omega
    -- Apart from the two counts, no one is turned away in the name of a cap.
    have hnever : w.others peer + 1 ≠ w.maxConnections → (req.hasToken = false →
        client.server ≠ .gameServer → ∀ params settings, req.standardParams = .ok params →
          w.settings params.app = some settings → ¬settings.IsFull (w.getPeerCount params.app)) →
        ¬w.RefusesEarly (.authenticate peer req random) := by
      rintro hlast happs ⟨client', hasks', heq' | ⟨-, hserver, htokenless, params, settings, hdecoded,
        hsettings, hfull⟩⟩
      · exact hlast heq'
      · obtain rfl := hasks.unique hasks'
        exact happs htokenless hserver params settings hdecoded hsettings hfull
    have hrefusal : w.refusal (.authenticate peer req random) =
        progress.refused.map (Prod.mk peer) := by
      simp only [refusal, hrequest, Option.bind_some]
    cases hcase with
    | full resp code hfull =>
      have hfull' : w.maxConnections ≠ 0 ∧ w.getConnectionCount ≥ w.maxConnections := hfull
      rw [refusesRightly_of_refusal hrefusal]
      constructor
      · rintro hright ⟨client', -, hearly⟩
        have hmany := hright code hfull'.1
        rcases hearly with hlast | ⟨hfew, -⟩ <;> omega
      · intro hnot _ _
        by_contra hfew
        exact hnot ⟨client, hasks, Or.inl (by omega)⟩
    | tokenFailed resp code notFull token =>
      rw [refusesRightly_of_refusal hrefusal]
      refine iff_of_true (fun hcode => absurd hcode code)
        (hnever (hplace notFull) fun htokenless hserver => ?_)
      exact absurd token (ServerType.not_hasToken_sees hserver htokenless)
    | loaded token fresh pp after messages notFull hasToken load =>
      refine iff_of_true (refusesRightly_of_none hrefusal)
        (hnever (hplace notFull) fun htokenless hserver => ?_)
      exact absurd hasToken (ServerType.not_hasToken_sees hserver htokenless)
    | standard progress notFull tokenless case =>
      have hserver := ServerType.ne_of_tokenless tokenless
      rw [ServerType.sees_of_ne hserver] at tokenless case
      have hroom := hplace notFull
      have hnotFull : ¬(w.maxConnections ≠ 0 ∧ w.getConnectionCount ≥ w.maxConnections) := notFull
      cases case with
      | failed resp full refused =>
        rw [refusesRightly_of_refusal hrefusal]
        constructor
        · rintro hright ⟨client', hasks', hlast | ⟨hfew, -, -, params, settings, hdecoded, hsettings,
            hfull⟩⟩
          · exact hroom hlast
          · have hcode := full.mpr ⟨params, settings, _,
              asksFor_iff.mpr ⟨hdecoded, hsettings, rfl⟩, hfull⟩
            have hmany := hright hcode (by omega)
            omega
        · intro hnot hcode hcapped
          obtain ⟨params, settings, count, hasked, hfull⟩ := full.mp hcode
          obtain ⟨hdecoded, hsettings, rfl⟩ := asksFor_iff.mp hasked
          by_contra hfew
          refine hnot ⟨client, hasks, Or.inr ⟨?_, hserver, tokenless, params, settings, hdecoded,
            hsettings, hfull⟩⟩
          by_contra hmany
          exact hnotFull ⟨hcapped, by omega⟩
      | granted asked hopen grants app invitation =>
        refine iff_of_true (refusesRightly_of_none hrefusal) (hnever hroom ?_)
        intro _ _ params settings hdecoded hsettings
        obtain ⟨-, rfl, hcount'⟩ := asked.unique (asksFor_iff.mpr ⟨hdecoded, hsettings, rfl⟩)
        rwa [hcount']
      | asked asked hopen refused app invitation =>
        refine iff_of_true (refusesRightly_of_none hrefusal) (hnever hroom ?_)
        intro _ _ params settings hdecoded hsettings
        obtain ⟨-, rfl, hcount'⟩ := asked.unique (asksFor_iff.mpr ⟨hdecoded, hsettings, rfl⟩)
        rwa [hcount']

/-- Who is turned away, and why. -/
theorem refusesRightly_iff (hw : w.Sound) (op : InstanceOp otherName) :
    w.RefusesRightly op ↔ ¬w.RefusesEarly op := by
  cases op with
  | authenticate peer req random => exact refusesRightly_authenticate_iff hw req random
  | answer index result =>
    cases hindex : w.pending[index]? with
    | none =>
      refine iff_of_true (refusesRightly_of_none ?_) ?_
      · simp only [refusal, hindex, Option.bind_none]
      · rintro ⟨peer, pending, e, hpending, -⟩
        rw [hindex] at hpending
        cases hpending
    | some entry =>
      obtain ⟨peer, pending⟩ := entry
      have hother : (∀ e, result = some (.error e) → e.returnCode ≠ maxCcuReached) →
          ¬w.RefusesEarly (.answer index result : InstanceOp otherName) := by
        rintro hnever ⟨-, -, e, -, hresult, hcode, -⟩
        exact hnever e hresult hcode
      cases result with
      | none =>
        refine iff_of_true ?_ (hother fun e hresult => by cases hresult)
        intro peer resp hsome hcode
        simp only [refusal, hindex, Option.bind_some, PendingAuth.resume, Option.some.injEq,
          Prod.mk.injEq] at hsome
        rw [← hsome.2] at hcode
        cases hcode
      | some answer =>
        cases answer with
        | ok userId =>
          refine iff_of_true (refusesRightly_of_none ?_) (hother fun e hresult => by cases hresult)
          simp only [refusal, hindex, Option.bind_some, PendingAuth.resume]
        | error e =>
          have hrefusal : w.refusal (.answer index (some (.error e)) : InstanceOp otherName) =
              some (peer, { e with operationCode := pending.operationCode }) := by
            simp only [refusal, hindex, Option.bind_some, PendingAuth.resume]
          rw [refusesRightly_of_refusal hrefusal]
          constructor
          · rintro hright ⟨peer', pending', e', hpending, hresult, hcode, hfew⟩
            rw [hindex] at hpending
            cases hpending
            cases hresult
            have hmany := hright hcode (by omega)
            omega
          · intro hnot hcode _
            by_contra hfew
            exact hnot ⟨peer, pending, e, hindex, rfl, hcode, by omega⟩
  | _ => exact iff_of_true (refusesRightly_of_none rfl) id

/-- In a run of a process that has just started, no app ever has more sessions than its cap and no
one is turned away too early exactly if no step overfills an app or refuses early. -/
theorem caps_iff (hw : w.IsFresh) (ops : List (InstanceOp otherName)) :
    (Transition.Always step WithinCaps w ops ∧ Transition.EachStep step RefusesRightly w ops) ↔
      Transition.EachStep step (fun w op => ¬w.Overfills op ∧ ¬w.RefusesEarly op) w ops := by
  have hsound := sound_of_isFresh hw
  have hany : Transition.EachStep step (fun (_ : Instance) (_ : InstanceOp otherName) => True) w ops :=
    Transition.eachStep_of_forall fun _ _ _ => trivial
  have hkeeps : Transition.Keeps step (fun (_ : Instance) (_ : InstanceOp otherName) => True) Sound :=
    fun w op hw _ => hw.step op
  have hempty : w.WithinCaps := by
    intro key settings _ _
    simp [sessions, storedCount, hw.stored, hw.clients]
  rw [Transition.always_iff_eachStep hkeeps
      (fun w op hw _ hcaps => withinCaps_step_iff hw hcaps op) hsound hempty hany,
    Transition.eachStep_congr hkeeps hsound hany fun w op hw _ => refusesRightly_iff hw op]
  constructor
  · exact fun hboth => hboth.1.and hboth.2
  · exact fun hboth => ⟨hboth.imp fun _ _ hstep => hstep.1, hboth.imp fun _ _ hstep => hstep.2⟩

/-- A client asks for an identity of an app, without a token. -/
def anonymousRequest (userId : String) : AuthRequest fun _ => "unknown" where
  operationCode := 230
  parameters := List.toAList
    [⟨224, Value.string "app"⟩, ⟨220, Value.string "1.0"⟩, ⟨225, Value.string userId⟩]

/-- A process with one app, which may have one session. -/
def capped (maxConnections : Nat) : Instance where
  maxConnections
  settings := fun key =>
    if key = ("app", "1.0") then some { appid := "app", maxPeers := 1 } else none

/-- Two clients of the MasterServer, and both ask for an identity. -/
def twoClients : List (InstanceOp fun _ => "unknown") :=
  [.connect .masterServer, .connect .masterServer,
    .authenticate 0 (anonymousRequest "ada") { userId := "r", token := "t" },
    .authenticate 1 (anonymousRequest "bob") { userId := "s", token := "u" }]

/-- A client of the MasterServer, and it asks for an identity. -/
def oneClient : List (InstanceOp fun _ => "unknown") :=
  [.connect .masterServer,
    .authenticate 0 (anonymousRequest "ada") { userId := "r", token := "t" }]

theorem isFresh_capped (maxConnections : Nat) : (capped maxConnections).IsFresh where
  apps _ := ⟨rfl, rfl, rfl⟩
  stored := rfl
  clients := rfl
  pending := rfl

/-- One client, whom nothing keeps out. -/
theorem caps_of_oneClient : Transition.Always step WithinCaps (capped 2) oneClient ∧
    Transition.EachStep step RefusesRightly (capped 2) oneClient := by
  refine (caps_iff (isFresh_capped 2) oneClient).mpr ?_
  have hparams : (anonymousRequest "ada").standardParams =
      .ok { applicationId := "app", authType := 0, authParams := "", appVersion := some "1.0",
            userId := some "ada" } := rfl
  have hempty : ∀ settings : AuthSettings, ¬settings.IsFull 0 :=
    fun _ hfull => hfull.1 (Nat.le_zero.mp hfull.2)
  refine ⟨⟨id, id⟩, ⟨?_, ?_⟩, trivial⟩
  · rintro ⟨client, params, settings, hlets, hfull⟩
    have hdecoded := hlets.decoded
    rw [hparams] at hdecoded
    cases hdecoded
    exact hempty settings hfull
  · rintro ⟨client, -, hlast | ⟨-, -, -, params, settings, hdecoded, -, hfull⟩⟩
    · exact absurd hlast (by decide +kernel)
    · rw [hparams] at hdecoded
      cases hdecoded
      exact hempty settings hfull

/-- An app with one place lets two clients in, and a process with one place lets no one in. -/
theorem overfull_and_shut :
    (capped 0).IsFresh ∧ ¬Transition.Always step WithinCaps (capped 0) twoClients ∧
    (capped 1).IsFresh ∧ ¬Transition.EachStep step RefusesRightly (capped 1) oneClient := by
  refine ⟨isFresh_capped 0, fun halways => ?_, isFresh_capped 1, fun hright => ?_⟩
  · have hsessions : (Transition.run step (capped 0) twoClients).sessions ("app", "1.0") = 2 := rfl
    have hlast := halways.last ("app", "1.0") { appid := "app", maxPeers := 1 } rfl (by decide)
    rw [hsessions] at hlast
    exact absurd hlast (by decide)
  · have hone := hright.2.1 0 _ rfl rfl (by decide)
    exact absurd hone (by decide +kernel)

end Caps

end Instance

end LuxonServer
