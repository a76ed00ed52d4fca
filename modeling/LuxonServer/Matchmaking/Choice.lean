import Mathlib.Data.List.Find
import LuxonServer.Lib.Limit
import LuxonServer.Lobby.GameList
import LuxonServer.Lobby.Sqlite
import LuxonServer.Matchmaking.Agreement

/-! Which room `JoinRandomGame` selects: the candidates of a lobby and the count that they are
compared by, and the filters of a lobby that is queried with SQL. -/

namespace LuxonServer

open Game

/-- How a kind of matching compares two counts of players; the first room is no worse. -/
def MatchmakingType.Prefers : MatchmakingType → Nat → Nat → Prop
  | .serialMatching, count, other => count ≤ other
  | .fillRoom, count, other => other ≤ count
  | .randomMatching, _, _ => True

instance (kind : MatchmakingType) (count other : Nat) : Decidable (kind.Prefers count other) := by
  cases kind <;> unfold MatchmakingType.Prefers <;> infer_instance

namespace App

variable {app : App} {lobby : LobbyId} {h : PeerHeap} {userId : String}
  {request : JoinRandomGameRequest} {ref : GameRef}

/-- The rooms in the list of a lobby. -/
def gamesIn (lobby : LobbyId) (app : App) : List GameRef :=
  ((app.lobbies.lookup lobby).map Lobby.games).getD []

/-- The candidates of `JoinRandomGame` in a lobby that is not queried with SQL. -/
def candidates (h : PeerHeap) (userId : String) (request : JoinRandomGameRequest) (app : App) :
    List GameRef :=
  (app.gamesIn request.lobby).filter fun ref =>
    (app.live.lookup ref).any fun g =>
      isSelectable h app.settings userId g && g.expectGameProps request.gameProperties

/-- The count of `get_config_snapshot`, by which the candidates are sorted. -/
def peerCount (app : App) (ref : GameRef) : Nat :=
  ((app.live.lookup ref).map activePeerCount).getD 0

/-- The `PlayerCount` that the room publishes in its lobby. -/
def publishedCount (app : App) (ref : GameRef) : Nat :=
  match (app.live.lookup ref).bind fun g => g.getLobbyGameProps.lookup playerCountKey with
  | some (.byte count) => count.toNat
  | _ => 0

/-- No room of the pool is better by the count. -/
def IsBest (kind : MatchmakingType) (count : GameRef → Nat) (pool : List GameRef) (ref : GameRef) :
    Prop :=
  ∀ other ∈ pool, kind.Prefers (count ref) (count other)

instance (kind : MatchmakingType) (count : GameRef → Nat) (pool : List GameRef) (ref : GameRef) :
    Decidable (IsBest kind count pool ref) :=
  inferInstanceAs (Decidable (∀ other ∈ pool, _))

theorem gamesIn_getLobby (lobby other : LobbyId) (app : App) :
    (app.getLobby lobby).gamesIn other = app.gamesIn other := by
  unfold gamesIn getLobby
  split
  · rw [lookup_modifyLobby]
    split
    · next heq => cases app.lobbies.lookup other <;> rfl
    · rfl
  · next hout =>
    by_cases heq : other = lobby
    · rw [heq, AList.lookup_insert, AList.lookup_eq_none.mpr hout]
      rfl
    · rw [AList.lookup_insert_ne heq]

theorem candidates_getLobby (lobby : LobbyId) :
    (app.getLobby lobby).candidates h userId request = app.candidates h userId request := by
  obtain ⟨_, hframe⟩ := getLobby_frame lobby app
  have hgames := gamesIn_getLobby lobby request.lobby app
  unfold candidates
  rw [hgames]
  rw [hframe]

/-- The rooms that the sorted list may begin with. -/
theorem mem_selection (hqueried : request.queried = none) :
    ref ∈ app.selection h userId request ↔ ref ∈ app.candidates h userId request ∧
      IsBest request.matchmakingType app.peerCount (app.candidates h userId request) ref := by
  unfold selection
  rw [hqueried]
  simp only
  rw [List.mem_filter]
  refine and_congr Iff.rfl ?_
  cases request.matchmakingType <;>
    simp only [List.all_eq_true, decide_eq_true_eq, IsBest, MatchmakingType.Prefers, implies_true]
  · rfl
  · rfl

/-- A request that makes a room is not answered with one that there was. -/
theorem createFor_ne_routed (lobby : LobbyId) (gameId address : String) (app : App)
    {found : GameRef → App → RouteResult}
    (hfound : ∀ ref app, (found ref app).answer = .routed ref true) (ref : GameRef) :
    (app.createFor lobby gameId address found).answer ≠ .routed ref false := by
  by_cases hadd : app.MayAdd gameId
  · rw [createFor_of_mayAdd hadd, hfound]
    simp
  · obtain ⟨code, message, heq⟩ := createFor_refused hadd lobby address found
    rw [heq]
    simp

/-- A request is answered with a room that there was when the pool has it in the chosen place. -/
theorem routeJoinRandomGame_routed_iff :
    (app.routeJoinRandomGame h userId request).answer = .routed ref false ↔
      ((app.getLobby request.lobby).selection h userId request)[request.choice %
        ((app.getLobby request.lobby).selection h userId request).length]? = some ref := by
  unfold routeJoinRandomGame
  rw [withLobby_fst]
  simp only
  generalize (app.getLobby request.lobby).selection h userId request = pool
  cases pool[request.choice % pool.length]? with
  | some found => simp
  | none =>
    simp only [reduceCtorEq, iff_false]
    split
    · simp
    · exact createFor_ne_routed _ _ _ _ (fun _ _ => rfl) ref

/-- In a lobby that is not queried with SQL, whatever the order of equals and the random number, the
selected room is a candidate that is best by the published count exactly if every candidate that is
best by the number of connections is best by the published count too. -/
theorem selects_best_iff (h : PeerHeap) (userId : String) (request : JoinRandomGameRequest)
    (hqueried : request.queried = none) (app : App) :
    (∀ choice ref, (app.routeJoinRandomGame h userId { request with choice }).answer =
        .routed ref false →
      ref ∈ app.candidates h userId request ∧
        IsBest request.matchmakingType app.publishedCount (app.candidates h userId request) ref) ↔
      ∀ ref ∈ app.candidates h userId request,
        IsBest request.matchmakingType app.peerCount (app.candidates h userId request) ref →
        IsBest request.matchmakingType app.publishedCount (app.candidates h userId request) ref := by
  have hpool : ∀ choice ref, ref ∈ (app.getLobby request.lobby).selection h userId
      { request with choice } ↔ ref ∈ app.candidates h userId request ∧
        IsBest request.matchmakingType app.peerCount (app.candidates h userId request) ref := by
    intro choice ref
    have hcount : (app.getLobby request.lobby).peerCount = app.peerCount := by
      obtain ⟨_, hframe⟩ := getLobby_frame request.lobby app
      rw [hframe]
      rfl
    have hmem : ref ∈ (app.getLobby request.lobby).selection h userId { request with choice } ↔ _ :=
      mem_selection hqueried
    rw [candidates_getLobby, hcount] at hmem
    exact hmem
  constructor
  · intro hall ref href hbest
    obtain ⟨choice, hlt, hchoice⟩ := List.getElem_of_mem ((hpool 0 ref).mpr ⟨href, hbest⟩)
    refine (hall choice ref (routeJoinRandomGame_routed_iff.mpr ?_)).2
    exact (congrArg _ (Nat.mod_eq_of_lt hlt)).trans (List.getElem?_eq_some_iff.mpr ⟨hlt, hchoice⟩)
  · intro hall choice ref hrouted
    rw [routeJoinRandomGame_routed_iff] at hrouted
    obtain ⟨href, hbest⟩ := (hpool choice ref).mp (List.mem_of_getElem? hrouted)
    exact ⟨href, hall ref href hbest⟩

/-- A lobby with a room of this process, in which there is one client, and a room of another
process, where there are as many as its dummies. -/
def nearAndFar (dummies : UInt8) : App :=
  let near : Game :=
    { info := ⟨"app", "1.0", "lobby", 0, "near", ""⟩, isCreated := true
      peers := [{ peer := some 1, actorId := 1 }] }
  let far : Game :=
    { info := ⟨"app", "1.0", "lobby", 0, "far", "remote"⟩, isCreated := true
      dummyPeerCount := dummies }
  { id := "app"
    version := "1.0"
    lobbies := AList.singleton ("lobby", 0) { games := [0, 1] }
    games := AList.insert "far" 1 (AList.singleton "near" 0)
    live := AList.insert 1 far (AList.singleton 0 near)
    nextRef := 2 }

/-- Nobody is in the far room, and Bob is sent there. -/
theorem selects_best_empty :
    let request : JoinRandomGameRequest := { lobby := ("lobby", 0) }
    IsBest .serialMatching (nearAndFar 0).publishedCount
      ((nearAndFar 0).candidates (fun _ => .live {}) "bob" request) 1 :=
  ((selects_best_iff (fun _ => .live {}) "bob" { lobby := ("lobby", 0) } rfl (nearAndFar 0)).mpr
    (by decide) 0 1 (by decide)).2

/-- There are five in the far room, and Bob is sent there all the same. -/
theorem not_selects_best_far :
    let request : JoinRandomGameRequest := { lobby := ("lobby", 0) }
    ((nearAndFar 5).routeJoinRandomGame (fun _ => .live {}) "bob" request).1 = .routed 1 false ∧
      0 ∈ (nearAndFar 5).candidates (fun _ => .live {}) "bob" request ∧
      (nearAndFar 5).publishedCount 0 < (nearAndFar 5).publishedCount 1 := by
  decide

end App

/-! ### A lobby that is queried with SQL -/

namespace SqlFilter

/-- A character of a word, for the boundaries of a regular expression. -/
def isWordChar (c : Char) : Bool := c.isAlphanum || c == '_'

/-- The words of a text, and nothing between characters that are in none. -/
def words : List Char → List (List Char)
  | [] => [[]]
  | c :: rest =>
    match words rest with
    | [] => [[c]]
    | word :: others => if isWordChar c then (c :: word) :: others else [] :: word :: others

/-- The words that `forbidden_keywords` finds, in any case. -/
def forbiddenKeywords : List String :=
  ["ALTER", "CREATE", "DELETE", "DROP", "EXEC", "EXECUTE", "INSERT", "MERGE", "SELECT", "UPDATE",
    "UNION"]

/-- `std::regex_search(sql_queries, forbidden_keywords)`. -/
def hasForbiddenKeyword (text : List Char) : Bool :=
  (words text).any fun word => String.ofList (word.map Char.toUpper) ∈ forbiddenKeywords

/-- The loop of `query_lobbies`; `query` is the statement with a filter, and has the ids of
rooms. -/
def chain (query : String → Except String (List String)) :
    List String → Except String (List String)
  | [] => .ok []
  | filter :: rest =>
    if filter = "" then chain query rest
    else
      match query filter with
      | .error message => .error message
      | .ok [] => chain query rest
      | .ok (id :: ids) => .ok (id :: ids)

/-- `query_lobbies`; `strSplit` is `str_split(sql_queries, ';', 3)`. -/
def queryLobbies (strSplit : String → List String)
    (query : String → Except String (List String)) (sqlQueries : String) :
    Except String (List String) :=
  let queries := strSplit sqlQueries
  let queries := if queries.getLast? = some "" then queries.dropLast else queries
  if queries = [] then .ok []
  else if queries.length > 3 then
    .error "There may be no more than 3 SQL queries at a time"
  else if hasForbiddenKeyword sqlQueries.toList then
    .error "SQL filter contains excluded keywords."
  else chain query queries

theorem chain_eq {query : String → Except String (List String)} {results : String → List String}
    {filters : List String} (hnamed : "" ∉ filters)
    (hquery : ∀ f ∈ filters, query f = .ok (results f)) :
    chain query filters = .ok ((filters.find? fun f => results f != []).elim [] results) := by
  induction filters with
  | nil => rfl
  | cons f rest ih =>
    rw [List.mem_cons, not_or] at hnamed
    rw [List.forall_mem_cons] at hquery
    rw [chain, if_neg (Ne.symm hnamed.1), hquery.1, List.find?_cons]
    cases hresults : results f with
    | nil => simpa using ih hnamed.2 hquery.2
    | cons id ids => exact congrArg Except.ok hresults.symm

/-- A chain of one to three filters; a semicolon may follow the last. -/
structure IsChain (strSplit : String → List String) (sqlQueries : String) (filters : List String) :
    Prop where
  split : strSplit sqlQueries = filters ∨ strSplit sqlQueries = filters ++ [""]
  nonempty : filters ≠ []
  length_le : filters.length ≤ 3
  named : "" ∉ filters
  allowed : hasForbiddenKeyword sqlQueries.toList = false

theorem IsChain.queryLobbies {strSplit : String → List String} {sqlQueries : String}
    {filters : List String} (hchain : IsChain strSplit sqlQueries filters)
    (query : String → Except String (List String)) :
    queryLobbies strSplit query sqlQueries = chain query filters := by
  have hlast : filters.getLast? ≠ some "" := fun hempty =>
    hchain.named (List.mem_of_getLast? hempty)
  have hqueries : (if (strSplit sqlQueries).getLast? = some "" then (strSplit sqlQueries).dropLast
      else strSplit sqlQueries) = filters := by
    rcases hchain.split with heq | heq
    · rw [heq, if_neg hlast]
    · rw [heq, if_pos List.getLast?_concat, List.dropLast_concat]
  unfold SqlFilter.queryLobbies
  simp only [hqueries, if_neg hchain.nonempty, if_neg (Nat.not_lt.mpr hchain.length_le),
    hchain.allowed, Bool.false_eq_true, if_false]

end SqlFilter

namespace App

variable {app : App} {lobby : LobbyId} {h : PeerHeap} {userId : String}
  {request : JoinRandomGameRequest} {ref : GameRef} {satisfies : String → Game → Bool}

/-- `JoinRandomGame` in a lobby that is queried with SQL; an exception of the query is the answer
`OperationInvalid` with its message. -/
def routeSqlJoinRandomGame (h : PeerHeap) (strSplit : String → List String)
    (query : String → Except String (List String)) (userId sqlFilter : String)
    (request : JoinRandomGameRequest) (app : App) : Except String RouteResult :=
  match SqlFilter.queryLobbies strSplit query sqlFilter with
  | .error message => .error message
  | .ok gameIds => .ok (app.routeJoinRandomGame h userId { request with queried := some gameIds })

/-- The rooms of a lobby that satisfy a filter. -/
def satisfying (satisfies : String → Game → Bool) (lobby : LobbyId) (filter : String) (app : App) :
    List GameRef :=
  (app.gamesIn lobby).filter fun ref => (app.live.lookup ref).any (satisfies filter)

/-- A room is joinable, and the user passes its check. -/
def isSuitable (h : PeerHeap) (userId : String) (app : App) (ref : GameRef) : Bool :=
  (app.live.lookup ref).any (isSelectable h app.settings userId)

/-- The `__id` of a row, as `query_lobbies` reads it: up to the first zero. -/
def rowId (app : App) (ref : GameRef) : String :=
  String.ofList (CString.ofString (((app.live.lookup ref).map fun g => g.info.id).getD "")).chars

/-- The room that is found by the `__id` of a row. -/
def rowGame (app : App) (ref : GameRef) : Option GameRef := app.games.lookup (app.rowId ref)

/-- The room that is found for a row is suitable. -/
def isReached (h : PeerHeap) (userId : String) (app : App) (ref : GameRef) : Bool :=
  (app.rowGame ref).any (app.isSuitable h userId)

/-- A filter is satisfied by a room of the lobby. -/
def isSatisfied (satisfies : String → Game → Bool) (lobby : LobbyId) (app : App) (filter : String) :
    Bool :=
  app.satisfying satisfies lobby filter != []

/-- The suitable rooms of a lobby that satisfy a filter. -/
def suitable (h : PeerHeap) (userId : String) (satisfies : String → Game → Bool) (lobby : LobbyId)
    (filter : String) (app : App) : List GameRef :=
  (app.satisfying satisfies lobby filter).filter (app.isSuitable h userId)

/-- The rows of a filter by which a suitable room is found. -/
def reached (h : PeerHeap) (userId : String) (satisfies : String → Game → Bool) (lobby : LobbyId)
    (filter : String) (app : App) : List GameRef :=
  (app.satisfying satisfies lobby filter).filter (app.isReached h userId)

/-- The other rows of a filter. -/
def missed (h : PeerHeap) (userId : String) (satisfies : String → Game → Bool) (lobby : LobbyId)
    (filter : String) (app : App) : List GameRef :=
  (app.satisfying satisfies lobby filter).filter fun ref => !app.isReached h userId ref

/-- What SQLite may answer to `SELECT __id FROM Games WHERE (filter) LIMIT 100`. -/
def MayReturn (satisfies : String → Game → Bool) (lobby : LobbyId) (filter : String)
    (results : List String) (app : App) : Prop :=
  ∃ order : List GameRef, order.Perm (app.satisfying satisfies lobby filter) ∧
    results = (order.take 100).map app.rowId

theorem isSatisfied_eq {results : List String} {f : String}
    (hresults : app.MayReturn satisfies lobby f results) :
    app.isSatisfied satisfies lobby f = (results != []) := by
  obtain ⟨order, hperm, heq⟩ := hresults
  rw [heq, isSatisfied]
  cases order with
  | nil => rw [List.nil_perm.mp hperm]; rfl
  | cons first rest =>
    cases hrows : app.satisfying satisfies lobby f with
    | nil => rw [hrows] at hperm; cases hperm.eq_nil
    | cons row rows => rfl

/-- A suitable room satisfies a filter, so a room does. -/
theorem isSatisfied_of_suitable {f : String}
    (hf : (app.suitable h userId satisfies lobby f != []) = true) :
    app.isSatisfied satisfies lobby f = true := by
  rw [isSatisfied, bne_iff_ne]
  intro hnone
  rw [suitable, hnone] at hf
  cases hf

/-- Of the rooms that are found for the rows, the first suitable one is that of the first row by
which one is found. -/
theorem head?_filterMap_rowGame (order : List GameRef) :
    ((order.filterMap app.rowGame).filter (app.isSuitable h userId)).head? =
      (order.filter (app.isReached h userId)).head?.bind app.rowGame := by
  induction order with
  | nil => rfl
  | cons row rest ih =>
    cases hgame : app.rowGame row with
    | none =>
      have hmissed : app.isReached h userId row = false := by rw [isReached, hgame]; rfl
      rw [List.filterMap_cons_none hgame, ih, List.filter_cons_of_neg (by simp [hmissed])]
    | some found =>
      have hreached : app.isReached h userId row = app.isSuitable h userId found := by
        rw [isReached, hgame]
        rfl
      rw [List.filterMap_cons_some hgame]
      cases hsuitable : app.isSuitable h userId found with
      | true =>
        rw [hsuitable] at hreached
        rw [List.filter_cons_of_pos hsuitable, List.filter_cons_of_pos hreached]
        exact hgame.symm
      | false =>
        rw [hsuitable] at hreached
        rw [List.filter_cons_of_neg (by simp [hsuitable]),
          List.filter_cons_of_neg (by simp [hreached]), ih]

theorem routed_queried_iff (order : List GameRef) :
    (app.routeJoinRandomGame h userId
        { request with queried := some (order.map app.rowId) }).answer = .routed ref false ↔
      (order.filter (app.isReached h userId)).head?.bind app.rowGame = some ref := by
  have hpool : (app.getLobby request.lobby).selection h userId
      { request with queried := some (order.map app.rowId) } =
        ((order.filterMap app.rowGame).filter (app.isSuitable h userId)).take 1 := by
    obtain ⟨_, hframe⟩ := getLobby_frame request.lobby app
    rw [hframe]
    unfold selection
    simp only [List.filterMap_map]
    rfl
  rw [routeJoinRandomGame_routed_iff]
  simp only
  rw [hpool, ← head?_filterMap_rowGame]
  cases (order.filterMap app.rowGame).filter (app.isSuitable h userId) with
  | nil => simp
  | cons first rest => simp [Nat.mod_one]

variable (h userId) in
/-- The answer when the query has the rows of a filter in their `order`. -/
theorem routeSqlJoinRandomGame_routed_iff {strSplit : String → List String} {sqlFilter : String}
    {filters : List String} (hchain : SqlFilter.IsChain strSplit sqlFilter filters)
    {query : String → Except String (List String)} {order : String → List GameRef}
    (horder : ∀ f ∈ filters, (order f).Perm (app.satisfying satisfies request.lobby f) ∧
      query f = .ok (((order f).take 100).map app.rowId)) :
    ∃ result, app.routeSqlJoinRandomGame h strSplit query userId sqlFilter request =
        .ok result ∧
      ∀ f, filters.find? (app.isSatisfied satisfies request.lobby) = some f →
        ∀ ref, result.answer = .routed ref false ↔
          (((order f).take 100).filter (app.isReached h userId)).head?.bind app.rowGame =
            some ref := by
  have hsame : ∀ f ∈ filters, (((order f).take 100).map app.rowId != []) =
      app.isSatisfied satisfies request.lobby f := fun f hf =>
    (isSatisfied_eq ⟨order f, (horder f hf).1, rfl⟩).symm
  have hanswer : SqlFilter.queryLobbies strSplit query sqlFilter =
      .ok ((filters.find? (app.isSatisfied satisfies request.lobby)).elim []
        fun f => ((order f).take 100).map app.rowId) := by
    rw [hchain.queryLobbies, SqlFilter.chain_eq hchain.named fun f hf => (horder f hf).2,
      List.find?_congr hsame]
  refine ⟨_, by rw [routeSqlJoinRandomGame, hanswer], fun f hf ref => ?_⟩
  rw [hf]
  exact routed_queried_iff _

theorem rowGame_isSome_of_isReached (row : GameRef) (hreached : app.isReached h userId row = true) :
    (app.rowGame row).isSome := by
  obtain ⟨ref, href, -⟩ := Option.any_eq_true _ _ |>.mp hreached
  rw [href]
  rfl

/-- In every lobby that is queried with SQL, whatever the order of the rows, a room is selected
whenever one is suitable and satisfies a filter of the chain, and it satisfies the first such
filter, exactly if among the rows of the first filter that has any there are fewer than `100` by
which no suitable room is found and some by which one is found, and each that is found satisfies the
first filter that a suitable room satisfies. -/
theorem selects_along_chain_iff (app : App) (h : PeerHeap) (userId : String)
    (request : JoinRandomGameRequest) (satisfies : String → Game → Bool)
    {strSplit : String → List String} {sqlFilter : String} {filters : List String}
    (hchain : SqlFilter.IsChain strSplit sqlFilter filters) :
    (∀ query : String → Except String (List String),
      (∀ f ∈ filters, ∃ results, query f = .ok results ∧
        app.MayReturn satisfies request.lobby f results) →
      ∃ result, app.routeSqlJoinRandomGame h strSplit query userId sqlFilter request =
          .ok result ∧
        ∀ f, filters.find? (fun f => app.suitable h userId satisfies request.lobby f != []) =
            some f →
          ∃ ref ∈ app.suitable h userId satisfies request.lobby f,
            result.answer = .routed ref false) ↔
      ∀ f, filters.find? (fun f => app.suitable h userId satisfies request.lobby f != []) =
          some f →
        ∃ first, filters.find? (app.isSatisfied satisfies request.lobby) = some first ∧
          (app.missed h userId satisfies request.lobby first).length < 100 ∧
          app.reached h userId satisfies request.lobby first ≠ [] ∧
          ∀ row ∈ app.reached h userId satisfies request.lobby first, ∀ ref,
            app.rowGame row = some ref → ref ∈ app.suitable h userId satisfies request.lobby f := by
  constructor
  · intro hall f hf
    have hsuitable := List.find?_some hf
    obtain ⟨first, hfirst⟩ := Option.isSome_iff_exists.mp
      (List.find?_isSome.mpr ⟨f, List.mem_of_find?_eq_some hf, isSatisfied_of_suitable hsuitable⟩)
    refine ⟨first, hfirst,
      (Limit.forall_perm_picks_iff rowGame_isSome_of_isReached (by decide)).mp ?_⟩
    intro rows hrows
    let order other := if other = first then rows else app.satisfying satisfies request.lobby other
    let query (other : String) : Except String (List String) :=
      .ok (((order other).take 100).map app.rowId)
    have horder : ∀ other ∈ filters,
        (order other).Perm (app.satisfying satisfies request.lobby other) ∧
          query other = .ok (((order other).take 100).map app.rowId) := by
      intro other _
      refine ⟨?_, rfl⟩
      by_cases heq : other = first
      · rw [show order other = rows from if_pos heq, heq]
        exact hrows
      · rw [show order other = _ from if_neg heq]
    obtain ⟨result, hrun, hanswer⟩ := hall query fun other hmem =>
      ⟨_, rfl, order other, (horder other hmem).1, rfl⟩
    obtain ⟨_, hrun', hiff⟩ := routeSqlJoinRandomGame_routed_iff h userId hchain horder
    rw [hrun] at hrun'
    cases hrun'
    obtain ⟨ref, href, hrouted⟩ := hanswer f hf
    have hhead := (hiff first hfirst ref).mp hrouted
    rw [show order first = rows from if_pos rfl] at hhead
    exact ⟨ref, href, hhead⟩
  · intro hall query hquery
    have hrows : ∀ f ∈ filters, ∃ order : List GameRef,
        order.Perm (app.satisfying satisfies request.lobby f) ∧
          query f = .ok ((order.take 100).map app.rowId) := by
      intro f hf
      obtain ⟨_, hresults, order, hperm, rfl⟩ := hquery f hf
      exact ⟨order, hperm, hresults⟩
    choose! order horder using hrows
    obtain ⟨result, hrun, hiff⟩ := routeSqlJoinRandomGame_routed_iff h userId hchain horder
    refine ⟨result, hrun, fun f hf => ?_⟩
    obtain ⟨first, hfirst, hpicks⟩ := hall f hf
    have hperm := (horder first (List.mem_of_find?_eq_some hfirst)).1
    obtain ⟨ref, href, hhead⟩ :=
      (Limit.forall_perm_picks_iff rowGame_isSome_of_isReached (by decide)).mpr hpicks _ hperm
    exact ⟨ref, href, (hiff first hfirst ref).mpr hhead⟩

/-- A lobby with a room for each of two filters, the first of which may be closed. -/
def chainedRooms (isOpen : Bool) : App :=
  let room (id : String) (isOpen : Bool) (value : Value) : Game :=
    { info := ⟨"app", "1.0", "lobby", 2, id, ""⟩, isCreated := true, isOpen
      customProps := AList.singleton (.string "C0") value }
  { id := "app"
    version := "1.0"
    lobbies := AList.singleton ("lobby", 2) { games := [0, 1] }
    games := AList.insert "second" 1 (AList.singleton "first" 0)
    live := AList.insert 1 (room "second" true (.int32 2))
      (AList.singleton 0 (room "first" isOpen (.int32 1)))
    nextRef := 2 }

/-- The filters `C0 = 1` and `C0 = 2`. -/
def satisfiesC0 (filter : String) (g : Game) : Bool :=
  (filter, g.customProps.lookup (.string "C0")) ∈
    [("C0 = 1", some (.int32 1)), ("C0 = 2", some (.int32 2))]

/-- The texts between the semicolons. -/
def splitQueries (text : String) : List String :=
  let parts := text.toList.foldr (fun c parts =>
    match parts with
    | part :: others => if c = ';' then [] :: part :: others else (c :: part) :: others
    | [] => []) [[]]
  parts.map String.ofList

/-- The first room is open, and Bob is sent there. -/
theorem selects_along_chain_open :
    let app := chainedRooms true
    let query (filter : String) : Except String (List String) :=
      .ok (((app.satisfying satisfiesC0 ("lobby", 2) filter).take 100).map app.rowId)
    ∃ result, app.routeSqlJoinRandomGame (fun _ => .live {}) splitQueries query "bob"
        "C0 = 1;C0 = 2" { lobby := ("lobby", 2) } = .ok result ∧
      ∃ ref ∈ app.suitable (fun _ => .live {}) "bob" satisfiesC0 ("lobby", 2) "C0 = 1",
        result.answer = .routed ref false := by
  have hchain : SqlFilter.IsChain splitQueries "C0 = 1;C0 = 2" ["C0 = 1", "C0 = 2"] :=
    ⟨Or.inl (by decide +kernel), by decide, by decide, by decide, by decide +kernel⟩
  have hfirst : ["C0 = 1", "C0 = 2"].find? (fun f => (chainedRooms true).suitable
      (fun _ => .live {}) "bob" satisfiesC0 ("lobby", 2) f != []) = some "C0 = 1" := by
    decide +kernel
  obtain ⟨result, hrun, hanswer⟩ := (selects_along_chain_iff (chainedRooms true)
    (fun _ => .live {}) "bob" { lobby := ("lobby", 2) } satisfiesC0 hchain).mpr (by
      intro f hf
      obtain rfl := Option.some.inj (hfirst.symm.trans hf)
      refine ⟨"C0 = 1", by decide +kernel, by decide +kernel, by decide +kernel,
        fun row hrow ref href => ?_⟩
      have hreached : (chainedRooms true).reached (fun _ => .live {}) "bob" satisfiesC0
          ("lobby", 2) "C0 = 1" = [0] := by decide +kernel
      rw [hreached, List.mem_singleton] at hrow
      rw [hrow, show (chainedRooms true).rowGame 0 = some 0 by decide +kernel] at href
      cases href
      decide +kernel) _ fun f _ => ⟨_, rfl, _, List.Perm.refl _, rfl⟩
  exact ⟨result, hrun, hanswer _ hfirst⟩

/-- The first room is closed, and Bob is sent nowhere, though the second is open. -/
theorem not_selects_along_chain_closed :
    let app := chainedRooms false
    let query (filter : String) : Except String (List String) :=
      .ok (((app.satisfying satisfiesC0 ("lobby", 2) filter).take 100).map app.rowId)
    (app.routeSqlJoinRandomGame (fun _ => .live {}) splitQueries query "bob"
        "C0 = 1;C0 = 2" { lobby := ("lobby", 2) }).map RouteResult.answer =
      .ok (.refused .noRandomMatchFound "No matching game found") ∧
    1 ∈ app.suitable (fun _ => .live {}) "bob" satisfiesC0 ("lobby", 2) "C0 = 2" := by
  decide +kernel

end App

end LuxonServer
