import LuxonServer.Game.SetProperties

/-! Compare-and-swap on a property of a room: requests that all expect one value of a key and write
another, and when no two of them can succeed. -/

namespace LuxonServer

namespace PropertyCall

/-- The request expects `value` under `key`, and writes one of the values `written` there. -/
structure Swaps (key value : Value) (written : Set Value) (call : PropertyCall) : Prop where
  expects : ∃ expected, call.request.expectedValues = some expected ∧
    expected.lookup key = some value
  writes : ∃ props, call.request.properties = some props ∧
    ∃ new ∈ written, props.lookup key = some new

/-- An accepted update with `new` takes the value `value` away from a key: a built-in key is one
whose field takes `new`, and a null key is one that is deleted. -/
def Displaces (settings : AppSettings) (deleteNull : Bool) (key value new : Value) : Prop :=
  match key with
  | .byte code => (GameProp.ofCode code).any (fun p => p.accepts settings new) = true
  | .null => deleteNull = true ∧ value ≠ .null
  | _ => True

/-- The room that a request leaves. -/
def after (settings : AppSettings) (g : Game) (call : PropertyCall) : Game :=
  (call.outcome settings g).game

/-- Someone in the room can ask. -/
def CanAsk (g : Game) : Prop :=
  ∃ heap peer actorId, g.actorIdForPeer heap peer = some actorId ∧ actorId ≠ 0

/-- At most one of the requests succeeds, and each of the others leaves the room as it is. -/
structure Exclusive (settings : AppSettings) (g : Game) (calls : List PropertyCall) : Prop where
  winner : Transition.occurrences (after settings) (succeeds settings) g calls ≤ 1
  losers : Transition.EachStep (after settings)
    (fun g call => call.succeeds settings g = false → call.after settings g = g) g calls

end PropertyCall

namespace Game

variable {settings : AppSettings} {deleteNull : Bool} {g g' : Game} {key value new : Value}

/-- After the update the expected value is met no more, exactly if the update displaces it. -/
theorem meets_stored_iff (hne : new ≠ value) (hmeets : Meets deleteNull g key value)
    (hstored : g'.propAt key = stored settings deleteNull key new (g.propAt key)) :
    Meets deleteNull g' key value ↔ ¬PropertyCall.Displaces settings deleteNull key value new := by
  unfold Meets at hmeets ⊢
  unfold PropertyCall.Displaces
  rw [hstored]
  cases key with
  | byte code =>
    cases hp : GameProp.ofCode code with
    | none => simpa [stored_unknown hp, hp] using hmeets
    | some p =>
      simp only [stored_builtin hp, hp, Option.any_some]
      by_cases haccepts : p.accepts settings new = true
      · simp [haccepts, hne]
      · simpa [haccepts] using hmeets
  | null =>
    cases deleteNull with
    | false => simpa [stored_null] using hmeets
    | true => simp [stored_null]
  | _ => simp [stored_custom, hne]

end Game

namespace PropertyCall

variable {settings : AppSettings} {g : Game} {call : PropertyCall} {calls : List PropertyCall}
  {key value : Value} {written : Set Value}

theorem after_of_accepted (settings : AppSettings) {props : Hashtable}
    (ha : call.Accepted g props) :
    call.after settings g = (g.insertGameProps settings props).1 := by
  obtain ⟨actorId, hout⟩ := outcome_of_accepted settings ha
  rw [after, hout]

theorem propsOnly_after (settings : AppSettings) (g : Game) (call : PropertyCall) :
    Game.PropsOnly g (call.after settings g) := by
  rcases outcome_cases settings g call with ⟨props, haccepted⟩ | ⟨-, -, hgame, -⟩
  · rw [after_of_accepted settings haccepted]
    exact Game.propsOnly_insertGameProps settings props g
  · rw [after, hgame]
    exact Game.PropsOnly.refl g

theorem flags_after (settings : AppSettings) (g : Game) (call : PropertyCall) :
    (call.after settings g).flags = g.flags := by
  obtain ⟨_, _, _, _, _, _, _, _, _, heq⟩ := propsOnly_after settings g call
  rw [heq]

theorem actorIdForPeer_after (settings : AppSettings) (g : Game) (call : PropertyCall)
    (heap : PeerHeap) (peer : Option PeerRef) :
    (call.after settings g).actorIdForPeer heap peer = g.actorIdForPeer heap peer := by
  obtain ⟨_, _, _, _, _, _, _, _, _, heq⟩ := propsOnly_after settings g call
  rw [heq]
  rfl

/-- The value that a successful request has expected is there. -/
theorem Swaps.meets (hswaps : call.Swaps key value written) {props : Hashtable}
    (ha : call.Accepted g props) :
    Game.Meets (GameFlag.deleteNullProps.isSet g.flags) g key value := by
  obtain ⟨expected, hexpected, hvalue⟩ := hswaps.expects
  have hmet := ha.expected
  rw [hexpected, Option.all_some] at hmet
  exact (Game.expectGameProps_iff expected g).mp hmet key value hvalue

/-- A successful request has written its value. -/
theorem Swaps.propAt_after (hswaps : call.Swaps key value written) (settings : AppSettings)
    {props : Hashtable} (ha : call.Accepted g props) :
    ∃ new ∈ written, (call.after settings g).propAt key =
      Game.stored settings (GameFlag.deleteNullProps.isSet g.flags) key new (g.propAt key) := by
  obtain ⟨update, hupdate, new, hnew, hlookup⟩ := hswaps.writes
  obtain rfl : update = props := Option.some.inj (hupdate.symm.trans ha.properties)
  refine ⟨new, hnew, ?_⟩
  rw [after_of_accepted settings ha, Game.propAt_insertGameProps, hlookup, Option.elim_some]

/-- The value that the requests expect is not there: none of them succeeds. -/
theorem occurrences_of_not_meets
    (hcalls : ∀ call ∈ calls, call.Swaps key value written)
    (hmeets : ¬Game.Meets (GameFlag.deleteNullProps.isSet g.flags) g key value) :
    Transition.occurrences (after settings) (succeeds settings) g calls = 0 := by
  induction calls with
  | nil => rfl
  | cons call calls ih =>
    rcases outcome_cases settings g call with ⟨props, haccepted⟩ | ⟨-, hfails, hgame, -⟩
    · exact absurd ((hcalls call List.mem_cons_self).meets haccepted) hmeets
    · rw [Transition.occurrences_cons_of_not hfails, after, hgame]
      exact ih fun c hc => hcalls c (List.mem_cons_of_mem _ hc)

theorem occurrences_of_not_canAsk (hask : ¬CanAsk g) (calls : List PropertyCall) :
    Transition.occurrences (after settings) (succeeds settings) g calls = 0 := by
  induction calls with
  | nil => rfl
  | cons call calls ih =>
    rcases outcome_cases settings g call with ⟨props, haccepted⟩ | ⟨-, hfails, hgame, -⟩
    · obtain ⟨actorId, hactor, hne⟩ := haccepted.sender
      exact absurd ⟨call.heap, call.peer, actorId, hactor, hne⟩ hask
    · rw [Transition.occurrences_cons_of_not hfails, after, hgame]
      exact ih

theorem occurrences_le_one (hnew : ∀ new ∈ written, new ≠ value)
    (hcalls : ∀ call ∈ calls, call.Swaps key value written)
    (hdisplaces : Game.Meets (GameFlag.deleteNullProps.isSet g.flags) g key value →
      ∀ new ∈ written,
        Displaces settings (GameFlag.deleteNullProps.isSet g.flags) key value new) :
    Transition.occurrences (after settings) (succeeds settings) g calls ≤ 1 := by
  induction calls with
  | nil => exact Nat.zero_le 1
  | cons call calls ih =>
    have hcall := hcalls call List.mem_cons_self
    have hrest : ∀ c ∈ calls, c.Swaps key value written :=
      fun c hc => hcalls c (List.mem_cons_of_mem _ hc)
    rcases outcome_cases settings g call with ⟨props, haccepted⟩ | ⟨-, hfails, hgame, -⟩
    · have hmeets := hcall.meets haccepted
      obtain ⟨new, hmem, hstored⟩ := hcall.propAt_after settings haccepted
      have hgone := (not_congr (Game.meets_stored_iff (hnew new hmem) hmeets hstored)).mpr
        (not_not.mpr (hdisplaces hmeets new hmem))
      rw [Transition.occurrences_cons_of (succeeds_of_accepted haccepted),
        occurrences_of_not_meets hrest (by rwa [flags_after])]
    · rw [Transition.occurrences_cons_of_not hfails, after, hgame]
      exact ih hrest

theorem losers_unchanged (settings : AppSettings) (g : Game) (calls : List PropertyCall) :
    Transition.EachStep (after settings)
      (fun g call => call.succeeds settings g = false → call.after settings g = g) g calls := by
  refine Transition.eachStep_of_forall fun call _ g hfails => ?_
  rcases outcome_cases settings g call with ⟨props, haccepted⟩ | ⟨-, -, hgame, -⟩
  · rw [succeeds_of_accepted haccepted] at hfails
    cases hfails
  · exact hgame

def swap (heap : PeerHeap) (peer : Option PeerRef) (key value new : Value) : PropertyCall where
  heap := heap
  peer := peer
  request :=
    { broadcast := true
      properties := some (AList.insert key new ∅)
      expectedValues := some (AList.insert key value ∅) }

theorem accepted_swap {heap : PeerHeap} {peer : Option PeerRef} {new : Value} {actorId : Int}
    (hactor : g.actorIdForPeer heap peer = some actorId) (hne : actorId ≠ 0)
    (hmeets : Game.Meets (GameFlag.deleteNullProps.isSet g.flags) g key value) :
    (swap heap peer key value new).Accepted g (AList.insert key new ∅) where
  sender := ⟨actorId, hactor, hne⟩
  properties := rfl
  nonempty := by simp
  expected := by
    show g.expectGameProps (AList.insert key value ∅) = true
    rw [Game.expectGameProps_iff]
    intro key' value' hlookup
    rw [AList.lookup_insert_eq] at hlookup
    split at hlookup
    · next hkey =>
      cases hlookup
      exact hkey ▸ hmeets
    · cases hlookup

theorem swaps_swap {new : Value} (hnew : new ∈ written) (heap : PeerHeap)
    (peer : Option PeerRef) : (swap heap peer key value new).Swaps key value written where
  expects := ⟨_, rfl, AList.lookup_insert _⟩
  writes := ⟨_, rfl, new, hnew, AList.lookup_insert _⟩

/-- Whatever requests that expect one value of a key and write others come in whatever order, at
most one succeeds, exactly if each of the written values displaces the expected one, or no request
can find the expected one at all. -/
theorem exclusive_iff (settings : AppSettings) (g : Game) (key value : Value)
    {written : Set Value} (hnew : ∀ new ∈ written, new ≠ value) :
    (∀ calls : List PropertyCall, (∀ call ∈ calls, call.Swaps key value written) →
      Exclusive settings g calls) ↔
      (CanAsk g → Game.Meets (GameFlag.deleteNullProps.isSet g.flags) g key value →
        ∀ new ∈ written,
          Displaces settings (GameFlag.deleteNullProps.isSet g.flags) key value new) := by
  constructor
  · rintro hexclusive ⟨heap, peer, actorId, hactor, hne⟩ hmeets new hmem
    by_contra hdisplaces
    let call := swap heap peer key value new
    have hfirst : call.Accepted g _ := accepted_swap hactor hne hmeets
    have hstored : (call.after settings g).propAt key = Game.stored settings
        (GameFlag.deleteNullProps.isSet g.flags) key new (g.propAt key) := by
      rw [after_of_accepted settings hfirst, Game.propAt_insertGameProps, AList.lookup_insert,
        Option.elim_some]
    have hstill := (Game.meets_stored_iff (hnew new hmem) hmeets hstored).mpr hdisplaces
    have hsecond : call.Accepted (call.after settings g) _ :=
      accepted_swap ((actorIdForPeer_after settings g call heap peer).trans hactor) hne
        (by rwa [flags_after])
    have hwinner := (hexclusive [call, call] (by
      intro c hc
      obtain rfl : c = call := by simpa using hc
      exact swaps_swap hmem heap peer)).winner
    rw [Transition.occurrences_cons_of (succeeds_of_accepted hfirst),
      Transition.occurrences_cons_of (succeeds_of_accepted hsecond)] at hwinner
    omega
  · intro hdisplaces calls hcalls
    refine ⟨?_, losers_unchanged settings g calls⟩
    by_cases hask : CanAsk g
    · exact occurrences_le_one hnew hcalls (hdisplaces hask)
    · rw [occurrences_of_not_canAsk hask calls]
      exact Nat.zero_le 1

/-- Ada takes a lock that is free, twice: once she gets it. -/
theorem exclusive_iff_free_lock :
    Exclusive {} Room.adas.game
      [swap Room.adas.heap (some 1) (.string "lock") .null (.int32 1),
        swap Room.adas.heap (some 1) (.string "lock") .null (.int32 2)] := by
  have hnew : ∀ new ∈ ({.int32 1, .int32 2} : Set Value), new ≠ .null := by
    rintro new (rfl | rfl) <;> nofun
  apply (exclusive_iff {} Room.adas.game (.string "lock") .null hnew).mpr fun _ _ _ _ => trivial
  intro call hcall
  rcases List.mem_pair.mp hcall with rfl | rfl
  · exact swaps_swap (Or.inl rfl) _ _
  · exact swaps_swap (Or.inr rfl) _ _

/-- Both of two requests succeed that expect the limit `4` and write one that is no byte. -/
theorem not_exclusive_wrong_type :
    let call := swap Room.adas.heap (some 1) (.byte 255) (.byte 4) (.int32 8)
    call.Swaps (.byte 255) (.byte 4) {.int32 8} ∧ ¬Exclusive {} Room.adas.game [call, call] := by
  refine ⟨swaps_swap (Set.mem_singleton _) _ _, fun hexclusive => ?_⟩
  have hwinner := hexclusive.winner
  revert hwinner
  decide

end PropertyCall

end LuxonServer
