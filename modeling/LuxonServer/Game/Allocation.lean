import LuxonServer.Game.Valid

/-! The two ways to an actor number: `create_peer` searches for a free one, and
`create_peer_for_actor` is told which one a client had before. -/

namespace LuxonServer

namespace Game

variable {h : PeerHeap} {peer : Option PeerRef} {userId : String} {g : Game}

/-- The search fails only when every number is used, wherever it starts. -/
theorem allocateActor_eq_zero_iff {used : Int → Bool} {last : Int}
    (hlast : 0 ≤ last ∧ last ≤ 0xfe) : (allocateActor used 0xfe last).1 = 0 ↔
      ∀ actorId, 1 ≤ actorId → actorId ≤ 0xfe → used actorId = true := by
  constructor
  · intro hfail actorId hone hmax
    exact used_of_allocateActor_full hlast.1 hfail ⟨hone, hmax⟩
  · intro hall
    obtain ⟨-, hfail | ⟨hone, hmax, hfree⟩⟩ := allocateActor_spec used 0xfe hlast
    · exact hfail
    · rw [hall _ hone hmax] at hfree
      cases hfree

/-- A room whose actors are told apart has no next number only when it is full. -/
theorem nextActorId_eq_none_iff (hg : g.ActorsSound) : g.nextActorId = none ↔
    ∀ actorId : Int, 1 ≤ actorId → actorId ≤ 254 → actorId ∈ g.actorIds := by
  have hsearch := allocateActor_fst (fun actorId => (g.findActor actorId).isSome) 0xfe g.lastActorId
  have hspec := (allocateActor_spec (fun actorId => (g.findActor actorId).isSome) 0xfe hg.last).2
  have hzero :=
    @allocateActor_eq_zero_iff (fun actorId => (g.findActor actorId).isSome) _ hg.last
  simp only [findActor_of_active hg.active] at hzero
  rw [← hzero, nextActorId]
  rw [hsearch] at hspec ⊢
  cases hfound : (numbersAfter g.lastActorId 0xfe).find? fun actorId =>
      !(g.findActor actorId).isSome with
  | none => exact iff_of_true rfl rfl
  | some actorId =>
    rw [hfound, Option.getD_some] at hspec
    rw [Option.filter_eq_none_iff, Option.getD_some]
    constructor
    · intro hnone
      have hnot := hnone actorId rfl
      rcases hspec with hzero | ⟨hone, -⟩
      · exact hzero
      · simp at hnot
        omega
    · intro hzero other hother
      rw [← Option.some.inj hother, hzero]
      decide

/-- A number in the range that no actor has is given to any client that is there to take it, but for
the greatest. -/
theorem createPeerForActor_isValid (huser : h.userId peer = some userId) {actorId : Int}
    (hrange : 1 ≤ actorId ∧ actorId ≤ 0xfe) (hfree : (g.findActor actorId).isSome = false) :
    (g.createPeerForActor h peer actorId).isValid = true ∧
        (g.createPeerForActor h peer actorId).actorId = actorId ↔ actorId ≠ 0xfe := by
  unfold createPeerForActor
  rw [huser]
  simp only
  split
  · next hout =>
    refine iff_of_false (fun hvalid => ?_) (not_not_intro (by omega))
    cases hvalid.1
  · next hin =>
    rw [if_neg (by simp [hfree])]
    refine iff_of_true ⟨?_, rfl⟩ (by omega)
    simp only [GamePeer.isValid, Bool.true_and, decide_eq_true_eq]
    omega

end Game

namespace Room

open Game

variable {settings : AppSettings} {s : Room}

/-- `create_peer` finds a number for a client that is there to take it exactly if one from `1` to
`254` is on no node of the list, and then it finds such a number. -/
theorem createPeer_isValid_iff (hs : Reachable settings s) {peer : Option PeerRef}
    {userId : String} (huser : s.heap.userId peer = some userId) :
    let gp := (s.game.createPeer s.heap peer).1
    (gp.isValid = true ↔
        ∃ actorId : Int, 1 ≤ actorId ∧ actorId ≤ 254 ∧ actorId ∉ s.game.actorIds) ∧
      (gp.isValid = true →
        1 ≤ gp.actorId ∧ gp.actorId ≤ 254 ∧ gp.actorId ∉ s.game.actorIds) := by
  intro gp
  have hg := hs.valid.actors
  have hused : ∀ actorId, (s.game.findActor actorId).isSome = true ↔ actorId ∈ s.game.actorIds :=
    fun _ => findActor_of_active hg.active
  obtain ⟨hvalid, htakes⟩ := hg.createPeer_of_user huser
  refine ⟨?_, fun hgp => ?_⟩
  · have hnext : gp.isValid = true ↔ ¬s.game.nextActorId = none := by
      rw [createPeer_isValid_iff_nextActorId huser, Option.isSome_iff_ne_none]
    rw [hnext, nextActorId_eq_none_iff hg]
    simp only [not_forall, exists_prop]
  · have hfound := hvalid.mp hgp
    obtain ⟨hone, hmax, hfree⟩ := (allocateActor_spec _ 0xfe hg.last).2.resolve_left hfound
    rw [(htakes hfound).2.1, ← hused, hfree]
    exact ⟨hone, hmax, Bool.false_ne_true⟩

/-- In a new room all numbers are free, the last one too. -/
theorem createPeer_isValid_new :
    let s := Transition.run (step {}) (create ⟨"app", "1.0", "lobby", 0, "room", ""⟩)
      [.connect 1, .setPersistent 1 (some { userId := "ada", token := "a" })]
    (s.game.createPeer s.heap (some 1)).1.isValid = true := by
  intro s
  have hs : Reachable {} s := reachable_run _ _
  have huser : s.heap.userId (some 1) = some "ada" := by decide
  exact (createPeer_isValid_iff hs huser).1.mpr ⟨254, by decide⟩

/-- The number that `create_peer` returns when the operation calls it. -/
def allocates (s : Room) : RoomOp → Option Int
  | .createPeer peer =>
    let gp := (s.game.createPeer s.heap peer).1
    if s.heap.lock peer = peer ∧ gp.isValid then some gp.actorId else none
  | _ => none

/-- The numbers that `create_peer` returns in a run, one after another. -/
def allocated (settings : AppSettings) : Room → List RoomOp → List Int
  | _, [] => []
  | s, op :: ops => (s.allocates op).toList ++ allocated settings (s.step settings op) ops

theorem range_of_allocates (hs : s.Valid) {op : RoomOp} {actorId : Int}
    (hallocates : s.allocates op = some actorId) : 1 ≤ actorId ∧ actorId ≤ 254 := by
  cases op with
  | createPeer peer =>
    simp only [allocates] at hallocates
    split at hallocates
    · next hcalled =>
      cases hallocates
      exact (hs.actors.createPeer_valid hcalled.2).2
    · cases hallocates
  | _ => cases hallocates

theorem range_of_allocated (hs : s.Valid) {ops : List RoomOp} {actorId : Int}
    (hactor : actorId ∈ allocated settings s ops) : 1 ≤ actorId ∧ actorId ≤ 254 := by
  induction ops generalizing s with
  | nil => cases hactor
  | cons op ops ih =>
    rcases List.mem_append.mp hactor with hnow | hlater
    · exact range_of_allocates hs (Option.mem_toList.mp hnow)
    · exact ih (valid_keeps (fun _ _ => True) s op hs trivial) hlater

/-- A number that `create_peer` has returned, and that no node has any longer, is one that
`create_peer_for_actor` accepts, unless it is `254`. -/
theorem reclaims_iff {new : Room} (hnew : new.IsNew) (ops : List RoomOp) {actorId : Int}
    (hactor : actorId ∈ allocated settings new ops) :
    let s := Transition.run (step settings) new ops
    actorId ∉ s.game.actorIds → ∀ {peer : Option PeerRef} {userId : String},
      s.heap.userId peer = some userId →
      let gp := s.game.createPeerForActor s.heap peer actorId
      (gp.isValid = true ∧ gp.actorId = actorId ↔ actorId ≠ 254) := by
  intro s hunused peer userId huser
  have hs : Reachable settings s :=
    (Transition.Reachable.init hnew).run (Transition.eachStep_of_forall fun _ _ _ => trivial)
  have hfree : (s.game.findActor actorId).isSome = false := by
    rw [← Bool.not_eq_true, findActor_of_active hs.valid.actors.active]
    exact hunused
  exact createPeerForActor_isValid huser (range_of_allocated (valid_of_isNew hnew) hactor) hfree

/-- Ada is given the number `1`, and never uses it. -/
theorem reclaims_first :
    let s := Transition.run (step {}) (create ⟨"app", "1.0", "lobby", 0, "room", ""⟩)
      [.connect 1, .setPersistent 1 (some { userId := "ada", token := "a" }),
        .createPeer (some 1)]
    (s.game.createPeerForActor s.heap (some 1) 1).isValid = true :=
  ((@reclaims_iff {} _ (isNew_create ⟨"app", "1.0", "lobby", 0, "room", ""⟩)
    [.connect 1, .setPersistent 1 (some { userId := "ada", token := "a" }), .createPeer (some 1)]
    1 (by decide) (by decide) (some 1) "ada" (by decide)).mpr (by decide)).1

/-- Ada is given all numbers, one after another. -/
def allNumbers : List RoomOp :=
  [.connect 1, .setPersistent 1 (some { userId := "ada", token := "a" })] ++
    List.replicate 254 (.createPeer (some 1))

theorem not_reclaims_last :
    let new := create ⟨"app", "1.0", "lobby", 0, "room", ""⟩
    let s := Transition.run (step {}) new allNumbers
    254 ∈ allocated {} new allNumbers ∧ 254 ∉ s.game.actorIds ∧
      s.heap.userId (some 1) = some "ada" ∧
      (s.game.createPeerForActor s.heap (some 1) 254).isValid = false := by
  decide +kernel

end Room

end LuxonServer
