import LuxonServer.DataModel.RoundTrip
import LuxonServer.Game.Delivery

/-! The GameServer's `ChangeInterestGroups`: the request's two lists, and the groups that an actor
has after it. -/

namespace LuxonServer

variable {W : WireFormat}

/-- `models::ChangeInterestGroups`; `byteArray` is the alternative `ser::ByteArray`. -/
def Model.changeInterestGroups (byteArray : W.Tag) : Model W :=
  [{ wireKey := 238, displayName := "Add", wireType := byteArray, optional := true },
    { wireKey := 239, displayName := "Remove", wireType := byteArray, optional := true }]

/-- How the operation answers a request; it has no response when it is done. -/
inductive InterestGroupsAnswer where
  /-- "Must join first" -/
  | mustJoin
  | invalid (error : DecodeError)
  | done

/-- The handler of `ChangeInterestGroups`; `bytes` are those from `begin` to `end` of an array. -/
def Game.changeInterestGroups (h : PeerHeap) (peer : Option PeerRef) (byteArray : W.Tag)
    (bytes : W.Payload byteArray → List UInt8) (operationCode : UInt8)
    (parameters : ParameterList W) (g : Game) : InterestGroupsAnswer × Game :=
  match g.actorIdForPeer h peer with
  | none => (.mustJoin, g)
  | some _ =>
    match (Model.changeInterestGroups byteArray).decode operationCode parameters with
    | .error e => (.invalid e, g)
    | .ok params =>
      -- what `params->get` refers to
      match Model.materialize parameters (Model.changeInterestGroups byteArray) params with
      | none => (.done, g)
      | some (.cons add (.cons remove .nil)) =>
        let adds := (add : Option (W.Payload byteArray)).elim [] bytes
        let removes := (remove : Option (W.Payload byteArray)).elim [] bytes
        (.done, (g.applyInterestGroups h peer adds removes).2)

namespace InterestGroups

/-- The groups with a bit. -/
def groups (subscriptions : InterestGroups) : Set UInt8 :=
  {group | subscriptions.bitset.getLsbD group.toNat = true}

/-- The mask of a group. -/
def bit (v : UInt8) : BitVec 256 := 1 <<< v.toNat

/-- The bits that `apply_interest_groups` leaves. -/
def changed (add remove : List UInt8) (subscriptions : InterestGroups) : InterestGroups :=
  let kept :=
    if remove = [] then 0 else remove.foldl (fun b v => b &&& ~~~bit v) subscriptions.bitset
  ⟨if add = [] then BitVec.allOnes 256 else add.foldl (fun b v => b ||| bit v) kept⟩

/-- The groups that a list of the request stands for: none if it is absent, all if it is empty. -/
def named : Option (List UInt8) → Set UInt8
  | none => ∅
  | some [] => Set.univ
  | some (group :: rest) => {v | v ∈ group :: rest}

theorem getLsbD_bit (v group : UInt8) :
    (bit v).getLsbD group.toNat = decide (group = v) := by
  have hgroup : group.toNat < 256 := group.toNat_lt
  rw [bit, Nat.one_shiftLeft, BitVec.natCast_eq_ofNat, BitVec.getLsbD_ofNat, Nat.testBit_two_pow,
    decide_eq_true hgroup, Bool.true_and, decide_eq_decide, eq_comm, UInt8.toNat_inj]

theorem getLsbD_set (add : List UInt8) (bits : BitVec 256) (group : UInt8) :
    (add.foldl (fun b v => b ||| bit v) bits).getLsbD group.toNat = true ↔
      bits.getLsbD group.toNat = true ∨ group ∈ add := by
  induction add generalizing bits with
  | nil => simp
  | cons v rest ih =>
    rw [List.foldl_cons, ih, BitVec.getLsbD_or, getLsbD_bit, Bool.or_eq_true, decide_eq_true_eq,
      List.mem_cons, or_assoc]

theorem getLsbD_reset (remove : List UInt8) (bits : BitVec 256) (group : UInt8) :
    (remove.foldl (fun b v => b &&& ~~~bit v) bits).getLsbD group.toNat = true ↔
      bits.getLsbD group.toNat = true ∧ group ∉ remove := by
  induction remove generalizing bits with
  | nil => simp
  | cons v rest ih =>
    have hgroup : group.toNat < 256 := group.toNat_lt
    rw [List.foldl_cons, ih, BitVec.getLsbD_and, BitVec.getLsbD_not, getLsbD_bit]
    simp only [Bool.and_eq_true, decide_eq_true_eq, Bool.not_eq_true', decide_eq_false_iff_not,
      List.mem_cons, not_or, and_assoc, hgroup, true_and]

theorem groups_changed (add remove : List UInt8) (subscriptions : InterestGroups) :
    (subscriptions.changed add remove).groups =
      (subscriptions.groups \ named (some remove)) ∪ named (some add) := by
  ext group
  have hgroup : group.toNat < 256 := group.toNat_lt
  simp only [groups, changed, Set.mem_union, Set.mem_sdiff, Set.mem_ofPred_eq]
  cases add with
  | nil =>
    rw [if_pos rfl, BitVec.getLsbD_allOnes, decide_eq_true hgroup]
    exact iff_of_true rfl (.inr trivial)
  | cons a add =>
    rw [if_neg (List.cons_ne_nil a add), getLsbD_set]
    refine or_congr ?_ Iff.rfl
    cases remove with
    | nil => simp [named]
    | cons r remove => rw [if_neg (List.cons_ne_nil r remove), getLsbD_reset]; rfl

theorem named_eq_empty_iff {list : Option (List UInt8)} : named list = ∅ ↔ list = none := by
  cases list with
  | none => simp [named]
  | some l =>
    cases l with
    | nil => simp [named]
    | cons group rest =>
      refine iff_of_false (fun hempty => ?_) (Option.some_ne_none _)
      have hgroup : group ∈ named (some (group :: rest)) := List.mem_cons_self
      rw [hempty] at hgroup
      exact hgroup

/-- The operation reads a list that is absent as an empty one, which makes no difference in three
cases. -/
theorem groups_changed_iff (add remove : Option (List UInt8)) (subscriptions : InterestGroups) :
    (subscriptions.changed (add.getD []) (remove.getD [])).groups =
        (subscriptions.groups \ named remove) ∪ named add ↔
      add.isSome ∧ remove.isSome ∨
        add.isSome ∧ remove = none ∧ subscriptions.groups ⊆ named add ∨
        add = none ∧ remove = none ∧ subscriptions.groups = Set.univ := by
  rw [groups_changed]
  cases add with
  | none =>
    have hall : named (some []) = Set.univ := rfl
    have hnone : named none = ∅ := rfl
    rw [Option.getD_none, hall, Set.union_univ, hnone, Set.union_empty]
    simp only [Option.isSome_none, Bool.false_eq_true, false_and, false_or, true_and]
    cases remove with
    | none => rw [hnone, Set.sdiff_empty, eq_comm]; simp
    | some remove =>
      refine iff_of_false (fun heq => ?_) (fun h => absurd h.1 (Option.some_ne_none _))
      -- a group that the list removes is not in the difference
      obtain ⟨group, hgroup⟩ : (named (some remove)).Nonempty :=
        Set.nonempty_iff_ne_empty.mpr fun h => Option.some_ne_none _ (named_eq_empty_iff.mp h)
      exact (heq ▸ Set.mem_univ group : group ∈ subscriptions.groups \ named (some remove)).2 hgroup
  | some add =>
    cases remove with
    | none =>
      have hall : named (some (none.getD [])) = Set.univ := rfl
      have hnone : named none = ∅ := rfl
      rw [hall, hnone, Set.sdiff_univ, Set.empty_union, Set.sdiff_empty, Option.getD_some, eq_comm,
        Set.union_eq_right]
      simp
    | some remove => simp

theorem test_zero (subscriptions : InterestGroups) : subscriptions.test 0 = true := rfl

end InterestGroups

namespace Game

variable {h : PeerHeap} {peer : Option PeerRef} {g : Game} {gp : GamePeer}

theorem findPeer_applyInterestGroups (hgp : g.findPeer h peer = some gp) (add remove : List UInt8) :
    (g.applyInterestGroups h peer add remove).2.findPeer h peer =
      some { gp with interestGroups := gp.interestGroups.changed add remove } := by
  unfold applyInterestGroups
  simp only [hgp, Option.isSome_some, if_true]
  exact find?_updatePeer
    (fun gp => { gp with interestGroups := gp.interestGroups.changed add remove })
    (fun _ => rfl) hgp

/-- A request of a joined actor, whose lists are absent or byte arrays, changes the actor's groups
to those that are not removed and those that are added exactly if both lists are there, or only the
added one is and it has all of the actor's groups, or none is and the actor has all groups. -/
theorem changeInterestGroups_iff {byteArray : W.Tag} (bytes : W.Payload byteArray → List UInt8)
    (hnull : ∀ x, W.isNull (W.make byteArray x) = false) {r : PeerRef}
    (hgp : g.findPeer h (some r) = some gp) (operationCode : UInt8) {parameters : ParameterList W}
    {add remove : Option (W.Payload byteArray)}
    (hadd : parameters.lookup 238 = add.map (W.make byteArray))
    (hremove : parameters.lookup 239 = remove.map (W.make byteArray)) :
    ∃ gp', (g.changeInterestGroups h (some r) byteArray bytes operationCode parameters).2.findPeer h
        (some r) = some gp' ∧ gp'.actorId = gp.actorId ∧
      gp'.interestGroups.test 0 = true ∧
      let old := gp.interestGroups.groups
      let added := InterestGroups.named (add.map bytes)
      let removed := InterestGroups.named (remove.map bytes)
      (gp'.interestGroups.groups = (old \ removed) ∪ added ↔
        add.isSome ∧ remove.isSome ∨
          add.isSome ∧ remove = none ∧ old ⊆ added ∨
          add = none ∧ remove = none ∧ old = Set.univ) := by
  have hencodes : Model.Encodes parameters (Model.changeInterestGroups byteArray)
      (.cons add (.cons remove .nil)) := by
    refine ⟨⟨hadd, ?_⟩, ⟨hremove, ?_⟩, trivial⟩ <;> intro _ _ e he <;> cases he
  obtain ⟨params, hdecode, hread⟩ : ∃ params,
      (Model.changeInterestGroups byteArray).decode operationCode parameters = .ok params ∧
        Model.materialize parameters (Model.changeInterestGroups byteArray) params =
          some (.cons add (.cons remove .nil)) := Model.decode_of_encodes
    (by simp [Model.changeInterestGroups]) (by simp [Model.changeInterestGroups]) hencodes
    ⟨fun x _ => hnull x, fun x _ => hnull x, trivial⟩
  have hactor : g.actorIdForPeer h (some r) = some gp.actorId := by
    rw [actorIdForPeer, if_neg (Option.some_ne_none r), hgp, Option.map_some]
  have hlist : ∀ list : Option (W.Payload byteArray),
      list.elim [] bytes = (list.map bytes).getD [] := by
    intro list
    cases list <;> rfl
  have hfind : (g.changeInterestGroups h (some r) byteArray bytes operationCode
      parameters).2.findPeer h (some r) =
        some { gp with interestGroups :=
          gp.interestGroups.changed ((add.map bytes).getD []) ((remove.map bytes).getD []) } := by
    simp only [changeInterestGroups, hactor, hdecode, hread, ← hlist]
    exact findPeer_applyInterestGroups hgp _ _
  refine ⟨_, hfind, rfl, InterestGroups.test_zero _, ?_⟩
  simp only
  rw [InterestGroups.groups_changed_iff]
  simp only [Option.isSome_map, Option.map_eq_none_iff]

/-- A room that Ada has joined as the actor `1`, with the groups of a new actor. -/
def adasRoom : Game :=
  { info := ⟨"app", "1.0", "lobby", 0, "room", ""⟩, peers := [{ peer := some 1, actorId := 1 }] }

/-- Ada wants to hear the group `1` and no other. -/
theorem changeInterestGroups_both :
    let heap : PeerHeap := fun _ => .live {}
    let parameters : ParameterList (Value.wireFormat fun _ => "byte[]") :=
      AList.insert 238 (Value.other 120 [1]) (AList.singleton 239 (Value.other 120 []))
    ∃ gp', (adasRoom.changeInterestGroups heap (some 1) ValueTag.other Prod.snd 248
        parameters).2.findPeer heap (some 1) = some gp' ∧
      gp'.interestGroups.groups = (InterestGroups.groups {} \ Set.univ) ∪ {v | v ∈ [1]} := by
  intro heap parameters
  have hadd : parameters.lookup 238 = Option.map
      ((Value.wireFormat fun _ => "byte[]").make ValueTag.other) (some (120, [1])) := rfl
  have hremove : parameters.lookup 239 = Option.map
      ((Value.wireFormat fun _ => "byte[]").make ValueTag.other) (some (120, [])) := rfl
  obtain ⟨gp', hfind, -, -, hiff⟩ := changeInterestGroups_iff (h := heap) (g := adasRoom) (r := 1)
    Prod.snd (fun _ => rfl) rfl 248 hadd hremove
  exact ⟨gp', hfind, hiff.mpr (.inl ⟨rfl, rfl⟩)⟩

/-- Ada does not want to hear the group `1`, and then hears it. -/
theorem not_changeInterestGroups_remove :
    let heap : PeerHeap := fun _ => .live {}
    let parameters : ParameterList (Value.wireFormat fun _ => "byte[]") :=
      AList.singleton 239 (Value.other 120 [1])
    ∃ gp', (adasRoom.changeInterestGroups heap (some 1) ValueTag.other Prod.snd 248
        parameters).2.findPeer heap (some 1) = some gp' ∧
      1 ∈ gp'.interestGroups.groups ∧
      1 ∉ (InterestGroups.groups {} \ InterestGroups.named (some [1])) ∪
        InterestGroups.named none := by
  intro heap parameters
  refine ⟨_, rfl, ?_, fun hmem => ?_⟩
  · exact (by decide : (BitVec.allOnes 256).getLsbD 1 = true)
  · rcases hmem with ⟨-, hkept⟩ | hadded
    · exact hkept List.mem_cons_self
    · exact hadded

end Game

end LuxonServer
