import LuxonServer.Lib.Buffer
import Mathlib.Algebra.BigOperators.Group.List.Basic
import Mathlib.Algebra.GroupWithZero.Nat

/-! `pack_and_relink::string_views`, by which the strings of a client's invitation are moved into
the client's own buffer.  Sizes and capacities are unbounded, as the texts are in memory anyway. -/

namespace LuxonServer

open Growing

/-- A field of a structure, as `visit_views` sees it. -/
inductive Field where
  | view (v : View)
  | array (elements : List Field)
  | aggregate (fields : List Field)
  | other

section Visit

variable {σ : Type} (action : View → σ → View × σ)

mutual

/-- `visit_views`, with an action that may change the view and what it captures. -/
def visitViews : Field → σ → Field × σ
  | .view v, s => (.view (action v s).1, (action v s).2)
  | .array elements, s => (.array (visitEach elements s).1, (visitEach elements s).2)
  | .aggregate fields, s => (.aggregate (visitEach fields s).1, (visitEach fields s).2)
  | .other, s => (.other, s)

/-- The loop over the elements of an array, and over the fields of an aggregate. -/
def visitEach : List Field → σ → List Field × σ
  | [], s => ([], s)
  | field :: fields, s =>
    ((visitViews field s).1 :: (visitEach fields (visitViews field s).2).1,
      (visitEach fields (visitViews field s).2).2)

end

def visitList : List View → σ → List View × σ
  | [], s => ([], s)
  | v :: views, s =>
    ((action v s).1 :: (visitList views (action v s).2).1, (visitList views (action v s).2).2)

end Visit

namespace Field

mutual

/-- The views of a structure, in the order of the visit. -/
def views : Field → List View
  | .view v => [v]
  | .array elements => viewsOfEach elements
  | .aggregate fields => viewsOfEach fields
  | .other => []

/-- The views of several fields. -/
def viewsOfEach : List Field → List View
  | [] => []
  | field :: fields => field.views ++ viewsOfEach fields

end

end Field

section Visit

variable {σ : Type} (action : View → σ → View × σ)

theorem visitList_append (views views' : List View) (s : σ) :
    visitList action (views ++ views') s =
      ((visitList action views s).1 ++ (visitList action views' (visitList action views s).2).1,
        (visitList action views' (visitList action views s).2).2) := by
  induction views generalizing s with
  | nil => rfl
  | cons v views ih => simp only [List.cons_append, visitList, ih]

mutual

/-- A visit of a structure is a visit of its views. -/
theorem visitViews_views (field : Field) (s : σ) :
    (visitViews action field s).1.views = (visitList action field.views s).1 ∧
      (visitViews action field s).2 = (visitList action field.views s).2 := by
  cases field with
  | view v => exact ⟨rfl, rfl⟩
  | array elements => exact visitEach_views elements s
  | aggregate fields => exact visitEach_views fields s
  | other => exact ⟨rfl, rfl⟩

theorem visitEach_views (fields : List Field) (s : σ) :
    Field.viewsOfEach (visitEach action fields s).1 =
        (visitList action (Field.viewsOfEach fields) s).1 ∧
      (visitEach action fields s).2 = (visitList action (Field.viewsOfEach fields) s).2 := by
  cases fields with
  | nil => exact ⟨rfl, rfl⟩
  | cons field fields =>
    obtain ⟨hviews, hstate⟩ := visitViews_views field s
    obtain ⟨hviews', hstate'⟩ := visitEach_views fields (visitViews action field s).2
    rw [Field.viewsOfEach, visitList_append, visitEach, Field.viewsOfEach, hviews, hviews',
      hstate', hstate]
    exact ⟨rfl, rfl⟩

end

end Visit

namespace PackAndRelink

variable {β : Type} {growth : Growth} {others : Nat → Option (List β)} {b : Buffer β} {v : View}
  {views : List View}

/-- `total_needed`. -/
def totalNeeded (obj : Field) : Nat :=
  (visitViews (fun v total => (v, total + v.size)) obj 0).2

/-- The action that appends a view's text and links the view to it. -/
def relink (growth : Growth) (others : Nat → Option (List β)) (v : View) (b : Buffer β) :
    View × Buffer β :=
  if v.size = 0 then (View.nothing, b)
  else
    let offset := b.text.length
    let b := b.append growth ((v.text others b).getD [])
    ({ storage := .buffer b.moves, offset, size := v.size }, b)

/-- `string_views`. -/
def stringViews (growth : Growth) (others : Nat → Option (List β)) (obj : Field)
    (b : Buffer β) : Field × Buffer β :=
  visitViews (relink growth others) obj (b.reserve growth (totalNeeded obj))

end PackAndRelink

/-- The views of a `GameInfo`, those of its lobby and of the lobby's app among them. -/
structure GameInfoViews where
  appId : View
  appVersion : View
  lobbyName : View
  id : View
  serverAddress : View

/-- `GameInfo`, with the type of the lobby as the one field that is no view. -/
def GameInfoViews.fields (info : GameInfoViews) : Field :=
  .aggregate [.aggregate [.aggregate [.view info.appId, .view info.appVersion],
    .view info.lobbyName, .other], .view info.id, .view info.serverAddress]

/-- The invitation of a `PeerPersistent`, with the buffer that its views are in. -/
structure InvitedPeer (β : Type) where
  invitation : Field
  invitationBuf : Buffer β

namespace InvitedPeer

variable {β : Type}

/-- `invite`. -/
def invite (growth : Growth) (others : Nat → Option (List β)) (info : GameInfoViews)
    (pp : InvitedPeer β) : InvitedPeer β :=
  { invitation := (PackAndRelink.stringViews growth others info.fields pp.invitationBuf).1
    invitationBuf := (PackAndRelink.stringViews growth others info.fields pp.invitationBuf).2 }

/-- `reset_invitation`. -/
def resetInvitation (pp : InvitedPeer β) : InvitedPeer β :=
  { invitation := GameInfoViews.fields ⟨.nothing, .nothing, .nothing, .nothing, .nothing⟩
    invitationBuf := pp.invitationBuf.clear }

end InvitedPeer

namespace PackAndRelink

variable {β : Type} {growth : Growth} {others : Nat → Option (List β)} {b : Buffer β} {v : View}
  {views : List View}

theorem totalNeeded_eq (field : Field) :
    totalNeeded field = (field.views.map View.size).sum := by
  have hlist : ∀ (views : List View) (n : Nat),
      (visitList (fun v total => (v, total + v.size)) views n).2 =
        n + (views.map View.size).sum := by
    intro views
    induction views with
    | nil => intro n; rfl
    | cons v views ih =>
      intro n
      rw [visitList, ih, List.map_cons, List.sum_cons, Nat.add_assoc]
  rw [totalNeeded, (visitViews_views _ field 0).2, hlist, Nat.zero_add]

/-- What the caller promises of a view: its text can be read, and it is not in the buffer. -/
def Readable (others : Nat → Option (List β)) (b : Buffer β) (v : View) : Prop :=
  v.size ≠ 0 → v.Outside ∧ (v.text others b).isSome

/-- What becomes of a view: it shows the text that it has shown, from the buffer if there is any. -/
structure Alive (others : Nat → Option (List β)) (before after : Buffer β) (v v' : View) :
    Prop where
  text : v'.text others after = v.text others before
  inside : v'.size ≠ 0 → v'.Inside after

/-- Every view of the structure is alive after the call. -/
def KeepsAlive (growth : Growth) (others : Nat → Option (List β)) (obj : Field)
    (b : Buffer β) : Prop :=
  let after := stringViews growth others obj b
  List.Forall₂ (Alive others b after.2) obj.views after.1.views

/-- The capacity that `reserve` and the first text leave is enough for what is in the buffer and all
views. -/
def Fits (growth : Growth) (obj : Field) (b : Buffer β) : Prop :=
  let sizes := obj.views.map View.size
  let reserved := b.reserve growth sizes.sum
  b.text.length + sizes.sum ≤ reserved.grown growth ((sizes.find? (0 < ·)).getD 0)

instance (obj : Field) (b : Buffer β) : Decidable (Fits growth obj b) :=
  inferInstanceAs (Decidable (_ ≤ _))

theorem Readable.text_eq {b' : Buffer β} (hv : Readable others b v) :
    v.text others b' = v.text others b := by
  by_cases hempty : v.size = 0
  · rw [View.text_of_empty hempty, View.text_of_empty hempty]
  · exact (hv hempty).1.text_eq b b'

theorem Readable.other {b' : Buffer β} (hv : Readable others b v) : Readable others b' v :=
  fun hsize => ⟨(hv hsize).1, by rw [hv.text_eq]; exact (hv hsize).2⟩

/-- What is appended for a view has the view's size. -/
theorem Readable.exists_text (hv : Readable others b v) (hsize : v.size ≠ 0) :
    ∃ shown, v.text others b = some shown ∧ shown.length = v.size := by
  obtain ⟨shown, hshown⟩ := Option.isSome_iff_exists.mp (hv hsize).2
  exact ⟨shown, hshown, View.length_of_text hshown⟩

theorem relink_empty (hsize : v.size = 0) : relink growth others v b = (View.nothing, b) :=
  if_pos hsize

theorem relink_text {shown : List β} (hsize : v.size ≠ 0) (hshown : v.text others b = some shown) :
    relink growth others v b =
      (⟨.buffer (b.append growth shown).moves, b.text.length, shown.length⟩,
        b.append growth shown) := by
  have hlength := View.length_of_text hshown
  rw [relink, if_neg hsize, hshown, hlength]
  rfl

theorem alive_nothing {b' : Buffer β} (hsize : v.size = 0) : Alive others b b' v View.nothing :=
  ⟨by rw [View.text_of_empty hsize, View.text_of_empty rfl], fun hne => absurd rfl hne⟩

theorem Alive.other {b₁ b' : Buffer β} {v' : View} (hv : Readable others b v)
    (halive : Alive others b₁ b' v v') : Alive others b b' v v' :=
  ⟨halive.text.trans hv.text_eq, halive.inside⟩

theorem forall_alive_other {b₁ b' : Buffer β} {views' : List View}
    (hviews : ∀ v ∈ views, Readable others b v)
    (halive : List.Forall₂ (Alive others b₁ b') views views') :
    List.Forall₂ (Alive others b b') views views' := by
  induction halive with
  | nil => exact List.Forall₂.nil
  | cons hfirst _ ih =>
    exact List.Forall₂.cons (hfirst.other (hviews _ List.mem_cons_self))
      (ih fun v hv => hviews v (List.mem_cons_of_mem _ hv))

/-- A text that fits is linked, and what has been linked before it stays. -/
theorem visitList_of_fits (growth : Growth) (hviews : ∀ v ∈ views, Readable others b v)
    (hfits : b.text.length + (views.map View.size).sum ≤ b.capacity) :
    b.Extends (visitList (relink growth others) views b).2 ∧
      List.Forall₂ (Alive others b (visitList (relink growth others) views b).2) views
        (visitList (relink growth others) views b).1 := by
  induction views generalizing b with
  | nil => exact ⟨Buffer.Extends.refl b, List.Forall₂.nil⟩
  | cons v views ih =>
    rw [List.map_cons, List.sum_cons] at hfits
    have hv := hviews v List.mem_cons_self
    have hrest := fun v hv => hviews v (List.mem_cons_of_mem _ hv)
    by_cases hsize : v.size = 0
    · obtain ⟨hextends, halive⟩ := ih hrest (by omega)
      rw [visitList, relink_empty hsize]
      exact ⟨hextends, List.Forall₂.cons (alive_nothing hsize) halive⟩
    · obtain ⟨shown, hshown, hlength⟩ := hv.exists_text hsize
      have hroom : b.text.length + shown.length ≤ b.capacity := by omega
      have hmore : b.Extends (b.append growth shown) := Buffer.extends_append hroom
      obtain ⟨hextends, halive⟩ := ih (b := b.append growth shown)
        (fun v hv => (hrest v hv).other) (by
          rw [Buffer.length_append, Buffer.capacity_append hroom]
          omega)
      rw [visitList, relink_text hsize hshown]
      have hinside := View.inside_append growth shown b
      refine ⟨hmore.trans hextends, List.Forall₂.cons ⟨?_, fun _ => hinside.extend hextends⟩
        (forall_alive_other hrest halive)⟩
      rw [hinside.text_eq hextends, View.text_append, hshown]

/-- The buffer moves on the way if it has no room for the texts. -/
theorem moves_visitList (growth : Growth) (hviews : ∀ v ∈ views, Readable others b v) :
    b.moves ≤ (visitList (relink growth others) views b).2.moves ∧
      (b.capacity < b.text.length + (views.map View.size).sum →
        b.moves < (visitList (relink growth others) views b).2.moves) := by
  induction views generalizing b with
  | nil => exact ⟨le_refl _, fun hout => absurd b.le_capacity (Nat.not_le.mpr hout)⟩
  | cons v views ih =>
    rw [List.map_cons, List.sum_cons]
    have hv := hviews v List.mem_cons_self
    have hrest := fun v hv => hviews v (List.mem_cons_of_mem _ hv)
    by_cases hsize : v.size = 0
    · rw [visitList, relink_empty hsize, hsize, Nat.zero_add]
      exact ih hrest
    · obtain ⟨shown, hshown, hlength⟩ := hv.exists_text hsize
      obtain ⟨hle, hlt⟩ := ih (b := b.append growth shown) fun v hv => (hrest v hv).other
      have happend := Buffer.moves_le_append growth shown b
      rw [visitList, relink_text hsize hshown]
      refine ⟨happend.trans hle, fun hout => ?_⟩
      by_cases hroom : b.text.length + shown.length ≤ b.capacity
      · refine lt_of_le_of_lt happend (hlt ?_)
        rw [Buffer.length_append, Buffer.capacity_append hroom]
        omega
      · exact lt_of_lt_of_le (Buffer.moves_lt_append (Nat.not_le.mp hroom)) hle

/-- From a buffer on that has room or not, up to the first text and then for the rest. -/
theorem alive_visitList_iff (growth : Growth) (hviews : ∀ v ∈ views, Readable others b v) :
    List.Forall₂ (Alive others b (visitList (relink growth others) views b).2) views
        (visitList (relink growth others) views b).1 ↔
      b.text.length + (views.map View.size).sum ≤
        b.grown growth (((views.map View.size).find? (0 < ·)).getD 0) := by
  induction views with
  | nil =>
    refine iff_of_true List.Forall₂.nil ?_
    exact b.length_le_grown 0
  | cons v views ih =>
    have hv := hviews v List.mem_cons_self
    have hrest := fun v hv => hviews v (List.mem_cons_of_mem _ hv)
    rw [List.map_cons, List.sum_cons]
    by_cases hsize : v.size = 0
    · rw [visitList, relink_empty hsize, List.find?_cons_of_neg (by simp [hsize]), hsize,
        Nat.zero_add, List.forall₂_cons, ih hrest]
      exact and_iff_right (alive_nothing hsize)
    · obtain ⟨shown, hshown, hlength⟩ := hv.exists_text hsize
      have hother : ∀ v ∈ views, Readable others (b.append growth shown) v :=
        fun v hv => (hrest v hv).other
      rw [visitList, relink_text hsize hshown,
        List.find?_cons_of_pos (by simpa using Nat.pos_of_ne_zero hsize), Option.getD_some,
        List.forall₂_cons]
      have hgrown : (b.append growth shown).capacity = b.grown growth v.size := hlength ▸ rfl
      have hlengths := b.length_append growth shown
      constructor
      · rintro ⟨halive, -⟩
        by_contra hout
        have hmoves := (moves_visitList growth hother).2 (by omega)
        have hstorage := (halive.inside (hlength ▸ hsize)).1
        exact absurd (Storage.buffer.inj hstorage) (Nat.ne_of_lt hmoves)
      · intro hfits
        obtain ⟨hextends, halive⟩ := visitList_of_fits growth hother (by omega)
        have hinside := View.inside_append growth shown b
        refine ⟨⟨?_, fun _ => hinside.extend hextends⟩, forall_alive_other hrest halive⟩
        rw [hinside.text_eq hextends, View.text_append, hshown]

theorem Readable.reserve (hv : Readable others b v) (growth : Growth) (n : Nat) :
    Readable others (b.reserve growth n) v := hv.other

/-- An empty buffer has the room. -/
theorem fits_of_empty (obj : Field) (hempty : b.text = []) : Fits growth obj b := by
  have hreserve : (obj.views.map View.size).sum ≤
      b.reserved growth (obj.views.map View.size).sum := by
    unfold Buffer.reserved
    split
    · next hle => exact hle
    · exact growth.le_reserve _ _
  have hgrown : (b.reserve growth (obj.views.map View.size).sum).capacity ≤
      (b.reserve growth (obj.views.map View.size).sum).grown growth
        (((obj.views.map View.size).find? (0 < ·)).getD 0) := by
    unfold Buffer.grown
    split
    · exact le_refl _
    · next hout => exact (Nat.le_of_not_le hout).trans (growth.le_append _ _)
  rw [Fits, hempty]
  simp only [List.length_nil, Nat.zero_add]
  exact hreserve.trans hgrown

/-- A client whose last invitation has been reset can be invited again. -/
theorem fits_resetInvitation (info : GameInfoViews) (pp : InvitedPeer β) :
    Fits growth info.fields pp.resetInvitation.invitationBuf := fits_of_empty _ rfl

/-- Every view is alive after the call exactly if what `reserve` and the first text leave as the
capacity is enough for the buffer's earlier content and all views. -/
theorem keepsAlive_iff (obj : Field) (b : Buffer β)
    (hviews : ∀ v ∈ obj.views, Readable others b v) :
    KeepsAlive growth others obj b ↔ Fits growth obj b := by
  have htotal := totalNeeded_eq obj
  have hreserved := fun v hv => (hviews v hv).reserve growth (totalNeeded obj)
  obtain ⟨hafter, hbuffer⟩ := visitViews_views (relink growth others) obj
    (b.reserve growth (totalNeeded obj))
  have hlist := alive_visitList_iff growth hreserved
  rw [KeepsAlive, Fits, ← htotal]
  simp only [stringViews, hafter, hbuffer]
  rw [← htotal] at hlist
  exact ⟨fun halive => hlist.mp (forall_alive_other hreserved halive),
    fun hfits => forall_alive_other hviews (hlist.mpr hfits)⟩

/-- A growth by doubling. -/
def doubling : Growth where
  reserve capacity needed := max needed (2 * capacity)
  append capacity needed := max needed (2 * capacity)
  le_reserve _ _ := Nat.le_max_left _ _
  le_append _ _ := Nat.le_max_left _ _

/-- The texts of two rooms, one after the other: app id, version, room id and address. -/
def roomTexts : Nat → Option (List Char)
  | 0 => some "rpg-main1.00arena-of-5luxon:42".toList
  | 1 => some "rpg-main1.00arena-of-12luxon:42".toList
  | _ => none

/-- The views of one of the texts, in which the room id has `size` characters. -/
def roomViews (n size : Nat) : GameInfoViews where
  appId := ⟨.other n, 0, 8⟩
  appVersion := ⟨.other n, 8, 4⟩
  lobbyName := .nothing
  id := ⟨.other n, 12, size⟩
  serverAddress := ⟨.other n, 12 + size, 8⟩

theorem Readable.of_other {n : Nat}
    (hv : v.size ≠ 0 → v.storage = .other n ∧ (v.text others b).isSome) : Readable others b v :=
  fun hsize => ⟨fun _ hstorage => (nomatch (hv hsize).1.symm.trans hstorage), (hv hsize).2⟩

/-- The first invitation of a client. -/
theorem keepsAlive_iff_first :
    KeepsAlive doubling roomTexts (roomViews 0 10).fields (Buffer.new 15) :=
  (keepsAlive_iff (roomViews 0 10).fields (Buffer.new 15) fun v hv =>
    .of_other (n := 0) ((by decide : ∀ v ∈ (roomViews 0 10).fields.views, v.size ≠ 0 →
      v.storage = .other 0 ∧ (v.text roomTexts (Buffer.new 15)).isSome) v hv)).mpr (by decide)

/-- The second one, with a longer room id and without a reset: the buffer moves at the last view,
and the app id is left behind. -/
theorem not_keepsAlive_second :
    let pp : InvitedPeer Char := { invitation := .other, invitationBuf := Buffer.new 15 }
    let invited := pp.invite doubling roomTexts (roomViews 0 10)
    (∀ v ∈ (roomViews 1 11).fields.views, Readable roomTexts invited.invitationBuf v) ∧
      ¬KeepsAlive doubling roomTexts (roomViews 1 11).fields invited.invitationBuf := by
  intro pp invited
  constructor
  · intro v hv
    exact .of_other (n := 1) ((by decide : ∀ v ∈ (roomViews 1 11).fields.views, v.size ≠ 0 →
      v.storage = .other 1 ∧ (v.text roomTexts invited.invitationBuf).isSome) v hv)
  · intro hkeeps
    obtain ⟨hfirst, -⟩ := List.forall₂_cons.mp hkeeps
    exact absurd (hfirst.inside (by decide)).1 (by decide)

end PackAndRelink

end LuxonServer
