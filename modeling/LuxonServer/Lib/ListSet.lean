import Mathlib.Data.List.AList
import Mathlib.Data.Finset.Card

/-! Finite sets kept as lists without repetitions, for sets that a program iterates over, and the
facts about lists and association lists that the proofs about tables need beyond Mathlib's. -/

/-- A finite set in some order of iteration. -/
structure ListSet (α : Type*) where
  toList : List α
  nodup : toList.Nodup

namespace ListSet

variable {α : Type*}

instance : Membership α (ListSet α) := ⟨fun s a => a ∈ s.toList⟩

instance : EmptyCollection (ListSet α) := ⟨⟨[], List.nodup_nil⟩⟩

instance : Inhabited (ListSet α) := ⟨∅⟩

theorem mem_def {a : α} {s : ListSet α} : a ∈ s ↔ a ∈ s.toList := Iff.rfl

@[simp] theorem mem_toList {a : α} {s : ListSet α} : a ∈ s.toList ↔ a ∈ s := Iff.rfl

@[simp] theorem notMem_empty (a : α) : a ∉ (∅ : ListSet α) := List.not_mem_nil

@[ext] theorem ext_toList {s t : ListSet α} (h : s.toList = t.toList) : s = t := by
  cases s; cases t; cases h; rfl

/-- The number of elements. -/
def card (s : ListSet α) : Nat := s.toList.length

variable [DecidableEq α]

instance (a : α) (s : ListSet α) : Decidable (a ∈ s) := inferInstanceAs (Decidable (a ∈ s.toList))

instance : DecidableEq (ListSet α) := fun s t =>
  decidable_of_iff (s.toList = t.toList) ⟨ext_toList, fun h => h ▸ rfl⟩

/-- `s` with `a`. -/
def insert (a : α) (s : ListSet α) : ListSet α := ⟨s.toList.insert a, s.nodup.insert⟩

/-- `s` without `a`. -/
def erase (a : α) (s : ListSet α) : ListSet α := ⟨s.toList.erase a, s.nodup.erase a⟩

/-- The set without its order. -/
def toFinset (s : ListSet α) : Finset α := s.toList.toFinset

@[simp] theorem mem_insert {a b : α} {s : ListSet α} : a ∈ s.insert b ↔ a = b ∨ a ∈ s :=
  List.mem_insert_iff

@[simp] theorem mem_erase {a b : α} {s : ListSet α} : a ∈ s.erase b ↔ a ≠ b ∧ a ∈ s :=
  s.nodup.mem_erase_iff

@[simp] theorem mem_toFinset {a : α} {s : ListSet α} : a ∈ s.toFinset ↔ a ∈ s :=
  List.mem_toFinset

theorem toFinset_eq_iff {s t : ListSet α} : s.toFinset = t.toFinset ↔ ∀ a, a ∈ s ↔ a ∈ t := by
  simp [Finset.ext_iff]

theorem card_toFinset (s : ListSet α) : s.toFinset.card = s.card :=
  List.toFinset_card_of_nodup s.nodup

theorem erase_of_notMem {a : α} {s : ListSet α} (h : a ∉ s) : s.erase a = s :=
  ext_toList (List.erase_of_not_mem h)

theorem card_erase {a : α} {s : ListSet α} (h : a ∈ s) : (s.erase a).card + 1 = s.card := by
  have := List.length_erase_of_mem (mem_def.mp h)
  have := List.length_pos_of_mem (mem_def.mp h)
  simp only [card, erase]
  omega

end ListSet

namespace AList

variable {α β : Type*} [DecidableEq α] {s t : AList fun _ : α => β}

theorem lookup_insert_eq (a b : α) (x : β) (s : AList fun _ : α => β) :
    (s.insert b x).lookup a = if a = b then some x else s.lookup a := by
  split
  · next h => subst h; exact lookup_insert s
  · next h => exact lookup_insert_ne h

theorem lookup_erase_eq (a b : α) (s : AList fun _ : α => β) :
    (s.erase b).lookup a = if a = b then none else s.lookup a := by
  split
  · next h => subst h; exact lookup_erase _ s
  · next h => exact lookup_erase_ne h

theorem erase_insert_eq (a : α) (x : β) (s : AList fun _ : α => β) :
    (s.insert a x).erase a = s.erase a := by
  apply AList.ext
  show List.kerase a (⟨a, x⟩ :: List.kerase a s.entries) = List.kerase a s.entries
  exact List.kerase_cons_eq rfl

theorem erase_of_notMem {a : α} (h : a ∉ s) : s.erase a = s :=
  AList.ext (List.kerase_of_notMem_keys h)

theorem mem_iff_lookup {a : α} : a ∈ s ↔ ∃ x, s.lookup a = some x := by
  rw [← lookup_isSome, Option.isSome_iff_exists]

theorem mem_entries_iff {a : α} {x : β} : ⟨a, x⟩ ∈ s.entries ↔ s.lookup a = some x :=
  mem_lookup_iff.symm

/-- An entry of a table and the others. -/
theorem perm_cons_erase {a : α} {x : β} (h : s.lookup a = some x) :
    s.entries.Perm (⟨a, x⟩ :: (s.erase a).entries) := by
  obtain ⟨y, before, after, -, hentries, herase⟩ :=
    List.exists_of_kerase (mem_keys.mp (lookup_isSome.mp (by rw [h]; rfl)))
  have hy : s.lookup a = some y := by
    rw [← mem_entries_iff, hentries]
    exact List.mem_append_right _ List.mem_cons_self
  obtain rfl : x = y := Option.some.inj (h.symm.trans hy)
  show s.entries.Perm (⟨a, x⟩ :: List.kerase a s.entries)
  rw [hentries] at herase ⊢
  rw [herase]
  exact List.perm_middle

theorem countP_insert (p : (Σ _ : α, β) → Bool) (a : α) (x : β) (s : AList fun _ : α => β) :
    (s.insert a x).entries.countP p =
      (s.erase a).entries.countP p + if p ⟨a, x⟩ = true then 1 else 0 :=
  List.countP_cons

theorem countP_eq_erase {p : (Σ _ : α, β) → Bool} {a : α} {x : β} (h : s.lookup a = some x) :
    s.entries.countP p = (s.erase a).entries.countP p + if p ⟨a, x⟩ = true then 1 else 0 := by
  rw [(perm_cons_erase h).countP_eq, List.countP_cons]

/-- A loop over a table that writes one key at a time, as a reader sees it who looks under `a`. -/
theorem view_foldl {σ γ : Type*} {f : σ → (Σ _ : α, β) → σ} (view : σ → α → γ)
    (put : α → β → γ → γ) (hself : ∀ st entry, view (f st entry) entry.1 =
      put entry.1 entry.2 (view st entry.1))
    (hother : ∀ st entry a, a ≠ entry.1 → view (f st entry) a = view st a) (st : σ) (a : α) :
    view (s.entries.foldl f st) a =
      (s.lookup a).elim (view st a) fun x => put a x (view st a) := by
  obtain ⟨entries, hkeys⟩ := s
  show view (entries.foldl f st) a =
    (entries.dlookup a).elim (view st a) fun x => put a x (view st a)
  induction entries generalizing st with
  | nil => rfl
  | cons entry entries ih =>
    obtain ⟨b, x⟩ := entry
    have hrest := List.nodupKeys_cons.mp hkeys
    rw [List.foldl_cons, ih _ hrest.2]
    by_cases hkey : a = b
    · subst hkey
      rw [List.dlookup_eq_none.mpr hrest.1, List.dlookup_cons_eq]
      exact hself st ⟨a, x⟩
    · rw [List.dlookup_cons_ne _ _ hkey, hother st ⟨b, x⟩ a hkey]

/-- A loop over a table that acts on the entry of one key only. -/
theorem foldl_ite_key {σ : Type*} (put : β → σ → σ) (a : α) (st : σ) :
    s.entries.foldl (fun st entry => if a = entry.1 then put entry.2 st else st) st =
      (s.lookup a).elim st fun x => put x st := by
  obtain ⟨entries, hkeys⟩ := s
  show entries.foldl _ st = (entries.dlookup a).elim st fun x => put x st
  induction entries generalizing st with
  | nil => rfl
  | cons entry entries ih =>
    obtain ⟨b, x⟩ := entry
    have hrest := List.nodupKeys_cons.mp hkeys
    rw [List.foldl_cons, ih _ hrest.2]
    by_cases hkey : a = b
    · subst hkey
      rw [if_pos rfl, List.dlookup_eq_none.mpr hrest.1, List.dlookup_cons_eq]
      rfl
    · rw [if_neg hkey, List.dlookup_cons_ne _ _ hkey]

end AList

theorem List.find?_concat {α : Type*} {a : α} {l : List α} {f : α → Bool} (ha : f a = true)
    (hl : ∀ b ∈ l, b ≠ a → f b = false) : (l ++ [a]).find? f = some a := by
  induction l with
  | nil => simp [ha]
  | cons b l ih =>
    rw [List.cons_append, List.find?_cons]
    by_cases hb : b = a
    · rw [hb, ha]
    · rw [hl b List.mem_cons_self hb]
      exact ih fun c hc => hl c (List.mem_cons_of_mem b hc)

/-- Two conditions hold of all elements in the same lists, unless an element decides on which they
differ: one that only the first takes, with the others, or that only the second does. -/
theorem List.forall_mem_iff_forall_mem {α : Type*} {l : List α} {p q lenient strict : α → Prop}
    (hlenient : ∀ a ∈ l, lenient a ↔ p a ∧ ¬q a) (hstrict : ∀ a ∈ l, strict a ↔ ¬p a ∧ q a) :
    ((∀ a ∈ l, p a) ↔ ∀ a ∈ l, q a) ↔
      ¬((∃ a ∈ l, lenient a) ∧ (∀ a ∈ l, lenient a ∨ q a ∧ ¬strict a) ∨
        (∃ a ∈ l, strict a) ∧ ∀ a ∈ l, q a) := by
  have hp : (∀ a ∈ l, lenient a ∨ q a ∧ ¬strict a) ↔ ∀ a ∈ l, p a := by
    refine forall₂_congr fun a ha => ?_
    rw [hlenient a ha, hstrict a ha]
    by_cases hpa : p a <;> by_cases hqa : q a <;> simp [hpa, hqa]
  rw [hp, not_or, not_and, not_and]
  constructor
  · intro hiff
    constructor
    · rintro ⟨a, ha, hdiffers⟩ hall
      exact ((hlenient a ha).mp hdiffers).2 (hiff.mp hall a ha)
    · rintro ⟨a, ha, hdiffers⟩ hall
      exact ((hstrict a ha).mp hdiffers).1 (hiff.mpr hall a ha)
  · rintro ⟨hnone, hnone'⟩
    constructor
    · intro hall a ha
      by_contra hqa
      exact hnone ⟨a, ha, (hlenient a ha).mpr ⟨hall a ha, hqa⟩⟩ hall
    · intro hall a ha
      by_contra hpa
      exact hnone' ⟨a, ha, (hstrict a ha).mpr ⟨hpa, hall a ha⟩⟩ hall

theorem List.filter_filterMap_of_forall_ne {α β κ : Type*} [DecidableEq κ] {l : List α}
    {f : α → Option β} {key : α → κ} {key' : β → κ} (hkey : ∀ a b, f a = some b → key' b = key a)
    {k : κ} (hne : ∀ b ∈ l, key b ≠ k) : (l.filterMap f).filter (fun b => key' b = k) = [] := by
  rw [List.filter_eq_nil_iff]
  intro c hc
  obtain ⟨d, hd, hdc⟩ := List.mem_filterMap.mp hc
  rw [decide_eq_true_eq, hkey d c hdc]
  exact hne d hd

/-- The results of a partial function on a list without repetitions whose key is that of `a`, the
only element with this key. -/
theorem List.filter_filterMap_of_mem {α β κ : Type*} [DecidableEq κ] {l : List α} {f : α → Option β}
    {key : α → κ} {key' : β → κ} (hkey : ∀ a b, f a = some b → key' b = key a) {a : α}
    (honly : ∀ b ∈ l, key b = key a → b = a) (hl : l.Nodup) (ha : a ∈ l) :
    (l.filterMap f).filter (fun b => key' b = key a) = (f a).toList := by
  induction l with
  | nil => cases ha
  | cons b l ih =>
    have hrest : ∀ c ∈ l, key c = key a → c = a := fun c hc => honly c (List.mem_cons_of_mem _ hc)
    obtain ⟨hb, hl⟩ := List.nodup_cons.mp hl
    rcases List.mem_cons.mp ha with rfl | ha
    · have hothers : (l.filterMap f).filter (fun b => key' b = key a) = [] :=
        List.filter_filterMap_of_forall_ne hkey fun c hc heq => hb (hrest c hc heq ▸ hc)
      rw [List.filterMap_cons]
      cases hfa : f a with
      | none => exact hothers
      | some c =>
        rw [List.filter_cons_of_pos (by simpa using hkey a c hfa), hothers]
        rfl
    · have hne : key b ≠ key a := by
        intro heq
        rw [honly b List.mem_cons_self heq] at hb
        exact hb ha
      rw [List.filterMap_cons]
      cases hfb : f b with
      | none => exact ih hrest hl ha
      | some c =>
        rw [List.filter_cons_of_neg (by simpa [hkey b c hfb] using hne)]
        exact ih hrest hl ha

/-- Two filters, one of which implies the other, keep the same elements if what they keep has the
same images. -/
theorem List.map_filter_eq_iff {α β : Type*} {f : α → β} {l : List α} {p q : α → Bool}
    (himp : ∀ a ∈ l, p a = true → q a = true) :
    (l.filter q).map f = (l.filter p).map f ↔ ∀ a ∈ l, q a = true → p a = true := by
  constructor
  · intro heq
    have hlength : ((l.filter q).filter p).length = (l.filter q).length := by
      have hsame : (l.filter q).filter p = l.filter p := by
        rw [List.filter_filter]
        exact List.filter_congr fun a ha => by
          cases hp : p a with
          | false => rfl
          | true => rw [himp a ha hp]; rfl
      have hlength := congrArg List.length heq
      rw [List.length_map, List.length_map] at hlength
      rw [hsame, hlength]
    intro a ha hq
    exact List.length_filter_eq_length_iff.mp hlength a (List.mem_filter.mpr ⟨ha, hq⟩)
  · intro himp'
    rw [List.filter_congr fun a ha => Bool.eq_iff_iff.mpr ⟨himp' a ha, himp a ha⟩]

/-- Every `d` in the list has a `u` behind it. -/
def List.Answered {α : Type*} (d u : α) (l : List α) : Prop :=
  ∀ before after, l = before ++ d :: after → u ∈ after

namespace List.Answered

variable {α : Type*} {d u : α} {l l' : List α}

theorem of_notMem (hd : d ∉ l) : l.Answered d u := by
  rintro before after rfl
  exact absurd (List.mem_append_right _ List.mem_cons_self) hd

theorem append (hl : l.Answered d u) (hl' : l'.Answered d u) : (l ++ l').Answered d u := by
  intro before after heq
  rcases List.append_eq_append_iff.mp heq with ⟨rest, rfl, hrest⟩ | ⟨rest, rfl, hrest⟩
  · exact hl' rest after hrest
  · cases rest with
    | nil => exact hl' [] after (by simpa using hrest.symm)
    | cons x rest =>
      obtain ⟨rfl, rfl⟩ := List.cons.inj hrest
      exact List.mem_append_left _ (hl before rest rfl)

theorem concat (hne : d ≠ u) (l : List α) : (l ++ [u]).Answered d u := by
  intro before after heq
  have hlast := congrArg List.getLast? heq
  rw [List.getLast?_concat, List.getLast?_append, List.getLast?_cons] at hlast
  cases hafter : after.getLast? with
  | none =>
    rw [List.getLast?_eq_none_iff.mp hafter] at hlast
    exact absurd (Option.some.inj hlast).symm hne
  | some x =>
    rw [hafter] at hlast
    obtain rfl : u = x := by simpa using hlast
    exact List.mem_of_getLast? hafter

/-- The last `u` has no `d` behind it. -/
theorem exists_split (hl : l.Answered d u) (hu : u ∈ l) :
    ∃ before after, l = before ++ u :: after ∧ d ∉ after := by
  have hlast : ∀ l : List α, u ∈ l → ∃ before after, l = before ++ u :: after ∧ u ∉ after := by
    intro l
    induction l with
    | nil => exact fun hu => absurd hu List.not_mem_nil
    | cons x l ih =>
      intro hu
      by_cases hmem : u ∈ l
      · obtain ⟨before, after, rfl, hafter⟩ := ih hmem
        exact ⟨x :: before, after, rfl, hafter⟩
      · obtain rfl := (List.mem_cons.mp hu).resolve_right hmem
        exact ⟨[], l, rfl, hmem⟩
  obtain ⟨before, after, rfl, hafter⟩ := hlast l hu
  refine ⟨before, after, rfl, fun hd => ?_⟩
  obtain ⟨front, back, rfl⟩ := List.append_of_mem hd
  refine hafter (List.mem_append_right front (List.mem_cons_of_mem d ?_))
  exact hl (before ++ u :: front) back (by simp)

end List.Answered
