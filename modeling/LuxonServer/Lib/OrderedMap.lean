import Mathlib.Data.List.Sort
import Mathlib.Order.Basic

/-! A map as the list of its entries in the order of their keys, which is what an iteration over it
visits. -/

namespace OrderedMap

variable {κ ν : Type*} [LinearOrder κ]

/-- The entries are in the order of their keys, with one for each key. -/
def Sorted (m : List (κ × ν)) : Prop := m.Pairwise fun a b => a.1 < b.1

/-- The value of a key. -/
def lookup (key : κ) : List (κ × ν) → Option ν
  | [] => none
  | (k, v) :: m => if key = k then some v else lookup key m

/-- A new entry; one that is there already stays. -/
def insert (key : κ) (value : ν) : List (κ × ν) → List (κ × ν)
  | [] => [(key, value)]
  | (k, v) :: m =>
    if key < k then (key, value) :: (k, v) :: m
    else if key = k then (k, v) :: m
    else (k, v) :: insert key value m

/-- The map of some entries. -/
def ofEntries : List (κ × ν) → List (κ × ν)
  | [] => []
  | (k, v) :: entries => insert k v (ofEntries entries)

variable {key : κ} {value : ν} {m entries : List (κ × ν)}

theorem lookup_eq_none : lookup key m = none ↔ key ∉ m.map Prod.fst := by
  induction m with
  | nil => exact iff_of_true rfl List.not_mem_nil
  | cons entry m ih =>
    obtain ⟨k, v⟩ := entry
    rw [lookup, List.map_cons, List.mem_cons, not_or]
    split
    · next heq => exact iff_of_false nofun fun h => h.1 heq
    · next hne => rw [ih, and_iff_right hne]

theorem mem_of_lookup (hlookup : lookup key m = some value) : (key, value) ∈ m := by
  induction m with
  | nil => cases hlookup
  | cons entry m ih =>
    obtain ⟨k, v⟩ := entry
    rw [lookup] at hlookup
    split at hlookup
    · next heq =>
      cases hlookup
      rw [heq]
      exact List.mem_cons_self
    · exact List.mem_cons_of_mem _ (ih hlookup)

theorem lookup_of_mem (hdistinct : (m.map Prod.fst).Nodup) (hmem : (key, value) ∈ m) :
    lookup key m = some value := by
  induction m with
  | nil => cases hmem
  | cons entry m ih =>
    obtain ⟨k, v⟩ := entry
    rw [List.map_cons, List.nodup_cons] at hdistinct
    rw [lookup]
    rcases List.mem_cons.mp hmem with heq | hrest
    · cases heq
      exact if_pos rfl
    · have hne : key ≠ k := fun heq => hdistinct.1 (List.mem_map.mpr ⟨_, hrest, heq⟩)
      rw [if_neg hne]
      exact ih hdistinct.2 hrest

/-- Keys that are renamed one to one keep their values. -/
theorem lookup_map {f : κ → κ} (hf : Function.Injective f) (key : κ) :
    lookup (f key) (m.map fun entry => (f entry.1, entry.2)) = lookup key m := by
  induction m with
  | nil => rfl
  | cons entry m ih =>
    obtain ⟨k, v⟩ := entry
    rw [List.map_cons, lookup, lookup, ih]
    simp only [hf.eq_iff]

/-- In a list of entries with a key of its own each, a value is found in whatever order. -/
theorem lookup_eq_of_perm {entries' : List (κ × ν)} (hperm : entries'.Perm entries)
    (hdistinct : (entries.map Prod.fst).Nodup) (key : κ) :
    lookup key entries' = lookup key entries := by
  have hdistinct' : (entries'.map Prod.fst).Nodup := (hperm.map Prod.fst).nodup_iff.mpr hdistinct
  cases hlookup : lookup key entries with
  | none =>
    rw [lookup_eq_none] at hlookup ⊢
    rwa [(hperm.map Prod.fst).mem_iff]
  | some value =>
    exact lookup_of_mem hdistinct' (hperm.mem_iff.mpr (mem_of_lookup hlookup))

theorem mem_keys_insert {k : κ} :
    k ∈ (insert key value m).map Prod.fst ↔ k = key ∨ k ∈ m.map Prod.fst := by
  induction m with
  | nil => simp [insert]
  | cons entry m ih =>
    obtain ⟨k', v⟩ := entry
    rw [insert]
    split
    · simp
    · split
      · next heq => simp [heq]
      · simp only [List.map_cons, List.mem_cons, ih]
        tauto

theorem mem_insert {entry : κ × ν} (hentry : entry ∈ insert key value m) :
    entry = (key, value) ∨ entry ∈ m := by
  induction m with
  | nil => exact .inl (List.mem_singleton.mp hentry)
  | cons first m ih =>
    obtain ⟨k, v⟩ := first
    rw [insert] at hentry
    split at hentry
    · exact List.mem_cons.mp hentry
    · split at hentry
      · exact .inr hentry
      · rcases List.mem_cons.mp hentry with rfl | hrest
        · exact .inr List.mem_cons_self
        · exact (ih hrest).imp_right (List.mem_cons_of_mem _)

theorem sorted_insert (hm : Sorted m) : Sorted (insert key value m) := by
  induction m with
  | nil => exact List.pairwise_singleton _ _
  | cons entry m ih =>
    obtain ⟨k, v⟩ := entry
    obtain ⟨hfirst, hrest⟩ := List.pairwise_cons.mp hm
    rw [insert]
    split
    · next hlt =>
      refine List.pairwise_cons.mpr ⟨fun other hother => ?_, hm⟩
      rcases List.mem_cons.mp hother with rfl | hother
      · exact hlt
      · exact hlt.trans (hfirst other hother)
    · next hge =>
      split
      · exact hm
      · next hne =>
        refine List.pairwise_cons.mpr ⟨fun other hother => ?_, ih hrest⟩
        have hgt : k < key := lt_of_le_of_ne (not_lt.mp hge) (Ne.symm hne)
        rcases mem_keys_insert.mp (List.mem_map_of_mem (f := Prod.fst) hother) with heq | hmem
        · exact heq.symm ▸ hgt
        · obtain ⟨entry, hentry, heq⟩ := List.mem_map.mp hmem
          exact heq ▸ hfirst entry hentry

theorem lookup_insert (hm : Sorted m) (k : κ) : lookup k (insert key value m) =
    if k = key then some ((lookup key m).getD value) else lookup k m := by
  induction m with
  | nil => rfl
  | cons entry m ih =>
    obtain ⟨k', v⟩ := entry
    obtain ⟨hfirst, hrest⟩ := List.pairwise_cons.mp hm
    have hlookup : ∀ x, lookup x ((k', v) :: m) = if x = k' then some v else lookup x m :=
      fun _ => rfl
    rw [insert]
    split
    · next hlt =>
      have hnone : lookup key ((k', v) :: m) = none := by
        rw [lookup_eq_none, List.map_cons, List.mem_cons, not_or]
        refine ⟨hlt.ne, fun hmem => ?_⟩
        obtain ⟨entry, hentry, heq⟩ := List.mem_map.mp hmem
        have hgt : key < entry.1 := hlt.trans (hfirst entry hentry)
        exact absurd (heq ▸ hgt) (lt_irrefl key)
      rw [hnone, lookup]
      rfl
    · split
      · next heq =>
        rw [hlookup, hlookup, if_pos heq]
        split
        · next hk => rw [if_pos (hk.trans heq.symm)]; rfl
        · next hk => rw [if_neg fun h => hk (h.trans heq)]
      · next hne =>
        rw [lookup, ih hrest, hlookup, hlookup, if_neg hne]
        by_cases hk : k = key
        · rw [if_pos hk, if_pos hk, if_neg fun h => hne (hk.symm.trans h)]
        · rw [if_neg hk, if_neg hk]

theorem sorted_ofEntries (entries : List (κ × ν)) : Sorted (ofEntries entries) := by
  induction entries with
  | nil => exact List.Pairwise.nil
  | cons entry entries ih => exact sorted_insert ih

theorem mem_ofEntries {entry : κ × ν} (hentry : entry ∈ ofEntries entries) : entry ∈ entries := by
  induction entries with
  | nil => exact hentry
  | cons first entries ih =>
    rcases mem_insert hentry with rfl | hrest
    · exact List.mem_cons_self
    · exact List.mem_cons_of_mem _ (ih hrest)

theorem lookup_ofEntries (hdistinct : (entries.map Prod.fst).Nodup) (key : κ) :
    lookup key (ofEntries entries) = lookup key entries := by
  induction entries generalizing key with
  | nil => rfl
  | cons entry entries ih =>
    obtain ⟨k, v⟩ := entry
    rw [List.map_cons, List.nodup_cons] at hdistinct
    rw [ofEntries, lookup_insert (sorted_ofEntries entries), lookup, ih hdistinct.2 k,
      ih hdistinct.2 key, lookup_eq_none.mpr hdistinct.1]
    rfl

theorem Sorted.distinct (hm : Sorted m) : (m.map Prod.fst).Nodup :=
  List.pairwise_map.mpr (hm.imp fun hlt => hlt.ne)

theorem Sorted.ext {m' : List (κ × ν)} (hm : Sorted m) (hm' : Sorted m')
    (h : ∀ key, lookup key m = lookup key m') : m = m' := by
  have hmem : ∀ entry, entry ∈ m ↔ entry ∈ m' := by
    rintro ⟨key, value⟩
    constructor
    · intro hentry
      exact mem_of_lookup ((h key).symm.trans (lookup_of_mem hm.distinct hentry))
    · intro hentry
      exact mem_of_lookup ((h key).trans (lookup_of_mem hm'.distinct hentry))
  have hnodup : ∀ {l : List (κ × ν)}, Sorted l → l.Nodup := fun hl =>
    hl.imp fun hlt heq => absurd (heq ▸ hlt) (lt_irrefl _)
  refine List.Perm.eq_of_pairwise (fun a b _ _ hab hba => absurd (hab.trans hba) (lt_irrefl _)) hm
    hm' ((List.perm_ext_iff_of_nodup (hnodup hm) (hnodup hm')).mpr hmem)

/-- The order in which entries with a key of their own each are given does not matter. -/
theorem ofEntries_eq_of_perm {entries' : List (κ × ν)} (hperm : entries'.Perm entries)
    (hdistinct : (entries.map Prod.fst).Nodup) : ofEntries entries' = ofEntries entries := by
  have hdistinct' : (entries'.map Prod.fst).Nodup := (hperm.map Prod.fst).nodup_iff.mpr hdistinct
  refine (sorted_ofEntries entries').ext (sorted_ofEntries entries) fun key => ?_
  rw [lookup_ofEntries hdistinct', lookup_ofEntries hdistinct, lookup_eq_of_perm hperm hdistinct]

end OrderedMap
