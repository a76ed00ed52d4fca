import Mathlib.Data.List.Infix

/-! The first occurrence of a pattern in a text, and its replacement.  A pattern that ends with a
character that it has nowhere else cannot overlap itself, so its first occurrence is at a given
place exactly if the text before that place has none. -/

namespace Search

variable {α : Type*} [DecidableEq α]

/-- Where the pattern occurs first. -/
def find (pattern : List α) : List α → Option Nat
  | [] => if pattern = [] then some 0 else none
  | c :: text =>
    if pattern.isPrefixOf (c :: text) then some 0 else (find pattern text).map (· + 1)

/-- The text with the first occurrence of the pattern replaced. -/
def replaceFirst (pattern value text : List α) : List α :=
  match find pattern text with
  | some i => text.take i ++ value ++ text.drop (i + pattern.length)
  | none => text

variable {pattern body before after text value : List α} {c : α} {i : Nat}

theorem find_eq_some_iff : find pattern text = some i ↔
    pattern <+: text.drop i ∧ i ≤ text.length ∧ ∀ j < i, ¬pattern <+: text.drop j := by
  induction text generalizing i with
  | nil =>
    rw [find]
    cases i with
    | zero => cases pattern <;> simp
    | succ i =>
      refine iff_of_false (by split <;> simp) ?_
      rintro ⟨-, hle, -⟩
      exact absurd hle (by simp)
  | cons c text ih =>
    rw [find]
    split
    · next hprefix =>
      rw [List.isPrefixOf_iff_prefix] at hprefix
      cases i with
      | zero => simpa using hprefix
      | succ i =>
        refine iff_of_false (by simp) ?_
        rintro ⟨-, -, hearlier⟩
        exact hearlier 0 (Nat.succ_pos i) hprefix
    · next hprefix =>
      rw [List.isPrefixOf_iff_prefix] at hprefix
      cases i with
      | zero =>
        refine iff_of_false (by simp) ?_
        rintro ⟨hzero, -⟩
        exact hprefix hzero
      | succ i =>
        have hmap : (find pattern text).map (· + 1) = some (i + 1) ↔
            find pattern text = some i := by
          simp
        rw [hmap, ih, List.drop_succ_cons, List.length_cons, Nat.succ_le_succ_iff]
        refine and_congr_right fun _ => and_congr_right fun _ => ?_
        constructor
        · rintro hearlier (_ | j) hj
          · exact hprefix
          · exact hearlier j (Nat.lt_of_succ_lt_succ hj)
        · intro hearlier j hj
          exact hearlier (j + 1) (Nat.succ_lt_succ hj)

theorem find_le_length (hfind : find pattern text = some i) : i ≤ text.length :=
  (find_eq_some_iff.mp hfind).2.1

/-- What is found is cut out. -/
theorem eq_append_of_find (hfind : find pattern text = some i) :
    text = text.take i ++ pattern ++ text.drop (i + pattern.length) := by
  obtain ⟨rest, hrest⟩ := (find_eq_some_iff.mp hfind).1
  have hdrop : text.drop (i + pattern.length) = rest := by
    rw [← List.drop_drop, ← hrest, List.drop_left]
  rw [hdrop, List.append_assoc, hrest, List.take_append_drop]

/-- A single character is found where it stands first. -/
theorem find_singleton (hfind : find [c] text = some i) :
    c ∉ text.take i ∧ text = text.take i ++ c :: text.drop (i + 1) := by
  refine ⟨fun hmem => ?_, by simpa using eq_append_of_find hfind⟩
  obtain ⟨j, hj, heq⟩ := List.mem_iff_getElem.mp hmem
  rw [List.length_take] at hj
  have hlt : j < text.length := by omega
  refine (find_eq_some_iff.mp hfind).2.2 j (by omega) ?_
  rw [List.drop_eq_getElem_cons hlt, ← heq, List.getElem_take]
  exact ⟨_, rfl⟩

/-- A pattern with an end of its own is found at its own place exactly if it does not occur
before. -/
theorem find_own_iff (hpattern : pattern = body ++ [c]) (hc : c ∉ body) :
    find pattern (before ++ (pattern ++ after)) = some before.length ↔ ¬pattern <:+: before := by
  rw [find_eq_some_iff]
  constructor
  · rintro ⟨-, -, hearlier⟩ ⟨front, back, hbefore⟩
    have hpos : 0 < pattern.length := by
      rw [hpattern, List.length_append]
      exact Nat.succ_pos _
    have hlength := congrArg List.length hbefore
    rw [List.length_append, List.length_append] at hlength
    refine hearlier front.length (by omega) ?_
    rw [← hbefore, List.append_assoc, List.append_assoc, List.drop_left]
    exact List.prefix_append _ _
  · intro hinfix
    refine ⟨?_, by simp, fun j hj hprefix => ?_⟩
    · rw [List.drop_left]
      exact List.prefix_append _ _
    rw [List.drop_append_of_le_length (Nat.le_of_lt hj)] at hprefix
    by_cases hfits : pattern.length ≤ (before.drop j).length
    · exact hinfix ((List.prefix_of_prefix_length_le hprefix (List.prefix_append _ _)
        hfits).isInfix.trans (List.drop_suffix j before).isInfix)
    · -- the last character would lie in the body
      rw [List.length_drop] at hfits
      have hlength : pattern.length = body.length + 1 := by
        rw [hpattern, List.length_append]
        rfl
      obtain ⟨rest, hrest⟩ := hprefix
      have hlast : (pattern ++ rest)[body.length]? = some c := by
        rw [hpattern, List.append_assoc, List.getElem?_append_right (le_refl _), Nat.sub_self]
        rfl
      rw [hrest, List.getElem?_append_right (by rw [List.length_drop]; omega), hpattern,
        List.append_assoc,
        List.getElem?_append_left (by rw [List.length_drop]; omega)] at hlast
      exact hc (List.mem_of_getElem? hlast)

theorem replaceFirst_of_find (hfind : find pattern (before ++ (pattern ++ after)) =
    some before.length) :
    replaceFirst pattern value (before ++ (pattern ++ after)) = before ++ (value ++ after) := by
  rw [replaceFirst, hfind]
  simp only [List.take_left, List.append_assoc]
  rw [← List.drop_drop, List.drop_left, List.drop_left]

end Search
