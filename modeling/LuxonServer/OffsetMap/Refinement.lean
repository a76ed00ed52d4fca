import LuxonServer.Lib.Run
import LuxonServer.OffsetMap

/-! `offset_map` refines a finite map of the keys: the base, the slots and the count stay those of
the entries, and the first and the last slot stay filled. -/

namespace LuxonServer

namespace OffsetMap

variable {w : Nat} {α : Type} {m : OffsetMap w α} {key : BitVec w}

theorem indexOf_of_le (hle : m.base ≤ key) : m.indexOf key = key.toNat - m.base.toNat :=
  BitVec.toNat_sub_of_le hle

theorem inSpan_iff : m.inSpan key = true ↔
    m.base ≤ key ∧ key.toNat - m.base.toNat < m.slots.length := by
  unfold inSpan
  rw [Bool.and_eq_true, Bool.and_eq_true, decide_eq_true_eq, decide_eq_true_eq]
  constructor
  · rintro ⟨⟨-, hle⟩, hlt⟩
    exact ⟨hle, BitVec.toNat_sub_of_le hle ▸ hlt⟩
  · rintro ⟨hle, hlt⟩
    refine ⟨⟨?_, hle⟩, (BitVec.toNat_sub_of_le hle).symm ▸ hlt⟩
    rw [Bool.not_eq_true', List.isEmpty_eq_false_iff, ← List.length_pos_iff]
    omega

theorem indexOf_lt (hspan : m.inSpan key = true) : m.indexOf key < m.slots.length := by
  obtain ⟨hle, hlt⟩ := inSpan_iff.mp hspan
  exact indexOf_of_le hle ▸ hlt

theorem base_add_indexOf (hspan : m.inSpan key = true) :
    m.base.toNat + m.indexOf key = key.toNat := by
  obtain ⟨hle, -⟩ := inSpan_iff.mp hspan
  have hle' : m.base.toNat ≤ key.toNat := hle
  rw [indexOf_of_le hle]
  omega

theorem slotAt_indexOf (hspan : m.inSpan key = true) :
    m.slotAt (m.indexOf key) = Slots.lookup m.base.toNat m.slots key.toNat := by
  obtain ⟨hle, -⟩ := inSpan_iff.mp hspan
  rw [slotAt, indexOf_of_le hle, Slots.lookup_of_le hle]

theorem get_eq (m : OffsetMap w α) (key : BitVec w) :
    m.get key = Slots.lookup m.base.toNat m.slots key.toNat := by
  unfold get
  split
  · next hspan => exact slotAt_indexOf hspan
  · next hspan =>
    rw [eq_comm, ← Option.not_isSome_iff_eq_none]
    intro hsome
    obtain ⟨hle, hlt⟩ := Slots.bounds_of_lookup hsome
    exact hspan (inSpan_iff.mpr ⟨hle, by omega⟩)

/-- The keys of the slots exist, their number is a `size_type`, and `size_` is right. -/
structure Spans (m : OffsetMap w α) : Prop where
  span : m.base.toNat + m.slots.length ≤ 2 ^ w
  fits : m.slots.length < 2 ^ 64
  count : m.size = Slots.filled m.slots

/-- The invariant between calls: the first and the last slot are filled. -/
structure Valid (m : OffsetMap w α) : Prop extends Spans m where
  ends : m.slots ≠ [] → (Slots.lookup m.base.toNat m.slots m.base.toNat).isSome ∧
    (Slots.lookup m.base.toNat m.slots (m.base.toNat + m.slots.length - 1)).isSome

theorem length_resize {n : Nat} {slots : List (Option α)} (hn : slots.length ≤ n) :
    (resize n slots).length = n := by
  simp only [resize, List.length_append, List.length_take, List.length_replicate]
  omega

theorem resize_of_le {n : Nat} {slots : List (Option α)} (hn : slots.length ≤ n) :
    resize n slots = slots ++ List.replicate (n - slots.length) none := by
  rw [resize, List.take_of_length_le hn]

theorem resize_of_ge {n : Nat} {slots : List (Option α)} (hn : n ≤ slots.length) :
    resize n slots = slots.take n := by
  rw [resize, Nat.sub_eq_zero_of_le hn, List.replicate_zero, List.append_nil]

theorem valid_clear (m : OffsetMap w α) : m.clear.Valid :=
  ⟨⟨by simp [clear], by simp [clear], rfl⟩,
    fun hne => absurd rfl hne⟩

/-- The span of a valid map is that of its keys, so one more key that `SpanFits` allows leaves it
small enough. -/
theorem Valid.room (hm : m.Valid) (hkey : KeyMap.SpanFits key fun other => m.get other)
    (hne : m.slots ≠ []) :
    (key < m.base → m.base.toNat - key.toNat + m.slots.length < 2 ^ 64) ∧
      (m.base ≤ key → key.toNat - m.base.toNat + 1 < 2 ^ 64) := by
  obtain ⟨hfirst, hlast⟩ := hm.ends hne
  have hlength := List.length_pos_iff.mpr hne
  have hspan := hm.span
  have hfit : ∀ n, n < 2 ^ w → (Slots.lookup m.base.toNat m.slots n).isSome →
      n < key.toNat + (2 ^ 64 - 1) ∧ key.toNat < n + (2 ^ 64 - 1) := by
    intro n hn hsome
    have hother := hkey (BitVec.ofNat w n)
    rw [KeyMap.keys, Set.mem_ofPred_eq, get_eq, BitVec.toNat_ofNat, Nat.mod_eq_of_lt hn] at hother
    exact hother hsome
  have hbase := hfit _ m.base.isLt hfirst
  have htop := hfit _ (by omega) hlast
  constructor
  · intro hlt
    have hlt' : key.toNat < m.base.toNat := hlt
    omega
  · intro hle
    omega

theorem slotAt_eq_get (hspan : m.inSpan key = true) : m.slotAt (m.indexOf key) = m.get key :=
  (if_pos hspan).symm

theorem getElem?_indexOf (hspan : m.inSpan key = true) :
    m.slots[m.indexOf key]? = some (m.get key) := by
  rw [← slotAt_eq_get hspan, slotAt, List.getElem?_eq_getElem (indexOf_lt hspan)]
  rfl

theorem lookup_set_indexOf (hspan : m.inSpan key = true) (slot : Option α) :
    Slots.lookup m.base.toNat (m.slots.set (m.indexOf key) slot) =
      Function.update (Slots.lookup m.base.toNat m.slots) key.toNat slot := by
  rw [Slots.lookup_set (indexOf_lt hspan), base_add_indexOf hspan]

/-- A slot that is written is that of its key. -/
theorem get_setSlot (hspan : m.inSpan key = true) (slot : Option α) (n : Nat) (other : BitVec w) :
    get other { m.setSlot (m.indexOf key) slot with size := n } =
      Function.update (fun other => m.get other) key slot other := by
  rw [get_eq]
  show Slots.lookup m.base.toNat (m.slots.set (m.indexOf key) slot) other.toNat = _
  rw [lookup_set_indexOf hspan]
  by_cases heq : other = key
  · rw [heq, Function.update_self, Function.update_self]
  · have hne : other.toNat ≠ key.toNat := fun h => heq (BitVec.eq_of_toNat_eq h)
    rw [Function.update_of_ne hne, Function.update_of_ne heq, get_eq]

theorem Spans.setSlot (hm : m.Spans) (hspan : m.inSpan key = true) {slot : Option α} {n : Nat}
    (hn : n + (m.get key).isSome.toNat = m.size + slot.isSome.toNat) :
    Spans { m.setSlot (m.indexOf key) slot with size := n } := by
  have hcount := Slots.filled_set (indexOf_lt hspan) slot
  rw [(List.getElem?_eq_some_iff.mp (getElem?_indexOf hspan)).2, ← hm.count] at hcount
  refine ⟨?_, ?_, ?_⟩
  · simpa [OffsetMap.setSlot] using hm.span
  · simpa [OffsetMap.setSlot] using hm.fits
  · show n = Slots.filled (m.slots.set (m.indexOf key) slot)
    omega

/-- `m'` is the map with a slot for the key, which is the first or the last one if an end is
empty. -/
structure Opened (m : OffsetMap w α) (key : BitVec w) (m' : OffsetMap w α) : Prop where
  spans : m'.Spans
  inSpan : m'.inSpan key = true
  lookup : Slots.lookup m'.base.toNat m'.slots = Slots.lookup m.base.toNat m.slots
  ends : ∀ n, n = m'.base.toNat ∨ n = m'.base.toNat + m'.slots.length - 1 →
    n = key.toNat ∨ (Slots.lookup m.base.toNat m.slots n).isSome

theorem Valid.opened_first (hm : m.Valid) (hnil : m.slots = []) :
    Opened m key { m with base := key, slots := resize 1 m.slots } := by
  have hisLt := key.isLt
  have hcount := hm.count
  rw [hnil] at hcount
  refine ⟨⟨?_, ?_, ?_⟩, ?_, ?_, ?_⟩
  · simp [hnil, resize]
    omega
  · simp [hnil, resize]
  · simp [hnil, resize, hcount, Slots.filled]
  · exact inSpan_iff.mpr ⟨BitVec.le_refl _, by simp [hnil, resize]⟩
  · funext n
    rw [hnil, Slots.lookup_nil]
    exact Slots.lookup_replicate 1 n
  · simp [hnil, resize]

theorem Valid.opened_front (hm : m.Valid) (hne : m.slots ≠ []) (hlt : key < m.base)
    (hfit : m.base.toNat - key.toNat + m.slots.length < 2 ^ 64) :
    Opened m key
      { m with slots := List.replicate (m.base - key).toNat none ++ m.slots, base := key } := by
  have hlt' : key.toNat < m.base.toNat := hlt
  have hprepend : (m.base - key).toNat = m.base.toNat - key.toNat :=
    BitVec.toNat_sub_of_le (BitVec.le_of_lt hlt)
  have hbase : m.base.toNat - (m.base.toNat - key.toNat) = key.toNat := by omega
  have hlength := List.length_pos_iff.mpr hne
  have hspan := hm.span
  rw [hprepend]
  refine ⟨⟨?_, ?_, ?_⟩, ?_, ?_, ?_⟩
  · simp only [List.length_append, List.length_replicate]
    omega
  · simp only [List.length_append, List.length_replicate]
    omega
  · simp only [Slots.filled_append, Slots.filled_replicate, Nat.zero_add, hm.count]
  · refine inSpan_iff.mpr ⟨BitVec.le_refl _, ?_⟩
    simp only [List.length_append, List.length_replicate]
    omega
  · funext n
    have hlookup : Slots.lookup (m.base.toNat - (m.base.toNat - key.toNat))
        (List.replicate (m.base.toNat - key.toNat) none ++ m.slots) n =
        Slots.lookup m.base.toNat m.slots n :=
      Slots.lookup_prepend (Nat.sub_le m.base.toNat key.toNat) n
    rwa [hbase] at hlookup
  · simp only [List.length_append, List.length_replicate]
    rintro n (rfl | rfl)
    · exact Or.inl rfl
    · refine Or.inr ?_
      have htop : key.toNat + (m.base.toNat - key.toNat + m.slots.length) - 1 =
          m.base.toNat + m.slots.length - 1 := by omega
      rw [htop]
      exact (hm.ends hne).2

theorem Valid.opened_back (hm : m.Valid) (hne : m.slots ≠ []) (hle : m.base ≤ key)
    (hout : m.slots.length ≤ m.indexOf key) (hfit : key.toNat - m.base.toNat + 1 < 2 ^ 64) :
    Opened m key { m with slots := resize ((m.indexOf key + 1) % 2 ^ 64) m.slots } := by
  have hisLt := key.isLt
  have hle' : m.base.toNat ≤ key.toNat := hle
  have hindex := indexOf_of_le hle
  have hmod : (m.indexOf key + 1) % 2 ^ 64 = key.toNat - m.base.toNat + 1 := by
    rw [hindex]
    exact Nat.mod_eq_of_lt hfit
  have hgrow : m.slots.length ≤ key.toNat - m.base.toNat + 1 := by omega
  rw [hmod]
  refine ⟨⟨?_, ?_, ?_⟩, ?_, ?_, ?_⟩
  · show m.base.toNat + (resize _ m.slots).length ≤ 2 ^ w
    rw [length_resize hgrow]
    omega
  · rwa [length_resize hgrow]
  · rw [resize_of_le hgrow, Slots.filled_append, Slots.filled_replicate, hm.count, Nat.add_zero]
  · refine inSpan_iff.mpr ⟨hle, ?_⟩
    show key.toNat - m.base.toNat < (resize _ m.slots).length
    rw [length_resize hgrow]
    omega
  · funext n
    rw [resize_of_le hgrow, Slots.lookup_extend]
  · rw [length_resize hgrow]
    rintro n (rfl | rfl)
    · exact Or.inr (hm.ends hne).1
    · refine Or.inl ?_
      show m.base.toNat + (key.toNat - m.base.toNat + 1) - 1 = key.toNat
      omega

/-- `ensure_slot` makes room for the key and changes no entry. -/
theorem Valid.ensureSlot (hm : m.Valid) (hkey : KeyMap.SpanFits key fun other => m.get other) :
    Opened m key (m.ensureSlot key) := by
  unfold OffsetMap.ensureSlot
  split
  · next hempty => exact hm.opened_first (List.isEmpty_iff.mp hempty)
  · next hempty =>
    have hne : m.slots ≠ [] := fun hnil => hempty (List.isEmpty_iff.mpr hnil)
    obtain ⟨hlow, hhigh⟩ := hm.room hkey hne
    split
    · next hlt => exact hm.opened_front hne hlt (hlow hlt)
    · next hlt =>
      have hle : m.base ≤ key := BitVec.not_lt.mp hlt
      split
      · next hout => exact hm.opened_back hne hle hout (hhigh hle)
      · next hin =>
        have hindex := indexOf_of_le hle
        refine ⟨hm.toSpans, inSpan_iff.mpr ⟨hle, by omega⟩, rfl, ?_⟩
        rintro n (rfl | rfl)
        · exact Or.inr (hm.ends hne).1
        · exact Or.inr (hm.ends hne).2

theorem Opened.get_eq_get {m' : OffsetMap w α} (ho : Opened m key m') (other : BitVec w) :
    m'.get other = m.get other := by
  rw [get_eq, get_eq, ho.lookup]

theorem Opened.slotAt_eq {m' : OffsetMap w α} (ho : Opened m key m') :
    m'.slotAt (m'.indexOf key) = m.get key := by
  rw [slotAt_indexOf ho.inSpan, ho.lookup, get_eq]

/-- A value that is put into the slot of a key is found there. -/
theorem Opened.put {m' : OffsetMap w α} (ho : Opened m key m') (v : α) {n : Nat}
    (hn : n + (m.get key).isSome.toNat = m'.size + 1) :
    Valid { m'.setSlot (m'.indexOf key) (some v) with size := n } ∧
      ∀ other, get other { m'.setSlot (m'.indexOf key) (some v) with size := n } =
        Function.update (fun other => m.get other) key (some v) other := by
  have hends : ∀ n, n = m'.base.toNat ∨ n = m'.base.toNat + m'.slots.length - 1 →
      (Slots.lookup m'.base.toNat (m'.slots.set (m'.indexOf key) (some v)) n).isSome := by
    intro n hn
    rw [lookup_set_indexOf ho.inSpan, ho.lookup]
    by_cases heq : n = key.toNat
    · rw [heq, Function.update_self]
      rfl
    · rw [Function.update_of_ne heq]
      exact (ho.ends n hn).resolve_left heq
  refine ⟨⟨ho.spans.setSlot ho.inSpan ?_, fun _ => ⟨hends _ (Or.inl rfl), hends _ (Or.inr ?_)⟩⟩,
    fun other => ?_⟩
  · rw [ho.get_eq_get, hn]
    rfl
  · simp [setSlot]
  · rw [get_setSlot ho.inSpan]
    simp only [ho.get_eq_get]

/-- The iterator at a filled slot of the span. -/
theorem deref_skipEmpty (hspan : m.inSpan key = true) {v : α}
    (hslot : m.slotAt (m.indexOf key) = some v) :
    m.skipEmpty (m.indexOf key) = m.indexOf key ∧
      m.deref (m.skipEmpty (m.indexOf key)) = some (key, v) := by
  have hindex := indexOf_lt hspan
  have hskip : m.skipEmpty (m.indexOf key) = m.indexOf key := by
    rw [slotAt, List.getElem?_eq_getElem hindex, Option.join_some] at hslot
    rw [skipEmpty, List.drop_eq_getElem_cons hindex, hslot]
    rfl
  refine ⟨hskip, ?_⟩
  rw [hskip, deref, hslot, base_add_indexOf hspan, BitVec.ofNat_toNat]
  simp

/-- The iterator that is returned with a value that was put into the slot of a key. -/
theorem Opened.deref_put {m' : OffsetMap w α} (ho : Opened m key m') (v : α) (n : Nat) :
    let after := { m'.setSlot (m'.indexOf key) (some v) with size := n }
    after.deref (after.skipEmpty (m'.indexOf key)) = some (key, v) := by
  intro after
  have hspan : after.inSpan key = true := by
    have hlength : after.slots.length = m'.slots.length := by simp [after, setSlot]
    refine inSpan_iff.mpr ?_
    rw [hlength]
    exact inSpan_iff.mp ho.inSpan
  have hslot : after.slotAt (after.indexOf key) = some v := by
    show ((m'.slots.set (m'.indexOf key) (some v))[m'.indexOf key]?).join = some v
    rw [List.getElem?_set_self (indexOf_lt ho.inSpan)]
    rfl
  exact (deref_skipEmpty hspan hslot).2

section Trim

/-- What `trim` leaves of a map with entries: the slots between the first and the last of them. -/
theorem trim_eq (hne : m.slots ≠ []) (hsize : m.size ≠ 0) : m.trim =
    { m with
      slots := Slots.trimmed m.slots
      base := BitVec.ofNat w (m.base.toNat + Slots.leading m.slots) } := by
  have hslots : (if m.slots.length - Slots.leading (m.slots.drop (Slots.leading m.slots)).reverse <
        m.slots.length then
      resize (m.slots.length - Slots.leading (m.slots.drop (Slots.leading m.slots)).reverse) m.slots
      else m.slots) =
      m.slots.take
        (m.slots.length - Slots.leading (m.slots.drop (Slots.leading m.slots)).reverse) := by
    split
    · next hlt => exact resize_of_ge (Nat.le_of_lt hlt)
    · next hge => rw [List.take_of_length_le (Nat.not_lt.mp hge)]
  unfold trim
  rw [if_neg (by simpa using hne), if_neg hsize]
  simp only [hslots]
  split
  · rfl
  · next hzero =>
    have hleading : Slots.leading m.slots = 0 := by omega
    simp [Slots.trimmed, hleading]

/-- `trim` restores the invariant and changes no entry. -/
theorem Spans.trim (hm : m.Spans) : m.trim.Valid ∧ ∀ key, m.trim.get key = m.get key := by
  by_cases hempty : m.slots = []
  · have heq : m.trim = m := if_pos (by simp [hempty])
    rw [heq]
    exact ⟨⟨hm, fun hne => absurd hempty hne⟩, fun _ => rfl⟩
  by_cases hsize : m.size = 0
  · have heq : m.trim = m.clear := by
      unfold OffsetMap.trim
      rw [if_neg (by simpa using hempty), if_pos hsize]
    rw [heq]
    refine ⟨valid_clear m, fun key => ?_⟩
    have hzero : m.slots = List.replicate m.slots.length none :=
      Slots.filled_eq_zero.mp (hm.count.symm.trans hsize)
    have hnone : Slots.lookup m.base.toNat m.slots key.toNat = none := by
      rw [hzero]
      exact Slots.lookup_replicate _ _
    rw [get_eq, get_eq, hnone]
    exact Slots.lookup_nil
  rw [trim_eq hempty hsize]
  have hlength := Slots.length_trimmed m.slots
  have hspan := hm.span
  have hfits := hm.fits
  have hcount := hm.count
  have hfilled := Slots.filled_trimmed m.slots
  have hpos : Slots.trimmed m.slots ≠ [] := by
    intro hnil
    rw [hnil] at hfilled
    exact hsize (hcount.trans hfilled.symm)
  have hpos' := List.length_pos_iff.mpr hpos
  have hbase : (BitVec.ofNat w (m.base.toNat + Slots.leading m.slots)).toNat =
      m.base.toNat + Slots.leading m.slots := by
    rw [BitVec.toNat_ofNat]
    exact Nat.mod_eq_of_lt (by omega)
  have hlookup := Slots.lookup_trimmed m.base.toNat m.slots
  refine ⟨⟨⟨?_, ?_, ?_⟩, fun _ => ⟨?_, ?_⟩⟩, fun key => ?_⟩
  · simp only [hbase]
    omega
  · show (Slots.trimmed m.slots).length < 2 ^ 64
    omega
  · exact hcount.trans hfilled.symm
  · simp only [hbase]
    obtain ⟨slot, rest, hcons⟩ := List.exists_cons_of_ne_nil hpos
    rw [hcons, Slots.lookup_cons, if_pos rfl]
    exact Slots.isSome_head_trimmed (by rw [hcons]; rfl)
  · simp only [hbase]
    have hlast := List.getLast?_eq_some_getLast hpos
    rw [Slots.lookup_of_le (by omega), Nat.add_sub_assoc (by omega), Nat.add_sub_cancel_left,
      ← List.getLast?_eq_getElem?, hlast]
    exact Slots.isSome_getLast_trimmed hlast
  · rw [get_eq, get_eq]
    simp only [hbase, hlookup]

end Trim

section Operations

theorem inSpan_of_get (hsome : (m.get key).isSome) : m.inSpan key = true := by
  unfold get at hsome
  split at hsome
  · next hspan => exact hspan
  · cases hsome

/-- A key that is there has its slot. -/
theorem ensureSlot_of_get (hsome : (m.get key).isSome) : m.ensureSlot key = m := by
  obtain ⟨hle, hlt⟩ := inSpan_iff.mp (inSpan_of_get hsome)
  have hne : ¬m.slots.isEmpty = true := by
    intro hempty
    rw [List.isEmpty_iff.mp hempty] at hlt
    cases hlt
  unfold ensureSlot
  rw [if_neg hne, if_neg (BitVec.not_lt.mpr hle), if_neg (by rw [indexOf_of_le hle]; omega)]

/-- `insert` and `try_emplace`. -/
theorem Valid.emplace (hm : m.Valid) (value : α)
    (hkey : KeyMap.SpanFits key fun other => m.get other) :
    (answerOf (m.emplace key value)).1 = (KeyMap.emplace key value fun key => m.get key).1 ∧
      (answerOf (m.emplace key value)).2.Valid ∧
      ∀ other, (answerOf (m.emplace key value)).2.get other =
        (KeyMap.emplace key value fun key => m.get key).2 other := by
  have ho := hm.ensureSlot hkey
  have hslot := ho.slotAt_eq
  cases hget : m.get key with
  | none =>
    rw [hget] at hslot
    have hderef := ho.deref_put value ((m.ensureSlot key).size + 1)
    obtain ⟨hvalid, hput⟩ := ho.put value (n := (m.ensureSlot key).size + 1) (by rw [hget]; rfl)
    simp only [answerOf, OffsetMap.emplace, KeyMap.emplace, hslot, hget]
    exact ⟨congrArg (MapAnswer.entry · true) hderef, hvalid, hput⟩
  | some v =>
    have hsame : m.ensureSlot key = m := ensureSlot_of_get (by rw [hget]; rfl)
    rw [hsame, hget] at hslot
    have hderef := (deref_skipEmpty (inSpan_of_get (by rw [hget]; rfl)) hslot).2
    simp only [answerOf, OffsetMap.emplace, KeyMap.emplace, hsame, hslot, hget]
    exact ⟨congrArg (MapAnswer.entry · false) hderef, hm, fun _ => trivial⟩

variable [Inhabited α]

/-- What a call does, next to what the same call does to the map of its entries. -/
structure Simulates (m : OffsetMap w α) (op : MapOp w α) : Prop where
  answer : (m.apply op).1 = (KeyMap.apply (fun key => m.get key) op).1
  valid : (m.apply op).2.Valid
  get : ∀ key, (m.apply op).2.get key = (KeyMap.apply (fun key => m.get key) op).2 key

theorem Valid.subscript (hm : m.Valid) (write : α → α)
    (hkey : KeyMap.SpanFits key fun other => m.get other) :
    m.Simulates (.subscript key write) := by
  have ho := hm.ensureSlot hkey
  have hslot := ho.slotAt_eq
  cases hget : m.get key with
  | none =>
    rw [hget] at hslot
    have heq : m.apply (.subscript key write) = (.value default,
        { (m.ensureSlot key).setSlot ((m.ensureSlot key).indexOf key) (some (write default)) with
          size := (m.ensureSlot key).size + 1 }) := by
      simp only [apply, OffsetMap.subscript, hslot]
    obtain ⟨hvalid, hput⟩ := ho.put (write default) (n := (m.ensureSlot key).size + 1)
      (by rw [hget]; rfl)
    refine ⟨?_, ?_, fun other => ?_⟩
    · rw [heq, KeyMap.apply, hget]
      rfl
    · rwa [heq]
    · rw [heq, KeyMap.apply, hget]
      exact hput other
  | some v =>
    rw [hget] at hslot
    have heq : m.apply (.subscript key write) = (.value v,
        (m.ensureSlot key).setSlot ((m.ensureSlot key).indexOf key) (some (write v))) := by
      simp only [apply, OffsetMap.subscript, hslot]
    obtain ⟨hvalid, hput⟩ := ho.put (write v) (n := (m.ensureSlot key).size) (by rw [hget]; rfl)
    refine ⟨?_, ?_, fun other => ?_⟩
    · rw [heq, KeyMap.apply, hget]
      rfl
    · rw [heq]
      exact hvalid
    · rw [heq, KeyMap.apply, hget]
      exact hput other

theorem Valid.insertOrAssign (hm : m.Valid) (value : α)
    (hkey : KeyMap.SpanFits key fun other => m.get other) :
    m.Simulates (.insertOrAssign key value) := by
  have ho := hm.ensureSlot hkey
  have hslot := ho.slotAt_eq
  let n := if (m.get key).isNone then (m.ensureSlot key).size + 1 else (m.ensureSlot key).size
  have heq : m.insertOrAssign key value =
      (({ (m.ensureSlot key).setSlot ((m.ensureSlot key).indexOf key) (some value) with
            size := n }.skipEmpty ((m.ensureSlot key).indexOf key), (m.get key).isNone),
        { (m.ensureSlot key).setSlot ((m.ensureSlot key).indexOf key) (some value) with
          size := n }) := by
    simp only [OffsetMap.insertOrAssign, hslot, n]
    cases hget : m.get key <;> rfl
  have hderef := ho.deref_put value n
  obtain ⟨hvalid, hput⟩ := ho.put value (n := n) (by cases hget : m.get key <;> simp [n, hget])
  refine ⟨?_, ?_, fun other => ?_⟩
  · simp only [apply, answerOf, heq, KeyMap.apply]
    exact congrArg (MapAnswer.entry · _) hderef
  · simp only [apply, answerOf, heq]
    exact hvalid
  · simp only [apply, answerOf, heq, KeyMap.apply]
    exact hput other

theorem Valid.erase (hm : m.Valid) (key : BitVec w) : m.Simulates (.erase key) := by
  cases hget : m.get key with
  | none =>
    have heq : m.erase key = (0, m) := by
      unfold OffsetMap.erase
      split
      · rfl
      · next hspan =>
        rw [slotAt_eq_get (by simpa using hspan), hget]
        rfl
    refine ⟨?_, ?_, fun other => ?_⟩
    · simp only [apply, heq, KeyMap.apply, hget]
      rfl
    · simpa only [apply, heq] using hm
    · simp only [apply, heq, KeyMap.apply]
      by_cases hother : other = key
      · rw [hother, Function.update_self, hget]
      · rw [Function.update_of_ne hother]
  | some v =>
    have hspan : m.inSpan key = true := inSpan_of_get (by rw [hget]; rfl)
    have hslot : m.slotAt (m.indexOf key) = some v := (slotAt_eq_get hspan).trans hget
    let emptied : OffsetMap w α := { m.setSlot (m.indexOf key) none with size := m.size - 1 }
    have hpos : 0 < m.size :=
      hm.count ▸ Slots.filled_pos (getElem?_indexOf hspan) (by rw [hget]; rfl)
    have hspans : emptied.Spans := hm.setSlot hspan (by
      rw [hget]
      exact Nat.sub_add_cancel hpos)
    obtain ⟨hvalid, htrim⟩ := hspans.trim
    have heq : m.erase key = (1, emptied.trim) := by
      simp only [OffsetMap.erase, hspan, hslot, Bool.not_true, Option.isNone_some]
      rfl
    refine ⟨?_, ?_, fun other => ?_⟩
    · simp only [apply, heq, KeyMap.apply, hget]
      rfl
    · simpa only [apply, heq] using hvalid
    · simp only [apply, heq, KeyMap.apply]
      rw [htrim, get_setSlot hspan]

/-- Every call does to the entries what it does to a finite map. -/
theorem Valid.simulates (hm : m.Valid) {op : MapOp w α}
    (hop : KeyMap.Allows (fun key => m.get key) op) : m.Simulates op := by
  cases op with
  | subscript key write => exact hm.subscript write hop
  | insert key value =>
    obtain ⟨hanswer, hvalid, hget⟩ := hm.emplace value hop
    exact ⟨hanswer, hvalid, hget⟩
  | tryEmplace key value =>
    obtain ⟨hanswer, hvalid, hget⟩ := hm.emplace value hop
    exact ⟨hanswer, hvalid, hget⟩
  | insertOrAssign key value => exact hm.insertOrAssign value hop
  | erase key => exact hm.erase key
  | clear =>
    refine ⟨rfl, valid_clear m, fun key => ?_⟩
    rw [get_eq]
    exact Slots.lookup_nil

end Operations

section Observers

theorem endIt_eq (m : OffsetMap w α) : m.endIt = m.slots.length := by
  rw [endIt, skipEmpty, List.drop_length]
  rfl

theorem deref_endIt (m : OffsetMap w α) : m.deref m.endIt = none := by
  rw [deref, endIt_eq, slotAt, List.getElem?_eq_none (le_refl _)]
  rfl

/-- The entries of the span. -/
def entries (m : OffsetMap w α) : List (BitVec w × α) :=
  (Slots.entries m.base.toNat m.slots).map fun entry => (BitVec.ofNat w entry.1, entry.2)

/-- A loop over the rest of the slots, an increment for each one that is filled. -/
theorem visit_skipEmpty (steps i : Nat) (hsteps : m.slots.length - i ≤ steps)
    (hi : i ≤ m.slots.length) : m.visit steps (m.skipEmpty i) =
      some ((Slots.entries (m.base.toNat + i) (m.slots.drop i)).map fun entry =>
        (BitVec.ofNat w entry.1, entry.2)) := by
  induction hrest : m.slots.drop i generalizing steps i with
  | nil =>
    have hend : m.skipEmpty i = m.endIt := by
      have hlength : m.slots.length ≤ i := List.drop_eq_nil_iff.mp hrest
      rw [endIt_eq, skipEmpty, hrest]
      exact le_antisymm hi hlength
    rw [hend]
    cases steps <;> exact if_pos rfl
  | cons slot rest ih =>
    have hlt : i < m.slots.length := by
      by_contra hge
      rw [List.drop_eq_nil_iff.mpr (Nat.not_lt.mp hge)] at hrest
      cases hrest
    have hcons := List.drop_eq_getElem_cons hlt
    rw [hrest] at hcons
    obtain ⟨hslot, hdrop⟩ := List.cons.inj hcons
    cases slot with
    | none =>
      have hskip : m.skipEmpty i = m.skipEmpty (i + 1) := by
        rw [skipEmpty, hrest, skipEmpty, ← hdrop, Slots.leading]
        omega
      rw [hskip]
      exact ih steps (i + 1) (by omega) hlt hdrop.symm
    | some v =>
      have hskip : m.skipEmpty i = i := by
        rw [skipEmpty, hrest]
        rfl
      have hderef : m.deref i = some (BitVec.ofNat w (m.base.toNat + i), v) := by
        rw [deref, slotAt, List.getElem?_eq_getElem hlt, ← hslot]
        rfl
      obtain ⟨steps, rfl⟩ : ∃ n, steps = n + 1 := ⟨steps - 1, by omega⟩
      rw [hskip, visit, endIt_eq, if_neg (Nat.ne_of_lt hlt), hderef, Option.bind_some, next,
        ih steps (i + 1) (by omega) hlt hdrop.symm]
      rfl

theorem visit_begin {steps : Nat} (hsteps : m.slots.length ≤ steps) :
    m.visit steps m.beginIt = some m.entries :=
  visit_skipEmpty steps 0 (by omega) (Nat.zero_le _)

/-- The numbers of the entries are keys. -/
theorem Spans.lt_of_mem_entries (hm : m.Spans) {n : Nat} {v : α}
    (hentry : (n, v) ∈ Slots.entries m.base.toNat m.slots) : n < 2 ^ w := by
  have hbound := Slots.bounds_of_mem_entries hentry
  have hspan := hm.span
  omega

theorem mem_entries (hm : m.Spans) {v : α} : (key, v) ∈ m.entries ↔ m.get key = some v := by
  rw [get_eq, ← Slots.mem_entries, entries, List.mem_map]
  constructor
  · rintro ⟨⟨n, v'⟩, hentry, heq⟩
    obtain ⟨rfl, rfl⟩ := Prod.mk.inj heq
    rwa [BitVec.toNat_ofNat, Nat.mod_eq_of_lt (hm.lt_of_mem_entries hentry)]
  · intro hentry
    exact ⟨_, hentry, by rw [BitVec.ofNat_toNat]; simp⟩

theorem entries_increasing (hm : m.Spans) : m.entries.Pairwise fun a b => a.1 < b.1 := by
  refine List.pairwise_map.mpr
    ((Slots.entries_increasing m.base.toNat m.slots).imp_of_mem ?_)
  intro a b ha hb hlt
  rw [BitVec.lt_def, BitVec.toNat_ofNat, BitVec.toNat_ofNat,
    Nat.mod_eq_of_lt (hm.lt_of_mem_entries ha), Nat.mod_eq_of_lt (hm.lt_of_mem_entries hb)]
  exact hlt

/-- The map shows what a map of the keys shows; a loop over it ends, with the entries in the order
of the keys. -/
structure Refines (m : OffsetMap w α) (f : KeyMap w α) : Prop where
  get : ∀ key, m.get key = f key
  find : ∀ key, m.deref (m.find key) = (f key).map (key, ·)
  contains : ∀ key, m.contains key = (f key).isSome
  size : m.size = f.keys.ncard
  minKey : ∀ key, m.minKey = some key ↔ IsLeast f.keys key
  maxKey : ∀ key, m.maxKey = some key ↔ IsGreatest f.keys key
  visits : ∃ entries : List (BitVec w × α),
    (∀ steps ≥ m.slots.length, m.visit steps m.beginIt = some entries) ∧
      (entries.Pairwise fun a b => a.1 < b.1) ∧ ∀ key v, (key, v) ∈ entries ↔ f key = some v

theorem find_of_get {v : α} (hget : m.get key = some v) :
    m.find key = m.indexOf key ∧ m.deref (m.find key) = some (key, v) := by
  have hspan : m.inSpan key = true := inSpan_of_get (by rw [hget]; rfl)
  have hslot : m.slotAt (m.indexOf key) = some v := (slotAt_eq_get hspan).trans hget
  have hfind : m.find key = m.skipEmpty (m.indexOf key) := by
    simp [find, hspan, hslot]
  obtain ⟨hskip, hderef⟩ := deref_skipEmpty hspan hslot
  exact ⟨hfind.trans hskip, hfind ▸ hderef⟩

theorem find_of_get_none (hget : m.get key = none) : m.find key = m.endIt := by
  unfold find
  split
  · rfl
  · next hspan =>
    rw [slotAt_eq_get (by simpa using hspan), hget]
    rfl

theorem contains_eq (m : OffsetMap w α) (key : BitVec w) :
    m.contains key = (m.get key).isSome := by
  cases hget : m.get key with
  | none => simp [contains, find_of_get_none hget]
  | some v =>
    have hspan : m.inSpan key = true := inSpan_of_get (by rw [hget]; rfl)
    have hne : m.indexOf key ≠ m.endIt := by
      rw [endIt_eq]
      exact Nat.ne_of_lt (indexOf_lt hspan)
    simpa [contains, (find_of_get hget).1] using hne

/-- `size_` counts the keys. -/
theorem Spans.size_eq (hm : m.Spans) : m.size = (KeyMap.keys fun key => m.get key).ncard := by
  classical
  have hnodup : (m.entries.map Prod.fst).Nodup :=
    List.pairwise_map.mpr ((entries_increasing hm).imp fun hlt heq => by simp [heq] at hlt)
  have hkeys : KeyMap.keys (fun key => m.get key) = ↑(m.entries.map Prod.fst).toFinset := by
    ext key
    simp [KeyMap.keys, Option.isSome_iff_exists, mem_entries hm]
  rw [hkeys, Set.ncard_coe_finset, List.toFinset_card_of_nodup hnodup, List.length_map, entries,
    List.length_map, Slots.length_entries, hm.count]

theorem Valid.slots_ne_nil (hm : m.Valid) : m.slots ≠ [] ↔ m.size ≠ 0 := by
  constructor
  · intro hne hsize
    have hzero := Slots.filled_eq_zero.mp (hm.count.symm.trans hsize)
    have hfirst := (hm.ends hne).1
    rw [hzero, Slots.lookup_replicate] at hfirst
    cases hfirst
  · intro hsize hnil
    have hcount := hm.count
    rw [hnil] at hcount
    exact hsize hcount

/-- The keys lie between the first and the last slot, which are filled. -/
theorem Valid.bounds (hm : m.Valid) (hsize : m.size ≠ 0) :
    IsLeast (KeyMap.keys fun key => m.get key) m.base ∧
      IsGreatest (KeyMap.keys fun key => m.get key)
        (BitVec.ofNat w (m.base.toNat + m.slots.length - 1)) := by
  have hne := hm.slots_ne_nil.mpr hsize
  have hlength := List.length_pos_iff.mpr hne
  have hspan := hm.span
  obtain ⟨hfirst, hlast⟩ := hm.ends hne
  have htop : (BitVec.ofNat w (m.base.toNat + m.slots.length - 1)).toNat =
      m.base.toNat + m.slots.length - 1 := by
    rw [BitVec.toNat_ofNat]
    exact Nat.mod_eq_of_lt (by omega)
  have hbetween : ∀ key ∈ KeyMap.keys fun key => m.get key,
      m.base.toNat ≤ key.toNat ∧ key.toNat < m.base.toNat + m.slots.length := by
    intro key hkey
    rw [KeyMap.keys, Set.mem_ofPred_eq, get_eq] at hkey
    exact Slots.bounds_of_lookup hkey
  refine ⟨⟨?_, fun key hkey => (hbetween key hkey).1⟩, ?_, fun key hkey => ?_⟩
  · rw [KeyMap.keys, Set.mem_ofPred_eq, get_eq]
    exact hfirst
  · rw [KeyMap.keys, Set.mem_ofPred_eq, get_eq, htop]
    exact hlast
  · have hkey' := (hbetween key hkey).2
    rw [BitVec.le_def, htop]
    omega

theorem Valid.keys_eq_empty (hm : m.Valid) (hsize : m.size = 0) (key : BitVec w) :
    key ∉ KeyMap.keys fun key => m.get key := by
  have hnil : m.slots = [] := by
    by_contra hne
    exact hm.slots_ne_nil.mp hne hsize
  rw [KeyMap.keys, Set.mem_ofPred_eq, get_eq, hnil, Slots.lookup_nil]
  exact Bool.false_ne_true

theorem Valid.refines (hm : m.Valid) : m.Refines fun key => m.get key where
  get _ := rfl
  find key := by
    cases hget : m.get key with
    | none => rw [find_of_get_none hget, deref_endIt, Option.map_none]
    | some v => exact (find_of_get hget).2
  contains := m.contains_eq
  size := hm.size_eq
  minKey key := by
    by_cases hsize : m.size = 0
    · have hnone : m.minKey = none := if_pos (by simp [empty, hsize])
      rw [hnone]
      exact ⟨fun h => (by cases h), fun h => absurd h.1 (hm.keys_eq_empty hsize key)⟩
    · have hsome : m.minKey = some m.base := if_neg (by simp [empty, hsize])
      rw [hsome, Option.some_inj]
      exact ⟨fun h => h ▸ (hm.bounds hsize).1, fun h =>
        BitVec.le_antisymm ((hm.bounds hsize).1.2 h.1) (h.2 (hm.bounds hsize).1.1)⟩
  maxKey key := by
    by_cases hsize : m.size = 0
    · have hnone : m.maxKey = none := if_pos (by simp [empty, hsize])
      rw [hnone]
      exact ⟨fun h => (by cases h), fun h => absurd h.1 (hm.keys_eq_empty hsize key)⟩
    · have hsome : m.maxKey = some (BitVec.ofNat w (m.base.toNat + m.slots.length - 1)) :=
        if_neg (by simp [empty, hsize])
      rw [hsome, Option.some_inj]
      exact ⟨fun h => h ▸ (hm.bounds hsize).2, fun h =>
        BitVec.le_antisymm (h.2 (hm.bounds hsize).2.1) ((hm.bounds hsize).2.2 h.1)⟩
  visits := ⟨m.entries, fun _ hsteps => visit_begin hsteps, entries_increasing hm.toSpans,
    fun _ _ => mem_entries hm.toSpans⟩

end Observers

section Runs

variable [Inhabited α]

/-- A call on the map and on the map of the keys that it stands for. -/
def step (s : OffsetMap w α × KeyMap w α) (op : MapOp w α) : OffsetMap w α × KeyMap w α :=
  ((s.1.apply op).2, (s.2.apply op).2)

theorem refines_from (ops : List (MapOp w α)) (hm : m.Valid) {f : KeyMap w α}
    (hf : f = fun key => m.get key)
    (hops : Transition.EachStep (fun f op => (KeyMap.apply f op).2) KeyMap.Allows f ops) :
    Transition.Always step (fun s => s.1.Refines s.2) (m, f) ops ∧
      Transition.EachStep step (fun s op => (s.1.apply op).1 = (s.2.apply op).1) (m, f) ops := by
  induction ops generalizing m f with
  | nil => exact ⟨hf ▸ hm.refines, trivial⟩
  | cons op ops ih =>
    obtain ⟨hop, hops⟩ := hops
    have hsim : m.Simulates op := hm.simulates (hf ▸ hop)
    have hafter : (KeyMap.apply f op).2 = fun key => (m.apply op).2.get key := by
      funext key
      rw [hf]
      exact (hsim.get key).symm
    obtain ⟨halways, hanswers⟩ := ih hsim.valid hafter hops
    exact ⟨⟨hf ▸ hm.refines, halways⟩, hf ▸ hsim.answer, hanswers⟩

/-- From the empty map on, every call answers as on a finite map and leaves what it leaves there, as
long as the keys span fewer slots than `size_type` can count. -/
theorem refines_keyMap (ops : List (MapOp w α))
    (hops : Transition.EachStep (fun f op => (KeyMap.apply f op).2) KeyMap.Allows
      (fun _ => none) ops) :
    Transition.Always step (fun s => s.1.Refines s.2) (({} : OffsetMap w α), fun _ => none) ops ∧
      Transition.EachStep step (fun s op => (s.1.apply op).1 = (s.2.apply op).1)
        (({} : OffsetMap w α), fun _ => none) ops := by
  refine refines_from ops (valid_clear {}) ?_ hops
  funext key
  rw [get_eq]
  exact Slots.lookup_nil.symm

/-- A map with keys of a byte that grows at both ends and is trimmed at one. -/
theorem refines_keyMap_bytes :
    let ops : List (MapOp 8 Nat) :=
      [.insert 5 1, .subscript 3 (· + 2), .tryEmplace 250 7, .insertOrAssign 5 4, .erase 3]
    Transition.EachStep (fun f op => (KeyMap.apply f op).2) KeyMap.Allows (fun _ => none) ops ∧
      Transition.Always step (fun s => s.1.Refines s.2) (({} : OffsetMap 8 Nat), fun _ => none)
        ops ∧
      Transition.EachStep step (fun s op => (s.1.apply op).1 = (s.2.apply op).1)
        (({} : OffsetMap 8 Nat), fun _ => none) ops := by
  intro ops
  have hfits : ∀ (key : BitVec 8) (f : KeyMap 8 Nat), f.SpanFits key := by
    intro key f other _
    have hkey := key.isLt
    have hother := other.isLt
    omega
  have hops : Transition.EachStep (fun f op => (KeyMap.apply f op).2) KeyMap.Allows
      (fun _ => none) ops := ⟨hfits _ _, hfits _ _, hfits _ _, hfits _ _, trivial, trivial⟩
  exact ⟨hops, refines_keyMap ops hops⟩

end Runs

end OffsetMap

end LuxonServer
