import Mathlib.Algebra.Order.Ring.Nat
import LuxonServer.Lib.Outcome
import LuxonServer.Pfr.Codec

/-! What `decode` makes of what `encode` returns.  The two charge the nesting of a value
differently, and neither finds what the other does with a bare `Hashtable`. -/

namespace LuxonServer.Pfr

/-- The levels of nesting that a pass over a value takes for an enumeration and for an array,
besides those of its elements. -/
structure Charges where
  enumeration : Nat
  array : Nat

/-- `encode` takes the number of an enumeration one level deeper. -/
def Charges.encoding : Charges where
  enumeration := 1
  array := 0

/-- `decode` takes the vector of an array one level deeper. -/
def Charges.decoding : Charges where
  enumeration := 0
  array := 1

def deepest (levels : List Nat) : Nat := levels.foldr max 0

theorem deepest_le {levels : List Nat} {height : Nat} (hlevels : ∀ n ∈ levels, n ≤ height) :
    deepest levels ≤ height := by
  induction levels with
  | nil => exact Nat.zero_le _
  | cons n levels ih =>
    exact Nat.max_le.mpr ⟨hlevels n List.mem_cons_self,
      ih fun m hm => hlevels m (List.mem_cons_of_mem n hm)⟩

/-- What a pass over a value stops at. -/
inductive Oddity where
  /-- A `Hashtable` that is not the element of a vector or an array. -/
  | bareHashtable
  | valuelessVariant
  deriving DecidableEq

/-- Whether vectors and arrays of the type are encoded as a whole. -/
def Shape.isDirect : Shape → Bool
  | .byte | .hashtable => true
  | t => t.isExactVector

mutual

/-- The levels of nesting below a value. -/
def Shape.levels (c : Charges) : (t : Shape) → t.Den → Nat
  | .value, _ | .null, _ | .byte, _ | .native _, _ | .integral _ _, _ | .hashtable, _ => 0
  | .hashtablePtr, _ | .jaggedArray, _ => 0
  | .message base, (_, x) => base.levels c x + 1
  | .optional _, none => 0
  | .optional t, some x => t.levels c x + 1
  | .enumeration _, _ => c.enumeration
  | .vector t, xs => if t.isDirect then 0 else deepest (List.map (fun x => t.levels c x + 1) xs)
  | .array _ t, xs =>
    (if t.isDirect then 0 else deepest (List.map (fun x => t.levels c x + 1) xs.1)) + c.array
  | .pair first second, (x, y) => max (first.levels c x + 1) (second.levels c y + 1)
  | .tuple ts, xs => ts.levels c xs
  | .variant _, none => 0
  | .variant ts, some x => ts.levelsAlt c x + 1
  | .map key mapped, m => deepest
    (m.entries.map fun entry => max (key.levels c entry.1 + 1) (mapped.levels c entry.2 + 1))
  | .struct ts, xs => ts.levels c xs

def Shapes.levels (c : Charges) : (ts : Shapes) → ts.Tuple → Nat
  | .nil, _ => 0
  | .cons t ts, (x, xs) => max (t.levels c x + 1) (ts.levels c xs)

def Shapes.levelsAlt (c : Charges) : (ts : Shapes) → ts.Sum → Nat
  | .cons t _, .inl x => t.levels c x
  | .cons _ ts, .inr x => ts.levelsAlt c x

end

mutual

/-- Whether a value contains what a pass stops at. -/
def Shape.has (o : Oddity) : (t : Shape) → t.Den → Bool
  | .value, _ | .null, _ | .byte, _ | .native _, _ | .integral _ _, _ | .enumeration _, _ => false
  | .hashtablePtr, _ | .jaggedArray, _ => false
  | .hashtable, _ => o == .bareHashtable
  | .message base, (_, x) => base.has o x
  | .optional _, none => false
  | .optional t, some x => t.has o x
  | .vector t, xs => !t.isDirect && List.any xs fun x => t.has o x
  | .array _ t, xs => !t.isDirect && List.any xs.1 fun x => t.has o x
  | .pair first second, (x, y) => first.has o x || second.has o y
  | .tuple ts, xs => ts.has o xs
  | .variant _, none => o == .valuelessVariant
  | .variant ts, some x => ts.hasAlt o x
  | .map key mapped, m =>
    m.entries.any fun entry => key.has o entry.1 || mapped.has o entry.2
  | .struct ts, xs => ts.has o xs

def Shapes.has (o : Oddity) : (ts : Shapes) → ts.Tuple → Bool
  | .nil, _ => false
  | .cons t ts, (x, xs) => t.has o x || ts.has o xs

def Shapes.hasAlt (o : Oddity) : (ts : Shapes) → ts.Sum → Bool
  | .cons t _, .inl x => t.has o x
  | .cons _ ts, .inr x => ts.hasAlt o x

end

/-- Whether no value of the type is encoded to null. -/
def Shape.neverNull : Shape → Bool
  | .value | .null | .optional _ => false
  | _ => true

mutual

/-- A type whose optionals have payloads that are never encoded to null, and whose variants have no
more alternatives than an index counts. -/
def Shape.WellFormed : Shape → Prop
  | .message base => base.WellFormed
  | .optional t => t.neverNull = true ∧ t.WellFormed
  | .vector t | .array _ t => t.WellFormed
  | .pair first second => first.WellFormed ∧ second.WellFormed
  | .tuple ts | .struct ts => ts.WellFormed
  | .variant ts => ts.length < 2 ^ 31 ∧ ts.WellFormed
  | .map key mapped => key.WellFormed ∧ mapped.WellFormed
  | _ => True

def Shapes.WellFormed : Shapes → Prop
  | .nil => True
  | .cons t ts => t.WellFormed ∧ ts.WellFormed

end

section Depths

variable {opt : Options} {odd odd' : Bool} {levels levels' depth : Nat}

/-- A pass at a depth gets through a value. -/
def Options.Fits (opt : Options) (odd : Bool) (levels depth : Nat) : Prop :=
  odd = false ∧ depth + levels ≤ opt.maxDepth

theorem Options.Fits.depth_le (h : opt.Fits odd levels depth) : depth ≤ opt.maxDepth := by
  have := h.2
  omega

theorem fits_zero : opt.Fits false 0 depth ↔ depth ≤ opt.maxDepth := by
  simp [Options.Fits]

theorem fits_succ : opt.Fits odd (levels + 1) depth ↔ opt.Fits odd levels (depth + 1) := by
  unfold Options.Fits
  rw [Nat.add_assoc depth 1, Nat.add_comm 1]

theorem fits_max : opt.Fits (odd || odd') (max levels levels') depth ↔
    opt.Fits odd levels depth ∧ opt.Fits odd' levels' depth := by
  unfold Options.Fits
  rw [Bool.or_eq_false_iff]
  constructor
  · rintro ⟨⟨hodd, hodd'⟩, hle⟩
    exact ⟨⟨hodd, by omega⟩, hodd', by omega⟩
  · rintro ⟨⟨hodd, hle⟩, hodd', hle'⟩
    exact ⟨⟨hodd, hodd'⟩, by omega⟩

variable {α : Type} {r : Except PfrError α} {good : Prop} {post : α → Prop}

theorem Options.check_outcome (path : String) (hgood : good → depth ≤ opt.maxDepth)
    (h : depth ≤ opt.maxDepth → Outcome r good post) :
    Outcome (opt.check path depth r) good post := by
  unfold Options.check
  split
  · next hdeep => exact Outcome.error _ fun hg => absurd (hgood hg) (Nat.not_le.mpr hdeep)
  · next hfits => exact h (Nat.le_of_not_lt hfits)

theorem Options.check_ok (path : String) {a : α} (ha : post a) :
    Outcome (opt.check path depth (.ok a)) (opt.Fits false 0 depth) post :=
  opt.check_outcome path (fun h => h.depth_le) fun hdepth =>
    Outcome.ok (fits_zero.mpr hdepth) ha

end Depths

section Payloads

variable {v w : Value} {t : Shape}

theorem castInt_castInt {n m : Nat} (hle : n ≤ m) (isSigned isSigned' : Bool) (x : BitVec n) :
    castInt isSigned' n (castInt isSigned m x) = x := by
  have hback : (castInt isSigned m x).setWidth n = x := by
    cases isSigned with
    | false => exact (BitVec.setWidth_setWidth_of_le x hle).trans (BitVec.setWidth_eq x)
    | true =>
      ext i hi
      simp [castInt, hi, BitVec.getLsbD_signExtend]
      omega
  unfold castInt
  split
  · rw [BitVec.signExtend_eq_setWidth_of_le _ hle]
    exact hback
  · exact hback

theorem decodeIntegral_encodeIntegral (casts : FloatCasts) (isSigned : Bool) (width : IntWidth)
    (x : BitVec width.bits) (path : String) :
    decodeIntegral casts width.bits (encodeIntegral isSigned width x) path = .ok x := by
  cases width with
  | bits8 => exact congrArg Except.ok (castInt_castInt (by decide) isSigned true x)
  | bits16 => exact congrArg Except.ok (castInt_castInt (by decide) isSigned true x)
  | bits32 => exact congrArg Except.ok (castInt_castInt (by decide) isSigned true x)
  | bits64 => exact congrArg Except.ok (castInt_castInt (by decide) isSigned true x)

theorem derefTables_map (path : String) (index : Nat) (tables : List Hashtable) :
    derefTables path index (tables.map some) = .ok tables := by
  induction tables generalizing index with
  | nil => rfl
  | cons table tables ih =>
    simp only [List.map_cons, derefTables, ih]
    rfl

theorem natives?_of_target {k : Native} {payloads : List k.Payload}
    (hw : w.target = .natives k payloads) : w.natives? k = some payloads := by
  simp [Value.natives?, hw]

theorem native?_of_target {k : Native} {payload : k.Payload} (hw : w.target = .native k payload) :
    w.native? k = some payload := by
  simp [Value.native?, hw]

theorem hashtables?_of_target {tables : List (Option Hashtable)}
    (hw : w.target = .hashtables tables) : w.hashtables? = some tables := by
  simp [Value.hashtables?, hw]

theorem asListPtr_of_target {elements : List Value} (hw : w.target = .objectArray elements) :
    w.asListPtr = some elements := by
  simp [Value.asListPtr, hw]

/-- A vector that is packed as a whole is found as a whole. -/
theorem tryDirectVector_of_packRange {xs : List t.Den} (hpack : t.packRange xs = some v)
    (hw : w.target = v.target) (path : String) : t.tryDirectVector w path = some (.ok xs) := by
  cases t with
  | byte =>
    cases hpack
    show (w.natives? .uint8).map Except.ok = _
    rw [natives?_of_target hw]
    rfl
  | native k =>
    simp only [Shape.packRange] at hpack
    split at hpack
    · next hvector =>
      cases hpack
      simp only [Shape.tryDirectVector, hvector, if_true]
      rw [natives?_of_target hw]
      rfl
    · cases hpack
  | value =>
    cases hpack
    show w.asListPtr.map Except.ok = _
    rw [asListPtr_of_target hw]
    rfl
  | hashtablePtr =>
    cases hpack
    show w.hashtables?.map Except.ok = _
    rw [hashtables?_of_target hw]
    rfl
  | hashtable =>
    cases hpack
    show w.hashtables?.map (derefTables path 0) = _
    rw [hashtables?_of_target hw]
    exact congrArg some (derefTables_map path 0 xs)
  | _ => cases hpack

theorem packRange_of_isDirect (h : t.isDirect = true) (xs : List t.Den) :
    ∃ v, t.packRange xs = some v ∧ v.isNull = false := by
  cases t with
  | native k =>
    have hvector : k.hasVector = true := h
    exact ⟨.natives k xs, if_pos hvector, rfl⟩
  | byte => exact ⟨_, rfl, rfl⟩
  | value => exact ⟨_, rfl, rfl⟩
  | hashtablePtr => exact ⟨_, rfl, rfl⟩
  | hashtable => exact ⟨_, rfl, rfl⟩
  | _ => cases h

/-- Other vectors are encoded and decoded element by element. -/
theorem not_direct (h : t.isDirect = false) :
    (∀ xs, t.packRange xs = none) ∧ ∀ v path, t.tryDirectVector v path = none := by
  cases t with
  | native k =>
    have hvector : k.hasVector = false := h
    exact ⟨fun xs => if_neg (by simp [hvector]), fun v path => if_neg (by simp [hvector])⟩
  | byte => cases h
  | value => cases h
  | hashtablePtr => cases h
  | hashtable => cases h
  | _ => exact ⟨fun _ => rfl, fun _ _ => rfl⟩

end Payloads

section Loops

variable [DecidableEq Value] {opt : Options} {casts : FloatCasts} {t : Shape} {ts : Shapes}
  {depth : Nat}

/-- `decode` gets the value back from `v` exactly if it holds no bare `Hashtable` and is not nested
too deep. -/
def Restores (opt : Options) (casts : FloatCasts) (t : Shape) (x : t.Den) (v : Value) : Prop :=
  ∀ path depth, Outcome (t.decode opt casts v path depth)
    (opt.Fits (t.has .bareHashtable x) (t.levels .decoding x) depth) (· = x)

/-- `encode` succeeds exactly if the value holds no variant without a value and is not nested too
deep, and then with a value that restores it. -/
def Encodes (opt : Options) (casts : FloatCasts) (t : Shape) (x : t.Den) : Prop :=
  ∀ path depth, Outcome (t.encode opt x path depth)
    (opt.Fits (t.has .valuelessVariant x) (t.levels .encoding x) depth)
    fun v => Restores opt casts t x v ∧ (t.neverNull = true → v.isNull = false)

/-- A value that is encoded by itself. -/
theorem encodes_leaf {x : t.Den} (v : Value)
    (hencode : ∀ path depth, t.encode opt x path depth = opt.check path depth (.ok v))
    (hdecode : ∀ path depth, t.decode opt casts v path depth = opt.check path depth (.ok x))
    (hnull : t.neverNull = true → v.isNull = false)
    (hlevels : ∀ c, t.levels c x = 0) (hhas : ∀ o, t.has o x = false) : Encodes opt casts t x := by
  intro path depth
  rw [hencode, hlevels, hhas]
  refine opt.check_ok path ⟨fun path depth => ?_, hnull⟩
  rw [hdecode, hlevels, hhas]
  exact opt.check_ok path rfl

omit [DecidableEq Value] in
theorem outcome_encodeElements_nil (path : String) (index : Nat) (hdepth : depth ≤ opt.maxDepth) :
    Outcome (encodeElements path depth index []) (opt.Fits false 0 depth) (· = []) :=
  Outcome.ok (fits_zero.mpr hdepth) rfl

omit [DecidableEq Value] in
theorem outcome_encodeElements_cons {element : String → Nat → Except PfrError Value}
    {elements : List (String → Nat → Except PfrError Value)} {path : String} {index : Nat}
    {odd odd' : Bool} {levels levels' : Nat} {post : Value → Prop} {post' : List Value → Prop}
    (h : Outcome (element (childPath path index) (depth + 1)) (opt.Fits odd levels (depth + 1)) post)
    (hrest : Outcome (encodeElements path depth (index + 1) elements)
      (opt.Fits odd' levels' depth) post') :
    Outcome (encodeElements path depth index (element :: elements))
      (opt.Fits (odd || odd') (max (levels + 1) levels') depth)
      fun vs => ∃ v rest, vs = v :: rest ∧ post v ∧ post' rest := by
  have hboth : Outcome (encodeElements path depth index (element :: elements))
      (opt.Fits odd levels (depth + 1) ∧ opt.Fits odd' levels' depth ∧ True)
      fun vs => ∃ v rest, vs = v :: rest ∧ post v ∧ post' rest :=
    h.bind fun v hv => hrest.bind fun rest hpost => Outcome.ok trivial ⟨v, rest, rfl, hv, hpost⟩
  exact hboth.congr (by rw [fits_max, fits_succ, and_true])

theorem outcome_encodeElements {xs : List t.Den} (h : ∀ x ∈ xs, Encodes opt casts t x)
    (hdepth : depth ≤ opt.maxDepth) (path : String) (index : Nat) :
    Outcome (encodeElements path depth index (List.map (fun x => t.encode opt x) xs))
      (opt.Fits (List.any xs fun x => t.has .valuelessVariant x)
        (deepest (List.map (fun x => t.levels .encoding x + 1) xs)) depth)
      fun vs => List.Forall₂ (Restores opt casts t) xs vs := by
  induction xs generalizing index with
  | nil =>
    refine (outcome_encodeElements_nil path index hdepth).imp fun vs hvs => ?_
    rw [hvs]
    exact .nil
  | cons x xs ih =>
    obtain ⟨hx, hxs⟩ := List.forall_mem_cons.mp h
    refine (outcome_encodeElements_cons (hx (childPath path index) (depth + 1))
      (ih hxs (index + 1))).imp ?_
    rintro _ ⟨v, rest, rfl, hv, hrest⟩
    exact .cons hv.1 hrest

theorem outcome_decodeElements {xs : List t.Den} {vs : List Value}
    (h : List.Forall₂ (Restores opt casts t) xs vs) (hdepth : depth ≤ opt.maxDepth) (path : String)
    (index : Nat) : Outcome (decodeElements (t.decode opt casts) path depth index vs)
      (opt.Fits (List.any xs fun x => t.has .bareHashtable x)
        (deepest (List.map (fun x => t.levels .decoding x + 1) xs)) depth) (· = xs) := by
  induction h generalizing index with
  | nil => exact Outcome.ok (fits_zero.mpr hdepth) rfl
  | @cons x v xs vs hx _ ih =>
    have hboth : Outcome (decodeElements (t.decode opt casts) path depth index (v :: vs))
        (opt.Fits (t.has .bareHashtable x) (t.levels .decoding x) (depth + 1) ∧
          opt.Fits (List.any xs fun x => t.has .bareHashtable x)
            (deepest (List.map (fun x => t.levels .decoding x + 1) xs)) depth ∧ True)
        (· = x :: xs) := by
      refine (hx (childPath path index) (depth + 1)).bind fun y hy =>
        (ih (index + 1)).bind fun ys hys => ?_
      rw [hy, hys]
      exact Outcome.ok trivial rfl
    exact hboth.congr (by rw [and_true, ← fits_succ, ← fits_max]; rfl)

def TupleRestores (opt : Options) (casts : FloatCasts) (ts : Shapes) (xs : ts.Tuple)
    (vs : List Value) : Prop :=
  vs.length = ts.length ∧ ∀ path depth index, depth ≤ opt.maxDepth →
    Outcome (ts.decodeTuple opt casts path depth index vs)
      (opt.Fits (ts.has .bareHashtable xs) (ts.levels .decoding xs) depth) (· = xs)

theorem outcome_encodeTuple_cons {x : t.Den} {xs : ts.Tuple} (hx : Encodes opt casts t x)
    {path : String} {index : Nat}
    (hxs : Outcome (encodeElements path depth (index + 1) (ts.encoders opt xs))
      (opt.Fits (ts.has .valuelessVariant xs) (ts.levels .encoding xs) depth)
      (TupleRestores opt casts ts xs)) :
    Outcome (encodeElements path depth index ((Shapes.cons t ts).encoders opt (x, xs)))
      (opt.Fits ((Shapes.cons t ts).has .valuelessVariant (x, xs))
        ((Shapes.cons t ts).levels .encoding (x, xs)) depth)
      (TupleRestores opt casts (.cons t ts) (x, xs)) := by
  refine (outcome_encodeElements_cons (hx (childPath path index) (depth + 1)) hxs).imp ?_
  rintro _ ⟨v, vs, rfl, hv, hlength, hvs⟩
  refine ⟨congrArg Nat.succ hlength, fun path depth index hdepth => ?_⟩
  have hboth : Outcome ((Shapes.cons t ts).decodeTuple opt casts path depth index (v :: vs))
      (opt.Fits (t.has .bareHashtable x) (t.levels .decoding x) (depth + 1) ∧
        opt.Fits (ts.has .bareHashtable xs) (ts.levels .decoding xs) depth ∧ True)
      (· = (x, xs)) := by
    refine (hv.1 (childPath path index) (depth + 1)).bind fun y hy =>
      (hvs path depth (index + 1) hdepth).bind fun ys hys => ?_
    rw [hy, hys]
    exact Outcome.ok trivial rfl
  exact hboth.congr (by rw [and_true, ← fits_succ, ← fits_max]; rfl)

/-- A tuple or a structure, from the list of its elements. -/
theorem outcome_tuple {xs : ts.Tuple} {vs : List Value} (h : TupleRestores opt casts ts xs vs)
    (expected what path : String) (hdepth : depth ≤ opt.maxDepth) :
    Outcome (do
        let list ← tupleOf expected what ts.length (.objectArray vs) path
        ts.decodeTuple opt casts path depth 0 list)
      (opt.Fits (ts.has .bareHashtable xs) (ts.levels .decoding xs) depth) (· = xs) := by
  have htuple : tupleOf expected what ts.length (.objectArray vs) path = .ok vs := by
    simp only [tupleOf, Value.asListPtr_objectArray, h.1, if_true]
  rw [htuple]
  exact h.2 path depth 0 hdepth

def AltRestores (opt : Options) (casts : FloatCasts) (ts : Shapes) (x : ts.Sum) (v : Value) : Prop :=
  ∀ path depth, Outcome (ts.decodeAlt opt casts (ts.index x) v path depth)
    (opt.Fits (ts.hasAlt .bareHashtable x) (ts.levelsAlt .decoding x) depth) (· = x)

omit [DecidableEq Value] in
theorem index_lt_length : (ts : Shapes) → (x : ts.Sum) → ts.index x < ts.length
  | .cons _ _, .inl _ => Nat.succ_pos _
  | .cons _ ts, .inr x => Nat.succ_lt_succ (index_lt_length ts x)

section Maps

variable {key mapped : Shape}

/-- The entries of a map, as `encode` writes them. -/
def EntryRestores (opt : Options) (casts : FloatCasts) (key mapped : Shape)
    (entry : Σ _ : key.Den, mapped.Den) (v : Value) : Prop :=
  ∃ first second, v = .objectArray [first, second] ∧ Restores opt casts key entry.1 first ∧
    Restores opt casts mapped entry.2 second

theorem outcome_encodeEntries {entries : List (Σ _ : key.Den, mapped.Den)}
    (h : ∀ entry ∈ entries, Encodes opt casts key entry.1 ∧ Encodes opt casts mapped entry.2)
    (hdepth : depth ≤ opt.maxDepth) (path : String) (index : Nat) :
    Outcome (encodeEntries path depth index
        (entries.map fun entry => (key.encode opt entry.1, mapped.encode opt entry.2)))
      (opt.Fits (entries.any fun entry =>
          key.has .valuelessVariant entry.1 || mapped.has .valuelessVariant entry.2)
        (deepest (entries.map fun entry =>
          max (key.levels .encoding entry.1 + 1) (mapped.levels .encoding entry.2 + 1))) depth)
      fun vs => List.Forall₂ (EntryRestores opt casts key mapped) entries vs := by
  induction entries generalizing index with
  | nil => exact Outcome.ok (fits_zero.mpr hdepth) .nil
  | cons entry entries ih =>
    obtain ⟨⟨hkey, hmapped⟩, hentries⟩ := List.forall_mem_cons.mp h
    have hall := (hkey (childPath (childPath path index) 0) (depth + 1)).bind fun k hk =>
      (hmapped (childPath (childPath path index) 1) (depth + 1)).bind fun v hv =>
        (ih hentries (index + 1)).map (f := fun rest => Value.objectArray [k, v] :: rest)
          fun rest hrest => List.Forall₂.cons ⟨k, v, rfl, hk.1, hv.1⟩ hrest
    refine Outcome.congr hall ?_
    rw [← fits_succ, ← fits_succ, ← and_assoc, ← fits_max, ← fits_max]
    rfl

omit [DecidableEq Value] in
theorem entries_insertOrAssign {κ β : Type} [DecidableEq κ] {m : AList fun _ : κ => β} {k : κ}
    (hk : k ∉ m) (x : β) : (insertOrAssign k x m).entries = m.entries ++ [⟨k, x⟩] := by
  unfold insertOrAssign
  rw [dif_neg hk]

theorem outcome_decodeEntries [DecidableEq key.Den] {entries : List (Σ _ : key.Den, mapped.Den)}
    {vs : List Value} (h : List.Forall₂ (EntryRestores opt casts key mapped) entries vs)
    (hdepth : depth ≤ opt.maxDepth) (path : String) (index : Nat)
    (m : AList fun _ : key.Den => mapped.Den) (hkeys : (m.entries ++ entries).NodupKeys) :
    Outcome (decodeEntries (key.decode opt casts) (mapped.decode opt casts) path depth index m vs)
      (opt.Fits (entries.any fun entry =>
          key.has .bareHashtable entry.1 || mapped.has .bareHashtable entry.2)
        (deepest (entries.map fun entry =>
          max (key.levels .decoding entry.1 + 1) (mapped.levels .decoding entry.2 + 1))) depth)
      fun m' => m'.entries = m.entries ++ entries := by
  induction h generalizing index m with
  | nil => exact Outcome.ok (fits_zero.mpr hdepth) (List.append_nil _).symm
  | @cons entry v entries vs hentry _ ih =>
    obtain ⟨first, second, rfl, hkey, hmapped⟩ := hentry
    have hnew : entry.1 ∉ m := by
      rw [List.nodupKeys_middle] at hkeys
      intro hmem
      refine List.notMem_keys_of_nodupKeys_cons hkeys ?_
      rw [List.keys, List.map_append]
      exact List.mem_append_left _ hmem
    have hinsert := entries_insertOrAssign hnew entry.2
    have hrest := ih (index + 1) (insertOrAssign entry.1 entry.2 m) (by
      rwa [hinsert, List.append_assoc])
    rw [hinsert, List.append_assoc] at hrest
    have hall := (hkey (childPath (childPath path index) 0) (depth + 1)).bind
      (f := fun k => do
        let x ← mapped.decode opt casts second (childPath (childPath path index) 1) (depth + 1)
        decodeEntries (key.decode opt casts) (mapped.decode opt casts) path depth (index + 1)
          (insertOrAssign k x m) vs) fun k hk =>
      (hmapped (childPath (childPath path index) 1) (depth + 1)).bind fun x hx => by
        rw [hk, hx]
        exact hrest
    refine Outcome.congr hall ?_
    rw [← fits_succ, ← fits_succ, ← and_assoc, ← fits_max, ← fits_max]
    rfl

end Maps

end Loops

section Shapes

variable [DecidableEq Value] {opt : Options} {casts : FloatCasts} {t : Shape} {ts : Shapes}

def TupleEncodes (opt : Options) (casts : FloatCasts) (ts : Shapes) (xs : ts.Tuple) : Prop :=
  ∀ path depth index, depth ≤ opt.maxDepth →
    Outcome (encodeElements path depth index (ts.encoders opt xs))
      (opt.Fits (ts.has .valuelessVariant xs) (ts.levels .encoding xs) depth)
      (TupleRestores opt casts ts xs)

def AltEncodes (opt : Options) (casts : FloatCasts) (ts : Shapes) (x : ts.Sum) : Prop :=
  ∀ path depth, Outcome (ts.encodeAlt opt x path depth)
    (opt.Fits (ts.hasAlt .valuelessVariant x) (ts.levelsAlt .encoding x) depth)
    (AltRestores opt casts ts x)

theorem encodes_native (k : Native) (x : k.Payload) : Encodes opt casts (.native k) x := by
  have htarget : (if k.isScalar then Value.native k x else opt.hold (.native k x)).target =
      .native k x := by
    split
    · rfl
    · exact opt.target_hold _
  refine encodes_leaf _ (fun _ _ => rfl) (fun path depth => ?_) (fun _ => ?_) (fun _ => rfl)
    fun _ => rfl
  · simp only [Shape.decode, native?_of_target htarget]
    rfl
  · unfold Value.isNull
    rw [htarget]

theorem encodes_hashtablePtr (x : Option Hashtable) : Encodes opt casts .hashtablePtr x := by
  have htarget : (opt.hold (.hashtable x)).target = .hashtable x := opt.target_hold _
  refine encodes_leaf _ (fun _ _ => rfl) (fun path depth => ?_) (fun _ => ?_) (fun _ => rfl)
    fun _ => rfl
  · simp only [Shape.decode, Value.hashtable?, htarget]
    rfl
  · unfold Value.isNull
    rw [htarget]

theorem encodes_jaggedArray (xs : List Value) : Encodes opt casts .jaggedArray xs := by
  have htarget : (opt.hold (.jaggedArray xs)).target = .jaggedArray xs := opt.target_hold _
  refine encodes_leaf _ (fun _ _ => rfl) (fun path depth => ?_) (fun _ => ?_) (fun _ => rfl)
    fun _ => rfl
  · simp only [Shape.decode, Value.jaggedArray?, htarget]
    rfl
  · unfold Value.isNull
    rw [htarget]

theorem encodes_integral (isSigned : Bool) (width : IntWidth) (x : BitVec width.bits) :
    Encodes opt casts (.integral isSigned width) x := by
  refine encodes_leaf _ (fun _ _ => rfl) (fun path depth => ?_) (fun _ => ?_) (fun _ => rfl)
    fun _ => rfl
  · exact congrArg (fun r => opt.check path depth r)
      (decodeIntegral_encodeIntegral casts isSigned width x path)
  · cases width <;> rfl

theorem encodes_enumeration (base : EnumBase) (x : base.native.Payload) :
    Encodes opt casts (.enumeration base) x := by
  intro path depth
  refine opt.check_outcome path (fun h => h.depth_le) fun _ => ?_
  refine opt.check_outcome path (fun h => (fits_succ.mp h).depth_le) fun hdepth => ?_
  refine Outcome.ok (fits_succ.mpr (fits_zero.mpr hdepth)) ⟨fun path depth => ?_, fun _ => rfl⟩
  have hdecode : (Shape.enumeration base).decode opt casts (.native base.native x) path depth =
      opt.check path depth (.ok x) := by
    simp only [Shape.decode, Value.native?_native]
    rfl
  rw [hdecode]
  exact opt.check_ok path rfl

/-- A bare `Hashtable` is encoded, and never found again. -/
theorem encodes_hashtable (x : Hashtable) : Encodes opt casts .hashtable x := by
  intro path depth
  refine opt.check_ok path ⟨fun path depth => ?_, fun _ => rfl⟩
  refine opt.check_outcome path (fun h => h.depth_le) fun _ => ?_
  exact Outcome.error _ fun h => by cases h.1

theorem encodes_message {base : Shape} {encrypted : Bool} {x : base.Den}
    (hx : Encodes opt casts base x) : Encodes opt casts (.message base) (encrypted, x) := by
  intro path depth
  refine opt.check_outcome path (fun h => h.depth_le) fun _ => ?_
  refine ((hx (childPath path 1) (depth + 1)).map fun v hv => ?_).congr fits_succ
  refine ⟨fun path depth => ?_, fun _ => rfl⟩
  have hdecode : (Shape.message base).decode opt casts
      (.objectArray [.native .bool encrypted, v]) path depth = opt.check path depth (do
        let b ← opt.check (childPath path 0) (depth + 1) (.ok encrypted)
        let y ← base.decode opt casts v (childPath path 1) (depth + 1)
        return (b, y)) := by
    simp only [Shape.decode, pairOf, Value.asListPtr_objectArray]
    rfl
  rw [hdecode]
  refine opt.check_outcome path (fun h => h.depth_le) fun _ => ?_
  have hboth : Outcome (do
      let b ← opt.check (childPath path 0) (depth + 1) (.ok encrypted)
      let y ← base.decode opt casts v (childPath path 1) (depth + 1)
      return (b, y))
      (opt.Fits false 0 (depth + 1) ∧
        opt.Fits (base.has .bareHashtable x) (base.levels .decoding x) (depth + 1) ∧ True)
      (· = (encrypted, x)) := by
    refine (opt.check_ok (childPath path 0) (Eq.refl encrypted)).bind fun b hb =>
      (hv.1 (childPath path 1) (depth + 1)).bind fun y hy => ?_
    rw [hb, hy]
    exact Outcome.ok trivial rfl
  refine hboth.congr ?_
  constructor
  · intro h
    have hfits := fits_succ.mp h
    exact ⟨fits_zero.mpr hfits.depth_le, hfits, trivial⟩
  · exact fun h => fits_succ.mpr h.2.1

theorem encodes_none (t : Shape) : Encodes opt casts (.optional t) none :=
  encodes_leaf .null (fun _ _ => rfl) (fun _ _ => rfl) (fun h => by cases h) (fun _ => rfl)
    fun _ => rfl

theorem encodes_some {x : t.Den} (hnull : t.neverNull = true) (hx : Encodes opt casts t x) :
    Encodes opt casts (.optional t) (some x) := by
  intro path depth
  refine opt.check_outcome path (fun h => h.depth_le) fun _ => ?_
  refine ((hx path (depth + 1)).imp fun v hv => ?_).congr fits_succ
  refine ⟨fun path depth => ?_, fun h => by cases h⟩
  refine opt.check_outcome path (fun h => h.depth_le) fun _ => ?_
  rw [if_neg (by simp [hv.2 hnull])]
  refine ((hv.1 path (depth + 1)).map fun y hy => ?_).congr fits_succ
  rw [hy]

/-- The list of the elements, or the whole as one alternative; a reference to it does as well. -/
theorem outcome_encodeRange {xs : List t.Den} (h : ∀ x ∈ xs, Encodes opt casts t x)
    {depth : Nat} (hdepth : depth ≤ opt.maxDepth) (path : String) :
    Outcome (encodeRange (t.packRange xs) (List.map (fun x => t.encode opt x) xs) path depth)
      (opt.Fits (!t.isDirect && List.any xs fun x => t.has .valuelessVariant x)
        (if t.isDirect then 0 else deepest (List.map (fun x => t.levels .encoding x + 1) xs)) depth)
      fun v => v.isNull = false ∧
        ∀ w path depth, w.target = v.target → depth ≤ opt.maxDepth →
          Outcome (decodeVector (t.tryDirectVector w path) (t.decode opt casts) w path depth)
            (opt.Fits (!t.isDirect && List.any xs fun x => t.has .bareHashtable x)
              (if t.isDirect then 0 else deepest (List.map (fun x => t.levels .decoding x + 1) xs))
              depth) (· = xs) := by
  unfold encodeRange
  cases hdirect : t.isDirect with
  | true =>
    obtain ⟨v, hpack, hnull⟩ := packRange_of_isDirect hdirect xs
    rw [hpack]
    refine Outcome.ok (fits_zero.mpr hdepth) ⟨hnull, ?_⟩
    intro w path depth hw hdepth
    rw [tryDirectVector_of_packRange hpack hw]
    exact Outcome.ok (fits_zero.mpr hdepth) rfl
  | false =>
    obtain ⟨hpack, htry⟩ := not_direct hdirect
    rw [hpack]
    refine (outcome_encodeElements h hdepth path 0).map fun vs hvs => ⟨rfl, ?_⟩
    intro w path depth hw hdepth
    simp only [decodeVector, htry, asListPtr_of_target hw]
    exact outcome_decodeElements hvs hdepth path 0

theorem encodes_vector {xs : List t.Den} (h : ∀ x ∈ xs, Encodes opt casts t x) :
    Encodes opt casts (.vector t) xs := by
  intro path depth
  refine opt.check_outcome path (fun h => h.depth_le) fun hdepth => ?_
  refine (outcome_encodeRange h hdepth path).map fun v hv => ?_
  obtain ⟨hnull, hdecode⟩ := hv
  have htarget : (if t.isExactVector then opt.hold v else v).target = v.target := by
    split
    · exact opt.target_hold v
    · rfl
  refine ⟨fun path depth => ?_, fun _ => ?_⟩
  · exact opt.check_outcome path (fun h => h.depth_le) (hdecode _ path depth htarget)
  · unfold Value.isNull at hnull ⊢
    rw [htarget, hnull]

theorem encodes_array {n : Nat} {xs : { xs : List t.Den // xs.length = n }}
    (h : ∀ x ∈ xs.1, Encodes opt casts t x) : Encodes opt casts (.array n t) xs := by
  obtain ⟨xs, rfl⟩ := xs
  intro path depth
  refine opt.check_outcome path (fun h => h.depth_le) fun hdepth => ?_
  refine (outcome_encodeRange h hdepth path).imp fun v hv => ⟨fun path depth => ?_, fun _ => hv.1⟩
  refine opt.check_outcome path (fun h => h.depth_le) fun _ => ?_
  have hvector := opt.check_outcome path (fun h => h.depth_le) (hv.2 v path (depth + 1) rfl)
  refine Outcome.congr (Outcome.bind_ok hvector fun ys hys => ?_) fits_succ
  subst hys
  exact ⟨_, dif_pos rfl, rfl⟩

theorem encodes_pair {first second : Shape} {x : first.Den} {y : second.Den}
    (hx : Encodes opt casts first x) (hy : Encodes opt casts second y) :
    Encodes opt casts (.pair first second) (x, y) := by
  intro path depth
  refine opt.check_outcome path (fun h => h.depth_le) fun hdepth => ?_
  have hlist := outcome_encodeElements_cons (hx (childPath path 0) (depth + 1))
    (outcome_encodeElements_cons (hy (childPath path 1) (depth + 1))
      (outcome_encodeElements_nil path 2 hdepth))
  rw [Bool.or_false, Nat.max_zero] at hlist
  refine hlist.map ?_
  rintro _ ⟨v, _, rfl, hv, w, _, rfl, hw, rfl⟩
  refine ⟨fun path depth => ?_, fun _ => rfl⟩
  refine opt.check_outcome path (fun h => h.depth_le) fun _ => ?_
  have hboth : Outcome (do
      let x ← first.decode opt casts v (childPath path 0) (depth + 1)
      let y ← second.decode opt casts w (childPath path 1) (depth + 1)
      return (x, y))
      (opt.Fits (first.has .bareHashtable x) (first.levels .decoding x) (depth + 1) ∧
        opt.Fits (second.has .bareHashtable y) (second.levels .decoding y) (depth + 1)) (· = (x, y)) :=
    (hv.1 (childPath path 0) (depth + 1)).bind fun a ha =>
      (hw.1 (childPath path 1) (depth + 1)).bind_ok fun b hb => ⟨(a, b), rfl, by rw [ha, hb]⟩
  exact hboth.congr (by rw [← fits_succ, ← fits_succ, ← fits_max]; rfl)

theorem encodes_tuple {xs : ts.Tuple} (h : TupleEncodes opt casts ts xs) :
    Encodes opt casts (.tuple ts) xs := by
  intro path depth
  refine opt.check_outcome path (fun h => h.depth_le) fun hdepth => ?_
  refine (h path depth 0 hdepth).map fun vs hvs => ⟨fun path depth => ?_, fun _ => rfl⟩
  exact opt.check_outcome path (fun h => h.depth_le) (outcome_tuple hvs _ _ path)

theorem encodes_struct {xs : ts.Tuple} (h : TupleEncodes opt casts ts xs) :
    Encodes opt casts (.struct ts) xs := by
  intro path depth
  refine opt.check_outcome path (fun h => h.depth_le) fun hdepth => ?_
  refine (h path depth 0 hdepth).map fun vs hvs => ⟨fun path depth => ?_, fun _ => rfl⟩
  exact opt.check_outcome path (fun h => h.depth_le) (outcome_tuple hvs _ _ path)

omit [DecidableEq Value] in
/-- An index goes through an `int32_t` and a `std::size_t`. -/
theorem toNat_index {i : Nat} (hi : i < 2 ^ 31) :
    (castInt true 64 (BitVec.ofNat 32 i)).toNat = i := by
  have hmsb : (BitVec.ofNat 32 i).msb = false := by
    rw [BitVec.msb_eq_false_iff_two_mul_lt, BitVec.toNat_ofNat]
    omega
  unfold castInt
  rw [if_pos rfl, BitVec.signExtend_eq_setWidth_of_msb_false hmsb, BitVec.toNat_setWidth,
    BitVec.toNat_ofNat]
  omega

theorem encodes_valueless (ts : Shapes) : Encodes opt casts (.variant ts) none := by
  intro path depth
  refine opt.check_outcome path (fun h => h.depth_le) fun _ => ?_
  exact Outcome.error _ fun h => by cases h.1

theorem encodes_variant {x : ts.Sum} (hlength : ts.length < 2 ^ 31)
    (h : AltEncodes opt casts ts x) : Encodes opt casts (.variant ts) (some x) := by
  intro path depth
  refine opt.check_outcome path (fun h => h.depth_le) fun hdepth => ?_
  refine ((h (childPath path 1) (depth + 1)).map fun v hv => ?_).congr fits_succ
  refine ⟨fun path depth => ?_, fun _ => rfl⟩
  refine opt.check_outcome path (fun h => h.depth_le) fun _ => ?_
  have hboth : Outcome (do
      let i ← opt.check (childPath path 0) (depth + 1)
        (.ok (castInt true 64 (BitVec.ofNat 32 (ts.index x))))
      some <$> ts.decodeAlt opt casts i.toNat v (childPath path 1) (depth + 1))
      (opt.Fits false 0 (depth + 1) ∧
        opt.Fits (ts.hasAlt .bareHashtable x) (ts.levelsAlt .decoding x) (depth + 1))
      (· = some x) := by
    refine (opt.check_ok (childPath path 0) (Eq.refl _)).bind fun i hi => ?_
    rw [← hi, toNat_index (Nat.lt_trans (index_lt_length ts x) hlength)]
    exact (hv (childPath path 1) (depth + 1)).map fun y hy => congrArg some hy
  refine hboth.congr ?_
  constructor
  · intro h
    have hfits := fits_succ.mp h
    exact ⟨fits_zero.mpr hfits.depth_le, hfits⟩
  · exact fun h => fits_succ.mpr h.2

theorem encodes_map {key mapped : Shape} {m : AList fun _ : key.Den => mapped.Den}
    (h : ∀ entry ∈ m.entries,
      Encodes opt casts key entry.1 ∧ Encodes opt casts mapped entry.2) :
    Encodes opt casts (.map key mapped) m := by
  intro path depth
  refine opt.check_outcome path (fun h => h.depth_le) fun hdepth => ?_
  refine (outcome_encodeEntries h hdepth path 0).map fun vs hvs => ⟨fun path depth => ?_, fun _ => rfl⟩
  refine opt.check_outcome path (fun h => h.depth_le) fun hdepth => ?_
  simp only [Value.asListPtr_objectArray]
  let _ := key.decEq
  exact (outcome_decodeEntries hvs hdepth path 0 ∅ m.nodupKeys).imp fun m' hm' => AList.ext hm'

theorem tupleEncodes_nil : TupleEncodes opt casts .nil () := by
  intro path depth index hdepth
  refine (outcome_encodeElements_nil path index hdepth).imp fun vs hvs => ?_
  rw [hvs]
  exact ⟨rfl, fun _ _ _ hdepth => Outcome.ok (fits_zero.mpr hdepth) rfl⟩

theorem tupleEncodes_cons {x : t.Den} {xs : ts.Tuple} (hx : Encodes opt casts t x)
    (hxs : TupleEncodes opt casts ts xs) : TupleEncodes opt casts (.cons t ts) (x, xs) :=
  fun path depth index hdepth =>
    outcome_encodeTuple_cons hx (hxs path depth (index + 1) hdepth)

theorem altEncodes_inl {x : t.Den} (hx : Encodes opt casts t x) :
    AltEncodes opt casts (.cons t ts) (.inl x) := fun path depth =>
  (hx path depth).imp fun _ hv path depth => (hv.1 path depth).map fun _ hy => congrArg Sum.inl hy

theorem altEncodes_inr {x : ts.Sum} (hx : AltEncodes opt casts ts x) :
    AltEncodes opt casts (.cons t ts) (.inr x) := fun path depth =>
  (hx path depth).imp fun _ hv path depth => (hv path depth).map fun _ hy => congrArg Sum.inr hy

mutual

/-- Every value of a type is encoded, and decoded from what it is encoded to, as far as it fits. -/
theorem Shape.encodes : (t : Shape) → t.WellFormed → ∀ x : t.Den, Encodes opt casts t x
  | .value, _, x => encodes_leaf x (fun _ _ => rfl) (fun _ _ => rfl) (fun h => by cases h)
    (fun _ => rfl) fun _ => rfl
  | .message base, ht, (_, x) => encodes_message (base.encodes ht x)
  | .null, _, () => encodes_leaf .null (fun _ _ => rfl) (fun _ _ => rfl) (fun h => by cases h)
    (fun _ => rfl) fun _ => rfl
  | .optional t, _, none => encodes_none t
  | .optional t, ht, some x => encodes_some ht.1 (t.encodes ht.2 x)
  | .byte, _, x => encodes_leaf (.native .uint8 x) (fun _ _ => rfl)
    (fun _ _ => rfl) (fun _ => rfl) (fun _ => rfl) fun _ => rfl
  | .enumeration base, _, x => encodes_enumeration base x
  | .native k, _, x => encodes_native k x
  | .integral isSigned width, _, x => encodes_integral isSigned width x
  | .hashtable, _, x => encodes_hashtable x
  | .vector t, ht, _ => encodes_vector fun x _ => t.encodes ht x
  | .array _ t, ht, _ => encodes_array fun x _ => t.encodes ht x
  | .pair first second, ht, (x, y) => encodes_pair (first.encodes ht.1 x) (second.encodes ht.2 y)
  | .tuple ts, ht, xs => encodes_tuple (ts.encodesTuple ht xs)
  | .variant ts, _, none => encodes_valueless ts
  | .variant ts, ht, some x => encodes_variant ht.1 (ts.encodesAlt ht.2 x)
  | .map key mapped, ht, _ =>
    encodes_map fun entry _ => ⟨key.encodes ht.1 entry.1, mapped.encodes ht.2 entry.2⟩
  | .hashtablePtr, _, x => encodes_hashtablePtr x
  | .jaggedArray, _, xs => encodes_jaggedArray xs
  | .struct ts, ht, xs => encodes_struct (ts.encodesTuple ht xs)

theorem Shapes.encodesTuple : (ts : Shapes) → ts.WellFormed → ∀ xs : ts.Tuple,
    TupleEncodes opt casts ts xs
  | .nil, _, () => tupleEncodes_nil
  | .cons t ts, ht, (x, xs) => tupleEncodes_cons (t.encodes ht.1 x) (ts.encodesTuple ht.2 xs)

theorem Shapes.encodesAlt : (ts : Shapes) → ts.WellFormed → ∀ x : ts.Sum, AltEncodes opt casts ts x
  | .cons t _, ht, .inl x => altEncodes_inl (t.encodes ht.1 x)
  | .cons _ ts, ht, .inr x => altEncodes_inr (ts.encodesAlt ht.2 x)

end

/-- A value that both passes get through arrives as it was sent. -/
theorem fromValue_toValue (opt : Options) (casts : FloatCasts) {t : Shape} (ht : t.WellFormed)
    {x : t.Den} (hhas : ∀ o, t.has o x = false) (hencoding : t.levels .encoding x ≤ opt.maxDepth)
    (hdecoding : t.levels .decoding x ≤ opt.maxDepth) :
    ∃ v, t.toValue opt x = .ok v ∧ t.fromValue opt casts v = .ok x := by
  have hall : Encodes opt casts t x := t.encodes ht x
  obtain ⟨v, hv, hrestores, -⟩ := (hall "$" 0).1 ⟨hhas _, by omega⟩
  obtain ⟨y, hy, rfl⟩ := (hrestores "$" 0).1 ⟨hhas _, by omega⟩
  exact ⟨v, hv, hy⟩

/-- What is encoded is decoded to the same exactly if `encode` fails, for a variant without a value
or for its depth, or the value holds no bare `Hashtable` and is not too deep for `decode`, which
takes arrays one level deeper. -/
theorem roundTrips_iff (opt : Options) (casts : FloatCasts) (t : Shape) (ht : t.WellFormed)
    (x : t.Den) :
    (∀ v, t.toValue opt x = .ok v → t.fromValue opt casts v = .ok x) ↔
      t.has .valuelessVariant x = true ∨ opt.maxDepth < t.levels .encoding x ∨
        t.has .bareHashtable x = false ∧ t.levels .decoding x ≤ opt.maxDepth := by
  have hall : Encodes opt casts t x := t.encodes ht x
  have hencode := hall "$" 0
  by_cases hfits : opt.Fits (t.has .valuelessVariant x) (t.levels .encoding x) 0
  · obtain ⟨v, hv, hrestores, -⟩ := hencode.1 hfits
    have hdecode := hrestores "$" 0
    constructor
    · intro hsame
      obtain ⟨hhashtable, hle⟩ := (hdecode.of_ok (hsame v hv)).1
      exact Or.inr (Or.inr ⟨hhashtable, by omega⟩)
    · rintro (hvalueless | hdeep | ⟨hhashtable, hle⟩) w hw
      · rw [hfits.1] at hvalueless
        cases hvalueless
      · exact absurd hfits.2 (by omega)
      · have hsame : v = w := by
          have heq := hv.symm.trans hw
          cases heq
          rfl
        obtain ⟨y, hy, rfl⟩ := hdecode.1 ⟨hhashtable, by omega⟩
        rw [← hsame]
        exact hy
  · obtain ⟨e, he⟩ := hencode.2 hfits
    refine iff_of_true (fun v hv => ?_) ?_
    · have heq := he.symm.trans hv
      cases heq
    · cases hvalueless : t.has .valuelessVariant x with
      | true => exact Or.inl rfl
      | false =>
        refine Or.inr (Or.inl ?_)
        by_contra hle
        exact hfits ⟨hvalueless, by omega⟩

end Shapes

def noCasts : FloatCasts where
  float _ := 0
  double _ := 0

def twoNumbers : (Shape.array 2 (.native .int32)).Den := ⟨[(1 : BitVec 32), (2 : BitVec 32)], rfl⟩

/-- An array at the last level, and a bare `Hashtable`, are encoded and not decoded. -/
theorem not_roundTrips_twoNumbers :
    (¬∀ v, (Shape.array 2 (.native .int32)).toValue { maxDepth := 0 } twoNumbers = .ok v →
      @Shape.fromValue (Classical.decEq Value) { maxDepth := 0 } noCasts
        (.array 2 (.native .int32)) v = .ok twoNumbers) ∧
    ¬∀ v, Shape.hashtable.toValue {} [] = .ok v →
      @Shape.fromValue (Classical.decEq Value) {} noCasts .hashtable v = .ok [] := by
  constructor
  · intro hall
    cases hall _ rfl
  · intro hall
    cases hall _ rfl

/-- A structure of a name, an optional port, and a map to variants. -/
def serverShape : Shape :=
  .struct (.cons (.native .string) (.cons (.optional (.integral false .bits16)) (.cons
    (.map (.native .string) (.variant (.cons .hashtablePtr (.cons (.vector .byte) .nil)))) .nil)))

def server : serverShape.Den :=
  ("eu", some (5055 : BitVec 16),
    (⟨[⟨"key", some (.inr (.inl [(1 : BitVec 8), 2]))⟩], by simp⟩ :
      AList fun _ : String => Option (Option Hashtable ⊕ (List (BitVec 8) ⊕ Empty))), ())

theorem roundTrips_server : ∃ v, serverShape.toValue { zeroCopy := true } server = .ok v ∧
    @Shape.fromValue (Classical.decEq Value) { zeroCopy := true } noCasts serverShape v =
      .ok server := by
  have hshape : serverShape.WellFormed := by
    simp [serverShape, Shape.WellFormed, Shapes.WellFormed, Shape.neverNull, Shapes.length]
  have hall := (@roundTrips_iff (Classical.decEq Value) { zeroCopy := true } noCasts serverShape hshape
    server).mpr (Or.inr (Or.inr ⟨rfl, by decide⟩))
  exact ⟨_, rfl, hall _ rfl⟩

end LuxonServer.Pfr
