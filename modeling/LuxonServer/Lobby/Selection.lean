import LuxonServer.Lobby.VirtualTable

/-! When the virtual table selects the rooms that SQLite would select by the same constraints. -/

namespace LuxonServer

namespace Game

/-- The two readings of a column: nothing, a text, or an integer. -/
theorem actual_cases (column : Nat) (g : Game) :
    g.actual column = none ∧ g.vtColumn column = some .null ∨
    (∃ t, g.actual column = some (t, none) ∧ g.vtColumn column = resultText t ∧
      (column = 0 → t = CString.ofString g.info.id)) ∨
    ∃ v, g.actual column = some (CString.ofInt v, some v) ∧
      g.vtColumn column = some (.integer v) ∧ column ≠ 0 := by
  unfold actual vtColumn
  by_cases hcolumn : column = 0
  · exact Or.inr (Or.inl ⟨_, if_pos hcolumn, if_pos hcolumn, fun _ => rfl⟩)
  rw [if_neg hcolumn, if_neg hcolumn]
  cases hprop : g.columnProp column with
  | none => exact Or.inl ⟨rfl, rfl⟩
  | some value =>
    cases value with
    | string v => exact Or.inr (Or.inl ⟨_, rfl, rfl, fun heq => (hcolumn heq).elim⟩)
    | bool v => exact Or.inr (Or.inr ⟨_, rfl, by cases v <;> rfl, hcolumn⟩)
    | int16 v => exact Or.inr (Or.inr ⟨_, rfl, rfl, hcolumn⟩)
    | int32 v => exact Or.inr (Or.inr ⟨_, rfl, rfl, hcolumn⟩)
    | int64 v => exact Or.inr (Or.inr ⟨_, rfl, rfl, hcolumn⟩)
    | byte v => exact Or.inr (Or.inr ⟨_, rfl, rfl, hcolumn⟩)
    | null => exact Or.inl ⟨rfl, rfl⟩
    | stringArray v => exact Or.inl ⟨rfl, rfl⟩
    | other tag encoding => exact Or.inl ⟨rfl, rfl⟩

theorem resultText_eq_some {t : CString} {value : SqlValue} :
    resultText t = some value ↔ t.length ≤ 4096 ∧ value = .text t := by
  unfold resultText
  split
  · next hshort => simp [hshort, eq_comm]
  · next hlong => simp [hlong]

end Game

namespace FilterProp

@[simp]
theorem testInequality_gt (ord : Ordering) : testInequality '>' ord = (ord == .gt) := by
  cases ord <;> rfl

@[simp]
theorem testInequality_lt (ord : Ordering) : testInequality '<' ord = (ord == .lt) := by
  cases ord <;> rfl

@[simp]
theorem testInequality_ge (ord : Ordering) : testInequality ']' ord = (ord != .lt) := by
  cases ord <;> rfl

@[simp]
theorem testInequality_le (ord : Ordering) : testInequality '[' ord = (ord != .gt) := by
  cases ord <;> rfl

end FilterProp

namespace Constraint

variable (s : Sqlite) (g : Game) (c : Constraint)

/-- Whether SQLite finds the constraint true of the values that `vtColumn` returns for the room. -/
def isTrue : Bool := (g.vtColumn c.col).any fun value => s.holds c.col c.op value c.operand

def text : CString := s.valueText c.operand

/-- Where the table compares a value with the operand of a constraint in another way than SQLite:
the outcome for the table, and for SQLite. -/
inductive Deviates : Ordering → Ordering → Prop
  /-- For SQLite every number is below every text. -/
  | textAgainstNumber {t : CString} (hcol : c.col ≠ 0)
      (hvalue : g.vtColumn c.col = some (.text t)) (hoperand : c.operand.isNumeric = true) :
      Deviates (strICmp t.chars (c.text s).chars) .gt
  | numberAgainstText {v : Int} {t : CString} (hvalue : g.vtColumn c.col = some (.integer v))
      (hoperand : c.operand = .text t) :
      Deviates (strICmp (CString.ofInt v).chars t.chars) .lt
  /-- The table tests the equality of an integer and a double by their texts. -/
  | realByText {v : Int} {r : SqlReal} (hvalue : g.vtColumn c.col = some (.integer v))
      (hoperand : c.operand = .real r) (hop : c.op = .eq) :
      Deviates (strICmp (CString.ofInt v).chars (s.realText r).chars) (r.intFloatCompare v)
  /-- The table drops the fraction of a double. -/
  | realTruncated {v : Int} {r : SqlReal} (hvalue : g.vtColumn c.col = some (.integer v))
      (hoperand : c.operand = .real r) (hop : c.op ≠ .eq) :
      Deviates (compare v r.toInt64) (r.intFloatCompare v)
  /-- `__id` is not declared `COLLATE NOCASE`. -/
  | idFolded {t : CString} (hcol : c.col = 0) (hvalue : g.vtColumn 0 = some (.text t))
      (hoperand : c.operand ≠ .null) (hop : c.op ≠ .eq) :
      Deviates (strICmp t.chars (c.text s).chars) (binCollFunc t.chars (c.text s).chars)

def textTest (op : ConstraintOp) (value operand : CString) : Bool :=
  match op with
  | .like => s.strLike operand value
  | .glob => s.strGlob operand value
  | _ => op.test (strICmp value.chars operand.chars)

/-- The constraint as the matcher reads it. -/
def prop : FilterProp :=
  { col := c.col, op := c.op.opChar.getD ' ', isNull := c.operand = .null,
    isNumeric := c.operand.isNumeric, strVal := c.text s, intVal := c.operand.int64 }

/-- What the table tests of a constraint. -/
def passes (overridden : Bool) : Bool :=
  if overridden then true
  else if c.isById then c.operand ≠ .null && g.info.id = String.ofList (c.text s).chars
  else (c.prop s).matchesGame s g

variable {s g c}

/-- The matcher, by the operator of the constraint. -/
theorem matchesGame_prop (htaken : c.isTaken = true) : (c.prop s).matchesGame s g =
    if c.operand = .null then false
    else match g.actual c.col with
      | none => false
      | some (t, some v) =>
        if c.op.isInequality ∧ c.operand.isNumeric then c.op.test (compare v c.operand.int64)
        else textTest s c.op t (c.text s)
      | some (t, none) => textTest s c.op t (c.text s) := by
  have hother : ∀ code, c.op ≠ .other code := by
    rintro code hop
    simp [isTaken, hop, ConstraintOp.opChar] at htaken
  unfold FilterProp.matchesGame prop
  simp only [decide_eq_true_eq]
  split
  · rfl
  cases hactual : g.actual c.col with
  | none => rfl
  | some actual =>
    obtain ⟨t, v⟩ := actual
    cases hop : c.op with
    | other code => exact (hother code hop).elim
    | _ =>
      cases v <;> cases c.operand.isNumeric <;>
        simp [ConstraintOp.opChar, textTest, ConstraintOp.isInequality, ConstraintOp.test]

theorem passes_of_text (htaken : c.isTaken = true) (hid : c.isById = false)
    (hoperand : c.operand ≠ .null) {t : CString} (hactual : g.actual c.col = some (t, none)) :
    c.passes s g false = textTest s c.op t (c.text s) := by
  simp [passes, hid, matchesGame_prop htaken, hoperand, hactual]

theorem passes_of_int (htaken : c.isTaken = true) (hid : c.isById = false)
    (hoperand : c.operand ≠ .null) {v : Int}
    (hactual : g.actual c.col = some (CString.ofInt v, some v)) :
    c.passes s g false =
      if c.op.isInequality ∧ c.operand.isNumeric then c.op.test (compare v c.operand.int64)
      else textTest s c.op (CString.ofInt v) (c.text s) := by
  simp [passes, hid, matchesGame_prop htaken, hoperand, hactual]

/-- The order that decides a comparison for SQLite. -/
def order (s : Sqlite) (c : Constraint) (value : SqlValue) : Ordering :=
  SqlValue.memCompare (Sqlite.collation c.col) (s.applyAffinity c.col value)
    (s.applyAffinity c.col c.operand)

theorem isTrue_of_value {value : SqlValue} (hvalue : g.vtColumn c.col = some value)
    (hnull : value ≠ .null) (hoperand : c.operand ≠ .null) :
    c.isTrue s g = match c.op with
      | .like => s.strLike (c.text s) (s.valueText value)
      | .glob => s.strGlob (c.text s) (s.valueText value)
      | _ => c.op.test (c.order s value) := by
  simp only [isTrue, hvalue, Option.any_some, Sqlite.holds, hnull, hoperand, or_self, if_false]
  rfl

theorem isTrue_of_order {value : SqlValue} (hvalue : g.vtColumn c.col = some value)
    (hnull : value ≠ .null) (hoperand : c.operand ≠ .null) (hlike : c.op ≠ .like)
    (hglob : c.op ≠ .glob) : c.isTrue s g = c.op.test (c.order s value) := by
  rw [isTrue_of_value hvalue hnull hoperand]
  split
  · next hop => exact (hlike hop).elim
  · next hop => exact (hglob hop).elim
  · rfl

theorem textTest_of_order {op : ConstraintOp} (hlike : op ≠ .like) (hglob : op ≠ .glob)
    (t u : CString) : textTest s op t u = op.test (strICmp t.chars u.chars) := by
  unfold textTest
  split
  · exact (hlike rfl).elim
  · exact (hglob rfl).elim
  · rfl

theorem applyAffinity_of_ne {column : Nat} (hcol : column ≠ 0) (value : SqlValue) :
    s.applyAffinity column value = value := if_neg fun h => hcol h.1

theorem isTrue_of_null_operand (hoperand : c.operand = .null) : c.isTrue s g = false := by
  unfold isTrue Sqlite.holds
  cases g.vtColumn c.col <;> simp [hoperand]

theorem isById_of_zero (htaken : c.isTaken = true) (hcol : c.col = 0) (hop : c.op = .eq) :
    c.isById = true := by
  simp only [isTaken, Bool.and_eq_true, decide_eq_true_eq] at htaken
  have hcolumn : c.iColumn = 0 := by
    have htoNat : c.iColumn.toNat = 0 := hcol
    omega
  simp [isById, hcolumn, hop]

/-- Patterns are matched by the same functions on both sides. -/
theorem isTrue_of_pattern {value : SqlValue} (hvalue : g.vtColumn c.col = some value)
    (hnull : value ≠ .null) (hoperand : c.operand ≠ .null) (hop : c.op = .like ∨ c.op = .glob) :
    c.isTrue s g = textTest s c.op (s.valueText value) (c.text s) := by
  rw [isTrue_of_value hvalue hnull hoperand]
  rcases hop with hop | hop <;> rw [hop] <;> rfl

/-- For two integers the table compares as SQLite does. -/
theorem outcome_of_integers {op : ConstraintOp} (hlike : op ≠ .like) (hglob : op ≠ .glob)
    (v w : Int) : (if op.isInequality = true then op.test (compare v w)
      else textTest s op (CString.ofInt v) (CString.ofInt w)) = op.test (compare v w) := by
  split
  · rfl
  rw [textTest_of_order hlike hglob]
  cases op with
  | eq =>
    rw [Bool.eq_iff_iff]
    simp only [ConstraintOp.test, beq_iff_eq, CString.strICmp_ofInt, compare_eq_iff_eq]
  | like => exact (hlike rfl).elim
  | glob => exact (hglob rfl).elim
  | other code => rfl
  | _ => simp_all [ConstraintOp.isInequality]

/-- A constraint other than `__id =` has the same outcome on both sides, or the value is too long
for SQLite, or the two sides compare in another way. -/
theorem outcome_cases (htaken : c.isTaken = true) (hid : c.isById = false) :
    c.passes s g false = c.isTrue s g ∨
    (∃ t, g.vtColumn c.col = none ∧ g.actual c.col = some (t, none) ∧ c.operand ≠ .null ∧
      c.passes s g false = textTest s c.op t (c.text s)) ∨
    ∃ ours theirs, Deviates s g c ours theirs ∧ c.op ≠ .like ∧ c.op ≠ .glob := by
  by_cases hoperand : c.operand = .null
  · left
    rw [isTrue_of_null_operand hoperand]
    simp [passes, hid, matchesGame_prop htaken, hoperand]
  rcases g.actual_cases c.col with ⟨hactual, hnull⟩ | ⟨t, hactual, htext, -⟩ |
    ⟨v, hactual, hvalue, hcol⟩
  · left
    simp [passes, hid, matchesGame_prop htaken, hoperand, hactual, isTrue, hnull, Sqlite.holds]
  · have hpasses : c.passes s g false = textTest s c.op t (c.text s) :=
      passes_of_text htaken hid hoperand hactual
    cases hshort : Game.resultText t with
    | none => exact Or.inr (Or.inl ⟨t, htext.trans hshort, hactual, hoperand, hpasses⟩)
    | some value =>
      obtain ⟨-, rfl⟩ := Game.resultText_eq_some.mp hshort
      have hvalue : g.vtColumn c.col = some (.text t) := htext.trans hshort
      by_cases hpattern : c.op = .like ∨ c.op = .glob
      · left
        rw [hpasses, isTrue_of_pattern hvalue (by simp) hoperand hpattern]
        rfl
      obtain ⟨hlike, hglob⟩ := not_or.mp hpattern
      by_cases hcol : c.col = 0
      · have hop : c.op ≠ .eq := by
          intro hop
          rw [isById_of_zero htaken hcol hop] at hid
          cases hid
        rw [hcol] at hvalue
        exact Or.inr (Or.inr ⟨_, _, .idFolded hcol hvalue hoperand hop, hlike, hglob⟩)
      cases hkind : c.operand with
      | null => exact (hoperand hkind).elim
      | integer w =>
        have hnumeric : c.operand.isNumeric = true := by rw [hkind]; rfl
        exact Or.inr (Or.inr ⟨_, _, .textAgainstNumber hcol hvalue hnumeric, hlike, hglob⟩)
      | real w =>
        have hnumeric : c.operand.isNumeric = true := by rw [hkind]; rfl
        exact Or.inr (Or.inr ⟨_, _, .textAgainstNumber hcol hvalue hnumeric, hlike, hglob⟩)
      | text u =>
        left
        rw [hpasses, isTrue_of_order hvalue (by simp) hoperand hlike hglob,
          textTest_of_order hlike hglob, order, applyAffinity_of_ne hcol, applyAffinity_of_ne hcol,
          strICmp_eq_nocaseCollatingFunc, Sqlite.collation, if_neg hcol, text, hkind]
        rfl
  · have hpasses : c.passes s g false =
        if c.op.isInequality ∧ c.operand.isNumeric then c.op.test (compare v c.operand.int64)
        else textTest s c.op (CString.ofInt v) (c.text s) :=
      passes_of_int htaken hid hoperand hactual
    by_cases hpattern : c.op = .like ∨ c.op = .glob
    · left
      have hineq : ¬(c.op.isInequality = true ∧ c.operand.isNumeric = true) := by
        rcases hpattern with hop | hop <;> simp [hop, ConstraintOp.isInequality]
      rw [hpasses, if_neg hineq, isTrue_of_pattern hvalue (by simp) hoperand hpattern]
      rfl
    obtain ⟨hlike, hglob⟩ := not_or.mp hpattern
    cases hkind : c.operand with
    | null => exact (hoperand hkind).elim
    | integer w =>
      left
      rw [isTrue_of_order hvalue (by simp) hoperand hlike hglob, order, applyAffinity_of_ne hcol,
        applyAffinity_of_ne hcol, hpasses, text, hkind]
      simp only [SqlValue.isNumeric, and_true, SqlValue.int64]
      exact outcome_of_integers hlike hglob v w
    | real r =>
      by_cases hop : c.op = .eq
      · exact Or.inr (Or.inr ⟨_, _, .realByText hvalue hkind hop, hlike, hglob⟩)
      · exact Or.inr (Or.inr ⟨_, _, .realTruncated hvalue hkind hop, hlike, hglob⟩)
    | text u => exact Or.inr (Or.inr ⟨_, _, .numberAgainstText hvalue hkind, hlike, hglob⟩)

end Constraint

namespace Filters

variable {s : Sqlite} {g : Game} {c : Constraint} {filters : Filters}

/-- Whether a point lookup for `filter_id` finds the room. -/
def Finds (filters : Filters) (g : Game) : Prop :=
  filters.filterIdIsNull = false ∧ g.info.id = String.ofList filters.filterId.chars

end Filters

namespace App

variable {app : App} {lobby : LobbyId}

/-- An app with one room, in a lobby of its own. -/
def oneRoom : App :=
  (({ id := "app", version := "1.0" } : App).getLobby ("lobby", 2)).addGame ("lobby", 2) "room" ""

/-- The room, with a value of `C0`. -/
def roomWith (value : Value) : Game :=
  { newGame ("lobby", 2) "room" "" { id := "app", version := "1.0" } with
    customProps := AList.insert (.string "C0") value ∅ }

def withRoom (value : Value) : App :=
  { oneRoom with live := oneRoom.live.insert 0 (roomWith value) }

end App

end LuxonServer
