import Mathlib.Data.List.TakeWhile
import Mathlib.Data.Rat.Floor
import Mathlib.Order.Compare

/-! How SQLite compares the values of a column with the operand of a constraint: the storage
classes and their order, the collations, and the affinity of a column. -/

namespace LuxonServer

/-- A zero-terminated text, by its code points.  UTF-8 keeps their order, so that comparing the
bytes of two texts compares their code points. -/
structure CString where
  chars : List Char
  nulFree : '\x00' ∉ chars
  deriving DecidableEq

namespace CString

/-- The text up to the first zero, as `c_str()` shows it. -/
def ofChars (chars : List Char) : CString :=
  ⟨chars.takeWhile (· ≠ '\x00'), fun hmem => by simpa using List.mem_takeWhile_imp hmem⟩

def ofString (s : String) : CString := ofChars s.toList

def empty : CString := ⟨[], List.not_mem_nil⟩

/-- `std::to_string`. -/
def decimal (v : Int) : List Char :=
  if v < 0 then '-' :: Nat.toDigits 10 v.natAbs else Nat.toDigits 10 v.natAbs

def ofInt (v : Int) : CString := ofChars (decimal v)

/-- `strlen`. -/
def length (t : CString) : Nat := (t.chars.map Char.utf8Size).sum

theorem ext {t u : CString} (h : t.chars = u.chars) : t = u := by
  cases t
  cases u
  cases h
  rfl

end CString

section Collation

/-- The bytes of two buffers, up to a length. -/
def compareFor (key : Char → Nat) : Nat → List Char → List Char → Ordering
  | n + 1, a :: as, b :: bs => (compare (key a) (key b)).then (compareFor key n as bs)
  | _, _, _ => .eq

/-- `sqlite3UpperToLower`, which folds the `26` letters of ASCII. -/
def upperToLower (c : Char) : Nat := c.toLower.toNat

/-- `binCollFunc`. -/
def binCollFunc (a b : List Char) : Ordering :=
  (compareFor Char.toNat (min a.length b.length) a b).then (compare a.length b.length)

/-- `nocaseCollatingFunc`. -/
def nocaseCollatingFunc (a b : List Char) : Ordering :=
  (compareFor upperToLower (min a.length b.length) a b).then (compare a.length b.length)

/-- `sqlite3StrICmp`: the terminator, at the end of a text, is below every other character. -/
def strICmp : List Char → List Char → Ordering
  | [], [] => .eq
  | [], _ :: _ => .lt
  | _ :: _, [] => .gt
  | a :: as, b :: bs => (compare (upperToLower a) (upperToLower b)).then (strICmp as bs)

theorem compare_length_cons (x : Char) (a : List Char) (y : Char) (b : List Char) :
    compare (x :: a).length (y :: b).length = compare a.length b.length := by
  simp only [List.length_cons, Nat.compare_eq_ite_lt, Nat.add_lt_add_iff_right]

/-- `stricmp` and the collation agree on the texts of SQLite. -/
theorem strICmp_eq_nocaseCollatingFunc (a b : List Char) :
    strICmp a b = nocaseCollatingFunc a b := by
  induction a generalizing b with
  | nil =>
    cases b with
    | nil => rfl
    | cons y b => exact (Nat.compare_eq_lt.mpr (Nat.succ_pos _)).symm
  | cons x a ih =>
    cases b with
    | nil => exact (Nat.compare_eq_gt.mpr (Nat.succ_pos _)).symm
    | cons y b =>
      have hlength : min (x :: a).length (y :: b).length = min a.length b.length + 1 := by
        simp only [List.length_cons]
        omega
      rw [strICmp, ih]
      unfold nocaseCollatingFunc
      rw [compare_length_cons, hlength, compareFor, Ordering.then_assoc]

theorem strICmp_eq_iff {a b : List Char} :
    strICmp a b = .eq ↔ a.map upperToLower = b.map upperToLower := by
  induction a generalizing b with
  | nil => cases b <;> simp [strICmp]
  | cons x a ih =>
    cases b with
    | nil => simp [strICmp]
    | cons y b => simp [strICmp, Ordering.then_eq_eq, ih]

end Collation

namespace CString

theorem isDigit_or_of_mem_decimal {v : Int} {c : Char} (hc : c ∈ decimal v) :
    c = '-' ∨ c.isDigit = true := by
  unfold decimal at hc
  split at hc
  · rcases List.mem_cons.mp hc with rfl | hc
    · exact Or.inl rfl
    · exact Or.inr (Nat.isDigit_of_mem_toDigits (by decide) (by decide) hc)
  · exact Or.inr (Nat.isDigit_of_mem_toDigits (by decide) (by decide) hc)

theorem chars_ofInt (v : Int) : (ofInt v).chars = decimal v := by
  show (decimal v).takeWhile (· ≠ '\x00') = decimal v
  rw [List.takeWhile_eq_self_iff]
  intro c hc
  rcases isDigit_or_of_mem_decimal hc with rfl | hdigit
  · decide
  · rw [decide_eq_true_eq]
    rintro rfl
    cases hdigit

theorem decimal_injective {v w : Int} (h : decimal v = decimal w) : v = w := by
  have hdigits : ∀ {m n : Nat}, Nat.toDigits 10 m = Nat.toDigits 10 n → m = n := by
    intro m n heq
    have hvalue := congrArg (fun digits => Nat.ofDigitChars 10 digits 0) heq
    simpa only [Nat.ofDigitChars_ten_toDigits] using hvalue
  have hsign : ∀ {n : Nat} {digits : List Char}, '-' :: digits ≠ Nat.toDigits 10 n := by
    intro n digits heq
    have hminus : '-' ∈ Nat.toDigits 10 n := heq ▸ List.mem_cons_self
    have hdigit := Nat.isDigit_of_mem_toDigits (by decide) (by decide) hminus
    cases hdigit
  unfold decimal at h
  split at h <;> split at h
  · have heq := hdigits (List.cons.inj h).2
    omega
  · exact (hsign h).elim
  · exact (hsign h.symm).elim
  · have heq := hdigits h
    omega

/-- Folding the case leaves the decimal digits as they are. -/
theorem upperToLower_of_mem_decimal {v : Int} {c : Char} (hc : c ∈ decimal v) :
    upperToLower c = c.toNat := by
  rcases isDigit_or_of_mem_decimal hc with rfl | hdigit
  · rfl
  · have hupper : ¬(c.val ≥ 'A'.val ∧ c.val ≤ 'Z'.val) := by
      simp only [Char.isDigit, Bool.and_eq_true, decide_eq_true_eq] at hdigit
      rintro ⟨hlow, -⟩
      have hlt : '9'.val < 'A'.val := by decide
      exact absurd (UInt32.le_trans hlow hdigit.2) (UInt32.not_le.mpr hlt)
    unfold upperToLower Char.toLower
    rw [dif_neg hupper]

/-- Two integers have the same text exactly when they are the same. -/
theorem strICmp_ofInt {v w : Int} : strICmp (ofInt v).chars (ofInt w).chars = .eq ↔ v = w := by
  rw [chars_ofInt, chars_ofInt, strICmp_eq_iff]
  constructor
  · intro h
    rw [List.map_congr_left fun c hc => upperToLower_of_mem_decimal hc,
      List.map_congr_left fun c hc => upperToLower_of_mem_decimal hc] at h
    exact decimal_injective (List.map_injective_iff.mpr (fun _ _ => Char.toNat_inj.mp) h)
  · rintro rfl
    rfl

end CString

/-- A double that is not a NaN: SQLite has `NULL` for those. -/
inductive SqlReal where
  | negInf
  | finite (v : ℚ)
  | posInf
  deriving DecidableEq

namespace SqlReal

/-- `sqlite3RealToI64`. -/
def toInt64 : SqlReal → Int
  | negInf => -9223372036854775808
  | posInf => 9223372036854775807
  | finite v =>
    if v < -9223372036854774784 then -9223372036854775808
    else if 9223372036854774784 < v then 9223372036854775807
    else v.num.tdiv v.den

def compareReal : SqlReal → SqlReal → Ordering
  | finite v, finite w => compare v w
  | negInf, negInf => .eq
  | posInf, posInf => .eq
  | negInf, _ => .lt
  | posInf, _ => .gt
  | _, negInf => .gt
  | _, posInf => .lt

/-- `sqlite3IntFloatCompare`.  The conversion of `i` to a double in its last line is exact: there
`i` is the integer part of the double. -/
def intFloatCompare (i : Int) : SqlReal → Ordering
  | negInf => .gt
  | posInf => .lt
  | finite v =>
    if v < -9223372036854775808 then .gt
    else if 9223372036854775808 ≤ v then .lt
    else (compare i (v.num.tdiv v.den)).then (compare (i : ℚ) v)

end SqlReal

/-- A value of SQLite, by its storage class. -/
inductive SqlValue where
  | null
  | integer (v : Int)
  | real (v : SqlReal)
  | text (v : CString)
  deriving DecidableEq

namespace SqlValue

def isNumeric : SqlValue → Bool
  | integer _ | real _ => true
  | null | text _ => false

/-- `sqlite3_value_int64` of a number. -/
def int64 : SqlValue → Int
  | integer v => v
  | real v => v.toInt64
  | null | text _ => 0

/-- `sqlite3MemCompare`: `NULL`, then the numbers by their value, then the texts by the
collation. -/
def memCompare (collation : List Char → List Char → Ordering) : SqlValue → SqlValue → Ordering
  | null, null => .eq
  | null, _ => .lt
  | _, null => .gt
  | integer v, integer w => compare v w
  | integer v, real w => w.intFloatCompare v
  | real v, integer w => (v.intFloatCompare w).swap
  | real v, real w => v.compareReal w
  | text v, text w => collation v.chars w.chars
  | text _, _ => .gt
  | _, text _ => .lt

end SqlValue

/-- The operator of a constraint.  `other` is one of those that the table does not take. -/
inductive ConstraintOp where
  | eq
  | gt
  | le
  | lt
  | ge
  | like
  | glob
  | other (code : Nat)
  deriving DecidableEq, Repr

namespace ConstraintOp

/-- Whether a comparison holds of operands that compare so. -/
def test : ConstraintOp → Ordering → Bool
  | eq, ord => ord == .eq
  | gt, ord => ord == .gt
  | le, ord => ord != .gt
  | lt, ord => ord == .lt
  | ge, ord => ord != .lt
  | like, _ | glob, _ | other _, _ => false

/-- Whether the operator compares by order. -/
def isInequality : ConstraintOp → Bool
  | gt | le | lt | ge => true
  | _ => false

end ConstraintOp

/-- What the table and SQLite both call: the text of a double, `sqlite3_strlike` and
`sqlite3_strglob`, with the pattern first. -/
structure Sqlite where
  realText : SqlReal → CString
  strLike : CString → CString → Bool
  strGlob : CString → CString → Bool

namespace Sqlite

variable (s : Sqlite)

/-- `sqlite3_value_text`, with the empty text for `NULL`. -/
def valueText : SqlValue → CString
  | .null => CString.empty
  | .integer v => CString.ofInt v
  | .real v => s.realText v
  | .text v => v

/-- The affinity of column `0`, of type `TEXT`: a number is compared with a text as a text.  The
others have no type, and no affinity. -/
def applyAffinity (column : Nat) (value : SqlValue) : SqlValue :=
  if column = 0 ∧ value.isNumeric then .text (s.valueText value) else value

/-- The collation of a column: the others than `__id` are declared `COLLATE NOCASE`. -/
def collation (column : Nat) : List Char → List Char → Ordering :=
  if column = 0 then binCollFunc else nocaseCollatingFunc

/-- Whether SQLite finds `value op operand` true for the value of a column.  A pattern is at most
as long as any other text of the connection, so that `likeFunc` takes it. -/
def holds (column : Nat) (op : ConstraintOp) (value operand : SqlValue) : Bool :=
  if value = .null ∨ operand = .null then false
  else match op with
    | .like => s.strLike (s.valueText operand) (s.valueText value)
    | .glob => s.strGlob (s.valueText operand) (s.valueText value)
    | _ => op.test (SqlValue.memCompare (collation column) (s.applyAffinity column value)
        (s.applyAffinity column operand))

end Sqlite

end LuxonServer
