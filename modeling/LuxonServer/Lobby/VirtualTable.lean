import LuxonServer.Lobby.GameList
import LuxonServer.Lobby.Sqlite

/-! The virtual table of a lobby's rooms: the constraints that it takes from SQLite, and the rooms
that it selects by them. -/

namespace LuxonServer

/-- `get_prop_key`: the keys of the columns `C0` to `C9`. -/
def propKeys : List Value :=
  [.string "C0", .string "C1", .string "C2", .string "C3", .string "C4", .string "C5",
    .string "C6", .string "C7", .string "C8", .string "C9"]

/-- A constraint of a query, as `vtBestIndex` gets it. -/
structure IndexConstraint where
  iColumn : Int
  op : ConstraintOp
  usable : Bool := true
  deriving DecidableEq, Repr

/-- What the table does with a constraint: the operand is the `argvIndex`-th argument of
`vtFilter`, or none, and with `omit` SQLite does not check the constraint again. -/
structure ConstraintUsage where
  argvIndex : Nat := 0
  omitCheck : Bool := false
  deriving DecidableEq, Repr

/-- The plan that `vtBestIndex` makes, with the `argvIndex` of its next constraint. -/
structure IndexPlan where
  usage : List ConstraintUsage := []
  argvIndex : Nat := 1
  idxNum : Nat := 0
  idxStr : List Char := []
  deriving DecidableEq, Repr

/-- The character that stands for an operator in `idxStr`. -/
def ConstraintOp.opChar : ConstraintOp → Option Char
  | eq => some '='
  | like => some 'L'
  | glob => some 'G'
  | gt => some '>'
  | lt => some '<'
  | ge => some ']'
  | le => some '['
  | other _ => none

/-- One turn of the loop of `vtBestIndex`. -/
def IndexPlan.add (plan : IndexPlan) (constraint : IndexConstraint) : IndexPlan :=
  let skipped := { plan with usage := plan.usage ++ [{}] }
  if ¬constraint.usable then skipped
  else match constraint.op.opChar with
    | none => skipped
    | some opChar =>
      if constraint.iColumn < 0 ∨ 10 < constraint.iColumn then skipped
      else
        { usage := plan.usage ++ [{ argvIndex := plan.argvIndex, omitCheck := true }]
          argvIndex := plan.argvIndex + 1
          idxStr := plan.idxStr ++ CString.decimal constraint.iColumn ++ [opChar, ';']
          idxNum :=
            if constraint.iColumn = 0 ∧ opChar = '=' then plan.idxNum ||| 1 else plan.idxNum }

/-- A constraint of a query with its operand. -/
structure Constraint extends IndexConstraint where
  operand : SqlValue
  deriving DecidableEq

/-- The arguments of `vtFilter`: `vtBestIndex` numbers the constraints in their order. -/
def IndexPlan.argv (query : List Constraint) (plan : IndexPlan) : List SqlValue :=
  (plan.usage.zip query).filterMap fun entry =>
    if entry.1.argvIndex = 0 then none else some entry.2.operand

/-- The constraints that SQLite leaves to the table. -/
def IndexPlan.consumed (query : List Constraint) (plan : IndexPlan) : List Constraint :=
  (plan.usage.zip query).filterMap fun entry => if entry.1.omitCheck then some entry.2 else none

namespace Game

/-- The property of the room in one of the columns `C0` to `C9`. -/
def columnProp (column : Nat) (g : Game) : Option Value :=
  (propKeys[column - 1]?).bind fun key => g.customProps.lookup key

/-- `sqlite3_result_text`.  SQLite fails on a text that is longer than the limit of the lobby's
connection. -/
def resultText (text : CString) : Option SqlValue :=
  if text.length ≤ 4096 then some (.text text) else none

/-- `vtColumn`, with nothing where SQLite fails. -/
def vtColumn (column : Nat) (g : Game) : Option SqlValue :=
  if column = 0 then resultText (CString.ofString g.info.id)
  else match g.columnProp column with
    | some (.string v) => resultText (CString.ofString v)
    | some (.bool v) => some (.integer v.toInt)
    | some (.int32 v) => some (.integer v)
    | some (.int64 v) => some (.integer v)
    | some (.int16 v) => some (.integer v)
    | some (.byte v) => some (.integer v.toNat)
    | _ => some .null

/-- What the matcher of `vtFilter` reads of the room for a column: `actual_str`, and
`actual_int` where that is numeric. -/
def actual (column : Nat) (g : Game) : Option (CString × Option Int) :=
  let numeric (v : Int) := some (CString.ofInt v, some v)
  if column = 0 then some (CString.ofString g.info.id, none)
  else match g.columnProp column with
    | some (.string v) => some (CString.ofString v, none)
    | some (.int32 v) => numeric v
    | some (.int64 v) => numeric v
    | some (.int16 v) => numeric v
    | some (.byte v) => numeric v.toNat
    | some (.bool v) => numeric (if v then 1 else 0)
    | _ => none

end Game

/-- A constraint, as `vtFilter` reads it from `idxStr` and its argument. -/
structure FilterProp where
  col : Nat
  op : Char
  isNull : Bool
  isNumeric : Bool
  strVal : CString
  intVal : Int

namespace FilterProp

/-- The four tests of an inequality. -/
def testInequality (op : Char) (ord : Ordering) : Bool :=
  if op = '>' ∧ ¬ord = .gt then false
  else if op = '<' ∧ ¬ord = .lt then false
  else if op = ']' ∧ ¬ord ≠ .lt then false
  else if op = '[' ∧ ¬ord ≠ .gt then false
  else true

/-- One turn of the loop of `matches_props`. -/
def matchesGame (s : Sqlite) (g : Game) (prop : FilterProp) : Bool :=
  if prop.isNull then false
  else match g.actual prop.col with
    | none => false
    | some (actualStr, actualInt) =>
      if prop.op = '=' then strICmp actualStr.chars prop.strVal.chars == .eq
      else if prop.op = 'L' then s.strLike prop.strVal actualStr
      else if prop.op = 'G' then s.strGlob prop.strVal actualStr
      else match prop.isNumeric, actualInt with
        | true, some actualInt => testInequality prop.op (compare actualInt prop.intVal)
        | _, _ => testInequality prop.op (strICmp actualStr.chars prop.strVal.chars)

end FilterProp

/-- What `vtFilter` has read of its plan, with the arguments that are left. -/
structure Filters where
  argv : List SqlValue
  filterProps : List FilterProp := []
  filterId : CString := CString.empty
  filterIdIsNull : Bool := false

namespace Filters

/-- The parts of a text that a `;` ends, where the first one starts with `token`. -/
def tokens (token : List Char) : List Char → List (List Char)
  | [] => []
  | c :: text => if c = ';' then token :: tokens [] text else tokens (token ++ [c]) text

/-- The constraint `col op value`, which replaces an earlier `__id =`. -/
def add (s : Sqlite) (col : Nat) (op : Char) (value : SqlValue) (filters : Filters) : Filters :=
  if col = 0 ∧ op = '=' then
    { filters with filterId := s.valueText value, filterIdIsNull := value = .null }
  else
    { filters with
      filterProps := filters.filterProps ++
        [{ col, op, isNull := value = .null, isNumeric := value.isNumeric,
           strVal := s.valueText value, intVal := value.int64 }] }

end Filters

namespace Constraint

variable {c : Constraint}

/-- Whether `vtBestIndex` takes the constraint. -/
def isTaken (c : Constraint) : Bool :=
  c.usable && c.op.opChar.isSome && decide (0 ≤ c.iColumn ∧ c.iColumn ≤ 10)

/-- Whether the constraint is `__id =`. -/
def isById (c : Constraint) : Bool := c.iColumn = 0 && c.op = .eq

/-- The column of a constraint that is taken. -/
def col (c : Constraint) : Nat := c.iColumn.toNat

/-- What stands for the constraint in `idxStr`. -/
def token (c : Constraint) : List Char := Nat.toDigits 10 c.col ++ c.op.opChar.toList

end Constraint

namespace Filters

/-- The constraint as `vtFilter` reads it. -/
def read (s : Sqlite) (filters : Filters) (c : Constraint) : Filters :=
  add s c.col (c.op.opChar.getD ' ') c.operand filters

end Filters

namespace App

end App

end LuxonServer
