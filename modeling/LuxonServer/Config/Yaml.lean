import Mathlib.Data.String.Basic
import LuxonServer.Lib.OrderedMap

/-! The nodes of a YAML document: what looking a key up does to a map, and the conversions of a
scalar.  A conversion that finds no number leaves an uninitialized variable. -/

namespace LuxonServer

open OrderedMap (lookup)

/-- A node.  A map has its entries in the order of their keys. -/
inductive YamlNode where
  | none
  | scalar (data : String)
  | sequence (nodes : List YamlNode)
  | map (entries : List (String × YamlNode))

/-- The entries of a map. -/
abbrev YamlMap := List (String × YamlNode)

/-- What an uninitialized variable holds, by the path of the node that it is for. -/
abbrev Stale := String → UInt32

/-- `isspace`. -/
def isSpace (c : Char) : Bool :=
  c = ' ' || c = '\t' || c = '\n' || c = '\x0b' || c = '\x0c' || c = '\r'

/-- The digits that a text begins with. -/
def leadingDigits (text : List Char) : List Nat :=
  (text.takeWhile Char.isDigit).map fun c => c.toNat - '0'.toNat

def numberOf (digits : List Nat) : Nat :=
  digits.foldl (fun n digit => 10 * n + digit) 0

/-- `ss >> type` for an unsigned number of `width` bits; nothing is stored when there is no text
past the white space.  What is out of range is stored as the greatest number, and what is not a
number as 0. -/
def extract (width : Nat) (data : String) : Option Nat :=
  match data.toList.dropWhile isSpace with
  | [] => none
  | c :: text =>
    let magnitude := numberOf (leadingDigits (if c = '-' ∨ c = '+' then text else c :: text))
    some (
      if 2 ^ width ≤ magnitude then 2 ^ width - 1
      else if c = '-' then (2 ^ width - magnitude) % 2 ^ width
      else magnitude)

/-- `StringConverter`. -/
class StringConverter (α : Type) where
  get (stale : Stale) (path data : String) : α

instance : StringConverter String where
  get _ _ data := data

instance : StringConverter Bool where
  get _ _ data :=
    let tmpData := data.map Char.toLower
    tmpData = "true" || tmpData = "yes" || tmpData = "1"

instance : StringConverter UInt16 where
  get stale path data := (extract 16 data).elim (stale path).toUInt16 UInt16.ofNat

instance : StringConverter UInt32 where
  get stale path data := (extract 32 data).elim (stale path) UInt32.ofNat

namespace YamlNode

/-- `IsNone`. -/
def isNone : YamlNode → Bool
  | none => true
  | _ => false

/-- `AsString`. -/
def asString : YamlNode → String
  | scalar data => data
  | _ => ""

/-- `As<T>`. -/
def as {α : Type} [StringConverter α] (stale : Stale) (path : String) (node : YamlNode) : α :=
  StringConverter.get stale path node.asString

end YamlNode

/-- `MapImp::GetNode`: the node of a key, and the map, in which there is one afterwards. -/
def getNode (key : String) (entries : YamlMap) : YamlNode × YamlMap :=
  ((lookup key entries).getD .none, OrderedMap.insert key .none entries)

/-- The node that `map[key]` refers to. -/
def child (key : String) (entries : YamlMap) : YamlNode := (getNode key entries).1

/-- An earlier lookup does not show in a later one. -/
theorem child_getNode {entries : YamlMap} (hsorted : OrderedMap.Sorted entries)
    (key key' : String) : child key (getNode key' entries).2 = child key entries := by
  show (lookup key (OrderedMap.insert key' .none entries)).getD .none =
    (lookup key entries).getD .none
  rw [OrderedMap.lookup_insert hsorted]
  split
  · next heq => rw [heq]; rfl
  · rfl

end LuxonServer
