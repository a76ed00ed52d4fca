import LuxonServer.Pfr.Value
import Mathlib.Data.List.AList

/-! `pfr_codec`: the types that have an encoding, as a universe of their shapes, and the two
directions of the codec by recursion on them. -/

namespace LuxonServer.Pfr

inductive IntWidth where
  | bits8
  | bits16
  | bits32
  | bits64
  deriving DecidableEq, Repr

def IntWidth.bits : IntWidth → Nat
  | bits8 => 8
  | bits16 => 16
  | bits32 => 32
  | bits64 => 64

inductive EnumBase where
  | int32
  | uint8
  deriving DecidableEq, Repr

/-- The underlying type, which an alternative holds as it is. -/
def EnumBase.native : EnumBase → Native
  | int32 => .int32
  | uint8 => .uint8

mutual

/-- The types for which `encode` and `decode` have a branch. -/
inductive Shape where
  /-- `ser::Value`. -/
  | value
  /-- `ser::Message`, with the shape of its base `MessageVariant`. -/
  | message (base : Shape)
  /-- `std::nullptr_t` and `std::monostate`. -/
  | null
  | optional (t : Shape)
  /-- `std::byte`. -/
  | byte
  | enumeration (base : EnumBase)
  /-- A type that is native, and no vector. -/
  | native (k : Native)
  /-- An integer type that is not native. -/
  | integral (isSigned : Bool) (width : IntWidth)
  | hashtable
  | vector (t : Shape)
  | array (n : Nat) (t : Shape)
  | pair (first second : Shape)
  | tuple (ts : Shapes)
  | variant (ts : Shapes)
  /-- `std::map` and `std::unordered_map`. -/
  | map (key mapped : Shape)
  | hashtablePtr
  | jaggedArray
  /-- A structure, by its fields. -/
  | struct (ts : Shapes)

/-- The shapes of the elements of a tuple, the alternatives of a variant, or the fields. -/
inductive Shapes where
  | nil
  | cons (t : Shape) (ts : Shapes)

end

mutual

def Shape.Den : Shape → Type
  | .value => Value
  | .message base => Bool × base.Den
  | .null => Unit
  | .optional t => Option t.Den
  | .byte => BitVec 8
  | .enumeration base => base.native.Payload
  | .native k => k.Payload
  | .integral _ width => BitVec width.bits
  | .hashtable => Hashtable
  | .vector t => List t.Den
  | .array n t => { xs : List t.Den // xs.length = n }
  | .pair first second => first.Den × second.Den
  | .tuple ts => ts.Tuple
  -- A variant may be `valueless_by_exception`.
  | .variant ts => Option ts.Sum
  | .map key mapped => AList fun _ : key.Den => mapped.Den
  | .hashtablePtr => Option Hashtable
  | .jaggedArray => List Value
  | .struct ts => ts.Tuple

def Shapes.Tuple : Shapes → Type
  | .nil => Unit
  | .cons t ts => t.Den × ts.Tuple

def Shapes.Sum : Shapes → Type
  | .nil => Empty
  | .cons t ts => t.Den ⊕ ts.Sum

end

def Shapes.length : Shapes → Nat
  | nil => 0
  | cons _ ts => ts.length + 1

section Equality

-- `operator==` of `ser::Value`.
variable [DecidableEq Value]

mutual

/-- Values are equal as their contents are, which the keys of a map are compared by. -/
def Shape.decEq : (t : Shape) → DecidableEq t.Den
  | .value => inferInstanceAs (DecidableEq Value)
  | .message base =>
    have := base.decEq
    inferInstanceAs (DecidableEq (Bool × base.Den))
  | .null => inferInstanceAs (DecidableEq Unit)
  | .optional t =>
    have := t.decEq
    inferInstanceAs (DecidableEq (Option t.Den))
  | .byte => inferInstanceAs (DecidableEq (BitVec 8))
  | .enumeration base => base.native.decEq
  | .native k => k.decEq
  | .integral _ width => inferInstanceAs (DecidableEq (BitVec width.bits))
  | .hashtable => inferInstanceAs (DecidableEq (List (Value × Value)))
  | .vector t =>
    have := t.decEq
    inferInstanceAs (DecidableEq (List t.Den))
  | .array n t =>
    have := t.decEq
    inferInstanceAs (DecidableEq { xs : List t.Den // xs.length = n })
  | .pair first second =>
    have := first.decEq
    have := second.decEq
    inferInstanceAs (DecidableEq (first.Den × second.Den))
  | .tuple ts => ts.decEqTuple
  | .variant ts =>
    have := ts.decEqSum
    inferInstanceAs (DecidableEq (Option ts.Sum))
  | .map key mapped =>
    have := key.decEq
    have := mapped.decEq
    inferInstanceAs (DecidableEq (AList fun _ : key.Den => mapped.Den))
  | .hashtablePtr => inferInstanceAs (DecidableEq (Option (List (Value × Value))))
  | .jaggedArray => inferInstanceAs (DecidableEq (List Value))
  | .struct ts => ts.decEqTuple

def Shapes.decEqTuple : (ts : Shapes) → DecidableEq ts.Tuple
  | .nil => inferInstanceAs (DecidableEq Unit)
  | .cons t ts =>
    have := t.decEq
    have := ts.decEqTuple
    inferInstanceAs (DecidableEq (t.Den × ts.Tuple))

def Shapes.decEqSum : (ts : Shapes) → DecidableEq ts.Sum
  | .nil => inferInstanceAs (DecidableEq Empty)
  | .cons t ts =>
    have := t.decEq
    have := ts.decEqSum
    inferInstanceAs (DecidableEq (t.Den ⊕ ts.Sum))

end

end Equality

/-- `static_cast` between integer types, from one that is signed or not. -/
def castInt {n : Nat} (isSigned : Bool) (width : Nat) (x : BitVec n) : BitVec width :=
  if isSigned then x.signExtend width else x.setWidth width

/-- `static_cast` of a floating-point number to an integer: outside of the integer type, it is the
platform's. -/
structure FloatCasts where
  float : BitVec 32 → Int
  double : BitVec 64 → Int

/-- `child_path`. -/
def childPath (base : String) (index : Nat) : String := base ++ "[" ++ toString index ++ "]"

/-- The elements of a list, one after another, from an index on. -/
def encodeElements (path : String) (depth : Nat) :
    Nat → List (String → Nat → Except PfrError Value) → Except PfrError (List Value)
  | _, [] => .ok []
  | index, element :: elements => do
    let v ← element (childPath path index) (depth + 1)
    let rest ← encodeElements path depth (index + 1) elements
    return v :: rest

section Vectors

variable {α : Type}

/-- The vectors that an alternative holds as they are: `is_exact_native` of a vector of the type. -/
def Shape.isExactVector : Shape → Bool
  | .native k => k.hasVector
  | .value | .hashtablePtr => true
  | _ => false

/-- The alternatives that `encode_range` has for whole ranges. -/
def Shape.packRange : (t : Shape) → List t.Den → Option Value
  | .byte, xs => some (.natives .uint8 xs)
  | .native k, xs => if k.hasVector then some (.natives k xs) else none
  | .value, xs => some (.objectArray xs)
  | .hashtablePtr, xs => some (.hashtables xs)
  | .hashtable, xs => some (.hashtables (xs.map some))
  | _, _ => none

/-- `encode_range`. -/
def encodeRange (packed : Option Value) (elements : List (String → Nat → Except PfrError Value))
    (path : String) (depth : Nat) : Except PfrError Value :=
  match packed with
  | some v => .ok v
  | none => .objectArray <$> encodeElements path depth 0 elements

def derefTables (path : String) : Nat → List (Option Hashtable) → Except PfrError (List Hashtable)
  | _, [] => .ok []
  | index, none :: _ => .error ⟨childPath path index, "null hashtable pointer"⟩
  | index, some table :: tables => do
    let rest ← derefTables path (index + 1) tables
    return table :: rest

/-- `try_direct_vector`. -/
def Shape.tryDirectVector : (t : Shape) → Value → String → Option (Except PfrError (List t.Den))
  | .byte, v, _ => (v.natives? .uint8).map .ok
  | .native k, v, _ => if k.hasVector then (v.natives? k).map .ok else none
  | .value, v, _ => v.asListPtr.map .ok
  | .hashtablePtr, v, _ => v.hashtables?.map .ok
  | .hashtable, v, path => v.hashtables?.map (derefTables path 0)
  | _, _, _ => none

def decodeElements (decode : Value → String → Nat → Except PfrError α) (path : String)
    (depth : Nat) : Nat → List Value → Except PfrError (List α)
  | _, [] => .ok []
  | index, v :: vs => do
    let x ← decode v (childPath path index) (depth + 1)
    let rest ← decodeElements decode path depth (index + 1) vs
    return x :: rest

/-- `decode` for a vector, after the check of the depth. -/
def decodeVector (direct : Option (Except PfrError (List α)))
    (decode : Value → String → Nat → Except PfrError α) (v : Value) (path : String) (depth : Nat) :
    Except PfrError (List α) :=
  match direct with
  | some result => result
  | none =>
    match v.asListPtr with
    | some list => decodeElements decode path depth 0 list
    | none => .error (typeError path "vector/list" v)

def pairOf (expected message : String) (v : Value) (path : String) :
    Except PfrError (Value × Value) :=
  match v.asListPtr with
  | none => .error (typeError path expected v)
  | some [first, second] => .ok (first, second)
  | some _ => .error ⟨path, message⟩

/-- A list of the values of a tuple, or of the fields of a structure. -/
def tupleOf (expected what : String) (n : Nat) (v : Value) (path : String) :
    Except PfrError (List Value) :=
  match v.asListPtr with
  | none => .error (typeError path expected v)
  | some list =>
    if list.length = n then .ok list
    else .error ⟨path, "expected " ++ what ++ toString n ++ ", got " ++ toString list.length⟩

end Vectors

section Maps

variable {κ β : Type} [DecidableEq κ]

/-- `insert_or_assign`; the entries stand in the order in which their keys have come. -/
def insertOrAssign (key : κ) (mapped : β) (m : AList fun _ : κ => β) : AList fun _ : κ => β :=
  if h : key ∈ m then m.replace key mapped
  else ⟨m.entries ++ [⟨key, mapped⟩],
    (List.perm_nodupKeys (List.perm_append_singleton _ _)).mpr
      (List.nodupKeys_cons.mpr ⟨h, m.nodupKeys⟩)⟩

/-- The entries of a map, one after another, from an index on. -/
def encodeEntries (path : String) (depth : Nat) :
    Nat → List ((String → Nat → Except PfrError Value) × (String → Nat → Except PfrError Value)) →
      Except PfrError (List Value)
  | _, [] => .ok []
  | index, (key, mapped) :: entries => do
    let k ← key (childPath (childPath path index) 0) (depth + 1)
    let v ← mapped (childPath (childPath path index) 1) (depth + 1)
    let rest ← encodeEntries path depth (index + 1) entries
    return .objectArray [k, v] :: rest

/-- The loop that reads a map, with the entries read so far. -/
def decodeEntries (decodeKey : Value → String → Nat → Except PfrError κ)
    (decodeMapped : Value → String → Nat → Except PfrError β) (path : String) (depth : Nat) :
    Nat → (AList fun _ : κ => β) → List Value → Except PfrError (AList fun _ : κ => β)
  | _, m, [] => .ok m
  | index, m, v :: vs =>
    match v.asListPtr with
    | some [first, second] => do
      let k ← decodeKey first (childPath (childPath path index) 0) (depth + 1)
      let x ← decodeMapped second (childPath (childPath path index) 1) (depth + 1)
      decodeEntries decodeKey decodeMapped path depth (index + 1) (insertOrAssign k x m) vs
    | _ => .error ⟨childPath path index, "expected map entry as list of size 2"⟩

end Maps

/-- An integer of a type that is not native. -/
def encodeIntegral (isSigned : Bool) (width : IntWidth) (x : BitVec width.bits) : Value :=
  match width with
  | .bits8 | .bits16 => .native .int32 (castInt isSigned 32 x)
  | .bits32 | .bits64 => .native .int64 (castInt isSigned 64 x)

/-- A number of whatever type, cast to an integer. -/
def decodeIntegral (casts : FloatCasts) (n : Nat) (v : Value) (path : String) :
    Except PfrError (BitVec n) :=
  match v.target with
  | .native .uint8 x => .ok (castInt false n (x : BitVec 8))
  | .native .int16 x => .ok (castInt true n (x : BitVec 16))
  | .native .int32 x => .ok (castInt true n (x : BitVec 32))
  | .native .int64 x => .ok (castInt true n (x : BitVec 64))
  | .native .float x => .ok (BitVec.ofInt n (casts.float x))
  | .native .double x => .ok (BitVec.ofInt n (casts.double x))
  | _ => .error (typeError path "numeric type" v)

/-- The error of a value whose alternative is another one. -/
def Native.decodeError (v : Value) (path : String) : Native → PfrError
  | bool => typeError path "bool" v
  | string => typeError path "string" v
  | uint8 | int16 | int32 | int64 | float | double => typeError path "numeric type" v
  | _ => ⟨path, "type mismatch; got " ++ v.kind⟩

/-- The payload of a value, or the error. -/
def expect {α : Type} (payload : Option α) (e : PfrError) : Except PfrError α :=
  payload.elim (.error e) .ok

mutual

/-- `encode`. -/
def Shape.encode (opt : Options) : (t : Shape) → t.Den → String → Nat → Except PfrError Value
  | .value, x, path, depth => opt.check path depth (.ok x)
  | .message base, (encrypted, x), path, depth => opt.check path depth do
    let v ← base.encode opt x (childPath path 1) (depth + 1)
    return .objectArray [.native .bool encrypted, v]
  | .null, _, path, depth => opt.check path depth (.ok .null)
  | .optional _, none, path, depth => opt.check path depth (.ok .null)
  | .optional t, some x, path, depth => opt.check path depth (t.encode opt x path (depth + 1))
  | .byte, x, path, depth => opt.check path depth (.ok (.native .uint8 x))
  | .enumeration base, x, path, depth =>
    opt.check path depth (opt.check path (depth + 1) (.ok (.native base.native x)))
  | .native k, x, path, depth =>
    opt.check path depth (.ok (if k.isScalar then .native k x else opt.hold (.native k x)))
  | .integral isSigned width, x, path, depth =>
    opt.check path depth (.ok (encodeIntegral isSigned width x))
  | .hashtable, x, path, depth => opt.check path depth (.ok (.hashtable (some x)))
  | .vector t, xs, path, depth => opt.check path depth do
    let v ← encodeRange (t.packRange xs) (List.map (fun x => t.encode opt x) xs) path depth
    return if t.isExactVector then opt.hold v else v
  | .array _ t, xs, path, depth => opt.check path depth
    (encodeRange (t.packRange xs.1) (List.map (fun x => t.encode opt x) xs.1) path depth)
  | .pair first second, (x, y), path, depth => opt.check path depth
    (.objectArray <$> encodeElements path depth 0 [first.encode opt x, second.encode opt y])
  | .tuple ts, xs, path, depth => opt.check path depth
    (.objectArray <$> encodeElements path depth 0 (ts.encoders opt xs))
  | .variant _, none, path, depth => opt.check path depth
    (.error ⟨path, "variant is valueless_by_exception"⟩)
  | .variant ts, some x, path, depth => opt.check path depth do
    let v ← ts.encodeAlt opt x (childPath path 1) (depth + 1)
    return .objectArray [.native .int32 (BitVec.ofNat 32 (ts.index x)), v]
  | .map key mapped, m, path, depth => opt.check path depth
    (.objectArray <$> encodeEntries path depth 0
      (m.entries.map fun entry => (key.encode opt entry.1, mapped.encode opt entry.2)))
  | .hashtablePtr, x, path, depth => opt.check path depth (.ok (opt.hold (.hashtable x)))
  | .jaggedArray, xs, path, depth => opt.check path depth (.ok (opt.hold (.jaggedArray xs)))
  | .struct ts, xs, path, depth => opt.check path depth
    (.objectArray <$> encodeElements path depth 0 (ts.encoders opt xs))

def Shapes.encoders (opt : Options) :
    (ts : Shapes) → ts.Tuple → List (String → Nat → Except PfrError Value)
  | .nil, _ => []
  | .cons t ts, (x, xs) => t.encode opt x :: ts.encoders opt xs

def Shapes.encodeAlt (opt : Options) :
    (ts : Shapes) → ts.Sum → String → Nat → Except PfrError Value
  | .cons t _, .inl x => t.encode opt x
  | .cons _ ts, .inr x => ts.encodeAlt opt x

/-- `std::variant::index`. -/
def Shapes.index : (ts : Shapes) → ts.Sum → Nat
  | .cons _ _, .inl _ => 0
  | .cons _ ts, .inr x => ts.index x + 1

end

section Decoding

variable [DecidableEq Value]

mutual

/-- `decode`. -/
def Shape.decode (opt : Options) (casts : FloatCasts) :
    (t : Shape) → Value → String → Nat → Except PfrError t.Den
  | .value, v, path, depth => opt.check path depth (.ok v)
  | .message base, v, path, depth => opt.check path depth do
    let (first, second) ← pairOf "list[2]" "expected list of size 2 for Message" v path
    let encrypted ← opt.check (childPath path 0) (depth + 1)
      (expect (first.native? .bool) (Native.bool.decodeError first (childPath path 0)))
    let x ← base.decode opt casts second (childPath path 1) (depth + 1)
    return (encrypted, x)
  | .null, v, path, depth =>
    opt.check path depth (if v.isNull then .ok () else .error (typeError path "null" v))
  | .optional t, v, path, depth => opt.check path depth
    (if v.isNull then .ok none else some <$> t.decode opt casts v path (depth + 1))
  | .byte, v, path, depth => opt.check path depth
    (expect (v.native? .uint8) (typeError path "uint8_t (for std::byte)" v))
  | .enumeration base, v, path, depth => opt.check path depth
    (expect (v.native? base.native) (typeError path "exact underlying enum type" v))
  | .native k, v, path, depth => opt.check path depth (expect (v.native? k) (k.decodeError v path))
  | .integral _ width, v, path, depth =>
    opt.check path depth (decodeIntegral casts width.bits v path)
  | .hashtable, v, path, depth => opt.check path depth
    -- The branch of the maps, where nothing encodes a `Hashtable` as a list.
    (match v.asListPtr with
    | none => .error (typeError path "map/list" v)
    | some list => do
      let m ← decodeEntries (fun v path depth => opt.check path depth (.ok v))
        (fun v path depth => opt.check path depth (.ok v)) path depth 0 ∅ list
      return m.entries.map fun entry => (entry.1, entry.2))
  | .vector t, v, path, depth => opt.check path depth
    (decodeVector (t.tryDirectVector v path) (t.decode opt casts) v path depth)
  | .array n t, v, path, depth => opt.check path depth do
    let xs ← opt.check path (depth + 1)
      (decodeVector (t.tryDirectVector v path) (t.decode opt casts) v path (depth + 1))
    if h : xs.length = n then .ok ⟨xs, h⟩
    else
      .error ⟨path, "expected array of size " ++ toString n ++ ", got " ++ toString xs.length⟩
  | .pair first second, v, path, depth => opt.check path depth do
    let (a, b) ← pairOf "list[2]" "expected pair encoded as list of size 2" v path
    let x ← first.decode opt casts a (childPath path 0) (depth + 1)
    let y ← second.decode opt casts b (childPath path 1) (depth + 1)
    return (x, y)
  | .tuple ts, v, path, depth => opt.check path depth do
    let list ← tupleOf "list/tuple" "tuple of size " ts.length v path
    ts.decodeTuple opt casts path depth 0 list
  | .variant ts, v, path, depth => opt.check path depth do
    let (index, alt) ←
      pairOf "variant list[2]" "expected variant encoded as list of size 2" v path
    let i ← opt.check (childPath path 0) (depth + 1)
      (decodeIntegral casts 64 index (childPath path 0))
    some <$> ts.decodeAlt opt casts i.toNat alt (childPath path 1) (depth + 1)
  | .map key mapped, v, path, depth => opt.check path depth
    (match v.asListPtr with
    | none => .error (typeError path "map/list" v)
    | some list =>
      have := key.decEq
      decodeEntries (key.decode opt casts) (mapped.decode opt casts) path depth 0 ∅ list)
  | .hashtablePtr, v, path, depth => opt.check path depth
    (expect v.hashtable? ⟨path, "type mismatch; got " ++ v.kind⟩)
  | .jaggedArray, v, path, depth => opt.check path depth
    (expect v.jaggedArray? ⟨path, "type mismatch; got " ++ v.kind⟩)
  | .struct ts, v, path, depth => opt.check path depth do
    let list ← tupleOf "struct/list" "struct field-count " ts.length v path
    ts.decodeTuple opt casts path depth 0 list

/-- `decode_tuple_impl` and `decode_pfr_impl`, from an index on. -/
def Shapes.decodeTuple (opt : Options) (casts : FloatCasts) :
    (ts : Shapes) → String → Nat → Nat → List Value → Except PfrError ts.Tuple
  | .nil, _, _, _, _ => .ok ()
  -- The number of the values has been checked.
  | .cons _ _, path, _, _, [] => .error ⟨path, ""⟩
  | .cons t ts, path, depth, index, v :: vs => do
    let x ← t.decode opt casts v (childPath path index) (depth + 1)
    let xs ← ts.decodeTuple opt casts path depth (index + 1) vs
    return (x, xs)

/-- `decode_variant_alt`. -/
def Shapes.decodeAlt (opt : Options) (casts : FloatCasts) :
    (ts : Shapes) → Nat → Value → String → Nat → Except PfrError ts.Sum
  | .nil, _, _, path, _ => .error ⟨path, "variant index out of range"⟩
  | .cons t _, 0, v, path, depth => .inl <$> t.decode opt casts v path depth
  | .cons _ ts, i + 1, v, path, depth => .inr <$> ts.decodeAlt opt casts i v path depth

end

/-- `from_value`. -/
def Shape.fromValue (opt : Options) (casts : FloatCasts) (t : Shape) (v : Value) :
    Except PfrError t.Den := t.decode opt casts v "$" 0

end Decoding

/-- `to_value`. -/
def Shape.toValue (opt : Options) (t : Shape) (x : t.Den) : Except PfrError Value :=
  t.encode opt x "$" 0

end LuxonServer.Pfr
