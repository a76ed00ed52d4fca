import LuxonServer.Lib.ListSet
import LuxonServer.Value

/-! The models of operations: how a request's parameter list is decoded into a view, a view is
copied into a model, and a model is encoded as a parameter list. -/

namespace LuxonServer

/-- `ser::Value` as the models use it: a union with one alternative for each wire type. -/
structure WireFormat where
  Value : Type
  Tag : Type
  Payload : Tag → Type
  make : (t : Tag) → Payload t → Value
  getPtr : (t : Tag) → Value → Option (Payload t)
  isNull : Value → Bool
  /-- `value_type{}`. -/
  empty : (t : Tag) → Payload t
  /-- Whether the alternative is not trivially copyable, so that a view refers to it. -/
  byRef : Tag → Bool
  /-- `value_type_name`. -/
  typeName : Tag → String
  /-- `actual_type_name`. -/
  actualTypeName : Value → String
  /-- `static_cast<std::uint64_t>(raw)`. -/
  toUInt64 : (t : Tag) → Payload t → UInt64
  getPtr_eq_some : ∀ {t v x}, getPtr t v = some x ↔ v = make t x

/-- An enumeration over a wire type: its name, and `magic_enum::enum_contains`. -/
structure Enumeration (α : Type) where
  name : String
  contains : α → Bool

variable {W : WireFormat}

/-- `Parameter`.  The values of an enumeration are those of its wire type. -/
structure Parameter (W : WireFormat) where
  wireKey : UInt8
  /-- `param_display_name`. -/
  displayName : String
  wireType : W.Tag
  enumeration : Option (Enumeration (W.Payload wireType)) := none
  optional : Bool := false
  default : Option (W.Payload wireType) := none

/-- `ser::ParameterList`, in the order in which a loop over it meets its entries. -/
abbrev ParameterList (W : WireFormat) := AList fun _ : UInt8 => W.Value

/-- The error responses of `decode`. -/
structure DecodeError where
  operationCode : UInt8
  /-- `ErrorCodes::Core::OperationInvalid`. -/
  returnCode : Int := -2
  debugMessage : String
  deriving DecidableEq, Repr

/-- `std::conditional_t<optional, std::optional<T>, T>`. -/
def MaybeOptional (optional : Bool) (α : Type) : Type :=
  match optional with
  | true => Option α
  | false => α

namespace MaybeOptional

variable {α β : Type}

/-- Assignment of a value. -/
def of : (optional : Bool) → α → MaybeOptional optional α
  | true, a => some a
  | false, a => a

/-- `std::nullopt`, or else `a`. -/
def nulloptOr : (optional : Bool) → α → MaybeOptional optional α
  | true, _ => none
  | false, a => a

/-- `reset`, which only an optional has. -/
def reset : (optional : Bool) → MaybeOptional optional α → MaybeOptional optional α
  | true, _ => none
  | false, a => a

/-- The value, where there is one. -/
def toOption : (optional : Bool) → MaybeOptional optional α → Option α
  | true, a => a
  | false, a => some a

/-- A copy by `f`, which may fail. -/
def mapM (f : α → Option β) : (optional : Bool) → MaybeOptional optional α →
    Option (MaybeOptional optional β)
  | true, none => some none
  | true, some a => (f a).map some
  | false, a => f a

end MaybeOptional

/-- One value of a family for each parameter of a model. -/
inductive Fields (F : Parameter W → Type) : List (Parameter W) → Type where
  | nil : Fields F []
  | cons {p : Parameter W} {ps : List (Parameter W)} (value : F p) (rest : Fields F ps) :
    Fields F (p :: ps)

namespace Parameter

/-- `expected_type_string`. -/
def expectedType (p : Parameter W) : String :=
  match p.enumeration with
  | some e => "enum<" ++ e.name ++ "> (encoded as " ++ W.typeName p.wireType ++ ")"
  | none => W.typeName p.wireType

/-- The name and the key of a parameter in a message. -/
def label (p : Parameter W) : String :=
  "'" ++ p.displayName ++ "' (wire_key=" ++ toString p.wireKey.toNat ++ ")"

/-- `make_missing_error`. -/
def missingError (p : Parameter W) (operationCode : UInt8) : DecodeError where
  operationCode
  debugMessage :=
    "Missing required parameter " ++ p.label ++ ", expected type " ++ p.expectedType ++ "."

/-- `make_required_null_error`. -/
def requiredNullError (p : Parameter W) (operationCode : UInt8) : DecodeError where
  operationCode
  debugMessage :=
    "Invalid null for required parameter " ++ p.label ++ ", expected type " ++ p.expectedType ++ "."

/-- `make_type_mismatch_error`. -/
def typeMismatchError (p : Parameter W) (operationCode : UInt8) (src : W.Value) : DecodeError where
  operationCode
  debugMessage :=
    "Type mismatch for parameter " ++ p.label ++ ": expected " ++ W.typeName p.wireType ++
      ", got " ++ W.actualTypeName src ++ "."

/-- `make_invalid_enum_value_error`. -/
def invalidEnumValueError (p : Parameter W) (operationCode : UInt8) (raw : W.Payload p.wireType)
    (e : Enumeration (W.Payload p.wireType)) : DecodeError where
  operationCode
  debugMessage :=
    "Invalid enum value for parameter " ++ p.label ++ ": value " ++
      toString (W.toUInt64 p.wireType raw).toNat ++ " is not valid in " ++ e.name ++ "."

/-- What a model holds of a parameter, `stored_type`. -/
abbrev Stored (p : Parameter W) : Type := MaybeOptional p.optional (W.Payload p.wireType)

/-- `view_by_ref_v`. -/
def byRef (p : Parameter W) : Bool := W.byRef p.wireType && p.enumeration.isNone

/-- What a view holds for a value: the value, or a reference to the value in the request, to
`view_default_object`, or to `view_empty_object`. -/
inductive Held (p : Parameter W) where
  | value (v : W.Payload p.wireType)
  | request
  | defaultObject
  | emptyObject

/-- `ViewField::stored_type`. -/
abbrev View (p : Parameter W) : Type := MaybeOptional p.optional p.Held

/-- `ViewField::make_default`. -/
def makeDefault (p : Parameter W) : p.View :=
  match p.default with
  | some v => .of p.optional (if p.byRef then .defaultObject else .value v)
  | none =>
    .nulloptOr p.optional (if p.byRef then .emptyObject else .value (W.empty p.wireType))

/-- The value behind what a view holds, in the request that it was decoded from. -/
def read (parameters : ParameterList W) (p : Parameter W) : p.Held → Option (W.Payload p.wireType)
  | .value v => some v
  | .request => (parameters.lookup p.wireKey).bind (W.getPtr p.wireType)
  | .defaultObject => p.default
  | .emptyObject => some (W.empty p.wireType)

/-- A parameter while a request is decoded. -/
structure Decoding (p : Parameter W) where
  view : p.View
  seen : Bool := false
  err : Option DecodeError := none

/-- `decode_one_into`. -/
def decodeOneInto (p : Parameter W) (operationCode : UInt8) (src : W.Value) (st : p.Decoding) :
    p.Decoding :=
  let st := { st with seen := true }
  if W.isNull src then
    if p.optional then { st with view := .reset p.optional st.view }
    else if p.default.isNone then { st with err := some (p.requiredNullError operationCode) }
    else st
  else
    match W.getPtr p.wireType src with
    | none => { st with err := some (p.typeMismatchError operationCode src) }
    | some raw =>
      match p.enumeration with
      | some e =>
        if e.contains raw then { st with view := .of p.optional (.value raw) }
        else { st with err := some (p.invalidEnumValueError operationCode raw e) }
      | none =>
        { st with view := .of p.optional (if p.byRef then .request else .value raw) }

/-- `check_one`. -/
def checkOne (p : Parameter W) (operationCode : UInt8) (st : p.Decoding) : Option DecodeError :=
  match st.err with
  | some e => some e
  | none =>
    if !st.seen && !(p.optional || p.default.isSome) then some (p.missingError operationCode)
    else none

end Parameter

/-- A list of parameters, as the template argument of `Model` and `ModelView`. -/
abbrev Model (W : WireFormat) := List (Parameter W)

namespace Model

/-- `reset_defaults`. -/
def initial : (ps : Model W) → Fields Parameter.Decoding ps
  | [] => .nil
  | p :: ps => .cons { view := p.makeDefault } (initial ps)

/-- The call of the handler of a key, which is that of the last parameter with the key. -/
def handle (operationCode : UInt8) (key : UInt8) (src : W.Value) :
    (ps : Model W) → Fields Parameter.Decoding ps → Fields Parameter.Decoding ps
  | [], .nil => .nil
  | p :: ps, .cons st rest =>
    if ps.any fun q => q.wireKey == key then .cons st (handle operationCode key src ps rest)
    else if p.wireKey == key then .cons (p.decodeOneInto operationCode src st) rest
    else .cons st rest

/-- The first error of the parameters in their order. -/
def fail (operationCode : UInt8) : (ps : Model W) → Fields Parameter.Decoding ps →
    Option DecodeError
  | [], .nil => none
  | p :: ps, .cons st rest => (p.checkOne operationCode st).or (fail operationCode ps rest)

def views : (ps : Model W) → Fields Parameter.Decoding ps → Fields Parameter.View ps
  | [], .nil => .nil
  | _ :: ps, .cons st rest => .cons st.view (views ps rest)

/-- `ModelView::decode`. -/
def decode (ps : Model W) (operationCode : UInt8) (parameters : ParameterList W) :
    Except DecodeError (Fields Parameter.View ps) :=
  let st := parameters.entries.foldl (fun st entry => handle operationCode entry.1 entry.2 ps st)
    (initial ps)
  match fail operationCode ps st with
  | some e => .error e
  | none => .ok (views ps st)

/-- `ModelView::materialize`, while the request that was decoded is there. -/
def materialize (parameters : ParameterList W) : (ps : Model W) → Fields Parameter.View ps →
    Option (Fields Parameter.Stored ps)
  | [], .nil => some .nil
  | p :: ps, .cons view rest => do
    let stored ← view.mapM (p.read parameters) p.optional
    let others ← materialize parameters ps rest
    some (.cons stored others)

/-- The message of an enumeration value that cannot be encoded. -/
def encodeError (p : Parameter W) (raw : W.Payload p.wireType)
    (e : Enumeration (W.Payload p.wireType)) : String :=
  "Cannot encode parameter " ++ p.label ++ ": enum value " ++
    toString (W.toUInt64 p.wireType raw).toNat ++ " is not valid in " ++ e.name ++ "."

/-- The loop of `Model::encode`. -/
def encodeInto : (ps : Model W) → Fields Parameter.Stored ps → ParameterList W →
    Except String (ParameterList W)
  | [], .nil, parameters => .ok parameters
  | p :: ps, .cons stored rest, parameters =>
    match stored.toOption p.optional with
    | none => encodeInto ps rest parameters
    | some v =>
      match p.enumeration.filter fun e => !e.contains v with
      | some e => .error (encodeError p v e)
      | none => encodeInto ps rest (parameters.insert p.wireKey (W.make p.wireType v))

/-- `Model::encode`. -/
def encode (ps : Model W) (stored : Fields Parameter.Stored ps) :
    Except String (ParameterList W) :=
  encodeInto ps stored ∅

end Model

/-- The alternatives of `Value`. -/
inductive ValueTag where
  | null
  | byte
  | bool
  | int16
  | int32
  | int64
  | string
  | stringArray
  | other
  deriving DecidableEq, Repr

namespace Value

/-- The alternative that a value has. -/
def tag : Value → ValueTag
  | .null => .null
  | .byte _ => .byte
  | .bool _ => .bool
  | .int16 _ => .int16
  | .int32 _ => .int32
  | .int64 _ => .int64
  | .string _ => .string
  | .stringArray _ => .stringArray
  | .other _ _ => .other

/-- What a value of an alternative holds. -/
abbrev Payload : ValueTag → Type
  | .null => Unit
  | .byte => UInt8
  | .bool => Bool
  | .int16 | .int32 | .int64 => Int
  | .string => String
  | .stringArray => List String
  | .other => UInt8 × List UInt8

/-- The value of an alternative. -/
def make : (t : ValueTag) → Payload t → Value
  | .null, _ => .null
  | .byte, v => .byte v
  | .bool, v => .bool v
  | .int16, v => .int16 v
  | .int32, v => .int32 v
  | .int64, v => .int64 v
  | .string, v => .string v
  | .stringArray, v => .stringArray v
  | .other, v => .other v.1 v.2

/-- `get_ptr`. -/
def getPtr : (t : ValueTag) → Value → Option (Payload t)
  | .null, .null => some ()
  | .byte, .byte v => some v
  | .bool, .bool v => some v
  | .int16, .int16 v => some v
  | .int32, .int32 v => some v
  | .int64, .int64 v => some v
  | .string, .string v => some v
  | .stringArray, .stringArray v => some v
  | .other, .other tag encoding => some (tag, encoding)
  | _, _ => none

theorem getPtr_eq_some {t : ValueTag} {v : Value} {x : Payload t} :
    getPtr t v = some x ↔ v = make t x := by
  cases t <;> cases v <;> simp [getPtr, make, Prod.ext_iff]

/-- `value_type_name`; the alternatives behind `other` have their names from `otherName`. -/
def typeName : ValueTag → String
  | .null => "null"
  | .byte => "byte"
  | .bool => "bool"
  | .int16 => "int16"
  | .int32 => "int32"
  | .int64 => "int64"
  | .string => "string"
  | .stringArray => "string[]"
  | .other => "unknown"

/-- `Value` as the models use it. -/
def wireFormat (otherName : UInt8 → String) : WireFormat where
  Value := Value
  Tag := ValueTag
  Payload := Payload
  make := make
  getPtr := getPtr
  isNull v := v == .null
  empty
    | .null => ()
    | .byte => 0
    | .bool => false
    | .int16 | .int32 | .int64 => 0
    | .string => ""
    | .stringArray => []
    | .other => (0, [])
  byRef
    | .string | .stringArray | .other => true
    | _ => false
  typeName := typeName
  actualTypeName
    | .other tag _ => otherName tag
    | v => typeName v.tag
  toUInt64
    | .byte, v => v.toUInt64
    | .int16, v | .int32, v | .int64, v => UInt64.ofInt v
    | _, _ => 0
  getPtr_eq_some := getPtr_eq_some

end Value

namespace Model

variable (otherName : UInt8 → String)

/-- `models::TokenAuth`. -/
def tokenAuth : Model (Value.wireFormat otherName) :=
  [{ wireKey := 221, displayName := "Token", wireType := .string }]

/-- `models::StandardAuth`. -/
def standardAuth : Model (Value.wireFormat otherName) :=
  [{ wireKey := 224, displayName := "ApplicationId", wireType := .string },
    { wireKey := 217
      displayName := "ClientAuthenticationType"
      wireType := .byte
      default := some (0 : UInt8) },
    { wireKey := 216
      displayName := "ClientAuthenticationParameters"
      wireType := .string
      default := some "" },
    { wireKey := 220, displayName := "AppVersion", wireType := .string, optional := true },
    { wireKey := 225, displayName := "UserId", wireType := .string, optional := true }]

end Model

end LuxonServer
