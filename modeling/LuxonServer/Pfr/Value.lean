import Mathlib.Data.List.Basic

/-! The values that `pfr_codec` encodes to: a tagged union, one of whose alternatives refers to the
payload of another value. -/

namespace LuxonServer.Pfr

/-- `pfr_codec::error`. -/
structure PfrError where
  path : String := "$"
  message : String := ""
  deriving DecidableEq, Repr

/-- The error of a value that is nested too deep. -/
def PfrError.depth (path : String) : PfrError := ⟨path, "maximum nesting depth exceeded"⟩

/-- The types that an alternative of `ser::Value` holds as they are, but for the recursive ones. -/
inductive Native where
  | bool
  | uint8
  | int16
  | int32
  | int64
  | float
  | double
  | string
  | dictionary
  | genericDictionary
  | rawCustomValue
  | eventMessage
  | operationRequestMessage
  | operationResponseMessage
  | preSerializedValue
  deriving DecidableEq, Repr

namespace Native

/-- The values of the type.  A floating-point number is its bits, and a value that the codec never
looks into is its encoding. -/
def Payload : Native → Type
  | bool => Bool
  | uint8 => BitVec 8
  | int16 => BitVec 16
  | int32 => BitVec 32
  | int64 => BitVec 64
  | float => BitVec 32
  | double => BitVec 64
  | string => String
  | _ => List UInt8

def decEq : (k : Native) → DecidableEq k.Payload
  | bool => inferInstanceAs (DecidableEq Bool)
  | uint8 => inferInstanceAs (DecidableEq (BitVec 8))
  | int16 => inferInstanceAs (DecidableEq (BitVec 16))
  | int32 | float => inferInstanceAs (DecidableEq (BitVec 32))
  | int64 | double => inferInstanceAs (DecidableEq (BitVec 64))
  | string => inferInstanceAs (DecidableEq String)
  | dictionary | genericDictionary | rawCustomValue | eventMessage | operationRequestMessage
  | operationResponseMessage | preSerializedValue => inferInstanceAs (DecidableEq (List UInt8))

/-- Whether a vector of the type is an alternative as well. -/
def hasVector : Native → Bool
  | eventMessage | operationRequestMessage | operationResponseMessage | preSerializedValue => false
  | _ => true

/-- Whether a value of the type is never referred to. -/
def isScalar : Native → Bool
  | bool | uint8 | int16 | int32 | int64 | float | double => true
  | _ => false

def name : Native → String
  | bool => "bool"
  | uint8 => "byte"
  | int16 => "int16"
  | int32 => "int32"
  | int64 => "int64"
  | float => "float"
  | double => "double"
  | string => "string"
  | dictionary => "dictionary"
  | genericDictionary => "generic_dictionary"
  | rawCustomValue => "custom"
  | eventMessage => "event"
  | operationRequestMessage => "operation_request"
  | operationResponseMessage => "operation_response"
  | preSerializedValue => "pre_serialized"

def vectorName : Native → String
  | uint8 => "bytes"
  | k => k.name ++ "[]"

end Native

/-- `ser::Value`. -/
inductive Value where
  | null
  | native (k : Native) (payload : k.Payload)
  | natives (k : Native) (payloads : List k.Payload)
  | objectArray (elements : List Value)
  | jaggedArray (elements : List Value)
  | hashtable (table : Option (List (Value × Value)))
  | hashtables (tables : List (Option (List (Value × Value))))
  /-- A pointer to a payload that is elsewhere. -/
  | ref (target : Value)

/-- `ser::Hashtable`, an unordered map. -/
abbrev Hashtable := List (Value × Value)

namespace Value

/-- The value whose payload `get_ptr` finds. -/
def target : Value → Value
  | ref v => v.target
  | v => v

/-- `get_ptr`. -/
def native? (k : Native) (v : Value) : Option k.Payload :=
  match v.target with
  | native k' payload => if h : k' = k then some (h ▸ payload) else none
  | _ => none

/-- `get_ptr` for a vector. -/
def natives? (k : Native) (v : Value) : Option (List k.Payload) :=
  match v.target with
  | natives k' payloads => if h : k' = k then some (h ▸ payloads) else none
  | _ => none

/-- `get_ptr<HashtablePtr>`. -/
def hashtable? (v : Value) : Option (Option Hashtable) :=
  match v.target with
  | hashtable table => some table
  | _ => none

/-- `get_ptr<std::vector<HashtablePtr>>`. -/
def hashtables? (v : Value) : Option (List (Option Hashtable)) :=
  match v.target with
  | hashtables tables => some tables
  | _ => none

/-- `get_ptr<JaggedArray>`. -/
def jaggedArray? (v : Value) : Option (List Value) :=
  match v.target with
  | jaggedArray elements => some elements
  | _ => none

/-- `as_list_ptr`. -/
def asListPtr (v : Value) : Option (List Value) :=
  match v.target with
  | objectArray elements | jaggedArray elements => some elements
  | _ => none

/-- `is_null`. -/
def isNull (v : Value) : Bool :=
  match v.target with
  | null => true
  | _ => false

/-- `value_kind`. -/
def kind (v : Value) : String :=
  match v.target with
  | null => "null"
  | native k _ => k.name
  | natives k _ => k.vectorName
  | objectArray _ => "object[]"
  | jaggedArray _ => "jagged[]"
  | hashtable _ => "hashtable"
  | hashtables _ => "hashtable[]"
  | ref _ => ""

@[simp] theorem native?_native (k : Native) (payload : k.Payload) :
    (native k payload).native? k = some payload := by
  simp [native?, target]

@[simp] theorem natives?_natives (k : Native) (payloads : List k.Payload) :
    (natives k payloads).natives? k = some payloads := by
  simp [natives?, target]

@[simp] theorem asListPtr_objectArray (elements : List Value) :
    (objectArray elements).asListPtr = some elements := rfl

@[simp] theorem hashtables?_hashtables (tables : List (Option Hashtable)) :
    (hashtables tables).hashtables? = some tables := rfl

@[simp] theorem isNull_objectArray (elements : List Value) :
    (objectArray elements).isNull = false := rfl

end Value

/-- `pfr_codec::options`. -/
structure Options where
  maxDepth : Nat := 64
  zeroCopy : Bool := false

namespace Options

/-- A value, or a reference to it where the caller wants no copies. -/
def hold (v : Value) (opt : Options) : Value := if opt.zeroCopy then .ref v else v

/-- The check of the depth, before everything else. -/
def check {α : Type} (path : String) (depth : Nat) (r : Except PfrError α) (opt : Options) :
    Except PfrError α :=
  if depth > opt.maxDepth then .error (.depth path) else r

theorem target_hold (v : Value) (opt : Options) : (opt.hold v).target = v.target := by
  unfold hold
  split <;> rfl

end Options

/-- `type_error`. -/
def typeError (path expected : String) (v : Value) : PfrError :=
  ⟨path, "expected " ++ expected ++ ", got " ++ v.kind⟩

end LuxonServer.Pfr
