import LuxonServer.Http.Path

/-! The JSON values of a batch, and the pointers into them as the vendored library resolves
them. -/

namespace LuxonServer

/-- A JSON value; a number is the text that `dump` writes for it. -/
inductive Json where
  | null
  | bool (b : Bool)
  | number (text : Bytes)
  | string (s : Bytes)
  | array (items : List Json)
  | object (fields : List (Bytes × Json))

/-- `json::exception`: its number, and its text without the prefix that names it. -/
structure JsonException where
  id : Nat
  what : Bytes
  deriving DecidableEq, Repr

namespace Json

/-- `is_array`. -/
def isArray : Json → Bool
  | .array _ => true
  | _ => false

/-- `type_name`. -/
def typeName : Json → Bytes
  | .null => ascii "null"
  | .bool _ => ascii "boolean"
  | .number _ => ascii "number"
  | .string _ => ascii "string"
  | .array _ => ascii "array"
  | .object _ => ascii "object"

def field? (key : Bytes) : Json → Option Json
  | .object fields => (fields.find? (·.1 == key)).map (·.2)
  | _ => none

/-- `at` with a key. -/
def atKey (key : Bytes) (j : Json) : Except JsonException Json :=
  match j with
  | .object fields =>
    match (fields.find? (·.1 == key)).map (·.2) with
    | some value => .ok value
    | none => .error ⟨403, ascii "key '" ++ key ++ ascii "' not found"⟩
  | j => .error ⟨304, ascii "cannot use at() with " ++ j.typeName⟩

/-- `get<std::string>`. -/
def getString : Json → Except JsonException Bytes
  | .string s => .ok s
  | j => .error ⟨302, ascii "type must be string, but is " ++ j.typeName⟩

/-- `value` with a string as the default. -/
def valueOr (key default_ : Bytes) (j : Json) : Except JsonException Bytes :=
  match j with
  | .object _ =>
    match j.field? key with
    | some value => value.getString
    | none => .ok default_
  | j => .error ⟨306, ascii "cannot use value() with " ++ j.typeName⟩

end Json

namespace JsonPointer

/-- `~`. -/
def tilde : UInt8 := 0x7E

/-- The escapes of a reference token: `~0` is `~`, and `~1` is `/`. -/
def unescape : Bytes → Option Bytes
  | [] => some []
  | c :: rest =>
    if c = tilde then
      match rest with
      | 0x30 :: rest => (unescape rest).map (tilde :: ·)
      | 0x31 :: rest => (unescape rest).map (Http.slash :: ·)
      | _ => none
    else (unescape rest).map (c :: ·)

/-- The reference tokens, from their texts. -/
def unescapeAll : List Bytes → Except JsonException (List Bytes)
  | [] => .ok []
  | token :: tokens =>
    match unescape token with
    | none => .error ⟨108, ascii "escape character '~' must be followed with '0' or '1'"⟩
    | some token => (unescapeAll tokens).map (token :: ·)

/-- The constructor of `json_pointer`. -/
def parse : Bytes → Except JsonException (List Bytes)
  | [] => .ok []
  | c :: rest =>
    if c = Http.slash then unescapeAll (rest.splitOn Http.slash)
    else .error ⟨107, ascii "JSON pointer must be empty or begin with '/' - was: '" ++ c :: rest ++
      ascii "'"⟩

/-- Whether a character is a digit. -/
def isDigit (c : UInt8) : Bool := 0x30 ≤ c && c ≤ 0x39

/-- `array_index`. -/
def arrayIndex (s : Bytes) : Except JsonException Nat :=
  if s.length > 1 ∧ s.head? = some 0x30 then
    .error ⟨106, ascii "array index '" ++ s ++ ascii "' must not begin with '0'"⟩
  else if s.length > 1 ∧ (s.head?.all isDigit) = false then
    .error ⟨109, ascii "array index '" ++ s ++ ascii "' is not a number"⟩
  else
    let n := s.foldl (fun n c => 10 * n + (c.toNat - 0x30)) 0
    if s = [] ∨ s.all isDigit = false ∨ n ≥ 2 ^ 64 then
      .error ⟨404, ascii "unresolved reference token '" ++ s ++ ascii "'"⟩
    else if n ≥ 2 ^ 64 - 1 then
      .error ⟨410, ascii "array index " ++ s ++ ascii " exceeds size_type"⟩
    else .ok n

/-- One token of `get_checked`. -/
def step (token : Bytes) (j : Json) : Except JsonException Json :=
  match j with
  | .object _ => j.atKey token
  | .array items =>
    if token = ascii "-" then
      .error ⟨402, ascii s!"array index '-' ({items.length}) is out of range"⟩
    else
      match arrayIndex token with
      | .error e => .error e
      | .ok i =>
        match items[i]? with
        | some item => .ok item
        | none => .error ⟨401, ascii s!"array index {i} is out of range"⟩
  | _ => .error ⟨404, ascii "unresolved reference token '" ++ token ++ ascii "'"⟩

/-- `get_checked`. -/
def getChecked : List Bytes → Json → Except JsonException Json
  | [], j => .ok j
  | token :: tokens, j =>
    match step token j with
    | .ok j => getChecked tokens j
    | .error e => .error e

end JsonPointer

/-- `at` with a pointer. -/
def Json.at (pointer : Bytes) (j : Json) : Except JsonException Json :=
  match JsonPointer.parse pointer with
  | .ok tokens => JsonPointer.getChecked tokens j
  | .error e => .error e

end LuxonServer
