import LuxonServer.Pfr.RoundTrip

/-! The configuration of a process: what the constructor of `ServerManager` keeps of it, which
servers the process binds itself, and what it hands to the subprocess that binds another. -/

namespace LuxonServer

/-- `ServerType`.  A number that names no enumerator is a value of the enumeration as well. -/
inductive ServerType where
  | none
  | nameServer
  | masterServer
  | gameServer
  | unnamed (number : BitVec 32) (hnumber : 3 < number.toNat)
  deriving DecidableEq, Repr

/-- `ServerProtocol`, likewise. -/
inductive ServerProtocol where
  | udp
  | tcp
  | webSocket
  | unnamed (number : BitVec 32) (hnumber : 2 < number.toNat)
  deriving DecidableEq, Repr

structure ProxyConfig where
  protocol : ServerProtocol
  address : String
  deriving DecidableEq, Repr

structure ServerConfig where
  type : ServerType := .none
  port : UInt16 := 0
  allowUnsolicited : Bool := false
  subprocess : Bool := false
  isRoutingOnly : Bool := false
  stunServerHost : String := ""
  stunServerPort : UInt16 := 19302
  externalAddress : String := ""
  proxies : List ProxyConfig := []
  deriving DecidableEq, Repr

structure HttpServerConfig where
  enabled : Bool := false
  address : String := "0.0.0.0"
  port : UInt16 := 5088
  deriving DecidableEq, Repr

structure ServerManagerConfig where
  servers : List ServerConfig := []
  enableIpv6 : Bool := true
  noBanner : Bool := false
  maxConnections : UInt32 := 0
  maxGamePeers : UInt32 := 0
  tickTimeBudget : UInt32 := 2000
  settingsDatabasePath : String := ""
  http : Option HttpServerConfig := .none
  deriving DecidableEq, Repr

section Codec

open Pfr

namespace ServerType

/-- The number of an enumerator. -/
def number : ServerType → BitVec 32
  | none => 0
  | nameServer => 1
  | masterServer => 2
  | gameServer => 3
  | unnamed number _ => number

/-- `static_cast` of a number. -/
def ofNumber (number : BitVec 32) : ServerType :=
  if h : 3 < number.toNat then unnamed number h
  else if number = 0 then none
  else if number = 1 then nameServer
  else if number = 2 then masterServer
  else gameServer

theorem ofNumber_number (x : ServerType) : ofNumber x.number = x := by
  cases x with
  | unnamed number hnumber => exact dif_pos hnumber
  | _ => rfl

end ServerType

namespace ServerProtocol

/-- The number of an enumerator. -/
def number : ServerProtocol → BitVec 32
  | udp => 0
  | tcp => 1
  | webSocket => 2
  | unnamed number _ => number

/-- `static_cast` of a number. -/
def ofNumber (number : BitVec 32) : ServerProtocol :=
  if h : 2 < number.toNat then unnamed number h
  else if number = 0 then udp
  else if number = 1 then tcp
  else webSocket

theorem ofNumber_number (x : ServerProtocol) : ofNumber x.number = x := by
  cases x with
  | unnamed number hnumber => exact dif_pos hnumber
  | _ => rfl

end ServerProtocol

namespace ProxyConfig

/-- The fields, as `pfr_codec` finds them. -/
def shape : Shape := .struct (.cons (.enumeration .int32) (.cons (.native .string) .nil))

def fields (x : ProxyConfig) : shape.Den := (x.protocol.number, x.address, ())

def ofFields : shape.Den → ProxyConfig
  | (protocol, address, _) => { protocol := .ofNumber protocol, address }

theorem ofFields_fields (x : ProxyConfig) : ofFields x.fields = x := by
  simp only [ofFields, fields, ServerProtocol.ofNumber_number]

end ProxyConfig

namespace ServerConfig

def shape : Shape :=
  .struct (.cons (.enumeration .int32) (.cons (.integral false .bits16) (.cons (.native .bool)
    (.cons (.native .bool) (.cons (.native .bool) (.cons (.native .string)
      (.cons (.integral false .bits16) (.cons (.native .string)
        (.cons (.vector ProxyConfig.shape) .nil)))))))))

def fields (x : ServerConfig) : shape.Den :=
  (x.type.number, x.port.toBitVec, x.allowUnsolicited, x.subprocess, x.isRoutingOnly,
    x.stunServerHost, x.stunServerPort.toBitVec, x.externalAddress,
    x.proxies.map ProxyConfig.fields, ())

def ofFields : shape.Den → ServerConfig
  | (type, port, allowUnsolicited, subprocess, isRoutingOnly, stunServerHost, stunServerPort,
      externalAddress, proxies, _) =>
    { type := .ofNumber type
      port := .ofBitVec port
      allowUnsolicited, subprocess, isRoutingOnly, stunServerHost
      stunServerPort := .ofBitVec stunServerPort
      externalAddress
      proxies := List.map ProxyConfig.ofFields proxies }

theorem ofFields_fields (x : ServerConfig) : ofFields x.fields = x := by
  have hproxies : (x.proxies.map ProxyConfig.fields).map ProxyConfig.ofFields = x.proxies := by
    rw [List.map_map, Function.comp_def]
    simp only [ProxyConfig.ofFields_fields, List.map_id']
  simp only [ofFields, fields, ServerType.ofNumber_number, hproxies]

end ServerConfig

namespace HttpServerConfig

def shape : Shape :=
  .struct (.cons (.native .bool) (.cons (.native .string) (.cons (.integral false .bits16) .nil)))

def fields (x : HttpServerConfig) : shape.Den := (x.enabled, x.address, x.port.toBitVec, ())

def ofFields : shape.Den → HttpServerConfig
  | (enabled, address, port, _) => { enabled, address, port := .ofBitVec port }

theorem ofFields_fields (x : HttpServerConfig) : ofFields x.fields = x := rfl

end HttpServerConfig

namespace ServerManagerConfig

def shape : Shape :=
  .struct (.cons (.vector ServerConfig.shape) (.cons (.native .bool) (.cons (.native .bool)
    (.cons (.integral false .bits32) (.cons (.integral false .bits32)
      (.cons (.integral false .bits32) (.cons (.native .string)
        (.cons (.optional HttpServerConfig.shape) .nil))))))))

def fields (x : ServerManagerConfig) : shape.Den :=
  (x.servers.map ServerConfig.fields, x.enableIpv6, x.noBanner, x.maxConnections.toBitVec,
    x.maxGamePeers.toBitVec, x.tickTimeBudget.toBitVec, x.settingsDatabasePath,
    x.http.map HttpServerConfig.fields, ())

def ofFields : shape.Den → ServerManagerConfig
  | (servers, enableIpv6, noBanner, maxConnections, maxGamePeers, tickTimeBudget,
      settingsDatabasePath, http, _) =>
    { servers := List.map ServerConfig.ofFields servers
      enableIpv6, noBanner
      maxConnections := .ofBitVec maxConnections
      maxGamePeers := .ofBitVec maxGamePeers
      tickTimeBudget := .ofBitVec tickTimeBudget
      settingsDatabasePath
      http := Option.map HttpServerConfig.ofFields http }

theorem ofFields_fields (x : ServerManagerConfig) : ofFields x.fields = x := by
  have hservers : (x.servers.map ServerConfig.fields).map ServerConfig.ofFields = x.servers := by
    rw [List.map_map, Function.comp_def]
    simp only [ServerConfig.ofFields_fields, List.map_id']
  have hhttp : (x.http.map HttpServerConfig.fields).map HttpServerConfig.ofFields = x.http := by
    rw [Option.map_map, Function.comp_def]
    simp only [HttpServerConfig.ofFields_fields, Option.map_id']
  simp only [ofFields, fields, hservers, hhttp]

/-- `to_value`, with the default options. -/
def toValue (config : ServerManagerConfig) : Except PfrError Pfr.Value :=
  shape.toValue {} config.fields

/-- `from_value`. -/
def fromValue [DecidableEq Pfr.Value] (casts : FloatCasts) (v : Pfr.Value) :
    Except PfrError ServerManagerConfig := ofFields <$> shape.fromValue {} casts v

end ServerManagerConfig

section Travelling

/-- A value that both passes get through, within some levels of nesting. -/
structure Travels (height : Nat) (t : Shape) (x : t.Den) : Prop where
  has : ∀ o, t.has o x = false
  encoding : t.levels .encoding x ≤ height
  decoding : t.levels .decoding x ≤ height

/-- The same for the fields of a structure. -/
structure FieldsTravel (height : Nat) (ts : Shapes) (xs : ts.Tuple) : Prop where
  has : ∀ o, ts.has o xs = false
  encoding : ts.levels .encoding xs ≤ height
  decoding : ts.levels .decoding xs ≤ height

variable {height height' : Nat} {t : Shape} {ts : Shapes}

theorem Travels.mono {x : t.Den} (hx : Travels height t x) (hle : height ≤ height') :
    Travels height' t x := ⟨hx.has, hx.encoding.trans hle, hx.decoding.trans hle⟩

theorem travels_native (height : Nat) (k : Native) (x : k.Payload) :
    Travels height (.native k) x := ⟨fun _ => rfl, Nat.zero_le _, Nat.zero_le _⟩

theorem travels_integral (height : Nat) (isSigned : Bool) (width : IntWidth)
    (x : BitVec width.bits) : Travels height (.integral isSigned width) x :=
  ⟨fun _ => rfl, Nat.zero_le _, Nat.zero_le _⟩

theorem travels_enumeration (base : EnumBase) (x : base.native.Payload) :
    Travels 1 (.enumeration base) x := ⟨fun _ => rfl, le_rfl, Nat.zero_le _⟩

theorem Travels.optional {x : Option t.Den} (hx : ∀ y ∈ x, Travels height t y) :
    Travels (height + 1) (.optional t) x := by
  cases x with
  | none => exact ⟨fun _ => rfl, Nat.zero_le _, Nat.zero_le _⟩
  | some y =>
    obtain ⟨hhas, hencoding, hdecoding⟩ := hx y rfl
    exact ⟨hhas, Nat.succ_le_succ hencoding, Nat.succ_le_succ hdecoding⟩

theorem Travels.vector {xs : List t.Den} (hdirect : t.isDirect = false)
    (hxs : ∀ x ∈ xs, Travels height t x) : Travels (height + 1) (.vector t) xs := by
  have hlevels : ∀ c, (∀ x ∈ xs, t.levels c x ≤ height) →
      (if t.isDirect then 0 else deepest (xs.map fun x => t.levels c x + 1)) ≤ height + 1 := by
    intro c hall
    rw [hdirect, if_neg Bool.false_ne_true]
    refine deepest_le fun n hn => ?_
    obtain ⟨x, hx, rfl⟩ := List.mem_map.mp hn
    exact Nat.succ_le_succ (hall x hx)
  refine ⟨fun o => ?_, hlevels _ fun x hx => (hxs x hx).encoding,
    hlevels _ fun x hx => (hxs x hx).decoding⟩
  show (!t.isDirect && xs.any fun x => t.has o x) = false
  rw [hdirect, Bool.not_false, Bool.true_and, List.any_eq_false]
  intro x hx
  rw [(hxs x hx).has]
  exact Bool.false_ne_true

theorem FieldsTravel.struct {xs : ts.Tuple} (hxs : FieldsTravel height ts xs) :
    Travels height (.struct ts) xs := ⟨hxs.has, hxs.encoding, hxs.decoding⟩

theorem fieldsTravel_nil (height : Nat) : FieldsTravel height .nil () :=
  ⟨fun _ => rfl, Nat.zero_le _, Nat.zero_le _⟩

theorem FieldsTravel.cons {x : t.Den} {xs : ts.Tuple} (hx : Travels height t x)
    (hxs : FieldsTravel (height + 1) ts xs) :
    FieldsTravel (height + 1) (.cons t ts) (x, xs) where
  has o := by
    show (t.has o x || ts.has o xs) = false
    rw [hx.has, hxs.has, Bool.or_false]
  encoding := Nat.max_le.mpr ⟨Nat.succ_le_succ hx.encoding, hxs.encoding⟩
  decoding := Nat.max_le.mpr ⟨Nat.succ_le_succ hx.decoding, hxs.decoding⟩

end Travelling

theorem travels_proxyConfig (x : ProxyConfig) : Travels 2 ProxyConfig.shape x.fields :=
  FieldsTravel.struct (.cons (travels_enumeration _ _) (.cons (travels_native 1 _ _)
    (fieldsTravel_nil 2)))

theorem travels_serverConfig (x : ServerConfig) : Travels 4 ServerConfig.shape x.fields := by
  have hproxies : Travels 3 (.vector ProxyConfig.shape) (x.proxies.map ProxyConfig.fields) := by
    refine .vector rfl fun y hy => ?_
    obtain ⟨proxy, -, rfl⟩ := List.mem_map.mp hy
    exact travels_proxyConfig proxy
  exact FieldsTravel.struct
    (.cons ((travels_enumeration _ _).mono (by decide)) (.cons (travels_integral 3 _ _ _)
      (.cons (travels_native 3 _ _) (.cons (travels_native 3 _ _) (.cons (travels_native 3 _ _)
        (.cons (travels_native 3 _ _) (.cons (travels_integral 3 _ _ _)
          (.cons (travels_native 3 _ _) (.cons hproxies (fieldsTravel_nil 4))))))))))

theorem travels_httpServerConfig (x : HttpServerConfig) :
    Travels 1 HttpServerConfig.shape x.fields :=
  FieldsTravel.struct (.cons (travels_native 0 _ _) (.cons (travels_native 0 _ _)
    (.cons (travels_integral 0 _ _ _) (fieldsTravel_nil 1))))

theorem travels_serverManagerConfig (x : ServerManagerConfig) :
    Travels 6 ServerManagerConfig.shape x.fields := by
  have hservers : Travels 5 (.vector ServerConfig.shape) (x.servers.map ServerConfig.fields) := by
    refine .vector rfl fun y hy => ?_
    obtain ⟨server, -, rfl⟩ := List.mem_map.mp hy
    exact travels_serverConfig server
  have hhttp :
      Travels 2 (.optional HttpServerConfig.shape) (x.http.map HttpServerConfig.fields) := by
    refine .optional fun y hy => ?_
    obtain ⟨http, -, rfl⟩ := Option.map_eq_some_iff.mp hy
    exact travels_httpServerConfig http
  exact FieldsTravel.struct
    (.cons hservers (.cons (travels_native 5 _ _) (.cons (travels_native 5 _ _)
      (.cons (travels_integral 5 _ _ _) (.cons (travels_integral 5 _ _ _)
        (.cons (travels_integral 5 _ _ _) (.cons (travels_native 5 _ _)
          (.cons (hhttp.mono (by decide)) (fieldsTravel_nil 6)))))))))

/-- A configuration arrives as it was sent. -/
theorem ServerManagerConfig.fromValue_toValue [DecidableEq Pfr.Value] (casts : FloatCasts)
    (config : ServerManagerConfig) :
    ∃ v, config.toValue = .ok v ∧ fromValue casts v = .ok config := by
  have hshape : shape.WellFormed := by
    simp [shape, ServerConfig.shape, ProxyConfig.shape, HttpServerConfig.shape, Shape.WellFormed,
      Shapes.WellFormed, Shape.neverNull]
  obtain ⟨hhas, hencoding, hdecoding⟩ := travels_serverManagerConfig config
  obtain ⟨v, hencode, hdecode⟩ := Pfr.fromValue_toValue {} casts hshape hhas
    (hencoding.trans (by decide)) (hdecoding.trans (by decide))
  refine ⟨v, hencode, ?_⟩
  rw [fromValue, hdecode]
  exact congrArg Except.ok config.ofFields_fields

end Codec

end LuxonServer
