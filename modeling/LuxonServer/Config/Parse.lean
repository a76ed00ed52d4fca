import LuxonServer.Config.Manager
import LuxonServer.Config.Yaml

/-! The parser of the configuration file: the sections, and the loop over the entries of the root.
The root is looked at before the loop, and that puts an empty `MaxConnections` into it. -/

namespace LuxonServer

open OrderedMap (lookup)

namespace ConfigParser

/-- `StringToServerType`. -/
def stringToServerType (str : String) : Except String ServerType :=
  if str = "NameServer" then .ok .nameServer
  else if str = "MasterServer" then .ok .masterServer
  else if str = "GameServer" then .ok .gameServer
  else .error ("Unknown ServerType: " ++ str)

/-- `StringToEndpointProtocol`. -/
def stringToEndpointProtocol (str : String) : Except String ServerProtocol :=
  if str = "UDP" then .ok .udp
  else if str = "TCP" then .ok .tcp
  else if str = "WebSocket" then .ok .webSocket
  else .error ("Unknown protocol: " ++ str)

/-- `ThrowConfigError`. -/
def throwConfigError {α : Type} (path message : String) : Except String α :=
  .error ("Config error at " ++ path ++ ": " ++ message)

/-- `ExpectMap`, with the entries. -/
def expectMap (node : YamlNode) (path : String) : Except String YamlMap :=
  match node with
  | .map entries => .ok entries
  | _ => throwConfigError path "expected a map"

/-- `ExpectSequence`, with the nodes. -/
def expectSequence (node : YamlNode) (path : String) : Except String (List YamlNode) :=
  match node with
  | .sequence nodes => .ok nodes
  | _ => throwConfigError path "expected a sequence"

/-- `ValidateAllowedKeys`. -/
def validateAllowedKeys (map : YamlNode) (path : String) (allowed : List String) :
    Except String YamlMap := do
  let entries ← expectMap map path
  match entries.find? fun entry => entry.1 ∉ allowed with
  | some (key, _) => throwConfigError path ("unknown key '" ++ key ++ "'")
  | none => return entries

section Scalars

variable {α : Type} [StringConverter α]

/-- `ReadNodeScalar`; no conversion throws. -/
def readNodeScalar (stale : Stale) (node : YamlNode) (path : String) : α := node.as stale path

/-- `ReadOptionalScalar`. -/
def readOptionalScalar (stale : Stale) (map : YamlMap) (key path : String) : Option α :=
  if (child key map).isNone then none
  else some (readNodeScalar stale (child key map) (path ++ "." ++ key))

/-- `ReadRequiredScalar`. -/
def readRequiredScalar (stale : Stale) (map : YamlMap) (key path : String) : Except String α :=
  match readOptionalScalar stale map key path with
  | some value => .ok value
  | none => throwConfigError path ("missing required key '" ++ key ++ "'")

end Scalars

/-- `ReadOptionalProtocol`. -/
def readOptionalProtocol (stale : Stale) (map : YamlMap) (key path : String)
    (fallback : ServerProtocol) : Except String ServerProtocol :=
  match readOptionalScalar stale map key path with
  | none => .ok fallback
  | some value =>
    match stringToEndpointProtocol value with
    | .ok protocol => .ok protocol
    | .error what => throwConfigError (path ++ "." ++ key) what

/-- `ReadOptionalExternalAddress`. -/
def readOptionalExternalAddress (stale : Stale) (map : YamlMap) (path : String) :
    Except String (Option String) :=
  let externalAddress : Option String := readOptionalScalar stale map "external_address" path
  let legacyAddress : Option String := readOptionalScalar stale map "address" path
  if externalAddress.isSome && legacyAddress.isSome then
    throwConfigError path "use only one of 'external_address' or 'address'"
  else .ok (externalAddress.or legacyAddress)

/-- `ParseStunServer`. -/
def parseStunServer (stale : Stale) (server : ServerConfig) (stunNode : YamlNode)
    (path : String) : Except String ServerConfig :=
  match stunNode with
  | .scalar _ =>
    .ok { server with
      stunServerHost := readNodeScalar stale stunNode path
      stunServerPort := 19302 }
  | .map _ => do
    let map ← validateAllowedKeys stunNode path ["host", "port"]
    let host ← readRequiredScalar stale map "host" path
    return { server with
      stunServerHost := host
      stunServerPort := (readOptionalScalar stale map "port" path).getD server.stunServerPort }
  | _ => throwConfigError path "expected a string or a map"

/-- An entry of `proxies`. -/
def parseProxy (stale : Stale) (pNode : YamlNode) (pPath : String) :
    Except String ProxyConfig := do
  let map ← validateAllowedKeys pNode pPath ["protocol", "address"]
  let protocol ← readOptionalProtocol stale map "protocol" pPath .tcp
  let address ← readRequiredScalar stale map "address" pPath
  return { protocol, address }

/-- An entry of the list of a server type. -/
def parseServer (stale : Stale) (type : ServerType) (item : YamlNode) (itemPath : String) :
    Except String ServerConfig := do
  let map ← validateAllowedKeys item itemPath
    ["port", "external_address", "address", "allow_unsolicited", "subprocess", "stun_server",
      "proxies"]
  let mut server : ServerConfig := { type }
  server := { server with port := ← readRequiredScalar stale map "port" itemPath }
  if let some allowUnsolicited := readOptionalScalar stale map "allow_unsolicited" itemPath then
    server := { server with allowUnsolicited }
  if let some subprocess := readOptionalScalar stale map "subprocess" itemPath then
    server := { server with subprocess }
  if !(child "stun_server" map).isNone then
    server ← parseStunServer stale server (child "stun_server" map) (itemPath ++ ".stun_server")
  if let some externalAddress := ← readOptionalExternalAddress stale map itemPath then
    server := { server with externalAddress }
  if !(child "proxies" map).isNone then
    let nodes ← expectSequence (child "proxies" map) (itemPath ++ ".proxies")
    let proxies ← nodes.zipIdx.mapM fun (pNode, pIndex) =>
      parseProxy stale pNode (itemPath ++ ".proxies[" ++ toString pIndex ++ "]")
    server := { server with proxies }
  return server

/-- `ParseServersSection`: the servers that it adds. -/
def parseServersSection (stale : Stale) (sectionNode : YamlNode) :
    Except String (List ServerConfig) := do
  let entries ← expectMap sectionNode "Servers"
  let lists ← entries.mapM fun (typeName, list) => do
    let typePath := "Servers." ++ typeName
    let type ←
      match stringToServerType typeName with
      | .ok type => .ok type
      | .error what => throwConfigError typePath what
    let items ← expectSequence list typePath
    items.zipIdx.mapM fun (item, index) =>
      parseServer stale type item (typePath ++ "[" ++ toString index ++ "]")
  return lists.flatten

/-- `ParseHttpSection`. -/
def parseHttpSection (stale : Stale) (sectionNode : YamlNode) :
    Except String HttpServerConfig := do
  let map ← validateAllowedKeys sectionNode "HTTP" ["enabled", "active", "address", "port"]
  let hasEnabled := !(child "enabled" map).isNone
  let hasActive := !(child "active" map).isNone
  if hasEnabled && hasActive then
    throwConfigError "HTTP" "use only one of 'enabled' or 'active'"
  let mut httpCfg : HttpServerConfig := {}
  if hasEnabled then
    httpCfg := { httpCfg with enabled := ← readRequiredScalar stale map "enabled" "HTTP" }
  else if hasActive then
    httpCfg := { httpCfg with enabled := ← readRequiredScalar stale map "active" "HTTP" }
  if let some address := readOptionalScalar stale map "address" "HTTP" then
    httpCfg := { httpCfg with address }
  if let some port := readOptionalScalar stale map "port" "HTTP" then
    httpCfg := { httpCfg with port }
  return httpCfg

/-- The body of the loop of `parse_config`, with the web server and the settings database compiled
in. -/
def parseEntry (stale : Stale) (config : ServerManagerConfig) (entry : String × YamlNode) :
    Except String ServerManagerConfig :=
  let (key, sectionNode) := entry
  if key = "Servers" then do
    let servers ← parseServersSection stale sectionNode
    return { config with servers := config.servers ++ servers }
  else if key = "External" then
    .ok config
  else if key = "EnableIPv6" then
    .ok { config with enableIpv6 := readNodeScalar stale sectionNode "EnableIPv6" }
  else if key = "NoBanner" then
    .ok { config with noBanner := readNodeScalar stale sectionNode "NoBanner" }
  else if key = "MaxConnections" ∨ key = "CCU" then
    .ok { config with maxConnections := readNodeScalar stale sectionNode key }
  else if key = "MaxGamePeers" then
    .ok { config with maxGamePeers := readNodeScalar stale sectionNode "MaxGamePeers" }
  else if key = "TickTimeBudget" then
    .ok { config with tickTimeBudget := readNodeScalar stale sectionNode "TickTimeBudget" }
  else if key = "SettingsDatabase" then
    .ok { config with
      settingsDatabasePath := readNodeScalar stale sectionNode "SettingsDatabase" }
  else if key = "HTTP" then do
    let http ← parseHttpSection stale sectionNode
    return { config with http := some http }
  else throwConfigError key ("unknown top-level key: " ++ key)

/-- The test before the loop: whether both keys are there, and the root after it. -/
def checkAliases (root : YamlMap) : Bool × YamlMap :=
  let (maxConnections, root) := getNode "MaxConnections" root
  if maxConnections.isNone then (false, root)
  else
    let (ccu, root) := getNode "CCU" root
    (!ccu.isNone, root)

/-- `parse_config`, from what `Yaml::Parse` makes of the contents. -/
def parseConfig (stale : Stale) (parsed : Except String YamlNode) :
    Except String ServerManagerConfig :=
  match parsed with
  | .error what => .error ("YAML Parsing failed: " ++ what)
  | .ok (.map root) =>
    let (both, root) := checkAliases root
    if both then throwConfigError "root" "use only one of 'MaxConnections' or 'CCU'"
    else root.foldlM (parseEntry stale) {}
  | .ok _ => .error "Root of config must be a map"

end ConfigParser

end LuxonServer
