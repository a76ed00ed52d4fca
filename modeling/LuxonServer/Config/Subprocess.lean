import Mathlib.Data.List.Nodup
import LuxonServer.Config.Manager

/-! The processes of a configuration with subprocesses: the parent, and a child for each server that
is marked as one. -/

namespace LuxonServer

/-- `SettingsManager`: the database file that it opened, and how. -/
structure SettingsManager where
  path : String
  isReadOnly : Bool
  deriving DecidableEq, Repr

namespace SettingsManager

/-- The names in `suffix_handlers`. -/
def suffixes : List String :=
  ["ro", "rw", "nocreate", "nomutex", "fullmutex", "sharedcache", "privatecache", "memory"]

/-- What a suffix does to `is_read_only_`. -/
def applySuffix (isReadOnly : Bool) : String → Bool
  | "ro" => true
  | "rw" => false
  | _ => isReadOnly

/-- The constructor: suffixes after a colon are stripped, and applied from left to right. -/
def create (isWritable : String → Bool) (dbPath : String) : SettingsManager :=
  match dbPath.splitOn ":" with
  | [] => ⟨dbPath, !isWritable dbPath⟩
  | first :: rest =>
    let stripped := rest.reverse.takeWhile fun suffix => suffix ∈ suffixes
    { path := ":".intercalate (first :: rest.take (rest.length - stripped.length))
      isReadOnly := stripped.reverse.foldl applySuffix (!isWritable dbPath) }

end SettingsManager

structure Listing where
  type : ServerType
  port : UInt16
  externalAddress : String
  proxies : List ProxyConfig
  deriving DecidableEq, Repr

def ServerConfig.listing (config : ServerConfig) : Listing :=
  ⟨config.type, config.port, config.externalAddress, config.proxies⟩

/-- The members of `ServerManager` that come from its configuration. -/
structure ConfiguredManager where
  configs : List ServerConfig
  enableIpv6 : Bool
  maxConnections : UInt32
  maxGamePeers : UInt8
  tickTimeBudget : UInt32
  settingsManager : Option SettingsManager
  settingsDatabasePath : String := ""
  httpConfig : Option HttpServerConfig
  deriving DecidableEq, Repr

/-- `NormalizeMaxGamePeers`. -/
def normalizeMaxGamePeers (value : UInt32) : UInt8 :=
  let normalized := UInt8.ofNat (min value.toNat 255)
  if normalized = 255 then 0 else normalized

namespace ConfiguredManager

/-- The constructor of `ServerManager`, up to `setup`.  `settings_database_path` keeps its
default. -/
def create (isWritable : String → Bool) (config : ServerManagerConfig) : ConfiguredManager where
  configs := config.servers
  enableIpv6 := config.enableIpv6
  maxConnections := config.maxConnections
  maxGamePeers := normalizeMaxGamePeers config.maxGamePeers
  tickTimeBudget :=
    if config.tickTimeBudget = 0 then ~~~config.tickTimeBudget else config.tickTimeBudget
  settingsManager :=
    if config.settingsDatabasePath ≠ "" then
      some (SettingsManager.create isWritable config.settingsDatabasePath)
    else none
  httpConfig := config.http

/-- The servers that `setup` binds in the process itself. -/
def bound (sm : ConfiguredManager) : List ServerConfig :=
  sm.configs.filter fun config => !config.isRoutingOnly && !config.subprocess

/-- The servers that `setup` starts a subprocess for. -/
def subprocesses (sm : ConfiguredManager) : List ServerConfig :=
  sm.configs.filter fun config => !config.isRoutingOnly && config.subprocess

/-- The entry of a server in the configuration of the child that binds `config`. -/
def childServer (config server : ServerConfig) : ServerConfig :=
  { server with
    subprocess := false
    isRoutingOnly := !(server.port == config.port && server.type == config.type) }

/-- The configuration that `setup_subprocess` synthesizes; `fd` is the parent's end of the link. -/
def childConfig (fd : UInt16) (config : ServerConfig) (sm : ConfiguredManager) :
    ServerManagerConfig where
  servers := sm.configs.map (childServer config)
  enableIpv6 := sm.enableIpv6
  maxConnections := sm.maxConnections
  maxGamePeers := UInt32.ofNat sm.maxGamePeers.toNat
  tickTimeBudget := sm.tickTimeBudget
  settingsDatabasePath :=
    if sm.settingsDatabasePath ≠ "" then sm.settingsDatabasePath ++ ":ro" else ""
  http := sm.httpConfig.map fun http => { http with port := http.port + fd }

/-- `setup_subprocess`, and the constructor of the child with what arrives. -/
def startChild [DecidableEq Pfr.Value] (casts : Pfr.FloatCasts) (isWritable : String → Bool)
    (transport : Pfr.Value → Pfr.Value) (fd : ServerConfig → UInt16) (sm : ConfiguredManager)
    (config : ServerConfig) : Except Pfr.PfrError ConfiguredManager := do
  let v ← (sm.childConfig (fd config) config).toValue
  let received ← ServerManagerConfig.fromValue casts (transport v)
  return create isWritable received

/-- Whether a process binds a server. -/
def binds (config : ServerConfig) (sm : ConfiguredManager) : Bool :=
  sm.bound.any fun other => other.listing == config.listing

/-- What a child has of its parent's configuration, the settings database apart. -/
structure Conveys (parent child : ConfiguredManager) : Prop where
  enableIpv6 : child.enableIpv6 = parent.enableIpv6
  maxConnections : child.maxConnections = parent.maxConnections
  maxGamePeers : child.maxGamePeers = parent.maxGamePeers
  tickTimeBudget : child.tickTimeBudget = parent.tickTimeBudget
  servers : child.configs.map ServerConfig.listing = parent.configs.map ServerConfig.listing

/-- A child uses the settings database of its parent, and does not write to it. -/
def SharesDatabase (parent child : ConfiguredManager) : Prop :=
  child.settingsManager = parent.settingsManager.map fun db => { db with isReadOnly := true }

/-- Every child has the configuration of the parent and uses its settings database, and every server
is bound by one process. -/
def Faithful [DecidableEq Pfr.Value] (casts : Pfr.FloatCasts) (isWritable : String → Bool)
    (transport : Pfr.Value → Pfr.Value) (fd : ServerConfig → UInt16)
    (config : ServerManagerConfig) : Prop :=
  let parent := create isWritable config
  ∃ children,
    parent.subprocesses.mapM (parent.startChild casts isWritable transport fd) = .ok children ∧
    (∀ child ∈ children, Conveys parent child ∧ SharesDatabase parent child) ∧
    ∀ server ∈ parent.configs, (parent :: children).countP (binds server) = 1

section Children

variable {casts : Pfr.FloatCasts} {isWritable : String → Bool}
  {transport : Pfr.Value → Pfr.Value} {fd : ServerConfig → UInt16} {config : ServerManagerConfig}

/-- The child for a server, with the configuration that it is sent. -/
def child (isWritable : String → Bool) (fd : ServerConfig → UInt16) (parent : ConfiguredManager)
    (server : ServerConfig) : ConfiguredManager :=
  create isWritable (parent.childConfig (fd server) server)

theorem startChild_eq [DecidableEq Pfr.Value] (htransport : ∀ v, transport v = v)
    (parent : ConfiguredManager) (server : ServerConfig) :
    parent.startChild casts isWritable transport fd server =
      .ok (parent.child isWritable fd server) := by
  obtain ⟨v, hencode, hdecode⟩ :=
    (parent.childConfig (fd server) server).fromValue_toValue casts
  simp only [startChild, hencode, bind, Except.bind, htransport, hdecode]
  rfl

theorem mapM_startChild [DecidableEq Pfr.Value] (htransport : ∀ v, transport v = v)
    (parent : ConfiguredManager) (servers : List ServerConfig) :
    servers.mapM (parent.startChild casts isWritable transport fd) =
      .ok (servers.map (parent.child isWritable fd)) := by
  induction servers with
  | nil => rfl
  | cons server servers ih =>
    rw [List.mapM_cons, startChild_eq htransport, ih]
    rfl

theorem normalizeMaxGamePeers_ne (value : UInt32) : normalizeMaxGamePeers value ≠ 255 := by
  unfold normalizeMaxGamePeers
  simp only
  split
  · decide
  · assumption

/-- A limit that has been normalized stays as it is. -/
theorem normalizeMaxGamePeers_ofNat {limit : UInt8} (hlimit : limit ≠ 255) :
    normalizeMaxGamePeers (UInt32.ofNat limit.toNat) = limit := by
  have hlt := limit.toNat_lt
  have hnat : (UInt32.ofNat limit.toNat).toNat = limit.toNat :=
    UInt32.toNat_ofNat_of_lt (show limit.toNat < 4294967296 by omega)
  unfold normalizeMaxGamePeers
  rw [hnat, Nat.min_eq_left (by omega), UInt8.ofNat_toNat]
  exact if_neg hlimit

/-- The limits survive being applied a second time. -/
theorem conveys_child (isWritable : String → Bool) (fd : ServerConfig → UInt16)
    (config : ServerManagerConfig) (server : ServerConfig) :
    Conveys (create isWritable config) ((create isWritable config).child isWritable fd server) where
  enableIpv6 := rfl
  maxConnections := rfl
  maxGamePeers := by
    show normalizeMaxGamePeers (UInt32.ofNat (normalizeMaxGamePeers config.maxGamePeers).toNat) = _
    exact normalizeMaxGamePeers_ofNat (normalizeMaxGamePeers_ne _)
  tickTimeBudget := by
    simp only [child, create, childConfig]
    split
    · next hzero =>
      rw [hzero]
      decide
    · rfl
  servers := by
    show ((create isWritable config).configs.map (childServer server)).map ServerConfig.listing = _
    rw [List.map_map]
    rfl

/-- A child binds the server that it was started for. -/
theorem binds_child (hports : (config.servers.map ServerConfig.port).Nodup)
    {server other : ServerConfig} (hserver : server ∈ config.servers)
    (hother : other ∈ config.servers) :
    ((create isWritable config).child isWritable fd server).binds other = true ↔ server = other := by
  have hsame := List.inj_on_of_nodup_map hports
  unfold binds bound
  rw [List.any_filter, List.any_eq_true]
  constructor
  · rintro ⟨_, hmem, hbound⟩
    obtain ⟨listed, hlisted, rfl⟩ := List.mem_map.mp hmem
    simp only [childServer, Bool.and_eq_true, Bool.not_not, beq_iff_eq, Bool.not_false, and_true]
      at hbound
    obtain ⟨⟨hport, -⟩, hlisting⟩ := hbound
    have hother' : listed = other :=
      hsame hlisted hother (congrArg Listing.port hlisting)
    rw [← hother']
    exact (hsame hlisted hserver hport).symm
  · rintro rfl
    refine ⟨childServer server server, List.mem_map_of_mem hserver, ?_⟩
    simp [childServer, ServerConfig.listing]

theorem binds_create (isWritable : String → Bool)
    (hports : (config.servers.map ServerConfig.port).Nodup) {server : ServerConfig}
    (hserver : server ∈ config.servers) :
    (create isWritable config).binds server = true ↔
      server.isRoutingOnly = false ∧ server.subprocess = false := by
  have hsame := List.inj_on_of_nodup_map hports
  unfold binds bound
  rw [List.any_filter, List.any_eq_true]
  constructor
  · rintro ⟨listed, hlisted, hbound⟩
    simp only [Bool.and_eq_true, Bool.not_eq_true', beq_iff_eq] at hbound
    rw [← hsame hlisted hserver (congrArg Listing.port hbound.2)]
    exact hbound.1
  · rintro ⟨hrouting, hsubprocess⟩
    exact ⟨server, hserver, by simp [hrouting, hsubprocess]⟩

theorem mem_subprocesses {server : ServerConfig} :
    server ∈ (create isWritable config).subprocesses ↔
      server ∈ config.servers ∧ server.isRoutingOnly = false ∧ server.subprocess = true := by
  simp [subprocesses, create]

theorem countP_children (hports : (config.servers.map ServerConfig.port).Nodup)
    {server : ServerConfig} (hserver : server ∈ config.servers) :
    ((create isWritable config).subprocesses.map
        ((create isWritable config).child isWritable fd)).countP (binds server) =
      if server.isRoutingOnly = false ∧ server.subprocess = true then 1 else 0 := by
  have hnodup : (create isWritable config).subprocesses.Nodup :=
    (List.Nodup.of_map _ hports).filter _
  rw [List.countP_map]
  have hcount : (create isWritable config).subprocesses.countP
      (binds server ∘ (create isWritable config).child isWritable fd) =
      (create isWritable config).subprocesses.count server := by
    apply List.countP_congr
    intro other hother
    rw [Function.comp_apply, binds_child hports (mem_subprocesses.mp hother).1 hserver, beq_iff_eq]
  rw [hcount, hnodup.count]
  exact if_congr (mem_subprocesses.trans (and_iff_right hserver)) rfl rfl

/-- A child never has a settings database, as the parent keeps no path to hand on. -/
theorem sharesDatabase_child_iff (isWritable : String → Bool) (fd : ServerConfig → UInt16)
    (config : ServerManagerConfig) (server : ServerConfig) :
    SharesDatabase (create isWritable config)
        ((create isWritable config).child isWritable fd server) ↔
      config.settingsDatabasePath = "" := by
  have hnone : ((create isWritable config).child isWritable fd server).settingsManager = none := rfl
  unfold SharesDatabase
  rw [hnone]
  by_cases hpath : config.settingsDatabasePath = ""
  · simp [create, hpath]
  · simp [create, hpath]

/-- Whatever a parent's configuration, its children arrive at its limits and its list of servers;
and of all the processes exactly one binds a server of the list, but none a server that is only
routed to. -/
theorem children_configured [DecidableEq Pfr.Value] (casts : Pfr.FloatCasts)
    (isWritable : String → Bool) (transport : Pfr.Value → Pfr.Value) (fd : ServerConfig → UInt16)
    (config : ServerManagerConfig) (hports : (config.servers.map ServerConfig.port).Nodup)
    (htransport : ∀ v, transport v = v) :
    let parent := create isWritable config
    ∃ children,
      parent.subprocesses.mapM (parent.startChild casts isWritable transport fd) =
        .ok children ∧
      (∀ child ∈ children, Conveys parent child) ∧
      ∀ server ∈ parent.configs,
        (parent :: children).countP (binds server) = if server.isRoutingOnly then 0 else 1 := by
  intro parent
  refine ⟨_, mapM_startChild htransport parent parent.subprocesses, ?_, ?_⟩
  · intro child hchild
    obtain ⟨server, -, rfl⟩ := List.mem_map.mp hchild
    exact conveys_child isWritable fd config server
  · intro server hserver
    have hparent := binds_create isWritable hports hserver
    rw [List.countP_cons, countP_children hports hserver]
    cases hrouting : server.isRoutingOnly <;> cases hsubprocess : server.subprocess <;>
      simp [hparent, hrouting, hsubprocess, parent]

/-- A server in the parent, one in a subprocess and one elsewhere. -/
theorem children_configured_three :
    let gameServer : ServerConfig := { type := .gameServer, port := 5056, subprocess := true }
    let config : ServerManagerConfig :=
      { servers :=
          [{ type := .masterServer, port := 5055 }, gameServer,
            { type := .nameServer, port := 5058, isRoutingOnly := true }]
        maxGamePeers := 300 }
    let parent := create (fun _ => true) config
    ∃ children,
      parent.subprocesses.mapM
        (@startChild (Classical.decEq Pfr.Value) Pfr.noCasts (fun _ => true) id (fun _ => 7)
          parent) = .ok children ∧
      (∀ child ∈ children, Conveys parent child) ∧
      (parent :: children).countP (binds gameServer) = 1 := by
  intro gameServer config parent
  obtain ⟨children, hstart, hconveys, hbound⟩ :=
    @children_configured (Classical.decEq Pfr.Value) Pfr.noCasts (fun _ => true) id (fun _ => 7)
      config (by decide) fun _ => rfl
  exact ⟨children, hstart, hconveys, hbound gameServer (by decide)⟩

/-- A server that the configuration only routes to is bound by no process. -/
theorem not_faithful_routingOnly :
    ¬@Faithful (Classical.decEq Pfr.Value) Pfr.noCasts (fun _ => true) id (fun _ => 7)
      { servers := [{ type := .gameServer, port := 5056, isRoutingOnly := true }] } := by
  rintro ⟨children, hstart, -, hbound⟩
  cases hstart
  have hone := hbound _ List.mem_cons_self
  revert hone
  decide

end Children

end ConfiguredManager

end LuxonServer
