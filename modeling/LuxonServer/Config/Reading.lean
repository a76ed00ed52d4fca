import Mathlib.Logic.Equiv.Basic
import LuxonServer.Config.Parse

/-! When the configuration that the parser makes is what the file says: the value given for a key
or the default of its field, whatever the order, and with `CCU` for `MaxConnections`. -/

namespace LuxonServer

open OrderedMap (lookup Sorted ofEntries)

namespace ConfigParser

/-- The entries that the loop reads without an error. -/
inductive Readable (stale : Stale) : String × YamlNode → Prop
  | servers {node servers} (hservers : parseServersSection stale node = .ok servers) :
    Readable stale ("Servers", node)
  | external {node} : Readable stale ("External", node)
  | enableIpv6 {node} : Readable stale ("EnableIPv6", node)
  | noBanner {node} : Readable stale ("NoBanner", node)
  | maxConnections {node} : Readable stale ("MaxConnections", node)
  | ccu {node} : Readable stale ("CCU", node)
  | maxGamePeers {node} : Readable stale ("MaxGamePeers", node)
  | tickTimeBudget {node} : Readable stale ("TickTimeBudget", node)
  | settingsDatabase {node} : Readable stale ("SettingsDatabase", node)
  | http {node http} (hhttp : parseHttpSection stale node = .ok http) :
    Readable stale ("HTTP", node)

/-- The keys that a number is given for. -/
def numberKeys : List String := ["MaxConnections", "CCU", "MaxGamePeers", "TickTimeBudget"]

/-- The entries of a configuration, in whatever order: known keys, each once, with a value that can
be read, and the number of connections under one of its names. -/
structure WellFormed (stale : Stale) (entries : YamlMap) : Prop where
  distinct : (entries.map Prod.fst).Nodup
  readable : ∀ entry ∈ entries, Readable stale entry
  number : ∀ key node, (key, node) ∈ entries → key ∈ numberKeys →
    ∃ n, extract 32 node.asString = some n
  single : "MaxConnections" ∈ entries.map Prod.fst → "CCU" ∉ entries.map Prod.fst

/-- `config` with the values that the entries give. -/
def overlay (stale : Stale) (config : ServerManagerConfig) (entries : YamlMap) :
    ServerManagerConfig where
  servers := config.servers ++ (lookup "Servers" entries).elim [] fun node =>
    (parseServersSection stale node).toOption.getD []
  enableIpv6 := (lookup "EnableIPv6" entries).elim config.enableIpv6
    (readNodeScalar stale · "EnableIPv6")
  noBanner := (lookup "NoBanner" entries).elim config.noBanner (readNodeScalar stale · "NoBanner")
  maxConnections := (lookup "MaxConnections" entries).elim
    ((lookup "CCU" entries).elim config.maxConnections (readNodeScalar stale · "CCU"))
    (readNodeScalar stale · "MaxConnections")
  maxGamePeers := (lookup "MaxGamePeers" entries).elim config.maxGamePeers
    (readNodeScalar stale · "MaxGamePeers")
  tickTimeBudget := (lookup "TickTimeBudget" entries).elim config.tickTimeBudget
    (readNodeScalar stale · "TickTimeBudget")
  settingsDatabasePath := (lookup "SettingsDatabase" entries).elim config.settingsDatabasePath
    (readNodeScalar stale · "SettingsDatabase")
  http := (lookup "HTTP" entries).elim config.http fun node =>
    (parseHttpSection stale node).toOption

def described (stale : Stale) (entries : YamlMap) : ServerManagerConfig := overlay stale {} entries

/-- The parser on a map with these entries. -/
def parseEntries (stale : Stale) (entries : YamlMap) : Except String ServerManagerConfig :=
  parseConfig stale (.ok (.map (ofEntries entries)))

/-- What the parser reads for the number of connections from the node of a key. -/
def connections (stale : Stale) (entries : YamlMap) (key : String) : UInt32 :=
  readNodeScalar stale (child key entries) "MaxConnections"

/-- `CCU` for `MaxConnections`, and the other way. -/
def renamed (entries : YamlMap) : YamlMap :=
  entries.map fun entry => (Equiv.swap "CCU" "MaxConnections" entry.1, entry.2)

/-- The result is what the entries describe, in whatever order, and under either name for the number
of connections. -/
structure Conforms (stale : Stale) (entries : YamlMap) : Prop where
  fields : parseEntries stale entries = .ok (described stale entries)
  order : ∀ entries', entries'.Perm entries → parseEntries stale entries' =
    parseEntries stale entries
  aliases : parseEntries stale (renamed entries) = parseEntries stale entries

section Loop

variable {stale : Stale} {entries : YamlMap}

theorem parseEntry_eq {entry : String × YamlNode} (hreadable : Readable stale entry)
    (config : ServerManagerConfig) :
    parseEntry stale config entry = .ok (overlay stale config [entry]) := by
  cases hreadable with
  | servers hservers => simp [parseEntry, overlay, lookup, hservers, Except.toOption]
  | http hhttp => simp [parseEntry, overlay, lookup, hhttp, Except.toOption]
  | _ => simp [parseEntry, overlay, lookup]

theorem elim_lookup_cons {α : Type} {key k : String} {node : YamlNode}
    (hfresh : k ∉ entries.map Prod.fst) (f : YamlNode → α) (default : α) :
    (lookup key ((k, node) :: entries)).elim default f =
      (lookup key entries).elim ((lookup key [(k, node)]).elim default f) f := by
  rw [lookup, lookup]
  split
  · next heq => rw [heq, OrderedMap.lookup_eq_none.mpr hfresh]; rfl
  · rfl

/-- The entry of the last of the keys `CCU` and `MaxConnections` counts, so the order matters
here. -/
theorem overlay_cons {k : String} {node : YamlNode} (hsorted : Sorted ((k, node) :: entries))
    (config : ServerManagerConfig) :
    overlay stale config ((k, node) :: entries) =
      overlay stale (overlay stale config [(k, node)]) entries := by
  obtain ⟨hfirst, hrest⟩ := List.pairwise_cons.mp hsorted
  have hafter : ∀ key ∈ entries.map Prod.fst, k < key := by
    intro key hkey
    obtain ⟨entry, hentry, rfl⟩ := List.mem_map.mp hkey
    exact hfirst entry hentry
  have hfresh : k ∉ entries.map Prod.fst := fun hmem => lt_irrefl k (hafter k hmem)
  simp only [overlay, ServerManagerConfig.mk.injEq, elim_lookup_cons hfresh, true_and, and_true]
  refine ⟨?_, ?_⟩
  · rw [List.append_assoc]
    refine congrArg _ ?_
    by_cases hk : k = "Servers"
    · rw [OrderedMap.lookup_eq_none.mpr (hk ▸ hfresh)]
      exact (List.append_nil _).symm
    · have hnone : lookup "Servers" [(k, node)] = none := if_neg (Ne.symm hk)
      rw [hnone]
      rfl
  · by_cases hk : k = "MaxConnections"
    · have hccu : lookup "CCU" entries = none :=
        OrderedMap.lookup_eq_none.mpr fun hmem =>
          absurd (hafter _ hmem) (by rw [hk]; decide +kernel)
      rw [hccu]
      rfl
    · have hnone : lookup "MaxConnections" [(k, node)] = none := if_neg (Ne.symm hk)
      rw [hnone]
      rfl

theorem foldlM_parseEntry (hsorted : Sorted entries)
    (hreadable : ∀ entry ∈ entries, Readable stale entry) (config : ServerManagerConfig) :
    entries.foldlM (parseEntry stale) config = .ok (overlay stale config entries) := by
  induction entries generalizing config with
  | nil => simp [overlay, lookup]; rfl
  | cons entry entries ih =>
    obtain ⟨hentry, hrest⟩ := List.forall_mem_cons.mp hreadable
    rw [List.foldlM_cons, parseEntry_eq hentry, overlay_cons hsorted]
    exact ih (List.pairwise_cons.mp hsorted).2 hrest _

end Loop

section Root

variable {stale : Stale} {entries root : YamlMap}

theorem overlay_congr {entries' : YamlMap}
    (h : ∀ key, lookup key entries = lookup key entries') (config : ServerManagerConfig) :
    overlay stale config entries = overlay stale config entries' := by
  simp only [overlay, h]

/-- The number of connections apart, the entries under its names do not matter. -/
theorem overlay_with_congr {entries' : YamlMap}
    (h : ∀ key, key ≠ "MaxConnections" → key ≠ "CCU" → lookup key entries = lookup key entries')
    {config : ServerManagerConfig} {number : UInt32} :
    { overlay stale config entries with maxConnections := number } =
      { overlay stale config entries' with maxConnections := number } := by
  have hother : ∀ key ∈ ["Servers", "EnableIPv6", "NoBanner", "MaxGamePeers", "TickTimeBudget",
      "SettingsDatabase", "HTTP"], lookup key entries = lookup key entries' := by
    intro key hkey
    refine h key ?_ ?_
    · rintro rfl
      exact absurd hkey (by decide)
    · rintro rfl
      exact absurd hkey (by decide)
  simp only [List.forall_mem_cons] at hother
  obtain ⟨h1, h2, h3, h4, h5, h6, h7, -⟩ := hother
  simp only [overlay, h1, h2, h3, h4, h5, h6, h7]

/-- A number that is there is read alike under either name. -/
theorem readNodeScalar_eq {node : YamlNode} {n : Nat} (h : extract 32 node.asString = some n)
    (path : String) : readNodeScalar stale node path = UInt32.ofNat n := by
  show (extract 32 node.asString).elim (stale path) UInt32.ofNat = _
  rw [h]
  rfl

/-- What the loop is given, from the root that the file has: `MaxConnections` is there, and nothing
but it and `CCU` is different. -/
structure Checked (stale : Stale) (root root' : YamlMap) : Prop where
  sorted : Sorted root'
  readable : ∀ entry ∈ root', Readable stale entry
  maxConnections : lookup "MaxConnections" root' = some (child "MaxConnections" root)
  other : ∀ key, key ≠ "MaxConnections" → key ≠ "CCU" → lookup key root' = lookup key root

theorem readable_insert {key : String} (hkey : key = "MaxConnections" ∨ key = "CCU")
    (hreadable : ∀ entry ∈ root, Readable stale entry) :
    ∀ entry ∈ OrderedMap.insert key .none root, Readable stale entry := by
  intro entry hentry
  rcases OrderedMap.mem_insert hentry with rfl | hentry
  · rcases hkey with rfl | rfl
    · exact .maxConnections
    · exact .ccu
  · exact hreadable entry hentry

/-- Looking `MaxConnections` up. -/
theorem Checked.first (hsorted : Sorted root) (hreadable : ∀ entry ∈ root, Readable stale entry) :
    Checked stale root (getNode "MaxConnections" root).2 where
  sorted := OrderedMap.sorted_insert hsorted
  readable := readable_insert (.inl rfl) hreadable
  maxConnections := (OrderedMap.lookup_insert hsorted _).trans (if_pos rfl)
  other _ hkey _ := (OrderedMap.lookup_insert hsorted _).trans (if_neg hkey)

/-- Looking `CCU` up after it. -/
theorem Checked.second {root' : YamlMap} (h : Checked stale root root') :
    Checked stale root (getNode "CCU" root').2 where
  sorted := OrderedMap.sorted_insert h.sorted
  readable := readable_insert (.inr rfl) h.readable
  maxConnections :=
    (OrderedMap.lookup_insert h.sorted _).trans ((if_neg (by decide)).trans h.maxConnections)
  other key hkey hkey' :=
    (OrderedMap.lookup_insert h.sorted _).trans ((if_neg hkey').trans (h.other key hkey hkey'))

theorem checkAliases_eq (hsorted : Sorted root) (hreadable : ∀ entry ∈ root, Readable stale entry)
    (hgiven : (child "MaxConnections" root).isNone ∨ lookup "CCU" root = none) :
    ∃ root', checkAliases root = (false, root') ∧ Checked stale root root' := by
  have hfirst := Checked.first hsorted hreadable
  have hdef : checkAliases root =
      if (child "MaxConnections" root).isNone then (false, (getNode "MaxConnections" root).2)
      else (!(child "CCU" (getNode "MaxConnections" root).2).isNone,
        (getNode "CCU" (getNode "MaxConnections" root).2).2) := rfl
  rw [hdef]
  split
  · exact ⟨_, rfl, hfirst⟩
  · next hmax =>
    have hnone : (child "CCU" (getNode "MaxConnections" root).2).isNone := by
      rw [child_getNode hsorted]
      show ((lookup "CCU" root).getD .none).isNone = true
      rw [hgiven.resolve_left hmax]
      rfl
    rw [hnone]
    exact ⟨_, rfl, hfirst.second⟩

theorem Checked.overlay_eq {root' : YamlMap} (h : Checked stale root root')
    (config : ServerManagerConfig) :
    overlay stale config root' = { overlay stale config root with
      maxConnections := connections stale root "MaxConnections" } := by
  rw [← overlay_with_congr h.other]
  simp only [overlay, h.maxConnections, Option.elim_some, connections]

/-- The number of connections is read from `MaxConnections` alone, there or not. -/
theorem parseEntries_eq (h : WellFormed stale entries) : parseEntries stale entries =
    .ok { described stale entries with
      maxConnections := connections stale entries "MaxConnections" } := by
  have hlookup := OrderedMap.lookup_ofEntries h.distinct
  obtain ⟨root', hcheck, hchecked⟩ := checkAliases_eq (OrderedMap.sorted_ofEntries entries)
    (fun entry hentry => h.readable entry (OrderedMap.mem_ofEntries hentry)) (by
      show ((lookup "MaxConnections" (ofEntries entries)).getD .none).isNone = true ∨ _
      rw [hlookup, hlookup]
      cases hmax : lookup "MaxConnections" entries with
      | none => exact .inl rfl
      | some node =>
        have hmem := OrderedMap.mem_of_lookup hmax
        exact .inr (OrderedMap.lookup_eq_none.mpr
          (h.single (List.mem_map_of_mem (f := Prod.fst) hmem))))
  have hparse : parseEntries stale entries = root'.foldlM (parseEntry stale) {} := by
    rw [parseEntries, parseConfig, hcheck]
    rfl
  rw [hparse, foldlM_parseEntry hchecked.sorted hchecked.readable, hchecked.overlay_eq, described,
    overlay_congr hlookup, connections, child, getNode, hlookup]
  rfl

end Root

section Renaming

variable {stale : Stale} {entries : YamlMap}

theorem lookup_renamed (entries : YamlMap) (key : String) :
    lookup (Equiv.swap "CCU" "MaxConnections" key) (renamed entries) = lookup key entries :=
  OrderedMap.lookup_map (Equiv.injective _) key

theorem lookup_maxConnections_renamed :
    lookup "MaxConnections" (renamed entries) = lookup "CCU" entries := by
  rw [← lookup_renamed entries "CCU", Equiv.swap_apply_left]

theorem lookup_renamed_of_ne (key : String) (hmax : key ≠ "MaxConnections") (hccu : key ≠ "CCU") :
    lookup key (renamed entries) = lookup key entries := by
  rw [← lookup_renamed entries key, Equiv.swap_apply_of_ne_of_ne hccu hmax]

theorem Readable.renamed {entry : String × YamlNode} (h : Readable stale entry) :
    Readable stale (Equiv.swap "CCU" "MaxConnections" entry.1, entry.2) := by
  by_cases hccu : entry.1 = "CCU"
  · rw [hccu, Equiv.swap_apply_left]
    exact .maxConnections
  · by_cases hmax : entry.1 = "MaxConnections"
    · rw [hmax, Equiv.swap_apply_right]
      exact .ccu
    · rwa [Equiv.swap_apply_of_ne_of_ne hccu hmax]

theorem swap_mem_numberKeys {key : String}
    (hkey : Equiv.swap "CCU" "MaxConnections" key ∈ numberKeys) : key ∈ numberKeys := by
  by_cases hccu : key = "CCU"
  · rw [hccu]
    decide
  · by_cases hmax : key = "MaxConnections"
    · rw [hmax]
      decide
    · rwa [Equiv.swap_apply_of_ne_of_ne hccu hmax] at hkey

theorem mem_renamed {entry : String × YamlNode} (hentry : entry ∈ renamed entries) :
    ∃ key, (key, entry.2) ∈ entries ∧ Equiv.swap "CCU" "MaxConnections" key = entry.1 := by
  obtain ⟨⟨key, node⟩, hmem, rfl⟩ := List.mem_map.mp hentry
  exact ⟨key, hmem, rfl⟩

theorem keys_renamed : (renamed entries).map Prod.fst =
    (entries.map Prod.fst).map (Equiv.swap "CCU" "MaxConnections") := by
  rw [renamed, List.map_map, List.map_map]
  rfl

theorem mem_keys_renamed {key : String} :
    Equiv.swap "CCU" "MaxConnections" key ∈ (renamed entries).map Prod.fst ↔
      key ∈ entries.map Prod.fst := by
  rw [keys_renamed]
  exact List.mem_map_of_injective (Equiv.injective _)

theorem WellFormed.renamed (h : WellFormed stale entries) : WellFormed stale (renamed entries) where
  distinct := by
    rw [keys_renamed]
    exact h.distinct.map (Equiv.injective _)
  readable entry hentry := by
    obtain ⟨key, hmem, heq⟩ := mem_renamed hentry
    have hreadable := (h.readable _ hmem).renamed
    rwa [heq] at hreadable
  number key node hentry hkey := by
    obtain ⟨key', hmem, rfl⟩ := mem_renamed hentry
    exact h.number key' node hmem (swap_mem_numberKeys hkey)
  single hmax hccu := by
    rw [← Equiv.swap_apply_left "CCU" "MaxConnections", mem_keys_renamed] at hmax
    rw [← Equiv.swap_apply_right "CCU" "MaxConnections", mem_keys_renamed] at hccu
    exact h.single hccu hmax

/-- The result under the other name. -/
theorem parseEntries_renamed (h : WellFormed stale entries) :
    parseEntries stale (renamed entries) =
      .ok { described stale entries with maxConnections := connections stale entries "CCU" } := by
  have hchild : child "MaxConnections" (renamed entries) = child "CCU" entries :=
    congrArg (fun found : Option YamlNode => found.getD .none) lookup_maxConnections_renamed
  rw [parseEntries_eq h.renamed, connections, hchild]
  exact congrArg Except.ok (overlay_with_congr lookup_renamed_of_ne)

end Renaming

section Conforms

variable {stale : Stale} {entries : YamlMap}

theorem parseEntries_perm (h : WellFormed stale entries) {entries' : YamlMap}
    (hperm : entries'.Perm entries) : parseEntries stale entries' = parseEntries stale entries := by
  rw [parseEntries, OrderedMap.ofEntries_eq_of_perm hperm h.distinct]
  rfl

/-- A result with another number of connections. -/
theorem ok_with_iff {config : ServerManagerConfig} {m n : UInt32} :
    (Except.ok { config with maxConnections := m } : Except String ServerManagerConfig) =
      .ok { config with maxConnections := n } ↔ m = n := by
  simp

theorem fields_iff (h : WellFormed stale entries) :
    parseEntries stale entries = .ok (described stale entries) ↔
      connections stale entries "MaxConnections" = (described stale entries).maxConnections := by
  rw [parseEntries_eq h]
  exact ok_with_iff

theorem aliases_iff (h : WellFormed stale entries) :
    parseEntries stale (renamed entries) = parseEntries stale entries ↔
      connections stale entries "CCU" = connections stale entries "MaxConnections" := by
  rw [parseEntries_eq h, parseEntries_renamed h]
  exact ok_with_iff

/-- What the parser reads for the number of connections, and what it reads under the other name. -/
theorem connections_cases (h : WellFormed stale entries) :
    ("MaxConnections" ∈ entries.map Prod.fst ∧
        connections stale entries "MaxConnections" = (described stale entries).maxConnections ∧
        connections stale entries "CCU" = stale "MaxConnections") ∨
      ("MaxConnections" ∉ entries.map Prod.fst ∧
        connections stale entries "MaxConnections" = stale "MaxConnections" ∧
        (connections stale entries "CCU" = (described stale entries).maxConnections ∨
          connections stale entries "CCU" = stale "MaxConnections")) := by
  have hnumber : (described stale entries).maxConnections =
      (lookup "MaxConnections" entries).elim
        ((lookup "CCU" entries).elim 0 (readNodeScalar stale · "CCU"))
        (readNodeScalar stale · "MaxConnections") := rfl
  have hread : ∀ key, connections stale entries key =
      readNodeScalar stale ((lookup key entries).getD .none) "MaxConnections" := fun _ => rfl
  cases hmax : lookup "MaxConnections" entries with
  | some node =>
    have hgiven : "MaxConnections" ∈ entries.map Prod.fst :=
      List.mem_map_of_mem (f := Prod.fst) (OrderedMap.mem_of_lookup hmax)
    refine .inl ⟨hgiven, ?_, ?_⟩
    · rw [hread, hnumber, hmax]
      rfl
    · rw [hread, OrderedMap.lookup_eq_none.mpr (h.single hgiven)]
      rfl
  | none =>
    refine .inr ⟨OrderedMap.lookup_eq_none.mp hmax, ?_, ?_⟩
    · rw [hread, hmax]
      rfl
    · cases hccu : lookup "CCU" entries with
      | none =>
        right
        rw [hread, hccu]
        rfl
      | some node =>
        left
        obtain ⟨n, hn⟩ := h.number _ node (OrderedMap.mem_of_lookup hccu) (by decide)
        rw [hread, hnumber, hmax, hccu]
        exact (readNodeScalar_eq hn _).trans (readNodeScalar_eq hn _).symm

/-- The parser does so exactly when the number that it makes of an empty node is the one that the
file gives.  The fields alone are right too when the file has `MaxConnections`. -/
theorem conforms_iff (h : WellFormed stale entries) :
    (Conforms stale entries ↔
      stale "MaxConnections" = (described stale entries).maxConnections) ∧
    (parseEntries stale entries = .ok (described stale entries) ↔
      "MaxConnections" ∈ entries.map Prod.fst ∨
        stale "MaxConnections" = (described stale entries).maxConnections) := by
  have hconforms : Conforms stale entries ↔
      parseEntries stale entries = .ok (described stale entries) ∧
        parseEntries stale (renamed entries) = parseEntries stale entries :=
    ⟨fun hf => ⟨hf.fields, hf.aliases⟩,
      fun hf => ⟨hf.1, fun _ hperm => parseEntries_perm h hperm, hf.2⟩⟩
  rw [hconforms, fields_iff h, aliases_iff h]
  rcases connections_cases h with ⟨hgiven, hmax, hccu⟩ | ⟨hnone, hmax, hccu⟩
  · rw [hmax, hccu]
    exact ⟨and_iff_right rfl, iff_of_true rfl (.inl hgiven)⟩
  · rw [hmax]
    refine ⟨⟨fun hf => hf.1, fun hf => ⟨hf, ?_⟩⟩, ⟨.inr, fun hf => hf.resolve_left hnone⟩⟩
    rcases hccu with hccu | hccu
    · rw [hccu, hf]
    · exact hccu

/-- Twenty connections, and 7 where the variable is. -/
def twenty : YamlMap := [("CCU", .scalar "20"), ("NoBanner", .scalar "true")]

theorem wellFormed_twenty : WellFormed (fun _ => 7) twenty where
  distinct := by decide
  readable := by
    simp only [twenty, List.forall_mem_cons]
    exact ⟨.ccu, .noBanner, nofun⟩
  number key node hentry hkey := by
    simp only [twenty, List.mem_cons, List.not_mem_nil, or_false, Prod.mk.injEq] at hentry
    rcases hentry with ⟨rfl, rfl⟩ | ⟨rfl, rfl⟩
    · exact ⟨20, by decide +kernel⟩
    · exact absurd hkey (by decide)
  single := by decide

theorem conforms_iff_twenty : WellFormed (fun _ => 7) twenty ∧
    (Conforms (fun _ => 7) twenty ↔
      (7 : UInt32) = (described (fun _ => 7) twenty).maxConnections) :=
  ⟨wellFormed_twenty, (conforms_iff wellFormed_twenty).1⟩

/-- The file says 20 connections, and the server takes the 7 that an empty node was read as. -/
theorem not_conforms_twenty : WellFormed (fun _ => 7) twenty ∧
    ((parseEntries (fun _ => 7) twenty).toOption.map (·.maxConnections) = some 7) ∧
    (described (fun _ => 7) twenty).maxConnections = 20 ∧ ¬ Conforms (fun _ => 7) twenty := by
  have hparsed : (parseEntries (fun _ => 7) twenty).toOption.map (·.maxConnections) = some 7 := by
    decide +kernel
  have hdescribed : (described (fun _ => 7) twenty).maxConnections = 20 := by decide +kernel
  refine ⟨wellFormed_twenty, hparsed, hdescribed, fun hf => ?_⟩
  rw [hf.fields] at hparsed
  have hbad : some (described (fun _ => 7) twenty).maxConnections = some 7 := hparsed
  rw [hdescribed] at hbad
  exact absurd hbad (by decide)

end Conforms

end ConfigParser

end LuxonServer
