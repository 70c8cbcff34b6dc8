import CsmProxy.Foundations.Listing
import CsmProxy.Requests.Streams
import Mathlib.Data.String.Basic

/-!
# Instances as resources

`list_instances_json`, `get_instance_json` and the resources of `mcp.rs`. The instance map is
a hash table, so its ids come in any order, which is a parameter here; a resource's text is
the JSON value that the source prints.

A client can read exactly the resources that it is shown (`listed_iff_readable`), and the list
of the instances does not depend on the order of the table (`list_instances_canonical`).
-/

namespace CsmProxy

open Foundations

/-! ## The instances -/

/-- `snapshot_json` -/
structure InstanceJson where
  instanceId : String
  register : Register
  lastHeartbeat : Option Heartbeat
deriving DecidableEq

/-- `snapshots`, of a map with its ids in this order. -/
def InstanceMap.snapshots (m : InstanceMap) (order : List String) : List InstanceSnapshot :=
  order.filterMap m.get

namespace McpServer

/-- `snapshot_json` -/
def snapshotJson (snap : InstanceSnapshot) : InstanceJson where
  instanceId := snap.register.instanceId
  register := snap.register
  lastHeartbeat := snap.lastHeartbeat

/-- `list_instances_json` -/
def listInstancesJson (m : InstanceMap) (order : List String) : List InstanceJson :=
  sortByKey InstanceJson.instanceId ((m.snapshots order).map snapshotJson)

/-- `get_instance_json` -/
def getInstanceJson (m : InstanceMap) (instanceId : Option String) : Except ToolError InstanceJson :=
  (resolve m instanceId).map snapshotJson

end McpServer

/-! ## The resources -/

/-- `CAPABILITIES_URI` -/
def capabilitiesUri : String := "csm://capabilities"

/-- `INSTANCES_URI` -/
def instancesUri : String := "csm://instances"

/-- `INSTANCE_URI_PREFIX` -/
def instanceUriPrefix : String := "csm://instances/"

/-- `instance_uri` -/
def instanceUri (id : String) : String := instanceUriPrefix ++ id

/-- `str::strip_prefix` -/
def stripPrefix (pre text : String) : Option String :=
  if pre.toList <+: text.toList then some (.ofList (text.toList.drop pre.toList.length)) else none

/-- An entry of `resources/list`. -/
structure Resource where
  uri : String
  name : String
  description : String
deriving DecidableEq

/-- What `capabilities_document` takes from the configuration; the rest of it is constant. -/
structure Capabilities where
  spawnConfigured : Bool
  autoSleepDefault : Bool
  waitMsDefault : UInt32
deriving DecidableEq

/-- What is read. -/
inductive ResourceText where
  | capabilities (document : Capabilities)
  | instances (list : List InstanceJson)
  | snapshot (json : InstanceJson)
deriving DecidableEq

structure ResourceContents where
  text : ResourceText
  uri : String
deriving DecidableEq

/-- `resource_not_found`, with the uri in its data. -/
structure ResourceNotFound where
  uri : String
deriving DecidableEq

namespace McpServer

/-- `list_resources` -/
def listResources (order : List String) : List Resource :=
  [⟨capabilitiesUri, "capabilities",
      "Machine-readable MCP surface: tools, resources, instance-id rules, and spawn"⟩,
    ⟨instancesUri, "instances", "Connected simulator instances (register and last heartbeat)"⟩] ++
  (sortByKey id order).map fun id => ⟨instanceUri id, id, "One connected instance snapshot"⟩

/-- `capabilities_document` -/
def capabilitiesDocument (config : SpawnConfig) : Capabilities where
  spawnConfigured := config.binary.isSome
  autoSleepDefault := config.autoSleepDefault
  waitMsDefault := config.observeWaitMs

/-- `read_instance_resource` -/
def readInstanceResource (m : InstanceMap) (id : String) : Except ResourceNotFound InstanceJson :=
  (getInstanceJson m (some id)).mapError fun _ => ⟨instanceUri id⟩

/-- `read_resource` -/
def readResource (m : InstanceMap) (config : SpawnConfig) (order : List String) (uri : String) :
    Except ResourceNotFound ResourceContents :=
  if uri = capabilitiesUri then .ok ⟨.capabilities (capabilitiesDocument config), capabilitiesUri⟩
  else if uri = instancesUri then .ok ⟨.instances (listInstancesJson m order), instancesUri⟩
  else
    match stripPrefix instanceUriPrefix uri with
    | some id =>
      if id ≠ "" then (readInstanceResource m id).map fun json => ⟨.snapshot json, uri⟩
      else .error ⟨uri⟩
    | none => .error ⟨uri⟩

end McpServer

/-! ## Uris -/

theorem stripPrefix_eq_some {pre text rest : String} :
    stripPrefix pre text = some rest ↔ text = pre ++ rest := by
  unfold stripPrefix
  constructor
  · intro h
    split at h
    · rename_i hprefix
      obtain ⟨tail, htail⟩ := hprefix
      cases h
      rw [← htail, List.drop_left]
      refine String.toList_inj.mp ?_
      rw [String.toList_append, String.toList_ofList, htail]
    · cases h
  · rintro rfl
    rw [String.toList_append, if_pos (List.prefix_append _ _), List.drop_left, String.ofList_toList]

/-! ## One map -/

/-- Every entry is stored under the id of its registration, which is a valid one. -/
def InstanceMap.EntriesNamed (m : InstanceMap) : Prop :=
  ∀ id inst, m.inner.lookup id = some inst →
    inst.register.instanceId = id ∧ isValidInstanceId id = true

namespace InstanceMap

variable {m : InstanceMap}

theorem EntriesNamed.get (hm : m.EntriesNamed) {id : String} {snap : InstanceSnapshot}
    (h : m.get id = some snap) : snap.register.instanceId = id ∧ isValidInstanceId id = true := by
  obtain ⟨inst, hid, rfl⟩ := Option.map_eq_some_iff.mp h
  exact hm id inst hid

theorem EntriesNamed.resolve_iff (hm : m.EntriesNamed) {id : String} {snap : InstanceSnapshot} :
    m.resolve id = .ok snap ↔ m.get id = some snap := by
  unfold resolve
  constructor
  · intro h
    split at h
    · cases h
    · split at h <;> cases h
      assumption
  · intro h
    rw [(hm.get h).2, h]
    rfl

theorem EntriesNamed.snapshots_ids (hm : m.EntriesNamed) {order : List String}
    (hids : ∀ id ∈ order, ∃ inst, m.inner.lookup id = some inst) :
    ((m.snapshots order).map McpServer.snapshotJson).map InstanceJson.instanceId = order := by
  induction order with
  | nil => rfl
  | cons id rest ih =>
    obtain ⟨inst, hid⟩ := hids id List.mem_cons_self
    have hget : m.get id = some ⟨inst.token, inst.register, inst.lastHeartbeat⟩ :=
      congrArg (Option.map _) hid
    rw [snapshots, List.filterMap_cons, hget]
    refine List.cons_eq_cons.mpr ⟨(hm.get hget).1, ih fun id hmem => ?_⟩
    exact hids id (List.mem_cons_of_mem _ hmem)

end InstanceMap

namespace McpServer

variable {m : InstanceMap} {order order' : List String}

theorem getInstanceJson_ok (hm : m.EntriesNamed) {id : String} {json : InstanceJson} :
    getInstanceJson m (some id) = .ok json ↔
      ∃ snap, m.get id = some snap ∧ snapshotJson snap = json := by
  have hresolve : resolve m (some id) = (m.resolve id).mapError ToolError.ofResolve := rfl
  constructor
  · intro h
    rw [getInstanceJson, hresolve] at h
    cases hr : m.resolve id with
    | ok snap =>
      rw [hr] at h
      cases h
      exact ⟨snap, hm.resolve_iff.mp hr, rfl⟩
    | error err =>
      rw [hr] at h
      cases h
  · rintro ⟨snap, hget, rfl⟩
    rw [getInstanceJson, hresolve, hm.resolve_iff.mpr hget]
    rfl

theorem mem_listInstancesJson (hm : m.EntriesNamed) (hl : m.inner.Lists order) {json : InstanceJson} :
    json ∈ listInstancesJson m order ↔ ∃ id, getInstanceJson m (some id) = .ok json := by
  rw [listInstancesJson, mem_sortByKey, List.mem_map]
  constructor
  · rintro ⟨snap, hsnap, rfl⟩
    obtain ⟨id, -, hget⟩ := List.mem_filterMap.mp hsnap
    exact ⟨id, (getInstanceJson_ok hm).mpr ⟨snap, hget, rfl⟩⟩
  · rintro ⟨id, hjson⟩
    obtain ⟨snap, hget, rfl⟩ := (getInstanceJson_ok hm).mp hjson
    obtain ⟨inst, hid, -⟩ := Option.map_eq_some_iff.mp hget
    exact ⟨snap, List.mem_filterMap.mpr ⟨id, (hl.mem id).mpr ⟨inst, hid⟩, hget⟩, rfl⟩

theorem listInstancesJson_ids (hm : m.EntriesNamed) (hl : m.inner.Lists order) :
    ((m.snapshots order).map snapshotJson).map InstanceJson.instanceId = order :=
  hm.snapshots_ids fun id hid => (hl.mem id).mp hid

/-- An instance is listed under its uri. -/
theorem mem_listResources {uri : String} :
    uri ∈ (listResources order).map Resource.uri ↔
      uri = capabilitiesUri ∨ uri = instancesUri ∨ ∃ id ∈ order, instanceUri id = uri := by
  rw [listResources, List.map_append, List.map_map, List.mem_append]
  constructor
  · rintro (h | h)
    · rcases List.mem_pair.mp h with h | h
      · exact .inl h
      · exact .inr (.inl h)
    · obtain ⟨id, hid, rfl⟩ := List.mem_map.mp h
      exact .inr (.inr ⟨id, mem_sortByKey.mp hid, rfl⟩)
  · rintro (rfl | rfl | ⟨id, hid, rfl⟩)
    · exact .inl (List.mem_pair.mpr (.inl rfl))
    · exact .inl (List.mem_pair.mpr (.inr rfl))
    · exact .inr (List.mem_map.mpr ⟨id, mem_sortByKey.mpr hid, rfl⟩)

/-- What is read under each uri. -/
inductive Reads (m : InstanceMap) (config : SpawnConfig) (order : List String) (uri : String) :
    Except ResourceNotFound ResourceContents → Prop
  | capabilities (same : uri = capabilitiesUri) :
    Reads m config order uri (.ok ⟨.capabilities (capabilitiesDocument config), uri⟩)
  | instances (same : uri = instancesUri) :
    Reads m config order uri (.ok ⟨.instances (listInstancesJson m order), uri⟩)
  | snapshot {id : String} {json : InstanceJson} (same : uri = instanceUri id)
      (found : getInstanceJson m (some id) = .ok json) :
    Reads m config order uri (.ok ⟨.snapshot json, uri⟩)
  | missing (noCapabilities : uri ≠ capabilitiesUri) (noInstances : uri ≠ instancesUri)
      (noInstance : ∀ id json, uri = instanceUri id → getInstanceJson m (some id) ≠ .ok json) :
    Reads m config order uri (.error ⟨uri⟩)

theorem readResource_reads (m : InstanceMap) (config : SpawnConfig) (order : List String)
    (uri : String) : Reads m config order uri (readResource m config order uri) := by
  unfold readResource
  split
  · rename_i hcap
    subst hcap
    exact .capabilities rfl
  · rename_i hcap
    split
    · rename_i hinst
      subst hinst
      exact .instances rfl
    · rename_i hinst
      split
      · rename_i id hid
        have huri : uri = instanceUri id := stripPrefix_eq_some.mp hid
        have hsame : ∀ id', uri = instanceUri id' → id' = id := by
          intro id' huri'
          have hid' : stripPrefix instanceUriPrefix uri = some id' := stripPrefix_eq_some.mpr huri'
          exact Option.some.inj (hid'.symm.trans hid)
        split
        · rw [readInstanceResource]
          cases hget : getInstanceJson m (some id) with
          | ok json => exact .snapshot huri hget
          | error err =>
            rw [← huri]
            refine .missing hcap hinst fun id' json huri' hok => ?_
            rw [hsame id' huri', hget] at hok
            cases hok
        · rename_i hempty
          refine .missing hcap hinst fun id' json huri' hok => ?_
          rw [hsame id' huri', not_ne_iff.mp hempty] at hok
          cases hok
      · rename_i hnone
        refine .missing hcap hinst fun id json huri hok => ?_
        rw [stripPrefix_eq_some.mpr huri] at hnone
        cases hnone

end McpServer

/-! ## The server -/

/-- What is listed agrees with what can be read. -/
structure ResourcesAgree (m : InstanceMap) (config : SpawnConfig) (order order' : List String) :
    Prop where
  /-- A uri is listed if and only if it can be read. -/
  readable : ∀ uri, uri ∈ (McpServer.listResources order).map Resource.uri ↔
    ∃ contents, McpServer.readResource m config order' uri = .ok contents
  /-- What is read says under which uri, and an instance is the one that the uri names. -/
  named : ∀ uri contents, McpServer.readResource m config order' uri = .ok contents →
    contents.uri = uri ∧ ∀ json, contents.text = .snapshot json → uri = instanceUri json.instanceId
  /-- The error names the uri. -/
  missing : ∀ uri err, McpServer.readResource m config order' uri = .error err → err.uri = uri

theorem resources_agree {m : InstanceMap} (hm : m.EntriesNamed) (config : SpawnConfig)
    {order : List String} (hl : m.inner.Lists order) (order' : List String) :
    ResourcesAgree m config order order' := by
  refine ⟨fun uri => ?_, fun uri contents hread => ?_, fun uri err hread => ?_⟩
  · rw [McpServer.mem_listResources]
    have hreads := McpServer.readResource_reads m config order' uri
    generalize McpServer.readResource m config order' uri = result at hreads
    cases hreads with
    | capabilities same => exact ⟨fun _ => ⟨_, rfl⟩, fun _ => .inl same⟩
    | instances same => exact ⟨fun _ => ⟨_, rfl⟩, fun _ => .inr (.inl same)⟩
    | @snapshot id json same found =>
      refine ⟨fun _ => ⟨_, rfl⟩, fun _ => .inr (.inr ⟨id, ?_, same.symm⟩)⟩
      obtain ⟨snap, hget, -⟩ := (McpServer.getInstanceJson_ok hm).mp found
      obtain ⟨inst, hid, -⟩ := Option.map_eq_some_iff.mp hget
      exact (hl.mem id).mpr ⟨inst, hid⟩
    | missing noCapabilities noInstances noInstance =>
      refine ⟨fun h => ?_, fun ⟨contents, h⟩ => by cases h⟩
      rcases h with h | h | ⟨id, hid, huri⟩
      · exact absurd h noCapabilities
      · exact absurd h noInstances
      · obtain ⟨inst, hinst⟩ := (hl.mem id).mp hid
        have hget : m.get id = some ⟨inst.token, inst.register, inst.lastHeartbeat⟩ :=
          congrArg (Option.map _) hinst
        exact absurd ((McpServer.getInstanceJson_ok hm).mpr ⟨_, hget, rfl⟩)
          (noInstance id _ huri.symm)
  · have hreads := McpServer.readResource_reads m config order' uri
    rw [hread] at hreads
    cases hreads with
    | capabilities | instances => exact ⟨rfl, fun json h => by cases h⟩
    | @snapshot id json same found =>
      refine ⟨rfl, fun json' h => ?_⟩
      cases h
      obtain ⟨snap, hget, rfl⟩ := (McpServer.getInstanceJson_ok hm).mp found
      rw [same]
      exact congrArg instanceUri (hm.get hget).1.symm
  · have hreads := McpServer.readResource_reads m config order' uri
    rw [hread] at hreads
    cases hreads
    rfl

/-- **A client can read what it is shown.** In every state that the server can reach, whatever
the order of its table: the uris that are listed are those that can be read, each instance
under its own. -/
theorem listed_iff_readable {c₀ c : Config Host ServerTask} (boot : ServerBoot c₀)
    (run : server.Reach Pool.anyStep c₀ c) {order : List String}
    (hl : c.shared.instances.inner.Lists order) (order' : List String) :
    ResourcesAgree c.shared.instances c.shared.config order order' :=
  resources_agree (fun _ _ hid => server_entry boot run hid) _ hl order'

/-- Two simulators. -/
def twoStreams : Config Host ServerTask := serveWith [.task externalStream, .task externalStream]

theorem serverBoot_twoStreams : ServerBoot twoStreams := by
  refine serverBoot_serveWith fun t ht => ?_
  rcases List.mem_pair.mp ht with rfl | rfl <;> rfl

/-- They register, the first as `b` and the second as `a`. -/
def registerBoth : List (Nat × Choice) :=
  [(0, registerAs "b"), (0, .run), (0, .run), (1, registerAs "a"), (1, .run), (1, .run)]

theorem listed_iff_readable_twoStreams :
    ∃ c, server.Reach Pool.anyStep twoStreams c ∧ c.shared.instances.inner.Lists ["b", "a"] ∧
      ResourcesAgree c.shared.instances c.shared.config ["b", "a"] ["a", "b"] := by
  obtain ⟨c, run, hkeys⟩ := server.exists_reach Pool.anyStep twoStreams registerBoth
    (fun c => c.shared.instances.inner.keys = ["b", "a"].toFinset) (by decide +kernel)
  have hl : c.shared.instances.inner.Lists ["b", "a"] := .of_keys (by decide) hkeys
  exact ⟨c, run, hl, listed_iff_readable serverBoot_twoStreams run hl _⟩

/-- **The list of the instances.** In every state that the server can reach, it has each
connected instance once, in ascending order of ids and as `get_instance` answers, whatever the
order of the table. -/
theorem list_instances_canonical {c₀ c : Config Host ServerTask} (boot : ServerBoot c₀)
    (run : server.Reach Pool.anyStep c₀ c) {order order' : List String}
    (hl : c.shared.instances.inner.Lists order) (hl' : c.shared.instances.inner.Lists order') :
    let list := McpServer.listInstancesJson c.shared.instances order
    list = McpServer.listInstancesJson c.shared.instances order' ∧
      (list.map InstanceJson.instanceId).Pairwise (· < ·) ∧
      ∀ json, json ∈ list ↔
        ∃ id, McpServer.getInstanceJson c.shared.instances (some id) = .ok json := by
  have hm : c.shared.instances.EntriesNamed := fun _ _ hid => server_entry boot run hid
  have hnodup : (((c.shared.instances.snapshots order).map McpServer.snapshotJson).map
      InstanceJson.instanceId).Nodup := by
    rw [McpServer.listInstancesJson_ids hm hl]
    exact hl.nodup
  refine ⟨sortByKey_unique ?_ hnodup, sortByKey_strict hnodup,
    fun json => McpServer.mem_listInstancesJson hm hl⟩
  exact ((hl.perm hl').filterMap _).map _

theorem list_instances_canonical_twoStreams :
    ∃ c, server.Reach Pool.anyStep twoStreams c ∧
      let list := McpServer.listInstancesJson c.shared.instances ["b", "a"]
      list = McpServer.listInstancesJson c.shared.instances ["a", "b"] ∧
        (list.map InstanceJson.instanceId).Pairwise (· < ·) ∧
        ∀ json, json ∈ list ↔
          ∃ id, McpServer.getInstanceJson c.shared.instances (some id) = .ok json := by
  obtain ⟨c, run, hkeys⟩ := server.exists_reach Pool.anyStep twoStreams registerBoth
    (fun c => c.shared.instances.inner.keys = ["b", "a"].toFinset ∧
      c.shared.instances.inner.keys = ["a", "b"].toFinset) (by decide +kernel)
  have hl : c.shared.instances.inner.Lists ["b", "a"] := .of_keys (by decide) hkeys.1
  have hl' : c.shared.instances.inner.Lists ["a", "b"] := .of_keys (by decide) hkeys.2
  exact ⟨c, run, list_instances_canonical serverBoot_twoStreams run hl hl'⟩

end CsmProxy
