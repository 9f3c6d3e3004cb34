import Wander.Structs.Job

/-!
# `scheduler/util.go`: when an update has to replace an allocation

`tasksUpdated` compares a task group in two versions of a job. A `comparison` that is `modified`
makes the reconciler replace the allocation (a destructive update); otherwise it is updated in
place. The comparison is a chain of checks, each returning the first difference it finds: the
group's networks, affinities, spreads, Consul namespace, Connect services, volumes and restart
policy, then each task by name. `firstDifference` is that chain, and it is modified exactly when
one of its checks is (`modified_firstDifference`).

A job compared with itself shows no difference when the names of its group's tasks, of the
group's services and of each task's devices are distinct (`tasksUpdated_self`): a lookup by name
then finds the same entry, and every check compares equal values. The comparison is not
symmetric. `connectServiceUpdated` visits the first version's services with a Connect block only,
and looks the second version's service up by name: a Connect block that the second version has
and the first lacks goes unseen. The scheduler passes the new job first, so adding Connect to a
service replaces the allocation while removing it updates the allocation in place
(`tasksUpdated_connect_asymmetric`).

The values `difference` prints are left out. The blocks the checks compare with an `Equal` of all
their fields are `Block`s (see `Wander.Structs.Job`).
-/

set_option autoImplicit false
set_option relaxedAutoImplicit false

namespace Wander.Scheduler

open Wander.Lib Wander.Structs GoMap

/-- `comparison`, less the values it prints. -/
structure Comparison where
  modified : Bool
  label : String := ""
deriving DecidableEq, Repr

/-- `difference`. -/
def difference (label : String) : Comparison := { modified := true, label := label }

/-- `same`. -/
def same : Comparison := { modified := false }

/-- One check of the chain: `difference label` when the values changed. -/
def check (changed : Bool) (label : String) : Comparison :=
  if changed then difference label else same

/-- A chain of checks, each returning its difference: the first difference found. -/
def firstDifference (cs : List Comparison) : Comparison := (cs.find? (·.modified)).getD same

@[simp] theorem check_false (label : String) : check false label = same := rfl

@[simp] theorem modified_check (changed : Bool) (label : String) :
    (check changed label).modified = changed := by
  cases changed <;> rfl

@[simp] theorem modified_firstDifference (cs : List Comparison) :
    (firstDifference cs).modified = cs.any (·.modified) := by
  induction cs with
  | nil => rfl
  | cons c cs ih =>
    unfold firstDifference at ih ⊢
    cases hc : c.modified <;> simp [hc, ih]

/-- A chain in which no check finds a difference finds none. -/
theorem firstDifference_eq_same {cs : List Comparison} (h : ∀ c ∈ cs, c = same) :
    firstDifference cs = same := by
  have hnone : cs.find? (·.modified) = none := by
    rw [List.find?_eq_none]
    intro c hc
    rw [h c hc]
    decide
  rw [firstDifference, hnone, Option.getD_none]

/-! ### The checks -/

/-- `networkPortMap`: the ports of a network as allocated port mappings, the value of a dynamic
port disregarded. -/
def networkPortMap (n : NetworkResource) : List AllocatedPortMapping :=
  n.reservedPorts.map (fun p ↦
      { label := p.label, value := p.value, «to» := p.to, hostIP := p.hostNetwork }) ++
    n.dynamicPorts.map (fun p ↦
      { label := p.label, value := -1, «to» := p.to, hostIP := p.hostNetwork })

/-- The checks `networkUpdated` makes of one pair of networks. -/
def networkResourceUpdated (an bn : NetworkResource) : Comparison :=
  firstDifference
    [check (an.mode != bn.mode) "network mode",
      check (an.mBits != bn.mBits) "network mbits",
      check (an.hostname != bn.hostname) "network hostname",
      check (an.dns != bn.dns) "network dns",
      check (networkPortMap an != networkPortMap bn) "network port map"]

/-- `networkUpdated`: networks are compared by position. -/
def networkUpdated (netA netB : List NetworkResource) : Comparison :=
  if netA.length ≠ netB.length then difference "network lengths"
  else firstDifference (List.zipWith networkResourceUpdated netA netB)

/-- `affinitiesUpdated`, on the groups `tasksUpdated` looked up: the job's, the group's and the
tasks' affinities of each version, compared as sets. -/
def affinitiesUpdated (jobA jobB : Job) (tgA tgB : TaskGroup) : Comparison :=
  let affinitiesA := jobA.affinities ++ tgA.affinities ++ tgA.tasks.flatMap (·.affinities)
  let affinitiesB := jobB.affinities ++ tgB.affinities ++ tgB.tasks.flatMap (·.affinities)
  check (!affinitiesEqual affinitiesA affinitiesB) "affinities"

/-- `spreadsUpdated`, on the groups `tasksUpdated` looked up: the job's and the group's spreads,
in order. -/
def spreadsUpdated (jobA jobB : Job) (tgA tgB : TaskGroup) : Comparison :=
  check (jobA.spreads ++ tgA.spreads != jobB.spreads ++ tgB.spreads) "spreads"

/-- `consulNamespaceUpdated`. `Consul.GetNamespace` returns the empty namespace in this build, so
the check never finds a difference. -/
def consulNamespaceUpdated (_tgA _tgB : TaskGroup) : Comparison :=
  let a := ""
  let b := ""
  check (a != b) "consul namespace"

/-- `connectSidecarServiceUpdated`. -/
def connectSidecarServiceUpdated (ssA ssB : Option ConsulSidecarService) : Comparison :=
  match ssA, ssB with
  | none, none => same
  | none, some _ => difference "connect service add"
  | some _, none => difference "connect service delete"
  | some ssA, some ssB => check (ssA.port != ssB.port) "connect port"

/-- `connectUpdated`: the fields of a Connect block that cannot change in place. -/
def connectUpdated (connectA connectB : Option ConsulConnect) : Comparison :=
  match connectA, connectB with
  | none, none => same
  | none, some _ => difference "connect added"
  | some _, none => difference "connect removed"
  | some connectA, some connectB =>
    firstDifference
      [check (connectA.native != connectB.native) "connect native",
        check (connectA.gateway != connectB.gateway) "connect gateway",
        check (connectA.sidecarTask != connectB.sidecarTask) "connect sidecar task",
        connectSidecarServiceUpdated connectA.sidecarService connectB.sidecarService]

/-- The loop body of `connectServiceUpdated` for one service of the first version: only a
service with a Connect block is compared, with the first service of its name in the second
version. -/
def connectServiceUpdatedOne (servicesB : List Service) (serviceA : Service) : Comparison :=
  match serviceA.connect with
  | none => same
  | some _ =>
    match servicesB.find? (fun serviceB ↦ serviceB.name = serviceA.name) with
    | none => same
    | some serviceB =>
      firstDifference
        [connectUpdated serviceA.connect serviceB.connect,
          -- part of the Connect plumbing is derived from the port label
          check (serviceA.portLabel != serviceB.portLabel) "connect service port label"]

/-- `connectServiceUpdated`. -/
def connectServiceUpdated (servicesA servicesB : List Service) : Comparison :=
  firstDifference (servicesA.map (connectServiceUpdatedOne servicesB))

/-- `renderTemplatesUpdated`: a restart policy that is absent does not render templates. -/
def renderTemplatesUpdated (a b : Option RestartPolicy) (msg : String) : Comparison :=
  let noRenderA := match a with
    | none => true
    | some a => !a.renderTemplates
  let noRenderB := match b with
    | none => true
    | some b => !b.renderTemplates
  if noRenderA && !noRenderB then difference msg
  else if !noRenderA && noRenderB then difference msg
  else same

/-- `nonNetworkResourcesUpdated`. -/
def nonNetworkResourcesUpdated (a b : Resources) : Comparison :=
  firstDifference
    [check (a.cpu != b.cpu) "task cpu",
      check (a.cores != b.cores) "task cores",
      check (a.memoryMB != b.memoryMB) "task memory",
      check (a.memoryMaxMB != b.memoryMaxMB) "task memory max",
      check (!resourceDevicesEqual a.devices b.devices) "task devices"]

/-- The loop body of `tasksUpdated` for one task of the first version, compared with the first
task of its name in the second version's group `b`. -/
def taskUpdated (jobA jobB : Job) (taskGroup : String) (b : TaskGroup) (taskA : Task) :
    Comparison :=
  match b.lookupTask taskA.name with
  | none => difference "task deleted"
  | some taskB =>
    firstDifference
      [check (taskA.driver != taskB.driver) "task driver",
        check (taskA.user != taskB.user) "task user",
        check (!mapsEqual taskA.config taskB.config) "task config",
        check (!mapsEqual taskA.env taskB.env) "task env",
        check (taskA.artifacts != taskB.artifacts) "task artifacts",
        check (taskA.vault != taskB.vault) "task vault",
        check (taskA.templates != taskB.templates) "task templates",
        check (taskA.csiPluginConfig != taskB.csiPluginConfig) "task csi config",
        check (taskA.volumeMounts != taskB.volumeMounts) "task volume mount",
        check (!mapsEqual (jobA.combinedTaskMeta taskGroup taskA.name)
          (jobB.combinedTaskMeta taskGroup taskB.name)) "task meta",
        networkUpdated taskA.resources.networks taskB.resources.networks,
        nonNetworkResourcesUpdated taskA.resources taskB.resources,
        check (taskA.identity != taskB.identity) "task identity",
        check (taskA.logConfig.disabled != taskB.logConfig.disabled) "task log disabled",
        renderTemplatesUpdated taskA.restartPolicy taskB.restartPolicy
          "task restart render_templates"]

/-- `tasksUpdated`: `none` when a version lacks the group, whose fields the source then reads
through a nil pointer. -/
def tasksUpdated (jobA jobB : Job) (taskGroup : String) : Option Comparison :=
  match jobA.lookupTaskGroup taskGroup, jobB.lookupTaskGroup taskGroup with
  | some a, some b =>
    some <| firstDifference
      [check (a.tasks.length != b.tasks.length) "number of tasks",
        check (a.ephemeralDisk != b.ephemeralDisk) "ephemeral disk",
        networkUpdated a.networks b.networks,
        affinitiesUpdated jobA jobB a b,
        spreadsUpdated jobA jobB a b,
        consulNamespaceUpdated a b,
        connectServiceUpdated a.services b.services,
        -- no task driver can change its mounts in place
        check (!mapsEqual a.volumes b.volumes) "volume request",
        renderTemplatesUpdated a.restartPolicy b.restartPolicy "group restart render_templates",
        firstDifference (a.tasks.map (taskUpdated jobA jobB taskGroup b))]
  | _, _ => none

/-! ### The jobs of the examples

One group `web` with one task and a service `web`, with or without a native Connect block. -/

/-- A native Connect block. -/
def nativeConnect : ConsulConnect := { native := true }

/-- The group, its service with the given Connect block. -/
def connectGroup (connect : Option ConsulConnect) : TaskGroup :=
  { name := "web"
    count := 1
    tasks := [{ name := "server", driver := "docker" }]
    services := [{ name := "web", portLabel := "http", connect := connect }] }

/-- The job of the group. -/
def connectJob (connect : Option ConsulConnect) : Job :=
  { id := "web"
    «namespace» := defaultNamespace
    type := jobTypeService
    taskGroups := [connectGroup connect] }

/-! ### A version compared with itself -/

section Self

variable (jobA : Job) (taskGroup : String)

@[simp] theorem networkResourceUpdated_self (n : NetworkResource) :
    networkResourceUpdated n n = same :=
  firstDifference_eq_same (by simp)

@[simp] theorem networkUpdated_self (netA : List NetworkResource) :
    networkUpdated netA netA = same := by
  rw [networkUpdated, if_neg (not_not.mpr rfl), List.zipWith_self]
  exact firstDifference_eq_same (by simp)

@[simp] theorem connectSidecarServiceUpdated_self (ss : Option ConsulSidecarService) :
    connectSidecarServiceUpdated ss ss = same := by
  cases ss <;> simp [connectSidecarServiceUpdated]

@[simp] theorem connectUpdated_self (c : Option ConsulConnect) : connectUpdated c c = same := by
  cases c with
  | none => rfl
  | some c => exact firstDifference_eq_same (by simp)

/-- A group whose services have distinct names finds each Connect service's own entry. -/
theorem connectServiceUpdated_self (services : List Service)
    (hservices : (services.map (·.name)).Nodup) :
    connectServiceUpdated services services = same := by
  refine firstDifference_eq_same fun c hc ↦ ?_
  obtain ⟨service, hservice, rfl⟩ := List.mem_map.mp hc
  unfold connectServiceUpdatedOne
  split
  · rfl
  · rw [GoMap.find?_key_eq_of_nodup (·.name) hservices hservice]
    exact firstDifference_eq_same (by simp)

@[simp] theorem renderTemplatesUpdated_self (r : Option RestartPolicy) (msg : String) :
    renderTemplatesUpdated r r msg = same := by
  unfold renderTemplatesUpdated
  cases r <;> simp

theorem nonNetworkResourcesUpdated_self (r : Resources)
    (hdevices : (r.devices.map (·.name)).Nodup) :
    nonNetworkResourcesUpdated r r = same :=
  firstDifference_eq_same (by simp [resourceDevicesEqual_self r.devices hdevices])

/-- A task compared with itself, in a group of distinctly named tasks. -/
theorem taskUpdated_self (b : TaskGroup) (htasks : (b.tasks.map (·.name)).Nodup) (taskA : Task)
    (htask : taskA ∈ b.tasks) (hdevices : (taskA.resources.devices.map (·.name)).Nodup) :
    taskUpdated jobA jobA taskGroup b taskA = same := by
  have hlookup : b.lookupTask taskA.name = some taskA :=
    GoMap.find?_key_eq_of_nodup (fun t : Structs.Task ↦ t.name) htasks htask
  rw [taskUpdated, hlookup]
  exact firstDifference_eq_same
    (by simp [mapsEqual_self, nonNetworkResourcesUpdated_self _ hdevices])

end Self

/-- A job compared with itself shows no difference, when its group's tasks, its group's
services and each task's devices have distinct names. -/
theorem tasksUpdated_self (job : Job) (taskGroup : String) (tg : TaskGroup)
    (htg : job.lookupTaskGroup taskGroup = some tg) (htasks : (tg.tasks.map (·.name)).Nodup)
    (hservices : (tg.services.map (·.name)).Nodup)
    (hdevices : ∀ t ∈ tg.tasks, (t.resources.devices.map (·.name)).Nodup) :
    tasksUpdated job job taskGroup = some same := by
  have htaskChecks : firstDifference (tg.tasks.map (taskUpdated job job taskGroup tg)) = same :=
    firstDifference_eq_same fun c hc ↦ by
      obtain ⟨t, ht, rfl⟩ := List.mem_map.mp hc
      exact taskUpdated_self job taskGroup tg htasks t ht (hdevices t ht)
  rw [tasksUpdated, htg]
  refine congrArg some (firstDifference_eq_same ?_)
  simp [affinitiesUpdated, affinitiesEqual, spreadsUpdated, consulNamespaceUpdated, mapsEqual_self,
    connectServiceUpdated_self _ hservices, htaskChecks]

theorem tasksUpdated_self_connectJob :
    (connectJob (some nativeConnect)).lookupTaskGroup "web" =
        some (connectGroup (some nativeConnect)) ∧
      ((connectGroup (some nativeConnect)).tasks.map (·.name)).Nodup ∧
      ((connectGroup (some nativeConnect)).services.map (·.name)).Nodup ∧
      (∀ t ∈ (connectGroup (some nativeConnect)).tasks,
        (t.resources.devices.map (·.name)).Nodup) ∧
      tasksUpdated (connectJob (some nativeConnect)) (connectJob (some nativeConnect)) "web" =
        some same :=
  have htg : (connectJob (some nativeConnect)).lookupTaskGroup "web" =
      some (connectGroup (some nativeConnect)) := by decide
  have htasks : ((connectGroup (some nativeConnect)).tasks.map (·.name)).Nodup := by decide
  have hservices : ((connectGroup (some nativeConnect)).services.map (·.name)).Nodup := by decide
  have hdevices : ∀ t ∈ (connectGroup (some nativeConnect)).tasks,
      (t.resources.devices.map (·.name)).Nodup := by decide
  ⟨htg, htasks, hservices, hdevices,
    tasksUpdated_self _ _ _ htg htasks hservices hdevices⟩

/-! ### Connect added and Connect removed -/

/-- The reconciler calls `tasksUpdated` with the new job first. A new job without the Connect
block the running one has shows no difference, and the allocation is updated in place; a new
job that adds the block is a difference, reported as "connect removed", and the allocation is
replaced. -/
theorem tasksUpdated_connect_asymmetric :
    tasksUpdated (connectJob none) (connectJob (some nativeConnect)) "web" = some same ∧
      tasksUpdated (connectJob (some nativeConnect)) (connectJob none) "web" =
        some (difference "connect removed") := by
  decide +kernel

end Wander.Scheduler
