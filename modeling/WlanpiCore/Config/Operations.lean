import WlanpiCore.Config.Store

/-!
# Operations on profiles

`edit_config`, `delete_config`, `activate_config`, `deactivate_config` and `revert_all`. Each is put
together from named parts (`beginActivation`, `teardownProfile`, `applyOrRollback`, …) that later
modules reason about one at a time.
-/

namespace WlanpiCore

open Prog

section

variable (E : Env)

/-- `network_change_lock`. It does not wait. -/
def networkChangeLock {α : Type} (body : Store α) : Store α := do
  let w ← get
  if w.locked then
    raise (.configBusy "Another network configuration change is in progress; try again.")
  else
    ensuring (do update ({ · with locked := true }); body) (update ({ · with locked := false }))

/-- Run `body` for each element in turn, whatever the ones before raised. -/
def forEachQuietly {α : Type} (body : α → Store Unit) : List α → Store Unit
  | [] => return ()
  | a :: as => do
    attempt (body a) fun _ => return ()
    forEachQuietly body as

/-- Run `body` for each element in turn, up to the first that raises. -/
def forEach {α : Type} (body : α → Store Unit) : List α → Store Unit
  | [] => return ()
  | a :: as => do
    body a
    forEach body as

/-! ## Editing -/

/-- The key an entry's secrets are kept under. -/
abbrev SecretKey := Option Text × Text

/-- `by_key`: the entries of a profile with their keys, in the order they are put in the
dictionary. -/
def byKey (cfg : NetConfig) : List (SecretKey × RootConfig) :=
  cfg.entries.map fun e => ((e.netns, e.base.interface.val), e.base)

/-- `old_entries.get(key)`: the entry put in last. -/
def oldEntry (stored : NetConfig) (key : SecretKey) : Option RootConfig :=
  (byKey stored).reverse.lookup key

/-- The secret an entry keeps: its own, or else the stored one unless that is empty. -/
def keptSecret {label : String} (new old : Option (WpaText label)) : Option (WpaText label) :=
  if new = none ∧ isSet old then old else new

/-- The body of the loop in `_keep_stored_secrets`. -/
def keepSecrets (stored : NetConfig) (netns : Option Text) (entry : RootConfig) : RootConfig :=
  match oldEntry stored (netns, entry.interface.val) with
  | none => entry
  | some old =>
    match old.security, entry.security with
    | some oldSecurity, some security =>
      { entry with security := some { security with
          psk := keptSecret security.psk oldSecurity.psk
          password := keptSecret security.password oldSecurity.password } }
    | _, _ => entry

/-- `_keep_stored_secrets`. The updated profile was validated, so its keys are distinct and the
loop over its dictionary is a loop over its entries. -/
def keepStoredSecrets (stored updated : NetConfig) : NetConfig :=
  { updated with
    namespaces := updated.namespaces.map fun es => es.map fun e =>
      { keepSecrets stored (some e.netns.val) e.toRootConfigBase with netns := e.netns }
    roots := updated.roots.map fun es => es.map (keepSecrets stored none) }

/-- The `setattr` loop: an update's list replaces the stored one. -/
def applyUpdate (cfg : NetConfig) (configUpdate : NetConfigUpdate) : NetConfig :=
  { cfg with
    namespaces := configUpdate.namespaces <|> cfg.namespaces
    roots := configUpdate.roots <|> cfg.roots }

/-- `NetConfig.model_validate(cfg.model_dump())` -/
def revalidate (cfg : NetConfig) : Except Exc NetConfig :=
  match NetConfig.modelValidate E.pydantic cfg.modelDump with
  | .ok cfg => .ok cfg
  | .error errors => .error (.validation (E.pydantic.errorText .edited errors) 422)

/-- `_atomic_write(path, cfg.model_dump_json(indent=4))` -/
def writeProfile (path : ConfigId) (cfg : NetConfig) : Store Unit :=
  update (·.write path (Text.encode (E.dumpJson cfg)))

/-- What `edit_config` writes for an update of the profile it read. -/
def editedConfig (stored : NetConfig) (configUpdate : NetConfigUpdate) : Except Exc NetConfig := do
  let cfg ← revalidate E (applyUpdate stored configUpdate)
  return keepStoredSecrets stored cfg

def editConfig (cfgId : Text) (configUpdate : NetConfigUpdate) : Store NetConfig := do
  let path ← lift (configPath cfgId)
  let stored ← getConfig E cfgId
  if ← isActive E cfgId then
    raise (.configActive s!"Cannot edit active configuration {String.ofList cfgId}.")
  let cfg ← lift (editedConfig E stored configUpdate)
  writeProfile E path cfg
  return cfg

/-! ## Deactivating and deleting -/

/-- The `try` of `_deactivate_config_locked`. -/
def deactivateEntries (cfg : NetConfig) : Store Bool :=
  attempt
    (do
      forEach (fun e => call E (.deactivateConfig e)) cfg.entries
      writeCurrent defaultId.val
      call E .revertToRoot
      return true)
    fun e => do
      attempt
        (do
          writeCurrent defaultId.val
          call E .revertToRoot)
        fun _ => return ()
      raise e

/-- `_deactivate_config_locked` -/
def deactivateConfigLocked (cfgId : Text) (overrideActive : Bool) : Store Bool := do
  let cfg ← getConfig E cfgId
  if !overrideActive then
    if !(← isActive E cfgId) then
      raise (.configActive s!"Configuration {String.ofList cfgId} is not active.")
  deactivateEntries E cfg

def deactivateConfig (cfgId : Text) (overrideActive : Bool) : Store Bool :=
  networkChangeLock (deactivateConfigLocked E cfgId overrideActive)

/-- `path.unlink()` -/
def unlink (path : ConfigId) : Store Unit := do
  let w ← get
  match w.files path with
  | none => raise (.fileNotFound s!"No such file or directory: '{String.ofList path.val}.json'")
  | some _ => update (·.remove path)

/-- The body of `delete_config` under the lock. -/
def deleteConfigLocked (path : ConfigId) (force : Bool) : Store Bool := do
  if ← isActive E path.val then
    if !force then
      raise (.configActive s!"Cannot delete active configuration {String.ofList path.val}.")
    let _ ← deactivateConfigLocked E path.val false
  unlink path
  return true

def deleteConfig (cfgId : Text) (force : Bool) : Store Bool := do
  let path ← lift (configPath cfgId)
  networkChangeLock (deleteConfigLocked E path force)

/-! ## Activating -/

structure AdapterOutcome where
  interface : Text
  netns : Option Text
  status : String
  detail : String
  invalid : Bool
  deriving DecidableEq

/-- `acceptable_statuses` -/
def acceptable (outcome : AdapterOutcome) : Bool :=
  ["connected", "provisioned", "skipped", "in_use"].contains outcome.status

/-- `_rollback_activated_configs` -/
def rollbackActivatedConfigs (activated : List Entry) : Store Unit :=
  forEachQuietly (fun e => call E (.deactivateConfig e)) activated

/-- `only_core_managed and not ns.is_core_managed(entry)` -/
def notCoreManaged (onlyCoreManaged : Bool) (entry : Entry) : Store Bool := do
  if onlyCoreManaged then return !(← call E (.isCoreManaged entry)) else return false

/-- `_invalid_entries` -/
def invalidEntries (onlyCoreManaged : Bool) : List Entry → Store (List AdapterOutcome)
  | [] => return []
  | entry :: entries => do
    if ← notCoreManaged E onlyCoreManaged entry then invalidEntries onlyCoreManaged entries
    else do
      let (isValid, detail) ← call E (.validateConfig entry)
      let outcomes ← invalidEntries onlyCoreManaged entries
      if isValid then return outcomes
      else return { interface := entry.base.interface.val, netns := entry.netns,
                    status := "error", detail, invalid := true } :: outcomes

/-- The outcome of one activated entry. -/
def outcomeOf (entry : Entry) (result : Option SetupStatus) : AdapterOutcome :=
  let status := result.elim "error" SetupStatus.status
  let detail := result.elim "" SetupStatus.selectErr
  { interface := entry.base.interface.val, netns := entry.netns, status, detail,
    invalid := status == "error" && "Config validation failed".isPrefixOf detail }

/-- An entry that came up and has to be rolled back. -/
def isApplied (result : Option SetupStatus) : Bool :=
  result.any fun r => ["connected", "provisioned"].contains r.status

/-- `_apply_entries`. The second component is the caller's list `activated`: it keeps what was
appended before an exception. -/
def applyEntries (onlyCoreManaged : Bool) :
    List Entry → List AdapterOutcome → List Entry →
      Store (Except Exc (List AdapterOutcome) × List Entry)
  | [], outcomes, activated => return (.ok outcomes, activated)
  | entry :: entries, outcomes, activated => do
    match ← observe (notCoreManaged E onlyCoreManaged entry) with
    | .error e => return (.error e, activated)
    | .ok true =>
      applyEntries onlyCoreManaged entries
        (outcomes ++ [{ interface := entry.base.interface.val, netns := entry.netns,
                        status := "skipped", detail := "Not created by Core; left alone",
                        invalid := false }]) activated
    | .ok false =>
      match ← observe (call E (.activateConfig entry)) with
      | .error e => return (.error e, activated)
      | .ok result =>
        applyEntries onlyCoreManaged entries (outcomes ++ [outcomeOf entry result])
          (if isApplied result then activated ++ [entry] else activated)

/-- `_teardown_profile` -/
def teardownProfile (cfgId : Text) : Store Unit := do
  let profile ← attempt (some <$> getConfig E cfgId) fun e =>
    match e with
    | .fileNotFound _ => return none
    | .configMalformed _ _ => return none
    | .validation _ _ => return none
    | e => raise e
  forEachQuietly (fun e => call E (.deactivateConfig e)) (profile.elim [] NetConfig.entries)
  call E .revertToRoot

/-- `_fall_back_to_default` -/
def fallBackToDefault : Store Unit := writeCurrent defaultId.val

/-- The active profile as activation sees it: an unusable `current.txt` is reset. -/
def activeOrDefault : Store Text :=
  attempt (getCurrentConfig E) fun e =>
    match e with
    | .configMalformed _ _ => do
      revertCurrentConfigToDefault
      return defaultId.val
    | .fileNotFound _ => return defaultId.val
    | e => raise e

/-- The refusal when another profile, or this one, is already active. -/
def refusal (cfgId active : Text) (overrideActive : Bool) : Option Exc :=
  if overrideActive then none
  else if active ≠ cfgId ∧ active ≠ defaultId.val then
    some (.configActive s!"Another configuration is currently active: {String.ofList active}.")
  else if active = cfgId then
    some (.configActive s!"Configuration {String.ofList cfgId} is already active.")
  else none

/-- The start of `_activate_config_locked`: the profile to activate and the one in force, unless
the activation is refused. -/
def beginActivation (cfgId : Text) (overrideActive : Bool) : Store (NetConfig × Text) := do
  let cfg ← getConfig E cfgId
  let active ← activeOrDefault E
  match refusal cfgId active overrideActive with
  | some e => raise e
  | none => return (cfg, active)

/-- The end of `_activate_config_locked`: apply every entry, then record the profile, or roll back
and record `default`. -/
def applyOrRollback (cfgId : Text) (cfg : NetConfig) : Store (Bool × List AdapterOutcome) := do
  match ← applyEntries E (cfgId = defaultId.val) cfg.entries [] [] with
  | (.ok outcomes, activated) =>
    if outcomes.all acceptable then
      writeCurrent cfgId
      return (true, outcomes)
    else
      rollbackActivatedConfigs E activated
      fallBackToDefault
      return (false, outcomes)
  | (.error e, activated) =>
    rollbackActivatedConfigs E activated
    fallBackToDefault
    raise e

/-- The teardown of the old profile and, with `override_active`, of every wpa_supplicant. -/
def clearOldProfile (active : Text) (overrideActive : Bool) : Store Unit := do
  teardownProfile E active
  if overrideActive then call E .killAllSupplicants

/-- `_activate_config_locked` -/
def activateConfigLocked (cfgId : Text) (overrideActive : Bool) :
    Store (Bool × List AdapterOutcome) := do
  let (cfg, active) ← beginActivation E cfgId overrideActive
  let invalidOutcomes ← invalidEntries E (cfgId = defaultId.val) cfg.entries
  if invalidOutcomes ≠ [] then
    if active = cfgId then ensuring (teardownProfile E cfgId) fallBackToDefault
    return (false, invalidOutcomes)
  else
    clearOldProfile E active overrideActive
    applyOrRollback E cfgId cfg

/-- `activate_config_report` -/
def activateConfigReport (cfgId : Text) (overrideActive : Bool) :
    Store (Bool × List AdapterOutcome) :=
  networkChangeLock (activateConfigLocked E cfgId overrideActive)

def activateConfig (cfgId : Text) (overrideActive : Bool) : Store Bool := do
  return (← activateConfigReport E cfgId overrideActive).1

/-- The body of `revert_all` under the lock. -/
def revertAllLocked : Store Unit := do
  let active ← attempt (getCurrentConfig E) fun e =>
    match e with
    | .fileNotFound _ => return defaultId.val
    | .configMalformed _ _ => return defaultId.val
    | e => raise e
  teardownProfile E active
  writeCurrent defaultId.val

def revertAll : Store Unit := networkChangeLock (revertAllLocked E)

end

end WlanpiCore
