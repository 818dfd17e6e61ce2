import WlanpiCore.Config.Reload
import WlanpiCore.Config.Serialise

/-!
# The profile store as a mapping

What a client sees of the store is a mapping from ids to profiles (`Profiles`): `Meets` says what
each request may answer and what it does to the mapping, without a word about files, `current.txt`
or radios. The id `default` is the device's own and is not in the mapping.

**Theorem (`session_explained`).** In every session of requests, however the radios and the
namespace service behave, each answer is one that the mapping allows: a profile that was added is
read back as it was until it is edited or deleted, an id is added only once, an edit gives what it
computes from the profile stored last, and activating, deactivating, reverting or recovering loses
no profile. An edit whose kept secrets do not fit its security type is outside the session: its file
does not load.
-/

namespace WlanpiCore

open Prog

section

variable (E : Env)

/-! ## Adding -/

/-- `_RESERVED_IDS` -/
def reservedIds : List Text :=
  ["default".toList, "root".toList, "status".toList, "leftovers".toList, "reset".toList]

/-- The test of `_reject_reserved_id`. -/
def isReserved (cfgId : ConfigId) : Bool := reservedIds.contains (cfgId.val.map Char.toLower)

/-- `add_config`. The last exception is a `FileExistsError`. -/
def addConfig (config : NetConfig) : Store Bool := do
  if isReserved config.id then
    raise (.validation s!"Configuration ID '{String.ofList config.id.val}' is reserved." 400)
  let path ← lift (configPath config.id.val)
  let w ← get
  if (w.files path).isSome then
    raise (.other s!"Configuration {String.ofList config.id.val} already exists.")
  writeProfile E path config
  return true

/-! ## Requests -/

inductive Request where
  | get (cfgId : Text)
  | add (config : NetConfig)
  | edit (cfgId : Text) (configUpdate : NetConfigUpdate)
  | delete (cfgId : Text) (force : Bool)
  | activate (cfgId : Text) (overrideActive : Bool)
  | deactivate (cfgId : Text) (overrideActive : Bool)
  | revertAll
  | current
  | recover

/-- What a request answers, as far as profiles go. -/
abbrev Reply := Except Exc (Option NetConfig)

def Request.run : Request → Store (Option NetConfig)
  | .get cfgId => some <$> getConfig E cfgId
  | .add config => (fun _ => none) <$> addConfig E config
  | .edit cfgId configUpdate => some <$> editConfig E cfgId configUpdate
  | .delete cfgId force => (fun _ => none) <$> deleteConfig E cfgId force
  | .activate cfgId overrideActive => (fun _ => none) <$> activateConfig E cfgId overrideActive
  | .deactivate cfgId overrideActive => (fun _ => none) <$> deactivateConfig E cfgId overrideActive
  | .revertAll => (fun _ => none) <$> WlanpiCore.revertAll E
  | .current => (fun _ => none) <$> getCurrentConfig E
  | .recover => (fun _ => none) <$> recoverCurrentConfig E

structure Session where
  world : World
  log : List (Request × Reply)

def Session.step (s : Session) (request : Request) : Option Session :=
  let (reply, world) := request.run E s.world
  some ⟨world, s.log ++ [(request, reply)]⟩

/-! ## The mapping -/

/-- The profiles of the clients. -/
abbrev Profiles := ConfigId → Option NetConfig

/-- Requests that are about no stored profile. -/
def Request.mapless : Request → Bool
  | .activate _ _ | .deactivate _ _ | .revertAll | .current | .recover => true
  | _ => false

/-- The ids a request for a stored profile may be refused for: the check is another's. -/
def Request.refusable : Request → Bool
  | .edit _ _ | .delete _ _ => true
  | _ => false

def Request.names (cfgId : Text) : Request → Bool
  | .get cfgId' | .edit cfgId' _ | .delete cfgId' _ => cfgId' = cfgId
  | _ => false

/-- What a mapping of profiles answers, and what becomes of it. -/
inductive Meets (m : Profiles) : Request → Reply → Profiles → Prop where
  | got {path : ConfigId} {cfg : NetConfig} (hne : path ≠ defaultId) (h : m path = some cfg) :
    Meets m (.get path.val) (.ok (some cfg)) m
  | missing {path : ConfigId} {msg : String} (hne : path ≠ defaultId) (h : m path = none) :
    Meets m (.get path.val) (.error (.fileNotFound msg)) m
  | invalidId {cfgId : Text} {e : Exc} (h : validateConfigId cfgId ≠ none) :
    Meets m (.get cfgId) (.error e) m
  | added {cfg : NetConfig} (hreserved : isReserved cfg.id = false) (h : m cfg.id = none) :
    Meets m (.add cfg) (.ok none) (Function.update m cfg.id (some cfg))
  | notAdded {cfg : NetConfig} {e : Exc} (h : isReserved cfg.id = true ∨ m cfg.id ≠ none) :
    Meets m (.add cfg) (.error e) m
  | edited {path : ConfigId} {configUpdate : NetConfigUpdate} {stored cfg : NetConfig}
    (hne : path ≠ defaultId) (h : m path = some stored)
    (hcfg : editedConfig E stored configUpdate = .ok cfg) :
    Meets m (.edit path.val configUpdate) (.ok (some cfg)) (Function.update m path (some cfg))
  | deleted {path : ConfigId} {force : Bool} (hne : path ≠ defaultId) (h : m path ≠ none) :
    Meets m (.delete path.val force) (.ok none) (Function.update m path none)
  | refused {request : Request} {e : Exc} (h : request.refusable = true) :
    Meets m request (.error e) m
  | ofDefault {request : Request} {reply : Reply} (h : request.names defaultId.val = true) :
    Meets m request reply m
  | mapless {request : Request} {reply : Reply} (h : request.mapless = true) :
    Meets m request reply m

/-- A log that a mapping allows, answer by answer. -/
inductive Explains (m : Profiles) : List (Request × Reply) → Profiles → Prop where
  | nil : Explains m [] m
  | snoc {log : List (Request × Reply)} {m' m'' : Profiles} {request : Request} {reply : Reply}
    (h : Explains m log m') (hmeets : Meets E m' request reply m'') :
    Explains m (log ++ [(request, reply)]) m''

/-- Every client's profile is valid and its file holds the dump of it; no other id has a file. -/
structure Stores (m : Profiles) (w : World) : Prop where
  files : ∀ path ≠ defaultId, w.files path = (m path).map fun cfg => Text.encode (E.dumpJson cfg)
  valid : ∀ path ≠ defaultId, ∀ cfg, m path = some cfg → cfg.Valid ∧ E.DumpsAs cfg

/-- The request as the API passes it on: validated profiles and updates, which pydantic dumps so
that `json.loads` reads them back, and kept secrets that fit. -/
def Proper (s : Session) : Request → Prop
  | .add config => config.Valid ∧ E.DumpsAs config
  | .edit cfgId configUpdate =>
    (∃ members, NetConfigUpdate.modelValidate E.pydantic members = .ok configUpdate) ∧
      ∀ stored, (getConfig E cfgId s.world).1 = .ok stored →
        (∀ e ∈ (applyUpdate stored configUpdate).entries, KeptFits stored e) ∧
          ∀ cfg, editedConfig E stored configUpdate = .ok cfg → E.DumpsAs cfg
  | _ => True

end

/-! ## What keeps the mapping -/

section Keeps

variable {E : Env} {m : Profiles}

theorem Stores.of_files {w w' : World} (h : Stores E m w)
    (hfiles : ∀ path ≠ defaultId, w'.files path = w.files path) : Stores E m w' where
  files path hne := (hfiles path hne).trans (h.files path hne)
  valid := h.valid

theorem quiet_stores : Quiet E (Stores E m) where
  reads cfgId w h := h.of_files (getConfig_regenerated E cfgId w).files
  calls _ _ h := h.of_files fun _ _ => rfl

theorem Stores.setCurrent {w : World} (h : Stores E m w) (cfgId : Text) :
    Stores E m (w.setCurrent cfgId) :=
  h.of_files fun _ _ => rfl

theorem preserves_lock {α : Type} {body : Store α} (hbody : Preserves (Stores E m) body) :
    Preserves (Stores E m) (networkChangeLock body) := by
  intro w h
  refine networkChangeLock_ends (Q := fun _ w' => Stores E m w') (fun _ _ => h) fun _ => ?_
  exact (hbody { w with locked := true } (h.of_files fun _ _ => rfl)).of_files fun _ _ => rfl

theorem preserves_writeCurrent (cfgId : Text) : Preserves (Stores E m) (writeCurrent cfgId) :=
  .update fun _ h => h.setCurrent cfgId

theorem preserves_finishActivation (cfgId : Text) (prepared : Prepared) :
    Preserves (Stores E m) (finishActivation E cfgId prepared) := by
  cases hrecords : prepared.records with
  | false => exact quiet_stores.finishActivation (fun w h => h.setCurrent _) hrecords
  | true =>
    cases prepared with
    | refused result => cases hrecords
    | fallingBack result => cases hrecords
    | applied res activated =>
      cases res with
      | error e => cases hrecords
      | ok outcomes =>
        have hall : outcomes.all acceptable = true := hrecords
        simp only [finishActivation, if_pos hall]
        exact .bind (preserves_writeCurrent cfgId) fun _ => .pure _

theorem preserves_activateConfig (cfgId : Text) (overrideActive : Bool) :
    Preserves (Stores E m) (activateConfig E cfgId overrideActive) := by
  refine .bind (preserves_lock ?_) fun _ => .pure _
  rw [activateConfigLocked_phases]
  exact .bind (quiet_stores.reads cfgId) fun cfg =>
    .bind (quiet_stores.enterActivation (fun w h => h.setCurrent _) cfgId overrideActive)
      fun active => .bind (quiet_stores.prepareActivation cfgId overrideActive cfg active)
        fun prepared => preserves_finishActivation cfgId prepared

theorem preserves_deactivateConfigLocked (cfgId : Text) (overrideActive : Bool) :
    Preserves (Stores E m) (deactivateConfigLocked E cfgId overrideActive) := by
  refine .bind (quiet_stores.reads cfgId) fun cfg => ?_
  have hentries : Preserves (Stores E m) (deactivateEntries E cfg) :=
    quiet_stores.deactivateEntries (fun w h => h.setCurrent _) cfg
  cases overrideActive with
  | true => exact hentries
  | false =>
    refine .bind (quiet_stores.isActive cfgId) fun active => ?_
    cases active with
    | true => exact hentries
    | false => exact .bind (.raise _) fun _ => hentries

theorem preserves_revertAll : Preserves (Stores E m) (revertAll E) := by
  refine preserves_lock (.bind (.attempt quiet_stores.getCurrentConfig fun e => ?_) fun active =>
    .bind (quiet_stores.teardownProfile active) fun _ => preserves_writeCurrent _)
  cases e
  case fileNotFound | configMalformed => exact .pure _
  all_goals exact .raise _

theorem preserves_recover : Preserves (Stores E m) (recoverCurrentConfig E) := by
  refine .attempt quiet_stores.getCurrentConfig fun e => ?_
  cases e
  case configMalformed => exact .bind (preserves_writeCurrent _) fun _ => .raise _
  all_goals exact .raise _

/-- The requests about no profile leave every profile. -/
theorem preserves_mapless {request : Request} (h : request.mapless = true) :
    Preserves (Stores E m) (request.run E) := by
  cases request with
  | get cfgId => cases h
  | add config => cases h
  | edit cfgId configUpdate => cases h
  | delete cfgId force => cases h
  | activate cfgId overrideActive => exact .map _ (preserves_activateConfig cfgId overrideActive)
  | deactivate cfgId overrideActive =>
    exact .map _ (preserves_lock (preserves_deactivateConfigLocked cfgId overrideActive))
  | revertAll => exact .map _ preserves_revertAll
  | current => exact .map _ quiet_stores.getCurrentConfig
  | recover => exact .map _ preserves_recover

end Keeps

/-! ## Requests for one profile -/

section One

variable {E : Env} {m : Profiles} {w : World} {path : ConfigId}

/-- Reading a client's profile. -/
theorem Stores.getConfig (hP : E.pydantic.Coerces) (h : Stores E m w) (hne : path ≠ defaultId) :
    getConfig E path.val w =
      (match m path with
        | none => .error (.fileNotFound s!"Configuration {String.ofList path.val} not found.")
        | some cfg => .ok cfg, w) := by
  rw [getConfig_of_ne E hne, h.files path hne]
  cases hm : m path with
  | none => rfl
  | some cfg =>
    obtain ⟨hvalid, hdump⟩ := h.valid path hne cfg hm
    simp only [Option.map_some, parseConfig_dump hdump (modelValidate_modelDump hP hvalid)]

theorem Stores.write (h : Stores E m w) {cfg : NetConfig} (hcfg : cfg.Valid ∧ E.DumpsAs cfg) :
    Stores E (Function.update m path (some cfg)) (w.write path (Text.encode (E.dumpJson cfg))) where
  files other hne := by
    by_cases heq : other = path
    · subst heq
      simp [World.write]
    · simp [World.write, heq, h.files other hne]
  valid other hne cfg' hm := by
    by_cases heq : other = path
    · subst heq
      rw [Function.update_self] at hm
      exact Option.some.inj hm ▸ hcfg
    · rw [Function.update_of_ne heq] at hm
      exact h.valid other hne cfg' hm

theorem Stores.remove (h : Stores E m w) :
    Stores E (Function.update m path none) (w.remove path) where
  files other hne := by
    by_cases heq : other = path
    · subst heq
      simp [World.remove]
    · simp [World.remove, heq, h.files other hne]
  valid other hne cfg hm := by
    by_cases heq : other = path
    · subst heq
      rw [Function.update_self] at hm
      cases hm
    · rw [Function.update_of_ne heq] at hm
      exact h.valid other hne cfg hm

/-- An edit fails, or stores what it computed from the profile of the mapping. -/
theorem editConfig_meets (hP : E.pydantic.Coerces) (h : Stores E m w) (hne : path ≠ defaultId)
    {configUpdate : NetConfigUpdate} {members : List (Option Text × Json)}
    (hupdate : NetConfigUpdate.modelValidate E.pydantic members = .ok configUpdate)
    (hfits : ∀ stored, m path = some stored →
      (∀ e ∈ (applyUpdate stored configUpdate).entries, KeptFits stored e) ∧
        ∀ cfg, editedConfig E stored configUpdate = .ok cfg → E.DumpsAs cfg) :
    Ends (editConfig E path.val configUpdate) w fun r w' =>
      (∃ e, r = .error e ∧ Stores E m w') ∨
      ∃ stored cfg, m path = some stored ∧ editedConfig E stored configUpdate = .ok cfg ∧
        r = .ok cfg ∧ Stores E (Function.update m path (some cfg)) w' := by
  rw [editConfig_phases]
  have hload := h.getConfig hP hne
  cases hm : m path with
  | none =>
    rw [hm] at hload
    rw [ends_bind_error hload]
    exact Or.inl ⟨_, rfl, h⟩
  | some stored =>
    rw [hm] at hload
    rw [ends_bind_ok hload]
    have hcheck := quiet_stores.checkEdit (I := Stores E m) path.val w h
    rcases hresult : checkEdit E path.val w with ⟨e | u, w₁⟩
    · rw [hresult] at hcheck
      rw [ends_bind_error hresult]
      exact Or.inl ⟨e, rfl, hcheck⟩
    · rw [hresult] at hcheck
      rw [ends_bind_ok hresult]
      unfold writeEdit
      cases hedited : editedConfig E stored configUpdate with
      | error e => exact Or.inl ⟨e, rfl, hcheck⟩
      | ok cfg =>
        have hstored : stored.Valid := (h.valid path hne stored hm).1
        have hpsk := applyUpdate_psk hstored (NetConfigUpdate.modelValidate_psk hupdate)
        have hvalid : cfg.Valid := by
          unfold editedConfig at hedited
          cases hrevalidate : revalidate E (applyUpdate stored configUpdate) with
          | error e =>
            rw [hrevalidate] at hedited
            cases hedited
          | ok updated =>
            obtain rfl := revalidate_eq_ok hP hpsk hrevalidate
            rw [hrevalidate] at hedited
            cases hedited
            refine (keepStoredSecrets_valid_iff ?_).2 (hfits stored hm).1
            unfold revalidate at hrevalidate
            split at hrevalidate
            · rename_i hok
              cases hrevalidate
              exact NetConfig.modelValidate_valid _ hok
            · cases hrevalidate
        exact Or.inr ⟨stored, cfg, rfl, hedited, rfl,
          hcheck.write ⟨hvalid, (hfits stored hm).2 cfg hedited⟩⟩

/-- Unlinking fails where there is no profile, and else takes it out of the mapping. -/
theorem unlink_meets (h : Stores E m w) (hne : path ≠ defaultId) :
    Ends (unlink path) w fun r w' =>
      (∃ e, r = .error e ∧ Stores E m w') ∨
      m path ≠ none ∧ r = .ok () ∧ Stores E (Function.update m path none) w' := by
  by_cases hfile : w.files path = none
  · rw [Ends, unlink_none hfile]
    exact Or.inl ⟨_, rfl, h⟩
  · rw [Ends, unlink_some hfile]
    refine Or.inr ⟨fun hm => hfile ?_, rfl, h.remove⟩
    rw [h.files path hne, hm]
    rfl

/-- How a deletion ends: refused, or with the profile taken out of the mapping. -/
def Deleted (E : Env) (m : Profiles) (path : ConfigId) (r : Except Exc Bool) (w : World) : Prop :=
  (∃ e, r = .error e ∧ Stores E m w) ∨
    m path ≠ none ∧ r = .ok true ∧ Stores E (Function.update m path none) w

theorem unlink_deleted (h : Stores E m w) (hne : path ≠ defaultId) :
    Ends (do unlink path; return true) w (Deleted E m path) := by
  have hunlink := unlink_meets h hne
  rcases hresult : unlink path w with ⟨e | u, w'⟩
  · rw [Ends, hresult] at hunlink
    rw [ends_bind_error hresult]
    rcases hunlink with ⟨e', heq, hw'⟩ | ⟨-, heq, -⟩
    · exact Or.inl ⟨e, rfl, hw'⟩
    · cases heq
  · rw [Ends, hresult] at hunlink
    rw [ends_bind_ok hresult]
    rcases hunlink with ⟨e', heq, -⟩ | ⟨hm, -, hw'⟩
    · cases heq
    · exact Or.inr ⟨hm, rfl, hw'⟩

theorem deleteConfigLocked_deleted (h : Stores E m w) (hne : path ≠ defaultId) (force : Bool) :
    Ends (deleteConfigLocked E path force) w (Deleted E m path) := by
  unfold deleteConfigLocked
  have hactive := quiet_stores.isActive (I := Stores E m) path.val w h
  rcases hresult : isActive E path.val w with ⟨e | active, w₁⟩
  · rw [hresult] at hactive
    rw [ends_bind_error hresult]
    exact Or.inl ⟨e, rfl, hactive⟩
  · rw [hresult] at hactive
    rw [ends_bind_ok hresult]
    cases active with
    | false => exact unlink_deleted hactive hne
    | true =>
      cases force with
      | false => exact Or.inl ⟨_, rfl, hactive⟩
      | true =>
        have hlocked := preserves_deactivateConfigLocked (E := E) (m := m) path.val false w₁ hactive
        rcases hdeactivate : deactivateConfigLocked E path.val false w₁ with ⟨e | b, w₂⟩
        · rw [hdeactivate] at hlocked
          have hrun := ends_bind_error (f := fun _ => (do unlink path; return true : Store Bool))
            (Q := Deleted E m path) hdeactivate
          exact hrun.2 (Or.inl ⟨e, rfl, hlocked⟩)
        · rw [hdeactivate] at hlocked
          have hrun := ends_bind_ok (f := fun _ => (do unlink path; return true : Store Bool))
            (Q := Deleted E m path) hdeactivate
          exact hrun.2 (unlink_deleted hlocked hne)

theorem Deleted.of_files {r : Except Exc Bool} {w' : World} (h : Deleted E m path r w)
    (hfiles : w'.files = w.files) : Deleted E m path r w' := by
  have hsame : ∀ other, w'.files other = w.files other := fun other => congrFun hfiles other
  rcases h with ⟨e, he, hw⟩ | ⟨hm, hr, hw⟩
  · exact Or.inl ⟨e, he, hw.of_files fun other _ => hsame other⟩
  · exact Or.inr ⟨hm, hr, hw.of_files fun other _ => hsame other⟩

theorem deleteConfig_deleted (h : Stores E m w) (hne : path ≠ defaultId) (force : Bool) :
    Ends (deleteConfig E path.val force) w (Deleted E m path) := by
  unfold deleteConfig
  rw [configPath_val, lift_ok, pure_bind]
  refine networkChangeLock_ends (fun _ msg => Or.inl ⟨_, rfl, h⟩) fun _ => ?_
  have hbody := deleteConfigLocked_deleted (w := { w with locked := true })
    (h.of_files fun _ _ => rfl) hne force
  exact hbody.mono fun _ _ hdeleted => hdeleted.of_files rfl

/-- `add_config`: refused exactly for an id that is reserved or taken. -/
theorem addConfig_meets (h : Stores E m w) {config : NetConfig}
    (hconfig : config.Valid ∧ E.DumpsAs config) :
    Ends (addConfig E config) w fun r w' =>
      ((isReserved config.id = true ∨ m config.id ≠ none) ∧ (∃ e, r = .error e) ∧ Stores E m w') ∨
      isReserved config.id = false ∧ m config.id = none ∧ r = .ok true ∧
        Stores E (Function.update m config.id (some config)) w' := by
  unfold addConfig
  cases hreserved : isReserved config.id with
  | true => exact Or.inl ⟨Or.inl rfl, ⟨_, rfl⟩, h⟩
  | false =>
    have hne : config.id ≠ defaultId := by
      intro heq
      rw [heq] at hreserved
      exact absurd hreserved (by decide)
    rw [configPath_val]
    have hfile := h.files config.id hne
    cases hm : m config.id with
    | none =>
      rw [hm] at hfile
      have hrun : Ends (addConfig E config) w fun r w' => r = .ok true ∧
          w' = w.write config.id (Text.encode (E.dumpJson config)) := by
        unfold addConfig
        rw [hreserved, configPath_val]
        simp [Ends, bind, pure, lift, Prog.get, hfile, writeProfile, update]
      unfold addConfig at hrun
      rw [hreserved, configPath_val] at hrun
      refine hrun.mono ?_
      rintro r w' ⟨rfl, rfl⟩
      exact Or.inr ⟨rfl, rfl, rfl, h.write hconfig⟩
    | some cfg =>
      rw [hm] at hfile
      refine Or.inl ⟨Or.inr (by simp), ?_⟩
      simp [bind, pure, lift, Prog.get, hfile, raise, h]

end One

/-! ## Sessions -/

section Sessions

variable {E : Env} {m : Profiles}

theorem map_run {α β : Type} (f : α → β) (x : Store α) (w : World) :
    (f <$> x) w = ((x w).1.map f, (x w).2) := by
  change (x >>= fun a => pure (f a)) w = _
  rcases h : x w with ⟨e | a, w'⟩
  · rw [bind_error h]
    rfl
  · rw [bind_ok h]
    rfl

/-- Every request answers as the mapping does, and leaves its files to the mapping that is left. -/
theorem request_meets (hP : E.pydantic.Coerces) {s : Session} (h : Stores E m s.world)
    {request : Request} (hproper : Proper E s request) :
    ∃ m', Meets E m request (request.run E s.world).1 m' ∧
      Stores E m' (request.run E s.world).2 := by
  have hmapless (hrequest : request.mapless = true) : ∃ m',
      Meets E m request (request.run E s.world).1 m' ∧ Stores E m' (request.run E s.world).2 :=
    ⟨m, .mapless hrequest, preserves_mapless hrequest s.world h⟩
  cases request with
  | get cfgId =>
    simp only [Request.run, map_run]
    cases hpath : configPath cfgId with
    | error e =>
      obtain ⟨msg, rfl⟩ := configPath_error hpath
      rw [getConfig_invalid E hpath]
      refine ⟨m, .invalidId fun hvalid => ?_, h⟩
      have hval : configPath cfgId = .ok ⟨cfgId, hvalid⟩ := configPath_val ⟨cfgId, hvalid⟩
      rw [hval] at hpath
      cases hpath
    | ok path =>
      obtain rfl := configPath_eq_ok hpath
      by_cases hne : path = defaultId
      · subst hne
        exact ⟨m, .ofDefault (by simp [Request.names]), quiet_stores.reads _ _ h⟩
      · rw [h.getConfig hP hne]
        cases hm : m path with
        | none => exact ⟨m, .missing hne hm, h⟩
        | some cfg => exact ⟨m, .got hne hm, h⟩
  | add config =>
    simp only [Request.run, map_run]
    have hadd := addConfig_meets h hproper
    rcases hresult : addConfig E config s.world with ⟨r, w'⟩
    rw [Ends, hresult] at hadd
    rcases hadd with ⟨hrefused, ⟨e, rfl⟩, hw'⟩ | ⟨hreserved, hm, rfl, hw'⟩
    · exact ⟨m, .notAdded hrefused, hw'⟩
    · exact ⟨_, .added hreserved hm, hw'⟩
  | edit cfgId configUpdate =>
    simp only [Request.run, map_run]
    obtain ⟨⟨members, hmembers⟩, hfits⟩ := hproper
    cases hpath : configPath cfgId with
    | error e =>
      have hrun : editConfig E cfgId configUpdate s.world = (.error e, s.world) := by
        unfold editConfig
        rw [bind_error (lift_eq hpath s.world)]
      rw [hrun]
      exact ⟨m, .refused rfl, h⟩
    | ok path =>
      obtain rfl := configPath_eq_ok hpath
      by_cases hne : path = defaultId
      · subst hne
        refine ⟨m, .ofDefault (by simp [Request.names]), ?_⟩
        rw [editConfig_phases]
        have hwrite :
          ∀ stored, Preserves (Stores E m) (writeEdit E defaultId stored configUpdate) :=
          fun stored => .bind (.lift _) fun cfg => .bind (.update fun w hw =>
            hw.of_files fun other hother => by simp [World.write, hother]) fun _ => .pure _
        exact (Preserves.bind (quiet_stores.reads _) fun stored =>
          .bind (quiet_stores.checkEdit _) fun _ => hwrite stored) s.world h
      · have hedit := editConfig_meets hP h hne hmembers fun stored hm => hfits stored (by
          rw [h.getConfig hP hne, hm])
        rcases hresult : editConfig E path.val configUpdate s.world with ⟨r, w'⟩
        rw [Ends, hresult] at hedit
        rcases hedit with ⟨e, rfl, hw'⟩ | ⟨stored, cfg, hm, hcfg, rfl, hw'⟩
        · exact ⟨m, .refused rfl, hw'⟩
        · exact ⟨_, .edited hne hm hcfg, hw'⟩
  | delete cfgId force =>
    simp only [Request.run, map_run]
    cases hpath : configPath cfgId with
    | error e =>
      have hrun : deleteConfig E cfgId force s.world = (.error e, s.world) := by
        unfold deleteConfig
        rw [bind_error (lift_eq hpath s.world)]
      rw [hrun]
      exact ⟨m, .refused rfl, h⟩
    | ok path =>
      obtain rfl := configPath_eq_ok hpath
      by_cases hne : path = defaultId
      · subst hne
        refine ⟨m, .ofDefault (by simp [Request.names]), ?_⟩
        unfold deleteConfig
        rw [configPath_val, lift_ok, pure_bind]
        have hunlink : Preserves (Stores E m) (unlink defaultId) := by
          intro w hw
          by_cases hfile : w.files defaultId = none
          · rw [unlink_none hfile]
            exact hw
          · rw [unlink_some hfile]
            exact hw.of_files fun other hother => by simp [World.remove, hother]
        refine preserves_lock ?_ s.world h
        rw [deleteConfigLocked_phases]
        refine .bind (quiet_stores.checkDelete _ _) fun active => ?_
        cases active with
        | false => exact .bind hunlink fun _ => .pure _
        | true =>
          exact .bind (quiet_stores.reads _) fun cfg => .bind (quiet_stores.checkDeactivate _)
            fun _ => .bind (quiet_stores.deactivateEntries (fun w hw => hw.setCurrent _) cfg)
            fun _ => .bind hunlink fun _ => .pure _
      · have hdelete := deleteConfig_deleted h hne force
        rcases hresult : deleteConfig E path.val force s.world with ⟨r, w'⟩
        rw [Ends, hresult] at hdelete
        rcases hdelete with ⟨e, rfl, hw'⟩ | ⟨hm, rfl, hw'⟩
        · exact ⟨m, .refused rfl, hw'⟩
        · exact ⟨_, .deleted hne hm, hw'⟩
  | activate cfgId overrideActive => exact hmapless rfl
  | deactivate cfgId overrideActive => exact hmapless rfl
  | revertAll => exact hmapless rfl
  | current => exact hmapless rfl
  | recover => exact hmapless rfl

/-- **Every session is one of the mapping.** -/
theorem session_explained (hP : E.pydantic.Coerces) {w : World} (h : Stores E m w) {s : Session}
    (hrun : Run (Session.step E) (Proper E) ⟨w, []⟩ s) :
    ∃ m', Explains E m s.log m' ∧ Stores E m' s.world := by
  refine Run.invariant (I := fun s : Session => ∃ m', Explains E m s.log m' ∧ Stores E m' s.world)
    hrun ⟨m, .nil, h⟩ ?_
  rintro s request t ⟨m', hlog, hstores⟩ hproper hstep
  obtain ⟨m'', hmeets, hstores'⟩ := request_meets hP hstores hproper
  obtain rfl := Option.some.inj hstep
  exact ⟨m'', hlog.snoc hmeets, hstores'⟩

end Sessions

/-! ## A session -/

/-- A store without profiles. -/
def emptyStore : World := { labWorld (Text.encode "\n".toList) with files := fun _ => none }

theorem emptyStore_stores (E : Env) : Stores E (fun _ => none) emptyStore where
  files _ _ := rfl
  valid _ _ _ h := by cases h

def keyProfile : NetConfig := (keyConfig .wpa2).normalize

theorem keyProfile_valid : keyProfile.Valid := by
  refine ⟨fun e he s hs => ?_, by decide +kernel⟩
  obtain rfl := List.mem_singleton.1 he
  obtain rfl := Option.some.inj hs
  decide +kernel

/-- The profile is added twice, read and deleted. -/
def keyRequests : List Request :=
  [.add keyProfile, .add keyProfile, .get labId.val, .delete labId.val false]

/-- The session of a list of requests. -/
def Session.after (E : Env) (s : Session) (requests : List Request) : Session :=
  requests.foldl (fun s request => (s.step E request).getD s) s

theorem Session.exec_after (E : Env) (s : Session) (requests : List Request) :
    exec (Session.step E) s requests = some (Session.after E s requests) := by
  induction requests generalizing s with
  | nil => rfl
  | cons request requests ih => exact ih _

theorem session_explained_key :
    let s := Session.after (keyEnv .wpa2) ⟨emptyStore, []⟩ keyRequests
    s.log.map (fun e => e.2.toOption.isSome) = [true, false, true, true] ∧
      ∃ m', Explains (keyEnv .wpa2) (fun _ => none) s.log m' ∧
        Stores (keyEnv .wpa2) m' s.world := by
  refine ⟨by decide +kernel, session_explained (keyEnv_coerces .wpa2)
    (emptyStore_stores (keyEnv .wpa2)) ?_⟩
  refine Run.of_exec (fun request hmem s => ?_) (Session.exec_after _ _ keyRequests)
  have hadd : Proper (keyEnv .wpa2) s (.add keyProfile) :=
    ⟨keyProfile_valid, keyEnv_dumpsAs (Or.inl rfl)⟩
  simp only [keyRequests, List.mem_cons, List.not_mem_nil, or_false] at hmem
  rcases hmem with rfl | rfl | rfl | rfl
  · exact hadd
  · exact hadd
  · exact trivial
  · exact trivial

end WlanpiCore
