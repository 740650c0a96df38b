import IotLoggingServer.Boto3Session
import IotLoggingServer.GreengrassConfig
import IotLoggingServer.WireSystem

set_option autoImplicit false

/-! # Starting up (`__main__.py` and what it imports)

Importing `configs.py` reads the AWS profiles and importing `ecu_info.py` the ECU ids, if there are
any; `main` then parses a Greengrass config, creates the session and starts the parts of the server.
Each config file that is used is put on the list of monitored files.

The outcome depends on the monitored files, and on the others only as far as they begin to play a
role or are the certificate of a PKCS#11 key (`main_stable_iff`). What a server started from an
`ecu_info.yaml` ever stores comes from the listed ECUs or is its own (`Running.stores_listed`). -/

namespace IotLoggingServer

/-- What the start-up takes from outside: the loaders, the checks of the config models, `str` and
    `repr`, and what the session takes. -/
structure MainRuntime where
  yamlSafeLoad : Str → Except PyExc Value
  jsonLoads : Str → Except PyExc Value
  validateProfileInfo : Value → Except PyExc AWSProfileInfo
  validateEcuInfo : Value → Except PyExc ECUInfo
  pyStr : Value → Str
  pyRepr : PyExc → Str
  session : SessionRuntime

section StartUp

variable (rt : MainRuntime) (fs : FileSystem)

/-- `load_profile_info` of `configs.py` -/
def loadProfileInfo (cfgFpath : Str) : Except PyExc AWSProfileInfo := do
  let cfg ← rt.yamlSafeLoad (← fs.readText cfgFpath)
  rt.validateProfileInfo cfg

/-- The `try` block of `parse_ecu_info`. -/
def loadEcuInfo (ecuInfoFile : Str) : Except PyExc ECUInfo := do
  let loadedEcuInfo ← rt.yamlSafeLoad (← fs.readText ecuInfoFile)
  let .dict _ := loadedEcuInfo | .error (.assertionError "not a valid yaml file".toList)
  rt.validateEcuInfo loadedEcuInfo

/-- `parse_ecu_info` of `ecu_info.py`: an invalid or missing file is none. -/
def parseEcuInfo (ecuInfoFile : Str) : Option ECUInfo :=
  match loadEcuInfo rt fs ecuInfoFile with
  | .ok ecuInfo => some ecuInfo
  | .error _ => none

/-- The `try` block of `parse_config`: the config, and the file it is from. -/
def loadConfig (serverCfg : ServerCfg) (profileInfo : AWSProfileInfo) :
    Except PyExc (IoTSessionConfig × Str) := do
  if ← fs.isFile serverCfg.greengrassV2Config then
    let rawCfg ← fs.readText serverCfg.greengrassV2Config
    let v2Cfg ← parseV2Config rt.yamlSafeLoad rt.pyStr profileInfo rawCfg
    .ok (v2Cfg, serverCfg.greengrassV2Config)
  else
    let rawCfg ← fs.readText serverCfg.greengrassV1Config
    let v1Cfg ← parseV1Config rt.jsonLoads profileInfo rawCfg
    .ok (v1Cfg, serverCfg.greengrassV1Config)

/-- The `__cause__` an exception becomes. -/
def PyExc.asCause : PyExc → Cause
  | .awsCrtError err => .awsCrtError err
  | _ => .other

/-- `parse_config` of `greengrass_config.py`, which adds to the monitored files. -/
def parseConfig (serverCfg : ServerCfg) (profileInfo : AWSProfileInfo)
    (monitoredConfigFiles : List Str) : Except PyExc (IoTSessionConfig × List Str) :=
  match loadConfig rt fs serverCfg profileInfo with
  | .ok (config, used) => .ok (config, monitoredConfigFiles.insert used)
  | .error e =>
    .error (.valueError ("failed to parse config: ".toList ++ rt.pyRepr e) (some e.asCause))

/-- The tee handler `config_logging` of `_log_setting.py` attaches. -/
def configLogging (serverCfg : ServerCfg) : Option LogTeeHandler :=
  if serverCfg.uploadLoggingServerLogs && !serverCfg.serverLogstreamSuffix.isEmpty then
    some ⟨serverCfg.serverLogstreamSuffix⟩
  else none

/-- What `main` leaves running. -/
structure Running where
  /-- the size of the log queue -/
  maxsize : ℤ
  servicer : Servicer
  teeHandler : Option LogTeeHandler
  iotLogger : AWSIoTLogger
  session : Session
  monitoredConfigFiles : List Str
  monitorStarted : Bool

/-- The config a running server goes by. -/
def Running.config (self : Running) : IoTSessionConfig := self.iotLogger.sessionConfig

/-- `main`, from the imports to the launch of the server. -/
def main (serverCfg : ServerCfg) : Except PyExc Running := do
  let profileInfo ← loadProfileInfo rt fs serverCfg.awsProfileInfo
  let monitoredConfigFiles := [serverCfg.awsProfileInfo]
  let ecuInfo := parseEcuInfo rt fs serverCfg.ecuInfoYaml
  let monitoredConfigFiles :=
    if ecuInfo.isSome then monitoredConfigFiles.insert serverCfg.ecuInfoYaml
    else monitoredConfigFiles
  let (sessionConfig, monitoredConfigFiles) ←
    parseConfig rt fs serverCfg profileInfo monitoredConfigFiles
  let session ← getSession rt.session fs sessionConfig
  .ok {
    maxsize := serverCfg.maxLogsBacklog
    servicer := Servicer.init ecuInfo
    teeHandler := configLogging serverCfg
    iotLogger := startAwsIotLoggerThread sessionConfig serverCfg.toConfigurableLoggingServerConfig
    session
    monitoredConfigFiles
    monitorStarted := serverCfg.exitOnConfigFileChanged }

end StartUp

/-! ## What a start-up depends on -/

/-- The files put on the list, when `used` is the Greengrass config. -/
def monitoredFiles (serverCfg : ServerCfg) (ecuInfo : Option ECUInfo) (used : Str) : List Str :=
  (if ecuInfo.isSome then [serverCfg.awsProfileInfo].insert serverCfg.ecuInfoYaml
    else [serverCfg.awsProfileInfo]).insert used

theorem mem_monitoredFiles {serverCfg : ServerCfg} {ecuInfo : Option ECUInfo} {used file : Str} :
    file ∈ monitoredFiles serverCfg ecuInfo used ↔
      file = used ∨ file = serverCfg.awsProfileInfo ∨
        ecuInfo.isSome = true ∧ file = serverCfg.ecuInfoYaml := by
  unfold monitoredFiles
  rw [List.mem_insert_iff]
  split
  · next hsome =>
      rw [List.mem_insert_iff, List.mem_singleton]
      simp only [hsome, true_and]
      tauto
  · next hnone => simp [hnone]

/-- What `main` starts, given what it read. -/
def Running.of (serverCfg : ServerCfg) (ecuInfo : Option ECUInfo)
    (sessionConfig : IoTSessionConfig) (used : Str) (session : Session) : Running where
  maxsize := serverCfg.maxLogsBacklog
  servicer := Servicer.init ecuInfo
  teeHandler := configLogging serverCfg
  iotLogger := startAwsIotLoggerThread sessionConfig serverCfg.toConfigurableLoggingServerConfig
  session
  monitoredConfigFiles := monitoredFiles serverCfg ecuInfo used
  monitorStarted := serverCfg.exitOnConfigFileChanged

@[simp] theorem Running.monitoredConfigFiles_of (serverCfg : ServerCfg) (ecuInfo : Option ECUInfo)
    (sessionConfig : IoTSessionConfig) (used : Str) (session : Session) :
    (Running.of serverCfg ecuInfo sessionConfig used session).monitoredConfigFiles =
      monitoredFiles serverCfg ecuInfo used := rfl

section Stable

variable {rt : MainRuntime} {fs fs' : FileSystem} {serverCfg : ServerCfg} {running : Running}
  {profileInfo : AWSProfileInfo}

/-- **All a start-up can come to**, if it succeeds. -/
theorem main_eq_ok : main rt fs serverCfg = .ok running ↔
    ∃ profileInfo sessionConfig used session,
      loadProfileInfo rt fs serverCfg.awsProfileInfo = .ok profileInfo ∧
      loadConfig rt fs serverCfg profileInfo = .ok (sessionConfig, used) ∧
      getSession rt.session fs sessionConfig = .ok session ∧
      running = Running.of serverCfg (parseEcuInfo rt fs serverCfg.ecuInfoYaml) sessionConfig used
        session := by
  simp only [main, bind_eq_ok, parseConfig]
  constructor
  · rintro ⟨profileInfo, hprofile, ⟨sessionConfig, monitored⟩, hparse, session, hsession, h⟩
    cases hload : loadConfig rt fs serverCfg profileInfo with
    | error e =>
        rw [hload] at hparse
        cases hparse
    | ok loaded =>
        rw [hload] at hparse
        cases hparse
        cases h
        exact ⟨profileInfo, _, _, session, hprofile, hload, hsession, rfl⟩
  · rintro ⟨profileInfo, sessionConfig, used, session, hprofile, hload, hsession, rfl⟩
    refine ⟨profileInfo, hprofile, (sessionConfig, monitoredFiles serverCfg
      (parseEcuInfo rt fs serverCfg.ecuInfoYaml) used), ?_, session, hsession, rfl⟩
    rw [hload]
    rfl

/-- The Greengrass config is from the v2 file if there is one, and from the v1 file if not. -/
theorem loadConfig_used {loaded : IoTSessionConfig × Str}
    (h : loadConfig rt fs serverCfg profileInfo = .ok loaded) :
    fs.isFile serverCfg.greengrassV2Config = .ok true ∧
        loaded.2 = serverCfg.greengrassV2Config ∨
      fs.isFile serverCfg.greengrassV2Config = .ok false ∧
        loaded.2 = serverCfg.greengrassV1Config := by
  obtain ⟨isV2, hisFile, h⟩ := bind_eq_ok.1 h
  cases isV2 with
  | true =>
      obtain ⟨raw, -, h⟩ := bind_eq_ok.1 h
      obtain ⟨config, -, h⟩ := bind_eq_ok.1 h
      cases h
      exact Or.inl ⟨hisFile, rfl⟩
  | false =>
      obtain ⟨raw, -, h⟩ := bind_eq_ok.1 h
      obtain ⟨config, -, h⟩ := bind_eq_ok.1 h
      cases h
      exact Or.inr ⟨hisFile, rfl⟩

/-- The config depends on whether the v2 file is there and on the file used. -/
theorem loadConfig_same {loaded : IoTSessionConfig × Str}
    (h : loadConfig rt fs serverCfg profileInfo = .ok loaded)
    (hisFile : fs'.isFile serverCfg.greengrassV2Config = fs.isFile serverCfg.greengrassV2Config)
    (hused : fs'.readText loaded.2 = fs.readText loaded.2) :
    loadConfig rt fs' serverCfg profileInfo = .ok loaded := by
  rcases loadConfig_used h with ⟨hv2, hfile⟩ | ⟨hv1, hfile⟩
  · rw [hfile] at hused
    unfold loadConfig at h ⊢
    rw [hisFile, hused]
    rw [hv2] at h ⊢
    exact h
  · rw [hfile] at hused
    unfold loadConfig at h ⊢
    rw [hisFile, hused]
    rw [hv1] at h ⊢
    exact h

theorem loadProfileInfo_same {file : Str} (h : fs.SameFile fs' file) :
    loadProfileInfo rt fs' file = loadProfileInfo rt fs file := by
  rw [loadProfileInfo, loadProfileInfo, h.readText]

theorem parseEcuInfo_same {file : Str} (h : fs.SameFile fs' file) :
    parseEcuInfo rt fs' file = parseEcuInfo rt fs file := by
  rw [parseEcuInfo, parseEcuInfo, loadEcuInfo, loadEcuInfo, h.readText]

/-- No v2 config has come up in place of the v1 config used, and no `ecu_info.yaml` where none was
    valid; and if a certificate file was read, which is not monitored, it still makes the same
    session. -/
structure Unaffected (rt : MainRuntime) (serverCfg : ServerCfg) (running : Running)
    (fs : FileSystem) : Prop where
  greengrassV2Config : serverCfg.greengrassV2Config ∉ running.monitoredConfigFiles →
    fs.isFile serverCfg.greengrassV2Config = .ok false
  ecuInfoYaml : serverCfg.ecuInfoYaml ∉ running.monitoredConfigFiles →
    parseEcuInfo rt fs serverCfg.ecuInfoYaml = none
  certificate : isPkcs11 running.config.privateKeyPath = true →
    isPkcs11 running.config.certificatePath = false →
      getSessionPkcs11 rt.session fs running.config = .ok running.session

/-- With the monitored files as they were, an unaffected start-up leads to the same server. -/
theorem main_same (h : main rt fs serverCfg = .ok running)
    (hsame : ∀ file ∈ running.monitoredConfigFiles, fs.SameFile fs' file)
    (hunaffected : Unaffected rt serverCfg running fs') :
    main rt fs' serverCfg = .ok running := by
  obtain ⟨profileInfo, sessionConfig, used, session, hprofile, hload, hsession, rfl⟩ :=
    main_eq_ok.1 h
  obtain ⟨hv2, hecu, hcert⟩ := hunaffected
  rw [Running.monitoredConfigFiles_of] at hsame hv2 hecu
  have hprofile' : loadProfileInfo rt fs' serverCfg.awsProfileInfo = .ok profileInfo := by
    rw [loadProfileInfo_same (hsame _ (mem_monitoredFiles.2 (Or.inr (Or.inl rfl)))), hprofile]
  have hecu' : parseEcuInfo rt fs' serverCfg.ecuInfoYaml =
      parseEcuInfo rt fs serverCfg.ecuInfoYaml := by
    by_cases hlisted : serverCfg.ecuInfoYaml ∈ monitoredFiles serverCfg
        (parseEcuInfo rt fs serverCfg.ecuInfoYaml) used
    · exact parseEcuInfo_same (hsame _ hlisted)
    · rw [hecu hlisted]
      cases hparse : parseEcuInfo rt fs serverCfg.ecuInfoYaml with
      | none => rfl
      | some ecuInfo =>
          exact absurd (mem_monitoredFiles.2 (Or.inr (Or.inr ⟨by rw [hparse]; rfl, rfl⟩))) hlisted
  have hisFile : fs'.isFile serverCfg.greengrassV2Config =
      fs.isFile serverCfg.greengrassV2Config := by
    by_cases hlisted : serverCfg.greengrassV2Config ∈ monitoredFiles serverCfg
        (parseEcuInfo rt fs serverCfg.ecuInfoYaml) used
    · exact (hsame _ hlisted).isFile
    · rcases loadConfig_used hload with ⟨-, hused⟩ | ⟨hnot, -⟩
      · exact absurd (mem_monitoredFiles.2 (Or.inl hused.symm)) hlisted
      · rw [hv2 hlisted, hnot]
  have hload' := loadConfig_same hload hisFile
    (hsame _ (mem_monitoredFiles.2 (Or.inl rfl))).readText
  have hsession' : getSession rt.session fs' sessionConfig = .ok session := by
    rw [← hsession]
    refine getSession_same rt.session fs (fun hkey hfile => ?_)
    rw [getSession, if_pos hkey] at hsession
    rw [hsession]
    exact hcert hkey hfile
  exact main_eq_ok.2 ⟨profileInfo, sessionConfig, used, session, hprofile', hload', hsession',
    by rw [hecu']⟩

/-- Whatever the files, a start-up is unaffected by those it does not list. -/
theorem main_unaffected (h : main rt fs serverCfg = .ok running) :
    Unaffected rt serverCfg running fs := by
  obtain ⟨profileInfo, sessionConfig, used, session, -, hload, hsession, rfl⟩ := main_eq_ok.1 h
  refine ⟨?_, ?_, ?_⟩
  · rw [Running.monitoredConfigFiles_of]
    intro hv2
    rcases loadConfig_used hload with ⟨-, hused⟩ | ⟨hisFile, -⟩
    · exact absurd (mem_monitoredFiles.2 (Or.inl hused.symm)) hv2
    · exact hisFile
  · rw [Running.monitoredConfigFiles_of]
    intro hecu
    cases hparse : parseEcuInfo rt fs serverCfg.ecuInfoYaml with
    | none => rfl
    | some ecuInfo =>
        exact absurd (mem_monitoredFiles.2 (Or.inr (Or.inr ⟨by rw [hparse]; rfl, rfl⟩))) hecu
  · intro hkey _
    have hpkcs11 : getSession rt.session fs sessionConfig =
        getSessionPkcs11 rt.session fs sessionConfig := if_pos hkey
    exact hpkcs11.symm.trans hsession

/-- **A start-up depends on the monitored files, and on few others.** With the monitored files as
    they were, starting again leads to the same server iff it is unaffected: by files that have come
    up since, and by the certificate file, if it was read. -/
theorem main_stable_iff (h : main rt fs serverCfg = .ok running)
    (hsame : ∀ file ∈ running.monitoredConfigFiles, fs.SameFile fs' file) :
    main rt fs' serverCfg = .ok running ↔ Unaffected rt serverCfg running fs' :=
  ⟨main_unaffected, main_same h hsame⟩

end Stable

/-- Files of a device set up for v1, where a v2 config may have come up since. -/
def exampleFiles (isV2 : Bool) : FileSystem where
  isFile file := .ok (isV2 && decide (file = "/greengrass/v2/init_config/config.yaml".toList))
  readText _ := .ok []
  readBytes _ := .error (.other 0)

def exampleMainRuntime : MainRuntime where
  yamlSafeLoad _ := .ok (.dict [])
  jsonLoads _ := .ok (exampleV1 (arnString "aws".toList "iot".toList "region".toList
    "012345678901".toList ("thing/".toList ++ "dev-edge-ecu-Core".toList)) [] [] [])
  validateProfileInfo _ := .ok [exampleProfile "dev".toList]
  validateEcuInfo _ := .ok ⟨"autoware".toList, []⟩
  pyStr _ := []
  pyRepr _ := []
  session := refusingRuntime

def exampleSessionConfig : IoTSessionConfig :=
  sessionConfig "012345678901".toList "region".toList "dev-edge-ecu-Core".toList [] [] []
    (exampleProfile "dev".toList)

/-- The server started from the files of the example. -/
def exampleRunning : Running :=
  .of {} (some ⟨"autoware".toList, []⟩) exampleSessionConfig
    "/greengrass/config/config.json".toList (getSessionPlain refusingRuntime exampleSessionConfig)

/-- Whatever the texts are, the example's loaders make the same of them. -/
theorem main_exampleRuntime {fs : FileSystem}
    (hisFile : fs.isFile "/greengrass/v2/init_config/config.yaml".toList = .ok false)
    (hread : ∀ file, ∃ text, fs.readText file = .ok text) :
    main exampleMainRuntime fs {} = .ok exampleRunning := by
  have hv1 : ∀ raw, parseV1Config exampleMainRuntime.jsonLoads [exampleProfile "dev".toList] raw =
      .ok exampleSessionConfig := by
    intro raw
    have hnot : ¬ "file://".toList <+: [] := by decide
    exact parseV1Config_ok rfl (exampleV1_entries _ _ _ _) (List.all_eq_true.1 rfl) hnot hnot hnot
      rfl rfl (by decide) (by decide)
  have hload : loadConfig exampleMainRuntime fs {} [exampleProfile "dev".toList] =
      .ok (exampleSessionConfig, "/greengrass/config/config.json".toList) := by
    obtain ⟨raw, hraw⟩ := hread (ServerCfg.greengrassV1Config {})
    rw [loadConfig, hisFile, ok_bind, if_neg Bool.false_ne_true, hraw, ok_bind, hv1, ok_bind]
  have hprofile : loadProfileInfo exampleMainRuntime fs (ServerCfg.awsProfileInfo {}) =
      .ok [exampleProfile "dev".toList] := by
    obtain ⟨raw, hraw⟩ := hread (ServerCfg.awsProfileInfo {})
    rw [loadProfileInfo, hraw]
    rfl
  have hecu : parseEcuInfo exampleMainRuntime fs (ServerCfg.ecuInfoYaml {}) =
      some ⟨"autoware".toList, []⟩ := by
    obtain ⟨raw, hraw⟩ := hread (ServerCfg.ecuInfoYaml {})
    rw [parseEcuInfo, loadEcuInfo, hraw]
    rfl
  exact main_eq_ok.2 ⟨_, _, _, _, hprofile, hload, rfl, by rw [hecu]; rfl⟩

theorem main_exampleFiles :
    main exampleMainRuntime (exampleFiles false) {} = .ok exampleRunning :=
  main_exampleRuntime rfl (fun _ => ⟨_, rfl⟩)

/-- A v2 config that comes up is not monitored, but starting again would not lead to the same
    server. -/
theorem main_stable_iff_example :
    main exampleMainRuntime (exampleFiles true) {} ≠ .ok exampleRunning := by
  intro hagain
  have hsame : ∀ file ∈ exampleRunning.monitoredConfigFiles,
      (exampleFiles false).SameFile (exampleFiles true) file := by
    intro file hfile
    rw [exampleRunning, Running.monitoredConfigFiles_of] at hfile
    rcases mem_monitoredFiles.1 hfile with rfl | rfl | ⟨-, rfl⟩ <;> exact ⟨by decide, rfl, rfl⟩
  have hnot := ((main_stable_iff main_exampleFiles hsame).1 hagain).greengrassV2Config
    (by decide)
  cases hnot

/-! ## Whose logs a server stores -/

section Screened

variable (self : LogProxyServer)

/-- A log that is no teed record has a message, and is of an ECU the servicer does not refuse. -/
def LogProxyServer.Screened (server : LogProxyServer) (sub : Submission) : Prop :=
  ∀ e ∈ server.accepted sub, (∃ now formatted queued, sub = .tee now formatted queued) ∨
    (e.message.message ≠ [] ∧ server.servicer.refuses e.ecuId = false)

theorem LogProxyServer.screened_step {s : ServerState} (hs : ∀ sub ∈ s.history, self.Screened sub)
    (a : Action) : ∀ sub ∈ (self.step s a).history, self.Screened sub := by
  -- a request that is accepted was not refused
  have hscreened : ∀ {sub : Submission} {ecuId text : Str},
      (∀ e ∈ self.accepted sub, e.ecuId = ecuId ∧ e.message.message = text ∧
        text ≠ [] ∧ self.servicer.refuses ecuId = false) → self.Screened sub := by
    intro sub ecuId text h e he
    obtain ⟨hid, htext, hne, href⟩ := h e he
    exact Or.inr ⟨htext ▸ hne, hid ▸ href⟩
  cases a with
  | http now request =>
      obtain ⟨sub, hstep, hacc⟩ := self.step_http s now request
      rw [hstep, ServerState.submit, List.forall_mem_append, List.forall_mem_singleton]
      exact ⟨hs, hscreened hacc⟩
  | grpc now request =>
      obtain ⟨sub, hstep, hacc⟩ := self.step_grpc s now request
      rw [hstep, ServerState.submit, List.forall_mem_append, List.forall_mem_singleton]
      exact ⟨hs, hscreened hacc⟩
  | tee now formatted =>
      simp only [LogProxyServer.step, List.forall_mem_append, List.forall_mem_singleton]
      exact ⟨hs, fun e _ => Or.inl ⟨_, _, _, rfl⟩⟩
  | uploader today outcome => rwa [self.step_uploader_history]

theorem LogProxyServer.screened_run (maxsize : ℤ) (actions : List Action) :
    ∀ sub ∈ (self.run maxsize actions).history, self.Screened sub :=
  @foldl_invariant _ _ self.step (fun s => ∀ sub ∈ s.history, self.Screened sub)
    (fun _ a hs => self.screened_step hs a) actions (ServerState.start maxsize)
    (by simp [ServerState.start])

end Screened

/-- The whole that is left running, with the service and the protobuf runtime it meets. -/
def Running.system (self : Running) (client : AwsClient) (pbRuntime : PbRuntime) : WireSystem where
  server := ⟨self.servicer, self.teeHandler.getD ⟨[]⟩, self.iotLogger⟩
  client
  rt := pbRuntime

/-- A record is teed. -/
def WireAction.IsTee : WireAction → Prop
  | .tee _ _ => True
  | _ => False

/-- Records are teed only where a handler is attached. -/
def Running.Possible (self : Running) (actions : List WireAction) : Prop :=
  self.teeHandler = none → ∀ a ∈ actions, ¬ a.IsTee

/-- A run without teed records has none among its exchanges. -/
theorem WireSystem.no_tee_run (self : WireSystem) (maxsize : ℤ) (actions : List WireAction)
    (hno : ∀ a ∈ actions, ¬ a.IsTee) (now : ℚ) (formatted : Option Str) (queued : Bool) :
    .tee now formatted queued ∉ (self.run maxsize actions).exchanges := by
  induction actions using List.reverseRecOn with
  | nil => simp [WireSystem.run, WireState.start]
  | append_singleton actions a ih =>
      have hprev := ih (fun b hb => hno b (List.mem_append_left _ hb))
      have hlast : ¬ a.IsTee := hno a (by simp)
      rw [WireSystem.run, List.foldl_append, List.foldl_cons, List.foldl_nil, ← WireSystem.run]
      cases a with
      | http now' request => simp [WireSystem.step, hprev]
      | putLog now' m => simp [WireSystem.step, hprev]
      | check m => simp [WireSystem.step, hprev]
      | tee now' formatted' => exact absurd trivial hlast
      | uploader today =>
          simp only [WireSystem.step]
          split <;> exact hprev

theorem Exchange.submission_tee {x : Exchange} {now : ℚ} {formatted : Option Str} {queued : Bool}
    (h : x.submission = some (.tee now formatted queued)) : x = .tee now formatted queued := by
  cases x with
  | http now request reply => cases h
  | check m reply => cases h
  | tee now formatted queued =>
      cases h
      rfl
  | putLog now m reply =>
      simp only [Exchange.submission, Option.bind_eq_bind, Option.bind_eq_some_iff] at h
      obtain ⟨request, -, n, -, code, -, h⟩ := h
      cases h

/-- Whatever is stored was queued by a request the servicer does not refuse, or by the tee
    handler. -/
theorem WireSystem.stored_origin (self : WireSystem) (maxsize : ℤ) (actions : List WireAction) :
    ∀ b ∈ (self.run maxsize actions).world.storedBatches, ∀ m ∈ b.2, ∃ today source,
      b.1 = self.server.iotLogger.target today source ∧
      (m.message ≠ [] ∧ self.server.servicer.refuses source.2 = false ∨
        (∃ now formatted queued,
          .tee now formatted queued ∈ (self.run maxsize actions).exchanges) ∧
        source = (.log, self.server.teeHandler.logstreamSuffix)) := by
  intro b hb m hm
  have hdecodes := self.run_decodes maxsize actions
  generalize actions.filterMap WireAction.decode = decoded at hdecodes
  have huploads := self.toLoggingSystem.uploads_run maxsize decoded
  have hinv := self.toLoggingSystem.inv_server maxsize decoded
  rw [hdecodes.world] at hb
  obtain ⟨call, hcall, rfl⟩ := List.mem_map.1 (huploads.stored.subset hb)
  obtain ⟨today, htarget⟩ := huploads.targets call hcall
  -- the entry the message is from, and the submission that queued it
  obtain ⟨e, he, hkey⟩ := hinv.mem_dequeued hcall hm
  have hsource : e.source = call.source := congrArg Prod.fst hkey
  have hmessage : e.message = m := congrArg Prod.snd hkey
  have haccepted : e ∈ self.server.acceptedEntries
      (self.toLoggingSystem.run maxsize decoded).server := by
    rw [hinv.conserved]
    exact List.mem_append_left _ he
  obtain ⟨sub, hsub, hsome⟩ := List.mem_filterMap.1 haccepted
  obtain ⟨serverActions, hserver⟩ := self.toLoggingSystem.run_refines maxsize decoded
  have hscreened : self.server.Screened sub :=
    self.server.screened_run maxsize serverActions sub (hserver ▸ hsub)
  refine ⟨today, call.source, htarget, ?_⟩
  rw [← hsource, ← hmessage]
  rcases hscreened e hsome with ⟨now, formatted, queued, rfl⟩ | hrequest
  · refine Or.inr ⟨?_, ?_⟩
    · rw [← hdecodes.history] at hsub
      obtain ⟨x, hx, hsubmission⟩ := List.mem_filterMap.1 hsub
      exact ⟨now, formatted, queued, Exchange.submission_tee hsubmission ▸ hx⟩
    · simp only [LogProxyServer.accepted] at hsome
      split at hsome
      · obtain ⟨message, -, rfl⟩ := Option.map_eq_some_iff.1 hsome
        rfl
      · cases hsome
  · exact Or.inl hrequest

/-- **What a server started from its config files stores, and where.** In any run, each log stored
    is in the stream of one day and one source under the thing's name. It has a message and, if an
    `ecu_info.yaml` was loaded, a source listed there; or it is one of the server's own, which go to
    the log group under the configured suffix and only if their upload is enabled. -/
theorem Running.stores_listed {rt : MainRuntime} {fs : FileSystem} {serverCfg : ServerCfg}
    {running : Running} (h : main rt fs serverCfg = .ok running) (client : AwsClient)
    (pbRuntime : PbRuntime) (actions : List WireAction) (hpossible : running.Possible actions) :
    ∀ b ∈ ((running.system client pbRuntime).run running.maxsize actions).world.storedBatches,
      ∀ m ∈ b.2, ∃ today source, b.1 = running.iotLogger.target today source ∧
        (m.message ≠ [] ∧ (∀ ecuInfo, parseEcuInfo rt fs serverCfg.ecuInfoYaml = some ecuInfo →
            source.2 ∈ ecuInfo.ecuIdSet) ∨
          serverCfg.uploadLoggingServerLogs = true ∧
            source = (.log, serverCfg.serverLogstreamSuffix)) := by
  intro b hb m hm
  obtain ⟨today, source, htarget, horigin⟩ :=
    (running.system client pbRuntime).stored_origin running.maxsize actions b hb m hm
  obtain ⟨profileInfo, sessionConfig, used, session, -, -, -, rfl⟩ := main_eq_ok.1 h
  refine ⟨today, source, htarget, ?_⟩
  rcases horigin with ⟨hne, hrefuses⟩ | ⟨⟨now, formatted, queued, htee⟩, hsource⟩
  · refine Or.inl ⟨hne, fun ecuInfo hparse => ?_⟩
    by_contra hnot
    have hrefused := (Servicer.refuses_init ecuInfo source.2).2 hnot
    rw [Running.system, Running.of, hparse, hrefused] at hrefuses
    cases hrefuses
  · -- a record was teed, so a handler is attached
    have hhandler : configLogging serverCfg ≠ none := fun hnone =>
      WireSystem.no_tee_run _ _ actions (hpossible hnone) now formatted queued htee
    have hconfig : configLogging serverCfg = some ⟨serverCfg.serverLogstreamSuffix⟩ ∧
        serverCfg.uploadLoggingServerLogs = true := by
      unfold configLogging at hhandler ⊢
      split
      · next henabled => exact ⟨rfl, (Bool.and_eq_true _ _ ▸ henabled).1⟩
      · next hdisabled => exact absurd (if_neg hdisabled) hhandler
    refine Or.inr ⟨hconfig.2, ?_⟩
    rw [hsource, Running.system, Running.of, hconfig.1]
    rfl

/-- The INFO log of the listed ECU is all that is stored. -/
theorem stores_listed_example :
    ((exampleRunning.system streamService indexRuntime).run 4096
        exampleWireActions).world.storedBatches.length = 1 ∧
    ∀ b ∈ ((exampleRunning.system streamService indexRuntime).run 4096
        exampleWireActions).world.storedBatches, ∀ m ∈ b.2, ∃ today source,
      b.1 = exampleRunning.iotLogger.target today source ∧ source.2 = "autoware".toList := by
  refine ⟨by decide +kernel, fun b hb m hm => ?_⟩
  have hpossible : exampleRunning.Possible exampleWireActions := fun _ => by
    simp [exampleWireActions, WireAction.IsTee]
  obtain ⟨today, source, htarget, hlisted | ⟨hupload, -⟩⟩ := Running.stores_listed
    main_exampleFiles streamService indexRuntime exampleWireActions hpossible b hb m hm
  · exact ⟨today, source, htarget, List.mem_singleton.1 (hlisted.2 _ rfl)⟩
  · cases hupload

end IotLoggingServer
