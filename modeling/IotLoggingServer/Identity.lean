import IotLoggingServer.Main

set_option autoImplicit false

/-! # Who a server is

The config that a start-up parses says which thing the device is and which AWS profile it belongs
to. A server that has started acts as that thing of that profile wherever it shows itself: where it
gets its credentials, and in every call of the log service in every run (`one_identity`). The
streams of different things are kept apart, unless the name of one begins with that of the other and
a slash (`share_stream_iff`). -/

namespace IotLoggingServer

/-! ## The profile of a config -/

theorem AWSProfileInfo.getProfileInfo_eq_ok {self : AWSProfileInfo} {profileName : Str}
    {profile : AWSProfile} (h : self.getProfileInfo profileName = .ok profile) :
    profile ∈ self ∧ profile.profileName = profileName := by
  unfold AWSProfileInfo.getProfileInfo at h
  split at h
  · next found hfound =>
      cases h
      exact ⟨List.mem_of_find?_eq_some hfound, by simpa using List.find?_some hfound⟩
  · cases h

/-- The config is of a thing whose name gives `profile`, the first one listed under its name. In an
    ARN the name may have a prefix. -/
structure IoTSessionConfig.Follows (config : IoTSessionConfig) (profileInfo : AWSProfileInfo)
    (profile : AWSProfile) : Prop where
  listed : profileInfo.getProfileInfo config.profile = .ok profile
  thing : ∃ pre ∈ [[], "thing/".toList],
    getProfileFromThingName (pre ++ config.thingName) = .ok config.profile

theorem removePrefix_cases (p s : Str) : s = removePrefix p s ∨ s = p ++ removePrefix p s := by
  unfold removePrefix
  split
  · next hprefix =>
      obtain ⟨rest, rfl⟩ := List.isPrefixOf_iff_prefix.1 hprefix
      rw [List.drop_left]
      exact Or.inr rfl
  · exact Or.inl rfl

/-- A config parsed from a v1 file has the endpoint of its profile. -/
theorem parseV1Config_follows {jsonLoads : Str → Except PyExc Value} {profileInfo : AWSProfileInfo}
    {rawCfg : Str} {config : IoTSessionConfig}
    (h : parseV1Config jsonLoads profileInfo rawCfg = .ok config) :
    ∃ profile, config.Follows profileInfo profile ∧
      config.awsCredentialProviderEndpoint = profile.credentialEndpoint := by
  unfold parseV1Config at h
  obtain ⟨loadedCfg, -, h⟩ := bind_eq_ok.1 h
  split at h
  · obtain ⟨rawThingArn, -, h⟩ := bind_eq_ok.1 h
    split at h
    · obtain ⟨thingArn, -, h⟩ := bind_eq_ok.1 h
      obtain ⟨profileName, hprofileName, h⟩ := bind_eq_ok.1 h
      obtain ⟨profile, hprofile, h⟩ := bind_eq_ok.1 h
      simp only [bind_eq_ok] at h
      obtain ⟨_, -, _, -, _, -, _, -, _, -, _, -, h⟩ := h
      cases h
      have hname := (AWSProfileInfo.getProfileInfo_eq_ok hprofile).2
      subst hname
      refine ⟨profile, ⟨hprofile, ?_⟩, rfl⟩
      rcases removePrefix_cases "thing/".toList thingArn.resourceId with hbare | hthing
      · refine ⟨[], by simp, ?_⟩
        rw [List.nil_append, ThingArn.thingName, ← hbare]
        exact hprofileName
      · refine ⟨"thing/".toList, by simp, ?_⟩
        rw [ThingArn.thingName, ← hthing]
        exact hprofileName
    · cases h
  · cases h

/-- The endpoint that a v2 config asks for, if it asks for one. -/
def iotCredEndpoint (loadedCfg : Value) : Value :=
  chainQueryD loadedCfg ["services".toList, "aws.greengrass.Nucleus".toList,
    "configuration".toList, "iotCredEndpoint".toList] .null

theorem Value.asStr_eq_ok {field : String} {value : Value} {s : Str}
    (h : value.asStr field = .ok s) : value = .str s := by
  unfold Value.asStr at h
  split at h
  · cases h
    rfl
  · cases h

/-- One parsed from a v2 file has the endpoint the file asks for, or else that of its profile. -/
theorem parseV2Config_follows {yamlSafeLoad : Str → Except PyExc Value} {pyStr : Value → Str}
    {profileInfo : AWSProfileInfo} {rawCfg : Str} {config : IoTSessionConfig}
    (h : parseV2Config yamlSafeLoad pyStr profileInfo rawCfg = .ok config) :
    ∃ profile, config.Follows profileInfo profile ∧ ∃ loadedCfg,
      yamlSafeLoad rawCfg = .ok loadedCfg ∧ Value.str config.awsCredentialProviderEndpoint =
        if (iotCredEndpoint loadedCfg).truthy then iotCredEndpoint loadedCfg
        else .str profile.credentialEndpoint := by
  unfold parseV2Config at h
  obtain ⟨loadedCfg, hload, h⟩ := bind_eq_ok.1 h
  split at h
  · obtain ⟨thingName, -, h⟩ := bind_eq_ok.1 h
    obtain ⟨profileName, hprofileName, h⟩ := bind_eq_ok.1 h
    obtain ⟨profile, hprofile, h⟩ := bind_eq_ok.1 h
    simp only [bind_eq_ok] at h
    obtain ⟨_, -, _, -, _, -, _, -, _, -, _, -, _, -, _, -, name, hthingName, _, -, endpoint,
      hendpoint, h⟩ := h
    cases h
    have hname := (AWSProfileInfo.getProfileInfo_eq_ok hprofile).2
    subst hname
    rw [Value.asStr_eq_ok hthingName] at hprofileName
    exact ⟨profile, ⟨hprofile, [], by simp, hprofileName⟩, _, hload,
      (Value.asStr_eq_ok hendpoint).symm⟩
  · cases h

/-- The config of a start-up follows a listed profile. Its endpoint is that of the profile, unless
    a v2 file asks for another. -/
theorem loadConfig_follows {rt : MainRuntime} {fs : FileSystem} {serverCfg : ServerCfg}
    {profileInfo : AWSProfileInfo} {config : IoTSessionConfig} {used : Str}
    (h : loadConfig rt fs serverCfg profileInfo = .ok (config, used)) :
    ∃ profile, config.Follows profileInfo profile ∧
      (config.awsCredentialProviderEndpoint = profile.credentialEndpoint ∨
        ∃ rawCfg loadedCfg, fs.readText serverCfg.greengrassV2Config = .ok rawCfg ∧
          rt.yamlSafeLoad rawCfg = .ok loadedCfg ∧ (iotCredEndpoint loadedCfg).truthy = true ∧
          iotCredEndpoint loadedCfg = .str config.awsCredentialProviderEndpoint) := by
  unfold loadConfig at h
  obtain ⟨isV2, -, h⟩ := bind_eq_ok.1 h
  split at h
  · obtain ⟨rawCfg, hread, h⟩ := bind_eq_ok.1 h
    obtain ⟨v2Cfg, hparse, h⟩ := bind_eq_ok.1 h
    cases h
    obtain ⟨profile, hfollows, loadedCfg, hload, hendpoint⟩ := parseV2Config_follows hparse
    refine ⟨profile, hfollows, ?_⟩
    split at hendpoint
    · next htruthy => exact Or.inr ⟨rawCfg, loadedCfg, hread, hload, htruthy, hendpoint.symm⟩
    · exact Or.inl (Value.str.inj hendpoint)
  · obtain ⟨rawCfg, -, h⟩ := bind_eq_ok.1 h
    obtain ⟨v1Cfg, hparse, h⟩ := bind_eq_ok.1 h
    cases h
    obtain ⟨profile, hfollows, hendpoint⟩ := parseV1Config_follows hparse
    exact ⟨profile, hfollows, Or.inl hendpoint⟩

/-! ## The credentials of a config -/

/-- The request for the credentials of a config. -/
def IoTSessionConfig.credentialRequest (self : IoTSessionConfig) (tlsCtxOpt : TlsContextOptions) :
    HttpsRequest where
  hostName := self.awsCredentialProviderEndpoint
  port := 443
  tlsCtxOpt
  serverName := self.awsCredentialProviderEndpoint
  method := "GET".toList
  path := credentialsPath self.awsRoleAlias
  headers := [("host".toList, self.awsCredentialProviderEndpoint),
    ("x-amzn-iot-thingname".toList, self.thingName)]

section Session

variable {runtime : SessionRuntime} {fs : FileSystem} {config : IoTSessionConfig}
  {session : Session}

/-- The key and the certificate are those of the config; a key that is a PKCS#11 URI is left to the
    PKCS#11 library, and never read from a file. -/
def IoTSessionConfig.Authenticates (runtime : SessionRuntime) (fs : FileSystem)
    (config : IoTSessionConfig) : TlsContextOptions → Prop
  | .mtlsFromPath certFilepath pkFilepath => isPkcs11 config.privateKeyPath = false ∧
    certFilepath = config.certificatePath ∧ pkFilepath = config.privateKeyPath
  | .mtlsPkcs11 pkcs11Lib userPin slotId privateKeyLabel certFileContents =>
    isPkcs11 config.privateKeyPath = true ∧
      loadCertificate runtime fs config.certificatePath config.pkcs11Config =
        .ok certFileContents ∧
      ∃ cfg uri, config.pkcs11Config = some cfg ∧ parsePkcs11Uri config.privateKeyPath = .ok uri ∧
        pkcs11Lib = cfg.pkcs11Lib ∧ userPin = cfg.userPin ∧
        runtime.parseInt cfg.slotId = .ok slotId ∧ privateKeyLabel = dictGet? id uri "object".toList

theorem getSession_region (h : getSession runtime fs config = .ok session) :
    session.region = config.region := by
  unfold getSession at h
  split at h
  · unfold getSessionPkcs11 at h
    split at h
    · cases h
    · obtain ⟨certPem, -, h⟩ := bind_eq_ok.1 h
      obtain ⟨uri, -, h⟩ := bind_eq_ok.1 h
      cases h
      rfl
  · cases h
    rfl

/-- **A refresh asks once, and as the config says**, unless it raises before it asks. -/
theorem getSession_requests (h : getSession runtime fs config = .ok session) (u : Unit) :
    ((session.refreshUsing u).requests = [] ∧ ∃ e, (session.refreshUsing u).result = .error e) ∨
      ∃ tlsCtxOpt, (session.refreshUsing u).requests = [config.credentialRequest tlsCtxOpt] ∧
        config.Authenticates runtime fs tlsCtxOpt := by
  unfold getSession at h
  split at h
  · next hpkcs11 =>
      unfold getSessionPkcs11 at h
      split at h
      · cases h
      · next cfg hcfg =>
          obtain ⟨certPem, hcert, h⟩ := bind_eq_ok.1 h
          obtain ⟨uri, huri, h⟩ := bind_eq_ok.1 h
          cases h
          simp only [createBoto3Session, fetchIotCredentialsPkcs11]
          cases htls : buildTlsContextPkcs11 runtime certPem cfg
              (dictGet? id uri "object".toList) with
          | error e => exact Or.inl ⟨rfl, e, rfl⟩
          | ok tlsCtxOpt =>
              obtain ⟨slotId, hslot, htls⟩ := bind_eq_ok.1 htls
              cases htls
              exact Or.inr ⟨_, rfl, hpkcs11, hcert, cfg, uri, hcfg, huri, rfl, rfl, hslot, rfl⟩
  · next hplain =>
      cases h
      exact Or.inr ⟨_, rfl, by simpa using hplain, rfl, rfl⟩

end Session

/-! ## The calls of the log service -/

def ClientCall.target : ClientCall → Target
  | .createLogStream logGroupName logStreamName => (logGroupName, logStreamName)
  | .putLogEvents request => (request.logGroupName, request.logStreamName)

/-- All calls of an upload are for the stream of its batch. -/
theorem AwsClient.upload_targets (client : AwsClient) (call : PutCall) (w : World) :
    ∀ c ∈ (client.upload call w).2.calls, c ∈ w.calls ∨ c.1.target = call.target := by
  obtain ⟨rounds, hprotocol⟩ := client.upload_protocol call w
  intro c hc
  rw [hprotocol.calls] at hc
  rcases List.mem_append.1 hc with hc | hc
  · exact Or.inl hc
  · obtain ⟨rd, -, hc⟩ := List.mem_flatMap.1 hc
    unfold Round.calls at hc
    rcases List.mem_cons.1 hc with rfl | hc
    · exact Or.inr rfl
    · obtain ⟨a, -, rfl⟩ := List.mem_map.1 hc
      exact Or.inr rfl

/-- **Every call of the log service in any run is for the stream of a source.** -/
theorem LoggingSystem.calls_run (self : LoggingSystem) (maxsize : ℤ)
    (actions : List SystemAction) : ∀ c ∈ (self.run maxsize actions).world.calls,
      ∃ today source, c.1.target = self.server.iotLogger.target today source := by
  refine @foldl_invariant _ _ self.step (fun s => ∀ c ∈ s.world.calls, ∃ today source,
    c.1.target = self.server.iotLogger.target today source) (fun s a hs => ?_) actions
    (SystemState.start maxsize) (by simp [SystemState.start])
  rcases self.step_cases s a with ⟨b, -, -, hworld⟩ |
    ⟨today, batch, rest, outcome, -, -, -, hworld⟩
  · rwa [hworld]
  · rw [hworld]
    intro c hc
    rcases self.client.upload_targets _ s.world c hc with hold | hnew
    · exact hs c hold
    · exact ⟨today, batch.1, hnew⟩

theorem WireSystem.calls_run (self : WireSystem) (maxsize : ℤ) (actions : List WireAction) :
    ∀ c ∈ (self.run maxsize actions).world.calls,
      ∃ today source, c.1.target = self.server.iotLogger.target today source := by
  rw [(self.run_decodes maxsize actions).world]
  exact self.toLoggingSystem.calls_run maxsize _

/-! ## One identity -/

/-- The server is the thing of its config towards the credential provider and, in any run, towards
    the log service. -/
structure Running.ActsAsConfigured (rt : MainRuntime) (fs : FileSystem) (running : Running) :
    Prop where
  region : running.session.region = running.config.region
  credentials : ∀ u, ((running.session.refreshUsing u).requests = [] ∧
      ∃ e, (running.session.refreshUsing u).result = .error e) ∨
    ∃ tlsCtxOpt, (running.session.refreshUsing u).requests =
        [running.config.credentialRequest tlsCtxOpt] ∧
      running.config.Authenticates rt.session fs tlsCtxOpt
  calls : ∀ client pbRuntime actions, ∀ c ∈
    ((running.system client pbRuntime).run running.maxsize actions).world.calls,
      c.1.target.1 ∈ [running.config.awsCloudwatchOtaclientLogsLogGroup,
        running.config.awsCloudwatchOtaclientMetricsLogGroup] ∧
      ∃ today ecuId, c.1.target.2 =
        getLogStreamName (UtcDate.strftime today) running.config.thingName ecuId

/-- **A started server has one identity.** The thing and the profile of its Greengrass config, the
    latter listed, are the ones it asks for credentials as, and all calls of the log service are for
    the log groups of that profile and for streams of that thing. -/
theorem Running.one_identity {rt : MainRuntime} {fs : FileSystem} {serverCfg : ServerCfg}
    {running : Running} (h : main rt fs serverCfg = .ok running) :
    running.ActsAsConfigured rt fs ∧
    ∃ profileInfo profile, loadProfileInfo rt fs serverCfg.awsProfileInfo = .ok profileInfo ∧
      (∃ used ∈ running.monitoredConfigFiles,
        loadConfig rt fs serverCfg profileInfo = .ok (running.config, used)) ∧
      running.config.Follows profileInfo profile ∧
      (running.config.awsCredentialProviderEndpoint = profile.credentialEndpoint ∨
        ∃ rawCfg loadedCfg, fs.readText serverCfg.greengrassV2Config = .ok rawCfg ∧
          rt.yamlSafeLoad rawCfg = .ok loadedCfg ∧ (iotCredEndpoint loadedCfg).truthy = true ∧
          iotCredEndpoint loadedCfg = .str running.config.awsCredentialProviderEndpoint) := by
  obtain ⟨profileInfo, sessionConfig, used, session, hprofile, hload, hsession, rfl⟩ :=
    main_eq_ok.1 h
  obtain ⟨profile, hfollows, hendpoint⟩ := loadConfig_follows hload
  have hmonitored : used ∈ (Running.of serverCfg (parseEcuInfo rt fs serverCfg.ecuInfoYaml)
      sessionConfig used session).monitoredConfigFiles := by
    rw [Running.monitoredConfigFiles_of]
    exact mem_monitoredFiles.2 (Or.inl rfl)
  refine ⟨⟨getSession_region hsession, getSession_requests hsession, ?_⟩, profileInfo, profile,
    hprofile, ⟨used, hmonitored, hload⟩, hfollows, hendpoint⟩
  intro client pbRuntime actions c hc
  obtain ⟨today, source, htarget⟩ := WireSystem.calls_run _ _ actions c hc
  rw [htarget]
  refine ⟨?_, today, source.2, rfl⟩
  show AWSIoTLogger.logGroupName _ source.1 ∈ _
  unfold AWSIoTLogger.logGroupName
  split
  · exact List.mem_cons_of_mem _ List.mem_cons_self
  · exact List.mem_cons_self

theorem one_identity_example :
    exampleRunning.ActsAsConfigured exampleMainRuntime (exampleFiles false) ∧
    exampleRunning.config.thingName = "dev-edge-ecu-Core".toList :=
  ⟨(Running.one_identity main_exampleFiles).1, rfl⟩

/-! ## Things with streams in common -/

/-- One name is the other, or begins with it and a slash. -/
def Overlap (thingName thingName' : Str) : Prop :=
  thingName = thingName' ∨ thingName ++ "/".toList <+: thingName' ∨
    thingName' ++ "/".toList <+: thingName

theorem overlap_iff {thingName thingName' : Str} : Overlap thingName thingName' ↔
    ∃ ecuId ecuId', thingName ++ "/".toList ++ ecuId = thingName' ++ "/".toList ++ ecuId' := by
  constructor
  · rintro (rfl | ⟨rest, rfl⟩ | ⟨rest, rfl⟩)
    · exact ⟨[], [], rfl⟩
    · exact ⟨rest ++ "/".toList, [], by simp⟩
    · exact ⟨[], rest ++ "/".toList, by simp⟩
  · rintro ⟨ecuId, ecuId', heq⟩
    rw [List.append_assoc, List.append_assoc] at heq
    rcases List.append_eq_append_iff.1 heq with ⟨more, hname, hrest⟩ | ⟨more, hname, hrest⟩
    · cases more with
      | nil => exact Or.inl (by rw [hname, List.append_nil])
      | cons c more =>
          obtain ⟨rfl, -⟩ := List.cons.inj hrest
          exact Or.inr (Or.inl ⟨more, by rw [hname, List.append_assoc]; rfl⟩)
    · cases more with
      | nil => exact Or.inl (by rw [hname, List.append_nil])
      | cons c more =>
          obtain ⟨rfl, -⟩ := List.cons.inj hrest
          exact Or.inr (Or.inr ⟨more, by rw [hname, List.append_assoc]; rfl⟩)

/-- A step in the merge loop makes no call. -/
theorem LoggingSystem.step_merging (self : LoggingSystem) {s : SystemState} {n : ℕ}
    {d : Groups Source LogMessage} (ht : s.server.thread = .merging n d) (today : UtcDate) :
    let res := self.server.iotLogger.step today.strftime (fun _ => .ok ()) s.server.queue
      (.merging n d)
    (self.step s (.uploader today)).server.thread = res.1 ∧
      (self.step s (.uploader today)).server.queue = res.2.1 := by
  simp [LoggingSystem.step, ht, AWSIoTLogger.nextCall, LogProxyServer.step]

/-- A server that filters no ECUs can be made to write to any stream of its thing. -/
theorem LoggingSystem.reaches_stream (self : LoggingSystem)
    (hall : self.server.servicer.allowedEcus = none)
    (hlimit : 0 < self.server.iotLogger.maxLogsPerMerge) (maxsize : ℤ) (today : UtcDate)
    (ecuId : Str) : ∃ actions, ∃ c ∈ (self.run maxsize actions).world.calls,
      c.1.target = self.server.iotLogger.target today (.log, ecuId) := by
  let request : PutLogRequest := ⟨ecuId, .log, 0, .unspecific, "up".toList⟩
  let entry := logEntry 0 ecuId .log (some 0) "up".toList
  let batch : Source × List LogMessage := ((.log, ecuId), [entry.message])
  -- the log is queued, taken and handed over
  let queued := self.step (SystemState.start maxsize) (.grpc 0 request)
  let taken := self.step queued (.uploader today)
  let merged := self.step taken (.uploader today)
  have hroom : ¬ (⟨maxsize, []⟩ : LogsQueue).isFull := fun hfull => not_le.2 hfull.1 hfull.2
  have hqueue : queued.server.queue = ⟨maxsize, [entry]⟩ := by
    simp [queued, request, LoggingSystem.step, LogProxyServer.step, Servicer.grpcPutLog,
      Servicer.putLog_eq, Servicer.admission, Servicer.refuses, hall, SystemState.start,
      ServerState.start, hroom, entry]
  have htaken : taken.server.thread = .merging 1 (Groups.empty.append entry.source entry.message) ∧
      taken.server.queue.items = [] := by
    have htop : queued.server.thread = .merging 0 Groups.empty := rfl
    obtain ⟨hthread, hrest⟩ := self.step_merging htop today
    rw [self.server.iotLogger.step_get _ _ _ (by simpa using hlimit) (by rw [hqueue])]
      at hthread hrest
    exact ⟨hthread, by rw [hrest]⟩
  have hmerged : merged.server.thread = .uploading [batch] := by
    obtain ⟨hthread, -⟩ := self.step_merging htaken.1 today
    rwa [self.server.iotLogger.step_merged _ _ _ (Or.inr htaken.2)] at hthread
  have hworld : (self.step merged (.uploader today)).world =
      (self.client.upload (self.server.iotLogger.putCall today.strftime batch) merged.world).2 := by
    simp only [LoggingSystem.step, hmerged, AWSIoTLogger.nextCall]
  obtain ⟨c, hc, hrequest⟩ := List.mem_filterMap.1 (self.client.upload_puts
    (self.server.iotLogger.putCall today.strftime batch) merged.world).2
  refine ⟨[.grpc 0 request, .uploader today, .uploader today, .uploader today], c, ?_, ?_⟩
  · show c ∈ (self.step merged (.uploader today)).world.calls
    rw [hworld]
    exact hc
  · cases hcall : c.1 with
    | createLogStream logGroupName logStreamName =>
        rw [hcall] at hrequest
        cases hrequest
    | putLogEvents put =>
        rw [hcall] at hrequest
        cases hrequest
        rfl

/-- **Which things can get at each other's streams.** Two servers that upload to the same log group
    and filter no ECUs can be made to write to one stream iff the name of one thing is that of the
    other, or begins with it and a slash. -/
theorem LoggingSystem.share_stream_iff (self self' : LoggingSystem)
    (hall : self.server.servicer.allowedEcus = none)
    (hall' : self'.server.servicer.allowedEcus = none)
    (hlimit : 0 < self.server.iotLogger.maxLogsPerMerge)
    (hlimit' : 0 < self'.server.iotLogger.maxLogsPerMerge)
    (hgroup : self.server.iotLogger.logGroupName .log = self'.server.iotLogger.logGroupName .log)
    (maxsize maxsize' : ℤ) :
    (∃ actions actions', ∃ c ∈ (self.run maxsize actions).world.calls,
      ∃ c' ∈ (self'.run maxsize' actions').world.calls, c.1.target = c'.1.target) ↔
    Overlap self.server.iotLogger.sessionConfig.thingName
      self'.server.iotLogger.sessionConfig.thingName := by
  rw [overlap_iff]
  constructor
  · rintro ⟨actions, actions', c, hc, c', hc', heq⟩
    obtain ⟨today, source, htarget⟩ := self.calls_run maxsize actions c hc
    obtain ⟨today', source', htarget'⟩ := self'.calls_run maxsize' actions' c' hc'
    have hundated : self.server.iotLogger.undatedTarget source =
        self'.server.iotLogger.undatedTarget source' := by
      rw [← AWSIoTLogger.target_undated _ today, ← AWSIoTLogger.target_undated _ today', ← htarget,
        heq, htarget']
    refine ⟨source.2, source'.2, ?_⟩
    have hstream := congrArg Prod.snd hundated
    simpa [AWSIoTLogger.undatedTarget] using hstream
  · rintro ⟨ecuId, ecuId', heq⟩
    obtain ⟨actions, c, hc, htarget⟩ := self.reaches_stream hall hlimit maxsize exampleDate ecuId
    obtain ⟨actions', c', hc', htarget'⟩ :=
      self'.reaches_stream hall' hlimit' maxsize' exampleDate ecuId'
    refine ⟨actions, actions', c, hc, c', hc', ?_⟩
    rw [htarget, htarget', AWSIoTLogger.target, AWSIoTLogger.target, hgroup]
    simp only [getLogStreamName, List.append_assoc] at heq ⊢
    rw [heq]

/-- A server without a filter, for a thing of the given name. -/
def exampleServerOf (thingName : Str) : LogProxyServer :=
  { slowServer with
    iotLogger := startAwsIotLoggerThread
      ⟨[], [], [], [], thingName, "profile".toList, [], [], none⟩ {} }

/-- The ECU `rear/main` of one thing and the ECU `main` of the other. -/
theorem share_stream_iff_example : ∃ actions actions',
    ∃ c ∈ (LoggingSystem.run ⟨exampleServerOf "car".toList, missingService⟩ 8 actions).world.calls,
    ∃ c' ∈ (LoggingSystem.run ⟨exampleServerOf "car/rear".toList, missingService⟩ 8
      actions').world.calls, c.1.target = c'.1.target :=
  (LoggingSystem.share_stream_iff ⟨exampleServerOf "car".toList, missingService⟩
    ⟨exampleServerOf "car/rear".toList, missingService⟩ rfl rfl (by decide) (by decide) rfl 8
    8).2 (Or.inr (Or.inl (by decide)))

end IotLoggingServer
