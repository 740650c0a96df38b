import IotLoggingServer.NestedDict
import IotLoggingServer.Pkcs11Uri
import IotLoggingServer.SessionConfig
import IotLoggingServer.ThingName

set_option autoImplicit false

/-! # The boto3 session (`boto3_session.py`)

How the credentials of a session are fetched: which request goes to the credential provider, and
what becomes of its answer. The request carries the endpoint as it is configured, so it is the
published URL exactly for an endpoint without a final slash; a refused request raises the same
exception for every body that is UTF-8. -/

namespace IotLoggingServer

/-- The arguments the TLS context of a connection is built from. -/
inductive TlsContextOptions
  | mtlsFromPath (certFilepath pkFilepath : Str)
  | mtlsPkcs11 (pkcs11Lib userPin : Str) (slotId : ℤ) (privateKeyLabel : Option Str)
      (certFileContents : List UInt8)
  deriving DecidableEq, Repr

/-- An `HttpRequest` and the connection it is sent over. -/
structure HttpsRequest where
  hostName : Str
  port : ℕ
  tlsCtxOpt : TlsContextOptions
  serverName : Str
  method : Str
  path : Str
  headers : List (Str × Str)
  deriving DecidableEq, Repr

/-- The URL requested. -/
def HttpsRequest.url (self : HttpsRequest) : Str :=
  "https://".toList ++ self.hostName ++ self.path

/-- The callbacks of a stream. -/
inductive HttpEvent
  | response (statusCode : ℤ)
  | body (chunk : List UInt8)
  deriving DecidableEq, Repr

/-- What the module takes from outside besides the files: awscrt, `pkcs11-tool` and the standard
    library. -/
structure SessionRuntime where
  /-- connecting, sending the request and waiting for the stream to complete -/
  exchange : HttpsRequest → Except PyExc (List HttpEvent)
  jsonLoads : Str → Except PyExc Value
  /-- `int(s)` of a string -/
  parseInt : Str → Except PyExc ℤ
  checkOutput : List Str → Except PyExc (List UInt8)
  derCertToPemCert : List UInt8 → Str

/-- The dictionary of the fetched credentials. -/
structure Credentials where
  accessKey : Value
  secretKey : Value
  token : Value
  expiryTime : Value

/-- One call of a refresh function: what it requested, and what came of it. -/
structure Refresh where
  requests : List HttpsRequest
  result : Except PyExc Credentials

structure Session where
  region : Str
  method : Str
  refreshUsing : Unit → Refresh

variable (runtime : SessionRuntime) (fs : FileSystem)

/-! ## Loading certificates -/

def loadPkcs11Cert (pkcs11Lib slotId privateKeyLabel userPin : Str) :
    Except PyExc (List UInt8) :=
  let cmd := ["/usr/bin/pkcs11-tool".toList, "--module".toList, pkcs11Lib, "--type".toList,
    "cert".toList, "--slot".toList, slotId, "--label".toList, privateKeyLabel,
    "--read-object".toList]
  runtime.checkOutput (if userPin = [] then cmd else cmd ++ ["--pin".toList, userPin])

def convertToPem (data : List UInt8) : List UInt8 :=
  if (Utf8.encode "-----BEGIN CERTIFICATE-----".toList).isPrefixOf data then data
  else Utf8.encode (runtime.derCertToPemCert data)

/-- `path.startswith("pkcs11")` -/
def isPkcs11 (path : Str) : Bool := "pkcs11".toList.isPrefixOf path

def loadCertificate (certPath : Str) (pkcs11Cfg : Option PKCS11Config) :
    Except PyExc (List UInt8) :=
  if isPkcs11 certPath then
    match pkcs11Cfg with
    | none => .error (.assertionError
        "certificate is provided by pkcs11, but no pkcs11_cfg is not available".toList)
    | some cfg => do
      let parsedCertUri ← parsePkcs11Uri certPath
      match dictGet? id parsedCertUri "object".toList with
      | none => .error (.keyError "object".toList)
      | some label => do
        let cert ← loadPkcs11Cert runtime cfg.pkcs11Lib cfg.slotId label cfg.userPin
        .ok (convertToPem runtime cert)
  else do
    let cert ← fs.readBytes certPath
    .ok (convertToPem runtime cert)

/-! ## Fetching credentials -/

/-- The error a status other than 200 is reported as. -/
def credentialError (responseStatus : ℤ) : PyExc :=
  .valueError ("Error getting credentials from IoT credential provider: status=".toList ++
    (toString responseStatus).toList) none

/-- `_parse_credentials_response`. The error log gets the URL, the status and the decoded body. -/
def parseCredentialsResponse (responseStatus : ℤ) (responseBody : List UInt8)
    (_credentialUrl : Str) : Except PyExc Credentials :=
  if responseStatus ≠ 200 then do
    let _logged ← decodeUtf8 responseBody
    .error (credentialError responseStatus)
  else do
    let text ← decodeUtf8 responseBody
    let loaded ← runtime.jsonLoads text
    let credentials ← loaded.getItem "credentials".toList
    let accessKey ← credentials.getItem "accessKeyId".toList
    let secretKey ← credentials.getItem "secretAccessKey".toList
    let token ← credentials.getItem "sessionToken".toList
    let expiryTime ← credentials.getItem "expiration".toList
    .ok { accessKey, secretKey, token, expiryTime }

/-- The status code the callbacks leave: the last one reported. -/
def responseStatusCode (events : List HttpEvent) : ℤ :=
  events.foldl (fun status event => match event with
    | .response code => code
    | .body _ => status) 0

/-- The body the callbacks leave. -/
def responseBody (events : List HttpEvent) : List UInt8 :=
  events.flatMap (fun event => match event with
    | .response _ => []
    | .body chunk => chunk)

/-- The path of the request: `/role-aliases/<role_alias>/credentials`. -/
def credentialsPath (roleAlias : Str) : Str :=
  "/role-aliases/".toList ++ roleAlias ++ "/credentials".toList

def fetchIotCredentialsViaAwscrt (endpoint roleAlias thingName : Str)
    (tlsCtxOpt : TlsContextOptions) (port : ℕ := 443) : Refresh :=
  let path := credentialsPath roleAlias
  let url := "https://".toList ++ endpoint ++ path
  let request : HttpsRequest :=
    { hostName := endpoint, port, tlsCtxOpt, serverName := endpoint, method := "GET".toList, path,
      headers := [("host".toList, endpoint), ("x-amzn-iot-thingname".toList, thingName)] }
  { requests := [request]
    result := do
      let events ← runtime.exchange request
      parseCredentialsResponse runtime (responseStatusCode events) (responseBody events) url }

def fetchIotCredentials (endpoint roleAlias thingName certPath keyPath : Str) : Refresh :=
  fetchIotCredentialsViaAwscrt runtime endpoint roleAlias thingName (.mtlsFromPath certPath keyPath)

def buildTlsContextPkcs11 (certPem : List UInt8) (pkcs11Cfg : PKCS11Config)
    (privateKeyLabel : Option Str) : Except PyExc TlsContextOptions := do
  let slotId ← runtime.parseInt pkcs11Cfg.slotId
  .ok (.mtlsPkcs11 pkcs11Cfg.pkcs11Lib pkcs11Cfg.userPin slotId privateKeyLabel certPem)

def fetchIotCredentialsPkcs11 (endpoint roleAlias thingName : Str) (certPem : List UInt8)
    (pkcs11Cfg : PKCS11Config) (privateKeyLabel : Option Str) : Refresh :=
  match buildTlsContextPkcs11 runtime certPem pkcs11Cfg privateKeyLabel with
  | .error e => { requests := [], result := .error e }
  | .ok tlsCtxOpt => fetchIotCredentialsViaAwscrt runtime endpoint roleAlias thingName tlsCtxOpt

/-! ## Creating sessions -/

def createBoto3Session (region : Str) (refreshFunc : Unit → Refresh) : Session :=
  { region, method := "custom-iot-core-credential-provider".toList, refreshUsing := refreshFunc }

/-- `_get_session`: a session that uses a plain private key. -/
def getSessionPlain (config : IoTSessionConfig) : Session :=
  createBoto3Session config.region (fun _ =>
    fetchIotCredentials runtime config.awsCredentialProviderEndpoint config.awsRoleAlias
      config.thingName config.certificatePath config.privateKeyPath)

def getSessionPkcs11 (config : IoTSessionConfig) : Except PyExc Session :=
  match config.pkcs11Config with
  | none => .error (.assertionError
      "privkey is provided by pkcs11, but pkcs11_config is not available".toList)
  | some pkcs11Cfg => do
    let certPem ← loadCertificate runtime fs config.certificatePath config.pkcs11Config
    let parsedKeyUri ← parsePkcs11Uri config.privateKeyPath
    .ok (createBoto3Session config.region (fun _ =>
      fetchIotCredentialsPkcs11 runtime config.awsCredentialProviderEndpoint config.awsRoleAlias
        config.thingName certPem pkcs11Cfg (dictGet? id parsedKeyUri "object".toList)))

def getSession (config : IoTSessionConfig) : Except PyExc Session :=
  if isPkcs11 config.privateKeyPath then getSessionPkcs11 runtime fs config
  else .ok (getSessionPlain runtime config)

/-- Only a session with a PKCS#11 key reads a certificate file when it is made. -/
theorem getSession_same {fs' : FileSystem} {config : IoTSessionConfig}
    (h : isPkcs11 config.privateKeyPath = true → isPkcs11 config.certificatePath = false →
      getSessionPkcs11 runtime fs' config = getSessionPkcs11 runtime fs config) :
    getSession runtime fs' config = getSession runtime fs config := by
  unfold getSession
  by_cases hkey : isPkcs11 config.privateKeyPath = true
  · rw [if_pos hkey, if_pos hkey]
    by_cases hcert : isPkcs11 config.certificatePath = true
    · -- the certificate is on the token as well
      simp only [getSessionPkcs11, loadCertificate, if_pos hcert]
    · exact h hkey (Bool.eq_false_of_not_eq_true hcert)
  · rw [if_neg hkey, if_neg hkey]

/-! ## What a refused request raises -/

theorem parseCredentialsResponse_utf8 {status : ℤ} (hstatus : status ≠ 200) (text url : Str) :
    parseCredentialsResponse runtime status (Utf8.encode text) url =
      .error (credentialError status) := by
  rw [parseCredentialsResponse, if_pos hstatus, decodeUtf8_encode]
  rfl

theorem utf8_of_parseCredentialsResponse {status : ℤ} (hstatus : status ≠ 200)
    {body : List UInt8} {url : Str}
    (h : parseCredentialsResponse runtime status body url = .error (credentialError status)) :
    ∃ text, body = Utf8.encode text := by
  by_contra hnot
  obtain ⟨start, stop, reason, hdecode⟩ := decodeUtf8_of_not_utf8 hnot
  rw [parseCredentialsResponse, if_pos hstatus, hdecode] at h
  cases h

/-- **A refusal hides its body exactly as far as bodies are UTF-8.** Two refused requests raise the
    one error of their status, whatever their bodies, iff both bodies decode: the body is decoded
    for the log before the error is raised. -/
theorem parseCredentialsResponse_hidesBody_iff {status : ℤ} (hstatus : status ≠ 200) (url : Str)
    (body body' : List UInt8) :
    (parseCredentialsResponse runtime status body url = .error (credentialError status) ∧
      parseCredentialsResponse runtime status body' url = .error (credentialError status)) ↔
    (∃ text, body = Utf8.encode text) ∧ ∃ text', body' = Utf8.encode text' := by
  constructor
  · intro h
    exact ⟨utf8_of_parseCredentialsResponse runtime hstatus h.1,
      utf8_of_parseCredentialsResponse runtime hstatus h.2⟩
  · intro h
    obtain ⟨⟨text, rfl⟩, ⟨text', rfl⟩⟩ := h
    exact ⟨parseCredentialsResponse_utf8 runtime hstatus text url,
      parseCredentialsResponse_utf8 runtime hstatus text' url⟩

/-- A runtime whose provider refuses every request. -/
def refusingRuntime : SessionRuntime where
  exchange _ := .ok [.response 403, .body (Utf8.encode "forbidden".toList)]
  jsonLoads _ := .error (.valueError [] none)
  parseInt _ := .error (.valueError [] none)
  checkOutput _ := .error (.other 0)
  derCertToPemCert _ := []

theorem hidesBody_iff_example :
    (403 : ℤ) ≠ 200 ∧
    ((parseCredentialsResponse refusingRuntime 403 (Utf8.encode "no".toList) [] =
        .error (credentialError 403) ∧
      parseCredentialsResponse refusingRuntime 403 (Utf8.encode "never".toList) [] =
        .error (credentialError 403)) ↔
    (∃ text, Utf8.encode "no".toList = Utf8.encode text) ∧
      ∃ text', Utf8.encode "never".toList = Utf8.encode text') :=
  ⟨by decide, parseCredentialsResponse_hidesBody_iff refusingRuntime (by decide) [] _ _⟩

/-- The byte 255 comes back in the exception. -/
theorem not_parseCredentialsResponse_hidesBody :
    parseCredentialsResponse refusingRuntime 403 [0x6E, 0x6F] [] =
        .error (credentialError 403) ∧
      parseCredentialsResponse refusingRuntime 403 [0xFF] [] =
        .error (.unicodeDecodeError [0xFF] 0 1 "invalid start byte".toList) ∧
      PyExc.unicodeDecodeError [0xFF] 0 1 "invalid start byte".toList ≠ credentialError 403 := by
  refine ⟨rfl, rfl, ?_⟩
  intro h
  cases h

/-! ## Which URL is requested -/

/-- A character of a registered host name. -/
def regNameChar (c : Char) : Bool := c.isAlphanum || "-._~%!$&'()*+,;=".toList.contains c

theorem isHost_of_regName {host : Str} (h : ∀ c ∈ host, regNameChar c = true) :
    Uri.IsHost host := by
  intro c hc
  have hchar := h c hc
  refine ⟨?_, ?_, ?_⟩ <;> rintro rfl <;> exact absurd hchar (by decide)

theorem rdropWhile_slashes {host : Str} (h : ∀ c ∈ host, c ≠ '/') (k : ℕ) :
    (host ++ List.replicate k '/').rdropWhile (· == '/') = host := by
  induction k with
  | zero =>
      rw [List.replicate_zero, List.append_nil, List.rdropWhile_eq_self_iff]
      intro hne
      simpa using h _ (List.getLast_mem hne)
  | succ k ih =>
      rw [List.replicate_succ', ← List.append_assoc, List.rdropWhile_concat_pos _ _ _ (by rfl), ih]

theorem segment_of_wordOrDash {s : Str} (h : ∀ c ∈ s, wordOrDash c = true) : Uri.Segment s := by
  constructor
  · intro c hc
    have hchar := h c hc
    refine ⟨?_, ?_, ?_⟩ <;> rintro rfl <;> exact absurd hchar (by decide)
  · intro heq
    exact absurd (h '.' (by simp [heq])) (by decide)
  · intro heq
    exact absurd (h '.' (by simp [heq])) (by decide)

theorem awsRoleAlias_segment {config : IoTSessionConfig}
    (h : ∀ c ∈ config.profile, wordOrDash c = true) : Uri.Segment config.awsRoleAlias := by
  apply segment_of_wordOrDash
  intro c hc
  rcases List.mem_append.1 hc with hc | hc
  · exact h c hc
  · exact List.all_eq_true.1 rfl c hc

theorem awsCredentialRefreshUrl_eq {config : IoTSessionConfig} {host : Str} {k : ℕ}
    (hhost : ∀ c ∈ host, regNameChar c = true)
    (hendpoint : config.awsCredentialProviderEndpoint = host ++ List.replicate k '/')
    (hprofile : ∀ c ∈ config.profile, wordOrDash c = true) :
    config.awsCredentialRefreshUrl =
      "https://".toList ++ host ++ credentialsPath config.awsRoleAlias := by
  have hfirst : Uri.Segment "role-aliases".toList := segment_of_wordOrDash (List.all_eq_true.1 rfl)
  have hlast : Uri.Segment "credentials".toList := segment_of_wordOrDash (List.all_eq_true.1 rfl)
  have hsegments : ∀ s ∈ ["role-aliases".toList, config.awsRoleAlias, "credentials".toList],
      Uri.Segment s := by
    simp only [List.forall_mem_cons]
    exact ⟨hfirst, awsRoleAlias_segment hprofile, hlast, by simp⟩
  have hjoin := @Uri.join_root "https".toList host "role-aliases".toList
    [config.awsRoleAlias, "credentials".toList] ⟨by decide, rfl⟩ (isHost_of_regName hhost)
    (by decide) (by decide) hsegments
  have hstrip := rdropWhile_slashes (fun c hc => (isHost_of_regName hhost c hc).1) k
  have hbase : "https://".toList ++ host ++ "/".toList =
      "https".toList ++ ':' :: '/' :: '/' :: host ++ ['/'] := by
    simp
  have hpath : "role-aliases/".toList ++ config.awsRoleAlias ++ "/credentials".toList =
      "role-aliases".toList ++ Uri.absolute [config.awsRoleAlias, "credentials".toList] := by
    simp [Uri.absolute]
  have hurl (path : Str) : "https".toList ++ ':' :: '/' :: '/' :: host ++ '/' :: path =
      "https://".toList ++ host ++ '/' :: path := by
    simp
  rw [IoTSessionConfig.awsCredentialRefreshUrl, hendpoint, hstrip, hbase, hpath, hjoin, hurl,
    ← hpath]
  rfl

/-- **The published URL is the one requested iff the endpoint has no final slash.** The published
    one drops the slashes after the host, the request keeps them in its host. -/
theorem getSessionPlain_url_iff {config : IoTSessionConfig} {host : Str} {k : ℕ}
    (hhost : ∀ c ∈ host, regNameChar c = true)
    (hendpoint : config.awsCredentialProviderEndpoint = host ++ List.replicate k '/')
    (hchars : ∀ c ∈ config.profile, wordOrDash c = true) :
    ((getSessionPlain runtime config).refreshUsing ()).requests.map HttpsRequest.url =
      [config.awsCredentialRefreshUrl] ↔ k = 0 := by
  have hrequested : ((getSessionPlain runtime config).refreshUsing ()).requests.map
      HttpsRequest.url = ["https://".toList ++ config.awsCredentialProviderEndpoint ++
        credentialsPath config.awsRoleAlias] := rfl
  rw [hrequested, awsCredentialRefreshUrl_eq hhost hendpoint hchars, hendpoint,
    List.singleton_inj, List.append_left_inj, List.append_right_inj]
  simp

/-- A configuration with this credential endpoint. -/
def endpointConfig (endpoint : Str) : IoTSessionConfig where
  accountId := "012345678901".toList
  caPath := "/ca.pem".toList
  privateKeyPath := "/key.pem".toList
  certificatePath := "/cert.pem".toList
  thingName := "thing-edge-ecu-Core".toList
  profile := "thing".toList
  region := "region".toList
  awsCredentialProviderEndpoint := endpoint

theorem getSessionPlain_url_iff_example :
    ((getSessionPlain refusingRuntime (endpointConfig "a.b".toList)).refreshUsing ()).requests.map
      HttpsRequest.url = [(endpointConfig "a.b".toList).awsCredentialRefreshUrl] ↔ 0 = 0 :=
  @getSessionPlain_url_iff refusingRuntime (endpointConfig "a.b".toList) "a.b".toList 0
    (List.all_eq_true.1 rfl) rfl (List.all_eq_true.1 rfl)

/-- The request goes to the host `a.b/`, the published URL has no second slash. -/
theorem not_getSessionPlain_url :
    ((getSessionPlain refusingRuntime (endpointConfig "a.b/".toList)).refreshUsing ()).requests.map
        HttpsRequest.url ≠ [(endpointConfig "a.b/".toList).awsCredentialRefreshUrl] := by
  decide

end IotLoggingServer
