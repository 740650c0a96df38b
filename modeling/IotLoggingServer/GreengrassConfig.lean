import IotLoggingServer.Configs
import IotLoggingServer.Lib.Split
import IotLoggingServer.NestedDict
import IotLoggingServer.SessionConfig
import IotLoggingServer.ThingName

set_option autoImplicit false

/-! # Parsing the Greengrass configs (`greengrass_config.py`)

A v1 config names its thing by an ARN, a v2 config by the bare name. Both lead to the same session
configuration, up to the defects this file states exactly: where the two parsers agree on one device
(`parseConfigs_agree_iff`), and which ARN forms are taken apart as documented
(`thingArn_parsedAs_iff`). -/

namespace IotLoggingServer

/-! ## `_ThingArn` -/

structure ThingArn where
  arn : Str
  partition : Str
  service : Str
  region : Str
  accountId : Str
  resourceId : Str
  deriving DecidableEq, Repr

/-- `_ThingArn(*pieces)`: a named tuple takes exactly its fields. -/
def ThingArn.ofPieces : List Str → Except PyExc ThingArn
  | [arn, partition, service, region, accountId, resourceId] =>
    .ok ⟨arn, partition, service, region, accountId, resourceId⟩
  | _ => .error .typeError

/-- `_ThingArn(*raw.split(":", 6))` -/
def ThingArn.parse (rawThingArn : Str) : Except PyExc ThingArn :=
  ThingArn.ofPieces (splitMax ':' 6 rawThingArn)

def ThingArn.profile (self : ThingArn) : Except PyExc Str :=
  getProfileFromThingName self.resourceId

def ThingArn.thingName (self : ThingArn) : Str := removePrefix "thing/".toList self.resourceId

/-! ## The parsers -/

def regulatePath : Value → Except PyExc Str
  | .str s => .ok (removePrefix "file://".toList s)
  | _ => .error .attributeError

/-- `parse_v1_config`, given what `json.loads` does and the loaded AWS profiles. -/
def parseV1Config (jsonLoads : Str → Except PyExc Value) (profileInfo : AWSProfileInfo)
    (rawCfg : Str) : Except PyExc IoTSessionConfig := do
  let loadedCfg ← jsonLoads rawCfg
  let .dict _ := loadedCfg | .error (.assertionError ("invalid cfg: ".toList ++ rawCfg))
  let .str rawThingArn ← chainQuery loadedCfg ["coreThing".toList, "thingArn".toList]
    | .error .attributeError
  let thingArn ← ThingArn.parse rawThingArn
  let thisProfileInfo ← profileInfo.getProfileInfo (← thingArn.profile)
  let caPath ← regulatePath (← chainQuery loadedCfg ["crypto".toList, "caPath".toList])
  let privateKeyPath ← regulatePath (← chainQuery loadedCfg ["crypto".toList,
    "principals".toList, "IoTCertificate".toList, "privateKeyPath".toList])
  let certificatePath ← regulatePath (← chainQuery loadedCfg ["crypto".toList,
    "principals".toList, "IoTCertificate".toList, "certificatePath".toList])
  .ok {
    accountId := thingArn.accountId
    caPath
    privateKeyPath
    certificatePath
    thingName := thingArn.thingName
    profile := thisProfileInfo.profileName
    region := thingArn.region
    awsCredentialProviderEndpoint := thisProfileInfo.credentialEndpoint }

/-- `str(value)` of a `slot`; `pyStr` is `str()` of a value that is no string. -/
def slotStr (pyStr : Value → Str) : Value → Str
  | .str s => s
  | v => pyStr v

/-- The PKCS#11 section, if there is one and it is not empty. -/
def parsePkcs11Config (pyStr : Value → Str) (rawPkcs11Cfg : Value) :
    Except PyExc (Option PKCS11Config) :=
  if rawPkcs11Cfg.truthy then do
    let pkcs11Lib ← rawPkcs11Cfg.getItem "library".toList
    let userPin ← rawPkcs11Cfg.getItem "userPin".toList
    let slot ← rawPkcs11Cfg.getItem "slot".toList
    .ok (some {
      pkcs11Lib := ← pkcs11Lib.asStr "pkcs11_lib"
      slotId := slotStr pyStr slot
      userPin := ← userPin.asStr "user_pin" })
  else .ok none

/-- `get_profile_from_thing_name` of a loaded value: only a string has a length and can match. -/
def getProfileFromValue : Value → Except PyExc Str
  | .str s => getProfileFromThingName s
  | _ => .error .typeError

/-- `parse_v2_config`, given what `yaml.safe_load` does and the loaded AWS profiles. -/
def parseV2Config (yamlSafeLoad : Str → Except PyExc Value) (pyStr : Value → Str)
    (profileInfo : AWSProfileInfo) (rawCfg : Str) : Except PyExc IoTSessionConfig := do
  let loadedCfg ← yamlSafeLoad rawCfg
  let .dict _ := loadedCfg | .error (.assertionError ("invalid cfg: ".toList ++ rawCfg))
  let thingName ← chainQuery loadedCfg ["system".toList, "thingName".toList]
  let thisProfileInfo ← profileInfo.getProfileInfo (← getProfileFromValue thingName)
  let iotCredEndpoint := chainQueryD loadedCfg ["services".toList, "aws.greengrass.Nucleus".toList,
    "configuration".toList, "iotCredEndpoint".toList] .null
  -- the endpoint of the config goes before the one of the profile
  let credEndpoint :=
    if iotCredEndpoint.truthy then iotCredEndpoint else .str thisProfileInfo.credentialEndpoint
  let pkcs11Config ← parsePkcs11Config pyStr (chainQueryD loadedCfg ["services".toList,
    "aws.greengrass.crypto.Pkcs11Provider".toList, "configuration".toList] .null)
  let caPath ← chainQuery loadedCfg ["system".toList, "rootCaPath".toList]
  let privateKeyPath ← chainQuery loadedCfg ["system".toList, "privateKeyPath".toList]
  let certificatePath ← chainQuery loadedCfg ["system".toList, "certificateFilePath".toList]
  let region ← chainQuery loadedCfg ["services".toList, "aws.greengrass.Nucleus".toList,
    "configuration".toList, "awsRegion".toList]
  .ok {
    accountId := thisProfileInfo.accountId
    caPath := ← caPath.asStr "ca_path"
    privateKeyPath := ← privateKeyPath.asStr "private_key_path"
    certificatePath := ← certificatePath.asStr "certificate_path"
    thingName := ← thingName.asStr "thing_name"
    profile := thisProfileInfo.profileName
    region := ← region.asStr "region"
    awsCredentialProviderEndpoint := ← credEndpoint.asStr "aws_credential_provider_endpoint"
    pkcs11Config }

/-! ## Taking ARNs apart -/

theorem ThingArn.ofPieces_of_length_ne {pieces : List Str} (h : pieces.length ≠ 6) :
    ThingArn.ofPieces pieces = .error .typeError := by
  unfold ThingArn.ofPieces
  split
  · simp at h
  · rfl

/-- The split makes one piece too many as soon as there is a sixth colon. -/
theorem ThingArn.parse_of_count_ne {s : Str} (h : s.count ':' ≠ 5) :
    ThingArn.parse s = .error .typeError := by
  refine ThingArn.ofPieces_of_length_ne ?_
  rw [splitMax_length]
  omega

/-- An ARN with its resource part. -/
def arnString (partition service region account resource : Str) : Str :=
  "arn".toList ++ ':' :: (partition ++ ':' :: (service ++ ':' :: (region ++ ':' ::
    (account ++ ':' :: resource))))

theorem arnString_count (partition service region account resource : Str) :
    (arnString partition service region account resource).count ':'
      = partition.count ':' + service.count ':' + region.count ':' + account.count ':' +
        resource.count ':' + 5 := by
  have harn : ("arn".toList).count ':' = 0 := by decide
  simp only [arnString, List.count_append, List.count_cons_self, harn]
  omega

theorem ThingArn.parse_arnString {partition service region account resource : Str}
    (hpartition : ':' ∉ partition) (hservice : ':' ∉ service) (hregion : ':' ∉ region)
    (haccount : ':' ∉ account) (hresource : ':' ∉ resource) :
    ThingArn.parse (arnString partition service region account resource)
      = .ok ⟨"arn".toList, partition, service, region, account, resource⟩ := by
  have harn : ':' ∉ "arn".toList := by decide
  rw [ThingArn.parse, arnString, splitMax_append harn, splitMax_append hpartition,
    splitMax_append hservice, splitMax_append hregion, splitMax_append haccount,
    splitMax_of_not_mem hresource]
  rfl

/-! ## The two parsers on one device -/

/-- A loaded v1 config with these entries. -/
structure V1Entries (loadedCfg : Value) (thingArn caPath privateKeyPath certificatePath : Str) :
    Prop where
  isDict : ∃ entries, loadedCfg = .dict entries
  thingArn : chainQuery loadedCfg ["coreThing".toList, "thingArn".toList] = .ok (.str thingArn)
  caPath : chainQuery loadedCfg ["crypto".toList, "caPath".toList] = .ok (.str caPath)
  privateKeyPath : chainQuery loadedCfg ["crypto".toList, "principals".toList,
    "IoTCertificate".toList, "privateKeyPath".toList] = .ok (.str privateKeyPath)
  certificatePath : chainQuery loadedCfg ["crypto".toList, "principals".toList,
    "IoTCertificate".toList, "certificatePath".toList] = .ok (.str certificatePath)

/-- A loaded v2 config with these entries, and neither an endpoint nor a PKCS#11 section. -/
structure V2Entries (loadedCfg : Value)
    (thingName region caPath privateKeyPath certificatePath : Str) : Prop where
  isDict : ∃ entries, loadedCfg = .dict entries
  thingName : chainQuery loadedCfg ["system".toList, "thingName".toList] = .ok (.str thingName)
  caPath : chainQuery loadedCfg ["system".toList, "rootCaPath".toList] = .ok (.str caPath)
  privateKeyPath : chainQuery loadedCfg ["system".toList, "privateKeyPath".toList]
    = .ok (.str privateKeyPath)
  certificatePath : chainQuery loadedCfg ["system".toList, "certificateFilePath".toList]
    = .ok (.str certificatePath)
  region : chainQuery loadedCfg ["services".toList, "aws.greengrass.Nucleus".toList,
    "configuration".toList, "awsRegion".toList] = .ok (.str region)
  noEndpoint : chainQueryD loadedCfg ["services".toList, "aws.greengrass.Nucleus".toList,
    "configuration".toList, "iotCredEndpoint".toList] .null = .null
  noPkcs11 : chainQueryD loadedCfg ["services".toList,
    "aws.greengrass.crypto.Pkcs11Provider".toList, "configuration".toList] .null = .null

/-- The session configuration of a thing. -/
def sessionConfig (account region thingName caPath privateKeyPath certificatePath : Str)
    (profile : AWSProfile) : IoTSessionConfig where
  accountId := account
  caPath := caPath
  privateKeyPath := privateKeyPath
  certificatePath := certificatePath
  thingName := thingName
  profile := profile.profileName
  region := region
  awsCredentialProviderEndpoint := profile.credentialEndpoint

section Agree

variable {jsonLoads yamlSafeLoad : Str → Except PyExc Value} {pyStr : Value → Str}
  {profileInfo : AWSProfileInfo} {rawV1 rawV2 : Str} {loadedV1 loadedV2 : Value}
  {thingName region account caPath privateKeyPath certificatePath : Str}

theorem parseV2Config_eq (hload : yamlSafeLoad rawV2 = .ok loadedV2)
    (hcfg : V2Entries loadedV2 thingName region caPath privateKeyPath certificatePath) :
    parseV2Config yamlSafeLoad pyStr profileInfo rawV2
      = (do
          let profile ← profileInfo.getProfileInfo (← getProfileFromThingName thingName)
          .ok (sessionConfig profile.accountId region thingName caPath privateKeyPath
            certificatePath profile)) := by
  obtain ⟨⟨entries, rfl⟩, hname, hca, hkey, hcert, hregion, hend, hpkcs⟩ := hcfg
  simp only [parseV2Config, hload, hname, hca, hkey, hcert, hregion, hend, hpkcs, ok_bind,
    getProfileFromValue, parsePkcs11Config, Value.truthy, Value.asStr, if_neg Bool.false_ne_true]
  rfl

theorem parseV1Config_eq (hload : jsonLoads rawV1 = .ok loadedV1) {arn : Str}
    (hcfg : V1Entries loadedV1 arn caPath privateKeyPath certificatePath)
    (hca : ¬ "file://".toList <+: caPath) (hkey : ¬ "file://".toList <+: privateKeyPath)
    (hcert : ¬ "file://".toList <+: certificatePath) :
    parseV1Config jsonLoads profileInfo rawV1
      = (do
          let thingArn ← ThingArn.parse arn
          let profile ← profileInfo.getProfileInfo (← thingArn.profile)
          .ok (sessionConfig thingArn.accountId thingArn.region thingArn.thingName caPath
            privateKeyPath certificatePath profile)) := by
  obtain ⟨⟨entries, rfl⟩, harn, hca', hkey', hcert'⟩ := hcfg
  simp only [parseV1Config, hload, harn, hca', hkey', hcert', ok_bind, regulatePath,
    removePrefix_of_not_prefix hca, removePrefix_of_not_prefix hkey,
    removePrefix_of_not_prefix hcert]
  rfl

/-- The listed profile a thing name belongs to by its scheme, whatever the name's length. -/
def listedProfile (profileInfo : AWSProfileInfo) (thingName : Str) : Option AWSProfile :=
  (thingnameProfile thingName).bind (fun profile => (profileInfo.getProfileInfo profile).toOption)

/-- Both raise, or both return the same. -/
def Agree (a b : Except PyExc IoTSessionConfig) : Prop :=
  (∃ e e', a = .error e ∧ b = .error e') ∨ ∃ cfg, a = .ok cfg ∧ b = .ok cfg

theorem thingnameProfile_thing_eq (hchars : ∀ c ∈ thingName, wordOrDash c = true) :
    thingnameProfile ("thing/".toList ++ thingName) = thingnameProfile thingName := by
  have hslash : '/' ∉ thingName := fun h => absurd (hchars _ h) (by decide)
  have hcolon : ':' ∉ thingName := fun h => absurd (hchars _ h) (by decide)
  rw [thingnameProfile_thing, thingnameProfile_of_bare hslash hcolon]

/-- Looking up the profile of a resource id `s` whose name part is `thingName`. -/
theorem getProfile_bind_ok {s : Str} (hs : thingnameProfile s = thingnameProfile thingName)
    {profile : AWSProfile} (hlisted : listedProfile profileInfo thingName = some profile)
    (hlen : s.length ≤ thingnameMaxlengh) (f : AWSProfile → Except PyExc IoTSessionConfig) :
    (do let profile ← profileInfo.getProfileInfo (← getProfileFromThingName s); f profile)
      = f profile := by
  obtain ⟨name, hname, hprofile⟩ := Option.bind_eq_some_iff.1 hlisted
  rw [getProfileFromThingName, if_pos hlen, hs, hname]
  cases hget : profileInfo.getProfileInfo name with
  | ok profile' =>
      rw [hget] at hprofile
      cases hprofile
      simp [hget]
  | error e =>
      rw [hget] at hprofile
      cases hprofile

theorem getProfile_bind_error {s : Str} (hs : thingnameProfile s = thingnameProfile thingName)
    (h : listedProfile profileInfo thingName = none ∨ thingnameMaxlengh < s.length)
    (f : AWSProfile → Except PyExc IoTSessionConfig) :
    ∃ e, (do let profile ← profileInfo.getProfileInfo (← getProfileFromThingName s); f profile)
      = .error e := by
  by_cases hlen : s.length ≤ thingnameMaxlengh
  · have hnone := h.resolve_right (not_lt.2 hlen)
    rw [getProfileFromThingName, if_pos hlen, hs]
    cases hname : thingnameProfile thingName with
    | none => exact ⟨_, rfl⟩
    | some name =>
        rw [listedProfile, hname, Option.bind_some] at hnone
        cases hget : profileInfo.getProfileInfo name with
        | ok profile =>
            rw [hget] at hnone
            cases hnone
        | error e => exact ⟨e, by simp [hget]⟩
  · rw [getProfileFromThingName, if_neg hlen]
    exact ⟨_, rfl⟩

theorem parseV2Config_ok (hload : yamlSafeLoad rawV2 = .ok loadedV2)
    (hcfg : V2Entries loadedV2 thingName region caPath privateKeyPath certificatePath)
    {profile : AWSProfile} (hlisted : listedProfile profileInfo thingName = some profile)
    (hlen : thingName.length ≤ 134) :
    parseV2Config yamlSafeLoad pyStr profileInfo rawV2
      = .ok (sessionConfig profile.accountId region thingName caPath privateKeyPath certificatePath
          profile) := by
  rw [parseV2Config_eq hload hcfg]
  exact getProfile_bind_ok rfl hlisted hlen _

theorem parseV2Config_error (hload : yamlSafeLoad rawV2 = .ok loadedV2)
    (hcfg : V2Entries loadedV2 thingName region caPath privateKeyPath certificatePath)
    (h : listedProfile profileInfo thingName = none ∨ 134 < thingName.length) :
    ∃ e, parseV2Config yamlSafeLoad pyStr profileInfo rawV2 = .error e := by
  rw [parseV2Config_eq hload hcfg]
  exact getProfile_bind_error rfl h _

theorem thing_length (thingName : Str) :
    ("thing/".toList ++ thingName).length = 6 + thingName.length := by
  rw [List.length_append]
  rfl

theorem colon_not_mem_thing (hchars : ∀ c ∈ thingName, wordOrDash c = true) :
    ':' ∉ "thing/".toList ++ thingName := fun h => by
  rcases List.mem_append.1 h with h | h
  · exact absurd h (by decide)
  · exact absurd (hchars _ h) (by decide)

theorem parseV1Config_ok (hload : jsonLoads rawV1 = .ok loadedV1)
    (hcfg : V1Entries loadedV1 (arnString "aws".toList "iot".toList region account
      ("thing/".toList ++ thingName)) caPath privateKeyPath certificatePath)
    (hchars : ∀ c ∈ thingName, wordOrDash c = true)
    (hca : ¬ "file://".toList <+: caPath) (hkey : ¬ "file://".toList <+: privateKeyPath)
    (hcert : ¬ "file://".toList <+: certificatePath)
    {profile : AWSProfile} (hlisted : listedProfile profileInfo thingName = some profile)
    (haccount : account = profile.accountId) (hlen : thingName.length ≤ 128)
    (hregion : ':' ∉ region) :
    parseV1Config jsonLoads profileInfo rawV1
      = .ok (sessionConfig account region thingName caPath privateKeyPath certificatePath
          profile) := by
  have hcolon : ':' ∉ account := haccount ▸ profile.colon_not_mem
  have hmax : ("thing/".toList ++ thingName).length ≤ thingnameMaxlengh := by
    rw [thing_length, thingnameMaxlengh]
    omega
  rw [parseV1Config_eq hload hcfg hca hkey hcert, ThingArn.parse_arnString (by decide) (by decide)
    hregion hcolon (colon_not_mem_thing hchars), ok_bind]
  simp only [ThingArn.profile, ThingArn.thingName, removePrefix_append]
  exact getProfile_bind_ok (thingnameProfile_thing_eq hchars) hlisted hmax _

theorem parseV1Config_error (hload : jsonLoads rawV1 = .ok loadedV1)
    (hcfg : V1Entries loadedV1 (arnString "aws".toList "iot".toList region account
      ("thing/".toList ++ thingName)) caPath privateKeyPath certificatePath)
    (hchars : ∀ c ∈ thingName, wordOrDash c = true)
    (hca : ¬ "file://".toList <+: caPath) (hkey : ¬ "file://".toList <+: privateKeyPath)
    (hcert : ¬ "file://".toList <+: certificatePath)
    (h : listedProfile profileInfo thingName = none ∨ 128 < thingName.length ∨ ':' ∈ region) :
    ∃ e, parseV1Config jsonLoads profileInfo rawV1 = .error e := by
  rw [parseV1Config_eq hload hcfg hca hkey hcert]
  by_cases hcolon : ':' ∈ region ∨ ':' ∈ account
  · -- a colon in the region or the account makes one piece too many
    have hcount : (arnString "aws".toList "iot".toList region account
        ("thing/".toList ++ thingName)).count ':' ≠ 5 := by
      have hpos : 0 < region.count ':' ∨ 0 < account.count ':' :=
        hcolon.imp List.count_pos_iff.2 List.count_pos_iff.2
      rw [arnString_count]
      omega
    exact ⟨_, by rw [ThingArn.parse_of_count_ne hcount, error_bind]⟩
  · rw [not_or] at hcolon
    have hlong : listedProfile profileInfo thingName = none ∨
        thingnameMaxlengh < ("thing/".toList ++ thingName).length := by
      rw [thing_length, thingnameMaxlengh]
      rcases h with h | h | h
      · exact Or.inl h
      · exact Or.inr (by omega)
      · exact absurd h hcolon.1
    rw [ThingArn.parse_arnString (by decide) (by decide) hcolon.1 hcolon.2
      (colon_not_mem_thing hchars), ok_bind]
    exact getProfile_bind_error (thingnameProfile_thing_eq hchars) hlong _

/-- **The two parsers agree on a device** exactly when its thing name is within the limit for thing
    names and its region has no colon, or the v2 parser raises too: the name is longer than even a
    prefixed name may be, or no listed profile belongs to it. -/
theorem parseConfigs_agree_iff (hload₁ : jsonLoads rawV1 = .ok loadedV1)
    (hload₂ : yamlSafeLoad rawV2 = .ok loadedV2)
    (hchars : ∀ c ∈ thingName, wordOrDash c = true)
    (haccount : ∀ profile, listedProfile profileInfo thingName = some profile →
      account = profile.accountId)
    (hca : ¬ "file://".toList <+: caPath) (hkey : ¬ "file://".toList <+: privateKeyPath)
    (hcert : ¬ "file://".toList <+: certificatePath)
    (hv1 : V1Entries loadedV1 (arnString "aws".toList "iot".toList region account
      ("thing/".toList ++ thingName)) caPath privateKeyPath certificatePath)
    (hv2 : V2Entries loadedV2 thingName region caPath privateKeyPath certificatePath) :
    Agree (parseV1Config jsonLoads profileInfo rawV1)
        (parseV2Config yamlSafeLoad pyStr profileInfo rawV2) ↔
      (thingName.length ≤ 128 ∧ ':' ∉ region) ∨ 134 < thingName.length ∨
        listedProfile profileInfo thingName = none := by
  by_cases hraises : 134 < thingName.length ∨ listedProfile profileInfo thingName = none
  · -- no session configuration on either side
    have h₁ : listedProfile profileInfo thingName = none ∨ 128 < thingName.length ∨ ':' ∈ region :=
      hraises.elim (fun h => Or.inr (Or.inl (by omega))) Or.inl
    obtain ⟨e₁, he₁⟩ := parseV1Config_error hload₁ hv1 hchars hca hkey hcert h₁
    obtain ⟨e₂, he₂⟩ : ∃ e, parseV2Config yamlSafeLoad pyStr profileInfo rawV2 = .error e :=
      parseV2Config_error hload₂ hv2 hraises.symm
    rw [he₁, he₂]
    exact iff_of_true (Or.inl ⟨e₁, e₂, rfl, rfl⟩) (Or.inr hraises)
  · have hiff : ((thingName.length ≤ 128 ∧ ':' ∉ region) ∨ 134 < thingName.length ∨
        listedProfile profileInfo thingName = none) ↔ thingName.length ≤ 128 ∧ ':' ∉ region :=
      or_iff_left hraises
    rw [not_or, not_lt] at hraises
    obtain ⟨profile, hlisted⟩ := Option.ne_none_iff_exists'.1 hraises.2
    rw [hiff, parseV2Config_ok hload₂ hv2 hlisted hraises.1]
    by_cases hshort : thingName.length ≤ 128 ∧ ':' ∉ region
    · rw [parseV1Config_ok hload₁ hv1 hchars hca hkey hcert hlisted (haccount _ hlisted) hshort.1
        hshort.2, haccount _ hlisted]
      exact iff_of_true (Or.inr ⟨_, rfl, rfl⟩) hshort
    · have hbad : 128 < thingName.length ∨ ':' ∈ region := by
        by_contra hnot
        rw [not_or, not_lt] at hnot
        exact hshort hnot
      obtain ⟨e₁, he₁⟩ : ∃ e, parseV1Config jsonLoads profileInfo rawV1 = .error e :=
        parseV1Config_error hload₁ hv1 hchars hca hkey hcert (Or.inr hbad)
      rw [he₁]
      exact iff_of_false (by simp [Agree]) hshort

end Agree

/-- A loaded v1 config with nothing but the entries the parser reads. -/
def exampleV1 (thingArn caPath privateKeyPath certificatePath : Str) : Value :=
  .dict [("coreThing".toList, .dict [("thingArn".toList, .str thingArn)]),
    ("crypto".toList, .dict [("caPath".toList, .str caPath),
      ("principals".toList, .dict [("IoTCertificate".toList, .dict [
        ("privateKeyPath".toList, .str privateKeyPath),
        ("certificatePath".toList, .str certificatePath)])])])]

theorem exampleV1_entries (thingArn caPath privateKeyPath certificatePath : Str) :
    V1Entries (exampleV1 thingArn caPath privateKeyPath certificatePath) thingArn caPath
      privateKeyPath certificatePath :=
  ⟨⟨_, rfl⟩, rfl, rfl, rfl, rfl⟩

/-- A loaded v2 config with nothing but the entries the parser reads. -/
def exampleV2 (thingName region caPath privateKeyPath certificatePath : Str) : Value :=
  .dict [("system".toList, .dict [("thingName".toList, .str thingName),
      ("rootCaPath".toList, .str caPath), ("privateKeyPath".toList, .str privateKeyPath),
      ("certificateFilePath".toList, .str certificatePath)]),
    ("services".toList, .dict [("aws.greengrass.Nucleus".toList, .dict [
      ("configuration".toList, .dict [("awsRegion".toList, .str region)])])])]

theorem exampleV2_entries (thingName region caPath privateKeyPath certificatePath : Str) :
    V2Entries (exampleV2 thingName region caPath privateKeyPath certificatePath) thingName region
      caPath privateKeyPath certificatePath :=
  ⟨⟨_, rfl⟩, rfl, rfl, rfl, rfl, rfl, rfl, rfl⟩

def exampleProfile (profileName : Str) : AWSProfile :=
  ⟨profileName, "012345678901".toList, "cred.iot.region.amazonaws.com".toList, rfl,
    List.all_eq_true.1 rfl⟩

theorem parseConfigs_agree_iff_example :
    Agree
      (parseV1Config (fun _ => .ok (exampleV1 (arnString "aws".toList "iot".toList "region".toList
        "012345678901".toList ("thing/".toList ++ "dev-edge-ecu-Core".toList)) [] [] []))
        [exampleProfile "dev".toList] [])
      (parseV2Config (fun _ => .ok (exampleV2 "dev-edge-ecu-Core".toList "region".toList [] [] []))
        (fun _ => []) [exampleProfile "dev".toList] []) := by
  have hlisted : listedProfile [exampleProfile "dev".toList] "dev-edge-ecu-Core".toList
      = some (exampleProfile "dev".toList) := rfl
  refine (parseConfigs_agree_iff rfl rfl (List.all_eq_true.1 rfl) (fun profile h => ?_)
    (by decide) (by decide) (by decide) (exampleV1_entries _ _ _ _)
    (exampleV2_entries _ _ _ _ _)).2 (Or.inl ⟨by decide, by decide⟩)
  rw [hlisted] at h
  cases h
  rfl

/-- A thing name of 129 characters. -/
def longThingName : Str := List.replicate 115 'x' ++ "-edge-ecu-Core".toList

set_option maxRecDepth 4000 in
/-- A name just over the limit is refused behind its prefix and accepted without. -/
theorem not_parseConfigs_agree :
    ¬ ∀ (jsonLoads yamlSafeLoad : Str → Except PyExc Value) (pyStr : Value → Str)
        (profileInfo : AWSProfileInfo) (rawV1 rawV2 : Str) (loadedV1 loadedV2 : Value)
        (thingName region account caPath privateKeyPath certificatePath : Str),
      jsonLoads rawV1 = .ok loadedV1 → yamlSafeLoad rawV2 = .ok loadedV2 →
      thingName ≠ [] → (∀ c ∈ thingName, wordOrDash c = true) →
      (∀ profile, listedProfile profileInfo thingName = some profile →
        account = profile.accountId) →
      ¬ "file://".toList <+: caPath → ¬ "file://".toList <+: privateKeyPath →
      ¬ "file://".toList <+: certificatePath →
      V1Entries loadedV1 (arnString "aws".toList "iot".toList region account
        ("thing/".toList ++ thingName)) caPath privateKeyPath certificatePath →
      V2Entries loadedV2 thingName region caPath privateKeyPath certificatePath →
      Agree (parseV1Config jsonLoads profileInfo rawV1)
        (parseV2Config yamlSafeLoad pyStr profileInfo rawV2) := by
  intro h
  have hlisted : listedProfile [exampleProfile (List.replicate 115 'x')] longThingName
      = some (exampleProfile (List.replicate 115 'x')) := rfl
  have hchars : ∀ c ∈ longThingName, wordOrDash c = true := List.all_eq_true.1 (by decide)
  have hv1 := exampleV1_entries (arnString "aws".toList "iot".toList "region".toList
    "012345678901".toList ("thing/".toList ++ longThingName)) [] [] []
  have hv2 := exampleV2_entries longThingName "region".toList [] [] []
  have hagree := h (fun _ => .ok (exampleV1 _ [] [] [])) (fun _ => .ok (exampleV2 _ _ [] [] []))
    (fun _ => []) _ [] [] _ _ longThingName _ _ _ _ _ rfl rfl (by decide) hchars
    (fun profile hprofile => by rw [hlisted] at hprofile; cases hprofile; rfl) (by decide)
    (by decide) (by decide) hv1 hv2
  rw [parseV2Config_ok rfl hv2 hlisted (by decide)] at hagree
  rcases hagree with ⟨_, _, _, hv2raises⟩ | ⟨cfg, hv1returns, _⟩
  · cases hv2raises
  · obtain ⟨e, he⟩ : ∃ e, parseV1Config (fun _ => .ok (exampleV1 (arnString "aws".toList
        "iot".toList "region".toList "012345678901".toList ("thing/".toList ++ longThingName))
        [] [] [])) [exampleProfile (List.replicate 115 'x')] [] = .error e :=
      parseV1Config_error rfl hv1 hchars (by decide) (by decide) (by decide)
        (Or.inr (Or.inl (by decide)))
    rw [he] at hv1returns
    cases hv1returns

/-! ## The documented ARN forms -/

/-- The forms of the last part of an ARN. -/
inductive ArnForm
  /-- `resource-id` -/
  | id
  /-- `resource-type/resource-id` -/
  | typeSlashId
  /-- `resource-type:resource-id` -/
  | typeColonId
  deriving DecidableEq, Repr

/-- The last part of the ARN of a thing. -/
def ArnForm.resource (name : Str) : ArnForm → Str
  | .id => name
  | .typeSlashId => "thing/".toList ++ name
  | .typeColonId => "thing:".toList ++ name

/-- The ARN is taken apart into these components, with the profile and the name of the thing. -/
def ThingArn.ParsedAs (rawThingArn region account resource name : Str) : Prop :=
  ∃ arn, ThingArn.parse rawThingArn = .ok arn ∧ arn.region = region ∧ arn.accountId = account ∧
    arn.resourceId = resource ∧
    (∃ profile, arn.profile = .ok profile ∧ getProfileFromThingName name = .ok profile) ∧
    arn.thingName = name

/-- A thing name of the scheme. -/
structure SchemeName (name : Str) : Prop where
  parts : ∃ profile id more, profile ≠ [] ∧ (∀ c ∈ profile, wordOrDash c = true) ∧
    id ≠ [] ∧ (∀ c ∈ id, wordOrDash c = true) ∧
    name = profile ++ "-edge-".toList ++ id ++ "-Core".toList ++ more
  chars : ∀ c ∈ name, wordOrDash c = true ∨ c = ':'
  length_le : name.length ≤ 128

/-- A name of the scheme has a profile. -/
theorem SchemeName.profile {name : Str} (h : SchemeName name) :
    (schemeProfile name).isSome := by
  obtain ⟨profile, id, more, hpne, hp, hine, hi, heq⟩ := h.parts
  have hdash : "-Core".toList = "-".toList ++ "Core".toList := rfl
  refine schemeProfile_isSome.2 ⟨profile, id, "Core".toList ++ more, [],
    ⟨hpne, hp, hine, hi, fun hn => ?_, Or.inl rfl⟩, ?_⟩
  · have hmem : '\n' ∈ name := by
      rcases List.mem_append.1 hn with hn | hn
      · exact absurd hn (by decide)
      · rw [heq]
        exact List.mem_append_right _ hn
    rcases h.chars '\n' hmem with hc | hc
    · exact absurd hc (by decide)
    · exact absurd hc (by decide)
  · rw [heq, hdash, schemeString]
    simp only [List.append_assoc, List.append_nil]

/-- The profile of a name of the scheme without a colon, with and without `thing/`. -/
theorem SchemeName.getProfile {name : Str} (h : SchemeName name)
    (hchars : ∀ c ∈ name, wordOrDash c = true) :
    ∃ profile, getProfileFromThingName name = .ok profile ∧
      getProfileFromThingName ("thing/".toList ++ name) = .ok profile := by
  have hslash : '/' ∉ name := fun hmem => absurd (hchars _ hmem) (by decide)
  have hcolon : ':' ∉ name := fun hmem => absurd (hchars _ hmem) (by decide)
  obtain ⟨profile, hprofile⟩ := Option.isSome_iff_exists.1 h.profile
  have hbare : thingnameProfile name = some profile := by
    rw [thingnameProfile_of_bare hslash hcolon, hprofile]
  have hlen : ("thing/".toList ++ name).length ≤ thingnameMaxlengh := by
    have hle : name.length ≤ 128 := h.length_le
    rw [thing_length, thingnameMaxlengh]
    omega
  refine ⟨profile, ?_, ?_⟩
  · have hbareLen : name.length ≤ thingnameMaxlengh := h.length_le.trans (by decide)
    rw [getProfileFromThingName, if_pos hbareLen, hbare]
  · rw [getProfileFromThingName, if_pos hlen, thingnameProfile_thing_eq hchars, hbare]

/-- A colon in the last part makes one piece too many. -/
theorem ThingArn.not_parsedAs_of_colon {partition service region account resource name : Str}
    (hmem : ':' ∈ resource) :
    ¬ ThingArn.ParsedAs (arnString partition service region account resource) region account
      resource name := by
  rintro ⟨arn, hparse, -⟩
  have hcount : (arnString partition service region account resource).count ':' ≠ 5 := by
    have hpos : 0 < resource.count ':' := List.count_pos_iff.2 hmem
    rw [arnString_count]
    omega
  rw [ThingArn.parse_of_count_ne hcount] at hparse
  cases hparse

theorem ArnForm.colon_mem_resource {form : ArnForm} {name : Str}
    (h : form = .typeColonId ∨ ':' ∈ name) : ':' ∈ form.resource name := by
  cases form with
  | id => exact h.resolve_left (by decide)
  | typeSlashId => exact List.mem_append_right _ (h.resolve_left (by decide))
  | typeColonId => exact List.mem_append_left _ (by decide)

/-- **Which documented ARNs are taken apart as documented**: those with a thing name without a colon
    that is not itself set off by a colon. -/
theorem thingArn_parsedAs_iff {partition service region account name : Str} (form : ArnForm)
    (hpartition : ':' ∉ partition) (hservice : ':' ∉ service) (hregion : ':' ∉ region)
    (haccount : ':' ∉ account) (hname : SchemeName name) :
    ThingArn.ParsedAs (arnString partition service region account (form.resource name)) region
        account (form.resource name) name ↔
      form ≠ .typeColonId ∧ ':' ∉ name := by
  constructor
  · intro hparsed
    by_contra hbad
    rw [not_and_or, not_not, not_not] at hbad
    exact ThingArn.not_parsedAs_of_colon (ArnForm.colon_mem_resource hbad) hparsed
  · rintro ⟨hform, hcolon⟩
    have hchars : ∀ c ∈ name, wordOrDash c = true := fun c hc =>
      (hname.chars c hc).resolve_right (fun h => hcolon (h ▸ hc))
    obtain ⟨profile, hbare, hthing⟩ := hname.getProfile hchars
    cases form with
    | id =>
        have hprefix : ¬ "thing/".toList <+: name := fun h =>
          absurd (hchars '/' (h.subset (by decide))) (by decide)
        exact ⟨_, ThingArn.parse_arnString hpartition hservice hregion haccount hcolon, rfl, rfl,
          rfl, ⟨profile, hbare, hbare⟩, removePrefix_of_not_prefix hprefix⟩
    | typeSlashId =>
        exact ⟨_, ThingArn.parse_arnString hpartition hservice hregion haccount
          (colon_not_mem_thing hchars), rfl, rfl, rfl, ⟨profile, hthing, hbare⟩,
          removePrefix_append _ _⟩
    | typeColonId => exact absurd rfl hform

theorem schemeName_example : SchemeName "dev-edge-ecu-Core".toList :=
  ⟨⟨"dev".toList, "ecu".toList, [], by decide, List.all_eq_true.1 rfl, by decide,
    List.all_eq_true.1 rfl, rfl⟩,
    fun c hc => Or.inl (@List.all_eq_true _ wordOrDash "dev-edge-ecu-Core".toList |>.1 rfl c hc),
    by decide⟩

theorem thingArn_parsedAs_iff_example :
    ThingArn.ParsedAs (arnString "aws".toList "iot".toList "region".toList "012345678901".toList
      "thing/dev-edge-ecu-Core".toList) "region".toList "012345678901".toList
      "thing/dev-edge-ecu-Core".toList "dev-edge-ecu-Core".toList :=
  (thingArn_parsedAs_iff .typeSlashId (by decide) (by decide) (by decide) (by decide)
    schemeName_example).2 ⟨by decide, by decide⟩

/-- The documented form with a colon between type and id is not taken apart at all. -/
theorem not_thingArn_parsedAs :
    ¬ ∀ (partition service region account name : Str) (form : ArnForm),
      ':' ∉ partition → ':' ∉ service → ':' ∉ region → ':' ∉ account → SchemeName name →
      ThingArn.ParsedAs (arnString partition service region account (form.resource name)) region
        account (form.resource name) name := by
  intro h
  obtain ⟨arn, hparse, -⟩ := h "aws".toList "iot".toList "region".toList "012345678901".toList _
    .typeColonId (by decide) (by decide) (by decide) (by decide) schemeName_example
  cases hparse

end IotLoggingServer
