import IotLoggingServer.Python

set_option autoImplicit false

/-! # Server settings (`configs.py`)

The settings the modelled code reads. They come from the environment; the settings class checks
their types and nothing else. -/

namespace IotLoggingServer

structure ConfigurableLoggingServerConfig where
  maxLogsBacklog : ℤ := 4096
  maxLogsPerMerge : ℤ := 512
  /-- in seconds -/
  uploadInterval : ℤ := 3
  deriving DecidableEq, Repr

/-- `server_cfg`: the settings above, with those that only the start-up reads. -/
structure ServerCfg extends ConfigurableLoggingServerConfig where
  greengrassV1Config : Str := "/greengrass/config/config.json".toList
  greengrassV2Config : Str := "/greengrass/v2/init_config/config.yaml".toList
  awsProfileInfo : Str := "/opt/ota/iot-logger/aws_profile_info.yaml".toList
  uploadLoggingServerLogs : Bool := false
  serverLogstreamSuffix : Str := "iot_logging_server".toList
  ecuInfoYaml : Str := "/boot/ota/ecu_info.yaml".toList
  exitOnConfigFileChanged : Bool := true
  deriving DecidableEq, Repr

/-! ## AWS profiles -/

/-- What `\d` takes: the ASCII digits, and of the other characters the digits of other scripts. -/
def isDigitOrForeign (c : Char) : Bool := c.isDigit || decide (127 < c.toNat)

/-- `_AWSProfile`; the model check of `account_id` is part of the type. -/
structure AWSProfile where
  profileName : Str
  accountId : Str
  credentialEndpoint : Str
  accountId_pattern : accountId.length = 12 ∧ ∀ c ∈ accountId, isDigitOrForeign c = true

/-- `AWSProfileInfo`: the first profile of a name counts. -/
abbrev AWSProfileInfo := List AWSProfile

def AWSProfileInfo.getProfileInfo (self : AWSProfileInfo) (profileName : Str) :
    Except PyExc AWSProfile :=
  match self.find? (fun profile => decide (profile.profileName = profileName)) with
  | some profile => .ok profile
  | none => .error (.keyError
      ("failed to get profile info for profile_name='".toList ++ profileName ++ "'".toList))

/-- An account id is never split at a colon. -/
theorem AWSProfile.colon_not_mem (profile : AWSProfile) : ':' ∉ profile.accountId := fun h =>
  absurd (profile.accountId_pattern.2 ':' h) (by decide)

end IotLoggingServer
