import IotLoggingServer.Lib.Uri
import IotLoggingServer.Python
import Mathlib.Data.List.DropRight

set_option autoImplicit false

/-! # The session configuration (`IoTSessionConfig` of `greengrass_config.py`) -/

namespace IotLoggingServer

structure PKCS11Config where
  pkcs11Lib : Str
  slotId : Str
  userPin : Str
  deriving DecidableEq, Repr

structure IoTSessionConfig where
  accountId : Str
  caPath : Str
  privateKeyPath : Str
  certificatePath : Str
  thingName : Str
  profile : Str
  region : Str
  awsCredentialProviderEndpoint : Str
  pkcs11Config : Option PKCS11Config := none
  deriving DecidableEq, Repr

/-- The prefix the two log group names share. -/
def IoTSessionConfig.logGroupPrefix (self : IoTSessionConfig) : Str :=
  "/aws/greengrass/edge/".toList ++ self.region ++ "/".toList ++ self.accountId ++ "/".toList ++
    self.profile

def IoTSessionConfig.awsCloudwatchOtaclientLogsLogGroup (self : IoTSessionConfig) : Str :=
  self.logGroupPrefix ++ "-edge-otaclient".toList

def IoTSessionConfig.awsCloudwatchOtaclientMetricsLogGroup (self : IoTSessionConfig) : Str :=
  self.logGroupPrefix ++ "-edge-otaclient-metrics".toList

def IoTSessionConfig.awsRoleAlias (self : IoTSessionConfig) : Str :=
  self.profile ++ "-autoware-adapter-credentials-iot-secrets-access-role-alias".toList

/-- The endpoint to refresh the token from; `urljoin` as RFC 3986 has it. -/
def IoTSessionConfig.awsCredentialRefreshUrl (self : IoTSessionConfig) : Str :=
  Uri.join
    ("https://".toList ++ self.awsCredentialProviderEndpoint.rdropWhile (· == '/') ++ "/".toList)
    ("role-aliases/".toList ++ self.awsRoleAlias ++ "/credentials".toList)

end IotLoggingServer
