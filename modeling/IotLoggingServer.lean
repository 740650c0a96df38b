import IotLoggingServer.Lib.Dict
import IotLoggingServer.Lib.Groups
import IotLoggingServer.Common
import IotLoggingServer.Utils
import IotLoggingServer.AwsIotLogger.Upload
import IotLoggingServer.Servicer
import IotLoggingServer.LogSetting
import IotLoggingServer.AwsIotLogger.Thread
import IotLoggingServer.AwsIotLogger.Iteration
import IotLoggingServer.AwsIotLogger.Merge
import IotLoggingServer.LogProxyServer
import IotLoggingServer.Delivery
import IotLoggingServer.ServiceLimits
import IotLoggingServer.Backlog
import IotLoggingServer.StampedLogs
import IotLoggingServer.AwsIotLogger.LogStream
import IotLoggingServer.LoggingSystem
import IotLoggingServer.StreamService
import IotLoggingServer.OwnLogs
import IotLoggingServer.Settling
import IotLoggingServer.AwsIotLogger.Blocking
import IotLoggingServer.Lib.Runs
import IotLoggingServer.ConfigFileMonitor
import IotLoggingServer.ConfigFilePolls
import IotLoggingServer.Lib.Regex
import IotLoggingServer.Lib.Split
import IotLoggingServer.NestedDict
import IotLoggingServer.Pkcs11Uri
import IotLoggingServer.ThingName
import IotLoggingServer.Boto3Session
import IotLoggingServer.GreengrassConfig
import IotLoggingServer.Lib.Traverse
import IotLoggingServer.Lib.LiveIter
import IotLoggingServer.ProtoWrapper.Schema
import IotLoggingServer.ProtoWrapper.Message
import IotLoggingServer.ProtoWrapper.Wrapper
import IotLoggingServer.ProtoWrapper.Values
import IotLoggingServer.ProtoWrapper.Export
import IotLoggingServer.ProtoWrapper.RoundTrip
import IotLoggingServer.ProtoWrapper.Equality
import IotLoggingServer.ProtoWrapper.Bytes
import IotLoggingServer.ProtoWrapper.Containers
import IotLoggingServer.ProtoWrapper.RepeatedFields
import IotLoggingServer.ProtoWrapper.Duration
import IotLoggingServer.ProtoWrapper.Oneof
import IotLoggingServer.V1.ApiStub
import IotLoggingServer.V1.Messages
import IotLoggingServer.WireSystem
import IotLoggingServer.Main
import IotLoggingServer.Identity
import IotLoggingServer.Restarts
