import ImportProxy.Proxy.ProgramOptions
import ImportProxy.Proxy.System

/-!
# The initialization file

What the program reads its options from: `src/modules/programOptions.cppm:31–79,256–542`, with
the setters that it calls. The conversions of Boost, the property tree and the file system come
from outside the repository. The bound on the size of a message goes to the server and is kept
beside the options of the proxy.
-/

namespace ImportProxy.Proxy

open ImportProxy.Base
open ImportProxy.Detector (DuplicatePacketDetectorOptions OptionsError)
open ImportProxy.Frontend (FrontendOptions)
open ImportProxy.Backend (BackendOptions)

/-- The exceptions of `parseIniFile`. -/
inductive IniError where
  | notRead
  | grpc (error : ConfigError)
  | messageSizeNotPositive
  | publishersNotPositive
  | invalidMessagesNegative
  | subscribersNotPositive
  | queueCapacityNotPositive
  | samePort
  | detectorSizeNotPositive
  | detectorDurationNotPositive
  | detector (error : OptionsError)
  | noSizeOrDuration
  | exportIntervalNotPositive
  | exportTimeOutNotPositive
  | noGRPCLogs
  | noGRPCMetrics
  deriving DecidableEq, Repr

/-- The text of an exception; that of `read_ini` is not the program's. -/
def IniError.what : IniError → Option Bytes
  | notRead => none
  | grpc error => some error.what
  | messageSizeNotPositive => some (ascii "Maximum message size must be positive")
  | publishersNotPositive => some (ascii "Maximum number of publishers must be positive")
  | invalidMessagesNegative =>
    some (ascii "Maximum number of invalid messages must be non-negative")
  | subscribersNotPositive => some (ascii "Maximum number of subscribers must be positive")
  | queueCapacityNotPositive => some (ascii "Queue capacity must be positive")
  | samePort => some (ascii "Can't bind front and backend on same port")
  | detectorSizeNotPositive => some (ascii "duplicate detector cb size must be positive")
  | detectorDurationNotPositive => some (ascii "duplicate detector cb duration must be positive")
  | detector error => some error.what
  | noSizeOrDuration => some (ascii "Must size or duration")
  | exportIntervalNotPositive => some (ascii "Export interval must be positive")
  | exportTimeOutNotPositive => some (ascii "Export time out must be positive")
  | noGRPCLogs => some (ascii "Recompile with Conan to use gRPC logs exporter option")
  | noGRPCMetrics => some (ascii "Recompile with Conan to use gRPC metrics exporter option")

/-- What is read, with the conversions of a value to the signed integers. -/
structure IniFile extends Surroundings where
  toInt : Bytes → Option Int32
  toInt64 : Bytes → Option Int64

namespace IniFile

/-- `propertyTree.get_optional<int>`. -/
def getOptionalInt (ini : IniFile) (path : Bytes) : Option Int :=
  ((ini.getOptional path).bind ini.toInt).map Int32.toInt

/-- `propertyTree.get<int>` with a default. -/
def getInt (ini : IniFile) (path : Bytes) (default : Int) : Int :=
  (ini.getOptionalInt path).getD default

/-- `propertyTree.get<int64_t>` with a default. -/
def getInt64 (ini : IniFile) (path : Bytes) (default : Int) : Int :=
  (((ini.getOptional path).bind ini.toInt64).map Int64.toInt).getD default

end IniFile

/-- A setter that throws on a bad value. -/
def orThrow {α : Type} (error : IniError) : Option α → Except IniError α
  | some a => .ok a
  | none => .error error

/-- The default of `mMaximumMessageSizeInBytes` passes its check. -/
theorem defaultMaximumMessageSize_pos : (1 : Int) ≤ 8192 := by decide

/-- The default of `mMaximumMessageSizeInBytes`. -/
def defaultMaximumMessageSizeInBytes : AtLeast 1 := ⟨8192, defaultMaximumMessageSize_pos⟩

/-- `FrontendOptions` with the bound on the size of a message; `src/frontendOptions.cpp:11–18`. -/
structure FrontendSettings extends FrontendOptions where
  mMaximumMessageSizeInBytes : AtLeast 1 := defaultMaximumMessageSizeInBytes
  deriving DecidableEq, Repr

/-- `setMaximumMessageSizeInBytes`, none for its exception; `src/frontendOptions.cpp:85–92`. -/
def FrontendSettings.setMaximumMessageSizeInBytes (settings : FrontendSettings) (maxSize : Int) :
    Option FrontendSettings :=
  (AtLeast.check 1 maxSize).map fun n ↦ { settings with mMaximumMessageSizeInBytes := n }

/-- `ProxyOptions` with the bound on the size of a message. -/
structure ProxySettings extends ProxyOptions where
  mMaximumMessageSizeInBytes : AtLeast 1 := defaultMaximumMessageSizeInBytes
  deriving DecidableEq, Repr

section

variable (ini : IniFile)

/-- `getFrontendOptions`; `src/modules/programOptions.cppm:256–286`. -/
def getFrontendOptions : Except IniError FrontendSettings := do
  let name := ascii "Frontend"
  let settings : FrontendSettings := {}
  let grpcOptions ← (getGRPCOptions ini.toSurroundings name true).mapError .grpc
  let settings := { settings with mGRPCOptions := grpcOptions }
  let maxMessageSize := ini.getInt (name ++ ascii ".maximumMessageSizeInBytes")
    settings.mMaximumMessageSizeInBytes.value
  let settings ← orThrow .messageSizeNotPositive
    (settings.setMaximumMessageSizeInBytes maxMessageSize)
  let maxPublishers := ini.getInt (name ++ ascii ".maximumNumberOfPublishers")
    settings.getMaximumNumberOfPublishers
  let options ← orThrow .publishersNotPositive
    (settings.toFrontendOptions.setMaximumNumberOfPublishers maxPublishers)
  let maxBadMessages := ini.getInt (name ++ ascii ".maximumNumberOfConsecutiveInvalidMessages")
    options.getMaximumNumberOfConsecutiveInvalidMessages
  let options ← orThrow .invalidMessagesNegative
    (options.setMaximumNumberOfConsecutiveInvalidMessages maxBadMessages)
  return { settings with toFrontendOptions := options }

/-- `getBackendOptions`; `src/modules/programOptions.cppm:288–311`. -/
def getBackendOptions : Except IniError BackendOptions := do
  let name := ascii "Backend"
  let options : BackendOptions := {}
  let grpcOptions ← (getGRPCOptions ini.toSurroundings name false).mapError .grpc
  let options := { options with mGRPCOptions := grpcOptions }
  let maxSubscribers := ini.getInt (name ++ ascii ".maximumNumberOfSubscribers")
    options.getMaximumNumberOfSubscribers
  let options ← orThrow .subscribersNotPositive
    (options.setMaximumNumberOfSubscribers maxSubscribers)
  let queueCapacity := ini.getInt (name ++ ascii ".queueCapacity") options.getQueueCapacity
  orThrow .queueCapacityNotPositive (options.setQueueCapacity queueCapacity)

/-- The options of the duplicate detector, of which the size comes first;
`src/modules/programOptions.cppm:340–371`. -/
def withDuplicatePacketDetectorOptions (options : ProxyOptions) : Except IniError ProxyOptions :=
  let duplicateOptions : DuplicatePacketDetectorOptions := {}
  match ini.getOptionalInt (ascii "Proxy.duplicateDetectorCircularBufferSize") with
  | some duplicateCircularBufferSize => do
    if duplicateCircularBufferSize < 1 then throw .detectorSizeNotPositive
    let duplicateOptions ←
      (duplicateOptions.setCircularBufferSize duplicateCircularBufferSize).mapError .detector
    orThrow .noSizeOrDuration (options.setDuplicatePacketDetectorOptions duplicateOptions)
  | none =>
    match ini.getOptionalInt
      (ascii "Proxy.duplicateDetectorCircularBufferDurationInSeconds") with
    | some duplicateCircularBufferDuration => do
      if duplicateCircularBufferDuration < 1 then throw .detectorDurationNotPositive
      let duplicateOptions ←
        (duplicateOptions.setCircularBufferDuration duplicateCircularBufferDuration).mapError
          .detector
      orThrow .noSizeOrDuration (options.setDuplicatePacketDetectorOptions duplicateOptions)
    | none => .ok options

/-- `getProxyOptions`; `src/modules/programOptions.cppm:313–375`. -/
def getProxyOptions : Except IniError ProxySettings := do
  let options : ProxyOptions := {}
  let queueCapacity := ini.getInt (ascii "Proxy.queueCapacity") options.getQueueCapacity
  let options ← orThrow .queueCapacityNotPositive (options.setQueueCapacity queueCapacity)
  let frontend ← getFrontendOptions ini
  let backend ← getBackendOptions ini
  if frontend.mGRPCOptions.getHost = backend.mGRPCOptions.getHost ∧
      frontend.mGRPCOptions.getPort = backend.mGRPCOptions.getPort then throw .samePort
  let options := { options with
    mFrontendOptions := frontend.toFrontendOptions
    mBackendOptions := backend }
  let options ← withDuplicatePacketDetectorOptions ini options
  return { options with mMaximumMessageSizeInBytes := frontend.mMaximumMessageSizeInBytes }

end

/-- `OTelOptions::HTTPMetrics`, in milliseconds; `src/otelOptions.hpp:26–32`. -/
structure HTTPMetrics where
  url : Bytes := ascii "localhost:4318"
  exportInterval : Int := 15000
  exportTimeOut : Int := 500
  suffix : Bytes := ascii "/v1/metrics"
  deriving DecidableEq, Repr

/-- `OTelOptions::GRPCMetrics`; `src/otelOptions.hpp:10–16`. -/
structure GRPCMetrics where
  url : Bytes := ascii "localhost:4317"
  exportInterval : Int := 15000
  exportTimeOut : Int := 500
  certificatePath : Bytes := []
  deriving DecidableEq, Repr

/-- `OTelOptions::HTTPLog`; `src/otelOptions.hpp:34–39`. -/
structure HTTPLog where
  url : Bytes := ascii "localhost:4318"
  certificatePath : Bytes := []
  suffix : Bytes := ascii "/v1/logs"
  deriving DecidableEq, Repr

/-- `OTelOptions::GRPCLog`; `src/otelOptions.hpp:18–23`. -/
structure GRPCLog where
  url : Bytes := ascii "localhost:4317"
  exportTimeOut : Int := 500
  certificatePath : Bytes := []
  deriving DecidableEq, Repr

/-- `ProgramOptions`; the interval is in seconds. `src/modules/programOptions.cppm:101–117`. -/
structure ProgramOptions where
  otelHTTPMetricsOptions : HTTPMetrics := {}
  otelHTTPLogOptions : HTTPLog := {}
  otelGRPCMetricsOptions : GRPCMetrics := {}
  otelGRPCLogOptions : GRPCLog := {}
  applicationName : Bytes := ascii "uDataPacketImportProxy"
  proxyOptions : ProxySettings := {}
  printSummaryInterval : Int := 900
  verbosity : Int := 3
  exportLogs : Bool := false
  exportLogsWithHTTP : Bool := true
  exportMetrics : Bool := false
  exportMetricsWithHTTP : Bool := true
  deriving DecidableEq, Repr

/-- A host and a port, as `makeAddress` and the URLs of the collectors have them. -/
def addressOf (host : Bytes) (port : UInt16) : Bytes :=
  host ++ ascii ":" ++ ascii (toString port.toNat)

/-- `makeAddress`; `src/grpcOptions.cpp:103–106`. -/
def makeAddress (options : GRPCOptions) : Bytes := addressOf options.getHost options.getPort

section

variable (withOTLPGRPC : Bool) (ini : IniFile)

/-- `getOTelCollectorURL`, of which there are two copies;
`src/modules/programOptions.cppm:62–77,377–391`. -/
def getOTelCollectorURL (name : Bytes) : Bytes :=
  let otelCollectorHost := ini.get (name ++ ascii ".host") []
  let otelCollectorPort := ini.getUInt16 (name ++ ascii ".port") 4218
  if otelCollectorHost.isEmpty then [] else addressOf otelCollectorHost otelCollectorPort

/-- `getOTelMetricsIntervalAndTimeOut`; `src/modules/programOptions.cppm:32–60`. -/
def getOTelMetricsIntervalAndTimeOut (name : Bytes)
    (defaultExportInterval defaultExportTimeOut : Int) : Except IniError (Int × Int) := do
  let exportInterval :=
    ini.getInt64 (name ++ ascii ".exportIntervalInMilliSeconds") defaultExportInterval
  if exportInterval ≤ 0 then throw .exportIntervalNotPositive
  let exportTimeOut :=
    ini.getInt64 (name ++ ascii ".exportTimeOutInMilliSeconds") defaultExportTimeOut
  if exportTimeOut ≤ 0 then throw .exportTimeOutNotPositive
  return (exportInterval, exportTimeOut)

/-- The suffix behind a URL that is not empty starts with a slash;
`src/modules/programOptions.cppm:424–434,479–489`. -/
def withSlash (url suffix : Bytes) : Bytes :=
  if !url.isEmpty && !suffix.isEmpty && !(ascii "/").isSuffixOf url &&
      !(ascii "/").isPrefixOf suffix then
    ascii "/" ++ suffix
  else suffix

/-- The certificate of a collector, when the file exists;
`src/modules/programOptions.cppm:451–460,521–530`. -/
def certificatePathOf (name : Bytes) : Bytes :=
  match ini.getOptional (name ++ ascii ".certificate") with
  | some certificatePath => if ini.fileExists certificatePath then certificatePath else []
  | none => []

/-- The exporter of the logs; `src/modules/programOptions.cppm:413–467`. -/
def withLogOptions (options : ProgramOptions) : Except IniError ProgramOptions :=
  if (ini.getOptional (ascii "OTelHTTPLogOptions")).isSome then
    let name := ascii "OTelHTTPLogOptions"
    let url := getOTelCollectorURL ini name
    let suffix := withSlash url (ini.get (name ++ ascii ".suffix") (ascii "/v1/logs"))
    if url.isEmpty then .ok options
    else .ok { options with
      exportLogs := true
      exportLogsWithHTTP := true
      otelHTTPLogOptions := { url, suffix } }
  else if (ini.getOptional (ascii "OTelGRPCLogOptions")).isSome then
    if !withOTLPGRPC then .error .noGRPCLogs
    else
      let name := ascii "OTelGRPCLogOptions"
      let url := getOTelCollectorURL ini name
      let certificatePath := certificatePathOf ini name
      if url.isEmpty then .ok options
      else .ok { options with
        exportLogs := true
        exportLogsWithHTTP := false
        otelGRPCLogOptions := { url, certificatePath } }
  else .ok options

/-- The exporter of the metrics; behind gRPC the interval is checked in any case, behind HTTP only
with a URL. `src/modules/programOptions.cppm:469–538`. -/
def withMetricsOptions (options : ProgramOptions) : Except IniError ProgramOptions :=
  if (ini.getOptional (ascii "OTelHTTPMetricsOptions")).isSome then do
    let name := ascii "OTelHTTPMetricsOptions"
    let metricsOptions : HTTPMetrics := {}
    let url := getOTelCollectorURL ini name
    let suffix := withSlash url (ini.get (name ++ ascii ".suffix") (ascii "/v1/metrics"))
    if url.isEmpty then return options
    let (exportInterval, exportTimeOut) ← getOTelMetricsIntervalAndTimeOut ini name
      metricsOptions.exportInterval metricsOptions.exportTimeOut
    return { options with
      otelHTTPMetricsOptions := { url, exportInterval, exportTimeOut, suffix }
      exportMetrics := true
      exportMetricsWithHTTP := true }
  else if (ini.getOptional (ascii "OTelGRPCMetricsOptions")).isSome then do
    if !withOTLPGRPC then throw .noGRPCMetrics
    let name := ascii "OTelGRPCMetricsOptions"
    let metricsOptions : GRPCMetrics := {}
    let url := getOTelCollectorURL ini name
    let (exportInterval, exportTimeOut) ← getOTelMetricsIntervalAndTimeOut ini name
      metricsOptions.exportInterval metricsOptions.exportTimeOut
    let certificatePath := certificatePathOf ini name
    if url.isEmpty then return options
    return { options with
      otelGRPCMetricsOptions := { url, exportInterval, exportTimeOut, certificatePath }
      exportMetrics := true
      exportMetricsWithHTTP := false }
  else .ok options

/-- `parseIniFile`; `src/modules/programOptions.cppm:393–542`. The tree is that of the file, none
where `read_ini` throws. -/
def parseIniFile (fileExists : Bool) (tree : Option IniFile) : Except IniError ProgramOptions := do
  let options : ProgramOptions := {}
  if !fileExists then return options
  let ini ← orThrow .notRead tree
  let applicationName := ini.get (ascii "General.applicationName") options.applicationName
  let options := { options with
    applicationName :=
      if applicationName.isEmpty then ascii "uDataPacketImportProxy" else applicationName
    verbosity := ini.getInt (ascii "General.verbosity") options.verbosity }
  let options ← withLogOptions withOTLPGRPC ini options
  let options ← withMetricsOptions withOTLPGRPC ini options
  let proxyOptions ← getProxyOptions ini
  return { options with proxyOptions }

end
end ImportProxy.Proxy
