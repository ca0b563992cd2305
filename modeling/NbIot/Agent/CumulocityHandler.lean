import NbIot.Agent.DataPacket
import NbIot.Agent.Measurement

/-!
# `CumulocityHandler`

The two queue consumers that talk to the platform. Each cuts its message into
the locals it starts with, then makes SDK calls inside one `try`. What the
platform answers is an argument, `none` or `false` standing for an
`SDKException`; the calls made come back with the body, so that a system
around the handler can say which answers its platform gives and what they do
to it.
-/

namespace NbIot

/-- Text that is one line of a message: not empty, no line feed. -/
abbrev Line := Lib.Field '\n'

structure ManagedObject where
  name : JString
  type : JString
  isDevice : Bool
  responseInterval : Int
  deriving DecidableEq, Repr

/-- A call on the platform, with the platform's answer. -/
inductive PlatformCall where
  | pollCredentials (deviceId : JString) (password : Option Line)
  | createObject (username password : JString) (mo : ManagedObject)
      (id : Option Line)
  | createMeasurement (username password : JString)
      (measurement : MeasurementRepresentation) (stored : Bool)

def username (deviceId : JString) : JString := "device_".toList ++ deviceId

/-! ## `registerDevice` -/

structure RegisterFields where
  ipAddress : JString
  port : Int
  deviceId : JString
  deriving DecidableEq, Repr

def splitRegister (queueRegisterMessage : JString) : Java RegisterFields := do
  let data := splitLines queueRegisterMessage
  let ipAddress ← arrayGet data 0
  let port ← parseInt (← arrayGet data 1) 10
  let deviceId ← arrayGet data 2
  return { ipAddress, port, deviceId }

def sodaqDevice (deviceId : JString) : ManagedObject where
  name := username deviceId
  type := "Sodaq_device".toList
  isDevice := true
  responseInterval := 1

def credentialsMessage (ipAddress : JString) (port : Int)
    (password cumulocityId : JString) : JString :=
  ipAddress ++ ['\n'] ++ intToString port ++ ['\n'] ++ password ++ ['\n']
    ++ cumulocityId

def registerDevice (poll create : Option Line)
    (queueRegisterMessage : JString) : Java (JString × List PlatformCall) := do
  let r ← splitRegister queueRegisterMessage
  match poll with
  | none => return ([], [.pollCredentials r.deviceId none])
  | some password =>
      let calls :=
        [.pollCredentials r.deviceId (some password),
          .createObject (username r.deviceId) password.text
            (sodaqDevice r.deviceId) create]
      match create with
      | none => return ([], calls)
      | some id =>
          return (credentialsMessage r.ipAddress r.port password.text id.text, calls)

/-! ## `pushMeasurement` -/

/-- The locals at the top of `pushMeasurement`. -/
structure MeasurementFields where
  ipAddress : JString
  port : Int
  deviceId : JString
  password : JString
  cumulocityId : JString
  creationdateTimestamp : JString
  devicePayload : Bytes
  deriving DecidableEq, Repr

def splitMeasurement (queueMeasurementMessage : JString) :
    Java MeasurementFields := do
  let data := splitLines queueMeasurementMessage
  let ipAddress ← arrayGet data 0
  let port ← parseInt (← arrayGet data 1) 10
  let deviceId ← arrayGet data 2
  let password ← arrayGet data 3
  let cumulocityId ← arrayGet data 4
  let creationdateTimestamp ← arrayGet data 5
  let devicePayload ← base64Decode (← arrayGet data 6)
  return { ipAddress, port, deviceId, password, cumulocityId
           creationdateTimestamp, devicePayload }

/-- The message that makes a device forget its credentials. -/
def resetMessage (ipAddress : JString) (port : Int) : JString :=
  ipAddress ++ ['\n'] ++ intToString port ++ ['\n', '\n']

/-- `getMeasurementApi()` and `createWithoutResponse` count as one call. -/
def pushMeasurement (stored : Bool) (queueMeasurementMessage : JString) :
    Java (JString × List PlatformCall) := do
  let r ← splitMeasurement queueMeasurementMessage
  let measurement ←
    createMeasurement r.cumulocityId r.creationdateTimestamp r.devicePayload
  let calls :=
    [.createMeasurement (username r.deviceId) r.password measurement stored]
  if stored then return ([], calls)
  else return (resetMessage r.ipAddress r.port, calls)

end NbIot
