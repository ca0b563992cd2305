import NbIot.Lib.Until
import NbIot.Node.Serial

/-!
# Bringing up the modem

`connect` turns the modem on, configures it, reboots it, and has it attach to the
network: commands one after the other, each waited for, and three loops that poll
the modem until it answers as hoped or their time is over. A session is everything
these functions read and write, down to the serial port, and a log of what was said.

A loop gets the fuel it needs and `more`. Printing takes no time of its own, and
what goes to the debug stream is left out.
-/

namespace NbIot

open Lib (Buffer loopUntil)
open Lib.Scan (Directive Value bytes format scan textAt intAt decimal)

inductive Command where
  | alive
  | cfun (on : Bool)
  | cgdcont (apn : List UInt8)
  | cgsn
  | nrb
  | nconfig
  | setNconfig (param value : String)
  | cops (forceOperator : Option (List UInt8))
  | nsocr (localPort : BitVec 16)
  | cgatt
  | csq
  deriving DecidableEq

/-- What is printed, without the carriage return. -/
def Command.text : Command → List UInt8
  | alive => bytes "AT"
  | cfun on => bytes "AT+CFUN=" ++ bytes (if on then "1" else "0")
  | cgdcont apn => bytes "AT+CGDCONT=1,\"IP\",\"" ++ (apn ++ bytes "\"")
  | cgsn => bytes "AT+CGSN=1"
  | nrb => bytes "AT+NRB"
  | nconfig => bytes "AT+NCONFIG?"
  | setNconfig param value =>
      bytes "AT+NCONFIG=\"" ++ (bytes param ++ (bytes "\",\"" ++ (bytes value ++ bytes "\"")))
  | cops (some forceOperator) => bytes "AT+COPS=1,2,\"" ++ (forceOperator ++ bytes "\"")
  | cops none => bytes "AT+COPS=0"
  | nsocr localPort => bytes "AT+NSOCR=\"DGRAM\",17," ++ (decimal localPort.toNat ++ bytes ",1")
  | cgatt => bytes "AT+CGATT?"
  | csq => bytes "AT+CSQ"

inductive Event where
  | command (c : Command)
  | response (type : ResponseTypes)
  deriving DecidableEq

/-- `powered` is the level of the on-off pin, `cgsn` what the local array holds, in
every call of `readResponse` and every turn of it, and `printed` all that was sent to
the modem. -/
structure Session where
  device : Device
  buffer : Buffer
  port : Port
  cgsn : Nat → Nat → Nat → UInt8
  powered : Bool := false
  minRSSI : BitVec 16 := BitVec.ofInt 16 (-113)
  lastRSSI : BitVec 8 := 0
  csqTime : BitVec 8 := 0
  said : List Event := []
  printed : List UInt8 := []

abbrev Talk (β : Type) := StateM Session β

/-- `SODAQ_AT_DEVICE_DEFAULT_READ_MS`. -/
def defaultReadMs : Nat := 5000

/-- `is_timedout`. -/
def isTimedout (start ms : Nat) (s : Session) : Bool :=
  ms < (millis s.port.now - millis start).toNat

/-- The delays of `sodaq_wdt_safe_delay`: the watchdog is reset before each of them. -/
def safeDelays (ms : Nat) : List Nat :=
  if 10 < ms then 10 :: safeDelays (ms - 10) else [ms]

namespace Session

def delay (s : Session) (ms : Nat) : Session := { s with port := s.port.delay ms }

/-- `sodaq_wdt_safe_delay`. -/
def safeDelay (s : Session) (ms : Nat) : Session := (safeDelays ms).foldl delay s

end Session

namespace Talk

def println (c : Command) : Talk Unit := fun s =>
  ((), { s with said := s.said ++ [.command c], printed := s.printed ++ (c.text ++ [13]) })

def readResponse {σ : Type} (parserMethod : Option (ParserMethod σ)) (params : σ)
    (timeout : Nat) : Talk (ResponseTypes × σ) := fun s =>
  let r := s.device.readPort parserMethod params timeout (s.cgsn 0) s.buffer s.port
  ((r.type, r.params),
    { s with
      device := r.device
      buffer := r.buffer
      port := r.port
      cgsn := fun k => s.cgsn (k + 1)
      said := s.said ++ [.response r.type] })

/-- A command, and the response to it with a parser. -/
def query {σ : Type} (c : Command) (parserMethod : ParserMethod σ) (params : σ) :
    Talk (ResponseTypes × σ) := do
  println c
  readResponse (some parserMethod) params defaultReadMs

/-- A command, and whether the response to it is `OK`. -/
def ask (c : Command) (timeout : Nat) : Talk Bool := do
  println c
  let response ← readResponse none () timeout
  return response.1 = .ok

def isAlive : Talk Bool := ask .alive 450

def setRadioActive (on : Bool) : Talk Bool := ask (.cfun on) defaultReadMs

def setApn (apn : List UInt8) : Talk Bool := ask (.cgdcont apn) defaultReadMs

def getIMEI : Talk Bool := ask .cgsn defaultReadMs

def setNconfigParam (param value : String) : Talk Bool :=
  ask (.setNconfig param value) defaultReadMs

/-- Both of `setOperator`, as `connect` chooses between them. -/
def setOperator (forceOperator : Option (List UInt8)) : Talk Bool :=
  ask (.cops (forceOperator.filter (· ≠ []))) defaultReadMs

/-! ## On, off and on again -/

/-- The loop of `on`. -/
def tryAlive : Nat → Talk Bool
  | 0 => return false
  | i + 1 => do
      if ← isAlive then return true else tryAlive i

/-- The pin is an output, and reading it gives what was written. -/
def on : Talk Bool := do
  modify fun s => if s.powered then s else { s with powered := true }
  if ← tryAlive 10 then return (← get).powered else return false

/-- A turn of the loops below: a response, and on unless it is the one that ends the loop
or the time is over. -/
def await (ends : ResponseTypes) (start timeout : Nat) : Talk (Option Unit) := do
  let response ← readResponse none () timeout
  if response.1 = ends then return some ()
  else if isTimedout start 2000 (← get) then return some ()
  else return none

/-- The loop of `purgeAllResponsesRead` and of `reboot`. -/
def readUntil (ends : ResponseTypes) (timeout more : Nat) : Talk Unit := fun s =>
  loopUntil (fun _ => true) (await ends s.port.now timeout) (fun _ => ())
    (s.port.polls.length + 2 + more) s

def purgeAllResponsesRead (more : Nat) : Talk Unit := readUntil .timeout 1000 more

def reboot (more : Nat) : Talk Unit := do
  println .nrb
  readUntil .ok defaultReadMs more

/-! ## The configuration -/

def nConfig : List (String × String) :=
  [("AUTOCONNECT", "TRUE"), ("CR_0354_0338_SCRAMBLING", "TRUE"), ("CR_0859_SI_AVOID", "TRUE")]

/-- The loop of `_nconfigParser`. -/
def markEqual (name value : List UInt8) (nconfigEqualsArray : List Bool) : List Bool :=
  match nConfig.findIdx? fun p => bytes p.1 = name ∧ bytes p.2 = value with
  | some i => nconfigEqualsArray.set i true
  | none => nconfigEqualsArray

def nconfigParser : ParserMethod (List Bool) := fun buffer _ nconfigEqualsArray =>
  match scan (format "+NCONFIG: \"%[^\"]\",\"%[^\"]\"") buffer with
  | [.text name, .text value] => (.pendingExtra, markEqual name value nconfigEqualsArray)
  | _ => (.error, nconfigEqualsArray)

/-- The loop of `checkAndApplyNconfig`. Whether a parameter could be set is not looked
at. -/
def applyNconfig : List ((String × String) × Bool) → Talk Unit
  | [] => return ()
  | ((param, value), applied) :: rest => do
      if !applied then let _ ← setNconfigParam param value
      applyNconfig rest

/-- `applyParam` is what the local array holds before the response. -/
def checkAndApplyNconfig (applyParam : List Bool) : Talk Bool := do
  let response ← query .nconfig nconfigParser applyParam
  if response.1 = .ok then
    applyNconfig (nConfig.zip response.2)
    return true
  else return false

/-! ## Signal, network and socket -/

/-- The low byte of an `int`. -/
def lowByte (n : Int) : BitVec 8 := (BitVec.ofInt 16 n).setWidth 8

def cgattParser : ParserMethod (BitVec 8) := fun buffer _ result =>
  match scan (format "+CGATT: %d") buffer with
  | [.int val] => (.empty, lowByte val)
  | _ => (.error, result)

def isConnected : Talk Bool := do
  let response ← query .cgatt cgattParser 0
  return response.1 = .ok && response.2 = 1

/-- Both values are stored as they are converted. -/
def csqParser : ParserMethod (BitVec 16 × BitVec 16) := fun buffer _ (rssi, ber) =>
  let values := scan (format "+CSQ: %d,%d") buffer
  (if values.length = 2 then .empty else .error,
    ((intAt values 0).map (.ofInt 16)).getD rssi, ((intAt values 1).map (.ofInt 16)).getD ber)

def convertCSQ2RSSI (csq : BitVec 8) : BitVec 8 := BitVec.ofInt 8 (-113 + 2 * csq.toNat)

def berValues : List (BitVec 8) := [49, 43, 37, 25, 19, 13, 7, 0]

/-- What is stored of the two values, if the response is `OK`. -/
def getRSSIAndBER : Talk (Option (BitVec 8 × BitVec 8)) := do
  let response ← query .csq csqParser (0, 0)
  if response.1 = .ok then
    let (csqRaw, berRaw) := response.2
    let rssi := if csqRaw = 99 then 0 else convertCSQ2RSSI (csqRaw.setWidth 8)
    return some (rssi, (berValues[berRaw.toNat]?).getD 0)
  else return none

/-- `delay_count` after a turn: 1000 more, up to 5500. -/
def longer (delayCount : Nat) : Nat := if delayCount < 5000 then delayCount + 1000 else delayCount

/-- A turn of the loop below: an attempt, and a delay if it fails. -/
def pollTurn (attempt : Talk Bool) : StateM (Session × Nat) (Option Bool) := fun (s, delayCount) =>
  let tried := attempt s
  if tried.1 then (some true, tried.2, delayCount)
  else (none, tried.2.safeDelay delayCount, longer delayCount)

/-- The loop that `attachBee` and `waitForSignalQuality` have in common. -/
def pollModem (more timeout : Nat) (attempt : Nat → Talk Bool) : Talk Bool := fun s =>
  let start := s.port.now
  let result := loopUntil (fun t : Session × Nat => !isTimedout start timeout t.1)
    (pollTurn (attempt start)) (fun _ => false) (timeout / 500 + 2 + more) (s, 500)
  (result.1, result.2.1)

/-- The body of `waitForSignalQuality`, before the delay. -/
def signalIsGood (start : Nat) : Talk Bool := do
  match ← getRSSIAndBER with
  | some (rssi, _) =>
      let s ← get
      if rssi ≠ 0 ∧ (s.minRSSI.setWidth 8).toInt ≤ rssi.toInt then
        set { s with
          lastRSSI := rssi
          csqTime := (BitVec.ofInt 32
            ((millis s.port.now - millis start).toInt.tdiv 1000)).setWidth 8 }
        return true
      else return false
  | none => return false

def waitForSignalQuality (more timeout : Nat) : Talk Bool := pollModem more timeout signalIsGood

def attachBee (more timeout : Nat) : Talk Bool := pollModem more timeout fun _ => isConnected

def createSocketParser : ParserMethod (BitVec 8) := fun buffer _ socket =>
  match scan (format "%d") buffer with
  | [.int value] => (.empty, lowByte value)
  | _ => (.error, socket)

/-- The socket, or `none` for `SOCKET_FAIL`. `socket` is not initialised. -/
def createSocket (localPort : BitVec 16) (socket : BitVec 8) : Talk (Option (BitVec 8)) := do
  let response ← query (.nsocr localPort) createSocketParser socket
  return if response.1 = .ok then some response.2 else none

/-! ## The whole of it -/

/-- What the locals that `connect` and its callees do not initialise happen to hold. -/
structure ConnectLocals where
  forceOperator : Option (List UInt8)
  applyParam : List Bool
  socket : BitVec 8

def connect (more : Nat) (apn : List UInt8) (locals : ConnectLocals) : Talk Bool := do
  if !(← on) then return false
  purgeAllResponsesRead more
  if !(← setRadioActive false) then return false
  if !(← checkAndApplyNconfig locals.applyParam) then return false
  reboot more
  if !(← on) then return false
  purgeAllResponsesRead more
  if !(← setApn apn) then return false
  if !(← setRadioActive true) then return false
  if !(← setOperator locals.forceOperator) then return false
  if !(← getIMEI) then return false
  if !(← waitForSignalQuality more 60000) then return false
  if !(← attachBee more 30000) then return false
  if (← createSocket 3000 locals.socket).isNone then return false
  modify fun s => s.delay 50
  return true

end Talk

end NbIot
