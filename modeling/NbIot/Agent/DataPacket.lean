import NbIot.Agent.Java

/-!
# `DataPacket`

Two constructors fill the same record. The one for a datagram cuts the bytes
at the first three line feeds and leaves a field at its default when a line
feed is missing; the one for a queue message takes the fields `split` finds.
The three message getters join fields with line feeds again.
-/

namespace NbIot

structure DataPacket where
  ipAddress : JString
  port : Int
  deviceId : JString := []
  password : JString := []
  cumulocityId : JString := []
  payload : Option Bytes := none
  creationdateTimestamp : Option JString := none
  deriving DecidableEq, Repr

/-- The loop of `nextNewLine` at index `i`, with `rest` the bytes from there.
The byte is read before the bound is tested, so an empty array throws. -/
def nextNewLineFrom (i : Nat) : Bytes → Java Int
  | [] => .error .arrayIndexOutOfBounds
  | b :: rest =>
      if b = 10 then .ok i
      else if rest = [] then .ok (-1)
      else nextNewLineFrom (i + 1) rest

def nextNewLine (data : Bytes) : Java Int := nextNewLineFrom 0 data

def DataPacket.extractData (pkt : DataPacket) (data : Bytes) :
    Java DataPacket := do
  let newLine ← nextNewLine data
  if newLine = -1 then return pkt
  else
    let pkt := { pkt with deviceId := newString (copyOfRange data 0 newLine.toNat) }
    let data := copyOfRange data (newLine.toNat + 1) data.length
    let newLine ← nextNewLine data
    if newLine = -1 then return pkt
    else
      let pkt := { pkt with password := newString (copyOfRange data 0 newLine.toNat) }
      let data := copyOfRange data (newLine.toNat + 1) data.length
      let newLine ← nextNewLine data
      if newLine = -1 then return pkt
      else
        return { pkt with
          cumulocityId := newString (copyOfRange data 0 newLine.toNat)
          payload := some (copyOfRange data (newLine.toNat + 1) data.length) }

/-- The fields the datagram constructor sets before it looks at the data. -/
def DataPacket.fresh (ipAddress : JString) (port : Int) (now : JString) :
    DataPacket := { ipAddress, port, creationdateTimestamp := some now }

/-- `new DataPacket(ipAddress, port, data)`, at local time `now`. -/
def DataPacket.ofDatagram (ipAddress : JString) (port : Int) (now : JString)
    (data : Bytes) : Java DataPacket :=
  (DataPacket.fresh ipAddress port now).extractData data

/-- `new DataPacket(message)`. -/
def DataPacket.ofMessage (message : JString) : Java DataPacket := do
  let data := splitLines message
  let ipAddress ← arrayGet data 0
  let port ← parseInt (← arrayGet data 1) 10
  if data.length > 2 then
    let password ← arrayGet data 2
    let cumulocityId ← arrayGet data 3
    return { ipAddress, port, password, cumulocityId }
  else return { ipAddress, port }

def DataPacket.isValid (pkt : DataPacket) : Bool := pkt.deviceId ≠ []

def DataPacket.isRegisterMessage (pkt : DataPacket) : Bool :=
  pkt.password = [] || pkt.cumulocityId = []

/-- `payload.length`, which throws while `payload` is still null. -/
def DataPacket.payloadLength (pkt : DataPacket) : Java Nat :=
  match pkt.payload with
  | some p => .ok p.length
  | none => .error .nullPointer

def DataPacket.isMeasurementMessage (pkt : DataPacket) : Java Bool :=
  if pkt.password ≠ [] ∧ pkt.cumulocityId ≠ [] then do
    return (← pkt.payloadLength) = 14
  else return false

/-- A null reference in a string concatenation. -/
def orNull (s : Option JString) : JString := s.getD ['n', 'u', 'l', 'l']

def DataPacket.getRegisterMessage (pkt : DataPacket) : JString :=
  pkt.ipAddress ++ ['\n'] ++ intToString pkt.port ++ ['\n'] ++ pkt.deviceId

def DataPacket.getPushMeasurementMessage (pkt : DataPacket) : Java JString :=
  match pkt.payload with
  | none => .error .nullPointer
  | some payload =>
      .ok (pkt.ipAddress ++ ['\n'] ++ intToString pkt.port ++ ['\n']
        ++ pkt.deviceId ++ ['\n'] ++ pkt.password ++ ['\n']
        ++ pkt.cumulocityId ++ ['\n'] ++ orNull pkt.creationdateTimestamp
        ++ ['\n'] ++ Lib.Base64.encode payload)

def DataPacket.getDeviceMessage (pkt : DataPacket) : JString :=
  pkt.password ++ ['\n'] ++ pkt.cumulocityId

/-! ## The newline search -/

theorem nextNewLineFrom_append {pre post : Bytes} (h : (10 : UInt8) ∉ pre)
    (i : Nat) :
    nextNewLineFrom i (pre ++ 10 :: post) = .ok ((i + pre.length : Nat) : Int) := by
  induction pre generalizing i with
  | nil => rfl
  | cons b pre ih =>
      have hb : b ≠ 10 := fun heq => h (by rw [heq]; exact List.mem_cons_self)
      have hpre : (10 : UInt8) ∉ pre := fun hm => h (List.mem_cons_of_mem _ hm)
      rw [List.cons_append, nextNewLineFrom, if_neg hb, if_neg (by simp),
        ih hpre, List.length_cons]
      congr 2
      omega

theorem nextNewLineFrom_none {data : Bytes} (h : (10 : UInt8) ∉ data)
    (hne : data ≠ []) (i : Nat) : nextNewLineFrom i data = .ok (-1) := by
  induction data generalizing i with
  | nil => exact absurd rfl hne
  | cons b data ih =>
      have hb : b ≠ 10 := fun heq => h (by rw [heq]; exact List.mem_cons_self)
      rw [nextNewLineFrom, if_neg hb]
      split
      · rfl
      · rename_i hdata
        exact ih (fun hm => h (List.mem_cons_of_mem _ hm)) hdata _

theorem nextNewLine_append {pre post : Bytes} (h : (10 : UInt8) ∉ pre) :
    nextNewLine (pre ++ 10 :: post) = .ok (pre.length : Int) := by
  rw [nextNewLine, nextNewLineFrom_append h, Nat.zero_add]

theorem nextNewLine_none {data : Bytes} (h : (10 : UInt8) ∉ data)
    (hne : data ≠ []) : nextNewLine data = .ok (-1) :=
  nextNewLineFrom_none h hne 0

theorem copyOfRange_field {pre post : Bytes} :
    copyOfRange (pre ++ 10 :: post) 0 pre.length = pre := by
  rw [copyOfRange, List.take_left, List.drop_zero]

theorem copyOfRange_rest {pre post : Bytes} :
    copyOfRange (pre ++ 10 :: post) (pre.length + 1)
      (pre ++ 10 :: post).length = post := by
  rw [copyOfRange, List.take_length, ← List.drop_drop, List.drop_left]
  rfl

end NbIot
