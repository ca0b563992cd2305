import NbIot.Lib.Words
import NbIot.Node.Device

/-!
# Reading a datagram from the modem

`socketReceive` asks for at most as many bytes as are pending, has the answer
parsed into the metadata and the text buffer it is given, and takes the length
it finds in the metadata off the pending count. Both are locals of the callers
and not initialised, and an answer of `OK` alone leaves them as they were.
-/

namespace NbIot

open Lib (Buffer)
open Lib.Scan (format scan textAt intAt)

/-- `ip` is the C string the array holds. -/
structure SaraN2UDPPacketMetadata where
  socketID : UInt8
  ip : List UInt8
  port : BitVec 16
  length : BitVec 16
  remainingLength : BitVec 16
  deriving DecidableEq

/-- What the scan leaves in the destinations; those after the last conversion
keep what they held. The socket is not among them. -/
def storeAnswer (values : List Lib.Scan.Value)
    (params : SaraN2UDPPacketMetadata × Buffer) : SaraN2UDPPacketMetadata × Buffer :=
  let (packet, data) := params
  let int (i : Nat) (old : BitVec 16) : BitVec 16 := ((intAt values i).map (.ofInt 16)).getD old
  ({ packet with
      ip := (textAt values 1).getD packet.ip
      port := int 2 packet.port
      length := int 3 packet.length
      remainingLength := int 5 packet.remainingLength },
    match textAt values 4 with
    | some hex => data.store 0 (hex ++ [0])
    | none => data)

/-- The end of both branches: a socket that fits a byte is stored. -/
def storeSocket (values : List Lib.Scan.Value)
    (params : SaraN2UDPPacketMetadata × Buffer) :
    ResponseTypes × SaraN2UDPPacketMetadata × Buffer :=
  let socketID : BitVec 16 := ((intAt values 0).map (.ofInt 16)).getD 0
  if socketID.toInt ≤ 255 then
    (.empty, { params.1 with socketID := .ofBitVec (socketID.setWidth 8) }, params.2)
  else (.error, params)

/-- `_udpReadSocketParser`. -/
def udpReadSocketParser (buffer : List UInt8) (size : Nat)
    (params : SaraN2UDPPacketMetadata × Buffer) :
    ResponseTypes × SaraN2UDPPacketMetadata × Buffer :=
  if size = 1 ∧ buffer.head? = some 13 then (.pendingExtra, params)
  else
    let values := scan (format "%d,\"%[^\"]\",%d,%d,\"%[^\"]\",%d") buffer
    let params := storeAnswer values params
    if values.length = 6 then storeSocket values params
    else
      let values := scan (format "+USORF: %d,\"%[^\"]\",%d,%d,\"%[^\"]\"") buffer
      let params := storeAnswer values params
      if values.length = 5 then storeSocket values params
      else (.error, params)

/-- An `AT+NSORF` command, by the arguments it is printed with. -/
structure Nsorf where
  socket : BitVec 16
  readSize : BitVec 16
  deriving DecidableEq, Repr

/-- What a read asks for and returns, with the device and the two destinations
after it. -/
structure Received where
  command : Option Nsorf
  size : BitVec 16
  device : Device
  packet : SaraN2UDPPacketMetadata
  buffer : Buffer

/-- The macro `min`, on sizes. -/
def minSize (a b : BitVec 16) : BitVec 16 := if a.toNat < b.toNat then a else b

theorem minSize_le (a b : BitVec 16) :
    (minSize a b).toNat ≤ a.toNat ∧ (minSize a b).toNat ≤ b.toNat := by
  unfold minSize
  split <;> omega

/-- `socketReceive`, by the lines it reads after the command. -/
def Device.socketReceive (d : Device) (packet : SaraN2UDPPacketMetadata) (buffer : Buffer)
    (size : BitVec 16) (reads : List LineRead) : Received :=
  if d.pendingUDPBytes = 0 then ⟨none, 0, d, packet, buffer⟩
  else
    let command := ⟨d.receivedUDPResponseSocket, minSize size d.pendingUDPBytes⟩
    let response := d.readResponse (some udpReadSocketParser) (packet, buffer) reads
    let (packet, buffer) := response.params
    if response.type = .ok then
      let device := { response.device with
        pendingUDPBytes := response.device.pendingUDPBytes - packet.length }
      ⟨some command, packet.length, device, packet, buffer⟩
    else ⟨some command, 0, response.device, packet, buffer⟩

/-- `HEX_CHAR_TO_NIBBLE`. -/
def hexCharToNibble (c : UInt8) : Int :=
  let c := Lib.Words.signed c
  if 65 ≤ c then c - 65 + 10 else c - 48

/-- `HEX_PAIR_TO_BYTE`, stored into a byte. -/
def hexPairToByte (h l : UInt8) : UInt8 :=
  .ofBitVec (BitVec.ofInt 8 (hexCharToNibble h * 16 + hexCharToNibble l))

/-- The bytes the loop of `socketReceiveBytes` stores, for a text of `n` pairs. -/
def hexToBytes (tempBuffer : Buffer) (n : Nat) : List UInt8 :=
  (List.range n).map fun k =>
    hexPairToByte (tempBuffer.get (2 * k)) (tempBuffer.get (2 * k + 1))

/-- `socketReceiveBytes`, where the local array holds what `tempBuffer` says. The
bound of its loop is a `size_t`. -/
def Device.socketReceiveBytes (d : Device) (buffer : Buffer) (length : BitVec 16)
    (p : SaraN2UDPPacketMetadata) (tempBuffer : Nat → UInt8) (reads : List LineRead) :
    Received :=
  let size := minSize length (minSize 256 d.pendingUDPBytes)
  let received := d.socketReceive p { size := 256, cells := tempBuffer } size reads
  if 0 < length.toNat then
    { received with
      buffer := buffer.store 0 (hexToBytes received.buffer ((received.size * 2#16).toNat / 2)) }
  else { received with buffer }

end NbIot
