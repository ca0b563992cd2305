import NbIot.Lib.Buffer
import NbIot.Lib.Scan
import NbIot.Lib.While
import NbIot.Node.Sdk

/-!
# `CborBuilder`

A buffer of fixed capacity that messages are written to, byte by byte for numbers and
block by block for texts. A write that does not fit is left out, and the next one is
tried. A `double` has four bytes on the board, and an `unsigned int` two: the sum of
an offset and a size wraps around.
-/

namespace NbIot

open Lib (Buffer)
open Lib.Scan (bytes)
open Lib.While (loop)

/-- An Arduino `String` in the 16 KB of RAM. -/
structure Text where
  bytes : List UInt8
  fits : bytes.length < 16384

structure CborBuilder where
  buffer : Buffer
  capacity : BitVec 16
  offset : BitVec 16

namespace CborBuilder

/-- What `new` returns is arbitrary. -/
def init (initialCapacity : BitVec 16) (cells : Nat → UInt8) : CborBuilder :=
  ⟨{ size := initialCapacity.toNat, cells }, initialCapacity, 0⟩

def reset (b : CborBuilder) : CborBuilder := { b with offset := 0 }

/-- `getData` and `getSize`. -/
def data (b : CborBuilder) : List UInt8 := b.buffer.slice b.offset.toNat

/-! ## Bytes -/

def putByte (value : UInt8) (b : CborBuilder) : CborBuilder :=
  if b.offset < b.capacity then
    { b with buffer := b.buffer.set b.offset.toNat value, offset := b.offset + 1 }
  else b

def putBytes (bytes : List UInt8) (b : CborBuilder) : CborBuilder :=
  let size := BitVec.ofNat 16 bytes.length
  if b.offset + size - 1 < b.capacity then
    { b with
      buffer := b.buffer.store b.offset.toNat (bytes.take size.toNat)
      offset := b.offset + size }
  else b

/-- Calls of `putByte`, one after the other. -/
def putEach (values : List UInt8) (b : CborBuilder) : CborBuilder :=
  values.foldl (fun b value => b.putByte value) b

/-! ## Types and values -/

/-- A word as the argument of `putByte`. -/
def byte {w : Nat} (value : BitVec w) : UInt8 := .ofBitVec (value.setWidth 8)

/-- `majorType | low`, with `majorType` shifted to its place. -/
def first (majorType low : UInt8) : UInt8 := (majorType <<< 5) ||| low

def writeTypeAndValue (majorType : UInt8) (value : BitVec 32) : CborBuilder → CborBuilder :=
  if value.toNat < 24 then putEach [first majorType (byte value)]
  else if value.toNat < 256 then putEach [first majorType 24, byte value]
  else if value.toNat < 65536 then
    putEach [first majorType 25, byte (value >>> 8), byte value]
  else
    putEach [first majorType 26, byte (value >>> 24), byte (value >>> 16),
      byte (value >>> 8), byte value]

/-- The overload for a `uint64_t`. -/
def writeTypeAndValue64 (majorType : UInt8) (value : BitVec 64) : CborBuilder → CborBuilder :=
  if value.toNat < 24 then putEach [first majorType (byte value)]
  else if value.toNat < 256 then putEach [first majorType 24, byte value]
  else if value.toNat < 65536 then putEach [first majorType 25, byte (value >>> 8)]
  else if value.toNat < 4294967296 then
    putEach [first majorType 26, byte (value >>> 24), byte (value >>> 16),
      byte (value >>> 8), byte value]
  else
    putEach [first majorType 27, byte (value >>> 56), byte (value >>> 48),
      byte (value >>> 40), byte (value >>> 32), byte (value >>> 24), byte (value >>> 16),
      byte (value >>> 8), byte value]

/-- `writeInt` of an `int`: the negation is done in 16 bits. -/
def writeInt (value : BitVec 16) : CborBuilder → CborBuilder :=
  if value.toInt < 0 then writeTypeAndValue 1 ((-(value + 1)).signExtend 32)
  else writeTypeAndValue 0 (value.signExtend 32)

def writeString (str : List UInt8) (b : CborBuilder) : CborBuilder :=
  (b.writeTypeAndValue 3 ((BitVec.ofNat 16 str.length).setWidth 32)).putBytes str

def map (size : BitVec 16) : CborBuilder → CborBuilder := writeTypeAndValue 5 (size.setWidth 32)

def writeSpecial (special : BitVec 32) : CborBuilder → CborBuilder := writeTypeAndValue 7 special

/-- The private `addNumber`: the bytes of the number, the last one first. -/
def writeNumber (value : BitVec 32) : CborBuilder → CborBuilder :=
  putEach [0xFA, byte (value >>> 24), byte (value >>> 16), byte (value >>> 8), byte value]

/-! ## Assets -/

def addBoolean (value : Bool) (asset : Text) (b : CborBuilder) : CborBuilder :=
  if value then (b.writeString asset.bytes).writeSpecial 21
  else (b.writeString asset.bytes).writeSpecial 20

def addInteger (value : BitVec 16) (asset : Text) (b : CborBuilder) : CborBuilder :=
  (b.writeString asset.bytes).writeInt value

def addNumber (value : BitVec 32) (asset : Text) (b : CborBuilder) : CborBuilder :=
  (b.writeString asset.bytes).writeNumber value

def addString (value asset : Text) (b : CborBuilder) : CborBuilder :=
  (b.writeString asset.bytes).writeString value.bytes

def addGPS (latitude longitude altitude : BitVec 32) (asset : Text) (b : CborBuilder) :
    CborBuilder :=
  let b := (b.writeString asset.bytes).map 3
  let b := (b.writeString (bytes "latitude")).writeNumber latitude
  let b := (b.writeString (bytes "longitude")).writeNumber longitude
  (b.writeString (bytes "altitude")).writeNumber altitude

end CborBuilder

/-- A value that is added for an asset. -/
inductive Entry where
  | boolean (value : Bool) (asset : Text)
  | integer (value : BitVec 16) (asset : Text)
  | number (value : BitVec 32) (asset : Text)
  | string (value asset : Text)
  | gps (latitude longitude altitude : BitVec 32) (asset : Text)

def Entry.add : Entry → CborBuilder → CborBuilder
  | boolean value asset => .addBoolean value asset
  | integer value asset => .addInteger value asset
  | number value asset => .addNumber value asset
  | string value asset => .addString value asset
  | gps latitude longitude altitude asset => .addGPS latitude longitude altitude asset

/-- `reset`, `map` with the number of datapoints, and the datapoints. -/
def CborBuilder.message (entries : List Entry) (b : CborBuilder) : CborBuilder :=
  entries.foldl (fun b entry => entry.add b) (b.reset.map (BitVec.ofNat 16 entries.length))

/-! ## `sendCbor` -/

/-- The loop over the data: its index, and what is printed. -/
structure HexLoop where
  i : UInt8 := 0
  text : List Char := []
  data : Buffer

/-- The index is an `unsigned char`, and the size an `unsigned int`. -/
def printCbor (size : BitVec 16) (fuel : Nat) (data : Buffer) : Option HexLoop :=
  loop (fun l => decide (l.i.toNat < size.toNat))
    (fun l =>
      let value := l.data.get l.i.toNat
      { i := l.i + 1
        text := l.text ++
          [hexTable.getD (value.toNat / 16) ' ', hexTable.getD (value.toNat % 16) ' ']
        data := l.data.touch l.i.toNat })
    fuel { data }

def sendCbor (udp port : List Char) (deviceId deviceToken : CString) (data : Buffer)
    (size : BitVec 16) (fuel : Nat) : Option Nsost :=
  let lng : BitVec 16 := BitVec.ofNat 16 (deviceId.strlen + deviceToken.strlen + 2)
  let buf := credentialsText deviceId deviceToken
  (printCbor size fuel data).map fun l =>
    { udp, port
      length := (lng + size).toNat
      data :=
        (buf.take lng.toNat).flatMap
            (fun c => [nibbleToHexChar (highNibble c), nibbleToHexChar (lowNibble c)])
          ++ l.text }

def CborBuilder.send (udp port : List Char) (deviceId deviceToken : CString)
    (b : CborBuilder) (fuel : Nat) : Option Nsost :=
  sendCbor udp port deviceId deviceToken b.buffer b.offset fuel

end NbIot
