import NbIot.Lib.Buffer
import NbIot.Node.Sdk

/-!
# `PayloadBuilder`

Values one behind the other in a buffer of at most 255 bytes, as they are in memory:
the lowest byte first. A value that does not fit is left out as a whole, and the
answer is zero. `send` copies the payload to an array of 51 bytes first.
-/

namespace NbIot

open Lib (Buffer)

structure PayloadBuilder where
  buffer : Buffer
  maxsize : UInt8
  cursor : UInt8
  sendBuffer : Buffer

/-- `(byte*) &value`: the first `k` bytes of a word. -/
def inMemory (k : Nat) {w : Nat} (value : BitVec w) : List UInt8 :=
  (List.range k).map fun i => .ofBitVec ((value >>> (8 * i)).setWidth 8)

namespace PayloadBuilder

/-- What `malloc` returns, and what the array holds, is arbitrary. -/
def init (size : UInt8) (cells sendCells : Nat → UInt8) : PayloadBuilder :=
  ⟨{ size := size.toNat, cells }, size, 0, { size := 51, cells := sendCells }⟩

def reset (p : PayloadBuilder) : PayloadBuilder := { p with cursor := 0 }

/-- `getBuffer` and `getSize`; `copy` copies the same. -/
def data (p : PayloadBuilder) : List UInt8 := p.buffer.slice p.cursor.toNat

/-- The check and the stores of all functions that add a value. -/
def append (bs : List UInt8) (p : PayloadBuilder) : UInt8 × PayloadBuilder :=
  if p.maxsize.toNat < p.cursor.toNat + bs.length then (0, p)
  else
    let cursor := p.cursor + .ofNat bs.length
    (cursor, { p with buffer := p.buffer.store p.cursor.toNat bs, cursor })

def addBoolean (value : UInt8) : PayloadBuilder → UInt8 × PayloadBuilder := append [value]

def addInteger (value : BitVec 16) : PayloadBuilder → UInt8 × PayloadBuilder :=
  append (inMemory 2 value)

def addNumber (value : BitVec 32) : PayloadBuilder → UInt8 × PayloadBuilder :=
  append (inMemory 4 value)

def addGPS (latitude longitude altitude : BitVec 32) :
    PayloadBuilder → UInt8 × PayloadBuilder :=
  append (inMemory 4 latitude ++ (inMemory 4 longitude ++ inMemory 4 altitude))

def addAccelerometer (x y z : BitVec 32) : PayloadBuilder → UInt8 × PayloadBuilder :=
  append (inMemory 4 x ++ (inMemory 4 y ++ inMemory 4 z))

/-- `send` without arguments. -/
def send (udp port : List Char) (deviceId deviceToken : CString) (p : PayloadBuilder) :
    Nsost × PayloadBuilder :=
  let sendBuffer := p.sendBuffer.store 0 p.data
  (sendPayload udp port deviceId deviceToken (sendBuffer.slice p.cursor.toNat) p.cursor,
    { p with sendBuffer })

end PayloadBuilder

inductive Value where
  | boolean (value : UInt8)
  | integer (value : BitVec 16)
  | number (value : BitVec 32)
  | gps (latitude longitude altitude : BitVec 32)
  | accelerometer (x y z : BitVec 32)
  deriving DecidableEq

def Value.add : Value → PayloadBuilder → UInt8 × PayloadBuilder
  | boolean value => PayloadBuilder.addBoolean value
  | integer value => PayloadBuilder.addInteger value
  | number value => PayloadBuilder.addNumber value
  | gps latitude longitude altitude => PayloadBuilder.addGPS latitude longitude altitude
  | accelerometer x y z => PayloadBuilder.addAccelerometer x y z

/-- `reset`, and the values one after the other. -/
def PayloadBuilder.payload (values : List Value) (p : PayloadBuilder) : PayloadBuilder :=
  values.foldl (fun p value => (value.add p).2) p.reset

end NbIot
