import NbIot.Lib.Digits

/-!
# `sendPayload`

The frame is written as hexadecimal text by two loops that spell a nibble
differently: the credentials through a macro, the payload through a table.
Both spell a byte as `hexByte` does, so the text is that of one byte string,
`frame`. The length is computed in 16 bits, as an `int` is on the board.
-/

namespace NbIot

/-- What a `char *` into the 16 KB of RAM points at, up to the terminator. -/
@[ext] structure CString where
  bytes : List UInt8
  nul_free : (0 : UInt8) ∉ bytes
  fits : bytes.length + 1 < 16384
  deriving DecidableEq

namespace CString

def empty : CString := ⟨[], List.not_mem_nil, by decide⟩

def strlen (s : CString) : Nat := s.bytes.length

end CString

/-- An `AT+NSOST` command, by the arguments it is printed with. -/
structure Nsost where
  udp : List Char
  port : List Char
  length : Int
  data : List Char
  deriving DecidableEq, Repr

def highNibble (i : UInt8) : Nat := (i >>> 4 &&& 0x0F).toNat

def lowNibble (i : UInt8) : Nat := (i &&& 0x0F).toNat

def nibbleToHexChar (i : Nat) : Char :=
  if i ≤ 9 then Char.ofNat ('0'.toNat + i) else Char.ofNat ('A'.toNat - 10 + i)

def hexTable : List Char :=
  ['0', '1', '2', '3', '4', '5', '6', '7', '8', '9', 'A', 'B', 'C', 'D', 'E', 'F']

/-- `sprintf(buf, "%s\n%s\n", _deviceId, _deviceToken)`. -/
def credentialsText (deviceId deviceToken : CString) : List UInt8 :=
  deviceId.bytes ++ 10 :: (deviceToken.bytes ++ [10])

def sendPayload (udp port : List Char) (deviceId deviceToken : CString)
    (packet : List UInt8) (size : UInt8) : Nsost :=
  let lng : BitVec 16 :=
    BitVec.ofNat 16 (deviceId.strlen + deviceToken.strlen + 2)
  let buf := credentialsText deviceId deviceToken
  { udp, port
    length := (lng + size.toBitVec.setWidth 16).toInt
    data :=
      (buf.take lng.toNat).flatMap
          (fun c => [nibbleToHexChar (highNibble c), nibbleToHexChar (lowNibble c)])
        ++ (packet.take size.toNat).flatMap
          (fun b => [hexTable.getD (b.toNat / 16) ' ', hexTable.getD (b.toNat % 16) ' ']) }

/-- The bytes the command asks the modem to send. -/
def frame (deviceId deviceToken : CString) (packet : List UInt8) : List UInt8 :=
  deviceId.bytes ++ 10 :: (deviceToken.bytes ++ 10 :: packet)

open Lib.Digits

theorem nibbleToHexChar_eq (c : UInt8) :
    [nibbleToHexChar (highNibble c), nibbleToHexChar (lowNibble c)] = hexByte c := by
  have hall : ∀ c : BitVec 8,
      [nibbleToHexChar (highNibble ⟨c⟩), nibbleToHexChar (lowNibble ⟨c⟩)] =
        hexByte ⟨c⟩ := by decide +kernel
  exact hall c.toBitVec

theorem hexTable_eq (b : UInt8) :
    [hexTable.getD (b.toNat / 16) ' ', hexTable.getD (b.toNat % 16) ' '] =
      hexByte b := by
  have htable : ∀ n : Fin 16, hexTable.getD n ' ' = hexDigit n := by decide
  have hb := b.toNat_lt
  rw [hexByte, ← htable ⟨b.toNat / 16, by omega⟩,
    ← htable ⟨b.toNat % 16, by omega⟩]

theorem sendPayload_data (udp port : List Char) (deviceId deviceToken : CString)
    {packet : List UInt8} {size : UInt8} (hsize : size.toNat = packet.length) :
    unhex (sendPayload udp port deviceId deviceToken packet size).data =
      some (frame deviceId deviceToken packet) := by
  have hi := deviceId.fits
  have ht := deviceToken.fits
  have htake : (credentialsText deviceId deviceToken).take
      (BitVec.ofNat 16 (deviceId.strlen + deviceToken.strlen + 2)).toNat =
        credentialsText deviceId deviceToken := by
    refine List.take_of_length_le ?_
    simp only [credentialsText, CString.strlen, BitVec.toNat_ofNat,
      List.length_append, List.length_cons, List.length_nil]
    omega
  simp only [sendPayload, htake, nibbleToHexChar_eq, hexTable_eq, hsize,
    List.take_length, ← List.flatMap_append, unhex_hexBytes]
  simp [credentialsText, frame]

/-- The printed length is the length of the frame, within the modem's limit. -/
theorem sendPayload_length (udp port : List Char)
    (deviceId deviceToken : CString) {packet : List UInt8} {size : UInt8}
    (hsize : size.toNat = packet.length)
    (hmodem : (frame deviceId deviceToken packet).length ≤ 512) :
    (sendPayload udp port deviceId deviceToken packet size).length =
      (frame deviceId deviceToken packet).length := by
  have hframe : (frame deviceId deviceToken packet).length =
      deviceId.strlen + deviceToken.strlen + 2 + packet.length := by
    simp only [frame, CString.strlen, List.length_append, List.length_cons]
    omega
  rw [hframe] at hmodem ⊢
  simp only [sendPayload]
  rw [BitVec.toInt_eq_toNat_bmod, BitVec.toNat_add, BitVec.toNat_setWidth,
    BitVec.toNat_ofNat]
  have hbyte : size.toBitVec.toNat = packet.length := hsize
  rw [hbyte, Int.bmod_def]
  omega

end NbIot
