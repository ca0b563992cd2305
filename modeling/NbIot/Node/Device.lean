import NbIot.Lib.Buffer
import NbIot.Lib.Scan
import NbIot.Node.Eeprom

/-!
# `readResponse`

The modem answers in lines, and unsolicited codes come in between. One function
reads them all: it collects the codes into members of the device, passes over
echoed commands, stops at `OK` or an error, and hands any other line to the
parser of the command, once. A call is given the lines it gets to read, and
runs into the timeout when there are no more.

`_isSaraR4XX` is never written and the device is static, so it is false and the
branches for the other modem are left out. So is what goes to the debug stream.
-/

namespace NbIot

open Lib (Buffer)
open Lib.Scan (Directive bytes format scan textAt intAt)

inductive ResponseTypes where
  | notFound
  | ok
  | error
  | prompt
  | timeout
  | empty
  | pendingExtra
  deriving DecidableEq, Repr

/-- One turn of the loop: what `readLn` leaves in the buffer, what the local
array `CGSN` happens to hold, and whether the time is over afterwards. -/
structure LineRead where
  line : List UInt8
  cgsn : Nat → UInt8
  timedOut : Bool

/-- The C string in the buffer. -/
def LineRead.text (r : LineRead) : List UInt8 := cString r.line

/-- A line that is there in time, with an array that is all zero. -/
def LineRead.of (line : List UInt8) : LineRead := ⟨line, fun _ => 0, false⟩

/-- The members of `ATT_NBIOT` that the lines of the modem change. `_deviceId`
is a null pointer at first. -/
structure Device where
  receivedUDPResponseSocket : BitVec 16 := 0
  pendingUDPBytes : BitVec 16 := 0
  deviceId : Option CString := none

def startsWith (pre : String) (str : List UInt8) : Bool := (bytes pre).isPrefixOf str

def ufotas (buffer : List UInt8) : Bool :=
  (scan (format "+UFOTAS: %d,%d") buffer).length = 2

/-- Socket and length of a `+NSONMI` line. -/
def nsonmi (buffer : List UInt8) : Option (Int × Int) :=
  match scan (format "+NSONMI: %d,%d") buffer with
  | [.int param1, .int param2] => some (param1, param2)
  | _ => none

/-- The word that `sscanf(buffer, "+CGSN: %s", &CGSN)` stores. -/
def cgsnToken (buffer : List UInt8) : Option (List UInt8) :=
  textAt (scan (format "+CGSN: %s") buffer) 0

/-- The array after the scan, terminator included. -/
def scanCgsn (tok : List UInt8) (cells : Nat → UInt8) : Buffer :=
  Buffer.store { size := 15, cells } 0 (tok ++ [0])

/-- The input after it was read, and the static buffer. Every cell of the buffer
is written, so it does not matter what it held. -/
def getConst (input : Buffer) : Buffer × Buffer :=
  let copied := Buffer.copy input { size := 16, cells := fun _ => 0 } 15
  (copied.1, copied.2.set 15 0)

theorem cString_slice_fits (b : Buffer) : (cString (b.slice 16)).length + 1 < 16384 := by
  have hle := (List.takeWhile_prefix (l := b.slice 16)
    (fun b : UInt8 => decide (b ≠ 0))).length_le
  have hslice : (b.slice 16).length = 16 := by simp [Buffer.slice]
  rw [cString]
  omega

/-- The string in the static buffer of `getConst`. -/
def constString (inp : Buffer) : CString where
  bytes := cString (inp.slice 16)
  nul_free := nul_not_mem_cString _
  fits := cString_slice_fits inp

/-- What a line does to the device, before anything else is done with it. -/
def Device.collect (d : Device) (r : LineRead) : Device :=
  if ufotas r.text then d
  else
    match nsonmi r.text with
    | some (socketID, dataLength) =>
        { d with
          receivedUDPResponseSocket := BitVec.ofInt 16 socketID
          pendingUDPBytes := BitVec.ofInt 16 dataLength }
    | none =>
        match cgsnToken r.text with
        | some tok =>
            { d with deviceId := some (constString (getConst (scanCgsn tok r.cgsn)).2) }
        | none => d

inductive Turn where
  | next
  | done (response : ResponseTypes)
  | parse
  deriving DecidableEq, Repr

/-- Where a line that is not empty takes the loop. -/
def turn (buffer : List UInt8) : Turn :=
  if ufotas buffer then .next
  else if (nsonmi buffer).isSome then .next
  else if startsWith "AT" buffer then .next
  else if startsWith "OK" buffer then .done .ok
  else if startsWith "ERROR" buffer || startsWith "+CME ERROR:" buffer
      || startsWith "+CMS ERROR:" buffer then .done .error
  else .parse

/-- A parser gets the line, its length and its two parameters. None of those in
the source assigns the response it is passed. -/
abbrev ParserMethod (σ : Type) := List UInt8 → Nat → σ → ResponseTypes × σ

structure Response (σ : Type) where
  type : ResponseTypes
  device : Device
  params : σ
  /-- The lines that are left for the next call. -/
  rest : List LineRead

inductive Progress (σ : Type) where
  | done (type : ResponseTypes) (device : Device) (params : σ)
  | more (device : Device) (parserMethod : Option (ParserMethod σ)) (params : σ)

/-- The body of the loop. -/
def Device.readOne {σ : Type} (d : Device) (parserMethod : Option (ParserMethod σ))
    (params : σ) (r : LineRead) : Progress σ :=
  if r.line = [] then .more d parserMethod params
  else
    let d := d.collect r
    match turn r.text, parserMethod with
    | .next, _ => .more d parserMethod params
    | .done response, _ => .done response d params
    | .parse, none => .more d none params
    | .parse, some parser =>
        let (parserResponse, params) := parser r.text r.line.length params
        if parserResponse ≠ .empty ∧ parserResponse ≠ .pendingExtra then
          .done parserResponse d params
        else if parserResponse ≠ .pendingExtra then .more d none params
        else .more d parserMethod params

def Device.readResponse {σ : Type} (d : Device) (parserMethod : Option (ParserMethod σ))
    (params : σ) : List LineRead → Response σ
  | [] => ⟨.timeout, d, params, []⟩
  | r :: reads =>
      match d.readOne parserMethod params r with
      | .done type d params => ⟨type, d, params, reads⟩
      | .more d parserMethod params =>
          if r.timedOut then ⟨.timeout, d, params, reads⟩
          else d.readResponse parserMethod params reads

/-- `getIMEI`, by the lines the modem answers `AT+CGSN=1` with. -/
def Device.getIMEI (d : Device) (reads : List LineRead) : Bool × Device :=
  let response := d.readResponse none () reads
  (response.type = .ok, response.device)

/-! ## The kinds of lines -/

theorem format_ufotas : format "+UFOTAS: %d,%d" =
    (bytes "+UFOTAS:").map .lit ++ ([.space, .int, .lit 44, .int] : List Directive) := by
  decide

theorem format_nsonmi : format "+NSONMI: %d,%d" =
    (bytes "+NSONMI:").map .lit ++ ([.space, .int, .lit 44, .int] : List Directive) := by
  decide

theorem format_cgsn : format "+CGSN: %s" =
    (bytes "+CGSN:").map .lit ++ ([.space, .word] : List Directive) := by decide

theorem ufotas_false {buffer : List UInt8} (h : ¬ bytes "+UFOTAS:" <+: buffer) :
    ufotas buffer = false := by
  rw [ufotas, format_ufotas, Lib.Scan.scan_lits_of_not_prefix h]
  rfl

theorem nsonmi_none {buffer : List UInt8} (h : ¬ bytes "+NSONMI:" <+: buffer) :
    nsonmi buffer = none := by
  rw [nsonmi, format_nsonmi, Lib.Scan.scan_lits_of_not_prefix h]

theorem cgsnToken_none {buffer : List UInt8} (h : ¬ bytes "+CGSN:" <+: buffer) :
    cgsnToken buffer = none := by
  rw [cgsnToken, format_cgsn, Lib.Scan.scan_lits_of_not_prefix h]
  rfl

end NbIot
