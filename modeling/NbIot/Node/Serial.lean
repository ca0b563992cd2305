import NbIot.Lib.Clock
import NbIot.Node.Sketch

/-!
# The serial port

The lines of the modem come in over a serial port, one character at a time. A
character is waited for by polling, for 250 ms at most; a line ends in a line
feed, in a wait that was in vain, or where the input buffer is full; and a
response is read line by line until its time is over.

The buffer keeps a log of the indices that are touched, because `readLn` looks
at the character before the end of what it read, and there is none if it read
nothing. A `size_t` has 16 bits, and so has the index `len - 1`.
-/

namespace NbIot

open Lib (Buffer)

/-- One poll: what `read()` finds, and how long it takes. -/
structure Poll where
  char : Option UInt8
  took : Nat

/-- The port at a time since boot, and the polls that are to come. When there are
no more the modem stays silent. -/
structure Port where
  now : Nat
  polls : List Poll

namespace Port

def delay (port : Port) (ms : Nat) : Port := { port with now := port.now + ms }

/-- The loop of `timedRead`. -/
def poll (start timeout : Nat) : Nat → List Poll → Option UInt8 × Port
  | now, [] => (none, ⟨max now (start + timeout), []⟩)
  | now, p :: polls =>
      match p.char with
      | some c => (some c, ⟨now + p.took, polls⟩)
      | none =>
          if (millis (now + p.took) - millis start).toNat < timeout then
            poll start timeout (now + p.took) polls
          else (none, ⟨now + p.took, polls⟩)

def timedRead (port : Port) (timeout : Nat) : Option UInt8 × Port :=
  poll port.now timeout port.now port.polls

end Port

/-- What a read leaves: how many characters it says it read, the buffer, and the
port. -/
structure ReadChars where
  len : Nat
  buffer : Buffer
  port : Port

namespace Port

/-- The loop of `readBytesUntil`, with room for `left` more characters. -/
def fill (terminator : UInt8) (timeout : Nat) : Nat → Nat → Buffer → Port → ReadChars
  | 0, index, buffer, port => ⟨index, buffer, port⟩
  | left + 1, index, buffer, port =>
      match port.timedRead timeout with
      | (none, port) => ⟨index, buffer, port⟩
      | (some c, port) =>
          if c = terminator then ⟨index, buffer, port⟩
          else fill terminator timeout left (index + 1) (buffer.set index c) port

def readBytesUntil (port : Port) (terminator : UInt8) (buffer : Buffer)
    (length timeout : Nat) : ReadChars :=
  if length < 1 then ⟨0, buffer, port⟩
  else
    let read := fill terminator timeout length 0 buffer port
    if read.len < length then { read with buffer := read.buffer.set read.len 0 } else read

/-- `len - 1`, as a `size_t`. -/
def before (len : Nat) : Nat := (len + 65535) % 65536

def readLn (port : Port) (buffer : Buffer) (size timeout : Nat) : ReadChars :=
  let read := port.readBytesUntil 10 buffer (size - 1) timeout
  let len := if read.buffer.get (before read.len) = 13 then before read.len else read.len
  { len
    buffer := (read.buffer.touch (before read.len)).set len 0
    port := read.port }

end Port

/-- `_inputBufferSize`. -/
def inputBufferSize : Nat := 250

/-- The line, if `count`, an `int`, is positive. -/
def ReadChars.line (read : ReadChars) : List UInt8 :=
  if 0 < (BitVec.ofNat 16 read.len).toInt then read.buffer.slice read.len else []

/-- A line that is passed over with `continue` skips the delay. -/
def ReadChars.pause (read : ReadChars) : Nat :=
  if read.line ≠ [] ∧ turn (cString read.line) = .next then 0 else 10

/-- The line as a turn of `readResponse` finds it, which was called at `start`. -/
def ReadChars.lineRead (read : ReadChars) (start timeout : Nat) (cgsn : Nat → UInt8) :
    LineRead where
  line := read.line
  cgsn
  timedOut := decide (timeout < (millis (read.port.now + read.pause) - millis start).toNat)

/-- A response, and where it leaves the input buffer and the port. -/
structure PortResponse (σ : Type) where
  type : ResponseTypes
  device : Device
  params : σ
  buffer : Buffer
  port : Port

/-- The loop of `readResponse` over the port. What the local array holds before a
turn is arbitrary. -/
def Device.listen {σ : Type} (start timeout : Nat) :
    Nat → (Nat → Nat → UInt8) → Device → Option (ParserMethod σ) → σ → Buffer → Port →
      PortResponse σ
  | 0, _, d, _, params, buffer, port => ⟨.timeout, d, params, buffer, port⟩
  | fuel + 1, cgsn, d, parserMethod, params, buffer, port =>
      let read := port.readLn buffer inputBufferSize 250
      let r := read.lineRead start timeout (cgsn 0)
      match d.readOne parserMethod params r with
      | .done type d params => ⟨type, d, params, read.buffer, read.port⟩
      | .more d parserMethod params =>
          let port := read.port.delay read.pause
          if r.timedOut then ⟨.timeout, d, params, read.buffer, port⟩
          else
            listen start timeout fuel (fun k => cgsn (k + 1)) d parserMethod params
              read.buffer port

/-- Turns that are enough: one for every poll, and those of a silent modem. -/
def Port.turns (port : Port) (timeout : Nat) : Nat := port.polls.length + timeout / 260 + 2

/-- `readResponse`, from the port. -/
def Device.readPort {σ : Type} (d : Device) (parserMethod : Option (ParserMethod σ))
    (params : σ) (timeout : Nat) (cgsn : Nat → Nat → UInt8) (buffer : Buffer)
    (port : Port) : PortResponse σ :=
  listen port.now timeout (port.turns timeout) cgsn d parserMethod params buffer port

/-- The lines of the port, turn by turn. -/
def Port.lineReads (start timeout : Nat) :
    Nat → (Nat → Nat → UInt8) → Buffer → Port → List LineRead
  | 0, _, _, _ => []
  | fuel + 1, cgsn, buffer, port =>
      let read := port.readLn buffer inputBufferSize 250
      read.lineRead start timeout (cgsn 0) ::
        lineReads start timeout fuel (fun k => cgsn (k + 1)) read.buffer
          (read.port.delay read.pause)

/-- What the caller gets of a response. -/
def Response.outcome {σ : Type} (r : Response σ) : ResponseTypes × Device × σ :=
  (r.type, r.device, r.params)

def PortResponse.outcome {σ : Type} (r : PortResponse σ) : ResponseTypes × Device × σ :=
  (r.type, r.device, r.params)

/-- A response from the port is the response to the lines of the port. -/
theorem Device.listen_outcome {σ : Type} (start timeout fuel : Nat)
    (cgsn : Nat → Nat → UInt8) (d : Device) (parserMethod : Option (ParserMethod σ))
    (params : σ) (buffer : Buffer) (port : Port) :
    (listen start timeout fuel cgsn d parserMethod params buffer port).outcome =
      (d.readResponse parserMethod params
        (port.lineReads start timeout fuel cgsn buffer)).outcome := by
  induction fuel generalizing cgsn d parserMethod params buffer port with
  | zero => rfl
  | succ fuel ih =>
      rw [listen.eq_2, Port.lineReads, readResponse]
      simp only []
      cases d.readOne parserMethod params
          ((port.readLn buffer inputBufferSize 250).lineRead start timeout (cgsn 0)) with
      | done type d params => rfl
      | more d parserMethod params =>
          simp only []
          split
          · rfl
          · exact ih _ d parserMethod params _ _

end NbIot
