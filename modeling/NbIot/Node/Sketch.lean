import NbIot.Lib.While
import NbIot.Node.Modem
import NbIot.Node.Packet

/-!
# `loop`

A pass that is due first sees to a reply: it reads as many bytes as the modem
announced into a local array, and copies the whole array into the password,
one by one. Then it sends a reading, reads the answer of the modem, and sets the
time of the next pass that is due.

The index of the copying loop is a `byte` and its bound an `int`, so the loop
may run forever, and so may the pass. Two hundred and fifty-six turns decide
which it is (`copying_ends`, `copying_runs_on`).
-/

namespace NbIot

open Lib (Buffer)
open Lib.Scan (bytes)

def server : String := "3.120.251.198"

def port : String := "8888"

/-- `millis()` at a time since boot: an `unsigned long` of 32 bits. -/
def millis (t : Nat) : BitVec 32 := BitVec.ofNat 32 t

/-- What the locals of a pass happen to hold before they are written. -/
structure Locals where
  data : Nat → UInt8
  p : SaraN2UDPPacketMetadata
  tempBuffer : Nat → UInt8

/-- Everything a call of `loop` finds: the time, the locals, the lines that are
read for a reply, the sensors, the lines that are read after sending, and how
long it all takes. -/
structure Pass where
  now : Nat
  locals : Locals
  replyReads : List LineRead
  sample : Sample
  sendReads : List LineRead
  took : Nat

structure Sketch where
  node : Node
  device : Device
  sendNextAt : BitVec 32 := 0

/-- The copying loop between two turns. -/
structure Copying where
  i : UInt8 := 0
  passw : List UInt8 := []
  data : Buffer

/-- `i < amountbytes`, a `byte` against an `int`. -/
def Copying.more (amountbytes : BitVec 16) (c : Copying) : Bool :=
  (c.i.toNat : Int) < amountbytes.toInt

/-- `passw = passw + String((char)data[i])` and `i++`. -/
def Copying.next (c : Copying) : Copying where
  i := c.i + 1
  passw := c.passw ++ Node.replyString [c.data.get c.i.toNat]
  data := c.data.touch c.i.toNat

def copying (amountbytes : BitVec 16) (fuel : Nat) (data : Buffer) : Option Copying :=
  Lib.While.loop (Copying.more amountbytes) Copying.next fuel { data }

/-- What the handling of a reply leaves, and the argument of `writePW` if it is
called. -/
structure Replied where
  node : Node
  device : Device
  written : Option (List UInt8)

structure Looped where
  sketch : Sketch
  written : Option (List UInt8)
  sent : Option Nsost

namespace Sketch

/-- `sendNextAt < millis()`. -/
def due (s : Sketch) (now : Nat) : Bool := s.sendNextAt.toNat < (millis now).toNat

/-- `getPendingUDPBytes()`, as an `int`. -/
def amountbytes (s : Sketch) : BitVec 16 := s.device.pendingUDPBytes

/-- `socketReceiveBytes(data, amountbytes, &p)`. -/
def received (s : Sketch) (p : Pass) : Received :=
  s.device.socketReceiveBytes { size := s.amountbytes.toNat, cells := p.locals.data }
    s.amountbytes p.locals.p p.locals.tempBuffer p.replyReads

/-- `size && String(p.ip) == String(server)`. -/
def fromServer (received : Received) : Prop :=
  received.size ≠ 0 ∧ received.packet.ip = bytes server

instance (received : Received) : Decidable (fromServer received) :=
  inferInstanceAs (Decidable (_ ∧ _))

/-- From `check for incoming data` on. There is no result where the copying loop
has no end. -/
def handleReply (s : Sketch) (p : Pass) : Option Replied :=
  if 0 < s.amountbytes.toInt then
    let received := s.received p
    if fromServer received then do
      let copied ← copying s.amountbytes 256 received.buffer
      let eeprom := writePW s.node.eeprom copied.passw
      return ⟨⟨eeprom, storedToken eeprom⟩, received.device, some copied.passw⟩
    else some ⟨s.node, received.device, none⟩
  else some ⟨s.node, s.device, none⟩

/-- `loop`. Nothing is said of what is sent while the device id is a null
pointer. -/
def loop (s : Sketch) (p : Pass) : Option Looped :=
  if s.due p.now then do
    let replied ← s.handleReply p
    let sent := replied.device.deviceId.map fun deviceId =>
      sendPayload server.toList port.toList deviceId replied.node.deviceToken (pack p.sample) 14
    let response := replied.device.readResponse none () p.sendReads
    return {
      sketch :=
        { node := replied.node
          device := response.device
          sendNextAt := millis (p.now + p.took) + 10000#32 }
      written := replied.written
      sent }
  else some ⟨s, none, none⟩

def step (s : Sketch) (p : Pass) : Option Sketch := (s.loop p).map (·.sketch)

end Sketch

/-- What a pass can do. -/
theorem Sketch.loop_cases {s : Sketch} {p : Pass} {l : Looped} (h : s.loop p = some l) :
    (s.due p.now = false ∧ l = ⟨s, none, none⟩) ∨
      (s.due p.now = true ∧ ∃ replied, s.handleReply p = some replied ∧
        l.written = replied.written ∧ l.sketch.node = replied.node ∧
        l.sketch.device = (replied.device.readResponse none () p.sendReads).device ∧
        l.sketch.sendNextAt = millis (p.now + p.took) + 10000#32) := by
  rw [loop] at h
  split at h
  · rename_i hdue
    obtain ⟨replied, hreplied, hl⟩ := Option.bind_eq_some_iff.mp h
    injection hl with hl
    rw [← hl]
    exact Or.inr ⟨hdue, replied, hreplied, rfl, rfl, rfl, rfl⟩
  · rename_i hdue
    injection h with h
    exact Or.inl ⟨Bool.eq_false_iff.mpr hdue, h.symm⟩

/-! ## The copying loop -/

/-- After `i` turns the first `i` cells were read, each once and in order. -/
structure Copied (data : Buffer) (c : Copying) : Prop where
  passw : c.passw = Node.replyString (data.slice c.i.toNat)
  size : c.data.size = data.size
  cells : c.data.cells = data.cells
  reads : c.data.reads = data.reads ++ List.range c.i.toNat
  writes : c.data.writes = data.writes

theorem Copied.start (data : Buffer) : Copied data { data } :=
  ⟨rfl, rfl, rfl, (List.append_nil _).symm, rfl⟩

theorem Copied.next {data : Buffer} {c : Copying} (h : Copied data c)
    (hi : c.i.toNat + 1 < 256) :
    Copied data c.next ∧ c.next.i.toNat = c.i.toNat + 1 := by
  have hnext : c.next.i.toNat = c.i.toNat + 1 := by
    show (c.i + 1).toNat = c.i.toNat + 1
    rw [UInt8.toNat_add]
    exact Nat.mod_eq_of_lt hi
  refine ⟨⟨?_, h.size, h.cells, ?_, h.writes⟩, hnext⟩
  · have hcell : c.data.get c.i.toNat = data.cells c.i.toNat := congrFun h.cells _
    rw [hnext, Buffer.slice_succ, Node.replyString, List.filter_append]
    show c.passw ++ Node.replyString [c.data.get c.i.toNat] = _
    rw [h.passw, hcell]
    rfl
  · rw [hnext, List.range_succ, ← List.append_assoc, ← h.reads]
    rfl

theorem toInt_of_pos {b : BitVec 16} (h : 0 < b.toInt) : b.toInt = b.toNat := by
  rw [BitVec.toInt_eq_toNat_cond] at h ⊢
  split at h
  · rename_i hlt
    exact if_pos hlt
  · omega

/-- A bound that a `byte` can reach is reached. -/
theorem copying_ends {amountbytes : BitVec 16} (hpos : 0 < amountbytes.toInt)
    (hbyte : amountbytes.toNat ≤ 255) (data : Buffer) :
    ∃ c, copying amountbytes 256 data = some c ∧ Copied data c ∧
      c.i.toNat = amountbytes.toNat := by
  have hint := toInt_of_pos hpos
  have hbody : ∀ c : Copying, Copied data c ∧ c.i.toNat ≤ amountbytes.toNat →
      c.more amountbytes = true →
        (Copied data c.next ∧ c.next.i.toNat ≤ amountbytes.toNat) ∧
          255 - c.next.i.toNat < 255 - c.i.toNat := by
    intro c ⟨hc, _⟩ hmore
    have hlt : (c.i.toNat : Int) < amountbytes.toInt := of_decide_eq_true hmore
    obtain ⟨hnext, hi⟩ := hc.next (by omega)
    exact ⟨⟨hnext, by omega⟩, by omega⟩
  have hstart : Copied data { data } ∧ (0 : UInt8).toNat ≤ amountbytes.toNat :=
    ⟨.start data, Nat.zero_le _⟩
  obtain ⟨c, hc⟩ := Lib.While.loop_ends
    (fun c => Copied data c ∧ c.i.toNat ≤ amountbytes.toNat) (fun c => 255 - c.i.toNat)
    hbody hstart (show 255 - 0 < 256 by decide)
  obtain ⟨⟨hcopied, hle⟩, hdone⟩ := Lib.While.loop_invariant
    (fun c hinv hmore => (hbody c hinv hmore).1) hstart hc
  have hge : ¬ (c.i.toNat : Int) < amountbytes.toInt := of_decide_eq_false hdone
  exact ⟨c, hc, hcopied, by omega⟩

/-- A larger one never is. -/
theorem copying_runs_on {amountbytes : BitVec 16} (hpos : 0 < amountbytes.toInt)
    (hbyte : 255 < amountbytes.toNat) (fuel : Nat) (data : Buffer) :
    copying amountbytes fuel data = none := by
  have hint := toInt_of_pos hpos
  refine Lib.While.loop_diverges (fun _ => True) (fun c _ => ⟨?_, trivial⟩) trivial fuel
  have hi := c.i.toNat_lt
  exact decide_eq_true (by omega)

/-! ## A small sketch, to run -/

namespace Small

def booted : Sketch := { node := ⟨.erased, .empty⟩, device := {} }

theorem server_printable :
    bytes server ≠ [] ∧ (34 : UInt8) ∉ bytes server ∧ (0 : UInt8) ∉ bytes server := by decide

/-- The server's answer to a read. -/
def answer (b : UInt8) (bs : List UInt8) : SocketAnswer where
  socketID := 0
  ip := bytes server
  port := 8888
  payload := b :: bs
  remainingLength := 0
  socket_le := Nat.zero_le 255
  ip_ne_nil := server_printable.1
  ip_free := server_printable.2.1
  ip_nul_free := server_printable.2.2
  ne_nil := List.cons_ne_nil b bs

def announcement (n : Fin 32768) : Announcement := ⟨0, n, n.isLt⟩

/-- A pass at a time, with what it reads for a reply and after sending. Its
locals are full of ones. -/
def pass (now took : Nat) (replyReads sendReads : List ModemLine) : Pass where
  now
  locals := ⟨fun _ => 1, ⟨1, [1], 1, 1, 1⟩, fun _ => 1⟩
  replyReads := replyReads.map fun l => .of l.text
  sample := ⟨0, 0, 0, 0, 0, 0, 0, 0⟩
  sendReads := sendReads.map fun l => .of l.text
  took

end Small

end NbIot
