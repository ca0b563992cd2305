import NbIot.Agent.Frame

/-!
# Route 1: from a datagram to a queue

The filter and the two `when` branches, tried in the order `configure` lists
them. A packet that passes the filter and matches no branch is dropped without
a trace, so the route has four outcomes, not three.
-/

namespace NbIot

inductive Route1 where
  | invalid
  | measurement (message : JString)
  | register (message : JString)
  | unmatched
  deriving DecidableEq, Repr

def route1 (pkt : DataPacket) : Java Route1 := do
  if pkt.isValid then
    if ← pkt.isMeasurementMessage then
      return .measurement (← pkt.getPushMeasurementMessage)
    else if pkt.isRegisterMessage then
      return .register pkt.getRegisterMessage
    else return .unmatched
  else return .invalid

/-- Where a datagram came from. A host name has no line feed. -/
structure Sender where
  host : JString
  port : UInt16
  host_free : '\n' ∉ host

/-- The text of a local date and time has no line feed either. -/
structure Timestamp where
  text : JString
  free : '\n' ∉ text

/-- A datagram as `NBiotPacketDecoder.decode` sees it, with the clock. -/
structure Incoming where
  sender : Sender
  data : Bytes
  now : Timestamp

def Incoming.packet (d : Incoming) : Java DataPacket :=
  DataPacket.ofDatagram d.sender.host d.sender.port.toNat d.now.text d.data

def Incoming.route (d : Incoming) : Java Route1 := do
  route1 (← d.packet)

/-! ## The four outcomes, by the fields of the packet -/

theorem route1_invalid {pkt : DataPacket} (h : pkt.deviceId = []) :
    route1 pkt = .ok .invalid := by
  have hv : pkt.isValid = false := by simp [DataPacket.isValid, h]
  simp only [route1, hv]
  rfl

theorem route1_register {pkt : DataPacket} (hid : pkt.deviceId ≠ [])
    (h : pkt.password = [] ∨ pkt.cumulocityId = []) :
    route1 pkt = .ok (.register pkt.getRegisterMessage) := by
  have hv : pkt.isValid = true := by simp [DataPacket.isValid, hid]
  have hm : pkt.isMeasurementMessage = .ok false := by
    rw [DataPacket.isMeasurementMessage, if_neg (by tauto)]
    rfl
  have hr : pkt.isRegisterMessage = true := by
    simpa [DataPacket.isRegisterMessage] using h
  simp only [route1, hv, hm, hr]
  rfl

theorem isMeasurementMessage_some {pkt : DataPacket} {p : Bytes}
    (hpw : pkt.password ≠ []) (hcid : pkt.cumulocityId ≠ [])
    (hp : pkt.payload = some p) :
    pkt.isMeasurementMessage = .ok (decide (p.length = 14)) := by
  rw [DataPacket.isMeasurementMessage, if_pos ⟨hpw, hcid⟩]
  simp only [DataPacket.payloadLength, hp]
  rfl

theorem route1_measurement {pkt : DataPacket} {p : Bytes} {m : JString}
    (hid : pkt.deviceId ≠ []) (hpw : pkt.password ≠ [])
    (hcid : pkt.cumulocityId ≠ []) (hp : pkt.payload = some p)
    (hlen : p.length = 14) (hm : pkt.getPushMeasurementMessage = .ok m) :
    route1 pkt = .ok (.measurement m) := by
  have hv : pkt.isValid = true := by simp [DataPacket.isValid, hid]
  simp only [route1, hv, isMeasurementMessage_some hpw hcid hp, hlen, hm]
  rfl

theorem route1_unmatched {pkt : DataPacket} {p : Bytes}
    (hid : pkt.deviceId ≠ []) (hpw : pkt.password ≠ [])
    (hcid : pkt.cumulocityId ≠ []) (hp : pkt.payload = some p)
    (hlen : p.length ≠ 14) : route1 pkt = .ok .unmatched := by
  have hv : pkt.isValid = true := by simp [DataPacket.isValid, hid]
  have hr : pkt.isRegisterMessage = false := by
    simp [DataPacket.isRegisterMessage, hpw, hcid]
  simp only [route1, hv, isMeasurementMessage_some hpw hcid hp, hlen, hr]
  rfl

/-! ## What the route does with a frame -/

def registerText (host : JString) (port : Int) (deviceId : JString) : JString :=
  host ++ ['\n'] ++ intToString port ++ ['\n'] ++ deviceId

/-- The measurement message, one field per piece of data it carries. -/
def measurementText (host : JString) (port : Int)
    (deviceId password cumulocityId timestamp : JString) (payload : Bytes) :
    JString :=
  host ++ ['\n'] ++ intToString port ++ ['\n'] ++ deviceId ++ ['\n']
    ++ password ++ ['\n'] ++ cumulocityId ++ ['\n'] ++ timestamp ++ ['\n']
    ++ Lib.Base64.encode payload

/-- Route 1 on a frame, with nothing left of the code but the grammar. -/
def Frame.outcome (host : JString) (port : Int) (now : JString) :
    Frame → Route1
  | .blank _ => .invalid
  | .one i _ | .two i _ _ =>
      if i.bytes = [] then .invalid
      else .register (registerText host port (newString i.bytes))
  | .three i p c x =>
      if i.bytes = [] then .invalid
      else if p.bytes = [] ∨ c.bytes = [] then
        .register (registerText host port (newString i.bytes))
      else if x.length = 14 then
        .measurement (measurementText host port (newString i.bytes)
          (newString p.bytes) (newString c.bytes) now x)
      else .unmatched

theorem newString_ne_nil {bs : Bytes} (h : bs ≠ []) : newString bs ≠ [] :=
  fun hnil => h (newString_eq_nil.mp hnil)

theorem route1_fill (host : JString) (port : Int) (now : JString) (f : Frame) :
    route1 (f.fill (.fresh host port now)) = .ok (f.outcome host port now) := by
  cases f with
  | blank r => exact route1_invalid rfl
  | one i r | two i p r =>
      simp only [Frame.outcome]
      split
      · rename_i hi
        exact route1_invalid (newString_eq_nil.mpr hi)
      · rename_i hi
        exact route1_register (newString_ne_nil hi) (Or.inr rfl)
  | three i p c x =>
      simp only [Frame.outcome]
      split
      · rename_i hi
        exact route1_invalid (newString_eq_nil.mpr hi)
      rename_i hi
      split
      · rename_i hpc
        exact route1_register (newString_ne_nil hi)
          (hpc.imp newString_eq_nil.mpr newString_eq_nil.mpr)
      rename_i hpc
      obtain ⟨hp, hc⟩ := not_or.mp hpc
      split
      · rename_i hx
        exact route1_measurement (newString_ne_nil hi) (newString_ne_nil hp)
          (newString_ne_nil hc) rfl hx rfl
      · rename_i hx
        exact route1_unmatched (newString_ne_nil hi) (newString_ne_nil hp)
          (newString_ne_nil hc) rfl hx

/-- Neither predicate dereferences a payload that is not there. -/
theorem isMeasurementMessage_fill (host : JString) (port : Int) (now : JString)
    (f : Frame) :
    ∃ b, (f.fill (.fresh host port now)).isMeasurementMessage = .ok b := by
  by_cases h : ∃ p, (f.fill (.fresh host port now)).payload = some p
  · obtain ⟨p, hp⟩ := h
    unfold DataPacket.isMeasurementMessage DataPacket.payloadLength
    rw [hp]
    split
    · exact ⟨_, rfl⟩
    · exact ⟨_, rfl⟩
  · -- Without a payload there is no third field, and `&&` stops before it.
    refine ⟨false, ?_⟩
    rw [DataPacket.isMeasurementMessage, if_neg]
    · rfl
    · rintro ⟨_, hc⟩
      cases f with
      | blank r | one i r | two i p r => exact hc rfl
      | three i p c x => exact h ⟨x, rfl⟩

theorem Incoming.packet_frame {d : Incoming} {f : Frame} (h : d.data = f.bytes) :
    d.packet =
      if f.truncated then .error .arrayIndexOutOfBounds
      else .ok (f.fill (.fresh d.sender.host d.sender.port.toNat d.now.text)) := by
  rw [Incoming.packet, DataPacket.ofDatagram, h, Frame.extractData_bytes]

theorem Incoming.route_frame {d : Incoming} {f : Frame} (h : d.data = f.bytes) :
    d.route =
      if f.truncated then .error .arrayIndexOutOfBounds
      else .ok (f.outcome d.sender.host d.sender.port.toNat d.now.text) := by
  rw [Incoming.route, Incoming.packet_frame h]
  split
  · rfl
  · exact route1_fill _ _ _ f

/-- The device id of a packet is the first field of its datagram. -/
theorem Incoming.packet_deviceId {d : Incoming} {i : LfFree} {rest : Bytes}
    {pkt : DataPacket} (hd : d.data = i.bytes ++ 10 :: rest)
    (h : d.packet = .ok pkt) : pkt.deviceId = newString i.bytes := by
  obtain ⟨f, hf⟩ := Frame.exists_bytes d.data
  rw [Incoming.packet_frame hf.symm] at h
  split at h
  · cases h
  injection h with h
  rw [← h]
  rw [hd] at hf
  cases f with
  | blank r =>
      have hmem : (10 : UInt8) ∈ (Frame.blank r).bytes := by
        rw [hf]
        simp
      exact absurd hmem r.free
  | one j r | two j p r | three j p c x =>
      rw [← ((Lib.first_field_inj j.free i.free).mp hf).1]
      rfl

end NbIot
