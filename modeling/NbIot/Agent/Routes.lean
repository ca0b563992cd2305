import NbIot.Agent.AgentRouter
import NbIot.Agent.CumulocityHandler

/-!
# Routes 2 to 4: from a queue to a reply

Every consumer cuts its message with the same `split`, which drops trailing
blank fields, and every message is a join of lines, so one fact about joining
and splitting serves all four kinds of message. Only the reset message ends in
blank lines. It comes back as two fields, and `DataPacket` leaves the
credentials at their defaults.
-/

namespace NbIot

structure Reply where
  host : JString
  port : Int
  content : Bytes
  deriving DecidableEq, Repr

/-- `encode`, once it has a channel to send on. A socket address takes ports up
to 65535. -/
def encode (datapacket : DataPacket) : Java Reply :=
  if 0 ≤ datapacket.port ∧ datapacket.port ≤ 65535 then
    .ok ⟨datapacket.ipAddress, datapacket.port,
      getBytes datapacket.getDeviceMessage⟩
  else .error .illegalArgument

/-- Route 4: `createPacketFromMessage`, then `encode`. -/
def route4 (message : JString) : Java Reply := do
  encode (← DataPacket.ofMessage message)

/-! ## The messages as lines -/

theorem registerText_eq (host : JString) (port : Int) (deviceId : JString) :
    registerText host port deviceId =
      ['\n'].intercalate [host, intToString port, deviceId] := by
  simp [registerText, List.intercalate]

theorem measurementText_eq (host : JString) (port : Int)
    (deviceId password cumulocityId timestamp : JString) (payload : Bytes) :
    measurementText host port deviceId password cumulocityId timestamp payload =
      ['\n'].intercalate [host, intToString port, deviceId, password,
        cumulocityId, timestamp, Lib.Base64.encode payload] := by
  simp [measurementText, List.intercalate]

theorem credentialsMessage_eq (host : JString) (port : Int)
    (password cumulocityId : JString) :
    credentialsMessage host port password cumulocityId =
      ['\n'].intercalate [host, intToString port, password, cumulocityId] := by
  simp [credentialsMessage, List.intercalate]

theorem resetMessage_eq (host : JString) (port : Int) :
    resetMessage host port =
      ['\n'].intercalate ([host, intToString port] ++ List.replicate 2 []) := by
  simp [resetMessage, List.intercalate, List.replicate]

theorem splitLines_intercalate {lines : List JString} (hne : lines ≠ [])
    (hfree : ∀ line ∈ lines, '\n' ∉ line) (hlast : lines.getLast hne ≠ []) :
    splitLines (['\n'].intercalate lines) = lines :=
  Lib.split_intercalate hne hfree hlast

section

variable {host : JString} {port : UInt16}

theorem parseInt_port : parseInt (intToString port.toNat) 10 = .ok port.toNat := by
  have hport := port.toNat_lt
  exact parseInt_intToString (by omega)

theorem splitRegister_registerText {deviceId : JString} (hhost : '\n' ∉ host)
    (hid : '\n' ∉ deviceId) (hne : deviceId ≠ []) :
    splitRegister (registerText host port.toNat deviceId) =
      .ok ⟨host, port.toNat, deviceId⟩ := by
  have hsplit : splitLines (registerText host port.toNat deviceId) =
      [host, intToString port.toNat, deviceId] := by
    rw [registerText_eq]
    refine splitLines_intercalate (by simp) ?_ hne
    simp [hhost, hid, newline_not_mem_intToString]
  unfold splitRegister
  rw [hsplit]
  simp only [arrayGet, List.getElem?_cons_zero, List.getElem?_cons_succ,
    bind, Except.bind, parseInt_port]
  rfl

theorem splitMeasurement_measurementText
    {deviceId password cumulocityId timestamp : JString} {payload : Bytes}
    (hhost : '\n' ∉ host) (hid : '\n' ∉ deviceId) (hpw : '\n' ∉ password)
    (hcid : '\n' ∉ cumulocityId) (hnow : '\n' ∉ timestamp)
    (hne : payload ≠ []) :
    splitMeasurement (measurementText host port.toNat deviceId password
        cumulocityId timestamp payload) =
      .ok ⟨host, port.toNat, deviceId, password, cumulocityId, timestamp,
        payload⟩ := by
  have hsplit : splitLines (measurementText host port.toNat deviceId password
      cumulocityId timestamp payload) = [host, intToString port.toNat, deviceId,
        password, cumulocityId, timestamp, Lib.Base64.encode payload] := by
    rw [measurementText_eq]
    refine splitLines_intercalate (by simp) ?_ ?_
    · simp [hhost, hid, hpw, hcid, hnow, newline_not_mem_intToString,
        Lib.Base64.newline_not_mem_encode]
    · exact fun h => hne (Lib.Base64.encode_eq_nil.mp h)
  unfold splitMeasurement
  rw [hsplit]
  simp only [arrayGet, List.getElem?_cons_zero, List.getElem?_cons_succ,
    bind, Except.bind, parseInt_port, base64Decode_encode]
  rfl

theorem ofMessage_credentialsMessage {password cumulocityId : Line}
    (hhost : '\n' ∉ host) :
    DataPacket.ofMessage
        (credentialsMessage host port.toNat password.text cumulocityId.text) =
      .ok { ipAddress := host, port := port.toNat
            password := password.text, cumulocityId := cumulocityId.text } := by
  have hsplit : splitLines
      (credentialsMessage host port.toNat password.text cumulocityId.text) =
        [host, intToString port.toNat, password.text, cumulocityId.text] := by
    rw [credentialsMessage_eq]
    refine splitLines_intercalate (by simp) ?_ cumulocityId.ne_nil
    simp [hhost, password.sep_free, cumulocityId.sep_free,
      newline_not_mem_intToString]
  unfold DataPacket.ofMessage
  rw [hsplit]
  simp only [arrayGet, List.getElem?_cons_zero, List.getElem?_cons_succ,
    bind, Except.bind, parseInt_port]
  rfl

theorem ofMessage_resetMessage (hhost : '\n' ∉ host) :
    DataPacket.ofMessage (resetMessage host port.toNat) =
      .ok { ipAddress := host, port := port.toNat } := by
  have hsplit : splitLines (resetMessage host port.toNat) =
      [host, intToString port.toNat] := by
    rw [resetMessage_eq]
    refine Lib.split_intercalate_replicate (List.cons_ne_nil _ _) ?_ ?_ 2
    · simp [hhost, newline_not_mem_intToString]
    · simpa using intToString_ne_nil _
  unfold DataPacket.ofMessage
  rw [hsplit]
  simp only [arrayGet, List.getElem?_cons_zero, List.getElem?_cons_succ,
    bind, Except.bind, parseInt_port]
  rfl

end

/-! ## What the consumers do with them -/

def registerCalls (deviceId : JString) : Option Line → Option Line →
    List PlatformCall
  | none, _ => [.pollCredentials deviceId none]
  | some password, create =>
      [.pollCredentials deviceId (some password),
        .createObject (username deviceId) password.text (sodaqDevice deviceId)
          create]

/-- The body of one registration. It is blank unless both calls succeed. -/
def registerBody (host : JString) (port : Int) : Option Line → Option Line →
    JString
  | some password, some id => credentialsMessage host port password.text id.text
  | _, _ => []

/-- The body of one push. It is blank unless the call fails. -/
def pushBody (host : JString) (port : Int) (stored : Bool) : JString :=
  if stored then [] else resetMessage host port

theorem registerDevice_registerText {host deviceId : JString} {port : UInt16}
    (hhost : '\n' ∉ host) (hid : '\n' ∉ deviceId) (hne : deviceId ≠ [])
    (poll create : Option Line) :
    registerDevice poll create (registerText host port.toNat deviceId) =
      .ok (registerBody host port.toNat poll create,
        registerCalls deviceId poll create) := by
  rw [registerDevice, splitRegister_registerText hhost hid hne]
  cases poll with
  | none => rfl
  | some password =>
      cases create with
      | none => rfl
      | some id => rfl

theorem pushMeasurement_measurementText
    {host deviceId password cumulocityId timestamp : JString} {port : UInt16}
    {payload : Bytes} (hhost : '\n' ∉ host) (hid : '\n' ∉ deviceId)
    (hpw : '\n' ∉ password) (hcid : '\n' ∉ cumulocityId)
    (hnow : '\n' ∉ timestamp) (hlen : payload.length = 14) {r : Readings}
    (hr : unpack payload = .ok r) (stored : Bool) :
    pushMeasurement stored (measurementText host port.toNat deviceId password
        cumulocityId timestamp payload) =
      .ok (pushBody host port.toNat stored,
        [.createMeasurement (username deviceId) password
          (r.representation cumulocityId timestamp) stored]) := by
  rw [pushMeasurement, splitMeasurement_measurementText hhost hid hpw hcid hnow
    (ne_nil_of_fourteen hlen)]
  simp only [bind, Except.bind, createMeasurement, hr, pure, Except.pure]
  cases stored with
  | true => rfl
  | false => rfl

theorem encode_ok {pkt : DataPacket} {port : UInt16} (h : pkt.port = port.toNat) :
    encode pkt =
      .ok ⟨pkt.ipAddress, port.toNat, getBytes pkt.getDeviceMessage⟩ := by
  have hport := port.toNat_lt
  rw [encode, if_pos (by omega), h]

theorem route4_credentialsMessage {host : JString} {port : UInt16}
    {password cumulocityId : Line} (hhost : '\n' ∉ host) :
    route4 (credentialsMessage host port.toNat password.text cumulocityId.text) =
      .ok ⟨host, port.toNat,
        getBytes (password.text ++ ['\n'] ++ cumulocityId.text)⟩ := by
  rw [route4, ofMessage_credentialsMessage hhost]
  exact encode_ok rfl

theorem route4_resetMessage {host : JString} {port : UInt16}
    (hhost : '\n' ∉ host) :
    route4 (resetMessage host port.toNat) = .ok ⟨host, port.toNat, [10]⟩ := by
  rw [route4, ofMessage_resetMessage hhost]
  exact encode_ok rfl

end NbIot
