import NbIot.Agent.Agent
import NbIot.Node.Eeprom
import NbIot.Proofs.Uplink

/-!
# Issued credentials come back from the EEPROM, up to twenty bytes

The agent's reply is stored whole and read back cut off, so the node uses the
credentials it was issued exactly when the reply fits what `readPW` copies.
What the EEPROM held before makes no difference, and neither does a reboot.
-/

namespace NbIot

def credentialsReply (pw cid : Line) : Bytes :=
  getBytes (pw.text ++ ['\n'] ++ cid.text)

/-- The node's token is the reply, and the agent reads the credentials off the
next frame. -/
def UsesCredentials (n : Node) (pw cid : Line) (udp serverPort : List Char)
    (deviceId : CString) (host : JString) (port : Int) (now : JString)
    (p : Bytes) : Prop :=
  n.deviceToken.bytes = credentialsReply pw cid ∧
    ∃ b pkt,
      Lib.Digits.unhex
          (sendPayload udp serverPort deviceId n.deviceToken p 14).data = some b ∧
      DataPacket.ofDatagram host port now b = .ok pkt ∧
      pkt.password = pw.text ∧ pkt.cumulocityId = cid.text

theorem nul_not_mem_credentialsReply {pw cid : Line} (hpw : '\x00' ∉ pw.text)
    (hcid : '\x00' ∉ cid.text) : (0 : UInt8) ∉ credentialsReply pw cid := by
  intro h
  have hmem := (Lib.Utf8.mem_encode (c := '\x00') (by decide)).mp h
  simp only [List.mem_append, List.mem_singleton] at hmem
  rcases hmem with (h | h) | h
  · exact hpw h
  · exact absurd h (by decide)
  · exact hcid h

theorem credentialsReply_ne_reset (pw cid : Line) : credentialsReply pw cid ≠ [10] := by
  intro h
  rw [credentialsReply, getBytes_two_lines] at h
  have hlen := congrArg List.length h
  have hpw : (getBytes pw.text).length ≠ 0 := fun h0 =>
    pw.ne_nil (getBytes_eq_nil.mp (List.length_eq_zero_iff.mp h0))
  simp only [List.length_append, List.length_cons, List.length_nil] at hlen
  omega

theorem usesCredentials_of_token {n : Node} {pw cid : Line} {deviceId : CString}
    {p : Bytes} (htoken : n.deviceToken.bytes = credentialsReply pw cid)
    (hid : (10 : UInt8) ∉ deviceId.bytes) (hp : p.length = 14)
    (udp serverPort : List Char) (host : JString) (port : Int) (now : JString) :
    UsesCredentials n pw cid udp serverPort deviceId host port now p := by
  have hread := ofDatagram_three_lines host port now ⟨deviceId.bytes, hid⟩ pw cid p
  rw [← frame_two_lines (show deviceId.bytes = _ from rfl) htoken] at hread
  exact ⟨htoken, _, _,
    sendPayload_data udp serverPort deviceId n.deviceToken hp.symm, hread, rfl, rfl⟩

/-- The node handles a reply and uses its credentials, at once and after reboots,
if and only if the reply is at most twenty bytes long. -/
theorem credentials_used_iff (n : Node) (reboots : Nat) (pw cid : Line)
    (udp serverPort : List Char) (deviceId : CString) (host : JString)
    (port : Int) (now : JString) (p : Bytes) (hpw : '\x00' ∉ pw.text)
    (hcid : '\x00' ∉ cid.text) (hid : (10 : UInt8) ∉ deviceId.bytes)
    (hp : p.length = 14) :
    (∃ n', n.applyReply (credentialsReply pw cid) = some n' ∧
      UsesCredentials (Node.setup^[reboots] n') pw cid udp serverPort deviceId host
        port now p) ↔ (credentialsReply pw cid).length ≤ 20 := by
  have hnul := nul_not_mem_credentialsReply hpw hcid
  refine ⟨?_, ?_⟩
  · intro ⟨n', hn', huses⟩
    have hcut := (Node.applyReply_deviceToken hnul hn' reboots).symm.trans huses.1
    rw [← hcut]
    exact List.length_take_le _ _
  · intro h
    obtain ⟨n', hn'⟩ := n.exists_applyReply
      (show (credentialsReply pw cid).length < 256 by omega)
    refine ⟨n', hn', usesCredentials_of_token ?_ hid hp udp serverPort host port now⟩
    rw [Node.applyReply_deviceToken hnul hn' reboots]
    exact List.take_of_length_le h

theorem credentials_used_short :
    ∃ n', Node.applyReply ⟨Eeprom.erased, CString.empty⟩
        (credentialsReply (Small.line 7) (Small.line 1)) = some n' ∧
      UsesCredentials (Node.setup^[1] n') (Small.line 7) (Small.line 1) [] []
        ⟨[100], by decide, by decide⟩ ['h'] 5 ['n'] (List.replicate 14 10) :=
  (credentials_used_iff ⟨Eeprom.erased, CString.empty⟩ 1 (Small.line 7) (Small.line 1)
    [] [] ⟨[100], by decide, by decide⟩ ['h'] 5 ['n'] (List.replicate 14 10)
    (by decide +kernel) (by decide +kernel) (by decide) (by decide)).mpr
    (by decide +kernel)

/-- A password and an id of ten characters each make a reply of twenty-one
bytes, and the node loses the last one. -/
theorem credentials_cut_off :
    ∃ n', Node.applyReply ⟨Eeprom.erased, CString.empty⟩
        (credentialsReply (Small.line 1234567890) (Small.line 1234567890)) = some n' ∧
      ¬ UsesCredentials n' (Small.line 1234567890) (Small.line 1234567890) [] []
        ⟨[100], by decide, by decide⟩ ['h'] 5 ['n'] (List.replicate 14 0) := by
  obtain ⟨n', hn'⟩ := Node.exists_applyReply ⟨Eeprom.erased, CString.empty⟩
    (show (credentialsReply (Small.line 1234567890)
      (Small.line 1234567890)).length < 256 by decide +kernel)
  refine ⟨n', hn', fun h => ?_⟩
  have hcut := (Node.applyReply_deviceToken (by decide +kernel) hn' 0).symm.trans h.1
  exact absurd hcut (by decide +kernel)

end NbIot
