import NbIot.Agent.Routes
import NbIot.Node.Sdk

/-!
# A measurement reaches the platform unchanged

Four codecs in a row: hexadecimal text on the modem line, the frame, the queue
message, Base64 inside it. Each inverts the one before, and the frame hides
nothing from the next, because the parser stops looking for line feeds once it
has three.
-/

namespace NbIot

def Line.lfFree (l : Line) : LfFree :=
  ⟨getBytes l.text, newline_not_mem_getBytes l.sep_free⟩

theorem getBytes_two_lines (a b : JString) :
    getBytes (a ++ ['\n'] ++ b) = getBytes a ++ 10 :: getBytes b := by
  have hnl : Lib.Utf8.encode ['\n'] = [10] := by decide +kernel
  simp only [getBytes, Lib.Utf8.encode_append, hnl]
  simp

theorem frame_two_lines {deviceId deviceToken : CString} {id : LfFree}
    {pw cid : Line} (hid : deviceId.bytes = id.bytes)
    (htoken : deviceToken.bytes = getBytes (pw.text ++ ['\n'] ++ cid.text))
    (p : Bytes) :
    frame deviceId deviceToken p =
      (Frame.three id pw.lfFree cid.lfFree p).bytes := by
  rw [frame, hid, htoken, getBytes_two_lines]
  simp [Frame.bytes, Line.lfFree]

theorem ofDatagram_three_lines (host : JString) (port : Int) (now : JString)
    (id : LfFree) (pw cid : Line) (p : Bytes) :
    DataPacket.ofDatagram host port now
        (Frame.three id pw.lfFree cid.lfFree p).bytes =
      .ok { ipAddress := host, port, deviceId := newString id.bytes
            password := pw.text, cumulocityId := cid.text, payload := some p
            creationdateTimestamp := some now } := by
  rw [DataPacket.ofDatagram, Frame.extractData_bytes]
  simp [Frame.truncated, Frame.fill, DataPacket.fresh, Line.lfFree]

/-- The whole way up, from the node's variables to the platform call. -/
theorem uplink_lossless (udp serverPort : List Char) (id pw cid : Line)
    (deviceId deviceToken : CString) (sender : Sender) (now : Timestamp)
    (p : Bytes) (hid : deviceId.bytes = getBytes id.text)
    (htoken : deviceToken.bytes = getBytes (pw.text ++ ['\n'] ++ cid.text))
    (hp : p.length = 14)
    (hmodem : deviceId.strlen + deviceToken.strlen + 2 + 14 ≤ 512) :
    ∃ b, Lib.Digits.unhex
          (sendPayload udp serverPort deviceId deviceToken p 14).data = some b ∧
      (sendPayload udp serverPort deviceId deviceToken p 14).length = b.length ∧
      ∃ pkt m,
        DataPacket.ofDatagram sender.host sender.port.toNat now.text b = .ok pkt ∧
        pkt.getPushMeasurementMessage = .ok m ∧
        route1 pkt = .ok (.measurement m) ∧
        splitMeasurement m = .ok ⟨sender.host, sender.port.toNat, id.text,
          pw.text, cid.text, now.text, p⟩ ∧
        ∃ r, unpack p = .ok r ∧ ∀ stored, pushMeasurement stored m =
          .ok (pushBody sender.host sender.port.toNat stored,
            [.createMeasurement (username id.text) pw.text
              (r.representation cid.text now.text) stored]) := by
  have hsize : (14 : UInt8).toNat = p.length := hp.symm
  have hlength : (frame deviceId deviceToken p).length ≤ 512 := by
    simp only [frame, List.length_append, List.length_cons, hp]
    simp only [CString.strlen] at hmodem
    omega
  refine ⟨frame deviceId deviceToken p,
    sendPayload_data udp serverPort deviceId deviceToken hsize,
    sendPayload_length udp serverPort deviceId deviceToken hsize hlength, ?_⟩
  have hread := ofDatagram_three_lines sender.host sender.port.toNat now.text
    id.lfFree pw cid p
  rw [← frame_two_lines hid htoken, show newString id.lfFree.bytes = id.text from
    newString_getBytes id.text] at hread
  refine ⟨_, measurementText sender.host sender.port.toNat id.text pw.text
    cid.text now.text p, hread, rfl, ?_, ?_, ?_⟩
  · exact route1_measurement id.ne_nil pw.ne_nil cid.ne_nil rfl hp rfl
  · exact splitMeasurement_measurementText sender.host_free id.sep_free
      pw.sep_free cid.sep_free now.free (ne_nil_of_fourteen hp)
  · obtain ⟨r, hr⟩ := exists_unpack hp
    exact ⟨r, hr, pushMeasurement_measurementText sender.host_free id.sep_free
      pw.sep_free cid.sep_free now.free hp hr⟩

theorem uplink_lossless_line_feeds :
    ∃ m, splitMeasurement m = .ok ⟨['h'], 8888, ['i'], ['p', 'w'], ['c'], ['t'],
      [10, 10, 10, 10, 10, 10, 10, 0, 0, 0, 0, 0, 0, 255]⟩ := by
  obtain ⟨_, _, _, _, m, _, _, _, hm, _⟩ := uplink_lossless ['u'] ['1']
    ⟨['i'], by decide, by decide⟩ ⟨['p', 'w'], by decide, by decide⟩
    ⟨['c'], by decide, by decide⟩ ⟨[105], by decide, by decide⟩
    ⟨[112, 119, 10, 99], by decide, by decide⟩ ⟨['h'], 8888, by decide⟩
    ⟨['t'], by decide⟩ [10, 10, 10, 10, 10, 10, 10, 0, 0, 0, 0, 0, 0, 255]
    (by decide +kernel) (by decide +kernel) (by decide) (by decide)
  exact ⟨m, hm⟩

end NbIot
