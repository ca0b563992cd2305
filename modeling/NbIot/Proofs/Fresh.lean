import NbIot.Node.Eeprom
import NbIot.Proofs.Uplink

/-!
# What a node without credentials sends

The three EEPROM states without credentials read back as three tokens. Zeroed
cells give the blank token and the reset reply a lone line feed, and both put
a line feed where the password would end, so the agent finds the password
missing whatever the payload is. Erased cells give twenty bytes of 0xFF. To
the agent that is a password, the search for the third line feed runs on into
the payload, and whether the frame registers depends on the sensor data.
-/

namespace NbIot

inductive NoCredentials : Eeprom → Prop where
  | erased : NoCredentials Eeprom.erased
  | cleared (e : Eeprom) : NoCredentials (clearEEPROM e)
  | reset (e : Eeprom) : NoCredentials (writePW e [10])

def NextDatagram (e : Eeprom) (udp serverPort : List Char) (deviceId : CString)
    (p : Bytes) (sender : Sender) (now : Timestamp) (d : Incoming) : Prop :=
  d.sender = sender ∧ d.now = now ∧
    Lib.Digits.unhex
      (sendPayload udp serverPort deviceId (storedToken e) p 14).data = some d.data

def AsksForRegistration (e : Eeprom) (udp serverPort : List Char)
    (deviceId : CString) (p : Bytes) (sender : Sender) (now : Timestamp) : Prop :=
  ∃ d m, NextDatagram e udp serverPort deviceId p sender now d ∧
    d.route = .ok (.register m)

theorem asksForRegistration_iff {e : Eeprom} {deviceId : CString} {p : Bytes}
    {sender : Sender} {now : Timestamp} {f : Frame} (hp : p.length = 14)
    (hf : frame deviceId (storedToken e) p = f.bytes) (udp serverPort : List Char)
    (hwhole : f.truncated = false) :
    AsksForRegistration e udp serverPort deviceId p sender now ↔
      ∃ m, f.outcome sender.host sender.port.toNat now.text = .register m := by
  have hsize : (14 : UInt8).toNat = p.length := hp.symm
  have hsent := sendPayload_data udp serverPort deviceId (storedToken e) hsize
  have hroute : ∀ d : Incoming, d.sender = sender → d.now = now →
      d.data = f.bytes → d.route =
        .ok (f.outcome sender.host sender.port.toNat now.text) := by
    intro d hs hn hd
    rw [Incoming.route_frame hd, hwhole, hs, hn]
    rfl
  refine ⟨?_, ?_⟩
  · rintro ⟨d, m, ⟨hs, hn, hd⟩, hr⟩
    rw [hsent, hf] at hd
    injection hd with hd
    rw [hroute d hs hn hd.symm] at hr
    injection hr with hr
    exact ⟨m, hr⟩
  · rintro ⟨m, hm⟩
    refine ⟨⟨sender, f.bytes, now⟩, m, ⟨rfl, rfl, by rw [hsent, hf]⟩, ?_⟩
    rw [hroute ⟨sender, f.bytes, now⟩ rfl rfl rfl, hm]

/-- The line feed that ends a blank password settles it. -/
theorem registers_of_blank_password {deviceId : CString} {e : Eeprom} {p : Bytes}
    (hp : p.length = 14) (hne : deviceId.bytes ≠ [])
    (hid : (10 : UInt8) ∉ deviceId.bytes) {rest : Bytes}
    (hrest : rest ≠ []) (hframe : frame deviceId (storedToken e) p =
      deviceId.bytes ++ 10 :: 10 :: rest)
    (udp serverPort : List Char) (sender : Sender) (now : Timestamp) :
    AsksForRegistration e udp serverPort deviceId p sender now := by
  rcases Lib.first_field 10 rest with hfree | ⟨cid, x, hx, hcid⟩
  · refine (asksForRegistration_iff hp
      (f := .two ⟨deviceId.bytes, hid⟩ ⟨[], by simp⟩ ⟨rest, hfree⟩)
      hframe udp serverPort (by simpa [Frame.truncated] using hrest)).mpr ?_
    exact ⟨_, if_neg hne⟩
  · refine (asksForRegistration_iff hp
      (f := .three ⟨deviceId.bytes, hid⟩ ⟨[], by simp⟩ ⟨cid, hcid⟩ x)
      (by rw [hframe, hx]; rfl) udp serverPort rfl).mpr ?_
    exact ⟨_, (if_neg hne).trans (if_pos (Or.inl rfl))⟩

/-- Twenty bytes of 0xFF are a password to the agent. -/
def erasedPassword : LfFree := ⟨List.replicate 20 0xFF, by simp⟩

/-- An erased EEPROM registers unless the first line feed of the payload comes
after its first byte. -/
theorem asksForRegistration_erased {deviceId : CString} {p : Bytes}
    (hp : p.length = 14) (hne : deviceId.bytes ≠ [])
    (hid : (10 : UInt8) ∉ deviceId.bytes) (udp serverPort : List Char)
    (sender : Sender) (now : Timestamp) :
    AsksForRegistration Eeprom.erased udp serverPort deviceId p sender now ↔
      ¬ ((10 : UInt8) ∈ p ∧ p.head? ≠ some 10) := by
  have hpassword : erasedPassword.bytes ≠ [] := by simp [erasedPassword]
  rcases Lib.first_field 10 p with hfree | ⟨cid, x, hx, hcid⟩
  · have hpne := ne_nil_of_fourteen hp
    rw [asksForRegistration_iff (f := .two ⟨deviceId.bytes, hid⟩ erasedPassword ⟨p, hfree⟩)
      hp (by rw [frame, storedToken_erased]; rfl) udp serverPort
      (by simpa [Frame.truncated] using hpne)]
    exact ⟨fun _ h => hfree h.1, fun _ => ⟨_, if_neg hne⟩⟩
  · rw [asksForRegistration_iff
      (f := .three ⟨deviceId.bytes, hid⟩ erasedPassword ⟨cid, hcid⟩ x)
      hp (by rw [frame, storedToken_erased, hx]; rfl) udp serverPort rfl]
    simp only [Frame.outcome, if_neg hne]
    cases cid with
    | nil => simp [hx]
    | cons b cid =>
        have hb : b ≠ 10 := fun h => hcid (by rw [h]; exact List.mem_cons_self)
        have hshort : x.length ≠ 14 := by
          intro h
          rw [hx] at hp
          simp [h] at hp
        simp [hx, hpassword, hb, hshort]

/-- A node without credentials asks for registration, unless its EEPROM is
erased and the payload has a line feed that is not its first byte. -/
theorem asks_for_registration_iff (e : Eeprom) (deviceId : CString) (p : Bytes)
    (sender : Sender) (now : Timestamp) (udp serverPort : List Char)
    (he : NoCredentials e) (hlen : deviceId.bytes.length = 15)
    (hdigits : ∀ b ∈ deviceId.bytes, 48 ≤ b ∧ b ≤ 57) (hp : p.length = 14) :
    AsksForRegistration e udp serverPort deviceId p sender now ↔
      ¬ (e = Eeprom.erased ∧ (10 : UInt8) ∈ p ∧ p.head? ≠ some 10) := by
  have hne : deviceId.bytes ≠ [] := by
    intro h
    rw [h] at hlen
    exact absurd hlen (by decide)
  have hid : (10 : UInt8) ∉ deviceId.bytes := fun h =>
    absurd (hdigits 10 h).1 (by decide)
  cases he with
  | erased =>
      rw [asksForRegistration_erased hp hne hid]
      simp
  | cleared e =>
      have hother : clearEEPROM e ≠ Eeprom.erased := by
        intro h
        have hcell := read_clearUpTo (e := e) (Nat.le_refl 4096) (show 0 < 4096 by omega)
        rw [show clearUpTo e 4096 = Eeprom.erased from h] at hcell
        exact absurd hcell (by decide)
      refine iff_of_true ?_ fun h => hother h.1
      refine registers_of_blank_password hp hne hid (ne_nil_of_fourteen hp) ?_ udp
        serverPort sender now
      rw [frame, storedToken_clearEEPROM]
      rfl
  | reset e =>
      have hother : writePW e [10] ≠ Eeprom.erased := by
        intro h
        have hcell := read_writePW_end e [10]
        rw [h] at hcell
        exact absurd hcell (by decide)
      refine iff_of_true ?_ fun h => hother h.1
      refine registers_of_blank_password hp hne hid
        (List.cons_ne_nil 10 p) ?_ udp serverPort sender now
      rw [frame, storedToken_writePW (by decide) (by decide)]
      rfl

theorem asks_for_registration_cleared :
    AsksForRegistration (clearEEPROM Eeprom.erased) [] []
      ⟨List.replicate 15 48, by decide, by decide⟩ (List.replicate 14 10)
      ⟨['h'], 8888, by decide⟩ ⟨['t'], by decide⟩ :=
  (asks_for_registration_iff (clearEEPROM Eeprom.erased)
    ⟨List.replicate 15 48, by decide, by decide⟩ (List.replicate 14 10)
    ⟨['h'], 8888, by decide⟩ ⟨['t'], by decide⟩ [] [] (.cleared _) (by decide)
    (by decide +kernel) (by decide)).mpr fun h => h.2.2 rfl

/-- An erased EEPROM and a packet whose second byte is a line feed: the frame
has three fields and twelve bytes of payload, and no branch of the route takes
it. -/
theorem erased_node_is_dropped :
    NoCredentials Eeprom.erased ∧
      ¬ AsksForRegistration Eeprom.erased [] []
        ⟨List.replicate 15 48, by decide, by decide⟩ (1 :: 10 :: List.replicate 12 0)
        ⟨['h'], 8888, by decide⟩ ⟨['t'], by decide⟩ :=
  ⟨.erased, fun h => (asksForRegistration_erased (by decide) (by decide) (by decide)
    [] [] _ _).mp h ⟨by decide, by decide⟩⟩

end NbIot
