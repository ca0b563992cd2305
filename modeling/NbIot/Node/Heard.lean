import NbIot.Node.Modem

/-!
# How a read is answered

The lines of a call of `readResponse` come down to one of three answers: the
read fails, it is answered by an `OK` alone, or by a line the parser takes and an
`OK`. Which it is depends on the lines only, and so does what is read, but for
an `OK` alone: that reads whatever the destinations held before.
-/

namespace NbIot

open Lib (Buffer)
open Lib.Scan (format scan)

/-- What the parser answers to a line, whatever its destinations hold. -/
def LineRead.verdict (r : LineRead) : ResponseTypes :=
  (udpReadSocketParser r.text r.line.length
    (⟨0, [], 0, 0, 0⟩, { size := 0, cells := fun _ => 0 })).1

/-- The answer, where the parser has taken the line `got` before: `none` if the
read fails, and else the line that was taken, if there is one. -/
def heard (got : Option LineRead) : List LineRead → Option (Option LineRead)
  | [] => none
  | r :: reads =>
      let more (got : Option LineRead) := if r.timedOut then none else heard got reads
      if r.line = [] then more got
      else
        match turn r.text with
        | .next => more got
        | .done response => if response = .ok then some got else none
        | .parse =>
            match got, r.verdict with
            | some line, _ => more (some line)
            | none, .empty => more (some r)
            | none, .pendingExtra => more none
            | none, _ => none

/-- What the destinations hold after the line that was taken, if any. -/
def destinations (params : SaraN2UDPPacketMetadata × Buffer) :
    Option LineRead → SaraN2UDPPacketMetadata × Buffer
  | none => params
  | some r => (udpReadSocketParser r.text r.line.length params).2

/-- The parser is called until it has taken a line. -/
def parserAfter : Option LineRead → Option (ParserMethod (SaraN2UDPPacketMetadata × Buffer))
  | none => some udpReadSocketParser
  | some _ => none

/-- The response is the one to expect of an answer. -/
def Response.Answers (response : Response (SaraN2UDPPacketMetadata × Buffer))
    (params : SaraN2UDPPacketMetadata × Buffer) : Option (Option LineRead) → Prop
  | none => response.type ≠ .ok
  | some got => response.type = .ok ∧ response.params = destinations params got

/-! ## The lines decide -/

theorem storeSocket_cases (values : List Lib.Scan.Value) :
    (∀ params, (storeSocket values params).1 = .empty) ∨
      ∀ params, (storeSocket values params).1 = .error := by
  by_cases h : (((Lib.Scan.intAt values 0).map (.ofInt 16)).getD 0 : BitVec 16).toInt ≤ 255
  · exact Or.inl fun params => by simp only [storeSocket, if_pos h]
  · exact Or.inr fun params => by simp only [storeSocket, if_neg h]

/-- What the parser answers does not depend on the destinations, and it leaves
them as they are where it waits for more. -/
theorem parser_cases (buffer : List UInt8) (n : Nat) :
    (∀ params, udpReadSocketParser buffer n params = (.pendingExtra, params)) ∨
      (∀ params, (udpReadSocketParser buffer n params).1 = .empty) ∨
      ∀ params, (udpReadSocketParser buffer n params).1 = .error := by
  by_cases hcr : n = 1 ∧ buffer.head? = some 13
  · exact Or.inl fun params => if_pos hcr
  let six := scan (format "%d,\"%[^\"]\",%d,%d,\"%[^\"]\",%d") buffer
  let five := scan (format "+USORF: %d,\"%[^\"]\",%d,%d,\"%[^\"]\"") buffer
  have hparser : ∀ params, udpReadSocketParser buffer n params =
      if six.length = 6 then storeSocket six (storeAnswer six params)
      else if five.length = 5 then
        storeSocket five (storeAnswer five (storeAnswer six params))
      else (.error, storeAnswer five (storeAnswer six params)) := fun params => if_neg hcr
  refine Or.inr ?_
  by_cases hsix : six.length = 6
  · simp only [hparser, if_pos hsix]
    exact (storeSocket_cases six).imp (fun h _ => h _) (fun h _ => h _)
  by_cases hfive : five.length = 5
  · simp only [hparser, if_neg hsix, if_pos hfive]
    exact (storeSocket_cases five).imp (fun h _ => h _) (fun h _ => h _)
  · exact Or.inr fun params => by rw [hparser, if_neg hsix, if_neg hfive]

/-- The response is the one to expect of the answer, from any line on. -/
theorem answers_after (d : Device) (params : SaraN2UDPPacketMetadata × Buffer)
    (got : Option LineRead) (reads : List LineRead) :
    (d.readResponse (parserAfter got) (destinations params got) reads).Answers params
      (heard got reads) := by
  induction reads generalizing d got with
  | nil => exact nofun
  | cons r reads ih =>
      have hmore : ∀ (d : Device) (got : Option LineRead),
          (if r.timedOut then ⟨.timeout, d, destinations params got, reads⟩
            else d.readResponse (parserAfter got) (destinations params got) reads).Answers
              params (if r.timedOut then none else heard got reads) := by
        intro d got
        split
        · exact nofun
        · exact ih d got
      rw [Device.readResponse, heard.eq_def, Device.readOne]
      simp only []
      by_cases hline : r.line = []
      · simp only [if_pos hline]
        exact hmore d got
      · simp only [if_neg hline]
        cases turn r.text with
        | next => exact hmore (d.collect r) got
        | done response =>
            by_cases hok : response = .ok
            · simp only [if_pos hok]
              exact ⟨hok, rfl⟩
            · simp only [if_neg hok]
              exact hok
        | parse =>
            cases got with
            | some line => exact hmore (d.collect r) (some line)
            | none =>
                rcases parser_cases r.text r.line.length with h | h | h
                · have hv : r.verdict = .pendingExtra := congrArg Prod.fst (h _)
                  simp only [parserAfter, hv, h]
                  exact hmore (d.collect r) none
                · have hv : r.verdict = .empty := h _
                  simp only [parserAfter, hv, h]
                  exact hmore (d.collect r) (some r)
                · have hv : r.verdict = .error := h _
                  simp only [parserAfter, hv, h]
                  exact nofun

theorem answers_heard (d : Device) (params : SaraN2UDPPacketMetadata × Buffer)
    (reads : List LineRead) :
    (d.readResponse (some udpReadSocketParser) params reads).Answers params
      (heard none reads) := answers_after d params none reads

/-! ## The lines the modem prints -/

theorem ModemLine.text_ne_nil (l : ModemLine) : l.text ≠ [] := by
  cases l with
  | nsonmi n => exact List.append_ne_nil_of_left_ne_nil (by decide) _
  | answer a =>
      obtain ⟨b, s, htext, _⟩ := answer_head a
      rw [text, htext]
      exact List.cons_ne_nil b s
  | ok => decide
  | error => decide

/-- A printed line is there in time, and it is not empty. -/
theorem heard_line (got : Option LineRead) (l : ModemLine) (reads : List LineRead) :
    heard got (.of l.text :: reads) =
      match turn l.text with
      | .next => heard got reads
      | .done response => if response = .ok then some got else none
      | .parse =>
          match got, (LineRead.of l.text).verdict with
          | some line, _ => heard (some line) reads
          | none, .empty => heard (some (.of l.text)) reads
          | none, .pendingExtra => heard none reads
          | none, _ => none := by
  rw [heard.eq_def]
  simp only [ModemLine.of_text]
  exact if_neg l.text_ne_nil

/-- An answer is taken, if none was before. -/
theorem heard_answer (got : Option LineRead) (a : SocketAnswer) (reads : List LineRead) :
    heard got (.of (ModemLine.answer a).text :: reads) =
      heard (some (got.getD (.of a.text))) reads := by
  have hverdict : (LineRead.of (ModemLine.answer a).text).verdict = .empty := by
    rw [LineRead.verdict, ModemLine.of_text]
    exact congrArg Prod.fst (udpReadSocketParser_answer a _ _)
  rw [heard_line, show turn (ModemLine.answer a).text = .parse from turn_answer a, hverdict]
  cases got <;> rfl

theorem heard_ok (got : Option LineRead) (reads : List LineRead) :
    heard got (.of (ModemLine.ok).text :: reads) = some got := by
  rw [heard_line, turn_final.1]
  rfl

/-! ## What a read returns -/

variable {d : Device} {packet : SaraN2UDPPacketMetadata} {buffer : Buffer}
  {size : BitVec 16} {reads : List LineRead}

theorem socketReceive_failed (h : heard none reads = none) :
    (d.socketReceive packet buffer size reads).size = 0 := by
  have hanswers := answers_heard d (packet, buffer) reads
  rw [h] at hanswers
  unfold Device.socketReceive
  split
  · rfl
  · simp only [if_neg hanswers]

theorem socketReceive_heard (packet : SaraN2UDPPacketMetadata) (buffer : Buffer)
    (size : BitVec 16) (hpending : d.pendingUDPBytes ≠ 0) {got : Option LineRead}
    (h : heard none reads = some got) :
    (d.socketReceive packet buffer size reads).size =
        (destinations (packet, buffer) got).1.length ∧
      (d.socketReceive packet buffer size reads).packet =
        (destinations (packet, buffer) got).1 ∧
      (d.socketReceive packet buffer size reads).buffer =
        (destinations (packet, buffer) got).2 := by
  have hanswers := answers_heard d (packet, buffer) reads
  rw [h] at hanswers
  unfold Device.socketReceive
  rw [if_neg hpending]
  simp only [if_pos hanswers.1, hanswers.2, true_and]

theorem destinations_answer {r : LineRead} {a : SocketAnswer} (h : r.text = a.text)
    (params : SaraN2UDPPacketMetadata × Buffer) :
    destinations params (some r) =
      (a.metadata, params.2.store 0 (hexText a.payload ++ [0])) := by
  rw [destinations, h, udpReadSocketParser_answer]

section Bytes

variable {length : BitVec 16} {p : SaraN2UDPPacketMetadata} {tempBuffer : Nat → UInt8}

theorem socketReceiveBytes_failed (h : heard none reads = none) :
    (d.socketReceiveBytes buffer length p tempBuffer reads).size = 0 := by
  unfold Device.socketReceiveBytes
  split <;> exact socketReceive_failed h

/-- An `OK` alone: the size is what the metadata held before. -/
theorem socketReceiveBytes_alone (hpending : d.pendingUDPBytes ≠ 0)
    (h : heard none reads = some none) :
    (d.socketReceiveBytes buffer length p tempBuffer reads).size = p.length ∧
      (d.socketReceiveBytes buffer length p tempBuffer reads).packet = p := by
  unfold Device.socketReceiveBytes
  obtain ⟨hsize, hpacket, _⟩ := socketReceive_heard p
    { size := 256, cells := tempBuffer } (minSize length (minSize 256 d.pendingUDPBytes))
    hpending h
  split <;> exact ⟨hsize, hpacket⟩

/-- The payload of the answer is stored from the start of the array on. -/
theorem socketReceiveBytes_answer (hpending : d.pendingUDPBytes ≠ 0)
    (hlength : 0 < length.toNat) {r : LineRead} {a : SocketAnswer}
    (h : heard none reads = some (some r)) (hr : r.text = a.text)
    (hfit : a.payload.length < 32768) :
    (d.socketReceiveBytes buffer length p tempBuffer reads).size.toNat = a.payload.length ∧
      (d.socketReceiveBytes buffer length p tempBuffer reads).packet = a.metadata ∧
      (d.socketReceiveBytes buffer length p tempBuffer reads).buffer =
        buffer.store 0 a.payload := by
  obtain ⟨hsize, hpacket, hbuffer⟩ := socketReceive_heard p
    { size := 256, cells := tempBuffer } (minSize length (minSize 256 d.pendingUDPBytes))
    hpending h
  rw [destinations_answer hr] at hsize hpacket hbuffer
  have hint : (BitVec.ofInt 16 a.payload.length).toNat = a.payload.length := by
    rw [BitVec.toNat_ofInt]
    omega
  have hcount : (BitVec.ofInt 16 a.payload.length * 2#16).toNat / 2 = a.payload.length := by
    rw [BitVec.toNat_mul, hint]
    simp only [BitVec.toNat_ofNat]
    omega
  unfold Device.socketReceiveBytes
  rw [if_pos hlength]
  refine ⟨(congrArg BitVec.toNat hsize).trans hint, hpacket, ?_⟩
  simp only [hsize, hbuffer]
  rw [show a.metadata.length = BitVec.ofInt 16 a.payload.length from rfl, hcount,
    hexToBytes_store]

end Bytes

end NbIot
