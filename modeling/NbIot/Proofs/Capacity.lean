import NbIot.Proofs.Framing

/-!
# The longest reply

The answer to `AT+NSORF` is one line, two characters for every byte and some for
the rest, and the input buffer takes 249 characters of a line. A longer line is cut,
and the first piece of it is refused by the parser, so a reply is heard exactly if
its line has at most 249 characters (`reply_heard_iff`).
-/

namespace NbIot

open Lib (Buffer pieces)
open Lib.Scan (bytes byte decimal format scan isDigit Directive)

/-! ## Scanning a piece of an answer -/

/-- What comes before the text of the payload. -/
def SocketAnswer.head (a : SocketAnswer) : List UInt8 :=
  decimal a.socketID ++ 44 :: 34 :: (a.ip ++ 34 :: 44 :: (decimal a.port ++ 44 ::
    (decimal a.payload.length ++ [44, 34])))

def SocketAnswer.tail (a : SocketAnswer) : List UInt8 :=
  hexText a.payload ++ 34 :: 44 :: decimal a.remainingLength

theorem SocketAnswer.text_eq (a : SocketAnswer) : a.text = a.head ++ a.tail := by
  simp [text, head, tail]

/-- An answer that gives a dotted address and leaves less than ten bytes, with a
head that fits the buffer. -/
structure SocketAnswer.Plain (a : SocketAnswer) : Prop where
  ip : ∀ c ∈ a.ip, isDigit c = true ∨ c = 46
  head : a.head.length ≤ 248
  remaining : a.remainingLength < 10

/-- The four conversions of the head, whatever comes behind it. -/
theorem scan_head (a : SocketAnswer) (s : List UInt8) :
    scan (format "%d,\"%[^\"]\",%d,%d,\"%[^\"]\",%d") (a.head ++ s) =
      .int a.socketID :: .text a.ip :: .int a.port :: .int a.payload.length ::
        scan [.notIn 34, .lit 34, .lit 44, .int] s := by
  have hfmt : format "%d,\"%[^\"]\",%d,%d,\"%[^\"]\",%d" =
      [.int, .lit 44, .lit 34, .notIn 34, .lit 34, .lit 44, .int, .lit 44, .int, .lit 44,
        .lit 34, .notIn 34, .lit 34, .lit 44, .int] := by decide
  have hhead : a.head ++ s = decimal a.socketID ++ 44 :: 34 :: (a.ip ++ 34 :: 44 ::
      (decimal a.port ++ 44 :: (decimal a.payload.length ++ 44 :: 34 :: s))) := by
    simp [SocketAnswer.head]
  rw [hfmt, hhead, Lib.Scan.scan_int _ stops_comma]
  simp only [Lib.Scan.scan_lit, Lib.Scan.scan_notIn a.ip_ne_nil a.ip_free,
    Lib.Scan.scan_int _ stops_comma]

/-- Of a text that breaks off before the last number one conversion is left. -/
theorem scan_cut {hex : List UInt8} (hfree : (34 : UInt8) ∉ hex) {m : Nat} (hpos : 0 < m)
    (hle : m ≤ hex.length + 2) (hne : hex ≠ []) :
    (scan [.notIn 34, .lit 34, .lit 44, .int] ((hex ++ [34, 44]).take m)).length = 1 := by
  rcases Nat.lt_or_ge hex.length m with hlong | hshort
  · -- The text is complete, and a quote or a quote and a comma follow.
    obtain ⟨k, rfl⟩ := Nat.exists_eq_add_of_lt hlong
    have htake : (hex ++ [34, 44]).take (hex.length + k + 1) = hex ++ 34 :: [44].take k := by
      rw [Nat.add_assoc, List.take_length_add_append]
      rfl
    rw [htake, Lib.Scan.scan_notIn hne hfree, Lib.Scan.scan_lit]
    have hk : k = 0 ∨ k = 1 := by omega
    rcases hk with rfl | rfl <;> rfl
  · have hall : ∀ b ∈ hex.take m, decide (b ≠ 34) = true :=
      fun b hb => decide_eq_true fun heq => hfree (heq ▸ List.mem_of_mem_take hb)
    have hnil : hex.take m ≠ [] := by
      rw [Ne, List.take_eq_nil_iff]
      rintro (h | h)
      · omega
      · exact hne h
    obtain ⟨htake, hrest⟩ := Lib.Scan.takeWhile_stops hall (stops_nil (p := fun b => b ≠ 34))
    rw [List.append_nil] at htake hrest
    rw [List.take_append_of_le_length hshort, scan]
    simp only [htake, hrest, if_neg hnil]
    rfl

theorem hexText_ne_nil (a : SocketAnswer) : hexText a.payload ≠ [] := by
  obtain ⟨b, s, hb⟩ := List.exists_cons_of_ne_nil a.ne_nil
  simp [hexText, hb, Lib.Digits.hexByte]

theorem SocketAnswer.Plain.length {a : SocketAnswer} (ha : a.Plain) :
    a.text.length = a.head.length + (hexText a.payload).length + 3 := by
  have hdigit : (decimal a.remainingLength).length = 1 := by
    rw [decimal, List.length_map, Nat.toDigits_of_lt_base ha.remaining]
    rfl
  rw [a.text_eq, List.length_append, SocketAnswer.tail, List.length_append, Nat.add_assoc]
  simp only [List.length_cons, hdigit]

/-- What the buffer takes of an answer that is too long: the head, and the text
without its end. -/
theorem take_answer {a : SocketAnswer} (ha : a.Plain) (hlong : 250 ≤ a.text.length) :
    a.text.take 249 =
      a.head ++ (hexText a.payload ++ [34, 44]).take (249 - a.head.length) := by
  have hhead := ha.head
  have hlength := ha.length
  have htail : a.tail = (hexText a.payload ++ [34, 44]) ++ decimal a.remainingLength := by
    simp [SocketAnswer.tail]
  have hroom : 249 - a.head.length ≤ (hexText a.payload ++ [34, 44]).length := by
    rw [List.length_append]
    show _ ≤ (hexText a.payload).length + 2
    omega
  rw [a.text_eq, List.take_append, List.take_of_length_le (by omega), htail,
    List.take_append_of_le_length hroom]

theorem scan_take {a : SocketAnswer} (ha : a.Plain) (hlong : 250 ≤ a.text.length) :
    (scan (format "%d,\"%[^\"]\",%d,%d,\"%[^\"]\",%d") (a.text.take 249)).length = 5 := by
  have hhead := ha.head
  have hlength := ha.length
  have hfree : (34 : UInt8) ∉ hexText a.payload := fun h => (hexText_printable h).2 rfl
  have hone := scan_cut hfree (m := 249 - a.head.length) (by omega) (by omega)
    (hexText_ne_nil a)
  rw [take_answer ha hlong, scan_head]
  simp only [List.length_cons, hone]

/-- A line that starts with a digit is not an answer of the other kind. -/
theorem scan_usorf {b : UInt8} {s : List UInt8} (hb : isDigit b = true) :
    scan (format "+USORF: %d,\"%[^\"]\",%d,%d,\"%[^\"]\"") (b :: s) = [] := by
  have hfmt : format "+USORF: %d,\"%[^\"]\",%d,%d,\"%[^\"]\"" =
      (bytes "+USORF:").map .lit ++ ([.space, .int, .lit 44, .lit 34, .notIn 34, .lit 34,
        .lit 44, .int, .lit 44, .int, .lit 44, .lit 34, .notIn 34, .lit 34] :
          List Directive) := by decide
  rw [hfmt]
  refine Lib.Scan.scan_lits_of_not_prefix fun h => ?_
  rw [← (List.cons_prefix_cons.mp h).1] at hb
  exact absurd hb (by decide)

/-- An answer without its end is refused. -/
theorem udpReadSocketParser_take {a : SocketAnswer} (ha : a.Plain)
    (hlong : 250 ≤ a.text.length) (n : Nat) (params : SaraN2UDPPacketMetadata × Buffer) :
    (udpReadSocketParser (a.text.take 249) n params).1 = .error := by
  have hfive := scan_take ha hlong
  obtain ⟨b, s, htext, hb⟩ := answer_head a
  have hstart : a.text.take 249 = b :: s.take 248 := by rw [htext, List.take_succ_cons]
  have hcr : (a.text.take 249).head? ≠ some 13 := by
    intro h
    rw [hstart] at h
    rw [Option.some.inj h] at hb
    exact absurd hb (by decide)
  unfold udpReadSocketParser
  rw [if_neg (fun h => hcr h.2)]
  simp only []
  rw [if_neg (by rw [hfive]; decide), hstart, scan_usorf hb]
  rfl

/-! ## The two lines of the answer, from the port -/

/-- The characters of an answer. -/
theorem SocketAnswer.Plain.printable {a : SocketAnswer} (ha : a.Plain) {c : UInt8}
    (hc : c ∈ a.text) : c ≠ 10 ∧ c ≠ 13 ∧ c ≠ 0 := by
  have hall : ∀ b : BitVec 8, isDigit ⟨b⟩ = true →
      (⟨b⟩ : UInt8) ≠ 10 ∧ (⟨b⟩ : UInt8) ≠ 13 ∧ (⟨b⟩ : UInt8) ≠ 0 := by decide +kernel
  have hdigit : ∀ {c : UInt8}, isDigit c = true → c ≠ 10 ∧ c ≠ 13 ∧ c ≠ 0 :=
    fun {c} h => hall c.toBitVec h
  have hhex : ∀ {c : UInt8}, c ∈ hexText a.payload → c ≠ 10 ∧ c ≠ 13 ∧ c ≠ 0 := by
    intro c hc
    obtain ⟨d, hd, rfl⟩ := List.mem_map.mp hc
    obtain ⟨b, _, hb⟩ := List.mem_flatMap.mp hd
    have hchar : ∀ n : Fin 16, byte (Lib.Digits.hexDigit n) ≠ 10 ∧
        byte (Lib.Digits.hexDigit n) ≠ 13 ∧ byte (Lib.Digits.hexDigit n) ≠ 0 := by decide
    have hlt := b.toNat_lt
    simp only [Lib.Digits.hexByte, List.mem_cons, List.not_mem_nil, or_false] at hb
    rcases hb with rfl | rfl
    · exact hchar ⟨b.toNat / 16, by omega⟩
    · exact hchar ⟨b.toNat % 16, by omega⟩
  simp only [SocketAnswer.text, List.mem_append, List.mem_cons] at hc
  rcases hc with h | rfl | rfl | h | rfl | rfl | h | rfl | h | rfl | rfl | h | rfl | rfl | h
  all_goals first
    | decide
    | exact hdigit (Lib.Scan.isDigit_decimal c h)
    | exact hhex h
    | skip
  rcases ha.ip c h with h | rfl
  · exact hdigit h
  · decide

/-- A line that is in time. -/
theorem readResponse_timely {σ : Type} {r : LineRead} (h : r.timedOut = false) (d : Device)
    (parserMethod : Option (ParserMethod σ)) (params : σ) (reads : List LineRead) :
    d.readResponse parserMethod params (r :: reads) =
      match d.readOne parserMethod params r with
      | .done type d params => ⟨type, d, params, reads⟩
      | .more d parserMethod params => d.readResponse parserMethod params reads := by
  rw [Device.readResponse, h]
  cases d.readOne parserMethod params r <;> rfl

/-- A line that starts with a digit goes to the parser. -/
theorem readOne_digit {r : LineRead} {b : UInt8} {s : List UInt8} (hb : isDigit b = true)
    (hline : r.line = b :: s) (hfree : (0 : UInt8) ∉ r.line) (d : Device)
    (params : SaraN2UDPPacketMetadata × Buffer) :
    d.readOne (some udpReadSocketParser) params r =
      match udpReadSocketParser r.line r.line.length params with
      | (.empty, params) => .more d none params
      | (.pendingExtra, params) => .more d (some udpReadSocketParser) params
      | (parserResponse, params) => .done parserResponse d params := by
  have htext : r.text = r.line := cString_of_not_mem hfree
  obtain ⟨hturn, hcollect⟩ := digit_line (s := s) hb
  have hsame := hcollect d r (htext.trans hline)
  rw [← hline, ← htext] at hturn
  unfold Device.readOne
  rw [if_neg (by rw [hline]; exact List.cons_ne_nil b s), hsame, hturn, htext]
  simp only []
  cases h : udpReadSocketParser r.line r.line.length params with
  | mk type params => cases type <;> rfl

/-- The final line, whatever else is in the local array. -/
theorem readOne_ok {σ : Type} {r : LineRead} (hline : r.line = bytes "OK") (d : Device)
    (parserMethod : Option (ParserMethod σ)) (params : σ) :
    d.readOne parserMethod params r = .done .ok d params := by
  have htext : r.text = bytes "OK" := by rw [LineRead.text, hline]; decide
  have hnone : ufotas (bytes "OK") = false ∧ nsonmi (bytes "OK") = none ∧
      cgsnToken (bytes "OK") = none ∧ turn (bytes "OK") = .done .ok := by decide +kernel
  obtain ⟨hu, hn, hc, hturn⟩ := hnone
  have hcollect : d.collect r = d := by
    simp only [Device.collect, htext, hu, hn, hc]
    rfl
  unfold Device.readOne
  rw [if_neg (by rw [hline]; decide), hcollect, htext, hturn]

/-- The answer and the final line, as the modem prints them. -/
def SocketAnswer.stream (a : SocketAnswer) : List UInt8 := printed [a.text, bytes "OK"]

theorem stream_eq (a : SocketAnswer) :
    a.stream = a.text ++ 13 :: 10 :: printed [bytes "OK"] := printed_cons a.text [bytes "OK"]

theorem ok_fits : ∀ l ∈ [bytes "OK"], (10 : UInt8) ∉ l ∧ l.length ≤ 247 := by decide

/-- The pieces of an answer that fits, but for the carriage return and the line
feed. -/
theorem pieces_answer {a : SocketAnswer} (ha : a.Plain) (hfits : a.text.length ≤ 249) :
    (pieces 10 248 a.stream).map chomp = [a.text, bytes "OK"] ∨
      (pieces 10 248 a.stream).map chomp = [a.text, [], bytes "OK"] := by
  have hlf : (10 : UInt8) ∉ a.text := fun h => (ha.printable h).1 rfl
  have hcr : a.text.getLast? ≠ some 13 :=
    fun h => (ha.printable (List.mem_of_mem_getLast? h)).2.1 rfl
  have hok : (pieces 10 248 (printed [bytes "OK"])).map chomp = [bytes "OK"] := by
    rw [pieces_printed ok_fits]
    decide
  rw [stream_eq, pieces_of_line hlf hcr hfits, hok]
  by_cases hshort : a.text.length < 248
  · rw [if_pos hshort]
    exact Or.inl rfl
  · rw [if_neg hshort]
    exact Or.inr rfl

theorem pieces_too_long {a : SocketAnswer} (ha : a.Plain) (hlong : 250 ≤ a.text.length) :
    ∃ more, (pieces 10 248 a.stream).map chomp = a.text.take 249 :: more := by
  have hfree : ∀ c ∈ a.text.take 249, c ≠ 10 ∧ c ≠ 13 ∧ c ≠ 0 :=
    fun c hc => ha.printable (List.mem_of_mem_take hc)
  have hlen : (a.text.take 249).length = 248 + 1 := by
    rw [List.length_take]
    omega
  have hchomp : chomp (a.text.take 249) = a.text.take 249 :=
    if_neg fun h => (hfree 13 (List.mem_of_mem_getLast? h)).2.1 rfl
  have hfirst := Lib.piece_full (fun h => (hfree 10 h).1 rfl)
    (a.text.drop 249 ++ 13 :: 10 :: printed [bytes "OK"])
  rw [hlen, ← List.append_assoc, List.take_append_drop] at hfirst
  have hne : a.stream ≠ [] := by rw [stream_eq]; simp
  rw [Lib.pieces_of_ne_nil hne, stream_eq, hfirst, List.map_cons, hchomp]
  exact ⟨_, rfl⟩

/-! ## The response -/

section Response

variable {a : SocketAnswer} (ha : a.Plain) (d : Device)
  (params : SaraN2UDPPacketMetadata × Buffer) {reads : List LineRead}
  (htimely : ∀ r ∈ reads, r.timedOut = false)

include ha htimely

/-- An answer that is read whole is taken. -/
theorem response_answer (hlines : reads.map LineRead.line = [a.text, bytes "OK"] ∨
      reads.map LineRead.line = [a.text, [], bytes "OK"]) :
    (d.readResponse (some udpReadSocketParser) params reads).outcome =
      (.ok, d, (a.metadata, params.2.store 0 (hexText a.payload ++ [0]))) := by
  obtain ⟨b, s, htext, hb⟩ := answer_head a
  have hnul : (0 : UInt8) ∉ a.text := fun h => (ha.printable h).2.2 rfl
  have hanswer : ∀ r : LineRead, r.line = a.text →
      d.readOne (some udpReadSocketParser) params r =
        .more d none (a.metadata, params.2.store 0 (hexText a.payload ++ [0])) := by
    intro r hr
    rw [readOne_digit hb (hr.trans htext) (by rw [hr]; exact hnul), hr,
      udpReadSocketParser_answer]
  rcases hlines with hlines | hlines
  · obtain ⟨r, _, rfl, hr, hmore⟩ := List.map_eq_cons_iff.mp hlines
    obtain ⟨r', _, rfl, hr', _⟩ := List.map_eq_cons_iff.mp hmore
    rw [readResponse_timely (htimely r (by simp)), hanswer r hr]
    simp only []
    rw [readResponse_timely (htimely r' (by simp)), readOne_ok hr']
    rfl
  · obtain ⟨r, _, rfl, hr, hmore⟩ := List.map_eq_cons_iff.mp hlines
    obtain ⟨e, _, rfl, he, hmore⟩ := List.map_eq_cons_iff.mp hmore
    obtain ⟨r', _, rfl, hr', _⟩ := List.map_eq_cons_iff.mp hmore
    rw [readResponse_timely (htimely r (by simp)), hanswer r hr]
    simp only []
    rw [readResponse_timely (htimely e (by simp)), readOne_empty he]
    simp only []
    rw [readResponse_timely (htimely r' (by simp)), readOne_ok hr']
    rfl

/-- One that is cut ends the response. -/
theorem response_cut (hlong : 250 ≤ a.text.length) {more : List (List UInt8)}
    (hlines : reads.map LineRead.line = a.text.take 249 :: more) :
    ∃ params', (d.readResponse (some udpReadSocketParser) params reads).outcome =
      (.error, d, params') := by
  obtain ⟨b, s, htext, hb⟩ := answer_head a
  have hstart : a.text.take 249 = b :: s.take 248 := by rw [htext, List.take_succ_cons]
  have hnul : (0 : UInt8) ∉ a.text.take 249 :=
    fun h => (ha.printable (List.mem_of_mem_take h)).2.2 rfl
  have herror := udpReadSocketParser_take ha hlong (a.text.take 249).length params
  obtain ⟨r, rest, rfl, hr, _⟩ := List.map_eq_cons_iff.mp hlines
  rw [readResponse_timely (htimely r (by simp)),
    readOne_digit hb (hr.trans hstart) (by rw [hr]; exact hnul), hr]
  cases hparsed : udpReadSocketParser (a.text.take 249) (a.text.take 249).length params with
  | mk type params' =>
      rw [hparsed] at herror
      rw [show type = .error from herror]
      exact ⟨params', rfl⟩

end Response

/-- An answer that is printed in time is heard exactly if its line has at most 249
characters, and then all of it is. Either way the device is left as it was. -/
theorem reply_heard_iff {a : SocketAnswer} (ha : a.Plain) (d : Device)
    (params : SaraN2UDPPacketMetadata × Buffer) (cgsn : Nat → Nat → UInt8) (buffer : Buffer)
    (now : Nat) {timeout : Nat} {polls : List Poll} (h : Brings 250 polls a.stream)
    (htimeout : timeout < 2 ^ 32)
    (htime : duration polls + 10 * (pieces 10 248 a.stream).length + 250 ≤ timeout) :
    let response := d.readPort (some udpReadSocketParser) params timeout cgsn buffer ⟨now, polls⟩
    (response.type = .ok ↔ a.text.length ≤ 249) ∧
      (response.type = .ok → response.params =
        (a.metadata, params.2.store 0 (hexText a.payload ++ [0]))) ∧
      (¬ response.type = .ok → response.type = .error) ∧ response.device = d := by
  intro response
  obtain ⟨_, reads, hlines, htimely, houtcome⟩ :=
    readPort_pieces d (some udpReadSocketParser) params cgsn buffer now h htimeout htime
  rcases Nat.lt_or_ge a.text.length 250 with hfits | hlong
  · have hwhole := pieces_answer ha (by omega)
    rw [← hlines] at hwhole
    have hall := houtcome.trans (response_answer ha d params htimely hwhole)
    have htype : response.type = .ok := congrArg Prod.fst hall
    exact ⟨iff_of_true htype (by omega), fun _ => congrArg (fun o => o.2.2) hall,
      fun hne => absurd htype hne, congrArg (fun o => o.2.1) hall⟩
  · obtain ⟨more, hpieces⟩ := pieces_too_long ha hlong
    obtain ⟨params', hcut⟩ := response_cut ha d params htimely hlong (hlines.trans hpieces)
    have hall := houtcome.trans hcut
    have htype : response.type = .error := congrArg Prod.fst hall
    have hnot : ¬ response.type = .ok := by rw [htype]; decide
    exact ⟨iff_of_false hnot (by omega), fun hok => absurd hok hnot, fun _ => htype,
      congrArg (fun o => o.2.1) hall⟩

/-- The server's line feed, by which a node is reset. -/
theorem reset_is_heard :
    (({} : Device).readPort (some udpReadSocketParser)
      (⟨0, [], 0, 0, 0⟩, { size := 256, cells := fun _ => 0 }) 5000 (fun _ _ => 0)
      Small.inputBuffer ⟨0, Small.quick (Small.answer 10 []).stream⟩).type = .ok := by
  have hcount := Nat.mul_le_mul_left 10
    (Lib.pieces_length_le 10 248 (Small.answer 10 []).stream)
  have hplain : (Small.answer 10 []).Plain :=
    ⟨by decide +kernel, by decide +kernel, by decide⟩
  refine (reply_heard_iff hplain {} _ _ _ 0
    (Small.brings_quick _) (by decide) (Nat.le_trans
      (Nat.add_le_add_right (Nat.add_le_add_left hcount _) _) (by decide))).1.mpr (by decide)

end NbIot
