import NbIot.Lib.Pieces
import NbIot.Node.Udp

/-!
# The lines of the modem, as the modem prints them

The other side of `readResponse`: an announcement of a datagram, the answer to
`AT+NSORF`, and the two final lines. Every one of them is read back as what it
was printed from, so the scripts of the modem can be written in these terms. What
a turn reads of them is a piece that fits the buffer, so a line that does not fit
is read in parts.
-/

namespace NbIot

open Lib (Buffer piece pieces)
open Lib.Scan (bytes byte decimal format scan isDigit Stops)

/-- A datagram was received, with a length that an `int` holds. -/
structure Announcement where
  socketID : Nat
  dataLength : Nat
  fits : dataLength < 32768

/-- The answer to `AT+NSORF`: bytes of one datagram and where it came from. -/
structure SocketAnswer where
  socketID : Nat
  ip : List UInt8
  port : Nat
  payload : List UInt8
  remainingLength : Nat
  socket_le : socketID ≤ 255
  ip_ne_nil : ip ≠ []
  ip_free : (34 : UInt8) ∉ ip
  ip_nul_free : (0 : UInt8) ∉ ip
  ne_nil : payload ≠ []

/-- Bytes as the modem spells them. -/
def hexText (bs : List UInt8) : List UInt8 := (bs.flatMap Lib.Digits.hexByte).map byte

inductive ModemLine where
  | nsonmi (n : Announcement)
  | answer (a : SocketAnswer)
  | ok
  | error

def Announcement.text (n : Announcement) : List UInt8 :=
  bytes "+NSONMI:" ++ 32 :: (decimal n.socketID ++ 44 :: decimal n.dataLength)

def SocketAnswer.text (a : SocketAnswer) : List UInt8 :=
  decimal a.socketID ++ 44 :: 34 :: (a.ip ++ 34 :: 44 :: (decimal a.port ++ 44 ::
    (decimal a.payload.length ++ 44 :: 34 :: (hexText a.payload ++ 34 :: 44 ::
      decimal a.remainingLength))))

def ModemLine.text : ModemLine → List UInt8
  | nsonmi n => n.text
  | answer a => a.text
  | ok => bytes "OK"
  | error => bytes "ERROR"

/-! ## What a turn reads of it -/

/-- What the modem prints for a list of lines. -/
def printed (ls : List (List UInt8)) : List UInt8 := ls.flatMap (· ++ [13, 10])

/-- A line without the carriage return at its end. -/
def chomp (p : List UInt8) : List UInt8 := if p.getLast? = some 13 then p.dropLast else p

@[simp] theorem chomp_append (l : List UInt8) : chomp (l ++ [13]) = l := by
  rw [chomp, if_pos (by rw [List.getLast?_concat]), List.dropLast_concat]

theorem printed_cons (l : List UInt8) (ls : List (List UInt8)) :
    printed (l :: ls) = l ++ 13 :: 10 :: printed ls := by simp [printed]

/-- A line of at most 249 characters is read whole. From 248 on, the buffer is full
before the line feed, and that is read as a line of its own. -/
theorem pieces_of_line {l : List UInt8} (hlf : (10 : UInt8) ∉ l) (hcr : l.getLast? ≠ some 13)
    (hlen : l.length ≤ 249) (cs : List UInt8) :
    (pieces 10 248 (l ++ 13 :: 10 :: cs)).map chomp =
      l :: ((if l.length < 248 then [] else [[]]) ++ (pieces 10 248 cs).map chomp) := by
  have hne : l ++ 13 :: 10 :: cs ≠ [] := by simp
  have hlf' : (10 : UInt8) ∉ l ++ [13] := List.not_mem_append hlf (by decide)
  rw [Lib.pieces_of_ne_nil hne]
  rcases Nat.lt_or_ge l.length 248 with hshort | hlong
  · have hfirst : piece 10 (248 + 1) (l ++ 13 :: 10 :: cs) = (l ++ [13], cs) := by
      rw [show l ++ 13 :: 10 :: cs = (l ++ [13]) ++ 10 :: cs by simp]
      refine Lib.piece_line hlf' ?_ cs
      rw [List.length_append, List.length_singleton]
      omega
    rw [hfirst, List.map_cons, chomp_append, if_pos hshort]
    rfl
  rw [if_neg (by omega)]
  rcases Nat.lt_or_ge l.length 249 with h248 | h249
  · -- The carriage return is the last character that fits.
    have hroom : (l ++ [13]).length = 248 + 1 := by
      rw [List.length_append, List.length_singleton]
      omega
    have hfirst : piece 10 (248 + 1) (l ++ 13 :: 10 :: cs) = (l ++ [13], 10 :: cs) := by
      rw [← hroom, ← Lib.piece_full hlf', List.append_assoc]
      rfl
    have hfeed : piece 10 (248 + 1) (10 :: cs) = ([], cs) :=
      Lib.piece_line (l := []) List.not_mem_nil (by decide) cs
    rw [hfirst]
    simp only []
    rw [Lib.pieces_of_ne_nil (List.cons_ne_nil _ _), hfeed, List.map_cons, List.map_cons,
      chomp_append]
    rfl
  · have hroom : l.length = 248 + 1 := by omega
    have hfirst : piece 10 (248 + 1) (l ++ 13 :: 10 :: cs) = (l, 13 :: 10 :: cs) := by
      rw [← hroom]
      exact Lib.piece_full hlf _
    have hfeed : piece 10 (248 + 1) (13 :: 10 :: cs) = ([13], cs) :=
      Lib.piece_line (l := [13]) (by decide) (by decide) cs
    rw [hfirst]
    simp only []
    rw [Lib.pieces_of_ne_nil (List.cons_ne_nil _ _), hfeed, List.map_cons, List.map_cons,
      chomp, if_neg hcr]
    rfl

/-- What the turns of a response read of some lines, with no time lost between them. -/
def readsOf (ls : List ModemLine) : List LineRead :=
  ((pieces 10 248 (printed (ls.map ModemLine.text))).map chomp).map .of

/-- The line is one for the modem, and has room in the buffer. -/
structure ModemLine.Fits (l : ModemLine) : Prop where
  lf_free : (10 : UInt8) ∉ l.text
  length_le : l.text.length ≤ 249

/-! ## The text of a line is a C string -/

theorem nul_not_mem_decimal (n : Nat) : (0 : UInt8) ∉ decimal n := by
  intro h
  exact absurd (Lib.Scan.isDigit_decimal 0 h) (by decide)

/-- A spelled byte is spelled in printable characters other than a quote. -/
theorem hexText_printable {bs : List UInt8} {c : UInt8} (h : c ∈ hexText bs) :
    c ≠ 0 ∧ c ≠ 34 := by
  have hdigit : ∀ n : Fin 16, byte (Lib.Digits.hexDigit n) ≠ 0 ∧
      byte (Lib.Digits.hexDigit n) ≠ 34 := by decide
  obtain ⟨d, hd, rfl⟩ := List.mem_map.mp h
  obtain ⟨b, _, hb⟩ := List.mem_flatMap.mp hd
  have hlt := b.toNat_lt
  simp only [Lib.Digits.hexByte, List.mem_cons, List.not_mem_nil, or_false] at hb
  rcases hb with rfl | rfl
  · exact hdigit ⟨b.toNat / 16, by omega⟩
  · exact hdigit ⟨b.toNat % 16, by omega⟩

theorem cString_of_not_mem {s : List UInt8} (h : (0 : UInt8) ∉ s) : cString s = s := by
  refine List.takeWhile_eq_self_iff.mpr fun b hb => decide_eq_true fun h0 => h ?_
  rw [← h0]
  exact hb

@[simp] theorem ModemLine.of_text (l : ModemLine) : (LineRead.of l.text).text = l.text := by
  refine cString_of_not_mem ?_
  cases l with
  | nsonmi n =>
      simp only [text, Announcement.text, LineRead.of, List.mem_append, List.mem_cons,
        nul_not_mem_decimal, or_false, not_or]
      exact ⟨by decide, by decide, by decide⟩
  | answer a =>
      have hhex : (0 : UInt8) ∉ hexText a.payload := fun h => (hexText_printable h).1 rfl
      simp only [text, SocketAnswer.text, LineRead.of, List.mem_append, List.mem_cons,
        nul_not_mem_decimal, a.ip_nul_free, hhex, or_false, not_or]
      exact ⟨by decide, by decide, by decide, by decide, by decide, by decide, by decide,
        by decide, by decide⟩
  | ok => decide
  | error => decide

/-! ## What a line is read as -/

theorem stops_comma {rest : List UInt8} : Stops isDigit (44 :: rest) := by
  intro b hb
  rw [← Option.some.inj hb]
  decide

theorem stops_nil {p : UInt8 → Bool} : Stops p [] := fun _ hb => by cases hb

/-- A number starts with a digit. -/
theorem decimal_head (n : Nat) (rest : List UInt8) :
    ∃ b s, decimal n ++ rest = b :: s ∧ isDigit b = true := by
  obtain ⟨b, s, hdec⟩ := List.exists_cons_of_ne_nil (Lib.Scan.decimal_ne_nil n)
  refine ⟨b, s ++ rest, by rw [hdec]; rfl, ?_⟩
  exact Lib.Scan.isDigit_decimal (n := n) b (by rw [hdec]; exact List.mem_cons_self)

theorem stops_space {n : Nat} {rest : List UInt8} :
    Stops Lib.Scan.isSpace (decimal n ++ rest) := by
  obtain ⟨b, s, hdec, hb⟩ := decimal_head n rest
  have hdigit : ∀ b : BitVec 8, isDigit ⟨b⟩ = true → Lib.Scan.isSpace ⟨b⟩ = false := by
    decide +kernel
  intro c hc
  rw [hdec] at hc
  rw [← Option.some.inj hc]
  exact hdigit b.toBitVec hb

/-- The announcement is read back. -/
theorem nsonmi_text (n : Announcement) :
    nsonmi n.text = some ((n.socketID : Int), (n.dataLength : Int)) := by
  have hend : scan [.int] (decimal n.dataLength ++ []) = [.int n.dataLength] :=
    Lib.Scan.scan_int n.dataLength stops_nil
  rw [List.append_nil] at hend
  rw [nsonmi, format_nsonmi, Announcement.text, Lib.Scan.scan_lits, Lib.Scan.scan_space stops_space,
    Lib.Scan.scan_int _ stops_comma, Lib.Scan.scan_lit, hend]

theorem ufotas_nsonmi (n : Announcement) : ufotas n.text = false :=
  ufotas_false (by simp [Announcement.text, bytes, byte])

theorem collect_nsonmi (d : Device) (n : Announcement) :
    d.collect (.of (ModemLine.nsonmi n).text) =
      { d with
        receivedUDPResponseSocket := BitVec.ofInt 16 n.socketID
        pendingUDPBytes := BitVec.ofInt 16 n.dataLength } := by
  rw [Device.collect, (ModemLine.nsonmi n).of_text]
  simp only [ModemLine.text, ufotas_nsonmi, nsonmi_text]
  rfl

theorem turn_nsonmi (n : Announcement) : turn n.text = .next := by
  simp only [turn, ufotas_nsonmi, nsonmi_text]
  rfl

theorem startsWith_of_ne {pre : String} {b c : UInt8} {w s : List UInt8}
    (hpre : bytes pre = c :: w) (h : b ≠ c) : startsWith pre (b :: s) = false := by
  rw [startsWith, hpre, List.isPrefixOf, beq_false_of_ne (Ne.symm h), Bool.false_and]

/-- A line that starts with a digit is for the parser, and for nothing else. -/
theorem digit_line {b : UInt8} {s : List UInt8} (h : isDigit b = true) :
    turn (b :: s) = .parse ∧
      ∀ (d : Device) (r : LineRead), r.text = b :: s → d.collect r = d := by
  have hletters : ∀ b : BitVec 8, isDigit ⟨b⟩ = true →
      (⟨b⟩ : UInt8) ≠ 43 ∧ (⟨b⟩ : UInt8) ≠ 65 ∧ (⟨b⟩ : UInt8) ≠ 79 ∧ (⟨b⟩ : UInt8) ≠ 69 := by
    decide +kernel
  obtain ⟨hplus, hA, hO, hE⟩ := hletters b.toBitVec h
  have hno : ∀ {w : List UInt8} {c}, w = 43 :: c → ¬ w <+: b :: s := by
    intro w c hw hpre
    rw [hw] at hpre
    exact hplus (List.cons_prefix_cons.mp hpre).1.symm
  have hu : ufotas (b :: s) = false := ufotas_false (hno rfl)
  have hn : nsonmi (b :: s) = none := nsonmi_none (hno rfl)
  have hc : cgsnToken (b :: s) = none := cgsnToken_none (hno rfl)
  have hAT : startsWith "AT" (b :: s) = false := startsWith_of_ne rfl hA
  have hOK : startsWith "OK" (b :: s) = false := startsWith_of_ne rfl hO
  have hERR : startsWith "ERROR" (b :: s) = false := startsWith_of_ne rfl hE
  have hCME : startsWith "+CME ERROR:" (b :: s) = false := startsWith_of_ne rfl hplus
  have hCMS : startsWith "+CMS ERROR:" (b :: s) = false := startsWith_of_ne rfl hplus
  refine ⟨?_, fun d r hr => ?_⟩
  · simp only [turn, hu, hn, hAT, hOK, hERR, hCME, hCMS]
    rfl
  · simp only [Device.collect, hr, hu, hn, hc]
    rfl

theorem answer_head (a : SocketAnswer) :
    ∃ b s, a.text = b :: s ∧ isDigit b = true := decimal_head a.socketID _

theorem turn_answer (a : SocketAnswer) : turn a.text = .parse := by
  obtain ⟨b, s, htext, hb⟩ := answer_head a
  rw [htext]
  exact (digit_line hb).1

theorem collect_answer (d : Device) (a : SocketAnswer) :
    d.collect (.of (ModemLine.answer a).text) = d := by
  obtain ⟨b, s, htext, hb⟩ := answer_head a
  exact (digit_line hb).2 d _ ((ModemLine.of_text _).trans htext)

theorem turn_final : turn (ModemLine.ok).text = .done .ok ∧
    turn (ModemLine.error).text = .done .error := by decide +kernel

theorem collect_final (d : Device) :
    d.collect (.of (ModemLine.ok).text) = d ∧ d.collect (.of (ModemLine.error).text) = d := by
  have hnone : ∀ s ∈ [(ModemLine.ok).text, (ModemLine.error).text],
      ufotas s = false ∧ nsonmi s = none ∧ cgsnToken s = none := by decide +kernel
  have hskip : ∀ l : ModemLine, l.text ∈ [(ModemLine.ok).text, (ModemLine.error).text] →
      d.collect (.of l.text) = d := by
    intro l hl
    obtain ⟨hu, hn, hc⟩ := hnone _ hl
    simp only [Device.collect, ModemLine.of_text, hu, hn, hc]
    rfl
  exact ⟨hskip .ok (by simp), hskip .error (by simp)⟩

/-- The answer is read back, all six conversions. -/
theorem scan_answer (a : SocketAnswer) :
    scan (format "%d,\"%[^\"]\",%d,%d,\"%[^\"]\",%d") a.text =
      [.int a.socketID, .text a.ip, .int a.port, .int a.payload.length,
        .text (hexText a.payload), .int a.remainingLength] := by
  have hfmt : format "%d,\"%[^\"]\",%d,%d,\"%[^\"]\",%d" =
      [.int, .lit 44, .lit 34, .notIn 34, .lit 34, .lit 44, .int, .lit 44, .int, .lit 44,
        .lit 34, .notIn 34, .lit 34, .lit 44, .int] := by decide
  have hhex : hexText a.payload ≠ [] := by
    obtain ⟨b, s, hb⟩ := List.exists_cons_of_ne_nil a.ne_nil
    simp [hexText, hb, Lib.Digits.hexByte]
  have hfree : (34 : UInt8) ∉ hexText a.payload := fun h => (hexText_printable h).2 rfl
  have hend : scan [.int] (decimal a.remainingLength ++ []) = [.int a.remainingLength] :=
    Lib.Scan.scan_int a.remainingLength stops_nil
  rw [List.append_nil] at hend
  rw [hfmt, SocketAnswer.text, Lib.Scan.scan_int _ stops_comma]
  simp only [Lib.Scan.scan_lit, Lib.Scan.scan_notIn a.ip_ne_nil a.ip_free,
    Lib.Scan.scan_int _ stops_comma, Lib.Scan.scan_notIn hhex hfree, hend]

/-- The metadata an answer is read as. -/
def SocketAnswer.metadata (a : SocketAnswer) : SaraN2UDPPacketMetadata where
  socketID := .ofBitVec ((BitVec.ofInt 16 a.socketID).setWidth 8)
  ip := a.ip
  port := BitVec.ofInt 16 a.port
  length := BitVec.ofInt 16 a.payload.length
  remainingLength := BitVec.ofInt 16 a.remainingLength

theorem udpReadSocketParser_answer (a : SocketAnswer) (n : Nat)
    (params : SaraN2UDPPacketMetadata × Buffer) :
    udpReadSocketParser a.text n params =
      (.empty, a.metadata, params.2.store 0 (hexText a.payload ++ [0])) := by
  obtain ⟨b, s, htext, hb⟩ := answer_head a
  have hcr : a.text.head? ≠ some 13 := by
    intro h
    rw [htext] at h
    rw [Option.some.inj h] at hb
    exact absurd hb (by decide)
  have hsocket : (BitVec.ofInt 16 a.socketID).toInt ≤ 255 := by
    have hle := a.socket_le
    rw [BitVec.toInt_ofInt, Int.bmod_def]
    omega
  simp only [udpReadSocketParser, hcr, and_false, if_false, scan_answer]
  rw [if_pos (by rfl)]
  exact if_pos hsocket

/-! ## The payload, from its text -/

theorem hexPairToByte_hexByte (b : UInt8) :
    hexPairToByte (byte (Lib.Digits.hexDigit (b.toNat / 16)))
      (byte (Lib.Digits.hexDigit (b.toNat % 16))) = b := by
  have hall : ∀ b : BitVec 8,
      hexPairToByte (byte (Lib.Digits.hexDigit (b.toNat / 16)))
        (byte (Lib.Digits.hexDigit (b.toNat % 16))) = ⟨b⟩ := by decide +kernel
  exact hall b.toBitVec

theorem hexText_pair {bs : List UInt8} {k : Nat} (h : k < bs.length) :
    (hexText bs)[2 * k]? = some (byte (Lib.Digits.hexDigit (bs[k].toNat / 16))) ∧
      (hexText bs)[2 * k + 1]? = some (byte (Lib.Digits.hexDigit (bs[k].toNat % 16))) := by
  induction bs generalizing k with
  | nil => exact absurd h (by simp)
  | cons b bs ih =>
      cases k with
      | zero => exact ⟨rfl, rfl⟩
      | succ k =>
          have hstep := ih (k := k) (by rw [List.length_cons] at h; omega)
          rw [show 2 * (k + 1) = 2 * k + 1 + 1 by omega]
          exact hstep

/-- The text in the buffer is turned back into the payload. -/
theorem hexToBytes_store (buffer : Buffer) (bs : List UInt8) :
    hexToBytes (buffer.store 0 (hexText bs ++ [0])) bs.length = bs := by
  refine List.ext_getElem (by simp [hexToBytes]) fun k h₁ h₂ => ?_
  have hcell : ∀ {i : Nat} {c : UInt8}, (hexText bs)[i]? = some c →
      (buffer.store 0 (hexText bs ++ [0])).get i = c := by
    intro i c hi
    obtain ⟨hlt, hget⟩ := List.getElem?_eq_some_iff.mp hi
    have hstored := Buffer.store_cells buffer 0
      (show i < (hexText bs ++ [0]).length by rw [List.length_append]; omega)
    rw [Nat.zero_add, List.getElem_append_left hlt, hget] at hstored
    exact hstored
  obtain ⟨hhigh, hlow⟩ := hexText_pair h₂
  simp only [hexToBytes, List.getElem_map, List.getElem_range, hcell hhigh, hcell hlow]
  exact hexPairToByte_hexByte _

/-- Two answers of one text carry the same bytes from the same address. -/
theorem SocketAnswer.eq_of_text {a b : SocketAnswer} (h : a.text = b.text) :
    a.ip = b.ip ∧ a.payload = b.payload := by
  have hscan := scan_answer a
  rw [h, scan_answer b] at hscan
  simp only [List.cons.injEq, Lib.Scan.Value.text.injEq, Lib.Scan.Value.int.injEq,
    Int.natCast_inj] at hscan
  obtain ⟨_, hip, _, hlength, hhex, _⟩ := hscan
  refine ⟨hip.symm, ?_⟩
  rw [← hexToBytes_store { size := 0, cells := fun _ => 0 } a.payload, ← hhex, ← hlength,
    hexToBytes_store]

end NbIot
