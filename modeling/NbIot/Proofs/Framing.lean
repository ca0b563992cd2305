import NbIot.Lib.Pieces
import NbIot.Node.Serial

/-!
# From characters to lines

What a turn of `readResponse` reads is a piece of the stream, without the carriage
return at its end. So a response to a modem that prints in time is the response to
the pieces of what it printed (`readPort_pieces`), and those are its lines, if no
line has more than 247 characters (`readPort_printed`): with the carriage return
and one more the buffer is full, and the line feed is read as a line of its own.
-/

namespace NbIot

open Lib (Buffer piece pieces)

/-! ## The characters of a line -/

namespace Port

/-- The characters that `fill` stores. -/
def chars (terminator : UInt8) (timeout : Nat) : Nat → Port → List UInt8 × Port
  | 0, port => ([], port)
  | left + 1, port =>
      match port.timedRead timeout with
      | (none, port) => ([], port)
      | (some c, port) =>
          if c = terminator then ([], port)
          else
            let more := chars terminator timeout left port
            (c :: more.1, more.2)

theorem fill_chars (terminator : UInt8) (timeout left index : Nat) (buffer : Buffer)
    (port : Port) :
    fill terminator timeout left index buffer port =
      ⟨index + (port.chars terminator timeout left).1.length,
        buffer.store index (port.chars terminator timeout left).1,
        (port.chars terminator timeout left).2⟩ := by
  induction left generalizing index buffer port with
  | zero => rfl
  | succ left ih =>
      rw [fill, chars]
      obtain ⟨char, next⟩ := port.timedRead timeout
      cases char with
      | none => rfl
      | some c =>
          simp only []
          split
          · rfl
          · rw [ih, List.length_cons, Buffer.store, Nat.add_assoc, Nat.add_comm 1]

theorem chars_length_le (terminator : UInt8) (timeout left : Nat) (port : Port) :
    (port.chars terminator timeout left).1.length ≤ left := by
  induction left generalizing port with
  | zero => exact Nat.le_refl 0
  | succ left ih =>
      rw [chars]
      split
      · exact Nat.zero_le _
      · split
        · exact Nat.zero_le _
        · exact Nat.succ_le_succ (ih _)

/-- The characters of the next line, line feed excluded. -/
def rawLine (port : Port) : List UInt8 × Port := port.chars 10 250 (inputBufferSize - 1)

theorem rawLine_length_le (port : Port) : port.rawLine.1.length ≤ 249 :=
  chars_length_le 10 250 249 port

end Port

/-- The characters are stored, and a null behind them if there is room. -/
theorem readBytesUntil_eq (port : Port) (buffer : Buffer) :
    port.readBytesUntil 10 buffer (inputBufferSize - 1) 250 =
      ⟨port.rawLine.1.length,
        if port.rawLine.1.length < 249 then
          (buffer.store 0 port.rawLine.1).set port.rawLine.1.length 0
        else buffer.store 0 port.rawLine.1, port.rawLine.2⟩ := by
  unfold Port.readBytesUntil
  rw [if_neg (by decide), Port.fill_chars, Nat.zero_add]
  show (if port.rawLine.1.length < 249 then _ else _) = _
  split <;> rfl

theorem readBytesUntil_cells (port : Port) (buffer : Buffer) {k : Nat}
    (hk : k < port.rawLine.1.length) :
    (port.readBytesUntil 10 buffer (inputBufferSize - 1) 250).buffer.cells k =
      port.rawLine.1[k] := by
  have hcell := Buffer.store_cells buffer 0 hk
  rw [Nat.zero_add] at hcell
  rw [readBytesUntil_eq, ← hcell]
  simp only []
  split
  · exact Buffer.set_cells_of_ne (Nat.ne_of_lt hk)
  · rfl

theorem before_of_pos {len : Nat} (hpos : 0 < len) (hle : len ≤ 249) :
    Port.before len = len - 1 := by
  rw [Port.before]
  omega

theorem chomp_initial (p : List UInt8) : chomp p <+: p := by
  unfold chomp
  split
  · exact List.dropLast_prefix p
  · exact List.prefix_rfl

/-- The length of a line is positive as an `int`, too. -/
theorem count_pos {len : Nat} (hpos : 0 < len) (hle : len ≤ 249) :
    0 < (BitVec.ofNat 16 len).toInt := by
  rw [BitVec.toInt_eq_toNat_cond, BitVec.toNat_ofNat]
  split <;> omega

/-- A line feed alone, or nothing at all, is not a line, whatever stands before
the buffer. -/
theorem readLn_empty {port : Port} (h : port.rawLine.1 = []) (buffer : Buffer) :
    (port.readLn buffer inputBufferSize 250).line = [] := by
  have hlen : (port.readBytesUntil 10 buffer (inputBufferSize - 1) 250).len = 0 := by
    rw [readBytesUntil_eq, h]
    rfl
  unfold ReadChars.line Port.readLn
  simp only [hlen]
  split <;> exact if_neg (by decide)

theorem readLn_port (port : Port) (buffer : Buffer) :
    (port.readLn buffer inputBufferSize 250).port = port.rawLine.2 :=
  congrArg ReadChars.port (readBytesUntil_eq port buffer)

/-- The line of a turn. -/
theorem readLn_line (port : Port) (buffer : Buffer) :
    (port.readLn buffer inputBufferSize 250).line = chomp port.rawLine.1 := by
  by_cases hne : port.rawLine.1 = []
  · rw [readLn_empty hne, hne]
    rfl
  let read := port.readBytesUntil 10 buffer (inputBufferSize - 1) 250
  have hlen : read.len = port.rawLine.1.length :=
    congrArg ReadChars.len (readBytesUntil_eq port buffer)
  have hpos := List.length_pos_iff.mpr hne
  have hle := port.rawLine_length_le
  have hstored : ∀ k (hk : k < port.rawLine.1.length),
      read.buffer.cells k = port.rawLine.1[k] :=
    fun k hk => readBytesUntil_cells port buffer hk
  have hlast : read.buffer.get (port.rawLine.1.length - 1) = port.rawLine.1.getLast hne := by
    rw [List.getLast_eq_getElem]
    exact hstored _ (by omega)
  -- The length that is returned is that of the line without its carriage return.
  have hcount : (port.readLn buffer inputBufferSize 250).len = (chomp port.rawLine.1).length := by
    unfold Port.readLn
    show (if read.buffer.get (Port.before read.len) = 13 then Port.before read.len
      else read.len) = _
    simp only [hlen, before_of_pos hpos hle, chomp, List.getLast?_eq_some_getLast hne,
      Option.some.injEq, ← hlast]
    split
    · exact List.length_dropLast.symm
    · rfl
  have hchomp := (chomp_initial port.rawLine.1).length_le
  unfold ReadChars.line
  rw [hcount]
  by_cases hzero : (chomp port.rawLine.1).length = 0
  · rw [if_neg (by rw [hzero]; decide), List.eq_nil_of_length_eq_zero hzero]
  rw [if_pos (count_pos (by omega) (by omega))]
  refine List.ext_getElem (by simp [Buffer.slice]) fun k h₁ h₂ => ?_
  have hkept : (port.readLn buffer inputBufferSize 250).buffer.cells k = read.buffer.cells k := by
    refine Buffer.set_cells_of_ne ?_
    show k ≠ (port.readLn buffer inputBufferSize 250).len
    omega
  have hget := (chomp_initial port.rawLine.1).getElem h₂
  rw [hget, ← hstored k (by omega), ← hkept]
  simp [Buffer.slice]

/-! ## A modem that prints in time -/

/-- The time the polls take. -/
def duration (polls : List Poll) : Nat := (polls.map Poll.took).sum

@[simp] theorem duration_nil : duration [] = 0 := rfl

@[simp] theorem duration_cons (p : Poll) (polls : List Poll) :
    duration (p :: polls) = p.took + duration polls := by
  rw [duration, List.map_cons, List.sum_cons]
  rfl

@[simp] theorem duration_append (ps qs : List Poll) :
    duration (ps ++ qs) = duration ps + duration qs := by
  rw [duration, List.map_append, List.sum_append]
  rfl

/-- The polls find these characters and then nothing, and no two of them are
further apart than the timeout. -/
inductive Brings (timeout : Nat) : List Poll → List UInt8 → Prop where
  | nil : Brings timeout [] []
  | char {quiet polls : List Poll} {cs : List UInt8} (c : UInt8) (took : Nat)
      (hquiet : ∀ p ∈ quiet, p.char = none) (htime : duration quiet < timeout)
      (h : Brings timeout polls cs) :
      Brings timeout (quiet ++ ⟨some c, took⟩ :: polls) (c :: cs)

theorem toNat_sub_millis {start now : Nat} (h : start ≤ now) :
    (millis now - millis start).toNat = (now - start) % 2 ^ 32 :=
  Lib.Clock.toNat_sub_reading 32 h

theorem poll_quiet {start timeout now : Nat} {quiet : List Poll} (c : UInt8) (took : Nat)
    (polls : List Poll) (hquiet : ∀ p ∈ quiet, p.char = none)
    (htimeout : timeout ≤ 2 ^ 32) (hstart : start ≤ now)
    (htime : now + duration quiet < start + timeout) :
    Port.poll start timeout now (quiet ++ ⟨some c, took⟩ :: polls) =
      (some c, ⟨now + duration quiet + took, polls⟩) := by
  induction quiet generalizing now with
  | nil => rfl
  | cons p quiet ih =>
      rw [duration_cons] at htime ⊢
      have hgoes : (millis (now + p.took) - millis start).toNat < timeout := by
        rw [toNat_sub_millis (by omega), Nat.mod_eq_of_lt (by omega)]
        omega
      rw [List.cons_append, Port.poll, hquiet p List.mem_cons_self]
      simp only [if_pos hgoes]
      rw [ih (fun p hp => hquiet p (List.mem_cons_of_mem _ hp)) (by omega) (by omega)]
      simp only [Nat.add_assoc]

theorem timedRead_char {timeout now : Nat} {quiet : List Poll} (c : UInt8) (took : Nat)
    (polls : List Poll) (hquiet : ∀ p ∈ quiet, p.char = none)
    (htimeout : timeout ≤ 2 ^ 32) (htime : duration quiet < timeout) :
    Port.timedRead ⟨now, quiet ++ ⟨some c, took⟩ :: polls⟩ timeout =
      (some c, ⟨now + duration quiet + took, polls⟩) :=
  poll_quiet c took polls hquiet htimeout (Nat.le_refl now) (by omega)

theorem timedRead_silent (now timeout : Nat) :
    Port.timedRead ⟨now, []⟩ timeout = (none, ⟨now + timeout, []⟩) := by
  rw [Port.timedRead, Port.poll, Nat.max_eq_right (Nat.le_add_right now timeout)]

/-- What is read of a stream is its first piece. Only where the stream ends
without a line feed is time lost. -/
theorem chars_brings {timeout : Nat} (now : Nat) {polls : List Poll} {cs : List UInt8}
    (htimeout : timeout ≤ 2 ^ 32) (h : Brings timeout polls cs) (sep : UInt8) (n : Nat) :
    ∃ now' polls', Port.chars sep timeout n ⟨now, polls⟩ =
        ((piece sep n cs).1, ⟨now', polls'⟩) ∧
      Brings timeout polls' (piece sep n cs).2 ∧ now ≤ now' ∧
      now' + duration polls' ≤ now + duration polls + timeout ∧
      ((piece sep n cs).2 ≠ [] → now' + duration polls' = now + duration polls) := by
  induction n generalizing now polls cs with
  | zero => exact ⟨now, polls, rfl, h, Nat.le_refl now, Nat.le_add_right _ _, fun _ => rfl⟩
  | succ n ih =>
      rw [Port.chars]
      cases h with
      | nil =>
          rw [timedRead_silent]
          exact ⟨now + timeout, [], rfl, .nil, by omega, by omega, fun hne => absurd rfl hne⟩
      | @char quiet polls cs c took hquiet htime h =>
          rw [timedRead_char c took polls hquiet htimeout htime, piece]
          simp only [duration_append, duration_cons]
          by_cases hc : c = sep
          · simp only [if_pos hc]
            exact ⟨_, _, rfl, h, by omega, by omega, fun _ => by omega⟩
          · obtain ⟨now', polls', hchars, hrest, hle, hge, heq⟩ :=
              ih (now + duration quiet + took) h
            simp only [if_neg hc, hchars]
            exact ⟨now', polls', rfl, hrest, by omega, by omega, fun hne => by
              have hexact := heq hne
              omega⟩

theorem Brings.length_le {timeout : Nat} {polls : List Poll} {cs : List UInt8}
    (h : Brings timeout polls cs) : cs.length ≤ polls.length := by
  induction h with
  | nil => exact Nat.le_refl 0
  | char c took hquiet htime h ih =>
      rw [List.length_cons, List.length_append, List.length_cons]
      omega

/-! ## The lines of a response -/

/-- Nothing more comes of a silent port. -/
theorem lineReads_silent {start timeout fuel : Nat} {cgsn : Nat → Nat → UInt8}
    {buffer : Buffer} {port : Port} (hsilent : port.polls = []) :
    ∀ r ∈ port.lineReads start timeout fuel cgsn buffer, r.line = [] := by
  induction fuel generalizing cgsn buffer port with
  | zero => exact fun r hr => absurd hr List.not_mem_nil
  | succ fuel ih =>
      obtain ⟨now, polls⟩ := port
      have hnil : polls = [] := hsilent
      have hraw : Port.rawLine ⟨now, polls⟩ = ([], ⟨now + 250, []⟩) := by
        rw [hnil, Port.rawLine, inputBufferSize, Port.chars, timedRead_silent]
      intro r hr
      rw [Port.lineReads] at hr
      rcases List.mem_cons.mp hr with rfl | hr
      · show (Port.readLn ⟨now, polls⟩ buffer inputBufferSize 250).line = []
        rw [readLn_line, hraw]
        rfl
      · refine ih ?_ r hr
        show (Port.readLn ⟨now, polls⟩ buffer inputBufferSize 250).port.polls = []
        rw [readLn_port, hraw]

theorem readOne_empty {σ : Type} {r : LineRead} (h : r.line = []) (d : Device)
    (parserMethod : Option (ParserMethod σ)) (params : σ) :
    d.readOne parserMethod params r = .more d parserMethod params := if_pos h

/-- Empty lines at the end are as good as none. -/
theorem readResponse_silence {σ : Type} (d : Device) (parserMethod : Option (ParserMethod σ))
    (params : σ) (reads : List LineRead) {silence : List LineRead}
    (hsilence : ∀ r ∈ silence, r.line = []) :
    (d.readResponse parserMethod params (reads ++ silence)).outcome =
      (d.readResponse parserMethod params reads).outcome := by
  induction reads generalizing d parserMethod params with
  | nil =>
      rw [List.nil_append]
      induction silence with
      | nil => rfl
      | cons r silence ih =>
          rw [Device.readResponse.eq_2, readOne_empty (hsilence r List.mem_cons_self)]
          simp only []
          split
          · rfl
          · exact ih fun r hr => hsilence r (List.mem_cons_of_mem _ hr)
  | cons r reads ih =>
      rw [List.cons_append, Device.readResponse, Device.readResponse]
      cases d.readOne parserMethod params r with
      | done type d params => rfl
      | more d parserMethod params =>
          simp only []
          split
          · rfl
          · exact ih d parserMethod params

/-- The lines of a port that brings a stream in time: one for each piece, and then
empty ones. -/
theorem lineReads_brings {start timeout now fuel : Nat} {polls : List Poll} {cs : List UInt8}
    (cgsn : Nat → Nat → UInt8) (buffer : Buffer) (h : Brings 250 polls cs)
    (htimeout : timeout < 2 ^ 32) (hstart : start ≤ now)
    (htime : cs ≠ [] → now + duration polls + 10 * (pieces 10 248 cs).length + 250 ≤
      start + timeout)
    (hfuel : (pieces 10 248 cs).length ≤ fuel) :
    ∃ reads silence, Port.lineReads start timeout fuel cgsn buffer ⟨now, polls⟩ =
        reads ++ silence ∧
      reads.map LineRead.line = (pieces 10 248 cs).map chomp ∧
      (∀ r ∈ reads, r.timedOut = false) ∧ ∀ r ∈ silence, r.line = [] := by
  induction fuel generalizing cgsn now polls cs buffer with
  | zero =>
      refine ⟨[], [], rfl, ?_, fun r hr => absurd hr List.not_mem_nil,
        fun r hr => absurd hr List.not_mem_nil⟩
      rw [List.eq_nil_of_length_eq_zero (Nat.le_zero.mp hfuel)]
      rfl
  | succ fuel ih =>
      by_cases hcs : cs = []
      · have hpolls : polls = [] := by
          rw [hcs] at h
          cases h
          rfl
        refine ⟨[], Port.lineReads start timeout (fuel + 1) cgsn buffer ⟨now, polls⟩, rfl, ?_,
          fun r hr => absurd hr List.not_mem_nil, lineReads_silent hpolls⟩
        rw [hcs, Lib.pieces_nil]
        rfl
      have hpieces : pieces 10 248 cs =
          (piece 10 249 cs).1 :: pieces 10 248 (piece 10 249 cs).2 :=
        Lib.pieces_of_ne_nil hcs
      have hbudget := htime hcs
      rw [hpieces, List.length_cons] at hbudget hfuel
      obtain ⟨now', polls', hraw, hrest, hle, hge, hexact⟩ :=
        chars_brings now (by decide) h 10 249
      let read := Port.readLn ⟨now, polls⟩ buffer inputBufferSize 250
      have hport : read.port = ⟨now', polls'⟩ :=
        (readLn_port ⟨now, polls⟩ buffer).trans (congrArg Prod.snd hraw)
      have hline : read.line = chomp (piece 10 249 cs).1 :=
        (readLn_line ⟨now, polls⟩ buffer).trans (congrArg (chomp ·.1) hraw)
      have hpause : read.pause ≤ 10 := by
        unfold ReadChars.pause
        split <;> omega
      obtain ⟨reads, silence, hreads, hlines, htimely, hsilence⟩ :=
        ih (fun k => cgsn (k + 1)) read.buffer hrest
          (show start ≤ now' + read.pause by omega)
          (fun hne => by
            have hsame := hexact hne
            omega) (by omega)
      refine ⟨read.lineRead start timeout (cgsn 0) :: reads, silence, ?_, ?_, ?_, hsilence⟩
      · rw [Port.lineReads, List.cons_append, ← hreads]
        show _ :: Port.lineReads _ _ _ _ _ (read.port.delay read.pause) = _
        rw [hport]
        rfl
      · rw [List.map_cons, hlines, hpieces, List.map_cons, ← hline]
        rfl
      · intro r hr
        rcases List.mem_cons.mp hr with rfl | hr
        · refine decide_eq_false ?_
          rw [hport, toNat_sub_millis (by show start ≤ now' + read.pause; omega),
            Nat.mod_eq_of_lt (by show now' + read.pause - start < 2 ^ 32; omega)]
          show ¬ timeout < now' + read.pause - start
          omega
        · exact htimely r hr

namespace Small

/-- A modem that prints without a pause, a character every millisecond. -/
def quick (cs : List UInt8) : List Poll := cs.map fun c => ⟨some c, 1⟩

theorem brings_quick (cs : List UInt8) : Brings 250 (quick cs) cs := by
  induction cs with
  | nil => exact .nil
  | cons c cs ih =>
      have hnone : ∀ p ∈ ([] : List Poll), p.char = none := fun p hp => by cases hp
      exact .char c 1 hnone (by decide) ih

def prompt : List UInt8 := [62, 32]

def inputBuffer : Buffer := { size := 250, cells := fun _ => 0 }

end Small

/-- A response to a modem that prints a stream in time is the response to its
pieces, and no character of the stream gets lost between them. -/
theorem readPort_pieces {σ : Type} (d : Device) (parserMethod : Option (ParserMethod σ))
    (params : σ) (cgsn : Nat → Nat → UInt8) (buffer : Buffer) (now : Nat) {timeout : Nat}
    {polls : List Poll} {cs : List UInt8} (h : Brings 250 polls cs)
    (htimeout : timeout < 2 ^ 32)
    (htime : duration polls + 10 * (pieces 10 248 cs).length + 250 ≤ timeout) :
    ((pieces 10 248 cs).flatMap (Lib.ended 10 249) = cs ∨
        (pieces 10 248 cs).flatMap (Lib.ended 10 249) = cs ++ [10]) ∧
      ∃ reads : List LineRead, reads.map LineRead.line = (pieces 10 248 cs).map chomp ∧
        (∀ r ∈ reads, r.timedOut = false) ∧
        (d.readPort parserMethod params timeout cgsn buffer ⟨now, polls⟩).outcome =
          (d.readResponse parserMethod params reads).outcome := by
  refine ⟨Lib.flatMap_pieces 10 248 cs, ?_⟩
  have hturns : (pieces 10 248 cs).length ≤ Port.turns ⟨now, polls⟩ timeout := by
    have hcount := Lib.pieces_length_le 10 248 cs
    have hpolls := h.length_le
    show _ ≤ polls.length + timeout / 260 + 2
    omega
  obtain ⟨reads, silence, hreads, hlines, htimely, hsilence⟩ :=
    lineReads_brings cgsn buffer h htimeout (Nat.le_refl now) (fun _ => by omega)
      hturns
  refine ⟨reads, hlines, htimely, ?_⟩
  rw [Device.readPort, Device.listen_outcome, hreads]
  exact readResponse_silence d parserMethod params reads hsilence

/-- A prompt without a line feed is a line once the modem has been silent. -/
theorem prompt_is_read :
    ((pieces 10 248 Small.prompt).flatMap (Lib.ended 10 249) = Small.prompt ∨
        (pieces 10 248 Small.prompt).flatMap (Lib.ended 10 249) = Small.prompt ++ [10]) ∧
      ∃ reads : List LineRead, reads.map LineRead.line = (pieces 10 248 Small.prompt).map chomp ∧
        (∀ r ∈ reads, r.timedOut = false) ∧
        (({} : Device).readPort (σ := Unit) none () 5000 (fun _ _ => 0) Small.inputBuffer
          ⟨0, Small.quick Small.prompt⟩).outcome =
          (({} : Device).readResponse none () reads).outcome := by
  have hcount := Nat.mul_le_mul_left 10 (Lib.pieces_length_le 10 248 Small.prompt)
  exact readPort_pieces {} none () _ Small.inputBuffer 0 (Small.brings_quick Small.prompt)
    (by decide) (Nat.le_trans (Nat.add_le_add_right (Nat.add_le_add_left hcount _) _) (by decide))

theorem pieces_printed {ls : List (List UInt8)} (hls : ∀ l ∈ ls, 10 ∉ l ∧ l.length ≤ 247) :
    pieces 10 248 (printed ls) = ls.map (· ++ [13]) := by
  have hstream : printed ls = (ls.map (· ++ [13])).flatMap (· ++ [10]) := by
    rw [printed, List.flatMap_map]
    exact congrArg (fun f => ls.flatMap f) (funext fun l => (List.append_assoc l [13] [10]).symm)
  rw [hstream]
  refine Lib.pieces_lines fun l hl => ?_
  obtain ⟨l, hmem, rfl⟩ := List.mem_map.mp hl
  obtain ⟨hfree, hlen⟩ := hls l hmem
  refine ⟨List.not_mem_append hfree (by decide), ?_⟩
  rw [List.length_append, List.length_singleton]
  omega

/-- A response to lines that are printed in time, none of them too long for the
buffer, is the response to these lines. -/
theorem readPort_printed {σ : Type} (d : Device) (parserMethod : Option (ParserMethod σ))
    (params : σ) (cgsn : Nat → Nat → UInt8) (buffer : Buffer) (now : Nat) {timeout : Nat}
    {polls : List Poll} {ls : List (List UInt8)} (hls : ∀ l ∈ ls, 10 ∉ l ∧ l.length ≤ 247)
    (h : Brings 250 polls (printed ls)) (htimeout : timeout < 2 ^ 32)
    (htime : duration polls + 10 * ls.length + 250 ≤ timeout) :
    ∃ reads : List LineRead, reads.map LineRead.line = ls ∧
      (∀ r ∈ reads, r.timedOut = false) ∧
      (d.readPort parserMethod params timeout cgsn buffer ⟨now, polls⟩).outcome =
        (d.readResponse parserMethod params reads).outcome := by
  have hpieces := pieces_printed hls
  have hlines : (pieces 10 248 (printed ls)).map chomp = ls := by
    rw [hpieces, List.map_map]
    exact (List.map_congr_left fun l _ => chomp_append l).trans (List.map_id ls)
  obtain ⟨_, reads, hreads, htimely, houtcome⟩ :=
    readPort_pieces d parserMethod params cgsn buffer now h htimeout
      (by rw [hpieces, List.length_map]; exact htime)
  exact ⟨reads, hreads.trans hlines, htimely, houtcome⟩

theorem ok_is_read :
    ∃ reads : List LineRead, reads.map LineRead.line = [Lib.Scan.bytes "OK"] ∧
      (∀ r ∈ reads, r.timedOut = false) ∧
      (({} : Device).readPort (σ := Unit) none () 5000 (fun _ _ => 0) Small.inputBuffer
        ⟨0, Small.quick (printed [Lib.Scan.bytes "OK"])⟩).outcome =
        (({} : Device).readResponse none () reads).outcome :=
  readPort_printed {} none () _ Small.inputBuffer 0 (by decide) (Small.brings_quick _)
    (by decide) (by decide)

end NbIot
