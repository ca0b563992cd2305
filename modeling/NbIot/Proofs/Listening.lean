import NbIot.Proofs.Framing

/-!
# A response always comes to an end

Every turn either takes a poll off the port or, where the modem stays silent,
takes 260 ms, so the fuel of `readPort` is enough and any other fuel that covers
the turns gives the same answer (`listen_fuel`). If no poll takes longer than
`slow` the response is over one line after its time at the latest
(`readPort_ends`). The buffer is the other matter: a turn that reads nothing, or a
line feed alone, looks at the character in front of it (`listen_inside_iff`).
-/

namespace NbIot

open Lib (Buffer)

namespace Port

/-! ## What is left of the port, and when -/

theorem poll_polls {start timeout now : Nat} {polls : List Poll} (h : polls ≠ []) :
    (poll start timeout now polls).2.polls.length < polls.length := by
  induction polls generalizing now with
  | nil => exact absurd rfl h
  | cons p polls ih =>
      rw [poll, List.length_cons]
      split
      · exact Nat.lt_succ_self _
      · split
        · by_cases hnil : polls = []
          · rw [hnil, poll]
            exact Nat.lt_succ_self _
          · exact Nat.lt_succ_of_lt (ih hnil)
        · exact Nat.lt_succ_self _

theorem poll_now_le (start timeout now : Nat) (polls : List Poll) :
    now ≤ (poll start timeout now polls).2.now := by
  induction polls generalizing now with
  | nil => exact Nat.le_max_left ..
  | cons p polls ih =>
      rw [poll]
      split
      · exact Nat.le_add_right ..
      · split
        · exact Nat.le_trans (Nat.le_add_right now p.took) (ih _)
        · exact Nat.le_add_right ..

theorem timedRead_polls (port : Port) (timeout : Nat) :
    (port.timedRead timeout).2.polls.length ≤ port.polls.length ∧
      (port.polls ≠ [] → (port.timedRead timeout).2.polls.length < port.polls.length) := by
  have hlt : port.polls ≠ [] →
      (port.timedRead timeout).2.polls.length < port.polls.length := poll_polls
  refine ⟨?_, hlt⟩
  by_cases hnil : port.polls = []
  · rw [timedRead, hnil, poll]
  · exact Nat.le_of_lt (hlt hnil)

theorem chars_polls (terminator : UInt8) (timeout left : Nat) (port : Port) :
    (port.chars terminator timeout left).2.polls.length ≤ port.polls.length ∧
      port.now ≤ (port.chars terminator timeout left).2.now := by
  induction left generalizing port with
  | zero => exact ⟨Nat.le_refl _, Nat.le_refl _⟩
  | succ left ih =>
      have hpolls := (port.timedRead_polls timeout).1
      have hnow : port.now ≤ (port.timedRead timeout).2.now := poll_now_le ..
      rw [chars]
      split
      · rename_i next heq
        rw [heq] at hpolls hnow
        exact ⟨hpolls, hnow⟩
      · rename_i c next heq
        rw [heq] at hpolls hnow
        obtain ⟨hmore, hlater⟩ := ih next
        split
        · exact ⟨hpolls, hnow⟩
        · exact ⟨Nat.le_trans hmore hpolls, Nat.le_trans hnow hlater⟩

/-- A turn takes a poll off the port, if there is one. -/
theorem rawLine_polls {port : Port} (h : port.polls ≠ []) :
    port.rawLine.2.polls.length < port.polls.length := by
  have hlt := (port.timedRead_polls 250).2 h
  rw [rawLine, inputBufferSize, chars]
  split
  · rename_i next heq
    rw [heq] at hlt
    exact hlt
  · rename_i c next heq
    rw [heq] at hlt
    split
    · exact hlt
    · exact Nat.lt_of_le_of_lt (chars_polls 10 250 248 next).1 hlt

/-- A turn of a silent port. -/
theorem rawLine_silent (now : Nat) : rawLine ⟨now, []⟩ = ([], ⟨now + 250, []⟩) := by
  rw [rawLine, inputBufferSize, chars, timedRead_silent]

/-! ## The fuel -/

/-- Turns that are left of a response that was asked for at `start`. -/
def turnsLeft (start timeout : Nat) (port : Port) : Nat :=
  if port.polls = [] then (timeout - (port.now - start) % 2 ^ 32) / 260 + 1
  else port.polls.length + timeout / 260 + 1

theorem turnsLeft_le (start timeout : Nat) (port : Port) :
    port.turnsLeft start timeout ≤ port.polls.length + timeout / 260 + 1 := by
  unfold turnsLeft
  split
  · have hle : (timeout - (port.now - start) % 2 ^ 32) / 260 ≤ timeout / 260 :=
      Nat.div_le_div_right (Nat.sub_le ..)
    omega
  · exact Nat.le_refl _

end Port

/-- The next turn, if the time is not over after this one, has fewer turns left. -/
theorem turnsLeft_lt {start timeout : Nat} {port : Port} (hstart : start ≤ port.now)
    (htime : (port.now - start) % 2 ^ 32 ≤ timeout) (htimeout : timeout + 260 < 2 ^ 32)
    (cgsn : Nat → UInt8) (buffer : Buffer)
    (hgoes : ((port.readLn buffer inputBufferSize 250).lineRead start timeout cgsn).timedOut =
      false) :
    let read := port.readLn buffer inputBufferSize 250
    start ≤ (read.port.delay read.pause).now ∧
      ((read.port.delay read.pause).now - start) % 2 ^ 32 ≤ timeout ∧
      (read.port.delay read.pause).turnsLeft start timeout < port.turnsLeft start timeout := by
  intro read
  have hport : read.port = port.rawLine.2 := readLn_port port buffer
  have hlater : port.now ≤ read.port.now := by
    rw [hport]
    exact (Port.chars_polls 10 250 249 port).2
  have hnow : start ≤ (read.port.delay read.pause).now :=
    Nat.le_trans hstart (Nat.le_trans hlater (Nat.le_add_right ..))
  have hleft : ((read.port.delay read.pause).now - start) % 2 ^ 32 ≤ timeout := by
    rw [← toNat_sub_millis hnow]
    exact Nat.not_lt.mp (of_decide_eq_false hgoes)
  refine ⟨hnow, hleft, ?_⟩
  by_cases hnil : port.polls = []
  · -- The silent modem: 250 ms of waiting and 10 ms of delay.
    have hraw : port.rawLine = ([], ⟨port.now + 250, []⟩) := by
      rw [← Port.rawLine_silent, ← hnil]
    have hpause : read.pause = 10 := by
      refine if_neg fun hskip => hskip.1 ?_
      rw [readLn_line, hraw]
      rfl
    have hnext : read.port.delay read.pause = ⟨port.now + 260, []⟩ := by
      rw [hport, hraw, hpause]
      rfl
    rw [hnext] at hleft ⊢
    have hstep : (port.now + 260 - start) % 2 ^ 32 = (port.now - start) % 2 ^ 32 + 260 := by
      omega
    have hover : (port.now - start) % 2 ^ 32 + 260 ≤ timeout := by
      rw [← hstep]
      exact hleft
    rw [Port.turnsLeft, Port.turnsLeft, if_pos rfl, if_pos hnil, hstep]
    omega
  · have hfewer : (read.port.delay read.pause).polls.length < port.polls.length := by
      show read.port.polls.length < _
      rw [hport]
      exact Port.rawLine_polls hnil
    have hle := (read.port.delay read.pause).turnsLeft_le start timeout
    rw [Port.turnsLeft.eq_1 start timeout port, if_neg hnil]
    omega

/-- Fuel that covers the turns gives the one answer. -/
theorem listen_fuel {σ : Type} {start timeout fuel fuel' : Nat} (htimeout : timeout + 260 < 2 ^ 32)
    (cgsn : Nat → Nat → UInt8) (d : Device) (parserMethod : Option (ParserMethod σ))
    (params : σ) (buffer : Buffer) {port : Port} (hstart : start ≤ port.now)
    (htime : (port.now - start) % 2 ^ 32 ≤ timeout)
    (h : port.turnsLeft start timeout ≤ fuel) (h' : port.turnsLeft start timeout ≤ fuel') :
    Device.listen start timeout fuel cgsn d parserMethod params buffer port =
      Device.listen start timeout fuel' cgsn d parserMethod params buffer port := by
  have hpos : 0 < port.turnsLeft start timeout := by
    unfold Port.turnsLeft
    split <;> omega
  induction fuel generalizing fuel' cgsn d parserMethod params buffer port with
  | zero => omega
  | succ fuel ih =>
      obtain ⟨fuel', rfl⟩ := Nat.exists_eq_succ_of_ne_zero (show fuel' ≠ 0 by omega)
      rw [Device.listen.eq_2, Device.listen.eq_2]
      simp only []
      cases d.readOne parserMethod params
          ((port.readLn buffer inputBufferSize 250).lineRead start timeout (cgsn 0)) with
      | done type d params => rfl
      | more d parserMethod params =>
          simp only []
          split
          · rfl
          · rename_i hgoes
            obtain ⟨hnow, hleft, hlt⟩ := turnsLeft_lt hstart htime htimeout (cgsn 0) buffer
              (Bool.eq_false_iff.mpr hgoes)
            refine ih _ d parserMethod params _ hnow hleft (by omega) (by omega) ?_
            unfold Port.turnsLeft
            split <;> omega

/-- A response takes a poll off the port, if there is one, and no time back. -/
theorem listen_polls {σ : Type} (start timeout fuel : Nat) (cgsn : Nat → Nat → UInt8)
    (d : Device) (parserMethod : Option (ParserMethod σ)) (params : σ) (buffer : Buffer)
    (port : Port) :
    let after := (Device.listen start timeout fuel cgsn d parserMethod params buffer port).port
    after.polls.length ≤ port.polls.length ∧ port.now ≤ after.now ∧
      (port.polls ≠ [] → 0 < fuel → after.polls.length < port.polls.length) := by
  induction fuel generalizing cgsn d parserMethod params buffer port with
  | zero => exact ⟨Nat.le_refl _, Nat.le_refl _, fun _ h => absurd h (by decide)⟩
  | succ fuel ih =>
      let read := port.readLn buffer inputBufferSize 250
      have hport : read.port = port.rawLine.2 := readLn_port port buffer
      have hle : read.port.polls.length ≤ port.polls.length ∧ port.now ≤ read.port.now := by
        rw [hport]
        exact Port.chars_polls 10 250 249 port
      have hlt : port.polls ≠ [] → read.port.polls.length < port.polls.length := by
        rw [hport]
        exact Port.rawLine_polls
      have hpause : read.port.now ≤ (read.port.delay read.pause).now := Nat.le_add_right ..
      rw [Device.listen.eq_2]
      simp only []
      cases d.readOne parserMethod params (read.lineRead start timeout (cgsn 0)) with
      | done type d params => exact ⟨hle.1, hle.2, fun hne _ => hlt hne⟩
      | more d parserMethod params =>
          simp only []
          split
          · exact ⟨hle.1, Nat.le_trans hle.2 hpause, fun hne _ => hlt hne⟩
          · obtain ⟨hmore, hlater, _⟩ := ih (fun k => cgsn (k + 1)) d parserMethod params
              read.buffer (read.port.delay read.pause)
            exact ⟨Nat.le_trans hmore hle.1, Nat.le_trans hle.2 (Nat.le_trans hpause hlater),
              fun hne _ => Nat.lt_of_le_of_lt hmore (hlt hne)⟩

theorem lineRead_line (read : ReadChars) (start timeout : Nat) (cgsn : Nat → UInt8) :
    (read.lineRead start timeout cgsn).line = read.line := rfl

theorem lineRead_timedOut (read : ReadChars) (start timeout : Nat) (cgsn : Nat → UInt8) :
    (read.lineRead start timeout cgsn).timedOut =
      decide (timeout < (millis (read.port.delay read.pause).now - millis start).toNat) := rfl

/-- A turn of a silent port. -/
theorem readLn_silent (now : Nat) (buffer : Buffer) :
    (Port.readLn ⟨now, []⟩ buffer inputBufferSize 250).line = [] ∧
      (Port.readLn ⟨now, []⟩ buffer inputBufferSize 250).port.delay
        (Port.readLn ⟨now, []⟩ buffer inputBufferSize 250).pause = ⟨now + 260, []⟩ := by
  have hline : (Port.readLn ⟨now, []⟩ buffer inputBufferSize 250).line = [] := by
    rw [readLn_line, Port.rawLine_silent]
    rfl
  have hpause : (Port.readLn ⟨now, []⟩ buffer inputBufferSize 250).pause = 10 :=
    if_neg fun hskip => hskip.1 hline
  refine ⟨hline, ?_⟩
  rw [hpause, readLn_port, Port.rawLine_silent]
  rfl

/-- A silent modem is waited for as long as it takes, and no longer. -/
theorem listen_silent {σ : Type} {start timeout fuel now : Nat}
    (htimeout : timeout + 260 < 2 ^ 32) (cgsn : Nat → Nat → UInt8) (d : Device)
    (parserMethod : Option (ParserMethod σ)) (params : σ) (buffer : Buffer)
    (hstart : start ≤ now) (htime : now ≤ start + timeout)
    (hfuel : (timeout - (now - start)) / 260 + 1 ≤ fuel) :
    ∃ buffer' now', Device.listen start timeout fuel cgsn d parserMethod params buffer
        ⟨now, []⟩ = ⟨.timeout, d, params, buffer', ⟨now', []⟩⟩ ∧
      start + timeout < now' ∧ now' ≤ start + timeout + 260 := by
  induction fuel generalizing cgsn buffer now with
  | zero => omega
  | succ fuel ih =>
      obtain ⟨hline, hnext⟩ := readLn_silent now buffer
      have hempty := readOne_empty ((lineRead_line _ start timeout (cgsn 0)).trans hline) d
        parserMethod params
      have hlate : ((Port.readLn ⟨now, []⟩ buffer inputBufferSize 250).lineRead start timeout
          (cgsn 0)).timedOut = decide (timeout < now + 260 - start) := by
        rw [lineRead_timedOut, hnext, toNat_sub_millis (show start ≤ now + 260 by omega),
          Nat.mod_eq_of_lt (show now + 260 - start < 2 ^ 32 by omega)]
      rw [Device.listen.eq_2]
      simp only [hempty, hnext, hlate]
      split
      · rename_i hover
        have hpast := of_decide_eq_true hover
        exact ⟨(Port.readLn ⟨now, []⟩ buffer inputBufferSize 250).buffer, now + 260, rfl,
          by omega, by omega⟩
      · rename_i hgoes
        have hbefore := of_decide_eq_false (Bool.eq_false_iff.mpr hgoes)
        exact ih _ _ (by omega) (by omega) (by omega)

/-- What is left of the port after a response. -/
theorem readPort_polls {σ : Type} (d : Device) (parserMethod : Option (ParserMethod σ))
    (params : σ) (timeout : Nat) (cgsn : Nat → Nat → UInt8) (buffer : Buffer) (port : Port) :
    let after := (d.readPort parserMethod params timeout cgsn buffer port).port
    after.polls.length ≤ port.polls.length ∧ port.now ≤ after.now ∧
      (port.polls ≠ [] → after.polls.length < port.polls.length) := by
  obtain ⟨hle, hnow, hlt⟩ := listen_polls port.now timeout (port.turns timeout) cgsn d
    parserMethod params buffer port
  exact ⟨hle, hnow, fun hne => hlt hne (Nat.succ_pos _)⟩

/-- The response of a silent modem. -/
theorem readPort_silent {σ : Type} (d : Device) (parserMethod : Option (ParserMethod σ))
    (params : σ) {timeout : Nat} (htimeout : timeout + 260 < 2 ^ 32)
    (cgsn : Nat → Nat → UInt8) (buffer : Buffer) {port : Port} (hnil : port.polls = []) :
    (d.readPort parserMethod params timeout cgsn buffer port).type = .timeout ∧
      port.now + timeout <
        (d.readPort parserMethod params timeout cgsn buffer port).port.now ∧
      (d.readPort parserMethod params timeout cgsn buffer port).port.now ≤
        port.now + timeout + 260 := by
  obtain ⟨now, polls⟩ := port
  have hpolls : polls = [] := hnil
  have hturns : (timeout - (now - now)) / 260 + 1 ≤ Port.turns ⟨now, []⟩ timeout := by
    show _ ≤ 0 + timeout / 260 + 2
    rw [Nat.sub_self]
    omega
  obtain ⟨buffer', now', hlisten, hlate, hsoon⟩ := listen_silent htimeout cgsn d parserMethod
    params buffer (Nat.le_refl now) (Nat.le_add_right now timeout) hturns
  rw [hpolls, Device.readPort, hlisten]
  exact ⟨rfl, hlate, hsoon⟩

/-! ## The time it takes -/

/-- No poll takes longer than this. -/
def Port.Slow (slow : Nat) (port : Port) : Prop := ∀ p ∈ port.polls, p.took ≤ slow

/-- The longest turn: a line of single characters that come at the last moment. -/
def longestTurn (slow : Nat) : Nat := 249 * (250 + slow) + 10

namespace Port

theorem poll_within {slow start timeout now : Nat} {polls : List Poll}
    (hslow : ∀ p ∈ polls, p.took ≤ slow) (hwrap : timeout + slow < 2 ^ 32)
    (hstart : start ≤ now) (htime : now < start + timeout ∨ now = start) :
    (poll start timeout now polls).2.now ≤ start + timeout + slow ∧
      Slow slow (poll start timeout now polls).2 := by
  induction polls generalizing now with
  | nil => exact ⟨by show max now (start + timeout) ≤ _; omega, fun p hp => by cases hp⟩
  | cons p polls ih =>
      have htook := hslow p List.mem_cons_self
      have hrest : ∀ p ∈ polls, p.took ≤ slow := fun p hp => hslow p (List.mem_cons_of_mem _ hp)
      rw [poll]
      split
      · exact ⟨by show now + p.took ≤ _; omega, hrest⟩
      · split
        · rename_i hgoes
          rw [toNat_sub_millis (by omega), Nat.mod_eq_of_lt (by omega)] at hgoes
          exact ih hrest (by omega) (Or.inl (by omega))
        · exact ⟨by show now + p.took ≤ _; omega, hrest⟩

theorem chars_within {slow timeout left : Nat} {port : Port} (terminator : UInt8)
    (hslow : port.Slow slow) (hwrap : timeout + slow < 2 ^ 32) :
    (port.chars terminator timeout left).2.now ≤ port.now + left * (timeout + slow) ∧
      Slow slow (port.chars terminator timeout left).2 := by
  induction left generalizing port with
  | zero => exact ⟨by rw [Nat.zero_mul]; exact Nat.le_refl _, hslow⟩
  | succ left ih =>
      obtain ⟨hnow, hrest⟩ : (port.timedRead timeout).2.now ≤ port.now + timeout + slow ∧
          Slow slow (port.timedRead timeout).2 :=
        poll_within hslow hwrap (Nat.le_refl _) (Or.inr rfl)
      rw [chars, Nat.succ_mul]
      split
      · rename_i next heq
        simp only [heq] at hnow hrest
        exact ⟨by show next.now ≤ _; omega, hrest⟩
      · rename_i c next heq
        simp only [heq] at hnow hrest
        obtain ⟨hmore, hslow⟩ := ih hrest
        split
        · exact ⟨by show next.now ≤ _; omega, hrest⟩
        · exact ⟨by show (next.chars terminator timeout left).2.now ≤ _; omega, hslow⟩

end Port

theorem listen_within {σ : Type} {slow start timeout fuel : Nat}
    (hwrap : timeout + longestTurn slow < 2 ^ 32) (cgsn : Nat → Nat → UInt8) (d : Device)
    (parserMethod : Option (ParserMethod σ)) (params : σ) (buffer : Buffer) {port : Port}
    (hslow : port.Slow slow) (hstart : start ≤ port.now)
    (htime : port.now ≤ start + timeout) :
    (Device.listen start timeout fuel cgsn d parserMethod params buffer port).port.now ≤
        start + timeout + longestTurn slow ∧
      (Device.listen start timeout fuel cgsn d parserMethod params buffer port).port.Slow
        slow := by
  induction fuel generalizing cgsn d parserMethod params buffer port with
  | zero => exact ⟨Nat.le_trans htime (Nat.le_add_right ..), hslow⟩
  | succ fuel ih =>
      have hturn : longestTurn slow = 249 * (250 + slow) + 10 := rfl
      let read := port.readLn buffer inputBufferSize 250
      have hport : read.port = port.rawLine.2 := readLn_port port buffer
      obtain ⟨hnow, hrest⟩ : read.port.now ≤ port.now + 249 * (250 + slow) ∧
          read.port.Slow slow := by
        rw [hport]
        exact Port.chars_within 10 hslow (by omega)
      have hlater : port.now ≤ read.port.now := by
        rw [hport]
        exact (Port.chars_polls 10 250 249 port).2
      have hpause : read.pause ≤ 10 := by
        unfold ReadChars.pause
        split <;> omega
      have hdelay : (read.port.delay read.pause).now = read.port.now + read.pause := rfl
      rw [Device.listen.eq_2]
      show _ ≤ _ ∧ Port.Slow slow _
      simp only []
      cases d.readOne parserMethod params (read.lineRead start timeout (cgsn 0)) with
      | done type d params =>
          exact ⟨by show read.port.now ≤ _; omega, hrest⟩
      | more d parserMethod params =>
          simp only []
          split
          · exact ⟨by show (read.port.delay read.pause).now ≤ _; omega, hrest⟩
          · rename_i hgoes
            have hleft := Nat.not_lt.mp
              (of_decide_eq_false (Bool.eq_false_iff.mpr hgoes))
            rw [toNat_sub_millis (by show start ≤ read.port.now + read.pause; omega),
              Nat.mod_eq_of_lt (by show read.port.now + read.pause - start < 2 ^ 32; omega)]
              at hleft
            refine ih _ d parserMethod params read.buffer hrest ?_ ?_
            · show start ≤ read.port.now + read.pause
              omega
            · show read.port.now + read.pause ≤ start + timeout
              have hsame : read.port.now + read.pause - start ≤ timeout := hleft
              omega

theorem readPort_within {σ : Type} {slow timeout : Nat} (d : Device)
    (parserMethod : Option (ParserMethod σ)) (params : σ) (cgsn : Nat → Nat → UInt8)
    (buffer : Buffer) {port : Port} (hslow : port.Slow slow)
    (hwrap : timeout + longestTurn slow < 2 ^ 32) :
    (d.readPort parserMethod params timeout cgsn buffer port).port.now ≤
        port.now + timeout + longestTurn slow ∧
      (d.readPort parserMethod params timeout cgsn buffer port).port.Slow slow :=
  listen_within hwrap cgsn d parserMethod params buffer hslow (Nat.le_refl _)
    (Nat.le_add_right ..)

/-- Whatever comes in, and whatever the clock shows, the response is over one line
after its time at the latest, and more turns would not change it. -/
theorem readPort_ends {σ : Type} {slow timeout : Nat} (d : Device)
    (parserMethod : Option (ParserMethod σ)) (params : σ) (cgsn : Nat → Nat → UInt8)
    (buffer : Buffer) {port : Port} (hslow : port.Slow slow)
    (hwrap : timeout + longestTurn slow < 2 ^ 32) :
    (d.readPort parserMethod params timeout cgsn buffer port).port.now ≤
        port.now + timeout + longestTurn slow ∧
      ∀ fuel, port.turns timeout ≤ fuel →
        Device.listen port.now timeout fuel cgsn d parserMethod params buffer port =
          d.readPort parserMethod params timeout cgsn buffer port := by
  have hturn : longestTurn slow = 249 * (250 + slow) + 10 := rfl
  refine ⟨(readPort_within d parserMethod params cgsn buffer hslow hwrap).1,
    fun fuel hfuel => ?_⟩
  have hle := port.turnsLeft_le port.now timeout
  have hturns : port.turns timeout = port.polls.length + timeout / 260 + 2 := rfl
  exact listen_fuel (by omega) cgsn d parserMethod params buffer (Nat.le_refl _)
    (by rw [Nat.sub_self]; exact Nat.zero_le _) (by omega) (by omega)

theorem ok_ends :
    (({} : Device).readPort (σ := Unit) none () 5000 (fun _ _ => 0) Small.inputBuffer
        ⟨0, Small.quick (printed [Lib.Scan.bytes "OK"])⟩).port.now ≤
        0 + 5000 + longestTurn 1 ∧
      ∀ fuel, Port.turns ⟨0, Small.quick (printed [Lib.Scan.bytes "OK"])⟩ 5000 ≤ fuel →
        Device.listen (σ := Unit) 0 5000 fuel (fun _ _ => 0) {} none () Small.inputBuffer
            ⟨0, Small.quick (printed [Lib.Scan.bytes "OK"])⟩ =
          ({} : Device).readPort none () 5000 (fun _ _ => 0) Small.inputBuffer
            ⟨0, Small.quick (printed [Lib.Scan.bytes "OK"])⟩ :=
  readPort_ends {} none () _ _ (by show ∀ p ∈ Small.quick _, p.took ≤ 1; decide) (by decide)

/-! ## The memory it touches -/

/-- `readLn` stays in the buffer exactly when there was something on the line. -/
theorem readLn_inside_iff {buffer : Buffer} (hin : buffer.Inside)
    (hsize : buffer.size = inputBufferSize) (port : Port) :
    (port.readLn buffer inputBufferSize 250).buffer.size = inputBufferSize ∧
      ((port.readLn buffer inputBufferSize 250).buffer.Inside ↔ port.rawLine.1 ≠ []) := by
  have hle := port.rawLine_length_le
  have hroom : inputBufferSize = 250 := rfl
  let read := port.readBytesUntil 10 buffer (inputBufferSize - 1) 250
  have hlen : read.len = port.rawLine.1.length :=
    congrArg ReadChars.len (readBytesUntil_eq port buffer)
  have hread : read.buffer.size = inputBufferSize ∧ read.buffer.Inside := by
    have hstored : (buffer.store 0 port.rawLine.1).Inside :=
      Buffer.store_inside hin (by omega)
    have hstoredSize := (Buffer.store_size buffer 0 port.rawLine.1).trans hsize
    rw [congrArg ReadChars.buffer (readBytesUntil_eq port buffer)]
    simp only []
    split
    · refine ⟨hstoredSize, Buffer.set_inside.mpr ⟨hstored, ?_⟩⟩
      rw [hstoredSize]
      omega
    · exact ⟨hstoredSize, hstored⟩
  obtain ⟨hreadSize, hreadIn⟩ := hread
  refine ⟨hreadSize, ?_⟩
  unfold Port.readLn
  rw [Buffer.set_inside, Buffer.touch_inside]
  show (read.buffer.Inside ∧ Port.before read.len < read.buffer.size) ∧
    (if read.buffer.get (Port.before read.len) = 13 then Port.before read.len else read.len) <
      read.buffer.size ↔ _
  rw [hreadSize, hlen]
  constructor
  · intro ⟨⟨_, hbefore⟩, _⟩ hnil
    rw [hnil] at hbefore
    exact absurd hbefore (by decide)
  · intro hne
    have hpos := List.length_pos_iff.mpr hne
    rw [before_of_pos hpos hle]
    refine ⟨⟨hreadIn, by omega⟩, ?_⟩
    split <;> omega

/-- There is something on the line if a character comes in time and is not the line
feed. -/
theorem rawLine_ne_nil_iff (port : Port) :
    port.rawLine.1 ≠ [] ↔ ∃ c, (port.timedRead 250).1 = some c ∧ c ≠ 10 := by
  rw [Port.rawLine, inputBufferSize, Port.chars]
  split
  · rename_i next heq
    simp [heq]
  · rename_i c next heq
    by_cases hc : c = 10 <;> simp [heq, hc]

/-- The port at the start of every turn of a response. -/
def Device.turnPorts {σ : Type} (start timeout : Nat) :
    Nat → (Nat → Nat → UInt8) → Device → Option (ParserMethod σ) → σ → Buffer → Port →
      List Port
  | 0, _, _, _, _, _, _ => []
  | fuel + 1, cgsn, d, parserMethod, params, buffer, port =>
      let read := port.readLn buffer inputBufferSize 250
      let r := read.lineRead start timeout (cgsn 0)
      port :: match d.readOne parserMethod params r with
        | .done _ _ _ => []
        | .more d parserMethod params =>
            if r.timedOut then []
            else
              turnPorts start timeout fuel (fun k => cgsn (k + 1)) d parserMethod params
                read.buffer (read.port.delay read.pause)

/-- What was touched stays in the log. -/
theorem inside_of_readLn {buffer : Buffer} {port : Port}
    (h : (port.readLn buffer inputBufferSize 250).buffer.Inside) : buffer.Inside := by
  have hread := (Buffer.touch_inside.mp (Buffer.set_inside.mp h).1).1
  rw [readBytesUntil_eq] at hread
  simp only [] at hread
  split at hread
  · exact Buffer.inside_of_store (Buffer.set_inside.mp hread).1
  · exact Buffer.inside_of_store hread

theorem inside_of_listen {σ : Type} {start timeout fuel : Nat} {cgsn : Nat → Nat → UInt8}
    {d : Device} {parserMethod : Option (ParserMethod σ)} {params : σ} {buffer : Buffer}
    {port : Port}
    (h : (Device.listen start timeout fuel cgsn d parserMethod params buffer port).buffer.Inside) :
    buffer.Inside := by
  induction fuel generalizing cgsn d parserMethod params buffer port with
  | zero => exact h
  | succ fuel ih =>
      rw [Device.listen.eq_2] at h
      simp only [] at h
      split at h
      · exact inside_of_readLn h
      · split at h
        · exact inside_of_readLn h
        · exact inside_of_readLn (ih h)

/-- A response stays in the input buffer exactly when every turn of it gets a
character in time that is not a line feed. -/
theorem listen_inside_iff {σ : Type} {start timeout fuel : Nat} (cgsn : Nat → Nat → UInt8)
    (d : Device) (parserMethod : Option (ParserMethod σ)) (params : σ) {buffer : Buffer}
    (port : Port) (hin : buffer.Inside) (hsize : buffer.size = inputBufferSize) :
    (Device.listen start timeout fuel cgsn d parserMethod params buffer port).buffer.Inside ↔
      ∀ p ∈ Device.turnPorts start timeout fuel cgsn d parserMethod params buffer port,
        ∃ c, (p.timedRead 250).1 = some c ∧ c ≠ 10 := by
  induction fuel generalizing cgsn d parserMethod params buffer port with
  | zero => exact ⟨fun _ p hp => absurd hp List.not_mem_nil, fun _ => hin⟩
  | succ fuel ih =>
      obtain ⟨hreadSize, hread⟩ := readLn_inside_iff hin hsize port
      rw [Device.listen.eq_2, Device.turnPorts, List.forall_mem_cons, ← rawLine_ne_nil_iff,
        ← hread]
      simp only []
      cases d.readOne parserMethod params
          ((port.readLn buffer inputBufferSize 250).lineRead start timeout (cgsn 0)) with
      | done type d params => simp
      | more d parserMethod params =>
          simp only []
          split
          · simp
          · by_cases hinside : (port.readLn buffer inputBufferSize 250).buffer.Inside
            · rw [ih _ d parserMethod params _ hinside hreadSize]
              simp only [hinside, true_and]
            · simp only [hinside, false_and, iff_false]
              exact fun h => hinside (inside_of_listen h)

/-- A modem that stays silent has the node look in front of its buffer. -/
theorem silence_looks_outside :
    ¬ (Device.listen (σ := Unit) 0 5000 1 (fun _ _ => 0) {} none () Small.inputBuffer
      ⟨0, []⟩).buffer.Inside := by
  have hin : Small.inputBuffer.Inside :=
    ⟨fun i hi => absurd hi List.not_mem_nil, fun i hi => absurd hi List.not_mem_nil⟩
  rw [listen_inside_iff (fun _ _ => 0) {} none () ⟨0, []⟩ hin rfl]
  intro hall
  obtain ⟨c, hc, _⟩ := hall ⟨0, []⟩ List.mem_cons_self
  rw [timedRead_silent] at hc
  cases hc

end NbIot
