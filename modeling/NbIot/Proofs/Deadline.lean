import NbIot.Lib.Timed
import NbIot.Proofs.Bringup

/-!
# Bringing up the modem takes no longer than it may

If no poll of the port takes longer than `slow`, `connect` is over after three
minutes and some lines, whatever the modem prints and when, and more turns of its
loops would not change what it does (`connect_ends`). Each command is waited for as
long as its timeout and one line; the loops poll a clock that wraps around, and none
of them runs long enough to miss their time.
-/

namespace NbIot

open Lib (Within until_clock until_fuel until_post bind_apply)

/-- No poll takes longer than this. -/
def Session.Slow (slow : Nat) (s : Session) : Prop := s.port.Slow slow

def Session.now (s : Session) : Nat := s.port.now

namespace Talk

/-- Two programs that do the same, for `ms` milliseconds at most. -/
abbrev Timed {β : Type} (slow ms : Nat) (p q : Talk β) : Prop :=
  Within (Session.Slow slow) Session.now ms p q

variable {slow : Nat}

/-! ## Single commands -/

theorem println_timed (c : Command) : Timed slow 0 (println c) (println c) :=
  Within.instant (fun _ hs => hs) fun _ => rfl

theorem readResponse_timed {σ : Type} (parserMethod : Option (ParserMethod σ)) (params : σ)
    {timeout : Nat} (hwrap : timeout + longestTurn slow < 2 ^ 32) :
    Timed slow (timeout + longestTurn slow) (readResponse parserMethod params timeout)
      (readResponse parserMethod params timeout) := by
  intro s hs
  obtain ⟨hsoon, hslow⟩ := readPort_within s.device parserMethod params (s.cgsn 0) s.buffer hs
    hwrap
  obtain ⟨_, hlater, _⟩ := readResponse_polls parserMethod params timeout s
  exact ⟨rfl, hslow, hlater, by rw [← Nat.add_assoc]; exact hsoon⟩

theorem query_timed {σ : Type} (c : Command) (parserMethod : ParserMethod σ) (params : σ)
    (hwrap : 5000 + longestTurn slow < 2 ^ 32) :
    Timed slow (5000 + longestTurn slow) (query c parserMethod params)
      (query c parserMethod params) :=
  ((println_timed c).bind fun _ => readResponse_timed _ params hwrap).mono (by omega)

theorem ask_timed (c : Command) {timeout : Nat} (hwrap : timeout + longestTurn slow < 2 ^ 32) :
    Timed slow (timeout + longestTurn slow) (ask c timeout) (ask c timeout) :=
  ((println_timed c).bind fun _ =>
    (readResponse_timed none () hwrap).bind fun _ => Within.pure _).mono (by omega)

theorem tryAlive_timed (hwrap : 450 + longestTurn slow < 2 ^ 32) (i : Nat) :
    Timed slow (i * (450 + longestTurn slow)) (tryAlive i) (tryAlive i) := by
  induction i with
  | zero => exact (Within.pure _).mono (Nat.zero_le _)
  | succ i ih =>
      refine ((ask_timed .alive hwrap).bind fun _ =>
        ((Within.pure true).mono (Nat.zero_le _)).branch ih).mono ?_
      rw [Nat.succ_mul]
      omega

theorem on_timed (hwrap : 450 + longestTurn slow < 2 ^ 32) :
    Timed slow (10 * (450 + longestTurn slow)) on on := by
  refine ((Within.instant (fun s hs => ?_) fun s => ?_).bind fun _ =>
    (tryAlive_timed hwrap 10).bind fun _ => Within.branch
      (Within.instant (fun s hs => hs) fun s => rfl) (Within.pure false)).mono (by omega)
  · show Session.Slow slow (if s.powered then s else { s with powered := true })
    split
    · exact hs
    · exact hs
  · show Session.now (if s.powered then s else { s with powered := true }) = s.now
    split <;> rfl

/-! ## The loops that read on -/

/-- The responses that are passed over are in time, and the last of them is waited for. -/
theorem readUntil_timed {ends : ResponseTypes} {timeout : Nat}
    (hends : ends = .timeout ∨ 2000 < timeout)
    (hwrap : 2260 + timeout + longestTurn slow < 2 ^ 32) (more : Nat) :
    Timed slow (2000 + timeout + longestTurn slow) (readUntil ends timeout more)
      (readUntil ends timeout 0) := by
  intro s hs
  let inTime (t : Session) : Prop := Waiting s.now (t.port.polls.length + 1) t
  have hfuel : readUntil ends timeout more s = readUntil ends timeout 0 s :=
    until_fuel inTime (fun t => t.port.polls.length)
      (fun t u ht _ hturn => by
        obtain ⟨⟨hnow, htime, _⟩, hfewer⟩ := await_waiting hends (by omega) ht hturn
        exact ⟨⟨hnow, htime, Nat.lt_succ_self _⟩, hfewer⟩)
      (waiting_start s (Nat.lt_succ_self _)) (by omega) (by omega)
  refine ⟨hfuel, ?_⟩
  let turn (t : Session) : Prop := t.Slow slow ∧ s.now ≤ t.now ∧ t.now ≤ s.now + 2000
  let behind (t : Session) : Prop :=
    t.Slow slow ∧ s.now ≤ t.now ∧ t.now ≤ s.now + (2000 + timeout + longestTurn slow)
  have hturn : ∀ t, turn t → behind (readResponse none () timeout t).2 := by
    intro t ⟨hslow, hstart, htime⟩
    obtain ⟨_, hkept, hlater, hsoon⟩ := readResponse_timed none () (show timeout + _ < _ by omega)
      t hslow
    exact ⟨hkept, by omega, by omega⟩
  have hover : ∀ t, turn t → behind t := fun t ⟨hslow, hstart, htime⟩ =>
    ⟨hslow, hstart, by omega⟩
  refine until_post turn (fun _ t => behind t) (fun t u ht _ heq => ?_) (fun t u b ht _ heq => ?_)
    (fun t ht => hover t ht) ⟨hs, Nat.le_refl _, Nat.le_add_right ..⟩
  · have hnext := hturn t ht
    rw [await_eq] at heq
    simp only [] at heq
    split at heq
    · cases heq
    · rename_i hmore
      cases heq
      obtain ⟨hslow, hstart, hsoon⟩ := hnext
      have hintime := (not_or.mp hmore).2
      rw [isTimedout_iff (show s.port.now ≤ _ from hstart), not_lt] at hintime
      refine ⟨hslow, hstart, ?_⟩
      unfold Session.now at *
      omega
  · have hnext := hturn t ht
    rw [await_eq] at heq
    simp only [] at heq
    split at heq
    · cases heq
      exact hnext
    · cases heq

theorem purgeAllResponsesRead_timed (hwrap : 3260 + longestTurn slow < 2 ^ 32) (more : Nat) :
    Timed slow (3000 + longestTurn slow) (purgeAllResponsesRead more)
      (purgeAllResponsesRead 0) :=
  readUntil_timed (Or.inl rfl) hwrap more

theorem reboot_timed (hwrap : 7260 + longestTurn slow < 2 ^ 32) (more : Nat) :
    Timed slow (7000 + longestTurn slow) (reboot more) (reboot 0) :=
  ((println_timed .nrb).bind fun _ =>
    readUntil_timed (Or.inr (show 2000 < 5000 by omega)) hwrap more).mono (by omega)

/-! ## The configuration -/

theorem applyNconfig_timed (hwrap : 5000 + longestTurn slow < 2 ^ 32)
    (params : List ((String × String) × Bool)) :
    Timed slow (params.length * (5000 + longestTurn slow)) (applyNconfig params)
      (applyNconfig params) := by
  induction params with
  | nil => exact (Within.pure _).mono (Nat.zero_le _)
  | cons p params ih =>
      obtain ⟨⟨param, value⟩, applied⟩ := p
      rw [List.length_cons, Nat.succ_mul, Nat.add_comm]
      cases applied with
      | true => exact (((Within.pure ()).mono (Nat.zero_le _)).bind fun _ => ih)
      | false => exact (ask_timed _ hwrap).bind fun _ => ih

theorem checkAndApplyNconfig_timed (hwrap : 5000 + longestTurn slow < 2 ^ 32)
    (applyParam : List Bool) :
    Timed slow (4 * (5000 + longestTurn slow)) (checkAndApplyNconfig applyParam)
      (checkAndApplyNconfig applyParam) := by
  have hrest : ∀ params : List ((String × String) × Bool), params.length ≤ 3 →
      Timed slow (3 * (5000 + longestTurn slow)) (do applyNconfig params; return true)
        (do applyNconfig params; return true) := by
    intro params hle
    have hms := Nat.mul_le_mul_right (5000 + longestTurn slow) hle
    exact ((applyNconfig_timed hwrap params).bind fun _ => Within.pure true).mono hms
  refine ((query_timed .nconfig nconfigParser applyParam hwrap).bind fun r =>
    Within.branch (hrest (nConfig.zip r.2) ?_)
      ((Within.pure false).mono (Nat.zero_le _))).mono (by omega)
  rw [List.length_zip]
  exact Nat.min_le_left ..

/-! ## Polling -/

theorem safeDelays_sum (ms : Nat) : (safeDelays ms).sum = ms := by
  induction ms using safeDelays.induct with
  | case1 ms hlong ih =>
      rw [safeDelays, if_pos hlong, List.sum_cons, ih]
      omega
  | case2 ms hshort => rw [safeDelays, if_neg hshort, List.sum_singleton]

theorem safeDelay_now (s : Session) (ms : Nat) :
    (s.safeDelay ms).now = s.now + ms ∧ (s.safeDelay ms).port.polls = s.port.polls := by
  have hall : ∀ delays : List Nat, (delays.foldl Session.delay s).now = s.now + delays.sum ∧
      (delays.foldl Session.delay s).port.polls = s.port.polls := by
    intro delays
    induction delays generalizing s with
    | nil => exact ⟨rfl, rfl⟩
    | cons ms delays ih =>
        obtain ⟨hnow, hpolls⟩ := ih (s.delay ms)
        refine ⟨?_, hpolls⟩
        rw [List.foldl_cons, hnow, List.sum_cons, ← Nat.add_assoc]
        rfl
  have hsum := hall (safeDelays ms)
  rw [safeDelays_sum] at hsum
  exact hsum

/-- The delays of the polling loop, 500 to 5500. -/
def Polling (slow : Nat) (t : Session × Nat) : Prop :=
  t.1.Slow slow ∧ 500 ≤ t.2 ∧ t.2 ≤ 5500 ∧ t.2 % 1000 = 500

theorem pollModem_timed {ms timeout : Nat} {attempt : Nat → Talk Bool}
    (hattempt : ∀ start, Timed slow ms (attempt start) (attempt start))
    (hwrap : timeout + (ms + 5500) < 2 ^ 32) (more : Nat) :
    Timed slow (timeout + (ms + 5500)) (pollModem more timeout attempt)
      (pollModem 0 timeout attempt) := by
  intro s hs
  have hgoes : ∀ t : Session × Nat, s.now ≤ t.1.now →
      (!isTimedout s.port.now timeout t.1) = true → (t.1.now - s.now) % 2 ^ 32 ≤ timeout := by
    intro t hstart hgoes
    rw [Bool.not_eq_true', Bool.eq_false_iff, Ne,
      isTimedout_iff (show s.port.now ≤ _ from hstart), not_lt] at hgoes
    exact hgoes
  have hbody : ∀ t : Session × Nat, Polling slow t →
      (!isTimedout s.port.now timeout t.1) = true →
      Polling slow (pollTurn (attempt s.port.now) t).2 ∧
        t.1.now ≤ (pollTurn (attempt s.port.now) t).2.1.now ∧
        (pollTurn (attempt s.port.now) t).2.1.now ≤ t.1.now + (ms + 5500) ∧
        ((pollTurn (attempt s.port.now) t).1 = none →
          t.1.now + 500 ≤ (pollTurn (attempt s.port.now) t).2.1.now) := by
    intro (t, delayCount) ⟨hslow, hlo, hhi, hmod⟩ _
    obtain ⟨_, hkept, hlater, hsoon⟩ := hattempt s.port.now t hslow
    obtain ⟨hdelay, hpolls⟩ := safeDelay_now (attempt s.port.now t).2 delayCount
    unfold pollTurn
    simp only [] at hlo hhi hmod ⊢
    split
    · exact ⟨⟨hkept, hlo, hhi, hmod⟩, hlater, Nat.le_trans hsoon (by omega),
        fun h => by cases h⟩
    · have hlonger : 500 ≤ longer delayCount ∧ longer delayCount ≤ 5500 ∧
          longer delayCount % 1000 = 500 := by
        unfold longer
        split <;> omega
      refine ⟨⟨?_, hlonger⟩, ?_, ?_, fun _ => ?_⟩
      · show ∀ p ∈ ((attempt s.port.now t).2.safeDelay delayCount).port.polls, p.took ≤ slow
        rw [hpolls]
        exact hkept
      all_goals
        show _ ≤ _
        simp only []
        omega
  obtain ⟨hfuel, hinv, hlater, hsoon⟩ := until_clock (fun _ => false)
    (fun t : Session × Nat => t.1.now) (Polling slow) hgoes hbody (by decide) hwrap
    (s := (s, 500)) ⟨hs, Nat.le_refl _, show 500 ≤ 5500 by omega, rfl⟩ rfl
    (Nat.le_add_right (timeout / 500 + 2) more)
  refine ⟨?_, hinv.1, hlater, by rw [← Nat.add_assoc]; exact hsoon⟩
  unfold pollModem
  simp only [hfuel, Nat.add_zero]

theorem signalIsGood_timed (hwrap : 5000 + longestTurn slow < 2 ^ 32) (start : Nat) :
    Timed slow (5000 + longestTurn slow) (signalIsGood start) (signalIsGood start) := by
  have hvalues : Timed slow (5000 + longestTurn slow) getRSSIAndBER getRSSIAndBER :=
    (query_timed .csq csqParser (0, 0) hwrap).bind fun _ =>
      Within.branch (Within.pure _) (Within.pure _)
  refine (hvalues.bind fun values => ?_ : Timed slow (5000 + longestTurn slow + 0) _ _)
  cases values with
  | none => exact Within.pure false
  | some values =>
      refine Within.instant (fun s hs => ?_) fun s => ?_
      · simp only [bind_apply]
        split
        · exact hs
        · exact hs
      · simp only [bind_apply]
        split <;> rfl

theorem isConnected_timed (hwrap : 5000 + longestTurn slow < 2 ^ 32) :
    Timed slow (5000 + longestTurn slow) isConnected isConnected :=
  (query_timed .cgatt cgattParser 0 hwrap).bind fun _ => Within.pure _

theorem createSocket_timed (hwrap : 5000 + longestTurn slow < 2 ^ 32) (localPort : BitVec 16)
    (socket : BitVec 8) :
    Timed slow (5000 + longestTurn slow) (createSocket localPort socket)
      (createSocket localPort socket) :=
  (query_timed (.nsocr localPort) createSocketParser socket hwrap).bind fun _ => Within.pure _

/-! ## The whole of it -/

/-- How long `connect` can take: three minutes, and 35 lines. -/
def connectLimit (slow : Nat) : Nat := 183050 + 35 * longestTurn slow

/-- The times of the stages, one after the other. -/
theorem connect_timed (hwrap : 70500 + longestTurn slow < 2 ^ 32) (more : Nat)
    (apn : List UInt8) (locals : ConnectLocals) :
    Timed slow (connectLimit slow) (connect more apn locals) (connect 0 apn locals) := by
  have hfits {ms : Nat} (hle : ms ≤ 70500) : ms + longestTurn slow < 2 ^ 32 := by omega
  have hquery := hfits (show 5000 ≤ 70500 by omega)
  have hon := on_timed (hfits (show 450 ≤ 70500 by omega))
  have hpurge := purgeAllResponsesRead_timed (hfits (show 3260 ≤ 70500 by omega)) more
  have hask (c : Command) := ask_timed c hquery
  have hparams := checkAndApplyNconfig_timed hquery locals.applyParam
  have hreboot := reboot_timed (hfits (show 7260 ≤ 70500 by omega)) more
  have hsignal : Timed slow _ (waitForSignalQuality more 60000) (waitForSignalQuality 0 60000) :=
    pollModem_timed (signalIsGood_timed hquery) (by omega) more
  have hattach : Timed slow _ (attachBee more 30000) (attachBee 0 30000) :=
    pollModem_timed (fun _ => isConnected_timed hquery) (by omega) more
  have hsocket := createSocket_timed hquery 3000 locals.socket
  have hdelay : Timed slow 50 (do modify fun s => s.delay 50; return true)
      (do modify fun s => s.delay 50; return true) :=
    fun s hs => ⟨rfl, hs, Nat.le_add_right .., Nat.le_refl _⟩
  refine (hon.guard Bool.not false <| hpurge.bind fun _ => (hask (.cfun false)).guard Bool.not false <|
    hparams.guard Bool.not false <| hreboot.bind fun _ => hon.guard Bool.not false <|
    hpurge.bind fun _ => (hask (.cgdcont apn)).guard Bool.not false <|
    (hask (.cfun true)).guard Bool.not false <|
    (hask (.cops (locals.forceOperator.filter (· ≠ [])))).guard Bool.not false <|
    (hask .cgsn).guard Bool.not false <| hsignal.guard Bool.not false <|
    hattach.guard Bool.not false <| hsocket.guard Option.isNone false hdelay).mono ?_
  unfold connectLimit
  omega

/-- Whatever the modem prints, `connect` is over in time, and more turns of its loops
would not change what it does. -/
theorem connect_ends {s : Session} (hslow : s.Slow slow)
    (hwrap : 70500 + longestTurn slow < 2 ^ 32) (more : Nat) (apn : List UInt8)
    (locals : ConnectLocals) :
    connect more apn locals s = connect 0 apn locals s ∧
      (connect more apn locals s).2.now ≤ s.now + connectLimit slow := by
  obtain ⟨heq, _, _, hsoon⟩ := connect_timed hwrap more apn locals s hslow
  exact ⟨heq, hsoon⟩

/-- A session with a modem that stays silent. -/
def Small.silent : Session :=
  { device := {}, buffer := Small.inputBuffer, port := ⟨0, []⟩, cgsn := fun _ _ _ => 0 }

theorem silence_ends :
    connect 5 [] ⟨none, [], 0⟩ Small.silent = connect 0 [] ⟨none, [], 0⟩ Small.silent ∧
      (connect 5 [] ⟨none, [], 0⟩ Small.silent).2.now ≤ 0 + connectLimit 0 :=
  connect_ends (s := Small.silent) (fun _ hp => absurd hp List.not_mem_nil) (by decide) 5 []
    ⟨none, [], 0⟩

end Talk

end NbIot
