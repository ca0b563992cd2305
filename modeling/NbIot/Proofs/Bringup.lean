import NbIot.Lib.Says
import NbIot.Node.Connect
import NbIot.Proofs.Listening

/-!
# The conversation of `connect`

Whatever the modem does, what `connect` says and hears is a word of its stages: all
of them, each with the answer it waits for, if it returns true, and otherwise some of
them up to one that failed (`connect_says`). A loop is the star of the turns that do
not end it.
-/

namespace NbIot

open Computability
open Lib (Says Stage loopUntil procedure bind_apply get_apply modify_apply
  pure_apply set_apply if_apply)

namespace Talk

/-! ## Languages -/

/-- A command and its response. -/
def exchange (c : Command) (hears : ResponseTypes → Prop) : Language Event :=
  {w | ∃ type, hears type ∧ w = [.command c, .response type]}

/-- A response alone. -/
def heard (hears : ResponseTypes → Prop) : Language Event :=
  {w | ∃ type, hears type ∧ w = [.response type]}

def accepted (c : Command) : Language Event := exchange c (· = .ok)

def refused (c : Command) : Language Event := exchange c (· ≠ .ok)

/-- A command that is accepted or refused. -/
def asked (c : Command) : Language Event := exchange c fun _ => True

/-- A command that has to be accepted. -/
def asking (c : Command) : Stage Event := ⟨accepted c, refused c⟩

/-- Some refusals, fewer than the tries there are, and then the modem is there. -/
def aliveIn : Nat → Language Event
  | 0 => 0
  | i + 1 => accepted .alive + refused .alive * aliveIn i

def turningOn : Stage Event := ⟨aliveIn 10, refused .alive ^ 10⟩

/-- Responses up to a timeout, or up to any of them once the time is over. -/
def purging : Stage Event := ⟨(heard (· ≠ .timeout))∗ * heard fun _ => True, 0⟩

def rebooting : Stage Event :=
  ⟨{[.command .nrb]} * ((heard (· ≠ .ok))∗ * heard fun _ => True), 0⟩

/-- Some of the parameters, in their order, whatever the modem says to it. -/
def settingNconfig : List (String × String) → Language Event
  | [] => 1
  | (param, value) :: rest => (1 + asked (.setNconfig param value)) * settingNconfig rest

def configuring : Stage Event :=
  ⟨accepted .nconfig * settingNconfig nConfig, refused .nconfig⟩

/-- A query that is repeated until its answer is as hoped, or not any more. -/
def polling (c : Command) : Stage Event := ⟨(asked c)∗ * accepted c, (asked c)∗⟩

/-- The stages of `connect`. -/
def connectStages (apn : List UInt8) (forceOperator : Option (List UInt8)) :
    List (Stage Event) :=
  [turningOn, purging, asking (.cfun false), configuring, rebooting, turningOn, purging,
    asking (.cgdcont apn), asking (.cfun true),
    asking (.cops (forceOperator.filter (· ≠ []))), asking .cgsn, polling .csq,
    polling .cgatt, asking (.nsocr 3000)]

/-! ## What each function says -/

abbrev said : Session → List Event := Session.said

theorem says_println (c : Command) : Says said (println c) fun _ => {[.command c]} :=
  fun _ => ⟨_, rfl, rfl⟩

theorem says_readResponse {σ : Type} (parserMethod : Option (ParserMethod σ)) (params : σ)
    (timeout : Nat) :
    Says said (readResponse parserMethod params timeout) fun r => heard (· = r.1) :=
  fun _ => ⟨_, ⟨_, rfl, rfl⟩, rfl⟩

theorem says_query {σ : Type} (c : Command) (parserMethod : ParserMethod σ) (params : σ) :
    Says said (query c parserMethod params) fun r => exchange c (· = r.1) := by
  refine (says_println c).bind (fun _ => says_readResponse _ params _) fun _ r w hw => ?_
  obtain ⟨_, rfl, _, ⟨type, htype, rfl⟩, rfl⟩ := Language.mem_mul.mp hw
  exact ⟨type, htype, rfl⟩

/-- A command is accepted if and only if the function says so. -/
theorem says_ask (c : Command) (timeout : Nat) :
    Says said (ask c timeout) (asking c).language := by
  intro s
  let type := (s.device.readPort none () timeout (s.cgsn 0) s.buffer s.port).type
  refine ⟨[.command c, .response type], ?_, List.append_assoc s.said [_] [_]⟩
  show _ ∈ (asking c).language (decide (type = .ok))
  by_cases h : type = .ok
  · rw [decide_eq_true h]
    exact ⟨type, h, rfl⟩
  · rw [decide_eq_false h]
    exact ⟨type, h, rfl⟩

theorem says_tryAlive (i : Nat) :
    Says said (tryAlive i) (Stage.language ⟨aliveIn i, refused .alive ^ i⟩) := by
  induction i with
  | zero => exact Says.pure (by rw [pow_zero]; exact Language.nil_mem_one)
  | succ i ih =>
      let K (ok : Bool) : Bool → Language Event :=
        if ok then fun b => if b then 1 else 0
        else Stage.language ⟨aliveIn i, refused .alive ^ i⟩
      refine Says.bind (K := K) (says_ask .alive 450) (fun ok => ?_) fun ok b w hw => ?_
      · cases ok with
        | true => exact Says.pure (show [] ∈ (1 : Language Event) from rfl)
        | false => exact ih
      · cases ok <;> cases b
        · show w ∈ refused .alive ^ (i + 1)
          rw [pow_succ']
          exact hw
        · exact Or.inr hw
        · exact absurd hw (by rw [show K true false = 0 from rfl, mul_zero]; exact id)
        · rw [show K true true = 1 from rfl, mul_one] at hw
          exact Or.inl hw

theorem tryAlive_powered (i : Nat) (s : Session) : (tryAlive i s).2.powered = s.powered := by
  induction i generalizing s with
  | zero => rfl
  | succ i ih =>
      simp only [tryAlive, bind_apply, pure_apply, if_apply]
      split
      · rfl
      · exact ih _

theorem on_eq (s : Session) :
    on s =
      let tried := tryAlive 10 (if s.powered then s else { s with powered := true })
      if tried.1 then (tried.2.powered, tried.2) else (false, tried.2) := by
  simp only [on, bind_apply, modify_apply, get_apply, pure_apply, if_apply]

theorem switched_on (s : Session) :
    (if s.powered then s else { s with powered := true }).powered = true ∧
      (if s.powered then s else { s with powered := true }).said = s.said := by
  split
  · exact ⟨‹_›, rfl⟩
  · exact ⟨rfl, rfl⟩

theorem says_on : Says said on turningOn.language := by
  intro s
  obtain ⟨hon, hsaid⟩ := switched_on s
  generalize hs' : (if s.powered then s else { s with powered := true }) = s' at hon hsaid
  have hpowered := (tryAlive_powered 10 s').trans hon
  obtain ⟨w, hw, hlog⟩ := says_tryAlive 10 s'
  rw [on_eq, hs']
  simp only []
  cases hok : (tryAlive 10 s').1 with
  | true =>
      rw [hok] at hw
      refine ⟨w, ?_, hlog.trans (congrArg (· ++ w) hsaid)⟩
      rw [if_pos rfl, hpowered]
      exact hw
  | false =>
      rw [hok] at hw
      exact ⟨w, hw, hlog.trans (congrArg (· ++ w) hsaid)⟩

/-! ## The loops -/

theorem readResponse_silent {σ : Type} (parserMethod : Option (ParserMethod σ)) (params : σ)
    {timeout : Nat} (htimeout : timeout + 260 < 2 ^ 32) {s : Session}
    (hnil : s.port.polls = []) :
    (readResponse parserMethod params timeout s).1.1 = .timeout ∧
      s.port.now + timeout < (readResponse parserMethod params timeout s).2.port.now ∧
      (readResponse parserMethod params timeout s).2.port.now ≤ s.port.now + timeout + 260 :=
  readPort_silent s.device parserMethod params htimeout (s.cgsn 0) s.buffer hnil

theorem readResponse_polls {σ : Type} (parserMethod : Option (ParserMethod σ)) (params : σ)
    (timeout : Nat) (s : Session) :
    let after := (readResponse parserMethod params timeout s).2.port
    after.polls.length ≤ s.port.polls.length ∧ s.port.now ≤ after.now ∧
      (s.port.polls ≠ [] → after.polls.length < s.port.polls.length) :=
  readPort_polls s.device parserMethod params timeout (s.cgsn 0) s.buffer s.port

theorem await_eq (ends : ResponseTypes) (start timeout : Nat) (s : Session) :
    await ends start timeout s =
      let response := readResponse none () timeout s
      if response.1.1 = ends ∨ isTimedout start 2000 response.2 = true then
        (some (), response.2)
      else (none, response.2) := by
  unfold await
  rw [bind_apply]
  simp only []
  generalize readResponse none () timeout s = response
  by_cases hends : response.1.1 = ends
  · rw [if_pos hends, if_pos (Or.inl hends), pure_apply]
  · rw [if_neg hends, bind_apply]
    by_cases htime : isTimedout start 2000 response.2 = true
    · rw [if_pos (Or.inr htime)]
      show (if isTimedout start 2000 response.2 = true then pure (some ())
        else pure none : Talk (Option Unit)) response.2 = _
      rw [if_pos htime, pure_apply]
    · rw [if_neg (not_or.mpr ⟨hends, htime⟩)]
      show (if isTimedout start 2000 response.2 = true then pure (some ())
        else pure none : Talk (Option Unit)) response.2 = _
      rw [if_neg htime, pure_apply]

theorem says_await (ends : ResponseTypes) (start timeout : Nat) :
    Says said (await ends start timeout)
      (Says.turn (heard (· ≠ ends)) fun _ => heard fun _ => True) := by
  intro s
  obtain ⟨w, ⟨type, htype, rfl⟩, hlog⟩ :=
    says_readResponse (none : Option (ParserMethod Unit)) () timeout s
  have heq := await_eq ends start timeout s
  simp only [] at heq
  split at heq
  · rw [heq]
    exact ⟨[.response type], ⟨type, trivial, rfl⟩, hlog⟩
  · rename_i hmore
    rw [heq]
    refine ⟨[.response type], ⟨type, fun hends => ?_, rfl⟩, hlog⟩
    exact hmore (Or.inl (htype.symm.trans hends))

/-- The time is not over, and there are more turns than polls. -/
def Waiting (start n : Nat) (s : Session) : Prop :=
  start ≤ s.port.now ∧ (s.port.now - start) % 2 ^ 32 ≤ 2000 ∧ s.port.polls.length < n

theorem isTimedout_iff {start ms : Nat} {s : Session} (h : start ≤ s.port.now) :
    isTimedout start ms s = true ↔ ms < (s.port.now - start) % 2 ^ 32 := by
  rw [isTimedout, decide_eq_true_iff, toNat_sub_millis h]

/-- A turn that goes on took a poll off the port: the silent modem ends the loop. -/
theorem await_waiting {ends : ResponseTypes} {start timeout n : Nat} {s t : Session}
    (hends : ends = .timeout ∨ 2000 < timeout) (hwrap : timeout + 2260 < 2 ^ 32)
    (hs : Waiting start (n + 1) s) (h : await ends start timeout s = (none, t)) :
    Waiting start n t ∧ t.port.polls.length < s.port.polls.length := by
  obtain ⟨hstart, htime, hleft⟩ := hs
  obtain ⟨_, hlater, hfewer⟩ :=
    readResponse_polls (none : Option (ParserMethod Unit)) () timeout s
  rw [await_eq] at h
  simp only [] at h
  split at h
  · cases h
  · rename_i hmore
    obtain ⟨hother, hintime⟩ := not_or.mp hmore
    cases h
    have hnow := Nat.le_trans hstart hlater
    rw [isTimedout_iff hnow, not_lt] at hintime
    have hne : s.port.polls ≠ [] := by
      intro hnil
      obtain ⟨htype, hlo, hhi⟩ :=
        readResponse_silent (none : Option (ParserMethod Unit)) ()
          (show timeout + 260 < 2 ^ 32 by omega) hnil
      cases hends with
      | inl hends => exact hother (htype.trans hends.symm)
      | inr hlong => omega
    have hlt := hfewer hne
    exact ⟨⟨hnow, hintime, by omega⟩, hlt⟩

theorem waiting_start (s : Session) {n : Nat} (h : s.port.polls.length < n) :
    Waiting s.port.now n s :=
  ⟨Nat.le_refl _, by rw [Nat.sub_self]; exact Nat.zero_le _, h⟩

theorem says_readUntil {ends : ResponseTypes} {timeout : Nat}
    (hends : ends = .timeout ∨ 2000 < timeout) (hwrap : timeout + 2260 < 2 ^ 32) (more : Nat) :
    Says said (readUntil ends timeout more) fun _ =>
      (heard (· ≠ ends))∗ * heard fun _ => True := by
  intro s
  obtain ⟨w, hw, hlog⟩ := Says.loop_at (fun _ => true) (fun _ => ())
    (O := fun _ => 0) (Waiting s.port.now) (says_await ends s.port.now timeout)
    (fun n s t hs _ hturn => (await_waiting hends hwrap hs hturn).1)
    (fun n s hs hover => by
      obtain rfl | hover := hover
      · exact absurd hs.2.2 (Nat.not_lt_zero _)
      · cases hover)
    (waiting_start s (show s.port.polls.length < s.port.polls.length + 2 + more by omega))
  rw [add_zero] at hw
  exact ⟨w, hw, hlog⟩

theorem says_purgeAllResponsesRead (more : Nat) :
    Says said (purgeAllResponsesRead more) fun _ => purging.done :=
  says_readUntil (Or.inl rfl) (by decide) more

theorem says_reboot (more : Nat) : Says said (reboot more) fun _ => rebooting.done :=
  (says_println .nrb).bind (fun _ => says_readUntil (Or.inr (by decide)) (by decide) more)
    fun _ _ _ hw => hw

/-! ## The configuration -/

theorem says_applyNconfig (params : List ((String × String) × Bool)) :
    Says said (applyNconfig params) fun _ => settingNconfig (params.map Prod.fst) := by
  induction params with
  | nil => exact Says.pure rfl
  | cons p params ih =>
      obtain ⟨⟨param, value⟩, applied⟩ := p
      let L : Language Event := 1 + asked (.setNconfig param value)
      cases applied with
      | true =>
          refine Says.bind (L := fun _ => L) (p := pure ()) (k := fun _ => applyNconfig params)
            (Says.pure (Or.inl rfl)) (fun _ => ih) fun _ _ _ hw => hw
      | false =>
          refine Says.bind (L := fun _ => L) (p := setNconfigParam param value)
            (k := fun _ => applyNconfig params) ((says_ask _ _).mono fun ok w hw => Or.inr ?_)
            (fun _ => ih) fun _ _ _ hw => hw
          cases ok
          all_goals
            obtain ⟨type, _, rfl⟩ := hw
            exact ⟨type, trivial, rfl⟩

/-- An array that is too short leaves the last parameters out. -/
theorem settingNconfig_zip (params : List (String × String)) (applied : List Bool) :
    ∀ w ∈ settingNconfig ((params.zip applied).map Prod.fst), w ∈ settingNconfig params := by
  induction params generalizing applied with
  | nil => exact fun w hw => hw
  | cons p params ih =>
      cases applied with
      | nil =>
          intro w hw
          have hrest := ih [] w (by rw [List.zip_nil_right]; exact hw)
          exact Language.mem_mul.mpr ⟨[], Or.inl rfl, w, hrest, rfl⟩
      | cons b applied =>
          intro w hw
          obtain ⟨u, hu, v, hv, rfl⟩ := Language.mem_mul.mp hw
          exact Language.append_mem_mul hu (ih applied v hv)

theorem says_checkAndApplyNconfig (applyParam : List Bool) :
    Says said (checkAndApplyNconfig applyParam) configuring.language := by
  let K (r : ResponseTypes × List Bool) (ok : Bool) : Language Event :=
    if r.1 = .ok then (if ok then settingNconfig nConfig else 0) else if ok then 0 else 1
  refine Says.bind (K := K) (says_query _ _ _) (fun r => ?_) fun r ok w hw => ?_
  · simp only [K]
    split
    · exact ((says_applyNconfig _).mono fun _ => settingNconfig_zip _ _).map fun _ _ hw => hw
    · exact Says.pure (show [] ∈ (1 : Language Event) from rfl)
  · simp only [K] at hw
    obtain ⟨_, ⟨type, htype, rfl⟩, v, hv, rfl⟩ := Language.mem_mul.mp hw
    split at hv
    · rename_i hok
      cases ok with
      | true => exact Language.append_mem_mul ⟨type, htype.trans hok, rfl⟩ hv
      | false => exact absurd hv (Language.notMem_zero v)
    · rename_i hno
      cases ok with
      | true => exact absurd hv (Language.notMem_zero v)
      | false =>
          obtain rfl : v = [] := hv
          exact ⟨type, htype ▸ hno, rfl⟩

/-! ## Polling -/

/-- A query is accepted if the function says so. -/
def tried (c : Command) (ok : Bool) : Language Event := if ok then accepted c else asked c

theorem tried_of_exchange {c : Command} {type : ResponseTypes} {ok : Bool}
    (h : ok = true → type = .ok) : ∀ w ∈ exchange c (· = type), w ∈ tried c ok := by
  rintro w ⟨_, rfl, rfl⟩
  cases ok with
  | true => exact ⟨_, h rfl, rfl⟩
  | false => exact ⟨_, trivial, rfl⟩

theorem says_isConnected : Says said isConnected (tried .cgatt) :=
  (says_query _ _ _).map fun _ => tried_of_exchange fun h =>
    of_decide_eq_true (Bool.and_eq_true_iff.mp h).1

theorem says_getRSSIAndBER :
    Says said getRSSIAndBER fun values => tried .csq values.isSome := by
  let K (r : ResponseTypes × BitVec 16 × BitVec 16) (values : Option (BitVec 8 × BitVec 8)) :
      Language Event := if values.isSome = true → r.1 = .ok then 1 else 0
  refine Says.bind (K := K) (says_query _ _ _) (fun r => ?_) fun r values w hw => ?_
  · split
    · rename_i hok
      exact Says.pure (by simp only [K]; rw [if_pos fun _ => hok]; rfl)
    · exact Says.pure (by simp only [K]; rw [if_pos (by simp)]; rfl)
  · simp only [K] at hw
    split at hw
    · rename_i hok
      rw [mul_one] at hw
      exact tried_of_exchange hok w hw
    · exact absurd hw (by rw [mul_zero]; exact id)

theorem asked_of_tried {c : Command} {ok : Bool} : ∀ w ∈ tried c ok, w ∈ asked c := by
  intro w hw
  cases ok with
  | true =>
      obtain ⟨type, _, rfl⟩ := hw
      exact ⟨type, trivial, rfl⟩
  | false => exact hw

theorem says_signalIsGood (start : Nat) : Says said (signalIsGood start) (tried .csq) := by
  intro s
  obtain ⟨w, hw, hlog⟩ := says_getRSSIAndBER s
  unfold signalIsGood
  rw [bind_apply]
  cases hvalues : (getRSSIAndBER s).1 with
  | none => exact ⟨w, asked_of_tried w hw, hlog⟩
  | some values =>
      rw [hvalues] at hw
      simp only [bind_apply]
      split
      · exact ⟨w, hw, hlog⟩
      · exact ⟨w, asked_of_tried w hw, hlog⟩

theorem safeDelay_said (s : Session) (ms : Nat) : (s.safeDelay ms).said = s.said := by
  unfold Session.safeDelay
  induction safeDelays ms generalizing s with
  | nil => rfl
  | cons ms rest ih => exact ih _

theorem says_pollTurn {c : Command} {attempt : Talk Bool}
    (hattempt : Says said attempt (tried c)) :
    Says (fun t : Session × Nat => said t.1) (pollTurn attempt)
      (Says.turn (asked c) fun ok => if ok then accepted c else 0) := by
  intro (s, delayCount)
  obtain ⟨w, hw, hlog⟩ := hattempt s
  unfold pollTurn
  simp only []
  cases hok : (attempt s).1 with
  | true =>
      rw [hok] at hw
      exact ⟨w, hw, hlog⟩
  | false =>
      rw [hok] at hw
      exact ⟨w, hw, (safeDelay_said _ delayCount).trans hlog⟩

theorem says_pollModem {c : Command} {attempt : Nat → Talk Bool}
    (hattempt : ∀ start, Says said (attempt start) (tried c)) (more timeout : Nat) :
    Says said (pollModem more timeout attempt) (polling c).language := by
  intro s
  obtain ⟨w, hw, hlog⟩ := Says.loop (fun t => !isTimedout s.port.now timeout t.1)
    (fun _ => false) (O := fun ok => if ok then 0 else 1)
    (says_pollTurn (hattempt s.port.now)) (fun _ => rfl) (timeout / 500 + 2 + more) (s, 500)
  refine ⟨w, ?_, hlog⟩
  unfold pollModem
  simp only []
  revert hw
  cases (loopUntil (fun t : Session × Nat => !isTimedout s.port.now timeout t.1)
    (pollTurn (attempt s.port.now)) (fun _ => false) (timeout / 500 + 2 + more) (s, 500)).1 with
  | true =>
      intro hw
      have hw : w ∈ (asked c)∗ * (accepted c + 0) := hw
      rw [add_zero] at hw
      exact hw
  | false =>
      intro hw
      have hw : w ∈ (asked c)∗ * (0 + 1) := hw
      rw [zero_add, mul_one] at hw
      exact hw

theorem says_createSocket (localPort : BitVec 16) (socket : BitVec 8) :
    Says said (createSocket localPort socket) fun socket =>
      (asking (.nsocr localPort)).language socket.isSome := by
  refine (says_query _ _ _).map fun r w hw => ?_
  obtain ⟨_, rfl, rfl⟩ := hw
  by_cases hok : r.1 = .ok
  · rw [if_pos hok]
    exact ⟨_, hok, rfl⟩
  · rw [if_neg hok]
    exact ⟨_, hok, rfl⟩

/-! ## The whole of it -/

/-- Whatever the modem does, what `connect` says and hears is a word of its stages. -/
theorem connect_says (more : Nat) (apn : List UInt8) (locals : ConnectLocals) :
    Says said (connect more apn locals)
      (procedure (connectStages apn locals.forceOperator)).language := by
  refine says_on.step ?_
  refine (says_purgeAllResponsesRead more).always ?_
  refine (says_ask _ _).step ?_
  refine (says_checkAndApplyNconfig _).step ?_
  refine (says_reboot more).always ?_
  refine says_on.step ?_
  refine (says_purgeAllResponsesRead more).always ?_
  refine (says_ask _ _).step ?_
  refine (says_ask _ _).step ?_
  refine (says_ask _ _).step ?_
  refine (says_ask _ _).step ?_
  refine (says_pollModem says_signalIsGood more 60000).step ?_
  refine (says_pollModem (fun _ => says_isConnected) more 30000).step ?_
  refine (says_createSocket 3000 locals.socket).guard Option.isNone
    (fun socket hnone w hw => ?_) (fun socket hsome w hw => ?_) ?_
  · rw [Option.isNone_iff_eq_none.mp hnone] at hw
    exact hw
  · cases socket with
    | none => cases hsome
    | some socket => exact hw
  · exact Says.finish (fun _ => rfl) fun _ => rfl

end Talk

end NbIot
