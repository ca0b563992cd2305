import NbIot.Proofs.Imei
import NbIot.Proofs.Stored
import NbIot.World

/-!
# The program of the node in its place

A `World` has a node that sends when it likes and takes a reply whenever one is
delivered. Here the program runs in that place: it does both in one pass of `loop`,
when the pass is due, by way of the lines that it reads from the modem. The modem is
taken at its word: what it hands over in a read is one whole reply that is on its way,
or nothing. A pass is then a delivery and a sending of the `World`, and where the one
does not end, the other is stuck (`step_world`).
-/

namespace NbIot

open Lib (Tagged run takeAt)
open Lib.Scan (bytes)

/-- Like a `World`, with the sketch, and the samples beside the tokens that they were
sent with. -/
structure Deployment where
  sketch : Sketch
  sent : List (CString × Sample) := []
  up : List Bytes := []
  down : List (Tagged Bytes) := []
  backend : Backend := {}

/-- A pass says which of the replies on their way the modem hands over in it, if any.
After a reset the sketch has another device, one that is connected. -/
inductive DeploymentAction where
  | pass (p : Pass) (reply : Option Nat)
  | arrive (i : Nat) (now : Timestamp)
  | reset (device : Device)
  | backend (act : BackendAction)

/-- The bytes that the modem sends after a pass. -/
def Looped.datagram (l : Looped) : List Bytes :=
  (l.sent.map fun command => (Lib.Digits.unhex command.data).getD []).toList

namespace Deployment

def world (d : Deployment) : World where
  node := d.sketch.node
  tokens := d.sent.map (·.1)
  up := d.up
  down := d.down
  backend := d.backend

/-- The replies that are still on their way when one was handed over. -/
def rest (d : Deployment) : Option Nat → Option (List (Tagged Bytes))
  | none => some d.down
  | some i => (takeAt d.down i).map (·.2)

def step (site : Site) (d : Deployment) : DeploymentAction → Option Deployment
  | .pass p reply => do
      let l ← d.sketch.loop p
      let down ← d.rest reply
      return { d with
        sketch := l.sketch
        sent := d.sent ++ (l.sent.map fun _ => (l.sketch.node.deviceToken, p.sample)).toList
        up := d.up ++ l.datagram
        down }
  | .arrive i now => do
      let (data, rest) ← takeAt d.up i
      let backend ← d.backend.step (.agent (.receive ⟨site.address, data, now⟩))
      return { d with up := rest, backend }
  | .reset device => some { d with sketch := { node := d.sketch.node.setup, device } }
  | .backend act =>
      if site.spoofs act then none
      else do
        let backend ← d.backend.step act
        return { d with
          backend
          down := d.down ++ site.repliesSince d.backend.agent backend.agent }

/-- The step function as a relation, one rule for each action. -/
inductive Steps (site : Site) (d : Deployment) : DeploymentAction → Deployment → Prop where
  | pass {l : Looped} {down : List (Tagged Bytes)} (p : Pass) (reply : Option Nat)
      (hl : d.sketch.loop p = some l) (hrest : d.rest reply = some down) :
      Steps site d (.pass p reply) { d with
        sketch := l.sketch
        sent := d.sent ++ (l.sent.map fun _ => (l.sketch.node.deviceToken, p.sample)).toList
        up := d.up ++ l.datagram
        down }
  | arrive {data : Bytes} {rest : List Bytes} {b : Backend} (i : Nat) (now : Timestamp)
      (htake : takeAt d.up i = some (data, rest))
      (hb : d.backend.step (.agent (.receive ⟨site.address, data, now⟩)) = some b) :
      Steps site d (.arrive i now) { d with up := rest, backend := b }
  | reset (device : Device) :
      Steps site d (.reset device) { d with sketch := { node := d.sketch.node.setup, device } }
  | backend {b : Backend} (act : BackendAction) (hstranger : site.spoofs act = false)
      (hb : d.backend.step act = some b) :
      Steps site d (.backend act) { d with
        backend := b
        down := d.down ++ site.repliesSince d.backend.agent b.agent }

theorem step_steps {site : Site} {d d' : Deployment} {act : DeploymentAction}
    (hs : d.step site act = some d') : Steps site d act d' := by
  cases act with
  | pass p reply =>
      obtain ⟨l, hl, hrest⟩ := Option.bind_eq_some_iff.mp hs
      obtain ⟨down, hdown, hd⟩ := Option.bind_eq_some_iff.mp hrest
      exact Option.some.inj hd ▸ .pass p reply hl hdown
  | arrive i now =>
      obtain ⟨taken, htake, hrest⟩ := Option.bind_eq_some_iff.mp hs
      obtain ⟨b, hb, hd⟩ := Option.bind_eq_some_iff.mp hrest
      exact Option.some.inj hd ▸ .arrive i now htake hb
  | reset device => exact Option.some.inj hs ▸ .reset device
  | backend act =>
      rw [step] at hs
      split at hs
      · cases hs
      rename_i hstranger
      obtain ⟨b, hb, hd⟩ := Option.bind_eq_some_iff.mp hs
      exact Option.some.inj hd ▸ .backend act (Bool.eq_false_iff.mpr hstranger) hb

/-- The pass reads what is pending. -/
def Reads (s : Sketch) (p : Pass) : Prop := s.due p.now = true ∧ 0 < s.amountbytes.toInt

/-- What the modem hands over in a pass: nothing, or a reply of the server with as many
bytes as are pending and were asked for. -/
inductive HandsOver (d : Deployment) (p : Pass) : Option Nat → Prop where
  | idle (hidle : ¬ Reads d.sketch p) : HandsOver d p none
  | fails (hreads : Reads d.sketch p) (hheard : heard none p.replyReads = none) :
      HandsOver d p none
  | reply {i : Nat} {m : Tagged Bytes} {r : LineRead} {a : SocketAnswer}
      (hreads : Reads d.sketch p) (hm : d.down[i]? = some m)
      (hheard : heard none p.replyReads = some (some r)) (htext : r.text = a.text)
      (hip : a.ip = bytes server) (hpayload : a.payload = m.body)
      (hpending : m.body.length = d.sketch.amountbytes.toNat)
      (hasked : ∀ command ∈ (d.sketch.received p).command,
        m.body.length ≤ command.readSize.toNat) : HandsOver d p (some i)

/-- The device is called what the modem of the site is, and is told no other name. -/
def SameModem (site : Site) : DeploymentAction → Prop
  | .pass p _ => ∀ r ∈ p.replyReads ++ p.sendReads, cgsnToken r.text = none
  | .reset device => device.deviceId = some site.deviceId
  | .arrive .. | .backend _ => True

def Honest (site : Site) (d : Deployment) (act : DeploymentAction) : Prop :=
  SameModem site act ∧ ∀ p reply, act = .pass p reply → d.HandsOver p reply

/-- What an action is in the `World`. A pass that is not due is nothing. -/
def plays (d : Deployment) : DeploymentAction → List WorldAction
  | .pass p reply =>
      if d.sketch.due p.now then
        (reply.map fun i => .deliver i).toList ++ [.send p.sample]
      else []
  | .arrive i now => [.arrive i now]
  | .reset _ => [.reboot]
  | .backend act => [.backend act]

/-- The site with a sketch that has just started. -/
def start (eeprom : Eeprom) (device : Device) : Deployment where
  sketch := { node := Node.setup ⟨eeprom, .empty⟩, device }

end Deployment

/-! ## What the device is called -/

/-- The sketch is connected by the modem of the site. -/
def Deployment.Connected (site : Site) (d : Deployment) : Prop :=
  d.sketch.device.deviceId = some site.deviceId

def Progress.device {σ : Type} : Progress σ → Device
  | .done _ d _ | .more d _ _ => d

theorem Device.readOne_deviceId {σ : Type} (d : Device)
    (parserMethod : Option (ParserMethod σ)) (params : σ) {r : LineRead}
    (h : cgsnToken r.text = none) :
    (d.readOne parserMethod params r).device.deviceId = d.deviceId := by
  have hcollect : (d.collect r).deviceId = d.deviceId := collect_no_cgsn h
  unfold Device.readOne
  by_cases hline : r.line = []
  · rw [if_pos hline]
    rfl
  rw [if_neg hline]
  simp only []
  cases turn r.text with
  | next => exact hcollect
  | done response => exact hcollect
  | parse =>
      cases parserMethod with
      | none => exact hcollect
      | some parser =>
          simp only []
          split
          · exact hcollect
          split <;> exact hcollect

/-- A response without a `+CGSN` line leaves the device id as it was. -/
theorem Device.readResponse_deviceId {σ : Type} (d : Device)
    (parserMethod : Option (ParserMethod σ)) (params : σ) {reads : List LineRead}
    (h : ∀ r ∈ reads, cgsnToken r.text = none) :
    (d.readResponse parserMethod params reads).device.deviceId = d.deviceId := by
  induction reads generalizing d parserMethod params with
  | nil => rfl
  | cons r reads ih =>
      have hone := d.readOne_deviceId parserMethod params (h r List.mem_cons_self)
      rw [Device.readResponse]
      cases hprogress : d.readOne parserMethod params r with
      | done type d' params' =>
          rw [hprogress] at hone
          exact hone
      | more d' parserMethod' params' =>
          rw [hprogress] at hone
          simp only []
          split
          · exact hone
          · exact (ih d' parserMethod' params' fun r hr =>
              h r (List.mem_cons_of_mem _ hr)).trans hone

/-- So does a read. -/
theorem Sketch.received_deviceId (s : Sketch) {p : Pass}
    (h : ∀ r ∈ p.replyReads, cgsnToken r.text = none) :
    (s.received p).device.deviceId = s.device.deviceId := by
  have hreceive : ∀ packet buffer size,
      (s.device.socketReceive packet buffer size p.replyReads).device.deviceId =
        s.device.deviceId := by
    intro packet buffer size
    unfold Device.socketReceive
    split
    · rfl
    simp only []
    split <;> exact s.device.readResponse_deviceId _ _ h
  unfold Sketch.received Device.socketReceiveBytes
  split <;> exact hreceive _ _ _

theorem Sketch.handleReply_deviceId {s : Sketch} {p : Pass} {replied : Replied}
    (h : ∀ r ∈ p.replyReads, cgsnToken r.text = none)
    (hreplied : s.handleReply p = some replied) :
    replied.device.deviceId = s.device.deviceId := by
  have hreceived := s.received_deviceId h
  by_cases hcopies : s.Copies p
  · rw [handleReply_of_copies hcopies, Option.map_eq_some_iff] at hreplied
    obtain ⟨c, _, rfl⟩ := hreplied
    exact hreceived
  · unfold handleReply at hreplied
    split at hreplied
    · rename_i hpos
      simp only [if_neg fun hserver => hcopies ⟨hpos, hserver⟩] at hreplied
      rw [← Option.some.inj hreplied]
      exact hreceived
    · rw [← Option.some.inj hreplied]

namespace Deployment

variable {site : Site} {d : Deployment}

/-! ## A pass, and what it plays -/

/-- What the modem hands over is delivered. -/
theorem handleReply_world {p : Pass} {reply : Option Nat} (hdue : d.sketch.due p.now = true)
    (hhands : d.HandsOver p reply) :
    run site.step d.world (reply.map fun i => .deliver i).toList =
      (d.sketch.handleReply p).bind fun replied =>
        (d.rest reply).map fun down => { d.world with node := replied.node, down } := by
  have hnothing : ¬ d.sketch.Copies p → run site.step d.world [] =
      (d.sketch.handleReply p).bind fun replied =>
        (d.rest none).map fun down => { d.world with node := replied.node, down } := by
    intro hcopies
    obtain ⟨device, hreplied⟩ := Sketch.handleReply_of_not_copies hcopies
    rw [hreplied]
    rfl
  cases hhands with
  | idle hidle => exact hnothing fun h => hidle ⟨hdue, h.1⟩
  | fails hreads hheard =>
      exact hnothing fun h => h.2.1 (socketReceiveBytes_failed hheard)
  | @reply i m r a hreads hm hheard htext hip hpayload hpending hasked =>
      have hlegal : d.sketch.Legal p := by
        intro _ _ command hcommand r' hr'
        rw [hheard] at hr'
        rw [← Option.some.inj (Option.some.inj hr')]
        exact ⟨a, htext, by rw [hpayload]; exact hasked command hcommand⟩
      have htake : takeAt d.down i = some (m, d.down.eraseIdx i) :=
        Lib.takeAt_eq_some.mpr ⟨hm, rfl⟩
      rw [Sketch.handleReply_one_reply hdue hreads.2 hlegal hheard htext hip
        (by rw [hpayload]; exact hpending), hpayload, rest, htake]
      show run site.step d.world [.deliver i] = _
      rw [run, Site.step, show d.world.down = d.down from rfl, htake]
      show ((d.sketch.node.applyReply m.body).bind _).bind _ = _
      cases d.sketch.node.applyReply m.body <;> rfl

/-- A pass that is due sends what the node would send. -/
theorem pass_due (hd : d.Connected site) {p : Pass} {reply : Option Nat}
    (hdue : d.sketch.due p.now = true) (hlines : ∀ r ∈ p.replyReads, cgsnToken r.text = none) :
    (d.step site (.pass p reply)).map world =
      (d.sketch.handleReply p).bind fun replied =>
        (d.rest reply).map fun down => { d.world with
          node := replied.node
          tokens := d.world.tokens ++ [replied.node.deviceToken]
          up := d.up ++ [replied.node.datagram site.deviceId p.sample]
          down } := by
  rw [step, Sketch.loop, if_pos hdue]
  cases hreplied : d.sketch.handleReply p with
  | none => rfl
  | some replied =>
      have hid : replied.device.deviceId = some site.deviceId :=
        (Sketch.handleReply_deviceId hlines hreplied).trans hd
      cases d.rest reply with
      | none => rfl
      | some down =>
          have hdata := sendPayload_data server.toList port.toList site.deviceId
            replied.node.deviceToken (show (14 : UInt8).toNat = (pack p.sample).length from rfl)
          simp [hid, Looped.datagram, hdata, Node.datagram_eq, world]

/-- An action of the deployment is what it plays in the world. -/
theorem step_world (hd : d.Connected site) {act : DeploymentAction} (h : d.Honest site act) :
    (d.step site act).map world = run site.step d.world (d.plays act) := by
  cases act with
  | pass p reply =>
      have hlines := h.1
      have hhands := h.2 p reply rfl
      rw [plays]
      split
      · rename_i hdue
        rw [Lib.run_append_eq, handleReply_world hdue hhands, pass_due hd hdue fun r hr =>
          hlines r (List.mem_append_left _ hr)]
        cases d.sketch.handleReply p with
        | none => rfl
        | some replied => cases d.rest reply <;> rfl
      · rename_i hdue
        have hidle : ¬ Reads d.sketch p := fun hreads => hdue hreads.1
        cases hhands with
        | fails hreads => exact absurd hreads hidle
        | reply hreads => exact absurd hreads hidle
        | idle _ =>
            rw [step, Sketch.loop, if_neg hdue]
            simp [run, rest, Looped.datagram, world]
  | arrive i now =>
      rw [step, plays, run, Site.step, show d.world.up = d.up from rfl]
      cases takeAt d.up i with
      | none => rfl
      | some taken =>
          show ((d.backend.step (.agent (.receive _))).bind _).map world =
            ((d.backend.step (.agent (.receive _))).bind _).bind _
          cases d.backend.step (.agent (.receive ⟨site.address, taken.1, now⟩)) <;> rfl
  | reset device => rfl
  | backend act =>
      rw [step, plays, run, Site.step]
      split
      · rfl
      · show ((d.backend.step act).bind _).map world = ((d.backend.step act).bind _).bind _
        cases d.backend.step act <;> rfl

/-- The device id stays what it is. -/
theorem step_connected (hd : d.Connected site) {act : DeploymentAction} {d' : Deployment}
    (h : SameModem site act) (hstep : d.step site act = some d') : d'.Connected site := by
  cases step_steps hstep with
  | @pass l down p reply hl hrest =>
      rcases Sketch.loop_cases hl with ⟨_, rfl⟩ | ⟨_, replied, hreplied, _, _, hdevice, _⟩
      · exact hd
      · have hread := replied.device.readResponse_deviceId none () fun r hr =>
          h r (List.mem_append_right _ hr)
        have hreply := Sketch.handleReply_deviceId
          (fun r hr => h r (List.mem_append_left _ hr)) hreplied
        show l.sketch.device.deviceId = some site.deviceId
        rw [hdevice, hread, hreply, hd]
  | arrive i now htake hb => exact hd
  | reset device => exact h
  | backend act hstranger hb => exact hd

/-- A run of the deployment is a run of the world, and where the sketch hangs the world
is stuck. -/
theorem run_world (eeprom : Eeprom) {device : Device}
    (hdevice : device.deviceId = some site.deviceId) {acts : List DeploymentAction}
    (h : Lib.Along (Honest site) (step site) (start eeprom device) acts) :
    (run (step site) (start eeprom device) acts).map world =
      run site.step (Site.start eeprom)
        (Lib.played (step site) plays (start eeprom device) acts) :=
  Lib.run_played (fun _ _ _ hd hact hstep => step_connected hd hact.1 hstep)
    (fun _ _ hd hact => step_world hd hact) (show (start eeprom device).Connected site from hdevice) h

end Deployment

/-! ## A small deployment, to run -/

namespace Small

def device : Device := { deviceId := some site.deviceId }

/-- The first pass is answered by credentials, up to their arrival at the modem. -/
def enrolling : List DeploymentAction :=
  [.pass (announced [3]) none, .arrive 0 noon, .backend (.accept ['d']),
    .backend (.agent (.register 0 (some (line 7)) (some (line 1)))), .backend (.agent (.encode 0))]

theorem handsOver_answered {d : Deployment} {b : UInt8} {bs : List UInt8} {m : Tagged Bytes}
    (hm : d.down[0]? = some m) (hbody : m.body = b :: bs)
    (hreads : Deployment.Reads d.sketch (answered b bs))
    (hpending : m.body.length = d.sketch.amountbytes.toNat)
    (hasked : ∀ command ∈ (d.sketch.received (answered b bs)).command,
      m.body.length ≤ command.readSize.toNat) : d.HandsOver (answered b bs) (some 0) :=
  .reply hreads hm (Sketch.heard_answered b bs) (ModemLine.answer (answer b bs)).of_text rfl
    hbody.symm hpending hasked

open Deployment in
theorem enrolling_honest :
    Lib.Along (Honest site) (Deployment.step site)
      (Deployment.start Eeprom.erased device)
      (enrolling ++ [.pass (answered 55 [10, 49]) (some 0)]) := by
  have hfacts : ∀ d ∈ run (Deployment.step site) (Deployment.start Eeprom.erased device) enrolling,
      d.down[0]? = some ⟨0, [55, 10, 49]⟩ ∧ d.sketch.due 20000 = true ∧
        0 < d.sketch.amountbytes.toInt ∧ 3 = d.sketch.amountbytes.toNat ∧
        ∀ command ∈ (d.sketch.received (answered 55 [10, 49])).command,
          3 ≤ command.readSize.toNat := by
    decide +kernel
  have hpass : ∀ {d p reply}, (∀ r ∈ p.replyReads ++ p.sendReads, cgsnToken r.text = none) →
      d.HandsOver p reply → Honest site d (.pass p reply) := by
    intro d p reply hlines hhands
    exact ⟨hlines, fun _ _ h => by cases h; exact hhands⟩
  have hquiet : ∀ {d i now}, Honest site d (.arrive i now) := ⟨trivial, nofun⟩
  have hbackend : ∀ {d act}, Honest site d (.backend act) := ⟨trivial, nofun⟩
  refine ⟨hpass (by decide +kernel) (.idle fun h => absurd h.2 (by decide)), fun d₁ h₁ =>
    ⟨hquiet, fun d₂ h₂ => ⟨hbackend, fun d₃ h₃ => ⟨hbackend, fun d₄ h₄ => ⟨hbackend,
      fun d₅ h₅ => ⟨hpass (by decide +kernel) ?_, fun _ _ => trivial⟩⟩⟩⟩⟩⟩
  have hrun : run (Deployment.step site) (Deployment.start Eeprom.erased device) enrolling =
      some d₅ :=
    Lib.run_cons.mpr ⟨d₁, h₁, Lib.run_cons.mpr ⟨d₂, h₂, Lib.run_cons.mpr ⟨d₃, h₃,
      Lib.run_cons.mpr ⟨d₄, h₄, Lib.run_cons.mpr ⟨d₅, h₅, rfl⟩⟩⟩⟩⟩
  obtain ⟨hm, hdue, hpos, hpending, hasked⟩ := hfacts d₅ hrun
  exact handsOver_answered hm rfl ⟨hdue, hpos⟩ hpending hasked

end Small

theorem enrolling_world :
    (run (Deployment.step Small.site) (Deployment.start Eeprom.erased Small.device)
        (Small.enrolling ++ [.pass (Small.answered 55 [10, 49]) (some 0)])).map
          Deployment.world =
      run Small.site.step (Site.start Eeprom.erased)
        (Lib.played (Deployment.step Small.site) Deployment.plays
          (Deployment.start Eeprom.erased Small.device)
          (Small.enrolling ++ [.pass (Small.answered 55 [10, 49]) (some 0)])) :=
  Deployment.run_world Eeprom.erased rfl Small.enrolling_honest

end NbIot
