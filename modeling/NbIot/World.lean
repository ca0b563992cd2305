import NbIot.Cloud.Backend
import NbIot.Node.Eeprom
import NbIot.Node.Packet
import NbIot.Proofs.Uplink

/-!
# One node, the network, and everything behind it

The node sends a frame with the token it holds and applies whatever reply is
delivered to it. The network delivers in any order, and what it loses it never
delivers, so losing needs no step of its own. Other senders may talk to the
agent as well, from other addresses.
-/

namespace NbIot

open Lib (Tagged takeAt)

structure Site where
  deviceId : CString
  address : Sender
  ne_nil : deviceId.bytes ≠ []
  lf_free : (10 : UInt8) ∉ deviceId.bytes

structure World where
  node : Node
  /-- The tokens the node has put in frames. -/
  tokens : List CString := []
  up : List Bytes := []
  down : List (Tagged Bytes) := []
  backend : Backend := {}

inductive WorldAction where
  | send (s : Sample)
  | arrive (i : Nat) (now : Timestamp)
  | deliver (i : Nat)
  | reboot
  | backend (act : BackendAction)

/-- The bytes the modem sends for `sendPayload(packet, sizeof(packet))`. -/
def Node.datagram (n : Node) (deviceId : CString) (s : Sample) : Bytes :=
  (Lib.Digits.unhex
    (sendPayload [] [] deviceId n.deviceToken (pack s) 14).data).getD []

theorem Node.datagram_eq (n : Node) (deviceId : CString) (s : Sample) :
    n.datagram deviceId s = frame deviceId n.deviceToken (pack s) := by
  have hsize : (14 : UInt8).toNat = (pack s).length := (pack_length s).symm
  rw [datagram, sendPayload_data [] [] deviceId n.deviceToken hsize, Option.getD_some]

namespace Site

def imei (site : Site) : JString := newString site.deviceId.bytes

/-- A datagram from the node's own address. -/
def Owns (site : Site) (host : JString) (port : Int) : Prop :=
  host = site.address.host ∧ port = site.address.port.toNat

instance (site : Site) (host : JString) (port : Int) :
    Decidable (site.Owns host port) :=
  inferInstanceAs (Decidable (_ ∧ _))

/-- The replies to the node between two states of the agent. -/
def repliesSince (site : Site) (before after : Agent) : List (Tagged Bytes) :=
  ((after.sent.drop before.sent.length).filter fun m =>
    site.Owns m.body.host m.body.port).map fun m => ⟨m.origin, m.body.content⟩

/-- The datagram is not one a stranger can send. -/
def spoofs (site : Site) : BackendAction → Bool
  | .agent (.receive d) => decide (site.Owns d.sender.host d.sender.port.toNat)
  | _ => false

def step (site : Site) (w : World) : WorldAction → Option World
  | .send s =>
      some { w with
        tokens := w.tokens ++ [w.node.deviceToken]
        up := w.up ++ [w.node.datagram site.deviceId s] }
  | .arrive i now => do
      let (data, rest) ← takeAt w.up i
      let backend ← w.backend.step (.agent (.receive ⟨site.address, data, now⟩))
      return { w with up := rest, backend }
  | .deliver i => do
      let (m, rest) ← takeAt w.down i
      let node ← w.node.applyReply m.body
      return { w with down := rest, node }
  | .reboot => some { w with node := w.node.setup }
  | .backend act =>
      if site.spoofs act then none
      else do
        let backend ← w.backend.step act
        return { w with
          backend
          down := w.down ++ site.repliesSince w.backend.agent backend.agent }

/-- The step function as a relation, one rule for each action. -/
inductive Steps (site : Site) (w : World) : WorldAction → World → Prop where
  | send (s : Sample) :
      Steps site w (.send s) { w with
        tokens := w.tokens ++ [w.node.deviceToken]
        up := w.up ++ [frame site.deviceId w.node.deviceToken (pack s)] }
  | arrive {data : Bytes} {rest : List Bytes} {b : Backend} (i : Nat) (now : Timestamp)
      (htake : takeAt w.up i = some (data, rest))
      (hb : w.backend.step (.agent (.receive ⟨site.address, data, now⟩)) = some b) :
      Steps site w (.arrive i now) { w with up := rest, backend := b }
  | deliver {m : Tagged Bytes} {rest : List (Tagged Bytes)} {n : Node} (i : Nat)
      (htake : takeAt w.down i = some (m, rest))
      (hn : w.node.applyReply m.body = some n) :
      Steps site w (.deliver i) { w with down := rest, node := n }
  | reboot : Steps site w .reboot { w with node := w.node.setup }
  | backend {b : Backend} (act : BackendAction) (hstranger : site.spoofs act = false)
      (hb : w.backend.step act = some b) :
      Steps site w (.backend act) { w with
        backend := b
        down := w.down ++ site.repliesSince w.backend.agent b.agent }

theorem step_steps {site : Site} {w w' : World} {act : WorldAction}
    (hs : site.step w act = some w') : Steps site w act w' := by
  cases act with
  | send s =>
      injection hs with hs
      rw [← hs, Node.datagram_eq]
      exact .send s
  | arrive i now =>
      obtain ⟨⟨data, rest⟩, htake, hrest⟩ := Option.bind_eq_some_iff.mp hs
      obtain ⟨b, hb, hw⟩ := Option.bind_eq_some_iff.mp hrest
      injection hw with hw
      rw [← hw]
      exact .arrive i now htake hb
  | deliver i =>
      obtain ⟨⟨m, rest⟩, htake, hrest⟩ := Option.bind_eq_some_iff.mp hs
      obtain ⟨n, hn, hw⟩ := Option.bind_eq_some_iff.mp hrest
      injection hw with hw
      rw [← hw]
      exact .deliver i htake hn
  | reboot =>
      injection hs with hs
      rw [← hs]
      exact .reboot
  | backend act =>
      rw [step] at hs
      split at hs
      · cases hs
      rename_i hstranger
      obtain ⟨b, hb, hw⟩ := Option.bind_eq_some_iff.mp hs
      injection hw with hw
      rw [← hw]
      exact .backend act (Bool.eq_false_iff.mpr hstranger) hb

/-- A node that has just booted with the given EEPROM, before anything else. -/
def start (eeprom : Eeprom) : World := { node := Node.setup ⟨eeprom, .empty⟩ }

/-- The token is one the platform accepts from the node. -/
def Accepts (site : Site) (c : Cumulocity) (token : CString) : Prop :=
  ∃ pw cid : Line, token.bytes = getBytes (pw.text ++ ['\n'] ++ cid.text) ∧
    c.credentials (username site.imei) = some pw.text

/-- What follows the password and its line feed in a token. -/
def idAfter (password : JString) (token : CString) : JString :=
  newString (token.bytes.drop ((getBytes password).length + 1))

theorem accepts_iff {site : Site} {c : Cumulocity} {token : CString}
    {password : JString} (h : c.credentials (username site.imei) = some password) :
    site.Accepts c token ↔ (password ≠ [] ∧ '\n' ∉ password) ∧
      (idAfter password token ≠ [] ∧ '\n' ∉ idAfter password token) ∧
      token.bytes = getBytes (password ++ ['\n'] ++ idAfter password token) := by
  refine ⟨?_, ?_⟩
  · intro ⟨pw, cid, htoken, hpw⟩
    rw [h] at hpw
    injection hpw with hpw
    have hid : idAfter password token = cid.text := by
      rw [idAfter, hpw, htoken, getBytes_two_lines, ← List.drop_drop, List.drop_left]
      exact newString_getBytes cid.text
    rw [hid, hpw]
    exact ⟨⟨pw.ne_nil, pw.sep_free⟩, ⟨cid.ne_nil, cid.sep_free⟩, htoken⟩
  · intro ⟨hpw, hid, htoken⟩
    exact ⟨⟨password, hpw.1, hpw.2⟩, ⟨_, hid.1, hid.2⟩, htoken, h⟩

instance (site : Site) (c : Cumulocity) (token : CString) :
    Decidable (site.Accepts c token) :=
  match h : c.credentials (username site.imei) with
  | none => isFalse fun ⟨_, _, _, hpw⟩ => by
      rw [h] at hpw
      cases hpw
  | some _ => decidable_of_iff _ (accepts_iff h).symm

/-- The platform calls of the step are ones the platform answers so. -/
def Calls (ok : Cumulocity → PlatformCall → Prop) (site : Site) (w : World)
    (act : WorldAction) : Prop :=
  ∀ w' ∈ site.step w act,
    ∀ call ∈ Backend.callsSince w.backend.agent w'.backend.agent,
      ok w.backend.cumulocity call

instance (ok : Cumulocity → PlatformCall → Prop) [∀ c call, Decidable (ok c call)]
    (site : Site) (w : World) (act : WorldAction) : Decidable (site.Calls ok w act) :=
  match h : site.step w act with
  | none => isTrue (by simp [Calls, h])
  | some w' => decidable_of_iff
      (∀ call ∈ Backend.callsSince w.backend.agent w'.backend.agent,
        ok w.backend.cumulocity call) (by simp [Calls, h])

end Site

/-! ## A small site, to run -/

namespace Small

def site : Site where
  deviceId := ⟨[100], by decide, by decide⟩
  address := phone
  ne_nil := by decide
  lf_free := by decide

def sent : List WorldAction :=
  [.send ⟨0, 0, 0, 0, 0, 0, 0, 0⟩, .arrive 0 noon]

/-- The node registers, once the operator has accepted it, up to the reply. -/
def enrolled (password id : Line) : List WorldAction :=
  sent ++ [.backend (.accept ['d']), .backend (.agent (.register 0 password id)),
    .backend (.agent (.encode 0))]

/-- A push fails, and the reset leaves the agent. -/
def failed : List WorldAction :=
  [.backend (.agent (.push 0 false)), .backend (.agent (.encode 0))]

end Small

end NbIot
