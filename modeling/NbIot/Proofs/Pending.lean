import NbIot.Lib.Run
import NbIot.Node.Script
import NbIot.Node.Sketch

/-!
# The pending bytes

An announcement sets the counter to the length of its datagram, whatever was
pending before, and a read takes off what the metadata says. So the counter is
right as long as one datagram at a time is announced, with nothing else left to
read, and every read is answered in full. An announcement that comes in between
a read and its answer is enough to make the counter wrap. An answer whose line is
too long for the buffer is not taken, and its bytes stay pending for good.
-/

namespace NbIot

open Lib (Along Buffer run)

/-- The bytes the announcements speak of. -/
def total (news : List Announcement) : Nat := (news.map (·.dataLength)).sum

/-- The device, with the bytes that were announced to it and returned by the
modem since it was switched on, and what is still to be read of the lines so far. -/
structure Link where
  device : Device := {}
  announced : Nat := 0
  returned : Nat := 0
  left : List LineRead := []

/-- A read, and the commands before it, which are not answered with data: each by
the announcements that come in and how it ends. -/
structure LinkAction where
  others : List (List Announcement × Ending)
  packet : SaraN2UDPPacketMetadata
  buffer : Buffer
  size : BitVec 16
  script : Script

/-- The announcements before the read. -/
def LinkAction.earlier (a : LinkAction) : List Announcement := a.others.flatMap (·.1)

/-- What the modem says to another command. -/
def Script.other (command : List Announcement × Ending) : Script :=
  ⟨command.1, none, [], command.2⟩

namespace Link

def other (l : Link) (command : List Announcement × Ending) : Link :=
  let response := l.device.readResponse none () (l.left ++ (Script.other command).reads)
  { l with
    device := response.device
    announced := l.announced + total command.1
    left := response.rest }

/-- The modem never returns more than it is asked for, and nothing it is not
asked for. -/
def receive (l : Link) (a : LinkAction) : Option Link :=
  let reads := l.left ++ a.script.reads
  let received := l.device.socketReceive a.packet a.buffer a.size reads
  match received.command with
  | none => some { l with device := received.device }
  | some command =>
      if a.script.returned ≤ command.readSize.toNat then
        some {
          device := received.device
          announced := l.announced + total a.script.news
          returned := l.returned + a.script.returned
          left := (l.device.readResponse (some udpReadSocketParser) (a.packet, a.buffer)
            reads).rest }
      else none

def step (l : Link) (a : LinkAction) : Option Link := (a.others.foldl other l).receive a

/-- The counter is the number of announced bytes that were not returned, and
`loop` reads if there are any. -/
def Accounted (l : Link) : Prop :=
  l.device.pendingUDPBytes.toNat + l.returned = l.announced ∧
    (l.returned < l.announced → 0 < l.device.pendingUDPBytes.toInt)

instance (l : Link) : Decidable l.Accounted := inferInstanceAs (Decidable (_ ∧ _))

/-- What the last announcement says, or the counter if there is none. -/
def latest (l : Link) (news : List Announcement) : Nat :=
  (news.getLast?.map (·.dataLength)).getD l.device.pendingUDPBytes.toNat

/-- What is left to read, when the announcements are. -/
def unread (l : Link) (news : List Announcement) : Nat :=
  l.device.pendingUDPBytes.toNat + total news

/-- Every line that is read has room in the buffer. -/
def Readable (l : Link) (a : LinkAction) : Prop :=
  (∀ command ∈ a.others, (Script.other command).Fits) ∧
    (l.latest a.earlier ≠ 0 → a.script.Fits)

/-- The last announcement speaks of everything that is left to read. After a
failed read that is so only if the modem returned the rest before; after an `OK`
alone, the length in the metadata has to make up for the difference. Where nothing
is pending, nothing is read, and nothing must be left. -/
def Counted (l : Link) (a : LinkAction) : Prop :=
  if l.latest a.earlier = 0 then l.unread a.earlier = 0
  else
    let news := a.earlier ++ a.script.news
    match a.script.ending, a.script.answer with
    | .ok, some _ => l.unread news = l.latest news
    | .ok, none => l.unread news < 32768 ∧
        a.packet.length = BitVec.ofInt 16 (l.latest news - l.unread news)
    | _, _ => l.unread news = l.latest news + a.script.returned

end Link

theorem hear_pending (d : Device) (news : List Announcement) :
    (d.hear news).pendingUDPBytes.toNat =
      (news.getLast?.map (·.dataLength)).getD d.pendingUDPBytes.toNat := by
  induction news using List.reverseRecOn with
  | nil => rfl
  | append_singleton news n _ =>
      have hfits := n.fits
      rw [Device.hear, List.foldl_append, List.foldl_cons, List.foldl_nil, collect_nsonmi,
        List.getLast?_concat]
      show (BitVec.ofInt 16 n.dataLength).toNat = n.dataLength
      rw [BitVec.toNat_ofInt]
      omega

theorem hear_append (d : Device) (news more : List Announcement) :
    d.hear (news ++ more) = (d.hear news).hear more := List.foldl_append

theorem total_append (news more : List Announcement) :
    total (news ++ more) = total news + total more := by
  rw [total, List.map_append, List.sum_append]
  rfl

/-! ## One step -/

namespace Link

theorem accounted_iff {l : Link} :
    l.Accounted ↔ l.device.pendingUDPBytes.toNat + l.returned = l.announced ∧
      l.device.pendingUDPBytes.toNat < 32768 := by
  have hlt := l.device.pendingUDPBytes.isLt
  unfold Accounted
  rw [BitVec.toInt_eq_toNat_cond]
  refine and_congr_right fun hsum => ?_
  split <;> omega

theorem latest_lt {l : Link} (h : l.Accounted) (news : List Announcement) :
    l.latest news < 32768 := by
  unfold latest
  cases news.getLast? with
  | none => exact (accounted_iff.mp h).2
  | some n => exact n.fits

/-- The last announcement is one of them. -/
theorem latest_le_unread (l : Link) (news : List Announcement) :
    l.latest news ≤ l.unread news := by
  induction news using List.reverseRecOn with
  | nil => exact Nat.le_add_right _ _
  | append_singleton news n _ =>
      rw [latest, unread, List.getLast?_concat, total_append]
      show n.dataLength ≤ _ + (_ + (n.dataLength + 0))
      omega

/-- The other commands, where all lines have room. -/
theorem others_eq {l : Link} {others : List (List Announcement × Ending)}
    (hleft : l.left = []) (hfits : ∀ command ∈ others, (Script.other command).Fits) :
    others.foldl other l = { l with
      device := l.device.hear (others.flatMap (·.1))
      announced := l.announced + total (others.flatMap (·.1)) } := by
  induction others generalizing l with
  | nil => rfl
  | cons command others ih =>
      have hone : l.other command = { l with
          device := l.device.hear command.1
          announced := l.announced + total command.1 } := by
        rw [other, hleft, List.nil_append, Script.other,
          readResponse_other _ (hfits command List.mem_cons_self)]
      rw [List.foldl_cons, hone]
      refine (ih ?_ fun c hc => hfits c (List.mem_cons_of_mem _ hc)).trans ?_
      · exact hleft
      · rw [List.flatMap_cons, hear_append, total_append, Nat.add_assoc]

/-- What a read takes off the counter: the length in the metadata, which an `OK`
alone leaves as it was. -/
def taken (packet : SaraN2UDPPacketMetadata) (script : Script) : BitVec 16 :=
  match script.ending, script.answer with
  | .ok, some a => BitVec.ofInt 16 a.payload.length
  | .ok, none => packet.length
  | _, _ => 0

theorem socketReceive_script {d : Device} (packet : SaraN2UDPPacketMetadata)
    (buffer : Buffer) (size : BitVec 16) {script : Script} (hfits : script.Fits)
    (h : d.pendingUDPBytes ≠ 0) :
    (d.socketReceive packet buffer size script.reads).command =
        some ⟨d.receivedUDPResponseSocket, minSize size d.pendingUDPBytes⟩ ∧
      (d.socketReceive packet buffer size script.reads).device.pendingUDPBytes =
        (d.hear script.news).pendingUDPBytes - taken packet script := by
  unfold Device.socketReceive taken
  rw [if_neg h, readResponse_script _ _ hfits]
  cases script.ending <;> cases script.answer <;> simp [Ending.type, SocketAnswer.metadata]

/-- What a step does, where all lines have room. -/
theorem step_cases {l t : Link} {a : LinkAction} (hleft : l.left = []) (hfits : l.Readable a)
    (hstep : l.step a = some t) :
    t.left = [] ∧
      if l.latest a.earlier = 0 then
        t.device.pendingUDPBytes.toNat = 0 ∧ t.announced = l.announced + total a.earlier ∧
          t.returned = l.returned
      else
        t.device.pendingUDPBytes.toNat = (l.latest (a.earlier ++ a.script.news) + 65536 -
            (taken a.packet a.script).toNat) % 65536 ∧
          t.announced = l.announced + total (a.earlier ++ a.script.news) ∧
          t.returned = l.returned + a.script.returned ∧
          a.script.returned ≤ l.latest a.earlier := by
  have hstart : a.others.foldl other l = { l with
      device := l.device.hear a.earlier
      announced := l.announced + total a.earlier } := others_eq hleft hfits.1
  have hpending := hear_pending l.device a.earlier
  rw [step, hstart] at hstep
  by_cases hzero : l.latest a.earlier = 0
  · have hnone : (l.device.hear a.earlier).pendingUDPBytes = 0 :=
      BitVec.eq_of_toNat_eq (hpending.trans hzero)
    simp only [receive, Device.socketReceive, if_pos hnone] at hstep
    rw [← Option.some.inj hstep, if_pos hzero]
    exact ⟨hleft, congrArg BitVec.toNat hnone, rfl, rfl⟩
  · have hsome : (l.device.hear a.earlier).pendingUDPBytes ≠ 0 :=
      fun h => hzero (hpending.symm.trans (congrArg BitVec.toNat h))
    have hscript := hfits.2 hzero
    obtain ⟨hcommand, hdevice⟩ :=
      socketReceive_script a.packet a.buffer a.size hscript hsome
    have hasked := (minSize_le a.size (l.device.hear a.earlier).pendingUDPBytes).2
    simp only [receive, hleft, List.nil_append, hcommand,
      readResponse_script _ _ hscript] at hstep
    split at hstep
    · rename_i hle
      rw [← Option.some.inj hstep, if_neg hzero]
      refine ⟨rfl, ?_, ?_, rfl, Nat.le_trans hle (Nat.le_trans hasked (Nat.le_of_eq hpending))⟩
      · rw [hdevice, BitVec.toNat_sub, ← hear_append, hear_pending, Nat.add_comm]
        have hlt := (taken a.packet a.script).isLt
        show (_ + (65536 - _)) % 65536 = _
        rw [← Nat.add_sub_assoc (by omega)]
        rfl
      · simp only [total_append, Nat.add_assoc]
    · cases hstep

/-- A step from a state that is right ends in one exactly if the announcements count. -/
theorem accounted_step {l t : Link} {a : LinkAction} (hleft : l.left = []) (h : l.Accounted)
    (hfits : l.Readable a) (hstep : l.step a = some t) : t.Accounted ↔ l.Counted a := by
  obtain ⟨_, hcases⟩ := step_cases hleft hfits hstep
  obtain ⟨hsum, hlt⟩ := accounted_iff.mp h
  have hlatest := latest_lt h (a.earlier ++ a.script.news)
  have hbefore := latest_lt h a.earlier
  have hle := latest_le_unread l a.earlier
  rw [accounted_iff, Counted]
  split at hcases
  · rename_i hzero
    rw [if_pos hzero]
    simp only [unread]
    omega
  rename_i hpos
  obtain ⟨hcounter, hannounced, hreturned, hasked⟩ := hcases
  rw [if_neg hpos, hcounter, hannounced, hreturned]
  simp only [taken, unread, total_append] at hle ⊢
  cases hending : a.script.ending with
  | ok =>
      cases hanswer : a.script.answer with
      | some answer =>
          have hlength : a.script.returned = answer.payload.length := by
            rw [Script.returned, hanswer]
            rfl
          simp only [hlength, BitVec.toNat_ofInt] at hasked ⊢
          omega
      | none =>
          have hlength : a.script.returned = 0 := by
            rw [Script.returned, hanswer]
            rfl
          have hpacket := a.packet.length.isLt
          simp only [hlength, ← BitVec.toNat_inj, BitVec.toNat_ofInt]
          omega
  | error =>
      simp only [BitVec.ofNat_eq_ofNat, BitVec.toNat_ofNat]
      omega
  | silence =>
      simp only [BitVec.ofNat_eq_ofNat, BitVec.toNat_ofNat]
      omega

/-- In every run from the start whose lines have room, the counter is right after every
read exactly when the announcements count at every step. -/
theorem accounted_run_iff (actions : List LinkAction) :
    Along (fun l a => (l.step a).isSome → l.Readable a ∧ l.Counted a) step {} actions ↔
      Along (fun l a => (l.step a).isSome → l.Readable a) step {} actions ∧
        Along (fun l a => ∀ t ∈ l.step a, t.Accounted) step {} actions := by
  have hleft : ∀ (l : Link) (a : LinkAction) (t : Link), l.left = [] →
      ((l.step a).isSome → l.Readable a) → l.step a = some t → t.left = [] :=
    fun l a t hleft hread hstep => (step_cases hleft (hread (by rw [hstep]; rfl)) hstep).1
  have hgood : ∀ (l : Link) (a : LinkAction) (t : Link), l.left = [] → l.Accounted →
      ((l.step a).isSome → l.Readable a) → l.step a = some t → (t.Accounted ↔ l.Counted a) :=
    fun l a t hleft h hread hstep =>
      accounted_step hleft h (hread (by rw [hstep]; rfl)) hstep
  simp only [imp_and, Lib.along_and]
  exact and_congr_right fun hread =>
    (Lib.along_good_iff (fun l => l.left = []) hleft hgood rfl (by decide) hread).symm

end Link

namespace Small

/-- Commands that end well, with the announcements that come in, and a read after them. -/
def read (others : List (List (Fin 32768))) (script : Script) : LinkAction where
  others := others.map fun lengths => (lengths.map announcement, .ok)
  packet := ⟨0, [], 0, 0, 0⟩
  buffer := { size := 256, cells := fun _ => 0 }
  size := 256
  script

/-- The server's answer, after the given announcements. -/
def returns (before : List Announcement) (bs : List UInt8) : Script :=
  ⟨before, some (answer 114 bs), [], .ok⟩

end Small

/-- The counter, and what it should be. -/
def Link.counter (actions : List LinkAction) : Option (BitVec 16 × Nat) :=
  (run step {} actions).map fun l => (l.device.pendingUDPBytes, l.announced - l.returned)

/-- Five bytes are pending and three more are announced between the read and its
answer: the counter wraps, with three bytes unread. When a reset and credentials
are announced together, the byte of the reset is forgotten. An answer of 114 bytes
is refused, and they stay pending although the modem returned them. -/
theorem Link.counter_wraps :
    counter [Small.read [[5]] (Small.returns [Small.announcement 3] [10, 100, 101, 102])] =
        some (65534, 3) ∧
      counter [Small.read [[1], [13]] (Small.returns [] [])] = some (12, 13) ∧
      counter [Small.read [[114]] (Small.returns [] (List.replicate 113 0))] = some (114, 0) ∧
      ¬ Along (fun l a => ∀ t ∈ l.step a, t.Accounted) step {}
        [Small.read [[5]] (Small.returns [Small.announcement 3] [10, 100, 101, 102])] := by
  decide +kernel

end NbIot
