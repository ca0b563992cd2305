import NbIot.Node.Heard
import NbIot.Proofs.Copying

/-!
# What the node stores

Four numbers go into a stored reply: the bytes that were announced, those that
were asked for, those the modem returned, and the bound of the copying loop. The
loop copies as many as were announced, so the string is the reply only where
what comes behind the returned bytes adds nothing, and that is memory nobody
wrote. A read that is answered by an `OK` alone returns what an earlier call
left in the metadata, and stores that many bytes of nothing at all.
-/

namespace NbIot

open Lib (Along Buffer run)
open Lib.Scan (bytes)

namespace Sketch

/-- What the modem returns to a read is an answer, with at most the bytes that
were asked for. -/
def Legal (s : Sketch) (p : Pass) : Prop :=
  s.due p.now = true → 0 < s.amountbytes.toInt → ∀ command ∈ (s.received p).command,
    ∀ r, heard none p.replyReads = some (some r) →
      ∃ a : SocketAnswer, r.text = a.text ∧ a.payload.length ≤ command.readSize.toNat

/-- Whatever the pass stores is what `socketReceiveBytes` returned, and that is
the payload of an answer from the server. -/
def StoresReply (s : Sketch) (p : Pass) : Prop :=
  ∀ l ∈ s.loop p, ∀ passw ∈ l.written,
    passw = (s.received p).buffer.slice (s.received p).size.toNat ∧
      ∃ r, ∃ a : SocketAnswer, heard none p.replyReads = some (some r) ∧ r.text = a.text ∧
        a.ip = bytes server ∧ a.payload = passw

/-- Where nothing is returned the metadata does not look like a reply of the
server, and a reply has no zero byte and only zeros behind it in the array. -/
structure Clean (s : Sketch) (p : Pass) : Prop where
  alone : heard none p.replyReads = some none →
    p.locals.p.length = 0 ∨ p.locals.p.ip ≠ bytes server
  data : ∀ r, heard none p.replyReads = some (some r) → ∀ a : SocketAnswer,
    r.text = a.text → a.ip = bytes server → (0 : UInt8) ∉ a.payload ∧
      ∀ k, a.payload.length ≤ k → k < s.amountbytes.toNat → p.locals.data k = 0

/-- The reads that store something are clean. -/
def ReadsClean (s : Sketch) (p : Pass) : Prop :=
  s.due p.now = true → 0 < s.amountbytes.toInt → s.amountbytes.toNat ≤ 255 → s.Clean p

/-! ## One read -/

theorem pending_ne_zero {s : Sketch} (h : 0 < s.amountbytes.toInt) :
    s.device.pendingUDPBytes ≠ 0 := by
  intro hzero
  rw [amountbytes, hzero] at h
  exact absurd h (by decide)

theorem amountbytes_pos {s : Sketch} (h : 0 < s.amountbytes.toInt) :
    0 < s.amountbytes.toNat := by
  have hint := toInt_of_pos h
  omega

/-- No more is asked for than is pending. -/
theorem received_command {s : Sketch} (p : Pass) (h : 0 < s.amountbytes.toInt) :
    ∃ command, (s.received p).command = some command ∧
      command.readSize.toNat ≤ s.amountbytes.toNat := by
  have hcommand : (s.received p).command =
      some ⟨s.device.receivedUDPResponseSocket,
        minSize (minSize s.amountbytes (minSize 256 s.device.pendingUDPBytes))
          s.device.pendingUDPBytes⟩ := by
    unfold received Device.socketReceiveBytes
    rw [if_pos (amountbytes_pos h)]
    unfold Device.socketReceive
    rw [if_neg (pending_ne_zero h)]
    dsimp only
    split <;> rfl
  exact ⟨_, hcommand, Nat.le_trans (minSize_le _ _).1 (minSize_le _ _).1⟩

/-- What is returned where there was an `OK` alone. -/
theorem received_alone {s : Sketch} {p : Pass} (h : 0 < s.amountbytes.toInt)
    (hheard : heard none p.replyReads = some none) :
    (s.received p).size = p.locals.p.length ∧ (s.received p).packet = p.locals.p :=
  socketReceiveBytes_alone (pending_ne_zero h) hheard

/-- The answer of a legal read, and what is left of it. -/
theorem received_answer {s : Sketch} {p : Pass} (hdue : s.due p.now = true)
    (hpos : 0 < s.amountbytes.toInt) (hlegal : s.Legal p) {r : LineRead}
    (h : heard none p.replyReads = some (some r)) :
    ∃ a : SocketAnswer, r.text = a.text ∧ a.payload.length ≤ s.amountbytes.toNat ∧
      (s.received p).size.toNat = a.payload.length ∧ (s.received p).packet.ip = a.ip ∧
      (s.received p).buffer =
        Buffer.store { size := s.amountbytes.toNat, cells := p.locals.data } 0 a.payload := by
  obtain ⟨command, hcommand, hsize⟩ := received_command p hpos
  obtain ⟨a, htext, hle⟩ := hlegal hdue hpos command hcommand r h
  have hfit : a.payload.length < 32768 := by
    have hint := toInt_of_pos hpos
    have hlt := s.amountbytes.toInt_lt
    omega
  obtain ⟨hreturned, hpacket, hbuffer⟩ := socketReceiveBytes_answer
    (pending_ne_zero hpos) (amountbytes_pos hpos) h htext hfit
  exact ⟨a, htext, by omega, hreturned, congrArg SaraN2UDPPacketMetadata.ip hpacket, hbuffer⟩

/-- Bytes that are dropped from a string are the zero bytes of it. -/
theorem replyString_append_iff (xs ys : List UInt8) :
    Node.replyString (xs ++ ys) = xs ↔ (0 : UInt8) ∉ xs ∧ ∀ y ∈ ys, y = 0 := by
  have hfree : ∀ zs, (0 : UInt8) ∉ Node.replyString zs := by
    intro zs h
    exact absurd (List.of_mem_filter h) (by decide)
  rw [show Node.replyString (xs ++ ys) = Node.replyString xs ++ Node.replyString ys from
    List.filter_append xs ys]
  constructor
  · intro h
    have hxs : (0 : UInt8) ∉ xs := by
      rw [← h]
      exact List.not_mem_append (hfree xs) (hfree ys)
    rw [Node.replyString_of_nul_free hxs] at h
    refine ⟨hxs, fun y hy => ?_⟩
    by_contra hne
    have hmem : y ∈ Node.replyString ys := List.mem_filter.mpr ⟨hy, decide_eq_true hne⟩
    rw [List.self_eq_append_right.mp h.symm] at hmem
    cases hmem
  · intro ⟨hxs, hys⟩
    have hdropped : Node.replyString ys = [] :=
      List.filter_eq_nil_iff.mpr fun y hy => by simp [hys y hy]
    rw [Node.replyString_of_nul_free hxs, hdropped, List.append_nil]

/-- A pass that gets to the end of the copying loop writes what is in the array. -/
theorem loop_copies {s : Sketch} {p : Pass} (hdue : s.due p.now = true)
    (h : s.Copies p) (hshort : s.amountbytes.toNat ≤ 255) :
    ∃ l, s.loop p = some l ∧
      l.written = some (Node.replyString ((s.received p).buffer.slice s.amountbytes.toNat)) := by
  obtain ⟨c, hc, hcopied, hi⟩ := copying_ends h.1 hshort (s.received p).buffer
  have hreply := handleReply_of_copies h
  rw [hc, Option.map_some] at hreply
  rw [loop, if_pos hdue, hreply]
  refine ⟨_, rfl, ?_⟩
  show some c.passw = _
  rw [hcopied.passw, hi]

/-- One that does not get there writes nothing. -/
theorem loop_not_copies {s : Sketch} {p : Pass}
    (h : s.due p.now = true → s.Copies p → 255 < s.amountbytes.toNat) {l : Looped}
    (hl : s.loop p = some l) : l.written = none := by
  rcases loop_cases hl with ⟨_, rfl⟩ | ⟨hdue, replied, hreplied, hwritten, _⟩
  · rfl
  · rw [hwritten]
    by_cases hcopies : s.Copies p
    · rw [handleReply_eq_none_iff.mpr ⟨hcopies, h hdue hcopies⟩] at hreplied
      cases hreplied
    · obtain ⟨device, hnothing⟩ := handleReply_of_not_copies hcopies
      rw [hnothing] at hreplied
      rw [← Option.some.inj hreplied]

/-- What is copied is the payload exactly where nothing is dropped from it and
nothing comes behind it. -/
theorem copied_whole_iff {s : Sketch} {p : Pass} {payload : List UInt8}
    (hle : payload.length ≤ s.amountbytes.toNat)
    (hbuffer : (s.received p).buffer =
      Buffer.store { size := s.amountbytes.toNat, cells := p.locals.data } 0 payload) :
    Node.replyString ((s.received p).buffer.slice s.amountbytes.toNat) = payload ↔
      (0 : UInt8) ∉ payload ∧
        ∀ k, payload.length ≤ k → k < s.amountbytes.toNat → p.locals.data k = 0 := by
  rw [hbuffer, Buffer.slice_store_append _ hle, replyString_append_iff]
  refine and_congr_right fun _ => ⟨fun hzero k hk hlt => ?_, fun hzero y hy => ?_⟩
  · exact hzero _ (List.mem_map_of_mem (List.mem_range'_1.mpr ⟨hk, by omega⟩))
  · obtain ⟨k, hk, rfl⟩ := List.mem_map.mp hy
    obtain ⟨hge, hlt⟩ := List.mem_range'_1.mp hk
    exact hzero k hge (by omega)

/-- A pass that copies stores the reply exactly where its read is clean. -/
theorem storesReply_iff_clean {s : Sketch} {p : Pass} (hdue : s.due p.now = true)
    (hlegal : s.Legal p) (h : s.Copies p) (hshort : s.amountbytes.toNat ≤ 255) :
    s.StoresReply p ↔ s.Clean p := by
  obtain ⟨l, hl, hwritten⟩ := loop_copies hdue h hshort
  obtain ⟨hpos, hsize, hip⟩ := h
  cases hheard : heard none p.replyReads with
  | none => exact absurd (socketReceiveBytes_failed hheard) hsize
  | some got =>
      cases got with
      | none =>
          -- the bytes are of no datagram, and the metadata is what was there before
          obtain ⟨hreturned, hpacket⟩ := received_alone hpos hheard
          rw [hreturned] at hsize
          rw [hpacket] at hip
          refine iff_of_false (fun hstores => ?_) (fun hclean => ?_)
          · obtain ⟨_, r, a, hdata, _⟩ := hstores l hl _ hwritten
            rw [hheard] at hdata
            cases hdata
          · rcases hclean.alone hheard with hzero | hne
            · exact hsize hzero
            · exact hne hip
      | some r =>
          obtain ⟨a, htext, hle, hreturned, hfrom, hbuffer⟩ :=
            received_answer hdue hpos hlegal hheard
          have hdelivered : (s.received p).buffer.slice (s.received p).size.toNat =
              a.payload := by
            rw [hreturned, hbuffer, Buffer.slice_store]
          have hserver : a.ip = bytes server := hfrom.symm.trans hip
          have hwhole := copied_whole_iff hle hbuffer
          constructor
          · intro hstores
            obtain ⟨hcopied, _⟩ := hstores l hl _ hwritten
            rw [hdelivered] at hcopied
            refine ⟨fun hnone => ?_, fun r' hr' b htext' _ => ?_⟩
            · rw [hheard] at hnone
              cases hnone
            · rw [hheard] at hr'
              rw [← Option.some.inj (Option.some.inj hr')] at htext'
              rw [(SocketAnswer.eq_of_text (htext'.symm.trans htext)).2]
              exact hwhole.mp hcopied
          · intro hclean l' hl' passw hpassw
            rw [hl] at hl'
            rw [← Option.some.inj hl', hwritten,
              hwhole.mpr (hclean.data r hheard a htext hserver)] at hpassw
            rw [← Option.some.inj hpassw, hdelivered]
            exact ⟨rfl, r, a, hheard, htext, hserver, rfl⟩

/-- A legal pass stores what it should exactly when it is clean where it reads. -/
theorem storesReply_iff {s : Sketch} {p : Pass} (hlegal : s.Legal p) :
    s.StoresReply p ↔ s.ReadsClean p := by
  by_cases hstores : s.due p.now = true ∧ s.Copies p ∧ s.amountbytes.toNat ≤ 255
  · obtain ⟨hdue, hcopies, hshort⟩ := hstores
    rw [storesReply_iff_clean hdue hlegal hcopies hshort]
    exact ⟨fun hclean _ _ _ => hclean, fun hclean => hclean hdue hcopies.1 hshort⟩
  · refine iff_of_true ?_ ?_
    · intro l hl passw hpassw
      rw [loop_not_copies (fun hdue hcopies => ?_) hl] at hpassw
      · cases hpassw
      · by_contra hle
        exact hstores ⟨hdue, hcopies, by omega⟩
    · intro hdue hpos hshort
      have hserver : ¬ fromServer (s.received p) :=
        fun hserver => hstores ⟨hdue, ⟨hpos, hserver⟩, hshort⟩
      refine ⟨fun hheard => ?_, fun r hheard a htext hip => ?_⟩
      · obtain ⟨hreturned, hpacket⟩ := received_alone hpos hheard
        by_contra hboth
        rw [not_or, not_not] at hboth
        exact hserver ⟨by rw [hreturned]; exact hboth.1, by rw [hpacket]; exact hboth.2⟩
      · obtain ⟨b, htext', _, hreturned, hfrom, _⟩ := received_answer hdue hpos hlegal hheard
        refine absurd ⟨fun hzero => ?_, ?_⟩ hserver
        · rw [hzero] at hreturned
          exact b.ne_nil (List.length_eq_zero_iff.mp hreturned.symm)
        · rw [hfrom, ← hip]
          exact (SocketAnswer.eq_of_text (htext'.symm.trans htext)).1

/-- Over any run of legal passes, every string that is stored is one reply of the
server exactly when every read is clean. -/
theorem stores_reply_run_iff (s : Sketch) (passes : List Pass)
    (h : Along Legal step s passes) :
    Along StoresReply step s passes ↔ Along ReadsClean step s passes :=
  Lib.along_congr (fun _ => True) (fun _ _ _ _ _ _ => trivial)
    (fun _ _ _ hlegal => storesReply_iff hlegal) trivial h

/-- Where all that is pending is one reply, the pass does to the node what the
delivery of a reply does. -/
theorem handleReply_one_reply {s : Sketch} {p : Pass} (hdue : s.due p.now = true)
    (hpos : 0 < s.amountbytes.toInt) (hlegal : s.Legal p) {r : LineRead}
    (hheard : heard none p.replyReads = some (some r)) {a : SocketAnswer}
    (htext : r.text = a.text) (hserver : a.ip = bytes server)
    (hall : a.payload.length = s.amountbytes.toNat) :
    s.handleReply p = (s.node.applyReply a.payload).map fun node =>
      ⟨node, (s.received p).device, some (Node.replyString a.payload)⟩ := by
  obtain ⟨b, htext', _, hreturned, hfrom, hbuffer⟩ := received_answer hdue hpos hlegal hheard
  obtain ⟨hip, hpayload⟩ := SocketAnswer.eq_of_text (htext'.symm.trans htext)
  rw [hpayload] at hreturned hbuffer
  have hcopies : s.Copies p := by
    refine ⟨hpos, fun hzero => ?_, by rw [hfrom, hip, hserver]⟩
    rw [hzero] at hreturned
    exact a.ne_nil (List.length_eq_zero_iff.mp hreturned.symm)
  have hslice : (s.received p).buffer.slice s.amountbytes.toNat = a.payload := by
    rw [hbuffer, ← hall, Buffer.slice_store]
  rw [handleReply_of_copies hcopies, Node.applyReply]
  split
  · obtain ⟨c, hc, hcopied, hi⟩ := copying_ends hpos (by omega) (s.received p).buffer
    rw [hc, Option.map_some, Option.map_some, hcopied.passw, hi, hslice]
    rfl
  · rw [copying_runs_on hpos (by omega)]
    rfl

/-! ## One reply, and a short one in front of a long one -/

theorem heard_answered (b : UInt8) (bs : List UInt8) :
    heard none (Small.answered b bs).replyReads =
      some (some (.of (Small.answer b bs).text)) := by
  show heard none [.of (ModemLine.answer (Small.answer b bs)).text, .of ModemLine.ok.text] = _
  rw [heard_answer, heard_ok]
  rfl

/-- A run of two passes is legal if the second is answered with no more than it
asks for. -/
theorem legal_answered {lengths : List (Fin 32768)} {b : UInt8} {bs : List UInt8}
    (h : ∀ s ∈ step Small.booted (Small.announced lengths),
      ∀ command ∈ (s.received (Small.answered b bs)).command,
        bs.length + 1 ≤ command.readSize.toNat) :
    Along Legal step Small.booted [Small.announced lengths, Small.answered b bs] := by
  refine ⟨fun _ hpos => absurd hpos (by decide), fun s hs => ⟨?_, fun _ _ => trivial⟩⟩
  intro _ _ command hcommand r hr
  rw [heard_answered] at hr
  rw [← Option.some.inj (Option.some.inj hr)]
  exact ⟨Small.answer b bs, (ModemLine.answer _).of_text, h s hs command hcommand⟩

theorem stores_one_reply :
    Along StoresReply step Small.booted
      [Small.announced [3], Small.answered 114 [10, 100]] := by
  refine (stores_reply_run_iff _ _ (legal_answered (by decide +kernel))).mpr ?_
  refine ⟨fun _ hpos => absurd hpos (by decide), fun s hs => ⟨?_, fun _ _ => trivial⟩⟩
  have hamount : ∀ s ∈ step Small.booted (Small.announced [3]), s.amountbytes.toNat = 3 := by
    decide +kernel
  refine fun _ _ _ => ⟨fun hnone => ?_, fun r hr a htext _ => ?_⟩
  · rw [heard_answered] at hnone
    cases hnone
  · rw [heard_answered] at hr
    rw [← Option.some.inj (Option.some.inj hr)] at htext
    have hpayload : a.payload = [114, 10, 100] :=
      (SocketAnswer.eq_of_text (htext.symm.trans (ModemLine.answer _).of_text)).2
    rw [hpayload, hamount s hs]
    exact ⟨by decide, fun k hge hlt => absurd hlt (Nat.not_lt.mpr hge)⟩

/-- A reset of one byte and the credentials behind it are announced before the
node reads: what it stores is the reset and twelve cells of the stack. -/
theorem leftovers_are_stored :
    Along Legal step Small.booted [Small.announced [1, 13], Small.answered 10 []] ∧
      (∀ s ∈ step Small.booted (Small.announced [1, 13]),
        (s.loop (Small.answered 10 [])).bind (·.written) =
          some (10 :: List.replicate 12 1)) ∧
      ¬ Along StoresReply step Small.booted
        [Small.announced [1, 13], Small.answered 10 []] := by
  have hstored : ∀ s ∈ step Small.booted (Small.announced [1, 13]),
      (s.loop (Small.answered 10 [])).bind (·.written) =
          some (10 :: List.replicate 12 1) ∧
        (s.received (Small.answered 10 [])).size.toNat = 1 := by
    decide +kernel
  refine ⟨legal_answered (by decide +kernel), fun s hs => (hstored s hs).1, fun hruns => ?_⟩
  obtain ⟨s, hs⟩ := Option.isSome_iff_exists.mp
    (show (step Small.booted (Small.announced [1, 13])).isSome by decide +kernel)
  obtain ⟨hwritten, hsize⟩ := hstored s hs
  obtain ⟨l, hl, hpassw⟩ := Option.bind_eq_some_iff.mp hwritten
  obtain ⟨hwhole, _⟩ := (hruns.2 s hs).1 l hl _ hpassw
  have hlength := congrArg List.length hwhole
  rw [hsize] at hlength
  cases hlength

end Sketch

end NbIot
