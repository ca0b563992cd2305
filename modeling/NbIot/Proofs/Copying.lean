import NbIot.Lib.Run
import NbIot.Node.Sketch

/-!
# The copying loop of a reply

The bound of the loop is the number of bytes that are pending, and its index is
a `byte`. Up to 255 bytes it reads every cell of the array once and ends. From
256 on the index wraps before it gets there, and nothing else ends the loop. A
short datagram in front of a long one is enough to start it.
-/

namespace NbIot

open Lib (Buffer run)

namespace Sketch

/-- The pass gets to the copying loop: bytes are pending, and some were returned
for a datagram of the server. -/
def Copies (s : Sketch) (p : Pass) : Prop :=
  0 < s.amountbytes.toInt ∧ fromServer (s.received p)

instance (s : Sketch) (p : Pass) : Decidable (s.Copies p) :=
  inferInstanceAs (Decidable (_ ∧ _))

/-- The loop ends, reads only cells of the array, and each index below its bound
once. -/
def CopiesOnce (s : Sketch) (p : Pass) : Prop :=
  ∃ fuel c, copying s.amountbytes fuel (s.received p).buffer = some c ∧
    c.data.size = s.amountbytes.toNat ∧ (∀ i ∈ c.data.reads, i < c.data.size) ∧
    ∀ i < s.amountbytes.toNat, c.data.reads.count i = 1

/-- The array is as long as there are bytes pending, and not read before. -/
theorem received_buffer (s : Sketch) (p : Pass) :
    (s.received p).buffer.size = s.amountbytes.toNat ∧ (s.received p).buffer.reads = [] := by
  unfold received Device.socketReceiveBytes
  split
  · exact ⟨Buffer.store_size _ _ _, Buffer.store_reads _ _ _⟩
  · exact ⟨rfl, rfl⟩

theorem handleReply_of_not_copies {s : Sketch} {p : Pass} (h : ¬ s.Copies p) :
    ∃ device, s.handleReply p = some ⟨s.node, device, none⟩ := by
  unfold handleReply
  split
  · rename_i hpos
    exact ⟨(s.received p).device, if_neg fun hserver => h ⟨hpos, hserver⟩⟩
  · exact ⟨s.device, rfl⟩

theorem handleReply_of_copies {s : Sketch} {p : Pass} (h : s.Copies p) :
    s.handleReply p =
      (copying s.amountbytes 256 (s.received p).buffer).map fun c =>
        ⟨Node.setup ⟨writePW s.node.eeprom c.passw, s.node.deviceToken⟩,
          (s.received p).device, some c.passw⟩ := by
  unfold handleReply
  rw [if_pos h.1]
  refine (if_pos h.2).trans ?_
  cases copying s.amountbytes 256 (s.received p).buffer <;> rfl

/-- A pass does not end exactly when it copies more than a `byte` can count. -/
theorem handleReply_eq_none_iff {s : Sketch} {p : Pass} :
    s.handleReply p = none ↔ s.Copies p ∧ 255 < s.amountbytes.toNat := by
  by_cases hcopies : s.Copies p
  · rw [handleReply_of_copies hcopies, Option.map_eq_none_iff]
    rcases Nat.lt_or_ge 255 s.amountbytes.toNat with hlong | hshort
    · simp [copying_runs_on hcopies.1 hlong, hcopies, hlong]
    · obtain ⟨c, hc, _⟩ := copying_ends hcopies.1 hshort (s.received p).buffer
      simp [hc, Nat.not_lt.mpr hshort]
  · obtain ⟨device, hreply⟩ := handleReply_of_not_copies hcopies
    simp [hreply, hcopies]

/-- Once a pass gets to the loop, the loop does what it is for exactly when no
more than 255 bytes are pending. -/
theorem copies_once_iff (s : Sketch) (p : Pass) (h : s.Copies p) :
    s.CopiesOnce p ↔ s.amountbytes.toNat ≤ 255 := by
  constructor
  · intro ⟨fuel, c, hc, _⟩
    by_contra hlong
    rw [copying_runs_on h.1 (by omega)] at hc
    cases hc
  · intro hshort
    obtain ⟨hsize, hreads⟩ := s.received_buffer p
    obtain ⟨c, hc, hcopied, hi⟩ := copying_ends h.1 hshort (s.received p).buffer
    have hvisited : c.data.reads = List.range s.amountbytes.toNat := by
      rw [hcopied.reads, hreads, hi, List.nil_append]
    refine ⟨256, c, hc, hcopied.size.trans hsize, ?_, ?_⟩
    · intro i hmem
      rw [hvisited] at hmem
      rw [hcopied.size, hsize]
      exact List.mem_range.mp hmem
    · intro i hlt
      rw [hvisited]
      exact List.count_eq_one_of_mem List.nodup_range (List.mem_range.mpr hlt)

end Sketch

namespace Small

/-- The node sends, and datagrams of the given lengths are announced before the
`OK`. -/
def announced (lengths : List (Fin 32768)) : Pass :=
  pass 1 0 [] (lengths.map (fun n => .nsonmi (announcement n)) ++ ([.ok] : List ModemLine))

/-- The next pass reads, and is answered with the given bytes of the server. -/
def answered (b : UInt8) (bs : List UInt8) : Pass :=
  pass 20000 0 [.answer (answer b bs), .ok] []

end Small

theorem Sketch.copies_once_short :
    ∃ s, run Sketch.step Small.booted [Small.announced [3]] = some s ∧
      s.CopiesOnce (Small.answered 114 [10, 100]) := by
  have hshort : ∀ s ∈ run Sketch.step Small.booted [Small.announced [3]],
      s.Copies (Small.answered 114 [10, 100]) ∧ s.amountbytes.toNat ≤ 255 := by
    decide +kernel
  obtain ⟨s, hs⟩ := Option.isSome_iff_exists.mp
    (show (run Sketch.step Small.booted [Small.announced [3]]).isSome by decide +kernel)
  obtain ⟨hcopies, hle⟩ := hshort s hs
  exact ⟨s, hs, (Sketch.copies_once_iff s _ hcopies).mpr hle⟩

/-- Two bytes of the server, with three hundred more announced behind them. -/
theorem Sketch.copies_forever :
    ∃ s, run Sketch.step Small.booted [Small.announced [2, 300]] = some s ∧
      s.Copies (Small.answered 114 [10]) ∧ s.step (Small.answered 114 [10]) = none ∧
      ¬ s.CopiesOnce (Small.answered 114 [10]) := by
  have hlong : ∀ s ∈ run Sketch.step Small.booted [Small.announced [2, 300]],
      s.Copies (Small.answered 114 [10]) ∧ s.amountbytes.toNat = 300 ∧
        s.due (Small.answered 114 [10]).now = true := by
    decide +kernel
  obtain ⟨s, hs⟩ := Option.isSome_iff_exists.mp
    (show (run Sketch.step Small.booted [Small.announced [2, 300]]).isSome by decide +kernel)
  obtain ⟨hcopies, hamount, hdue⟩ := hlong s hs
  have hnone := handleReply_eq_none_iff.mpr ⟨hcopies, by omega⟩
  refine ⟨s, hs, hcopies, ?_, ?_⟩
  · rw [step, loop, if_pos hdue, hnone]
    rfl
  · rintro ⟨fuel, c, hc, _⟩
    rw [copying_runs_on hcopies.1 (by omega)] at hc
    cases hc

end NbIot
