import NbIot.Node.Device

/-!
# The identity of the node

`getIMEI` reports success on the `OK` line, and the identity is a side effect of
whatever `+CGSN` lines came before it. A token of up to fourteen characters is
taken over as it is, and its terminator still fits the local array. An IMEI has
fifteen, and its terminator is written behind the array.
-/

namespace NbIot

open Lib (Buffer)
open Lib.Scan (bytes format scan notSpace)

/-- The loop goes on after the line. -/
def LineRead.Passed (r : LineRead) : Prop :=
  r.timedOut = false ∧ ∀ response, turn r.text ≠ .done response

/-- The lines a call reads up to and including the first `OK`. -/
def ReadsToOk (reads : List LineRead) : Prop :=
  ∃ (pre : List LineRead) (last : LineRead), reads = pre ++ [last] ∧
    (∀ r ∈ pre, r.Passed) ∧ last.line ≠ [] ∧ turn last.text = .done .ok

/-- The tokens of the `+CGSN` lines. -/
def imeiTokens (reads : List LineRead) : List (List UInt8) :=
  reads.filterMap fun r => cgsnToken r.text

/-- `getIMEI` succeeds only after a `+CGSN` line and with the token of each as
the device id, and the arrays are left within their bounds. -/
structure ImeiRight (d : Device) (reads : List LineRead) : Prop where
  taken : (d.getIMEI reads).1 = true → imeiTokens reads ≠ [] ∧
    ∀ tok ∈ imeiTokens reads, tok.length ≤ 15 →
      ∃ id, (d.getIMEI reads).2.deviceId = some id ∧ id.bytes = tok
  inside : ∀ r ∈ reads, ∀ tok, cgsnToken r.text = some tok → tok.length ≤ 15 →
    (getConst (scanCgsn tok r.cgsn)).1.Inside ∧ (getConst (scanCgsn tok r.cgsn)).2.Inside

/-- Some line has a token, and each token of at most fifteen characters has at
most fourteen and is that of the last one. -/
def TokensFit (tokens : List (List UInt8)) : Prop :=
  tokens ≠ [] ∧ ∀ tok ∈ tokens, tok.length ≤ 15 →
    tok.length ≤ 14 ∧ tokens.getLast? = some tok

instance (tokens : List (List UInt8)) : Decidable (TokensFit tokens) :=
  inferInstanceAs (Decidable (_ ∧ _))

/-! ## One `+CGSN` line -/

/-- A token comes out of a line that starts as the format does. -/
theorem cgsnToken_spec {buffer tok : List UInt8} (h : cgsnToken buffer = some tok) :
    bytes "+CGSN:" <+: buffer ∧ ∀ b ∈ tok, b ∈ buffer := by
  have hpre : bytes "+CGSN:" <+: buffer := by
    by_contra hno
    rw [cgsnToken_none hno] at h
    cases h
  refine ⟨hpre, ?_⟩
  obtain ⟨s, rfl⟩ := hpre
  rw [cgsnToken, format_cgsn, Lib.Scan.scan_lits, scan, scan] at h
  split at h
  · cases h
  · injection h with h
    intro b hb
    rw [← h] at hb
    have hmem := (List.takeWhile_prefix _).subset hb
    have hskip := (List.dropWhile_suffix _).subset hmem
    exact List.mem_append_right _ ((List.dropWhile_suffix _).subset hskip)

theorem nul_not_mem_token {r : LineRead} {tok : List UInt8}
    (h : cgsnToken r.text = some tok) : (0 : UInt8) ∉ tok :=
  fun h0 => nul_not_mem_cString r.line ((cgsnToken_spec h).2 0 h0)

theorem collect_cgsn {d : Device} {r : LineRead} {tok : List UInt8}
    (h : cgsnToken r.text = some tok) :
    (d.collect r).deviceId = some (constString (getConst (scanCgsn tok r.cgsn)).2) := by
  obtain ⟨s, hs⟩ := (cgsnToken_spec h).1
  have hu : ufotas r.text = false := ufotas_false (by rw [← hs]; simp [bytes, Lib.Scan.byte])
  have hn : nsonmi r.text = none := nsonmi_none (by rw [← hs]; simp [bytes, Lib.Scan.byte])
  simp only [Device.collect, hu, hn, h]
  rfl

theorem collect_no_cgsn {d : Device} {r : LineRead} (h : cgsnToken r.text = none) :
    (d.collect r).deviceId = d.deviceId := by
  unfold Device.collect
  split
  · rfl
  split
  · rfl
  · rw [h]

theorem getConst_slice (input : Buffer) :
    (getConst input).2.slice 16 = input.slice 15 ++ [0] := by
  rw [Buffer.slice_succ]
  refine congrArg₂ (fun a b => a ++ [b]) ?_ ?_
  · refine Buffer.slice_congr fun k hk => ?_
    have hcell := Buffer.copy_snd_cells input { size := 16, cells := fun _ => 0 } 15 k
    rw [if_pos hk] at hcell
    rw [← hcell]
    exact Buffer.set_cells_of_ne (by omega)
  · exact Buffer.set_cells_self _ 15 0

/-- The device id is the token, cut off after fifteen characters. -/
theorem constString_bytes {tok : List UInt8} (h : (0 : UInt8) ∉ tok)
    (cells : Nat → UInt8) :
    (constString (getConst (scanCgsn tok cells)).2).bytes = tok.take 15 := by
  have hstored : (scanCgsn tok cells).slice (tok.length + 1) = tok ++ [0] := by
    have hslice := Buffer.slice_store { size := 15, cells } (tok ++ [0])
    rwa [List.length_append] at hslice
  show cString ((getConst (scanCgsn tok cells)).2.slice 16) = tok.take 15
  rw [getConst_slice]
  by_cases hlen : tok.length < 15
  · have htake := Buffer.slice_take (b := scanCgsn tok cells) (m := tok.length + 1) (n := 15)
      (by omega)
    rw [hstored] at htake
    rw [← List.take_append_drop (tok.length + 1) ((scanCgsn tok cells).slice 15), htake,
      List.take_of_length_le (by omega)]
    simp only [List.append_assoc, List.singleton_append]
    exact cString_of_nul_free h
  · have htake := Buffer.slice_take (b := scanCgsn tok cells) (m := 15) (n := tok.length + 1)
      (by omega)
    rw [hstored, List.take_append_of_le_length (by omega)] at htake
    rw [← htake]
    exact cString_of_nul_free fun h0 => h (List.mem_of_mem_take h0)

/-- The terminator of the token is what decides. -/
theorem inside_iff (tok : List UInt8) (cells : Nat → UInt8) :
    (getConst (scanCgsn tok cells)).1.Inside ↔ tok.length ≤ 14 := by
  obtain ⟨hsize, _, hreads, hwrites, _⟩ := Buffer.copy_log (scanCgsn tok cells)
    { size := 16, cells := fun _ => 0 } 15
  have hr : (getConst (scanCgsn tok cells)).1.reads = List.range 15 := by
    refine hreads.trans ?_
    rw [scanCgsn, Buffer.store_reads]
    rfl
  have hw : (getConst (scanCgsn tok cells)).1.writes = List.range' 0 (tok.length + 1) := by
    refine hwrites.trans ?_
    rw [scanCgsn, Buffer.store_writes, List.length_append]
    rfl
  have hs : (getConst (scanCgsn tok cells)).1.size = 15 :=
    hsize.trans (Buffer.store_size _ _ _)
  rw [Buffer.Inside, hr, hw, hs]
  simp only [List.mem_range, List.mem_range'_1]
  constructor
  · intro h
    have hend := h.2 tok.length (by omega)
    omega
  · intro h
    exact ⟨fun i hi => hi, fun i hi => by omega⟩

theorem getConst_inside (input : Buffer) : (getConst input).2.Inside := by
  obtain ⟨_, hsize, _, _, hreads, hwrites⟩ := Buffer.copy_log input
    { size := 16, cells := fun _ => 0 } 15
  have hs : (getConst input).2.size = 16 := hsize
  have hr : (getConst input).2.reads = [] := hreads
  have hw : (getConst input).2.writes = List.range 15 ++ [15] :=
    congrArg (· ++ [15]) hwrites
  rw [Buffer.Inside, hs, hr, hw]
  decide

/-! ## The lines up to the `OK` -/

theorem collect_blank {d : Device} {r : LineRead} (h : r.line = []) : d.collect r = d := by
  have htext : r.text = [] := by rw [LineRead.text, h]; rfl
  have hno : ∀ {w : List UInt8}, w ≠ [] → ¬ w <+: r.text := by
    intro w hw hpre
    rw [htext] at hpre
    exact hw (List.prefix_nil.mp hpre)
  have hu : ufotas r.text = false := ufotas_false (hno (by decide))
  have hn : nsonmi r.text = none := nsonmi_none (hno (by decide))
  have hc : cgsnToken r.text = none := cgsnToken_none (hno (by decide))
  simp only [Device.collect, hu, hn, hc]
  rfl

theorem readOne_passed {d : Device} {r : LineRead} (h : r.Passed) :
    d.readOne none () r = .more (d.collect r) none () := by
  unfold Device.readOne
  split
  · rename_i hline
    rw [collect_blank hline]
  · cases hturn : turn r.text with
    | next => rfl
    | parse => rfl
    | done response => exact absurd hturn (h.2 response)

theorem readResponse_passed {d : Device} {pre rest : List LineRead}
    (h : ∀ r ∈ pre, r.Passed) :
    d.readResponse none () (pre ++ rest) =
      (pre.foldl Device.collect d).readResponse none () rest := by
  induction pre generalizing d with
  | nil => rfl
  | cons r pre ih =>
      have hr := h r List.mem_cons_self
      rw [List.cons_append, Device.readResponse, readOne_passed hr]
      simp only [hr.1, Bool.false_eq_true, if_false]
      exact ih fun s hs => h s (List.mem_cons_of_mem _ hs)

theorem getIMEI_eq {d : Device} {reads : List LineRead} (h : ReadsToOk reads) :
    d.getIMEI reads = (true, reads.foldl Device.collect d) := by
  obtain ⟨pre, last, rfl, hpre, hline, hok⟩ := h
  have hlast : ∀ d : Device, d.readResponse none () [last] =
      ⟨.ok, d.collect last, (), []⟩ := by
    intro d
    simp only [Device.readResponse, Device.readOne, if_neg hline, hok]
  rw [Device.getIMEI, readResponse_passed hpre, hlast, List.foldl_append]
  rfl

/-- The last token is the device id, cut off after fifteen characters. -/
theorem deviceId_foldl {d : Device} {reads : List LineRead} {tok : List UInt8}
    (h : (imeiTokens reads).getLast? = some tok) :
    ∃ id, (reads.foldl Device.collect d).deviceId = some id ∧ id.bytes = tok.take 15 := by
  induction reads using List.reverseRecOn with
  | nil => cases h
  | append_singleton reads r ih =>
      rw [List.foldl_append, List.foldl_cons, List.foldl_nil]
      rw [imeiTokens, List.filterMap_append] at h
      cases hr : cgsnToken r.text with
      | none =>
          simp only [List.filterMap_cons, hr, List.filterMap_nil, List.append_nil] at h
          rw [collect_no_cgsn hr]
          exact ih h
      | some last =>
          simp only [List.filterMap_cons, hr, List.filterMap_nil, List.getLast?_concat,
            Option.some.injEq] at h
          rw [← h]
          exact ⟨_, collect_cgsn hr, constString_bytes (nul_not_mem_token hr) r.cgsn⟩

/-- `getIMEI` does what its name says exactly when some line has a token and no
token has the length of an IMEI or differs from the last one. -/
theorem imei_right_iff (d : Device) (reads : List LineRead) (h : ReadsToOk reads) :
    ImeiRight d reads ↔ TokensFit (imeiTokens reads) := by
  have heq := getIMEI_eq (d := d) h
  constructor
  · intro hright
    obtain ⟨hne, htaken⟩ := hright.taken (by rw [heq])
    refine ⟨hne, fun tok htok hlen => ?_⟩
    obtain ⟨r, hr, hcgsn⟩ := List.mem_filterMap.mp htok
    have hshort := (inside_iff tok r.cgsn).mp (hright.inside r hr tok hcgsn hlen).1
    obtain ⟨last, hlast⟩ := Option.ne_none_iff_exists'.mp
      (fun hnone => hne (List.getLast?_eq_none_iff.mp hnone))
    obtain ⟨id, hid, hbytes⟩ := htaken tok htok hlen
    obtain ⟨id', hid', hbytes'⟩ := deviceId_foldl (d := d) hlast
    rw [heq, hid'] at hid
    injection hid with hid
    have hsame : last.take 15 = tok := by rw [← hbytes', hid, hbytes]
    have hwhole : last.length ≤ 15 := by
      have hlength := congrArg List.length hsame
      rw [List.length_take] at hlength
      omega
    rw [List.take_of_length_le hwhole] at hsame
    exact ⟨hshort, by rw [hlast, hsame]⟩
  · intro ⟨hne, hfit⟩
    refine ⟨fun _ => ⟨hne, fun tok htok hlen => ?_⟩, fun r hr tok hcgsn hlen => ?_⟩
    · obtain ⟨hshort, hlast⟩ := hfit tok htok hlen
      obtain ⟨id, hid, hbytes⟩ := deviceId_foldl (d := d) hlast
      refine ⟨id, by rw [heq]; exact hid, ?_⟩
      rw [hbytes, List.take_of_length_le hlen]
    · have hmem : tok ∈ imeiTokens reads := List.mem_filterMap.mpr ⟨r, hr, hcgsn⟩
      exact ⟨(inside_iff tok r.cgsn).mpr (hfit tok hmem hlen).1, getConst_inside _⟩

theorem imei_right_short :
    ImeiRight {} [.of (bytes "+CGSN: 12345678901234"), .of (bytes "OK")] := by
  refine (imei_right_iff {} _ ⟨[.of (bytes "+CGSN: 12345678901234")], .of (bytes "OK"),
    rfl, ?_, by decide, by decide +kernel⟩).mpr (by decide +kernel)
  intro r hr
  rw [List.mem_singleton.mp hr]
  have hturn : turn (LineRead.of (bytes "+CGSN: 12345678901234")).text = .parse := by
    decide +kernel
  exact ⟨rfl, fun response h => by rw [hturn] at h; cases h⟩

/-- The terminator of a whole IMEI is written behind the array. -/
theorem whole_imei_overruns :
    (({} : Device).getIMEI [.of (bytes "+CGSN: 123456789012345"), .of (bytes "OK")]).1 = true ∧
      15 ∈ (getConst (scanCgsn (bytes "123456789012345") fun _ => 0)).1.writes ∧
      ¬ ImeiRight {} [.of (bytes "+CGSN: 123456789012345"), .of (bytes "OK")] := by
  have hwrite : 15 ∈ (getConst (scanCgsn (bytes "123456789012345") fun _ => 0)).1.writes := by
    decide +kernel
  refine ⟨by decide +kernel, hwrite, fun h => ?_⟩
  have hinside := (h.inside _ List.mem_cons_self (bytes "123456789012345") (by decide +kernel)
    (by decide)).1
  exact absurd (hinside.2 15 hwrite) (by decide +kernel)

end NbIot
