import Mathlib.Data.List.TakeWhile
import Mathlib.Logic.Function.Iterate
import NbIot.Node.Sdk

/-!
# The token in the EEPROM

`writePW` stores a string of any length from cell 1 on, ends it with a zero
and leaves every other cell as it was. `readPW` copies twenty cells into a
static buffer of twenty-one, whose last byte is never written and stays zero.
So what is read back is what was written, cut off after twenty bytes
(`readPW_writePW`).
-/

namespace NbIot

/-- The cells, by an address register of twelve bits. -/
abbrev Eeprom := Fin 4096 → UInt8

namespace Eeprom

def read (e : Eeprom) (i : Nat) : UInt8 := e (Fin.ofNat 4096 i)

def write (e : Eeprom) (i : Nat) (v : UInt8) : Eeprom :=
  fun j => if j = Fin.ofNat 4096 i then v else e j

/-- The guarded write all three functions use. -/
def update (e : Eeprom) (i : Nat) (v : UInt8) : Eeprom :=
  if e.read i ≠ v then e.write i v else e

def erased : Eeprom := fun _ => 0xFF

@[simp] theorem read_update (e : Eeprom) (i : Nat) (v : UInt8) :
    (e.update i v).read i = v := by
  unfold update
  split
  · exact if_pos rfl
  · rename_i h
    exact not_not.mp h

theorem read_update_of_ne {e : Eeprom} {i j : Nat} {v : UInt8} (hi : i < 4096)
    (hj : j < 4096) (h : j ≠ i) : (e.update i v).read j = e.read j := by
  unfold update
  split
  · refine if_neg fun heq => h ?_
    have hval := congrArg Fin.val heq
    simp only [Fin.ofNat] at hval
    omega
  · rfl

end Eeprom

/-- The loop of `clearEEPROM`, up to address `n`. -/
def clearUpTo (e : Eeprom) : Nat → Eeprom
  | 0 => e
  | n + 1 => (clearUpTo e n).update n 0

def clearEEPROM (e : Eeprom) : Eeprom := clearUpTo e 4096

/-- The loop of `writePW` at index `i`, with `data` the bytes from there. -/
def writeFrom (e : Eeprom) (i : Nat) : List UInt8 → Eeprom
  | [] => e
  | b :: data => writeFrom (e.update (i + 1) b) (i + 1) data

def writePW (e : Eeprom) (passw : List UInt8) : Eeprom :=
  (writeFrom e 0 passw).update (passw.length + 1) 0

/-- The static buffer `readPW` returns. -/
def readPW (e : Eeprom) : List UInt8 :=
  (List.range 20).map (fun i => e.read (i + 1)) ++ [0]

def cString (buffer : List UInt8) : List UInt8 := buffer.takeWhile (· ≠ 0)

theorem nul_not_mem_cString (buffer : List UInt8) : (0 : UInt8) ∉ cString buffer :=
  fun h => by simpa using List.mem_takeWhile_imp h

theorem cString_of_nul_free {s buffer : List UInt8} (h : (0 : UInt8) ∉ s) :
    cString (s ++ 0 :: buffer) = s := by
  have hall : ∀ b ∈ s, decide (b ≠ 0) = true := by
    intro b hb
    refine decide_eq_true fun h0 => h ?_
    rw [← h0]
    exact hb
  rw [cString, List.takeWhile_append_of_pos hall, List.takeWhile_cons_of_neg (by simp),
    List.append_nil]

/-- `readPW()` as the string `setAttDevice` keeps a pointer to. -/
def storedToken (e : Eeprom) : CString where
  bytes := cString (readPW e)
  nul_free := nul_not_mem_cString _
  fits := by
    have hle := (List.takeWhile_prefix (l := readPW e)
      (fun b : UInt8 => decide (b ≠ 0))).length_le
    have hbuffer : (readPW e).length = 21 := by simp [readPW]
    rw [cString]
    omega

/-! ## What the loops leave in the cells -/

theorem read_clearUpTo {e : Eeprom} {n i : Nat} (hn : n ≤ 4096) (hi : i < n) :
    (clearUpTo e n).read i = 0 := by
  induction n with
  | zero => omega
  | succ n ih =>
      rw [clearUpTo]
      by_cases h : i = n
      · rw [h, Eeprom.read_update]
      · rw [Eeprom.read_update_of_ne (by omega) (by omega) h]
        exact ih (by omega) (by omega)

theorem read_writeFrom {e : Eeprom} {data : List UInt8} {i j : Nat}
    (hfit : i + data.length < 4096) (hj : j < 4096) (h : j ≤ i ∨ i + data.length < j) :
    (writeFrom e i data).read j = e.read j := by
  induction data generalizing e i with
  | nil => rfl
  | cons b data ih =>
      rw [List.length_cons] at hfit h
      rw [writeFrom, ih (by omega) (by omega)]
      exact Eeprom.read_update_of_ne (by omega) hj (by omega)

theorem read_writeFrom_data {e : Eeprom} {data : List UInt8} {i k : Nat}
    (hfit : i + data.length < 4096) (hk : k < data.length) :
    (writeFrom e i data).read (i + 1 + k) = data[k] := by
  induction data generalizing e i k with
  | nil => exact absurd hk (by simp)
  | cons b data ih =>
      rw [List.length_cons] at hfit hk
      rw [writeFrom]
      cases k with
      | zero =>
          rw [read_writeFrom (by omega) (by omega) (Or.inl (by omega))]
          exact Eeprom.read_update e (i + 1) b
      | succ k =>
          have hstep := ih (e := e.update (i + 1) b) (i := i + 1) (k := k)
            (by omega) (by omega)
          rw [show i + 1 + (k + 1) = i + 1 + 1 + k by omega, hstep]
          rfl

theorem read_writePW {e : Eeprom} {passw : List UInt8} {k : Nat}
    (hfit : passw.length + 1 < 4096) (hk : k < passw.length) :
    (writePW e passw).read (k + 1) = passw[k] := by
  rw [writePW, Eeprom.read_update_of_ne (by omega) (by omega) (by omega)]
  have hdata := read_writeFrom_data (e := e) (i := 0)
    (show 0 + passw.length < 4096 by omega) hk
  rw [← hdata]
  congr 1
  omega

theorem read_writePW_end (e : Eeprom) (passw : List UInt8) :
    (writePW e passw).read (passw.length + 1) = 0 :=
  Eeprom.read_update _ _ _

theorem readPW_short {e : Eeprom} {s : List UInt8} (hlen : s.length ≤ 20)
    (hcell : ∀ k (hk : k < s.length), e.read (k + 1) = s[k])
    (hend : s.length < 20 → e.read (s.length + 1) = 0) :
    ∃ rest, readPW e = s ++ 0 :: rest := by
  have htake : (readPW e).take s.length = s := by
    refine List.ext_getElem ?_ fun k h₁ h₂ => ?_
    · simp [readPW]
      omega
    · simp only [readPW, List.getElem_take]
      rw [List.getElem_append_left (by simp; omega)]
      simpa using hcell k h₂
  have hnext : (readPW e)[s.length]? = some 0 := by
    rcases Nat.lt_or_eq_of_le hlen with hlt | heq
    · rw [readPW, List.getElem?_append_left (by simp; omega)]
      simp [hlt, hend hlt]
    · rw [heq]
      simp [readPW]
  obtain ⟨hlt, hget⟩ := List.getElem?_eq_some_iff.mp hnext
  refine ⟨(readPW e).drop (s.length + 1), ?_⟩
  have hdrop := List.drop_eq_getElem_cons hlt
  rw [hget] at hdrop
  rw [← hdrop]
  conv_lhs => rw [← List.take_append_drop s.length (readPW e), htake]

theorem storedToken_short {e : Eeprom} {s : List UInt8} (hlen : s.length ≤ 20)
    (hnul : (0 : UInt8) ∉ s)
    (hcell : ∀ k (hk : k < s.length), e.read (k + 1) = s[k])
    (hend : s.length < 20 → e.read (s.length + 1) = 0) :
    (storedToken e).bytes = s := by
  obtain ⟨rest, hrest⟩ := readPW_short hlen hcell hend
  show cString (readPW e) = s
  rw [hrest]
  exact cString_of_nul_free hnul

/-- The token read back is the string written, cut off after twenty bytes. -/
theorem storedToken_writePW {e : Eeprom} {passw : List UInt8}
    (hnul : (0 : UInt8) ∉ passw) (hfit : passw.length + 1 < 4096) :
    (storedToken (writePW e passw)).bytes = passw.take 20 := by
  refine storedToken_short (List.length_take_le _ _)
    (fun h => hnul (List.mem_of_mem_take h)) ?_ ?_
  · intro k hk
    rw [List.getElem_take]
    exact read_writePW hfit _
  · intro hlt
    have hall : (passw.take 20).length = passw.length := by
      rw [List.length_take] at hlt ⊢
      omega
    rw [hall]
    exact read_writePW_end e passw

theorem storedToken_clearEEPROM (e : Eeprom) :
    (storedToken (clearEEPROM e)).bytes = [] :=
  storedToken_short (by simp) List.not_mem_nil (fun k hk => absurd hk (by simp))
    fun _ => read_clearUpTo (by omega) (by simp)

theorem storedToken_erased :
    (storedToken Eeprom.erased).bytes = List.replicate 20 0xFF :=
  storedToken_short (by simp) (by simp) (fun k hk => by rw [List.getElem_replicate]; rfl)
    fun h => absurd h (by simp)

/-! ## The part of the node that outlives a pass of `loop` -/

structure Node where
  eeprom : Eeprom
  deviceToken : CString

namespace Node

/-- `setup`: the token is loaded from the EEPROM. -/
def setup (n : Node) : Node := { n with deviceToken := storedToken n.eeprom }

/-- The string the reply loop of `loop` builds: `String((char)0)` is empty. -/
def replyString (data : List UInt8) : List UInt8 := data.filter (· ≠ 0)

/-- `loop` on the bytes of one reply of the server. The copying loop counts with
a `byte`, so it never gets to the end of more than 255 of them. -/
def applyReply (n : Node) (data : List UInt8) : Option Node :=
  if data.length < 256 then
    let eeprom := writePW n.eeprom (replyString data)
    some { eeprom, deviceToken := storedToken eeprom }
  else none

theorem replyString_of_nul_free {data : List UInt8} (h : (0 : UInt8) ∉ data) :
    replyString data = data := by
  refine List.filter_eq_self.mpr fun b hb => decide_eq_true fun h0 => h ?_
  rw [← h0]
  exact hb

theorem applyReply_eq_some {n n' : Node} {data : List UInt8} :
    n.applyReply data = some n' ↔ data.length < 256 ∧
      n' = setup ⟨writePW n.eeprom (replyString data), n.deviceToken⟩ := by
  unfold applyReply
  split
  · rename_i h
    simp [h, setup, eq_comm]
  · rename_i h
    simp [h]

theorem exists_applyReply (n : Node) {data : List UInt8} (h : data.length < 256) :
    ∃ n', n.applyReply data = some n' :=
  ⟨_, applyReply_eq_some.mpr ⟨h, rfl⟩⟩

/-- The token a reply leaves behind, now and after any number of reboots. -/
theorem applyReply_deviceToken {n n' : Node} {data : List UInt8}
    (hnul : (0 : UInt8) ∉ data) (h : n.applyReply data = some n') (reboots : Nat) :
    (setup^[reboots] n').deviceToken.bytes = data.take 20 := by
  obtain ⟨hlen, rfl⟩ := applyReply_eq_some.mp h
  rw [replyString_of_nul_free hnul, Function.iterate_fixed rfl reboots]
  exact storedToken_writePW hnul (by omega)

end Node

end NbIot
