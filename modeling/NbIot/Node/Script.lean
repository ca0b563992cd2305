import NbIot.Node.Heard

/-!
# What the modem says to a command

A command is answered with data or not, announcements come in before and after
the answer, and it ends in `OK`, in an error, or not at all. A response to such
a script comes down to its ending, the announcements the device heard, and the
answer, as long as every line has room in the buffer.
-/

namespace NbIot

open Lib (Buffer)
open Lib.Scan (bytes decimal)

inductive Ending where
  | ok
  | error
  | silence
  deriving DecidableEq, Repr

/-- What the modem says after a command: an answer or none, announcements before
and after it, and how it ends. -/
structure Script where
  before : List Announcement
  answer : Option SocketAnswer
  after : List Announcement
  ending : Ending

def Ending.lines : Ending → List ModemLine
  | ok => [.ok]
  | error => [.error]
  | silence => []

def Ending.type : Ending → ResponseTypes
  | ok => .ok
  | error => .error
  | silence => .timeout

namespace Script

def lines (sc : Script) : List ModemLine :=
  sc.before.map .nsonmi ++ (sc.answer.toList.map .answer ++
    (sc.after.map .nsonmi ++ sc.ending.lines))

def reads (sc : Script) : List LineRead := readsOf sc.lines

def Fits (sc : Script) : Prop := ∀ l ∈ sc.lines, l.Fits

def news (sc : Script) : List Announcement := sc.before ++ sc.after

/-- The bytes the modem returns. -/
def returned (sc : Script) : Nat := (sc.answer.map (·.payload.length)).getD 0

end Script

/-- The device after a list of announcements. -/
def Device.hear (d : Device) (news : List Announcement) : Device :=
  news.foldl (fun d n => d.collect (.of (ModemLine.nsonmi n).text)) d

/-! ## One line -/

/-- A line does not end in a carriage return of its own. -/
theorem ModemLine.last_ne_cr (l : ModemLine) : l.text.getLast? ≠ some 13 := by
  have hnumber : ∀ (s : List UInt8) (n : Nat), (s ++ decimal n).getLast? ≠ some 13 := by
    intro s n h
    have hne := Lib.Scan.decimal_ne_nil n
    rw [List.getLast?_append_of_ne_nil _ hne] at h
    exact absurd (Lib.Scan.isDigit_decimal 13 (List.mem_of_mem_getLast? h)) (by decide)
  cases l with
  | nsonmi n =>
      have hend : n.text =
          (bytes "+NSONMI:" ++ 32 :: (decimal n.socketID ++ [44])) ++ decimal n.dataLength := by
        simp [Announcement.text]
      rw [text, hend]
      exact hnumber _ n.dataLength
  | answer a =>
      have hend : a.text = (decimal a.socketID ++ 44 :: 34 :: (a.ip ++ 34 :: 44 ::
          (decimal a.port ++ 44 :: (decimal a.payload.length ++ 44 :: 34 ::
            (hexText a.payload ++ [34, 44]))))) ++ decimal a.remainingLength := by
        simp [SocketAnswer.text]
      rw [text, hend]
      exact hnumber _ a.remainingLength
  | ok => decide
  | error => decide

/-- What is read of the line feed where the buffer was full before it. -/
def ModemLine.blank (l : ModemLine) : List LineRead :=
  if l.text.length < 248 then [] else [.of []]

theorem readsOf_cons {l : ModemLine} (hl : l.Fits) (ls : List ModemLine) :
    readsOf (l :: ls) = .of l.text :: (l.blank ++ readsOf ls) := by
  rw [readsOf, List.map_cons, printed_cons, pieces_of_line hl.lf_free l.last_ne_cr hl.length_le,
    List.map_cons, List.map_append, ModemLine.blank]
  split <;> rfl

section Lines

variable {σ : Type} (d : Device) (parserMethod : Option (ParserMethod σ)) (params : σ)

theorem readResponse_blank (l : ModemLine) (reads : List LineRead) :
    d.readResponse parserMethod params (l.blank ++ reads) =
      d.readResponse parserMethod params reads := by
  unfold ModemLine.blank
  split <;> rfl

theorem readResponse_line {l : ModemLine} (hl : l.Fits) (ls : List ModemLine) :
    d.readResponse parserMethod params (readsOf (l :: ls)) =
      match d.readOne parserMethod params (.of l.text) with
      | .done type d params => ⟨type, d, params, l.blank ++ readsOf ls⟩
      | .more d parserMethod params => d.readResponse parserMethod params (readsOf ls) := by
  rw [readsOf_cons hl, Device.readResponse]
  cases d.readOne parserMethod params (.of l.text) with
  | done type d params => rfl
  | more d parserMethod params => exact readResponse_blank d parserMethod params l (readsOf ls)

theorem readOne_next {l : ModemLine} (h : turn l.text = .next) :
    d.readOne parserMethod params (.of l.text) =
      .more (d.collect (.of l.text)) parserMethod params := by
  unfold Device.readOne
  rw [ModemLine.of_text, h]
  exact if_neg l.text_ne_nil

theorem readOne_done {l : ModemLine} {type : ResponseTypes}
    (h : turn l.text = .done type) :
    d.readOne parserMethod params (.of l.text) =
      .done type (d.collect (.of l.text)) params := by
  unfold Device.readOne
  rw [ModemLine.of_text, h]
  exact if_neg l.text_ne_nil

/-! ## The lines of a script -/

theorem readResponse_news {news : List Announcement}
    (hfits : ∀ n ∈ news, (ModemLine.nsonmi n).Fits) (ls : List ModemLine) :
    d.readResponse parserMethod params (readsOf (news.map .nsonmi ++ ls)) =
      (d.hear news).readResponse parserMethod params (readsOf ls) := by
  induction news generalizing d with
  | nil => rfl
  | cons n news ih =>
      rw [List.map_cons, List.cons_append, readResponse_line _ _ _ (hfits n List.mem_cons_self),
        readOne_next (l := .nsonmi n) d _ _ (turn_nsonmi n)]
      exact ih (d.collect (.of (ModemLine.nsonmi n).text))
        fun m hm => hfits m (List.mem_cons_of_mem n hm)

theorem final_fits : ModemLine.ok.Fits ∧ ModemLine.error.Fits :=
  ⟨⟨by decide, by decide⟩, ⟨by decide, by decide⟩⟩

theorem readResponse_ending (ending : Ending) :
    d.readResponse parserMethod params (readsOf ending.lines) =
      ⟨ending.type, d, params, []⟩ := by
  have hnothing : readsOf [] = [] := by simp [readsOf, printed]
  cases ending with
  | silence =>
      rw [Ending.lines, hnothing]
      rfl
  | ok =>
      refine (readResponse_line d parserMethod params final_fits.1 []).trans ?_
      rw [readOne_done d _ _ turn_final.1, (collect_final d).1, hnothing]
      rfl
  | error =>
      refine (readResponse_line d parserMethod params final_fits.2 []).trans ?_
      rw [readOne_done d _ _ turn_final.2, (collect_final d).2, hnothing]
      rfl

end Lines

/-- The parser takes the answer, and the device is left as it is. -/
theorem readOne_answer (d : Device) (params : SaraN2UDPPacketMetadata × Buffer)
    (a : SocketAnswer) :
    d.readOne (some udpReadSocketParser) params (.of (ModemLine.answer a).text) =
      .more d none (a.metadata, params.2.store 0 (hexText a.payload ++ [0])) := by
  unfold Device.readOne
  rw [ModemLine.of_text, collect_answer,
    show turn (ModemLine.answer a).text = .parse from turn_answer a]
  refine (if_neg (ModemLine.answer a).text_ne_nil).trans ?_
  simp only [ModemLine.text, udpReadSocketParser_answer]
  rfl

/-- The response to a whole script. -/
theorem readResponse_script (d : Device) (params : SaraN2UDPPacketMetadata × Buffer)
    {sc : Script} (hfits : sc.Fits) :
    d.readResponse (some udpReadSocketParser) params sc.reads =
      ⟨sc.ending.type, d.hear sc.news,
        match sc.answer with
        | none => params
        | some a => (a.metadata, params.2.store 0 (hexText a.payload ++ [0])), []⟩ := by
  have hnews : (d.hear sc.before).hear sc.after = d.hear sc.news :=
    List.foldl_append.symm
  have hbefore : ∀ n ∈ sc.before, (ModemLine.nsonmi n).Fits :=
    fun n hn => hfits _ (by simp [Script.lines, hn])
  have hafter : ∀ n ∈ sc.after, (ModemLine.nsonmi n).Fits :=
    fun n hn => hfits _ (by simp [Script.lines, hn])
  have hanswer : ∀ a ∈ sc.answer, (ModemLine.answer a).Fits :=
    fun a ha => hfits _ (by simp [Script.lines, Option.mem_def.mp ha])
  rw [Script.reads, Script.lines, readResponse_news _ _ _ hbefore]
  cases h : sc.answer with
  | none =>
      show Device.readResponse _ _ _ (readsOf ([] ++ _)) = _
      rw [List.nil_append, readResponse_news _ _ _ hafter, readResponse_ending, hnews]
  | some a =>
      show Device.readResponse _ _ _ (readsOf (.answer a :: ([] ++ _))) = _
      rw [readResponse_line _ _ _ (hanswer a h), readOne_answer, List.nil_append]
      simp only []
      rw [readResponse_news _ _ _ hafter, readResponse_ending, hnews]

/-- The response to another command. -/
theorem readResponse_other (d : Device) {news : List Announcement} {ending : Ending}
    (hfits : (⟨news, none, [], ending⟩ : Script).Fits) :
    d.readResponse none () (⟨news, none, [], ending⟩ : Script).reads =
      ⟨ending.type, d.hear news, (), []⟩ := by
  have hnews : ∀ n ∈ news, (ModemLine.nsonmi n).Fits :=
    fun n hn => hfits _ (by simp [Script.lines, hn])
  rw [Script.reads, Script.lines, readResponse_news _ _ _ hnews]
  exact readResponse_ending (d.hear news) none () ending

end NbIot
