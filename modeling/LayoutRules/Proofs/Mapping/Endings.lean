import LayoutRules.Proofs.Mapping.Reader
import LayoutRules.Proofs.Text.Endings

/-! Tables with other line endings. A return put in before a feed is taken off with it, or it
stands as a blank at the end of the line: the line means the same, and only where the line
is shown as malformed can the return be seen. -/
namespace LayoutRules

theorem Line.meaning_append_blank {c : Char} (blank : Text.isBlank c = true) (line : Text) :
    meaning (line ++ [c]) = meaning line := by
  rw [meaning,meaning,read,read,fields_append_blank blank]

namespace Table

/-- Outcomes that are the same but for one further return in the malformed line that is shown. -/
inductive SameButReturn : Except Fault Table → Except Fault Table → Prop
  | same (outcome) : SameButReturn outcome outcome
  | returned (path number line cause) :
      SameButReturn (.error (.malformed path number line cause))
        (.error (.malformed path number (line ++ ['\r']) cause))

theorem SameButReturn.map {one two : Except Fault Table} (alike : SameButReturn one two)
    (f : Table → Table) :
    SameButReturn (f <$> one) (f <$> two) := by
  cases alike with
  | same => exact .same _
  | returned path number line cause => exact .returned path number line cause

/-- A line that may have a return more than another one is a text
exactly if the other is, and means the same. -/
theorem text_or_foreign {line other : Bytes} (alike : other = line ∨ other = line ++ [13]) :
    ((∀ text, Utf8.encode text ≠ line) ∧ ∀ text, Utf8.encode text ≠ other) ∨
      ∃ text shown, Utf8.encode text = line ∧ Utf8.encode shown = other ∧
        Line.meaning shown = Line.meaning text ∧
        (shown = text ∨ shown = text ++ ['\r']) := by
  have low : ('\r' : Char).toNat < 0x80 := by decide
  have longer : Utf8.decode (line ++ [13]) = (Utf8.decode line).map (· ++ ['\r']) :=
    Utf8.decode_append_low low line
  cases decoded : Utf8.decode line with
  | none =>
    rw [decoded] at longer
    refine .inl ⟨Utf8.decode_eq_none_iff.mp decoded,Utf8.decode_eq_none_iff.mp ?_⟩
    rcases alike with rfl | rfl
    · exact decoded
    · exact longer
  | some text =>
    rw [decoded] at longer
    have encoded := Utf8.decode_eq_some_iff.mp decoded
    rcases alike with rfl | rfl
    · exact .inr ⟨text,text,encoded,encoded,rfl,.inl rfl⟩
    · exact .inr ⟨text,text ++ ['\r'],encoded,Utf8.decode_eq_some_iff.mp longer,
        Line.meaning_append_blank (by decide) text,.inr rfl⟩

theorem readLines_returned {lines others : List Bytes}
    (alike : List.Forall₂ (fun line other => other = line ∨ other = line ++ [13]) lines others)
    (path : Path) (number : Nat) :
    SameButReturn (readLines path number lines).2 (readLines path number others).2 := by
  induction alike generalizing number with
  | nil => exact .same _
  | cons head tail ih =>
    rcases text_or_foreign head with ⟨foreign,also⟩ | ⟨text,shown,rfl,rfl,means,showing⟩
    · have first : Offence path number _ _ := .undecodable _ foreign
      have second : Offence path number _ _ := .undecodable _ also
      rw [first.readLines,second.readLines]
      exact .same _
    · rw [readLines_encode,readLines_encode,means]
      cases Line.meaning text with
      | error cause =>
        rcases showing with rfl | rfl
        · exact .same _
        · exact .returned path number text cause
      | ok found =>
        cases found with
        | none => exact ih (number + 1)
        | some mapping => exact (ih (number + 1)).map _

/-- Returns put in before line feeds leave a table without returns as it is read, with
the same reports, the same mappings and the same fault. In any table they leave the
mappings and the fault, but for a return at the end of the line that the fault shows. In
a text they are put in where they are in its encoding. -/
theorem line_endings_do_not_matter (path : Path) :
    (∀ text other, Lines.Returned '\r' '\n' text other →
      Lines.Returned 13 10 (Utf8.encode text) (Utf8.encode other)) ∧
    ∀ bytes other, Lines.Returned 13 10 bytes other →
      (13 ∉ bytes → read path other = read path bytes) ∧
        SameButReturn (read path bytes).2 (read path other).2 := by
  refine ⟨fun text other returned => returned.encode,?_⟩
  intro bytes other returned
  have differ : (13 : UInt8) ≠ 10 := by decide
  constructor
  · intro free
    have lines : Lines.ofBytes other = Lines.ofBytes bytes := returned.split_eq differ free
    rw [read,read,lines]
  · rw [read_outcome,read_outcome]
    apply readLines_returned
    exact (returned.lines differ (Lines.cut_split 13 10 bytes)).imp fun line other =>
      Or.imp_right And.left

theorem line_endings_do_not_matter_before_fault :
    let plain := Utf8.encode "us fr\n// x\nde(a) b c d".toList
    let mixed := Utf8.encode "us fr\n// x\r\nde(a) b c d".toList
    let returns := Utf8.encode "us fr\r\nde\r\n".toList
    let further := Utf8.encode "us fr\r\r\nde\r\r\n".toList
    Lines.Returned 13 10 plain mixed ∧ 13 ∉ plain ∧ Lines.Returned 13 10 returns further ∧
      (read ['t'] mixed).2 = .error (.malformed ['t'] 3 "de(a) b c d".toList
        (.layout (.secondVariant "de(a)".toList ['b']))) ∧
      SameButReturn (.error (.malformed ['t'] 2 "de".toList (.fieldCount 1)))
        (read ['t'] further).2 := by
  intro plain mixed returns further
  obtain ⟨encoded,unchanged⟩ := line_endings_do_not_matter ['t']
  have first : Lines.Returned 13 10 plain mixed :=
    encoded _ _ (.append "us fr\n// x".toList (.returned _ _ (.append "de(a) b c d".toList .done)))
  have second : Lines.Returned 13 10 returns further :=
    encoded _ _
      (.append "us fr\r".toList (.returned _ _ (.append "de\r".toList (.returned _ _ .done))))
  have free : 13 ∉ plain := by decide +kernel
  have whole := (unchanged plain mixed first).1 free
  have alike := (unchanged returns further second).2
  have fault : (read ['t'] plain).2 = .error (.malformed ['t'] 3 "de(a) b c d".toList
      (.layout (.secondVariant "de(a)".toList ['b']))) := by
    decide +kernel
  have shown : (read ['t'] returns).2 =
      .error (.malformed ['t'] 2 "de".toList (.fieldCount 1)) := by
    decide +kernel
  rw [shown] at alike
  exact ⟨first,free,second,by rw [whole,fault],alike⟩

end Table
end LayoutRules
