import LayoutRules.Proofs.Mapping.Warnings
import Mathlib.Data.List.ReduceOption

/-! A table is decoded line by line, and it might as well be decoded as a whole: no feed is
part of a longer character, so that bytes make up a text exactly if each of their lines
does. Then the table is that of the text, and else there is none. -/
namespace LayoutRules.Table
variable {path label : Path} {bytes : Bytes} {cause : Storage.Fault}

/-- What a line with its number holds. -/
def ofLine (path : Path) (line : Text × Nat) : Except Fault (Option Mapping) :=
  (Line.meaning line.1).mapError (.malformed path line.2 line.1)

/-- The mappings that the lines of a text hold, or the fault of the first line that is malformed. -/
def ofText (path : Path) (text : Text) : Except Fault Table :=
  List.reduceOption <$> ((Lines.ofText text).zipIdx 1).mapM (ofLine path)

theorem readLines_map_encode (path : Path) (number : Nat) (lines : List Text) :
    (readLines path number (lines.map Utf8.encode)).2 = List.reduceOption <$>
      (lines.zipIdx number).mapM (ofLine path) := by
  induction lines generalizing number with
  | nil => rfl
  | cons line lines ih =>
    rw [List.map_cons,readLines_encode,List.zipIdx_cons,List.mapM_cons,ih,ofLine]
    cases Line.meaning line with
    | error cause => rfl
    | ok found =>
      cases (lines.zipIdx (number + 1)).mapM (ofLine path) with
      | error fault => cases found <;> rfl
      | ok rest => cases found <;> rfl

theorem read_encode (path : Path) (text : Text) :
    (read path (Utf8.encode text)).2 = ofText path text := by
  rw [read_outcome,Lines.ofBytes_encode,readLines_map_encode,ofText]

/-- Only bytes that make up no text are found to be no text. -/
theorem encode_ne_of_unreadable (fails : (read path bytes).2 = .error (.unreadable label cause))
    (text : Text) :
    Utf8.encode text ≠ bytes := by
  rintro rfl
  rw [read_outcome,← verdict_iff] at fails
  cases fails with
  | offence front bad rest table fault split holds offends =>
    cases offends with
    | undecodable _ foreign =>
      rw [Lines.ofBytes_encode] at split
      obtain ⟨line,_,encoded⟩ :=
        List.mem_map.mp (split ▸ List.mem_append_right front List.mem_cons_self)
      exact foreign line encoded

/-- Bytes from which a table was read make up a text. -/
theorem decode_ne_none_of_read {table : Table} (ok : (read path bytes).2 = .ok table) :
    Utf8.decode bytes ≠ none := by
  obtain ⟨front,lines,_⟩ := (read_eq_ok_iff.mp ok).exists_texts
  have whole := Lines.mapM_decode_ofBytes bytes
  rw [Utf8.mapM_decode_eq_some_iff.mpr lines] at whole
  intro foreign
  rw [foreign] at whole
  cases whole

/-- The lines of bytes decode as the bytes do as a whole. The table of bytes
that make up a text is the one of this text, and the reading cannot fail for
its bytes; from other bytes no table is read. -/
theorem lines_decode_as_whole (path : Path) (bytes : Bytes) :
    (Lines.ofBytes bytes).mapM Utf8.decode = (Utf8.decode bytes).map Lines.ofText ∧
    match Utf8.decode bytes with
    | some text =>
      (read path bytes).2 = ofText path text ∧
        ∀ label cause, (read path bytes).2 ≠ .error (.unreadable label cause)
    | none => ∃ fault, (read path bytes).2 = .error fault := by
  refine ⟨Lines.mapM_decode_ofBytes bytes,?_⟩
  cases decoded : Utf8.decode bytes with
  | some text =>
    obtain rfl := Utf8.decode_eq_some_iff.mp decoded
    refine ⟨read_encode path text,?_⟩
    intro label cause fails
    exact encode_ne_of_unreadable fails text rfl
  | none =>
    cases ended : (read path bytes).2 with
    | error fault => exact ⟨fault,rfl⟩
    | ok table => exact absurd decoded (decode_ne_none_of_read ended)

end LayoutRules.Table
