import LayoutRules.Proofs.Text.Utf8
import LayoutRules.Text.Lines

/-! A sequence has exactly one cut into lines. Lines that are put together with one line
feed between them are the lines of the whole again, as texts and in their UTF-8 form. -/
namespace LayoutRules.Lines

section Split
variable {α : Type} [DecidableEq α] {ret feed : α}

def withoutReturn (ret : α) (line : List α) : List α :=
  if line.getLast? = some ret then line.dropLast else line

theorem withoutReturn_cons (item next : α) (line : List α) :
    withoutReturn ret (item :: next :: line) = item :: withoutReturn ret (next :: line) := by
  unfold withoutReturn
  rw [List.getLast?_cons_cons,List.dropLast_cons_of_ne_nil (List.cons_ne_nil next line)]
  split <;> rfl

theorem withoutReturn_append (ret : α) (line : List α) :
    withoutReturn ret (line ++ [ret]) = line := by
  simp [withoutReturn]

theorem withoutReturn_cases (ret : α) (line : List α) :
    withoutReturn ret line = line ∨ line = withoutReturn ret line ++ [ret] := by
  by_cases returns : line.getLast? = some ret
  · obtain ⟨front,rfl⟩ := List.getLast?_eq_some_iff.mp returns
    exact .inr (congrArg (· ++ [ret]) (withoutReturn_append ret front).symm)
  · exact .inl (if_neg returns)

theorem split_line {line : List α} (noFeed : feed ∉ line) (rest : List α) :
    split ret feed (line ++ feed :: rest) = withoutReturn ret line :: split ret feed rest := by
  induction line with
  | nil =>
    rw [List.nil_append,split,if_pos rfl]
    rfl
  | cons item line ih =>
    obtain ⟨differs,later⟩ := not_or.mp (mt List.mem_cons.mpr noFeed)
    rw [List.cons_append,split,if_neg (Ne.symm differs)]
    cases line with
    | nil =>
      have last : split ret feed (feed :: rest) = [] :: split ret feed rest := by
        rw [split,if_pos rfl]
      by_cases returns : item = ret
      · rw [if_pos ⟨returns,rfl⟩,List.nil_append,last,returns]
        simp [withoutReturn]
      · rw [if_neg fun both => returns both.1,List.nil_append,last]
        simp [withoutReturn,returns,extendFirst]
    | cons next line =>
      have goes : next ≠ feed := fun same => later (same ▸ List.mem_cons_self)
      rw [if_neg fun both => goes (Option.some.inj both.2),ih later,withoutReturn_cons]
      rfl

theorem split_last {line : List α} (noFeed : feed ∉ line) (filled : line ≠ []) :
    split ret feed line = [line] := by
  induction line with
  | nil => exact absurd rfl filled
  | cons item line ih =>
    obtain ⟨differs,later⟩ := not_or.mp (mt List.mem_cons.mpr noFeed)
    have goes : line.head? ≠ some feed := fun starts => later (List.mem_of_head? starts)
    rw [split,if_neg (Ne.symm differs),if_neg fun both => goes both.2]
    cases line with
    | nil => rfl
    | cons next line =>
      rw [ih later (List.cons_ne_nil next line)]
      rfl

/-- A sequence cut behind each of its feeds into lines, which lose the feed and one
return before it. -/
inductive Cut (ret feed : α) : List α → List (List α) → Prop
  | done : Cut ret feed [] []
  | unended (line) (filled : line ≠ []) (noFeed : feed ∉ line) : Cut ret feed line [line]
  | ended (line rest lines) (noFeed : feed ∉ line) (later : Cut ret feed rest lines) :
      Cut ret feed (line ++ feed :: rest) (withoutReturn ret line :: lines)

theorem Cut.eq_split {items : List α} {lines : List (List α)} (cut : Cut ret feed items lines) :
    lines = split ret feed items := by
  induction cut with
  | done => rfl
  | unended line filled noFeed => exact (split_last noFeed filled).symm
  | ended line rest lines noFeed later ih => rw [split_line noFeed,ih]

theorem cut_split (ret feed : α) (items : List α) : Cut ret feed items (split ret feed items) := by
  by_cases feeds : feed ∈ items
  · obtain ⟨line,rest,whole,noFeed⟩ := List.eq_append_cons_of_mem feeds
    have shorter : rest.length < items.length := by
      rw [whole,List.length_append,List.length_cons]
      omega
    rw [whole,split_line noFeed]
    exact .ended line rest _ noFeed (cut_split ret feed rest)
  · by_cases filled : items = []
    · rw [filled]
      exact .done
    · rw [split_last feeds filled]
      exact .unended items filled feeds
termination_by items.length

theorem cut_iff {items : List α} {lines : List (List α)} :
    Cut ret feed items lines ↔ lines = split ret feed items := by
  constructor
  · exact Cut.eq_split
  · rintro rfl
    exact cut_split ret feed items

/-- A sequence that leaves no line open: it is empty or ends with a feed. -/
def Closed (feed : α) (items : List α) : Prop := items = [] ∨ items.getLast? = some feed

theorem Cut.append {front back : List α} {lines others : List (List α)}
    (cut : Cut ret feed front lines) (closed : Closed feed front)
    (later : Cut ret feed back others) : Cut ret feed (front ++ back) (lines ++ others) := by
  induction cut with
  | done => exact later
  | unended line filled noFeed =>
    rcases closed with empty | ends
    · exact absurd empty filled
    · exact absurd (List.mem_of_getLast? ends) noFeed
  | ended line rest lines noFeed more ih =>
    have still : Closed feed rest := by
      by_cases empty : rest = []
      · exact .inl empty
      · obtain ⟨last,ends⟩ := Option.isSome_iff_exists.mp (List.getLast?_isSome.mpr empty)
        rcases closed with nothing | closed
        · simp at nothing
        · rw [List.getLast?_append,List.getLast?_cons,ends] at closed
          exact .inr (ends.trans closed)
    rw [List.append_assoc,List.cons_append,List.cons_append]
    exact .ended line (rest ++ back) _ noFeed (ih still)

theorem split_append {front : List α} (closed : Closed feed front) (back : List α) :
    split ret feed (front ++ back) = split ret feed front ++ split ret feed back :=
  ((cut_split ret feed front).append closed (cut_split ret feed back)).eq_split.symm

theorem split_intercalate (lines : List (List α))
    (plain : ∀ line ∈ lines, line ≠ [] ∧ ret ∉ line ∧ feed ∉ line) :
    split ret feed (List.intercalate [feed] lines) = lines := by
  induction lines with
  | nil => rfl
  | cons line lines ih =>
    obtain ⟨filled,noReturn,noFeed⟩ := plain line List.mem_cons_self
    have later := ih fun other member => plain other (List.mem_cons_of_mem _ member)
    cases lines with
    | nil =>
      rw [List.intercalate_singleton]
      exact split_last noFeed filled
    | cons next lines =>
      have kept : withoutReturn ret line = line :=
        if_neg fun last => noReturn (List.mem_of_getLast? last)
      rw [List.intercalate_cons_cons,List.append_assoc,List.singleton_append,
        split_line noFeed,kept,later]

end Split

section Encoding

theorem withoutReturn_encode (line : Text) :
    withoutReturn 13 (Utf8.encode line) = Utf8.encode (withoutReturn '\r' line) := by
  by_cases returns : line.getLast? = some '\r'
  · obtain ⟨front,rfl⟩ := List.getLast?_eq_some_iff.mp returns
    rw [withoutReturn_append,Utf8.encode_append]
    exact withoutReturn_append 13 (Utf8.encode front)
  · have noByte : (Utf8.encode line).getLast? ≠ some 13 := by
      intro ends
      obtain ⟨front,split⟩ := List.getLast?_eq_some_iff.mp ends
      have low : ('\r' : Char).toNat < 0x80 := by decide
      obtain ⟨one,two,rfl,_,empty⟩ := (Utf8.encode_eq_append_iff low).mp split
      rw [Utf8.encode_eq_nil_iff.mp empty] at returns
      exact returns List.getLast?_concat
    rw [withoutReturn,withoutReturn,if_neg returns,if_neg noByte]

theorem Cut.encode {text : Text} {lines : List Text} (cut : Cut '\r' '\n' text lines) :
    Cut 13 10 (Utf8.encode text) (lines.map Utf8.encode) := by
  have noByte {line : Text} (noFeed : '\n' ∉ line) : 10 ∉ Utf8.encode line :=
    mt (Utf8.mem_encode_iff line '\n' (by decide)).mp noFeed
  induction cut with
  | done => exact .done
  | unended line filled noFeed =>
    exact .unended _ (mt Utf8.encode_eq_nil_iff.mp filled) (noByte noFeed)
  | ended line rest lines noFeed later ih =>
    rw [List.map_cons,← withoutReturn_encode,Utf8.encode_append,Utf8.encode_cons]
    exact .ended _ _ _ (noByte noFeed) ih

/-- A text is cut where its encoding is. -/
theorem ofBytes_encode (text : Text) : ofBytes (Utf8.encode text) = (ofText text).map Utf8.encode :=
  (cut_split '\r' '\n' text).encode.eq_split.symm

/-- Lines that are texts are the lines of a text: what is cut off them stands for itself. -/
theorem Cut.exists_text {bytes : Bytes} {lines : List Bytes} (cut : Cut 13 10 bytes lines)
    (texts : ∀ line ∈ lines, ∃ text, Utf8.encode text = line) :
    ∃ text, Utf8.encode text = bytes := by
  induction cut with
  | done => exact ⟨[],rfl⟩
  | unended line filled noFeed => exact texts line List.mem_cons_self
  | ended line rest lines noFeed later ih =>
    obtain ⟨text,encoded⟩ := texts _ List.mem_cons_self
    obtain ⟨more,follows⟩ := ih fun other member => texts other (List.mem_cons_of_mem _ member)
    rcases withoutReturn_cases 13 line with kept | returned
    · refine ⟨text ++ '\n' :: more,?_⟩
      rw [Utf8.encode_append,Utf8.encode_cons,encoded,kept,follows]
      rfl
    · refine ⟨text ++ '\r' :: '\n' :: more,?_⟩
      generalize withoutReturn 13 line = kept at encoded returned
      rw [Utf8.encode_append,Utf8.encode_cons,Utf8.encode_cons,encoded,follows,returned,
        List.append_assoc]
      rfl

/-- To decode the lines of bytes is to decode the bytes and to take the lines of their text. -/
theorem mapM_decode_ofBytes (bytes : Bytes) :
    (ofBytes bytes).mapM Utf8.decode = (Utf8.decode bytes).map ofText := by
  cases decoded : Utf8.decode bytes with
  | some text =>
    obtain rfl := Utf8.decode_eq_some_iff.mp decoded
    exact Utf8.mapM_decode_eq_some_iff.mpr (ofBytes_encode text)
  | none =>
    rw [Option.map_none,Option.eq_none_iff_forall_ne_some]
    intro texts all
    have texts : ∀ line ∈ ofBytes bytes, ∃ text, Utf8.encode text = line := by
      intro line member
      rw [Utf8.mapM_decode_eq_some_iff.mp all] at member
      obtain ⟨text,_,encoded⟩ := List.mem_map.mp member
      exact ⟨text,encoded⟩
    obtain ⟨text,encoded⟩ := (cut_split 13 10 bytes).exists_text texts
    exact Utf8.decode_eq_none_iff.mp decoded text encoded

theorem ofBytes_encode_intercalate (lines : List Text)
    (plain : ∀ line ∈ lines, line ≠ [] ∧ '\r' ∉ line ∧ '\n' ∉ line) :
    ofBytes (Utf8.encode (List.intercalate ['\n'] lines)) = lines.map Utf8.encode := by
  have split : ofText (List.intercalate ['\n'] lines) = lines := split_intercalate lines plain
  rw [ofBytes_encode,split]

end Encoding

end LayoutRules.Lines
