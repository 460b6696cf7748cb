import LayoutRules.Proofs.Text.Utf8

/-! Slices of a text between two offsets into its UTF-8 form. There is a slice only where both
offsets lie between characters. A character below 0x80 is found by its byte, and what stands in
front of it and behind it are slices. -/
namespace LayoutRules.Utf8

/-- No character goes on across the offset: the byte there, if
there is one, is the first of a character. -/
def isBoundary (bytes : Bytes) (offset : Nat) : Bool :=
  offset = 0 || offset = bytes.length || bytes[offset]?.any fun byte => (tail? byte).isNone

/-- The part of a text between two offsets; nothing if one of them
is inside a character or behind the end. -/
def slice? (text : Text) (first last : Nat) : Option Text :=
  let bytes := encode text
  if first ≤ last ∧ isBoundary bytes first ∧ isBoundary bytes last then
    decode ((bytes.take last).drop first)
  else none

/-- The offset of the first byte that is the one of the mark. -/
def offset? (mark : Char) (text : Text) : Option Nat :=
  (encode text).findIdx? (· = mark.toNat.toUInt8)

/-- The offset of the end. -/
def size (text : Text) : Nat := (encode text).length

theorem size_append (front back : Text) : size (front ++ back) = size front + size back := by
  rw [size,encode_append,List.length_append]
  rfl

theorem isBoundary_append (front back : Text) :
    isBoundary (encode (front ++ back)) (size front) = true := by
  unfold isBoundary
  cases back with
  | nil => simp [size]
  | cons c back =>
    obtain ⟨lead,rest,first,leads⟩ := exists_lead c
    have found : (encode (front ++ c :: back))[size front]? = some lead := by
      simp [encode_append,encode_cons,first,size]
    simp [found,leads]

theorem slice?_append (front middle back : Text) :
    slice? (front ++ (middle ++ back)) (size front) (size front + size middle) = some middle := by
  have starts := isBoundary_append front (middle ++ back)
  have ends := isBoundary_append (front ++ middle) back
  rw [size_append,List.append_assoc] at ends
  have part : ((encode (front ++ (middle ++ back))).take (size front + size middle)).drop
      (size front) = encode middle := by
    simp only [encode_append,size,List.drop_take,List.drop_left,Nat.add_sub_cancel_left,
      List.take_left]
  unfold slice?
  dsimp only
  rw [if_pos ⟨Nat.le_add_right _ _,starts,ends⟩,part,decode_encode]

theorem slice?_front (front back : Text) : slice? (front ++ back) 0 (size front) = some front := by
  have part := slice?_append [] front back
  rwa [List.nil_append,show size [] = 0 from rfl,Nat.zero_add] at part

theorem slice?_back (front back : Text) :
    slice? (front ++ back) (size front) (size (front ++ back)) = some back := by
  have part := slice?_append front back []
  rwa [List.append_nil,← size_append] at part

section Mark
variable {mark : Char} {front : Text} (low : mark.toNat < 0x80) (absent : mark ∉ front)
include low absent

theorem offset?_absent : offset? mark front = none := by
  rw [offset?,List.findIdx?_eq_none_iff]
  intro byte member
  apply decide_eq_false
  rintro rfl
  exact absent ((mem_encode_iff front mark low).mp member)

theorem offset?_mark (tail : Text) : offset? mark (front ++ mark :: tail) = some (size front) := by
  have none := offset?_absent low absent
  rw [offset?] at none ⊢
  rw [encode_append,List.findIdx?_append,none,encode_cons,encodeChar_of_low low]
  simp [List.findIdx?_cons,size]

end Mark

/-- Behind a mark of one byte the text goes on at the next offset. -/
theorem slice?_behind {mark : Char} (low : mark.toNat < 0x80) (front tail : Text) :
    slice? (front ++ mark :: tail) (size front + 1) (size (front ++ mark :: tail)) = some tail := by
  have one : size [mark] = 1 := by simp [size,encode,encodeChar_of_low low]
  have part := slice?_back (front ++ [mark]) tail
  rwa [size_append front [mark],one,List.append_assoc] at part

end LayoutRules.Utf8
