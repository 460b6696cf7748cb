import LayoutRules.Proofs.Text.Spacing
import LayoutRules.Text.Numeral

/-! Decimal numerals read back. A numeral is a word of digits, by which it can be told from what
stands around it, and a reader of machine numbers gives the number that the digits denote. -/
namespace LayoutRules.Numeral
open Text

theorem digitValue_digit : ∀ d < 10, digitValue? (digit d) = some d := by decide

theorem isBlank_digit : ∀ d < 10, isBlank (digit d) = false := by decide

theorem value_append_digit (text : Text) {d : Nat} (bound : d < 10) :
    value? 10 (text ++ [digit d]) = (value? 10 text).map (· * 10 + d) := by
  unfold value?
  rw [List.foldlM_append]
  cases List.foldlM (m := Option) _ 0 text with
  | none => rfl
  | some total => simp [digitValue_digit d bound,bound]

theorem value_ofNat (n : Nat) : value? 10 (ofNat n) = some n := by
  fun_induction ofNat n with
  | case1 n bound => exact (value_append_digit [] bound).trans (by simp [value?])
  | case2 n more ih =>
    rw [value_append_digit _ (Nat.mod_lt n (by decide)),ih]
    simp only [Option.map_some,Option.some.injEq]
    omega

theorem ofNat_injective {n m : Nat} (same : ofNat n = ofNat m) : n = m := by
  have values := congrArg (value? 10) same
  rw [value_ofNat,value_ofNat] at values
  exact Option.some.inj values

theorem mem_ofNat {n : Nat} {c : Char} (member : c ∈ ofNat n) : ∃ d < 10, c = digit d := by
  fun_induction ofNat n with
  | case1 n bound => exact ⟨n,bound,List.mem_singleton.mp member⟩
  | case2 n more ih =>
    rcases List.mem_append.mp member with front | last
    · exact ih front
    · exact ⟨n % 10,Nat.mod_lt n (by decide),List.mem_singleton.mp last⟩

theorem not_mem_ofNat {c : Char} (other : ∀ d < 10, c ≠ digit d) (n : Nat) : c ∉ ofNat n := by
  intro member
  obtain ⟨d,bound,same⟩ := mem_ofNat member
  exact other d bound same

theorem isField_ofNat (n : Nat) : IsField (ofNat n) := by
  refine ⟨⟨?_,?_⟩,Uncommented.of_not_mem (not_mem_ofNat (by decide) n)⟩
  · rw [ofNat]
    split <;> simp
  · intro c member
    obtain ⟨d,bound,rfl⟩ := mem_ofNat member
    exact isBlank_digit d bound

section Reading
variable {total n : Nat} {text : Text}

/-- The number that digits denote behind a number that was read before. -/
def valueFrom (total : Nat) (text : Text) : Option Nat :=
  text.foldlM (fun total c => do
    let d ← digitValue? c
    if d < 10 then some (total * 10 + d) else none) total

theorem valueFrom_cons {c : Char} (found : valueFrom total (c :: text) = some n) :
    ∃ d, digitValue? c = some d ∧ d < 10 ∧ valueFrom (total * 10 + d) text = some n := by
  unfold valueFrom at found
  rw [List.foldlM_cons] at found
  cases digit : digitValue? c with
  | none =>
    rw [digit] at found
    cases found
  | some d =>
    simp only [digit,Option.bind_eq_bind,Option.bind_some] at found
    split at found
    · exact ⟨d,rfl,‹_›,found⟩
    · cases found

theorem le_of_valueFrom (found : valueFrom total text = some n) : total ≤ n := by
  induction text generalizing total with
  | nil => exact Nat.le_of_eq (Option.some.inj found)
  | cons c text ih =>
    obtain ⟨d,_,_,later⟩ := valueFrom_cons found
    have least := ih later
    omega

/-- The digits only make the value grow, so that it never leaves the range if it ends there. -/
theorem readDigits_of_value (found : valueFrom total text = some n)
    (bound : n < 0x8000000000000000) :
    readDigits false total text = .ok n := by
  induction text generalizing total with
  | nil =>
    cases found
    rfl
  | cons c text ih =>
    obtain ⟨d,digit,small,later⟩ := valueFrom_cons found
    have least := le_of_valueFrom later
    simp only [readDigits,digit,small,if_true,Bool.false_eq_true,if_false]
    rw [if_neg (by omega),if_neg (by omega)]
    exact ih later

theorem unsigned_of_value {c : Char} (found : value? 10 (c :: text) = some n) :
    c ≠ '+' ∧ c ≠ '-' := by
  obtain ⟨d,digit,_,_⟩ := valueFrom_cons found
  constructor <;> rintro rfl <;> cases digit

theorem readInt64_unsigned {c : Char} (unsigned : c ≠ '+' ∧ c ≠ '-') :
    readInt64 (c :: text) = readDigits false 0 (c :: text) := by
  unfold readInt64
  split <;> simp_all

/-- Digits are read to the number they denote, with zeros in front or without. -/
theorem readUInt32_of_value {number : UInt32} (filled : text ≠ [])
    (found : value? 10 text = some number.toNat) :
    readUInt32 text = .ok number := by
  have bound := number.toNat_lt
  obtain ⟨c,rest,rfl⟩ := List.exists_cons_of_ne_nil filled
  have read : readInt64 (c :: rest) = .ok (number.toNat : Int) :=
    (readInt64_unsigned (unsigned_of_value found)).trans (readDigits_of_value found (by omega))
  have inside : (0 : Int) ≤ number.toNat ∧ (number.toNat : Int) < 0x100000000 := by omega
  simp only [readUInt32,read,bind,Except.bind]
  rw [if_pos inside,Int.toNat_natCast]
  exact congrArg _ number.ofNat_toNat

end Reading

end LayoutRules.Numeral
