import LayoutRules.Proofs.Text.Numeral
import LayoutRules.Proofs.Toml.Steps
import Mathlib.Tactic.IntervalCases

/-! A decimal number at the end of its line. Dates, times and floats are tried before integers, but
each of them needs a mark behind its first digits, and there only stands the end of the line. -/
namespace LayoutRules

namespace Numeral

theorem eq_zero_of_digit : ∀ d < 10, digit d = '0' → d = 0 := by decide

/-- Only the number zero starts with a zero. -/
theorem ofNat_head (n : Nat) :
    ∃ d tail, d < 10 ∧ ofNat n = digit d :: tail ∧ (digit d = '0' → n = 0) := by
  fun_induction ofNat n with
  | case1 n bound => exact ⟨n,[],bound,rfl,eq_zero_of_digit n bound⟩
  | case2 n more ih =>
    obtain ⟨d,tail,bound,front,zero⟩ := ih
    refine ⟨d,tail ++ [digit (n % 10)],bound,by rw [front,List.cons_append],fun same => ?_⟩
    have less := zero same
    omega

end Numeral

namespace Toml.Scan
variable {figures rest : Text} {n : Nat}

theorem isDigit_ofNat (n : Nat) : ∀ c ∈ Numeral.ofNat n, isDigit 10 c = true := by
  intro c member
  obtain ⟨d,bound,rfl⟩ := Numeral.mem_ofNat member
  rw [isDigit,Numeral.digitValue_digit d bound]
  simpa using bound

theorem isDigit_of_fold {base start total : Nat} {text : Text}
    (folded : text.foldlM (fun total c => do
      let d ← Numeral.digitValue? c
      if d < base then some (total * base + d) else none) start = some total) :
    ∀ c ∈ text, isDigit base c = true := by
  induction text generalizing start with
  | nil => nofun
  | cons c text ih =>
    rw [List.foldlM_cons] at folded
    obtain ⟨middle,first,others⟩ := Option.bind_eq_some_iff.mp folded
    obtain ⟨d,digit,within⟩ := Option.bind_eq_some_iff.mp first
    have below : d < base := by
      by_contra beyond
      rw [if_neg beyond] at within
      cases within
    exact List.forall_mem_cons.mpr ⟨by simpa [isDigit,digit] using below,ih others⟩

theorem satisfying_of_figures {accepts : Char → Bool}
    (apart : ∀ c, accepts c = true → isDigit 10 c = false ∧ c ≠ '\n')
    (digits : ∀ c ∈ figures, isDigit 10 c = true) (rest : Text) :
    satisfying accepts (figures ++ '\n' :: rest) = none := by
  apply satisfying_of_head
  have refused {c : Char} (other : isDigit 10 c = true ∨ c = '\n') : accepts c = false := by
    by_contra accepted
    obtain ⟨digit,feed⟩ := apart c (eq_true_of_ne_false accepted)
    rcases other with same | same
    · cases digit.symm.trans same
    · exact feed same
  cases figures with
  | nil => exact refused (.inr rfl)
  | cons c figures => exact refused (.inl (digits c List.mem_cons_self))

theorem field_of_digits {count least most : Nat} {text written : Text}
    (taken : field count least most text = some (written,rest)) :
    rest = text.drop count ∧ (text.take count).length = count ∧
      ∀ c ∈ text.take count, isDigit 10 c = true := by
  rw [field,bind_of_some (rest_eq _),bind_of_some (rest_eq _),bind_of_some (set_eq _ _)] at taken
  generalize valued : (if (text.take count).length = count then Numeral.value? 10 (text.take count)
    else none) = found at taken
  cases found with
  | none => cases taken
  | some n =>
    have filled : (text.take count).length = count := by
      by_contra short
      rw [if_neg short] at valued
      cases valued
    rw [if_pos filled] at valued
    dsimp only at taken
    split at taken
    · cases taken
      exact ⟨rfl,filled,isDigit_of_fold valued⟩
    · cases taken

/-- No mark follows a field of digits where there is nothing
but digits up to the end of the line. -/
theorem field_mark_of_figures {α : Type} {between : Char} {next : Text → Text → Scan α}
    (other : isDigit 10 between = false) (visible : between ≠ '\n')
    (digits : ∀ c ∈ figures, isDigit 10 c = true) (count least most : Nat) (rest : Text) :
    (field count least most >>= fun written => mark [between] >>= next written)
      (figures ++ '\n' :: rest) = none := by
  cases taken : field count least most (figures ++ '\n' :: rest) with
  | none => exact bind_of_none taken
  | some given =>
    obtain ⟨written,left⟩ := given
    obtain ⟨rfl,filled,numeral⟩ := field_of_digits taken
    -- The digits of the field are among the figures, as the end of the line is no digit.
    have within : count ≤ figures.length := by
      by_contra beyond
      obtain ⟨more,rfl⟩ := Nat.exists_eq_add_of_lt (Nat.lt_of_not_le beyond)
      have feed : '\n' ∈ (figures ++ '\n' :: rest).take (figures.length + more + 1) := by
        rw [Nat.add_assoc,List.take_length_add_append]
        simp
      exact absurd (numeral _ feed) (by decide)
    rw [bind_of_some taken,List.drop_append_of_le_length within]
    refine bind_of_none (bind_of_none
      (satisfying_of_figures ?_ (fun c member => digits c (List.mem_of_mem_drop member)) rest))
    simpa using ⟨other,visible⟩

theorem moment_of_figures (digits : ∀ c ∈ figures, isDigit 10 c = true) (rest : Text) :
    moment (figures ++ '\n' :: rest) = none := by
  have date : date (figures ++ '\n' :: rest) = none :=
    field_mark_of_figures rfl (by decide) digits 4 0 9999 rest
  have time : timeOfDay (figures ++ '\n' :: rest) = none :=
    field_mark_of_figures rfl (by decide) digits 2 0 23 rest
  rw [moment,orElse_of_none (bind_of_none date),time]

theorem moreDigits_figures (digits : ∀ c ∈ figures, isDigit 10 c = true) (rest : Text) :
    moreDigits 10 (figures ++ '\n' :: rest) = some (figures,'\n' :: rest) := by
  induction figures with
  | nil => rfl
  | cons c figures ih =>
    have digit := digits c List.mem_cons_self
    have underscore : c ≠ '_' := by rintro rfl; exact absurd digit (by decide)
    have others := ih fun other member => digits other (List.mem_cons_of_mem _ member)
    rw [List.cons_append,moreDigits,if_neg underscore,if_pos digit,others]
    rfl

theorem sign_digit {d : Nat} (bound : d < 10) (rest : Text) :
    sign (Numeral.digit d :: rest) = some (false,Numeral.digit d :: rest) := by
  interval_cases d <;> rfl

theorem specialFloat_digit {d : Nat} (bound : d < 10) (rest : Text) :
    specialFloat (Numeral.digit d :: rest) = none := by
  interval_cases d <;> rfl

theorem value_digit {d : Nat} (bound : d < 10) (depth : Nat) (rest : Text) :
    value depth (Numeral.digit d :: rest) = number (Numeral.digit d :: rest) := by
  cases depth <;> interval_cases d <;> rfl

theorem wholeDigits_ofNat (n : Nat) (rest : Text) :
    wholeDigits (Numeral.ofNat n ++ '\n' :: rest) = some (Numeral.ofNat n,'\n' :: rest) := by
  obtain ⟨d,tail,bound,front,zero⟩ := Numeral.ofNat_head n
  by_cases none : Numeral.digit d = '0'
  · rw [zero none,Numeral.ofNat]
    rfl
  · have digits := isDigit_ofNat n
    rw [front,List.forall_mem_cons] at digits
    have filled : ¬(some (Numeral.digit d) == some '0') = true := by simpa using none
    rw [front,List.cons_append,wholeDigits,bind_of_some (peek_cons _ _),if_neg filled,Scan.digits,
      bind_of_some (satisfying_cons digits.1 _),bind_of_some (moreDigits_figures digits.2 rest)]
    rfl

theorem sign_ofNat (n : Nat) (rest : Text) :
    sign (Numeral.ofNat n ++ rest) = some (false,Numeral.ofNat n ++ rest) := by
  obtain ⟨d,tail,bound,front,_⟩ := Numeral.ofNat_head n
  rw [front,List.cons_append,sign_digit bound]

theorem float_ofNat (n : Nat) (rest : Text) : float (Numeral.ofNat n ++ '\n' :: rest) = none := by
  obtain ⟨d,tail,bound,front,_⟩ := Numeral.ofNat_head n
  have plain : decimal (Numeral.ofNat n ++ '\n' :: rest) = none := by
    rw [decimal,bind_of_some (sign_ofNat n _),bind_of_some (wholeDigits_ofNat n rest)]
    rfl
  rw [float,orElse_of_none plain,front,List.cons_append,specialFloat_digit bound]

theorem integer_ofNat (bound : n < 0x8000000000000000) (rest : Text) :
    integer (Numeral.ofNat n ++ '\n' :: rest) = some ((n : Int),'\n' :: rest) := by
  have unmarked (mark : Char) (other : mark ≠ '\n') :
      ['0',mark].isPrefixOf (Numeral.ofNat n ++ '\n' :: rest) = false := by
    obtain ⟨d,tail,small,front,zero⟩ := Numeral.ofNat_head n
    by_cases none : Numeral.digit d = '0'
    · rw [zero none,Numeral.ofNat]
      change ['0',mark].isPrefixOf ('0' :: '\n' :: rest) = false
      rw [List.isPrefixOf_cons_cons_self]
      exact isPrefixOf_of_head fun same => other (Option.some.inj same).symm
    · rw [front]
      exact isPrefixOf_of_head fun same => none (Option.some.inj same)
  have within : -0x8000000000000000 ≤ (n : Int) ∧ (n : Int) < 0x8000000000000000 := by omega
  rw [integer,bind_of_some (startsWith_of_not (unmarked 'x' (by decide))),if_neg (by decide),
    bind_of_some (startsWith_of_not (unmarked 'o' (by decide))),if_neg (by decide),
    bind_of_some (startsWith_of_not (unmarked 'b' (by decide))),if_neg (by decide),
    bind_of_some (sign_ofNat n _),bind_of_some (wholeDigits_ofNat n rest),Numeral.value_ofNat]
  rw [if_neg (by decide),Option.getD_some,inRange,if_pos within]
  rfl

theorem value_ofNat (bound : n < 0x8000000000000000) (depth : Nat) (rest : Text) :
    value depth (Numeral.ofNat n ++ '\n' :: rest) = some (.integer n,'\n' :: rest) := by
  obtain ⟨d,tail,small,front,_⟩ := Numeral.ofNat_head n
  have tried : value depth (Numeral.ofNat n ++ '\n' :: rest) =
      number (Numeral.ofNat n ++ '\n' :: rest) := by
    rw [front,List.cons_append,value_digit small]
  rw [tried,number,orElse_of_none (map_of_none (moment_of_figures (isDigit_ofNat n) rest)),
    orElse_of_none (map_of_none (float_ofNat n rest)),map_of_some (integer_ofNat bound rest)]

end Toml.Scan
end LayoutRules
