import LayoutRules.Proofs.Text.Lines
import Mathlib.Data.List.Forall2

/-! Returns put in before line feeds. The first return before a feed belongs to the ending
of the line, so that only lines with a return of their own show a further one. -/
namespace LayoutRules.Lines

/-- Items, and the same items with one return put in directly before some of the feeds. -/
inductive Returned {α : Type} (ret feed : α) : List α → List α → Prop
  | done : Returned ret feed [] []
  | kept (item items others) (later : Returned ret feed items others) :
      Returned ret feed (item :: items) (item :: others)
  | returned (items others) (later : Returned ret feed items others) :
      Returned ret feed (feed :: items) (ret :: feed :: others)

section Returned
variable {α : Type} {ret feed : α} {items others line rest : List α}

theorem Returned.append (front : List α) (returned : Returned ret feed items others) :
    Returned ret feed (front ++ items) (front ++ others) := by
  induction front with
  | nil => exact returned
  | cons item front ih => exact .kept item _ _ ih

theorem Returned.of_line (noFeed : feed ∉ line)
    (returned : Returned ret feed (line ++ feed :: rest) others) :
    ∃ more, Returned ret feed rest more ∧
      (others = line ++ feed :: more ∨ others = line ++ [ret] ++ feed :: more) := by
  induction line generalizing others with
  | nil =>
    cases returned with
    | kept _ _ more later => exact ⟨more,later,.inl rfl⟩
    | returned _ more later => exact ⟨more,later,.inr rfl⟩
  | cons item line ih =>
    obtain ⟨differs,clear⟩ := not_or.mp (mt List.mem_cons.mpr noFeed)
    cases returned with
    | kept _ _ others later =>
      obtain ⟨more,rested,ends⟩ := ih clear later
      exact ⟨more,rested,ends.imp (congrArg (item :: ·)) (congrArg (item :: ·))⟩
    | returned => exact absurd rfl differs

theorem Returned.eq_of_last (noFeed : feed ∉ line) (returned : Returned ret feed line others) :
    others = line := by
  induction returned with
  | done => rfl
  | kept item items others later ih => rw [ih (mt (List.mem_cons_of_mem item) noFeed)]
  | returned => exact absurd List.mem_cons_self noFeed

variable [DecidableEq α]

/-- The lines are the same, except that lines with a return
before their ending may have it twice. -/
theorem Returned.lines (differ : ret ≠ feed) {lines : List (List α)}
    (cut : Cut ret feed items lines) (returned : Returned ret feed items others) :
    List.Forall₂ (fun line other => other = line ∨ other = line ++ [ret] ∧ ret ∈ items) lines
      (split ret feed others) := by
  induction cut generalizing others with
  | done =>
    cases returned
    exact .nil
  | unended line filled noFeed =>
    rw [returned.eq_of_last noFeed,split_last noFeed filled]
    exact .cons (.inl rfl) .nil
  | ended line rest lines noFeed later ih =>
    obtain ⟨more,rested,ends⟩ := returned.of_line noFeed
    have behind : List.Forall₂
        (fun former other => other = former ∨ other = former ++ [ret] ∧ ret ∈ line ++ feed :: rest)
        lines (split ret feed more) := by
      refine (ih rested).imp fun former other => Or.imp_right fun longer => ⟨longer.1,?_⟩
      exact List.mem_append_right line (List.mem_cons_of_mem feed longer.2)
    rcases ends with rfl | rfl
    · rw [split_line noFeed]
      exact .cons (.inl rfl) behind
    · have stillNoFeed : feed ∉ line ++ [ret] := by simp [noFeed,Ne.symm differ]
      rw [split_line stillNoFeed,withoutReturn_append]
      refine .cons ?_ behind
      rcases withoutReturn_cases ret line with whole | returns
      · exact .inl whole.symm
      · refine .inr ⟨returns,?_⟩
        rw [returns]
        simp

theorem Returned.split_eq (differ : ret ≠ feed) (free : ret ∉ items)
    (returned : Returned ret feed items others) :
    split ret feed others = split ret feed items := by
  have lines := returned.lines differ (cut_split ret feed items)
  have same : List.Forall₂
      (fun line other => line = other) (split ret feed items) (split ret feed others) := by
    refine lines.imp fun line other => ?_
    rintro (whole | ⟨_,inside⟩)
    · exact whole.symm
    · exact absurd inside free
  rw [List.forall₂_eq_eq_eq] at same
  exact same.symm

end Returned

theorem Returned.encode {text other : Text} (returned : Returned '\r' '\n' text other) :
    Returned 13 10 (Utf8.encode text) (Utf8.encode other) := by
  induction returned with
  | done => exact .done
  | kept c text other later ih =>
    rw [Utf8.encode_cons,Utf8.encode_cons]
    exact ih.append _
  | returned text other later ih => exact .returned _ _ ih

end LayoutRules.Lines
