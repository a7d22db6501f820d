import Fluxion.Proofs.Bracket.Pairing

/-! # Closing brackets left over

Where every opening bracket is closed, balance is a matter of counting: the closing brackets that
are left over are the surplus of the closing ones. Brackets around such a text close its first
surplus bracket instead of each other, so the last one is left over.
-/

namespace Fluxion.Mark

variable {ms : List Mark}

/-- A closing bracket closes one that is open, or is left over. -/
theorem add_count_opening_le (depth : Nat) (ms : List Mark) :
    depth + ms.count .opening ≤ stillOpen depth ms + ms.count .closing := by
  fun_induction stillOpen depth ms with
  | case1 depth => simp
  | case2 depth rest ih =>
      simp only [List.count_cons]
      grind
  | case3 depth rest ih =>
      simp only [List.count_cons]
      grind
  | case4 depth rest ih =>
      simp only [List.count_cons]
      grind

theorem add_count_opening_lt {depth : Nat} (h : depthAfter? depth ms = none) :
    depth + ms.count .opening < stillOpen depth ms + ms.count .closing := by
  fun_induction depthAfter? depth ms with
  | case1 => simp at h
  | case2 depth rest ih =>
      have behind := ih h
      simp only [stillOpen, List.count_cons]
      grind
  | case3 rest =>
      have behind := add_count_opening_le 0 rest
      simp only [stillOpen, List.count_cons]
      grind
  | case4 depth rest ih =>
      have behind := ih h
      simp only [stillOpen, List.count_cons]
      grind
  | case5 depth rest ih =>
      have behind := ih h
      simp only [stillOpen, List.count_cons]
      grind

theorem OpeningsClosed.count_le (h : OpeningsClosed ms) :
    ms.count .opening ≤ ms.count .closing := by
  have counts := add_count_opening_le 0 ms
  rw [openingsClosed_iff.1 h] at counts
  omega

/-- Nothing is left over if and only if the two counts agree. -/
theorem OpeningsClosed.balanced_iff_count (h : OpeningsClosed ms) :
    Balanced ms ↔ ms.count .closing = ms.count .opening := by
  constructor
  · exact fun balanced => balanced.2
  · intro total
    cases depth : depthAfter? 0 ms with
    | none =>
        have counts := add_count_opening_lt depth
        rw [openingsClosed_iff.1 h] at counts
        omega
    | some result =>
        have closed := stillOpen_of_depthAfter? depth
        rw [openingsClosed_iff.1 h] at closed
        rw [balanced_iff, depth, ← closed]

theorem stillOpen_succ_le (depth : Nat) (ms : List Mark) :
    stillOpen (depth + 1) ms ≤ stillOpen depth ms + 1 := by
  fun_induction stillOpen depth ms with
  | case1 => exact Nat.le_refl _
  | case2 depth rest ih => exact ih
  | case3 depth rest ih =>
      cases depth with
      | zero => exact Nat.le_succ _
      | succ depth => exact ih
  | case4 depth rest ih => exact ih

theorem OpeningsClosed.wrap (h : OpeningsClosed ms) :
    OpeningsClosed (.opening :: (ms ++ [.closing])) := by
  rw [openingsClosed_iff] at h ⊢
  have one := stillOpen_succ_le 0 ms
  simp only [stillOpen, stillOpen_append]
  omega

theorem OpeningsClosed.balanced_wrap_iff (h : OpeningsClosed ms) :
    Balanced (.opening :: (ms ++ [.closing])) ↔ Balanced ms := by
  rw [h.wrap.balanced_iff_count, h.balanced_iff_count]
  simp

theorem OpeningsClosed.not_paired_last (h : OpeningsClosed ms) (unbalanced : ¬ Balanced ms)
    (o : Nat) :
    ¬ Paired (.opening :: (ms ++ [.closing])) o (ms.length + 1) := by
  intro pair
  obtain ⟨before, inner, after, split, balanced, rfl, last⟩ := paired_iff_split.1 pair
  have sizes := congrArg List.length split
  simp only [List.length_cons, List.length_append, List.length_nil] at sizes
  obtain rfl : after = [] := List.eq_nil_of_length_eq_zero (by omega)
  cases before with
  | nil =>
      have body : ms = inner := List.append_cancel_right (List.cons.inj split).2
      exact unbalanced (body ▸ balanced)
  | cons first before =>
      -- the bracket that the last one would close is still open at the end of the body
      have body : ms ++ [.closing] = (before ++ .opening :: inner) ++ [.closing] := by
        simpa using (List.cons.inj split).2
      rw [List.append_cancel_right body, openingsClosed_iff, stillOpen_append, stillOpen,
        balanced.stillOpen_eq] at h
      exact absurd h (Nat.succ_ne_zero _)

end Fluxion.Mark
