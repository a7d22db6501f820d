import Fluxion.Proofs.Bracket.Balance

/-! # Pairs of brackets

A pair is an opening bracket with the closing bracket that matches it. Searching forwards and
searching backwards find the same pairs, and what stands between the two is balanced. Where
every opening bracket of a first part is closed inside that part, the pairs of a text are
those of its parts.
-/

namespace Fluxion.Mark

/-- The positions of an opening bracket and of the closing bracket that matches it. -/
def Paired (ms : List Mark) (o c : Nat) : Prop :=
  ms[o]? = some .opening ∧ matching? ms o = some c

theorem paired_iff_closer? {ms : List Mark} {o c : Nat} :
    Paired ms o c ↔
      ms[o]? = some .opening ∧ ∃ k, closer? 0 (ms.drop (o + 1)) = some k ∧ c = o + 1 + k := by
  unfold Paired
  constructor
  · intro h
    obtain ⟨hopen, hmatch⟩ := h
    simp only [matching?, hopen] at hmatch
    obtain ⟨k, hk, rfl⟩ := Option.map_eq_some_iff.1 hmatch
    exact ⟨hopen, k, hk, rfl⟩
  · intro h
    obtain ⟨hopen, k, hk, rfl⟩ := h
    refine ⟨hopen, ?_⟩
    simp only [matching?, hopen]
    exact Option.map_eq_some_iff.2 ⟨k, hk, rfl⟩

/-- The two brackets of a pair stand around balanced marks. -/
theorem paired_iff_split {ms : List Mark} {o c : Nat} :
    Paired ms o c ↔
      ∃ before inner after, ms = before ++ .opening :: (inner ++ .closing :: after) ∧
        Balanced inner ∧ before.length = o ∧ o + 1 + inner.length = c := by
  rw [paired_iff_closer?]
  constructor
  · intro h
    obtain ⟨hopen, k, hk, rfl⟩ := h
    obtain ⟨inner, after, hrest, balanced, rfl⟩ := split_of_closer? hk
    obtain ⟨hlt, hget⟩ := List.getElem?_eq_some_iff.1 hopen
    refine ⟨ms.take o, inner, after, ?_, balanced, List.length_take_of_le (Nat.le_of_lt hlt), rfl⟩
    rw [← hrest, ← hget, List.getElem_cons_drop, List.take_append_drop]
  · intro h
    obtain ⟨before, inner, after, rfl, balanced, rfl, rfl⟩ := h
    refine ⟨by simp, inner.length, ?_, rfl⟩
    rw [List.drop_length_add_append]
    exact closer?_append balanced after

theorem matching?_closing_iff {ms : List Mark} {o c : Nat} (closing : ms[c]? = some .closing) :
    matching? ms c = some o ↔ Paired ms o c := by
  obtain ⟨hlt, hget⟩ := List.getElem?_eq_some_iff.1 closing
  have unfolded : matching? ms c = (closer? 0 (mirror (ms.take c))).map (c - 1 - ·) := by
    simp only [matching?, closing]
    rfl
  have behind : ms.take c ++ .closing :: ms.drop (c + 1) = ms := by
    rw [← hget, List.getElem_cons_drop, List.take_append_drop]
  have size : (ms.take c).length = c := List.length_take_of_le (Nat.le_of_lt hlt)
  simp only [unfolded, paired_iff_split, Option.map_eq_some_iff]
  constructor
  · intro h
    obtain ⟨k, hk, rfl⟩ := h
    obtain ⟨inner, before, hrest, balanced, rfl⟩ := split_of_closer? hk
    have split : ms.take c = mirror before ++ .opening :: mirror inner := by
      rw [← mirror_mirror (ms.take c), hrest, mirror_append, mirror_cons]
      simp [flip]
    have sizes := congrArg List.length split
    simp only [size, List.length_append, List.length_cons, length_mirror] at sizes
    refine ⟨mirror before, mirror inner, ms.drop (c + 1), ?_, balanced.mirror, ?_, ?_⟩
    · rw [← List.cons_append, ← List.append_assoc, ← split, behind]
    · rw [length_mirror]
      omega
    · rw [length_mirror]
      omega
  · intro h
    obtain ⟨before, inner, after, hms, balanced, rfl, rfl⟩ := h
    have split : ms.take (before.length + 1 + inner.length) = before ++ .opening :: inner := by
      rw [hms, ← List.cons_append, ← List.append_assoc]
      exact List.take_left' (by simp; omega)
    refine ⟨inner.length, ?_, by omega⟩
    simp only [split, mirror_append, mirror_cons, List.append_assoc]
    exact (closer?_append balanced.mirror (mirror before)).trans (by rw [length_mirror])

namespace Paired

variable {ms : List Mark} {o c o' c' : Nat}

theorem opening (h : Paired ms o c) : ms[o]? = some .opening := h.1

theorem closing (h : Paired ms o c) : ms[c]? = some .closing := by
  obtain ⟨before, inner, after, rfl, -, rfl, rfl⟩ := paired_iff_split.1 h
  rw [← List.cons_append, ← List.append_assoc, List.getElem?_append_right (by simp; omega)]
  simp only [List.length_append, List.length_cons]
  rw [show before.length + 1 + inner.length - (before.length + (inner.length + 1)) = 0 by omega]
  rfl

theorem lt (h : Paired ms o c) : o < c := by
  obtain ⟨_, _, _, -, -, -, rfl⟩ := paired_iff_split.1 h
  omega

theorem lt_length (h : Paired ms o c) : c < ms.length :=
  (List.getElem?_eq_some_iff.1 h.closing).1

theorem closing_unique (h : Paired ms o c) (h' : Paired ms o c') : c = c' :=
  Option.some.inj (h.2.symm.trans h'.2)

theorem opening_unique (h : Paired ms o c) (h' : Paired ms o' c) : o = o' := by
  have found := (matching?_closing_iff h.closing).2 h
  rw [(matching?_closing_iff h.closing).2 h'] at found
  exact (Option.some.inj found).symm

end Paired

/-- The bracket at the position has a match. -/
def Matched (ms : List Mark) (i : Nat) : Prop := (matching? ms i).isSome

theorem matched_closing_iff {ms : List Mark} {c : Nat} (closing : ms[c]? = some .closing) :
    Matched ms c ↔ ∃ o, Paired ms o c := by
  simp only [Matched, Option.isSome_iff_exists]
  exact exists_congr fun o => matching?_closing_iff closing

/-- Every closing bracket of balanced marks has a match, because the marks before it open more
    than they close. -/
theorem Balanced.matched_closing {ms : List Mark} (h : Balanced ms) {c : Nat}
    (closing : ms[c]? = some .closing) : Matched ms c := by
  obtain ⟨hlt, hget⟩ := List.getElem?_eq_some_iff.1 closing
  have longer := h.1 (ms.take (c + 1)) (List.take_prefix _ _)
  simp only [List.take_succ_eq_append_getElem hlt, hget, List.count_append] at longer
  simp only [Matched, matching?, closing]
  change ((closer? 0 (Mark.mirror (ms.take c))).map (c - 1 - ·)).isSome
  cases found : closer? 0 (Mark.mirror (ms.take c)) with
  | some k => rfl
  | none =>
      have small := count_closing_le_of_closer? found
      simp only [count_mirror] at small
      simp only [flip, List.count_singleton, reduceCtorEq, beq_iff_eq, if_false,
        if_true] at small longer
      omega

/-- Every opening bracket has a closing one. Closing brackets without an opening one may remain. -/
def OpeningsClosed (ms : List Mark) : Prop :=
  ∀ o, ms[o]? = some .opening → ∃ c, Paired ms o c

/-- How many brackets are open after the marks when `depth` were open before. A closing bracket with
    no bracket open changes nothing. -/
def stillOpen : Nat → List Mark → Nat
  | depth, [] => depth
  | depth, .opening :: rest => stillOpen (depth + 1) rest
  | depth, .closing :: rest => stillOpen (depth - 1) rest
  | depth, .neither :: rest => stillOpen depth rest

theorem stillOpen_append (depth : Nat) (left right : List Mark) :
    stillOpen depth (left ++ right) = stillOpen (stillOpen depth left) right := by
  fun_induction stillOpen depth left with
  | case1 => rfl
  | case2 depth rest ih => simpa only [List.cons_append, stillOpen] using ih
  | case3 depth rest ih => simpa only [List.cons_append, stillOpen] using ih
  | case4 depth rest ih => simpa only [List.cons_append, stillOpen] using ih

theorem stillOpen_of_depthAfter? {depth result : Nat} {ms : List Mark}
    (h : depthAfter? depth ms = some result) : stillOpen depth ms = result := by
  fun_induction depthAfter? depth ms with
  | case1 => exact Option.some.inj h
  | case2 depth rest ih => simpa only [stillOpen] using ih h
  | case3 => simp at h
  | case4 depth rest ih =>
      rw [stillOpen]
      exact ih h
  | case5 depth rest ih => simpa only [stillOpen] using ih h

theorem Balanced.stillOpen_eq {ms : List Mark} (h : Balanced ms) (depth : Nat) :
    stillOpen depth ms = depth :=
  stillOpen_of_depthAfter? (h.depth_kept depth)

theorem paired_cons_succ {m : Mark} {ms : List Mark} {o c : Nat} :
    Paired (m :: ms) (o + 1) (c + 1) ↔ Paired ms o c := by
  simp only [paired_iff_closer?, List.getElem?_cons_succ, List.drop_succ_cons]
  refine and_congr_right fun _ => exists_congr fun k => and_congr_right fun _ => ?_
  omega

theorem openingsClosed_cons {m : Mark} {ms : List Mark} :
    OpeningsClosed (m :: ms) ↔
      (m = .opening → (closer? 0 ms).isSome) ∧ OpeningsClosed ms := by
  constructor
  · intro closed
    refine ⟨fun first => ?_, fun o hopen => ?_⟩
    · subst first
      obtain ⟨c, hpair⟩ := closed 0 rfl
      obtain ⟨-, k, hk, -⟩ := paired_iff_closer?.1 hpair
      exact Option.isSome_iff_exists.2 ⟨k, hk⟩
    · obtain ⟨c, hpair⟩ := closed (o + 1) hopen
      obtain ⟨c, rfl⟩ : ∃ k, c = k + 1 := ⟨c - 1, by have := hpair.lt; omega⟩
      exact ⟨c, paired_cons_succ.1 hpair⟩
  · intro h o hopen
    obtain ⟨first, closed⟩ := h
    cases o with
    | zero =>
        obtain rfl := Option.some.inj hopen
        obtain ⟨k, hk⟩ := Option.isSome_iff_exists.1 (first rfl)
        exact ⟨0 + 1 + k, paired_iff_closer?.2 ⟨rfl, k, hk, rfl⟩⟩
    | succ o =>
        obtain ⟨c, hpair⟩ := closed o hopen
        exact ⟨c + 1, paired_cons_succ.2 hpair⟩

/-- No bracket is left open if and only if those inside the marks and the `depth` before them
    are all closed. -/
theorem stillOpen_eq_zero_iff {depth : Nat} {ms : List Mark} :
    stillOpen depth ms = 0 ↔
      OpeningsClosed ms ∧ (depth = 0 ∨ (closer? (depth - 1) ms).isSome) := by
  fun_induction stillOpen depth ms with
  | case1 depth =>
      have none : OpeningsClosed [] := fun o hopen => by simp at hopen
      simp [closer?, none]
  | case2 depth rest ih =>
      simp only [ih, openingsClosed_cons]
      cases depth with
      | zero => simp [and_comm]
      | succ depth =>
          have shallower : (closer? (depth + 1) rest).isSome → (closer? 0 rest).isSome :=
            isSome_closer?_zero
          simp [closer?]
          grind
  | case3 depth rest ih =>
      simp only [ih, openingsClosed_cons]
      cases depth with
      | zero => simp
      | succ depth => cases depth <;> simp [closer?]
  | case4 depth rest ih =>
      simp only [ih, openingsClosed_cons]
      simp [closer?]

theorem openingsClosed_iff {ms : List Mark} : OpeningsClosed ms ↔ stillOpen 0 ms = 0 := by
  simp [stillOpen_eq_zero_iff]

theorem Balanced.openingsClosed {ms : List Mark} (h : Balanced ms) : OpeningsClosed ms :=
  openingsClosed_iff.2 (h.stillOpen_eq 0)

theorem paired_append_right {left right : List Mark} {o c : Nat} :
    Paired (left ++ right) (left.length + o) (left.length + c) ↔ Paired right o c := by
  induction left with
  | nil => simp
  | cons m left ih =>
      simpa only [List.cons_append, List.length_cons, Nat.add_right_comm, paired_cons_succ] using ih

theorem Paired.append {left : List Mark} {o c : Nat} (h : Paired left o c) (right : List Mark) :
    Paired (left ++ right) o c := by
  obtain ⟨before, inner, after, rfl, balanced, ho, hc⟩ := paired_iff_split.1 h
  exact paired_iff_split.2 ⟨before, inner, after ++ right, by simp, balanced, ho, hc⟩

theorem paired_append_iff {left right : List Mark} {o c : Nat} (closed : OpeningsClosed left) :
    Paired (left ++ right) o c ↔
      Paired left o c ∨
        ∃ o' c', o = left.length + o' ∧ c = left.length + c' ∧ Paired right o' c' := by
  constructor
  · intro h
    by_cases small : o < left.length
    · left
      have hopen := h.opening
      rw [List.getElem?_append_left small] at hopen
      obtain ⟨c', h'⟩ := closed o hopen
      obtain rfl := h.closing_unique (h'.append right)
      exact h'
    · right
      have hlt := h.lt
      obtain ⟨o, rfl⟩ : ∃ k, o = left.length + k := ⟨o - left.length, by omega⟩
      obtain ⟨c, rfl⟩ : ∃ k, c = left.length + k := ⟨c - left.length, by omega⟩
      exact ⟨o, c, rfl, rfl, paired_append_right.1 h⟩
  · intro h
    cases h with
    | inl before => exact before.append right
    | inr behind =>
        obtain ⟨o, c, rfl, rfl, h⟩ := behind
        exact paired_append_right.2 h

theorem paired_wrap_iff {inner : List Mark} {o c : Nat} (balanced : Balanced inner) :
    Paired (.opening :: (inner ++ [.closing])) o c ↔
      (o = 0 ∧ c = inner.length + 1) ∨ ∃ o' c', o = o' + 1 ∧ c = c' + 1 ∧ Paired inner o' c' := by
  have outer : Paired (.opening :: (inner ++ [.closing])) 0 (inner.length + 1) :=
    paired_iff_split.2 ⟨[], inner, [], rfl, balanced, rfl, by simp; omega⟩
  have last : ∀ o c, ¬ Paired [.closing] o c := by
    intro o c h
    have hopen := h.opening
    cases o <;> simp at hopen
  constructor
  · intro h
    cases o with
    | zero => exact .inl ⟨rfl, h.closing_unique outer⟩
    | succ o =>
        have hlt := h.lt
        obtain ⟨c, rfl⟩ : ∃ k, c = k + 1 := ⟨c - 1, by omega⟩
        cases (paired_append_iff balanced.openingsClosed).1 (paired_cons_succ.1 h) with
        | inl inside => exact .inr ⟨o, c, rfl, rfl, inside⟩
        | inr behind =>
            obtain ⟨_, _, -, -, h⟩ := behind
            exact absurd h (last _ _)
  · intro h
    cases h with
    | inl first =>
        obtain ⟨rfl, rfl⟩ := first
        exact outer
    | inr inside =>
        obtain ⟨o, c, rfl, rfl, h⟩ := inside
        exact paired_cons_succ.2 (h.append _)

theorem Paired.nested {ms : List Mark} {o c o' c' : Nat} (h : Paired ms o c) (h' : Paired ms o' c')
    (hlt : o' < o) (inside : o < c') : c < c' := by
  obtain ⟨before, inner, after, rfl, balanced, rfl, rfl⟩ := paired_iff_split.1 h'
  have hoc := h.lt
  obtain ⟨o, rfl⟩ : ∃ k, o = before.length + (k + 1) := ⟨o - before.length - 1, by omega⟩
  obtain ⟨c, rfl⟩ : ∃ k, c = before.length + (k + 1) := ⟨c - before.length - 1, by omega⟩
  simp only [paired_append_right, paired_cons_succ, paired_append_iff balanced.openingsClosed] at h
  cases h with
  | inl inside =>
      have := inside.lt_length
      omega
  | inr behind =>
      obtain ⟨_, _, rfl, -, -⟩ := behind
      omega

theorem Paired.take {ms : List Mark} {o c i : Nat} (h : Paired ms o c) (hlt : c < i) :
    Paired (ms.take i) o c := by
  obtain ⟨before, inner, after, rfl, balanced, rfl, rfl⟩ := paired_iff_split.1 h
  refine paired_iff_split.2
    ⟨before, inner, after.take (i - (before.length + 1 + inner.length) - 1), ?_, balanced, rfl, rfl⟩
  obtain ⟨k, rfl⟩ : ∃ k, i = before.length + ((inner.length + (k + 1)) + 1) :=
    ⟨i - before.length - inner.length - 2, by omega⟩
  simp only [List.take_length_add_append, List.take_succ_cons]
  congr 5
  omega

theorem stillOpen_take_eq_zero_iff {ms : List Mark} (closed : OpeningsClosed ms) {i : Nat} :
    stillOpen 0 (ms.take i) = 0 ↔ ∀ o c, Paired ms o c → o < i → c < i := by
  rw [← openingsClosed_iff]
  constructor
  · intro early o c h hlt
    have hopen := h.opening
    rw [← List.getElem?_take_of_lt hlt] at hopen
    obtain ⟨c', h'⟩ := early o hopen
    have whole := h'.append (ms.drop i)
    rw [List.take_append_drop] at whole
    obtain rfl := h.closing_unique whole
    have := h'.lt_length
    rw [List.length_take] at this
    omega
  · intro none o hopen
    obtain ⟨hlt, -⟩ := List.getElem?_eq_some_iff.1 hopen
    rw [List.length_take] at hlt
    rw [List.getElem?_take_of_lt (by omega)] at hopen
    obtain ⟨c, h⟩ := closed o hopen
    exact ⟨c, h.take (none o c h (by omega))⟩

end Fluxion.Mark
