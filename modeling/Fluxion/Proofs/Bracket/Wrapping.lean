import Fluxion.Proofs.Bracket.Pairing

/-! # Brackets around a text

A text has brackets around it when its first character is an opening bracket, its last one a closing
bracket, and what stands between them is balanced.
-/

namespace Fluxion

theorem Mark.ofChar_eq_opening {c : Char} : Mark.ofChar c = .opening ↔ c = '(' := by
  unfold Mark.ofChar
  split
  · simp [*]
  · split <;> simp [*]

theorem Mark.ofChar_eq_closing {c : Char} : Mark.ofChar c = .closing ↔ c = ')' := by
  unfold Mark.ofChar
  split
  · next h =>
      subst h
      decide
  · split <;> simp [*]

@[simp] theorem marks_nil : marks [] = [] := rfl

@[simp] theorem marks_cons (c : Char) (text : List Char) :
    marks (c :: text) = Mark.ofChar c :: marks text := rfl

@[simp] theorem marks_append (left right : List Char) :
    marks (left ++ right) = marks left ++ marks right :=
  List.map_append

@[simp] theorem length_marks (text : List Char) : (marks text).length = text.length :=
  List.length_map _

theorem marks_take (n : Nat) (text : List Char) : marks (text.take n) = (marks text).take n :=
  List.map_take

theorem getElem?_marks (text : List Char) (i : Nat) : (marks text)[i]? = text[i]?.map Mark.ofChar :=
  List.getElem?_map

theorem getElem?_marks_closing {text : List Char} {i : Nat} :
    (marks text)[i]? = some .closing ↔ text[i]? = some ')' := by
  simp only [getElem?_marks, Option.map_eq_some_iff, Mark.ofChar_eq_closing, exists_eq_right]

theorem hasBrackets_eq_false_iff {text : List Char} :
    hasBrackets text = false ↔ ∀ m ∈ marks text, m = .neither := by
  simp only [hasBrackets, marks, List.any_eq_false, List.forall_mem_map, Bool.not_eq_true]
  refine forall₂_congr fun c _ => ?_
  cases Mark.ofChar c <;> simp [Mark.isBracket]

theorem balanced_of_not_hasBrackets {text : List Char} (h : hasBrackets text = false) :
    Mark.Balanced (marks text) :=
  Mark.Balanced.of_neither (hasBrackets_eq_false_iff.1 h)

/-- A text with one pair of brackets around it. -/
def wrap (text : List Char) : List Char := '(' :: (text ++ [')'])

theorem marks_wrap (text : List Char) :
    marks (wrap text) = .opening :: (marks text ++ [.closing]) := by
  simp only [wrap, marks_cons, marks_append]
  rfl

theorem length_wrap (text : List Char) : (wrap text).length = text.length + 2 := by
  simp [wrap]

theorem unwrap?_wrap {text : List Char} (balanced : Mark.Balanced (marks text)) :
    unwrap? (wrap text) = some text := by
  have found := Mark.closer?_append balanced []
  rw [wrap, unwrap?, if_pos]
  · rw [List.dropLast_concat]
  · refine ⟨rfl, ?_⟩
    rw [marks_append, List.length_append, List.length_singleton, Nat.add_sub_cancel,
      ← length_marks text]
    exact found

theorem unwrap?_eq_some_iff {text inner : List Char} :
    unwrap? text = some inner ↔ text = wrap inner ∧ Mark.Balanced (marks inner) := by
  constructor
  · intro h
    cases text with
    | nil => simp [unwrap?] at h
    | cons c rest =>
        simp only [unwrap?, Option.ite_none_right_eq_some, Option.some.injEq] at h
        obtain ⟨⟨hc, hcloser⟩, rfl⟩ := h
        obtain rfl := Mark.ofChar_eq_opening.1 hc
        obtain ⟨hdepth, hclosing⟩ := Mark.closer?_eq_some_iff.1 hcloser
        have last : rest[rest.length - 1]? = some ')' := getElem?_marks_closing.1 hclosing
        rw [← List.getLast?_eq_getElem?] at last
        obtain ⟨inner, rfl⟩ := List.getLast?_eq_some_iff.1 last
        rw [List.dropLast_concat]
        refine ⟨rfl, Mark.balanced_iff.2 ?_⟩
        simpa using hdepth
  · intro h
    obtain ⟨rfl, balanced⟩ := h
    exact unwrap?_wrap balanced

theorem unwrap?_unwrapAll (text : List Char) : unwrap? (unwrapAll text) = none := by
  fun_induction unwrapAll text with
  | case1 text inner unwrapped ih => exact ih
  | case2 text bare => exact bare

theorem paired_marks_iff {text : List Char} {o c : Nat} :
    Mark.Paired (marks text) o c ↔
      ∃ before inner after, text = before ++ wrap inner ++ after ∧ Mark.Balanced (marks inner) ∧
        before.length = o ∧ o + 1 + inner.length = c := by
  rw [Mark.paired_iff_split]
  constructor
  · intro split
    obtain ⟨_, _, _, heq, balanced, ho, hc⟩ := split
    obtain ⟨before, rest, rfl, rfl, hrest⟩ := List.map_eq_append_iff.1 heq
    obtain ⟨opening, rest, rfl, hopening, hinner⟩ := List.map_eq_cons_iff.1 hrest
    obtain ⟨inner, rest, rfl, rfl, hafter⟩ := List.map_eq_append_iff.1 hinner
    obtain ⟨closing, after, rfl, hclosing, rfl⟩ := List.map_eq_cons_iff.1 hafter
    obtain rfl := Mark.ofChar_eq_opening.1 hopening
    obtain rfl := Mark.ofChar_eq_closing.1 hclosing
    rw [List.length_map] at ho hc
    exact ⟨before, inner, after, by simp [wrap], balanced, ho, hc⟩
  · intro split
    obtain ⟨before, inner, after, rfl, balanced, ho, hc⟩ := split
    refine ⟨marks before, marks inner, marks after, ?_, balanced, by rwa [length_marks],
      by rwa [length_marks]⟩
    simp [marks_wrap]

end Fluxion
