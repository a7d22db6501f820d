import Fluxion.Bracket

/-! # Balance

Balance is stated by counting, over all prefixes. A scan that keeps the number of open brackets
decides it, and the search for a closing bracket stops behind the longest balanced stretch. Read
from right to left with the two brackets exchanged, balance is the same.
-/

namespace Fluxion.Mark

/-- No prefix closes more brackets than it opens, and the whole closes as many as it opens. -/
def Balanced (ms : List Mark) : Prop :=
  (∀ p, p <+: ms → p.count .closing ≤ p.count .opening) ∧ ms.count .closing = ms.count .opening

/-- How many brackets are open after the marks when `depth` were open before, if every closing
    bracket finds one to close. -/
def depthAfter? : Nat → List Mark → Option Nat
  | depth, [] => some depth
  | depth, .opening :: rest => depthAfter? (depth + 1) rest
  | 0, .closing :: _ => none
  | depth + 1, .closing :: rest => depthAfter? depth rest
  | depth, .neither :: rest => depthAfter? depth rest

theorem depthAfter?_append (depth : Nat) (left right : List Mark) :
    depthAfter? depth (left ++ right) = (depthAfter? depth left).bind (depthAfter? · right) := by
  fun_induction depthAfter? depth left with
  | case1 => rfl
  | case2 depth rest ih => simpa only [List.cons_append, depthAfter?] using ih
  | case3 => rfl
  | case4 depth rest ih => simpa only [List.cons_append, depthAfter?] using ih
  | case5 depth rest ih => simpa only [List.cons_append, depthAfter?] using ih

private theorem forall_prefix_cons {m : Mark} {rest : List Mark} {P : List Mark → Prop} :
    (∀ p, p <+: m :: rest → P p) ↔ P [] ∧ ∀ p, p <+: rest → P (m :: p) := by
  simp only [List.prefix_cons_iff, forall_eq_or_imp, forall_exists_index, and_imp]
  constructor
  · intro h
    exact ⟨h.1, fun p inside => h.2 _ p rfl inside⟩
  · intro h
    refine ⟨h.1, fun longer p heq inside => ?_⟩
    subst heq
    exact h.2 p inside

/-- The scan fails at the first prefix that closes too much, and otherwise it counts. -/
theorem depthAfter?_eq_some_iff {depth result : Nat} {ms : List Mark} :
    depthAfter? depth ms = some result ↔
      (∀ p, p <+: ms → p.count .closing ≤ depth + p.count .opening) ∧
        result + ms.count .closing = depth + ms.count .opening := by
  fun_induction depthAfter? depth ms with
  | case1 depth =>
      simp only [Option.some.injEq, List.prefix_nil, forall_eq, List.count_nil]
      omega
  | case3 rest =>
      simp only [reduceCtorEq, false_iff, not_and]
      intro small
      have first := small [.closing] (by simp)
      simp at first
  | case2 depth rest ih =>
      simp only [ih, forall_prefix_cons, List.count_cons, List.count_nil]
      grind
  | case4 depth rest ih =>
      simp only [ih, forall_prefix_cons, List.count_cons, List.count_nil]
      grind
  | case5 depth rest ih =>
      simp only [ih, forall_prefix_cons, List.count_cons, List.count_nil]
      grind

theorem balanced_iff {ms : List Mark} : Balanced ms ↔ depthAfter? 0 ms = some 0 := by
  simp only [depthAfter?_eq_some_iff, Balanced, Nat.zero_add]

theorem depthAfter?_add {depth result : Nat} {ms : List Mark}
    (h : depthAfter? depth ms = some result)
    (more : Nat) : depthAfter? (depth + more) ms = some (result + more) := by
  rw [depthAfter?_eq_some_iff] at h ⊢
  refine ⟨fun p inside => ?_, by omega⟩
  have small := h.1 p inside
  omega

namespace Balanced

theorem depth_kept {ms : List Mark} (h : Balanced ms) (depth : Nat) :
    depthAfter? depth ms = some depth := by
  simpa only [Nat.zero_add] using depthAfter?_add (balanced_iff.1 h) depth

theorem append {left right : List Mark} (hl : Balanced left) (hr : Balanced right) :
    Balanced (left ++ right) := by
  simp only [balanced_iff, depthAfter?_append, hl.depth_kept, Option.bind_some, hr.depth_kept]

theorem wrap {ms : List Mark} (h : Balanced ms) : Balanced (.opening :: (ms ++ [.closing])) := by
  simp only [balanced_iff, depthAfter?, depthAfter?_append, h.depth_kept]
  rfl

theorem of_neither {ms : List Mark} (h : ∀ m ∈ ms, m = .neither) : Balanced ms := by
  constructor
  · intro p inside
    rw [List.count_eq_zero.2 fun found => ?_]
    · exact Nat.zero_le _
    · exact absurd (h _ (inside.subset found)) (by simp)
  · rw [List.count_eq_zero.2 fun found => absurd (h _ found) (by simp),
      List.count_eq_zero.2 fun found => absurd (h _ found) (by simp)]

end Balanced

theorem closer?_eq_some_iff {depth k : Nat} {ms : List Mark} :
    closer? depth ms = some k ↔
      depthAfter? depth (ms.take k) = some 0 ∧ ms[k]? = some .closing := by
  fun_induction closer? depth ms generalizing k with
  | case1 => simp
  | case2 depth rest ih => cases k <;> simp [ih, depthAfter?]
  | case3 rest => cases k <;> simp [depthAfter?]
  | case4 depth rest ih => cases k <;> simp [ih, depthAfter?]
  | case5 depth rest ih => cases k <;> simp [ih, depthAfter?]

theorem closer?_append {inner : List Mark} (h : Balanced inner) (after : List Mark) :
    closer? 0 (inner ++ .closing :: after) = some inner.length := by
  rw [closer?_eq_some_iff]
  simpa using balanced_iff.1 h

theorem split_of_closer? {ms : List Mark} {k : Nat} (h : closer? 0 ms = some k) :
    ∃ inner after, ms = inner ++ .closing :: after ∧ Balanced inner ∧ inner.length = k := by
  obtain ⟨hdepth, hclosing⟩ := closer?_eq_some_iff.1 h
  obtain ⟨hlt, hget⟩ := List.getElem?_eq_some_iff.1 hclosing
  refine ⟨ms.take k, ms.drop (k + 1), ?_, balanced_iff.2 hdepth,
    List.length_take_of_le (Nat.le_of_lt hlt)⟩
  rw [← hget, List.getElem_cons_drop, List.take_append_drop]

/-- What closes a deeper bracket stands behind what closes a shallower one. -/
theorem isSome_closer?_of_succ {depth : Nat} {ms : List Mark}
    (h : (closer? (depth + 1) ms).isSome) :
    (closer? depth ms).isSome := by
  fun_induction closer? depth ms with
  | case1 => simp [closer?] at h
  | case2 depth rest ih => simp_all [closer?]
  | case3 rest => rfl
  | case4 depth rest ih => simp_all [closer?]
  | case5 depth rest ih => simp_all [closer?]

theorem isSome_closer?_zero {depth : Nat} {ms : List Mark} (h : (closer? depth ms).isSome) :
    (closer? 0 ms).isSome := by
  induction depth with
  | zero => exact h
  | succ depth ih => exact ih (isSome_closer?_of_succ h)

theorem count_closing_le_of_closer? {depth : Nat} {ms : List Mark} (h : closer? depth ms = none) :
    ms.count .closing ≤ ms.count .opening + depth := by
  fun_induction closer? depth ms with
  | case1 => simp
  | case2 depth rest ih =>
      have small := ih (Option.map_eq_none_iff.1 h)
      simp only [List.count_cons]
      grind
  | case3 => simp at h
  | case4 depth rest ih =>
      have small := ih (Option.map_eq_none_iff.1 h)
      simp only [List.count_cons]
      grind
  | case5 depth rest ih =>
      have small := ih (Option.map_eq_none_iff.1 h)
      simp only [List.count_cons]
      grind

/-- The marks as they are met from right to left. -/
def mirror (ms : List Mark) : List Mark := ms.reverse.map flip

theorem mirror_mirror (ms : List Mark) : mirror (mirror ms) = ms := by
  simp [mirror, List.map_reverse, Function.comp_def, flip_flip]

theorem length_mirror (ms : List Mark) : (mirror ms).length = ms.length := by
  simp [mirror]

theorem mirror_append (left right : List Mark) :
    mirror (left ++ right) = mirror right ++ mirror left := by
  simp [mirror]

theorem mirror_cons (m : Mark) (ms : List Mark) : mirror (m :: ms) = mirror ms ++ [m.flip] := by
  simp [mirror]

theorem count_mirror (m : Mark) (ms : List Mark) : (mirror ms).count m = ms.count m.flip := by
  induction ms with
  | nil => rfl
  | cons first rest ih =>
      simp only [mirror_cons, List.count_append, ih, List.count_cons, List.count_nil, Nat.zero_add]
      cases m <;> cases first <;> rfl

theorem Balanced.mirror {ms : List Mark} (h : Balanced ms) : Balanced (mirror ms) := by
  refine ⟨fun p inside => ?_, ?_⟩
  · -- a prefix read from the right is what is left of the marks behind a prefix read from the left
    obtain ⟨rest, hrest⟩ := inside
    have hms : ms = Mark.mirror rest ++ Mark.mirror p := by
      rw [← mirror_append, hrest, mirror_mirror]
    have small := h.1 (Mark.mirror rest) (hms ▸ List.prefix_append _ _)
    have total := h.2
    simp only [hms, List.count_append, count_mirror] at total
    simp only [count_mirror] at small
    simp only [flip] at small total
    omega
  · simp only [count_mirror]
    exact h.2.symm

end Fluxion.Mark
