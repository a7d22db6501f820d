import Fluxion.Proofs.Bracket.Matching
import Mathlib.Order.Bounds.Image

/-! # The nearest balance

From an opening bracket the matching one stands at the first offset up to which as many brackets are
closed as opened, and from a closing bracket at the last offset from which on as many are opened as
closed. Where there is no such offset there is no match.
-/

namespace Fluxion

/-- The result is the least of some numbers, or there are none. -/
def FindsLeast (numbers : Set Nat) : Option Nat → Prop
  | some n => IsLeast numbers n
  | none => numbers = ∅

/-- The result is the greatest of some numbers, or there are none. -/
def FindsGreatest (numbers : Set Nat) : Option Nat → Prop
  | some n => IsGreatest numbers n
  | none => numbers = ∅

namespace FindsLeast

variable {numbers : Set Nat} {found : Option Nat} {f : Nat → Nat}

theorem map (h : FindsLeast numbers found) (mono : Monotone f) :
    FindsLeast (f '' numbers) (found.map f) := by
  cases found with
  | some n => exact mono.map_isLeast h
  | none => exact Set.image_eq_empty.2 h

theorem map_antitone (h : FindsLeast numbers found) (anti : Antitone f) :
    FindsGreatest (f '' numbers) (found.map f) := by
  cases found with
  | some n => exact anti.map_isLeast h
  | none => exact Set.image_eq_empty.2 h

end FindsLeast

/-- One thing stands as often as another from one position to another, both included. -/
def CountsAgree {α : Type} [BEq α] (a b : α) (l : List α) (start stop : Nat) : Prop :=
  (l.extract start (stop + 1)).count a = (l.extract start (stop + 1)).count b

namespace Mark

variable {ms : List Mark} {p : Nat}

/-- The positions at which the marks have closed one bracket more than `depth` and those
    that they opened. -/
def closings (depth : Nat) (ms : List Mark) : Set Nat :=
  {k | k < ms.length ∧
    (ms.take (k + 1)).count .closing = depth + 1 + (ms.take (k + 1)).count .opening}

/-- Behind the first mark the same positions are looked for, with as many brackets open as
    it leaves open. -/
theorem closings_cons {m : Mark} {depth depth' : Nat} (rest : List Mark)
    (h : depth' + [m].count .closing = depth + [m].count .opening) :
    closings depth (m :: rest) = (· + 1) '' closings depth' rest := by
  have counts (bracket : Mark) (k : Nat) :
      ((m :: rest).take (k + 1)).count bracket =
        [m].count bracket + (rest.take k).count bracket := by
    rw [List.take_succ_cons, ← List.singleton_append, List.count_append]
  ext k
  simp only [closings, Set.mem_image, Set.mem_ofPred_eq, counts, List.length_cons]
  constructor
  · intro here
    cases k with
    | zero => simp only [List.take_zero, List.count_nil] at here; omega
    | succ k => exact ⟨k, by omega, rfl⟩
  · intro behind
    obtain ⟨k, here, rfl⟩ := behind
    omega

theorem findsLeast_closer? (depth : Nat) (ms : List Mark) :
    FindsLeast (closings depth ms) (closer? depth ms) := by
  have next : Monotone (· + 1 : Nat → Nat) := fun _ _ le => Nat.succ_le_succ le
  fun_induction closer? depth ms with
  | case1 depth => simp [FindsLeast, closings]
  | case2 depth rest ih =>
      rw [closings_cons rest (show depth + 1 + 0 = depth + 1 from rfl)]
      exact ih.map next
  | case3 rest => exact ⟨⟨Nat.succ_pos _, rfl⟩, fun k _ => Nat.zero_le k⟩
  | case4 depth rest ih =>
      rw [closings_cons rest (show depth + 1 = depth + 1 + 0 from rfl)]
      exact ih.map next
  | case5 depth rest ih =>
      rw [closings_cons rest (show depth + 0 = depth + 0 from rfl)]
      exact ih.map next

theorem not_countsAgree_self {m : Mark} (here : ms[p]? = some m) (bracket : m.isBracket = true) :
    ¬ CountsAgree opening closing ms p p := by
  obtain ⟨inside, mark⟩ := List.getElem?_eq_some_iff.1 here
  have alone : ms.extract p (p + 1) = [m] := by
    rw [List.extract_eq_take_drop, Nat.add_sub_cancel_left, List.drop_eq_getElem_cons inside, mark]
    rfl
  rw [CountsAgree, alone]
  cases m <;> simp [isBracket] at bracket ⊢

/-- From an opening bracket the counts agree where the marks behind it close one bracket more
    than they open. -/
theorem countsAgree_opening_iff (here : ms[p]? = some .opening) (k : Nat) :
    p + 1 + k < ms.length ∧ CountsAgree opening closing ms p (p + 1 + k) ↔
      k ∈ closings 0 (ms.drop (p + 1)) := by
  obtain ⟨inside, mark⟩ := List.getElem?_eq_some_iff.1 here
  have split : ms.extract p (p + 1 + k + 1) = .opening :: (ms.drop (p + 1)).take (k + 1) := by
    rw [List.extract_eq_take_drop, List.drop_eq_getElem_cons inside, mark, ← List.take_succ_cons]
    congr 1
    omega
  simp only [CountsAgree, split, closings, Set.mem_ofPred_eq, List.length_drop,
    List.count_cons_self, List.count_cons_of_ne (show Mark.opening ≠ .closing by decide)]
  omega

theorem take_mirror (n : Nat) (ms : List Mark) :
    (mirror ms).take n = mirror (ms.drop (ms.length - n)) := by
  rw [mirror, ← List.map_take, List.take_reverse, mirror]

theorem countsAgree_closing_iff (here : ms[p]? = some .closing) {k : Nat} (lt : k < p) :
    CountsAgree opening closing ms (p - 1 - k) p ↔ k ∈ closings 0 (mirror (ms.take p)) := by
  obtain ⟨inside, mark⟩ := List.getElem?_eq_some_iff.1 here
  have size : (ms.take p).length = p := List.length_take_of_le (Nat.le_of_lt inside)
  have start : p - 1 - k = p - (k + 1) := by omega
  have split : ms.extract (p - (k + 1)) (p + 1) = (ms.take p).drop (p - (k + 1)) ++ [.closing] := by
    rw [List.extract_eq_take_drop, ← List.drop_take, List.take_succ_eq_append_getElem inside, mark,
      List.drop_append_of_le_length (by rw [size]; exact Nat.sub_le _ _)]
  simp only [CountsAgree, start, split, closings, Set.mem_ofPred_eq, length_mirror, take_mirror,
    count_mirror, flip, size, List.count_append, List.count_cons_self,
    List.count_cons_of_ne (show Mark.closing ≠ .opening by decide), List.count_nil]
  omega

theorem findsLeast_matching? (here : ms[p]? = some .opening) :
    FindsLeast {q | p ≤ q ∧ q < ms.length ∧ CountsAgree opening closing ms p q}
      (matching? ms p) := by
  have same : {q | p ≤ q ∧ q < ms.length ∧ CountsAgree opening closing ms p q} =
      (p + 1 + ·) '' closings 0 (ms.drop (p + 1)) := by
    ext q
    simp only [Set.mem_image, Set.mem_ofPred_eq, ← countsAgree_opening_iff here]
    constructor
    · intro even
      obtain ⟨le, lt, even⟩ := even
      have other : q ≠ p := fun same => not_countsAgree_self here rfl (same ▸ even)
      obtain ⟨k, rfl⟩ : ∃ k, q = p + 1 + k := ⟨q - p - 1, by omega⟩
      exact ⟨k, ⟨lt, even⟩, rfl⟩
    · intro behind
      obtain ⟨k, ⟨lt, even⟩, rfl⟩ := behind
      exact ⟨by omega, lt, even⟩
  rw [same, matching?, here]
  exact (findsLeast_closer? 0 _).map fun _ _ le => Nat.add_le_add_left le _

theorem findsGreatest_matching? (here : ms[p]? = some .closing) :
    FindsGreatest {q | q ≤ p ∧ CountsAgree opening closing ms q p} (matching? ms p) := by
  have size : (mirror (ms.take p)).length = p := by
    rw [length_mirror, List.length_take_of_le (Nat.le_of_lt (List.getElem?_eq_some_iff.1 here).1)]
  have same : {q | q ≤ p ∧ CountsAgree opening closing ms q p} =
      (p - 1 - ·) '' closings 0 (mirror (ms.take p)) := by
    ext q
    simp only [Set.mem_image, Set.mem_ofPred_eq]
    constructor
    · intro even
      obtain ⟨le, even⟩ := even
      have other : q ≠ p := fun same => not_countsAgree_self here rfl (same ▸ even)
      obtain ⟨k, lt, rfl⟩ : ∃ k < p, q = p - 1 - k := ⟨p - 1 - q, by omega, by omega⟩
      exact ⟨k, (countsAgree_closing_iff here lt).1 even, rfl⟩
    · intro before
      obtain ⟨k, closes, rfl⟩ := before
      have lt : k < p := size ▸ closes.1
      exact ⟨by omega, (countsAgree_closing_iff here lt).2 closes⟩
  rw [same, matching?, here]
  exact (findsLeast_closer? 0 _).map_antitone fun _ _ le => Nat.sub_le_sub_left le _

theorem count_map_ofByte {m : Mark} {b : UInt8} (only : ∀ b', ofByte b' = m ↔ b' = b)
    (bytes : List UInt8) :
    (bytes.map ofByte).count m = bytes.count b := by
  rw [List.count_eq_countP, List.count_eq_countP, List.countP_map]
  refine List.countP_congr fun b' _ => ?_
  simp [only]

theorem countsAgree_byteMarks_iff {text : String} {start stop : Nat} :
    CountsAgree opening closing (byteMarks text) start stop ↔
      CountsAgree '('.toUInt8 ')'.toUInt8 text.toUTF8.data.toList start stop := by
  simp only [CountsAgree, byteMarks, List.extract_eq_take_drop, ← List.map_drop, ← List.map_take,
    count_map_ofByte fun _ => ofByte_eq_opening, count_map_ofByte fun _ => ofByte_eq_closing]

end Mark

/-- The match of an opening bracket is the first offset from it on up to which the two kinds of
    brackets agree, the match of a closing bracket the last offset up to it from which on they
    agree, and nothing else has one. -/
theorem matchingBracket?_nearest (text : String) (p : Nat) :
    let bytes := text.toUTF8.data.toList
    (bytes[p]? = some '('.toUInt8 →
      FindsLeast {q | p ≤ q ∧ q < bytes.length ∧ CountsAgree '('.toUInt8 ')'.toUInt8 bytes p q}
        (matchingBracket? text p)) ∧
    (bytes[p]? = some ')'.toUInt8 →
      FindsGreatest {q | q ≤ p ∧ CountsAgree '('.toUInt8 ')'.toUInt8 bytes q p}
        (matchingBracket? text p)) ∧
    (bytes[p]? ≠ some '('.toUInt8 → bytes[p]? ≠ some ')'.toUInt8 →
      matchingBracket? text p = none) := by
  intro bytes
  have length : (byteMarks text).length = bytes.length := List.length_map _
  refine ⟨fun here => ?_, fun here => ?_, fun opening closing => ?_⟩
  · have mark := getElem?_byteMarks.2 ⟨_, here, Mark.ofByte_eq_opening.2 rfl⟩
    have found := Mark.findsLeast_matching? mark
    rw [length] at found
    simp only [Mark.countsAgree_byteMarks_iff] at found
    exact found
  · have mark := getElem?_byteMarks.2 ⟨_, here, Mark.ofByte_eq_closing.2 rfl⟩
    have found := Mark.findsGreatest_matching? mark
    simp only [Mark.countsAgree_byteMarks_iff] at found
    exact found
  · change Mark.matching? (byteMarks text) p = none
    rw [Mark.matching?]
    cases here : (byteMarks text)[p]? with
    | none => rfl
    | some m =>
        obtain ⟨b, hb, rfl⟩ := getElem?_byteMarks.1 here
        cases mark : Mark.ofByte b with
        | opening => exact absurd (Mark.ofByte_eq_opening.1 mark ▸ hb) opening
        | closing => exact absurd (Mark.ofByte_eq_closing.1 mark ▸ hb) closing
        | neither => rfl

/-- A pair seen from both of its brackets, a bracket of each kind without a match, and a character
    that is none. -/
theorem matchingBracket?_nearest_unbalanced :
    let text := ")((x)"
    let bytes := text.toUTF8.data.toList
    bytes[2]? = some '('.toUInt8 ∧
      IsLeast {q | 2 ≤ q ∧ q < bytes.length ∧ CountsAgree '('.toUInt8 ')'.toUInt8 bytes 2 q} 4 ∧
      IsGreatest {q | q ≤ 4 ∧ CountsAgree '('.toUInt8 ')'.toUInt8 bytes q 4} 2 ∧
      {q | 1 ≤ q ∧ q < bytes.length ∧ CountsAgree '('.toUInt8 ')'.toUInt8 bytes 1 q} = ∅ ∧
      {q | q ≤ 0 ∧ CountsAgree '('.toUInt8 ')'.toUInt8 bytes q 0} = ∅ ∧
      matchingBracket? text 3 = none := by
  intro text bytes
  have pair : matchingBracket? text 2 = some 4 := by decide
  have back : matchingBracket? text 4 = some 2 := by decide
  have unclosed : matchingBracket? text 1 = none := by decide
  have unopened : matchingBracket? text 0 = none := by decide
  have least := (matchingBracket?_nearest text 2).1 (by decide)
  have greatest := (matchingBracket?_nearest text 4).2.1 (by decide)
  have none_behind := (matchingBracket?_nearest text 1).1 (by decide)
  have none_before := (matchingBracket?_nearest text 0).2.1 (by decide)
  rw [pair] at least
  rw [back] at greatest
  rw [unclosed] at none_behind
  rw [unopened] at none_before
  exact ⟨by decide, least, greatest, none_behind, none_before,
    (matchingBracket?_nearest text 3).2.2 (by decide) (by decide)⟩

end Fluxion
