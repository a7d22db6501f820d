import Fluxion.Proofs.Answer.Characters
import Fluxion.Proofs.Numeral.Grammar

/-! # Blocks of lines

The answer to a line is a block of one to four lines, whatever characters are in the line. How many
there are depends on the part before the first `@` and on the part behind it, and the end of each
line can be told from what is written.
-/

namespace Fluxion

/-- A line is a formula, or a formula and behind the first `@` the rest. -/
inductive Splits : List Char → List Char → Option (List Char) → Prop where
  | expression {formula : List Char} (plain : '@' ∉ formula) : Splits formula formula none
  | point {formula : List Char} (plain : '@' ∉ formula) (rest : List Char) :
      Splits (formula ++ '@' :: rest) formula (some rest)

theorem exists_splits (line : List Char) : ∃ formula rest, Splits line formula rest := by
  by_cases point : '@' ∈ line
  · obtain ⟨formula, rest, rfl, plain⟩ := List.eq_append_cons_of_mem point
    exact ⟨formula, some rest, .point plain rest⟩
  · exact ⟨line, none, .expression point⟩

namespace Splits

variable {line formula : List Char} {rest : Option (List Char)}

theorem plain (h : Splits line formula rest) : '@' ∉ formula := by
  cases h with
  | expression plain => exact plain
  | point plain rest => exact plain

theorem cut (h : Splits line formula rest) :
    line.takeWhile (· != '@') = formula ∧ line.dropWhile (· != '@') = rest.elim [] ('@' :: ·) := by
  have inside : ∀ c ∈ formula, (c != '@') = true := by
    intro c hc
    exact bne_iff_ne.2 (ne_of_mem_of_not_mem hc h.plain)
  cases h with
  | expression _ => exact ⟨List.takeWhile_eq_self_iff.2 inside, List.dropWhile_eq_nil_iff.2 inside⟩
  | point _ rest =>
      rw [List.takeWhile_append_of_pos inside, List.dropWhile_append_of_pos inside]
      simp

theorem ofLine_eq {line : String} (h : Splits line.toList formula rest) :
    Answer.ofLine line =
      match Expr.parse (String.ofList formula) with
      | .error error => .unreadable error
      | .ok f => .derived f (.ofLine line.toList) := by
  obtain rfl := h.cut.1
  rfl

theorem solid (h : Splits line formula rest) {f e : Expr}
    (reads : Expr.parse (String.ofList formula) = .ok f)
    (names : e.names ⊆ f.names) : ∀ c ∈ e.text.toList, isBlank c = false ∧ c ≠ '@' := by
  intro c hc
  rw [Expr.text, String.toList_ofList] at hc
  refine Expr.solid_of_parse reads names ?_ c hc
  rw [String.toList_ofList]
  exact h.plain

theorem point_absent (h : Splits line formula none) : Point.ofLine line = .absent := by
  rw [Point.ofLine, h.cut.2]
  rfl

theorem point_bad {rest : List Char} (h : Splits line formula (some rest))
    (bad : ¬ Numeral.IsNumeral (trimBlanks rest)) : Point.ofLine line = .bad (trimBlanks rest) := by
  have unread : Numeral.read? (trimBlanks rest) = none := by
    rwa [← Numeral.isSome_read?_iff, Option.not_isSome_iff_eq_none] at bad
  rw [Point.ofLine, h.cut.2]
  simp only [Option.elim_some, unread]

theorem point_value {rest : List Char} (h : Splits line formula (some rest))
    (numeral : Numeral.IsNumeral (trimBlanks rest)) : ∃ x, Point.ofLine line = .value x := by
  obtain ⟨x, read⟩ := Option.isSome_iff_exists.1 (Numeral.isSome_read?_iff.2 numeral)
  refine ⟨x.toFloat, ?_⟩
  rw [Point.ofLine, h.cut.2]
  simp only [Option.elim_some, read]

end Splits

/-- A text is a block of the given lines when each has a line feed behind it and none in it. -/
structure Block (written : String) (lines : List String) : Prop where
  ended : written = String.join (lines.map (· ++ "\n"))
  single : ∀ line ∈ lines, '\n' ∉ line.toList

theorem eq_of_append_cons {α : Type} {separator : α} {left left' rest rest' : List α}
    (h : separator ∉ left)
    (h' : separator ∉ left') (same : left ++ separator :: rest = left' ++ separator :: rest') :
    left = left' ∧ rest = rest' := by
  induction left generalizing left' with
  | nil =>
      cases left' with
      | nil => exact ⟨rfl, (List.cons.inj same).2⟩
      | cons first left' =>
          obtain rfl := (List.cons.inj same).1
          exact absurd List.mem_cons_self h'
  | cons first left ih =>
      cases left' with
      | nil =>
          obtain rfl := (List.cons.inj same).1
          exact absurd List.mem_cons_self h
      | cons first' left' =>
          obtain ⟨rfl, tail⟩ := List.cons.inj same
          obtain ⟨rfl, rfl⟩ :=
            ih (mt (List.mem_cons_of_mem _) h) (mt (List.mem_cons_of_mem _) h') tail
          exact ⟨rfl, rfl⟩

namespace Block

variable {written line : String} {lines others : List String}

theorem toList_eq (h : Block written (line :: lines)) :
    ∃ rest, written.toList = line.toList ++ '\n' :: rest.toList ∧ Block rest lines := by
  have single : ∀ other ∈ lines, '\n' ∉ other.toList :=
    fun other hother => h.single other (List.mem_cons_of_mem _ hother)
  refine ⟨String.join (lines.map (· ++ "\n")), ?_, rfl, single⟩
  rw [h.ended, List.map_cons, String.join_cons, String.toList_append, String.toList_append]
  simp

theorem not_cons_empty : ¬ Block "" (line :: lines) := by
  intro h
  obtain ⟨rest, split, -⟩ := h.toList_eq
  simp at split

/-- What is written says which lines it is a block of. -/
theorem unique (h : Block written lines) (h' : Block written others) : others = lines := by
  induction lines generalizing written others with
  | nil =>
      obtain rfl := h.ended
      cases others with
      | nil => rfl
      | cons other others => exact absurd h' not_cons_empty
  | cons line lines ih =>
      cases others with
      | nil =>
          obtain rfl := h'.ended
          exact absurd h not_cons_empty
      | cons other others =>
          obtain ⟨rest, split, left⟩ := h.toList_eq
          obtain ⟨rest', split', left'⟩ := h'.toList_eq
          -- neither first line has a line feed, so both end at the same one
          obtain ⟨first, last⟩ := eq_of_append_cons (h'.single other List.mem_cons_self)
            (h.single line List.mem_cons_self) (split'.symm.trans split)
          rw [String.toList_inj] at first last
          subst last
          rw [first, ih left left']

end Block

/-- A text whose only blanks are spaces. It stands on one line. -/
def OneLine (text : String) : Prop := ∀ c ∈ text.toList, isBlank c = true → c = ' '

instance (text : String) : Decidable (OneLine text) := List.decidableBAll _ text.toList

namespace OneLine

theorem append {first second : String} (h : OneLine first) (h' : OneLine second) :
    OneLine (first ++ second) := by
  intro c hc
  rw [String.toList_append] at hc
  exact (List.mem_append.1 hc).elim (h c) (h' c)

theorem of_solid {text : String} (solid : ∀ c ∈ text.toList, isBlank c = false ∧ c ≠ '@') :
    OneLine text :=
  fun c hc blank => absurd blank (Bool.eq_false_iff.1 (solid c hc).1)

theorem newline_not_mem {text : String} (h : OneLine text) : '\n' ∉ text.toList := by
  intro feed
  have space := h '\n' feed (by decide)
  simp at space

end OneLine

namespace Answer

theorem oneLine_numberText (x : Float) : OneLine (numberText x) := by
  refine .of_solid fun c hc => isPrinted_spec ?_
  rw [numberText, String.toList_ofList] at hc
  exact Binary64.isPrinted_text _ _ c hc

theorem oneLine_message (error : ParseError) : OneLine error.message := by
  cases error
  decide

theorem oneLine_quoted (text : List Char) : OneLine (String.ofList (Quoted.text text)) := by
  intro c hc blank
  rw [String.toList_ofList] at hc
  exact Quoted.eq_space_of_mem_text hc blank

/-- The texts that stand before and between what is answered. -/
def labels : List String :=
  ["Parse err: ", "f(x)  = ", "f'(x) = ", "Bad point: ", "f(", "f'(", ")  = ", ") = "]

theorem oneLine_labels : ∀ label ∈ labels, OneLine label := by decide

theorem oneLine_lines {f : Expr} (text : OneLine f.text) (text' : OneLine f.derivative.text)
    (point : Point) :
    ∀ written ∈ (derived f point).lines, OneLine written := by
  have label := oneLine_labels
  intro written h
  simp only [lines, List.cons_append, List.nil_append, List.mem_cons] at h
  rcases h with rfl | rfl | h
  · exact (label _ (by simp [labels])).append text
  · exact (label _ (by simp [labels])).append text'
  · cases point with
    | absent => exact absurd h List.not_mem_nil
    | bad rest =>
        obtain rfl := List.mem_singleton.1 h
        exact (label _ (by simp [labels])).append (oneLine_quoted rest)
    | value x =>
        have equation {before between : String} (y : Float) (h : before ∈ labels)
            (h' : between ∈ labels) :
              OneLine (before ++ numberText x ++ between ++ numberText y) :=
          (((label _ h).append (oneLine_numberText x)).append (label _ h')).append
            (oneLine_numberText y)
        simp only [List.mem_cons, List.not_mem_nil, or_false] at h
        rcases h with rfl | rfl
        · exact equation _ (by simp [labels]) (by simp [labels])
        · exact equation _ (by simp [labels]) (by simp [labels])

theorem oneLine_ofLine (line : String) : ∀ written ∈ (ofLine line).lines, OneLine written := by
  obtain ⟨formula, rest, splits⟩ := exists_splits line.toList
  rw [splits.ofLine_eq]
  split
  · next error _ =>
      intro written h
      obtain rfl := List.mem_singleton.1 h
      exact (oneLine_labels _ (by simp [labels])).append (oneLine_message error)
  · next f reads =>
      exact oneLine_lines (.of_solid (splits.solid reads (List.Subset.refl _)))
        (.of_solid (splits.solid reads (Expr.names_derivative_subset f))) _

theorem block_ofLine (line : String) : Block (ofLine line).output (ofLine line).lines where
  ended := rfl
  single written h := (oneLine_ofLine line written h).newline_not_mem

/-- Every line is answered by a block: by one line if its formula cannot be read, and otherwise by
    two, three or four as there is no point, one that is no numeral, or a numeral. -/
theorem ofLine_block (line : String) :
    ∃ formula rest lines, Splits line.toList formula rest ∧
      Block (ofLine line).output lines ∧
        (∀ others, Block (ofLine line).output others → others = lines) ∧
      (∀ written ∈ lines, OneLine written) ∧
      (∀ error, Expr.parse (String.ofList formula) = .error error → lines.length = 1) ∧
      ∀ f, Expr.parse (String.ofList formula) = .ok f →
        lines.take 2 = ["f(x)  = " ++ f.text, "f'(x) = " ++ f.derivative.text] ∧
        (∀ c ∈ f.text.toList ++ f.derivative.text.toList, isBlank c = false ∧ c ≠ '@') ∧
        (rest = none → lines.length = 2) ∧
        ∀ point, rest = some point →
          (¬ Numeral.IsNumeral (trimBlanks point) → lines.length = 3) ∧
          (Numeral.IsNumeral (trimBlanks point) → lines.length = 4) := by
  obtain ⟨formula, rest, splits⟩ := exists_splits line.toList
  refine ⟨formula, rest, (ofLine line).lines, splits, block_ofLine line,
    fun others h => (block_ofLine line).unique h, oneLine_ofLine line, ?_, ?_⟩
  · intro error fails
    rw [splits.ofLine_eq, fails]
    rfl
  · intro f reads
    rw [splits.ofLine_eq, reads]
    refine ⟨rfl, ?_, ?_, ?_⟩
    · intro c hc
      cases List.mem_append.1 hc with
      | inl formula => exact splits.solid reads (List.Subset.refl _) c formula
      | inr derivative => exact splits.solid reads (Expr.names_derivative_subset f) c derivative
    · rintro rfl
      rw [splits.point_absent]
      rfl
    · rintro point rfl
      refine ⟨?_, ?_⟩
      · intro bad
        rw [splits.point_bad bad]
        rfl
      · intro numeral
        obtain ⟨x, value⟩ := splits.point_value numeral
        rw [value]
        rfl

/-- A line feed in the formula is not written, and a power of ten makes a point. -/
theorem ofLine_block_feed :
    ∃ lines, Block (ofLine "a\nb@\t+.5E-3").output lines ∧ lines.length = 4 ∧
      lines.head? = some "f(x)  = ab" := by
  obtain ⟨formula, rest, lines, splits, block, -, -, -, readable⟩ := ofLine_block "a\nb@\t+.5E-3"
  obtain ⟨before, behind⟩ := splits.cut
  have cut : "a\nb@\t+.5E-3".toList.takeWhile (· != '@') = "a\nb".toList := by decide
  have left : "a\nb@\t+.5E-3".toList.dropWhile (· != '@') = '@' :: "\t+.5E-3".toList := by decide
  obtain rfl := before.symm.trans cut
  have point : rest = some "\t+.5E-3".toList := by
    cases rest with
    | none => simp at behind
    | some rest => exact congrArg some (List.cons.inj (behind.symm.trans left)).2
  have chars : removeBlanks "a\nb".toList = ['a', 'b'] := by decide
  have reads : Expr.parse (String.ofList "a\nb".toList) = .ok (.var "ab") := by
    rw [String.ofList_toList, Expr.parse_eq_ok_iff, chars, Expr.ofChars?_plain rfl rfl]
    rfl
  obtain ⟨two, -, -, counts⟩ := readable _ reads
  refine ⟨lines, block, (counts _ point).2 (by decide), ?_⟩
  have head : (lines.take 2).head? = lines.head? := by simp [List.head?_take]
  rw [← head, two]
  decide

end Answer

end Fluxion
