import Fluxion.Proofs.Expr.Rereading
import Fluxion.Proofs.InPlace.Operators
import Fluxion.Proofs.Numeral.Literal

/-! # Reading by byte offsets is reading

A text is read by its offsets as it is read by its characters, and none of the checks fails: no part
is cut within a character, no difference is below zero, and every part that is read is shorter than
the text that it is a part of.
-/

namespace Fluxion.InPlace

open Chain (CutsOnly Sealed)

/-- A text that is no expression is malformed. -/
def orMalformed : Option Expr → Except Stop Expr
  | some e => .ok e
  | none => .error .malformed

/-- Every text that takes fewer bytes is read as its characters are. -/
def ReadsShorter (read : String → Except Stop Expr) (text : String) : Prop :=
  ∀ part, size part < text.utf8ByteSize →
    read (String.ofList part) = orMalformed (Expr.ofChars? part)

variable {text : String} {read : String → Except Stop Expr}

theorem point?_eq_some {text : List Char} {offset : Nat} (h : point? text = some offset) :
    ∃ whole rest, text = whole ++ '.' :: rest ∧ '.' ∉ whole ∧ size whole = offset := by
  induction text generalizing offset with
  | nil => simp [point?] at h
  | cons c text ih =>
      rw [point?] at h
      split at h
      · next same =>
          subst same
          exact ⟨[], text, rfl, by simp, Option.some.inj h⟩
      · next other =>
          obtain ⟨offset, found, rfl⟩ := Option.map_eq_some_iff.1 h
          obtain ⟨whole, rest, rfl, absent, rfl⟩ := ih found
          refine ⟨c :: whole, rest, rfl, ?_, size_cons c whole⟩
          rw [List.mem_cons, not_or]
          exact ⟨fun same => other same.symm, absent⟩

theorem point?_eq_none {text : List Char} (h : point? text = none) : '.' ∉ text := by
  induction text with
  | nil => simp
  | cons c text ih =>
      rw [point?] at h
      split at h
      · simp at h
      · next other =>
          rw [List.mem_cons, not_or]
          exact ⟨fun same => other same.symm, ih (Option.map_eq_none_iff.1 h)⟩

theorem slice_all (text : String) : slice text 0 text.utf8ByteSize = .ok text := by
  have part := @slice_eq text [] text.toList [] (by simp)
  rwa [size_nil, Nat.zero_add, ← utf8ByteSize_eq, String.ofList_toList] at part

/-- The part that is read as a numeral ends before the second point. -/
theorem exists_leading (text : String) :
    ∃ front, Decimal.Front text.toList front ∧
      leading text = .ok ((Numeral.read? front).elim 0 Binary64.toFloat) := by
  have one : '.'.utf8Size = 1 := rfl
  rw [leading]
  cases first : point? text.toList with
  | none =>
      have none_left := List.count_eq_zero.2 (point?_eq_none first)
      refine ⟨text.toList, .whole (by omega), ?_⟩
      simp only [ok_bind, slice_all]
  | some point =>
      obtain ⟨whole, rest, split, absent, rfl⟩ := point?_eq_some first
      have behind : slice text (size whole + 1) text.utf8ByteSize = .ok (String.ofList rest) := by
        have part := @slice_eq text (whole ++ ['.']) rest [] (by rw [split]; simp)
        rwa [← size_append, List.append_assoc, List.singleton_append, ← split, ← utf8ByteSize_eq,
          size_append, size_cons, one] at part
      simp only [behind, ok_bind, String.toList_ofList]
      cases second : point? rest with
      | none =>
          refine ⟨text.toList, .whole ?_, ?_⟩
          · rw [split, Decimal.count_point absent (point?_eq_none second)]
          · simp only [Option.elim_none, slice_all, ok_bind]
      | some point =>
          obtain ⟨fraction, more, rfl, absent', rfl⟩ := point?_eq_some second
          have digits : slice text 0 (size whole + 1 + size fraction) =
              .ok (String.ofList (whole ++ '.' :: fraction)) := by
            have part := @slice_eq text [] (whole ++ '.' :: fraction) ('.' :: more)
              (by rw [split]; simp)
            rwa [size_nil, Nat.zero_add, size_append, size_cons, one, ← Nat.add_assoc] at part
          refine ⟨whole ++ '.' :: fraction, ?_, ?_⟩
          · rw [split]
            exact .of_second_point absent absent' more
          · simp only [Option.elim_some, digits, ok_bind, String.toList_ofList]

theorem leading_eq {text : String} (literal : Decimal.isLiteral text.toList = true) :
    leading text = .ok (Decimal.ofLiteral text.toList).toFloat := by
  obtain ⟨front, cut, reads⟩ := exists_leading text
  rw [reads, cut.ofLiteral_eq,
    Decimal.toFloat_ofLiteral_eq_elim (cut.isLiteral literal) cut.count_le]

theorem foldFrom_eq {before : List Char} {links : List (Op × List Char)} {left : Expr}
    (h : text.toList = before ++ links.flatMap fun link => link.1.symbol :: link.2)
    (reads : ∀ link ∈ links, read (String.ofList link.2) = orMalformed (Expr.ofChars? link.2)) :
    foldFrom read text left (offsets (size before) links) =
      orMalformed
        (links.foldlM (fun left link => (Expr.ofChars? link.2).map (.binary link.1 left))
          left) := by
  induction links generalizing before left with
  | nil => rfl
  | cons link links ih =>
      obtain ⟨here, later⟩ := List.forall_mem_cons.1 reads
      have part : text.toList = (before ++ [link.1.symbol]) ++ link.2 ++
          links.flatMap fun link => link.1.symbol :: link.2 := by
        rw [h]
        simp
      have next : (offsets (size before + 1 + size link.2) links).headD text.utf8ByteSize =
          size before + 1 + size link.2 := by
        cases links with
        | nil =>
            change text.utf8ByteSize = _
            rw [utf8ByteSize_eq, part]
            simp only [size_append, size_cons, size_nil, link.1.utf8Size_symbol, List.flatMap_nil,
              Nat.add_zero]
        | cons => rfl
      have operand := slice_eq part
      rw [size_append, size_cons, link.1.utf8Size_symbol, size_nil] at operand
      have symbol := byte_eq (h.trans (by rw [List.flatMap_cons]; rfl)) link.1.utf8EncodeChar_symbol
      rw [offsets_cons, foldFrom, next, operand, ok_bind, here]
      cases read : Expr.ofChars? link.2 with
      | none =>
          rw [List.foldlM_cons, read]
          rfl
      | some right =>
          have rest := @ih (before ++ link.1.symbol :: link.2) (.binary link.1 left right)
            (by rw [h]; simp) later
          rw [size_append, size_cons, link.1.utf8Size_symbol, ← Nat.add_assoc] at rest
          simp only [orMalformed, ok_bind, symbol, Op.ofByte?_symbol, List.foldlM_cons, read]
          exact rest

theorem offsets_eq_nil_iff {start : Nat} {links : List (Op × List Char)} :
    offsets start links = [] ↔ links = [] := by
  cases links <;> simp [offsets_cons, offsets_nil]

theorem fold_eq {first : List Char} {links : List (Op × List Char)}
    (h : text.toList = Chain.flatten ⟨first, links⟩)
    (some_links : links ≠ [])
    (hfirst : read (String.ofList first) = orMalformed (Expr.ofChars? first))
    (hlinks : ∀ link ∈ links, read (String.ofList link.2) = orMalformed (Expr.ofChars? link.2)) :
    fold read text (offsets (size first) links) =
      orMalformed ((Expr.ofChars? first).bind fun left =>
        links.foldlM (fun left link => (Expr.ofChars? link.2).map (.binary link.1 left)) left) := by
  obtain ⟨link, links, rfl⟩ := List.exists_cons_of_ne_nil some_links
  have operand : slice text 0 (size first) = .ok (String.ofList first) := by
    have part := @slice_eq text [] first _ h
    rwa [size_nil, Nat.zero_add] at part
  rw [offsets_cons, fold, operand, ok_bind, hfirst, ← offsets_cons]
  cases Expr.ofChars? first with
  | none => rfl
  | some left => exact foldFrom_eq h hlinks

theorem size_lt_of_mem_operands {chain : Chain (List Char)} (some_links : chain.rest ≠ [])
    {operand : List Char} (h : operand ∈ chain.operands) : size operand < size chain.flatten := by
  obtain ⟨first, links⟩ := chain
  have symbol (op : Op) := op.utf8Size_symbol
  rcases List.mem_cons.1 h with rfl | later
  · obtain ⟨link, links, rfl⟩ := List.exists_cons_of_ne_nil some_links
    simp only [Chain.flatten, List.flatMap_cons, size_append, size_cons, symbol]
    omega
  · obtain ⟨link, mem, rfl⟩ := List.mem_map.1 later
    obtain ⟨before, after, rfl⟩ := List.append_of_mem mem
    simp only [Chain.flatten, List.flatMap_append, List.flatMap_cons, size_append,
      size_cons, symbol]
    omega

theorem split_cons {level : Level} (tighter : List Level)
    (loosest : CutsOnly (fun op => level.tightness ≤ op.tightness) text.toList)
    (reads : ReadsShorter read text) :
    CutsOnly (fun op => level.tightness < op.tightness) text.toList ∧
        split read text (level :: tighter) = split read text tighter ∨
      split read text (level :: tighter) = orMalformed (Expr.ofChars? text.toList) := by
  obtain ⟨first, links, flat, tight, same, found⟩ :=
    @operators_eq text level [] text.toList rfl loosest
  rw [size_nil, Nat.zero_add] at found
  rw [split, found, ok_bind]
  by_cases none : links = []
  · left
    subst none
    rw [Chain.flatten, List.flatMap_nil, List.append_nil] at flat
    exact ⟨flat ▸ tight, if_pos rfl⟩
  · right
    have shorter : ∀ operand ∈ (⟨first, links⟩ : Chain (List Char)).operands,
        read (String.ofList operand) = orMalformed (Expr.ofChars? operand) := by
      intro operand mem
      refine reads operand ?_
      rw [utf8ByteSize_eq, ← flat]
      exact size_lt_of_mem_operands none mem
    obtain ⟨hfirst, hlinks⟩ := List.forall_mem_cons.1 shorter
    rw [if_neg (mt offsets_eq_nil_iff.1 none),
      fold_eq flat.symm none hfirst (List.forall_mem_map.1 hlinks),
      ← Expr.ofChars?_flatten (tight.mono fun _ => Nat.le_of_lt) same, flat]

/-- A text is split at its loosest operators, if it is cut at operators at all. -/
theorem split_eq (reads : ReadsShorter read text)
    (unread : (∀ chain, Chain.ofText? text.toList = some chain → chain.rest = []) →
      Expr.ofChars? text.toList = none) :
    split read text Level.loosestFirst = orMalformed (Expr.ofChars? text.toList) := by
  change split read text [.additive, .multiplicative, .power] = _
  by_cases closed : Mark.OpeningsClosed (marks text.toList)
  · have all : CutsOnly (fun op => Level.additive.tightness ≤ op.tightness) text.toList :=
      (CutsOnly.of_openingsClosed closed).mono fun _ _ => Nat.zero_le _
    rcases split_cons [.multiplicative, .power] all reads with ⟨tighter, passed⟩ | done
    · rw [passed]
      rcases @split_cons _ _ .multiplicative [.power] tighter reads with ⟨tighter, passed⟩ | done
      · rw [passed]
        rcases @split_cons _ _ .power [] tighter reads with ⟨tighter, passed⟩ | done
        · have sealed : Sealed text.toList := tighter.sealed fun op => by
            cases op <;> simp [Op.tightness, Op.level, Level.tightness]
          rw [passed, unread fun chain cut =>
            congrArg Chain.rest (Option.some.inj (cut.symm.trans sealed))]
          rfl
        · exact done
      · exact done
    · exact done
  · have stuck := @operators_of_open text .additive [] text.toList rfl closed
    rw [size_nil] at stuck
    rw [split, stuck, unread fun chain cut => absurd
      (Chain.isSome_ofText?_iff.1 (Option.isSome_iff_exists.2 ⟨chain, cut⟩)) closed]
    rfl

theorem readBare_eq (bare : unwrap? text.toList = none) (reads : ReadsShorter read text) :
    readBare read text = orMalformed (Expr.ofChars? text.toList) := by
  by_cases empty : text = ""
  · subst empty
    rw [readBare, if_pos (by decide), Expr.ofChars?_plain rfl rfl]
    exact congrArg Except.ok Expr.ofLeaf_nil.symm
  rw [readBare, if_neg (by simpa using empty), call?_eq]
  cases ends : Shape.endsUnmatched text.toList with
  | true =>
      rw [if_pos rfl, Expr.ofChars?_of_endsUnmatched ends]
      rfl
  | false =>
      rw [if_neg Bool.false_ne_true, ok_bind]
      cases called : Shape.call? text.toList with
      | some call =>
          obtain ⟨fn, inner⟩ := call
          obtain ⟨split, balanced⟩ := Shape.call?_eq_some_iff.1 called
          have shorter : size (wrap inner) < text.utf8ByteSize := by
            have name : 0 < size fn.name := by cases fn <;> decide
            rw [utf8ByteSize_eq, split, size_append]
            omega
          change (read (String.ofList (wrap inner))).map (Expr.apply fn) = _
          rw [reads _ shorter, Expr.ofChars?_wrap balanced, split, Expr.ofChars?_call fn balanced]
          cases Expr.ofChars? inner <;> rfl
      | none =>
          cases operators : hasOperators text.toList with
          | true => exact split_eq reads (Expr.ofChars?_uncut bare called operators)
          | false =>
              change (if Decimal.isLiteral text.toList = true then _ else _) = _
              rw [Expr.ofChars?_leaf bare ends called operators, Expr.ofLeaf, String.ofList_toList]
              split
              · next literal =>
                  rw [leading_eq literal]
                  rfl
              · rfl

/-- By induction on the size of the text: the parts that are read are shorter. -/
theorem read_eq (text : String) : InPlace.read text = orMalformed (Expr.ofChars? text.toList) := by
  induction bytes : text.utf8ByteSize using Nat.strongRecOn generalizing text with
  | ind n ih =>
      subst bytes
      obtain ⟨le, stripped⟩ := strip_eq text
      rw [InPlace.read, stripped, ok_bind, readBare_eq, String.toList_ofList,
        Expr.ofChars?_unwrapAll]
      · rw [String.toList_ofList]
        exact unwrap?_unwrapAll text.toList
      · intro part shorter
        have smaller : (String.ofList part).utf8ByteSize <
            (String.ofList (unwrapAll text.toList)).utf8ByteSize := by
          rwa [utf8ByteSize_eq, String.toList_ofList]
        refine (dif_pos smaller).trans ?_
        rw [ih _ (Nat.lt_of_lt_of_le smaller le) _ rfl, String.toList_ofList]

/-- Whatever the text, none of the checks fails: reading by offsets comes to the same end as reading
    by characters, and from every offset the search for a matching bracket comes to its end. -/
theorem parse_never_faults (text : String) :
    (∀ fault, parse text ≠ .error (.fault fault)) ∧
      parse text = (Expr.parse text).mapError (fun _ => .malformed) ∧
      ∀ part offset, matching part offset = .ok (matchingBracket? part offset) := by
  have same : parse text = (Expr.parse text).mapError fun _ => .malformed := by
    rw [parse, read_eq, String.toList_ofList, Expr.parse]
    cases Expr.ofChars? (removeBlanks text.toList) <;> rfl
  refine ⟨fun fault failed => ?_, same, matching_eq⟩
  rw [same] at failed
  cases result : Expr.parse text <;> simp [result, Except.mapError] at failed

end Fluxion.InPlace
