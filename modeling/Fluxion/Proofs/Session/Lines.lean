import Fluxion.Session
import Fluxion.Proofs.Text.Utf8

/-! # A session is the sequence of its lines

A reader of an input yields its first line and then the lines behind it, whatever these are. So the
first line is answered, the rest of the session does not depend on it, and a session writes the
answers of its lines one after the other, up to a line that is no text. An argument is answered like
a line of the input.
-/

namespace Fluxion.Session

theorem splitLines_cons {b : UInt8} {bytes : List UInt8} (feed : b ≠ 10)
    (ending : b = 13 → bytes.head? ≠ some 10) :
    splitLines (b :: bytes) = ((b :: (splitLines bytes).headD []) :: (splitLines bytes).tail) := by
  rw [splitLines]
  · cases splitLines bytes <;> rfl
  · exact feed
  · rintro rest return_ rfl
    exact ending return_ rfl

/-- Up to its first line feed an input is one line, whose ending may have been a
    carriage return too. -/
theorem splitLines_line {bytes : List UInt8} (whole : 10 ∉ bytes) (rest : List UInt8) :
    ∃ line, splitLines (bytes ++ 10 :: rest) = line :: splitLines rest ∧
      (bytes = line ∨ bytes = line ++ [13]) := by
  induction bytes with
  | nil => exact ⟨[], rfl, .inl rfl⟩
  | cons b bytes ih =>
      obtain ⟨feed, whole⟩ := not_or.1 (mt List.mem_cons.2 whole)
      by_cases last : b = 13 ∧ bytes = []
      · obtain ⟨rfl, rfl⟩ := last
        exact ⟨[], rfl, .inr rfl⟩
      · obtain ⟨line, split, ends⟩ := ih whole
        refine ⟨b :: line, ?_, ends.imp (congrArg (b :: ·)) (congrArg (b :: ·))⟩
        rw [List.cons_append, splitLines_cons (Ne.symm feed), split]
        · rfl
        · intro return_ first
          cases bytes with
          | nil => exact last ⟨return_, rfl⟩
          | cons c bytes => exact whole (Option.some.inj first ▸ List.mem_cons_self)

theorem splitLines_last {bytes : List UInt8} (whole : 10 ∉ bytes) (some_bytes : bytes ≠ []) :
    splitLines bytes = [bytes] := by
  induction bytes with
  | nil => exact absurd rfl some_bytes
  | cons b bytes ih =>
      obtain ⟨feed, whole⟩ := not_or.1 (mt List.mem_cons.2 whole)
      rw [splitLines_cons (Ne.symm feed) fun _ first => whole (List.mem_of_head? first)]
      cases bytes with
      | nil => rfl
      | cons c bytes => rw [ih whole (List.cons_ne_nil c bytes)]; rfl

/-- A text that is one line: no line feed in it, and no carriage return at its end. -/
def IsLine (line : String) : Prop := '\n' ∉ line.toList ∧ line.toList.getLast? ≠ some '\r'

instance (line : String) : Decidable (IsLine line) := inferInstanceAs (Decidable (_ ∧ _))

theorem IsLine.splitLines_utf8 {line : String} (h : IsLine line) (rest : List UInt8) :
    splitLines (utf8 line.toList ++ 10 :: rest) = utf8 line.toList :: splitLines rest := by
  have whole : 10 ∉ utf8 line.toList := fun feed => h.1 (mem_of_mem_utf8 feed (by decide))
  obtain ⟨bytes, split, same | longer⟩ := splitLines_line whole rest
  · rw [split, same]
  · refine absurd (getLast?_of_utf8 (b := 13) ?_ (by decide)) h.2
    rw [longer, List.getLast?_concat]

/-- What is assumed of a reader. The lines that can be typed are read as they are, one by one, and
    a first line that is no text is refused. -/
structure Reads (read : ByteArray → List (Except LineError String)) (typable : String → Prop) :
    Prop where
  ends : read .empty = []
  keeps : ∀ line rest, IsLine line → typable line →
    read (line.toUTF8 ++ "\n".toUTF8 ++ rest) = .ok line :: read rest
  refuses : ∀ bad rest : ByteArray, ¬ bad.IsValidUTF8 → 10 ∉ bad.data.toList →
    (rest = .empty ∨ ∃ more, rest = "\n".toUTF8 ++ more) →
    (read (bad ++ rest)).head? = some (.error .notText)

theorem readLine_utf8 {line : String} (plain : Typed.backspace ∉ line.toList) :
    readLine (utf8 line.toList) = .ok line := by
  have text : String.fromUTF8? ⟨(utf8 line.toList).toArray⟩ = some line := by
    rw [← toList_toUTF8]
    exact dif_pos line.isValidUTF8
  rw [readLine, text]
  simp only [Typed.result?_of_not_mem plain, String.ofList_toList]

theorem readLine_of_not_isValidUTF8 {bytes : List UInt8}
    (bad : ¬ ByteArray.IsValidUTF8 ⟨bytes.toArray⟩) : readLine bytes = .error .notText := by
  rw [readLine, String.fromUTF8?, dif_neg bad]

theorem not_isValidUTF8_of_concat {bytes : List UInt8}
    (bad : ¬ ByteArray.IsValidUTF8 ⟨(bytes ++ [13]).toArray⟩) :
    ¬ ByteArray.IsValidUTF8 ⟨bytes.toArray⟩ := by
  intro valid
  apply bad
  have ending := valid.append "\r".isValidUTF8
  have same : (⟨(bytes ++ [13]).toArray⟩ : ByteArray) = ⟨bytes.toArray⟩ ++ "\r".toByteArray := by
    apply ByteArray.ext
    rw [ByteArray.data_append]
    exact Array.toArray_eq_append_iff.2 rfl
  rwa [same]

theorem splitLines_bad {bad rest : ByteArray} (no_text : ¬ bad.IsValidUTF8)
    (whole : 10 ∉ bad.data.toList) (ends : rest = .empty ∨ ∃ more, rest = "\n".toUTF8 ++ more) :
    ∃ bytes lines, splitLines (bad ++ rest).data.toList = bytes :: lines ∧
      ¬ ByteArray.IsValidUTF8 ⟨bytes.toArray⟩ := by
  rw [ByteArray.toList_data_append]
  rcases ends with rfl | ⟨more, rfl⟩
  · have some_bytes : bad.data.toList ≠ [] := by
      intro nothing
      have none_left : bad = .empty := ByteArray.ext (Array.toList_inj.1 nothing)
      exact no_text (none_left ▸ ByteArray.isValidUTF8_empty)
    refine ⟨bad.data.toList, [], ?_, no_text⟩
    exact (List.append_nil _).symm ▸ splitLines_last whole some_bytes
  · rw [ByteArray.toList_data_append]
    obtain ⟨bytes, split, same | longer⟩ := splitLines_line whole more.data.toList
    · exact ⟨bytes, _, split, same ▸ no_text⟩
    · refine ⟨bytes, _, split, not_isValidUTF8_of_concat ?_⟩
      rw [← longer]
      exact no_text

/-- A typed line is read as it is when there is no backspace in it. -/
theorem reads_readLines : Reads readLines fun line => Typed.backspace ∉ line.toList where
  ends := rfl
  keeps line rest whole plain := by
    have bytes : (line.toUTF8 ++ "\n".toUTF8 ++ rest).data.toList =
        utf8 line.toList ++ 10 :: rest.data.toList := by
      simp only [ByteArray.toList_data_append, toList_toUTF8, List.append_assoc]
      rfl
    rw [readLines, bytes, whole.splitLines_utf8, List.map_cons, readLine_utf8 plain]
    rfl
  refuses bad rest no_text whole ends := by
    obtain ⟨bytes, lines, split, no_text⟩ := splitLines_bad no_text whole ends
    rw [readLines, split, List.map_cons, readLine_of_not_isValidUTF8 no_text]
    rfl

/-- A session with something written before it. -/
def after (output : String) (session : Session) : Session :=
  { session with output := output ++ session.output }

@[simp] theorem after_empty (session : Session) : after "" session = session := by
  rw [after, String.empty_append]

theorem after_after (first second : String) (session : Session) :
    after first (after second session) = after (first ++ second) session := by
  rw [after, after, after, String.append_assoc]

/-- An input of lines, each with a line feed at its end. -/
def input (lines : List String) : ByteArray := (String.join (lines.map (· ++ "\n"))).toUTF8

/-- What is written for each of the lines alone. -/
def outputs (lines : List String) : String :=
  String.join (lines.map fun line => (Answer.ofLine line).output)

variable {read : ByteArray → List (Except LineError String)} {typable : String → Prop}

theorem ofInput_line (reads : Reads read typable) {line : String} (whole : IsLine line)
    (typed : typable line) (rest : ByteArray) :
    ofInput read (line.toUTF8 ++ "\n".toUTF8 ++ rest) =
      after (Answer.ofLine line).output (ofInput read rest) := by
  rw [ofInput, reads.keeps line rest whole typed, ofLines]
  rfl

theorem ofInput_lines (reads : Reads read typable) {lines : List String}
    (typed : ∀ line ∈ lines, IsLine line ∧ typable line) (rest : ByteArray) :
    ofInput read (input lines ++ rest) = after (outputs lines) (ofInput read rest) := by
  induction lines with
  | nil =>
      have nothing : input [] ++ rest = rest := ByteArray.empty_append
      rw [nothing]
      exact (after_empty _).symm
  | cons line lines ih =>
      obtain ⟨⟨whole, keeps⟩, typed⟩ := List.forall_mem_cons.1 typed
      have bytes :
          input (line :: lines) ++ rest = line.toUTF8 ++ "\n".toUTF8 ++ (input lines ++ rest) := by
        simp only [input, List.map_cons, String.join_cons, String.toUTF8, String.toByteArray_append,
          ByteArray.append_assoc]
      rw [bytes, ofInput_line reads whole keeps, ih typed, after_after, outputs, outputs,
        List.map_cons, String.join_cons]

theorem ofInput_empty (reads : Reads read typable) : ofInput read .empty = ⟨"", 0⟩ := by
  rw [ofInput, reads.ends]
  rfl

theorem ofInput_bad (reads : Reads read typable) {bad rest : ByteArray}
    (no_text : ¬ bad.IsValidUTF8)
    (whole : 10 ∉ bad.data.toList) (ends : rest = .empty ∨ ∃ more, rest = "\n".toUTF8 ++ more) :
    ofInput read (bad ++ rest) = ⟨"", 1⟩ := by
  obtain ⟨later, first⟩ := List.head?_eq_some_iff.1 (reads.refuses bad rest no_text whole ends)
  rw [ofInput, first]
  rfl

/-- A session answers its lines one after the other, and ends without an error after the last, or
    with one at the first that is no text. Arguments are answered like the line that they make. -/
theorem run_lines (reads : Reads read typable) :
    (∀ lines : List String, (∀ line ∈ lines, IsLine line ∧ typable line) →
      runWith read [] (input lines) = ⟨outputs lines, 0⟩ ∧
      ∀ bad rest : ByteArray, ¬ bad.IsValidUTF8 → 10 ∉ bad.data.toList →
        (rest = .empty ∨ ∃ more, rest = "\n".toUTF8 ++ more) →
        runWith read [] (input lines ++ bad ++ rest) = ⟨outputs lines, 1⟩) ∧
    ∀ (args : List String) (unread : ByteArray), args ≠ [] →
      IsLine (" ".intercalate args) → typable (" ".intercalate args) →
        runWith read args unread = runWith read [] (input [" ".intercalate args]) := by
  have ends (lines : List String) (typed : ∀ line ∈ lines, IsLine line ∧ typable line) :
      runWith read [] (input lines) = ⟨outputs lines, 0⟩ := by
    have last := ofInput_lines reads typed .empty
    rw [ByteArray.append_empty, ofInput_empty reads] at last
    rw [runWith, List.isEmpty_nil, if_pos rfl, last, after, String.append_empty]
  refine ⟨fun lines typed => ⟨ends lines typed, ?_⟩, ?_⟩
  · intro bad rest no_text whole ending
    rw [runWith, List.isEmpty_nil, if_pos rfl, ByteArray.append_assoc, ofInput_lines reads typed,
      ofInput_bad reads no_text whole ending, after, String.append_empty]
  · intro args unread some_args whole typed
    rw [ends _ fun line only => List.mem_singleton.1 only ▸ ⟨whole, typed⟩]
    rw [runWith, if_neg (by simpa using some_args), ofArguments, ofLines, ofLines, outputs,
      List.map_cons, String.join_cons]
    rfl

/-- Lines with a point, without a meaning, with a bad point and with characters of more
    than one byte. -/
def mixedLines : List String := ["x^2 @ 3", "(", "x @ π", "sin(é)"]

/-- The reader of typed lines reads such lines, up to a byte that starts no character. -/
theorem run_mixedLines :
    run [] (input mixedLines) = ⟨outputs mixedLines, 0⟩ ∧
      run [] (input mixedLines ++ ⟨#[0x78, 0xff]⟩ ++ "\nx^3\n".toUTF8) = ⟨outputs mixedLines, 1⟩ ∧
      run ["x^2", "@", "3"] .empty = run [] (input ["x^2 @ 3"]) := by
  have lines := (run_lines reads_readLines).1 mixedLines (by decide)
  have arguments := (run_lines reads_readLines).2 ["x^2", "@", "3"] .empty (by decide) (by decide)
    (by decide)
  have ending : "\nx^3\n".toUTF8 = "\n".toUTF8 ++ "x^3\n".toUTF8 := by decide +kernel
  refine ⟨lines.1, lines.2 _ _ (by decide +kernel) (by decide) (.inr ⟨_, ending⟩), ?_⟩
  have line : " ".intercalate ["x^2", "@", "3"] = "x^2 @ 3" := by decide
  rwa [line] at arguments

end Fluxion.Session
