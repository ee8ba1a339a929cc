import PrefixLogic.Text.Lines

/-!
# Lines of texts that are put together

A text is cut at its line ends, one line after the other (`Text.cutLines_append`). So lines without
line ends are the lines of the text that they make up: of the typed text in which each of them is
ended by a newline (`Text.typedLines_typed`), also if it is stored (`Text.storedLines_typed`), and
of the stored text in which newlines stand between them, where a last line that is empty is not seen
(`Text.exists_storedLines_stored`).
-/

namespace PrefixLogic.Text

variable {isEnd : Char → Bool}

theorem cutLines_end {lineEnd : Char} (hend : isEnd lineEnd = true) (rest : List Char) :
    cutLines isEnd (lineEnd :: rest) = [] :: cutLines isEnd rest := if_pos hend

/-- A character that ends no line stands at the front of the first line. -/
theorem cutLines_cons {c : Char} (hc : isEnd c = false) {text line : List Char}
    {lines : List (List Char)} (h : cutLines isEnd text = line :: lines) :
    cutLines isEnd (c :: text) = (c :: line) :: lines := by
  change consLine isEnd c (cutLines isEnd text) = _
  rw [h, consLine.eq_def, if_neg (by simp [hc])]

/-- A line is cut off at its end. -/
theorem cutLines_append {line : List Char} (hline : ∀ c ∈ line, isEnd c = false) {lineEnd : Char}
    (hend : isEnd lineEnd = true) (rest : List Char) :
    cutLines isEnd (line ++ lineEnd :: rest) = line :: cutLines isEnd rest := by
  induction line with
  | nil => exact cutLines_end hend rest
  | cons c line ih =>
      rw [List.forall_mem_cons] at hline
      exact cutLines_cons hline.1 (ih hline.2)

/-- Without an end, there is no line but the text itself. -/
theorem cutLines_singleton {line : List Char} (hne : line ≠ [])
    (hline : ∀ c ∈ line, isEnd c = false) : cutLines isEnd line = [line] := by
  induction line with
  | nil => exact absurd rfl hne
  | cons c line ih =>
      rw [List.forall_mem_cons] at hline
      cases line with
      | nil =>
          change consLine isEnd c [] = _
          rw [consLine.eq_def, if_neg (by simp [hline.1])]
      | cons d line => exact cutLines_cons hline.1 (ih (List.cons_ne_nil d line) hline.2)

/-! ## Typed text -/

/-- The text of lines that are typed one after the other. -/
def typed (lines : List String) : String := String.join (lines.map (· ++ "\n"))

theorem toList_typed_cons (line : String) (lines : List String) :
    (typed (line :: lines)).toList = line.toList ++ '\n' :: (typed lines).toList := by
  simp [typed]

theorem typedLines_typed {lines : List String} (h : ∀ line ∈ lines, '\n' ∉ line.toList) :
    typedLines (typed lines) = lines := by
  induction lines with
  | nil => rfl
  | cons line lines ih =>
      rw [List.forall_mem_cons] at h
      have hline : ∀ c ∈ line.toList, decide (c = '\n') = false := by
        rintro c hmem
        exact decide_eq_false fun heq => h.1 (heq ▸ hmem)
      rw [typedLines, toList_typed_cons, cutLines_append hline rfl, List.map_cons,
        String.ofList_toList]
      exact congrArg (line :: ·) (ih h.2)

/-! ## Stored text -/

/-- A text without line ends. -/
def IsLine (line : String) : Prop := ∀ c ∈ line.toList, isLineEnd c = false

instance (line : String) : Decidable (IsLine line) :=
  List.decidableBAll (fun c => isLineEnd c = false) line.toList

theorem not_mem_of_isLine {line : String} (h : IsLine line) : '\r' ∉ line.toList := fun hmem =>
  absurd (h '\r' hmem) (by decide)

theorem unifyNewlines_cons {c : Char} (h : c ≠ '\r') (rest : List Char) :
    unifyNewlines (c :: rest) = c :: unifyNewlines rest := by
  rw [unifyNewlines.eq_def]
  split
  case h_1 heq => cases heq
  case h_2 heq =>
    cases heq
    exact absurd rfl h
  case h_3 heq =>
    cases heq
    rw [if_neg h]

/-- Up to a carriage return there is nothing to unify. -/
theorem unifyNewlines_append {text : List Char} (h : '\r' ∉ text) (rest : List Char) :
    unifyNewlines (text ++ rest) = text ++ unifyNewlines rest := by
  induction text with
  | nil => rfl
  | cons c text ih =>
      rw [List.mem_cons, not_or] at h
      rw [List.cons_append, unifyNewlines_cons (Ne.symm h.1), ih h.2, List.cons_append]

theorem unifyNewlines_of_not_mem {text : List Char} (h : '\r' ∉ text) :
    unifyNewlines text = text := by
  simpa [unifyNewlines] using unifyNewlines_append h []

/-- A text in which each line is ended by a newline may be stored as well as typed. -/
theorem storedLines_typed {lines : List String} (h : ∀ line ∈ lines, IsLine line) :
    storedLines (typed lines) = lines := by
  induction lines with
  | nil => rfl
  | cons line lines ih =>
      rw [List.forall_mem_cons] at h
      rw [storedLines, toList_typed_cons, unifyNewlines_append (not_mem_of_isLine h.1),
        unifyNewlines_cons (by decide), cutLines_append h.1 (by decide), List.map_cons,
        String.ofList_toList]
      exact congrArg (line :: ·) (ih h.2)

theorem storedLines_line {line : String} (h : IsLine line) :
    storedLines (line ++ "\n") = [line] := by
  have hone := storedLines_typed (List.forall_mem_singleton.2 h)
  rwa [typed, List.map_singleton, String.join_cons, String.join_nil, String.append_empty] at hone

/-- The text of stored lines, with newlines between them. -/
def stored (lines : List String) : String := "\n".intercalate lines

theorem stored_cons_cons (line next : String) (lines : List String) :
    (stored (line :: next :: lines)).toList =
      line.toList ++ '\n' :: (stored (next :: lines)).toList := by
  simp [stored, String.intercalate_cons_cons]

theorem not_mem_stored {lines : List String} (h : ∀ line ∈ lines, IsLine line) :
    '\r' ∉ (stored lines).toList := by
  induction lines with
  | nil => exact List.not_mem_nil
  | cons line lines ih =>
      rw [List.forall_mem_cons] at h
      cases lines with
      | nil => simpa [stored] using not_mem_of_isLine h.1
      | cons next lines =>
          rw [stored_cons_cons, List.mem_append, List.mem_cons]
          rintro (hmem | heq | hmem)
          · exact not_mem_of_isLine h.1 hmem
          · exact absurd heq (by decide)
          · exact ih h.2 hmem

/-- Stored lines are the lines of their text, but for a last one that is empty. -/
theorem exists_storedLines_stored {lines : List String} (h : ∀ line ∈ lines, IsLine line) :
    ∃ unseen, lines = storedLines (stored lines) ++ unseen ∧ ∀ line ∈ unseen, line = "" := by
  rw [storedLines, unifyNewlines_of_not_mem (not_mem_stored h)]
  induction lines with
  | nil => exact ⟨[], rfl, List.forall_mem_nil _⟩
  | cons line lines ih =>
      rw [List.forall_mem_cons] at h
      cases lines with
      | cons next lines =>
          obtain ⟨unseen, hlines, hunseen⟩ := ih h.2
          refine ⟨unseen, ?_, hunseen⟩
          rw [stored_cons_cons, cutLines_append h.1 (by decide), List.map_cons,
            String.ofList_toList, List.cons_append, ← hlines]
      | nil =>
          by_cases hempty : line = ""
          · exact ⟨[""], by simp [hempty, stored, cutLines], List.forall_mem_singleton.2 rfl⟩
          · have hne : line.toList ≠ [] := by simpa using hempty
            refine ⟨[], ?_, List.forall_mem_nil _⟩
            simp [stored, cutLines_singleton hne h.1]

end PrefixLogic.Text
