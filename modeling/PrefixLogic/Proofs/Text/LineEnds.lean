import PrefixLogic.Proofs.Text.Lines
import PrefixLogic.Text.Blank

/-!
# How stored lines end

A stored line may end in eleven ways (`Text.lineEnds`), and every line in a way of its own
(`Text.Writes`). Two line ends can be read as one, if the first is a carriage return and the next
line is empty and ends with a newline. So the lines of a text are those that were written, but for
blank ones (`Text.Writes.notBlank_storedLines`).

A text that ends with a newline is cut into the same lines whatever is put after it
(`Text.storedLines_append`).
-/

namespace PrefixLogic.Text

/-- The ways in which a stored line may end. -/
def lineEnds : List String :=
  ["\n", "\r", "\r\n", "\u000b", "\u000c", "\u001c", "\u001d", "\u001e", "\u0085", "\u2028",
    "\u2029"]

/-- The text holds the lines one after the other, each of them ended in some way. The last one may
be left without an end. -/
inductive Writes : List String → String → Prop
  | nil : Writes [] ""
  | last {line : String} : IsLine line → Writes [line] line
  | cons {line lineEnd : String} {lines : List String} {text : String} : IsLine line →
      lineEnd ∈ lineEnds → Writes lines text → Writes (line :: lines) (line ++ lineEnd ++ text)

/-- The lines that are not blank. -/
def notBlank (lines : List String) : List String := lines.filter fun line => !isBlankText line

theorem writes_typed {lines : List String} (h : ∀ line ∈ lines, IsLine line) :
    Writes lines (typed lines) := by
  induction lines with
  | nil => exact .nil
  | cons line lines ih =>
      rw [List.forall_mem_cons] at h
      rw [typed, List.map_cons, String.join_cons]
      exact .cons h.1 List.mem_cons_self (ih h.2)

theorem Writes.isLine {lines : List String} {text : String} (h : Writes lines text) :
    ∀ line ∈ lines, IsLine line := by
  induction h with
  | nil => exact List.forall_mem_nil _
  | last hline => exact List.forall_mem_singleton.2 hline
  | cons hline _ _ ih => exact List.forall_mem_cons.2 ⟨hline, ih⟩

/-! ## One line and its end -/

/-- A carriage return is read as a newline by itself, unless a newline comes after it. -/
theorem unifyNewlines_return {c : Char} (h : c ≠ '\n') (rest : List Char) :
    unifyNewlines ('\r' :: c :: rest) = '\n' :: unifyNewlines (c :: rest) := by
  rw [unifyNewlines.eq_def]
  split
  case h_1 heq => cases heq
  case h_2 heq =>
    cases heq
    exact absurd rfl h
  case h_3 heq =>
    cases heq
    rfl

/-- A line end is read as one character that ends a line. A newline after it may be read with it,
and then an empty line is lost. -/
theorem exists_unifyNewlines_lineEnd {lineEnd : String} (h : lineEnd ∈ lineEnds)
    (rest : List Char) :
    ∃ c after, isLineEnd c = true ∧ unifyNewlines (lineEnd.toList ++ rest) = c :: after ∧
      (after = unifyNewlines rest ∨ unifyNewlines rest = '\n' :: after) := by
  simp only [lineEnds, List.mem_cons, List.not_mem_nil, or_false] at h
  rcases h with rfl | rfl | rfl | rfl | rfl | rfl | rfl | rfl | rfl | rfl | rfl
  case inr.inl =>
    -- a carriage return
    refine ⟨'\n', ?_⟩
    cases rest with
    | nil => exact ⟨[], rfl, rfl, .inl rfl⟩
    | cons c rest =>
        by_cases hc : c = '\n'
        · subst hc
          exact ⟨unifyNewlines rest, rfl, rfl, .inr rfl⟩
        · exact ⟨unifyNewlines (c :: rest), rfl, unifyNewlines_return hc rest, .inl rfl⟩
  case inr.inr.inl => exact ⟨'\n', unifyNewlines rest, rfl, rfl, .inl rfl⟩
  all_goals
    refine ⟨_, unifyNewlines rest, ?_, unifyNewlines_cons ?_ rest, .inl rfl⟩
    · decide
    · decide

/-- The line is cut off at its end. -/
theorem notBlank_storedLines_append {line lineEnd : String} (hline : IsLine line)
    (hend : lineEnd ∈ lineEnds) (text : String) :
    notBlank (storedLines (line ++ lineEnd ++ text)) = notBlank (line :: storedLines text) := by
  obtain ⟨c, after, hc, hunify, hafter⟩ := exists_unifyNewlines_lineEnd hend text.toList
  have hcut : storedLines (line ++ lineEnd ++ text) =
      line :: (cutLines isLineEnd after).map String.ofList := by
    rw [storedLines, String.toList_append, String.toList_append, List.append_assoc,
      unifyNewlines_append (not_mem_of_isLine hline), hunify, cutLines_append hline hc,
      List.map_cons, String.ofList_toList]
  rw [hcut, storedLines]
  rcases hafter with rfl | hlost
  · rfl
  · -- the line that is lost is empty
    rw [hlost, cutLines_end (by decide)]
    rfl

/-- The lines of a text are those that were written, but for blank ones. -/
theorem Writes.notBlank_storedLines {lines : List String} {text : String} (h : Writes lines text) :
    notBlank (storedLines text) = notBlank lines := by
  induction h with
  | nil => rfl
  | @last line hline =>
      by_cases hempty : line.toList = []
      · rw [String.toList_eq_nil_iff.1 hempty]
        rfl
      · rw [storedLines, unifyNewlines_of_not_mem (not_mem_of_isLine hline),
          cutLines_singleton hempty hline, List.map_singleton, String.ofList_toList]
  | cons hline hend _ ih =>
      rw [notBlank_storedLines_append hline hend, notBlank, List.filter_cons, ← notBlank, ih,
        notBlank, notBlank, List.filter_cons]

/-! ## Texts that are put together -/

/-- A newline is not read with what comes after it. -/
theorem exists_unifyNewlines_newline (front : List Char) :
    ∃ before, ∀ back,
      unifyNewlines (front ++ '\n' :: back) = before ++ '\n' :: unifyNewlines back := by
  have hnewline (back : List Char) : unifyNewlines ('\n' :: back) = '\n' :: unifyNewlines back :=
    unifyNewlines_cons (by decide) back
  fun_induction unifyNewlines front with
  | case1 => exact ⟨[], hnewline⟩
  | case2 rest ih =>
      obtain ⟨before, hbefore⟩ := ih
      exact ⟨'\n' :: before, fun back => congrArg ('\n' :: ·) (hbefore back)⟩
  | case3 c rest hnot ih =>
      obtain ⟨before, hbefore⟩ := ih
      by_cases hpair : c = '\r' ∧ rest = []
      · obtain ⟨rfl, rfl⟩ := hpair
        exact ⟨[], fun _ => rfl⟩
      · refine ⟨(if c = '\r' then '\n' else c) :: before, ?_⟩
        intro back
        rw [List.cons_append, List.cons_append, ← hbefore, unifyNewlines.eq_def]
        split
        case h_1 heq => cases heq
        case h_2 rest' heq =>
          -- the newline of the pair would be in the front
          cases rest with
          | nil => exact absurd ⟨(List.cons.inj heq).1, rfl⟩ hpair
          | cons d rest =>
              cases heq
              exact (hnot rest rfl rfl).elim
        case h_3 heq =>
          cases heq
          rfl

theorem consLine_ne_nil (isEnd : Char → Bool) (c : Char) (lines : List (List Char)) :
    consLine isEnd c lines ≠ [] := by
  rw [consLine.eq_def]
  by_cases hc : isEnd c = true
  · rw [if_pos hc]
    exact List.cons_ne_nil _ _
  · rw [if_neg hc]
    cases lines with
    | nil => exact List.cons_ne_nil _ _
    | cons line lines => exact List.cons_ne_nil _ _

theorem cutLines_ne_nil {isEnd : Char → Bool} {text : List Char} (h : text ≠ []) :
    cutLines isEnd text ≠ [] := by
  cases text with
  | nil => exact absurd rfl h
  | cons c text => exact consLine_ne_nil isEnd c _

/-- Cutting goes on afresh after a line end. -/
theorem cutLines_append_end {isEnd : Char → Bool} {lineEnd : Char} (hend : isEnd lineEnd = true)
    (front back : List Char) :
    cutLines isEnd (front ++ lineEnd :: back) =
      cutLines isEnd (front ++ [lineEnd]) ++ cutLines isEnd back := by
  induction front with
  | nil => rw [List.nil_append, List.nil_append, cutLines_end hend, cutLines_end hend]; rfl
  | cons c front ih =>
      change consLine isEnd c (cutLines isEnd (front ++ lineEnd :: back)) =
        consLine isEnd c (cutLines isEnd (front ++ [lineEnd])) ++ _
      rw [ih]
      cases hlines : cutLines isEnd (front ++ [lineEnd]) with
      | nil => exact absurd hlines (cutLines_ne_nil (by simp))
      | cons line lines =>
          rw [List.cons_append, consLine.eq_def, consLine.eq_def]
          split
          · rfl
          · rfl

/-- A text that ends with a newline is cut into the same lines whatever is put after it. -/
theorem storedLines_append {front : String}
    (h : front = "" ∨ front.toList.getLast? = some '\n') (back : String) :
    storedLines (front ++ back) = storedLines front ++ storedLines back := by
  rcases h with rfl | hlast
  · rw [String.empty_append]
    rfl
  · obtain ⟨init, hinit⟩ := List.getLast?_eq_some_iff.1 hlast
    obtain ⟨before, hbefore⟩ := exists_unifyNewlines_newline init
    have hfront : unifyNewlines front.toList = before ++ ['\n'] := by
      rw [hinit]
      exact hbefore []
    -- before the newline, the front is read as it is by itself
    have hwhole : unifyNewlines (front ++ back).toList =
        before ++ '\n' :: unifyNewlines back.toList := by
      rw [String.toList_append, hinit, List.append_assoc]
      exact hbefore back.toList
    rw [storedLines, storedLines, storedLines, hfront, hwhole, cutLines_append_end (by decide),
      List.map_append]

end PrefixLogic.Text
