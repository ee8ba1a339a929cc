import PrefixLogic.Proofs.Token.Spacing
import PrefixLogic.Shell

/-!
# What a line of the shell holds

What a line asks for is told by its text: it holds a source, or a command, or nothing. A line whose
command ends the shell is one of two words by itself, or starts with a colon and one of these words
(`Shell.Line.ends_ofString_iff`).
-/

namespace PrefixLogic.Shell

/-! ## Sources and ends -/

namespace Request

/-- The source that is to be run. -/
def source? : Request → Option String
  | .expression source => some source
  | _ => none

/-- Whether a request ends the shell. -/
def ends : Request → Bool
  | .exit => true
  | .farewell => true
  | _ => false

theorem eq_expression {request : Request} {source : String} (h : request.source? = some source) :
    request = .expression source := by
  cases request with
  | expression other => exact congrArg expression (Option.some.inj h)
  | _ => cases h

end Request

namespace Line

/-- The source that a line holds: its text, if there is a text and no command with it. -/
def source? (line : Line) : Option String :=
  if line.text ≠ "" ∧ (line.command = none ∨ line.command = some "") then some line.text else none

/-- A line whose command ends the shell. -/
def Ends (line : Line) : Prop := line.command = some exitWord ∨ line.command = some endWord

instance (line : Line) : Decidable line.Ends :=
  inferInstanceAs (Decidable (line.command = some exitWord ∨ line.command = some endWord))

/-- What a line asks for is told by its command, and by its text if it has none. -/
theorem request_cases (line : Line) :
    (line.request = .nothing ∧ line.command.getD "" = "" ∧ line.text = "") ∨
    (∃ source, line.request = .expression source ∧ line.source? = some source) ∨
    (line.request = .bindings ∧ line.command = some "env") ∨
    (line.request = .help ∧ line.command = some "help") ∨
    (line.request = .exit ∧ line.command = some exitWord) ∨
    (line.request = .farewell ∧ line.command = some endWord) ∨
    ∃ command, line.request = .unknown command ∧ line.command = some command ∧
      command ∉ ["", "env", "help", exitWord, endWord] := by
  obtain ⟨command, argument, text⟩ := line
  rw [request, source?]
  cases command with
  | none => by_cases htext : text = "" <;> simp [htext]
  | some command =>
      dsimp only [Option.getD_some]
      split
      case h_1 => by_cases htext : text = "" <;> simp [htext]
      -- an unknown command is none of the words
      case h_6 => simp_all [exitWord, endWord]
      all_goals simp [exitWord, endWord]

/-- A request has the source of its line, and ends the shell if its line does. -/
theorem request_spec (line : Line) :
    line.request.source? = line.source? ∧ (line.request.ends = true ↔ line.Ends) := by
  obtain ⟨command, argument, text⟩ := line
  rw [request, source?, Ends]
  cases command with
  | none => by_cases htext : text = "" <;> simp [htext, Request.source?, Request.ends]
  | some command =>
      dsimp only [Option.getD_some]
      split
      case h_1 =>
        by_cases htext : text = "" <;>
          simp [htext, Request.source?, Request.ends, exitWord, endWord]
      -- an unknown command is none of the words
      case h_6 => simp_all [Request.source?, Request.ends, exitWord, endWord]
      all_goals simp [Request.source?, Request.ends, exitWord, endWord]

/-! ## How a line ends the shell -/

/-- A text that ends the shell: one of the two words by itself, or a colon, blanks, and one of the
words up to the first character that does not belong to a command. -/
def SaysEnd (text : String) : Prop :=
  ∃ word ∈ [exitWord, endWord], text = word ∨
    ∃ gap rest, text.toList = ':' :: (gap ++ word.toList ++ rest) ∧
      (∀ c ∈ gap, Text.isBlank c = true) ∧ ∀ c ∈ rest.head?, isCommandChar c = false

/-- The two words, as commands. -/
theorem endingWord_spec : ∀ word ∈ [exitWord, endWord],
    word.toList ≠ [] ∧ word ≠ "help" ∧ word.toList.all isCommandChar = true ∧
      word.toList.head? ≠ some ':' ∧ (ofCommand word).command = some word := by
  decide +kernel

theorem isBlank_eq_false_of_isCommandChar {c : Char} (h : isCommandChar c = true) :
    Text.isBlank c = false := by
  delta isCommandChar Char.isAlphanum Char.isAlpha Char.isUpper Char.isLower Char.isDigit at h
  simp only [Bool.or_eq_true, Bool.and_eq_true, decide_eq_true_eq, ge_iff_le,
    UInt32.le_iff_toNat_le] at h
  have hcode : 48 ≤ c.toNat ∧ c.toNat ≤ 122 := by
    rcases h with ((⟨hlow, hhigh⟩ | ⟨hlow, hhigh⟩) | ⟨hlow, hhigh⟩) | rfl
    · exact ⟨Nat.le_trans (by decide) hlow, Nat.le_trans hhigh (by decide)⟩
    · exact ⟨Nat.le_trans (by decide) hlow, Nat.le_trans hhigh (by decide)⟩
    · exact ⟨Nat.le_trans (by decide) hlow, Nat.le_trans hhigh (by decide)⟩
    · decide
  exact Text.isBlank_eq_false_of_ascii (by omega) (by omega)

/-- The leading word of a text is what stands before the first character outside the words. -/
theorem takeWhile_eq_iff {p : Char → Bool} {text word : List Char} :
    text.takeWhile p = word ↔
      (∀ c ∈ word, p c = true) ∧ ∃ rest, text = word ++ rest ∧ ∀ c ∈ rest.head?, p c = false := by
  constructor
  · rintro rfl
    refine ⟨fun c => List.all_eq_true.1 List.all_takeWhile c, text.dropWhile p,
      List.takeWhile_append_dropWhile.symm, ?_⟩
    intro c hc
    have hstop := List.head?_dropWhile_not p text
    rwa [Option.mem_def.1 hc] at hstop
  · rintro ⟨hword, rest, rfl, hstop⟩
    rw [List.takeWhile_append_of_pos hword]
    cases rest with
    | nil => simp
    | cons c rest => simp [hstop c rfl]

/-- Blanks at the end of a text do not belong to its leading word. -/
theorem takeWhile_append_blanks {blanks : List Char} (h : ∀ c ∈ blanks, Text.isBlank c = true)
    (text : List Char) :
    (text ++ blanks).takeWhile isCommandChar = text.takeWhile isCommandChar := by
  induction text with
  | cons c text ih => by_cases hc : isCommandChar c = true <;> simp [hc, ih]
  | nil =>
      cases blanks with
      | nil => rfl
      | cons blank blanks =>
          have hstop : isCommandChar blank = false := by
            rw [← Bool.not_eq_true]
            intro hcommand
            have hblank := h blank List.mem_cons_self
            rw [isBlank_eq_false_of_isCommandChar hcommand] at hblank
            cases hblank
          simp [hstop]

theorem takeWhile_trim (text : String) :
    (Text.trim text).toList.takeWhile isCommandChar =
      (text.toList.dropWhile Text.isBlank).takeWhile isCommandChar := by
  rw [Text.trim, Text.trimBy, String.toList_ofList]
  generalize text.toList.dropWhile Text.isBlank = kept
  have hblanks : ∀ c ∈ (kept.reverse.takeWhile Text.isBlank).reverse, Text.isBlank c = true := by
    intro c hc
    exact List.all_eq_true.1 List.all_takeWhile c (List.mem_reverse.1 hc)
  rw [← takeWhile_append_blanks hblanks, ← List.reverse_append, List.takeWhile_append_dropWhile,
    List.reverse_reverse]

theorem ofWords_command_iff {text : List Char} {word : String} :
    (ofWords text).command = some word ↔ text.takeWhile isCommandChar = word.toList := by
  rw [ofWords, Option.some_inj, ← String.toList_inj, String.toList_ofList]

/-- One of the words is the command of a line if the line starts, after blanks, with that word. -/
theorem ofCommand_command_iff {word : String} (hword : word ∈ [exitWord, endWord])
    (line : String) :
    (ofCommand line).command = some word ↔
      (line.toList.dropWhile Text.isBlank).takeWhile isCommandChar = word.toList := by
  obtain ⟨hne, hhelp, -⟩ := endingWord_spec word hword
  have hmark {mark : Char} (h : isCommandChar mark = false) (rest : List Char) :
      ¬(mark :: rest).takeWhile isCommandChar = word.toList := by
    rw [List.takeWhile_cons_of_neg (by simp [h])]
    exact hne.symm
  rw [← takeWhile_trim, ofCommand]
  split
  case h_1 htext => simp [htext, hne.symm]
  case h_2 rest htext =>
    have hcommand : ("help ".toList ++ rest).takeWhile isCommandChar = "help".toList := by
      refine takeWhile_eq_iff.2 ⟨List.all_eq_true.1 (by decide), ' ' :: rest, rfl, ?_⟩
      rintro c ⟨⟩
      rfl
    rw [htext, iff_false_right (hmark (by decide) rest), ofWords_command_iff, hcommand,
      String.toList_inj]
    exact hhelp.symm
  case h_3 rest htext =>
    rw [htext, iff_false_right (hmark (by decide) rest)]
    exact nofun
  case h_4 => exact ofWords_command_iff

/-- A text starts, after blanks, with a word. -/
theorem takeWhile_dropWhile_iff {text word : List Char} (hne : word ≠ [])
    (hchars : ∀ c ∈ word, isCommandChar c = true) :
    (text.dropWhile Text.isBlank).takeWhile isCommandChar = word ↔
      ∃ gap rest, text = gap ++ word ++ rest ∧ (∀ c ∈ gap, Text.isBlank c = true) ∧
        ∀ c ∈ rest.head?, isCommandChar c = false := by
  constructor
  · intro h
    obtain ⟨-, rest, hrest, hstop⟩ := takeWhile_eq_iff.1 h
    refine ⟨text.takeWhile Text.isBlank, rest, ?_, List.all_eq_true.1 List.all_takeWhile, hstop⟩
    rw [List.append_assoc, ← hrest, List.takeWhile_append_dropWhile]
  · rintro ⟨gap, rest, rfl, hgap, hstop⟩
    obtain ⟨first, others, rfl⟩ := List.exists_cons_of_ne_nil hne
    have hfirst := isBlank_eq_false_of_isCommandChar (hchars first List.mem_cons_self)
    rw [List.append_assoc, List.dropWhile_append_of_pos hgap, List.cons_append,
      List.dropWhile_cons_of_neg (by simp [hfirst])]
    exact takeWhile_eq_iff.2 ⟨hchars, rest, rfl, hstop⟩

/-- A line that ends the shell is told by its text. -/
theorem ends_ofString_iff (line : String) : (ofString line).Ends ↔ SaysEnd (Text.trim line) := by
  have hends (parts : Line) :
      parts.Ends ↔ ∃ word ∈ [exitWord, endWord], parts.command = some word := by
    simp [Ends]
  rw [hends, SaysEnd]
  refine exists_congr fun word => and_congr_right fun hword => ?_
  obtain ⟨hne, -, hchars, hcolon, hcommand⟩ := endingWord_spec word hword
  rw [ofString]
  generalize Text.trim line = text
  split
  case h_1 rest htext =>
    -- neither of the words starts with a colon
    have htold : text ≠ word := by
      rintro rfl
      exact hcolon (congrArg List.head? htext)
    rw [ofCommand_command_iff hword, String.toList_ofList, or_iff_right htold, htext,
      takeWhile_dropWhile_iff hne (List.all_eq_true.1 hchars)]
    simp only [List.cons.injEq, true_and]
  case h_2 hnone =>
    have hcolons : ¬∃ gap rest, text.toList = ':' :: (gap ++ word.toList ++ rest) ∧
      (∀ c ∈ gap, Text.isBlank c = true) ∧ ∀ c ∈ rest.head?, isCommandChar c = false := by
      rintro ⟨gap, rest, htext, -⟩
      exact hnone _ htext
    rw [or_iff_left hcolons]
    constructor
    · intro h
      split at h
      case isTrue htold =>
        have hmem : text ∈ [exitWord, endWord] := by simpa [or_comm] using htold
        obtain ⟨-, -, -, -, hself⟩ := endingWord_spec text hmem
        exact Option.some.inj (hself.symm.trans h)
      case isFalse => exact absurd (congrArg String.toList (Option.some.inj h)).symm hne
    · rintro rfl
      rw [if_pos (by simpa [or_comm] using hword)]
      exact hcommand

example : (ofString " : exit(now)").Ends ∧ ¬(ofString "exit(now)").Ends := by decide +kernel

/-! ## Lines that hold sources -/

/-- A line that holds a source, if it is not blank: it starts with no colon after blanks, and it is
none of the words that end the shell. -/
structure HoldsSource (line : String) : Prop where
  no_colon : (Text.trim line).toList.head? ≠ some ':'
  not_exit : Text.trim line ≠ exitWord
  not_end : Text.trim line ≠ endWord

instance (line : String) : Decidable (HoldsSource line) :=
  decidable_of_iff ((Text.trim line).toList.head? ≠ some ':' ∧ Text.trim line ≠ Line.exitWord ∧
      Text.trim line ≠ Line.endWord)
    ⟨fun ⟨hcolon, hexit, hend⟩ => ⟨hcolon, hexit, hend⟩,
      fun ⟨hcolon, hexit, hend⟩ => ⟨hcolon, hexit, hend⟩⟩

section

variable {line : String}

theorem ofString_of_holdsSource (h : HoldsSource line) :
    ofString line = ⟨some "", some (Text.trim line), Text.trim line⟩ := by
  rw [ofString]
  split
  case h_1 rest htext => exact absurd (congrArg List.head? htext) h.no_colon
  case h_2 => rw [if_neg (by simp [h.not_exit, h.not_end])]

theorem not_ends_of_holdsSource (h : HoldsSource line) : ¬(ofString line).Ends := by
  rw [ofString_of_holdsSource h]
  simp [Ends, exitWord, endWord]

theorem source?_of_holdsSource (h : HoldsSource line) (hblank : ¬Text.isBlankText line = true) :
    (ofString line).source? = some (Text.trim line) := by
  rw [ofString_of_holdsSource h]
  exact if_pos ⟨mt (Token.trim_eq_empty_iff line).1 hblank, .inr rfl⟩

theorem holdsSource_of_openParen {rest : List Char} (h : line.toList = '(' :: rest) :
    HoldsSource line ∧ ¬Text.isBlankText line = true := by
  have hparen : Text.isBlank '(' = false := by decide
  have hhead : (Text.trim line).toList.head? = some '(' := by
    rw [Token.head?_trim, h, List.dropWhile_cons_of_neg (by simp [hparen])]
    rfl
  refine ⟨⟨?_, ?_, ?_⟩, ?_⟩
  · rw [hhead]
    decide
  · intro hexit
    rw [hexit] at hhead
    cases hhead
  · intro hend
    rw [hend] at hhead
    cases hhead
  · rw [Text.isBlankText, h, List.all_cons, hparen]
    exact Bool.false_ne_true

end

end Line

end PrefixLogic.Shell
