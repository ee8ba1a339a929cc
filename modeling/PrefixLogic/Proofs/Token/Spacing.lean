import Mathlib.Data.List.Chain
import Mathlib.Data.List.TakeWhile
import PrefixLogic.Proofs.Token.Canonical

/-!
# Spacing

A source is a spacing of lexemes (`Token.Spacing`) if it consists of them, in this order, with
blanks before, between and after them. Two lexemes may touch only if one of them is a parenthesis.

Cutting is the inverse of spacing: every source is a spacing of its lexemes (`Token.spacing_cut`),
and words and parentheses are the lexemes of any spacing of them (`Token.lexemes_of_spacing`). So a
source has tokens exactly if it is a spacing of the texts of canonical tokens, and then it has these
tokens (`Token.tokenize_eq_ok_iff_spacing`).
-/

namespace PrefixLogic.Token

/-- A lexeme that is a parenthesis. -/
def IsParenthesis (lexeme : List Char) : Prop := lexeme = ['('] ∨ lexeme = [')']

/-- Characters that are all blank, or none at all. -/
def AllBlank (gap : List Char) : Prop := ∀ c ∈ gap, Text.isBlank c = true

/-- A lexeme with the gap after it. -/
abbrev Piece := List Char × List Char

/-- Writes pieces one after the other. -/
def spell (pieces : List Piece) : List Char := pieces.flatMap fun piece => piece.1 ++ piece.2

/-- The gaps are blank, and there is one between lexemes neither of which is a parenthesis. -/
structure Spaced (pieces : List Piece) : Prop where
  blank : ∀ piece ∈ pieces, AllBlank piece.2
  chain : pieces.IsChain fun piece next =>
    piece.2 = [] → IsParenthesis piece.1 ∨ IsParenthesis next.1

/-- The source is made of these lexemes, with blanks around them. -/
def Spacing (source : List Char) (lexemes : List (List Char)) : Prop :=
  ∃ front pieces, source = front ++ spell pieces ∧ lexemes = pieces.map Prod.fst ∧
    AllBlank front ∧ Spaced pieces

theorem spaced_nil : Spaced [] := ⟨List.forall_mem_nil _, .nil⟩

theorem spaced_cons_iff {lexeme gap : List Char} {pieces : List Piece} :
    Spaced ((lexeme, gap) :: pieces) ↔
      AllBlank gap ∧
      (∀ next ∈ pieces.head?, gap = [] → IsParenthesis lexeme ∨ IsParenthesis next.1) ∧
      Spaced pieces := by
  constructor
  · rintro ⟨hblank, hchain⟩
    rw [List.forall_mem_cons] at hblank
    rw [List.isChain_cons] at hchain
    exact ⟨hblank.1, hchain.1, hblank.2, hchain.2⟩
  · rintro ⟨hgap, hnext, hblank, hchain⟩
    exact ⟨List.forall_mem_cons.2 ⟨hgap, hblank⟩, List.isChain_cons.2 ⟨hnext, hchain⟩⟩

theorem spell_cons (lexeme gap : List Char) (pieces : List Piece) :
    spell ((lexeme, gap) :: pieces) = lexeme ++ (gap ++ spell pieces) := by
  simp [spell]

theorem allBlank_nil : AllBlank [] := List.forall_mem_nil _

theorem allBlank_cons {c : Char} {gap : List Char} :
    AllBlank (c :: gap) ↔ Text.isBlank c = true ∧ AllBlank gap :=
  List.forall_mem_cons

/-! ## Sources are spacings of their lexemes -/

theorem not_isParenthesis {word : List Char} (h : ∀ c ∈ word, isWordChar c = true) :
    ¬IsParenthesis word := by
  rintro (rfl | rfl)
  · exact absurd (h '(' List.mem_cons_self) (by decide)
  · exact absurd (h ')' List.mem_cons_self) (by decide)

theorem isWordChar_of_mem_word (source : List Char) :
    ∀ c ∈ (Cut.ofChars source).word, isWordChar c = true := by
  induction source with
  | nil => exact List.forall_mem_nil _
  | cons c source ih =>
      change ∀ d ∈ (Cut.cons c (Cut.ofChars source)).word, isWordChar d = true
      rw [Cut.cons]
      split
      · exact List.forall_mem_nil _
      next hblank =>
        split
        · exact List.forall_mem_nil _
        next hparen => exact List.forall_mem_cons.2 ⟨by simp [isWordChar, hblank, hparen], ih⟩

/-- The word at the front of a source, complete or not, is the first of its pieces. -/
def WordSpacing (source : List Char) (cut : Cut) : Prop :=
  ∃ gap pieces, source = spell ((cut.word, gap) :: pieces) ∧ cut.later = pieces.map Prod.fst ∧
    Spaced ((cut.word, gap) :: pieces)

theorem WordSpacing.spacing {source : List Char} {cut : Cut} (h : WordSpacing source cut) :
    Spacing source cut.lexemes := by
  obtain ⟨gap, pieces, hsource, hlater, hspaced⟩ := h
  cases hword : cut.word with
  | nil =>
      -- without a word, the gap stands before the first lexeme
      rw [hword] at hsource hspaced
      rw [spaced_cons_iff] at hspaced
      refine ⟨gap, pieces, hsource.trans (spell_cons _ _ _), ?_, hspaced.1, hspaced.2.2⟩
      simp [Cut.lexemes, hword, hlater]
  | cons c word =>
      rw [hword] at hsource hspaced
      refine ⟨[], (c :: word, gap) :: pieces, hsource, ?_, allBlank_nil, hspaced⟩
      simp [Cut.lexemes, hword, hlater]

/-- A character in front either closes the word, as a blank or a parenthesis, or joins it. -/
theorem WordSpacing.cons {source : List Char} {cut : Cut} (h : WordSpacing source cut)
    (hcut : ∀ c ∈ cut.word, isWordChar c = true) (c : Char) :
    WordSpacing (c :: source) (cut.cons c) := by
  obtain ⟨front, closed, hfront, hlexemes, hblank, hclosed⟩ := h.spacing
  rw [Cut.cons]
  split
  next hc =>
    -- the blank is the first one of the gap
    refine ⟨c :: front, closed, ?_, hlexemes, spaced_cons_iff.2 ⟨?_, ?_, hclosed⟩⟩
    · simp [spell_cons, hfront]
    · exact allBlank_cons.2 ⟨hc, hblank⟩
    · exact fun _ _ hnil => absurd hnil (List.cons_ne_nil c front)
  next hc =>
    split
    next hparen =>
      -- nothing stands before a parenthesis, and anything may touch it
      have hone : IsParenthesis [c] := by simpa [isParen, IsParenthesis] using hparen
      refine ⟨[], ([c], front) :: closed, ?_, congrArg _ hlexemes, ?_⟩
      · simp [spell_cons, hfront]
      · refine spaced_cons_iff.2 ⟨allBlank_nil, ?_, spaced_cons_iff.2 ⟨hblank, ?_, hclosed⟩⟩
        · rintro next hnext -
          obtain rfl : ([c], front) = next := Option.some.inj hnext
          exact .inr hone
        · exact fun next _ _ => .inl hone
    next hparen =>
      obtain ⟨gap, pieces, hsource, hlater, hspaced⟩ := h
      rw [spaced_cons_iff] at hspaced
      obtain ⟨hgap, hnext, hspaced⟩ := hspaced
      refine ⟨gap, pieces, ?_, hlater, spaced_cons_iff.2 ⟨hgap, ?_, hspaced⟩⟩
      · simp [spell_cons, hsource]
      · intro next hmem hnil
        exact .inr ((hnext next hmem hnil).resolve_left (not_isParenthesis hcut))

theorem wordSpacing_cut (source : List Char) : WordSpacing source (Cut.ofChars source) := by
  induction source with
  | nil => exact ⟨[], [], rfl, rfl, spaced_cons_iff.2 ⟨allBlank_nil, by simp, spaced_nil⟩⟩
  | cons c source ih => exact ih.cons (isWordChar_of_mem_word source) c

/-- A source is a spacing of its lexemes. -/
theorem spacing_cut (source : List Char) : Spacing source (Cut.ofChars source).lexemes :=
  (wordSpacing_cut source).spacing

/-! ## The lexemes of a spacing -/

namespace Cut

theorem lexemes_blank {gap : List Char} (h : AllBlank gap) (rest : List Char) :
    (ofChars (gap ++ rest)).lexemes = (ofChars rest).lexemes := by
  induction gap with
  | nil => rfl
  | cons c gap ih =>
      obtain ⟨hc, hgap⟩ := allBlank_cons.1 h
      rw [← ih hgap]
      change (cons c (ofChars (gap ++ rest))).lexemes = _
      rw [cons, if_pos hc]
      rfl

theorem breaks_blank {c : Char} (h : Text.isBlank c = true) (rest : List Char) :
    Breaks (c :: rest) := by
  change (cons c (ofChars rest)).word = []
  rw [cons, if_pos h]

theorem breaks_parenthesis {lexeme : List Char} (h : IsParenthesis lexeme) (rest : List Char) :
    Breaks (lexeme ++ rest) := by
  rcases h with rfl | rfl
  · rfl
  · rfl

theorem lexemes_parenthesis {lexeme : List Char} (h : IsParenthesis lexeme) (rest : List Char) :
    (ofChars (lexeme ++ rest)).lexemes = lexeme :: (ofChars rest).lexemes := by
  rcases h with rfl | rfl
  · exact lexemes_openParen rest
  · exact lexemes_closeParen rest

/-- What may stand after a word breaks it off. -/
theorem breaks_gap {word gap : List Char} {pieces : List Piece} (hword : ¬IsParenthesis word)
    (h : Spaced ((word, gap) :: pieces)) : Breaks (gap ++ spell pieces) := by
  obtain ⟨hgap, hnext, -⟩ := spaced_cons_iff.1 h
  cases gap with
  | cons c gap => exact breaks_blank (allBlank_cons.1 hgap).1 _
  | nil =>
      cases pieces with
      | nil => exact breaks_nil
      | cons next pieces =>
          obtain ⟨lexeme, gap⟩ := next
          rw [List.nil_append, spell_cons]
          exact breaks_parenthesis ((hnext _ rfl rfl).resolve_left hword) _

end Cut

/-- Lexemes of a source: parentheses and words. -/
def IsLexeme (lexeme : List Char) : Prop := IsParenthesis lexeme ∨ isWord lexeme = true

theorem lexemes_spell {pieces : List Piece} (hpieces : ∀ piece ∈ pieces, IsLexeme piece.1)
    (h : Spaced pieces) : (Cut.ofChars (spell pieces)).lexemes = pieces.map Prod.fst := by
  induction pieces with
  | nil => rfl
  | cons piece pieces ih =>
      obtain ⟨lexeme, gap⟩ := piece
      rw [List.forall_mem_cons] at hpieces
      obtain ⟨hgap, -, hspaced⟩ := spaced_cons_iff.1 h
      rw [spell_cons]
      rcases hpieces.1 with hparen | hword
      · rw [Cut.lexemes_parenthesis hparen, Cut.lexemes_blank hgap, ih hpieces.2 hspaced]
        rfl
      · have hchars : ∀ c ∈ lexeme, isWordChar c = true := by
          simp only [isWord, Bool.and_eq_true, List.all_eq_true] at hword
          exact hword.2
        rw [Cut.lexemes_word hword (Cut.breaks_gap (not_isParenthesis hchars) h),
          Cut.lexemes_blank hgap, ih hpieces.2 hspaced]
        rfl

/-- Words and parentheses are the lexemes of any spacing of them. -/
theorem lexemes_of_spacing {source : List Char} {lexemes : List (List Char)}
    (hlexemes : ∀ lexeme ∈ lexemes, IsLexeme lexeme) (h : Spacing source lexemes) :
    (Cut.ofChars source).lexemes = lexemes := by
  obtain ⟨front, pieces, rfl, rfl, hfront, hspaced⟩ := h
  rw [List.forall_mem_map] at hlexemes
  rw [Cut.lexemes_blank hfront, lexemes_spell hlexemes hspaced]

/-! ## Tokens -/

theorem Canonical.isLexeme {token : Token} (h : token.Canonical) : IsLexeme token.text.toList := by
  by_cases hopen : token.kind = .openParen
  · exact .inl (.inl (congrArg String.toList (h.text_eq (congrArg fixedText? hopen))))
  · by_cases hclose : token.kind = .closeParen
    · exact .inl (.inr (congrArg String.toList (h.text_eq (congrArg fixedText? hclose))))
    · exact .inr (h.isWord hopen hclose)

/-- The texts of the tokens. -/
def texts (tokens : List Token) : List (List Char) := tokens.map fun token => token.text.toList

theorem lexemes_eq_iff {source : String} {tokens : List Token} :
    lexemes source = tokens.map Token.text ↔
      (Cut.ofChars source.toList).lexemes = texts tokens := by
  rw [lexemes, texts]
  constructor
  · intro h
    have hlists := congrArg (List.map String.toList) h
    simpa [Function.comp_def] using hlists
  · intro h
    rw [h]
    simp [Function.comp_def]

/-- A source is cut into tokens exactly if they are canonical and it is a spacing of their texts: it
consists of the texts in order, with blanks before, between and after them, and there is a blank at
least between two texts neither of which is a parenthesis. Any other source is refused. -/
theorem tokenize_eq_ok_iff_spacing (source : String) :
    (∀ tokens, tokenize source = .ok tokens ↔
      (∀ token ∈ tokens, token.Canonical) ∧ Spacing source.toList (texts tokens)) ∧
    ((∃ error, tokenize source = .error error) ↔
      ¬∃ tokens, (∀ token ∈ tokens, token.Canonical) ∧ Spacing source.toList (texts tokens)) := by
  have hiff : ∀ tokens, tokenize source = .ok tokens ↔
      (∀ token ∈ tokens, token.Canonical) ∧ Spacing source.toList (texts tokens) := by
    intro tokens
    rw [tokenize_eq_ok_iff, lexemes_eq_iff]
    constructor
    · rintro ⟨hcut, hcanonical⟩
      exact ⟨hcanonical, hcut ▸ spacing_cut source.toList⟩
    · rintro ⟨hcanonical, hspacing⟩
      refine ⟨lexemes_of_spacing ?_ hspacing, hcanonical⟩
      rw [texts, List.forall_mem_map]
      exact fun token hmem => (hcanonical token hmem).isLexeme
  refine ⟨hiff, ?_⟩
  simp only [← hiff]
  cases tokenize source with
  | ok tokens => simp
  | error error => simp

example : tokenize "(iff\u2003if)x" = .ok [⟨.openParen, "("⟩, ⟨.ident, "iff"⟩,
    ⟨.keyword .condition, "if"⟩, ⟨.closeParen, ")"⟩, ⟨.ident, "x"⟩] := by
  decide +kernel

/-! ## Blanks around a source -/

theorem Cut.ofChars_append_blank {gap : List Char} (h : AllBlank gap) (source : List Char) :
    ofChars (source ++ gap) = ofChars source := by
  have hgap : ofChars gap = empty := by
    induction gap with
    | nil => rfl
    | cons c gap ih =>
        obtain ⟨hc, hgap⟩ := allBlank_cons.1 h
        change cons c (ofChars gap) = empty
        rw [ih hgap, cons, if_pos hc]
        rfl
  rw [ofChars, List.foldr_append]
  exact congrArg (source.foldr cons) hgap

/-- A text is what is left of it when it is trimmed, with blanks around it. -/
theorem exists_toList_eq_trim (text : String) :
    ∃ front back, text.toList = front ++ ((Text.trim text).toList ++ back) ∧
      AllBlank front ∧ AllBlank back := by
  have hall (chars : List Char) : AllBlank (chars.takeWhile Text.isBlank) :=
    List.all_eq_true.1 List.all_takeWhile
  refine ⟨text.toList.takeWhile Text.isBlank,
    ((text.toList.dropWhile Text.isBlank).reverse.takeWhile Text.isBlank).reverse, ?_, hall _, ?_⟩
  · rw [Text.trim, Text.trimBy, String.toList_ofList, ← List.reverse_append,
      List.takeWhile_append_dropWhile, List.reverse_reverse, List.takeWhile_append_dropWhile]
  · intro c hc
    exact hall _ c (List.mem_reverse.1 hc)

/-- A text that is trimmed begins with its first character that is not blank. -/
theorem head?_trim (text : String) :
    (Text.trim text).toList.head? = (text.toList.dropWhile Text.isBlank).head? := by
  rw [Text.trim, Text.trimBy, String.toList_ofList]
  have hstop := List.head?_dropWhile_not Text.isBlank text.toList
  cases hkept : text.toList.dropWhile Text.isBlank with
  | nil => rfl
  | cons c kept =>
      have hc : Text.isBlank c = false := by rwa [hkept] at hstop
      -- what is dropped at the end does not reach the first character
      rw [List.reverse_cons, List.dropWhile_append]
      split <;> simp [hc]

/-- Blanks around a source do not matter. -/
theorem tokenize_trim (source : String) : tokenize (Text.trim source) = tokenize source := by
  obtain ⟨front, back, hsource, hfront, hback⟩ := exists_toList_eq_trim source
  rw [tokenize, tokenize, lexemes, lexemes, hsource, Cut.lexemes_blank hfront,
    Cut.ofChars_append_blank hback]

/-- Nothing is left of a blank text when it is trimmed. -/
theorem trim_eq_empty_iff (text : String) : Text.trim text = "" ↔ Text.isBlankText text = true := by
  rw [Text.isBlankText, List.all_eq_true]
  constructor
  · intro h
    obtain ⟨front, back, htext, hfront, hback⟩ := exists_toList_eq_trim text
    rw [h, String.toList_empty, List.nil_append] at htext
    rw [htext]
    exact List.forall_mem_append.2 ⟨hfront, hback⟩
  · intro h
    rw [Text.trim, Text.trimBy, List.dropWhile_eq_nil_iff.2 h]
    rfl

end PrefixLogic.Token
