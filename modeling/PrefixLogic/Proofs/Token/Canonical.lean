import PrefixLogic.Token.Lexeme

/-!
# Canonical tokens

A token is canonical if it is one of the symbols, or an identifier with a name as its text. These
are the tokens that classifying gives (`Token.classify_eq_ok_iff`), so the tokens of a source are
canonical, and their texts are its lexemes (`Token.tokenize_eq_ok_iff`).

The text of a canonical token is a parenthesis or a word. A word is cut off as one lexeme if a
break follows it (`Token.Cut.lexemes_word`): a blank, a parenthesis or the end.
-/

namespace PrefixLogic.Token

/-- A name has the form of an identifier and is none of the keywords. -/
def IsName (text : String) : Prop := isIdentText text = true ∧ ∀ word : Keyword, text ≠ word.text

/-- A token that a source may have: one of the symbols, or an identifier with a name. -/
def Canonical (token : Token) : Prop :=
  token ∈ symbols ∨ token.kind = .ident ∧ IsName token.text

/-! ## Classifying lexemes -/

theorem find?_symbols : ∀ token ∈ symbols,
    symbols.find? (fun other => other.text = token.text) = some token := by
  decide

/-- The symbols that look like identifiers are the keywords. -/
theorem exists_keyword_of_mem_symbols {token : Token} (h : token ∈ symbols)
    (hident : isIdentText token.text = true) : ∃ word : Keyword, token.text = word.text := by
  simp only [symbols, List.mem_cons, List.not_mem_nil, or_false] at h
  rcases h with rfl | rfl | rfl | rfl | rfl | rfl | rfl | rfl | rfl | rfl
  case inr.inr.inr.inr.inr.inr.inr.inl => exact ⟨.condition, rfl⟩
  case inr.inr.inr.inr.inr.inr.inr.inr.inl => exact ⟨.definition, rfl⟩
  case inr.inr.inr.inr.inr.inr.inr.inr.inr => exact ⟨.lambda, rfl⟩
  all_goals exact absurd hident (by decide)

theorem exists_symbol_of_keyword (word : Keyword) :
    ∃ token ∈ symbols, token.text = word.text := by
  refine ⟨⟨.keyword word, word.text⟩, ?_, rfl⟩
  cases word <;> decide

/-- Classifying a lexeme gives exactly the canonical token with this text. -/
theorem classify_eq_ok_iff {lexeme : String} {token : Token} :
    classify lexeme = .ok token ↔ token.Canonical ∧ token.text = lexeme := by
  cases hfind : symbols.find? fun other => other.text = lexeme with
  | some symbol =>
      -- the lexeme is the text of a symbol, and no name
      have hclassify : classify lexeme = .ok symbol := by simp only [classify, hfind]
      have hmem := List.mem_of_find?_eq_some hfind
      have htext : symbol.text = lexeme := by simpa using List.find?_some hfind
      rw [hclassify]
      constructor
      · intro h
        cases h
        exact ⟨.inl hmem, htext⟩
      · rintro ⟨htoken | ⟨-, hident, hname⟩, rfl⟩
        · rw [find?_symbols token htoken] at hfind
          rw [Option.some.inj hfind]
        · rw [← htext] at hident hname
          obtain ⟨word, hword⟩ := exists_keyword_of_mem_symbols hmem hident
          exact absurd hword (hname word)
  | none =>
      -- no symbol has this text, so it is an identifier or nothing, and no keyword
      have hclassify : classify lexeme =
          if isIdentText lexeme then .ok ⟨.ident, lexeme⟩ else .error ⟨lexeme⟩ := by
        simp only [classify, hfind]
      have hsymbol : ∀ symbol ∈ symbols, symbol.text ≠ lexeme := by
        simpa using List.find?_eq_none.1 hfind
      rw [hclassify]
      constructor
      · intro h
        by_cases hident : isIdentText lexeme = true
        · rw [if_pos hident] at h
          cases h
          refine ⟨.inr ⟨rfl, hident, fun word hword => ?_⟩, rfl⟩
          obtain ⟨symbol, hmem, htext⟩ := exists_symbol_of_keyword word
          exact hsymbol symbol hmem (htext.trans hword.symm)
        · rw [if_neg hident] at h
          cases h
      · rintro ⟨htoken | ⟨hkind, hident, -⟩, rfl⟩
        · exact absurd rfl (hsymbol token htoken)
        · obtain ⟨kind, text⟩ := token
          cases hkind
          exact if_pos hident

theorem mapM_classify_eq_ok_iff {lexemes : List String} {tokens : List Token} :
    lexemes.mapM classify = .ok tokens ↔
      lexemes = tokens.map Token.text ∧ ∀ token ∈ tokens, token.Canonical := by
  induction lexemes generalizing tokens with
  | nil =>
      rw [List.mapM_nil]
      constructor
      · intro h
        cases h
        simp
      · rintro ⟨h, -⟩
        rw [List.map_eq_nil_iff.1 h.symm]
        rfl
  | cons lexeme lexemes ih =>
      rw [List.mapM_cons]
      constructor
      · intro h
        cases hfirst : classify lexeme with
        | error error => simp [hfirst, bind, Except.bind] at h
        | ok first =>
            cases hrest : lexemes.mapM classify with
            | error error => simp [hfirst, hrest, bind, Except.bind] at h
            | ok rest =>
                simp only [hfirst, hrest, bind, Except.bind, pure, Except.pure,
                  Except.ok.injEq] at h
                obtain ⟨hcanonical, rfl⟩ := classify_eq_ok_iff.1 hfirst
                obtain ⟨rfl, hall⟩ := ih.1 hrest
                subst h
                exact ⟨rfl, List.forall_mem_cons.2 ⟨hcanonical, hall⟩⟩
      · rintro ⟨h, hall⟩
        cases tokens with
        | nil => cases h
        | cons first rest =>
            rw [List.forall_mem_cons] at hall
            simp only [List.map_cons, List.cons.injEq] at h
            have hfirst := classify_eq_ok_iff.2 ⟨hall.1, h.1.symm⟩
            have hrest := ih.2 ⟨h.2, hall.2⟩
            simp [hfirst, hrest, bind, Except.bind, pure, Except.pure]

/-- The tokens of a source are the canonical tokens whose texts are its lexemes. -/
theorem tokenize_eq_ok_iff {source : String} {tokens : List Token} :
    tokenize source = .ok tokens ↔
      lexemes source = tokens.map Token.text ∧ ∀ token ∈ tokens, token.Canonical :=
  mapM_classify_eq_ok_iff

/-! ## The texts of canonical tokens -/

/-- The text of the symbols of a kind. Identifiers have no fixed text. -/
def fixedText? : TokenKind → Option String
  | .openParen => some "("
  | .closeParen => some ")"
  | .bool value => some (if value then "T" else "F")
  | .op op => some op.sign
  | .keyword word => some word.text
  | .ident => none

theorem fixedText?_of_mem_symbols : ∀ token ∈ symbols, fixedText? token.kind = some token.text := by
  decide

/-- A canonical token has the text of its kind. -/
theorem Canonical.text_eq {token : Token} (h : token.Canonical) {text : String}
    (hkind : fixedText? token.kind = some text) : token.text = text := by
  rcases h with hmem | ⟨hident, -⟩
  · rw [fixedText?_of_mem_symbols token hmem] at hkind
    exact Option.some.inj hkind
  · rw [hident] at hkind
    cases hkind

theorem Canonical.isName {token : Token} (h : token.Canonical) (hkind : token.kind = .ident) :
    IsName token.text := by
  rcases h with hmem | ⟨-, hname⟩
  · have hfixed := fixedText?_of_mem_symbols token hmem
    rw [hkind] at hfixed
    cases hfixed
  · exact hname

theorem canonical_of_fixedText? {kind : TokenKind} {text : String}
    (h : fixedText? kind = some text) : Canonical ⟨kind, text⟩ := by
  refine .inl ?_
  cases kind with
  | openParen => cases h; decide
  | closeParen => cases h; decide
  | bool value => cases value <;> cases h <;> decide
  | op op => cases op <;> cases h <;> decide
  | keyword word => cases word <;> cases h <;> decide
  | ident => cases h

/-- Whether a character may stand inside a word. -/
def isWordChar (c : Char) : Bool := !Text.isBlank c && !isParen c

/-- Whether characters make up a word. -/
def isWord (text : List Char) : Bool := !text.isEmpty && text.all isWordChar

theorem isWordChar_of_isIdentChar {c : Char} (h : isIdentChar c = true) : isWordChar c = true := by
  have hcode : (97 ≤ c.toNat ∧ c.toNat ≤ 122) ∨ c.toNat = 95 := by
    simp only [isIdentChar, isIdentStart, Bool.or_eq_true, Bool.and_eq_true,
      decide_eq_true_eq] at h
    rcases h with h | rfl
    · exact .inl h
    · exact .inr rfl
  have hblank : Text.isBlank c = false :=
    Text.isBlank_eq_false_of_ascii (by omega) (by omega)
  have hparen : isParen c = false := by
    simp only [isParen, Bool.or_eq_false_iff, decide_eq_false_iff_not]
    constructor <;> rintro rfl <;> simp at hcode
  simp [isWordChar, hblank, hparen]

theorem isWord_of_isIdentText {text : String} (h : isIdentText text = true) :
    isWord text.toList = true := by
  rw [isIdentText] at h
  cases hchars : text.toList with
  | nil => simp [hchars] at h
  | cons first rest =>
      simp only [hchars, Bool.and_eq_true, List.all_eq_true] at h
      have hfirst : isIdentChar first = true := by simp [isIdentChar, h.1]
      simp only [isWord, List.isEmpty_cons, Bool.not_false, Bool.true_and, List.all_cons,
        Bool.and_eq_true, List.all_eq_true]
      exact ⟨isWordChar_of_isIdentChar hfirst, fun c hc => isWordChar_of_isIdentChar (h.2 c hc)⟩

/-- The text of a canonical token that is no parenthesis is a word. -/
theorem Canonical.isWord {token : Token} (h : token.Canonical)
    (hopen : token.kind ≠ .openParen) (hclose : token.kind ≠ .closeParen) :
    isWord token.text.toList = true := by
  rcases h with hmem | ⟨-, hident, -⟩
  · have hall : ∀ symbol ∈ symbols, symbol.kind ≠ .openParen → symbol.kind ≠ .closeParen →
        Token.isWord symbol.text.toList = true := by decide
    exact hall token hmem hopen hclose
  · exact isWord_of_isIdentText hident

/-! ## Cutting at breaks -/

namespace Cut

/-- No word stands at the front of the source. -/
def Breaks (source : List Char) : Prop := (ofChars source).word = []

theorem breaks_nil : Breaks [] := rfl

theorem breaks_space (rest : List Char) : Breaks (' ' :: rest) := rfl

theorem breaks_closeParen (rest : List Char) : Breaks (')' :: rest) := rfl

theorem lexemes_space (rest : List Char) :
    (ofChars (' ' :: rest)).lexemes = (ofChars rest).lexemes := rfl

theorem lexemes_openParen (rest : List Char) :
    (ofChars ('(' :: rest)).lexemes = ['('] :: (ofChars rest).lexemes := rfl

theorem lexemes_closeParen (rest : List Char) :
    (ofChars (')' :: rest)).lexemes = [')'] :: (ofChars rest).lexemes := rfl

theorem ofChars_append {word : List Char} (h : ∀ c ∈ word, isWordChar c = true)
    (rest : List Char) :
    ofChars (word ++ rest) = ⟨word ++ (ofChars rest).word, (ofChars rest).later⟩ := by
  induction word with
  | nil => rfl
  | cons c word ih =>
      rw [List.forall_mem_cons] at h
      have hc := h.1
      simp only [isWordChar, Bool.and_eq_true, Bool.not_eq_true'] at hc
      change cons c (ofChars (word ++ rest)) = _
      rw [ih h.2, cons, hc.1, hc.2]
      rfl

/-- A word before a break is a lexeme. -/
theorem lexemes_word {word rest : List Char} (h : isWord word = true) (hrest : Breaks rest) :
    (ofChars (word ++ rest)).lexemes = word :: (ofChars rest).lexemes := by
  simp only [isWord, Bool.and_eq_true, List.all_eq_true] at h
  have hlater : (ofChars rest).lexemes = (ofChars rest).later := by
    simp only [lexemes, show (ofChars rest).word = [] from hrest]
  rw [ofChars_append h.2, hlater, show (ofChars rest).word = [] from hrest, List.append_nil]
  cases word with
  | nil => simp at h
  | cons c word => rfl

end Cut

end PrefixLogic.Token
