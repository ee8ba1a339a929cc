import PrefixLogic.Proofs.Token.Spacing

/-!
# Sources one after the other

Where a blank or a parenthesis stands, a source may be cut in two: its tokens are those of the part
before, the parenthesis if there is one, and those of the part after, and if both parts fail, the
error of the part before is the one that counts. A word by itself is classified as it is.

So cutting fails at the leftmost word of a source that is neither a symbol nor an identifier, and
the message shows that word as it stands (`Token.tokenize_append`).
-/

namespace PrefixLogic.Token

/-! ## Lexemes of two parts -/

namespace Cut

theorem lexemes_mk_append (word : List Char) (later more : List (List Char)) :
    (Cut.mk word (later ++ more)).lexemes = (Cut.mk word later).lexemes ++ more := by
  cases word with
  | nil => rfl
  | cons c word => rfl

/-- A blank or a parenthesis closes the word after it, whatever comes later. -/
theorem cons_of_break {c : Char} (h : isWordChar c = false) (cut : Cut) :
    cut.cons c = ⟨[], (ofChars [c]).lexemes ++ cut.lexemes⟩ := by
  change cut.cons c = ⟨[], (empty.cons c).lexemes ++ _⟩
  rw [cons, cons]
  cases hblank : Text.isBlank c with
  | true => rfl
  | false =>
      have hparen : isParen c = true := by simpa [isWordChar, hblank] using h
      rw [hparen]
      rfl

theorem breaks_of_head? {rest : List Char} (h : ∀ c ∈ rest.head?, isWordChar c = false) :
    Breaks rest := by
  cases rest with
  | nil => exact breaks_nil
  | cons c rest => exact congrArg word (cons_of_break (h c rfl) (ofChars rest))

/-- A part that begins with a break leaves the cut of the part before it as it is. -/
theorem ofChars_append_of_breaks {rest : List Char} (h : Breaks rest) (source : List Char) :
    ofChars (source ++ rest) =
      ⟨(ofChars source).word, (ofChars source).later ++ (ofChars rest).lexemes⟩ := by
  induction source with
  | nil =>
      have hlexemes : (ofChars rest).lexemes = (ofChars rest).later := by
        rw [lexemes, show (ofChars rest).word = [] from h]
      rw [hlexemes]
      exact congrArg (Cut.mk · _) h
  | cons c source ih =>
      change cons c (ofChars (source ++ rest)) =
        ⟨(cons c (ofChars source)).word, (cons c (ofChars source)).later ++ _⟩
      rw [ih, cons, cons, lexemes_mk_append]
      split
      · rfl
      · split
        · rfl
        · rfl

theorem lexemes_append_of_breaks {rest : List Char} (h : Breaks rest) (source : List Char) :
    (ofChars (source ++ rest)).lexemes = (ofChars source).lexemes ++ (ofChars rest).lexemes := by
  rw [ofChars_append_of_breaks h, lexemes_mk_append]

theorem lexemes_cons_of_break {c : Char} (h : isWordChar c = false) (rest : List Char) :
    (ofChars (c :: rest)).lexemes = (ofChars [c]).lexemes ++ (ofChars rest).lexemes :=
  congrArg lexemes (cons_of_break h (ofChars rest))

/-- A part that ends with a break leaves the lexemes of the part after it as they are. -/
theorem lexemes_append_of_getLast? {front : List Char}
    (h : ∀ c ∈ front.getLast?, isWordChar c = false) (rest : List Char) :
    (ofChars (front ++ rest)).lexemes = (ofChars front).lexemes ++ (ofChars rest).lexemes := by
  rcases front.eq_nil_or_concat with rfl | ⟨before, c, rfl⟩
  · rfl
  · rw [List.concat_eq_append, List.getLast?_concat] at h
    have hc : isWordChar c = false := h c rfl
    have hbreaks : ∀ after, Breaks (c :: after) := by
      intro after
      apply breaks_of_head?
      intro d hd
      cases hd
      exact hc
    rw [List.concat_eq_append, List.append_assoc, List.singleton_append,
      lexemes_append_of_breaks (hbreaks rest), lexemes_cons_of_break hc,
      lexemes_append_of_breaks (hbreaks []), List.append_assoc]

end Cut

/-! ## Tokens of two parts -/

theorem tokenize_of_lexemes_append {source front rest : String}
    (h : (Cut.ofChars source.toList).lexemes =
      (Cut.ofChars front.toList).lexemes ++ (Cut.ofChars rest.toList).lexemes) :
    tokenize source = do return (← tokenize front) ++ (← tokenize rest) := by
  rw [tokenize, lexemes, h, List.map_append, List.mapM_append]
  rfl

/-- A source may be cut before a break. -/
theorem tokenize_append_of_breaks {rest : String} (h : Cut.Breaks rest.toList) (front : String) :
    tokenize (front ++ rest) = do return (← tokenize front) ++ (← tokenize rest) := by
  apply tokenize_of_lexemes_append
  rw [String.toList_append]
  exact Cut.lexemes_append_of_breaks h front.toList

/-- A source may be cut after a break. -/
theorem tokenize_ofList_append {front : List Char}
    (h : ∀ c ∈ front.getLast?, isWordChar c = false) (rest : List Char) :
    tokenize (String.ofList (front ++ rest)) = do
      return (← tokenize (String.ofList front)) ++ (← tokenize (String.ofList rest)) := by
  apply tokenize_of_lexemes_append
  simp only [String.toList_ofList]
  exact Cut.lexemes_append_of_getLast? h rest

theorem tokenize_blank {c : Char} (h : Text.isBlank c = true) (rest : String) :
    tokenize (String.singleton c ++ rest) = tokenize rest := by
  have hgap : AllBlank [c] := allBlank_cons.2 ⟨h, allBlank_nil⟩
  have hlexemes := Cut.lexemes_blank hgap rest.toList
  rw [tokenize, tokenize, lexemes, lexemes, String.toList_append, String.toList_singleton, hlexemes]

theorem tokenize_append_parenthesis {lexeme : String} {token : Token}
    (h : IsParenthesis lexeme.toList) (htoken : classify lexeme = .ok token)
    (front back : String) :
    tokenize (front ++ lexeme ++ back) = do
      return (← tokenize front) ++ token :: (← tokenize back) := by
  have hbreaks : Cut.Breaks (lexeme ++ back).toList := by
    rw [String.toList_append]
    exact Cut.breaks_parenthesis h back.toList
  have hback : tokenize (lexeme ++ back) = do return token :: (← tokenize back) := by
    rw [tokenize, lexemes, String.toList_append, Cut.lexemes_parenthesis h, List.map_cons,
      String.ofList_toList, List.mapM_cons, htoken]
    rfl
  rw [String.append_assoc, tokenize_append_of_breaks hbreaks, hback]
  simp only [bind_assoc, pure_bind]

/-- A word by itself is classified as it is. -/
theorem tokenize_word {word : String} (h : isWord word.toList = true) :
    tokenize word = do return [← classify word] := by
  have hlexemes := Cut.lexemes_word h Cut.breaks_nil
  rw [List.append_nil] at hlexemes
  rw [tokenize, lexemes, hlexemes]
  change [String.ofList word.toList].mapM classify = _
  rw [String.ofList_toList, List.mapM_cons, List.mapM_nil]
  rfl

/-! ## Words of a source -/

/-- A word of a source, as far as it goes: the characters next to it belong to no word. -/
structure WordAt (source front word back : List Char) : Prop where
  source_eq : source = front ++ (word ++ back)
  isWord : isWord word = true
  front_ends : ∀ c ∈ front.getLast?, isWordChar c = false
  back_begins : ∀ c ∈ back.head?, isWordChar c = false

/-- A text that ends with a word ends with a character of it. -/
theorem exists_mem_getLast?_append {word : List Char} (h : isWord word = true)
    (before : List Char) : ∃ c ∈ (before ++ word).getLast?, isWordChar c = true := by
  simp only [isWord, Bool.and_eq_true, List.all_eq_true] at h
  rcases word.eq_nil_or_concat with rfl | ⟨most, c, rfl⟩
  · simp at h
  · exact ⟨c, by simp, h.2 c (by simp)⟩

/-- A lexeme that is neither a symbol nor an identifier. -/
def IsInvalid (lexeme : String) : Prop :=
  (∀ symbol ∈ symbols, symbol.text ≠ lexeme) ∧ isIdentText lexeme = false

theorem classify_eq_error_iff {lexeme : String} {error : TokenizeError} :
    classify lexeme = .error error ↔ IsInvalid lexeme ∧ error = ⟨lexeme⟩ := by
  rw [classify]
  cases hfind : symbols.find? fun symbol => symbol.text = lexeme with
  | some symbol =>
      have htext : symbol.text = lexeme := by simpa using List.find?_some hfind
      have hmem := List.mem_of_find?_eq_some hfind
      constructor
      · intro h
        cases h
      · rintro ⟨⟨hsymbols, -⟩, -⟩
        exact absurd htext (hsymbols symbol hmem)
  | none =>
      have hsymbols : ∀ symbol ∈ symbols, symbol.text ≠ lexeme := by
        simpa using List.find?_eq_none.1 hfind
      cases hident : isIdentText lexeme with
      | true => simp [IsInvalid, hident]
      | false =>
          rw [if_neg Bool.false_ne_true, Except.error.injEq, eq_comm]
          exact (and_iff_right ⟨hsymbols, hident⟩).symm

namespace WordAt

variable {source front word back : List Char}

/-- The tokens of a source are those before a word, the one of the word and those after it. -/
theorem tokenize (h : WordAt source front word back) :
    Token.tokenize (String.ofList source) = do
      let before ← Token.tokenize (String.ofList front)
      let token ← classify (String.ofList word)
      let after ← Token.tokenize (String.ofList back)
      return before ++ token :: after := by
  have hback : Cut.Breaks (String.ofList back).toList := by
    rw [String.toList_ofList]
    exact Cut.breaks_of_head? h.back_begins
  have hword : Token.isWord (String.ofList word).toList = true := by
    rw [String.toList_ofList]
    exact h.isWord
  rw [h.source_eq, tokenize_ofList_append h.front_ends, String.ofList_append,
    tokenize_append_of_breaks hback, tokenize_word hword]
  simp only [bind_assoc, pure_bind, List.singleton_append]

/-- A source with an invalid word has no tokens. -/
theorem tokenize_ne_ok (h : WordAt source front word back) (hword : IsInvalid (String.ofList word))
    (tokens : List Token) : Token.tokenize (String.ofList source) ≠ .ok tokens := by
  rw [h.tokenize, classify_eq_error_iff.2 ⟨hword, rfl⟩]
  cases Token.tokenize (String.ofList front) with
  | ok before => nofun
  | error error => nofun

/-- If all before an invalid word are tokens, the word is the error. -/
theorem tokenize_eq_error (h : WordAt source front word back)
    (hword : IsInvalid (String.ofList word)) {tokens : List Token}
    (hfront : Token.tokenize (String.ofList front) = .ok tokens) :
    Token.tokenize (String.ofList source) = .error ⟨String.ofList word⟩ := by
  rw [h.tokenize, hfront, classify_eq_error_iff.2 ⟨hword, rfl⟩]
  rfl

theorem append_left {opening : List Char} (hends : ∀ c ∈ opening.getLast?, isWordChar c = false)
    (h : WordAt source front word back) :
    WordAt (opening ++ source) (opening ++ front) word back := by
  refine ⟨?_, h.isWord, ?_, h.back_begins⟩
  · rw [h.source_eq, List.append_assoc]
  · intro c hc
    rw [List.getLast?_append, Option.mem_def, Option.or_eq_some_iff] at hc
    rcases hc with hc | ⟨-, hc⟩
    · exact h.front_ends c hc
    · exact hends c hc

/-- A word of what stands before another word is a word of the whole. -/
theorem trans {front' word' back' : List Char} (h : WordAt source front word back)
    (h' : WordAt front front' word' back') :
    WordAt source front' word' (back' ++ (word ++ back)) := by
  refine ⟨?_, h'.isWord, h'.front_ends, ?_⟩
  · rw [h.source_eq, h'.source_eq]
    simp only [List.append_assoc]
  · intro c hc
    cases back' with
    | cons d back' => exact h'.back_begins c hc
    | nil =>
        -- otherwise the two words would touch
        have hends := h.front_ends
        rw [h'.source_eq, List.append_nil] at hends
        obtain ⟨d, hd, hword⟩ := exists_mem_getLast?_append h'.isWord front'
        rw [hends d hd] at hword
        cases hword

/-- A word that begins before another one is a word of what stands before that one. -/
theorem of_length_lt {front' word' back' : List Char} (h : WordAt source front word back)
    (h' : WordAt source front' word' back') (hlt : front'.length < front.length) :
    ∃ between, WordAt front front' word' between := by
  have hsource := h'.source_eq.symm.trans h.source_eq
  rcases List.append_eq_append_iff.1 hsource with ⟨rest, hfront, hrest⟩ | ⟨rest, hfront, -⟩
  · rcases List.append_eq_append_iff.1 hrest with ⟨between, rfl, hback⟩ | ⟨more, hword, -⟩
    · refine ⟨between, hfront, h'.isWord, h'.front_ends, ?_⟩
      intro c hc
      apply h'.back_begins
      rw [hback, List.head?_append, hc]
      rfl
    · -- the break before the second word would stand inside the first one
      have hisWord : Token.isWord rest = true := by
        have hchars := h'.isWord
        rw [hword, Token.isWord, List.all_append, Bool.and_eq_true, Bool.and_eq_true] at hchars
        cases rest with
        | nil => simp [hfront] at hlt
        | cons c rest => exact hchars.2.1
      obtain ⟨c, hc, hchar⟩ := exists_mem_getLast?_append hisWord front'
      rw [← hfront] at hc
      rw [h.front_ends c hc] at hchar
      exact absurd hchar Bool.false_ne_true
  · rw [hfront, List.length_append] at hlt
    omega

end WordAt

/-! ## The first error -/

theorem exists_tokenize_break {c : Char} (h : isWordChar c = false) :
    ∃ tokens, tokenize (String.singleton c) = .ok tokens := by
  by_cases hblank : Text.isBlank c = true
  · refine ⟨[], ?_⟩
    have htokens := tokenize_blank hblank ""
    rw [String.append_empty] at htokens
    exact htokens
  · have hparen : isParen c = true := by simpa [isWordChar, hblank] using h
    simp only [isParen, Bool.or_eq_true, decide_eq_true_eq] at hparen
    rcases hparen with rfl | rfl
    · exact ⟨[⟨.openParen, "("⟩], rfl⟩
    · exact ⟨[⟨.closeParen, ")"⟩], rfl⟩

/-- A break after tokens leaves tokens. -/
theorem exists_tokenize_concat {front : List Char} {before : List Token} {c : Char}
    (hfront : tokenize (String.ofList front) = .ok before) (hc : isWordChar c = false) :
    ∃ tokens, tokenize (String.ofList (front ++ [c])) = .ok tokens := by
  obtain ⟨closing, hclosing⟩ := exists_tokenize_break hc
  have hbreaks : Cut.Breaks (String.singleton c).toList := by
    rw [String.toList_singleton]
    exact congrArg Cut.word (Cut.cons_of_break hc Cut.empty)
  refine ⟨before ++ closing, ?_⟩
  rw [String.ofList_append, ← String.singleton_eq_ofList, tokenize_append_of_breaks hbreaks, hfront,
    hclosing]
  rfl

/-- A source that fails has an invalid word before which all are tokens. -/
theorem exists_wordAt_of_tokenize_eq_error {source : List Char} {error : TokenizeError}
    (h : tokenize (String.ofList source) = .error error) :
    ∃ front word back tokens, WordAt source front word back ∧ IsInvalid (String.ofList word) ∧
      tokenize (String.ofList front) = .ok tokens := by
  -- the source is scanned word by word, so the part after the first break is shorter
  induction hlength : source.length using Nat.strong_induction_on generalizing source error with
  | _ length ih =>
      subst hlength
      have hsource : source = source.takeWhile isWordChar ++ source.dropWhile isWordChar :=
        List.takeWhile_append_dropWhile.symm
      have hchars : (source.takeWhile isWordChar).all isWordChar = true := List.all_takeWhile
      have hbreak := List.head?_dropWhile_not isWordChar source
      generalize source.takeWhile isWordChar = word, source.dropWhile isWordChar = rest
        at hsource hchars hbreak
      cases hword : tokenize (String.ofList word) with
      | error error =>
          have hisWord : isWord word = true := by
            cases word with
            | nil => cases hword
            | cons c word => exact hchars
          refine ⟨[], word, rest, [], ⟨hsource, hisWord, nofun, ?_⟩, ?_, rfl⟩
          · intro c hc
            rw [hc] at hbreak
            exact hbreak
          · rw [tokenize_word (by rwa [String.toList_ofList])] at hword
            cases hclassify : classify (String.ofList word) with
            | error error => exact (classify_eq_error_iff.1 hclassify).1
            | ok token => simp [hclassify, bind, Except.bind, pure, Except.pure] at hword
      | ok before =>
          cases rest with
          | nil =>
              rw [hsource, List.append_nil, hword] at h
              cases h
          | cons c rest =>
              have hc : isWordChar c = false := hbreak
              -- up to the break all are tokens, so what comes after it fails
              obtain ⟨opened, hopened⟩ := exists_tokenize_concat hword hc
              have hends : ∀ d ∈ (word ++ [c]).getLast?, isWordChar d = false := by
                intro d hd
                rw [List.getLast?_concat] at hd
                cases hd
                exact hc
              have hwhole : source = word ++ [c] ++ rest := by simp [hsource]
              rw [hwhole, tokenize_ofList_append hends, hopened] at h
              cases hrest : tokenize (String.ofList rest) with
              | ok tokens =>
                  rw [hrest] at h
                  cases h
              | error error =>
                  have hshorter : rest.length < source.length := by
                    rw [hwhole, List.length_append, List.length_append, List.length_singleton]
                    omega
                  obtain ⟨front, wrong, back, tokens, hat, hinvalid, hfront⟩ :=
                    ih rest.length hshorter hrest rfl
                  refine ⟨word ++ [c] ++ front, wrong, back, opened ++ tokens, ?_, hinvalid, ?_⟩
                  · rw [hwhole]
                    exact hat.append_left hends
                  · rw [tokenize_ofList_append hends, hopened, hfront]
                    rfl

/-- The leftmost of the invalid words of a source. -/
def IsFirstInvalid (source : List Char) (word : String) : Prop :=
  ∃ front back, WordAt source front word.toList back ∧ IsInvalid word ∧
    ∀ front' word' back', WordAt source front' word' back' → IsInvalid (String.ofList word') →
      front.length ≤ front'.length

theorem WordAt.length_lt {source front word back : List Char} (h : WordAt source front word back) :
    front.length < source.length := by
  have hword := h.isWord
  cases word with
  | nil => cases hword
  | cons c word =>
      rw [h.source_eq, List.length_append, List.cons_append, List.length_cons]
      omega

theorem tokenize_eq_error_iff {source : String} {error : TokenizeError} :
    tokenize source = .error error ↔ IsFirstInvalid source.toList error.lexeme := by
  constructor
  · intro h
    rw [← String.ofList_toList (s := source)] at h
    obtain ⟨front, word, back, tokens, hat, hinvalid, hfront⟩ :=
      exists_wordAt_of_tokenize_eq_error h
    rw [hat.tokenize_eq_error hinvalid hfront] at h
    cases h
    refine ⟨front, back, by rwa [String.toList_ofList], hinvalid, ?_⟩
    intro front' word' back' hat' hinvalid'
    by_contra hlt
    obtain ⟨between, hbetween⟩ := hat.of_length_lt hat' (Nat.lt_of_not_le hlt)
    exact hbetween.tokenize_ne_ok hinvalid' tokens hfront
  · rintro ⟨front, back, hat, hinvalid, hleast⟩
    rw [← String.ofList_toList (s := error.lexeme)] at hinvalid
    cases hfront : tokenize (String.ofList front) with
    | ok tokens =>
        have herror := hat.tokenize_eq_error hinvalid hfront
        rwa [String.ofList_toList, String.ofList_toList] at herror
    | error error' =>
        -- an invalid word in front of the first one
        obtain ⟨front', word', back', -, hat', hinvalid', -⟩ :=
          exists_wordAt_of_tokenize_eq_error hfront
        have hle := hleast front' word' _ (hat.trans hat') hinvalid'
        exact absurd hat'.length_lt (Nat.not_lt.2 hle)

/-- The tokens of two sources with a blank between them are those of the first and those of the
second, and if both fail, the error is that of the first; a parenthesis between them is a token
between theirs. A word has the token that it is classified as. So a source fails exactly if a word
of it is neither a symbol nor an identifier, and the message shows the leftmost of these words as it
stands. -/
theorem tokenize_append (front back : String) :
    (∀ c, Text.isBlank c = true →
      tokenize (front ++ String.singleton c ++ back) = do
        return (← tokenize front) ++ (← tokenize back)) ∧
    tokenize (front ++ "(" ++ back) = (do
      return (← tokenize front) ++ ⟨.openParen, "("⟩ :: (← tokenize back)) ∧
    tokenize (front ++ ")" ++ back) = (do
      return (← tokenize front) ++ ⟨.closeParen, ")"⟩ :: (← tokenize back)) ∧
    (∀ word : String, isWord word.toList = true → tokenize word = do return [← classify word]) ∧
    (∀ source error, tokenize source = .error error ↔
      IsFirstInvalid source.toList error.lexeme) ∧
    ∀ error : TokenizeError, error.message = "invalid token `" ++ error.lexeme ++ "`" := by
  refine ⟨?blank, ?openParen, ?closeParen, ?word, ?fails, ?message⟩
  case blank =>
    intro c hc
    have hbreaks : Cut.Breaks (String.singleton c ++ back).toList := by
      rw [String.toList_append, String.toList_singleton]
      exact Cut.breaks_blank hc back.toList
    rw [String.append_assoc, tokenize_append_of_breaks hbreaks, tokenize_blank hc]
  case openParen => exact tokenize_append_parenthesis (.inl rfl) rfl front back
  case closeParen => exact tokenize_append_parenthesis (.inr rfl) rfl front back
  case word => exact fun word => tokenize_word
  case fails => exact fun source error => tokenize_eq_error_iff
  case message =>
    intro error
    rw [TokenizeError.message, Text.backquoted, ← String.append_assoc, ← String.append_assoc]
    rfl

/-- Both parts have a word that is no token, and the one in the first part is reported. A word that
begins like a keyword is a name. -/
theorem tokenize_append_failing :
    tokenize ("(iff Ab" ++ String.singleton '\u2003' ++ "b-c)") = .error ⟨"Ab"⟩ ∧
    tokenize ("(iff Ab" ++ ")" ++ "b-c)") = .error ⟨"Ab"⟩ ∧
    tokenize "iff" = .ok [⟨.ident, "iff"⟩] ∧
    IsFirstInvalid ("(iff Ab" ++ ")" ++ "b-c)").toList "Ab" := by
  have hfront : tokenize "(iff Ab" = .error ⟨"Ab"⟩ := by decide +kernel
  obtain ⟨hblank, -, hclose, hword, hfails, -⟩ := tokenize_append "(iff Ab" "b-c)"
  have herror : tokenize ("(iff Ab" ++ ")" ++ "b-c)") = .error ⟨"Ab"⟩ := by
    rw [hclose, hfront]
    rfl
  refine ⟨?_, herror, ?_, (hfails _ ⟨"Ab"⟩).1 herror⟩
  · rw [hblank '\u2003' (by decide), hfront]
    rfl
  · rw [hword "iff" (by decide)]
    rfl

end PrefixLogic.Token
