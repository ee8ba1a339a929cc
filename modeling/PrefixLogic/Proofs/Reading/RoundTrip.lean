import PrefixLogic.Proofs.Reading.Reader
import PrefixLogic.Proofs.Token.Canonical

/-!
# Writing and reading back

The text of a tree reads back as the tree exactly if the tree is well-formed and the limit on
nesting admits it. Well-formed trees are the trees with a derivation from canonical tokens
(`Expr.wellFormed_iff`), and the text of a tree is cut into the tokens of any such derivation
(`Expr.tokenize_text`). Whether the text can be written at all is another question: that takes room,
and more of it than reading does (`Expr.text_reads_back_iff`, `Expr.write_conditions`).

So what is read anywhere among the tokens of a source is written with these very tokens again, if it
is written (`Expr.tokenize_text_of_readAt`).
-/

namespace PrefixLogic

open Token (IsName)
open Token.Cut (Breaks breaks_nil breaks_space breaks_closeParen lexemes_space lexemes_openParen
  lexemes_closeParen lexemes_word)

namespace Expr

/-- A tree without holes, all names of which are names. -/
inductive WellFormed : Expr → Prop
  | bool (value : Bool) : WellFormed (.bool value)
  | op (op : Operator) : WellFormed (.op op)
  | call {operator : Expr} {operands : List Expr} : WellFormed operator →
      (∀ operand ∈ operands, WellFormed operand) → WellFormed (.call operator operands)
  | cond {test yes no : Expr} : WellFormed test → WellFormed yes → WellFormed no →
      WellFormed (.cond test yes no)
  | define {name : String} {body : Expr} : IsName name → WellFormed body →
      WellFormed (.define name body)
  | lambda {params : List String} {body : Expr} : (∀ param ∈ params, IsName param) →
      WellFormed body → WellFormed (.lambda params body)
  | ident {name : String} : IsName name → WellFormed (.ident name)

/-! ## Derivations from canonical tokens -/

theorem canonical_ident {name : String} (h : IsName name) : Token.Canonical ⟨.ident, name⟩ :=
  .inr ⟨rfl, h⟩

theorem exists_derivesAll {exprs : List Expr}
    (h : ∀ expr ∈ exprs, ∃ tokens, Derives expr tokens ∧ ∀ token ∈ tokens, token.Canonical) :
    ∃ tokens, DerivesAll exprs tokens ∧ ∀ token ∈ tokens, token.Canonical := by
  induction exprs with
  | nil => exact ⟨[], .nil, by simp⟩
  | cons expr exprs ih =>
      rw [List.forall_mem_cons] at h
      obtain ⟨tokens, hd, hc⟩ := h.1
      obtain ⟨rest, hds, hcs⟩ := ih h.2
      exact ⟨tokens ++ rest, .cons hd hds, List.forall_mem_append.2 ⟨hc, hcs⟩⟩

theorem WellFormed.exists_derives {expr : Expr} (h : expr.WellFormed) :
    ∃ tokens, Derives expr tokens ∧ ∀ token ∈ tokens, token.Canonical := by
  have hopen : Token.Canonical ⟨.openParen, "("⟩ := Token.canonical_of_fixedText? rfl
  have hclose : Token.Canonical ⟨.closeParen, ")"⟩ := Token.canonical_of_fixedText? rfl
  have hword : ∀ word : Keyword, Token.Canonical ⟨.keyword word, word.text⟩ :=
    fun word => Token.canonical_of_fixedText? rfl
  induction h with
  | bool value =>
      exact ⟨_, .bool value _, List.forall_mem_singleton.2 (Token.canonical_of_fixedText? rfl)⟩
  | op op =>
      exact ⟨_, .op op _, List.forall_mem_singleton.2 (Token.canonical_of_fixedText? rfl)⟩
  | call _ _ hop hargs =>
      obtain ⟨front, hd, hc⟩ := hop
      obtain ⟨rest, hds, hcs⟩ := exists_derivesAll hargs
      refine ⟨_, .call "(" ")" hd hds, ?_⟩
      simp only [List.forall_mem_cons, List.forall_mem_append]
      exact ⟨hopen, ⟨hc, hcs⟩, hclose, by simp⟩
  | cond _ _ _ htest hyes hno =>
      obtain ⟨first, hd, hc⟩ := htest
      obtain ⟨second, hd', hc'⟩ := hyes
      obtain ⟨third, hd'', hc''⟩ := hno
      refine ⟨_, .cond "(" Keyword.condition.text ")" hd hd' hd'', ?_⟩
      simp only [List.forall_mem_cons, List.forall_mem_append]
      exact ⟨hopen, hword .condition, ⟨⟨hc, hc'⟩, hc''⟩, hclose, by simp⟩
  | define hname _ hbody =>
      obtain ⟨tokens, hd, hc⟩ := hbody
      refine ⟨_, .define "(" Keyword.definition.text _ ")" hd, ?_⟩
      simp only [List.forall_mem_cons, List.forall_mem_append]
      exact ⟨hopen, hword .definition, canonical_ident hname, hc, hclose, by simp⟩
  | lambda hparams _ hbody =>
      obtain ⟨tokens, hd, hc⟩ := hbody
      refine ⟨_, .lambda "(" Keyword.lambda.text "(" _ ")" ")" hd, ?_⟩
      simp only [List.forall_mem_cons, List.forall_mem_append, List.forall_mem_map]
      exact ⟨hopen, hword .lambda, hopen,
        fun param hparam => canonical_ident (hparams param hparam), hclose, hc, hclose, by simp⟩
  | ident hname => exact ⟨_, .ident _, List.forall_mem_singleton.2 (canonical_ident hname)⟩

mutual

theorem wellFormed_of_derives : {expr : Expr} → {tokens : List Token} → Derives expr tokens →
    (∀ token ∈ tokens, token.Canonical) → expr.WellFormed
  | _, _, .bool value _, _ => .bool value
  | _, _, .op o _, _ => .op o
  | _, _, .ident name, hc => by
      rw [List.forall_mem_singleton] at hc
      exact .ident (hc.isName rfl)
  | _, _, .call _ _ hop hargs, hc => by
      simp only [List.forall_mem_cons, List.forall_mem_append] at hc
      exact .call (wellFormed_of_derives hop hc.2.1.1) (wellFormed_of_derivesAll hargs hc.2.1.2)
  | _, _, .cond _ _ _ htest hyes hno, hc => by
      simp only [List.forall_mem_cons, List.forall_mem_append] at hc
      obtain ⟨-, -, ⟨⟨hfirst, hsecond⟩, hthird⟩, -⟩ := hc
      exact .cond (wellFormed_of_derives htest hfirst) (wellFormed_of_derives hyes hsecond)
        (wellFormed_of_derives hno hthird)
  | _, _, .define _ _ name _ hbody, hc => by
      simp only [List.forall_mem_cons, List.forall_mem_append] at hc
      obtain ⟨-, -, hname, htokens, -⟩ := hc
      exact .define (hname.isName rfl) (wellFormed_of_derives hbody htokens)
  | _, _, .lambda _ _ _ params _ _ hbody, hc => by
      simp only [List.forall_mem_cons, List.forall_mem_append, List.forall_mem_map] at hc
      obtain ⟨-, -, -, hparams, -, htokens, -⟩ := hc
      exact .lambda (fun param hparam => (hparams param hparam).isName rfl)
        (wellFormed_of_derives hbody htokens)

theorem wellFormed_of_derivesAll : {exprs : List Expr} → {tokens : List Token} →
    DerivesAll exprs tokens → (∀ token ∈ tokens, token.Canonical) →
    ∀ expr ∈ exprs, expr.WellFormed
  | _, _, .nil, _ => by simp
  | _, _, .cons hexpr hexprs, hc => by
      rw [List.forall_mem_append] at hc
      exact List.forall_mem_cons.2
        ⟨wellFormed_of_derives hexpr hc.1, wellFormed_of_derivesAll hexprs hc.2⟩

end

/-- The well-formed trees are those with a derivation from canonical tokens. -/
theorem wellFormed_iff {expr : Expr} :
    expr.WellFormed ↔ ∃ tokens, Derives expr tokens ∧ ∀ token ∈ tokens, token.Canonical :=
  ⟨WellFormed.exists_derives, fun ⟨_, hd, hc⟩ => wellFormed_of_derives hd hc⟩

/-! ## Cutting the text of a tree -/

theorem lexemes_params {params : List String} (h : ∀ param ∈ params, IsName param)
    {rest : List Char} (hrest : Breaks rest) :
    (Token.Cut.ofChars ((" ".intercalate params).toList ++ rest)).lexemes =
      params.map String.toList ++ (Token.Cut.ofChars rest).lexemes := by
  induction params with
  | nil => simp
  | cons param params ih =>
      rw [List.forall_mem_cons] at h
      have hword := Token.isWord_of_isIdentText h.1.1
      cases params with
      | nil =>
          rw [String.intercalate_singleton, lexemes_word hword hrest]
          rfl
      | cons next params =>
          have htext : (" ".intercalate (param :: next :: params)).toList ++ rest =
              param.toList ++ ' ' :: ((" ".intercalate (next :: params)).toList ++ rest) := by
            simp [String.intercalate_cons_cons]
          rw [htext, lexemes_word hword (breaks_space _),
            lexemes_space, ih h.2]
          rfl

mutual

/-- The text of a tree is cut into the tokens of a canonical derivation, before a break. -/
theorem lexemes_text : {expr : Expr} → {tokens : List Token} → Derives expr tokens →
    (∀ token ∈ tokens, token.Canonical) → ∀ rest, Breaks rest →
      (Token.Cut.ofChars (expr.text.toList ++ rest)).lexemes =
        tokens.map (fun token => token.text.toList) ++ (Token.Cut.ofChars rest).lexemes
  | _, _, .bool value text, hc, rest, hrest => by
      rw [List.forall_mem_singleton] at hc
      have hword := hc.isWord (by simp) (by simp)
      obtain rfl : text = boolText value := hc.text_eq rfl
      exact lexemes_word hword hrest
  | _, _, .op o text, hc, rest, hrest => by
      rw [List.forall_mem_singleton] at hc
      have hword := hc.isWord (by simp) (by simp)
      obtain rfl : text = o.sign := hc.text_eq rfl
      exact lexemes_word hword hrest
  | _, _, .ident name, hc, rest, hrest => by
      rw [List.forall_mem_singleton] at hc
      exact lexemes_word (hc.isWord (by simp) (by simp)) hrest
  | _, _, @Derives.call operator operands front later left right hop hargs, hc, rest, hrest => by
      -- the operator stands before its operands, which begin with a space, if there are any
      simp only [List.forall_mem_cons, List.forall_mem_append] at hc
      obtain ⟨hleft, ⟨hfront, hlater⟩, hright, -⟩ := hc
      obtain rfl : left = "(" := hleft.text_eq rfl
      obtain rfl : right = ")" := hright.text_eq rfl
      obtain ⟨hbreaks, hoperands⟩ :=
        lexemes_operandsText hargs hlater (')' :: rest) (breaks_closeParen rest)
      have htext : (call operator operands).text.toList ++ rest =
          '(' :: (operator.text.toList ++ ((operandsText operands).toList ++ ')' :: rest)) := by
        simp [text]
      rw [htext, lexemes_openParen, lexemes_text hop hfront _ hbreaks, hoperands,
        lexemes_closeParen]
      simp
  | _, _, @Derives.cond test yes no first second third left word right htest hyes hno, hc, rest,
      hrest => by
      simp only [List.forall_mem_cons, List.forall_mem_append] at hc
      obtain ⟨hleft, hword, ⟨⟨hfirst, hsecond⟩, hthird⟩, hright, -⟩ := hc
      have hkeyword := hword.isWord (by simp) (by simp)
      obtain rfl : left = "(" := hleft.text_eq rfl
      obtain rfl : word = "if" := hword.text_eq rfl
      obtain rfl : right = ")" := hright.text_eq rfl
      have htext : (cond test yes no).text.toList ++ rest =
          '(' :: ("if".toList ++ ' ' :: (test.text.toList ++ ' ' :: (yes.text.toList ++ ' ' ::
            (no.text.toList ++ ')' :: rest)))) := by
        simp [text]
      rw [htext, lexemes_openParen,
        lexemes_word hkeyword (breaks_space _), lexemes_space,
        lexemes_text htest hfirst _ (breaks_space _), lexemes_space,
        lexemes_text hyes hsecond _ (breaks_space _), lexemes_space,
        lexemes_text hno hthird _ (breaks_closeParen _), lexemes_closeParen]
      simp
  | _, _, @Derives.define body tokens left word name right hbody, hc, rest, hrest => by
      simp only [List.forall_mem_cons, List.forall_mem_append] at hc
      obtain ⟨hleft, hword, hname, htokens, hright, -⟩ := hc
      have hkeyword := hword.isWord (by simp) (by simp)
      obtain rfl : left = "(" := hleft.text_eq rfl
      obtain rfl : word = "def" := hword.text_eq rfl
      obtain rfl : right = ")" := hright.text_eq rfl
      have htext : (define name body).text.toList ++ rest =
          '(' :: ("def".toList ++ ' ' :: (name.toList ++ ' ' ::
            (body.text.toList ++ ')' :: rest))) := by
        simp [text]
      rw [htext, lexemes_openParen,
        lexemes_word hkeyword (breaks_space _), lexemes_space,
        lexemes_word (hname.isWord (by simp) (by simp)) (breaks_space _),
        lexemes_space, lexemes_text hbody htokens _ (breaks_closeParen _),
        lexemes_closeParen]
      simp
  | _, _, @Derives.lambda body tokens left word left' params right' right hbody, hc, rest,
      hrest => by
      simp only [List.forall_mem_cons, List.forall_mem_append, List.forall_mem_map] at hc
      obtain ⟨hleft, hword, hleft', hparams, hright', htokens, hright, -⟩ := hc
      have hkeyword := hword.isWord (by simp) (by simp)
      obtain rfl : left = "(" := hleft.text_eq rfl
      obtain rfl : word = "lambda" := hword.text_eq rfl
      obtain rfl : left' = "(" := hleft'.text_eq rfl
      obtain rfl : right' = ")" := hright'.text_eq rfl
      obtain rfl : right = ")" := hright.text_eq rfl
      have hnames : ∀ param ∈ params, IsName param :=
        fun param hparam => (hparams param hparam).isName rfl
      have htext : (lambda params body).text.toList ++ rest =
          '(' :: ("lambda".toList ++ ' ' :: '(' :: ((" ".intercalate params).toList ++ ')' :: ' ' ::
            (body.text.toList ++ ')' :: rest))) := by
        simp [text]
      rw [htext, lexemes_openParen,
        lexemes_word hkeyword (breaks_space _), lexemes_space,
        lexemes_openParen, lexemes_params hnames (breaks_closeParen _),
        lexemes_closeParen, lexemes_space,
        lexemes_text hbody htokens _ (breaks_closeParen _),
        lexemes_closeParen]
      simp

/-- The text of operands begins with a break and is cut into the tokens of canonical
derivations. -/
theorem lexemes_operandsText : {exprs : List Expr} → {tokens : List Token} →
    DerivesAll exprs tokens → (∀ token ∈ tokens, token.Canonical) → ∀ rest, Breaks rest →
      Breaks ((operandsText exprs).toList ++ rest) ∧
        (Token.Cut.ofChars ((operandsText exprs).toList ++ rest)).lexemes =
          tokens.map (fun token => token.text.toList) ++ (Token.Cut.ofChars rest).lexemes
  | _, _, .nil, _, rest, hrest => ⟨hrest, rfl⟩
  | _, _, @DerivesAll.cons expr exprs tokens more hexpr hexprs, hc, rest, hrest => by
      rw [List.forall_mem_append] at hc
      obtain ⟨hbreaks, hoperands⟩ := lexemes_operandsText hexprs hc.2 rest hrest
      have htext : (operandsText (expr :: exprs)).toList ++ rest =
          ' ' :: (expr.text.toList ++ ((operandsText exprs).toList ++ rest)) := by
        simp [operandsText]
      rw [htext]
      refine ⟨breaks_space _, ?_⟩
      rw [lexemes_space, lexemes_text hexpr hc.1 _ hbreaks, hoperands]
      simp

end

/-- The text of a tree has the tokens of any canonical derivation of it. -/
theorem tokenize_text {expr : Expr} {tokens : List Token} (hd : Derives expr tokens)
    (hc : ∀ token ∈ tokens, token.Canonical) : Token.tokenize expr.text = .ok tokens := by
  refine Token.tokenize_eq_ok_iff.2 ⟨?_, hc⟩
  have hlexemes := lexemes_text hd hc [] breaks_nil
  rw [List.append_nil] at hlexemes
  rw [Token.lexemes, hlexemes]
  simp [Token.Cut.ofChars, Token.Cut.lexemes, Token.Cut.empty]

/-- What is read from the text of a tree is the tree exactly if the tree is well-formed and the
limit on nesting admits it, and then no token of the text is left over. -/
theorem readAt_text_iff (expr : Expr) (limit : Option Nat) :
    (∃ tokens, Token.tokenize expr.text = .ok tokens ∧
        readAt tokens 0 limit = .ok (expr, tokens.length)) ↔
      expr.WellFormed ∧ Reader.admits limit expr.height = true := by
  -- a canonical derivation is both what the text is cut into and what is read
  rw [wellFormed_iff]
  constructor
  · rintro ⟨tokens, htokens, h⟩
    obtain ⟨-, hc⟩ := Token.tokenize_eq_ok_iff.1 htokens
    obtain ⟨⟨-, hd⟩, hlimit⟩ := readAt_eq_ok_iff.1 h
    refine ⟨⟨_, hd, ?_⟩, hlimit⟩
    intro token hmem
    exact hc token (List.mem_of_mem_take hmem)
  · rintro ⟨⟨tokens, hd, hc⟩, hlimit⟩
    refine ⟨tokens, tokenize_text hd hc, readAt_eq_ok_iff.2 ⟨⟨by simp, ?_⟩, hlimit⟩⟩
    simpa using hd

theorem ofTokens_text_iff (expr : Expr) (limit : Option Nat) :
    (∃ tokens, Token.tokenize expr.text = .ok tokens ∧ ofTokens tokens limit = .ok expr) ↔
      expr.WellFormed ∧ Reader.admits limit expr.height = true := by
  constructor
  · rintro ⟨tokens, htokens, h⟩
    obtain ⟨count, h⟩ := ofTokens_eq_ok_iff.1 h
    -- what is cut from a text is canonical, so only well-formed trees are read from it
    obtain ⟨-, hc⟩ := Token.tokenize_eq_ok_iff.1 htokens
    obtain ⟨⟨-, hd⟩, hlimit⟩ := readAt_eq_ok_iff.1 h
    refine ⟨wellFormed_iff.2 ⟨_, hd, ?_⟩, hlimit⟩
    intro token hmem
    exact hc token (List.mem_of_mem_take hmem)
  · intro h
    obtain ⟨tokens, htokens, h⟩ := (readAt_text_iff expr limit).2 h
    exact ⟨tokens, htokens, ofTokens_eq_ok_iff.2 ⟨_, h⟩⟩

/-- A tree is written, and reads back as the tree from what is written, exactly if there is room to
write it, the tree is well-formed and the limit on nesting admits it. Then no token is left over. -/
theorem text_reads_back_iff (expr : Expr) (room : Room) (limit : Option Nat) :
    let admitted := room.holds expr.cells = true ∧ expr.WellFormed ∧
      Reader.admits limit expr.height = true
    ((∃ text tokens, expr.write room = some text ∧ Token.tokenize text = .ok tokens ∧
        ofTokens tokens limit = .ok expr) ↔ admitted) ∧
    ((∃ text tokens, expr.write room = some text ∧ Token.tokenize text = .ok tokens ∧
        readAt tokens 0 limit = .ok (expr, tokens.length)) ↔ admitted) := by
  dsimp only
  constructor
  · rw [← ofTokens_text_iff]
    constructor
    · rintro ⟨text, tokens, hwrite, htokens, h⟩
      obtain ⟨hroom, rfl⟩ := write_eq_some_iff.1 hwrite
      exact ⟨hroom, tokens, htokens, h⟩
    · rintro ⟨hroom, tokens, htokens, h⟩
      exact ⟨_, tokens, write_eq_some_iff.2 ⟨hroom, rfl⟩, htokens, h⟩
  · rw [← readAt_text_iff]
    constructor
    · rintro ⟨text, tokens, hwrite, htokens, h⟩
      obtain ⟨hroom, rfl⟩ := write_eq_some_iff.1 hwrite
      exact ⟨hroom, tokens, htokens, h⟩
    · rintro ⟨hroom, tokens, htokens, h⟩
      exact ⟨_, tokens, write_eq_some_iff.2 ⟨hroom, rfl⟩, htokens, h⟩

/-- Conditions inside one another, so many of them. -/
def conditions : Nat → Expr
  | 0 => .bool true
  | count + 1 => .cond (.bool true) (conditions count) (.bool false)

theorem wellFormed_conditions (count : Nat) : (conditions count).WellFormed := by
  induction count with
  | zero => exact .bool true
  | succ count ih => exact .cond (.bool true) ih (.bool false)

theorem height_conditions (count : Nat) : (conditions count).height = count + 1 := by
  induction count with
  | zero => rfl
  | succ count ih =>
      rw [conditions, height, ih, height, height]
      omega

/-- A condition that is written takes three cells, while one that is read takes two. -/
theorem cells_conditions (count : Nat) : (conditions count).cells = 3 * count + 2 := by
  induction count with
  | zero => rfl
  | succ count ih =>
      rw [conditions, cells, ih, cells, cells]
      omega

/-- A well-formed tree that the reader admits cannot be written in the same room. -/
theorem write_conditions :
    let expr := conditions 400
    expr.WellFormed ∧ Reader.admits nestingLimit expr.height = true ∧
      ¬∃ text tokens, expr.write (some roomCells) = some text ∧
        Token.tokenize text = .ok tokens ∧ ofTokens tokens = .ok expr := by
  refine ⟨wellFormed_conditions 400, ?_, ?_⟩
  · rw [height_conditions]
    decide
  · rintro ⟨text, tokens, hwrite, -⟩
    have hroom := (write_eq_some_iff.1 hwrite).1
    rw [cells_conditions] at hroom
    exact absurd hroom (by decide)

/-! ## Reading and writing back -/

/-- What is read from the tokens of a source has a derivation, of canonical tokens. -/
theorem derives_of_readAt {source : String} {tokens : List Token} {start count : Nat}
    {limit : Option Nat} {expr : Expr} (htokens : Token.tokenize source = .ok tokens)
    (hread : readAt tokens start limit = .ok (expr, count)) :
    Derives expr ((tokens.drop start).take count) ∧
      ∀ token ∈ (tokens.drop start).take count, token.Canonical := by
  obtain ⟨-, hcanonical⟩ := Token.tokenize_eq_ok_iff.1 htokens
  obtain ⟨⟨-, hderives⟩, -⟩ := readAt_eq_ok_iff.1 hread
  refine ⟨hderives, ?_⟩
  intro token hmem
  exact hcanonical token (List.mem_of_mem_drop (List.mem_of_mem_take hmem))

/-- A tree that is read from the tokens of a source is written, if there is room for that, with the
very tokens that it was read from. So the trees that are read at two places are the same exactly if
the tokens there are. -/
theorem tokenize_text_of_readAt {source : String} {tokens : List Token} {start count : Nat}
    {limit : Option Nat} {expr : Expr} (htokens : Token.tokenize source = .ok tokens)
    (hread : readAt tokens start limit = .ok (expr, count)) :
    start + count ≤ tokens.length ∧
    (∀ room : Room, (expr.write room).map Token.tokenize =
      if room.holds expr.cells then some (.ok ((tokens.drop start).take count)) else none) ∧
    ∀ (source' : String) (tokens' : List Token) (start' count' : Nat) (limit' : Option Nat)
      (expr' : Expr), Token.tokenize source' = .ok tokens' →
      readAt tokens' start' limit' = .ok (expr', count') →
      (expr' = expr ↔ (tokens'.drop start').take count' = (tokens.drop start).take count) := by
  obtain ⟨hspans, -⟩ := readAt_eq_ok_iff.1 hread
  obtain ⟨hderives, hcanonical⟩ := derives_of_readAt htokens hread
  have htext : Token.tokenize expr.text = .ok ((tokens.drop start).take count) :=
    tokenize_text hderives hcanonical
  refine ⟨hspans.1, ?_, ?_⟩
  · intro room
    rw [write, apply_ite (Option.map Token.tokenize), Option.map_some, Option.map_none, htext]
  intro source' tokens' start' count' limit' expr' htokens' hread'
  obtain ⟨hspans', -⟩ := readAt_eq_ok_iff.1 hread'
  constructor
  · rintro rfl
    -- the one text is cut into the tokens of both places
    obtain ⟨hderives', hcanonical'⟩ := derives_of_readAt htokens' hread'
    rw [tokenize_text hderives' hcanonical'] at htext
    exact Except.ok.inj htext
  · intro hslice
    have hlength := congrArg List.length hslice
    have hle := hspans.1
    have hle' := hspans'.1
    simp only [List.length_take, List.length_drop] at hlength
    obtain rfl : count' = count := by omega
    exact ((hspans'.congr hslice.symm).unique hspans).1

/-- A condition is read out of the middle of a source with uneven spacing. -/
theorem tokenize_text_of_readAt_condition :
    let tokens : List Token := [⟨.ident, "z"⟩, ⟨.openParen, "("⟩, ⟨.keyword .condition, "if"⟩,
      ⟨.ident, "iff"⟩, ⟨.openParen, "("⟩, ⟨.op .not, "^"⟩, ⟨.ident, "x"⟩, ⟨.closeParen, ")"⟩,
      ⟨.bool true, "T"⟩, ⟨.closeParen, ")"⟩, ⟨.bool false, "F"⟩]
    let expr : Expr := .cond (.ident "iff") (.call (.op .not) [.ident "x"]) (.bool true)
    Token.tokenize "z(if\u2003iff( ^\nx)T )F" = .ok tokens ∧ readAt tokens 1 = .ok (expr, 9) ∧
      expr.text = "(if iff (^ x) T)" ∧
      (expr.write (some roomCells)).map Token.tokenize = some (.ok ((tokens.drop 1).take 9)) := by
  intro tokens expr
  have htokens : Token.tokenize "z(if\u2003iff( ^\nx)T )F" = .ok tokens := rfl
  have hread : readAt tokens 1 = .ok (expr, 9) := rfl
  obtain ⟨-, htext, -⟩ := tokenize_text_of_readAt htokens hread
  exact ⟨htokens, hread, by decide +kernel, htext (some roomCells)⟩

/-- A tree that is read from a source cannot be written in the same room. -/
theorem write_of_readAt_conditions :
    let expr := conditions 400
    ∃ tokens, Token.tokenize expr.text = .ok tokens ∧
      readAt tokens 0 = .ok (expr, tokens.length) ∧ expr.write (some roomCells) = none := by
  intro expr
  have hadmits : Reader.admits nestingLimit expr.height = true := by
    rw [height_conditions]
    decide
  obtain ⟨tokens, htokens, hread⟩ :=
    (readAt_text_iff expr nestingLimit).2 ⟨wellFormed_conditions 400, hadmits⟩
  have hroom : ¬Room.holds (some roomCells) expr.cells = true := by
    rw [cells_conditions]
    decide
  exact ⟨tokens, htokens, hread, if_neg hroom⟩

end Expr

end PrefixLogic
