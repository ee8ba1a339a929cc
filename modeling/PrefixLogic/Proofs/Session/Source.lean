import PrefixLogic.Proofs.Evaluation.Frame
import PrefixLogic.Proofs.Reading.RoundTrip
import PrefixLogic.Proofs.Token.Spacing

/-!
# What a run owes to the text of its source

Blanks around a source do not matter to what it does (`Session.run_trim`). A source that does not
begin with an open parenthesis is at most a truth value, an operator or a name, so it binds nothing
(`Session.env_run_of_head?`).
-/

namespace PrefixLogic

/-- A tree that is not written in parentheses defines no names. -/
theorem Derives.openParen_or {expr : Expr} {tokens : List Token} (h : Derives expr tokens) :
    (∃ text rest, tokens = ⟨.openParen, text⟩ :: rest) ∨ expr.definedNames = [] := by
  cases h with
  | bool => exact .inr rfl
  | op => exact .inr rfl
  | ident => exact .inr rfl
  | call => exact .inl ⟨_, _, rfl⟩
  | cond => exact .inl ⟨_, _, rfl⟩
  | define => exact .inl ⟨_, _, rfl⟩
  | lambda => exact .inl ⟨_, _, rfl⟩

/-- The first lexeme is an open parenthesis only if the source begins with one, after blanks. -/
theorem Token.head?_trim_of_openParen {source : String} {rest : List String}
    (h : lexemes source = "(" :: rest) : (Text.trim source).toList.head? = some '(' := by
  obtain ⟨front, pieces, hsource, hpieces, hfront, -⟩ := spacing_cut source.toList
  rw [lexemes, hpieces] at h
  cases pieces with
  | nil => cases h
  | cons piece pieces =>
      obtain ⟨lexeme, gap⟩ := piece
      obtain rfl : lexeme = ['('] := String.ofList_injective (List.cons.inj h).1
      rw [head?_trim, hsource, List.dropWhile_append_of_pos hfront, spell_cons]
      rfl

namespace Session

/-- What is read from a source is what its tokens are read as. -/
theorem read_eq_ok_iff {room : Room} {source : String} {expr : Expr} :
    read room source = .ok expr ↔
      ∃ tokens, Token.tokenize source = .ok tokens ∧
        Expr.ofTokens tokens room.readings = .ok expr := by
  rw [read]
  cases Token.tokenize source with
  | error error => simp
  | ok tokens =>
      cases hexpr : Expr.ofTokens tokens room.readings <;> simp [hexpr, Except.mapError]

/-- Blanks around a source matter to what is recorded of it only. -/
theorem run_trim (config : Config) (source : String) (env : Env) :
    (run config (Text.trim source) env).result = (run config source env).result ∧
      (run config (Text.trim source) env).env = (run config source env).env := by
  have hread : read config.room (Text.trim source) = read config.room source := by
    rw [read, read, Token.tokenize_trim]
  have hquiet : runQuietly config (Text.trim source) env = runQuietly config source env := by
    rw [runQuietly, runQuietly, hread]
  rw [run, run]
  dsimp only
  rw [hquiet]
  exact ⟨rfl, rfl⟩

/-- A source that does not begin with an open parenthesis, after blanks, binds nothing. -/
theorem env_run_of_head? (config : Config) {source : String}
    (h : (Text.trim source).toList.head? ≠ some '(') (env : Env) :
    (run config source env).env = env := by
  change (runQuietly config source env).env = env
  rw [runQuietly]
  cases hread : read config.room source with
  | error failure => rfl
  | ok expr =>
      obtain ⟨tokens, htokens, hexpr⟩ := read_eq_ok_iff.1 hread
      obtain ⟨count, hat⟩ := Expr.ofTokens_eq_ok_iff.1 hexpr
      obtain ⟨hderives, hcanonical⟩ := Expr.derives_of_readAt htokens hat
      rcases hderives.openParen_or with ⟨text, rest, htaken⟩ | hnames
      · -- the first token is a parenthesis, so it is written as one
        rw [htaken, List.forall_mem_cons] at hcanonical
        obtain rfl : text = "(" := hcanonical.1.text_eq rfl
        obtain ⟨htexts, -⟩ := Token.tokenize_eq_ok_iff.1 htokens
        have hsplit := List.take_append_drop count tokens
        rw [List.drop_zero] at htaken
        rw [← hsplit, htaken] at htexts
        exact absurd (Token.head?_trim_of_openParen htexts) h
      · obtain ⟨houter, hgrows⟩ := Store.evaluate_env config expr env
        rw [hnames] at hgrows
        exact Env.ext hgrows.eq_of_nil houter

end Session

end PrefixLogic
