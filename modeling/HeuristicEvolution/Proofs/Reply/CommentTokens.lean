import HeuristicEvolution.Reply.Comment
import Mathlib.Data.List.Infix
import Mathlib.Data.List.TakeWhile

/-!
# Comments in a code that is made of tokens

A code that a compiler would accept is a list of tokens: comments of both kinds, literals, and
stretches of other text. A token is known by what stands in it and, for some kinds, by what comes
next: a line comment goes on to the end of the line, and two slashes begin a comment also where one
ends a stretch and the other one begins the next token. `Token.Fits` says this for each kind, and it
says it about the text of the tokens, not about how the text is read.

Reading a code from the left gives these tokens back, one lemma for each kind. A quote in a comment
and the opening of a comment in a literal need no rule: they are inside a token when the reader
comes to them.

## Main definitions

* `Comment.Token`, `Comment.Token.Fits`: a token, and when it is one where it stands.
* `Comment.AllFit`: a list of tokens is the list of tokens of its text.

## Main results

* `Comment.lexemes_token`: a token is read as itself.
* `Comment.stripComments_tokens`
-/

namespace HeuristicEvolution.Comment

/-- A character in a literal, as it is or behind a backslash. -/
inductive Piece where
  | bare (c : Char)
  | escaped (c : Char)
  deriving DecidableEq, Repr

namespace Piece

/-- The characters of a piece. -/
def text : Piece → List Char
  | bare c => [c]
  | escaped c => ['\\', c]

/-- The piece can stand in a literal with this quote. A backslash escapes any character, the quote
and a line break too. -/
def Inside (quote : Char) : Piece → Prop
  | bare c => c ≠ quote ∧ c ≠ '\\'
  | escaped _ => True

instance (quote : Char) : (p : Piece) → Decidable (p.Inside quote)
  | bare c => inferInstanceAs (Decidable (c ≠ quote ∧ c ≠ '\\'))
  | escaped _ => inferInstanceAs (Decidable True)

end Piece

/-- A token, without the delimiters of its kind. -/
inductive Token where
  | line (body : List Char)
  | block (body : List Char)
  | literal (quote : Char) (body : List Piece)
  | other (text : List Char)
  deriving DecidableEq, Repr

namespace Token

/-- What begins a comment. -/
def openings : List (List Char) := [['/', '/'], ['/', '*']]

/-- What ends a block comment. -/
def blockEnd : List Char := ['*', '/']

/-- The characters of a token. -/
def text : Token → List Char
  | line body => '/' :: '/' :: body
  | block body => '/' :: '*' :: (body ++ blockEnd)
  | literal quote body => quote :: (body.flatMap Piece.text ++ [quote])
  | other text => text

/-- What stands for a token when comments are taken out: a blank for a comment, and for any other
token the token itself. -/
def withoutComment : Token → List Char
  | line _ => [' ']
  | block _ => [' ']
  | literal quote body => (literal quote body).text
  | other text => text

/-- The token is one where `rest` comes next: a line comment reaches to the end of its line, a block
comment ends at its first end mark, and in other text nothing opens a literal or a comment, also not
together with what comes next. -/
def Fits (rest : List Char) : Token → Prop
  | line body => '\n' ∉ body ∧ (rest = [] ∨ rest.head? = some '\n')
  | block body => ¬ blockEnd <:+: body
  | literal quote body => (quote = '\'' ∨ quote = '"') ∧ ∀ p ∈ body, p.Inside quote
  | other text => ('\'' ∉ text ∧ '"' ∉ text) ∧
      ∀ i < text.length, ∀ opening ∈ openings, ¬ opening <+: (text ++ rest).drop i

instance (rest : List Char) : (t : Token) → Decidable (t.Fits rest)
  | line body => inferInstanceAs (Decidable ('\n' ∉ body ∧ (rest = [] ∨ rest.head? = some '\n')))
  | block body => inferInstanceAs (Decidable (¬ blockEnd <:+: body))
  | literal quote body =>
    inferInstanceAs (Decidable ((quote = '\'' ∨ quote = '"') ∧ ∀ p ∈ body, p.Inside quote))
  | other text => inferInstanceAs (Decidable (('\'' ∉ text ∧ '"' ∉ text) ∧
      ∀ i < text.length, ∀ opening ∈ openings, ¬ opening <+: (text ++ rest).drop i))

/-- The lexemes as which a token is read. -/
def lexemes : Token → List Lexeme
  | line body => [.comment (line body).text]
  | block body => [.comment (block body).text]
  | literal quote body => [.literal (literal quote body).text]
  | other text => text.map .plain

theorem stripped_lexemes (t : Token) : t.lexemes.flatMap Lexeme.stripped = t.withoutComment := by
  cases t with
  | line body => rfl
  | block body => rfl
  | literal quote body => simp [lexemes, withoutComment, Lexeme.stripped, Lexeme.text]
  | other text =>
    have hplain : (fun c => Lexeme.stripped (.plain c)) = fun c => [c] := rfl
    simp [lexemes, withoutComment, List.flatMap_map, hplain]

end Token

/-- Every token of the list is one where the text of the later tokens comes next. -/
def AllFit : List Token → Prop
  | [] => True
  | t :: ts => t.Fits (ts.flatMap Token.text) ∧ AllFit ts

instance decidableAllFit : (ts : List Token) → Decidable (AllFit ts)
  | [] => inferInstanceAs (Decidable True)
  | t :: ts =>
    have := decidableAllFit ts
    inferInstanceAs (Decidable (t.Fits (ts.flatMap Token.text) ∧ AllFit ts))

/-! ## The kinds of tokens -/

theorem lexemes_cons (c : Char) (cs : List Char) :
    lexemes (c :: cs) = (headLexeme c cs).1 :: lexemes (headLexeme c cs).2 := by
  rw [lexemes]

theorem headLexeme_line {body rest : List Char} (h : (Token.line body).Fits rest) :
    headLexeme '/' ('/' :: (body ++ rest)) = (.comment (Token.line body).text, rest) := by
  obtain ⟨hbody, hrest⟩ := h
  have hin : ∀ c ∈ body, decide (c ≠ '\n') = true := by
    intro c hc
    have hne : c ≠ '\n' := fun heq => hbody (heq ▸ hc)
    simpa using hne
  have hends : rest.takeWhile (fun c => decide (c ≠ '\n')) = [] ∧
      rest.dropWhile (fun c => decide (c ≠ '\n')) = rest := by
    rcases hrest with rfl | hbreak
    · exact ⟨rfl, rfl⟩
    · cases rest with
      | nil => exact ⟨rfl, rfl⟩
      | cons c rest =>
        obtain rfl : c = '\n' := Option.some.inj hbreak
        exact ⟨rfl, rfl⟩
  rw [headLexeme, List.takeWhile_append_of_pos hin, List.dropWhile_append_of_pos hin, hends.1,
    hends.2, List.append_nil]
  rfl

theorem closeBlock_of_not_end {c : Char} {rest : List Char}
    (h : ¬ Token.blockEnd <+: c :: rest) :
    closeBlock (c :: rest) = (closeBlock rest).map fun p => (c :: p.1, p.2) := by
  rw [closeBlock]
  rintro after rfl rfl
  exact h ⟨after, rfl⟩

/-- A block comment is closed by the first end mark. None begins in the body and ends behind it,
because an end mark begins with a star and ends with a slash. -/
theorem closeBlock_append_end {body : List Char} (h : ¬ Token.blockEnd <:+: body)
    (rest : List Char) :
    closeBlock (body ++ Token.blockEnd ++ rest) = some (body ++ Token.blockEnd, rest) := by
  induction body with
  | nil => simp [Token.blockEnd, closeBlock]
  | cons c body ih =>
    have hnot : ¬ Token.blockEnd <+: c :: (body ++ Token.blockEnd ++ rest) := by
      rintro ⟨after, hafter⟩
      cases body with
      | nil => simp [Token.blockEnd] at hafter
      | cons d body =>
        simp only [Token.blockEnd, List.cons_append, List.nil_append, List.cons.injEq] at hafter
        obtain ⟨rfl, rfl, -⟩ := hafter
        exact h ⟨[], body, rfl⟩
    have hlater : ¬ Token.blockEnd <:+: body :=
      fun hin => h (hin.trans (List.suffix_cons c body).isInfix)
    rw [List.cons_append, List.cons_append, closeBlock_of_not_end hnot, ih hlater]
    rfl

theorem headLexeme_block {body rest : List Char} (h : (Token.block body).Fits rest) :
    headLexeme '/' ('*' :: (body ++ Token.blockEnd ++ rest))
      = (.comment (Token.block body).text, rest) := by
  rw [headLexeme, closeBlock_append_end h rest]
  rfl

/-- A literal is closed by the first quote that is not escaped. -/
theorem closeLiteral_append_quote {quote : Char} {body : List Piece} (hquote : quote ≠ '\\')
    (h : ∀ p ∈ body, p.Inside quote) (rest : List Char) :
    closeLiteral quote (body.flatMap Piece.text ++ quote :: rest)
      = some (body.flatMap Piece.text ++ [quote], rest) := by
  induction body with
  | nil =>
    rw [List.flatMap_nil, List.nil_append, closeLiteral, if_pos rfl]
    · rfl
    · exact fun c after hq _ => hquote hq
    · exact fun hq _ => hquote hq
  | cons p body ih =>
    obtain ⟨hp, hbody⟩ := List.forall_mem_cons.mp h
    have hrest := ih hbody
    cases p with
    | bare c =>
      obtain ⟨hne, hplain⟩ := hp
      rw [List.flatMap_cons, List.append_assoc, Piece.text, List.singleton_append, closeLiteral,
        if_neg hne, hrest]
      · rfl
      · exact fun d after hc _ => hplain hc
      · exact fun hc _ => hplain hc
    | escaped c =>
      rw [List.flatMap_cons, List.append_assoc, Piece.text]
      simp only [List.cons_append, List.nil_append]
      rw [closeLiteral, hrest]
      rfl

theorem headLexeme_literal {quote : Char} {body : List Piece} {rest : List Char}
    (h : (Token.literal quote body).Fits rest) :
    headLexeme quote (body.flatMap Piece.text ++ quote :: rest)
      = (.literal (Token.literal quote body).text, rest) := by
  obtain ⟨hquote, hbody⟩ := h
  have hclose := closeLiteral_append_quote (by rcases hquote with rfl | rfl <;> decide) hbody rest
  rcases hquote with rfl | rfl
  · rw [headLexeme, hclose]
    rfl
  · rw [headLexeme, hclose]
    rfl

/-- A character that is no quote, and no slash before a slash or a star, stands for itself. -/
theorem headLexeme_plain {c : Char} {rest : List Char} (hsingle : c ≠ '\'') (hdouble : c ≠ '"')
    (hslash : c = '/' → rest.head? ≠ some '/' ∧ rest.head? ≠ some '*') :
    headLexeme c rest = (.plain c, rest) := by
  rw [headLexeme]
  · exact hsingle
  · exact hdouble
  · rintro after rfl rfl
    exact (hslash rfl).1 rfl
  · rintro after rfl rfl
    exact (hslash rfl).2 rfl

theorem lexemes_plain {text rest : List Char} (h : (Token.other text).Fits rest) :
    lexemes (text ++ rest) = text.map .plain ++ lexemes rest := by
  induction text with
  | nil => rfl
  | cons c text ih =>
    obtain ⟨⟨hsingle, hdouble⟩, hopenings⟩ := h
    obtain ⟨hnotSingle, hsingle⟩ := not_or.mp (mt List.mem_cons.mpr hsingle)
    obtain ⟨hnotDouble, hdouble⟩ := not_or.mp (mt List.mem_cons.mpr hdouble)
    have hslash : c = '/' →
        (text ++ rest).head? ≠ some '/' ∧ (text ++ rest).head? ≠ some '*' := by
      rintro rfl
      have hnone := hopenings 0 (Nat.succ_pos _)
      refine ⟨fun hhead => hnone ['/', '/'] (by simp [Token.openings]) ?_,
        fun hhead => hnone ['/', '*'] (by simp [Token.openings]) ?_⟩
      all_goals
        obtain ⟨after, hafter⟩ := List.head?_eq_some_iff.mp hhead
        exact ⟨after, by simp [hafter]⟩
    have htail : (Token.other text).Fits rest :=
      ⟨⟨hsingle, hdouble⟩, fun i hi => hopenings (i + 1) (Nat.succ_lt_succ hi)⟩
    have hplain := headLexeme_plain (Ne.symm hnotSingle) (Ne.symm hnotDouble) hslash
    rw [List.cons_append, lexemes_cons, hplain, ih htail]
    rfl

/-! ## Lists of tokens -/

/-- **A token is read as itself.** -/
theorem lexemes_token {t : Token} {rest : List Char} (h : t.Fits rest) :
    lexemes (t.text ++ rest) = t.lexemes ++ lexemes rest := by
  cases t with
  | line body =>
    have hhead := headLexeme_line h
    rw [Token.text, List.cons_append, lexemes_cons, List.cons_append, hhead]
    rfl
  | block body =>
    have hhead := headLexeme_block h
    rw [Token.text, List.cons_append, lexemes_cons, List.cons_append, hhead]
    rfl
  | literal quote body =>
    have hhead := headLexeme_literal h
    rw [Token.text, List.cons_append, List.append_assoc, List.singleton_append, lexemes_cons, hhead]
    rfl
  | other text => exact lexemes_plain h

/-- A code is read as the tokens that it is made of. -/
theorem lexemes_tokens {ts : List Token} (h : AllFit ts) :
    lexemes (ts.flatMap Token.text) = ts.flatMap Token.lexemes := by
  induction ts with
  | nil => rw [List.flatMap_nil, lexemes, List.flatMap_nil]
  | cons t ts ih =>
    obtain ⟨hfirst, hrest⟩ := h
    rw [List.flatMap_cons, lexemes_token hfirst, ih hrest, List.flatMap_cons]

/-- **Comments are taken out of tokens.** Of a code that is made of tokens every comment becomes one
blank, and every other token stays as it is, whatever stands in comments and literals. -/
theorem stripComments_tokens (ts : List Token) (h : AllFit ts) :
    stripComments (String.ofList (ts.flatMap Token.text)) =
      String.ofList (ts.flatMap Token.withoutComment) := by
  have hstripped : (fun t : Token => t.lexemes.flatMap Lexeme.stripped) = Token.withoutComment :=
    funext Token.stripped_lexemes
  rw [stripComments, String.toList_ofList, lexemes_tokens h, List.flatMap_assoc, hstripped]

/-- A quote in both kinds of comments, the openings of both in literals, a quote that is escaped,
and a division between two comments. -/
theorem stripComments_tokens_mixed :
    let tokens : List Token := [.literal '"' [.bare '/', .bare '/', .escaped '"'], .other [';'],
      .block ['*', '\'', '/', '*'], .other ['a', '/', ' '], .block [], .line ['*', '"'],
      .other ['\n'], .literal '\'' [.escaped '\'', .bare '/', .bare '*']]
    AllFit tokens ∧
      stripComments "\"//\\\"\";/**'/**/a/ /**///*\"\n'\\'/*'" = "\"//\\\"\"; a/   \n'\\'/*'" := by
  intro tokens
  have hfit : AllFit tokens := by decide
  have htext : String.ofList (tokens.flatMap Token.text) =
      "\"//\\\"\";/**'/**/a/ /**///*\"\n'\\'/*'" := by decide
  have hstripped := stripComments_tokens tokens hfit
  rw [htext] at hstripped
  exact ⟨hfit, hstripped.trans (by decide)⟩

end HeuristicEvolution.Comment
