import HeuristicEvolution.Proofs.Reply.CommentTokens
import HeuristicEvolution.Proofs.Reply.Writing

/-!
# A code without its comments, read again

What is left of a code when its comments are taken out is read again when it is shown once more. Any
text is a code here, and three things could then be read otherwise than before. A slash and a star
might come together; a literal that was never closed might be closed, because the comment that held
its closing quote is gone or because a backslash now escapes another character; and a literal that
was closed might stay open.

The blank that is left in place of a comment keeps slashes and stars apart. For quotes the matter is
one of escapes. Reading on inside a literal has one bit of memory, whether the last character was an
escaping backslash (`readOn`). A comment is passed with that bit cleared, either by its own last
characters or by the line break behind it, and a blank clears it as well. So the reading goes on
behind the blank as it did behind the comment, whether or not the literal began where a comment
could be seen.

## Main definitions

* `Comment.readOn`: reading on inside a literal.
* `Comment.Lexeme.blanked`: what a lexeme is when comments are taken out.

## Main results

* `Comment.infix_of_stripped`: what holds no blank is not made by taking comments out.
* `Comment.readOn_stripped`: an open literal stays open.
* `Comment.stripComments_settled`
-/

namespace HeuristicEvolution.Comment

open Fence (infix_append_cons_iff)

/-- The code without its comments. -/
def stripped (cs : List Char) : List Char := (lexemes cs).flatMap Lexeme.stripped

theorem stripped_cons (c : Char) (cs : List Char) :
    stripped (c :: cs) = (headLexeme c cs).1.stripped ++ stripped (headLexeme c cs).2 := by
  rw [stripped, lexemes_cons, List.flatMap_cons, stripped]

/-- A lexeme where comments are taken out: a blank for a comment, and any other lexeme itself. -/
def Lexeme.blanked : Lexeme → Lexeme
  | .comment _ => .plain ' '
  | l => l

/-! ## What a blank keeps apart -/

/-- **What holds no blank is not made by taking comments out**, not even with the text before. -/
theorem infix_of_stripped {sep xs : List Char} {ls : List Lexeme} (hblank : ' ' ∉ sep)
    (h : sep <:+: xs ++ ls.flatMap Lexeme.stripped) : sep <:+: xs ++ ls.flatMap Lexeme.text := by
  induction ls generalizing xs with
  | nil => exact h
  | cons l rest ih =>
    rw [List.flatMap_cons] at h ⊢
    cases l with
    | comment cs =>
      rcases (infix_append_cons_iff hblank).mp h with hleft | hright
      · exact hleft.trans (List.prefix_append _ _).isInfix
      · have hlater : sep <:+: [] ++ rest.flatMap Lexeme.text := ih hright
        rw [← List.append_assoc]
        exact hlater.trans (List.suffix_append _ _).isInfix
    | literal cs =>
      rw [← List.append_assoc] at h ⊢
      exact ih h
    | plain c =>
      rw [← List.append_assoc] at h ⊢
      exact ih h

theorem infix_of_infix_stripped {sep cs : List Char} (hblank : ' ' ∉ sep)
    (h : sep <:+: stripped cs) : sep <:+: cs := by
  have htext : sep <:+: [] ++ (lexemes cs).flatMap Lexeme.text := infix_of_stripped hblank h
  rwa [List.nil_append, flatMap_text_lexemes] at htext

/-- What a code begins with after comments are taken out is a blank, or what it began with. -/
theorem head?_stripped {cs : List Char} {d : Char} (hd : d ≠ ' ')
    (h : (stripped cs).head? = some d) : cs.head? = some d := by
  cases cs with
  | nil => simp [stripped, lexemes] at h
  | cons c cs =>
    have htext := headLexeme_text_ne_nil c cs
    rw [stripped_cons] at h
    rw [← headLexeme_append c cs, List.head?_append_of_ne_nil _ htext]
    cases hl : (headLexeme c cs).1 with
    | comment k =>
      rw [hl] at h
      exact absurd (Option.some.inj h).symm hd
    | literal k =>
      rw [hl] at h htext
      have hstart : (k ++ stripped (headLexeme c cs).2).head? = some d := h
      have hne : k ≠ [] := htext
      rwa [List.head?_append_of_ne_nil _ hne] at hstart
    | plain c =>
      rw [hl] at h
      exact h

/-- A block comment is not closed exactly if there is no end mark. -/
theorem closeBlock_eq_none_iff {cs : List Char} :
    closeBlock cs = none ↔ ¬ Token.blockEnd <:+: cs := by
  induction cs with
  | nil => simp [closeBlock, Token.blockEnd]
  | cons c cs ih =>
    by_cases hend : Token.blockEnd <+: c :: cs
    · obtain ⟨rest, hrest⟩ := hend
      have hsome : closeBlock (Token.blockEnd ++ rest) = some (Token.blockEnd, rest) := by
        simp [Token.blockEnd, closeBlock]
      rw [← hrest, hsome]
      have hthere : Token.blockEnd <:+: Token.blockEnd ++ rest := (List.prefix_append _ _).isInfix
      simp [hthere]
    · rw [closeBlock_of_not_end hend, Option.map_eq_none_iff, ih, List.infix_cons_iff, not_or]
      simp [hend]

/-! ## Open literals -/

/-- Reading on inside a literal with this quote. The bit says whether the character before is a
backslash that escapes the next one; there is none behind the closing quote. -/
def readOn (quote : Char) : (escaping : Bool) → List Char → Option Bool
  | escaping, [] => some escaping
  | true, _ :: cs => readOn quote false cs
  | false, c :: cs =>
    if c = '\\' then readOn quote true cs
    else if c = quote then none
    else readOn quote false cs

/-- The quotes of literals. -/
def IsQuote (c : Char) : Prop := c = '\'' ∨ c = '"'

theorem headLexeme_quote {quote : Char} (hquote : IsQuote quote) (cs : List Char) :
    headLexeme quote cs = match closeLiteral quote cs with
      | some (body, after) => (.literal (quote :: body), after)
      | none => (.plain quote, cs) := by
  rcases hquote with rfl | rfl <;> rfl

section Reading

variable {quote : Char}

theorem readOn_append (e : Bool) (xs ys : List Char) :
    readOn quote e (xs ++ ys) = (readOn quote e xs).bind fun e => readOn quote e ys := by
  fun_induction readOn quote e xs with
  | case1 e => rfl
  | case2 c cs ih => exact ih
  | case3 cs ih => exact ih
  | case4 cs hslash => rw [List.cons_append, readOn, if_neg hslash, if_pos rfl]; rfl
  | case5 c cs hslash hquote ih =>
    rw [List.cons_append, readOn, if_neg hslash, if_neg hquote]
    exact ih

/-- A blank is no quote, and no backslash either. -/
theorem readOn_blank (hquote : IsQuote quote) (e : Bool) : readOn quote e [' '] = some false := by
  rcases hquote with rfl | rfl <;> cases e <;> rfl

theorem closeLiteral_of_ne {c : Char} (hc : c ≠ '\\') (cs : List Char) :
    closeLiteral quote (c :: cs) =
      if c = quote then some ([c], cs) else (closeLiteral quote cs).map fun p => (c :: p.1, p.2) := by
  rw [closeLiteral]
  · exact fun _ _ hslash _ => hc hslash
  · exact fun hslash _ => hc hslash

/-- **A literal is not closed** exactly if reading on inside it comes to the end of the text. -/
theorem closeLiteral_eq_none_iff (hquote : IsQuote quote) {cs : List Char} :
    closeLiteral quote cs = none ↔ (readOn quote false cs).isSome := by
  have hslash : quote ≠ '\\' := by rcases hquote with rfl | rfl <;> decide
  fun_induction closeLiteral quote cs with
  | case1 c rest ih =>
    rw [Option.map_eq_none_iff]
    exact ih
  | case2 => exact ⟨fun _ => rfl, fun _ => rfl⟩
  | case3 rest => simp [readOn, hslash]
  | case4 c rest hpair hlast hne ih =>
    have hc : c ≠ '\\' := by
      intro h
      cases rest with
      | nil => exact hlast h rfl
      | cons d rest => exact hpair d rest h rfl
    rw [Option.map_eq_none_iff, readOn, if_neg hc, if_neg hne]
    exact ih
  | case5 => exact ⟨fun _ => rfl, fun _ => rfl⟩

/-- Whatever stands behind a closed literal, it is closed by the same quote. -/
theorem closeLiteral_append_after (hquote : IsQuote quote) {cs body after : List Char}
    (h : closeLiteral quote cs = some (body, after)) (rest : List Char) :
    closeLiteral quote (body ++ rest) = some (body, rest) := by
  have hslash : quote ≠ '\\' := by rcases hquote with rfl | rfl <;> decide
  fun_induction closeLiteral quote cs generalizing body after with
  | case1 c cs ih =>
    obtain ⟨⟨b, a⟩, hclose, hb⟩ := Option.map_eq_some_iff.mp h
    obtain ⟨rfl, rfl⟩ := Prod.mk.inj hb
    rw [List.cons_append, List.cons_append, closeLiteral, ih hclose]
    rfl
  | case2 => cases h
  | case3 cs =>
    obtain ⟨rfl, rfl⟩ := Prod.mk.inj (Option.some.inj h)
    rw [List.singleton_append, closeLiteral_of_ne hslash, if_pos rfl]
  | case4 c cs hpair hlast hne ih =>
    obtain ⟨⟨b, a⟩, hclose, hb⟩ := Option.map_eq_some_iff.mp h
    obtain ⟨rfl, rfl⟩ := Prod.mk.inj hb
    have hc : c ≠ '\\' := by
      intro hslash
      cases cs with
      | nil => exact hlast hslash rfl
      | cons d cs => exact hpair d cs hslash rfl
    rw [List.cons_append, closeLiteral_of_ne hc, if_neg hne, ih hclose]
    rfl
  | case5 => cases h

/-- The end mark of a block comment clears the bit. -/
theorem readOn_blockEnd (hquote : IsQuote quote) {e e' : Bool} {xs : List Char}
    (h : readOn quote e (xs ++ Token.blockEnd) = some e') : e' = false := by
  rw [readOn_append] at h
  obtain ⟨e₁, -, hend⟩ := Option.bind_eq_some_iff.mp h
  have hclear : readOn quote e₁ Token.blockEnd = some false := by
    rcases hquote with rfl | rfl <;> cases e₁ <;> rfl
  exact Option.some.inj (hend.symm.trans hclear)

end Reading

/-! ## Comments -/

theorem closeBlock_ends {cs body after : List Char} (h : closeBlock cs = some (body, after)) :
    ∃ xs, body = xs ++ Token.blockEnd := by
  fun_induction closeBlock cs generalizing body after with
  | case1 rest =>
    obtain ⟨rfl, -⟩ := Prod.mk.inj (Option.some.inj h)
    exact ⟨[], rfl⟩
  | case2 c rest _ ih =>
    obtain ⟨⟨b, a⟩, hclose, hb⟩ := Option.map_eq_some_iff.mp h
    obtain ⟨rfl, -⟩ := Prod.mk.inj hb
    obtain ⟨xs, rfl⟩ := ih hclose
    exact ⟨c :: xs, rfl⟩
  | case3 => cases h

/-- A comment ends with an end mark, or where its line ends. -/
theorem comment_ends {c : Char} {cs k after : List Char}
    (h : headLexeme c cs = (.comment k, after)) :
    (∃ xs, k = xs ++ Token.blockEnd) ∨ after = [] ∨ after.head? = some '\n' := by
  revert h
  fun_cases headLexeme c cs with
  | case1 rest =>
    intro h
    obtain ⟨-, rfl⟩ := Prod.mk.inj h
    have hnot := List.head?_dropWhile_not (fun d => decide (d ≠ '\n')) rest
    cases hrest : rest.dropWhile fun d => decide (d ≠ '\n') with
    | nil => exact .inr (.inl rfl)
    | cons d after =>
      rw [hrest] at hnot
      exact .inr (.inr (by simpa using hnot))
  | case2 rest body _ hclose =>
    intro h
    obtain ⟨hk, -⟩ := Prod.mk.inj h
    obtain ⟨xs, rfl⟩ := closeBlock_ends hclose
    exact .inl ⟨'/' :: '*' :: xs, (Lexeme.comment.inj hk).symm⟩
  | _ =>
    intro h
    cases h

/-- Behind a comment a literal that is still open is read on as behind a blank. -/
theorem readOn_after_comment {quote : Char} (hquote : IsQuote quote) {c : Char}
    {cs k after : List Char} (h : headLexeme c cs = (.comment k, after)) {e e' : Bool}
    (hk : readOn quote e k = some e') (hafter : (readOn quote e' after).isSome) :
    (readOn quote false after).isSome := by
  cases e' with
  | false => exact hafter
  | true =>
    rcases comment_ends h with ⟨xs, rfl⟩ | rfl | hbreak
    · cases readOn_blockEnd hquote hk
    · rfl
    · -- the line break is the character that is escaped, and it closes nothing anyway
      obtain ⟨rest, rfl⟩ := List.head?_eq_some_iff.mp hbreak
      have hne : '\n' ≠ quote := by rcases hquote with rfl | rfl <;> decide
      rw [readOn, if_neg (by decide), if_neg hne]
      exact hafter

/-- **An open literal stays open** when comments are taken out of the code behind its quote. -/
theorem readOn_stripped {quote : Char} (hquote : IsQuote quote) {cs : List Char} {e : Bool}
    (h : (readOn quote e cs).isSome) : (readOn quote e (stripped cs)).isSome := by
  induction hn : cs.length using Nat.strong_induction_on generalizing cs e with
  | _ n ih =>
    cases cs with
    | nil => simpa [stripped, lexemes] using h
    | cons c cs =>
      rw [← headLexeme_append c cs, readOn_append] at h
      have hlength := headLexeme_length c cs
      rw [stripped_cons, readOn_append]
      cases hread : headLexeme c cs with
      | mk l after =>
        rw [hread] at h hlength
        obtain ⟨e', he', hafter⟩ : ∃ e', readOn quote e l.text = some e' ∧
            (readOn quote e' after).isSome := by
          cases hl : readOn quote e l.text with
          | none => simp [hl] at h
          | some e' => exact ⟨e', rfl, by simpa [hl] using h⟩
        have hshorter : after.length < n := hn ▸ hlength
        cases l with
        | comment k =>
          rw [Lexeme.stripped, readOn_blank hquote]
          exact ih _ hshorter (readOn_after_comment hquote hread he' hafter) rfl
        | literal k =>
          have hkept : readOn quote e (Lexeme.literal k).stripped = some e' := he'
          rw [hkept]
          exact ih _ hshorter hafter rfl
        | plain d =>
          have hkept : readOn quote e (Lexeme.plain d).stripped = some e' := he'
          rw [hkept]
          exact ih _ hshorter hafter rfl

/-! ## Reading again -/

theorem lexemes_blank (rest : List Char) : lexemes (' ' :: rest) = .plain ' ' :: lexemes rest := by
  have hplain : headLexeme ' ' rest = (.plain ' ', rest) :=
    headLexeme_plain (by decide) (by decide) (fun h => absurd h (by decide))
  rw [lexemes_cons, hplain]

/-- A literal is read again whatever has become of the code behind it. -/
theorem lexemes_literal {quote : Char} (hquote : IsQuote quote) {cs body after : List Char}
    (h : closeLiteral quote cs = some (body, after)) (rest : List Char) :
    lexemes (quote :: (body ++ rest)) = .literal (quote :: body) :: lexemes rest := by
  rw [lexemes_cons, headLexeme_quote hquote, closeLiteral_append_after hquote h]

/-- A quote without a partner has none in what is left of the code behind it. -/
theorem lexemes_quote_stripped {quote : Char} (hquote : IsQuote quote) {cs : List Char}
    (h : closeLiteral quote cs = none) :
    lexemes (quote :: stripped cs) = .plain quote :: lexemes (stripped cs) := by
  have hopen := readOn_stripped hquote ((closeLiteral_eq_none_iff hquote).mp h)
  rw [lexemes_cons, headLexeme_quote hquote, (closeLiteral_eq_none_iff hquote).mpr hopen]

/-- A slash and a star that open no comment open none before what is left of the code. -/
theorem lexemes_slash_stripped {cs : List Char} (h : closeBlock cs = none) :
    lexemes ('/' :: stripped ('*' :: cs)) = .plain '/' :: lexemes (stripped ('*' :: cs)) := by
  have hstar : stripped ('*' :: cs) = '*' :: stripped cs := by
    have hplain : headLexeme '*' cs = (.plain '*', cs) :=
      headLexeme_plain (by decide) (by decide) (fun hc => absurd hc (by decide))
    rw [stripped_cons, hplain]
    rfl
  have hopen : closeBlock (stripped cs) = none := by
    rw [closeBlock_eq_none_iff] at h ⊢
    exact fun hend => h (infix_of_infix_stripped (by decide) hend)
  rw [hstar, lexemes_cons, headLexeme, hopen]

/-- **The first lexeme is read again as what it became**, and what comes next is read behind it. -/
theorem lexemes_stripped_cons (c : Char) (cs : List Char) :
    lexemes (stripped (c :: cs)) =
      (headLexeme c cs).1.blanked :: lexemes (stripped (headLexeme c cs).2) := by
  rw [stripped_cons]
  fun_cases headLexeme c cs with
  | case1 rest => exact lexemes_blank _
  | case2 rest body after _ => exact lexemes_blank _
  | case3 rest hclose => exact lexemes_slash_stripped hclose
  | case4 rest body after hclose => exact lexemes_literal (.inl rfl) hclose _
  | case5 rest hclose => exact lexemes_quote_stripped (.inl rfl) hclose
  | case6 rest body after hclose => exact lexemes_literal (.inr rfl) hclose _
  | case7 rest hclose => exact lexemes_quote_stripped (.inr rfl) hclose
  | case8 _ _ hline hblock hsingle hdouble =>
    -- a slash or star at the head of what is left stood there before
    have hplain : headLexeme c (stripped cs) = (.plain c, stripped cs) := by
      refine headLexeme_plain hsingle hdouble fun hc => ⟨fun hnext => ?_, fun hnext => ?_⟩
      · obtain ⟨after, hafter⟩ :=
          List.head?_eq_some_iff.mp (head?_stripped (by decide) hnext)
        exact hline after hc hafter
      · obtain ⟨after, hafter⟩ :=
          List.head?_eq_some_iff.mp (head?_stripped (by decide) hnext)
        exact hblock after hc hafter
    exact (lexemes_cons c (stripped cs)).trans (by rw [hplain]; rfl)

/-- What is left of a code is read as the lexemes of the code, with blanks for its comments. -/
theorem lexemes_stripped (cs : List Char) :
    lexemes (stripped cs) = (lexemes cs).map Lexeme.blanked := by
  fun_induction lexemes cs with
  | case1 => simp [stripped, lexemes]
  | case2 c cs ih => rw [lexemes_stripped_cons, ih, List.map_cons]

theorem stripped_blanked (l : Lexeme) : l.blanked.stripped = l.stripped := by
  cases l <;> rfl

/-- **Taking comments out settles a code.** What is left of any text is read as its lexemes were,
one for one: each comment is a blank now, each literal the same literal, and each other character
stands for itself as it did. So there is no comment in it that was not there, no quote has found a
partner or lost one, and taking comments out once more changes nothing. -/
theorem stripComments_settled (code : String) :
    lexemes (stripComments code).toList = (lexemes code.toList).map Lexeme.blanked ∧
      stripComments (stripComments code) = stripComments code := by
  have hread : lexemes (stripComments code).toList = (lexemes code.toList).map Lexeme.blanked := by
    rw [stripComments, String.toList_ofList]
    exact lexemes_stripped code.toList
  have hagain : (fun l : Lexeme => l.blanked.stripped) = Lexeme.stripped :=
    funext stripped_blanked
  refine ⟨hread, ?_⟩
  rw [stripComments, hread, List.flatMap_map, hagain]
  rfl

/-- The quote in the comment is escaped, so the first one has no partner, with and without it. -/
example : stripComments "'/*\\'*/x" = "' x" := by
  decide +kernel

end HeuristicEvolution.Comment
