/-!
# Comments in C-like code

Parent codes are shown to the model without their comments. `lexemes` reads a code as comments,
string and character literals, and single other characters; `stripComments` writes it again with
one blank in place of each comment, so that the tokens beside it stay apart.

A comment or literal that is never closed is no comment or literal: its first character stands
for itself and reading goes on behind it.

## Main statements

* `flatMap_text_lexemes`: the lexemes of a code spell the code.
-/

namespace HeuristicEvolution.Comment

/-- What a code is made of, with the delimiters. -/
inductive Lexeme where
  | comment (text : List Char)
  | literal (text : List Char)
  | plain (c : Char)
  deriving DecidableEq, Repr

/-- The characters of a lexeme as they stand in the code. -/
def Lexeme.text : Lexeme → List Char
  | .comment cs => cs
  | .literal cs => cs
  | .plain c => [c]

/-- What is left of a lexeme when comments are removed. -/
def Lexeme.stripped : Lexeme → List Char
  | .comment _ => [' ']
  | l => l.text

/-- The text up to and with the first end mark of a block comment, and the rest. -/
def closeBlock : List Char → Option (List Char × List Char)
  | '*' :: '/' :: rest => some (['*', '/'], rest)
  | c :: rest => (closeBlock rest).map fun (body, after) => (c :: body, after)
  | [] => none

/-- The text up to and with the first `quote` that no backslash escapes, and the rest. -/
def closeLiteral (quote : Char) : List Char → Option (List Char × List Char)
  | '\\' :: c :: rest => (closeLiteral quote rest).map fun (body, after) => ('\\' :: c :: body, after)
  | ['\\'] => none
  | c :: rest =>
    if c = quote then some ([c], rest)
    else (closeLiteral quote rest).map fun (body, after) => (c :: body, after)
  | [] => none

/-- The lexeme at the head of a code, and the rest. A line comment ends before its line break. -/
def headLexeme : (c : Char) → List Char → Lexeme × List Char
  | '/', '/' :: rest =>
    (.comment ('/' :: '/' :: rest.takeWhile (· ≠ '\n')), rest.dropWhile (· ≠ '\n'))
  | '/', '*' :: rest =>
    match closeBlock rest with
    | some (body, after) => (.comment ('/' :: '*' :: body), after)
    | none => (.plain '/', '*' :: rest)
  | '\'', rest =>
    match closeLiteral '\'' rest with
    | some (body, after) => (.literal ('\'' :: body), after)
    | none => (.plain '\'', rest)
  | '"', rest =>
    match closeLiteral '"' rest with
    | some (body, after) => (.literal ('"' :: body), after)
    | none => (.plain '"', rest)
  | c, rest => (.plain c, rest)

/-! ## Lexemes spell the code -/

theorem closeBlock_append {cs body after : List Char} (h : closeBlock cs = some (body, after)) :
    body ++ after = cs := by
  fun_induction closeBlock cs generalizing body after with
  | case1 rest =>
    simp only [Option.some.injEq, Prod.mk.injEq] at h
    simp [← h.1, ← h.2]
  | case2 c rest _ ih =>
    obtain ⟨⟨b, a⟩, h1, h2⟩ := Option.map_eq_some_iff.1 h
    simp only [Prod.mk.injEq] at h2
    rw [← h2.1, ← h2.2, List.cons_append, ih h1]
  | case3 => simp at h

theorem closeLiteral_append {quote : Char} {cs body after : List Char}
    (h : closeLiteral quote cs = some (body, after)) : body ++ after = cs := by
  fun_induction closeLiteral quote cs generalizing body after with
  | case1 c rest ih =>
    obtain ⟨⟨b, a⟩, h1, h2⟩ := Option.map_eq_some_iff.1 h
    simp only [Prod.mk.injEq] at h2
    rw [← h2.1, ← h2.2, List.cons_append, List.cons_append, ih h1]
  | case2 => simp at h
  | case3 =>
    simp only [Option.some.injEq, Prod.mk.injEq] at h
    simp [← h.1, ← h.2]
  | case4 c rest _ _ _ ih =>
    obtain ⟨⟨b, a⟩, h1, h2⟩ := Option.map_eq_some_iff.1 h
    simp only [Prod.mk.injEq] at h2
    rw [← h2.1, ← h2.2, List.cons_append, ih h1]
  | case5 => simp at h

theorem headLexeme_append (c : Char) (cs : List Char) :
    (headLexeme c cs).1.text ++ (headLexeme c cs).2 = c :: cs := by
  fun_cases headLexeme c cs with
  | case1 rest => simp [Lexeme.text, List.takeWhile_append_dropWhile]
  | case2 rest body after h => simp [Lexeme.text, closeBlock_append h]
  | case3 rest h => simp [Lexeme.text]
  | case4 rest body after h => simp [Lexeme.text, closeLiteral_append h]
  | case5 rest h => simp [Lexeme.text]
  | case6 rest body after h => simp [Lexeme.text, closeLiteral_append h]
  | case7 rest h => simp [Lexeme.text]
  | case8 => simp [Lexeme.text]

theorem headLexeme_text_ne_nil (c : Char) (cs : List Char) : (headLexeme c cs).1.text ≠ [] := by
  fun_cases headLexeme c cs <;> simp [Lexeme.text]

theorem headLexeme_length (c : Char) (cs : List Char) :
    (headLexeme c cs).2.length < (c :: cs).length := by
  rw [← headLexeme_append c cs, List.length_append]
  have := List.length_pos_iff.2 (headLexeme_text_ne_nil c cs)
  omega

/-- A code read from the left, always with the longest comment or literal that starts there. -/
def lexemes : List Char → List Lexeme
  | [] => []
  | c :: cs => (headLexeme c cs).1 :: lexemes (headLexeme c cs).2
termination_by cs => cs.length
decreasing_by exact headLexeme_length c cs

theorem flatMap_text_lexemes (cs : List Char) : (lexemes cs).flatMap Lexeme.text = cs := by
  fun_induction lexemes cs with
  | case1 => rfl
  | case2 c cs ih => rw [List.flatMap_cons, ih, headLexeme_append]

/-- A code without its comments: one blank stands for each, and literals are kept. -/
def stripComments (code : String) : String :=
  String.ofList ((lexemes code.toList).flatMap Lexeme.stripped)

end HeuristicEvolution.Comment
