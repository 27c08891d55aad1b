import HeuristicEvolution.Proofs.Decimal.Numerals
import HeuristicEvolution.Task.Link
import Mathlib.Data.List.Basic
import Mathlib.Data.List.Infix
import Mathlib.Tactic.SplitIfs

/-!
# What a report of a flow is read as

A report is read line by line, and each line may set figures: later lines go before earlier ones,
but figure by figure, and a line that has a mark sets its figure even if there is no number in it.
So every figure comes from one line, the last with its mark (`foldl_last`), and only the throughput
passes over lines without a number.

A report as it is printed has one line for each figure. Its words are apart from each other because
a numeral has no blank, bracket or percent sign in it, and its marks are apart because each of them
has a character or two that no other line has.

## Main definitions

* `LinkSummary.lastLine?`, `LinkSummary.throughput?`, `LinkSummary.figure`

## Main results

* `LinkSummary.foldl_last`: what is overwritten again and again holds what came last.
* `Text.words_append_blank`: words end at a blank.
* `LinkSummary.ofReport?_reads`
-/

namespace HeuristicEvolution

/-! ## Words -/

namespace Text

/-- The characters are one word. -/
def IsWord (word : List Char) : Prop := word ≠ [] ∧ ∀ c ∈ word, isBlank c = false

theorem isWord_of_any {word : List Char} (hne : word ≠ []) (h : word.any isBlank = false) :
    IsWord word :=
  ⟨hne, fun c hc => Bool.eq_false_iff.mpr (List.any_eq_false.mp h c hc)⟩

theorem wordsFrom_append_blank {blank : Char} (h : isBlank blank = true)
    (read cs rest : List Char) :
    wordsFrom read (cs ++ blank :: rest) = wordsFrom read cs ++ words rest := by
  induction cs generalizing read with
  | nil =>
    have hend : wordsFrom read (blank :: rest) =
        if read.isEmpty then wordsFrom [] rest else read.reverse :: wordsFrom [] rest := by
      rw [wordsFrom, if_pos h]
    rw [List.nil_append, hend, wordsFrom, words]
    cases read <;> rfl
  | cons c cs ih =>
    rw [List.cons_append, wordsFrom, wordsFrom]
    split
    · split
      · exact ih []
      · rw [ih, List.cons_append]
    · exact ih (c :: read)

/-- **Words end at a blank.** -/
theorem words_append_blank {blank : Char} (h : isBlank blank = true) (cs rest : List Char) :
    words (cs ++ blank :: rest) = words cs ++ words rest :=
  wordsFrom_append_blank h [] cs rest

theorem words_of_isWord {word : List Char} (h : IsWord word) : words word = [word] := by
  have hread : ∀ cs read : List Char, (∀ c ∈ cs, isBlank c = false) → cs.reverse ++ read ≠ [] →
      wordsFrom read cs = [read.reverse ++ cs] := by
    intro cs
    induction cs with
    | nil =>
      intro read _ hne
      rw [wordsFrom, if_neg (by simpa using hne), List.append_nil]
    | cons c cs ih =>
      intro read hcs hne
      obtain ⟨hc, hcs⟩ := List.forall_mem_cons.mp hcs
      have hstep : wordsFrom read (c :: cs) = wordsFrom (c :: read) cs := by
        rw [wordsFrom, hc, if_neg Bool.false_ne_true]
      rw [hstep, ih (c :: read) hcs (by simp)]
      simp
  exact hread word [] h.2 (by simpa using h.1)

end Text

namespace LinkSummary

/-! ## What came last -/

/-- **What is overwritten** by each element of a kind holds what the last of them makes of it. -/
theorem foldl_last {σ α β : Type} (field : σ → β) {step : σ → α → σ} {p : α → Bool} {g : α → β}
    (hstep : ∀ s a, field (step s a) = if p a then g a else field s) (s : σ) (as : List α) :
    field (as.foldl step s) = ((as.reverse.find? p).map g).getD (field s) := by
  induction as using List.reverseRecOn with
  | nil => rfl
  | append_singleton as a ih =>
    rw [List.foldl_concat, hstep, List.reverse_append, List.reverse_singleton,
      List.singleton_append, List.find?_cons]
    cases p a with
    | true => rfl
    | false => exact ih

section Reading

variable (r : Reading) (line : List Char) (report : String)

/-- The throughput that a line states: the third word of a line with the mark, if it is a number. -/
def throughput? : Option Float :=
  if Text.hasPart utilizationMark line then ((Text.words line)[2]?).bind number? else none

/-- The line states a throughput. -/
def statesThroughput : Bool := (throughput? line).isSome

/-- The last line of a report of which `p` holds. -/
def lastLine? (p : List Char → Bool) : Option (List Char) :=
  (Text.lines report.toList).reverse.find? p

/-- The figure of a mark: the number that `strip` leaves of the last word but one, in the last line
with the mark. It is zero if there is no such line or no number. -/
def figure (mark : List Char) (strip : List Char → List Char) : Float :=
  ((lastLine? report (Text.hasPart mark)).map fun line =>
    numberOrZero (strip (lastButOne (Text.words line)))).getD 0.0

/-- The figures after one more line. -/
theorem readLine_eq :
    let last := lastButOne (Text.words line)
    readLine r line =
      ⟨⟨if Text.hasPart utilizationMark line then numberOrZero (percentage last)
          else r.figures.utilization,
        (throughput? line).getD r.figures.throughput,
        if Text.hasPart queueingMark line then numberOrZero last else r.figures.queueingDelay,
        if Text.hasPart signalMark line then numberOrZero last else r.figures.signalDelay⟩,
      r.measured || (throughput? line).isSome⟩ := by
  intro last
  obtain ⟨⟨u, t, q, s⟩, measured⟩ := r
  have hlast : lastButOne (Text.words line) = last := rfl
  unfold readLine throughput?
  simp only [hlast]
  cases Text.hasPart utilizationMark line with
  | false =>
    cases Text.hasPart queueingMark line <;> cases Text.hasPart signalMark line <;> simp
  | true =>
    cases (Text.words line)[2]?.bind number? with
    | none => cases Text.hasPart queueingMark line <;> cases Text.hasPart signalMark line <;> simp
    | some x => cases Text.hasPart queueingMark line <;> cases Text.hasPart signalMark line <;> simp

/-- Nothing is read so far. -/
def Reading.start : Reading := ⟨⟨0.0, 0.0, 0.0, 0.0⟩, false⟩

/-- What is read of all lines. -/
def reading : Reading := (Text.lines report.toList).foldl readLine .start

/-- A figure that each line with a mark sets is that of the mark. -/
theorem reading_figure (field : LinkSummary → Float) {mark : List Char}
    {strip : List Char → List Char} (hzero : field Reading.start.figures = 0.0)
    (hstep : ∀ r line, field (readLine r line).figures =
      if Text.hasPart mark line then numberOrZero (strip (lastButOne (Text.words line)))
      else field r.figures) :
    field (reading report).figures = figure report mark strip := by
  have hlast := foldl_last (fun r : Reading => field r.figures) hstep .start
    (Text.lines report.toList)
  simp only [hzero] at hlast
  exact hlast

theorem reading_measured :
    (reading report).measured = (lastLine? report statesThroughput).isSome := by
  have hstep : ∀ r line, (readLine r line).measured =
      if statesThroughput line then true else r.measured := by
    intro r line
    rw [readLine_eq, statesThroughput]
    cases (throughput? line).isSome <;> simp
  rw [reading, foldl_last Reading.measured hstep, lastLine?]
  cases (Text.lines report.toList).reverse.find? statesThroughput <;> rfl

/-- The throughput passes over lines that state none. -/
theorem reading_throughput {line : List Char} {t : Float}
    (hline : lastLine? report statesThroughput = some line)
    (ht : throughput? line = some t) : (reading report).figures.throughput = t := by
  have hstep : ∀ r line, (readLine r line).figures.throughput =
      if statesThroughput line then (throughput? line).getD 0.0 else r.figures.throughput := by
    intro r line
    rw [readLine_eq, statesThroughput]
    cases throughput? line <;> rfl
  have hlast := foldl_last (fun r : Reading => r.figures.throughput) hstep .start
    (Text.lines report.toList)
  rw [lastLine?] at hline
  rw [hline, Option.map_some, Option.getD_some, ht, Option.getD_some] at hlast
  exact hlast

theorem reading_figures {line : List Char} {t : Float}
    (hline : lastLine? report statesThroughput = some line)
    (ht : throughput? line = some t) :
    (reading report).figures = ⟨figure report utilizationMark percentage, t,
      figure report queueingMark id, figure report signalMark id⟩ := by
  have hutilization :
      (reading report).figures.utilization = figure report utilizationMark percentage :=
    reading_figure report LinkSummary.utilization rfl fun r line => by rw [readLine_eq]
  have hqueueing : (reading report).figures.queueingDelay = figure report queueingMark id :=
    reading_figure report LinkSummary.queueingDelay rfl fun r line => by rw [readLine_eq]; rfl
  have hsignal : (reading report).figures.signalDelay = figure report signalMark id :=
    reading_figure report LinkSummary.signalDelay rfl fun r line => by rw [readLine_eq]; rfl
  rw [← hutilization, ← reading_throughput report hline ht, ← hqueueing, ← hsignal]

/-- **A report is read** as the last lines with its marks say. -/
theorem ofReport?_eq_some {line : List Char} {t : Float}
    (hline : lastLine? report statesThroughput = some line)
    (ht : throughput? line = some t) :
    ofReport? report = some ⟨figure report utilizationMark percentage, t,
      figure report queueingMark id, figure report signalMark id⟩ := by
  have hmeasured : (reading report).measured = true := by
    rw [reading_measured, hline, Option.isSome_some]
  rw [← reading_figures report hline ht]
  exact if_pos hmeasured

/-- Nothing is read of it without a line that states a throughput. -/
theorem ofReport?_eq_none_iff :
    ofReport? report = none ↔ ∀ line ∈ Text.lines report.toList, throughput? line = none := by
  have hmeasured : ofReport? report = none ↔ (reading report).measured = false := by
    show (if (reading report).measured then some (reading report).figures else none) = none ↔ _
    cases (reading report).measured <;> simp
  rw [hmeasured, reading_measured, lastLine?, Option.isSome_eq_false_iff, Option.isNone_iff_eq_none,
    List.find?_eq_none]
  simp [statesThroughput]

/-- The last line with a property, spelled out. -/
theorem lastLine?_eq_some_iff {p : List Char → Bool} {line : List Char} :
    lastLine? report p = some line ↔ ∃ before after,
      Text.lines report.toList = before ++ line :: after ∧ p line = true ∧
        ∀ other ∈ after, p other = false := by
  rw [lastLine?, List.find?_eq_some_iff_append]
  constructor
  · rintro ⟨hp, after, before, hlines, hlater⟩
    refine ⟨before.reverse, after.reverse, ?_, hp, fun other hother => ?_⟩
    · have hreverse := congrArg List.reverse hlines
      simpa using hreverse
    · simpa using hlater other (List.mem_reverse.mp hother)
  · rintro ⟨before, after, hlines, hp, hlater⟩
    refine ⟨hp, after.reverse, before.reverse, by simp [hlines], fun other hother => ?_⟩
    simpa using hlater other (List.mem_reverse.mp hother)

/-- A line that is the only one of its kind is the last one, wherever it stands. -/
theorem lastLine?_of_perm {p : List Char → Bool} {line : List Char} {others : List (List Char)}
    (hlines : (Text.lines report.toList).Perm (line :: others)) (hp : p line = true)
    (hothers : ∀ other ∈ others, p other = false) : lastLine? report p = some line := by
  have hmem : line ∈ Text.lines report.toList := hlines.mem_iff.mpr List.mem_cons_self
  have hsome : (lastLine? report p).isSome = true :=
    List.find?_isSome.mpr ⟨line, List.mem_reverse.mpr hmem, hp⟩
  obtain ⟨last, hlast⟩ := Option.isSome_iff_exists.mp hsome
  have hin := hlines.mem_iff.mp (List.mem_reverse.mp (List.mem_of_find?_eq_some hlast))
  have hlastp : p last = true := List.find?_some hlast
  rcases List.mem_cons.mp hin with rfl | hother
  · exact hlast
  · rw [hothers last hother] at hlastp
    exact Bool.noConfusion hlastp

end Reading

/-! ## A report as it is printed -/

/-- The line of the throughput and the utilization. -/
def throughputLine (throughput utilization : String) : List Char :=
  ("Average throughput: " ++ throughput ++ " Mbits/s (" ++ utilization ++ "% utilization)").toList

/-- The line of a delay opens with its mark. -/
def delayLine (mark : List Char) (delay : String) : List Char :=
  mark ++ (": " ++ delay ++ " ms").toList

/-- The line carries no mark. -/
def Unmarked (line : List Char) : Prop :=
  ∀ mark ∈ [utilizationMark, queueingMark, signalMark], Text.hasPart mark line = false

section Printed

variable {t u d word : String} {x y : Float} {c : Char} {mark line : List Char}

/-- Its six words, with the blanks between them. -/
theorem throughputLine_eq (t u : String) :
    throughputLine t u = "Average throughput:".toList ++ ' ' :: (t.toList ++ ' ' ::
      ("Mbits/s".toList ++ ' ' :: ('(' :: (u.toList ++ ['%']) ++
        ' ' :: (utilizationMark ++ [')'])))) := by
  have hlabel : "Average throughput: ".toList = "Average throughput:".toList ++ [' '] := by decide
  have hunit : " Mbits/s (".toList = ' ' :: ("Mbits/s".toList ++ [' ', '(']) := by decide
  have hend : "% utilization)".toList = '%' :: ' ' :: (utilizationMark ++ [')']) := by decide
  show (_ ++ t ++ _ ++ u ++ _ : String).toList = _
  rw [String.toList_append, String.toList_append, String.toList_append, String.toList_append,
    hlabel, hunit, hend]
  simp only [List.append_assoc, List.cons_append, List.nil_append]

theorem delayLine_eq (mark : List Char) (d : String) :
    delayLine mark d = mark ++ [':'] ++ ' ' :: (d.toList ++ ' ' :: ['m', 's']) := by
  have hcolon : ": ".toList = [':', ' '] := by decide
  have hunit : " ms".toList = [' ', 'm', 's'] := by decide
  show mark ++ (_ ++ d ++ _ : String).toList = _
  rw [String.toList_append, String.toList_append, hcolon, hunit]
  simp only [List.append_assoc, List.cons_append, List.nil_append]

/-! ### Numbers are words -/

theorem isWord_of_readFloat? (h : Decimal.readFloat? word = some x) : Text.IsWord word.toList := by
  refine ⟨?_, fun c hc =>
    Decimal.isBlank_of_isNumeralChar (Decimal.isNumeralChar_of_readFloat? h c hc)⟩
  intro hempty
  obtain rfl : word = "" := String.toList_eq_nil_iff.mp hempty
  have hnone : (Decimal.readFloat? "").isNone = true := by decide +kernel
  rw [h] at hnone
  exact Bool.noConfusion hnone

theorem not_mem_of_readFloat? (h : Decimal.readFloat? word = some x)
    (hc : Decimal.isNumeralChar c = false) : c ∉ word.toList := by
  intro hmem
  rw [Decimal.isNumeralChar_of_readFloat? h c hmem] at hc
  exact Bool.noConfusion hc

theorem number?_toList : number? word.toList = Decimal.readFloat? word := by
  rw [number?, String.ofList_toList]

/-! ### The words of the lines -/

theorem lastButOne_words {w w' : List Char} (hw : Text.IsWord w) (hw' : Text.IsWord w')
    (cs : List Char) : lastButOne (Text.words (cs ++ ' ' :: (w ++ ' ' :: w'))) = w := by
  have hblank : Text.isBlank ' ' = true := by decide
  rw [Text.words_append_blank hblank, Text.words_append_blank hblank, Text.words_of_isWord hw,
    Text.words_of_isWord hw']
  have hlength : ¬ (Text.words cs ++ ([w] ++ [w'])).length < 2 := by simp
  rw [lastButOne, if_neg hlength]
  simp

theorem lastButOne_delayLine (hd : Text.IsWord d.toList) (mark : List Char) :
    lastButOne (Text.words (delayLine mark d)) = d.toList := by
  have hunit : Text.IsWord ['m', 's'] := Text.isWord_of_any (by decide) (by decide)
  rw [delayLine_eq, lastButOne_words hd hunit]

theorem lastButOne_throughputLine (hu : Text.IsWord u.toList) :
    lastButOne (Text.words (throughputLine t u)) = '(' :: (u.toList ++ ['%']) := by
  have hline : throughputLine t u = ("Average throughput:".toList ++ ' ' :: (t.toList ++
      ' ' :: "Mbits/s".toList)) ++ ' ' :: ('(' :: (u.toList ++ ['%']) ++
        ' ' :: (utilizationMark ++ [')'])) := by
    rw [throughputLine_eq]
    simp only [List.append_assoc, List.cons_append]
  have hword : Text.IsWord ('(' :: (u.toList ++ ['%'])) := by
    refine ⟨List.cons_ne_nil _ _, ?_⟩
    rw [List.forall_mem_cons, List.forall_mem_append, List.forall_mem_cons]
    exact ⟨by decide, hu.2, by decide, nofun⟩
  rw [hline]
  exact lastButOne_words hword (Text.isWord_of_any (by decide) (by decide)) _

theorem hasPart_throughputLine :
    Text.hasPart utilizationMark (throughputLine t u) = true := by
  refine Text.hasPart_iff.mpr ⟨"Average throughput:".toList ++ ' ' :: (t.toList ++
    ' ' :: ("Mbits/s".toList ++ ' ' :: ('(' :: (u.toList ++ ['%']) ++ [' ']))), [')'], ?_⟩
  rw [throughputLine_eq]
  simp only [List.append_assoc, List.cons_append, List.nil_append]

theorem throughput?_throughputLine (ht : Decimal.readFloat? t = some x) :
    throughput? (throughputLine t u) = some x := by
  have hblank : Text.isBlank ' ' = true := by decide
  have hlabel : Text.words "Average throughput:".toList =
      ["Average".toList, "throughput:".toList] := by decide
  have hwords : Text.words (throughputLine t u) = "Average".toList :: "throughput:".toList ::
      t.toList :: Text.words ("Mbits/s".toList ++ ' ' :: ('(' :: (u.toList ++ ['%']) ++
        ' ' :: (utilizationMark ++ [')']))) := by
    rw [throughputLine_eq, Text.words_append_blank hblank, Text.words_append_blank hblank, hlabel,
      Text.words_of_isWord (isWord_of_readFloat? ht)]
    rfl
  rw [throughput?, if_pos hasPart_throughputLine, hwords]
  exact number?_toList.trans ht

/-- The bracket and the sign go, and nothing else. -/
theorem percentage_bracketed {word : List Char} (hopen : '(' ∉ word) (hsign : '%' ∉ word)
    (hne : word ≠ []) : percentage ('(' :: (word ++ ['%'])) = word := by
  have hkept : ∀ (c : Char) (cs rest : List Char), c ∉ cs → cs ≠ [] →
      (cs ++ rest).dropWhile (fun x => decide (x = c)) = cs ++ rest := by
    intro c cs rest hc hcs
    obtain ⟨first, cs, rfl⟩ := List.exists_cons_of_ne_nil hcs
    have hfirst : first ≠ c := fun h => hc (h ▸ List.mem_cons_self)
    rw [List.cons_append, List.dropWhile_cons_of_neg (by simpa using hfirst)]
  have hreverse := hkept '%' word.reverse [] (by simpa using hsign) (by simpa using hne)
  rw [List.append_nil] at hreverse
  rw [percentage, List.dropWhile_cons_of_pos (by decide), hkept '(' word ['%'] hopen hne,
    List.reverse_append, List.reverse_singleton, List.singleton_append,
    List.dropWhile_cons_of_pos (by decide), hreverse, List.reverse_reverse]

/-! ### The marks of the lines -/

theorem hasPart_eq_false (hmark : c ∈ mark) (hline : c ∉ line) :
    Text.hasPart mark line = false := by
  rw [← Bool.not_eq_true, Text.hasPart_iff]
  exact fun hinside => hline (hinside.subset hmark)

theorem hasPart_delayLine : Text.hasPart mark (delayLine mark d) = true := by
  refine Text.hasPart_iff.mpr (List.IsPrefix.isInfix ?_)
  rw [delayLine_eq, List.append_assoc]
  exact List.prefix_append _ _

theorem not_mem_delayLine (hd : Decimal.readFloat? d = some x)
    (hc : Decimal.isNumeralChar c = false) (hmark : c ∉ mark)
    (hunit : c ∉ [':', ' ', ' ', 'm', 's']) : c ∉ delayLine mark d := by
  simp only [List.mem_cons, List.not_mem_nil, or_false, not_or] at hunit
  obtain ⟨hcolon, hblank, -, hm, hs⟩ := hunit
  simp [delayLine_eq, not_mem_of_readFloat? hd hc, hmark, hcolon, hblank, hm, hs]

/-- The line of the throughput is told from the others by `z`. -/
theorem hasPart_utilizationMark_delayLine (hd : Decimal.readFloat? d = some x)
    (hmark : 'z' ∉ mark) : Text.hasPart utilizationMark (delayLine mark d) = false :=
  hasPart_eq_false (by decide) (not_mem_delayLine hd (by decide) hmark (by decide))

/-- The others are told from it by `c`. -/
theorem hasPart_mark_throughputLine (ht : Decimal.readFloat? t = some x)
    (hu : Decimal.readFloat? u = some y) (hmark : 'c' ∈ mark) :
    Text.hasPart mark (throughputLine t u) = false := by
  refine hasPart_eq_false hmark ?_
  have ht' : 'c' ∉ t.toList := not_mem_of_readFloat? ht (by decide)
  have hu' : 'c' ∉ u.toList := not_mem_of_readFloat? hu (by decide)
  have hown : 'c' ∉ utilizationMark := by decide
  rw [throughputLine_eq]
  simp only [List.mem_append, List.mem_cons, List.not_mem_nil, not_or]
  simp [hown, ht', hu']

/-- The line of the queueing delay is told from that of the signal delay by `q`. -/
theorem hasPart_queueingMark_signalLine (hd : Decimal.readFloat? d = some x) :
    Text.hasPart queueingMark (delayLine signalMark d) = false := by
  have hq : 'q' ∈ queueingMark := by decide +kernel
  have hmark : 'q' ∉ signalMark := by decide +kernel
  exact hasPart_eq_false hq (not_mem_delayLine hd (by decide) hmark (by decide))

/-- Two characters of which the first stands only at the end do not stand next to each other. -/
theorem not_infix_of_last {a b : Char} {front : List Char} (ha : a ∉ front) :
    ¬ [a, b] <:+: front ++ [a] := by
  rintro ⟨before, after, heq⟩
  have hdrop := congrArg List.dropLast heq
  have hlist : before ++ [a, b] ++ after = before ++ a :: b :: after := by simp
  rw [hlist, List.dropLast_concat, List.dropLast_append_of_ne_nil (List.cons_ne_nil _ _),
    List.dropLast_cons_cons] at hdrop
  exact ha (hdrop ▸ List.mem_append_right _ List.mem_cons_self)

/-- The other way round no character tells them apart, but `s` comes before `i` in one mark only. -/
theorem hasPart_signalMark_queueingLine (hd : Decimal.readFloat? d = some x) :
    Text.hasPart signalMark (delayLine queueingMark d) = false := by
  rw [← Bool.not_eq_true, Text.hasPart_iff]
  intro hinside
  have hpair : ['s', 'i'] <:+: signalMark := Text.hasPart_iff.mp (by decide +kernel)
  have hline : delayLine queueingMark d =
      queueingMark ++ [':'] ++ ' ' :: (d.toList ++ [' ', 'm']) ++ ['s'] := by
    simp only [delayLine_eq, List.append_assoc, List.cons_append, List.nil_append]
  have hd' : 's' ∉ d.toList := not_mem_of_readFloat? hd (by decide)
  have hmark : 's' ∉ queueingMark := by decide +kernel
  refine not_infix_of_last ?_ (hline ▸ hpair.trans hinside)
  simp [hd', hmark]

/-- The figure of a mark that only one line has. -/
theorem figure_of_perm {report : String} {strip : List Char → List Char}
    {others : List (List Char)} (hlines : (Text.lines report.toList).Perm (line :: others))
    (hmark : Text.hasPart mark line = true)
    (hothers : ∀ other ∈ others, Text.hasPart mark other = false)
    (hstrip : strip (lastButOne (Text.words line)) = word.toList)
    (hword : Decimal.readFloat? word = some x) : figure report mark strip = x := by
  rw [figure, lastLine?_of_perm report hlines hmark hothers, Option.map_some, Option.getD_some,
    hstrip, numberOrZero, number?_toList, hword, Option.getD_some]

end Printed

section Exact

variable {report t u q s : String} {T U Q S : Float} {others : List (List Char)}

/-- **A report as it is printed is read back**, in whatever order its lines stand and whatever
stands between them. -/
theorem ofReport?_of_printed (ht : Decimal.readFloat? t = some T)
    (hu : Decimal.readFloat? u = some U) (hq : Decimal.readFloat? q = some Q)
    (hs : Decimal.readFloat? s = some S)
    (hlines : (Text.lines report.toList).Perm (throughputLine t u :: delayLine queueingMark q ::
      delayLine signalMark s :: others))
    (hothers : ∀ line ∈ others, Unmarked line) : ofReport? report = some ⟨U, T, Q, S⟩ := by
  have hqueueingFirst := hlines.trans (.swap _ _ _)
  have hsignalFirst := hlines.trans (.trans (.cons _ (.swap _ _ _)) (.swap _ _ _))
  have hc : 'c' ∈ queueingMark ∧ 'c' ∈ signalMark := by decide +kernel
  have hz : 'z' ∉ queueingMark ∧ 'z' ∉ signalMark := by decide +kernel
  have hutilization : ∀ other ∈ delayLine queueingMark q :: delayLine signalMark s :: others,
      Text.hasPart utilizationMark other = false :=
    List.forall_mem_cons.mpr ⟨hasPart_utilizationMark_delayLine hq hz.1,
      List.forall_mem_cons.mpr ⟨hasPart_utilizationMark_delayLine hs hz.2,
        fun other hother => hothers other hother _ (by simp)⟩⟩
  have hqueueing : ∀ other ∈ throughputLine t u :: delayLine signalMark s :: others,
      Text.hasPart queueingMark other = false :=
    List.forall_mem_cons.mpr ⟨hasPart_mark_throughputLine ht hu hc.1,
      List.forall_mem_cons.mpr ⟨hasPart_queueingMark_signalLine hs,
        fun other hother => hothers other hother _ (by simp)⟩⟩
  have hsignal : ∀ other ∈ throughputLine t u :: delayLine queueingMark q :: others,
      Text.hasPart signalMark other = false :=
    List.forall_mem_cons.mpr ⟨hasPart_mark_throughputLine ht hu hc.2,
      List.forall_mem_cons.mpr ⟨hasPart_signalMark_queueingLine hq,
        fun other hother => hothers other hother _ (by simp)⟩⟩
  have hline : lastLine? report statesThroughput = some (throughputLine t u) := by
    refine lastLine?_of_perm report hlines ?_ fun other hother => ?_
    · rw [statesThroughput, throughput?_throughputLine ht, Option.isSome_some]
    · rw [statesThroughput, throughput?, hutilization other hother]
      rfl
  have hpercent : percentage (lastButOne (Text.words (throughputLine t u))) = u.toList := by
    rw [lastButOne_throughputLine (isWord_of_readFloat? hu)]
    exact percentage_bracketed (not_mem_of_readFloat? hu (by decide))
      (not_mem_of_readFloat? hu (by decide)) (isWord_of_readFloat? hu).1
  have hU : figure report utilizationMark percentage = U :=
    figure_of_perm hlines hasPart_throughputLine hutilization hpercent hu
  have hQ : figure report queueingMark id = Q :=
    figure_of_perm hqueueingFirst hasPart_delayLine hqueueing
      (lastButOne_delayLine (isWord_of_readFloat? hq) _) hq
  have hS : figure report signalMark id = S :=
    figure_of_perm hsignalFirst hasPart_delayLine hsignal
      (lastButOne_delayLine (isWord_of_readFloat? hs) _) hs
  rw [ofReport?_eq_some report hline (throughput?_throughputLine ht), hU, hQ, hS]

end Exact

/-- **What a report is read as.** Nothing, if no line states a throughput; otherwise each figure is
that of the last line with its mark. So a report as it is printed is read back exactly. -/
theorem ofReport?_reads (report : String) :
    (ofReport? report = none ↔ ∀ line ∈ Text.lines report.toList, throughput? line = none) ∧
    (∀ summary, ofReport? report = some summary →
      (∃ line, lastLine? report statesThroughput = some line ∧
        throughput? line = some summary.throughput) ∧
      summary.utilization = figure report utilizationMark percentage ∧
      summary.queueingDelay = figure report queueingMark id ∧
      summary.signalDelay = figure report signalMark id) ∧
    ∀ (t u q s : String) (T U Q S : Float) (others : List (List Char)),
      Decimal.readFloat? t = some T → Decimal.readFloat? u = some U →
      Decimal.readFloat? q = some Q → Decimal.readFloat? s = some S →
      (Text.lines report.toList).Perm (throughputLine t u :: delayLine queueingMark q ::
        delayLine signalMark s :: others) →
      (∀ line ∈ others, Unmarked line) → ofReport? report = some ⟨U, T, Q, S⟩ := by
  refine ⟨ofReport?_eq_none_iff report, fun summary hsummary => ?_,
    fun t u q s T U Q S others ht hu hq hs => ofReport?_of_printed ht hu hq hs⟩
  cases hline : lastLine? report statesThroughput with
  | none =>
    have hnone : ofReport? report = none := by
      refine (ofReport?_eq_none_iff report).mpr fun line hmem => ?_
      have hall := List.find?_eq_none.mp hline line (List.mem_reverse.mpr hmem)
      simpa [statesThroughput] using hall
    rw [hnone] at hsummary
    exact nomatch hsummary
  | some line =>
    obtain ⟨-, -, -, hsome, -⟩ := (lastLine?_eq_some_iff report).mp hline
    obtain ⟨t, ht⟩ := Option.isSome_iff_exists.mp hsome
    obtain rfl := Option.some.inj ((ofReport?_eq_some report hline ht).symm.trans hsummary)
    exact ⟨⟨line, rfl, ht⟩, rfl, rfl, rfl⟩

/-- A report with its lines in an unusual order, and one that has no mark. -/
def shuffledReport : String :=
  "95th percentile signal delay: 61 ms\nAverage throughput: 11.52 Mbits/s (96.0% utilization)\n"
    ++ "Average capacity: 12.00 Mbits/s\n95th percentile per-packet queueing delay: 45 ms\n"

/-- All of it is read back. -/
theorem ofReport?_reads_shuffled : ∃ T U Q S, Decimal.readFloat? "11.52" = some T ∧
    Decimal.readFloat? "96.0" = some U ∧ Decimal.readFloat? "45" = some Q ∧
    Decimal.readFloat? "61" = some S ∧ ofReport? shuffledReport = some ⟨U, T, Q, S⟩ := by
  obtain ⟨T, ht⟩ : ∃ T, Decimal.readFloat? "11.52" = some T :=
    Option.isSome_iff_exists.mp (by decide +kernel)
  obtain ⟨U, hu⟩ : ∃ U, Decimal.readFloat? "96.0" = some U :=
    Option.isSome_iff_exists.mp (by decide +kernel)
  obtain ⟨Q, hq⟩ : ∃ Q, Decimal.readFloat? "45" = some Q :=
    Option.isSome_iff_exists.mp (by decide +kernel)
  obtain ⟨S, hs⟩ : ∃ S, Decimal.readFloat? "61" = some S :=
    Option.isSome_iff_exists.mp (by decide +kernel)
  have hlines : (Text.lines shuffledReport.toList).Perm (throughputLine "11.52" "96.0" ::
      delayLine queueingMark "45" :: delayLine signalMark "61" ::
      ["Average capacity: 12.00 Mbits/s".toList]) := by decide +kernel
  have hothers : ∀ line ∈ ["Average capacity: 12.00 Mbits/s".toList], Unmarked line := by
    intro line hline
    obtain rfl := List.mem_singleton.mp hline
    exact (by decide +kernel : ∀ mark ∈ [utilizationMark, queueingMark, signalMark],
      Text.hasPart mark "Average capacity: 12.00 Mbits/s".toList = false)
  obtain ⟨-, -, hprinted⟩ := ofReport?_reads shuffledReport
  exact ⟨T, U, Q, S, ht, hu, hq, hs, hprinted _ _ _ _ _ _ _ _ _ ht hu hq hs hlines hothers⟩

end LinkSummary

end HeuristicEvolution
