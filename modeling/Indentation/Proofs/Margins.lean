import Indentation.Proofs.Spans

/-! Margins and columns of a text as it is read. The line of an offset is the number of line feeds
before it; a line is blanks and a body, and its margin stands between them unless it is blank. The
column of a visible character under any table of widths is the width of its line and the distance
from the margin, and both are known from the text before the character. -/
namespace Indentation
open Lexer (feeds)
open Text

theorem countPCut {α : Type} {l : List α} {P : α → Bool} {m : Nat} (bound : m ≤ l.length)
    (cut : ∀ n x, l[n]? = some x → (P x = true ↔ n < m)) : l.countP P = m := by
  induction l generalizing m with
  | nil =>
    simp only [List.length_nil, Nat.le_zero] at bound
    simp [bound]
  | cons x l ih =>
    have head := cut 0 x (by simp)
    cases m with
    | zero =>
      have none : ¬ P x = true := fun holds => absurd (head.mp holds) (by omega)
      rw [List.countP_cons_of_neg none]
      exact ih (by omega) fun n y found => by simpa using cut (n + 1) y (by simpa using found)
    | succ m =>
      rw [List.countP_cons_of_pos (head.mpr (by omega))]
      have rest := ih (m := m) (by simpa using bound) fun n y found => by
        simpa using cut (n + 1) y (by simpa using found)
      rw [rest]

namespace Line

theorem leadBody (l : Line) : l.lead ++ l.body = l.content := List.takeWhile_append_dropWhile

theorem leadIndent (l : Line) : ∀ c ∈ l.lead, isIndent c = true :=
  fun _ mem => List.mem_takeWhile_imp mem

theorem bodyTight (l : Line) : l.body.dropWhile isIndent = l.body :=
  List.dropWhile_idempotent isIndent l.content

theorem bodySublist (l : Line) : l.body.Sublist l.content := List.dropWhile_sublist _

theorem lengthSum (l : Line) : l.lead.length + l.body.length = l.content.length := by
  rw [← List.length_append, leadBody]

theorem isBlankIff (l : Line) : l.isBlank = true ↔ l.body = [] ∨ l.body = ['\r'] := by
  have sum := l.lengthSum
  unfold isBlank margin stop marginLength
  by_cases lone : l.body = ['\r']
  · simp [lone]
  · have empty : l.body = [] ↔ l.body.length = 0 := List.length_eq_zero_iff.symm
    simp only [lone, if_false, or_false, beq_iff_eq, empty]
    omega

theorem isBlankCongr {l l' : Line} (same : l.body = l'.body) : l.isBlank = l'.isBlank := by
  rw [Bool.eq_iff_iff, isBlankIff, isBlankIff, same]

theorem marginLengthOf {l : Line} (shown : l.isBlank = false) : l.marginLength = l.lead.length := by
  have other : ¬ l.body = ['\r'] := fun lone => by
    simp [(isBlankIff l).mpr (.inr lone)] at shown
  exact if_neg other

theorem fromMarginOf {l : Line} (shown : l.isBlank = false) : l.fromMargin = l.body := by
  rw [fromMargin, marginLengthOf shown, ← leadBody, List.drop_left]

theorem startLeMargin (l : Line) : l.start ≤ l.margin := Nat.le_add_right _ _

theorem marginLeStop (l : Line) : l.margin ≤ l.stop := by
  have sum := l.lengthSum
  unfold margin stop marginLength
  split <;> omega

theorem marginLtStop {l : Line} (shown : l.isBlank = false) : l.margin < l.stop := by
  have other : l.margin ≠ l.stop := by simpa [isBlank] using shown
  have bound := l.marginLeStop
  omega

theorem blankRest {l : Line} (blank : l.isBlank = true) :
    (if l.endsWithReturn then ['\r'] else []) = l.body := by
  have whole := l.leadBody
  rcases (isBlankIff l).mp blank with empty | lone
  · rw [empty, List.append_nil] at whole
    have none : l.endsWithReturn = false := by
      rw [endsWithReturn, ← whole]
      cases last : l.lead.getLast? with
      | none => rfl
      | some c =>
        have indent := l.leadIndent c (List.mem_of_getLast? last)
        have other : c ≠ '\r' := fun same => by simp [same, isIndent] at indent
        simpa using other
    simp [none, empty]
  · have some : l.endsWithReturn = true := by rw [endsWithReturn, ← whole, lone]; simp
    simp [some, lone]

def moved (l : Line) (width : Nat) : Text := List.replicate width ' ' ++ l.body

theorem movedLead {l l' : Line} {w : Nat} (content : l'.content = l.moved w) :
    l'.lead = List.replicate w ' ' := by
  have tight : l.body.takeWhile isIndent = [] := by
    rw [← l.bodyTight, List.takeWhile_eq_nil_iff]
    intro some
    simpa using List.dropWhile_get_zero_not isIndent l.body some
  rw [lead, content, moved, List.takeWhile_append_of_pos (by simp [isIndent]), tight, List.append_nil]

theorem movedBody {l l' : Line} {w : Nat} (content : l'.content = l.moved w) : l'.body = l.body := by
  rw [body, content, moved, List.dropWhile_append_of_pos (by simp [isIndent]), bodyTight]

theorem widthSpaces (w : Nat) : Text.width (List.replicate w ' ') = w := by
  induction w with
  | zero => rfl
  | succ w ih =>
    rw [List.replicate_succ', Text.width, List.foldl_append]
    exact congrArg (· + 1) ih

theorem movedWidth {l l' : Line} {w : Nat} (content : l'.content = l.moved w) : l'.width = w := by
  rw [width, movedLead content, widthSpaces]

end Line

namespace Text
variable {c : Char}

theorem takeVisible (visible : isBlank c = false) (l u : Text) :
    (l ++ c :: u).takeWhile isIndent = l.takeWhile isIndent := by
  rw [List.takeWhile_append, List.takeWhile_cons_of_neg (by simp [(Lexer.blankEqFalse visible).2])]
  split
  · rename_i whole
    rw [List.append_nil, (List.takeWhile_prefix _).eq_of_length whole]
  · rfl

theorem dropVisible (visible : isBlank c = false) (l u : Text) :
    (l ++ c :: u).dropWhile isIndent = l.dropWhile isIndent ++ c :: u := by
  rw [List.dropWhile_append, List.dropWhile_cons_of_neg (by simp [(Lexer.blankEqFalse visible).2])]
  split
  · rename_i none
    rw [List.isEmpty_iff.mp none, List.nil_append]
  · rfl

end Text

namespace Source
variable {t : Text} {n : Nat}

@[simp] theorem linesSize (t : Text) : (ofText t).lines.size = feeds t + 1 := by
  simp [ofText, ofTokens, Line.ofTextLength]

theorem lineBound (within : n < (ofText t).lines.size) : n ≤ feeds t := by
  rw [linesSize] at within
  omega

theorem lineFound (bound : n ≤ feeds t) : (Line.ofText t)[n]? = some ((ofText t).line n) := by
  have inside : n < (Line.ofText t).length := by rw [Line.ofTextLength]; omega
  simp [line, ofText, ofTokens, inside]

theorem linePlace (bound : n ≤ feeds t) :
    ∃ a b, t = a ++ b ∧ a.length = ((ofText t).line n).start ∧ feeds a = n ∧
      Text.lastLine a = [] ∧ firstLine b = ((ofText t).line n).content := Line.ofTextPlace (lineFound bound)

theorem contentMember (bound : n ≤ feeds t) {c : Char} (member : c ∈ ((ofText t).line n).content) : c ∈ t := by
  obtain ⟨a, b, rfl, _, _, _, content⟩ := linePlace bound
  rw [← content] at member
  exact List.mem_append_right a ((List.takeWhile_sublist _).subset member)

theorem lineAt (a b : Text) :
    (ofText (a ++ b)).line (feeds a) =
      ⟨a.length - (Text.lastLine a).length, Text.lastLine a ++ firstLine b⟩ := by
  have found := lineFound (t := a ++ b) (n := feeds a) (by rw [feedsAppend]; omega)
  rw [Line.ofTextAt] at found
  exact (Option.some.inj found).symm

theorem lastLineLe (a : Text) : (Text.lastLine a).length ≤ a.length := (lastLineSuffix a).length_le

theorem feedsTake (t : Text) (p : Nat) : feeds (t.take p) ≤ feeds t :=
  (List.take_sublist p t).count_le '\n'

theorem startLe (bound : n ≤ feeds t) (p : Nat) :
    ((ofText t).line n).start ≤ p ↔ n ≤ feeds (t.take p) := Line.startLe (lineFound bound) p

theorem lineOfFeeds (t : Text) (p : Nat) : (ofText t).lineOf p = feeds (t.take p) := by
  have bound := feedsTake t p
  have count : (Line.ofText t).countP (fun l => l.start ≤ p) = feeds (t.take p) + 1 := by
    refine countPCut (by rw [Line.ofTextLength]; omega) fun n l found => ?_
    rw [decide_eq_true_iff, Line.startLe found]
    omega
  simp [lineOf, ofText, ofTokens, count]

theorem lineOfLe (t : Text) (p : Nat) : (ofText t).lineOf p ≤ feeds t := by
  rw [lineOfFeeds]
  exact feedsTake t p

theorem lineOfInside (bound : n ≤ feeds t) {p : Nat} (low : ((ofText t).line n).start ≤ p)
    (high : p ≤ ((ofText t).line n).stop) : (ofText t).lineOf p = n := by
  obtain ⟨a, b, split, length, count, _, content⟩ := linePlace bound
  rw [Line.stop, ← length, ← content] at high
  rw [← length] at low
  have front : t.take p = a ++ (firstLine b).take (p - a.length) := by
    conv_lhs => rw [split]
    rw [List.take_append, List.take_of_length_le low, Shape.firstLineTake (by omega)]
  have feedless : '\n' ∉ (firstLine b).take (p - a.length) :=
    fun mem => firstLineFeedless b (List.mem_of_mem_take mem)
  rw [lineOfFeeds, front, feedsAppend, feedsEqZero feedless, count, Nat.add_zero]

theorem lineOfStart (bound : n ≤ feeds t) : (ofText t).lineOf ((ofText t).line n).start = n :=
  lineOfInside bound (Nat.le_refl _) (Nat.le_add_right _ _)

theorem lineOfMargin (bound : n ≤ feeds t) : (ofText t).lineOf ((ofText t).line n).margin = n :=
  lineOfInside bound (Line.startLeMargin _) (Line.marginLeStop _)

theorem stopLtStart {m : Nat} (before : m < n) (bound : n ≤ feeds t) :
    ((ofText t).line m).stop < ((ofText t).line n).start := by
  have line : (ofText t).lineOf ((ofText t).line m).stop = m :=
    lineOfInside (by omega) (Nat.le_add_right _ _) (Nat.le_refl _)
  rw [lineOfFeeds] at line
  by_contra after
  have more := (startLe bound _).mp (Nat.le_of_not_lt after)
  omega

theorem nextStart (bound : n < feeds t) : ((ofText t).line (n + 1)).start = ((ofText t).line n).stop + 1 := by
  obtain ⟨a, b, rfl, length, count, start, content⟩ := linePlace (Nat.le_of_lt bound)
  have none := firstLineFeedless b
  rcases firstLineSplit b with last | ⟨u, split⟩
  · rw [last, feedsAppend, feedsEqZero none, count] at bound
    omega
  · have line := lineAt (a ++ firstLine b ++ ['\n']) u
    have whole : a ++ firstLine b ++ ['\n'] ++ u = a ++ b := by
      conv_rhs => rw [split]
      simp
    have here : feeds (a ++ firstLine b ++ ['\n']) = n + 1 := by
      rw [feedsAppend, feedsAppend, count, feedsEqZero none]
      rfl
    rw [whole, here, Text.lastLineSnoc, if_pos rfl] at line
    rw [line, Line.stop, ← length, ← content]
    simp [Nat.add_assoc]

theorem stopEq (t : Text) : (ofText t).stop = t.length := by
  have last := lineAt t []
  have bound := lastLineLe t
  rw [List.append_nil] at last
  rw [stop, lastLine, linesSize, Nat.add_sub_cancel, last, Line.stop]
  simp only [firstLineNil, List.append_nil]
  omega

theorem lastLineEq (t : Text) : (ofText t).lastLine = feeds t := by
  rw [lastLine, linesSize, Nat.add_sub_cancel]

theorem lastStop (t : Text) : ((ofText t).line (feeds t)).stop = t.length := by
  rw [← lastLineEq, ← stopEq, stop]

theorem stopLe (bound : n ≤ feeds t) : ((ofText t).line n).stop ≤ t.length := by
  obtain ⟨a, b, split, length, _, _, content⟩ := linePlace bound
  have lengths := congrArg List.length split
  have part : (firstLine b).length ≤ b.length := (List.takeWhile_sublist _).length_le
  rw [List.length_append] at lengths
  rw [Line.stop, ← length, ← content]
  omega

theorem columnMargin (bound : n ≤ feeds t) (widths : Widths) :
    (ofText t).column widths ((ofText t).line n).margin = (widths[n]?).getD 0 := by
  simp [column, lineOfMargin bound]

theorem bodyVisible (a : Text) {c : Char} (visible : isBlank c = false) (b : Text) :
    ((ofText (a ++ c :: b)).line (feeds a)).body = Text.trail a ++ c :: firstLine b := by
  rw [lineAt a (c :: b), firstLineCons (Lexer.blankEqFalse visible).1, Line.body, dropVisible visible, Text.trail]

theorem shownVisible (a : Text) {c : Char} (visible : isBlank c = false) (b : Text) :
    ((ofText (a ++ c :: b)).line (feeds a)).isBlank = false := by
  have body := bodyVisible a visible b
  by_contra blank
  rcases (Line.isBlankIff _).mp (by simpa using blank) with empty | lone
  · simp [body] at empty
  · have mem : c ∈ ((ofText (a ++ c :: b)).line (feeds a)).body := by simp [body]
    rw [lone, List.mem_singleton] at mem
    simp [mem, isBlank] at visible

theorem marginVisible (a : Text) {c : Char} (visible : isBlank c = false) (b : Text) :
    ((ofText (a ++ c :: b)).line (feeds a)).margin + (Text.trail a).length = a.length := by
  have line := lineAt a (c :: b)
  have body := bodyVisible a visible b
  have shown := shownVisible a visible b
  rw [firstLineCons (Lexer.blankEqFalse visible).1] at line
  generalize (ofText (a ++ c :: b)).line (feeds a) = l at line body shown ⊢
  have sum := l.lengthSum
  have bound := lastLineLe a
  rw [Line.margin, Line.marginLengthOf shown]
  have lengths := congrArg List.length body
  simp only [line, List.length_append, List.length_cons] at sum lengths ⊢
  omega

theorem columnVisible (a : Text) {c : Char} (visible : isBlank c = false) (b : Text) (widths : Widths) :
    (ofText (a ++ c :: b)).column widths a.length =
      (widths[feeds a]?).getD 0 + (Text.trail a).length := by
  have margin := marginVisible a visible b
  have place : (ofText (a ++ c :: b)).lineOf a.length = feeds a := by
    rw [lineOfFeeds, List.take_left]
  simp only [column, place]
  rw [if_neg (by omega)]
  omega

end Source
end Indentation
