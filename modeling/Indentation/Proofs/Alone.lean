import Indentation.Proofs.Course

/-! Placing a line on its own. A pass empties blank lines, but a blank line that is indented on its own is
placed by the rules as well: they look at its end, behind the words of earlier lines, and when a comment goes on
behind the line it keeps its width. So such a line has a course too. -/
namespace Indentation
open Lexer (feeds)

namespace Source
variable {t : Text} {tok : Token} {n : Nat} {settings : Settings} {strategy : Strategy}

theorem blankMargin (blank : ((ofText t).line n).isBlank = true) :
    ((ofText t).line n).margin = ((ofText t).line n).stop := by
  simpa [Line.isBlank] using blank

theorem blankOther (member : tok ∈ tokenize t) (blank : ((ofText t).line n).isBlank = true) : tok.line ≠ n := by
  rintro rfl
  rw [Token.shown member] at blank
  contradiction

theorem blankOnWord (bound : n ≤ feeds t) (blank : ((ofText t).line n).isBlank = true) :
    ((ofText t).outline.gapOfLine n).onWord = false := by
  rw [Bool.eq_false_iff]
  intro onWord
  obtain ⟨tok, found, line⟩ := (onWordIff t n).mp onWord
  have cut := lineCut bound found
  have other := blankOther (codeMember found) blank
  omega

def blankGap (s : Source) (n : Nat) : Gap := ⟨s.outline.rankOfLine n, false, decide (n = s.lastLine)⟩

theorem blankTarget (bound : n ≤ feeds t) (blank : ((ofText t).line n).isBlank = true) :
    ((ofText t).targetOfLine n).start = ((ofText t).line n).margin := by
  simp [targetOfLine, lineCodeEq bound, Gap.word?, blankOnWord bound blank]

theorem blankSite (bound : n ≤ feeds t) (blank : ((ofText t).line n).isBlank = true) :
    ((ofText t).site ((ofText t).targetOfLine n).start).gap = (ofText t).blankGap n := by
  have ends : (ofText t).stop ≤ ((ofText t).line n).margin ↔ n = (ofText t).lastLine := by
    rw [blankMargin blank, lastLineEq, stopEq]
    constructor
    · intro reach
      by_contra other
      have next := nextStart (t := t) (n := n) (by omega)
      have inside := stopLe (t := t) (n := n + 1) (by omega)
      unfold Line.stop at inside reach next
      omega
    · rintro rfl
      exact Nat.le_of_eq (lastStop t).symm
  rw [blankTarget bound blank]
  simp only [site, rankMargin bound, marginIndex bound (blankOnWord bound blank), ends, blankGap]

theorem blankCovers (member : tok ∈ tokenize t) (bound : n ≤ feeds t)
    (blank : ((ofText t).line n).isBlank = true) :
    tok.covers ((ofText t).line n).margin = true ↔ tok.HoldsFeed (n + 1) := by
  have inside := Token.stopLe member
  rw [Token.coversIff, blankMargin blank]
  rcases Nat.lt_or_eq_of_le bound with before | rfl
  · have next := nextStart before
    have apart : tok.start ≠ ((ofText t).line n).stop := by
      intro same
      have line : (ofText t).lineOf ((ofText t).line n).stop = n :=
        lineOfInside bound (Nat.le_add_right _ _) (Nat.le_refl _)
      rw [lineOfFeeds, ← same, Token.feedsStart member] at line
      exact blankOther member blank line
    rw [Token.holdsFeedIff member before, next]
    omega
  · have reach := feedsTake t tok.stop
    rw [Token.feedsStop member] at reach
    rw [lastStop, Token.HoldsFeed]
    omega

theorem blankCovering (bound : n ≤ feeds t) (blank : ((ofText t).line n).isBlank = true) :
    (ofText t).covering? ((ofText t).line n).margin =
      (tokenize t).find? fun tok => tok.HoldsFeed (n + 1) := by
  rw [coveringEq]
  apply List.find?_congr
  intro tok member
  rw [Bool.eq_iff_iff, decide_eq_true_iff, blankCovers member bound blank]

def alone (s : Source) (settings : Settings) (strategy : Strategy) (n : Nat) : Course :=
  if (s.line n).isBlank then
    if (s.covering? (s.line n).margin).isSome then .kept
    else s.answered settings ((Reading.mk s.outline settings strategy).first (s.blankGap n))
  else s.course settings strategy n

theorem aloneWidth (bound : n ≤ feeds t) (free : (ofText t).isVerbatim n = false) (widths : Widths) :
    ((ofText t).placement Rule.builtin settings strategy ((ofText t).targetOfLine n)).width (ofText t)
      widths ((ofText t).targetOfLine n) =
        ((ofText t).alone settings strategy n).width ((widths[n]?).getD 0) widths := by
  cases blank : ((ofText t).line n).isBlank with
  | false =>
    rw [placementWidth bound free blank, alone, if_neg (by simp [blank])]
  | true =>
    have line : ((ofText t).targetOfLine n).line = n := rfl
    cases cover : (ofText t).covering? ((ofText t).line n).margin with
    | some tok =>
      have rest : ((ofText t).line n).fromMargin = [] := by
        have margin := blankMargin blank
        rw [Line.margin, Line.stop] at margin
        rw [Line.fromMargin, List.drop_eq_nil_iff]
        omega
      simp [placement, line, cover, rest, alone, blank, Placement.width, Course.width]
    | none =>
      obtain ⟨rank, after⟩ := targetRank bound
      rw [answeredWidth bound rank after cover ((widths[n]?).getD 0) widths, blankSite bound blank]
      simp [alone, blank, cover]

theorem aloneEarlier (bound : n ≤ feeds t) {m inset : Nat} {step : Int}
    (found : (ofText t).alone settings strategy n = .measured m inset step) : m < n := by
  unfold alone at found
  split at found
  · split at found
    · contradiction
    · rcases answeredCases bound (g := (ofText t).blankGap n) rfl settings strategy with flush | measured
      · rw [flush] at found
        contradiction
      · obtain ⟨m', inset', step', same, earlier⟩ := measured
        rw [same] at found
        cases found
        exact earlier
  · exact courseEarlier bound found

end Source

theorem Alike.aloneEq {t t' : Text} {n : Nat} (h : Alike t t') (bound : n ≤ Lexer.feeds t) (settings : Settings)
    (strategy : Strategy) :
    (Source.ofText t).alone settings strategy n = (Source.ofText t').alone settings strategy n := by
  unfold Source.alone
  rw [← h.isBlank n bound, h.courseEq bound]
  cases blank : ((Source.ofText t).line n).isBlank with
  | false => simp only [Bool.false_eq_true, if_false]
  | true =>
    have bound' : n ≤ Lexer.feeds t' := h.feeds ▸ bound
    have blank' : ((Source.ofText t').line n).isBlank = true := h.isBlank n bound ▸ blank
    have gap : (Source.ofText t).blankGap n = (Source.ofText t').blankGap n := by
      rw [Source.blankGap, Source.blankGap, h.outlineEq, Source.lastLineEq, Source.lastLineEq, h.feeds]
    have cover := findAlike (P := fun tok => tok.HoldsFeed (n + 1)) (Q := fun tok => tok.HoldsFeed (n + 1))
      (f := fun _ => ()) (g := fun _ => ()) (fun x y same => by
        rw [decide_eq_decide, Token.HoldsFeed, Token.HoldsFeed, same.line, same.feeds]) (fun _ _ _ => rfl) h.tokens
    rw [← Source.blankCovering bound blank, ← Source.blankCovering bound' blank'] at cover
    have covered := congrArg Option.isSome cover
    rw [Option.isSome_map, Option.isSome_map] at covered
    rw [covered, gap, h.outlineEq, h.answeredEq]

end Indentation
