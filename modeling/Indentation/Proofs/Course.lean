import Indentation.Proofs.Alike
import Indentation.Proofs.Gaps

/-! The course of a line: how its width follows from the widths of earlier lines. A line keeps its
width, goes to the margin of the text, or is measured from a place at a fixed distance from the margin
of an earlier line. The course says all that the placement of the line says, without an offset, and
it is the same however the lines stand. -/
namespace Indentation
open Lexer (feeds)

inductive Course where
  | kept
  | flush
  | measured (line inset : Nat) (step : Int)
  deriving DecidableEq, Repr

def Course.width (c : Course) (own : Nat) (widths : Widths) : Nat :=
  match c with
  | kept => own
  | flush => 0
  | measured line inset step => (((widths[line]?).getD 0 + inset : Nat) + step).toNat

namespace Source

def measure (s : Source) (step : Int) : Anchor → Course
  | .word i => .measured (s.outline.lineOf i) (((s.code[i]?).map (·.inset s.text)).getD 0) step
  | .margin line => .measured line 0 step

def ruled (s : Source) (settings : Settings) (strategy : Strategy) (n : Nat) : Course :=
  match (Reading.mk s.outline settings strategy).first (s.outline.gapOfLine n) with
  | none => .flush
  | some (anchor, step) => s.measure (step.size settings) anchor

def answered (s : Source) (settings : Settings) (found : Reading.Found) : Course :=
  match found with
  | none => .flush
  | some (anchor, step) => s.measure (step.size settings) anchor

theorem ruledEq (s : Source) (settings : Settings) (strategy : Strategy) (n : Nat) :
    s.ruled settings strategy n =
      s.answered settings ((Reading.mk s.outline settings strategy).first (s.outline.gapOfLine n)) := rfl

def carried (s : Source) (n : Nat) (tok : Token) : Course :=
  if tok.isComment && (s.line n).body.head? == some '*' then .measured tok.line (tok.inset s.text) 1
  else .kept

def course (s : Source) (settings : Settings) (strategy : Strategy) (n : Nat) : Course :=
  if s.isVerbatim n then .kept
  else if (s.line n).isBlank then .flush
  else ((s.covering? (s.line n).margin).map (s.carried n)).getD (s.ruled settings strategy n)

theorem builtinNamed : Rule.builtin = Reading.named.map fun entry => Rule.ofReading entry.1 entry.2 := rfl

theorem firstRuleEq (s : Source) (settings : Settings) (strategy : Strategy) (site : Site) :
    (s.firstRule? Rule.builtin settings strategy site).map Prod.snd =
      ((Reading.mk s.outline settings strategy).first site.gap).map
        fun found => (s.locate found.1, found.2) := by
  rw [firstRule?, builtinNamed, Reading.first]
  induction Reading.named with
  | nil => rfl
  | cons entry rest ih =>
    rw [List.map_cons, List.findSome?_cons, List.findSome?_cons]
    simp only [Rule.ofReading]
    cases entry.2 ⟨s.outline, settings, strategy⟩ site.gap with
    | none => exact ih
    | some found => rfl

variable {t : Text} {n : Nat} {settings : Settings} {strategy : Strategy}

theorem measureEarlier (bound : n ≤ feeds t) {anchor : Anchor} (step : Int)
    (precedes : (ofText t).outline.Precedes ((ofText t).outline.rankOfLine n) anchor) :
    (ofText t).locate anchor < ((ofText t).line n).start ∧
      ∃ m inset, (ofText t).measure step anchor = .measured m inset step ∧ m < n ∧
        ∀ widths : Widths,
          (ofText t).column widths ((ofText t).locate anchor) = (widths[m]?).getD 0 + inset := by
  cases anchor with
  | word i =>
    obtain ⟨tok, found, member, earlier⟩ := wordBefore bound precedes
    rw [locate, startOfEq found]
    refine ⟨(Token.startBefore member bound).mpr earlier, tok.line, tok.inset t, ?_, earlier, ?_⟩
    · rw [measure, lineOfWord found, found]
      rfl
    · exact Token.columnStart member
  | margin line =>
    obtain ⟨i, before, rfl⟩ := precedes
    obtain ⟨tok, found, member, earlier⟩ := wordBefore bound before
    rw [locate, measure, lineOfWord found]
    have margin := ((ofText t).line tok.line).marginLeStop
    have apart := stopLtStart earlier bound
    exact ⟨by omega, tok.line, 0, rfl, earlier, columnMargin (Token.lineLe member)⟩

theorem resolvedEarlier (bound : n ≤ feeds t) {rule : Rule} {place : Nat} {step : Shift}
    (member : rule ∈ Rule.builtin)
    (found : rule.resolve (ofText t) settings strategy ((ofText t).site ((ofText t).targetOfLine n).start) =
      some (place, step)) :
    place < ((ofText t).line n).start ∧ (ofText t).lineOf place < n := by
  rw [builtinNamed] at member
  obtain ⟨entry, among, rfl⟩ := List.mem_map.mp member
  obtain ⟨⟨anchor, _⟩, answer, same⟩ := Option.map_eq_some_iff.mp found
  cases same
  have precedes := Reading.namedPrecedes (nested t) among answer
  have rank : ((ofText t).site ((ofText t).targetOfLine n).start).gap.rank =
      (ofText t).outline.rankOfLine n := (targetRank bound).1
  rw [rank] at precedes
  have before := (measureEarlier bound (step.size settings) precedes).1
  have start := startLe bound ((ofText t).locate anchor)
  rw [lineOfFeeds]
  omega

theorem answeredCases (bound : n ≤ feeds t) {g : Gap} (rank : g.rank = (ofText t).outline.rankOfLine n)
    (settings : Settings) (strategy : Strategy) :
    let course := (ofText t).answered settings ((Reading.mk (ofText t).outline settings strategy).first g)
    course = .flush ∨ ∃ m inset step, course = .measured m inset step ∧ m < n := by
  intro course
  cases found : (Reading.mk (ofText t).outline settings strategy).first g with
  | none => exact .inl (congrArg ((ofText t).answered settings) found)
  | some pair =>
    obtain ⟨anchor, step⟩ := pair
    have precedes := Reading.firstPrecedes (nested t) found
    rw [rank] at precedes
    obtain ⟨_, m, inset, same, earlier, _⟩ := measureEarlier bound (step.size settings) precedes
    exact .inr ⟨m, inset, _, (congrArg ((ofText t).answered settings) found).trans same, earlier⟩

theorem ruledCases (bound : n ≤ feeds t) (settings : Settings) (strategy : Strategy) :
    (ofText t).ruled settings strategy n = .flush ∨
      ∃ m inset step, (ofText t).ruled settings strategy n = .measured m inset step ∧ m < n :=
  answeredCases bound rfl settings strategy

theorem courseEarlier (bound : n ≤ feeds t) {m inset : Nat} {step : Int}
    (found : (ofText t).course settings strategy n = .measured m inset step) : m < n := by
  unfold course at found
  split at found
  · contradiction
  · split at found
    · contradiction
    · rename_i free shown
      cases cover : (ofText t).covering? ((ofText t).line n).margin with
      | none =>
        rw [cover] at found
        rcases ruledCases bound settings strategy with flush | ⟨m', inset', step', same, earlier⟩
        · rw [Option.map_none, Option.getD_none, flush] at found
          contradiction
        · rw [Option.map_none, Option.getD_none, same] at found
          cases found
          exact earlier
      | some tok =>
        obtain ⟨_, _, holds⟩ := coveredComment bound (by simpa using shown) (by simpa using free) cover
        rw [cover, Option.map_some, Option.getD_some, carried] at found
        split at found
        · cases found
          exact holds.1
        · contradiction

theorem courseKept (bound : n ≤ feeds t) (free : (ofText t).isVerbatim n = false)
    (kept : (ofText t).course settings strategy n = .kept) :
    ((ofText t).line n).isBlank = false ∧ ((ofText t).line n).body.head? ≠ some '*' ∧
      ∃ tok ∈ tokenize t, tok.kind = .comment ∧ tok.HoldsFeed n := by
  cases shown : ((ofText t).line n).isBlank with
  | true => simp [course, free, shown] at kept
  | false =>
    simp only [course, free, shown, if_false, Bool.false_eq_true] at kept
    cases cover : (ofText t).covering? ((ofText t).line n).margin with
    | none =>
      rw [cover, Option.map_none, Option.getD_none] at kept
      rcases ruledCases bound settings strategy with flush | ⟨m, inset, step, same, _⟩
      · rw [flush] at kept
        contradiction
      · rw [same] at kept
        contradiction
    | some tok =>
      obtain ⟨member, comment, holds⟩ := coveredComment bound shown free cover
      refine ⟨rfl, fun star => ?_, tok, member, comment, holds⟩
      simp [cover, carried, Token.isComment, comment, Kind.isComment, star] at kept

theorem answeredWidth (bound : n ≤ feeds t) {target : Target}
    (rank : (ofText t).rank target.start = (ofText t).outline.rankOfLine n)
    (after : ((ofText t).line n).start ≤ target.start)
    (uncovered : (ofText t).covering? ((ofText t).line target.line).margin = none) (own : Nat) (widths : Widths) :
    ((ofText t).placement Rule.builtin settings strategy target).width (ofText t) widths target =
      ((ofText t).answered settings ((Reading.mk (ofText t).outline settings strategy).first
        ((ofText t).site target.start).gap)).width own widths := by
  have rules := firstRuleEq (ofText t) settings strategy ((ofText t).site target.start)
  have same : ((ofText t).site target.start).gap.rank = (ofText t).outline.rankOfLine n := rank
  simp only [placement, uncovered]
  cases found : (Reading.mk (ofText t).outline settings strategy).first ((ofText t).site target.start).gap with
  | none =>
    rw [found, Option.map_none, Option.map_eq_none_iff] at rules
    rw [rules]
    rfl
  | some pair =>
    obtain ⟨anchor, step⟩ := pair
    rw [found, Option.map_some, Option.map_eq_some_iff] at rules
    obtain ⟨⟨name, place, shift⟩, answer, located⟩ := rules
    cases located
    have precedes := Reading.firstPrecedes (nested t) found
    rw [same] at precedes
    obtain ⟨before, m, inset, measured, _, column⟩ := measureEarlier bound (step.size settings) precedes
    simp only [answer, answered, measured]
    rw [if_neg (by omega), Placement.width, Course.width, column]

theorem placementWidth (bound : n ≤ feeds t) (free : (ofText t).isVerbatim n = false)
    (shown : ((ofText t).line n).isBlank = false) (widths : Widths) :
    ((ofText t).placement Rule.builtin settings strategy ((ofText t).targetOfLine n)).width (ofText t)
      widths ((ofText t).targetOfLine n) =
        ((ofText t).course settings strategy n).width ((widths[n]?).getD 0) widths := by
  have line : ((ofText t).targetOfLine n).line = n := rfl
  cases cover : (ofText t).covering? ((ofText t).line n).margin with
  | some tok =>
    obtain ⟨member, _, _⟩ := coveredComment bound shown free cover
    simp only [placement, course, line, free, shown, cover, if_false, Bool.false_eq_true, Option.map_some,
      Option.getD_some, carried, Line.fromMarginOf shown]
    split
    · rw [Placement.width, Course.width, Token.columnStart member]
      rfl
    · rfl
  | none =>
    obtain ⟨rank, after⟩ := targetRank bound
    rw [answeredWidth bound rank after cover ((widths[n]?).getD 0) widths, (targetGap bound shown).1]
    simp [course, free, shown, cover, ruledEq]

end Source

namespace Alike
variable {t t' : Text} {n : Nat}

theorem answeredEq (h : Alike t t') (settings : Settings) (found : Reading.Found) :
    (Source.ofText t).answered settings found = (Source.ofText t').answered settings found := by
  have measure : ∀ step anchor,
      (Source.ofText t).measure step anchor = (Source.ofText t').measure step anchor := by
    intro step anchor
    cases anchor with
    | word i =>
      have inset : ((Source.ofText t).code[i]?).map (·.inset (Source.ofText t).text) =
          ((Source.ofText t').code[i]?).map (·.inset (Source.ofText t').text) := h.insetEq i
      simp only [Source.measure, h.outlineEq, inset]
    | margin line => rfl
  simp only [Source.answered, measure]

theorem courseEq (h : Alike t t') (bound : n ≤ Lexer.feeds t) (settings : Settings) (strategy : Strategy) :
    (Source.ofText t).course settings strategy n = (Source.ofText t').course settings strategy n := by
  have ruled : (Source.ofText t).ruled settings strategy n = (Source.ofText t').ruled settings strategy n := by
    rw [Source.ruledEq, Source.ruledEq, h.outlineEq, h.answeredEq]
  simp only [Source.course, h.isVerbatim bound, h.isBlank n bound, ruled]
  cases shown : ((Source.ofText t').line n).isBlank with
  | true => rfl
  | false =>
    have cover := h.coverEq bound (h.isBlank n bound ▸ shown) (f := (Source.ofText t).carried n)
      (g := (Source.ofText t').carried n) fun x y same => by
        have inset : x.inset (Source.ofText t).text = y.inset (Source.ofText t').text := same.inset
        simp only [Source.carried, h.star n bound, same.isComment, same.line, inset]
    rw [cover]

end Alike
end Indentation
