import Indentation.Indenter
import Indentation.Proofs.Course
import Indentation.Proofs.Checked.Rules

/-! A line placed with each step checked: the tables of the text, the rules in their order, and the test
that an anchor lies before the start. On every text each rule can be asked about each line, its anchor is
on an earlier line, and the checked width is the width of the placement. -/
namespace Indentation
open Lexer (feeds)

namespace Checked
open Reading (Found)
open Source (ofText)

def startOf (s : Source) (i : Nat) : Checked Nat := do
  return (← read s.code i).start

def locate (s : Source) : Anchor → Checked Nat
  | .word i => startOf s i
  | .margin n => do return (← read s.lines n).margin

def column (s : Source) (widths : Widths) (pos : Nat) : Checked Nat := do
  let l ← read s.lines (s.lineOf pos)
  if pos < l.margin then return Text.width (l.content.take (pos - l.start))
  else return (← read widths (s.lineOf pos)) + (pos - l.margin)

def start (s : Source) (n : Nat) : Checked Nat := do
  let l ← read s.lines n
  match s.lineCode? n with
  | some i => startOf s i
  | none => return l.margin

def located (s : Source) (answer : Checked Found) : Checked (Option (Nat × Shift)) := do
  match ← answer with
  | none => return none
  | some (anchor, step) => return some (← locate s anchor, step)

def resolve (s : Source) (settings : Settings) (strategy : Strategy) (site : Site)
    (rule : Reading → Gap → Checked Found) : Checked (Option (Nat × Shift)) :=
  located s (rule ⟨s.outline, settings, strategy⟩ site.gap)

def ask (s : Source) (settings : Settings) (strategy : Strategy) (site : Site) :
    List (String × (Reading → Gap → Checked Found)) → Checked (Option (String × Nat × Shift))
  | [] => return none
  | rule :: rest => do
    match ← resolve s settings strategy site rule.2 with
    | some found => return some (rule.1, found)
    | none => ask s settings strategy site rest

def width (s : Source) (settings : Settings) (strategy : Strategy) (widths : Widths) (n : Nat) : Checked Nat := do
  let l ← read s.lines n
  match s.covering? l.margin with
  | some token =>
    if token.isComment && l.fromMargin.head? == some '*' then return (← column s widths token.start) + 1
    else read widths n
  | none =>
    let begin_ ← start s n
    match ← ask s settings strategy (s.site begin_) rules with
    | none => return 0
    | some (_, place, step) =>
      if begin_ ≤ place then .error .anchor
      else return ((← column s widths place : Nat) + step.size settings).toNat

variable {t : Text} {n : Nat} {settings : Settings} {strategy : Strategy} {widths : Widths}

theorem fit (t : Text) : Fit (ofText t).outline where
  nest := by
    simp [Source.ofText, Source.ofTokens, Outline.ofWords, Outline.size, Nesting.openStacks,
      Nesting.openStacksLength]
  nested := Source.nested t
  lines := by
    intro i w found
    rw [Source.wordsAt, Option.map_eq_some_iff] at found
    obtain ⟨tok, code, rfl⟩ := found
    have line := Token.lineLe (Source.codeMember code)
    have size : (ofText t).outline.blanks.size = feeds t + 1 := by
      simp [Source.ofText, Source.ofTokens, Outline.ofWords, Line.ofTextLength]
    rw [size]
    exact Nat.lt_succ_of_le line

theorem siteWithin (t : Text) (pos : Nat) :
    Within (ofText t).outline ((ofText t).site pos).gap where
  rank := Source.rankInside t pos
  word := by
    intro i at_
    have rank := Reading.wordRank at_
    rw [Source.outlineSize, rank]
    by_contra past
    have none : (ofText t).code[(ofText t).rank pos]? = .none :=
      Array.getElem?_eq_none (Nat.le_of_not_lt past)
    simp [Source.site, Gap.word?, Source.indexAt?, none] at at_

theorem lineOk (bound : n ≤ feeds t) : read (ofText t).lines n = .ok ((ofText t).line n) := by
  refine readOf ?_
  rw [← Source.lineFound bound]
  simp [Source.ofText, Source.ofTokens]

theorem startOfOk {i : Nat} (inside : i < (ofText t).code.size) :
    startOf (ofText t) i = .ok ((ofText t).startOf i) := by
  obtain ⟨tok, found, reads⟩ := readInside inside
  rw [startOf, reads, okBind, Source.startOf, found]
  rfl

theorem columnOk (size : widths.size = (ofText t).lines.size) (pos : Nat) :
    column (ofText t) widths pos = .ok ((ofText t).column widths pos) := by
  have bound := Source.lineOfLe t pos
  have inside : (ofText t).lineOf pos < widths.size := by
    rw [size, Source.linesSize]
    omega
  obtain ⟨own, found, reads⟩ := readInside inside
  rw [column, lineOk bound, okBind, reads, okBind, Source.column, found]
  simp only [apply_ite Except.ok, pureOk, Option.getD_some]

theorem startOk (bound : n ≤ feeds t) :
    start (ofText t) n = .ok ((ofText t).targetOfLine n).start := by
  rw [start, lineOk bound, okBind, Source.targetOfLine]
  cases first : (ofText t).lineCode? n with
  | none => rfl
  | some i =>
    have inside : i < (ofText t).code.size := by
      obtain ⟨next, _⟩ := Option.filter_eq_some_iff.mp first
      simp only [Source.next?] at next
      split at next
      · rwa [← Option.some.inj next]
      · contradiction
    exact startOfOk inside

theorem locateOk {pos : Nat} {anchor : Anchor}
    (precedes : (ofText t).outline.Precedes ((ofText t).rank pos) anchor) :
    locate (ofText t) anchor = .ok ((ofText t).locate anchor) := by
  have rank := Source.rankLe t pos
  cases anchor with
  | word i => exact startOfOk (Nat.lt_of_lt_of_le precedes rank)
  | margin line =>
    obtain ⟨i, earlier, rfl⟩ := precedes
    have inside : i < (ofText t).code.size := Nat.lt_of_lt_of_le earlier rank
    obtain ⟨tok, found, _⟩ := readInside inside
    have line := Token.lineLe (Source.codeMember found)
    rw [← Source.lineOfWord found] at line
    rw [locate, lineOk line]
    rfl

theorem locatedOk (t : Text) (settings : Settings) (strategy : Strategy) (pos : Nat)
    {entry : String × (Reading → Gap → Found)} (member : entry ∈ Reading.named) :
    located (ofText t)
        (.ok (entry.2 ⟨(ofText t).outline, settings, strategy⟩ ((ofText t).site pos).gap)) =
      .ok ((Rule.ofReading entry.1 entry.2).resolve (ofText t) settings strategy
        ((ofText t).site pos)) := by
  simp only [located, okBind, Rule.ofReading]
  cases answer : entry.2 ⟨(ofText t).outline, settings, strategy⟩ ((ofText t).site pos).gap with
  | none => rfl
  | some found =>
    obtain ⟨anchor, step⟩ := found
    have precedes := Reading.namedPrecedes (Source.nested t) member answer
    simp only [locateOk precedes, okBind]
    rfl

theorem resolveOk (t : Text) (settings : Settings) (strategy : Strategy) (pos : Nat) :
    (rules.map fun rule =>
      (rule.1, resolve (ofText t) settings strategy ((ofText t).site pos) rule.2)) =
    Rule.builtin.map fun rule =>
      (rule.name, .ok (rule.resolve (ofText t) settings strategy ((ofText t).site pos))) := by
  have answers := rulesOk (r := ⟨(ofText t).outline, settings, strategy⟩) (fit t) (siteWithin t pos)
  have places := congrArg
    (List.map fun entry : String × Checked Found => (entry.1, located (ofText t) entry.2)) answers
  rw [List.map_map, List.map_map] at places
  rw [Source.builtinNamed, List.map_map]
  refine Eq.trans places (List.map_congr_left fun entry member => ?_)
  exact congrArg (Prod.mk entry.1) (locatedOk t settings strategy pos member)

theorem askOk {s : Source} {site : Site} {rules : List (String × (Reading → Gap → Checked Found))}
    {plain : List Rule}
    (each : (rules.map fun rule => (rule.1, resolve s settings strategy site rule.2)) =
      plain.map fun rule => (rule.name, .ok (rule.resolve s settings strategy site))) :
    ask s settings strategy site rules = .ok (s.firstRule? plain settings strategy site) := by
  induction plain generalizing rules with
  | nil =>
    rw [List.map_nil, List.map_eq_nil_iff] at each
    rw [each]
    rfl
  | cons rule plain ih =>
    cases rules with
    | nil => simp at each
    | cons first rest =>
      simp only [List.map_cons, List.cons.injEq, Prod.mk.injEq] at each
      obtain ⟨⟨name, answer⟩, later⟩ := each
      rw [ask, answer, okBind, Source.firstRule?, List.findSome?_cons]
      cases rule.resolve s settings strategy site with
      | some found => simp only [name, pureOk, Option.map_some]
      | none => exact ih later

theorem firstEarlier (bound : n ≤ feeds t) {name : String} {place : Nat} {step : Shift}
    (found : (ofText t).firstRule? Rule.builtin settings strategy
      ((ofText t).site ((ofText t).targetOfLine n).start) = some (name, place, step)) :
    place < ((ofText t).targetOfLine n).start := by
  obtain ⟨rule, member, answer⟩ := List.exists_of_findSome?_eq_some found
  obtain ⟨pair, resolved, same⟩ := Option.map_eq_some_iff.mp answer
  cases same
  have earlier := (Source.resolvedEarlier bound member resolved).1
  have start := (Source.targetRank bound).2
  omega

theorem widthOk (bound : n ≤ feeds t) (size : widths.size = (ofText t).lines.size) :
    width (ofText t) settings strategy widths n =
      .ok (((ofText t).placement Rule.builtin settings strategy ((ofText t).targetOfLine n)).width
        (ofText t) widths ((ofText t).targetOfLine n)) := by
  have own : read widths n = .ok ((widths[n]?).getD 0) := by
    have inside : n < widths.size := by rw [size, Source.linesSize]; omega
    obtain ⟨w, found, reads⟩ := readInside inside
    rw [reads, found]
    rfl
  have line : ((ofText t).targetOfLine n).line = n := rfl
  simp only [width, lineOk bound, okBind, Source.placement, line]
  cases (ofText t).covering? ((ofText t).line n).margin with
  | some token =>
    simp only [columnOk size, okBind, own]
    split <;> rfl
  | none =>
    simp only [startOk bound, okBind, askOk (resolveOk t settings strategy _)]
    cases found : (ofText t).firstRule? Rule.builtin settings strategy
        ((ofText t).site ((ofText t).targetOfLine n).start) with
    | none => rfl
    | some answer =>
      obtain ⟨name, place, step⟩ := answer
      have earlier := firstEarlier bound found
      simp only [if_neg (Nat.not_le_of_lt earlier), columnOk size, okBind]
      rfl

theorem placementConsistent (bound : n ≤ feeds t) (name : String) (place : Nat) :
    (ofText t).placement Rule.builtin settings strategy ((ofText t).targetOfLine n) ≠
      .inconsistent name place := by
  intro inconsistent
  simp only [Source.placement] at inconsistent
  split at inconsistent
  · split at inconsistent <;> contradiction
  · split at inconsistent
    · contradiction
    · rename_i found
      have earlier := firstEarlier bound found
      rw [if_neg (Nat.not_le_of_lt earlier)] at inconsistent
      contradiction

theorem eventsQuiet {p : Placement} (consistent : ∀ name place, p ≠ .inconsistent name place) (s : Source)
    (widths : Widths) (target : Target) : ∀ event ∈ p.events s widths target, event.level ≠ .warning := by
  intro event member
  cases p with
  | anchored rule anchor step =>
    rw [List.mem_singleton.mp member]
    simp [Event.level]
  | inconsistent rule anchor => exact absurd rfl (consistent rule anchor)
  | kept => contradiction
  | starred comment => contradiction
  | flush => contradiction

/- Indenting a line never stops, whatever the text and the place: each read finds an entry, no test asks
for itself more than once, and whichever rule answers, its anchor is on an earlier line. -/
theorem lineNeverStops (text : Text) (settings : Settings) (strategy : Strategy) (pos : Nat) :
    let s := ofText text
    let target := s.target pos
    let site := s.site target.start
    let indented := ({ settings } : Indenter).calculate text pos (some strategy)
    (width s settings strategy s.widths target.line = .ok indented.value ∧
      ∀ event ∈ indented.events, event.level ≠ .warning) ∧
    (∀ widths : Widths, widths.size = s.lines.size →
      width s settings strategy widths target.line =
        .ok ((s.placement Rule.builtin settings strategy target).width s widths target)) ∧
    (rules.map fun rule => (rule.1, resolve s settings strategy site rule.2)) =
      (Rule.builtin.map fun rule => (rule.name, .ok (rule.resolve s settings strategy site))) ∧
    (∀ rule ∈ Rule.builtin, ∀ place step, rule.resolve s settings strategy site = some (place, step) →
      s.lineOf place < target.line) ∧
    (∀ name place, s.placement Rule.builtin settings strategy target ≠ .inconsistent name place) ∧
    (∀ i, i < s.outline.size → isRunOn s.outline strategy 2 i = .ok (s.outline.isRunOn strategy i)) ∧
    ∀ i a, s.outline.opens i .paren = true → s.outline.afterGroups? i = some a →
      i < a ∧ s.outline.opens a .paren = false ∧ s.outline.opens a .square = false := by
  intro s target site indented
  have bound : s.lineOf pos ≤ feeds text := by
    rw [Source.lineOfFeeds]
    exact Source.feedsTake text pos
  have widthsSize : s.widths.size = s.lines.size := Array.size_map
  have consistent : ∀ name place, s.placement Rule.builtin settings strategy target ≠ .inconsistent name place :=
    placementConsistent bound
  refine ⟨⟨widthOk bound widthsSize, eventsQuiet consistent s s.widths target⟩, fun widths => widthOk bound,
    resolveOk text settings strategy target.start, ?_, consistent, fun i => isRunOnOk (fit text), ?_⟩
  · intro rule member place step found
    exact (Source.resolvedEarlier bound member found).2
  · intro i a opens after
    have spec := Outline.afterGroupsSpec after
    exact ⟨Outline.afterGroupsLt opens after, spec.2.1, spec.2.2⟩

theorem lineNeverStopsUnclosed :
    let s := ofText "f(a)\n(b) \x7b\nx".toList
    let target := s.target 11
    let block := Rule.ofReading "block" Reading.block
    (s.widths.size = s.lines.size ∧ width s {} .eager s.widths target.line =
      .ok ((s.placement Rule.builtin {} .eager target).width s s.widths target)) ∧
    (block ∈ Rule.builtin ∧ block.resolve s {} .eager (s.site target.start) = some (0, .columns 2) ∧
      s.lineOf 0 < target.line) ∧
    (4 < s.outline.size ∧ isRunOn s.outline .eager 2 4 = .ok (s.outline.isRunOn .eager 4)) ∧
    s.outline.opens 4 .paren = true ∧ s.outline.afterGroups? 4 = some 7 ∧ s.outline.opens 7 .paren = false := by
  intro s target block
  obtain ⟨_, widths, _, anchors, _, depth, groups⟩ := lineNeverStops "f(a)\n(b) \x7b\nx".toList {} .eager 11
  have member : block ∈ Rule.builtin := by simp [block, Rule.builtin]
  have answer : block.resolve s {} .eager (s.site target.start) = some (0, .columns 2) := by decide +kernel
  have inside : 4 < s.outline.size := by decide +kernel
  have opens : s.outline.opens 4 .paren = true := by decide +kernel
  have after : s.outline.afterGroups? 4 = some 7 := by decide +kernel
  exact ⟨⟨by decide +kernel, widths s.widths (by decide +kernel)⟩,
    ⟨member, answer, anchors block member 0 _ answer⟩, ⟨inside, depth 4 inside⟩,
    opens, after, (groups 4 7 opens after).2.1⟩

end Checked
end Indentation
