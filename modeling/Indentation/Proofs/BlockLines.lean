import Indentation.Proofs.Blocks
import Indentation.Proofs.Levels

/-! The lines of a block. The rule for blocks measures all of them from one place and adds one lead, which
both depend on the bracket alone, so they differ only by the step that a line takes inside of its block:
none for a closing bracket, one for a clause, and two for a line after a clause. -/
namespace Indentation
open Lexer (feeds)

namespace Rule

theorem builtinBlock {rule : Rule} (member : rule ∈ builtin) (name : rule.name = "block") :
    rule = ofReading "block" Reading.block := by
  simp only [builtin, List.mem_cons, List.not_mem_nil, or_false] at member
  rcases member with rfl | rfl | rfl | rfl | rfl | rfl | rfl
  iterate 6 exact absurd name (by decide)
  rfl

end Rule

namespace Outline
variable {o : Outline} {b g : Nat}

theorem inCaseBodyIff (stacked : o.Stacked) {settings : Settings} {strategy : Strategy} {gap : Gap}
    (inside : gap.rank ≤ o.size) (encloses : o.enclosing? gap.rank = some b) :
    (Reading.mk o settings strategy).inCaseBody b gap = true ↔
      o.opens b .brace = true ∧
        ∃ j, j < gap.rank ∧ o.enclosing? j = some b ∧ o.isCaseClause j = true := by
  have stretch := stacked.stretchInside inside encloses
  have level : ∀ j, o.openAt j = o.openAt gap.rank ↔ o.enclosing? j = some b := by
    intro j
    rw [stacked.levelIff, encloses]
  simp only [Reading.inCaseBody, Bool.and_eq_true, List.any_eq_true, stretch.memForward stacked, level]
  refine and_congr_right fun _ => exists_congr fun j => ?_
  constructor
  · rintro ⟨⟨_, before, same⟩, clause⟩
    exact ⟨before, same, clause⟩
  · rintro ⟨before, same, clause⟩
    have later := (stacked.memberOpens (List.mem_of_head? same)).1
    exact ⟨⟨later, before, same⟩, clause⟩

end Outline

namespace Reading
variable {r : Reading} {g : Gap} {b : Nat}

theorem blockStepSize (encloses : r.outline.enclosing? g.rank = some b) (inside : g.atEnd = false)
    (anchorRank : Nat) :
    (r.blockStep g anchorRank).size r.settings =
      ((if g.word?.any r.outline.isClosing then 0
        else if g.word?.any r.outline.isCaseClause then r.settings.step
        else if r.inCaseBody b g then 2 * r.settings.step
        else r.settings.step : Nat) : Int) + (r.outline.valueLead r.settings anchorRank b).size r.settings := by
  simp only [blockStep, encloses, inside, Bool.false_eq_true, if_false, Option.getD_some, Option.any_some]
  split
  · exact (Int.zero_add _).symm
  · split
    · rfl
    · split
      · rfl
      · rfl

end Reading

namespace Source
variable {t : Text} {settings : Settings} {strategy : Strategy} {b n : Nat}

structure WonByBlock (s : Source) (settings : Settings) (strategy : Strategy) (b n : Nat) : Prop where
  within : n < s.lines.size
  free : s.isVerbatim n = false
  shown : (s.line n).isBlank = false
  won : ∃ anchor step,
    s.placement Rule.builtin settings strategy (s.targetOfLine n) = .anchored "block" anchor step
  encloses : s.enclosing? (s.targetOfLine n).start = some b

def insideStep (s : Source) (settings : Settings) (b n : Nat) : Nat :=
  let o := s.outline
  let first := s.lineCode? n
  if first.any o.isClosing then 0
  else if first.any o.isCaseClause then settings.step
  else if o.opens b .brace ∧ ∃ j, j < o.rankOfLine n ∧ o.enclosing? j = some b ∧ o.isCaseClause j then
    2 * settings.step
  else settings.step

theorem blockStepInside (bound : n ≤ feeds t)
    (encloses : (ofText t).outline.enclosing? ((ofText t).outline.rankOfLine n) = some b) :
    let r : Reading := ⟨(ofText t).outline, settings, strategy⟩
    (r.blockStep (r.outline.gapOfLine n) (r.outline.rankOf (r.outline.blockAnchor settings b))).size settings =
      (ofText t).insideStep settings b n + (r.blockLead b).size settings := by
  intro r
  have inside : (ofText t).outline.rankOfLine n ≤ (ofText t).outline.size := rankStart bound ▸ rankInside t _
  have stacked : r.outline.Stacked := Outline.ofWordsStacked _ _
  have bodies : r.inCaseBody b (r.outline.gapOfLine n) = true ↔ (ofText t).outline.opens b .brace = true ∧
      ∃ j, j < (ofText t).outline.rankOfLine n ∧ (ofText t).outline.enclosing? j = some b ∧
        (ofText t).outline.isCaseClause j = true :=
    Outline.inCaseBodyIff stacked inside encloses
  have step := Reading.blockStepSize (r := r) (g := r.outline.gapOfLine n) encloses rfl
    (r.outline.rankOf (r.outline.blockAnchor settings b))
  refine step.trans ?_
  rw [insideStep, lineCodeEq bound]
  simp only [← bodies]
  rfl

namespace WonByBlock
variable (won : (ofText t).WonByBlock settings strategy b n)
include won

theorem bound : n ≤ feeds t := lineBound won.within

theorem enclosesLine : (ofText t).outline.enclosing? ((ofText t).outline.rankOfLine n) = some b := by
  have encloses := won.encloses
  rwa [Source.enclosing?, (targetRank won.bound).1] at encloses

theorem answer :
    let r : Reading := ⟨(ofText t).outline, settings, strategy⟩
    (ofText t).placement Rule.builtin settings strategy ((ofText t).targetOfLine n) =
      .anchored "block" ((ofText t).locate (r.outline.blockAnchor settings b))
        ((ofText t).insideStep settings b n + (r.blockLead b).size settings) := by
  intro r
  obtain ⟨place, step, placed⟩ := won.won
  rw [placed]
  simp only [placement] at placed
  split at placed
  · split at placed <;> contradiction
  · split at placed
    · contradiction
    · rename_i name anchor shift found
      split at placed
      · contradiction
      · cases placed
        obtain ⟨rule, member, first⟩ := List.exists_of_findSome?_eq_some found
        obtain ⟨pair, resolves, same⟩ := Option.map_eq_some_iff.mp first
        obtain rfl := Rule.builtinBlock member (congrArg Prod.fst same)
        cases same
        obtain ⟨⟨anchor, shift⟩, read, same⟩ := Option.map_eq_some_iff.mp resolves
        cases same
        rw [(targetGap won.bound won.shown).1] at read
        obtain ⟨c, encloses, same⟩ := Option.map_eq_some_iff.mp read
        obtain rfl : c = b := Option.some.inj (encloses.symm.trans won.enclosesLine)
        cases same
        rw [← blockStepInside won.bound won.enclosesLine]
        rfl

end WonByBlock

end Source

namespace Indenter
open Source (ofText)

variable {t : Text} {n : Nat} {settings : Settings} {strategy : Strategy}

theorem lastStagePlaced (bound : n ≤ feeds t) (free : (ofText t).isVerbatim n = false)
    (shown : ((ofText t).line n).isBlank = false) :
    let s := ofText ((ofText t).stage settings strategy (feeds t + 1))
    (s.line n).width = ((ofText t).placement Rule.builtin settings strategy ((ofText t).targetOfLine n)).width
      (ofText t) s.widths ((ofText t).targetOfLine n) := by
  intro s
  have shifted := Source.stageShifted t settings strategy (feeds t + 1)
  have settled : (s.course settings strategy n).width (s.line n).width s.widths = (s.line n).width :=
    lastStageSettled bound
  have own : s.widths[n]? = some (s.line n).width := Source.widthAt (by rwa [Source.stageFeeds])
  rw [Source.placementWidth bound free shown, own, Option.getD_some, shifted.alike.courseEq bound]
  exact settled.symm

theorem blockColumns (settings : Settings) (session : Session) (text : Text) (strategy : Option Strategy) :
    let s := ofText text
    let r := (({ settings, session } : Indenter).reindent text strategy).2.value
    ∀ b, ∃ c : Nat, ∀ n, s.WonByBlock settings (strategy.getD session.finish.effective) b n →
      ((ofText r).line n).width = c + s.insideStep settings b n := by
  intro s r b
  let reading : Reading := ⟨s.outline, settings, strategy.getD session.finish.effective⟩
  let base := s.column (ofText r).widths (s.locate (s.outline.blockAnchor settings b))
  have value : r = s.stage settings (strategy.getD session.finish.effective) (feeds text + 1) :=
    reindentValue settings session text strategy
  have lead : 0 ≤ (reading.blockLead b).size settings := s.outline.valueLeadNonneg settings _ b
  refine ⟨base + ((reading.blockLead b).size settings).toNat, fun n won => ?_⟩
  have placed : ((ofText r).line n).width = _ := value ▸ lastStagePlaced won.bound won.free won.shown
  rw [placed, won.answer, Placement.width]
  show ((base : Int) + (s.insideStep settings b n + (reading.blockLead b).size settings)).toNat = _
  omega

theorem blockColumnsClause :
    let s := ofText "x match \x7b\ncase A => f\nval y = 1\n\x7d".toList
    let r := "x match \x7b\n  case A => f\n    val y = 1\n\x7d".toList
    s.WonByBlock {} .eager 2 1 ∧ s.WonByBlock {} .eager 2 2 ∧ s.WonByBlock {} .eager 2 3 ∧
      ∃ c : Nat, ((ofText r).line 1).width = c + 2 ∧ ((ofText r).line 2).width = c + 4 ∧
        ((ofText r).line 3).width = c := by
  intro s r
  have clause : s.WonByBlock {} .eager 2 1 :=
    ⟨by decide +kernel, by decide +kernel, by decide +kernel, ⟨0, 2, by decide +kernel⟩, by decide +kernel⟩
  have after : s.WonByBlock {} .eager 2 2 :=
    ⟨by decide +kernel, by decide +kernel, by decide +kernel, ⟨0, 4, by decide +kernel⟩, by decide +kernel⟩
  have closing : s.WonByBlock {} .eager 2 3 :=
    ⟨by decide +kernel, by decide +kernel, by decide +kernel, ⟨0, 0, by decide +kernel⟩, by decide +kernel⟩
  have laid : (({} : Indenter).reindent s.text (some .eager)).2.value = r := by decide +kernel
  obtain ⟨c, column⟩ := blockColumns {} {} s.text (some .eager) 2
  rw [laid] at column
  have steps : s.insideStep {} 2 1 = 2 ∧ s.insideStep {} 2 2 = 4 ∧ s.insideStep {} 2 3 = 0 := by decide +kernel
  exact ⟨clause, after, closing, c, (column 1 clause).trans (congrArg (c + ·) steps.1),
    (column 2 after).trans (congrArg (c + ·) steps.2.1), (column 3 closing).trans (congrArg (c + ·) steps.2.2)⟩

end Indenter
end Indentation
