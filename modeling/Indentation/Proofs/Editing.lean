import Indentation.Indenter
import Indentation.Proofs.Cuts
import Indentation.Proofs.Stages

/-! Indenting a text line by line, as an editor does it: each line is indented in the text that the
lines before it have left, which is read anew every time. The texts that this goes through are the
stages of a pass that reads the text once, so both end with the same text. -/
namespace Indentation
open Lexer (feeds)

namespace Source
variable {t : Text} {k : Nat} {settings : Settings} {strategy : Strategy}

theorem stageSucc (bound : k ≤ feeds t) :
    Text.lines ((ofText t).stage settings strategy (k + 1)) =
      (Text.lines ((ofText t).stage settings strategy k)).set k
        ((ofText t).renderLine ((ofText t).widthsTo settings strategy (k + 1)) k) := by
  rw [stageLines, stageLines]
  apply List.ext_getElem?
  intro n
  rw [List.getElem?_set]
  by_cases inside : n < feeds t + 1
  · rw [List.getElem?_map, List.getElem?_map, List.getElem?_range inside]
    split
    · rename_i same
      subst same
      simp [stageLine, inside]
    · rename_i other
      have width : ((ofText t).widthsTo settings strategy (k + 1))[n]? =
          ((ofText t).widthsTo settings strategy k)[n]? := by
        rw [widthsToSucc bound, Array.getElem?_setIfInBounds_ne other]
      have same : (ofText t).stageLine settings strategy (k + 1) n =
          (ofText t).stageLine settings strategy k n := by
        rw [stageLine, stageLine, renderLineEq, renderLineEq, width]
        by_cases before : n < k
        · rw [if_pos before, if_pos (by omega)]
        · rw [if_neg before, if_neg (by omega)]
      rw [Option.map_some, Option.map_some, same]
  · rw [List.getElem?_eq_none (by simpa using inside), if_neg (by omega),
      List.getElem?_eq_none (by simpa using inside)]

theorem eqNextStage (bound : k ≤ feeds t) {u : Text}
    (lines : Text.lines u = (Text.lines ((ofText t).stage settings strategy k)).set k
      ((ofText t).renderLine ((ofText t).widthsTo settings strategy (k + 1)) k)) :
    u = (ofText t).stage settings strategy (k + 1) := by
  rw [← Text.unlinesLines u, lines, ← stageSucc bound, Text.unlinesLines]

theorem verbatimStage (bound : k ≤ feeds t) (verbatim : (ofText t).isVerbatim k = true) :
    (ofText t).stage settings strategy k = (ofText t).stage settings strategy (k + 1) := by
  refine eqNextStage bound ?_
  have same : (Text.lines ((ofText t).stage settings strategy k))[k]? = some ((ofText t).line k).content := by
    rw [stageLines, List.getElem?_map, List.getElem?_range (by omega), Option.map_some, stageLine,
      if_neg (Nat.lt_irrefl k)]
  obtain ⟨inside, entry⟩ := List.getElem?_eq_some_iff.mp same
  rw [renderLineEq, if_pos verbatim, ← entry, List.set_getElem_self]

theorem blankStage (bound : k ≤ feeds t) (free : (ofText t).isVerbatim k = false)
    (blank : ((ofText t).line k).isBlank = true) :
    let u := (ofText t).stage settings strategy k
    u.take ((ofText u).line k).start ++ ((ofText u).line k).body ++ u.drop ((ofText u).line k).stop =
      (ofText t).stage settings strategy (k + 1) := by
  intro u
  have shifted : Shifted t u := stageShifted t settings strategy k
  have inside : k ≤ feeds u := shifted.feeds ▸ bound
  refine eqNextStage bound ?_
  have lines := linesSplice inside (movedFeedless inside 0)
  rw [renderLineEq, if_neg (by simp [free]), if_pos blank, Line.moved, shifted.body k bound]
  exact lines

theorem movedStage (bound : k ≤ feeds t) (free : (ofText t).isVerbatim k = false)
    (shown : ((ofText t).line k).isBlank = false) :
    let u := (ofText t).stage settings strategy k
    u.take ((ofText u).line k).start ++
      List.replicate (((ofText u).placement Rule.builtin settings strategy ((ofText u).targetOfLine k)).width
        (ofText u) (ofText u).widths ((ofText u).targetOfLine k)) ' ' ++ u.drop ((ofText u).line k).margin =
      (ofText t).stage settings strategy (k + 1) := by
  intro u
  have shifted : Shifted t u := stageShifted t settings strategy k
  have inside : k ≤ feeds u := shifted.feeds ▸ bound
  have free' : (ofText u).isVerbatim k = false := shifted.alike.isVerbatim bound ▸ free
  have shown' : ((ofText u).line k).isBlank = false := shifted.isBlank bound ▸ shown
  have widths : (ofText u).widths = (ofText t).widthsTo settings strategy k :=
    stageWidths (Nat.le_succ_of_le bound)
  have size : ((ofText t).widthsTo settings strategy k).size = feeds t + 1 :=
    widthsToSize (Nat.le_succ_of_le bound)
  have column : (((ofText t).widthsTo settings strategy (k + 1))[k]?).getD 0 =
      ((ofText u).course settings strategy k).width (((ofText u).widths[k]?).getD 0) (ofText u).widths := by
    rw [widthsToSucc bound, Array.getElem?_setIfInBounds_self_of_lt (by omega), Option.getD_some, widths,
      shifted.alike.courseEq bound]
  refine eqNextStage bound ?_
  rw [moveSplice inside shown', linesSplice inside (movedFeedless inside _), renderLineEq,
    if_neg (by simp [free]), if_neg (by simp [shown]), placementWidth inside free' shown', ← column,
    Line.moved, Line.moved, shifted.body k bound]

end Source

namespace Indenter
variable {settings : Settings} {session : Session} {strategy : Strategy} {t : Text} {k : Nat}

/- One step of the plain procedure: a blank line that does not begin inside a string is emptied, any
other line is indented on its own. -/
def editLine (strategy : Strategy) (command : Option String) (state : Indenter × Text) (k : Nat) :
    Indenter × Text :=
  let s := Source.ofText state.2
  let l := s.line k
  if l.isBlank && !s.isVerbatim k then
    (state.1, state.2.take l.start ++ (if l.endsWithReturn then ['\r'] else []) ++ state.2.drop l.stop)
  else
    let (ind, edited) := state.1.indentLine state.2 l.start (some strategy) command
    (ind, edited.value.text)

def editLines (ind : Indenter) (text : Text) (strategy : Strategy) (command : Option String) :
    Indenter × Text :=
  (List.range (Text.lines text).length).foldl (editLine strategy command) (ind, text)

theorem indentLineText (settings : Settings) (session : Session) (strategy : Strategy)
    (command : Option String) {n : Nat} (bound : n ≤ feeds t) :
    (({ settings, session } : Indenter).indentLine t ((Source.ofText t).line n).start (some strategy)
      command).2.value.text =
      if (Source.ofText t).isVerbatim n then t
      else t.take ((Source.ofText t).line n).start ++
        List.replicate (((Source.ofText t).placement Rule.builtin settings strategy
          ((Source.ofText t).targetOfLine n)).width (Source.ofText t) (Source.ofText t).widths
          ((Source.ofText t).targetOfLine n)) ' ' ++ t.drop ((Source.ofText t).line n).margin := by
  have read : ({ settings, session } : Indenter).read t = .ok (Source.ofText t) := rfl
  have line : ((Source.ofText t).targetOfLine n).line = n := rfl
  simp only [indentLine, read, Source.targetStart bound, newColumn?, line]
  cases (Source.ofText t).isVerbatim n with
  | true => rfl
  | false => rfl

theorem editLineStage (bound : k ≤ feeds t) (command : Option String) :
    ∃ later, editLine strategy command ({ settings, session }, (Source.ofText t).stage settings strategy k) k =
      ({ settings, session := later }, (Source.ofText t).stage settings strategy (k + 1)) := by
  have shifted := Source.stageShifted t settings strategy k
  have inside : k ≤ feeds ((Source.ofText t).stage settings strategy k) := shifted.feeds ▸ bound
  have blank := shifted.isBlank bound
  have verbatim := shifted.alike.isVerbatim bound
  simp only [editLine, ← blank, ← verbatim]
  split
  · rename_i both
    simp only [Bool.and_eq_true, Bool.not_eq_true'] at both
    refine ⟨session, Prod.ext rfl ?_⟩
    rw [Line.blankRest (blank ▸ both.1)]
    exact Source.blankStage bound both.2 both.1
  · rename_i other
    refine ⟨(session.start command).1, Prod.ext rfl ?_⟩
    have edited := indentLineText settings session strategy command inside
    rw [← verbatim] at edited
    refine edited.trans ?_
    cases free : (Source.ofText t).isVerbatim k with
    | true => exact Source.verbatimStage bound free
    | false =>
      have shown : ((Source.ofText t).line k).isBlank = false := by simpa [free] using other
      exact Source.movedStage bound free shown

theorem editLinesStage (settings : Settings) (session : Session) (strategy : Strategy) (t : Text)
    (command : Option String) {k : Nat} (bound : k ≤ feeds t + 1) :
    ∃ later, (List.range k).foldl (editLine strategy command) ({ settings, session }, t) =
      ({ settings, session := later }, (Source.ofText t).stage settings strategy k) := by
  induction k with
  | zero => exact ⟨session, by rw [Source.stageZero]; rfl⟩
  | succ k ih =>
    obtain ⟨before, reached⟩ := ih (by omega)
    rw [List.range_succ, List.foldl_append, reached, List.foldl_cons, List.foldl_nil]
    exact editLineStage (by omega) command

theorem editLinesReindent (settings : Settings) (session : Session) (text : Text) (strategy : Strategy)
    (command : Option String) :
    (({ settings, session } : Indenter).editLines text strategy command).2 =
      (({ settings, session } : Indenter).reindent text (some strategy)).2.value := by
  obtain ⟨later, last⟩ := editLinesStage settings session strategy text command (Nat.le_refl _)
  rw [editLines, Text.linesLength, last, Source.stageLast]
  rfl

end Indenter
end Indentation
