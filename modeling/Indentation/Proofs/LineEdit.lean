import Indentation.Indenter
import Indentation.Proofs.Cuts

/-! What indenting one line leaves alone. The text is cut at the start of the line and after the blanks
in front of it, and the two parts are kept as they are. Of a line that holds only blanks and a carriage
return the return is taken away as well. -/
namespace Indentation
open Lexer (feeds)

namespace Text

def lineStart (t : Text) (p : Nat) : Nat := (t.take p).length - (lastLine (t.take p)).length

def lead (t : Text) : Nat := (t.takeWhile isIndent).length

def LoneReturn (t : Text) : Prop := firstLine (t.drop (lead t)) = ['\r']

instance (t : Text) : Decidable (LoneReturn t) :=
  inferInstanceAs (Decidable (firstLine (t.drop (lead t)) = ['\r']))

theorem dropLineStart (t : Text) (p : Nat) :
    t.drop (lineStart t p) = lastLine (t.take p) ++ t.drop p := by
  have tail : lastLine (t.take p) = (t.take p).drop (lineStart t p) :=
    List.suffix_iff_eq_drop.mp (lastLineSuffix (t.take p))
  have within : lineStart t p ≤ (t.take p).length := Nat.sub_le _ _
  rw [tail, ← List.drop_append_of_le_length within, List.take_append_drop]

theorem leadLine (t : Text) : lead (firstLine t) = lead t ∧ lead t ≤ (firstLine t).length :=
  have inside : lead t ≤ (firstLine t).length := Shape.spanBefore (by decide) t
  ⟨(Shape.spanSteady isIndent).onLine inside, inside⟩

end Text

namespace Line

theorem bodyDrop (l : Line) : l.body = l.content.drop l.lead.length := by
  rw [← l.leadBody, List.drop_left]

theorem marginEq (l : Line) :
    l.margin = l.start + l.lead.length + if l.body = ['\r'] then 1 else 0 := by
  have sum := l.lengthSum
  unfold margin marginLength
  split
  · rename_i lone
    rw [lone, List.length_singleton] at sum
    omega
  · rfl

end Line

namespace Source

theorem lineOfPlace (t : Text) (p : Nat) : (ofText t).line ((ofText t).lineOf p) =
    ⟨Text.lineStart t p, Text.firstLine (t.drop (Text.lineStart t p))⟩ := by
  have line := lineAt (t.take p) (t.drop p)
  rw [List.take_append_drop] at line
  rw [lineOfFeeds, line, Text.dropLineStart, Text.firstLineAppend (Text.lastLineFeedless _)]
  rfl

theorem marginOfPlace (t : Text) (p : Nat) :
    ((ofText t).line ((ofText t).lineOf p)).margin =
      Text.lineStart t p + Text.lead (t.drop (Text.lineStart t p)) +
        if Text.LoneReturn (t.drop (Text.lineStart t p)) then 1 else 0 := by
  have line := lineOfPlace t p
  generalize (ofText t).line ((ofText t).lineOf p) = l at line ⊢
  obtain ⟨length, inside⟩ := Text.leadLine (t.drop (Text.lineStart t p))
  have lead : l.lead.length = Text.lead (t.drop (Text.lineStart t p)) := by rw [line]; exact length
  have body : l.body = Text.firstLine ((t.drop (Text.lineStart t p)).drop l.lead.length) := by
    rw [← Shape.firstLineDrop (lead ▸ inside), Line.bodyDrop, line]
  rw [Line.marginEq, body, lead, line]
  rfl

end Source

namespace Indenter

theorem moveLineText (text : Text) (tokens : List Token) (pos w : Nat) (cursor : Int) :
    (moveLine (.ofTokens text tokens) ((Source.ofTokens text tokens).target pos) cursor w).text =
      text.take (Text.lineStart text pos) ++ List.replicate w ' ' ++
        text.drop ((Source.ofText text).line ((Source.ofText text).lineOf pos)).margin := by
  have start : ((Source.ofText text).line ((Source.ofText text).lineOf pos)).start = Text.lineStart text pos :=
    congrArg Line.start (Source.lineOfPlace text pos)
  rw [← start]
  rfl

theorem indentLineCases (ind : Indenter) (text : Text) (pos : Nat) (strategy : Option Strategy)
    (command : Option String) :
    let new := (ind.indentLine text pos strategy command).2.value.text
    new = text ∨ ∃ w, new = text.take (Text.lineStart text pos) ++ List.replicate w ' ' ++
      text.drop ((Source.ofText text).line ((Source.ofText text).lineOf pos)).margin := by
  intro new
  cases read : ind.lexing text with
  | error reason =>
    refine .inl ?_
    simp only [new, indentLine, Indenter.read, read]
  | ok tokens =>
    let s := Source.ofTokens text tokens
    cases column : ind.newColumn? s (strategy.getD (ind.session.start command).1.effective) (s.target pos) with
    | none =>
      refine .inl ?_
      simp only [new, indentLine, Indenter.read, read, s, column]
    | some found =>
      refine .inr ⟨found.value, ?_⟩
      simp only [new, indentLine, Indenter.read, read, s, column]
      exact moveLineText text tokens pos found.value pos

theorem indentLineFrame (ind : Indenter) (text : Text) (pos : Nat) (strategy : Option Strategy)
    (command : Option String) :
    let start := Text.lineStart text pos
    let rest := text.drop start
    let new := (ind.indentLine text pos strategy command).2.value.text
    new = text ∨ ∃ w, new = text.take start ++ List.replicate w ' ' ++
      text.drop (start + Text.lead rest + if Text.LoneReturn rest then 1 else 0) := by
  intro start rest new
  have cases := ind.indentLineCases text pos strategy command
  rw [Source.marginOfPlace] at cases
  exact cases

/- The carriage return of a blank line is lost, which no row of spaces can make good. -/
theorem indentLineReturn :
    let text := "f(\r\n\r\n)\r\n".toList
    let start := Text.lineStart text 4
    let new := (({} : Indenter).indentLine text 4 none (some "indent-line")).2.value.text
    new ≠ text ∧ ∀ w, new ≠ text.take start ++ List.replicate w ' ' ++
      text.drop (start + Text.lead (text.drop start)) := by
  intro text start new
  have result : new = "f(\r\n  \n)\r\n".toList := by decide +kernel
  refine ⟨by rw [result]; decide, fun w same => ?_⟩
  have returns : new.count '\r' = 2 := by rw [result]; decide
  have kept : (text.take start).count '\r' +
      (text.drop (start + Text.lead (text.drop start))).count '\r' = 3 := by decide
  have spaces : (List.replicate w ' ').count '\r' = 0 := by simp [List.count_replicate]
  rw [same, List.count_append, List.count_append, spaces] at returns
  omega

end Indenter
end Indentation
