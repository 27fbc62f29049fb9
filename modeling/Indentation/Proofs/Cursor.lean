import Indentation.Proofs.Alone
import Indentation.Proofs.Respaced

/-! Indenting one line, with the cursor. The cursor stays on its line and in front of the same text, or goes to
the margin when it stood before the margin. Indenting the line again changes neither the text nor the cursor:
either the line has its column already, or its spaces have become part of a string. -/
namespace Indentation
open Lexer (feeds)
open Text (feedsAppend feedsEqZero)

theorem Course.widthAgain (c : Course) (own : Nat) (widths : Widths) :
    c.width (c.width own widths) widths = c.width own widths := by
  cases c <;> rfl

namespace Source
variable {t a v b : Text} {n : Nat} {settings : Settings} {strategy : Strategy}

def column? (s : Source) (settings : Settings) (strategy : Strategy) (n : Nat) : Option Nat :=
  if s.isVerbatim n then none
  else some ((s.placement Rule.builtin settings strategy (s.targetOfLine n)).width s s.widths (s.targetOfLine n))

theorem verbatimCovers (bound : n ≤ feeds t) :
    (ofText t).isVerbatim n = true ↔
      ∃ tok ∈ tokenize t, tok.kind = .string ∧ tok.covers ((ofText t).line n).start = true := by
  rw [verbatimIff bound]
  exact exists_congr fun tok => and_congr_right fun member =>
    and_congr_right fun _ => (Token.coversStart member bound).symm

theorem columnSome (bound : n ≤ feeds t) (free : (ofText t).isVerbatim n = false) :
    (ofText t).column? settings strategy n =
      some (((ofText t).alone settings strategy n).width ((ofText t).line n).width (ofText t).widths) := by
  rw [column?, if_neg (by simp [free]), aloneWidth bound free, widthAt bound, Option.getD_some]

theorem columnFree {s : Source} {w : Nat} (column : s.column? settings strategy n = some w) :
    s.isVerbatim n = false := by
  rw [Bool.eq_false_iff]
  intro verbatim
  rw [column?, if_pos verbatim] at column
  contradiction

theorem columnNone {s : Source} (none : s.column? settings strategy n = none) : s.isVerbatim n = true := by
  by_contra free
  rw [column?, if_neg free] at none
  contradiction

theorem Cut.otherWidth (cut : Cut t n a v b) (w : Nat) {m : Nat} (bound : m ≤ feeds t) (other : m ≠ n) :
    (ofText t).widths[m]? = (ofText (a ++ (List.replicate w ' ' ++ b))).widths[m]? := by
  rw [widthAt bound, widthAt (cut.feedsSpaces w ▸ bound), Line.width, Line.width, Line.lead, Line.lead,
    cut.otherContent w bound other]

def movedCursor (a v : Text) (w pos : Nat) : Nat := a.length + w + (pos - (a ++ v).length)

theorem Cut.cursorFeeds (cut : Cut t n a v b) {pos : Nat} (here : feeds (t.take pos) = n) :
    feeds (b.take (pos - (a ++ v).length)) = 0 := by
  rcases Nat.lt_or_ge pos (a ++ v).length with before | behind
  · rw [Nat.sub_eq_zero_of_le before.le]
    rfl
  · have part : t.take pos = a ++ v ++ b.take (pos - (a ++ v).length) := by
      conv_lhs => rw [cut.text, ← List.append_assoc, ← Nat.add_sub_of_le behind, List.take_length_add_append]
    rw [part, feedsAppend, feedsAppend, cut.count] at here
    omega

theorem Cut.cursorLine (cut : Cut t n a v b) {pos : Nat} (here : feeds (t.take pos) = n) (w : Nat) :
    (ofText (a ++ (List.replicate w ' ' ++ b))).lineOf (movedCursor a v w pos) = n := by
  have size : a.length + w = (a ++ List.replicate w ' ').length := by simp
  rw [lineOfFeeds, movedCursor, size, ← List.append_assoc, List.take_length_add_append, feedsAppend, feedsAppend,
    cut.cursorFeeds here, feedsEqZero (cut.spaces w).feedless, cut.count, Nat.add_zero]

theorem Cut.cursorRest (cut : Cut t n a v b) {pos : Nat} (behind : (a ++ v).length ≤ pos) (w : Nat) :
    (a ++ (List.replicate w ' ' ++ b)).drop (movedCursor a v w pos) = t.drop pos := by
  have size : a.length + w = (a ++ List.replicate w ' ').length := by simp
  conv_rhs => rw [cut.text, ← List.append_assoc, ← Nat.add_sub_of_le behind, List.drop_length_add_append]
  rw [movedCursor, size, ← List.append_assoc, List.drop_length_add_append]

theorem Cut.cursorMargin (cut : Cut t n a v b) {pos : Nat} (before : pos < (a ++ v).length) (w : Nat) :
    movedCursor a v w pos = ((ofText (a ++ (List.replicate w ' ' ++ b))).line n).margin := by
  rw [(cut.spaces w).marginEq, List.length_append, List.length_replicate, movedCursor,
    Nat.sub_eq_zero_of_le before.le, Nat.add_zero]

theorem movedCursorAgain (a v : Text) (w pos : Nat) :
    movedCursor a (List.replicate w ' ') w (movedCursor a v w pos) = movedCursor a v w pos := by
  simp only [movedCursor, List.length_append, List.length_replicate]
  omega

/- A line that has been moved to its column has this column, unless the spaces are part of a string now. -/
theorem Cut.settled (cut : Cut t n a v b) (bound : n ≤ feeds t) {w : Nat}
    (column : (ofText t).column? settings strategy n = some w) :
    let moved := ofText (a ++ (List.replicate w ' ' ++ b))
    moved.column? settings strategy n = none ∨ moved.column? settings strategy n = some w := by
  intro moved
  have free := columnFree column
  have width := Option.some.inj ((columnSome bound free).symm.trans column)
  cases inside : (ofText t).feedIn .string n with
  | true =>
    cases w with
    | zero =>
      obtain ⟨whole, _, rfl⟩ := cut.openEnd bound inside free
      have same : moved = ofText t := by simp [moved, whole]
      exact .inr (same ▸ column)
    | succ w => exact .inl (if_pos (cut.openEndVerbatim bound inside free w))
  | false =>
    have alike := cut.alike w bound inside
    have bound' := alike.feeds ▸ bound
    have widths : ∀ m inset step, (ofText t).alone settings strategy n = .measured m inset step →
        (ofText t).widths[m]? = moved.widths[m]? := by
      intro m inset step measured
      have earlier := aloneEarlier bound measured
      exact cut.otherWidth w (by omega) (by omega)
    refine .inr ?_
    rw [columnSome bound' (alike.isVerbatim bound ▸ free), ← alike.aloneEq bound, cut.spacesWidth,
      ← Course.widthCongr w widths, ← width, Course.widthAgain]

end Source

namespace Indenter

theorem indentLineValue (settings : Settings) (session : Session) (text : Text) (pos : Nat) (strategy : Strategy)
    (command : Option String) :
    let s := Source.ofText text
    (({ settings, session } : Indenter).indentLine text pos (some strategy) command).2.value =
      match s.column? settings strategy (s.lineOf pos) with
      | none => ⟨text, pos⟩
      | some w => moveLine s (s.targetOfLine (s.lineOf pos)) pos w := by
  intro s
  have read : ({ settings, session } : Indenter).read text = .ok s := rfl
  have line : (s.target pos) = s.targetOfLine (s.lineOf pos) := rfl
  have same : (s.targetOfLine (s.lineOf pos)).line = s.lineOf pos := rfl
  simp only [indentLine, read, newColumn?, line, same, Source.column?]
  cases s.isVerbatim (s.lineOf pos) with
  | true => rfl
  | false => rfl

theorem moveLineCut {t a v b : Text} {n : Nat} (cut : Source.Cut t n a v b) (pos w : Nat) :
    moveLine (Source.ofText t) ((Source.ofText t).targetOfLine n) pos w =
      ⟨a ++ (List.replicate w ' ' ++ b), Source.movedCursor a v w pos⟩ := by
  have before : (a ++ v).length = a.length + v.length := List.length_append
  have cursor : (moveLine (Source.ofText t) ((Source.ofText t).targetOfLine n) pos w).cursor =
      if (pos : Int) < ((Source.ofText t).line n).margin then (((Source.ofText t).line n).start : Int) + w
      else pos + w - (((Source.ofText t).line n).margin - ((Source.ofText t).line n).start) := rfl
  refine (Edited.mk.injEq ..).mpr ⟨?_, cursor.trans ?_⟩
  · change t.take ((Source.ofText t).line n).start ++ List.replicate w ' ' ++
      t.drop ((Source.ofText t).line n).margin = _
    rw [cut.takeStart, cut.dropMargin, List.append_assoc]
  · rw [cut.marginEq, cut.startEq, Source.movedCursor]
    split <;> omega

section
variable {settings : Settings} {strategy : Strategy} {t : Text} {pos : Nat} (session : Session)
  (command : Option String)

theorem indentLineKept (none : (Source.ofText t).column? settings strategy ((Source.ofText t).lineOf pos) = none) :
    (({ settings, session } : Indenter).indentLine t pos (some strategy) command).2.value = ⟨t, pos⟩ :=
  (indentLineValue settings session t pos strategy command).trans (by rw [none])

theorem indentLineMoved {a v b : Text} {w : Nat} (cut : Source.Cut t ((Source.ofText t).lineOf pos) a v b)
    (column : (Source.ofText t).column? settings strategy ((Source.ofText t).lineOf pos) = some w) :
    (({ settings, session } : Indenter).indentLine t pos (some strategy) command).2.value =
      ⟨a ++ (List.replicate w ' ' ++ b), Source.movedCursor a v w pos⟩ := by
  rw [indentLineValue, column]
  exact moveLineCut cut pos w

end

theorem indentLineCursor (settings : Settings) (session : Session) (text : Text) (pos : Nat) (strategy : Strategy)
    (command : Option String) :
    let s := Source.ofText text
    let n := s.lineOf pos
    let new := (({ settings, session } : Indenter).indentLine text pos (some strategy) command).2.value
    let s' := Source.ofText new.text
    ∃ c : Nat, new.cursor = c ∧ s'.lineOf c = n ∧
      (if ∃ tok ∈ tokenize text, tok.kind = .string ∧ tok.covers (s.line n).start then new = ⟨text, pos⟩
       else if pos < (s.line n).margin then c = (s'.line n).margin
       else new.text.drop c = text.drop pos) ∧
      ∀ session' command',
        (({ settings, session := session' } : Indenter).indentLine new.text c (some strategy) command').2.value =
          new := by
  intro s n new s'
  have bound : n ≤ feeds text := Source.lineOfLe text pos
  have here : feeds (text.take pos) = n := (Source.lineOfFeeds text pos).symm
  obtain ⟨a, v, b, cut⟩ := Source.cutAt bound
  cases column : s.column? settings strategy n with
  | none =>
    have covers := (Source.verbatimCovers bound).mp (Source.columnNone column)
    have kept : new = ⟨text, pos⟩ := indentLineKept session command column
    clear_value new
    subst kept
    refine ⟨pos, rfl, rfl, ?_, fun session' command' => indentLineKept session' command' column⟩
    rw [if_pos covers]
  | some w =>
    have free := (Source.verbatimCovers bound).not.mp (Bool.eq_false_iff.mp (Source.columnFree column))
    have line := cut.cursorLine here w
    have moved : new = ⟨a ++ (List.replicate w ' ' ++ b), Source.movedCursor a v w pos⟩ :=
      indentLineMoved session command cut column
    clear_value new
    subst moved
    refine ⟨_, rfl, line, ?_, fun session' command' => ?_⟩
    · rw [if_neg free, cut.marginEq]
      split
      · rename_i before
        exact cut.cursorMargin before w
      · rename_i behind
        exact cut.cursorRest (Nat.le_of_not_lt behind) w
    · rcases cut.settled bound column with string | again
      · exact indentLineKept session' command' (by rw [line]; exact string)
      · refine (indentLineMoved session' command' (line.symm ▸ cut.spaces w) (by rw [line]; exact again)).trans ?_
        rw [Source.movedCursorAgain]

end Indenter
end Indentation
