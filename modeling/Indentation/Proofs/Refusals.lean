import Indentation.Proofs.LineEdit
import Indentation.Proofs.Stages
import Indentation.Query

/-! Texts that the lexer refuses. The width of a line is then measured on the text itself, from the line feed
before the offset on. It is the width that the table of lines has, which needs no tokens. -/
namespace Indentation

namespace Text

theorem lastLineReverse (a : Text) : a.reverse.takeWhile (· != '\n') = (lastLine a).reverse := by
  have whole : ∀ c ∈ (lastLine a).reverse, (c != '\n') = true := by
    intro c member
    have other : c ≠ '\n' := fun same => lastLineFeedless a (same ▸ List.mem_reverse.mp member)
    simpa using other
  rcases lastLineSplit a with same | ⟨q, split⟩
  · conv_lhs => rw [same]
    exact List.takeWhile_eq_self_iff.mpr whole
  · conv_lhs => rw [split]
    rw [List.reverse_append, List.reverse_cons, List.append_assoc, List.takeWhile_append_of_pos whole]
    simp

theorem fromLineOfPlace (t : Text) (p : Nat) : t.fromLineOf p = t.drop (lineStart t p) := by
  have clamped : t.clamp p = (t.take p).length := by
    have forward : ¬ (p : Int) < 0 := by omega
    rw [clamp, if_neg forward, Int.toNat_natCast, List.length_take]
  have front : t.take (t.take p).length = t.take p := by simp [List.take_eq_take_iff]
  rw [fromLineOf, clamped, front, lastLineReverse, List.length_reverse, lineStart]

theorem leadingWidthFold (col : Nat) (t : Text) : leadingWidth col t = (t.takeWhile isIndent).foldl advance col := by
  induction t generalizing col with
  | nil => rfl
  | cons c t ih =>
    rw [leadingWidth]
    cases indent : isIndent c with
    | true => rw [if_pos rfl, ih, List.takeWhile_cons_of_pos indent, List.foldl_cons]
    | false => rw [if_neg (by simp), List.takeWhile_cons_of_neg (by simp [indent]), List.foldl_nil]

theorem indentFirstLine (t : Text) : (firstLine t).takeWhile isIndent = t.takeWhile isIndent := by
  induction t with
  | nil => rfl
  | cons c t ih =>
    by_cases feed : c = '\n'
    · subst feed
      rfl
    · rw [firstLineCons feed, List.takeWhile_cons, List.takeWhile_cons, ih]

theorem currentWidthPlace (t : Text) (p : Nat) :
    t.currentWidth p = ((Source.ofText t).line ((Source.ofText t).lineOf p)).width := by
  rw [currentWidth, fromLineOfPlace, leadingWidthFold, ← indentFirstLine, Source.lineOfPlace]
  rfl

end Text

namespace Query

theorem indentationPlace (text : Text) (pos : Nat) :
    (ofText text).indentation ((ofText text).lineOf pos) = .ok (text.currentWidth pos) := by
  have bound := Source.lineOfLe text pos
  have size : (ofText text).widths.size = Lexer.feeds text + 1 := by simp [ofText, Source.widths]
  have entry : (ofText text).widths[(Source.ofText text).lineOf pos]? = some (text.currentWidth pos : Int) := by
    rw [Text.currentWidthPlace, ofText, Array.getElem?_map, Source.widthAt bound]
    rfl
  have line : (ofText text).lineOf pos = ((Source.ofText text).lineOf pos : Nat) := rfl
  rw [indentation, line, placeInside (by omega), Except.map, entry, Option.getD_some]

end Query

namespace Indenter

theorem refusedUnchanged (ind : Indenter) (text : Text) :
    let q := Query.ofText text
    (∀ pos : Nat, q.indentation (q.lineOf pos) = .ok (text.currentWidth pos)) ∧
      ∀ reason, ind.lexing text = .error reason → ∀ strategy,
        (∀ pos : Nat, q.indentation (q.lineOf pos) = .ok (ind.calculate text pos strategy).value) ∧
        (ind.reindent text strategy).2.value = text ∧ (ind.tryReindent text strategy).2.value = .ok text ∧
        ∀ (pos : Int) command,
          (ind.indentLine text pos strategy command).2.value = ⟨text, pos⟩ ∧
            (ind.tryIndentLine text pos strategy command).2.value = .ok ⟨text, pos⟩ := by
  intro q
  refine ⟨Query.indentationPlace text, fun reason refused strategy => ?_⟩
  have read : ind.read text = .error (.unreadable reason) := by rw [Indenter.read, refused]
  refine ⟨fun pos => ?_, ?_, ?_, fun pos command => ⟨?_, ?_⟩⟩
  · rw [calculate, read]
    exact Query.indentationPlace text pos
  · simp only [reindent, read]
  · simp only [tryReindent, read]
  · simp only [indentLine, read]
  · simp only [tryIndentLine, read]

theorem refusedUnchangedTab :
    let ind : Indenter := { lexing := fun _ => .error "cannot lex" }
    let text := "f(\n \tx".toList
    ind.lexing text = .error "cannot lex" ∧ (ind.calculate text 20 none).value = 8 ∧
      (ind.reindent text none).2.value = text ∧ (ind.indentLine text 4 none none).2.value = ⟨text, 4⟩ := by
  intro ind text
  have refused : ind.lexing text = .error "cannot lex" := rfl
  obtain ⟨column, all, _, line⟩ := (refusedUnchanged ind text).2 "cannot lex" refused none
  have table : (Query.ofText text).indentation ((Query.ofText text).lineOf 20) = .ok 8 := by decide +kernel
  have width : (ind.calculate text 20 none).value = 8 :=
    Int.ofNat.inj (Except.ok.inj ((column 20).symm.trans table))
  exact ⟨refused, width, all, (line 4 none).1⟩

end Indenter
end Indentation
