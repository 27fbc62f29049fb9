import Indentation.Proofs.Blocks
import Indentation.Proofs.Levels

/-! Lines of a list. After a comma the rule for lists is asked fourth. Of the rules before it, the one for
enumerators gives its answer or none, and the others pass over lines that begin with neither an opening brace
nor a keyword that goes on with a form. So in an indented text the lines after commas stand under the first
element of their list. -/
namespace Indentation
open Lexer (feeds)

namespace Outline
variable {o : Outline} {p b i : Nat}

def leavesList (o : Outline) (i : Nat) : Bool :=
  o.isClosing i || o.opens i .brace ||
    [Keyword.else_, .catch_, .finally_, .yield_].any fun keyword => o.isKeyword i keyword

theorem Stacked.listOpens (stacked : o.Stacked) (comma : o.isMark p .comma = true)
    (encloses : o.enclosing? p = some b) :
    p < o.size ∧ b < p ∧ o.enclosing? (p + 1) = some b ∧ o.isClosing (b + 1) = false := by
  have kind : o.kind? p = some (.mark .comma) := by simpa [isMark] using comma
  have inside : p < o.size := kindWithin kind
  have earlier : b < p := (stacked.memberOpens (List.mem_of_head? encloses)).1
  have after : o.enclosing? (p + 1) = some b := by
    rw [enclosing?, stacked.afterOther inside (by simp [isOpening, kind, Kind.isOpening])
      (by simp [isClosing, kind, Kind.isClosing])]
    exact encloses
  have stretch := stacked.stretchInside inside after
  exact ⟨inside, earlier, after, stretch.unclosed (b + 1) (Nat.le_refl _) (by omega) stretch.level⟩

end Outline

namespace Reading
variable {r : Reading} {g : Gap} {answer : Anchor × Shift} {b p i : Nat}

theorem elementAligned (aligned : r.settings.alignParameters = true)
    (comma : r.outline.kindBefore? g.rank = some (.mark .comma))
    (encloses : r.outline.enclosing? g.rank = some b) (inside : b + 1 < r.outline.size)
    (other : r.outline.isClosing (b + 1) = false) (plain : g.word?.any r.outline.leavesList = false) :
    r.element g = some (.word (b + 1), .none) := by
  have closing : g.word?.any r.outline.isClosing = false := by
    cases word : g.word? with
    | none => rfl
    | some i =>
      rw [word, Option.any_some, Outline.leavesList, Bool.or_assoc, Bool.or_eq_false_iff] at plain
      exact plain.1
  simp [element, comma, closing, encloses, listAnchor?, listStep, aligned, inside, other]

/- Enumerators are elements of their comprehension: their rule has no other answer than the rule for lists. -/
theorem enumeratorElement (element : r.element g = some answer) :
    r.enumerator g = none ∨ r.enumerator g = some answer := by
  simp only [Reading.element] at element
  split at element
  · contradiction
  · rename_i after
    rw [Bool.or_eq_true, not_or] at after
    rw [enumerator, if_neg after.2]
    cases encloses : r.outline.enclosing? g.rank with
    | none => exact .inl rfl
    | some b =>
      rw [encloses] at element
      dsimp only at element ⊢
      split
      · exact .inr element
      · exact .inl rfl

theorem openBracketComma (comma : r.outline.kindBefore? g.rank = some (.mark .comma))
    (plain : g.word?.any r.outline.leavesList = false) : r.openBracket g = none := by
  unfold openBracket
  cases word : g.word? with
  | none => rfl
  | some i =>
    obtain rfl := wordRank word
    rw [word, Option.any_some] at plain
    cases rank : g.rank with
    | zero => rfl
    | succ p =>
      rw [rank] at comma plain
      have kind : r.outline.kind? p = some (.mark .comma) := comma
      have group : r.curriedGroup? p = none := by
        simp [curriedGroup?, Outline.opener?, Outline.isClosing, kind, Kind.isClosing]
      have brace : r.outline.opens (p + 1) .brace = false := by
        simp only [Outline.leavesList, Bool.or_eq_false_iff] at plain
        exact plain.1.2
      simp [group, brace]

theorem formPlain (plain : g.word?.any r.outline.leavesList = false) : r.form g = none := by
  cases word : g.word? with
  | none => rw [form, word]
  | some i =>
    refine formOther word ?_
    rw [word, Option.any_some] at plain
    simp only [Outline.leavesList, Outline.isKeyword, Bool.or_eq_false_iff, List.any_cons, List.any_nil,
      beq_eq_false_iff_ne] at plain
    obtain ⟨_, else_, catch_, finally_, yield_, _⟩ := plain
    rw [formOf?]
    split <;> first | contradiction | rfl

theorem firstElement (comma : r.outline.kindBefore? g.rank = some (.mark .comma))
    (plain : g.word?.any r.outline.leavesList = false) (element : r.element g = some answer) :
    r.first g = some answer := by
  have bracket := openBracketComma comma plain
  have form := formPlain plain
  simp only [first, named, List.findSome?_cons, bracket, form, element]
  rcases enumeratorElement element with declines | agrees
  · rw [declines]
  · rw [agrees]

end Reading

namespace Source
variable {t : Text} {b n : Nat}

/- Line `n` goes on with the list in the bracket that word `b` opens: it comes after a comma there, begins
outside of comments and strings, and does not leave the list. A line with a comment alone is such a line, too. -/
@[mk_iff] structure Element (s : Source) (b n : Nat) : Prop where
  within : n < s.lines.size
  shown : (s.line n).isBlank = false
  free : s.covering? (s.line n).start = none
  comma : ∃ p ∈ s.previous? (s.line n).start, s.outline.isMark p .comma = true ∧ s.outline.enclosing? p = some b
  plain : (s.lineCode? n).any s.outline.leavesList = false

instance (s : Source) (b n : Nat) : Decidable (s.Element b n) := decidable_of_iff' _ (element_iff s b n)

namespace Element
variable (line : (ofText t).Element b n)
include line

theorem bound : n ≤ feeds t := lineBound line.within

theorem answer (settings : Settings) (strategy : Strategy) (aligned : settings.alignParameters = true) :
    let r : Reading := ⟨(ofText t).outline, settings, strategy⟩
    b + 1 < r.outline.rankOfLine n ∧ r.first (r.outline.gapOfLine n) = some (.word (b + 1), .none) := by
  intro r
  obtain ⟨p, previous, mark, encloses⟩ := line.comma
  have rank : r.outline.rankOfLine n = p + 1 := by
    refine (rankStart line.bound).symm.trans ?_
    simp only [previous?, Option.mem_def] at previous
    split at previous
    · contradiction
    · rename_i found
      rw [found, Option.some.inj previous]
  obtain ⟨inside, earlier, after, other⟩ := (Outline.ofWordsStacked _ _).listOpens mark encloses
  have plain := line.plain
  rw [lineCodeEq line.bound] at plain
  have comma : r.outline.kindBefore? (r.outline.rankOfLine n) = some (.mark .comma) := by
    rw [rank, Outline.kindBefore?]
    simpa [Outline.isMark] using mark
  rw [← rank] at after
  have element : r.element (r.outline.gapOfLine n) = _ :=
    Reading.elementAligned aligned comma after (Nat.lt_of_le_of_lt earlier inside) other plain
  exact ⟨by omega, Reading.firstElement comma plain element⟩

end Element

end Source

namespace Indenter
open Source (ofText)

theorem elementsAligned (settings : Settings) (session : Session) (text : Text) (strategy : Option Strategy)
    (aligned : settings.alignParameters = true) :
    let r := (({ settings, session } : Indenter).reindent text strategy).2.value
    let s := ofText r
    (∀ b n, s.Element b n → ∃ first, s.code[b + 1]? = some first ∧
      (s.line n).width = s.column s.widths first.start) ∧
    ∀ b m n, s.Element b m → s.Element b n → (s.line m).width = (s.line n).width := by
  intro r s
  have under : ∀ b n, s.Element b n → ∃ first, s.code[b + 1]? = some first ∧
      (s.line n).width = s.column s.widths first.start := by
    intro b n line
    obtain ⟨before, answer⟩ := line.answer settings (strategy.getD session.finish.effective) aligned
    obtain ⟨first, found, _⟩ := Source.wordBefore line.bound before
    have free : s.covering? (s.line n).margin = none :=
      (Source.coveringLine line.bound line.shown).symm.trans line.free
    obtain ⟨own, settled⟩ := shownSettled line.bound line.shown free
    have step : Shift.none.size settings = 0 := rfl
    refine ⟨first, found, ?_⟩
    rw [settled, Source.ruledWidth line.bound answer, Source.locate, Source.startOfEq found, step, Int.add_zero,
      Int.toNat_natCast]
  refine ⟨under, fun b m n here there => ?_⟩
  obtain ⟨first, found, column⟩ := under b m here
  obtain ⟨second, again, column'⟩ := under b n there
  obtain rfl := Option.some.inj (found.symm.trans again)
  rw [column, column']

theorem elementsAlignedBlock :
    let text := "f(\na, \x7b\n1 \x7d,\n//\nb)".toList
    let r := "f(\n  a, \x7b\n    1 \x7d,\n  //\n  b)".toList
    let s := Source.ofText r
    (({} : Indenter).reindent text none).2.value = r ∧ s.Element 1 3 ∧ s.Element 1 4 ∧
      (∃ first, s.code[2]? = some first ∧ (s.line 4).width = s.column s.widths first.start) ∧
      (s.line 3).width = (s.line 4).width := by
  intro text r s
  have laid : (({} : Indenter).reindent text none).2.value = r := by decide +kernel
  have comment : s.Element 1 3 := by decide +kernel
  have element : s.Element 1 4 := by decide +kernel
  have aligned := elementsAligned {} {} text none rfl
  rw [laid] at aligned
  exact ⟨laid, comment, element, aligned.1 1 4 element, aligned.2 1 3 4 comment element⟩

end Indenter
end Indentation
