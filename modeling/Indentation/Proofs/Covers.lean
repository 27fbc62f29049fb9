import Indentation.Placement.Pass
import Indentation.Proofs.Margins
import Mathlib.Data.List.Find
import Mathlib.Data.List.Pairwise

/-! Tokens over lines. A token begins on a line and reaches over the line feeds it holds; whether it
covers the start or the margin of a later line is said by these two numbers, without an offset. Only
comments and strings reach over a line feed, and they end at a visible character or with the text. -/
namespace Indentation
open Lexer (feeds)
open Text

namespace Token
variable {t : Text} {tok : Token} {n : Nat}

/- The line feed before line `n` belongs to the token. -/
def HoldsFeed (tok : Token) (n : Nat) : Prop := tok.line < n ∧ n ≤ tok.line + feeds tok.text

instance (tok : Token) (n : Nat) : Decidable (tok.HoldsFeed n) :=
  inferInstanceAs (Decidable (tok.line < n ∧ n ≤ tok.line + feeds tok.text))

def inset (tok : Token) (t : Text) : Nat := (Text.trail (t.take tok.start)).length

theorem coversIff {p : Nat} : tok.covers p = true ↔ tok.start < p ∧ p < tok.stop := by
  rw [covers, Bool.and_eq_true, decide_eq_true_iff, decide_eq_true_iff]

theorem stopLe (member : tok ∈ tokenize t) : tok.stop ≤ t.length := by
  obtain ⟨a, b, rfl, at_⟩ := between member
  simp only [stop, at_.start, List.length_append]
  omega

theorem startLt (member : tok ∈ tokenize t) : tok.start < tok.stop := by
  obtain ⟨a, b, _, at_⟩ := between member
  obtain ⟨c, y, text, _⟩ := at_.visible
  simp [stop, text]

theorem startsOrdered (t : Text) : (tokenize t).Pairwise fun x y => x.start < y.start :=
  (apart t).imp_of_mem fun {x y} inX _ before => by
    have some := startLt inX
    omega

theorem lastLineLe (tok : Token) : tok.lastLine ≤ tok.line + feeds tok.text :=
  Nat.add_le_add_left ((List.dropLast_sublist _).count_le _) _

theorem feedsStart (member : tok ∈ tokenize t) : feeds (t.take tok.start) = tok.line := by
  obtain ⟨a, b, rfl, at_⟩ := between member
  rw [at_.start, at_.line, List.append_assoc, List.take_left]

theorem lineLe (member : tok ∈ tokenize t) : tok.line ≤ feeds t := by
  rw [← feedsStart member]
  exact Source.feedsTake t tok.start

theorem feedsStop (member : tok ∈ tokenize t) :
    feeds (t.take tok.stop) = tok.line + feeds tok.text := by
  obtain ⟨a, b, rfl, at_⟩ := between member
  rw [stop, at_.start, ← List.length_append, List.take_left, feedsAppend, at_.line]

theorem feedsLast (member : tok ∈ tokenize t) : feeds (t.take (tok.stop - 1)) = tok.lastLine := by
  obtain ⟨a, b, rfl, at_⟩ := between member
  obtain ⟨c, y, text, _⟩ := at_.visible
  obtain ⟨z, d, last⟩ : ∃ z d, tok.text = z ++ [d] :=
    (List.eq_nil_or_concat' tok.text).resolve_left (by simp [text])
  have before : tok.stop - 1 = (a ++ z).length := by
    simp only [stop, at_.start, last, List.length_append, List.length_singleton]
    omega
  have split : a ++ tok.text ++ b = a ++ z ++ ([d] ++ b) := by simp [last]
  rw [before, split, List.take_left, feedsAppend, lastLine, at_.line, last, List.dropLast_concat]
  rfl

theorem startBefore (member : tok ∈ tokenize t) (bound : n ≤ feeds t) :
    tok.start < ((Source.ofText t).line n).start ↔ tok.line < n := by
  have start := Source.startLe bound tok.start
  rw [feedsStart member] at start
  omega

theorem shown (member : tok ∈ tokenize t) : ((Source.ofText t).line tok.line).isBlank = false := by
  obtain ⟨a, b, rfl, at_⟩ := between member
  obtain ⟨c, y, text, visible⟩ := at_.visible
  have shown := Source.shownVisible a visible (y ++ b)
  rw [at_.line, text, List.append_assoc, List.cons_append]
  exact shown

theorem marginStart (member : tok ∈ tokenize t) :
    ((Source.ofText t).line tok.line).margin + tok.inset t = tok.start := by
  obtain ⟨a, b, rfl, at_⟩ := between member
  obtain ⟨c, y, text, visible⟩ := at_.visible
  rw [inset, at_.start, at_.line, List.append_assoc, List.take_left, text]
  exact Source.marginVisible a visible (y ++ b)

theorem columnStart (member : tok ∈ tokenize t) (widths : Widths) :
    (Source.ofText t).column widths tok.start = (widths[tok.line]?).getD 0 + tok.inset t := by
  obtain ⟨a, b, rfl, at_⟩ := between member
  obtain ⟨c, y, text, visible⟩ := at_.visible
  rw [inset, at_.start, at_.line, List.append_assoc, List.take_left, text]
  exact Source.columnVisible a visible (y ++ b) widths

theorem startLeStop (member : tok ∈ tokenize t) (bound : n ≤ feeds t) :
    tok.start ≤ ((Source.ofText t).line n).stop ↔ tok.line ≤ n := by
  constructor
  · intro inside
    by_contra later
    have after := Source.stopLtStart (t := t) (Nat.lt_of_not_le later) (lineLe member)
    have margin := marginStart member
    have start := ((Source.ofText t).line tok.line).startLeMargin
    omega
  · intro before
    rcases Nat.lt_or_eq_of_le before with earlier | rfl
    · have start := (startBefore member bound).mpr earlier
      unfold Line.stop
      omega
    · obtain ⟨a, b, rfl, at_⟩ := between member
      have line := Source.lineAt a (tok.text ++ b)
      have length := Source.lastLineLe a
      rw [← List.append_assoc, ← at_.line] at line
      simp only [line, Line.stop, at_.start, List.length_append]
      omega

theorem coversStart (member : tok ∈ tokenize t) (bound : n ≤ feeds t) :
    tok.covers ((Source.ofText t).line n).start = true ↔ tok.line < n ∧ n ≤ tok.lastLine := by
  have start := startBefore member bound
  have last := Source.startLe bound (tok.stop - 1)
  rw [feedsLast member] at last
  have some := startLt member
  rw [coversIff, start, ← last]
  omega

theorem holdsFeedIff (member : tok ∈ tokenize t) (bound : n ≤ feeds t) :
    tok.HoldsFeed n ↔
      tok.start < ((Source.ofText t).line n).start ∧ ((Source.ofText t).line n).start ≤ tok.stop := by
  rw [startBefore member bound, Source.startLe bound, feedsStop member, HoldsFeed]

theorem multiline (member : tok ∈ tokenize t) (holds : tok.HoldsFeed n) :
    (tok.kind = .comment ∨ tok.kind = .string) ∧
      (tok.stop = t.length ∨
        ∃ a c b, t = a ++ c :: b ∧ a.length + 1 = tok.stop ∧ isBlank c = false ∧
          feeds a = tok.line + feeds tok.text) := by
  obtain ⟨a, b, rfl, at_⟩ := between member
  have feed : '\n' ∈ tok.text := by
    by_contra feedless
    have none := feedsEqZero feedless
    have both := holds
    rw [HoldsFeed, none] at both
    omega
  obtain ⟨c, y, text, visible⟩ := at_.visible
  have some : firstLine (tok.text ++ b) ≠ [] := by
    simp [text, firstLineCons (Lexer.blankEqFalse visible).1]
  have taken : (tok.text ++ b).take (Shape.first (tok.text ++ b)).2 = tok.text := by
    rw [at_.length, List.take_left]
  obtain ⟨kinds, ends⟩ := Shape.firstMultiline some (by rwa [taken])
  refine ⟨?_, ?_⟩
  · rw [at_.kind]
    rcases kinds with shape | shape
    · exact .inl (by rw [shape]; rfl)
    · exact .inr (by rw [shape]; rfl)
  · rw [taken, at_.length] at ends
    rcases ends with all | ⟨z, d, split, shown⟩
    · refine .inl ?_
      simp only [stop, at_.start, List.length_append] at all ⊢
      omega
    · refine .inr ⟨a ++ z, d, b, by simp [split], ?_, shown, ?_⟩
      · simp only [stop, at_.start, split, List.length_append, List.length_singleton]
        omega
      · have other := (Lexer.blankEqFalse shown).1
        rw [split, feedsAppend, feedsAppend, feedsCons other, at_.line]
        rfl

/- A line with something on it is covered at its margin by the tokens that hold the line feed before
it: blanks in front of the margin end no such token. -/
theorem coversMargin (member : tok ∈ tokenize t) (bound : n ≤ feeds t)
    (shown : ((Source.ofText t).line n).isBlank = false) :
    tok.covers ((Source.ofText t).line n).margin = true ↔ tok.HoldsFeed n := by
  have low := ((Source.ofText t).line n).startLeMargin
  have high := Line.marginLtStop shown
  rw [coversIff]
  constructor
  · rintro ⟨before, after⟩
    have line : tok.line ≤ n := (startLeStop member bound).mp (by omega)
    have other : tok.line ≠ n := by
      rintro rfl
      have margin := marginStart member
      omega
    have start := (startBefore member bound).mpr (by omega)
    exact (holdsFeedIff member bound).mpr ⟨start, by omega⟩
  · intro holds
    have start := ((holdsFeedIff member bound).mp holds).1
    refine ⟨by omega, ?_⟩
    rcases (multiline member holds).2 with ends | ⟨a, c, b, rfl, last, visible, count⟩
    · have inside := Source.stopLe bound
      omega
    · have margin := Source.marginVisible a visible b
      rcases Nat.lt_or_eq_of_le holds.2 with earlier | same
      · have after := Source.stopLtStart (t := a ++ c :: b) (m := n) (n := feeds a) (by omega)
          (by rw [feedsAppend]; omega)
        have from_ := ((Source.ofText (a ++ c :: b)).line (feeds a)).startLeMargin
        omega
      · rw [count, ← same] at margin
        omega

theorem coversLine (member : tok ∈ tokenize t) (bound : n ≤ feeds t)
    (shown : ((Source.ofText t).line n).isBlank = false) :
    tok.covers ((Source.ofText t).line n).start = true ↔ tok.covers ((Source.ofText t).line n).margin = true := by
  constructor
  · intro covers
    have lines := (coversStart member bound).mp covers
    have reach := tok.lastLineLe
    exact (coversMargin member bound shown).mpr ⟨lines.1, by omega⟩
  · intro covers
    have start := (holdsFeedIff member bound).mp ((coversMargin member bound shown).mp covers)
    have low := ((Source.ofText t).line n).startLeMargin
    rw [coversIff] at covers ⊢
    omega

theorem coverUnique {x y : Token} {p : Nat} (inX : x ∈ tokenize t) (inY : y ∈ tokenize t)
    (coversX : x.covers p = true) (coversY : y.covers p = true) : x = y := by
  have either : (tokenize t).Pairwise fun x y => x.stop ≤ y.start ∨ y.stop ≤ x.start := (apart t).imp .inl
  have symm : Std.Symm fun x y : Token => x.stop ≤ y.start ∨ y.stop ≤ x.start := ⟨fun _ _ => .symm⟩
  by_contra other
  have disjoint := either.forall inX inY other
  rw [coversIff] at coversX coversY
  omega

end Token

namespace Source
variable {t : Text} {tok : Token} {n : Nat}

theorem coveringEq (t : Text) (p : Nat) :
    (ofText t).covering? p = (tokenize t).find? fun tok => tok.covers p := by
  simp [covering?, ofText, ofTokens]

theorem coveringSome {p : Nat} (member : tok ∈ tokenize t) (covers : tok.covers p = true) :
    (ofText t).covering? p = some tok := by
  rw [coveringEq]
  cases found : (tokenize t).find? fun tok => tok.covers p with
  | none => exact absurd covers (List.find?_eq_none.mp found tok member)
  | some other =>
    have covers' : other.covers p = true := by simpa using List.find?_some found
    rw [Token.coverUnique (List.mem_of_find?_eq_some found) member covers' covers]

theorem coveringIff {p : Nat} : (ofText t).covering? p = some tok ↔ tok ∈ tokenize t ∧ tok.covers p = true := by
  constructor
  · intro found
    rw [coveringEq] at found
    exact ⟨List.mem_of_find?_eq_some found, by simpa using List.find?_some found⟩
  · rintro ⟨member, covers⟩
    exact coveringSome member covers

theorem coveringLine (bound : n ≤ feeds t) (shown : ((ofText t).line n).isBlank = false) :
    (ofText t).covering? ((ofText t).line n).start = (ofText t).covering? ((ofText t).line n).margin := by
  rw [coveringEq, coveringEq]
  apply List.find?_congr
  intro tok member
  rw [Bool.eq_iff_iff]
  exact Token.coversLine member bound shown

theorem verbatimIff (bound : n ≤ feeds t) :
    (ofText t).isVerbatim n = true ↔
      ∃ tok ∈ tokenize t, tok.kind = .string ∧ tok.line < n ∧ n ≤ tok.lastLine := by
  rw [isVerbatim, Option.any_eq_true]
  constructor
  · rintro ⟨tok, found, kind⟩
    obtain ⟨member, covers⟩ := coveringIff.mp found
    exact ⟨tok, member, by simpa using kind, (Token.coversStart member bound).mp covers⟩
  · rintro ⟨tok, member, kind, lines⟩
    exact ⟨tok, coveringSome member ((Token.coversStart member bound).mpr lines), by simpa using kind⟩

theorem coveringMargin (bound : n ≤ feeds t) (shown : ((ofText t).line n).isBlank = false) :
    (ofText t).covering? ((ofText t).line n).margin =
      (tokenize t).find? fun tok => tok.HoldsFeed n := by
  rw [coveringEq]
  apply List.find?_congr
  intro tok member
  rw [Bool.eq_iff_iff, decide_eq_true_iff, Token.coversMargin member bound shown]

theorem coveredComment (bound : n ≤ feeds t) (shown : ((ofText t).line n).isBlank = false)
    (free : (ofText t).isVerbatim n = false)
    (found : (ofText t).covering? ((ofText t).line n).margin = some tok) :
    tok ∈ tokenize t ∧ tok.kind = .comment ∧ tok.HoldsFeed n := by
  obtain ⟨member, covers⟩ := coveringIff.mp found
  have holds := (Token.coversMargin member bound shown).mp covers
  refine ⟨member, ?_, holds⟩
  rcases (Token.multiline member holds).1 with comment | string
  · exact comment
  · have early := (Token.coversLine member bound shown).mpr covers
    have verbatim := (verbatimIff bound).mpr ⟨tok, member, string, (Token.coversStart member bound).mp early⟩
    rw [free] at verbatim
    contradiction

theorem stringFeed (bound : n ≤ feeds t) (member : tok ∈ tokenize t) (string : tok.kind = .string)
    (holds : tok.HoldsFeed n) : (ofText t).isVerbatim n = true ∨ ((ofText t).line n).start = t.length := by
  obtain ⟨before, reach⟩ := (Token.holdsFeedIff member bound).mp holds
  rcases Nat.lt_or_eq_of_le reach with inside | ends
  · have covers := Token.coversIff.mpr ⟨before, inside⟩
    exact .inl ((verbatimIff bound).mpr ⟨tok, member, string, (Token.coversStart member bound).mp covers⟩)
  · refine .inr ?_
    rcases (Token.multiline member holds).2 with all | ⟨a, c, b, rfl, last, _, count⟩
    · exact ends.trans all
    · have early := (startLe bound a.length).mpr (by rw [List.take_left, count]; exact holds.2)
      omega

theorem contentEnd (bound : n ≤ feeds t) (ends : ((ofText t).line n).start = t.length) :
    ((ofText t).line n).content = [] := by
  have inside := stopLe bound
  rw [Line.stop] at inside
  exact List.eq_nil_of_length_eq_zero (by omega)

end Source
end Indentation
