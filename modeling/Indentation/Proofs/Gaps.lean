import Indentation.Proofs.Anchors
import Indentation.Proofs.Covers

/-! The gap of a line. The rules look at the start of the first code token of a line, or at the margin
of a line without one. Either way the words before that place are the words of earlier lines, so the
gap is known from the outline and the number of the line. -/
namespace Indentation
open Lexer (feeds)

theorem pairwiseCut {α : Type} {l : List α} {P : α → Bool} {i : Nat} {x : α}
    (down : l.Pairwise fun x y => P y = true → P x = true) (found : l[i]? = some x) :
    P x = true ↔ i < l.countP P := by
  induction l generalizing i with
  | nil => simp at found
  | cons a l ih =>
    obtain ⟨head, tail⟩ := List.pairwise_cons.mp down
    cases first : P a with
    | true =>
      rw [List.countP_cons_of_pos first]
      cases i with
      | zero =>
        cases Option.some.inj found
        simp [first]
      | succ i =>
        rw [ih tail (by simpa using found)]
        omega
    | false =>
      have none : ∀ y ∈ a :: l, ¬ P y = true := by
        intro y member holds
        rcases List.mem_cons.mp member with rfl | later
        · simp [first] at holds
        · simp [head y later holds] at first
      rw [List.countP_eq_zero.mpr none]
      simpa using none x (List.mem_of_getElem? found)

def Outline.gapOfLine (o : Outline) (n : Nat) : Gap :=
  ⟨o.rankOfLine n, (o.words[o.rankOfLine n]?).any fun w => w.line ≤ n, false⟩

namespace Source
variable {t : Text} {tok : Token} {i n : Nat}

theorem wordsAt (t : Text) (i : Nat) :
    (ofText t).outline.words[i]? = ((ofText t).code[i]?).map Token.toWord := by
  simp [ofText, ofTokens, Outline.ofWords]

theorem nested (t : Text) : (ofText t).outline.Nested := Outline.ofWordsNested _ _

theorem codeList (t : Text) : (ofText t).code.toList = (tokenize t).filter fun tok => !tok.isComment := by
  simp [ofText, ofTokens]

theorem codeMember (found : (ofText t).code[i]? = some tok) : tok ∈ tokenize t := by
  have member : tok ∈ (ofText t).code.toList := by
    rw [← Array.getElem?_toList] at found
    exact List.mem_of_getElem? found
  rw [codeList] at member
  exact (List.mem_filter.mp member).1

theorem codeOrdered (t : Text) : (ofText t).code.toList.Pairwise fun x y => x.start < y.start := by
  rw [codeList]
  exact (Token.startsOrdered t).filter _

theorem startOfEq (found : (ofText t).code[i]? = some tok) : (ofText t).startOf i = tok.start := by
  simp [startOf, found]

theorem lineOfWord (found : (ofText t).code[i]? = some tok) : (ofText t).outline.lineOf i = tok.line := by
  simp [Outline.lineOf, wordsAt, found, Token.toWord]

theorem rankStart (bound : n ≤ feeds t) :
    (ofText t).rank ((ofText t).line n).start = (ofText t).outline.rankOfLine n := by
  have words : (ofText t).outline.words.toList = (ofText t).code.toList.map Token.toWord := by
    simp [ofText, ofTokens, Outline.ofWords]
  rw [rank, Outline.rankOfLine, ← Array.countP_toList, ← Array.countP_toList, words, List.countP_map]
  apply List.countP_congr
  intro tok member
  rw [codeList] at member
  have before := Token.startBefore (List.mem_filter.mp member).1 bound
  simpa [Token.toWord] using before

theorem rankMargin (bound : n ≤ feeds t) :
    (ofText t).rank ((ofText t).line n).margin = (ofText t).outline.rankOfLine n := by
  rw [← rankStart bound, rank, rank, ← Array.countP_toList, ← Array.countP_toList]
  apply List.countP_congr
  intro tok member
  rw [codeList] at member
  have inside := (List.mem_filter.mp member).1
  have before := Token.startBefore inside bound
  have low := ((ofText t).line n).startLeMargin
  have high := ((ofText t).line n).marginLeStop
  have reach := Token.startLeStop inside bound
  have margin := Token.marginStart inside
  simp only [decide_eq_true_iff]
  constructor
  · intro early
    by_contra late
    have same : tok.line = n := by omega
    rw [same] at margin
    omega
  · omega

theorem rankCut {p : Nat} (found : (ofText t).code[i]? = some tok) :
    tok.start < p ↔ i < (ofText t).rank p := by
  rw [← Array.getElem?_toList] at found
  have down : (ofText t).code.toList.Pairwise fun x y =>
      decide (y.start < p) = true → decide (x.start < p) = true :=
    (codeOrdered t).imp fun {x y} before => by
      simp only [decide_eq_true_iff]
      omega
  have cut := pairwiseCut down found
  rw [decide_eq_true_iff] at cut
  rw [cut, rank, Array.countP_toList]

theorem rankWord (inside : i < (ofText t).code.size) : (ofText t).rank ((ofText t).startOf i) = i := by
  have found : (ofText t).code[i]? = some (ofText t).code[i] := Array.getElem?_eq_getElem inside
  have own := rankCut (p := (ofText t).code[i].start) found
  rw [startOfEq found]
  cases i with
  | zero => omega
  | succ p =>
    have before : (ofText t).code[p]? = some (ofText t).code[p] := Array.getElem?_eq_getElem (by omega)
    have earlier := rankCut (p := (ofText t).code[p + 1].start) before
    have ordered := List.pairwise_iff_getElem.mp (codeOrdered t) p (p + 1) (by rw [Array.length_toList]; omega)
      (by rwa [Array.length_toList]) (Nat.lt_succ_self p)
    rw [Array.getElem_toList, Array.getElem_toList] at ordered
    omega

theorem lineCut (bound : n ≤ feeds t) (found : (ofText t).code[i]? = some tok) :
    tok.line < n ↔ i < (ofText t).outline.rankOfLine n := by
  rw [← rankStart bound, ← rankCut found, Token.startBefore (codeMember found) bound]

theorem rankLe (t : Text) (p : Nat) : (ofText t).rank p ≤ (ofText t).code.size := Array.countP_le_size

theorem outlineSize (t : Text) : (ofText t).outline.size = (ofText t).code.size := by
  simp [ofText, ofTokens, Outline.ofWords, Outline.size]

theorem rankInside (t : Text) (p : Nat) : (ofText t).rank p ≤ (ofText t).outline.size := by
  rw [outlineSize]
  exact rankLe t p

theorem wordBefore (bound : n ≤ feeds t) (earlier : i < (ofText t).outline.rankOfLine n) :
    ∃ tok, (ofText t).code[i]? = some tok ∧ tok ∈ tokenize t ∧ tok.line < n := by
  have size := rankLe t ((ofText t).line n).start
  rw [rankStart bound] at size
  have found : (ofText t).code[i]? = some (ofText t).code[i] := Array.getElem?_eq_getElem (by omega)
  exact ⟨_, found, codeMember found, (lineCut bound found).mpr earlier⟩

theorem rankMono {p q : Nat} (le : p ≤ q) : (ofText t).rank p ≤ (ofText t).rank q := by
  rw [rank, rank, ← Array.countP_toList, ← Array.countP_toList]
  refine List.countP_mono_left fun tok _ before => ?_
  rw [decide_eq_true_iff] at before ⊢
  omega

theorem onWordIff (t : Text) (n : Nat) :
    ((ofText t).outline.gapOfLine n).onWord = true ↔
      ∃ tok, (ofText t).code[(ofText t).outline.rankOfLine n]? = some tok ∧ tok.line ≤ n := by
  simp [Outline.gapOfLine, wordsAt, Option.any_eq_true, Token.toWord]

theorem lineCodeEq (bound : n ≤ feeds t) :
    (ofText t).lineCode? n = ((ofText t).outline.gapOfLine n).word? := by
  have first := onWordIff t n
  rw [lineCode?, next?, rankStart bound, Gap.word?]
  cases found : (ofText t).code[(ofText t).outline.rankOfLine n]? with
  | none =>
    have size := Array.getElem?_eq_none_iff.mp found
    rw [if_neg (by omega), if_neg (by simp [first, found])]
    rfl
  | some tok =>
    have size := (Array.getElem?_eq_some_iff.mp found).1
    have line := Token.startLeStop (codeMember found) bound
    simp only [found, Option.some.injEq, exists_eq_left'] at first
    by_cases here : tok.line ≤ n
    · rw [if_pos size, if_pos (first.mpr here)]
      simp [found, line.mpr here, Outline.gapOfLine]
    · rw [if_pos size, if_neg (by rw [first]; exact here)]
      simp [found, line, here]

theorem siteGap {p : Nat} (rank : (ofText t).rank p = (ofText t).outline.rankOfLine n)
    (index : ((ofText t).indexAt? p).isSome = ((ofText t).outline.gapOfLine n).onWord)
    (inside : p < t.length) : ((ofText t).site p).gap = (ofText t).outline.gapOfLine n := by
  have stop : ¬ (ofText t).stop ≤ p := by rw [stopEq]; omega
  simp only [site, rank, index, stop, decide_false]
  rfl

theorem wordRank (bound : n ≤ feeds t)
    (found : (ofText t).code[(ofText t).outline.rankOfLine n]? = some tok) :
    (ofText t).rank tok.start = (ofText t).outline.rankOfLine n ∧
      ((ofText t).line n).start ≤ tok.start := by
  have before := rankStart bound
  have after : ((ofText t).line n).start ≤ tok.start := by
    have cut := rankCut (p := ((ofText t).line n).start) found
    omega
  have more := rankMono (t := t) after
  have cut := rankCut (p := tok.start) found
  exact ⟨by omega, after⟩

theorem wordGap (bound : n ≤ feeds t)
    (found : (ofText t).code[(ofText t).outline.rankOfLine n]? = some tok) (line : tok.line ≤ n) :
    ((ofText t).site tok.start).gap = (ofText t).outline.gapOfLine n ∧
      ((ofText t).line n).start ≤ tok.start := by
  obtain ⟨rank, after⟩ := wordRank bound found
  have member := codeMember found
  have within := Token.startLt member
  have end_ := Token.stopLe member
  have onWord := (onWordIff t n).mpr ⟨tok, found, line⟩
  exact ⟨siteGap rank (by simp [indexAt?, rank, found, onWord]) (by omega), after⟩

theorem laterStart (bound : n ≤ feeds t) (none : ((ofText t).outline.gapOfLine n).onWord = false)
    (found : (ofText t).code[(ofText t).outline.rankOfLine n]? = some tok) :
    ((ofText t).line n).stop < tok.start := by
  have line := Token.startLeStop (codeMember found) bound
  have after : ¬ tok.line ≤ n := fun here => by
    simp [(onWordIff t n).mpr ⟨tok, found, here⟩] at none
  omega

theorem marginIndex (bound : n ≤ feeds t) (none : ((ofText t).outline.gapOfLine n).onWord = false) :
    ((ofText t).indexAt? ((ofText t).line n).margin).isSome = false := by
  have high := ((ofText t).line n).marginLeStop
  simp only [indexAt?, rankMargin bound]
  rw [if_neg]
  · rfl
  · rw [Option.any_eq_true]
    rintro ⟨tok, found, same⟩
    have after := laterStart bound none found
    rw [beq_iff_eq] at same
    omega

theorem marginGap (bound : n ≤ feeds t) (shown : ((ofText t).line n).isBlank = false)
    (none : ((ofText t).outline.gapOfLine n).onWord = false) :
    ((ofText t).site ((ofText t).line n).margin).gap = (ofText t).outline.gapOfLine n := by
  have high := Line.marginLtStop shown
  have inside := stopLe bound
  exact siteGap (rankMargin bound) ((marginIndex bound none).trans none.symm) (by omega)

theorem targetGap (bound : n ≤ feeds t) (shown : ((ofText t).line n).isBlank = false) :
    ((ofText t).site ((ofText t).targetOfLine n).start).gap = (ofText t).outline.gapOfLine n ∧
      ((ofText t).line n).start ≤ ((ofText t).targetOfLine n).start := by
  rw [targetOfLine, lineCodeEq bound, Gap.word?]
  cases onWord : ((ofText t).outline.gapOfLine n).onWord with
  | true =>
    obtain ⟨tok, found, line⟩ := (onWordIff t n).mp onWord
    have start : (ofText t).startOf ((ofText t).outline.gapOfLine n).rank = tok.start := startOfEq found
    simpa [start] using wordGap bound found line
  | false => exact ⟨marginGap bound shown onWord, Line.startLeMargin _⟩

theorem targetRank (bound : n ≤ feeds t) :
    (ofText t).rank ((ofText t).targetOfLine n).start = (ofText t).outline.rankOfLine n ∧
      ((ofText t).line n).start ≤ ((ofText t).targetOfLine n).start := by
  rw [targetOfLine, lineCodeEq bound, Gap.word?]
  cases onWord : ((ofText t).outline.gapOfLine n).onWord with
  | true =>
    obtain ⟨tok, found, _⟩ := (onWordIff t n).mp onWord
    have start : (ofText t).startOf ((ofText t).outline.gapOfLine n).rank = tok.start := startOfEq found
    simpa [start] using wordRank bound found
  | false => exact ⟨rankMargin bound, Line.startLeMargin _⟩

theorem targetStart (bound : n ≤ feeds t) :
    (ofText t).target ((ofText t).line n).start = (ofText t).targetOfLine n := by
  show (ofText t).targetOfLine ((ofText t).lineOf ((ofText t).line n).start) = _
  rw [lineOfStart bound]

end Source
end Indentation
