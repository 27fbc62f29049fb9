import Indentation.Proofs.Reindent
import Indentation.Proofs.RunOns
import Mathlib.Tactic.MkIffOfInductiveProp

/-! Lines that belong to their block. Closing brackets and clauses of a match continue no statement, and
the rules for brackets, enumerators, forms and lists pass them over, so the block decides where they
stand, unless the rule of bodies is faster. -/
namespace Indentation
open Lexer (feeds)

namespace Outline
variable {o : Outline} {s : Strategy} {i b : Nat}

def blockAnchor (o : Outline) (settings : Settings) (b : Nat) : Anchor :=
  if o.isLineHead b then .word b else o.statementAnchor settings b

def bodyAnchor (o : Outline) (settings : Settings) (intro : Nat) : Anchor :=
  if o.isKeyword intro .if_ && settings.alignForms then .word (Reading.ifChain o intro)
  else o.statementAnchor settings intro

theorem closingKind (closing : o.isClosing i = true) : ∃ b, o.kind? i = some (.closing b) := by
  obtain ⟨k, kind, closes⟩ : ∃ k, o.kind? i = some k ∧ k.isClosing = true := by
    simpa [isClosing, Option.any_eq_true] using closing
  cases k with
  | closing b => exact ⟨b, kind⟩
  | _ => contradiction

theorem caseKind (clause : o.isCaseClause i = true) : o.kind? i = some (.keyword .case_) := by
  simp only [isCaseClause, isKeyword, Bool.and_eq_true, beq_iff_eq] at clause
  exact clause.1.1

theorem isRunOnNever (stops : ∀ groups previous word, o.words[i]? = some word →
    o.continues groups s i previous word = false) : o.isRunOn s i = false := by
  unfold isRunOn continuesAt
  split
  · rfl
  · split
    · rename_i found
      exact stops _ _ _ found
    · rfl

theorem isRunOnClosing (closing : o.isClosing i = true) : o.isRunOn s i = false := by
  refine isRunOnNever fun groups previous word found => ?_
  have kind : word.kind.isClosing = true := by simpa [isClosing, kind?, found] using closing
  simp [continues, kind]

theorem isRunOnStarting {k : Keyword} (kind : o.kind? i = some (.keyword k))
    (starts : (Kind.keyword k).startsStatement = true) (group : o.inGroup i = false) :
    o.isRunOn s i = false := by
  refine isRunOnNever fun groups previous word found => ?_
  have same : word.kind = .keyword k := by simpa [kind?, found] using kind
  rw [Bool.eq_false_iff]
  intro run
  obtain ⟨_, ⟨_, grouped⟩ | ⟨other, _⟩⟩ := continuesIff.mp run
  · rw [group] at grouped
    contradiction
  · rw [same, starts] at other
    contradiction

theorem inGroupBrace (encloses : o.enclosing? i = some b) (brace : o.opens b .brace = true) :
    o.inGroup i = false := by
  have kind : o.kind? b = some (.opening .brace) := by simpa [opens] using brace
  simp [inGroup, encloses, opens, kind]

theorem partnerClosing (closing : o.isClosing i = true) (answers : o.partner? i = some b) :
    o.enclosing? i = some b := by
  rw [partner?, if_pos closing] at answers
  obtain ⟨opener, found, rfl⟩ := Option.map_eq_some_iff.mp answers
  exact openerEncloses found

theorem valueLeadNonneg (o : Outline) (settings : Settings) (begin_ end_ : Nat) :
    0 ≤ (o.valueLead settings begin_ end_).size settings := by
  unfold valueLead
  split
  · split
    · exact Int.natCast_nonneg _
    · exact Int.le_refl 0
  · exact Int.le_refl 0

end Outline

namespace Reading
variable {r : Reading} {g : Gap} {i b : Nat}

theorem openBracketOther (word : g.word? = some i) (other : r.outline.isOpening i = false) :
    r.openBracket g = none := by
  unfold openBracket
  rw [word]
  cases i with
  | zero => rfl
  | succ p => simp [other]

theorem formOther (word : g.word? = some i) (other : r.formOf? i = none) : r.form g = none := by
  simp [form, word, other]

theorem runOnOther (word : g.word? = some i) (other : r.outline.isRunOn r.strategy i = false) :
    r.runOn g = none := by
  have start : r.outline.runOnStart r.strategy i = i := by
    rw [Outline.runOnStart, if_neg (by simp [other])]
  simp [runOn, word, start]

theorem firstLate (bracket : r.openBracket g = none) (enumerator : r.enumerator g = none)
    (form : r.form g = none) (element : r.element g = none) (runOn : r.runOn g = none) :
    r.first g = (r.body g).or (r.block g) := by
  simp only [first, named, List.findSome?_cons, List.findSome?_nil, bracket, enumerator, form, element,
    runOn]
  cases r.body g with
  | none => cases r.block g <;> rfl
  | some found => rfl

theorem firstClosing (word : g.word? = some i) (closing : r.outline.isClosing i = true) :
    r.first g = (r.body g).or (r.block g) := by
  obtain ⟨_, kind⟩ := Outline.closingKind closing
  refine firstLate (openBracketOther word ?_) ?_ (formOther word ?_) ?_ (runOnOther word ?_)
  · simp [Outline.isOpening, kind, Kind.isOpening]
  · simp [enumerator, word, closing]
  · simp [formOf?, kind]
  · simp [element, word, closing]
  · exact Outline.isRunOnClosing closing

theorem firstClause (word : g.word? = some i) (clause : r.outline.isCaseClause i = true)
    (encloses : r.outline.enclosing? i = some b) (brace : r.outline.opens b .brace = true)
    (header : r.outline.kindBefore? b ≠ some (.keyword .for_))
    (apart : r.outline.kindBefore? i ≠ some (.mark .comma)) :
    r.first g = (r.body g).or (r.block g) := by
  have kind := Outline.caseKind clause
  obtain rfl := wordRank word
  refine firstLate (openBracketOther word ?_) ?_ (formOther word ?_) ?_ (runOnOther word ?_)
  · simp [Outline.isOpening, kind, Kind.isOpening]
  · simp [enumerator, encloses, header]
  · simp [formOf?, kind]
  · simp [element, apart]
  · exact Outline.isRunOnStarting kind rfl (Outline.inGroupBrace encloses brace)

def blockLead (r : Reading) (b : Nat) : Shift :=
  r.outline.valueLead r.settings (r.outline.rankOf (r.outline.blockAnchor r.settings b)) b

theorem closingFound (word : g.word? = some i) (inside : g.atEnd = false)
    (closing : r.outline.isClosing i = true) (encloses : r.outline.enclosing? i = some b) :
    r.first g = match r.outline.bodyIntro? i with
      | none => some (r.outline.blockAnchor r.settings b, r.blockLead b)
      | some intro => some (r.outline.bodyAnchor r.settings intro, .level) := by
  rw [firstClosing word closing]
  obtain rfl := wordRank word
  obtain ⟨_, kind⟩ := Outline.closingKind closing
  have other : r.outline.opens g.rank .brace = false := by simp [Outline.opens, kind]
  have block : r.block g = some (r.outline.blockAnchor r.settings b, r.blockLead b) := by
    simp [block, blockStep, blockLead, inside, word, closing, encloses, Outline.blockAnchor]
  cases intro : r.outline.bodyIntro? g.rank with
  | none => simp [body, intro, block]
  | some p => simp [body, intro, word, other, Outline.bodyAnchor]

theorem clauseFound (word : g.word? = some i) (inside : g.atEnd = false)
    (clause : r.outline.isCaseClause i = true) (encloses : r.outline.enclosing? i = some b)
    (brace : r.outline.opens b .brace = true) (header : r.outline.kindBefore? b ≠ some (.keyword .for_))
    (apart : r.outline.kindBefore? i ≠ some (.mark .comma)) (plain : r.outline.bodyIntro? i = none) :
    r.first g = some (r.outline.blockAnchor r.settings b,
      .columns (r.settings.step + (r.blockLead b).size r.settings)) := by
  have other : r.outline.isClosing i = false := by
    simp [Outline.isClosing, Outline.caseKind clause, Kind.isClosing]
  rw [firstClause word clause encloses brace header apart]
  obtain rfl := wordRank word
  simp [body, plain, block, blockStep, blockLead, inside, word, other, clause, encloses,
    Outline.blockAnchor]

end Reading

namespace Source
variable {t : Text} {n i : Nat} {settings : Settings} {strategy : Strategy}

theorem rankLocate (bound : n ≤ feeds t) {anchor : Anchor}
    (precedes : (ofText t).outline.Precedes ((ofText t).outline.rankOfLine n) anchor) :
    (ofText t).rank ((ofText t).locate anchor) = (ofText t).outline.rankOf anchor := by
  cases anchor with
  | word i =>
    obtain ⟨tok, found, _⟩ := wordBefore bound precedes
    exact rankWord (Array.getElem?_eq_some_iff.mp found).1
  | margin line =>
    obtain ⟨i, before, rfl⟩ := precedes
    obtain ⟨tok, found, member, _⟩ := wordBefore bound before
    rw [locate, lineOfWord found, rankMargin (Token.lineLe member)]
    rfl

theorem courseShown (bound : n ≤ feeds t) (shown : ((ofText t).line n).isBlank = false)
    (free : (ofText t).covering? ((ofText t).line n).margin = none) :
    (ofText t).isVerbatim n = false ∧
      (ofText t).course settings strategy n = (ofText t).ruled settings strategy n := by
  have apart : (ofText t).isVerbatim n = false := by
    rw [Bool.eq_false_iff]
    intro within
    obtain ⟨tok, member, _, lines⟩ := (verbatimIff bound).mp within
    have covers := (Token.coversLine member bound shown).mp ((Token.coversStart member bound).mpr lines)
    rw [coveringSome member covers] at free
    contradiction
  refine ⟨apart, ?_⟩
  simp [course, apart, shown, free]

theorem courseRuled (bound : n ≤ feeds t) (first : (ofText t).lineCode? n = some i)
    (free : (ofText t).covering? ((ofText t).line n).margin = none) :
    (ofText t).isVerbatim n = false ∧ ((ofText t).line n).isBlank = false ∧
      (ofText t).course settings strategy n = (ofText t).ruled settings strategy n := by
  have shown : ((ofText t).line n).isBlank = false := by
    rw [lineCodeEq bound, Gap.word?] at first
    split at first
    · rename_i onWord
      obtain ⟨tok, found, line⟩ := (onWordIff t n).mp onWord
      have cut := lineCut bound found
      have same : tok.line = n := by omega
      exact same ▸ Token.shown (codeMember found)
    · contradiction
  obtain ⟨apart, ruled⟩ := courseShown bound shown free
  exact ⟨apart, shown, ruled⟩

theorem ruledWidth (bound : n ≤ feeds t) {anchor : Anchor} {step : Shift}
    (found : (Reading.mk (ofText t).outline settings strategy).first ((ofText t).outline.gapOfLine n) =
      some (anchor, step)) (own : Nat) (widths : Widths) :
    ((ofText t).ruled settings strategy n).width own widths =
      ((ofText t).column widths ((ofText t).locate anchor) + step.size settings).toNat := by
  have precedes := Reading.firstPrecedes (nested t) found
  obtain ⟨_, m, inset, measured, _, column⟩ := measureEarlier bound (step.size settings) precedes
  simp only [ruled, found, measured]
  rw [Course.width, column]

def lead (s : Source) (settings : Settings) (p q : Nat) : Int :=
  (s.outline.valueLead settings (s.rank p) (s.rank q)).size settings

@[mk_iff] structure Clause (s : Source) (b n i : Nat) : Prop where
  within : n < s.lines.size
  first : s.lineCode? n = some i
  begins : s.outline.isCaseClause i = true
  encloses : s.outline.enclosing? i = some b
  brace : s.outline.opens b .brace = true
  header : s.outline.kindBefore? b ≠ some (.keyword .for_)
  apart : s.outline.kindBefore? i ≠ some (.mark .comma)

instance (s : Source) (b n i : Nat) : Decidable (s.Clause b n i) := decidable_of_iff' _ (clause_iff s b n i)

theorem Clause.bound {b : Nat} (clause : (ofText t).Clause b n i) : n ≤ feeds t :=
  lineBound clause.within

theorem Clause.width {b : Nat} (clause : (ofText t).Clause b n i)
    (plain : (ofText t).outline.bodyIntro? i = none) (own : Nat) (widths : Widths) :
    let r : Reading := ⟨(ofText t).outline, settings, strategy⟩
    ((ofText t).ruled settings strategy n).width own widths =
      ((ofText t).column widths ((ofText t).locate (r.outline.blockAnchor settings b)) +
        (settings.step + (r.blockLead b).size settings)).toNat := by
  intro r
  have word : ((ofText t).outline.gapOfLine n).word? = some i := by
    rw [← lineCodeEq clause.bound, clause.first]
  have found : r.first _ = _ := Reading.clauseFound word rfl clause.begins clause.encloses clause.brace
    clause.header clause.apart plain
  exact ruledWidth clause.bound found own widths

end Source

namespace Indenter

theorem calculateFound (settings : Settings) (session : Session) {t : Text} {pos i : Nat}
    {strategy : Option Strategy} {anchor : Anchor} {step : Shift}
    (first : (Source.ofText t).lineCode? ((Source.ofText t).lineOf pos) = some i)
    (free : (Source.ofText t).covering? ((Source.ofText t).line ((Source.ofText t).lineOf pos)).margin = none)
    (found : (Reading.mk (Source.ofText t).outline settings (strategy.getD session.effective)).first
      ((Source.ofText t).outline.gapOfLine ((Source.ofText t).lineOf pos)) = some (anchor, step))
    (positive : 0 ≤ step.size settings) :
    ((({ settings, session } : Indenter).calculate t pos strategy).value : Int) =
      (Source.ofText t).column (Source.ofText t).widths ((Source.ofText t).locate anchor) +
        step.size settings := by
  have bound := Source.lineOfLe t pos
  obtain ⟨apart, shown, course⟩ := Source.courseRuled bound first free
  have value : (({ settings, session } : Indenter).calculate t pos strategy).value = _ :=
    Source.placementWidth bound apart shown (Source.ofText t).widths
  rw [value, course, Source.ruledWidth bound found, Int.toNat_of_nonneg (by omega)]

/- A line that begins with a closing bracket stands where its block begins, unless the words before it
introduce a body: then it is taken for that body. -/
theorem closingPlaced (settings : Settings) (session : Session) (text : Text) (pos : Nat)
    (strategy : Option Strategy) {i b : Nat}
    (first : (Source.ofText text).lineCode? ((Source.ofText text).lineOf pos) = some i)
    (closing : (Source.ofText text).outline.isClosing i = true)
    (answers : (Source.ofText text).outline.partner? i = some b)
    (free : (Source.ofText text).covering?
      ((Source.ofText text).line ((Source.ofText text).lineOf pos)).margin = none) :
    let s := Source.ofText text
    let column (anchor : Anchor) : Int := s.column s.widths (s.locate anchor)
    let value : Int := (({ settings, session } : Indenter).calculate text pos strategy).value
    let anchor := s.outline.blockAnchor settings b
    (s.outline.bodyIntro? i = none →
      value = column anchor + s.lead settings (s.locate anchor) (s.startOf b)) ∧
    ∀ intro, s.outline.bodyIntro? i = some intro →
      value = column (s.outline.bodyAnchor settings intro) + settings.step := by
  intro s column value anchor
  let r : Reading := ⟨s.outline, settings, strategy.getD session.effective⟩
  have bound := Source.lineOfLe text pos
  have word : (s.outline.gapOfLine (s.lineOf pos)).word? = some i := by
    rw [← Source.lineCodeEq bound, first]
  have encloses : s.outline.enclosing? i = some b := Outline.partnerClosing closing answers
  have found : r.first _ = _ := Reading.closingFound word rfl closing encloses
  refine ⟨fun plain => ?_, fun intro introduces => ?_⟩
  · rw [plain] at found
    have precedes := Reading.firstPrecedes (Source.nested text) found
    have earlier := (Source.nested text i b encloses).1
    obtain ⟨tok, place, _⟩ := Source.wordBefore bound (Reading.wordRank word ▸ earlier)
    have opener : s.rank (s.startOf b) = b := Source.rankWord (Array.getElem?_eq_some_iff.mp place).1
    have lead : s.lead settings (s.locate anchor) (s.startOf b) = (r.blockLead b).size settings := by
      rw [Source.lead, Source.rankLocate bound precedes, opener]
      rfl
    rw [lead]
    exact calculateFound settings session first free found (s.outline.valueLeadNonneg settings _ _)
  · rw [introduces] at found
    exact calculateFound settings session first free found (Int.natCast_nonneg _)

theorem closingPlacedValue :
    let text := "val x = try \x7b\n  1\n\x7d".toList
    let s := Source.ofText text
    let anchor := s.outline.blockAnchor {} 4
    s.lineCode? (s.lineOf 18) = some 6 ∧ s.outline.isClosing 6 = true ∧ s.outline.partner? 6 = some 4 ∧
      s.covering? (s.line (s.lineOf 18)).margin = none ∧ s.outline.bodyIntro? 6 = none ∧
      (({} : Indenter).calculate text (18 : Nat) none).value =
        s.column s.widths (s.locate anchor) + s.lead {} (s.locate anchor) (s.startOf 4) := by
  intro text s anchor
  have first : s.lineCode? (s.lineOf 18) = some 6 := by decide +kernel
  have closing : s.outline.isClosing 6 = true := by decide +kernel
  have answers : s.outline.partner? 6 = some 4 := by decide +kernel
  have free : s.covering? (s.line (s.lineOf 18)).margin = none := by decide +kernel
  have plain : s.outline.bodyIntro? 6 = none := by decide +kernel
  exact ⟨first, closing, answers, free, plain,
    (closingPlaced {} {} text 18 none first closing answers free).1 plain⟩

theorem closingTaken :
    let text := "x match \x7b\n  case A =>\n\x7d".toList
    let s := Source.ofText text
    let anchor := s.outline.blockAnchor {} 2
    s.lineCode? (s.lineOf 22) = some 6 ∧ s.outline.isClosing 6 = true ∧ s.outline.partner? 6 = some 2 ∧
      s.covering? (s.line (s.lineOf 22)).margin = none ∧
      (({} : Indenter).calculate text 22 none).value = 4 ∧
      s.column s.widths (s.locate anchor) + s.lead {} (s.locate anchor) (s.startOf 2) = 0 := by
  decide +kernel

theorem shownSettled {settings : Settings} {session : Session} {text : Text} {strategy : Option Strategy}
    {n : Nat} :
    let r := (({ settings, session } : Indenter).reindent text strategy).2.value
    let s := Source.ofText r
    n ≤ feeds r → (s.line n).isBlank = false → s.covering? (s.line n).margin = none →
      ∃ own, (s.line n).width =
        (s.ruled settings (strategy.getD session.finish.effective) n).width own s.widths := by
  intro r s bound shown free
  have value : r = _ := reindentValue settings session text strategy
  have original : n ≤ feeds text := by rwa [value, Source.stageFeeds] at bound
  have settled : (s.course settings (strategy.getD session.finish.effective) n).width (s.line n).width
      s.widths = (s.line n).width := by
    have last := @lastStageSettled settings (strategy.getD session.finish.effective) text n original
    rwa [← value] at last
  rw [(Source.courseShown bound shown free).2] at settled
  exact ⟨_, settled.symm⟩

theorem ruledSettled {settings : Settings} {session : Session} {text : Text} {strategy : Option Strategy}
    {n i : Nat} :
    let r := (({ settings, session } : Indenter).reindent text strategy).2.value
    let s := Source.ofText r
    n ≤ feeds r → s.lineCode? n = some i → s.covering? (s.line n).margin = none →
      ∃ own, (s.line n).width =
        (s.ruled settings (strategy.getD session.finish.effective) n).width own s.widths := by
  intro r s bound first free
  have shown : (s.line n).isBlank = false :=
    (@Source.courseRuled r n i settings .eager bound first free).2.1
  exact shownSettled bound shown free

/- In an indented text the clauses of a match stand in one column. Left aside are clauses that are
taken for a body, and lines that begin inside a comment. -/
theorem clausesAligned (settings : Settings) (session : Session) (text : Text) (strategy : Option Strategy) :
    let r := (({ settings, session } : Indenter).reindent text strategy).2.value
    let s := Source.ofText r
    ∀ b m n i j, s.Clause b m i → s.Clause b n j →
      s.outline.bodyIntro? i = none → s.outline.bodyIntro? j = none →
      s.covering? (s.line m).margin = none → s.covering? (s.line n).margin = none →
      (s.line m).width = (s.line n).width := by
  intro r s b m n i j here there plainHere plainThere freeHere freeThere
  obtain ⟨own, first⟩ := ruledSettled here.bound here.first freeHere
  obtain ⟨own', second⟩ := ruledSettled there.bound there.first freeThere
  rw [first, second, here.width plainHere, there.width plainThere]

theorem clausesAlignedBodies :
    let text := "x match \x7b\ncase A => f\n.g\n    case B => 2\n\x7d".toList
    let r := "x match \x7b\n  case A => f\n      .g\n  case B => 2\n\x7d".toList
    let s := Source.ofText r
    (({} : Indenter).reindent text none).2.value = r ∧
      s.Clause 2 1 3 ∧ s.Clause 2 3 9 ∧ s.outline.bodyIntro? 3 = none ∧ s.outline.bodyIntro? 9 = none ∧
      s.covering? (s.line 1).margin = none ∧ s.covering? (s.line 3).margin = none ∧
      (s.line 1).width = (s.line 3).width := by
  intro text r s
  have laid : (({} : Indenter).reindent text none).2.value = r := by decide +kernel
  have here : s.Clause 2 1 3 := by decide +kernel
  have there : s.Clause 2 3 9 := by decide +kernel
  have plain : s.outline.bodyIntro? 3 = none ∧ s.outline.bodyIntro? 9 = none := by decide +kernel
  have free : s.covering? (s.line 1).margin = none ∧ s.covering? (s.line 3).margin = none := by decide +kernel
  have aligned := clausesAligned {} {} text none
  rw [laid] at aligned
  exact ⟨laid, here, there, plain.1, plain.2, free.1, free.2,
    aligned 2 1 3 3 9 here there plain.1 plain.2 free.1 free.2⟩

theorem clausesApart :
    (let r := "x match \x7b\n  /*\n   */ case A => 1\n  case B => 2\n\x7d".toList
    let s := Source.ofText r
    (({} : Indenter).reindent "x match \x7b\n/*\n*/ case A => 1\ncase B => 2\n\x7d".toList none).2.value = r ∧
      s.Clause 2 2 3 ∧ s.Clause 2 3 7 ∧ (s.line 2).width ≠ (s.line 3).width) ∧
    (let r := "x match \x7b\n  case A =>\n    case B => 2\n\x7d".toList
    let s := Source.ofText r
    (({} : Indenter).reindent "x match \x7b\ncase A =>\ncase B => 2\n\x7d".toList none).2.value = r ∧
      s.Clause 2 1 3 ∧ s.Clause 2 2 6 ∧ (s.line 1).width ≠ (s.line 2).width) := by
  decide +kernel

end Indenter
end Indentation
