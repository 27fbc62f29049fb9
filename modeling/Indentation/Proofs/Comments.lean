import Indentation.Proofs.Reindent
import Mathlib.Tactic.MkIffOfInductiveProp

/-! Comments over several lines. A line that begins inside a comment goes where the comment takes it: with a star
in front it stands one column behind the place where the comment opens, and without one it keeps its width. -/
namespace Indentation
open Lexer (feeds)

namespace Source
variable {t : Text} {tok : Token} {n : Nat} {settings : Settings} {strategy : Strategy}

@[mk_iff] structure WithinComment (s : Source) (tok : Token) (n : Nat) : Prop where
  member : tok ∈ s.tokens
  comment : tok.kind = .comment
  within : n < s.lines.size
  shown : (s.line n).isBlank = false
  inside : tok.covers (s.line n).start = true

instance (s : Source) (tok : Token) (n : Nat) : Decidable (s.WithinComment tok n) :=
  decidable_of_iff' _ (withinComment_iff s tok n)

theorem courseCarried (line : (ofText t).WithinComment tok n) :
    (ofText t).course settings strategy n = (ofText t).carried n tok := by
  have member : tok ∈ tokenize t := List.mem_toArray.mp line.member
  have bound : n ≤ feeds t := lineBound line.within
  have start := coveringSome member line.inside
  have margin := (coveringLine bound line.shown).symm.trans start
  have free : (ofText t).isVerbatim n = false := by rw [isVerbatim, start, Option.any_some, line.comment]; rfl
  rw [course, if_neg (by simp [free]), if_neg (by simp [line.shown]), margin, Option.map_some, Option.getD_some]

theorem carriedWidth (line : (ofText t).WithinComment tok n) (own : Nat) (widths : Widths) :
    ((ofText t).carried n tok).width own widths =
      if ((ofText t).line n).body.head? = some '*' then (ofText t).column widths tok.start + 1 else own := by
  have comment : tok.isComment = true := by rw [Token.isComment, line.comment]; rfl
  rw [carried, comment, Bool.true_and]
  by_cases star : ((ofText t).line n).body.head? = some '*'
  · rw [if_pos (by rw [star]; rfl), if_pos star, Token.columnStart (List.mem_toArray.mp line.member)]
    exact Int.toNat_natCast _
  · rw [if_neg (by simpa using star), if_neg star, Course.width]

end Source

namespace Indenter
open Source (ofText)

theorem commentShape (settings : Settings) (session : Session) (text : Text) (strategy : Option Strategy) :
    let r := (({ settings, session } : Indenter).reindent text strategy).2.value
    let s := ofText r
    ∀ tok n, s.WithinComment tok n →
      (s.line n).width =
        if (s.line n).body.head? = some '*' then s.column s.widths tok.start + 1
        else ((ofText text).line n).width := by
  intro r s tok n line
  have value : r = (ofText text).stage settings _ (feeds text + 1) := reindentValue settings session text strategy
  have bound : n ≤ feeds text := by
    have within := Source.lineBound line.within
    rwa [value, Source.stageFeeds] at within
  have shifted := Source.stageShifted text settings (strategy.getD session.finish.effective) (feeds text + 1)
  have solves := @Source.lastStageSolves text settings (strategy.getD session.finish.effective) n bound
  rw [shifted.alike.courseEq bound, ← value, Source.courseCarried line, Source.carriedWidth line] at solves
  exact solves

theorem commentShapeMoved :
    let text := "\x7b\nf /* a\n* b\n\tc */ x\n\x7d".toList
    let r := "\x7b\n  f /* a\n     * b\n        c */ x\n\x7d".toList
    let s := Source.ofText r
    let tok : Token := { kind := .comment, text := "/* a\n     * b\n        c */".toList, start := 6, line := 1 }
    (({} : Indenter).reindent text none).2.value = r ∧ s.WithinComment tok 2 ∧ s.WithinComment tok 3 ∧
      s.column s.widths tok.start = 4 ∧ (s.line 2).width = 5 ∧ (s.line 3).width = 8 := by
  intro text r s tok
  have laid : (({} : Indenter).reindent text none).2.value = r := by decide +kernel
  have starred : s.WithinComment tok 2 := by decide +kernel
  have plain : s.WithinComment tok 3 := by decide +kernel
  have opens : s.column s.widths tok.start = 4 := by decide +kernel
  have star : (s.line 2).body.head? = some '*' := by decide +kernel
  have other : (s.line 3).body.head? ≠ some '*' := by decide +kernel
  have width : ((Source.ofText text).line 3).width = 8 := by decide +kernel
  have shape := commentShape {} {} text none
  rw [laid] at shape
  refine ⟨laid, starred, plain, opens, ?_, ?_⟩
  · rw [shape tok 2 starred, if_pos star, opens]
  · rw [shape tok 3 plain, if_neg other, width]

end Indenter
end Indentation
