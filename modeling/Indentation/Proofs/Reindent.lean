import Indentation.Indenter
import Indentation.Proofs.Stages

/-! Indenting a whole text. The result is the last stage of the pass: a change of layout that the
lexer does not notice. Its widths solve the equations of the courses, so indenting it again changes
nothing, and texts that differ in layout only have one result. -/
namespace Indentation
open Lexer (feeds)

namespace Source

def LaidOut (s : Source) (n : Nat) (out : Text) : Prop :=
  if s.isVerbatim n then out = (s.line n).content
  else if (s.line n).isBlank then out = if (s.line n).endsWithReturn then ['\r'] else []
  else ∃ w, out = List.replicate w ' ' ++ (s.line n).content.dropWhile Text.isIndent

/- The line feed before line `n`, one place before its start, is a character of a token of the
kind. -/
def feedIn (s : Source) (kind : Kind) (n : Nat) : Bool :=
  s.tokens.any fun tok =>
    tok.kind == kind && (tok.start < (s.line n).start && (s.line n).start ≤ tok.stop)

theorem renderLaidOut (s : Source) (widths : Widths) (n : Nat) : s.LaidOut n (s.renderLine widths n) := by
  unfold LaidOut renderLine
  cases s.isVerbatim n with
  | true => simp
  | false =>
    cases shown : (s.line n).isBlank with
    | true => simp [shown]
    | false =>
      refine ⟨(widths[n]?).getD 0, ?_⟩
      simp only [shown, Line.fromMarginOf shown, Bool.false_eq_true, if_false]
      rfl

theorem feedInOf {t : Text} {tok : Token} {n : Nat} (bound : n ≤ feeds t) (member : tok ∈ tokenize t)
    (holds : tok.HoldsFeed n) : (ofText t).feedIn tok.kind n = true := by
  obtain ⟨low, high⟩ := (Token.holdsFeedIff member bound).mp holds
  have tokens : (ofText t).tokens = (tokenize t).toArray := rfl
  rw [feedIn, tokens, List.any_toArray, List.any_eq_true]
  exact ⟨tok, member, by simp [low, high]⟩

theorem feedInIff {t : Text} {kind : Kind} {n : Nat} (bound : n ≤ feeds t) :
    (ofText t).feedIn kind n = true ↔ ∃ tok ∈ tokenize t, tok.kind = kind ∧ tok.HoldsFeed n := by
  constructor
  · intro found
    have tokens : (ofText t).tokens = (tokenize t).toArray := rfl
    rw [feedIn, tokens, List.any_toArray, List.any_eq_true] at found
    obtain ⟨tok, member, within⟩ := found
    simp only [Bool.and_eq_true, beq_iff_eq, decide_eq_true_iff] at within
    exact ⟨tok, member, within.1, (Token.holdsFeedIff member bound).mpr within.2⟩
  · rintro ⟨tok, member, rfl, holds⟩
    exact feedInOf bound member holds

end Source

/- What a layout must leave alone of a token: of a comment its place, of any other also the kind, the
text and the line. -/
def Token.trace (tok : Token) : Option (Kind × Text × Nat) :=
  if tok.isComment then none else some (tok.kind, tok.text, tok.line)

theorem Shifted.traceEq {t t' : Text} (h : Shifted t t') :
    (tokenize t).map Token.trace = (tokenize t').map Token.trace := by
  refine mapAlike (fun x y twin => ?_) h.twins
  have comment : y.isComment = x.isComment := congrArg Kind.isComment twin.kind.symm
  rw [Token.trace, Token.trace, comment]
  cases code : x.isComment with
  | true => rfl
  | false => simp [twin.kind, twin.line, twin.text code]

namespace Indenter
variable {settings : Settings} {session : Session} {strategy : Strategy}

theorem reindentValue (settings : Settings) (session : Session) (t : Text) (strategy : Option Strategy) :
    (({ settings, session } : Indenter).reindent t strategy).2.value =
      (Source.ofText t).stage settings (strategy.getD session.finish.effective) (feeds t + 1) := by
  rw [Source.stageLast]
  rfl

theorem calculateValue {t : Text} {n : Nat} (bound : n ≤ feeds t)
    (free : (Source.ofText t).isVerbatim n = false) (shown : ((Source.ofText t).line n).isBlank = false) :
    (({ settings, session } : Indenter).calculate t ((Source.ofText t).line n).start (some strategy)).value =
      ((Source.ofText t).course settings strategy n).width ((Source.ofText t).line n).width
        (Source.ofText t).widths := by
  have width : ((Source.ofText t).placement Rule.builtin settings strategy _).width _ _ _ = _ :=
    Source.placementWidth bound free shown (Source.ofText t).widths
  rw [Source.widthAt bound, Option.getD_some] at width
  rw [← width, ← Source.targetStart bound]
  rfl

theorem reindentLayout (settings : Settings) (session : Session) (text : Text) (strategy : Option Strategy) :
    let r := (({ settings, session } : Indenter).reindent text strategy).2.value
    (Text.lines r).length = (Text.lines text).length ∧
      (∀ k : Fin (Text.lines text).length, ∃ out, (Text.lines r)[k.val]? = some out ∧
        (Source.ofText text).LaidOut k out) ∧
      (tokenize r).map Token.trace = (tokenize text).map Token.trace := by
  intro r
  have value : r = _ := reindentValue settings session text strategy
  have lines := Source.stageLines text settings (strategy.getD session.finish.effective) (feeds text + 1)
  rw [← value] at lines
  refine ⟨by rw [lines, Text.linesLength, List.length_map, List.length_range], fun k => ?_, ?_⟩
  · have bound : k.val < feeds text + 1 := Nat.lt_of_lt_of_eq k.isLt (Text.linesLength text)
    refine ⟨_, by rw [lines, List.getElem?_map, List.getElem?_range bound]; rfl, ?_⟩
    rw [Source.stageLine, if_pos bound]
    exact Source.renderLaidOut _ _ _
  · have shifted := Source.stageShifted text settings (strategy.getD session.finish.effective) (feeds text + 1)
    rw [← value] at shifted
    exact shifted.traceEq.symm

theorem lastStageSettled {t : Text} {n : Nat} (bound : n ≤ feeds t) :
    let s := Source.ofText ((Source.ofText t).stage settings strategy (feeds t + 1))
    (s.course settings strategy n).width (s.line n).width s.widths = (s.line n).width := by
  intro s
  have shifted := Source.stageShifted t settings strategy (feeds t + 1)
  have solves : (s.line n).width = ((Source.ofText t).course settings strategy n).width _ s.widths :=
    Source.lastStageSolves bound
  rw [← shifted.alike.courseEq bound]
  cases found : (Source.ofText t).course settings strategy n with
  | kept => rfl
  | flush =>
    rw [found, Course.width] at solves
    rw [Course.width, solves]
  | measured m inset step =>
    rw [found, Course.width] at solves
    rw [Course.width, ← solves]

theorem reindentFixed (settings : Settings) (session : Session) (text : Text) (strategy : Strategy) :
    let ind : Indenter := { settings, session }
    let r := (ind.reindent text (some strategy)).2.value
    (∀ k, k < (Text.lines r).length → (Source.ofText r).isVerbatim k = false →
      ((Source.ofText r).line k).isBlank = false →
      (ind.calculate r ((Source.ofText r).line k).start (some strategy)).value =
        ((Source.ofText r).line k).width) ∧
      (ind.reindent r (some strategy)).2.value = r := by
  intro ind r
  have value : r = (Source.ofText text).stage settings strategy (feeds text + 1) :=
    reindentValue settings session text (some strategy)
  have again : (ind.reindent r (some strategy)).2.value =
      (Source.ofText r).stage settings strategy (feeds r + 1) :=
    reindentValue settings session r (some strategy)
  have shifted := Source.stageShifted text settings strategy (feeds text + 1)
  refine ⟨fun k inside free shown => ?_, ?_⟩
  · rw [Text.linesLength] at inside
    rw [calculateValue (Nat.le_of_lt_succ inside) free shown, value]
    rw [value, Source.stageFeeds] at inside
    exact lastStageSettled (Nat.le_of_lt_succ inside)
  · rw [again, value]
    refine (Source.lastStageAlike shifted fun n bound free kept => ?_).symm
    rw [Source.lastStageSolves bound, kept]
    rfl

theorem reindentAlike (settings : Settings) (session : Session) (strategy : Option Strategy) {t t' : Text}
    (count : (Text.lines t).length = (Text.lines t').length)
    (bodies : ∀ k, k < (Text.lines t).length →
      ((Source.ofText t).line k).body = ((Source.ofText t').line k).body)
    (strings : ∀ k, k < (Text.lines t).length → (Source.ofText t).feedIn .string k = true →
      ((Source.ofText t).line k).content = ((Source.ofText t').line k).content)
    (comments : ∀ k, k < (Text.lines t).length → (Source.ofText t).feedIn .comment k = true →
      ((Source.ofText t).line k).isBlank = false → ((Source.ofText t).line k).body.head? ≠ some '*' →
      ((Source.ofText t).line k).width = ((Source.ofText t').line k).width) :
    (({ settings, session } : Indenter).reindent t strategy).2.value =
      (({ settings, session } : Indenter).reindent t' strategy).2.value := by
  rw [Text.linesLength] at count bodies strings comments
  rw [Text.linesLength] at count
  have shifted : Shifted t t' := by
    refine ⟨by omega, fun n bound => bodies n (by omega), fun n bound tok member string holds => ?_⟩
    have within := Source.feedInOf bound member holds
    rw [string] at within
    exact strings n (by omega) within
  rw [reindentValue, reindentValue]
  refine Source.lastStageAlike shifted fun n bound free kept => ?_
  obtain ⟨shown, starless, tok, member, comment, holds⟩ := Source.courseKept bound free kept
  have within := Source.feedInOf bound member holds
  rw [comment] at within
  exact comments n (by omega) within shown starless

theorem reindentAlikeMixed :
    let t := "f(/*\n  * b\n\tc */\n  \"\"\"x\n y\"\"\")".toList
    let t' := "  f(/*\n* b\n        c */\n\t\"\"\"x\n y\"\"\")".toList
    t ≠ t' ∧ (({} : Indenter).reindent t none).2.value = (({} : Indenter).reindent t' none).2.value :=
  ⟨by decide, reindentAlike {} {} none (by decide +kernel) (by decide +kernel) (by decide +kernel)
    (by decide +kernel)⟩

end Indenter
end Indentation
