import Indentation.Proofs.LineEdit
import Indentation.Proofs.Respaced

/-! What a program says: the kinds and texts of its tokens, comments left out. Blanks in front of a line
say nothing, unless a string goes over the line end before them. So indenting one line keeps what the
program says, but for one line: the empty line behind an open string at the end of the text, which is
not known as a line of the string. -/
namespace Indentation
open Lexer (feeds tokensFrom)

namespace Text

def meaning (t : Text) : List (Kind × Text) := ((tokenize t).filter fun tok => !tok.isComment).map Token.lexeme

theorem meaningFrom (line start : Nat) (t : Text) :
    ((tokensFrom line start t).filter fun tok => !tok.isComment).map Token.lexeme = meaning t := by
  have place := Lexer.tokensFromShift 0 0 start line t
  rw [Nat.zero_add, Nat.zero_add] at place
  rw [place, List.filter_map, List.map_map]
  rfl

theorem meaningBlanks {w : Text} (blank : ∀ c ∈ w, isBlank c = true) (t : Text) :
    meaning (w ++ t) = meaning t := by
  rw [meaning, tokenize, Lexer.tokensFromBlanks _ _ blank, meaningFrom]

theorem meaningBehind {t rest : Text} {tokens : List Token} {line start : Nat}
    (reads : tokenize t = tokens ++ tokensFrom line start rest) :
    meaning t = ((tokens.filter fun tok => !tok.isComment).map Token.lexeme) ++ meaning rest := by
  rw [meaning, reads, List.filter_append, List.map_append, meaningFrom]

theorem meaningMargin {a b v w : Text} (start : lastLine a = []) (blankV : ∀ c ∈ v, isBlank c = true)
    (blankW : ∀ c ∈ w, isBlank c = true)
    (free : ∀ tok ∈ tokenize (a ++ (v ++ b)), tok.kind = .string →
      ¬ (tok.start < a.length ∧ a.length ≤ tok.stop)) :
    meaning (a ++ (w ++ b)) = meaning (a ++ (v ++ b)) := by
  obtain ⟨tokens, _, reading⟩ := Lexer.readingBehind start
  cases reading with
  | parted reads =>
    rw [meaningBehind (reads _), meaningBehind (reads _), meaningBlanks blankV, meaningBlanks blankW]
  | @waiting kind front mark p x opens split reads =>
    rcases opens.closing.1 with rfl | rfl
    · -- a comment goes on up to its mark, whatever blanks follow the line end
      have behind : ∀ z, meaning (a ++ z) = ((tokens.filter fun tok => !tok.isComment).map Token.lexeme) ++
          meaning (z.drop (Shape.through mark z)) := by
        intro z
        rw [meaningBehind ((reads z).trans (List.append_cons _ _ _)), List.filter_append]
        simp [Token.isComment, Kind.isComment]
      rw [behind, behind, opens.throughBlanks blankV, opens.throughBlanks blankW, List.drop_length_add_append,
        List.drop_length_add_append]
    · -- a string would go over the line end
      refine absurd ?_ (free _ ((reads _) ▸ List.mem_append_right tokens List.mem_cons_self) rfl)
      simp only [Token.stop, split, List.length_append, List.length_cons, List.length_nil]
      omega

end Text

theorem Source.movedMeaning {t : Text} {n : Nat} (bound : n ≤ feeds t)
    (outside : (ofText t).feedIn .string n = false) (w : Nat) :
    Text.meaning (t.take ((ofText t).line n).start ++ List.replicate w ' ' ++ t.drop ((ofText t).line n).margin) =
      t.meaning := by
  obtain ⟨a, v, b, cut⟩ := cutAt bound
  have same := Text.meaningMargin cut.start cut.blank (cut.spaces w).blank (cut.outsideStrings bound outside)
  rw [← cut.text] at same
  rw [cut.takeStart, cut.dropMargin, List.append_assoc, same]

namespace Indenter
variable {settings : Settings} {session : Session} {rules : List Rule}

theorem verbatimText {text : Text} {pos : Nat} (strategy : Option Strategy) (command : Option String)
    (verbatim : (Source.ofText text).isVerbatim ((Source.ofText text).lineOf pos) = true) :
    (({ settings, session, rules } : Indenter).indentLine text pos strategy command).2.value.text = text := by
  have read : ({ settings, session, rules } : Indenter).read text = .ok (Source.ofText text) := rfl
  have line : ((Source.ofText text).target pos).line = (Source.ofText text).lineOf pos := rfl
  simp only [indentLine, read, newColumn?, line, verbatim, if_true]

theorem indentLineMeaning (settings : Settings) (session : Session) (rules : List Rule) (text : Text)
    (pos : Nat) (strategy : Option Strategy) (command : Option String) :
    let s := Source.ofText text
    let n := s.lineOf pos
    let new := (({ settings, session, rules } : Indenter).indentLine text pos strategy command).2.value.text
    if s.feedIn .string n then
      new = text ∨ (s.line n).start = text.length ∧ ∃ w, new = text ++ List.replicate w ' '
    else new.meaning = text.meaning := by
  intro s n new
  have bound : n ≤ feeds text := Source.lineOfLe text pos
  have start : Text.lineStart text pos = (s.line n).start :=
    (congrArg Line.start (Source.lineOfPlace text pos)).symm
  have edit : new = text ∨ ∃ w, new =
      text.take (s.line n).start ++ List.replicate w ' ' ++ text.drop (s.line n).margin := by
    rw [← start]
    exact ({ settings, session, rules } : Indenter).indentLineCases text pos strategy command
  split
  · rename_i inside
    obtain ⟨tok, member, string, holds⟩ := (Source.feedInIff bound).mp inside
    rcases Source.stringFeed bound member string holds with verbatim | ends
    · exact .inl (verbatimText strategy command verbatim)
    · refine edit.imp_right fun ⟨w, moved⟩ => ⟨ends, w, ?_⟩
      have low := (s.line n).startLeMargin
      rwa [List.take_of_length_le (Nat.le_of_eq ends.symm), List.drop_of_length_le (ends ▸ low),
        List.append_nil] at moved
  · rename_i outside
    rcases edit with same | ⟨w, moved⟩
    · exact congrArg Text.meaning same
    · rw [moved]
      exact Source.movedMeaning bound (by simpa using outside) w

theorem indentLineOpenEnd :
    let text : Text := "f(\"\"\"abc\n".toList
    let new := (({} : Indenter).indentLine text 9 none (some "indent-line")).2.value.text
    (Source.ofText text).feedIn .string ((Source.ofText text).lineOf 9) = true ∧ new ≠ text ∧
      new.meaning ≠ text.meaning := by
  intro text new
  have result : new = "f(\"\"\"abc\n   ".toList := by decide +kernel
  rw [result]
  decide +kernel

end Indenter
end Indentation
