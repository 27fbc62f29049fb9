import Indentation.Proofs.Cuts
import Indentation.Proofs.Exchange
import Indentation.Proofs.Joined

/-! Other spaces before one margin. A text with other blanks in front of a line is read alike when no string
goes over the line end before the line: a lexeme in front ends before the blanks, or it is a comment that
takes them up. An open string takes them up too, and makes the empty line at the end of the text its own. -/
namespace Indentation
open Lexer (feeds tokensFrom)
open Text

theorem Level.indent {a u v : Text} (start : lastLine a = []) (indent : ∀ c ∈ u, isIndent c = true)
    (indent' : ∀ c ∈ v, isIndent c = true) : Level (a ++ u) (a ++ v) := by
  have feedless : ∀ {w : Text}, (∀ c ∈ w, isIndent c = true) → '\n' ∉ w := by
    intro w indent member
    have feed := indent _ member
    simp [isIndent] at feed
  have none : ∀ {w : Text}, (∀ c ∈ w, isIndent c = true) → trail (a ++ w) = [] := by
    intro w indent
    rw [trail, lastLineAppend a (feedless indent), start, List.nil_append]
    exact List.dropWhile_eq_nil_iff.mpr indent
  refine ⟨?_, by rw [none indent, none indent']⟩
  rw [feedsAppend, feedsAppend, feedsEqZero (feedless indent), feedsEqZero (feedless indent')]

/- Two rows of blanks in front of `b`. What follows stands as far from the margin behind the one as behind the
other, or it does not stand on the line. -/
structure Respaced (a u v b : Text) : Prop where
  start : lastLine a = []
  blank : ∀ c ∈ u, isBlank c = true
  blank' : ∀ c ∈ v, isBlank c = true
  count : feeds u = feeds v
  apart : (∀ c ∈ u, isIndent c = true) ∧ (∀ c ∈ v, isIndent c = true) ∨ firstLine b = []

theorem Token.matchesFront {a : Text} {tok : Token} (u u' : Text) (front : tok.stop ≤ a.length) :
    Token.Match (a ++ u) (a ++ u') tok tok where
  kind := rfl
  line := rfl
  word _ := rfl
  feeds := rfl
  inset := by
    have before : tok.start ≤ a.length := Nat.le_trans (Nat.le_add_right _ _) front
    rw [Token.inset, Token.inset, List.take_append_of_le_length before, List.take_append_of_le_length before]

namespace Respaced
variable {a u v b x z q : Text} (respaced : Respaced a u v b)
include respaced

theorem matchesRest (split : b = x ++ z) :
    List.Forall₂ (Token.Match (a ++ (u ++ b)) (a ++ (v ++ b)))
      (tokensFrom (feeds (a ++ (u ++ x))) (a ++ (u ++ x)).length z)
      (tokensFrom (feeds (a ++ (v ++ x))) (a ++ (v ++ x)).length z) := by
  have text : a ++ (u ++ b) = a ++ (u ++ x) ++ z := by simp [split]
  have text' : a ++ (v ++ b) = a ++ (v ++ x) ++ z := by simp [split]
  have same : feeds (a ++ u) = feeds (a ++ v) := by rw [feedsAppend, feedsAppend, respaced.count]
  rcases respaced.apart with ⟨indent, indent'⟩ | ends
  · have level := (Level.indent respaced.start indent indent').append x
    rw [List.append_assoc, List.append_assoc] at level
    exact Token.matchesBehind level text text'
  · cases x with
    | nil =>
      rw [List.append_nil] at text text' ⊢
      rw [List.append_nil]
      rw [split] at ends
      exact Token.matchesNext ends same text text'
    | cons c x =>
      obtain rfl : c = '\n' := by
        by_contra other
        rw [split, List.cons_append, firstLineCons other] at ends
        contradiction
      have level := (Level.feed same).append x
      exact Token.matchesBehind (by simpa using level) text text'

theorem matchesComment {p : Text} (place : a = p ++ (x ++ ['\n'])) {m : Nat} :
    Token.Match (a ++ (u ++ b)) (a ++ (v ++ b)) ⟨.comment, x ++ '\n' :: (u ++ b.take m), p.length, feeds p⟩
      ⟨.comment, x ++ '\n' :: (v ++ b.take m), p.length, feeds p⟩ where
  kind := rfl
  line := rfl
  word code := by contradiction
  feeds := by simp [respaced.count]
  inset := by
    have before : p.length ≤ a.length := by simp [place]
    rw [Token.inset, Token.inset, List.take_append_of_le_length before, List.take_append_of_le_length before]

theorem tokens (free : ∀ tok ∈ tokenize (a ++ (u ++ b)), tok.kind = .string →
      ¬ (tok.start < a.length ∧ a.length ≤ tok.stop)) :
    List.Forall₂ (Token.Match (a ++ (u ++ b)) (a ++ (v ++ b))) (tokenize (a ++ (u ++ b)))
      (tokenize (a ++ (v ++ b))) := by
  obtain ⟨tokens, bound, reading⟩ := Lexer.readingBehind respaced.start
  have front : List.Forall₂ (Token.Match (a ++ (u ++ b)) (a ++ (v ++ b))) tokens tokens :=
    List.forall₂_same.mpr fun tok member => Token.matchesFront _ _ (Nat.le_of_lt (bound tok member))
  cases reading with
  | parted reads =>
    have rest := respaced.matchesRest (x := []) rfl
    rw [List.append_nil, List.append_nil, feedsAppend, feedsAppend, List.length_append, List.length_append] at rest
    rw [reads, reads, Lexer.tokensFromBlanks _ _ respaced.blank, Lexer.tokensFromBlanks _ _ respaced.blank']
    exact List.rel_append front rest
  | @waiting kind opening mark p x opens split reads =>
    rcases opens.closing.1 with rfl | rfl
    · have taken : ∀ {w : Text}, (∀ c ∈ w, isBlank c = true) → tokenize (a ++ (w ++ b)) =
          tokens ++ ⟨.comment, x ++ '\n' :: (w ++ b.take (Shape.through mark b)), p.length, feeds p⟩ ::
            tokensFrom (feeds (a ++ (w ++ b.take (Shape.through mark b))))
              (a ++ (w ++ b.take (Shape.through mark b))).length (b.drop (Shape.through mark b)) := by
        intro w blank
        have text : a ++ (w ++ b.take (Shape.through mark b)) =
            p ++ (x ++ '\n' :: (w ++ b.take (Shape.through mark b))) := by simp [split]
        rw [reads, opens.throughBlanks blank, List.take_length_add_append, List.drop_length_add_append, text]
      rw [taken respaced.blank, taken respaced.blank']
      exact List.rel_append front (.cons (respaced.matchesComment split)
        (respaced.matchesRest (List.take_append_drop _ b).symm))
    · refine absurd ?_ (free _ ((reads _) ▸ List.mem_append_right tokens List.mem_cons_self) rfl)
      simp only [Token.stop, split, List.length_append, List.length_cons, List.length_nil]
      omega

end Respaced

theorem Lexer.waitingString {a : Text} {tok : Token} (start : lastLine a = []) (member : tok ∈ tokenize a)
    (string : tok.kind = .string) (reach : a.length ≤ tok.stop) (w : Nat) :
    ∃ tok ∈ tokenize (a ++ List.replicate (w + 1) ' '), tok.kind = .string ∧ tok.line < feeds a ∧
      feeds a ≤ tok.lastLine := by
  obtain ⟨tokens, front, reading⟩ := Lexer.readingBehind start
  have outside : tok ∉ tokens := fun among => absurd (front tok among) (Nat.not_lt_of_le reach)
  rw [← List.append_nil a] at member
  cases reading with
  | parted reads =>
    rw [reads, Lexer.tokensFromNil, List.append_nil] at member
    exact absurd member outside
  | @waiting kind opening mark p x opens split reads =>
    rw [reads, List.drop_nil, Lexer.tokensFromNil, List.mem_append, List.mem_singleton] at member
    obtain rfl : kind = .string := (congrArg Token.kind (member.resolve_left outside)).symm.trans string
    have spaces : ∀ c ∈ List.replicate (w + 1) ' ', isBlank c = true :=
      fun c among => List.eq_of_mem_replicate among ▸ rfl
    have through : Shape.through mark (List.replicate (w + 1) ' ') = w + 1 := by
      have through := opens.throughBlanks spaces []
      rwa [List.append_nil, List.length_replicate] at through
    have last : (x ++ '\n' :: List.replicate (w + 1) ' ').dropLast = x ++ '\n' :: List.replicate w ' ' := by
      rw [List.replicate_succ', ← List.cons_append, ← List.append_assoc, List.dropLast_concat]
    have count : feeds a = feeds p + (feeds x + 1) := by
      rw [split, feedsAppend, feedsAppend]
      rfl
    have inside : feeds x + 1 ≤ List.count '\n' (x ++ '\n' :: List.replicate w ' ') := by
      rw [List.count_append, List.count_cons_self]
      exact Nat.add_le_add_left (Nat.le_add_left _ _) _
    rw [reads]
    refine ⟨_, List.mem_append_right tokens List.mem_cons_self, rfl, ?_⟩
    rw [through, List.take_of_length_le (by simp), Token.lastLine, last, count]
    simp only
    omega

namespace Source
namespace Cut
variable {t a v b : Text} {n : Nat} (cut : Cut t n a v b)
include cut

theorem tight : (firstLine b).dropWhile isIndent = firstLine b ∧ firstLine b ≠ ['\r'] := by
  cases shown : ((ofText t).line n).isBlank with
  | true =>
    rw [cut.isBlankIff.mp shown]
    exact ⟨rfl, by simp⟩
  | false =>
    rw [← (cut.bodyEq shown).2]
    refine ⟨Line.bodyTight _, fun lone => ?_⟩
    rw [(Line.isBlankIff _).mpr (.inr lone)] at shown
    contradiction

theorem star : (((ofText t).line n).body.head? == some '*') = ((firstLine b).head? == some '*') := by
  cases shown : ((ofText t).line n).isBlank with
  | true =>
    rw [cut.isBlankIff.mp shown]
    rcases (Line.isBlankIff _).mp shown with empty | lone
    · rw [empty]
    · rw [lone]
      rfl
  | false => rw [(cut.bodyEq shown).2]

theorem spacesContent (w : Nat) : ((ofText (a ++ (List.replicate w ' ' ++ b))).line n).content =
    (Line.mk 0 (firstLine b)).moved w := by
  have line := lineAt a (List.replicate w ' ' ++ b)
  have body : (Line.mk 0 (firstLine b)).body = firstLine b := cut.tight.1
  rw [cut.count, cut.start, firstLineAppend (by simp)] at line
  rw [line, Line.moved, body]
  rfl

theorem spacesWidth (w : Nat) : ((ofText (a ++ (List.replicate w ' ' ++ b))).line n).width = w :=
  Line.movedWidth (cut.spacesContent w)

theorem spaces (w : Nat) : Cut (a ++ (List.replicate w ' ' ++ b)) n a (List.replicate w ' ') b where
  text := rfl
  start := cut.start
  count := cut.count
  blank := fun c member => List.eq_of_mem_replicate member ▸ rfl
  feedless := by simp
  margin := by
    obtain ⟨tight, other⟩ := cut.tight
    have body : (Line.mk 0 (firstLine b)).body = firstLine b := tight
    have content := cut.spacesContent w
    rw [Line.marginLength, Line.movedBody content, body, if_neg other, Line.movedLead content]

theorem respaced (w : Nat) : Respaced a v (List.replicate w ' ') b where
  start := cut.start
  blank := cut.blank
  blank' := (cut.spaces w).blank
  count := by rw [feedsEqZero cut.feedless, feedsEqZero (cut.spaces w).feedless]
  apart := by
    cases shown : ((ofText t).line n).isBlank with
    | true => exact .inr (cut.isBlankIff.mp shown)
    | false =>
      refine .inl ⟨(cut.bodyEq shown).1 ▸ Line.leadIndent _, fun c member => ?_⟩
      rw [List.eq_of_mem_replicate member]
      rfl

theorem otherContent (w : Nat) {m : Nat} (bound : m ≤ feeds t) (other : m ≠ n) :
    ((ofText t).line m).content = ((ofText (a ++ (List.replicate w ' ' ++ b))).line m).content := by
  rw [cut.text] at bound ⊢
  exact otherLine cut.feedless (cut.spaces w).feedless bound (cut.count ▸ other)

theorem feedsSpaces (w : Nat) : feeds t = feeds (a ++ (List.replicate w ' ' ++ b)) := by
  conv_lhs => rw [cut.text]
  rw [feedsAround cut.feedless, feedsAround (cut.spaces w).feedless]

theorem outsideStrings (bound : n ≤ feeds t) (outside : (ofText t).feedIn .string n = false) :
    ∀ tok ∈ tokenize (a ++ (v ++ b)), tok.kind = .string → ¬ (tok.start < a.length ∧ a.length ≤ tok.stop) := by
  rw [← cut.text]
  intro tok member string within
  have holds := (Token.holdsFeedIff member bound).mpr (by rwa [cut.startEq])
  have found := (feedInIff bound).mpr ⟨tok, member, string, holds⟩
  rw [outside] at found
  contradiction

theorem alike (w : Nat) (bound : n ≤ feeds t) (outside : (ofText t).feedIn .string n = false) :
    Alike t (a ++ (List.replicate w ' ' ++ b)) where
  feeds := cut.feedsSpaces w
  tokens := by
    have tokens := (cut.respaced w).tokens (cut.outsideStrings bound outside)
    rwa [← cut.text] at tokens
  isBlank m inside := by
    by_cases here : m = n
    · rw [here, Bool.eq_iff_iff, cut.isBlankIff, (cut.spaces w).isBlankIff]
    · refine Line.isBlankCongr ?_
      rw [Line.body, Line.body, cut.otherContent w inside here]
  star m inside := by
    by_cases here : m = n
    · rw [here, cut.star, (cut.spaces w).star]
    · rw [Line.body, Line.body, cut.otherContent w inside here]

theorem openEnd (bound : n ≤ feeds t) (inside : (ofText t).feedIn .string n = true)
    (free : (ofText t).isVerbatim n = false) : t = a ∧ v = [] ∧ b = [] := by
  obtain ⟨tok, member, string, holds⟩ := (feedInIff bound).mp inside
  have ends := (stringFeed bound member string holds).resolve_left (by simp [free])
  have length := congrArg List.length cut.text
  rw [cut.line] at ends
  simp only [List.length_append] at ends length
  have none : v = [] ∧ b = [] := ⟨List.length_eq_zero_iff.mp (by omega), List.length_eq_zero_iff.mp (by omega)⟩
  refine ⟨?_, none⟩
  rw [cut.text, none.1, none.2, List.append_nil, List.append_nil]

theorem openEndVerbatim (bound : n ≤ feeds t) (inside : (ofText t).feedIn .string n = true)
    (free : (ofText t).isVerbatim n = false) (w : Nat) :
    (ofText (a ++ (List.replicate (w + 1) ' ' ++ b))).isVerbatim n = true := by
  obtain ⟨whole, rfl, rfl⟩ := cut.openEnd bound inside free
  obtain ⟨tok, member, string, holds⟩ := (feedInIff bound).mp inside
  have reach := (Token.holdsFeedIff member bound).mp holds
  rw [cut.startEq] at reach
  rw [whole] at member
  have found := Lexer.waitingString cut.start member string reach.2 w
  rw [cut.count] at found
  have long : n ≤ feeds (a ++ List.replicate (w + 1) ' ') := by
    rw [feedsAppend, cut.count]
    exact Nat.le_add_right _ _
  rwa [List.append_nil, verbatimIff long]

end Cut
end Source
end Indentation
