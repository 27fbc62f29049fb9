import Indentation.Proofs.Reindent
import Indentation.Proofs.Shapes.Returns

/-! Carriage returns before the line feeds. A text without them and the text with them are read to matching
tokens: a lexeme that goes over lines has the returns inside, a line comment or an open string may have
one at its end, and every other return is a blank. So the lines have the same courses, and indenting the
one text gives what indenting the other gives, with the returns put in. -/
namespace Indentation
open Lexer (feeds tokensFrom)
open Text

namespace Text

def withReturns (t : Text) : Text := t.flatMap fun c => if c = '\n' then ['\r', '\n'] else [c]

variable {t : Text}

theorem returnsAppend (a b : Text) : withReturns (a ++ b) = withReturns a ++ withReturns b := List.flatMap_append

theorem returnsFeed (t : Text) : withReturns ('\n' :: t) = '\r' :: '\n' :: withReturns t := rfl

theorem returnsCons {c : Char} (other : c ≠ '\n') (t : Text) : withReturns (c :: t) = c :: withReturns t := by
  simp [withReturns, other]

theorem returnsSelf (feedless : '\n' ∉ t) : withReturns t = t := by
  induction t with
  | nil => rfl
  | cons c t ih =>
    obtain ⟨other, rest⟩ := not_or.mp (mt List.mem_cons.mpr feedless)
    rw [returnsCons (Ne.symm other), ih rest]

theorem returnsFeeds (t : Text) : feeds (withReturns t) = feeds t := by
  induction t with
  | nil => rfl
  | cons c t ih =>
    by_cases feed : c = '\n'
    · rw [feed, returnsFeed, feedsCons (by decide), feedsFeed, feedsFeed, ih]
    · rw [returnsCons feed, feedsCons feed, feedsCons feed, ih]

theorem returnsLast (a : Text) (c : Char) :
    withReturns (a ++ [c]) = if c = '\n' then withReturns a ++ ['\r', '\n'] else withReturns a ++ [c] := by
  rw [returnsAppend]
  by_cases feed : c = '\n'
  · rw [if_pos feed, feed]
    rfl
  · rw [if_neg feed, returnsCons feed]
    rfl

theorem returnsLastLine (a : Text) : lastLine (withReturns a) = lastLine a := by
  induction a using List.reverseRecOn with
  | nil => rfl
  | append_singleton a c ih =>
    rw [returnsLast, lastLineSnoc]
    split
    · have feed := lastLineFeed (withReturns a ++ ['\r']) (x := []) List.not_mem_nil
      rwa [List.append_assoc] at feed
    · rename_i other
      rw [lastLineSnoc, if_neg other, ih]

theorem returnsDropLast (t : Text) : feeds (withReturns t).dropLast = feeds t.dropLast := by
  rcases List.eq_nil_or_concat' t with rfl | ⟨a, c, rfl⟩
  · rfl
  · rw [returnsLast, List.dropLast_concat]
    split
    · rw [List.append_cons, List.dropLast_concat, feedsAppend, returnsFeeds]
      rfl
    · rw [List.dropLast_concat, returnsFeeds]

theorem returnsFirstLine (t : Text) :
    firstLine (withReturns t) = firstLine t ++ if '\n' ∈ t then ['\r'] else [] := by
  have feedless := firstLineFeedless t
  rcases firstLineSplit t with same | ⟨u, split⟩
  · have none : '\n' ∉ t := same ▸ feedless
    rw [returnsSelf none, if_neg none, List.append_nil, ← same]
  · have feed : '\n' ∈ t := by rw [split]; simp
    rw [if_pos feed]
    conv_lhs => rw [split]
    rw [returnsAppend, returnsSelf feedless, returnsFeed, firstLineAppend feedless]
    rfl

end Text

namespace Shape

theorem prefixReturns {m : Text} (feedless : '\n' ∉ m) (returnless : '\r' ∉ m) (t : Text) :
    m <+: withReturns t ↔ m <+: t := by
  induction m generalizing t with
  | nil => simp
  | cons d m ih =>
    obtain ⟨feed, feedless⟩ := not_or.mp (mt List.mem_cons.mpr feedless)
    obtain ⟨return_, returnless⟩ := not_or.mp (mt List.mem_cons.mpr returnless)
    cases t with
    | nil => rfl
    | cons c t =>
      by_cases other : c = '\n'
      · subst other
        rw [returnsFeed, List.cons_prefix_cons, List.cons_prefix_cons]
        exact ⟨fun h => absurd h.1.symm return_, fun h => absurd h.1.symm feed⟩
      · rw [returnsCons other, List.cons_prefix_cons, List.cons_prefix_cons, ih feedless returnless]

theorem throughReturns {m : Char} {ms : Text} (feedless : '\n' ∉ m :: ms) (returnless : '\r' ∉ m :: ms) (t : Text) :
    through (m :: ms) (withReturns t) = (withReturns (t.take (through (m :: ms) t))).length := by
  have feed : m ≠ '\n' := fun same => feedless (by simp [same])
  have return_ : m ≠ '\r' := fun same => returnless (by simp [same])
  induction t with
  | nil => rfl
  | cons c t ih =>
    by_cases other : c = '\n'
    · subst other
      rw [returnsFeed, through, through, through]
      simp [feed, return_, returnsFeed, ih, Nat.add_comm 1]
    · have same : (m :: ms).isPrefixOf (withReturns (c :: t)) = (m :: ms).isPrefixOf (c :: t) := by
        rw [Bool.eq_iff_iff, List.isPrefixOf_iff_prefix, List.isPrefixOf_iff_prefix,
          prefixReturns feedless returnless]
      rw [returnsCons other] at same ⊢
      rw [through, through, same]
      split
      · rename_i found
        have mark := List.prefix_iff_eq_take.mp (List.isPrefixOf_iff_prefix.mp found)
        rw [← mark, returnsSelf feedless]
      · rw [Nat.add_comm 1 (through (m :: ms) t), List.take_succ_cons, returnsCons other, List.length_cons, ih,
          Nat.add_comm]

theorem Opening.returnless {kind : Kind} {front mark : Text} (opens : Opening kind front mark) :
    '\r' ∉ front := by
  cases opens with
  | block => decide
  | triple whole =>
    have word := wordFree (d := '\r') whole (by decide) (by decide)
    simp [word]

theorem opensReturns {t : Text} (opens : Opens (withReturns t)) : Opens t := by
  obtain ⟨kind, front, mark, cs, opening, same⟩ := opens
  obtain ⟨r, begins⟩ := (prefixReturns opening.feedless opening.returnless t).mp ⟨cs, same.symm⟩
  exact ⟨kind, front, mark, r, opening, begins.symm⟩

theorem firstReturnsOpening {x u : Text} (opens : Opens (x ++ u)) (length : (first (x ++ u)).2 = x.length) :
    first (withReturns (x ++ u)) = ((first (x ++ u)).1, (withReturns x).length) := by
  obtain ⟨kind, front, mark, cs, opening, split⟩ := opens
  obtain ⟨_, blankless, ⟨m, ms, rfl⟩, _⟩ := opening.closing
  have feedless : '\n' ∉ m :: ms := fun member => absurd (blankless _ member) (by decide)
  have returnless : '\r' ∉ m :: ms := fun member => absurd (blankless _ member) (by decide)
  rw [split, opening.first] at length
  have text : x = front ++ cs.take (through (m :: ms) cs) := by
    have taken := congrArg (List.take x.length) split
    rwa [List.take_left, ← length, List.take_length_add_append] at taken
  rw [split, returnsAppend, returnsSelf opening.feedless, opening.first, opening.first,
    throughReturns feedless returnless, text, returnsAppend, returnsSelf opening.feedless, List.length_append]

/- A lexeme is read with the returns put in, or it is a comment or a string that ends its line and takes
the return of the line with it. -/
theorem firstReturns {x u : Text} (shown : firstLine (x ++ u) ≠ []) (plain : ¬ ['\\', '\n'] <:+: x ++ u)
    (length : (first (x ++ u)).2 = x.length) :
    first (withReturns x ++ withReturns u) = ((first (x ++ u)).1, (withReturns x).length) ∨
      '\n' ∉ x ∧ ((first (x ++ u)).1 = .comment ∨ (first (x ++ u)).1 = .string) ∧
        ∃ v, u = '\n' :: v ∧
          first (x ++ ['\r'] ++ '\n' :: withReturns v) = ((first (x ++ u)).1, (x ++ ['\r']).length) := by
  rw [← returnsAppend]
  by_cases opens : Opens (x ++ u)
  · exact .inl (firstReturnsOpening opens length)
  · -- the lexeme ends on its line, which is read with and without the return
    obtain ⟨line, bound⟩ := firstLocal opens
    have within := bound shown
    have feedless := firstLineFeedless (x ++ u)
    rw [length] at within
    have front : x = (firstLine (x ++ u)).take x.length := by rw [firstLineTake within, List.take_left]
    have inside : '\n' ∉ x := fun member => feedless (List.mem_of_mem_take (front ▸ member))
    rcases firstLineSplit (x ++ u) with same | ⟨v, split⟩
    · have none : '\n' ∉ x ++ u := same ▸ feedless
      rw [returnsSelf none, returnsSelf inside]
      exact .inl (Prod.ext rfl length)
    · have whole : withReturns (x ++ u) = firstLine (x ++ u) ++ ['\r'] ++ '\n' :: withReturns v := by
        conv_lhs => rw [split]
        rw [returnsAppend, returnsSelf feedless, returnsFeed, List.append_assoc]
        rfl
      have settled := (firstLocal (mt opensReturns opens)).1
      rw [whole, firstLineJoined, firstLineSelf (by simp [feedless])] at settled
      have last : (firstLine (x ++ u)).getLast? ≠ some '\\' := by
        intro same
        obtain ⟨z, ends⟩ := List.getLast?_eq_some_iff.mp same
        exact plain ⟨z, v, by rw [split, ends]; simp⟩
      rcases firstReturn shown feedless last with same | ⟨kinds, all, taken⟩
      · rw [whole, ← settled, same, line, returnsSelf inside]
        exact .inl (Prod.ext rfl length)
      · rw [line] at kinds all taken
        have line : firstLine (x ++ u) = x :=
          ((List.take_of_length_le (by omega)).symm.trans front.symm)
        rw [line] at split settled taken
        refine .inr ⟨inside, kinds, v, List.append_cancel_left split, ?_⟩
        rw [← settled, taken, List.length_append]
        rfl

end Shape

namespace Token
variable {t a b x x' : Text} {shape : Kind}

theorem matchReturns (split : t = a ++ b) (count : feeds x = feeds x') (last : feeds x.dropLast = feeds x'.dropLast)
    (plain : (shape = .comment ∨ shape = .string) ∨ x = x') :
    Token.Match t (withReturns t) ⟨Kind.ofLexeme shape x, x, a.length, feeds a⟩
      ⟨Kind.ofLexeme shape x', x', (withReturns a).length, feeds a⟩ := by
  have level : Level a (withReturns a) := ⟨(returnsFeeds a).symm, by rw [trail, trail, returnsLastLine]⟩
  have place := matchLevel level split (split ▸ returnsAppend a b) count last plain
  rwa [returnsFeeds] at place

theorem matchEnd (split : t = a ++ b) (inside : '\n' ∉ x) (kinds : shape = .comment ∨ shape = .string) :
    Token.Match t (withReturns t) ⟨Kind.ofLexeme shape x, x, a.length, feeds a⟩
      ⟨Kind.ofLexeme shape (x ++ ['\r']), x ++ ['\r'], (withReturns a).length, feeds a⟩ := by
  have count : feeds x = feeds (x ++ ['\r']) := by
    rw [feedsAppend]
    rfl
  have last : feeds x.dropLast = feeds (x ++ ['\r']).dropLast := by
    rw [List.dropLast_concat, feedsEqZero inside, feedsEqZero fun member => inside (List.mem_of_mem_dropLast member)]
  exact matchReturns split count last (.inl kinds)

theorem matchesFrom (a : Text) {b : Text} (split : t = a ++ b) (plain : ¬ ['\\', '\n'] <:+: b) :
    List.Forall₂ (Token.Match t (withReturns t)) (tokensFrom (feeds a) a.length b)
      (tokensFrom (feeds a) (withReturns a).length (withReturns b)) := by
  induction b using Lexer.readingInduction generalizing a with
  | nil => simp [withReturns, Lexer.tokensFromNil]
  | blank c b blank ih =>
    have rest := ih (a ++ [c]) (by simp [split]) fun inside => plain (inside.trans (List.suffix_cons c b).isInfix)
    have blanks : ∀ d ∈ withReturns [c], isBlank d = true := by
      by_cases feed : c = '\n'
      · rw [feed, returnsFeed]
        exact List.forall_mem_cons.mpr ⟨rfl, List.forall_mem_singleton.mpr rfl⟩
      · rw [returnsCons feed]
        exact List.forall_mem_singleton.mpr blank
    have parts : withReturns (c :: b) = withReturns [c] ++ withReturns b := returnsAppend [c] b
    rw [Lexer.tokensFromBlank _ _ blank, parts, Lexer.tokensFromBlanks _ _ blanks, returnsFeeds]
    rwa [feedsAppend, List.length_append, returnsAppend, List.length_append] at rest
  | lexeme c y u visible length ih =>
    have other := (Lexer.blankEqFalse visible).1
    have shown : firstLine (c :: y ++ u) ≠ [] := by
      rw [List.cons_append, firstLineCons other]
      exact List.cons_ne_nil _ _
    have rest := ih (a ++ c :: y) (by simp [split]) fun inside =>
      plain (inside.trans (List.suffix_append (c :: y) u).isInfix)
    rw [feedsAppend, List.length_append, returnsAppend, List.length_append] at rest
    rw [Lexer.tokensFromLexeme _ _ visible length, returnsAppend]
    rcases Shape.firstReturns shown plain length with same | ⟨inside, kinds, v, rfl, taken⟩
    · have kinds : ((Shape.first (c :: y ++ u)).1 = .comment ∨ (Shape.first (c :: y ++ u)).1 = .string) ∨
          c :: y = withReturns (c :: y) := by
        by_cases feed : '\n' ∈ c :: y
        · exact .inl (Shape.firstMultiline shown (by rwa [length, List.take_left])).1
        · exact .inr (returnsSelf feed).symm
      have here := matchReturns split (returnsFeeds (c :: y)).symm (returnsDropLast (c :: y)).symm kinds
      have count := returnsFeeds (c :: y)
      rw [returnsCons other] at same here rest count ⊢
      rw [Lexer.tokensFromLexeme _ _ visible (by rw [same]), same, count]
      exact .cons here rest
    · have here := matchEnd split inside kinds
      have alone := returnsSelf inside
      have joined : c :: y ++ withReturns ('\n' :: v) = c :: (y ++ ['\r']) ++ '\n' :: withReturns v := by
        rw [returnsFeed]
        simp
      have count : feeds (c :: (y ++ ['\r'])) = feeds (c :: y) := feedsAppend (c :: y) ['\r']
      have size : (c :: (y ++ ['\r'])).length = (c :: y).length + 1 := by simp
      rw [alone, returnsFeed, Lexer.tokensFromBlank _ _ (c := '\r') (by decide)] at rest
      rw [List.cons_append] at taken here
      rw [alone, joined, Lexer.tokensFromLexeme _ _ visible (by rw [taken]), taken, count, size]
      exact .cons here rest

end Token

theorem Line.behind {l l' : Line} {e : Text} (content : l'.content = l.content ++ e)
    (stops : ∀ c ∈ e, isIndent c = false) : l'.lead = l.lead ∧ l'.body = l.body ++ e := by
  have start : e.takeWhile isIndent = [] ∧ e.dropWhile isIndent = e := by
    cases e with
    | nil => exact ⟨rfl, rfl⟩
    | cons c e => simp [stops c List.mem_cons_self]
  constructor
  · rw [lead, lead, content, List.takeWhile_append, start.1, List.append_nil]
    split
    · rename_i whole
      exact ((List.takeWhile_sublist _).eq_of_length whole).symm
    · rfl
  · rw [body, body, content, List.dropWhile_append, start.2]
    split
    · rename_i none
      rw [List.isEmpty_iff.mp none, List.nil_append]
    · rfl

namespace Source
variable {t : Text} {n : Nat}

def returnOf (t : Text) (n : Nat) : Text := if n < feeds t then ['\r'] else []

theorem returnStops (t : Text) (n : Nat) : ∀ c ∈ returnOf t n, isIndent c = false := by
  intro c member
  unfold returnOf at member
  split at member
  · rw [List.mem_singleton.mp member]
    rfl
  · contradiction

theorem contentReturns (bound : n ≤ feeds t) :
    ((ofText (withReturns t)).line n).content = ((ofText t).line n).content ++ returnOf t n := by
  obtain ⟨a, b, split, _, count, start, content⟩ := linePlace bound
  have place := lineAt (withReturns a) (withReturns b)
  rw [returnsFeeds, count, returnsLastLine, start, ← returnsAppend, ← split] at place
  have more : '\n' ∈ b ↔ n < feeds t := by
    rw [split, feedsAppend, count, ← List.count_pos_iff]
    unfold feeds
    omega
  rw [place, returnOf, ← content]
  simp only [List.nil_append, returnsFirstLine, more]

theorem bodyReturns (bound : n ≤ feeds t) :
    ((ofText (withReturns t)).line n).body = ((ofText t).line n).body ++ returnOf t n :=
  (Line.behind (contentReturns bound) (returnStops t n)).2

theorem widthReturns (bound : n ≤ feeds t) :
    ((ofText (withReturns t)).line n).width = ((ofText t).line n).width := by
  rw [Line.width, Line.width, (Line.behind (contentReturns bound) (returnStops t n)).1]

theorem blankReturns (returnless : '\r' ∉ t) (bound : n ≤ feeds t) :
    ((ofText t).line n).isBlank = ((ofText (withReturns t)).line n).isBlank := by
  have none : '\r' ∉ ((ofText t).line n).body := fun member =>
    returnless (contentMember bound ((Line.bodySublist _).subset member))
  rw [Bool.eq_iff_iff, Line.isBlankIff, Line.isBlankIff, bodyReturns bound]
  generalize ((ofText t).line n).body = body at none
  unfold returnOf
  cases body with
  | nil => split <;> simp
  | cons c body =>
    have other : c ≠ '\r' := fun same => none (by simp [same])
    simp [other]

theorem returnsAlike (returnless : '\r' ∉ t) (plain : ¬ ['\\', '\n'] <:+: t) : Alike t (withReturns t) where
  feeds := (returnsFeeds t).symm
  tokens := Token.matchesFrom [] rfl plain
  isBlank := fun n => blankReturns returnless
  star := fun n bound => by
    rw [bodyReturns bound]
    unfold returnOf
    cases ((ofText t).line n).body with
    | nil => split <;> rfl
    | cons c body => rfl

theorem eqOfLines {t t' : Text} (count : feeds t = feeds t')
    (same : ∀ n, n ≤ feeds t → ((ofText t).line n).content = ((ofText t').line n).content) : t = t' := by
  have lines : Text.lines t = Text.lines t' := by
    apply List.ext_getElem?
    intro n
    by_cases bound : n ≤ feeds t
    · rw [contentAt bound, contentAt (count ▸ bound), same n bound]
    · rw [List.getElem?_eq_none (by rw [Text.linesLength]; omega),
        List.getElem?_eq_none (by rw [Text.linesLength]; omega)]
  rw [← Text.unlinesLines t, lines, Text.unlinesLines]

theorem lastStageReturns (returnless : '\r' ∉ t) (plain : ¬ ['\\', '\n'] <:+: t) (settings : Settings)
    (strategy : Strategy) :
    (ofText (withReturns t)).stage settings strategy (feeds (withReturns t) + 1) =
      withReturns ((ofText t).stage settings strategy (feeds t + 1)) := by
  have alike := returnsAlike returnless plain
  refine eqOfLines (by rw [stageFeeds, returnsFeeds, returnsFeeds, stageFeeds]) fun n bound => ?_
  rw [stageFeeds, returnsFeeds] at bound
  have here : ((ofText ((ofText t).stage settings strategy (feeds t + 1))).line n).content = _ :=
    stageContent bound
  have there : ((ofText ((ofText (withReturns t)).stage settings strategy
      (feeds (withReturns t) + 1))).line n).content = _ := stageContent (by rwa [returnsFeeds])
  have return_ : returnOf ((ofText t).stage settings strategy (feeds t + 1)) n = returnOf t n := by
    rw [returnOf, stageFeeds]
    rfl
  have widths : (((ofText t).widthsTo settings strategy (feeds t + 1))[n]?).getD 0 = _ :=
    widthsAlike alike (fun n inside _ => (widthReturns inside).symm) bound
  have before : n < feeds t + 1 := Nat.lt_succ_of_le bound
  have before' : n < feeds (withReturns t) + 1 := by rwa [returnsFeeds]
  rw [contentReturns (by rwa [stageFeeds]), here, there, return_, stageLine, stageLine, if_pos before, if_pos before',
    renderLineEq, renderLineEq, ← alike.isVerbatim bound, ← alike.isBlank n bound, ← widths,
    contentReturns bound, Line.moved, Line.moved, bodyReturns bound]
  cases (ofText t).isVerbatim n with
  | true => rfl
  | false => simp

end Source

namespace Indenter

theorem reindentReturns (settings : Settings) (session : Session) (strategy : Option Strategy) {t : Text}
    (returnless : '\r' ∉ t) (plain : ∀ l ∈ Text.lines t, l.getLast? ≠ some '\\') :
    (({ settings, session } : Indenter).reindent (withReturns t) strategy).2.value =
      withReturns (({ settings, session } : Indenter).reindent t strategy).2.value := by
  have unprotected : ¬ ['\\', '\n'] <:+: t := by
    rintro ⟨x, y, split⟩
    have lines : Text.lines t = Text.lines (x ++ ['\\']) ++ Text.lines y := by
      rw [← linesFeed, ← split]
      simp
    have last := plain _ (lines ▸ List.mem_append_left _ (lastLineMember (x ++ ['\\'])))
    exact last (by rw [lastLineSnoc]; simp)
  rw [reindentValue, reindentValue]
  exact Source.lastStageReturns returnless unprotected settings _

theorem reindentReturnsMixed :
    let t : Text := "f(// x\n\"a\n\n/* b\n* c */ d\n)".toList
    '\r' ∉ t ∧ (∀ l ∈ Text.lines t, l.getLast? ≠ some '\\') ∧
      (({} : Indenter).reindent (withReturns t) none).2.value =
        withReturns (({} : Indenter).reindent t none).2.value := by
  intro t
  have returnless : '\r' ∉ t := by decide
  have plain : ∀ l ∈ Text.lines t, l.getLast? ≠ some '\\' := by decide
  exact ⟨returnless, plain, reindentReturns {} {} none returnless plain⟩

end Indenter
end Indentation
