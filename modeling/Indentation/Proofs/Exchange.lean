import Indentation.Proofs.Returns

/-! Texts that differ inside of one line. A stretch of a line, from a visible character on, is exchanged for
another one that begins with the same character. The lines have the same blanks in front, and all but one have
the same bodies. When both texts are read to matching tokens, they are indented alike, and the results differ in
the same stretch. -/
namespace Indentation
open Lexer (feeds tokensFrom)
open Text

namespace Text
variable {c : Char} {y y' : Text}

theorem leadsAround (visible : isBlank c = false) (feedless : '\n' ∉ c :: y) (feedless' : '\n' ∉ c :: y')
    (a b : Text) : (lines (a ++ (c :: y ++ b))).map (·.takeWhile isIndent) =
      (lines (a ++ (c :: y' ++ b))).map (·.takeWhile isIndent) := by
  obtain ⟨ls, ls', _, around⟩ := linesAround a b
  have lead : ∀ z, (lastLine a ++ c :: z ++ firstLine b).takeWhile isIndent = (lastLine a).takeWhile isIndent := by
    intro z
    rw [List.append_assoc, List.cons_append, takeVisible visible]
  rw [around _ feedless, around _ feedless', List.map_append, List.map_append, List.map_cons, List.map_cons,
    lead, lead]

end Text

namespace Token
variable {t t' q q' b u : Text}

theorem matchesBehind (level : Level q q') (split : t = q ++ u) (split' : t' = q' ++ u) :
    List.Forall₂ (Token.Match t t') (tokensFrom (feeds q) q.length u) (tokensFrom (feeds q') q'.length u) := by
  induction u using Lexer.readingInduction generalizing q q' with
  | nil => simp [Lexer.tokensFromNil]
  | blank c u blank ih =>
    rw [tokensFromBlank q blank, tokensFromBlank q' blank]
    exact ih (level.snoc c) (by simp [split]) (by simp [split'])
  | lexeme c y u visible length ih =>
    rw [tokensFromLexeme q visible length, tokensFromLexeme q' visible length]
    exact .cons (matchLevel level split split' rfl rfl (.inr rfl))
      (ih (level.append (c :: y)) (by simp [split]) (by simp [split']))

theorem matchesNext (ends : firstLine b = []) (same : feeds q = feeds q') (split : t = q ++ b)
    (split' : t' = q' ++ b) :
    List.Forall₂ (Token.Match t t') (tokensFrom (feeds q) q.length b) (tokensFrom (feeds q') q'.length b) := by
  rcases firstLineSplit b with last | ⟨u, next⟩
  · rw [last, ends, Lexer.tokensFromNil, Lexer.tokensFromNil]
    exact .nil
  · rw [ends, List.nil_append] at next
    rw [next, tokensFromBlank q (by decide), tokensFromBlank q' (by decide)]
    exact matchesBehind (.feed same) (by simp [split, next]) (by simp [split', next])

end Token

namespace Source
variable {a b x x' : Text} {n : Nat}

theorem feedsAround (feedless : '\n' ∉ x) : feeds (a ++ (x ++ b)) = feeds a + feeds b := by
  rw [feedsAppend, feedsAppend, feedsEqZero feedless, Nat.zero_add]

theorem otherLine (feedless : '\n' ∉ x) (feedless' : '\n' ∉ x') (bound : n ≤ feeds (a ++ (x ++ b)))
    (other : n ≠ feeds a) :
    ((ofText (a ++ (x ++ b))).line n).content = ((ofText (a ++ (x' ++ b))).line n).content := by
  obtain ⟨ls, ls', length, around⟩ := linesAround a b
  have bound' : n ≤ feeds (a ++ (x' ++ b)) := by
    rw [feedsAround feedless] at bound
    rwa [feedsAround feedless']
  have here := contentAt bound
  have there := contentAt bound'
  rw [around x feedless] at here
  rw [around x' feedless'] at there
  rcases Nat.lt_or_gt_of_ne (length ▸ other) with before | after
  · rw [List.getElem?_append_left before] at here there
    exact Option.some.inj (here.symm.trans there)
  · obtain ⟨k, rfl⟩ : ∃ k, n = ls.length + (k + 1) := ⟨n - ls.length - 1, by omega⟩
    rw [List.getElem?_append_right (Nat.le_add_right _ _), Nat.add_sub_cancel_left, List.getElem?_cons_succ]
      at here there
    exact Option.some.inj (here.symm.trans there)

variable {c : Char} {y y' : Text}

theorem leadAround (a : Text) (visible : isBlank c = false) (u : Text) :
    ((ofText (a ++ c :: u)).line (feeds a)).lead = (Text.lastLine a).takeWhile isIndent := by
  rw [lineAt a (c :: u), firstLineCons (Lexer.blankEqFalse visible).1, Line.lead, takeVisible visible]

theorem bodyAround (a : Text) (visible : isBlank c = false) (feedless : '\n' ∉ c :: y) (b : Text) :
    ((ofText (a ++ (c :: y ++ b))).line (feeds a)).body = trail a ++ (c :: y ++ firstLine b) := by
  have body := bodyVisible a visible (y ++ b)
  rwa [firstLineAppend fun member => feedless (List.mem_cons_of_mem _ member)] at body

theorem leadOther (visible : isBlank c = false) (feedless : '\n' ∉ c :: y) (feedless' : '\n' ∉ c :: y')
    (bound : n ≤ feeds (a ++ (c :: y ++ b))) :
    ((ofText (a ++ (c :: y ++ b))).line n).lead = ((ofText (a ++ (c :: y' ++ b))).line n).lead := by
  by_cases here : n = feeds a
  · rw [here, List.cons_append, List.cons_append, leadAround a visible, leadAround a visible]
  · rw [Line.lead, Line.lead, otherLine feedless feedless' bound here]

theorem bodyOther (feedless : '\n' ∉ x) (feedless' : '\n' ∉ x') (bound : n ≤ feeds (a ++ (x ++ b)))
    (other : n ≠ feeds a) :
    ((ofText (a ++ (x ++ b))).line n).body = ((ofText (a ++ (x' ++ b))).line n).body := by
  rw [Line.body, Line.body, otherLine feedless feedless' bound other]

theorem exchangeAlike (visible : isBlank c = false) (feedless : '\n' ∉ c :: y) (feedless' : '\n' ∉ c :: y')
    (tokens : List.Forall₂ (Token.Match (a ++ (c :: y ++ b)) (a ++ (c :: y' ++ b)))
      (tokenize (a ++ (c :: y ++ b))) (tokenize (a ++ (c :: y' ++ b)))) :
    Alike (a ++ (c :: y ++ b)) (a ++ (c :: y' ++ b)) where
  feeds := by rw [feedsAround feedless, feedsAround feedless']
  tokens := tokens
  isBlank n bound := by
    by_cases here : n = feeds a
    · rw [here, List.cons_append, List.cons_append, shownVisible a visible, shownVisible a visible]
    · exact Line.isBlankCongr (bodyOther feedless feedless' bound here)
  star n bound := by
    by_cases here : n = feeds a
    · rw [here, bodyAround a visible feedless, bodyAround a visible feedless']
      cases trail a with
      | nil => rfl
      | cons d front => rfl
    · rw [bodyOther feedless feedless' bound here]

variable {t t' : Text} {settings : Settings} {strategy : Strategy}

theorem lastStageLead (bound : n ≤ feeds t) :
    ((ofText ((ofText t).stage settings strategy (feeds t + 1))).line n).lead =
      if (ofText t).isVerbatim n then ((ofText t).line n).lead
      else List.replicate (if ((ofText t).line n).isBlank then 0
        else (((ofText t).widthsTo settings strategy (feeds t + 1))[n]?).getD 0) ' ' := by
  have content : ((ofText ((ofText t).stage settings strategy (feeds t + 1))).line n).content = _ :=
    stageContent bound
  rw [stageLine, if_pos (Nat.lt_succ_of_le bound), renderLineEq] at content
  split at content
  · rename_i verbatim
    rw [if_pos verbatim, Line.lead, content]
    rfl
  · rename_i free
    rw [if_neg free, Line.movedLead content]

theorem lastStageLeads (settings : Settings) (strategy : Strategy) (alike : Alike t t')
    (leads : ∀ n, n ≤ feeds t → ((ofText t).line n).lead = ((ofText t').line n).lead) (bound : n ≤ feeds t) :
    ((ofText ((ofText t).stage settings strategy (feeds t + 1))).line n).lead =
      ((ofText ((ofText t').stage settings strategy (feeds t' + 1))).line n).lead := by
  have widths : (((ofText t).widthsTo settings strategy (feeds t + 1))[n]?).getD 0 = _ :=
    widthsAlike alike (fun n inside _ => by rw [Line.width, Line.width, leads n inside]) bound
  rw [lastStageLead bound, lastStageLead (alike.feeds ▸ bound), alike.isVerbatim bound, alike.isBlank n bound,
    leads n bound, widths]

theorem lastStageExchange (visible : isBlank c = false) (feedless : '\n' ∉ c :: y) (feedless' : '\n' ∉ c :: y')
    (alike : Alike (a ++ (c :: y ++ b)) (a ++ (c :: y' ++ b))) {A B : Text}
    (result : (ofText (a ++ (c :: y ++ b))).stage settings strategy (feeds (a ++ (c :: y ++ b)) + 1) =
      A ++ (c :: y ++ B)) (line : feeds A = feeds a) (inset : trail A = trail a) :
    (ofText (a ++ (c :: y' ++ b))).stage settings strategy (feeds (a ++ (c :: y' ++ b)) + 1) =
      A ++ (c :: y' ++ B) := by
  have shifted := stageShifted (a ++ (c :: y ++ b)) settings strategy (feeds (a ++ (c :: y ++ b)) + 1)
  have shifted' := stageShifted (a ++ (c :: y' ++ b)) settings strategy (feeds (a ++ (c :: y' ++ b)) + 1)
  have leads := fun n => lastStageLeads (n := n) settings strategy alike fun n => leadOther visible feedless feedless'
  rw [result] at shifted leads
  have count : feeds (A ++ (c :: y' ++ B)) = feeds (a ++ (c :: y' ++ b)) := by
    rw [← alike.feeds, shifted.feeds, feedsAround feedless, feedsAround feedless']
  refine eqOfLines (by rw [stageFeeds, count]) fun n bound => ?_
  rw [stageFeeds, ← alike.feeds] at bound
  have bound' : n ≤ feeds (A ++ (c :: y ++ B)) := shifted.feeds ▸ bound
  rw [← Line.leadBody, ← Line.leadBody, ← leads n bound, leadOther visible feedless feedless' bound',
    ← shifted'.body n (alike.feeds ▸ bound)]
  by_cases here : n = feeds a
  · have body := shifted.body n bound
    rw [here, bodyAround a visible feedless, ← line, bodyAround A visible feedless, inset] at body
    rw [here, bodyAround a visible feedless', ← line, bodyAround A visible feedless', inset]
    rw [List.append_cancel_left_eq, List.append_cancel_left_eq] at body
    rw [body]
  · rw [← bodyOther feedless feedless' bound here, ← bodyOther feedless feedless' bound' (line ▸ here),
      shifted.body n bound]

end Source
end Indentation
