import Indentation.Proofs.Covers
import Mathlib.Data.List.ReduceOption

/-! Texts that are read alike. Their tokens match one by one in all that placing a line asks of them:
what they are, which lines they begin and end on, and how far they stand from the margin of their line.
Such texts have one outline, the same lines are verbatim, and the same tokens hold the margins. -/
namespace Indentation
open Lexer (feeds)

theorem mapAlike {α β γ : Type} {R : α → β → Prop} {f : α → γ} {g : β → γ} {l : List α} {l' : List β}
    (alike : ∀ x y, R x y → f x = g y) (related : List.Forall₂ R l l') : l.map f = l'.map g := by
  induction related with
  | nil => rfl
  | cons pair _ ih => rw [List.map_cons, List.map_cons, alike _ _ pair, ih]

theorem findAlike {α β γ : Type} {R : α → β → Prop} {P : α → Bool} {Q : β → Bool} {f : α → γ} {g : β → γ}
    {l : List α} {l' : List β} (same : ∀ x y, R x y → P x = Q y) (alike : ∀ x y, R x y → f x = g y)
    (related : List.Forall₂ R l l') : (l.find? P).map f = (l'.find? Q).map g := by
  induction related with
  | nil => rfl
  | @cons x y _ _ pair _ ih =>
    rw [List.find?_cons, List.find?_cons, ← same x y pair]
    cases P x with
    | true => exact congrArg some (alike x y pair)
    | false => exact ih

theorem entryAlike {α β : Type} {R : α → β → Prop} {l : List α} {l' : List β} (related : List.Forall₂ R l l')
    {i : Nat} {x : α} (found : l[i]? = some x) : ∃ y, l'[i]? = some y ∧ R x y := by
  induction related generalizing i with
  | nil => contradiction
  | @cons x y l l' pair _ ih =>
    cases i with
    | zero =>
      cases Option.some.inj found
      exact ⟨y, rfl, pair⟩
    | succ i => exact ih found

namespace Source

theorem codeMap {β : Type} (t : Text) (f : Token → β) :
    (ofText t).code.toList.map f =
      ((tokenize t).map fun tok => if tok.isComment then none else some (f tok)).reduceOption := by
  simp only [ofText, ofTokens]
  induction tokenize t with
  | nil => rfl
  | cons tok rest ih =>
    cases comment : tok.isComment with
    | true => simpa [comment, List.reduceOption_cons_of_none] using ih
    | false => simpa [comment, List.reduceOption_cons_of_some] using ih

end Source

structure Token.Match (t t' : Text) (tok tok' : Token) : Prop where
  kind : tok.kind = tok'.kind
  line : tok.line = tok'.line
  word : tok.isComment = false → tok.toWord = tok'.toWord
  feeds : Lexer.feeds tok.text = Lexer.feeds tok'.text
  inset : tok.inset t = tok'.inset t'

/- Places on one line at one distance from the margin. -/
structure Level (q q' : Text) : Prop where
  feeds : Lexer.feeds q = Lexer.feeds q'
  inset : (Text.trail q).length = (Text.trail q').length

namespace Level
open Text
variable {q q' : Text}

theorem snoc (level : Level q q') (c : Char) : Level (q ++ [c]) (q' ++ [c]) where
  feeds := by rw [feedsAppend, feedsAppend, level.feeds]
  inset := by
    have longer : ∀ q, ((trail q ++ [c]).dropWhile isIndent).length =
        if (trail q).length = 0 then ([c].dropWhile isIndent).length else (trail q).length + 1 := by
      intro q
      rw [List.dropWhile_append, trail, List.dropWhile_idempotent]
      cases (lastLine q).dropWhile isIndent with
      | nil => rfl
      | cons d front => simp
    rw [trailSnoc, trailSnoc]
    split
    · rfl
    · rw [longer, longer, level.inset]

theorem append (level : Level q q') (x : Text) : Level (q ++ x) (q' ++ x) := by
  induction x generalizing q q' with
  | nil => simpa using level
  | cons c x ih => simpa using ih (level.snoc c)

theorem feed (same : Lexer.feeds q = Lexer.feeds q') : Level (q ++ ['\n']) (q' ++ ['\n']) where
  feeds := by rw [feedsAppend, feedsAppend, same]
  inset := by rw [trailSnoc, trailSnoc, if_pos rfl, if_pos rfl]

end Level

theorem Token.matchLevel {t t' q q' u u' x x' : Text} {shape : Kind} (level : Level q q') (split : t = q ++ u)
    (split' : t' = q' ++ u') (count : feeds x = feeds x') (last : feeds x.dropLast = feeds x'.dropLast)
    (plain : (shape = .comment ∨ shape = .string) ∨ x = x') :
    Token.Match t t' ⟨Kind.ofLexeme shape x, x, q.length, feeds q⟩
      ⟨Kind.ofLexeme shape x', x', q'.length, feeds q'⟩ where
  kind := by
    rcases plain with (rfl | rfl) | rfl <;> rfl
  line := level.feeds
  word code := by
    rcases plain with (rfl | rfl) | rfl
    · contradiction
    · have words : feeds q + feeds x.dropLast = feeds q' + feeds x'.dropLast := by rw [level.feeds, last]
      exact congrArg₂ (Word.mk .string 0) level.feeds words
    · simp only [Token.toWord, Token.lastLine, level.feeds]
  feeds := count
  inset := by rw [inset, inset, split, List.take_left, split', List.take_left, level.inset]

namespace Token.Match
variable {t t' : Text} {x y : Token}

theorem isComment (same : Token.Match t t' x y) : x.isComment = y.isComment := congrArg Kind.isComment same.kind

theorem lastLine (same : Token.Match t t' x y) (code : x.isComment = false) : x.lastLine = y.lastLine :=
  congrArg Word.lastLine (same.word code)

end Token.Match

structure Alike (t t' : Text) : Prop where
  feeds : Lexer.feeds t = Lexer.feeds t'
  tokens : List.Forall₂ (Token.Match t t') (tokenize t) (tokenize t')
  isBlank : ∀ n, n ≤ Lexer.feeds t → ((Source.ofText t).line n).isBlank = ((Source.ofText t').line n).isBlank
  star : ∀ n, n ≤ Lexer.feeds t → (((Source.ofText t).line n).body.head? == some '*') =
    (((Source.ofText t').line n).body.head? == some '*')

namespace Alike
variable {t t' : Text} {n : Nat}

theorem codeEq {β : Type} (h : Alike t t') {f g : Token → β}
    (alike : ∀ x y, Token.Match t t' x y → x.isComment = false → f x = g y) :
    (Source.ofText t).code.toList.map f = (Source.ofText t').code.toList.map g := by
  rw [Source.codeMap, Source.codeMap]
  refine congrArg _ (mapAlike (fun x y same => ?_) h.tokens)
  rw [← same.isComment]
  cases comment : x.isComment with
  | true => rfl
  | false => exact congrArg some (alike x y same comment)

theorem blanksEq (h : Alike t t') :
    (Line.ofText t).map Line.isBlank = (Line.ofText t').map Line.isBlank := by
  apply List.ext_getElem?
  intro n
  rw [List.getElem?_map, List.getElem?_map]
  by_cases bound : n ≤ Lexer.feeds t
  · rw [Source.lineFound bound, Source.lineFound (h.feeds ▸ bound)]
    exact congrArg some (h.isBlank n bound)
  · rw [List.getElem?_eq_none (by rw [Line.ofTextLength]; omega),
      List.getElem?_eq_none (by rw [Line.ofTextLength, ← h.feeds]; omega)]

theorem outlineEq (h : Alike t t') : (Source.ofText t).outline = (Source.ofText t').outline := by
  have words := h.codeEq (f := Token.toWord) (g := Token.toWord) fun x y same =>
    same.word
  have outline : ∀ u : Text, (Source.ofText u).outline =
      .ofWords ((Source.ofText u).code.toList.map Token.toWord) ((Line.ofText u).map Line.isBlank) := by
    intro u
    simp [Source.ofText, Source.ofTokens]
  rw [outline, outline, words, h.blanksEq]

theorem insetEq (h : Alike t t') (i : Nat) :
    ((Source.ofText t).code[i]?).map (·.inset t) = ((Source.ofText t').code[i]?).map (·.inset t') := by
  have insets := h.codeEq (f := (·.inset t)) (g := (·.inset t')) fun x y same _ => same.inset
  have entry := congrArg (fun l => l[i]?) insets
  simpa using entry

theorem isVerbatim (h : Alike t t') (bound : n ≤ Lexer.feeds t) :
    (Source.ofText t).isVerbatim n = (Source.ofText t').isVerbatim n := by
  let reaches : Token → Bool := fun tok => tok.kind = .string ∧ tok.line < n ∧ n ≤ tok.lastLine
  have alike : ∀ x y, Token.Match t t' x y → reaches x = reaches y := by
    intro x y same
    simp only [reaches, decide_eq_decide, ← same.kind, ← same.line]
    refine and_congr_right fun string => ?_
    have code : x.isComment = false := by simp [Token.isComment, string, Kind.isComment]
    rw [same.lastLine code]
  have some := congrArg (List.any · id) (mapAlike alike h.tokens)
  rw [List.any_map, List.any_map, Bool.eq_iff_iff, List.any_eq_true, List.any_eq_true] at some
  rw [Bool.eq_iff_iff, Source.verbatimIff bound, Source.verbatimIff (h.feeds ▸ bound)]
  simpa [reaches] using some

theorem coverEq {β : Type} (h : Alike t t') (bound : n ≤ Lexer.feeds t)
    (shown : ((Source.ofText t).line n).isBlank = false) {f g : Token → β}
    (alike : ∀ x y, Token.Match t t' x y → f x = g y) :
    ((Source.ofText t).covering? ((Source.ofText t).line n).margin).map f =
      ((Source.ofText t').covering? ((Source.ofText t').line n).margin).map g := by
  rw [Source.coveringMargin bound shown,
    Source.coveringMargin (h.feeds ▸ bound) (h.isBlank n bound ▸ shown)]
  refine findAlike (fun x y same => ?_) alike h.tokens
  rw [decide_eq_decide, Token.HoldsFeed, Token.HoldsFeed, same.line, same.feeds]

end Alike
end Indentation
