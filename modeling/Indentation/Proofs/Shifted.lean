import Indentation.Proofs.Alike
import Indentation.Proofs.Relaid

/-! Texts whose lines are moved sideways. The second text has the lines of the first with other blanks
in front, except that a line after a line feed of a string stays as it is. Both are read to twin
tokens, so they have one outline, the same lines are verbatim or blank, and the same tokens hold the
margins. -/
namespace Indentation
open Lexer (feeds)
open Text

structure Shifted (t t' : Text) : Prop where
  feeds : Lexer.feeds t = Lexer.feeds t'
  body : ∀ n, n ≤ Lexer.feeds t → ((Source.ofText t).line n).body = ((Source.ofText t').line n).body
  strings : ∀ n, n ≤ Lexer.feeds t → ∀ tok ∈ tokenize t, tok.kind = .string → tok.HoldsFeed n →
    ((Source.ofText t).line n).content = ((Source.ofText t').line n).content

theorem unlinesFeeds (l : Text) (ls : List Text) :
    unlines (l :: ls) = l ++ ls.flatMap fun m => '\n' :: m := by
  induction ls generalizing l with
  | nil => simp [unlines]
  | cons m ls ih => rw [unlinesCons, ih, List.flatMap_cons, List.cons_append]

theorem relaidLines {held : Nat → Prop} {ls ls' : List Text} {p q : Nat}
    (agree : List.Forall₂ (fun l l' : Line => l.body = l'.body ∧
      ∀ f, f + 1 = l.start → held f → l.content = l'.content)
      (Line.placeFrom (p + 1) ls) (Line.placeFrom q ls')) :
    Relaid held p (ls.flatMap fun m => '\n' :: m) (ls'.flatMap fun m => '\n' :: m) := by
  induction ls generalizing ls' p q with
  | nil =>
    cases ls' with
    | nil => exact .nil
    | cons m' ls' => cases agree
  | cons m ls ih =>
    cases ls' with
    | nil => cases agree
    | cons m' ls' =>
      obtain ⟨⟨body, verbatim⟩, rest⟩ := List.forall₂_cons.mp agree
      have tail := ih rest
      rw [List.flatMap_cons, List.flatMap_cons]
      by_cases free : held p
      · have same : m = m' := verbatim p rfl free
        rw [← same]
        exact .same '\n' ((Relaid.refl _ m).append tail)
      · have split := (Line.mk (p + 1) m).leadBody
        have split' := (Line.mk q m').leadBody
        rw [← body] at split'
        simp only at split split'
        rw [← split, ← split', List.cons_append, List.cons_append, List.append_assoc, List.append_assoc]
        refine .feed free (Line.leadIndent _) (Line.leadIndent _) ((Relaid.refl _ _).append ?_)
        have sum := (Line.mk (p + 1) m).lengthSum
        simp only at sum
        rwa [Nat.add_assoc (p + 1), sum]

def InString (t : Text) (q : Nat) : Prop :=
  ∃ tok ∈ tokenize t, tok.kind = .string ∧ tok.start ≤ q ∧ q < tok.stop

namespace Shifted
variable {t t' : Text} {n : Nat}

theorem linesAgree (h : Shifted t t') :
    List.Forall₂ (fun l l' : Line => l.body = l'.body ∧
      ∀ f, f + 1 = l.start → InString t f → l.content = l'.content)
      (Line.ofText t) (Line.ofText t') := by
  refine List.forall₂_iff_get.mpr ⟨?_, fun n inside inside' => ?_⟩
  · rw [Line.ofTextLength, Line.ofTextLength, h.feeds]
  · have bound : n ≤ Lexer.feeds t := by
      rw [Line.ofTextLength] at inside
      omega
    have found := Source.lineFound bound
    have found' := Source.lineFound (h.feeds ▸ bound)
    rw [List.getElem?_eq_getElem inside] at found
    rw [List.getElem?_eq_getElem inside'] at found'
    rw [List.get_eq_getElem, List.get_eq_getElem, Option.some.inj found, Option.some.inj found']
    refine ⟨h.body n bound, ?_⟩
    rintro f start ⟨tok, member, string, low, high⟩
    exact h.strings n bound tok member string
      ((Token.holdsFeedIff member bound).mpr ⟨by omega, by omega⟩)

theorem twins (h : Shifted t t') : List.Forall₂ (Token.Twin t t') (tokenize t) (tokenize t') := by
  have agree := h.linesAgree
  have whole := unlinesLines t
  have whole' := unlinesLines t'
  cases split : lines t with
  | nil => exact absurd split (linesNeNil t)
  | cons l ls =>
    cases split' : lines t' with
    | nil => exact absurd split' (linesNeNil t')
    | cons l' ls' =>
      rw [Line.ofText, Line.ofText, split, split'] at agree
      obtain ⟨⟨body, _⟩, rest⟩ := List.forall₂_cons.mp agree
      have sum := (Line.mk 0 l).lengthSum
      have front : (Line.mk 0 l).lead ++ (Line.mk 0 l).body = l := Line.leadBody _
      have front' : (Line.mk 0 l').lead ++ (Line.mk 0 l).body = l' := body ▸ Line.leadBody _
      rw [split, unlinesFeeds, ← front, List.append_assoc] at whole
      rw [split', unlinesFeeds, ← front', List.append_assoc] at whole'
      have tail := relaidLines rest
      simp only [Nat.zero_add, ← sum] at tail
      have layouts := (Relaid.refl (Line.mk 0 l).lead.length (Line.mk 0 l).body).append tail
      have result := Token.twins (Line.leadIndent _) (Line.leadIndent (Line.mk 0 l')) layouts
      rw [whole, whole'] at result
      exact result fun tok member string q low high => ⟨tok, member, string, low, high⟩

theorem isBlank (h : Shifted t t') (bound : n ≤ Lexer.feeds t) :
    ((Source.ofText t).line n).isBlank = ((Source.ofText t').line n).isBlank :=
  Line.isBlankCongr (h.body n bound)

theorem alike (h : Shifted t t') : Alike t t' where
  feeds := h.feeds
  tokens := h.twins.imp fun x y twin =>
    { kind := twin.kind
      line := twin.line
      word := fun code => by
        simp only [Token.toWord, Token.lastLine, twin.kind, twin.line, twin.text code]
      feeds := twin.feeds
      inset := congrArg List.length twin.trail }
  isBlank := fun _ => h.isBlank
  star := fun n bound => by rw [h.body n bound]

end Shifted
end Indentation
