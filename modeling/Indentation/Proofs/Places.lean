import Indentation.Source
import Mathlib.Data.List.DropRight
import Mathlib.Data.List.Induction
import Mathlib.Data.List.TakeWhile

/-! Places in a text. A place is known by the text before it: the number of line feeds there is the
line of the place, and what follows the last of them is the part of the line already read. Lines,
margins and columns are said here in these terms, so that no later proof opens the table of lines. -/
namespace Indentation

namespace Text
open Lexer (feeds)

def firstLine (t : Text) : Text := t.takeWhile (· != '\n')

def lastLine (t : Text) : Text := t.foldl (fun l c => if c = '\n' then [] else l ++ [c]) []

def trail (t : Text) : Text := (lastLine t).dropWhile isIndent

@[simp] theorem feedsAppend (a b : Text) : feeds (a ++ b) = feeds a + feeds b := List.count_append

@[simp] theorem feedsFeed (t : Text) : feeds ('\n' :: t) = feeds t + 1 := by simp [feeds]

theorem feedsCons {c : Char} (other : c ≠ '\n') (t : Text) : feeds (c :: t) = feeds t := by
  simp [feeds, other]

theorem feedsEqZero {t : Text} (feedless : '\n' ∉ t) : feeds t = 0 :=
  List.count_eq_zero_of_not_mem feedless

theorem firstLineFeedless (t : Text) : '\n' ∉ firstLine t := by
  intro inside
  have kept := List.mem_takeWhile_imp inside
  simp at kept

theorem firstLineAppend {x : Text} (feedless : '\n' ∉ x) (t : Text) :
    firstLine (x ++ t) = x ++ firstLine t := by
  apply List.takeWhile_append_of_pos
  intro c inside
  have other : c ≠ '\n' := fun same => feedless (same ▸ inside)
  simp [other]

theorem firstLineCons {c : Char} (other : c ≠ '\n') (t : Text) :
    firstLine (c :: t) = c :: firstLine t := by
  simp [firstLine, other]

@[simp] theorem firstLineFeed (t : Text) : firstLine ('\n' :: t) = [] := by simp [firstLine]

@[simp] theorem firstLineNil : firstLine [] = [] := rfl

theorem firstLineSelf {t : Text} (feedless : '\n' ∉ t) : firstLine t = t := by
  simpa using firstLineAppend feedless []

theorem firstLineSplit (t : Text) : t = firstLine t ∨ ∃ u, t = firstLine t ++ '\n' :: u := by
  induction t with
  | nil => exact .inl rfl
  | cons c t ih =>
    by_cases feed : c = '\n'
    · subst feed
      exact .inr ⟨t, by simp⟩
    · rw [firstLineCons feed]
      rcases ih with same | ⟨u, split⟩
      · exact .inl (congrArg _ same)
      · exact .inr ⟨u, congrArg _ split⟩

theorem firstLineRest (t : Text) : ∃ u, t = firstLine t ++ u ∧ firstLine u = [] := by
  rcases firstLineSplit t with same | ⟨u, split⟩
  · exact ⟨[], by rw [← same, List.append_nil], rfl⟩
  · exact ⟨'\n' :: u, split, firstLineFeed u⟩

theorem firstLineJoined (t b : Text) : firstLine (t ++ '\n' :: b) = firstLine t := by
  rcases firstLineSplit t with same | ⟨u, split⟩
  · rw [firstLineAppend (same ▸ firstLineFeedless t), firstLineFeed, List.append_nil, ← same]
  · rw [split, List.append_assoc, firstLineAppend (firstLineFeedless t),
      firstLineAppend (firstLineFeedless t), List.cons_append, firstLineFeed, firstLineFeed]

theorem lastLineSnoc (a : Text) (c : Char) :
    lastLine (a ++ [c]) = if c = '\n' then [] else lastLine a ++ [c] := by
  simp [lastLine]

theorem lastLineAppend (a : Text) {x : Text} (feedless : '\n' ∉ x) :
    lastLine (a ++ x) = lastLine a ++ x := by
  induction x generalizing a with
  | nil => simp
  | cons c x ih =>
    obtain ⟨other, rest⟩ : c ≠ '\n' ∧ '\n' ∉ x := by
      simp only [List.mem_cons, not_or] at feedless
      exact ⟨Ne.symm feedless.1, feedless.2⟩
    have step := ih (a ++ [c]) rest
    rw [lastLineSnoc, if_neg other] at step
    simpa using step

theorem lastLineFeed (a : Text) {x : Text} (feedless : '\n' ∉ x) :
    lastLine (a ++ '\n' :: x) = x := by
  have step := lastLineAppend (a ++ ['\n']) feedless
  rw [lastLineSnoc, if_pos rfl] at step
  simpa using step

theorem lastLineFeedless (a : Text) : '\n' ∉ lastLine a := by
  induction a using List.reverseRecOn with
  | nil => simp [lastLine]
  | append_singleton a c ih =>
    rw [lastLineSnoc]
    split
    · simp
    · rename_i other
      simp [ih, Ne.symm other]

theorem lastLineSplit (a : Text) : a = lastLine a ∨ ∃ q, a = q ++ '\n' :: lastLine a := by
  induction a using List.reverseRecOn with
  | nil => exact .inl rfl
  | append_singleton a c ih =>
    rw [lastLineSnoc]
    split
    · rename_i feed
      exact .inr ⟨a, by rw [feed]⟩
    · rcases ih with same | ⟨q, split⟩
      · exact .inl (by rw [← same])
      · refine .inr ⟨q, ?_⟩
        calc a ++ [c] = (q ++ '\n' :: lastLine a) ++ [c] := by rw [← split]
          _ = q ++ '\n' :: (lastLine a ++ [c]) := by simp

theorem lastLineSuffix (a : Text) : lastLine a <:+ a := by
  rcases lastLineSplit a with same | ⟨q, split⟩
  · exact ⟨[], same.symm⟩
  · exact ⟨q ++ ['\n'], by simpa using split.symm⟩

theorem lineFront {a : Text} (start : lastLine a = []) : a = [] ∨ ∃ q, a = q ++ ['\n'] := by
  have split := lastLineSplit a
  rwa [start] at split

theorem lastLineSelf {a : Text} (feedless : '\n' ∉ a) : lastLine a = a := by
  simpa [lastLine] using lastLineAppend [] feedless

theorem trailSnoc (a : Text) (c : Char) :
    trail (a ++ [c]) = if c = '\n' then [] else (trail a ++ [c]).dropWhile isIndent := by
  unfold trail
  rw [lastLineSnoc]
  split
  · rfl
  · rw [List.dropWhile_append, List.dropWhile_append, List.dropWhile_idempotent]

theorem trailIndent (a : Text) {w : Text} (blank : ∀ c ∈ w, isIndent c) :
    trail (a ++ '\n' :: w) = [] := by
  have feedless : '\n' ∉ w := fun inside => by simpa [isIndent] using blank _ inside
  unfold trail
  rw [lastLineFeed a feedless]
  exact List.dropWhile_eq_nil_iff.mpr blank

theorem unlinesCons (l l' : Text) (ls : List Text) :
    unlines (l :: l' :: ls) = l ++ '\n' :: unlines (l' :: ls) := by
  simp [unlines, List.intercalate_cons_cons]

theorem linesFeed (a b : Text) : lines (a ++ '\n' :: b) = lines a ++ lines b :=
  List.splitOn_append_cons_self a b

theorem linesFeedless {a : Text} (feedless : '\n' ∉ a) : lines a = [a] :=
  List.splitOn_eq_singleton feedless

theorem linesHead (t : Text) : (lines t)[0]? = some (firstLine t) := by
  rcases firstLineSplit t with same | ⟨u, split⟩
  · rw [linesFeedless (same ▸ firstLineFeedless t), ← same]
    rfl
  · have first := linesFeedless (firstLineFeedless t)
    rw [split, linesFeed, firstLineAppend (firstLineFeedless t), first]
    simp

theorem linesLength (t : Text) : (lines t).length = feeds t + 1 := by
  induction t with
  | nil => rfl
  | cons c t ih =>
    by_cases feed : c = '\n'
    · subst feed
      have split := linesFeed [] t
      rw [List.nil_append, linesFeedless (by simp : '\n' ∉ ([] : Text))] at split
      simp [split, ih, Nat.add_comm]
    · unfold lines at ih ⊢
      rw [List.splitOn_cons_eq_if_modifyHead, if_neg (by simpa using feed), List.length_modifyHead,
        ih, feedsCons feed]

theorem lastLineMember (a : Text) : lastLine a ∈ lines a := by
  have feedless := lastLineFeedless a
  rcases lastLineSplit a with same | ⟨q, split⟩
  · rw [← same] at feedless
    rw [← same, linesFeedless feedless]
    exact List.mem_singleton_self a
  · have last : lines a = lines q ++ [lastLine a] := by
      conv_lhs => rw [split]
      rw [linesFeed, linesFeedless feedless]
    rw [last]
    exact List.mem_append_right _ (List.mem_singleton_self _)

theorem linesAround (a b : Text) : ∃ ls ls', ls.length = feeds a ∧
    ∀ x, '\n' ∉ x → lines (a ++ (x ++ b)) = ls ++ (lastLine a ++ x ++ firstLine b) :: ls' := by
  obtain ⟨ls', behind⟩ : ∃ ls', ∀ x, '\n' ∉ x → lines (x ++ b) = (x ++ firstLine b) :: ls' := by
    have feedless := firstLineFeedless b
    rcases firstLineSplit b with same | ⟨u, split⟩
    · refine ⟨[], fun x none => ?_⟩
      rw [← same] at feedless ⊢
      exact linesFeedless (by simp [none, feedless])
    · refine ⟨lines u, fun x none => ?_⟩
      conv_lhs => rw [split]
      rw [← List.append_assoc, linesFeed, linesFeedless (by simp [none, feedless])]
      rfl
  have feedless := lastLineFeedless a
  rcases lastLineSplit a with same | ⟨q, split⟩
  · refine ⟨[], ls', ?_, fun x none => ?_⟩
    · rw [same, feedsEqZero feedless]
      rfl
    · rw [← same] at feedless ⊢
      rw [← List.append_assoc, behind _ (by simp [none, feedless])]
      rfl
  · refine ⟨lines q, ls', ?_, fun x none => ?_⟩
    · rw [split, linesLength, feedsAppend, feedsFeed, feedsEqZero feedless]
    · conv_lhs => rw [split]
      rw [List.append_assoc, List.cons_append, linesFeed, ← List.append_assoc, behind _ (by simp [none, feedless])]

theorem placeOfLine {t : Text} {n : Nat} (bound : n ≤ feeds t) :
    ∃ a b, t = a ++ b ∧ feeds a = n ∧ lastLine a = [] := by
  induction t generalizing n with
  | nil =>
    have zero : n = 0 := by simpa [feeds] using bound
    exact ⟨[], [], rfl, by simp [zero, feeds], rfl⟩
  | cons c t ih =>
    cases n with
    | zero => exact ⟨[], c :: t, rfl, rfl, rfl⟩
    | succ n =>
      by_cases feed : c = '\n'
      · subst feed
        obtain ⟨a, b, split, count, start⟩ := ih (n := n) (by simpa using bound)
        exact ⟨'\n' :: a, b, by rw [split]; rfl, by simp [count], start⟩
      · obtain ⟨a, b, split, count, start⟩ := ih (n := n + 1) (by rwa [feedsCons feed] at bound)
        refine ⟨c :: a, b, by rw [split]; rfl, by rw [feedsCons feed, count], ?_⟩
        rcases lineFront start with rfl | ⟨q, rfl⟩
        · simp [feeds] at count
        · exact lastLineFeed (c :: q) (by simp)

end Text

namespace Line
open Lexer (feeds)
open Text

@[simp] theorem placeFromLength (p : Nat) (ls : List Text) : (placeFrom p ls).length = ls.length := by
  induction ls generalizing p with
  | nil => rfl
  | cons l ls ih => simp [placeFrom, ih]

theorem placeFromAppend (p : Nat) {ls : List Text} (some : ls ≠ []) (more : List Text) :
    placeFrom p (ls ++ more) = placeFrom p ls ++ placeFrom (p + (unlines ls).length + 1) more := by
  induction ls generalizing p with
  | nil => contradiction
  | cons l ls ih =>
    cases ls with
    | nil => simp [placeFrom, unlines]
    | cons l' ls =>
      have rest := ih (p + l.length + 1) (by simp)
      have length : p + (unlines (l :: l' :: ls)).length + 1 =
          p + l.length + 1 + (unlines (l' :: ls)).length + 1 := by
        simp only [unlinesCons, List.length_append, List.length_cons]
        omega
      simp only [List.cons_append, placeFrom, length] at rest ⊢
      rw [rest]

theorem placeFromFeed (p : Nat) (a b : Text) :
    placeFrom p (lines (a ++ '\n' :: b)) =
      placeFrom p (lines a) ++ placeFrom (p + a.length + 1) (lines b) := by
  rw [linesFeed, placeFromAppend p (linesNeNil a), unlinesLines]

theorem placeFromHead (p : Nat) (t : Text) :
    (placeFrom p (lines t))[0]? = some ⟨p, firstLine t⟩ := by
  have head := linesHead t
  cases split : lines t with
  | nil => exact absurd split (linesNeNil t)
  | cons l ls =>
    rw [split] at head
    simpa [placeFrom] using head

theorem ofTextLength (t : Text) : (ofText t).length = feeds t + 1 := by
  simp [ofText, linesLength]

theorem ofTextAt (a b : Text) :
    (ofText (a ++ b))[feeds a]? =
      some ⟨a.length - (lastLine a).length, lastLine a ++ firstLine b⟩ := by
  have feedless := lastLineFeedless a
  unfold ofText
  rcases lastLineSplit a with same | ⟨q, split⟩
  · rw [← same] at feedless ⊢
    rw [feedsEqZero feedless, placeFromHead, firstLineAppend feedless, Nat.sub_self]
  · have before : feeds a = (placeFrom 0 (lines q)).length := by
      rw [split, placeFromLength, linesLength, feedsAppend, feedsFeed, feedsEqZero feedless]
    have start : a.length - (lastLine a).length = q.length + 1 := by
      have length := congrArg List.length split
      simp only [List.length_append, List.length_cons] at length
      omega
    have whole : a ++ b = q ++ '\n' :: (lastLine a ++ b) := by
      rw [← List.cons_append, ← List.append_assoc, ← split]
    rw [start, whole, placeFromFeed, before, List.getElem?_append_right (Nat.le_refl _), Nat.sub_self,
      placeFromHead, firstLineAppend feedless]
    simp

theorem ofTextPlace {t : Text} {n : Nat} {l : Line} (found : (ofText t)[n]? = some l) :
    ∃ a b, t = a ++ b ∧ a.length = l.start ∧ feeds a = n ∧ lastLine a = [] ∧
      firstLine b = l.content := by
  have bound : n < (ofText t).length := by
    obtain ⟨inside, _⟩ := List.getElem?_eq_some_iff.mp found
    exact inside
  rw [ofTextLength] at bound
  obtain ⟨a, b, rfl, count, start⟩ := placeOfLine (Nat.le_of_lt_succ bound)
  have same := ofTextAt a b
  rw [count, found, start] at same
  cases Option.some.inj same
  exact ⟨a, b, rfl, by simp, count, start, by simp⟩

theorem contentFeedless {t : Text} {n : Nat} {l : Line} (found : (ofText t)[n]? = some l) :
    '\n' ∉ l.content := by
  obtain ⟨_, b, _, _, _, _, content⟩ := ofTextPlace found
  exact content ▸ firstLineFeedless b

theorem startLe {t : Text} {n : Nat} {l : Line} (found : (ofText t)[n]? = some l) (p : Nat) :
    l.start ≤ p ↔ n ≤ feeds (t.take p) := by
  obtain ⟨a, b, rfl, length, count, start, _⟩ := ofTextPlace found
  constructor
  · intro before
    rw [List.take_append, List.take_of_length_le (by omega), feedsAppend]
    omega
  · intro bound
    by_contra after
    rcases lineFront start with rfl | ⟨q, rfl⟩
    · simp at length
      omega
    · simp only [List.length_append, List.length_singleton] at length
      have inside : ((q ++ ['\n']) ++ b).take p = q.take p := by
        rw [List.append_assoc, List.take_append, Nat.sub_eq_zero_of_le (by omega)]
        simp
      have fewer : feeds (q.take p) ≤ feeds q := (List.take_sublist p q).count_le '\n'
      rw [inside] at bound
      simp only [feedsAppend, feedsFeed] at count
      omega

end Line
end Indentation
