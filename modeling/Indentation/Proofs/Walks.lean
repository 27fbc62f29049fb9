import Indentation.Proofs.Matching
import Indentation.Proofs.Statements

/-! Walks over one level in both directions. A level begins behind the bracket that encloses it, or behind the last
bracket that closes nothing. One step back undoes one step forward, so the two walks between the start of the
level and a word meet the same expressions, and these are the words that stand directly at the level. -/
namespace Indentation

namespace Outline
variable {o : Outline} {c g i j : Nat}

def isStray (o : Outline) (c : Nat) : Bool := o.isClosing c && (o.partner? c).isNone

def behindStray (o : Outline) : (g : Nat) → Nat
  | 0 => 0
  | c + 1 => if o.isStray c then c + 1 else o.behindStray c

/- The start of the level of word `g`: the place behind the bracket that encloses it, or behind the last bracket
that closes nothing when there is no bracket around it. -/
def levelStart (o : Outline) (enclosing : Option Nat) (g : Nat) : Nat :=
  match enclosing with
  | some b => b + 1
  | none => o.behindStray g

theorem behindStrayLe (o : Outline) (g : Nat) : o.behindStray g ≤ g := by
  fun_induction behindStray o g with
  | case1 => exact Nat.le_refl 0
  | case2 c stray => exact Nat.le_refl (c + 1)
  | case3 c plain ih => exact Nat.le_succ_of_le ih

theorem strayFree (low : o.behindStray g ≤ j) (high : j < g) : o.isStray j = false := by
  fun_induction behindStray o g with
  | case1 => contradiction
  | case2 c stray => omega
  | case3 c plain ih =>
    rcases Nat.lt_succ_iff_lt_or_eq.mp high with earlier | rfl
    · exact ih low earlier
    · simpa using plain

theorem beforeAfter {e : {e : Nat // i < e}} (closing : o.isClosing i = false) (found : o.after? i = some e) :
    o.before? e.1 = some ⟨i, e.2⟩ := by
  unfold after? at found
  split at found
  · -- a group ends with the bracket that closes its first word
    rename_i opening
    obtain ⟨⟨c, after⟩, closer, same⟩ := Option.map_eq_some_iff.mp found
    obtain rfl := same
    rw [closer?, if_pos opening] at closer
    split at closer
    · rename_i d search
      split at closer
      · obtain rfl : d = c := congrArg Subtype.val (Option.some.inj closer)
        obtain ⟨closes, encloses⟩ := (closerFromCloses search).2
        have other : o.isOpening d = false := closingOther closes
        simp [before?, opener?, other, closes, encloses, after]
      · contradiction
    · contradiction
  · -- any other word is an expression of its own
    rename_i opening
    obtain rfl := Option.some.inj found
    simp [before?, opening, closing]

theorem forwardStep {e : {e : Nat // i < e}} (before : i < g) (inside : i < o.size) (closing : ¬ o.isClosing i = true)
    (found : o.after? i = some e) : o.forward i g = i :: o.forward e.1 g := by
  rw [forward, dif_pos ⟨before, inside⟩, if_neg closing, found]

theorem forwardPast (past : g ≤ i) : o.forward i g = [] := by
  rw [forward, dif_neg (fun both => absurd both.1 (Nat.not_lt_of_le past))]

namespace Stacked
variable (stacked : o.Stacked)
include stacked

theorem strayIff : o.isStray c = true ↔ o.isClosing c = true ∧ o.openAt c = [] := by
  rw [isStray, Bool.and_eq_true, Option.isNone_iff_eq_none]
  refine and_congr_right fun closing => ?_
  rw [← List.head?_eq_none_iff, Option.eq_none_iff_forall_ne_some, Option.eq_none_iff_forall_ne_some]
  refine forall_congr' fun b => not_congr ?_
  rw [stacked.partnerClosing closing, Closes, enclosing?, and_iff_right closing]

theorem behindStrayFront (g : Nat) : o.openAt (o.behindStray g) = [] ∧ o.before? (o.behindStray g) = none := by
  fun_induction behindStray o g with
  | case1 => exact ⟨stacked.first, rfl⟩
  | case2 c stray =>
    obtain ⟨closing, outside⟩ := stacked.strayIff.mp stray
    have other : o.isOpening c = false := closingOther closing
    refine ⟨by rw [stacked.afterClosing closing, outside, List.tail_nil], ?_⟩
    simp [before?, opener?, other, closing, enclosing?, outside]
  | case3 c plain ih => exact ih

theorem stretchOutside (inside : g ≤ o.size) (outside : o.openAt g = []) : o.Stretch (o.behindStray g) g where
  inside := inside
  level := (stacked.behindStrayFront g).1.trans outside.symm
  deeper j _ _ := by
    rw [outside]
    exact List.nil_suffix
  unclosed j low high same := by
    rw [Bool.eq_false_iff]
    intro closing
    have stray := stacked.strayIff.mpr ⟨closing, same.trans outside⟩
    rw [strayFree low high] at stray
    contradiction

theorem stretchLevel (inside : g ≤ o.size) :
    let i := o.levelStart (o.enclosing? g) g
    i ≤ g ∧ o.Stretch i g ∧ o.before? i = none := by
  cases encloses : o.enclosing? g with
  | some b =>
    obtain ⟨before, opening⟩ := stacked.memberOpens (List.mem_of_head? encloses)
    refine ⟨before, stacked.stretchInside inside encloses, ?_⟩
    show o.before? (b + 1) = none
    rw [before?, if_pos opening]
  | none =>
    have outside := List.head?_eq_none_iff.mp encloses
    exact ⟨o.behindStrayLe g, stacked.stretchOutside inside outside, (stacked.behindStrayFront g).2⟩

end Stacked

namespace Stretch

theorem earlier (stretch : o.Stretch i g) (before : j ≤ g) (level : o.openAt j = o.openAt g) : o.Stretch i j where
  inside := Nat.le_trans before stretch.inside
  level := stretch.level.trans level.symm
  deeper m low high := level ▸ stretch.deeper m low (Nat.le_trans high before)
  unclosed m low high same := stretch.unclosed m low (Nat.lt_of_lt_of_le high before) (same.trans level)

theorem forwardOrdered (stacked : o.Stacked) (stretch : o.Stretch i g) : (o.forward i g).Pairwise (· < ·) := by
  fun_induction forward o i g with
  | case1 i both closing => exact .nil
  | case2 i both closing ih =>
    obtain ⟨⟨e, later⟩, found, _, level, _⟩ := stretch.after stacked both.1
    have rest := stretch.later (Nat.le_of_lt later) level
    rw [found]
    refine .cons (fun j member => ?_) (ih e later rest)
    have from_ := ((rest.memForward stacked).mp member).1
    omega
  | case3 i past => exact .nil

theorem forwardLast (stacked : o.Stacked) (stretch : o.Stretch i g) (before : i < g) :
    ∃ e, o.before? g = some e ∧ i ≤ e.1 ∧ o.forward i g = o.forward i e.1 ++ [e.1] := by
  fun_induction forward o i g with
  | case1 i both closing =>
    rw [stretch.unclosed i (Nat.le_refl i) both.1 stretch.level] at closing
    contradiction
  | case2 i both closing ih =>
    obtain ⟨⟨s, later⟩, found, bound, level, _⟩ := stretch.after stacked both.1
    rw [found]
    show ∃ e, o.before? g = some e ∧ i ≤ e.1 ∧ i :: o.forward s g = o.forward i e.1 ++ [e.1]
    rcases Nat.lt_or_eq_of_le bound with more | rfl
    · obtain ⟨e, last, from_, walk⟩ := ih s later (stretch.later (Nat.le_of_lt later) level) more
      have reach : i < e.1 := Nat.lt_of_lt_of_le later from_
      refine ⟨e, last, Nat.le_of_lt reach, ?_⟩
      rw [walk, forwardStep reach both.2 closing found, List.cons_append]
    · refine ⟨⟨i, later⟩, beforeAfter (by simpa using closing) found, Nat.le_refl i, ?_⟩
      rw [forwardPast (Nat.le_refl _), forwardPast (Nat.le_refl _), List.nil_append]
  | case3 i past => exact absurd ⟨before, Nat.lt_of_lt_of_le before stretch.inside⟩ past

theorem backwardReverse (stacked : o.Stacked) (stretch : o.Stretch i g) (le : i ≤ g) (first : o.before? i = none) :
    o.backward g = (o.forward i g).reverse := by
  induction g using Nat.strongRecOn with
  | ind g ih =>
    rcases Nat.lt_or_eq_of_le le with before | rfl
    · obtain ⟨⟨e, below⟩, found, from_, walk⟩ := stretch.forwardLast stacked before
      have level := stacked.beforeLevel stretch.inside found
      have rest := ih e below (stretch.earlier (Nat.le_of_lt below) level) from_
      rw [backward, found, walk, List.reverse_concat]
      exact congrArg (e :: ·) rest
    · rw [backward, first, forwardPast (Nat.le_refl i), List.reverse_nil]

end Stretch
end Outline

namespace Query
variable {text : Text} {k : Nat}

theorem forwardWord (i : Nat) (inside : k < (ofText text).outline.size) :
    (ofText text).forward (some i) ((ofText text).source.startOf k) =
      .ok (((ofText text).outline.forward i k).map Int.ofNat) := by
  have rank : (ofText text).rank ((ofText text).source.startOf k) = k :=
    Source.rankWord (Source.outlineSize text ▸ inside)
  have forwards : ¬ (i : Int) < 0 := by omega
  rw [forward, if_neg forwards, rank, Int.toNat_natCast]

theorem backwardWord (inside : k ≤ (ofText text).outline.size) :
    (ofText text).backward k = .ok ((ofText text).outline.backward k) := by
  cases k with
  | zero =>
    rw [Outline.backward]
    rfl
  | succ p =>
    have later : ¬ ((p + 1 : Nat) : Int) ≤ 0 := by omega
    have bound : ((p + 1 : Nat) : Int) ≤ (ofText text).outline.size := by omega
    rw [backward, if_neg later, if_pos bound, Int.toNat_natCast]

theorem walksMirrored (text : Text) {k : Nat} (inside : k < (ofText text).outline.size) :
    let q := ofText text
    let start (j : Nat) : Int := q.source.startOf j
    let first := q.outline.levelStart (q.enclosing? (start k)) k
    ∃ walk : List Nat,
      q.forward (some first) (start k) = .ok (walk.map Int.ofNat) ∧ q.backward k = .ok walk.reverse ∧
      walk.Pairwise (· < ·) ∧
      ∀ j, j ∈ walk ↔ first ≤ j ∧ j < k ∧ q.outline.isClosing j = false ∧
        q.enclosing? (start j) = q.enclosing? (start k) := by
  intro q start first
  have stacked : q.outline.Stacked := Outline.ofWordsStacked _ _
  have within := Nat.le_of_lt inside
  have encloser : q.enclosing? (start k) = q.outline.enclosing? k := enclosingWord inside
  obtain ⟨le, stretch, front⟩ := stacked.stretchLevel within
  rw [← encloser] at le stretch front
  refine ⟨q.outline.forward first k, forwardWord first inside, ?_, stretch.forwardOrdered stacked, fun j => ?_⟩
  · rw [← stretch.backwardReverse stacked le front]
    exact backwardWord within
  · rw [stretch.memForward stacked]
    refine and_congr_right fun low => and_congr_right fun high => ?_
    have level : q.enclosing? (start j) = q.outline.enclosing? j := enclosingWord (Nat.lt_trans high inside)
    rw [level, encloser, ← stacked.levelIff]
    exact ⟨fun same => ⟨stretch.unclosed j low high same, same⟩, And.right⟩

theorem walksMirroredStray :
    let q := ofText ") f(x) {y} z".toList
    let start (j : Nat) : Int := q.source.startOf j
    let first := q.outline.levelStart (q.enclosing? (start 8)) 8
    8 < q.outline.size ∧ first = 1 ∧ q.forward (some first) (start 8) = .ok [1, 2, 5] ∧
      q.backward 8 = .ok [5, 2, 1] ∧
      ∀ j, j ∈ [1, 2, 5] ↔ first ≤ j ∧ j < 8 ∧ q.outline.isClosing j = false ∧
        q.enclosing? (start j) = q.enclosing? (start 8) := by
  intro q start first
  have inside : 8 < q.outline.size := by decide +kernel
  have back : q.backward 8 = .ok [5, 2, 1] := by decide +kernel
  obtain ⟨walk, forward, backward, _, members⟩ := walksMirrored _ inside
  obtain rfl : walk = [1, 2, 5] := List.reverse_injective (Except.ok.inj (backward.symm.trans back))
  exact ⟨inside, by decide +kernel, forward, back, members⟩

end Query
end Indentation
