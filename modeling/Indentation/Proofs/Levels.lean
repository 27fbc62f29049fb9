import Indentation.Proofs.Anchors

/-! Levels of nesting. The open brackets before a word are its level. A bracket that is still open stands at
the level below it, so an expression begins at the level at which it ends. Walks over expressions stay at the
level they start from, and a walk forward goes over just the words that stand directly at it. -/
namespace Indentation

namespace Nesting

theorem openStacksNext (stack : Stack) (i : Nat) (ks : List Kind) {j : Nat} {k : Kind} (found : ks[j]? = some k) :
    ∃ here, (openStacksFrom stack i ks)[j]? = some here ∧
      (openStacksFrom stack i ks)[j + 1]? = some (step here (i + j) k) := by
  induction ks generalizing stack i j with
  | nil => contradiction
  | cons k' ks ih =>
    cases j with
    | zero =>
      cases Option.some.inj found
      exact ⟨stack, rfl, by cases ks <;> rfl⟩
    | succ j =>
      obtain ⟨here, entry, next⟩ := ih (step stack i k') (i + 1) found
      rw [Nat.add_right_comm] at next
      exact ⟨here, entry, next⟩

end Nesting

namespace Outline
variable {o : Outline} {s s' : Strategy} {b i j g : Nat}

structure Stacked (o : Outline) : Prop where
  first : o.openAt 0 = []
  next : ∀ i k, o.kind? i = some k → o.openAt (i + 1) = Nesting.step (o.openAt i) i k
  past : ∀ i, o.size < i → o.openAt i = []

theorem ofWordsStacked (words : List Word) (blanks : List Bool) : (ofWords words blanks).Stacked := by
  have nest : ∀ i, (ofWords words blanks).openAt i =
      ((Nesting.openStacks (words.map Word.kind))[i]?).getD [] := by
    intro i
    simp [openAt, ofWords]
  refine ⟨?_, fun i k kind => ?_, fun i past => ?_⟩
  · rw [nest, Nesting.openStacks]
    cases words <;> rfl
  · have found : (words.map Word.kind)[i]? = some k := by simpa [kind?, ofWords] using kind
    obtain ⟨here, entry, next⟩ := Nesting.openStacksNext [] 0 _ found
    rw [Nat.zero_add] at next
    rw [nest, nest, Nesting.openStacks, entry, next]
    rfl
  · have size : (ofWords words blanks).size = words.length := by simp [Outline.size, ofWords]
    rw [nest, List.getElem?_eq_none]
    · rfl
    · rw [Nesting.openStacks, Nesting.openStacksLength, List.length_map]
      omega

theorem kindInside (inside : i < o.size) : ∃ k, o.kind? i = some k := by
  rw [kind?, Array.getElem?_eq_getElem inside]
  exact ⟨_, rfl⟩

theorem kindWithin {k : Kind} (kind : o.kind? i = some k) : i < o.size := by
  obtain ⟨_, found, _⟩ := Option.map_eq_some_iff.mp kind
  exact (Array.getElem?_eq_some_iff.mp found).1

namespace Stacked
variable (stacked : o.Stacked)
include stacked

theorem memberOpens (member : b ∈ o.openAt i) : b < i ∧ o.isOpening b = true := by
  induction i with
  | zero =>
    rw [stacked.first] at member
    contradiction
  | succ i ih =>
    by_cases inside : i < o.size
    · obtain ⟨k, kind⟩ := kindInside inside
      rw [stacked.next i k kind, Nesting.step] at member
      have old : b ∈ o.openAt i → b < i + 1 ∧ o.isOpening b = true := fun earlier =>
        ⟨Nat.lt_succ_of_lt (ih earlier).1, (ih earlier).2⟩
      split at member
      · exact old (List.mem_of_mem_tail member)
      · split at member
        · rename_i opening
          rcases List.mem_cons.mp member with rfl | earlier
          · exact ⟨Nat.lt_succ_self b, by rw [isOpening, kind, Option.any_some, opening]⟩
          · exact old earlier
        · exact old member
    · rw [stacked.past _ (by omega)] at member
      contradiction

theorem below {rest : Nesting.Stack} (open_ : b :: rest <:+ o.openAt i) :
    o.openAt b = rest := by
  induction i with
  | zero =>
    rw [stacked.first, List.suffix_nil] at open_
    contradiction
  | succ i ih =>
    by_cases inside : i < o.size
    · obtain ⟨k, kind⟩ := kindInside inside
      rw [stacked.next i k kind, Nesting.step] at open_
      split at open_
      · exact ih (open_.trans (List.tail_suffix _))
      · split at open_
        · rcases List.suffix_cons_iff.mp open_ with same | earlier
          · cases same
            rfl
          · exact ih earlier
        · exact ih open_
    · rw [stacked.past _ (by omega), List.suffix_nil] at open_
      contradiction

theorem member (open_ : b ∈ o.openAt i) : b :: o.openAt b <:+ o.openAt i := by
  obtain ⟨inner, rest, split⟩ := List.append_of_mem open_
  have suffix : b :: rest <:+ o.openAt i := ⟨inner, split.symm⟩
  rwa [stacked.below suffix]

theorem enclosed (encloses : o.enclosing? i = some b) : o.openAt i = b :: o.openAt b := by
  obtain ⟨rest, stack⟩ := List.head?_eq_some_iff.mp encloses
  have suffix : b :: rest <:+ o.openAt i := ⟨[], stack.symm⟩
  rw [stack, stacked.below suffix]

theorem levelIff : o.openAt i = o.openAt j ↔ o.enclosing? i = o.enclosing? j := by
  constructor
  · intro level
    rw [enclosing?, enclosing?, level]
  · intro same
    cases encloses : o.enclosing? j with
    | none =>
      rw [encloses] at same
      rw [List.head?_eq_none_iff.mp same, List.head?_eq_none_iff.mp encloses]
    | some b =>
      rw [encloses] at same
      rw [stacked.enclosed same, stacked.enclosed encloses]

theorem afterOpening (opening : o.isOpening i = true) : o.openAt (i + 1) = i :: o.openAt i := by
  obtain ⟨k, kind, opens⟩ := (Option.any_eq_true _ _).mp opening
  have other : k.isClosing = false := by cases k <;> first | rfl | contradiction
  rw [stacked.next i k kind, Nesting.step, other, opens]
  rfl

theorem afterClosing (closing : o.isClosing i = true) : o.openAt (i + 1) = (o.openAt i).tail := by
  obtain ⟨k, kind, closes⟩ := (Option.any_eq_true _ _).mp closing
  rw [stacked.next i k kind, Nesting.step, if_pos closes]

theorem afterOther (inside : i < o.size) (opening : o.isOpening i = false) (closing : o.isClosing i = false) :
    o.openAt (i + 1) = o.openAt i := by
  obtain ⟨k, kind⟩ := kindInside inside
  have opens : k.isOpening = false := by simpa [isOpening, kind] using opening
  have closes : k.isClosing = false := by simpa [isClosing, kind] using closing
  rw [stacked.next i k kind, Nesting.step, opens, closes]
  rfl

theorem stillOpen (inside : i < o.size) (earlier : b < i) (open_ : b ∈ o.openAt (i + 1)) : b ∈ o.openAt i := by
  obtain ⟨k, kind⟩ := kindInside inside
  rw [stacked.next i k kind, Nesting.step] at open_
  split at open_
  · exact List.mem_of_mem_tail open_
  · split at open_
    · exact (List.mem_cons.mp open_).resolve_left (Nat.ne_of_lt earlier)
    · exact open_

theorem openBetween (inside : g ≤ o.size) (open_ : b ∈ o.openAt g) (after : b < j) (before : j ≤ g) :
    b ∈ o.openAt j := by
  induction g with
  | zero => omega
  | succ g ih =>
    rcases Nat.lt_or_eq_of_le before with earlier | rfl
    · exact ih (by omega) (stacked.stillOpen (by omega) (by omega) open_) (by omega)
    · exact open_

theorem beforeLevel {e : {e : Nat // e < i}} (inside : i ≤ o.size) (found : o.before? i = some e) :
    o.openAt e.1 = o.openAt i := by
  cases i with
  | zero => contradiction
  | succ p =>
    simp only [before?] at found
    split at found
    · contradiction
    · rename_i opening
      split at found
      · rename_i closing
        obtain ⟨b, answers, same⟩ := Option.map_eq_some_iff.mp found
        rw [← same, stacked.afterClosing closing, stacked.enclosed (openerEncloses answers), List.tail_cons]
      · rename_i closing
        cases found
        rw [stacked.afterOther inside (by simpa using opening) (by simpa using closing)]

theorem lineHeadLevel (inside : i ≤ o.size) : o.openAt (o.lineHeadBefore i) = o.openAt i := by
  induction i using Nat.strongRecOn with
  | ind i ih =>
    rw [lineHeadBefore]
    split
    · rfl
    · split
      · rfl
      · rename_i e below found
        rw [ih e below (by omega), stacked.beforeLevel inside found]

theorem runOnLevel (s : Strategy) (inside : i ≤ o.size) : o.openAt (o.runOnStart s i) = o.openAt i := by
  induction i using Nat.strongRecOn with
  | ind i ih =>
    rw [runOnStart]
    split
    · split
      · rfl
      · rename_i e below found
        have head := o.lineHeadBeforeLe e
        rw [ih _ (by omega) (by omega), stacked.lineHeadLevel (by omega), stacked.beforeLevel inside found]
    · rfl

theorem openAfter (inside : j < o.size) (open_ : b ∈ o.openAt j)
    (other : ¬ (o.isClosing j && o.enclosing? j == some b) = true) : b ∈ o.openAt (j + 1) := by
  cases closing : o.isClosing j with
  | true =>
    rw [stacked.afterClosing closing]
    cases stack : o.openAt j with
    | nil =>
      rw [stack] at open_
      contradiction
    | cons c rest =>
      rw [stack] at open_
      refine (List.mem_cons.mp open_).resolve_left fun same => other ?_
      simp [closing, enclosing?, stack, same]
  | false =>
    cases opening : o.isOpening j with
    | true => exact stacked.afterOpening opening ▸ List.mem_cons_of_mem j open_
    | false => rwa [stacked.afterOther inside opening closing]

theorem closerFound (inside : g ≤ o.size) (open_ : b ∈ o.openAt j) (gone : b ∉ o.openAt g) (before : j ≤ g) :
    ∃ c, o.closerFrom b j = some c ∧ j ≤ c ∧ c < g ∧ o.isClosing c = true ∧ o.enclosing? c = some b := by
  fun_induction closerFrom o b j with
  | case1 j within answers =>
    rw [Bool.and_eq_true, beq_iff_eq] at answers
    have other : j ≠ g := fun same => gone (same ▸ open_)
    exact ⟨j, rfl, Nat.le_refl j, by omega, answers⟩
  | case2 j within other ih =>
    have here : j ≠ g := fun same => gone (same ▸ open_)
    obtain ⟨c, found, after, rest⟩ := ih (stacked.openAfter within open_ other) (by omega)
    exact ⟨c, found, by omega, rest⟩
  | case3 j past =>
    have same : j = g := by omega
    exact absurd (same ▸ open_) gone

end Stacked

/- The words from `i` on, before word `g`, are at the level of word `g` or deeper, and none of them closes a
bracket at that level. -/
structure Stretch (o : Outline) (i g : Nat) : Prop where
  inside : g ≤ o.size
  level : o.openAt i = o.openAt g
  deeper : ∀ j, i ≤ j → j ≤ g → o.openAt g <:+ o.openAt j
  unclosed : ∀ j, i ≤ j → j < g → o.openAt j = o.openAt g → o.isClosing j = false

namespace Stretch

theorem later (stretch : o.Stretch i g) (after : i ≤ j) (level : o.openAt j = o.openAt g) : o.Stretch j g where
  inside := stretch.inside
  level := level
  deeper m from_ := stretch.deeper m (by omega)
  unclosed m from_ := stretch.unclosed m (by omega)

theorem after (stacked : o.Stacked) (stretch : o.Stretch i g) (before : i < g) :
    ∃ e, o.after? i = some e ∧ e.1 ≤ g ∧ o.openAt e.1 = o.openAt g ∧
      ∀ j, i < j → j < e.1 → o.openAt j ≠ o.openAt g := by
  have within := Nat.lt_of_lt_of_le before stretch.inside
  have closing := stretch.unclosed i (Nat.le_refl i) before stretch.level
  cases opening : o.isOpening i with
  | false =>
    refine ⟨⟨i + 1, Nat.lt_succ_self i⟩, by simp [after?, opening], before, ?_, fun j low high => ?_⟩
    · rw [stacked.afterOther within opening closing, stretch.level]
    · exact absurd high (Nat.not_lt_of_le low)
  | true =>
    have opens := stacked.afterOpening opening
    have gone : i ∉ o.openAt g := fun member =>
      Nat.lt_irrefl i (stacked.memberOpens (stretch.level ▸ member)).1
    obtain ⟨c, found, from_, before, closes, encloses⟩ :=
      stacked.closerFound stretch.inside (opens ▸ List.mem_cons_self) gone before
    refine ⟨⟨c + 1, by omega⟩, ?_, before, ?_, fun j low high => ?_⟩
    · simp [after?, closer?, opening, found, show i < c by omega]
    · rw [stacked.afterClosing closes, stacked.enclosed encloses, List.tail_cons, stretch.level]
    · have open_ : i ∈ o.openAt j := by
        refine stacked.openBetween (Nat.le_of_lt (Nat.lt_of_lt_of_le before stretch.inside)) ?_ low
          (Nat.le_of_lt_succ high)
        rw [stacked.enclosed encloses]
        exact List.mem_cons_self
      exact fun same => gone (same ▸ open_)

theorem memForward (stacked : o.Stacked) (stretch : o.Stretch i g) :
    j ∈ o.forward i g ↔ i ≤ j ∧ j < g ∧ o.openAt j = o.openAt g := by
  fun_induction forward o i g with
  | case1 i both closing =>
    rw [stretch.unclosed i (Nat.le_refl i) both.1 stretch.level] at closing
    contradiction
  | case2 i both closing ih =>
    obtain ⟨⟨e, later⟩, found, bound, level, deeper⟩ := stretch.after stacked both.1
    rw [found, List.mem_cons, ih e later (stretch.later (by omega) level)]
    constructor
    · rintro (rfl | ⟨low, high⟩)
      · exact ⟨Nat.le_refl j, both.1, stretch.level⟩
      · exact ⟨by omega, high⟩
    · rintro ⟨low, high⟩
      rcases Nat.lt_or_eq_of_le low with beyond | same
      · -- what the step goes over is deeper
        exact .inr ⟨Nat.le_of_not_lt fun early => deeper j beyond early high.2, high⟩
      · exact .inl same.symm
  | case3 i past =>
    have outside : ¬ i < g := fun before => past ⟨before, Nat.lt_of_lt_of_le before stretch.inside⟩
    simp only [List.not_mem_nil, false_iff]
    omega

end Stretch

theorem Stacked.stretchInside (stacked : o.Stacked) (inside : g ≤ o.size) (encloses : o.enclosing? g = some b) :
    o.Stretch (b + 1) g := by
  have stack := stacked.enclosed encloses
  have open_ : b ∈ o.openAt g := stack ▸ List.mem_cons_self
  have between : ∀ j, b + 1 ≤ j → j ≤ g → b ∈ o.openAt j := fun j => stacked.openBetween inside open_
  have first : o.openAt (b + 1) = o.openAt g := by
    rw [stack, stacked.afterOpening (stacked.memberOpens open_).2]
  refine ⟨inside, first, fun j low high => ?_, fun j low high level => ?_⟩
  · rw [stack]
    exact stacked.member (between j low high)
  · rw [Bool.eq_false_iff]
    intro closing
    have next := between (j + 1) (by omega) high
    rw [stacked.afterClosing closing, level, stack, List.tail_cons] at next
    exact Nat.lt_irrefl b (stacked.memberOpens next).1

end Outline
end Indentation
