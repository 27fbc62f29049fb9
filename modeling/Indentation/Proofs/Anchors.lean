import Indentation.Placement.Rules

/-! Anchors lie before the line they place. Brackets enclose only later words, walks go back, and so
each of the rules measures from a word before the gap it looks at, or from the line of such a word. -/
namespace Indentation

namespace Nesting

theorem stepEarlier {stack : Stack} {before ks : List Kind} {k : Kind}
    (open_ : ∀ b ∈ stack, b < before.length ∧ ((before ++ k :: ks)[b]?).any Kind.isOpening = true) :
    ∀ b ∈ step stack before.length k,
      b < before.length + 1 ∧ ((before ++ k :: ks)[b]?).any Kind.isOpening = true := by
  intro b member
  unfold step at member
  split at member
  · have old := open_ b (List.mem_of_mem_tail member)
    exact ⟨by omega, old.2⟩
  · split at member
    · rename_i opening
      rcases List.mem_cons.mp member with rfl | inside
      · exact ⟨by omega, by simpa using opening⟩
      · have old := open_ b inside
        exact ⟨by omega, old.2⟩
    · have old := open_ b member
      exact ⟨by omega, old.2⟩

theorem openStacksEarlier (stack : Stack) (before ks : List Kind)
    (open_ : ∀ b ∈ stack, b < before.length ∧ ((before ++ ks)[b]?).any Kind.isOpening = true)
    {j : Nat} {later : Stack} (found : (openStacksFrom stack before.length ks)[j]? = some later) :
    ∀ b ∈ later, b < before.length + j ∧ ((before ++ ks)[b]?).any Kind.isOpening = true := by
  induction ks generalizing stack before j with
  | nil =>
    cases j with
    | zero =>
      cases Option.some.inj found
      exact open_
    | succ j => simp [openStacksFrom] at found
  | cons k ks ih =>
    cases j with
    | zero =>
      cases Option.some.inj found
      exact open_
    | succ j =>
      have next : ∀ b ∈ step stack before.length k,
          b < (before ++ [k]).length ∧ ((before ++ [k] ++ ks)[b]?).any Kind.isOpening = true := by
        rw [List.append_assoc, List.singleton_append, List.length_append, List.length_singleton]
        exact stepEarlier open_
      have tail := ih (step stack before.length k) (before ++ [k]) next
        (j := j) (by simpa [openStacksFrom] using found)
      intro b member
      have result := tail b member
      rw [List.append_assoc, List.singleton_append, List.length_append, List.length_singleton] at result
      exact ⟨by omega, result.2⟩

theorem openStacksLength (stack : Stack) (i : Nat) (ks : List Kind) :
    (openStacksFrom stack i ks).length = ks.length + 1 := by
  induction ks generalizing stack i with
  | nil => rfl
  | cons k ks ih => rw [openStacksFrom, List.length_cons, ih, List.length_cons]

end Nesting

namespace Outline

def Nested (o : Outline) : Prop :=
  ∀ i b, o.enclosing? i = some b → b < i ∧ o.isOpening b = true

theorem ofWordsNested (words : List Word) (blanks : List Bool) : (ofWords words blanks).Nested := by
  intro i b found
  have nest : (ofWords words blanks).nest[i]? = (Nesting.openStacks (words.map Word.kind))[i]? := by
    simp [ofWords]
  rw [enclosing?, openAt, nest] at found
  cases stack : (Nesting.openStacks (words.map Word.kind))[i]? with
  | none => simp [stack] at found
  | some later =>
    rw [stack, Option.getD_some] at found
    have earlier := Nesting.openStacksEarlier [] [] (words.map Word.kind) (by simp) stack b
      (List.mem_of_head? found)
    simpa [isOpening, kind?, ofWords] using earlier

theorem openerEncloses {o : Outline} {i : Nat} {b : {b : Nat // b < i}} (answers : o.opener? i = some b) :
    o.enclosing? i = some b.1 := by
  unfold opener? at answers
  split at answers
  · split at answers
    · rename_i c encloses
      split at answers
      · cases answers
        exact encloses
      · contradiction
    · contradiction
  · contradiction

theorem runOnStartLe (o : Outline) (s : Strategy) (i : Nat) : o.runOnStart s i ≤ i := by
  induction i using Nat.strongRecOn with
  | ind i ih =>
    rw [runOnStart]
    split
    · split
      · exact Nat.le_refl i
      · rename_i e below _
        have head := o.lineHeadBeforeLe e
        have start := ih (o.lineHeadBefore e) (by omega)
        omega
    · exact Nat.le_refl i

theorem expressionStartLe (o : Outline) (i : Nat) : (o.expressionStart? i).getD i ≤ i := by
  unfold expressionStart?
  split
  · cases o.opener? i with
    | none => exact Nat.le_refl i
    | some s => exact Nat.le_of_lt s.2
  · exact Nat.le_refl i

theorem backwardLt (o : Outline) (i : Nat) : ∀ j ∈ o.backward i, j < i := by
  induction i using Nat.strongRecOn with
  | ind i ih =>
    rw [backward]
    split
    · simp
    · rename_i s below _
      intro j member
      rcases List.mem_cons.mp member with rfl | later
      · exact below
      · have earlier := ih s below j later
        omega

theorem bodyIntroLt {o : Outline} {g intro : Nat} (found : o.bodyIntro? g = some intro) : intro < g := by
  unfold bodyIntro? at found
  split at found
  · contradiction
  · rename_i p
    split at found
    · cases found
      omega
    · split at found
      · contradiction
      · cases found
        omega
    · split at found
      · rename_i j below _
        split at found
        · cases found
          omega
        · contradiction
      · contradiction
    · contradiction

def Precedes (o : Outline) (rank : Nat) : Anchor → Prop
  | .word i => i < rank
  | .margin line => ∃ i, i < rank ∧ o.lineOf i = line

theorem alignedAnchorPrecedes {o : Outline} {rank i : Nat} (settings : Settings) (earlier : i < rank) :
    o.Precedes rank (o.alignedAnchor settings i) := by
  unfold alignedAnchor
  split
  · exact ⟨i, earlier, rfl⟩
  · exact earlier

theorem statementAnchorPrecedes {o : Outline} {rank i : Nat} (settings : Settings) (earlier : i < rank) :
    o.Precedes rank (o.statementAnchor settings i) := by
  apply alignedAnchorPrecedes
  have start := o.expressionStartLe i
  have head := o.lineHeadBeforeLe ((o.expressionStart? i).getD i)
  have first := o.runOnStartLe .keywordsOnly (o.lineHeadBefore ((o.expressionStart? i).getD i))
  omega

end Outline

namespace Reading
variable {r : Reading} {g : Gap} {anchor : Anchor} {step : Shift}

theorem wordRank {i : Nat} (found : g.word? = some i) : i = g.rank := by
  unfold Gap.word? at found
  split at found
  · exact (Option.some.inj found).symm
  · contradiction

theorem listAnchorPrecedes {rank b : Nat} (earlier : b + 1 < rank) (found : r.listAnchor? b = some anchor) :
    r.outline.Precedes rank anchor := by
  unfold listAnchor? at found
  split at found
  · cases found
    exact ⟨b, by omega, rfl⟩
  · split at found
    · cases found
      exact earlier
    · contradiction

theorem ifChainLe (o : Outline) (j : Nat) : ifChain o j ≤ j := by
  unfold ifChain
  split
  · omega
  · exact Nat.le_refl j

theorem openIfLt {o : Outline} {pending m i : Nat} {js : List Nat} (before : ∀ j ∈ js, j < i)
    (found : openIf? o pending js = some m) : m < i := by
  induction js generalizing pending with
  | nil => simp [openIf?] at found
  | cons j js ih =>
    have rest : ∀ k ∈ js, k < i := fun k member => before k (by simp [member])
    have head := before j (by simp)
    unfold openIf? at found
    split at found
    · exact ih rest found
    · split at found
      · split at found
        · cases found
          have chain := ifChainLe o j
          omega
        · exact ih rest found
      · exact ih rest found

theorem formOfLt {i m : Nat} (found : r.formOf? i = some m) : m < i := by
  have before := r.outline.backwardLt i
  simp only [formOf?] at found
  split at found
  · exact openIfLt before found
  · exact before m (List.mem_of_find?_eq_some found)
  · exact before m (List.mem_of_find?_eq_some found)
  · exact before m (List.mem_of_find?_eq_some found)
  · contradiction

theorem openBracketPrecedes (found : r.openBracket g = some (anchor, step)) :
    r.outline.Precedes g.rank anchor := by
  simp only [openBracket] at found
  split at found
  · rename_i p word
    have rank := wordRank word
    split at found
    · contradiction
    · split at found
      · rename_i s curried
        cases found
        unfold curriedGroup? at curried
        simp only at curried
        split at curried
        · obtain ⟨opener, _, rfl⟩ := Option.map_eq_some_iff.mp curried
          have below := opener.2
          show opener.1 < g.rank
          omega
        · contradiction
      · split at found
        · contradiction
        · split at found
          · cases found
            exact Outline.statementAnchorPrecedes _ (by omega)
          · contradiction
  · contradiction

theorem enumeratorPrecedes (found : r.enumerator g = some (anchor, step)) :
    r.outline.Precedes g.rank anchor := by
  simp only [enumerator] at found
  split at found
  · contradiction
  · split at found
    · contradiction
    · split at found
      · rename_i both
        obtain ⟨listed, elements, pair⟩ := Option.map_eq_some_iff.mp found
        cases pair
        simp only [Bool.and_eq_true, decide_eq_true_iff] at both
        exact listAnchorPrecedes both.2 elements
      · contradiction

theorem formPrecedes (found : r.form g = some (anchor, step)) : r.outline.Precedes g.rank anchor := by
  simp only [form] at found
  split at found
  · contradiction
  · rename_i i word
    have rank := wordRank word
    split at found
    · contradiction
    · obtain ⟨m, belongs, pair⟩ := Option.map_eq_some_iff.mp found
      have earlier := formOfLt belongs
      split at pair
      · cases pair
        show m < g.rank
        omega
      · cases pair
        exact Outline.statementAnchorPrecedes _ (by omega)

theorem elementPrecedes (nested : r.outline.Nested) (found : r.element g = some (anchor, step)) :
    r.outline.Precedes g.rank anchor := by
  simp only [element] at found
  split at found
  · contradiction
  · rename_i comma
    split at found
    · contradiction
    · rename_i b encloses
      obtain ⟨listed, elements, pair⟩ := Option.map_eq_some_iff.mp found
      cases pair
      obtain ⟨earlier, opening⟩ := nested _ _ encloses
      have apart : b + 1 ≠ g.rank := by
        intro same
        simp only [← same, Bool.or_eq_true, not_or, bne_iff_ne, ne_eq, Decidable.not_not] at comma
        have kind : r.outline.kind? b = some (.mark .comma) := comma.1
        simp [Outline.isOpening, kind, Kind.isOpening] at opening
      exact listAnchorPrecedes (by omega) elements

theorem bodyPrecedes (found : r.body g = some (anchor, step)) : r.outline.Precedes g.rank anchor := by
  simp only [body] at found
  obtain ⟨intro, introduces, pair⟩ := Option.map_eq_some_iff.mp found
  have earlier := Outline.bodyIntroLt introduces
  cases pair
  split
  · have chain := ifChainLe r.outline intro
    show ifChain r.outline intro < g.rank
    omega
  · exact Outline.statementAnchorPrecedes _ earlier

theorem runOnPrecedes (found : r.runOn g = some (anchor, step)) : r.outline.Precedes g.rank anchor := by
  simp only [runOn] at found
  split at found
  · contradiction
  · rename_i i word
    have rank := wordRank word
    split at found
    · contradiction
    · cases found
      have start := r.outline.runOnStartLe r.strategy i
      exact Outline.alignedAnchorPrecedes _ (by omega)

theorem blockPrecedes (nested : r.outline.Nested) (found : r.block g = some (anchor, step)) :
    r.outline.Precedes g.rank anchor := by
  simp only [block] at found
  obtain ⟨b, encloses, pair⟩ := Option.map_eq_some_iff.mp found
  have earlier := (nested _ _ encloses).1
  cases pair
  split
  · exact earlier
  · exact Outline.statementAnchorPrecedes _ earlier

def named : List (String × (Reading → Gap → Found)) :=
  [("open-paren", openBracket), ("for-enumerators", enumerator), ("forms-align", form),
    ("list", element), ("body", body), ("run-on", runOn), ("block", block)]

def first (r : Reading) (g : Gap) : Found := named.findSome? fun entry => entry.2 r g

theorem namedPrecedes {entry : String × (Reading → Gap → Found)} (nested : r.outline.Nested)
    (member : entry ∈ named) (answer : entry.2 r g = some (anchor, step)) :
    r.outline.Precedes g.rank anchor := by
  simp only [named, List.mem_cons, List.not_mem_nil, or_false] at member
  rcases member with rfl | rfl | rfl | rfl | rfl | rfl | rfl
  · exact openBracketPrecedes answer
  · exact enumeratorPrecedes answer
  · exact formPrecedes answer
  · exact elementPrecedes nested answer
  · exact bodyPrecedes answer
  · exact runOnPrecedes answer
  · exact blockPrecedes nested answer

theorem firstPrecedes (nested : r.outline.Nested) (found : r.first g = some (anchor, step)) :
    r.outline.Precedes g.rank anchor := by
  obtain ⟨entry, member, answer⟩ := List.exists_of_findSome?_eq_some found
  exact namedPrecedes nested member answer

end Reading
end Indentation
